import Vigile.OrderedMap
import Vigile.Runs

/-! The periodic loops of the plugins: their handlers, the active-callback counter, and what runs after a stop. -/
namespace Vigile.Schedules

inductive Outcome where
  | returned
  | cancelled
  | failed
  deriving DecidableEq

inductive Phase where
  | ready
  | calling
  | submitted
  | executing
  /-- The thread is done, and the loop has not resumed. -/
  | delivered
  | sleeping
  /-- The loop has ended by cancellation, its sync handler goes on in its thread. -/
  | abandoned
  | ended (outcome : Outcome)
  deriving DecidableEq

def Phase.outcome : Phase → Option Outcome
  | .abandoned => some .cancelled
  | .ended outcome => some outcome
  | _ => none

/-- Between the increment of the counter and the `finally`. -/
def Phase.counts : Phase → Bool
  | .calling | .submitted | .executing | .delivered => true
  | _ => false

/-- An invocation of the handler has begun and not ended. -/
def Phase.inflight : Phase → Bool
  | .abandoned => true
  | phase => phase.counts

structure Loop where
  pluginId : String
  phase : Phase
  /-- `cancel()` was called, and the coroutine has not been thrown its CancelledError. -/
  cancelling : Bool

inductive Move where
  /-- The instance has no such attribute. -/
  | misses
  | calls
  | submits
  | starts
  | returns
  /-- The handler has returned, or raised what is logged. -/
  | finishes
  | resists
  /-- A CancelledError leaves the loop: the one it was thrown, or one its handler raises. -/
  | cancelled
  /-- What `except Exception` does not catch, or what is raised outside of the call. -/
  | fails

inductive Change where
  | none_
  | increment
  | decrement

/-- The `finally` leaves a counter of zero as it is. -/
def Change.apply : Change → Nat → Nat
  | .none_,n => n
  | .increment,n => n+1
  | .decrement,n => n-1

def Move.next (move : Move) (phase : Phase) (cancelling : Bool) : Option (Phase × Bool × Change) :=
  match move,phase,cancelling with
  -- The coroutine of a cancelled task, begun or asleep, is resumed with the CancelledError.
  | .misses,.ready,false | .misses,.sleeping,false => some (.ended .returned,false,.none_)
  | .calls,.ready,false | .calls,.sleeping,false => some (.calling,false,.increment)
  | .submits,.ready,false | .submits,.sleeping,false => some (.submitted,false,.increment)
  | .starts,.submitted,cancelling => some (.executing,cancelling,.none_)
  | .returns,.executing,cancelling => some (.delivered,cancelling,.none_)
  | .returns,.abandoned,_ => some (.ended .cancelled,false,.none_)
  -- A handler that restarts its own plugin may return before it is thrown anything.
  | .finishes,.calling,cancelling => some (.sleeping,cancelling,.decrement)
  | .finishes,.delivered,false => some (.sleeping,false,.decrement)
  | .resists,.calling,true => some (.calling,false,.none_)
  | .cancelled,.ready,true | .cancelled,.sleeping,true => some (.ended .cancelled,false,.none_)
  | .cancelled,.calling,_ | .cancelled,.delivered,_ => some (.ended .cancelled,false,.decrement)
  -- The executor drops what is cancelled in its queue, and does not interrupt a thread.
  | .cancelled,.submitted,true => some (.ended .cancelled,false,.decrement)
  | .cancelled,.executing,true => some (.abandoned,false,.decrement)
  | .fails,.ready,false | .fails,.sleeping,false => some (.ended .failed,false,.none_)
  | .fails,.calling,_ | .fails,.delivered,false => some (.ended .failed,false,.decrement)
  | _,_,_ => none

inductive Wait where
  | nothing
  | expired
  | interrupted
  deriving DecidableEq

inductive Place where
  | called
  /-- In `wait_for`, with the keys that are left. -/
  | waiting (i : Nat) (keys : List String) (wait : Wait)
  | over

structure Stop where
  /-- The loop whose handler makes the call. -/
  caller : Option Nat
  pluginId : String
  rest : List String
  place : Place
  /-- The loops this call has cancelled and awaited. -/
  awaited : List Nat
  reported : Bool

structure Scheduler where
  loops : List Loop
  /-- "{plugin_id}:{task_name}" and its task. -/
  tasks : OrderedMap String Nat
  activeCallbacks : String → Nat
  stops : List Stop
  /-- `stop` has returned without a timeout, and the plugin was not started since. -/
  stopped : String → Bool

def initial : Scheduler := ⟨[],.empty,fun _ => 0,[],fun _ => false⟩

def update {α : Type} (dict : String → α) (name : String) (change : α → α) : String → α :=
  fun other => if other = name then change (dict other) else dict other

/-- How a task has ended, if it is done. -/
def outcome (loops : List Loop) (i : Nat) : Option Outcome := loops[i]?.bind fun loop => loop.phase.outcome

/-- `Task.cancel`, which leaves a task that is done. -/
def cancel (loops : List Loop) (i : Nat) : List Loop :=
  match loops[i]? with
  | none => loops
  | some loop => if loop.phase.outcome.isSome then loops else loops.set i {loop with cancelling := true}

def Scheduler.move (s : Scheduler) (i : Nat) (move : Move) : Scheduler :=
  match s.loops[i]? with
  | none => s
  | some loop =>
    match move.next loop.phase loop.cancelling with
    | none => s
    | some (phase,cancelling,change) =>
      {s with
        loops := s.loops.set i ⟨loop.pluginId,phase,cancelling⟩
        activeCallbacks := update s.activeCallbacks loop.pluginId change.apply}

/-- One task of `start`, in the place of one that was running under its key. -/
def Scheduler.spawn (s : Scheduler) (pluginId name : String) : Scheduler :=
  let key := pluginId ++ ":" ++ name
  let loops := match s.tasks.get? key with
    | none => s.loops
    | some existing => cancel s.loops existing
  {s with loops := loops ++ [⟨pluginId,.ready,false⟩], tasks := s.tasks.set key loops.length}

def Scheduler.start (s : Scheduler) (pluginId : String) (names : List String) : Scheduler :=
  names.foldl (fun s name => s.spawn pluginId name) {s with stopped := update s.stopped pluginId fun _ => false}

def keysToStop (tasks : OrderedMap String Nat) (pluginId : String) : List String :=
  tasks.keys.filter fun key => (pluginId ++ ":").toList.isPrefixOf key.toList

/-- The tasks popped up to one that is not done, which is cancelled and awaited, with the keys that are left. -/
def popDone (loops : List Loop) (tasks : OrderedMap String Nat) : List String → OrderedMap String Nat × Option (Nat × List String)
  | [] => (tasks,none)
  | key :: keys =>
    match tasks.get? key with
    | none => popDone loops tasks keys
    | some i => if (outcome loops i).isSome then popDone loops (tasks.erase key) keys else (tasks.erase key,some (i,keys))

/-- Where `stop` returns, `shutdown` calls it for its next plugin. -/
def Stop.next (call : Stop) : Stop :=
  match call.rest with
  | [] => {call with place := .over}
  | pluginId :: rest => ⟨call.caller,pluginId,rest,.called,[],false⟩

/-- The loop of `stop` up to its next await, or to its end. -/
def Scheduler.proceed (s : Scheduler) (j : Nat) (call : Stop) (keys : List String) : Scheduler :=
  match popDone s.loops s.tasks keys with
  | (tasks,some (i,rest)) =>
    {s with
      loops := cancel s.loops i
      tasks := tasks
      stops := s.stops.set j {call with place := .waiting i rest .nothing, awaited := i :: call.awaited}}
  | (tasks,none) =>
    {s with
      tasks := tasks
      activeCallbacks := update s.activeCallbacks call.pluginId fun _ => 0
      stops := s.stops.set j call.next
      stopped := if call.reported then s.stopped else update s.stopped call.pluginId fun _ => true}

/-- What a call of `stop` is resumed by. -/
inductive Event where
  /-- Its first step, or the end of the task it awaits. -/
  | resumed
  | timeout
  | cancelled
  /-- Its caller is the task it awaits, and is thrown the CancelledError. -/
  | caught

inductive Resume where
  | suspended
  | raises
  | waits (loops : List Loop) (call : Stop)
  | continues (loops : List Loop) (call : Stop) (keys : List String)

/-- The end of the await. -/
def Scheduler.resume (s : Scheduler) (call : Stop) (event : Event) : Resume :=
  match call.place with
  | .called =>
    match event with
    | .resumed => .continues s.loops call (keysToStop s.tasks call.pluginId)
    | _ => .suspended
  | .waiting i keys wait =>
    match event,outcome s.loops i with
    | .resumed,none => .suspended
    | .resumed,some .failed => .raises
    -- The timeout is reported where the task ends by the cancellation, and not where it returns.
    | .resumed,some .cancelled => .continues s.loops {call with reported := call.reported || wait = .expired} keys
    | .resumed,some .returned => .continues s.loops call keys
    -- The timeout cancels the task once more, and `wait_for` waits for its end.
    | .timeout,none =>
      match wait with
      | .nothing => .waits (cancel s.loops i) {call with place := .waiting i keys .expired}
      | .expired => .suspended
      | .interrupted => .waits (cancel s.loops i) call
    | .timeout,some _ =>
      match wait with
      | .nothing => .continues s.loops {call with reported := true} keys
      | .expired => .suspended
      | .interrupted => .continues s.loops call keys
    | .cancelled,none => .waits (cancel s.loops i) {call with place := .waiting i keys .interrupted}
    | .cancelled,some _ => .continues s.loops call keys
    | .caught,_ =>
      match s.loops[i]? with
      | some ⟨pluginId,.calling,true⟩ =>
        if call.caller = some i then
          .continues (s.loops.set i ⟨pluginId,.calling,false⟩) {call with awaited := call.awaited.filter (· ≠ i)} keys
        else .suspended
      | _ => .suspended
  | .over => .suspended

def Scheduler.advance (s : Scheduler) (j : Nat) (call : Stop) (event : Event) : Scheduler :=
  match s.resume call event with
  | .suspended => s
  | .raises => {s with stops := s.stops.set j {call with place := .over}}
  | .waits loops call => {s with loops := loops, stops := s.stops.set j call}
  | .continues loops call keys => Scheduler.proceed {s with loops := loops} j call keys

/-- The plugins `shutdown` finds, in the order of a set. -/
def pluginIds (tasks : OrderedMap String Nat) : List String :=
  ((tasks.keys.filter fun key => key.toList.contains ':').map fun key => String.ofList (key.toList.takeWhile (· ≠ ':'))).dedup

def Scheduler.shutdown (s : Scheduler) (caller : Option Nat) (order : List String) : Scheduler :=
  match order with
  | [] => s
  | pluginId :: rest =>
    if order.Perm (pluginIds s.tasks) then {s with stops := s.stops ++ [⟨caller,pluginId,rest,.called,[],false⟩]} else s

inductive Action where
  | start (pluginId : String) (names : List String)
  | stop (caller : Option Nat) (pluginId : String)
  | shutdown (caller : Option Nat) (order : List String)
  /-- A call of `stop` runs to its next await. -/
  | advance (j : Nat) (event : Event)
  | move (i : Nat) (move : Move)

def step (s : Scheduler) : Action → Scheduler
  | .start pluginId names => s.start pluginId names
  | .stop caller pluginId => {s with stops := s.stops ++ [⟨caller,pluginId,[],.called,[],false⟩]}
  | .shutdown caller order => s.shutdown caller order
  | .advance j event =>
    match s.stops[j]? with
    | none => s
    | some call => s.advance j call event
  | .move i move => s.move i move

/-! What is promised -/

/-- The handler invocations of a plugin that have begun and not ended. -/
def invocations (loops : List Loop) (pluginId : String) : Nat :=
  loops.countP fun loop => loop.pluginId = pluginId && loop.phase.inflight

/-- The counter is the number of invocations, and no handler of a stopped plugin runs. -/
def Sound (s : Scheduler) : Prop :=
  ∀ pluginId, s.activeCallbacks pluginId = invocations s.loops pluginId ∧
    (s.stopped pluginId = true → invocations s.loops pluginId = 0)

/-- No handler is called before the loop ends. -/
def Loop.silent (loop : Loop) : Bool :=
  match loop.phase with
  | .ended _ => true
  | .ready | .sleeping => loop.cancelling
  | _ => false

/-- Where `stop` comes to its end, no loop of the plugin it has not awaited is in a call, or calls its handler later. -/
def Drained (s : Scheduler) (loops : List Loop) (call : Stop) (keys : List String) : Prop :=
  (popDone loops s.tasks keys).2 = none → ∀ i loop, loops[i]? = some loop → loop.pluginId = call.pluginId →
    i ∉ call.awaited → loop.phase.inflight = false ∧ (call.reported = false → loop.silent = true)

/-- No cancellation reaches a loop whose sync handler is in its thread, and no `stop` ends over a loop it has not awaited. -/
def Orderly (s : Scheduler) : Action → Prop
  | .move i .cancelled => ∀ loop, s.loops[i]? = some loop → loop.phase = .executing → loop.cancelling = false
  | .advance j event => ∀ call, s.stops[j]? = some call → ∀ loops call' keys, s.resume call event = .continues loops call' keys →
    Drained s loops call' keys
  | _ => True

def counted (loops : List Loop) (pluginId : String) : Nat :=
  loops.countP fun loop => loop.pluginId = pluginId && loop.phase.counts

structure Kept (s : Scheduler) : Prop where
  count : ∀ pluginId, s.activeCallbacks pluginId = counted s.loops pluginId
  heard : ∀ loop ∈ s.loops, loop.phase ≠ .abandoned
  awaited : ∀ call ∈ s.stops, ∀ k ∈ call.awaited,
    (outcome s.loops k).isSome = true ∨ ∃ keys wait, call.place = .waiting k keys wait
  silent : ∀ loop ∈ s.loops, s.stopped loop.pluginId = true → loop.silent = true

structure Follows (loop after : Loop) (change : Change) : Prop where
  plugin : after.pluginId = loop.pluginId
  count : ∀ n, loop.phase.counts.toNat ≤ n → change.apply n + loop.phase.counts.toNat = n + after.phase.counts.toNat
  heard : loop.phase ≠ .abandoned → after.phase ≠ .abandoned
  done : loop.phase.outcome.isSome = true → after.phase.outcome.isSome = true
  silent : loop.silent = true → after.silent = true

variable {s : Scheduler} {i j : Nat} {loop after : Loop} {loops : List Loop} {change : Change} {move : Move} {call : Stop}
  {pluginId : String} {keys : List String} {action : Action} {phase next : Phase} {cancelling flag : Bool}

section
variable (moved : move.next phase cancelling = some (next,flag,change))
include moved

theorem next_count (n : Nat) (least : phase.counts.toNat ≤ n) :
    change.apply n + phase.counts.toNat = n + next.counts.toNat := by
  unfold Move.next at moved
  split at moved
  all_goals cases moved
  all_goals simp only [Phase.counts,Change.apply,Bool.toNat_true,Bool.toNat_false] at least ⊢
  all_goals omega

theorem next_heard
    (thread : move = .cancelled → phase = .executing → cancelling = false) : next ≠ .abandoned := by
  intro abandons
  subst abandons
  unfold Move.next at moved
  split at moved
  all_goals cases moved
  cases thread rfl rfl

theorem next_done (done : phase.outcome.isSome = true) :
    next.outcome.isSome = true := by
  unfold Move.next at moved
  split at moved
  all_goals cases moved
  all_goals first | rfl | cases done

theorem next_silent
    (silent : (Loop.mk pluginId phase cancelling).silent = true) : (Loop.mk pluginId next flag).silent = true := by
  unfold Move.next at moved
  split at moved
  all_goals cases moved
  all_goals first | rfl | cases silent

end

theorem follows_move (moved : move.next loop.phase loop.cancelling = some (next,flag,change))
    (thread : move = .cancelled → loop.phase = .executing → loop.cancelling = false) :
    Follows loop ⟨loop.pluginId,next,flag⟩ change where
  plugin := rfl
  count := next_count moved
  heard := fun _ => next_heard moved thread
  done := next_done moved
  silent := next_silent moved

theorem follows_cancel (loop : Loop) : Follows loop {loop with cancelling := true} .none_ where
  plugin := rfl
  count := fun _ _ => rfl
  heard := id
  done := id
  silent := by
    intro silent
    cases loop with
    | mk pluginId phase cancelling => cases phase <;> first | rfl | exact silent

theorem follows_caught (pluginId : String) : Follows ⟨pluginId,.calling,true⟩ ⟨pluginId,.calling,false⟩ .none_ where
  plugin := rfl
  count := fun _ _ => rfl
  heard := id
  done := id
  silent := id

theorem counted_set (found : loops[i]? = some loop) (follows : Follows loop after change) (pluginId : String) :
    counted (loops.set i after) pluginId =
      if pluginId = loop.pluginId then change.apply (counted loops pluginId) else counted loops pluginId := by
  obtain ⟨inside,here⟩ := List.getElem?_eq_some_iff.mp found
  have set : counted (loops.set i after) pluginId = counted loops pluginId -
      (if loop.pluginId = pluginId && loop.phase.counts then 1 else 0) +
        if loop.pluginId = pluginId && after.phase.counts then 1 else 0 := by
    have all := List.countP_set (p := fun loop => loop.pluginId = pluginId && loop.phase.counts) (a := after) inside
    rw [here,follows.plugin] at all
    exact all
  have least : (if loop.pluginId = pluginId && loop.phase.counts then 1 else 0) ≤ counted loops pluginId :=
    here ▸ List.boole_getElem_le_countP (p := fun loop => loop.pluginId = pluginId && loop.phase.counts) inside
  by_cases same : pluginId = loop.pluginId
  · subst same
    have counts := follows.count (counted loops loop.pluginId)
    cases was : loop.phase.counts <;> cases now : after.phase.counts <;>
      simp [was,now] at least counts set ⊢ <;> omega
  · simp only [same,Ne.symm same,decide_false,Bool.false_and,Bool.false_eq_true,if_false] at set ⊢
    exact set

variable {k i : Nat} {keys : List String} {wait : Wait} {event : Event}

theorem outcome_set (found : loops[i]? = some loop) (follows : Follows loop after change)
    (done : (outcome loops k).isSome = true) : (outcome (loops.set i after) k).isSome = true := by
  obtain ⟨inside,-⟩ := List.getElem?_eq_some_iff.mp found
  by_cases same : i = k
  · subst same
    simp only [outcome,found,Option.bind_some,List.getElem?_set_self inside] at done ⊢
    exact follows.done done
  · simp only [outcome,List.getElem?_set_ne same] at done ⊢
    exact done

/-- What every loop may become, with what it does to the counter, keeps the invariant. -/
theorem kept_set (kept : Kept s) (found : s.loops[i]? = some loop) (follows : Follows loop after change) :
    Kept {s with loops := s.loops.set i after, activeCallbacks := update s.activeCallbacks loop.pluginId change.apply} := by
  have here := List.mem_of_getElem? found
  constructor
  · intro pluginId
    simp only [counted_set found follows,update,kept.count]
  · intro other member
    rcases List.mem_or_eq_of_mem_set member with was | rfl
    · exact kept.heard other was
    · exact follows.heard (kept.heard loop here)
  · intro call member k awaited
    exact (kept.awaited call member k awaited).imp_left (outcome_set found follows)
  · intro other member stopped
    rcases List.mem_or_eq_of_mem_set member with was | rfl
    · exact kept.silent other was stopped
    · exact follows.silent (kept.silent loop here (follows.plugin ▸ stopped))

theorem update_none (dict : String → Nat) (name : String) : update dict name Change.none_.apply = dict := by
  funext other
  simp only [update,Change.apply,ite_self]

theorem kept_flag (kept : Kept s) (found : s.loops[i]? = some loop) (follows : Follows loop after .none_) :
    Kept {s with loops := s.loops.set i after} := by
  have set := kept_set kept found follows
  rwa [update_none] at set

theorem kept_cancel (kept : Kept s) (i : Nat) : Kept {s with loops := cancel s.loops i} := by
  unfold cancel
  split
  · exact kept
  · rename_i loop found
    split
    · exact kept
    · exact kept_flag kept found (follows_cancel loop)

theorem outcome_cancel (done : (outcome loops k).isSome = true) : (outcome (cancel loops i) k).isSome = true := by
  unfold cancel
  split
  · exact done
  · rename_i loop found
    split
    · exact done
    · exact outcome_set found (follows_cancel loop) done

theorem kept_move (kept : Kept s) (allowed : Orderly s (.move i move)) : Kept (s.move i move) := by
  unfold Scheduler.move
  split
  · exact kept
  · rename_i loop found
    split
    · exact kept
    · rename_i next flag change moved
      refine kept_set kept found (follows_move moved ?_)
      rintro rfl
      exact allowed loop found

theorem outcome_append {more : List Loop} (done : (outcome loops k).isSome = true) :
    (outcome (loops ++ more) k).isSome = true := by
  by_cases inside : k < loops.length
  · rw [outcome,List.getElem?_append_left inside]
    exact done
  · rw [outcome,List.getElem?_eq_none (by omega)] at done
    cases done

theorem kept_spawn (kept : Kept s) (served : s.stopped pluginId = false) (name : String) : Kept (s.spawn pluginId name) := by
  have appended {loops : List Loop} (reflagged : Kept {s with loops := loops}) (tasks : OrderedMap String Nat) :
      Kept {s with loops := loops ++ [⟨pluginId,.ready,false⟩], tasks := tasks} := by
    constructor
    · intro other
      simp only [counted,List.countP_append,List.countP_singleton,Phase.counts,Bool.and_false,Bool.false_eq_true,if_false]
      exact reflagged.count other
    · intro loop member
      rcases List.mem_append.mp member with was | fresh
      · exact reflagged.heard loop was
      · rw [List.mem_singleton.mp fresh]
        exact Phase.noConfusion
    · intro call member k awaited
      exact (reflagged.awaited call member k awaited).imp_left outcome_append
    · intro loop member stopped
      rcases List.mem_append.mp member with was | fresh
      · exact reflagged.silent loop was stopped
      · rw [List.mem_singleton.mp fresh] at stopped
        exact absurd (served.symm.trans stopped) Bool.false_ne_true
  unfold Scheduler.spawn
  dsimp only
  split
  · exact appended kept _
  · exact appended (kept_cancel kept _) _

theorem kept_start (kept : Kept s) (pluginId : String) (names : List String) : Kept (s.start pluginId names) := by
  have spawned (names : List String) (s : Scheduler) (kept : Kept s) (served : s.stopped pluginId = false) :
      Kept (names.foldl (fun s name => s.spawn pluginId name) s) := by
    induction names generalizing s with
    | nil => exact kept
    | cons name rest later => exact later (s.spawn pluginId name) (kept_spawn kept served name) served
  refine spawned names _ ⟨kept.count,kept.heard,kept.awaited,fun loop member stopped => ?_⟩ (if_pos rfl)
  simp only [update] at stopped
  split at stopped
  · cases stopped
  · exact kept.silent loop member stopped

/-- A call that has awaited only loops that are done may take a place among the calls. -/
theorem kept_calls (kept : Kept s) {stops : List Stop}
    (awaited : ∀ call ∈ stops, call ∈ s.stops ∨ ∀ k ∈ call.awaited,
      (outcome s.loops k).isSome = true ∨ ∃ keys wait, call.place = .waiting k keys wait) : Kept {s with stops := stops} where
  count := kept.count
  heard := kept.heard
  awaited := fun call member => (awaited call member).elim (kept.awaited call) id
  silent := kept.silent

theorem kept_called (kept : Kept s) (caller : Option Nat) (pluginId : String) (rest : List String) :
    Kept {s with stops := s.stops ++ [⟨caller,pluginId,rest,.called,[],false⟩]} := by
  refine kept_calls kept fun call member => ?_
  rcases List.mem_append.mp member with was | fresh
  · exact .inl was
  · rw [List.mem_singleton.mp fresh]
    exact .inr fun k none_ => by cases none_

theorem kept_recall (kept : Kept s) (j : Nat) (call : Stop)
    (awaited : ∀ k ∈ call.awaited, (outcome s.loops k).isSome = true ∨ ∃ keys wait, call.place = .waiting k keys wait) :
    Kept {s with stops := s.stops.set j call} := by
  refine kept_calls kept fun other member => ?_
  rcases List.mem_or_eq_of_mem_set member with was | rfl
  · exact .inl was
  · exact .inr awaited

/-- A task that is done, and not abandoned, has no call left. -/
theorem ended_of_outcome (heard : loop.phase ≠ .abandoned) (done : loop.phase.outcome.isSome = true) :
    loop.phase.counts = false ∧ loop.silent = true := by
  cases loop with
  | mk pluginId phase cancelling =>
    cases phase with
    | ended => exact ⟨rfl,rfl⟩
    | abandoned => exact absurd rfl heard
    | ready | calling | submitted | executing | delivered | sleeping => cases done

theorem counts_of_inflight (none_ : phase.inflight = false) : phase.counts = false := by
  cases phase <;> first | rfl | exact none_

theorem silent_rest (silent : loop.silent = true) : loop.phase.inflight = false := by
  cases phase : loop.phase with
  | ready | sleeping | ended => rfl
  | calling | submitted | executing | delivered | abandoned =>
    rw [Loop.silent,phase] at silent
    cases silent

theorem next_awaited (call : Stop) : ∀ k ∈ call.next.awaited, k ∈ call.awaited := by
  intro k awaited
  unfold Stop.next at awaited
  split at awaited
  · exact awaited
  · cases awaited

section
variable (kept : Kept s)
include kept

/-- Every loop of the plugin has ended, or was found by the condition. -/
theorem drained_loop (awaited : ∀ k ∈ call.awaited, (outcome s.loops k).isSome = true)
    (found : s.loops[i]? = some loop)
    (drained : i ∉ call.awaited → loop.phase.inflight = false ∧ (call.reported = false → loop.silent = true)) :
    loop.phase.counts = false ∧ (call.reported = false → loop.silent = true) := by
  by_cases waited : i ∈ call.awaited
  · have done := awaited i waited
    rw [outcome,found] at done
    have ended := ended_of_outcome (kept.heard loop (List.mem_of_getElem? found)) done
    exact ⟨ended.1,fun _ => ended.2⟩
  · exact ⟨counts_of_inflight (drained waited).1,(drained waited).2⟩

theorem kept_proceed (j : Nat) (awaited : ∀ k ∈ call.awaited, (outcome s.loops k).isSome = true)
    (drained : Drained s s.loops call keys) : Kept (s.proceed j call keys) := by
  unfold Scheduler.proceed
  split
  · rename_i tasks i rest popped
    have recalled : Kept {s with loops := cancel s.loops i, stops := s.stops.set j _} :=
      kept_recall (kept_cancel kept i) j {call with place := .waiting i rest .nothing, awaited := i :: call.awaited}
        fun k member => by
          rcases List.mem_cons.mp member with rfl | was
          · exact .inr ⟨rest,.nothing,rfl⟩
          · exact .inl (outcome_cancel (awaited k was))
    exact ⟨recalled.count,recalled.heard,recalled.awaited,recalled.silent⟩
  · rename_i tasks popped
    have over_ {i : Nat} {loop : Loop} (found : s.loops[i]? = some loop) (same : loop.pluginId = call.pluginId) :=
      drained_loop kept awaited found (drained (by rw [popped]) i loop found same)
    have recalled := kept_recall kept j call.next fun k member => .inl (awaited k (next_awaited call k member))
    refine ⟨?_,kept.heard,recalled.awaited,?_⟩
    · intro pluginId
      simp only [update]
      split
      · rename_i same
        refine (List.countP_eq_zero.mpr fun loop member => ?_).symm
        obtain ⟨i,found⟩ := List.mem_iff_getElem?.mp member
        by_cases here : loop.pluginId = call.pluginId
        · simp [(over_ found here).1]
        · simp [same,here]
      · exact kept.count pluginId
    · intro loop member stopped
      obtain ⟨i,found⟩ := List.mem_iff_getElem?.mp member
      dsimp only at stopped
      split at stopped
      · exact kept.silent loop member stopped
      · rename_i unreported
        simp only [update] at stopped
        split at stopped
        · rename_i here
          exact (over_ found here).2 (Bool.eq_false_iff.mpr unreported)
        · exact kept.silent loop member stopped

/-- Of a call in `wait_for`, only the task it waits for may still run. -/
theorem awaited_waiting (member : call ∈ s.stops)
    (place : call.place = .waiting i keys wait) : ∀ k ∈ call.awaited, (outcome s.loops k).isSome = true ∨ k = i := by
  intro k awaited
  refine (kept.awaited call member k awaited).imp_right ?_
  rintro ⟨others,before,here⟩
  cases place.symm.trans here
  rfl

theorem awaited_done (member : call ∈ s.stops)
    (place : call.place = .waiting i keys wait) (done : (outcome s.loops i).isSome = true) :
    ∀ k ∈ call.awaited, (outcome s.loops k).isSome = true := by
  intro k awaited
  rcases awaited_waiting kept member place k awaited with was | rfl
  · exact was
  · exact done

theorem resume_waits (member : call ∈ s.stops) {waits : Stop}
    (resumed : s.resume call event = .waits loops waits) :
    Kept {s with loops := loops} ∧ ∀ k ∈ waits.awaited,
      (outcome loops k).isSome = true ∨ ∃ keys wait, waits.place = .waiting k keys wait := by
  unfold Scheduler.resume at resumed
  split at resumed
  · split at resumed <;> cases resumed
  · rename_i i keys wait place
    have cancelled {wait : Wait} {waits : Stop} (same : waits.awaited = call.awaited) (waiting : waits.place = .waiting i keys wait) :
        Kept {s with loops := cancel s.loops i} ∧ ∀ k ∈ waits.awaited,
          (outcome (cancel s.loops i) k).isSome = true ∨ ∃ keys wait, waits.place = .waiting k keys wait := by
      refine ⟨kept_cancel kept i,fun k awaited => ?_⟩
      rcases awaited_waiting kept member place k (same ▸ awaited) with done | rfl
      · exact .inl (outcome_cancel done)
      · exact .inr ⟨keys,wait,waiting⟩
    split at resumed
    all_goals try split at resumed
    all_goals try split at resumed
    all_goals cases resumed
    · exact cancelled rfl rfl
    · exact cancelled rfl place
    · exact cancelled rfl rfl
  · cases resumed

theorem resume_continues (member : call ∈ s.stops) {goes : Stop}
    (resumed : s.resume call event = .continues loops goes keys) :
    Kept {s with loops := loops} ∧ ∀ k ∈ goes.awaited, (outcome loops k).isSome = true := by
  unfold Scheduler.resume at resumed
  split at resumed
  · rename_i place
    split at resumed <;> cases resumed
    refine ⟨kept,fun k awaited => ?_⟩
    rcases kept.awaited call member k awaited with done | ⟨keys,wait,waiting⟩
    · exact done
    · cases place.symm.trans waiting
  · rename_i i keys wait place
    have over_ {goes : Stop} (same : goes.awaited = call.awaited) {outcome_ : Outcome} (done : outcome s.loops i = some outcome_) :
        Kept s ∧ ∀ k ∈ goes.awaited, (outcome s.loops k).isSome = true :=
      ⟨kept,fun k awaited => awaited_done kept member place (by rw [done]; rfl) k (same ▸ awaited)⟩
    split at resumed
    all_goals try split at resumed
    all_goals try split at resumed
    all_goals cases resumed
    any_goals exact over_ rfl ‹_›
    · rename_i pluginId found caller
      have caught := follows_caught pluginId
      refine ⟨kept_flag kept found caught,fun k awaited => ?_⟩
      obtain ⟨before,other⟩ := List.mem_filter.mp awaited
      rcases awaited_waiting kept member place k before with done | same
      · exact outcome_set found caught done
      · exact absurd same (of_decide_eq_true other)
  · cases resumed

theorem resume_raises (member : call ∈ s.stops) (resumed : s.resume call event = .raises) :
    ∀ k ∈ call.awaited, (outcome s.loops k).isSome = true := by
  unfold Scheduler.resume at resumed
  split at resumed
  · split at resumed <;> cases resumed
  · rename_i i keys wait place
    split at resumed
    all_goals try split at resumed
    all_goals try split at resumed
    all_goals cases resumed
    · rename_i failed
      exact awaited_done kept member place (by rw [failed]; rfl)
  · cases resumed

theorem kept_advance (found : s.stops[j]? = some call)
    (allowed : Orderly s (.advance j event)) : Kept (s.advance j call event) := by
  have member := List.mem_of_getElem? found
  unfold Scheduler.advance
  split
  · exact kept
  · rename_i resumed
    exact kept_recall kept j _ fun k awaited => .inl (resume_raises kept member resumed k awaited)
  · rename_i loops waits resumed
    have waiting := resume_waits kept member resumed
    exact kept_recall waiting.1 j waits waiting.2
  · rename_i loops goes keys resumed
    have over_ := resume_continues kept member resumed
    exact kept_proceed over_.1 j over_.2 (allowed call found loops goes keys resumed)

theorem step_kept (allowed : Orderly s action) : Kept (step s action) := by
  cases action with
  | start pluginId names => exact kept_start kept pluginId names
  | stop caller pluginId => exact kept_called kept caller pluginId []
  | shutdown caller order =>
    cases order with
    | nil => exact kept
    | cons pluginId rest =>
      simp only [step,Scheduler.shutdown]
      split
      · exact kept_called kept caller pluginId rest
      · exact kept
  | advance j event =>
    simp only [step]
    split
    · exact kept
    · rename_i call found
      exact kept_advance kept found allowed
  | move i move => exact kept_move kept allowed

end

theorem kept_initial : Kept initial where
  count := fun _ => rfl
  heard := fun _ member => by cases member
  awaited := fun _ member => by cases member
  silent := fun _ member => by cases member

/-- Without an abandoned loop, what is in the counter is in flight. -/
theorem kept_sound (s : Scheduler) (kept : Kept s) : Sound s := by
  have same (pluginId : String) : invocations s.loops pluginId = counted s.loops pluginId := by
    refine List.countP_congr fun loop member => ?_
    have heard := kept.heard loop member
    cases phase : loop.phase with
    | abandoned => exact absurd phase heard
    | _ => rfl
  intro pluginId
  refine ⟨(kept.count pluginId).trans (same pluginId).symm,fun stopped => ?_⟩
  rw [invocations,List.countP_eq_zero]
  intro loop member
  by_cases here : loop.pluginId = pluginId
  · have silent := kept.silent loop member (here ▸ stopped)
    simp [silent_rest silent]
  · simp [here]

/-- The counter is exact and a stopped plugin is at rest throughout a run in which no sync handler is cancelled in its
thread and every `stop` that ends has awaited what is left of its plugin. -/
theorem sound_throughout_orderly {actions : List Action} (orderly : Runs.Along step Orderly initial actions) :
    Runs.Throughout step Sound initial actions :=
  (Runs.throughout_of_along (fun _ _ => step_kept) actions kept_initial orderly).imp kept_sound

/-- A loop is asleep when its plugin is stopped, and ends. -/
theorem sound_throughout_stopped : Runs.Throughout step Sound initial [.start "docker" ["poll"],.move 0 .calls,.move 0 .finishes,
    .stop none "docker",.advance 0 .resumed,.move 0 .cancelled,.advance 0 .resumed] := by
  refine sound_throughout_orderly ?_
  refine ⟨trivial,trivial,trivial,trivial,?_,?_,?_,trivial⟩
  · intro call found loops goes keys resumed
    obtain rfl := Option.some.inj found
    obtain ⟨rfl,rfl,rfl⟩ := Resume.continues.inj resumed
    exact fun popped => absurd popped (by decide)
  · intro loop found executing
    obtain rfl := Option.some.inj found
    cases executing
  · intro call found loops goes keys resumed
    obtain rfl := Option.some.inj found
    obtain ⟨rfl,rfl,rfl⟩ := Resume.continues.inj resumed
    intro _ i loop here _ awaited
    cases i with
    | zero => exact absurd (List.mem_singleton.mpr rfl) awaited
    | succ => cases here

/-- A sync handler goes on in its thread when its loop is cancelled, and is no longer in the counter. -/
theorem not_sound_thread : ¬∀ actions, Runs.Throughout step Sound initial actions := by
  intro sound
  have reached := (sound [.start "docker" ["poll"],.move 0 .submits,.move 0 .starts,.stop none "docker",.advance 0 .resumed,
    .move 0 .cancelled]).last "docker"
  have count := reached.1
  revert count
  decide

/-- A loop that is replaced during its call is not awaited by `stop`, which resets the counter under it. -/
theorem not_sound_replaced : ¬Sound (Runs.last step initial [.start "docker" ["poll"],.move 0 .calls,.start "docker" ["poll"],
    .stop none "docker",.advance 0 .resumed,.move 1 .cancelled,.advance 0 .resumed]) := by
  intro sound
  have count := (sound "docker").1
  revert count
  decide

end Vigile.Schedules
