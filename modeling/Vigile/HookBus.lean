import Vigile.CircuitBreaker
import Vigile.OrderedMap

/-! `HookBus.async_call`: one task a subscription under `wait_for`, sync functions in the
executor, and what each task records on its plugin's circuit breaker. -/
namespace Vigile.HookBus

open CircuitBreaker (Breaker)

inductive HookError where
  | cancelledError
  | circuitBreakerOpenError (text : String)
  | other (text : String)
  deriving DecidableEq

def HookError.text : HookError → String
  | .cancelledError => ""
  | .circuitBreakerOpenError text | .other text => text

inductive Outcome (α : Type) where
  | returned (value : α)
  | raised (error : HookError)
  deriving DecidableEq

/-- How a body that was started ends; `late` if the timeout has struck before, so that a
coroutine has been thrown a `CancelledError` and a sync function runs on unheard. -/
structure Ending (α : Type) where
  late : Bool
  outcome : Outcome α
  deriving DecidableEq

inductive Mark where
  | success
  | failure
  deriving DecidableEq

structure Result (α : Type) where
  success : Bool
  result : Option α
  error : Option String
  pluginName : String
  deriving DecidableEq

/-- What `gather` gets of a task: a dict, or a `CancelledError` or `TimeoutError`. -/
inductive TaskResult (α : Type) where
  | dict (result : Result α)
  | exception
  deriving DecidableEq

inductive Phase (α : Type) where
  | ready
  /-- A sync function, in the queue of the executor. -/
  | submitted
  | running
  | done (result : TaskResult α)
  deriving DecidableEq

structure Subscription where
  pluginName : String
  /-- `inspect.iscoroutinefunction(fn)` -/
  coroutine : Bool
  deriving DecidableEq

structure Task (α : Type) where
  subscription : Subscription
  phase : Phase α
  body : Option (Ending α)
  deriving DecidableEq

structure Recorded where
  task : Nat
  pluginName : String
  mark : Mark
  deriving DecidableEq

/-- The breakers of the bus, the tasks of one `async_call` and what these have recorded. -/
structure World (α : Type) where
  circuitBreakers : OrderedMap String Breaker
  tasks : List (Task α)
  recorded : List Recorded

inductive Event (α : Type) where
  /-- The task runs up to its first wait. -/
  | start (i : Nat) (now : ℚ)
  /-- `wait_for` with a timeout that is not positive cancels a task that has not run yet. -/
  | expire (i : Nat)
  /-- A thread of the executor takes the function. -/
  | work (i : Nat)
  /-- The timeout strikes while the function is in the queue. -/
  | dequeue (i : Nat)
  | finish (i : Nat) (now : ℚ) (ending : Ending α)
  | others (circuitBreakers : OrderedMap String Breaker)

variable {α : Type}

def failureThreshold : Int := 5

def breakerTimeout : ℚ := 60

def getCircuitBreaker (breakers : OrderedMap String Breaker) (pluginName : String) : Breaker :=
  (breakers.get? pluginName).getD CircuitBreaker.fresh

def openResult (pluginName : String) : Result α :=
  ⟨false,none,some ("Circuit breaker '" ++ pluginName ++ "' is OPEN"),pluginName⟩

/-- The end of `CircuitBreaker.call`: any exception is a failure and goes on. -/
def callEnds : Outcome α → Mark
  | .returned _ => .success
  | .raised _ => .failure

/-- The end of `_run_async_hook`, with what it or the breaker's `call` records. -/
def runEnds (subscription : Subscription) (ending : Ending α) : Option Mark × TaskResult α :=
  let pluginName := subscription.pluginName
  let recorded := if subscription.coroutine then some (callEnds ending.outcome) else none
  -- the await on the executor is cancelled whatever the function does
  let outcome := if ¬subscription.coroutine ∧ ending.late then .raised .cancelledError else ending.outcome
  match outcome with
  | .returned value =>
    (if subscription.coroutine then recorded else some .success,.dict ⟨true,some value,none,pluginName⟩)
  | .raised (.circuitBreakerOpenError _) => (recorded,.dict (openResult pluginName))
  | .raised .cancelledError => (recorded,.exception)
  | .raised error =>
    (if subscription.coroutine then recorded else some .failure,
      .dict ⟨false,none,some error.text,pluginName⟩)

def World.goes (w : World α) (i : Nat) (task : Task α) : World α := {w with tasks := w.tasks.set i task}

def World.record (w : World α) (i : Nat) (pluginName : String) (now : ℚ) (mark : Mark) : World α :=
  let cb := getCircuitBreaker w.circuitBreakers pluginName
  let cb := match mark with
    | .success => cb.recordSuccess
    | .failure => cb.recordFailure failureThreshold now
  {w with
    circuitBreakers := w.circuitBreakers.set pluginName cb
    recorded := w.recorded ++ [⟨i,pluginName,mark⟩]}

section
-- `effective_timeout`
variable (timeout : ℚ)

def step (w : World α) : Event α → Option (World α)
  | .start i now =>
    match w.tasks[i]? with
    | some ⟨subscription,.ready,body⟩ =>
      if 0 < timeout then
        let pluginName := subscription.pluginName
        match (getCircuitBreaker w.circuitBreakers pluginName).check breakerTimeout now with
        | none => some (w.goes i ⟨subscription,.done (.dict (openResult pluginName)),body⟩)
        | some cb =>
          let w := {w with circuitBreakers := w.circuitBreakers.set pluginName cb}
          some (w.goes i ⟨subscription,if subscription.coroutine then .running else .submitted,body⟩)
      else none
    | _ => none
  | .expire i =>
    match w.tasks[i]? with
    | some ⟨subscription,.ready,body⟩ =>
      if timeout ≤ 0 then some (w.goes i ⟨subscription,.done .exception,body⟩) else none
    | _ => none
  | .work i =>
    match w.tasks[i]? with
    | some ⟨subscription,.submitted,body⟩ => some (w.goes i ⟨subscription,.running,body⟩)
    | _ => none
  | .dequeue i =>
    match w.tasks[i]? with
    | some ⟨subscription,.submitted,body⟩ => some (w.goes i ⟨subscription,.done .exception,body⟩)
    | _ => none
  | .finish i now ending =>
    match w.tasks[i]? with
    | some ⟨subscription,.running,_⟩ =>
      let (mark,result) := runEnds subscription ending
      let w := match mark with
        | some mark => w.record i subscription.pluginName now mark
        | none => w
      some (w.goes i ⟨subscription,.done result,some ending⟩)
    | _ => none
  | .others circuitBreakers => some {w with circuitBreakers := circuitBreakers}

def run : World α → List (Event α) → Option (World α)
  | w, [] => some w
  | w, event :: events => (step timeout w event).bind fun next => run next events

end

/-- `async_call` has made its tasks. -/
def started (circuitBreakers : OrderedMap String Breaker) (impls : List Subscription) : World α :=
  ⟨circuitBreakers,impls.map fun subscription => ⟨subscription,.ready,none⟩,[]⟩

/-- `gather` returns once every task is done. -/
def Finished (w : World α) : Prop := ∀ task ∈ w.tasks, ∃ result, task.phase = .done result

/-- The entry for a task in the list that `async_call` returns. -/
def entry (timeoutText : String) (task : Task α) : Option (Result α) :=
  match task.phase with
  | .done (.dict result) => some result
  | .done .exception =>
    some ⟨false,none,some ("Timeout after " ++ timeoutText ++ "s"),task.subscription.pluginName⟩
  | _ => none

def results (timeoutText : String) (w : World α) : List (Result α) := w.tasks.filterMap (entry timeoutText)

def World.count (w : World α) (i : Nat) (mark : Mark) : Nat :=
  w.recorded.countP fun recorded => recorded.task = i ∧ recorded.mark = mark

/-- A failure for a body that raised or timed out, a success for one that returned in time. -/
def expected (ending : Ending α) : Mark :=
  match ending with
  | ⟨false,.returned _⟩ => .success
  | _ => .failure

/-- The expected mark is counted once on the plugin's breaker, the other never. -/
def Right (w : World α) (i : Nat) (ending : Ending α) : Prop :=
  ∀ mark, w.count i mark = if mark = expected ending then 1 else 0

/-- The endings that are counted wrong: a coroutine that swallows the timeout and returns, a
sync function that runs past it or raises one of the two errors that the bus catches first. -/
def Slips (subscription : Subscription) (ending : Ending α) : Prop :=
  if subscription.coroutine then ending.late = true ∧ ∃ value, ending.outcome = .returned value
  else ending.late = true ∨ ending.outcome = .raised .cancelledError ∨
    ∃ text, ending.outcome = .raised (.circuitBreakerOpenError text)

variable {timeout : ℚ} {timeoutText : String} {w w' : World α} {event : Event α} {events : List (Event α)} {i : Nat}
  {task : Task α} {impls : List Subscription} {ending : Ending α}

/-- What a body is counted as, against what it should be. -/
theorem mark_expected (subscription : Subscription) (ending : Ending α) :
    (runEnds subscription ending).1 = some (expected ending) ↔ ¬Slips subscription ending := by
  obtain ⟨name,coroutine⟩ := subscription
  obtain ⟨late,outcome⟩ := ending
  cases coroutine <;> cases late <;> rcases outcome with value | _ | text | text <;>
    simp [runEnds,callEnds,expected,Slips]

variable {subscription : Subscription} {body : Option (Ending α)}

theorem runEnds_pluginName {result : Result α}
    (ends : (runEnds subscription ending).2 = .dict result) : result.pluginName = subscription.pluginName := by
  unfold runEnds at ends
  dsimp only at ends
  split at ends
  · cases ends
    rfl
  · cases ends
    rfl
  · cases ends
  · cases ends
    rfl

structure TaskSound (w : World α) (i : Nat) (task : Task α) : Prop where
  counted : ∀ mark, w.count i mark = if task.body.bind (fun ending => (runEnds task.subscription ending).1) = some mark
    then 1 else 0
  waiting : (∀ result, task.phase ≠ .done result) → task.body = none
  named : ∀ result, task.phase = .done (.dict result) → result.pluginName = task.subscription.pluginName

structure Sound (impls : List Subscription) (w : World α) : Prop where
  subscribed : w.tasks.map Task.subscription = impls
  tasks : ∀ (i : Nat) task, w.tasks[i]? = some task → TaskSound w i task
  owned : ∀ recorded ∈ w.recorded, (impls[recorded.task]?).map Subscription.pluginName = some recorded.pluginName

theorem sound_started (circuitBreakers : OrderedMap String Breaker) (impls : List Subscription) :
    Sound impls (started circuitBreakers impls : World α) where
  subscribed := by simp [started,Function.comp_def]
  tasks i task found := by
    simp only [started,List.getElem?_map,Option.map_eq_some_iff] at found
    obtain ⟨subscription,-,rfl⟩ := found
    exact ⟨fun mark => by simp [World.count,started],fun _ => rfl,fun result isDone => by cases isDone⟩
  owned := by simp [started]

theorem Sound.put {changed : Task α} (added : List Recorded) (sound : Sound impls w)
    (found : w.tasks[i]? = some task) (tasks : w'.tasks = w.tasks.set i changed)
    (same : changed.subscription = task.subscription) (recorded : w'.recorded = w.recorded ++ added)
    (own : ∀ mark ∈ added, mark.task = i ∧ mark.pluginName = task.subscription.pluginName)
    (changedSound : TaskSound w' i changed) : Sound impls w' where
  subscribed := by
    rw [tasks,List.map_set,same,← sound.subscribed]
    refine List.ext_getElem? fun j => ?_
    rcases eq_or_ne i j with rfl | differ
    · have inside : i < (w.tasks.map Task.subscription).length := by
        simpa using (List.getElem?_eq_some_iff.mp found).1
      rw [List.getElem?_set_self inside,List.getElem?_map,found]
      rfl
    · rw [List.getElem?_set_ne differ]
  tasks j other there := by
    rw [tasks] at there
    rcases eq_or_ne j i with rfl | differ
    · have inside := (List.getElem?_eq_some_iff.mp found).1
      rw [List.getElem?_set_self inside] at there
      exact Option.some.inj there ▸ changedSound
    · rw [List.getElem?_set_ne differ.symm] at there
      obtain ⟨counted,waiting,named⟩ := sound.tasks j other there
      refine ⟨fun mark => ?_,waiting,named⟩
      have none : added.countP (fun recorded => recorded.task = j ∧ recorded.mark = mark) = 0 := by
        refine List.countP_eq_zero.mpr fun recorded member => ?_
        simp [(own recorded member).1,differ.symm]
      unfold World.count at counted ⊢
      rw [recorded,List.countP_append,counted mark,none,Nat.add_zero]
  owned mark member := by
    rw [recorded] at member
    rcases List.mem_append.mp member with before | new
    · exact sound.owned mark before
    · obtain ⟨isTask,isName⟩ := own mark new
      rw [isTask,isName,← sound.subscribed,List.getElem?_map,found]
      rfl

/-- A task that waits moves on without a mark. -/
theorem Sound.goes {phase : Phase α}
    (breakers : OrderedMap String Breaker) (sound : Sound impls w) (found : w.tasks[i]? = some task)
    (waits : ∀ result, task.phase ≠ .done result) (same : subscription = task.subscription) (untouched : body = task.body)
    (named : ∀ result, phase = .done (.dict result) → result.pluginName = subscription.pluginName) :
    Sound impls ({w with circuitBreakers := breakers}.goes i ⟨subscription,phase,body⟩) := by
  have before := sound.tasks i task found
  have unstarted : task.body = none := before.waiting waits
  refine sound.put [] found rfl same (by simp [World.goes]) (by simp) ⟨fun mark => ?_,fun _ => ?_,named⟩
  · have counted := before.counted mark
    rw [untouched,same]
    exact counted
  · exact untouched.trans unstarted

theorem Sound.finish (sound : Sound impls w)
    (found : w.tasks[i]? = some ⟨subscription,.running,body⟩) (now : ℚ) (ending : Ending α) :
    Sound impls ((match (runEnds subscription ending).1 with
        | some mark => w.record i subscription.pluginName now mark
        | none => w).goes i ⟨subscription,.done (runEnds subscription ending).2,some ending⟩) := by
  have before := sound.tasks i _ found
  have unstarted : body = none := before.waiting fun result isDone => by cases isDone
  have zero : ∀ mark, w.count i mark = 0 := fun mark => by
    have counted := before.counted mark
    rw [show (⟨subscription,.running,body⟩ : Task α).body = none from unstarted] at counted
    simpa using counted
  have named : ∀ result, Phase.done (runEnds subscription ending).2 = .done (.dict result) →
      result.pluginName = subscription.pluginName := fun result isDone =>
    runEnds_pluginName (Phase.done.inj isDone)
  cases marked : (runEnds subscription ending).1 with
  | none =>
    refine sound.put [] found rfl rfl (by simp [World.goes]) (by simp) ⟨fun mark => ?_,fun waits => ?_,named⟩
    · rw [Option.bind_some,marked,if_neg (Option.some_ne_none mark).symm]
      exact zero mark
    · exact absurd rfl (waits _)
  | some mark =>
    refine sound.put [⟨i,subscription.pluginName,mark⟩] found rfl rfl rfl (by simp)
      ⟨fun other => ?_,fun waits => ?_,named⟩
    · have none := zero other
      unfold World.count at none ⊢
      simp only [World.goes,World.record,List.countP_append,none,List.countP_singleton,Option.bind_some,marked]
      simp
    · exact absurd rfl (waits _)

theorem Sound.step (sound : Sound impls w) (stepped : step timeout w event = some w') : Sound impls w' := by
  cases event with
  | start i now =>
    simp only [HookBus.step] at stepped
    split at stepped
    · rename_i subscription body found
      split at stepped
      · split at stepped
        · obtain rfl := Option.some.inj stepped
          exact sound.goes w.circuitBreakers found (by simp) rfl rfl (by simp [openResult])
        · obtain rfl := Option.some.inj stepped
          exact sound.goes _ found (by simp) rfl rfl (by split <;> simp)
      · contradiction
    · contradiction
  | expire i =>
    simp only [HookBus.step] at stepped
    split at stepped
    · rename_i subscription body found
      split at stepped
      · obtain rfl := Option.some.inj stepped
        exact sound.goes w.circuitBreakers found (by simp) rfl rfl (by simp)
      · contradiction
    · contradiction
  | work i | dequeue i =>
    simp only [HookBus.step] at stepped
    split at stepped
    · rename_i subscription body found
      obtain rfl := Option.some.inj stepped
      exact sound.goes w.circuitBreakers found (by simp) rfl rfl (by simp)
    · contradiction
  | finish i now ending =>
    simp only [HookBus.step] at stepped
    split at stepped
    · rename_i subscription body found
      obtain rfl := Option.some.inj stepped
      exact sound.finish found now ending
    · contradiction
  | others breakers =>
    obtain rfl := Option.some.inj stepped
    exact ⟨sound.subscribed,fun i task found => ⟨(sound.tasks i task found).counted,(sound.tasks i task found).waiting,
      (sound.tasks i task found).named⟩,sound.owned⟩

theorem sound_run (sound : Sound impls w) (ran : run timeout w events = some w') : Sound impls w' := by
  induction events generalizing w with
  | nil => exact Option.some.inj ran ▸ sound
  | cons event events ih =>
    obtain ⟨next,stepped,rest⟩ := Option.bind_eq_some_iff.mp ran
    exact ih (sound.step stepped) rest

/-- Every task that is done has its entry, under its own plugin's name. -/
theorem map_filterMap_entry {tasks : List (Task α)} (finished : ∀ task ∈ tasks, ∃ result, task.phase = .done result)
    (named : ∀ task ∈ tasks, ∀ result, task.phase = .done (.dict result) →
      result.pluginName = task.subscription.pluginName) :
    (tasks.filterMap (entry timeoutText)).map Result.pluginName
      = (tasks.map Task.subscription).map Subscription.pluginName := by
  induction tasks with
  | nil => rfl
  | cons task tasks ih =>
    have rest := ih (fun other member => finished other (List.mem_cons_of_mem task member))
      fun other member => named other (List.mem_cons_of_mem task member)
    obtain ⟨result,isDone⟩ := finished task List.mem_cons_self
    cases result with
    | dict result =>
      have isNamed := named task List.mem_cons_self result isDone
      simpa [entry,isDone,isNamed] using rest
    | exception => simpa [entry,isDone] using rest

theorem Sound.right_iff (sound : Sound impls w) (found : w.tasks[i]? = some task) (ended : task.body = some ending) :
    Right w i ending ↔ ¬Slips task.subscription ending := by
  have counted := (sound.tasks i task found).counted
  rw [← mark_expected]
  simp only [ended,Option.bind_some] at counted
  unfold Right
  simp only [counted]
  constructor
  · intro all
    by_contra other
    simpa [other] using all (expected ending)
  · intro marked mark
    simp [marked,eq_comm]

/-- `async_call` returns one entry a subscription, in their order, and every body that was started
is counted right exactly where it does not slip through. -/
theorem async_call_counts (timeout : ℚ) (timeoutText : String) (circuitBreakers : OrderedMap String Breaker)
    (impls : List Subscription) (events : List (Event α)) (w : World α)
    (ran : run timeout (started circuitBreakers impls) events = some w) (finished : Finished w) :
    (results timeoutText w).map Result.pluginName = impls.map Subscription.pluginName ∧
    (∀ recorded ∈ w.recorded, (impls[recorded.task]?).map Subscription.pluginName = some recorded.pluginName) ∧
    ∀ (i : Nat) task ending, w.tasks[i]? = some task → task.body = some ending →
      (Right w i ending ↔ ¬Slips task.subscription ending) := by
  have sound := sound_run (sound_started circuitBreakers impls) ran
  refine ⟨?_,sound.owned,fun i task ending found ended => sound.right_iff found ended⟩
  rw [← sound.subscribed]
  refine map_filterMap_entry finished fun task member => ?_
  obtain ⟨i,found⟩ := List.mem_iff_getElem?.mp member
  exact (sound.tasks i task found).named

/-- A coroutine that raises and one that times out, and a sync function that returns. -/
def mixed : List (Event Nat) :=
  [.start 0 0,.start 1 0,.start 2 0,.work 2,.finish 0 1 ⟨false,.raised (.other "boom")⟩,.finish 2 2 ⟨false,.returned 7⟩,
    .finish 1 30 ⟨true,.raised .cancelledError⟩]

def mixedImpls : List Subscription := [⟨"p",true⟩,⟨"q",true⟩,⟨"p",false⟩]

theorem async_call_counts_mixed :
    ∃ w, run 30 (started .empty mixedImpls) mixed = some w ∧
      results "30.0" w = [⟨false,none,some "boom","p"⟩,⟨false,none,some "Timeout after 30.0s","q"⟩,⟨true,some 7,none,"p"⟩] ∧
      ((results "30.0" w).map Result.pluginName = mixedImpls.map Subscription.pluginName ∧
      (∀ recorded ∈ w.recorded, (mixedImpls[recorded.task]?).map Subscription.pluginName = some recorded.pluginName) ∧
      ∀ (i : Nat) task ending, w.tasks[i]? = some task → task.body = some ending →
        (Right w i ending ↔ ¬Slips task.subscription ending)) := by
  have returned : (run 30 (started .empty mixedImpls) mixed).map (fun w => (results "30.0" w,w.tasks.all fun task =>
      match task.phase with | .done _ => true | _ => false)) =
      some ([⟨false,none,some "boom","p"⟩,⟨false,none,some "Timeout after 30.0s","q"⟩,⟨true,some 7,none,"p"⟩],true) := by
    decide +kernel
  obtain ⟨w,ran,values⟩ := Option.map_eq_some_iff.mp returned
  obtain ⟨isResult,allDone⟩ := Prod.mk.inj values
  have finished : Finished w := fun task member => by
    have isDone := List.all_eq_true.mp allDone task member
    split at isDone
    · exact ⟨_,by assumption⟩
    · cases isDone
  exact ⟨w,ran,isResult,async_call_counts 30 "30.0" .empty mixedImpls mixed w ran finished⟩

/-- A sync function that runs past the timeout counts nothing. -/
theorem sync_timeout_uncounted :
    ¬∀ (timeout : ℚ) (circuitBreakers : OrderedMap String Breaker) (impls : List Subscription) (events : List (Event Nat))
      (w : World Nat), run timeout (started circuitBreakers impls) events = some w → Finished w →
      ∀ (i : Nat) task ending, w.tasks[i]? = some task → task.body = some ending → Right w i ending := by
  intro claimed
  have evaluated : (run 30 (started .empty [⟨"p",false⟩]) [.start 0 0,.work 0,.finish 0 30 ⟨true,.returned 7⟩]).map
      (fun w => (w.tasks,w.count 0 .failure)) =
      some ([⟨⟨"p",false⟩,.done .exception,some ⟨true,.returned 7⟩⟩],0) := by
    decide +kernel
  obtain ⟨w,ran,values⟩ := Option.map_eq_some_iff.mp evaluated
  obtain ⟨tasks,counted⟩ := Prod.mk.inj values
  have finished : Finished w := fun task member => by
    rw [tasks,List.mem_singleton] at member
    exact ⟨_,by rw [member]⟩
  have right := claimed 30 .empty _ _ w ran finished 0 _ ⟨true,.returned 7⟩ (by rw [tasks]; rfl) rfl .failure
  rw [counted] at right
  revert right
  decide

end Vigile.HookBus
