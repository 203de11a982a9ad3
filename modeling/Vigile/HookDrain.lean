import Vigile.HookBus
import Vigile.Runs

/-! The in-flight count of the hook bus: dispatches, the drain of a plugin, and what runs after it is unloaded. -/
namespace Vigile.HookDrain

open HookBus (Subscription)

inductive Phase where
  | ready
  | checking
  /-- A sync function, in the queue of the executor. -/
  | submitted
  | running
  | recording
  /-- A sync function whose task was cancelled by its timeout: still in the queue, or in its thread. -/
  | abandoned (started : Bool)
  | ended
  deriving DecidableEq

def Phase.counts : Phase → Bool
  | .checking | .submitted | .running | .recording => true
  | _ => false

/-- The function runs. -/
def Phase.executes : Phase → Bool
  | .running | .abandoned true => true
  | _ => false

structure Task where
  subscription : Subscription
  phase : Phase

inductive Unload where
  | serving
  | draining
  | unregistered (drained : Bool)
  | returned (drained : Bool)
  deriving DecidableEq

structure Bus where
  hooks : String → List Subscription
  tasks : List Task
  inflight : String → Int
  unload : String → Unload

inductive Move where
  | begins
  | cancelled
  | calls
  | submits
  | starts
  | returns
  /-- The finally block, after the function or in its place. -/
  | finishes
  | timeout
  | dropped

def Move.next (move : Move) (coroutine : Bool) (phase : Phase) : Option (Phase × Int) :=
  match move,phase with
  | .begins,.ready => some (.checking,1)
  | .cancelled,.ready => some (.ended,0)
  | .calls,.checking => if coroutine then some (.running,0) else none
  | .submits,.checking => if coroutine then none else some (.submitted,0)
  | .starts,.submitted => some (.running,0)
  | .starts,.abandoned false => some (.abandoned true,0)
  | .returns,.running => some (.recording,0)
  | .returns,.abandoned true => some (.ended,0)
  | .finishes,.checking | .finishes,.recording => some (.ended,-1)
  | .timeout,.submitted => some (.abandoned false,-1)
  -- A coroutine is thrown a CancelledError, and counts until it has ended.
  | .timeout,.running => if coroutine then none else some (.abandoned true,-1)
  | .dropped,.abandoned false => some (.ended,0)
  | _,_ => none

/-- A number in a dict. -/
def add (counts : String → Int) (name : String) (change : Int) : String → Int :=
  fun other => if other = name then counts other + change else counts other

def Bus.move (s : Bus) (i : Nat) (move : Move) : Bus :=
  match s.tasks[i]? with
  | none => s
  | some task =>
    match move.next task.subscription.coroutine task.phase with
    | none => s
    | some (phase,change) =>
      {s with tasks := s.tasks.set i {task with phase := phase}, inflight := add s.inflight task.subscription.pluginName change}

/-- Tasks for a snapshot of the subscriptions. -/
def Bus.asyncCall (s : Bus) (hookName : String) : Bus :=
  {s with tasks := s.tasks ++ (s.hooks hookName).map fun subscription => ⟨subscription,.ready⟩}

def Bus.setUnload (s : Bus) (pluginId : String) (unload : Unload) : Bus :=
  {s with unload := fun other => if other = pluginId then unload else s.unload other}

def Bus.unregister (s : Bus) (pluginId : String) (drained : Bool) : Bus :=
  {s.setUnload pluginId (.unregistered drained) with
    hooks := fun hookName => (s.hooks hookName).filter fun subscription => subscription.pluginName ≠ pluginId}

inductive Action where
  | asyncCall (hookName : String)
  | move (i : Nat) (move : Move)
  | unloadPlugin (pluginId : String)
  /-- The test of the loop in `wait_for_drain`; nothing is awaited between its end and the unregistering. -/
  | drainCheck (pluginId : String)
  /-- The same test past the deadline. -/
  | drainExpires (pluginId : String)
  | unloadReturns (pluginId : String)

def step (s : Bus) : Action → Bus
  | .asyncCall hookName => s.asyncCall hookName
  | .move i move => s.move i move
  | .unloadPlugin pluginId => if s.unload pluginId = .serving then s.setUnload pluginId .draining else s
  | .drainCheck pluginId =>
    if s.unload pluginId = .draining ∧ s.inflight pluginId ≤ 0 then s.unregister pluginId true else s
  | .drainExpires pluginId =>
    if s.unload pluginId = .draining ∧ 0 < s.inflight pluginId then s.unregister pluginId false else s
  | .unloadReturns pluginId =>
    match s.unload pluginId with
    | .unregistered drained => s.setUnload pluginId (.returned drained)
    | _ => s

def initial (hooks : String → List Subscription) : Bus := ⟨hooks,[],fun _ => 0,fun _ => .serving⟩

/-! What is promised -/

/-- No function of a plugin runs that was drained and unloaded. -/
def Quiet (s : Bus) : Prop :=
  ∀ task ∈ s.tasks, s.unload task.subscription.pluginName = .returned true → task.phase.executes = false

/-- Where a drain succeeds, no task of the plugin waits to begin and no function of it goes on past its timeout. -/
def Counted (s : Bus) : Action → Prop
  | .drainCheck pluginId => s.unload pluginId = .draining → s.inflight pluginId ≤ 0 →
    ∀ task ∈ s.tasks, task.subscription.pluginName = pluginId → task.phase ≠ .ready ∧ ∀ started, task.phase ≠ .abandoned started
  | _ => True

def Unload.drained : Unload → Bool
  | .unregistered drained | .returned drained => drained
  | _ => false

def Unload.unregisters : Unload → Bool
  | .unregistered _ | .returned _ => true
  | _ => false

def Task.countsFor (task : Task) (pluginId : String) : Bool := task.subscription.pluginName = pluginId && task.phase.counts

def counted (tasks : List Task) (pluginId : String) : Nat := tasks.countP fun task => task.countsFor pluginId

structure Kept (s : Bus) : Prop where
  count : ∀ pluginId, s.inflight pluginId = counted s.tasks pluginId
  unhooked : ∀ hookName, ∀ subscription ∈ s.hooks hookName, (s.unload subscription.pluginName).unregisters = false
  over_ : ∀ task ∈ s.tasks, (s.unload task.subscription.pluginName).drained = true → task.phase = .ended

variable {s : Bus} {action : Action} {pluginId : String} {move : Move} {coroutine : Bool} {phase next : Phase} {change : Int} {task : Task}

theorem next_count (moved : move.next coroutine phase = some (next,change)) :
    (phase.counts.toNat : Int) + change = next.counts.toNat := by
  unfold Move.next at moved
  split at moved
  all_goals try split at moved
  all_goals cases moved
  all_goals rfl

theorem next_ended : move.next coroutine .ended = none := by
  cases move <;> rfl

theorem counted_set {tasks : List Task} {i : Nat} (found : tasks[i]? = some task) (next : Phase) (pluginId : String) :
    (counted (tasks.set i {task with phase := next}) pluginId : Int) = counted tasks pluginId +
      if pluginId = task.subscription.pluginName then (next.counts.toNat : Int) - task.phase.counts.toNat else 0 := by
  obtain ⟨inside,here⟩ := List.getElem?_eq_some_iff.mp found
  have set : counted (tasks.set i {task with phase := next}) pluginId = counted tasks pluginId -
      (if task.countsFor pluginId then 1 else 0) + if task.subscription.pluginName = pluginId && next.counts then 1 else 0 := by
    unfold counted
    rw [List.countP_set inside,here]
    rfl
  have least : (if task.countsFor pluginId then 1 else 0) ≤ counted tasks pluginId :=
    here ▸ List.boole_getElem_le_countP (p := fun task => task.countsFor pluginId) inside
  rw [set]
  unfold Task.countsFor at least ⊢
  by_cases same : pluginId = task.subscription.pluginName
  · subst same
    cases was : task.phase.counts <;> cases now : next.counts <;> simp [was] at least ⊢ <;> omega
  · simp [same,Ne.symm same]

theorem kept_move (kept : Kept s) (i : Nat) (move : Move) : Kept (s.move i move) := by
  unfold Bus.move
  split
  · exact kept
  · rename_i task found
    split
    · exact kept
    · rename_i next change moved
      constructor
      · intro pluginId
        dsimp only
        rw [counted_set found,← kept.count pluginId,add]
        have counts := next_count moved
        split
        · omega
        · simp
      · exact kept.unhooked
      · intro other member drained
        rcases List.mem_or_eq_of_mem_set member with was | rfl
        · exact kept.over_ other was drained
        · have ended := kept.over_ task (List.mem_of_getElem? found) drained
          rw [ended,next_ended] at moved
          cases moved

theorem kept_asyncCall (kept : Kept s) (hookName : String) : Kept (s.asyncCall hookName) := by
  constructor
  · intro pluginId
    have none_ : (((s.hooks hookName).map fun subscription => (⟨subscription,.ready⟩ : Task)).countP
        fun task => task.countsFor pluginId) = 0 := by
      rw [List.countP_eq_zero]
      intro task member
      obtain ⟨subscription,-,rfl⟩ := List.mem_map.mp member
      simp [Task.countsFor,Phase.counts]
    simp only [Bus.asyncCall,counted,List.countP_append,none_,Nat.add_zero]
    exact kept.count pluginId
  · exact kept.unhooked
  · intro task member drained
    rcases List.mem_append.mp member with was | fresh
    · exact kept.over_ task was drained
    · obtain ⟨subscription,listed,rfl⟩ := List.mem_map.mp fresh
      have served := kept.unhooked hookName subscription listed
      simp only [Bus.asyncCall] at drained
      cases unload : s.unload subscription.pluginName <;> simp [unload,Unload.drained,Unload.unregisters] at drained served

/-- A change of a plugin's unloading by which it is no further. -/
theorem kept_setUnload (kept : Kept s) {unload : Unload} (same : unload.unregisters = (s.unload pluginId).unregisters)
    (drained : unload.drained = (s.unload pluginId).drained) : Kept (s.setUnload pluginId unload) := by
  have unregisters (other : String) : ((s.setUnload pluginId unload).unload other).unregisters = (s.unload other).unregisters := by
    simp only [Bus.setUnload]
    split
    · rename_i here
      rw [same,here]
    · rfl
  have drains (other : String) : ((s.setUnload pluginId unload).unload other).drained = (s.unload other).drained := by
    simp only [Bus.setUnload]
    split
    · rename_i here
      rw [drained,here]
    · rfl
  constructor
  · exact kept.count
  · exact fun hookName subscription listed => (unregisters _).trans (kept.unhooked hookName subscription listed)
  · exact fun task member ended_ => kept.over_ task member ((drains _).symm.trans ended_)

theorem kept_unregister (kept : Kept s) {drained : Bool}
    (done : drained = true → ∀ task ∈ s.tasks, task.subscription.pluginName = pluginId → task.phase = .ended) :
    Kept (s.unregister pluginId drained) := by
  constructor
  · exact kept.count
  · intro hookName subscription listed
    obtain ⟨was,other⟩ := List.mem_filter.mp listed
    simp only [Bus.unregister,Bus.setUnload]
    rw [if_neg (of_decide_eq_true other)]
    exact kept.unhooked hookName subscription was
  · intro task member ended_
    simp only [Bus.unregister,Bus.setUnload] at ended_
    split at ended_
    · rename_i here
      exact done ended_ task member here
    · exact kept.over_ task member ended_

theorem ended_of_counted (kept : Kept s) (drained : s.inflight pluginId ≤ 0)
    (settled : ∀ task ∈ s.tasks, task.subscription.pluginName = pluginId → task.phase ≠ .ready ∧ ∀ started, task.phase ≠ .abandoned started) :
    ∀ task ∈ s.tasks, task.subscription.pluginName = pluginId → task.phase = .ended := by
  intro task member here
  have none_ : counted s.tasks pluginId = 0 := by
    have count := kept.count pluginId
    omega
  have uncounted : task.phase.counts = false := by
    have all := List.countP_eq_zero.mp none_ task member
    simpa [Task.countsFor,here] using all
  obtain ⟨begun,heard⟩ := settled task member here
  cases phase : task.phase with
  | ready => exact absurd phase begun
  | abandoned started => exact absurd phase (heard started)
  | ended => rfl
  | checking | submitted | running | recording =>
    rw [phase] at uncounted
    cases uncounted

theorem step_kept (kept : Kept s) (allowed : Counted s action) : Kept (step s action) := by
  cases action with
  | asyncCall hookName => exact kept_asyncCall kept hookName
  | move i move => exact kept_move kept i move
  | unloadPlugin pluginId =>
    simp only [step]
    split
    · rename_i serving
      exact kept_setUnload kept (by rw [serving]; rfl) (by rw [serving]; rfl)
    · exact kept
  | drainCheck pluginId =>
    simp only [step]
    split
    · rename_i draining
      exact kept_unregister kept fun _ => ended_of_counted kept draining.2 (allowed draining.1 draining.2)
    · exact kept
  | drainExpires pluginId =>
    simp only [step]
    split
    · exact kept_unregister kept fun drained => by cases drained
    · exact kept
  | unloadReturns pluginId =>
    simp only [step]
    split
    · rename_i drained unregistered
      exact kept_setUnload kept (by rw [unregistered]; rfl) (by rw [unregistered]; rfl)
    · exact kept

theorem kept_quiet (s : Bus) (kept : Kept s) : Quiet s := by
  intro task member unloaded
  rw [kept.over_ task member (by rw [unloaded]; rfl)]
  rfl

theorem kept_initial (hooks : String → List Subscription) : Kept (initial hooks) where
  count := fun _ => rfl
  unhooked := fun _ _ _ => rfl
  over_ := fun _ member => by cases member

/-- No function of an unloaded plugin runs, where its drain never ends over tasks that are not in the count. -/
theorem quiet_throughout {hooks : String → List Subscription} {actions : List Action}
    (counted : Runs.Along step Counted (initial hooks) actions) : Runs.Throughout step Quiet (initial hooks) actions :=
  (Runs.throughout_of_along (fun _ _ => step_kept) actions (kept_initial hooks) counted).imp kept_quiet

def single (coroutine : Bool) (hookName : String) : List Subscription := if hookName = "node.connect" then [⟨"docker",coroutine⟩] else []

theorem quiet_throughout_drained : Runs.Throughout step Quiet (initial (single true))
    [.asyncCall "node.connect",.move 0 .begins,.move 0 .calls,.move 0 .returns,.move 0 .finishes,.unloadPlugin "docker",
      .drainCheck "docker",.unloadReturns "docker"] := by
  refine quiet_throughout ?_
  simp [Runs.Along,Counted,step,initial,single,Bus.asyncCall,Bus.move,Move.next,add,Bus.setUnload]

/-- A task that has not begun is not drained, and runs after the unloading. -/
theorem not_quiet_ready : ¬∀ hooks actions, Runs.Throughout step Quiet (initial hooks) actions := by
  intro quiet
  have reached := (quiet (single true) [.asyncCall "node.connect",.unloadPlugin "docker",.drainCheck "docker",.unloadReturns "docker",
    .move 0 .begins,.move 0 .calls]).last
  have runs := reached ⟨⟨"docker",true⟩,.running⟩
  simp [Runs.last,step,initial,single,Bus.asyncCall,Bus.move,Move.next,Bus.setUnload,Bus.unregister,Phase.executes] at runs

end Vigile.HookDrain
