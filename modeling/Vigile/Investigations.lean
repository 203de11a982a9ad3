import Mathlib.Data.Finset.Card
import Vigile.Python
import Vigile.RunHistory

/-! The investigations that follow an alert: the counter of reserved slots, over any
interleaving of calls of `on_alert_fired`, of the investigations they spawn and of
`ensure_tasks_complete`. Every statement with its commit is one step. -/
namespace Vigile.Investigations

open Interleaving Python

/-- The `status` of a row of `investigations`. -/
inductive Status where
  | queued
  | inProgress
  | completed
  | failed
  | skipped
  | dropped
  deriving DecidableEq

inductive Act where
  | reserve (n : Nat)
  | giveBack (n : Nat)
  | insert (n : Nat) (status : Status)
  | spawn (n : Nat)
  | begin (n : Nat)
  | acquire (n : Nat)
  | release (n : Nat)
  | openSession (n : Nat)
  | closeSession (n : Nat)
  | setStatus (n : Nat) (status : Status)
  | configured
  | analyzeAnomaly (n : Nat)
  | finish (n : Nat)
  | backgroundTasks
  | wait (tasks : List Nat)
  | cancel (tasks : List Nat)
  | clearTasks

abbrev Act.Reply : Act → Type
  | .reserve _ | .configured => Bool
  | .backgroundTasks | .wait _ => List Nat
  | _ => Unit

abbrev Task := Prog Act Act.Reply PyError

structure State where
  maxConcurrent : Nat
  reserved : Int
  droppedCount : Nat
  /-- What is left of the semaphore. -/
  permits : Nat
  rows : Nat → Option Status
  spawned : List Nat
  finished : List Nat
  background : List Nat
  /-- Tasks that are to be cancelled where they wait. -/
  cancelling : List Nat

def State.started (maxConcurrent : Nat) : State :=
  ⟨maxConcurrent,0,0,maxConcurrent,fun _ => none,[],[],[],[]⟩

structure Outside where
  fault : Fault
  expired : Bool
  llm : Bool

def calm : Outside := ⟨.none,false,true⟩

def State.done (s : State) (n : Nat) : State :=
  {s with
    finished := n :: s.finished
    background := s.background.filter (· ≠ n)
    cancelling := s.cancelling.filter (· ≠ n)}

def setRow (s : State) (n : Nat) (status : Status) : State :=
  {s with rows := Function.update s.rows n (some status)}

/-- An awaited call of an investigation, which a cancellation strikes first. -/
def awaited {α : Type} (s : State) (n : Nat) (outside : Outside) (done : State × Except PyError α) :
    State × Except PyError α :=
  if n ∈ s.cancelling then
    ({s with cancelling := s.cancelling.filter (· ≠ n)},.error .cancelledError)
  else outside.fault.strike s done

/-- Whether a cancellation or an error strikes the task where it waits. -/
def struck (s : State) (n : Nat) (outside : Outside) : Option PyError :=
  if n ∈ s.cancelling then some .cancelledError else outside.fault.error?

def exec (act : Act) (outside : Outside) (s : State) : Option (State × Except PyError act.Reply) :=
  match act with
  | .reserve _ =>
    if s.maxConcurrent ≤ s.reserved then some ({s with droppedCount := s.droppedCount + 1},.ok false)
    else some ({s with reserved := s.reserved + 1},.ok true)
  | .giveBack _ => some ({s with reserved := s.reserved - 1},.ok ())
  | .insert n status => some (outside.fault.strike s (setRow s n status,.ok ()))
  | .spawn n =>
    some ({s with spawned := n :: s.spawned,background := n :: s.background},.ok ())
  | .begin n =>
    if n ∉ s.spawned then none
    else if (struck s n outside).isSome then some (s.done n,.error .cancelledError)
    else some (s,.ok ())
  | .acquire n =>
    match struck s n outside with
    | some error => some ({s with cancelling := s.cancelling.filter (· ≠ n)},.error error)
    | none => if s.permits = 0 then none else some ({s with permits := s.permits - 1},.ok ())
  | .release _ => some ({s with permits := s.permits + 1},.ok ())
  | .openSession n | .closeSession n | .analyzeAnomaly n => some (awaited s n outside (s,.ok ()))
  | .setStatus n status => some (awaited s n outside (setRow s n status,.ok ()))
  | .configured => some (s,.ok outside.llm)
  | .finish n => some ({s.done n with reserved := s.reserved - 1},.ok ())
  | .backgroundTasks => some (s,.ok s.background)
  | .wait tasks =>
    match outside.fault.error? with
    | some error => some (s,.error error)
    | none =>
      let pending := tasks.filter (· ∉ s.finished)
      if pending.isEmpty || outside.expired then some (s,.ok pending) else none
  | .cancel tasks => some ({s with cancelling := tasks ++ s.cancelling},.ok ())
  | .clearTasks => some ({s with background := []},.ok ())

/-- `except Exception: pass`, or only logged. -/
def ignoring (program : Task Unit) : Task Unit := do
  try
    program
  catch error =>
    if error.isException then
      pure ()
    else
      throw error

/-- Whether the row is there; where it is not, the reservation is given back. -/
def createInvestigation (n : Nat) : Task Bool := do
  try
    Prog.perform (Act.insert n .queued)
    pure true
  catch error =>
    if error.isException then
      Prog.perform (Act.giveBack n)
      pure false
    else
      throw error

def onAlertFired (n : Nat) : Task (Option Nat) := do
  let admitted ← Prog.perform (Act.reserve n)
  if admitted then
    let created ← createInvestigation n
    if created then
      Prog.perform (Act.spawn n)
      return some n
    else
      return none
  else
    ignoring (Prog.perform (Act.insert n .dropped))
    return none

def phase3 (n : Nat) : Task Status := do
  let llm ← Prog.perform Act.configured
  if llm then
    try
      Prog.perform (Act.analyzeAnomaly n)
      pure .completed
    catch error =>
      if error.isException then
        pure .failed
      else
        throw error
  else
    pure .skipped

def analyze (n : Nat) : Task Unit := do
  try
    Prog.perform (Act.setStatus n .inProgress)
    let status ← phase3 n
    Prog.perform (Act.setStatus n status)
  catch error =>
    if error.isException then
      ignoring (Prog.perform (Act.setStatus n .failed))
    else
      throw error

def withSession (n : Nat) (program : Task Unit) : Task Unit := do
  Prog.perform (Act.openSession n)
  program.ensure (Prog.perform (Act.closeSession n))

def withSemaphore (n : Nat) (program : Task Unit) : Task Unit := do
  Prog.perform (Act.acquire n)
  program.ensure (Prog.perform (Act.release n))

/-- `_run_investigation`: the `try` statement is entered with the first step of the task. -/
def runInvestigation (n : Nat) : Task (Option Nat) := do
  Prog.perform (Act.begin n)
  (withSemaphore n (withSession n (analyze n))).ensure (Prog.perform (Act.finish n))
  return none

def ensureTasksComplete : Task (Option Nat) := do
  let tasks ← Prog.perform Act.backgroundTasks
  if tasks.isEmpty then
    return none
  let pending ← Prog.perform (Act.wait tasks)
  Prog.perform (Act.cancel pending)
  if !pending.isEmpty then
    let _ ← Prog.perform (Act.wait pending)
  Prog.perform Act.clearTasks
  return none

inductive Party where
  | alert (n : Nat)
  | investigation (n : Nat)
  | shutdown (n : Nat)
  deriving DecidableEq

def program : Party → Task (Option Nat)
  | .alert n => onAlertFired n
  | .investigation n => runInvestigation n
  | .shutdown _ => ensureTasksComplete

abbrev System := Config Party State Act Act.Reply PyError (Option Nat)
abbrev Step := Transition Party Outside State Act Act.Reply PyError

/-- Any number of alerts and of calls of `ensure_tasks_complete`. -/
def start (maxConcurrent : Nat) : System := ⟨.started maxConcurrent,program⟩

def admits (tr : Step) : Option Nat :=
  match tr.action,tr.reply with
  | .reserve n,.ok true => some n
  | _,_ => none

/-- The investigations that got a slot. -/
def admitted (trace : List Step) : List Nat := trace.filterMap admits

/-- The call has ended without an investigation, or the investigation has ended. -/
def ended (system : System) (n : Nat) : Bool :=
  (system.tasks (.alert n)).finished &&
    (n ∉ system.shared.spawned || (system.tasks (.investigation n)).finished)

/-- The investigations that were admitted and have not yet ended. -/
def underway (system : System) (trace : List Step) : Finset Nat :=
  (admitted trace).toFinset.filter fun n => ended system n = false

/-- A cancellation between the reservation and the task, or before the first step of the task:
an error there that `except Exception` does not catch is one. -/
def slips (tr : Step) : Bool :=
  match tr.action,tr.reply with
  | .insert _ .queued,.error error => !error.isException
  | .begin _,.error _ => true
  | _,_ => false

inductive Mode where
  | idle
  | dropping
  | admitted
  | queued
  | returning
  | handed
  | waiting
  | running
  | finished
  | lost
  | aside
  deriving DecidableEq

def callRule (n : Nat) : Prog.Protocol Act Act.Reply PyError Mode
  | .reserve m,reply,.idle =>
    if m = n then
      match reply with
      | .ok true => some .admitted
      | .ok false => some .dropping
      | .error _ => some .finished
    else none
  | .insert m .dropped,_,.dropping => if m = n then some .finished else none
  | .insert m .queued,reply,.admitted =>
    if m = n then
      match reply with
      | .ok _ => some .queued
      | .error error => some (if error.isException then .returning else .lost)
    else none
  | .spawn m,_,.queued => if m = n then some .handed else none
  | .giveBack m,_,.returning => if m = n then some .finished else none
  | _,_,_ => none

def taskRule (n : Nat) : Prog.Protocol Act Act.Reply PyError Mode
  | .begin m,reply,.waiting =>
    if m = n then
      match reply with
      | .ok _ => some .running
      | .error _ => some .lost
    else none
  | .finish m,_,.running => if m = n then some .finished else none
  | .acquire _,_,.running | .release _,_,.running | .openSession _,_,.running
  | .closeSession _,_,.running | .setStatus _ _,_,.running | .configured,_,.running
  | .analyzeAnomaly _,_,.running => some .running
  | _,_,_ => none

def shutdownRule : Prog.Protocol Act Act.Reply PyError Mode
  | .backgroundTasks,_,.aside | .wait _,_,.aside | .cancel _,_,.aside | .clearTasks,_,.aside => some .aside
  | _,_,_ => none

def rule : Party → Prog.Protocol Act Act.Reply PyError Mode
  | .alert n => callRule n
  | .investigation n => taskRule n
  | .shutdown _ => shutdownRule

def Mode.initial : Party → Mode
  | .alert _ => .idle
  | .investigation _ => .waiting
  | .shutdown _ => .aside

def Mode.terminal : Mode → Bool
  | .handed | .finished | .lost | .aside => true
  | _ => false

theorem onAlertFired_follows (n : Nat) :
    (onAlertFired n).Follows (callRule n) .idle fun _ m => m.terminal = true := by
  have reserves : (Prog.perform (Act.reserve n)).Follows (callRule n) .idle fun
      | .ok admitted,m => m = if admitted then .admitted else .dropping
      | .error _,m => m = .finished := by
    apply Prog.Follows.perform
    rintro (error | _ | _)
    · exact ⟨.finished,by simp [callRule],rfl⟩
    · exact ⟨.dropping,by simp [callRule],rfl⟩
    · exact ⟨.admitted,by simp [callRule],rfl⟩
  have creates : (createInvestigation n).Follows (callRule n) .admitted fun
      | .ok created,m => m = if created then .queued else .finished
      | .error _,m => m.terminal = true := by
    have inserts : (do
        Prog.perform (Act.insert n .queued)
        pure true : Task Bool).Follows (callRule n) .admitted fun
          | .ok created,m => created = true ∧ m = .queued
          | .error error,m => m = if error.isException then .returning else .lost := by
      have inserted : (Prog.perform (Act.insert n .queued)).Follows (callRule n) .admitted fun
          | .ok _,m => m = .queued
          | .error error,m => m = if error.isException then .returning else .lost := by
        apply Prog.Follows.perform
        rintro (error | _)
        · exact ⟨_,by simp [callRule],rfl⟩
        · exact ⟨.queued,by simp [callRule],rfl⟩
      apply Prog.Follows.bind inserted
      · rintro _ _ rfl
        exact ⟨rfl,rfl⟩
      · intro _ _ failed
        exact failed
    apply Prog.Follows.attempt inserts
    · rintro _ _ ⟨rfl,rfl⟩
      rfl
    · rintro error _ rfl
      split
      · have gives : (Prog.perform (Act.giveBack n)).Follows (callRule n) .returning fun _ m => m = .finished :=
          Prog.Follows.perform fun _ => ⟨.finished,by simp [callRule],rfl⟩
        apply Prog.Follows.bind gives
        · rintro _ _ rfl
          rfl
        · rintro _ _ rfl
          rfl
      · rfl
  apply Prog.Follows.bind reserves
  · rintro admitted _ rfl
    cases admitted with
    | false =>
      have drops : (ignoring (Prog.perform (Act.insert n .dropped))).Follows (callRule n) .dropping fun _ m =>
          m = .finished := by
        have inserted : (Prog.perform (Act.insert n .dropped)).Follows (callRule n) .dropping fun _ m =>
            m = .finished := Prog.Follows.perform fun _ => ⟨.finished,by simp [callRule],rfl⟩
        apply Prog.Follows.attempt inserted
        · intro _ _ finished
          exact finished
        · rintro error _ rfl
          split <;> rfl
      apply Prog.Follows.bind drops
      · rintro _ _ rfl
        rfl
      · rintro _ _ rfl
        rfl
    | true =>
      apply Prog.Follows.bind creates
      · rintro created _ rfl
        cases created with
        | false => rfl
        | true =>
          have spawns : (Prog.perform (Act.spawn n)).Follows (callRule n) .queued fun _ m => m = .handed :=
            Prog.Follows.perform fun _ => ⟨.handed,by simp [callRule],rfl⟩
          apply Prog.Follows.bind spawns
          · rintro _ _ rfl
            rfl
          · rintro _ _ rfl
            rfl
      · intro _ _ terminal
        exact terminal
  · rintro _ _ rfl
    rfl

theorem ignoring_stays {r : Prog.Protocol Act Act.Reply PyError Mode} {m : Mode} {program : Task Unit}
    (h : program.Stays r m) : (ignoring program).Stays r m := by
  apply Prog.Stays.attempt h
  intro error
  split
  · exact .pure
  · exact .throw

theorem withSemaphore_stays (n : Nat) :
    (withSemaphore n (withSession n (analyze n))).Stays (taskRule n) .running := by
  have steps : ∀ act : Act, (∀ reply, taskRule n act reply .running = some .running) →
      (Prog.perform act).Stays (taskRule n) .running := fun _ keeps => .perform keeps
  have phase : (phase3 n).Stays (taskRule n) .running := by
    apply Prog.Stays.bind (steps _ fun _ => rfl)
    intro llm
    split
    · apply Prog.Stays.attempt
      · exact .bind (steps _ fun _ => rfl) fun _ => .pure
      · intro error
        split
        · exact .pure
        · exact .throw
    · exact .pure
  have analysis : (analyze n).Stays (taskRule n) .running := by
    apply Prog.Stays.attempt
    · exact .bind (steps _ fun _ => rfl) fun _ => .bind phase fun _ => steps _ fun _ => rfl
    · intro error
      split
      · exact ignoring_stays (steps _ fun _ => rfl)
      · exact .throw
  have session : (withSession n (analyze n)).Stays (taskRule n) .running :=
    .bind (steps _ fun _ => rfl) fun _ => .ensure analysis (steps _ fun _ => rfl)
  exact .bind (steps _ fun _ => rfl) fun _ => .ensure session (steps _ fun _ => rfl)

theorem runInvestigation_follows (n : Nat) :
    (runInvestigation n).Follows (taskRule n) .waiting fun _ m => m.terminal = true := by
  have begins : (Prog.perform (Act.begin n)).Follows (taskRule n) .waiting fun
      | .ok _,m => m = .running
      | .error _,m => m = .lost := by
    apply Prog.Follows.perform
    rintro (error | _)
    · exact ⟨.lost,by simp [taskRule],rfl⟩
    · exact ⟨.running,by simp [taskRule],rfl⟩
  have finishes : (Prog.perform (Act.finish n)).Follows (taskRule n) .running fun _ m => m = .finished :=
    Prog.Follows.perform fun _ => ⟨.finished,by simp [taskRule],rfl⟩
  apply Prog.Follows.bind begins
  · rintro _ _ rfl
    have whole : ((withSemaphore n (withSession n (analyze n))).ensure
        (Prog.perform (Act.finish n))).Follows (taskRule n) .running fun _ m => m = .finished := by
      apply Prog.Follows.ensure (withSemaphore_stays n)
      rintro result _ rfl
      apply finishes.mono
      rintro (_ | _) _ rfl <;> rfl
    apply Prog.Follows.bind whole
    · rintro _ _ rfl
      rfl
    · rintro _ _ rfl
      rfl
  · rintro _ _ rfl
    rfl

theorem ensureTasksComplete_follows :
    ensureTasksComplete.Follows shutdownRule .aside fun _ m => m.terminal = true := by
  have steps : ∀ act : Act, (∀ reply, shutdownRule act reply .aside = some .aside) →
      (Prog.perform act).Stays shutdownRule .aside := fun _ keeps => .perform keeps
  have stays : ensureTasksComplete.Stays shutdownRule .aside := by
    apply Prog.Stays.bind (steps _ fun _ => rfl)
    intro tasks
    split
    · exact .pure
    · apply Prog.Stays.bind (steps _ fun _ => rfl)
      intro pending
      apply Prog.Stays.bind (steps _ fun _ => rfl)
      intro _
      have clears : (do
          Prog.perform Act.clearTasks
          pure none : Task (Option Nat)).Stays shutdownRule .aside :=
        .bind (steps _ fun _ => rfl) fun _ => .pure
      split
      · exact .bind (steps _ fun _ => rfl) fun _ => clears
      · exact clears
  apply stays.mono
  rintro _ _ rfl
  rfl

theorem program_follows (party : Party) :
    (program party).Follows (rule party) (Mode.initial party) fun _ m => m.terminal = true := by
  cases party with
  | alert n => exact onAlertFired_follows n
  | investigation n => exact runInvestigation_follows n
  | shutdown n => exact ensureTasksComplete_follows

/-- The modes of a call and of its investigation in which the slot is taken. -/
def occupies : Mode → Mode → Bool
  | .admitted,_ | .queued,_ | .returning,_ | .handed,.waiting | .handed,.running => true
  | _,_ => false

def occupying (modes : Party → Mode) (n : Nat) : Bool :=
  occupies (modes (.alert n)) (modes (.investigation n))

def occupants (past : List Step) (modes : Party → Mode) : Finset Nat :=
  (admitted past).toFinset.filter fun n => occupying modes n = true

structure Counted (maxConcurrent : Nat) (past : List Step) (modes : Party → Mode) (s : State) : Prop where
  maximum : s.maxConcurrent = maxConcurrent
  counted : s.reserved = (occupants past modes).card
  bounded : s.reserved ≤ maxConcurrent
  known : ∀ n, occupying modes n = true → n ∈ admitted past
  spawned : ∀ n, n ∈ s.spawned ↔ modes (.alert n) = .handed
  unspawned : ∀ n, modes (.alert n) ≠ .handed → modes (.investigation n) = .waiting

variable {maxConcurrent : Nat} {past : List Step} {modes : Party → Mode} {tr : Step} {m : Mode}

theorem occupants_eq {modes' : Party → Mode} {past' : List Step} (same : admitted past' = admitted past)
    (occupying_eq : ∀ n, occupying modes' n = occupying modes n) :
    occupants past' modes' = occupants past modes := by
  unfold occupants
  rw [same]
  simp only [occupying_eq]

theorem admitted_snoc (past : List Step) (tr : Step) :
    admitted (past ++ [tr]) = admitted past ++ (admits tr).toList := by
  unfold admitted
  rw [List.filterMap_append]
  cases found : admits tr <;> simp [found]

/-- The steps that leave the counter and the list of the spawned tasks alone. -/
def Act.quiet : Act → Bool
  | .reserve _ | .giveBack _ | .spawn _ | .finish _ => false
  | _ => true

/-- The same counter and the same spawned tasks. -/
structure Alike (s s' : State) : Prop where
  reserved : s'.reserved = s.reserved
  spawned : s'.spawned = s.spawned
  maximum : s'.maxConcurrent = s.maxConcurrent

theorem Alike.refl (s : State) : Alike s s := ⟨rfl,rfl,rfl⟩

variable {s after before : State} {α : Type} {n : Nat} {choice : Outside} {reply : Except PyError Unit} {act : Act}
  {mode : Mode}

variable {done : State × Except PyError α}

theorem strike_alike {fault : Fault}
    (alike : Alike s done.1) : Alike s (fault.strike s done).1 := by
  rcases strike_state fault s done with same | same
  · rw [same]
    exact .refl s
  · rwa [same]

theorem awaited_alike {outside : Outside} (alike : Alike s done.1) :
    Alike s (awaited s n outside done).1 := by
  unfold awaited
  split
  · exact ⟨rfl,rfl,rfl⟩
  · exact strike_alike alike

theorem alike_of_some
    {reply : Except PyError α} (arrives : some done = some (after,reply)) (alike : Alike before done.1) :
    Alike before after := by
  rwa [Option.some.inj arrives] at alike

theorem alike_of_taken (taken : Taken exec tr) (quiet : tr.action.quiet = true) :
    Alike tr.before tr.after := by
  obtain ⟨party,action,choice,before,reply,after⟩ := tr
  simp only [Taken] at taken
  change Alike before after
  cases action with
  | reserve | giveBack | spawn | finish => contradiction
  | insert n status =>
    exact alike_of_some taken (strike_alike ⟨rfl,rfl,rfl⟩)
  | openSession n | closeSession n | analyzeAnomaly n =>
    exact alike_of_some taken (awaited_alike (.refl before))
  | setStatus n status =>
    exact alike_of_some taken (awaited_alike ⟨rfl,rfl,rfl⟩)
  | release | configured | backgroundTasks | cancel | clearTasks =>
    exact alike_of_some taken ⟨rfl,rfl,rfl⟩
  | begin n =>
    simp only [exec] at taken
    split at taken
    · contradiction
    · split at taken
      · exact alike_of_some taken ⟨rfl,rfl,rfl⟩
      · exact alike_of_some taken (.refl before)
  | acquire n =>
    simp only [exec] at taken
    split at taken
    · exact alike_of_some taken ⟨rfl,rfl,rfl⟩
    · split at taken
      · contradiction
      · exact alike_of_some taken ⟨rfl,rfl,rfl⟩
  | wait tasks =>
    simp only [exec] at taken
    split at taken
    · exact alike_of_some taken (.refl before)
    · split at taken
      · exact alike_of_some taken (.refl before)
      · contradiction

theorem not_admits_of_quiet (quiet : tr.action.quiet = true) : admits tr = none := by
  unfold admits
  split
  · rename_i action _
    rw [action] at quiet
    contradiction
  · rfl

/-- A step that leaves everything counted alone. -/
theorem Counted.same (counted : Counted maxConcurrent past modes tr.before)
    (alike : Alike tr.before tr.after) (silent : admits tr = none)
    (slot : ∀ n, occupying (Function.update modes tr.task m) n = occupying modes n)
    (handed : ∀ n, Function.update modes tr.task m (.alert n) = .handed ↔ modes (.alert n) = .handed)
    (unspawned : ∀ n, Function.update modes tr.task m (.alert n) ≠ .handed →
      Function.update modes tr.task m (.investigation n) = .waiting) :
    Counted maxConcurrent (past ++ [tr]) (Function.update modes tr.task m) tr.after := by
  have admitted_eq : admitted (past ++ [tr]) = admitted past := by
    rw [admitted_snoc,silent]
    exact List.append_nil _
  refine ⟨?_,?_,?_,?_,?_,unspawned⟩
  · rw [alike.maximum]
    exact counted.maximum
  · rw [alike.reserved,occupants_eq admitted_eq slot]
    exact counted.counted
  · rw [alike.reserved]
    exact counted.bounded
  · intro n occupied
    rw [slot] at occupied
    rw [admitted_eq]
    exact counted.known n occupied
  · intro n
    rw [alike.spawned,handed]
    exact counted.spawned n

/-- A step that gives a slot back. -/
theorem Counted.freed (counted : Counted maxConcurrent past modes tr.before)
    (reserved : tr.after.reserved = tr.before.reserved - 1) (same : tr.after.spawned = tr.before.spawned)
    (maximum : tr.after.maxConcurrent = tr.before.maxConcurrent) (silent : admits tr = none)
    (taken : occupying modes n = true) (free : occupying (Function.update modes tr.task m) n = false)
    (slot : ∀ k, k ≠ n → occupying (Function.update modes tr.task m) k = occupying modes k)
    (handed : ∀ k, Function.update modes tr.task m (.alert k) = .handed ↔ modes (.alert k) = .handed)
    (unspawned : ∀ k, Function.update modes tr.task m (.alert k) ≠ .handed →
      Function.update modes tr.task m (.investigation k) = .waiting) :
    Counted maxConcurrent (past ++ [tr]) (Function.update modes tr.task m) tr.after := by
  have admitted_eq : admitted (past ++ [tr]) = admitted past := by
    rw [admitted_snoc,silent]
    exact List.append_nil _
  have erased : occupants (past ++ [tr]) (Function.update modes tr.task m) =
      (occupants past modes).erase n := by
    ext k
    simp only [occupants,admitted_eq,Finset.mem_filter,Finset.mem_erase,List.mem_toFinset]
    by_cases same : k = n
    · subst same
      simp [free]
    · simp [same,slot k same]
  have member : n ∈ occupants past modes := by
    simp only [occupants,Finset.mem_filter,List.mem_toFinset]
    exact ⟨counted.known n taken,taken⟩
  have positive := Finset.card_pos.mpr ⟨n,member⟩
  refine ⟨?_,?_,?_,?_,?_,unspawned⟩
  · rw [maximum]
    exact counted.maximum
  · rw [reserved,counted.counted,erased,Finset.card_erase_of_mem member]
    omega
  · rw [reserved]
    have := counted.bounded
    omega
  · intro k occupied
    rw [admitted_eq]
    by_cases other : k = n
    · subst other
      rw [free] at occupied
      contradiction
    · rw [slot k other] at occupied
      exact counted.known k occupied
  · intro k
    rw [same,handed]
    exact counted.spawned k

theorem occupying_call (modes : Party → Mode) (n k : Nat) (m : Mode) :
    occupying (Function.update modes (.alert n) m) k =
      if k = n then occupies m (modes (.investigation n)) else occupying modes k := by
  unfold occupying
  by_cases same : k = n
  · subst same
    simp
  · simp [same]

theorem occupying_task (modes : Party → Mode) (n k : Nat) (m : Mode) :
    occupying (Function.update modes (.investigation n) m) k =
      if k = n then occupies (modes (.alert n)) m else occupying modes k := by
  unfold occupying
  by_cases same : k = n
  · subst same
    simp
  · simp [same]

/-- A call that is not handing over leaves the lists of the tasks right. -/
theorem Counted.call_lists (counted : Counted maxConcurrent past modes s)
    (before : modes (.alert n) ≠ .handed) (after : m ≠ .handed) :
    (∀ k, Function.update modes (.alert n) m (.alert k) = .handed ↔ modes (.alert k) = .handed) ∧
      ∀ k, Function.update modes (.alert n) m (.alert k) ≠ .handed →
        Function.update modes (.alert n) m (.investigation k) = .waiting := by
  constructor
  · intro k
    by_cases same : k = n
    · subst same
      simp [before,after]
    · simp [same]
  · intro k other
    rw [Function.update_of_ne (by simp)]
    by_cases same : k = n
    · subst same
      exact counted.unspawned k before
    · apply counted.unspawned k
      rwa [Function.update_of_ne (by simp [same])] at other

/-- A call that keeps or keeps away from its slot. -/
theorem Counted.call (counted : Counted maxConcurrent past modes tr.before)
    (own : tr.task = .alert n) (alike : Alike tr.before tr.after) (silent : admits tr = none)
    (slot : ∀ w, occupies m w = occupies (modes (.alert n)) w)
    (before : modes (.alert n) ≠ .handed) (after : m ≠ .handed) :
    Counted maxConcurrent (past ++ [tr]) (Function.update modes tr.task m) tr.after := by
  have lists := counted.call_lists before after
  refine counted.same alike silent ?_ (own ▸ lists.1) (own ▸ lists.2)
  intro k
  rw [own,occupying_call]
  split
  · rename_i same
    subst same
    exact slot _
  · rfl

theorem Counted.reserve {reply : Except PyError Bool}
    (counted : Counted maxConcurrent past modes before)
    (taken : exec (.reserve n) choice before = some (after,reply)) (idle : modes (.alert n) = .idle)
    (allowed : callRule n (.reserve n) reply .idle = some m) :
    Counted maxConcurrent (past ++ [⟨.alert n,.reserve n,choice,before,reply,after⟩])
      (Function.update modes (.alert n) m) after := by
  simp only [exec] at taken
  split at taken
  · obtain ⟨state,rfl⟩ := Prod.mk.inj (Option.some.inj taken)
    obtain rfl : m = .dropping := by simpa [callRule] using allowed.symm
    have alike : Alike before after := by
      rw [← state]
      exact ⟨rfl,rfl,rfl⟩
    exact counted.call rfl alike rfl
      (fun w => by rw [idle]; rfl) (by simp [idle]) (by simp)
  · rename_i room
    obtain ⟨state,rfl⟩ := Prod.mk.inj (Option.some.inj taken)
    obtain rfl : m = .admitted := by simpa [callRule] using allowed.symm
    have lists := counted.call_lists (m := .admitted) (n := n) (by simp [idle]) (by simp)
    have free : occupying modes n = false := by simp [occupying,idle,occupies]
    have inserted : occupants (past ++ [⟨.alert n,.reserve n,choice,before,.ok true,after⟩])
        (Function.update modes (.alert n) .admitted) = insert n (occupants past modes) := by
      ext k
      simp only [occupants,admitted_snoc,Finset.mem_filter,Finset.mem_insert,List.mem_toFinset,
        List.mem_append,occupying_call]
      by_cases same : k = n
      · subst same
        simp [admits,occupies]
      · simp [admits,same]
    have new : n ∉ occupants past modes := by simp [occupants,free]
    have maximum := counted.maximum
    refine ⟨?_,?_,?_,?_,?_,lists.2⟩
    · rw [← state]
      exact maximum
    · rw [inserted,Finset.card_insert_of_notMem new,← state]
      change before.reserved + 1 = _
      rw [counted.counted]
      omega
    · rw [← state]
      change before.reserved + 1 ≤ _
      omega
    · intro k occupied
      rw [admitted_snoc]
      rw [occupying_call] at occupied
      split at occupied
      · rename_i same
        simp [same,admits]
      · exact List.mem_append_left _ (counted.known k occupied)
    · intro k
      rw [lists.1,← state]
      exact counted.spawned k

theorem Counted.spawn
    (counted : Counted maxConcurrent past modes before)
    (taken : exec (.spawn n) choice before = some (after,reply)) (queued : modes (.alert n) = .queued) :
    Counted maxConcurrent (past ++ [⟨.alert n,.spawn n,choice,before,reply,after⟩])
      (Function.update modes (.alert n) .handed) after := by
  obtain ⟨state,rfl⟩ := Prod.mk.inj (Option.some.inj taken)
  have waits := counted.unspawned n (by simp [queued])
  have admitted_eq : admitted (past ++ [⟨.alert n,.spawn n,choice,before,.ok (),after⟩]) =
      admitted past := by
    rw [admitted_snoc]
    exact List.append_nil _
  have slot : ∀ k, occupying (Function.update modes (.alert n) .handed) k = occupying modes k := by
    intro k
    rw [occupying_call]
    split
    · rename_i same
      subst same
      simp [occupying,queued,waits,occupies]
    · rfl
  refine ⟨?_,?_,?_,?_,?_,?_⟩
  · rw [← state]
    exact counted.maximum
  · rw [occupants_eq admitted_eq slot,← state]
    exact counted.counted
  · rw [← state]
    exact counted.bounded
  · intro k occupied
    rw [slot] at occupied
    rw [admitted_eq]
    exact counted.known k occupied
  · intro k
    rw [← state]
    change k ∈ n :: before.spawned ↔ _
    by_cases same : k = n
    · subst same
      simp
    · simp [same,counted.spawned k]
  · intro k other
    rw [Function.update_of_ne (by simp)]
    by_cases same : k = n
    · subst same
      exact waits
    · apply counted.unspawned k
      rwa [Function.update_of_ne (by simp [same])] at other

theorem Counted.giveBack
    (counted : Counted maxConcurrent past modes before)
    (taken : exec (.giveBack n) choice before = some (after,reply))
    (returning : modes (.alert n) = .returning) :
    Counted maxConcurrent (past ++ [⟨.alert n,.giveBack n,choice,before,reply,after⟩])
      (Function.update modes (.alert n) .finished) after := by
  have lists := counted.call_lists (m := .finished) (n := n) (by simp [returning]) (by simp)
  have state : _ = after := congrArg Prod.fst (Option.some.inj taken)
  refine counted.freed (n := n) (state ▸ rfl)
    (state ▸ rfl) (state ▸ rfl) rfl ?_ ?_ ?_ lists.1 lists.2
  · simp [occupying,returning,occupies]
  · simp [occupying_call,occupies]
  · intro k other
    simp [occupying_call,other]

/-- The steps of an investigation, which has a slot from the start. -/
theorem Counted.task_lists (counted : Counted maxConcurrent past modes s)
    (handed : modes (.alert n) = .handed) (m : Mode) :
    (∀ k, Function.update modes (.investigation n) m (.alert k) = .handed ↔ modes (.alert k) = .handed) ∧
      ∀ k, Function.update modes (.investigation n) m (.alert k) ≠ .handed →
        Function.update modes (.investigation n) m (.investigation k) = .waiting := by
  constructor
  · intro k
    simp
  · intro k other
    rw [Function.update_of_ne (by simp)] at other
    by_cases same : k = n
    · subst same
      exact absurd handed other
    · rw [Function.update_of_ne (by simp [same])]
      exact counted.unspawned k other

theorem Counted.handed_of_running (counted : Counted maxConcurrent past modes s)
    (running : modes (.investigation n) = .running) : modes (.alert n) = .handed := by
  by_contra other
  rw [counted.unspawned n other] at running
  contradiction

theorem Counted.begin
    (counted : Counted maxConcurrent past modes before)
    (taken : exec (.begin n) choice before = some (after,reply))
    (waiting : modes (.investigation n) = .waiting) :
    Counted maxConcurrent (past ++ [⟨.investigation n,.begin n,choice,before,reply,after⟩])
      (Function.update modes (.investigation n) .running) after := by
  have handed : modes (.alert n) = .handed := by
    rw [← counted.spawned n]
    by_contra unspawned
    simp [exec,unspawned] at taken
  have lists := counted.task_lists handed .running
  refine counted.same
    (alike_of_taken taken rfl) rfl ?_ lists.1 lists.2
  intro k
  rw [occupying_task]
  split
  · rename_i same
    subst same
    simp [occupying,handed,waiting,occupies]
  · rfl

theorem Counted.finish
    (counted : Counted maxConcurrent past modes before)
    (taken : exec (.finish n) choice before = some (after,reply))
    (running : modes (.investigation n) = .running) :
    Counted maxConcurrent (past ++ [⟨.investigation n,.finish n,choice,before,reply,after⟩])
      (Function.update modes (.investigation n) .finished) after := by
  have handed := counted.handed_of_running running
  have lists := counted.task_lists handed .finished
  have state : _ = after := congrArg Prod.fst (Option.some.inj taken)
  refine counted.freed (n := n) (state ▸ rfl)
    (state ▸ rfl) (state ▸ rfl) rfl ?_ ?_ ?_ lists.1 lists.2
  · simp [occupying,handed,running,occupies]
  · simp [occupying_task,handed,occupies]
  · intro k other
    simp [occupying_task,other]

theorem Counted.idle (counted : Counted maxConcurrent past modes tr.before) (taken : Taken exec tr)
    (quiet : tr.action.quiet = true) (same : modes tr.task = m) :
    Counted maxConcurrent (past ++ [tr]) (Function.update modes tr.task m) tr.after := by
  subst same
  rw [Function.update_eq_self]
  have kept := counted.same (m := modes tr.task) (alike_of_taken taken quiet) (not_admits_of_quiet quiet)
  rw [Function.update_eq_self] at kept
  exact kept (fun _ => rfl) (fun _ => Iff.rfl) counted.unspawned

theorem shutdownRule_some {reply : Except PyError act.Reply}
    (allowed : shutdownRule act reply mode = some m) : act.quiet = true ∧ mode = m := by
  cases act <;> cases mode <;> first | contradiction | exact ⟨rfl,Option.some.inj allowed⟩

/-- What a call can do in which mode. -/
theorem callRule_some {reply : Except PyError act.Reply}
    (allowed : callRule n act reply mode = some m) :
    (act = .reserve n ∧ mode = .idle) ∨
      (act = .insert n .dropped ∧ mode = .dropping ∧ m = .finished) ∨
      (act = .insert n .queued ∧ mode = .admitted ∧ (m = .queued ∨ m = .returning ∨
        m = .lost ∧ ∃ error, reply = .error error ∧ error.isException = false)) ∨
      (act = .spawn n ∧ mode = .queued ∧ m = .handed) ∨
      (act = .giveBack n ∧ mode = .returning ∧ m = .finished) := by
  cases act with
  | reserve k =>
    cases mode with
    | idle =>
      simp only [callRule] at allowed
      split at allowed
      · exact .inl ⟨congrArg Act.reserve ‹_›,rfl⟩
      · contradiction
    | _ => contradiction
  | insert k status =>
    cases mode <;> cases status <;> simp [callRule] at allowed
    · obtain ⟨rfl,next⟩ := allowed
      exact .inr (.inl ⟨rfl,rfl,next.symm⟩)
    · obtain ⟨rfl,next⟩ := allowed
      refine .inr (.inr (.inl ⟨rfl,rfl,?_⟩))
      cases reply with
      | ok _ => exact .inl (Option.some.inj next).symm
      | error error =>
        dsimp only at next
        split at next
        · exact .inr (.inl (Option.some.inj next).symm)
        · rename_i uncaught
          exact .inr (.inr ⟨(Option.some.inj next).symm,error,rfl,Bool.eq_false_iff.mpr uncaught⟩)
  | spawn k =>
    cases mode <;> simp [callRule] at allowed
    obtain ⟨rfl,next⟩ := allowed
    exact .inr (.inr (.inr (.inl ⟨rfl,rfl,next.symm⟩)))
  | giveBack k =>
    cases mode <;> simp [callRule] at allowed
    obtain ⟨rfl,next⟩ := allowed
    exact .inr (.inr (.inr (.inr ⟨rfl,rfl,next.symm⟩)))
  | _ => contradiction

theorem taskRule_some {reply : Except PyError act.Reply}
    (allowed : taskRule n act reply mode = some m) :
    (act = .begin n ∧ mode = .waiting ∧ m = if reply.isOk then .running else .lost) ∨
      (act = .finish n ∧ mode = .running ∧ m = .finished) ∨ act.quiet = true ∧ mode = m := by
  cases act with
  | begin k =>
    cases mode with
    | waiting =>
      simp only [taskRule] at allowed
      split at allowed
      · rename_i same
        subst same
        refine .inl ⟨rfl,rfl,?_⟩
        cases reply <;> exact (Option.some.inj allowed).symm
      · contradiction
    | _ => contradiction
  | finish k =>
    cases mode with
    | running =>
      simp only [taskRule] at allowed
      split at allowed
      · rename_i same
        subst same
        exact .inr (.inl ⟨rfl,rfl,(Option.some.inj allowed).symm⟩)
      · contradiction
    | _ => contradiction
  | _ => cases mode <;> first | contradiction | exact .inr (.inr ⟨rfl,Option.some.inj allowed⟩)

/-- The step lemma: each party's step keeps the count, unless it slips. -/
theorem Counted.step (counted : Counted maxConcurrent past modes tr.before) (taken : Taken exec tr)
    (allowed : rule tr.task tr.action tr.reply (modes tr.task) = some m) (kept : slips tr = false) :
    Counted maxConcurrent (past ++ [tr]) (Function.update modes tr.task m) tr.after := by
  obtain ⟨party,action,choice,before,reply,after⟩ := tr
  cases party with
  | shutdown n =>
    obtain ⟨quiet,same⟩ := shutdownRule_some allowed
    exact counted.idle taken quiet same
  | investigation n =>
    rcases taskRule_some allowed with ⟨rfl,waiting,rfl⟩ | ⟨rfl,running,rfl⟩ | ⟨quiet,same⟩
    · cases reply with
      | ok _ => exact counted.begin taken waiting
      | error _ => contradiction
    · exact counted.finish taken running
    · exact counted.idle taken quiet same
  | alert n =>
    rcases callRule_some allowed with ⟨rfl,idle⟩ | ⟨rfl,dropping,rfl⟩ | ⟨rfl,admitted,moves⟩ | ⟨rfl,queued,rfl⟩ |
      ⟨rfl,returning,rfl⟩
    · simp only [rule,idle] at allowed
      exact counted.reserve taken idle allowed
    · exact counted.call rfl (alike_of_taken taken rfl) rfl (fun w => by rw [dropping]; rfl) (by simp [dropping])
        (by simp)
    · have alike : Alike before after := alike_of_taken taken rfl
      rcases moves with rfl | rfl | ⟨rfl,error,raised,uncaught⟩
      · exact counted.call rfl alike rfl (fun w => by rw [admitted]; rfl) (by simp [admitted]) (by simp)
      · exact counted.call rfl alike rfl (fun w => by rw [admitted]; rfl) (by simp [admitted]) (by simp)
      · cases reply with
        | ok _ => contradiction
        | error _ =>
          obtain rfl := Except.error.inj raised
          simp [slips,uncaught] at kept
    · exact counted.spawn taken queued
    · exact counted.giveBack taken returning

def Mode.ofCall : Mode → Bool
  | .waiting | .running | .aside => false
  | _ => true

def Mode.ofTask : Mode → Bool
  | .waiting | .running | .finished | .lost => true
  | _ => false

/-- The call may have a slot, or have had one. -/
def Mode.served : Mode → Bool
  | .idle | .dropping => false
  | _ => true

structure Placed (past : List Step) (modes : Party → Mode) : Prop where
  call : ∀ n, (modes (.alert n)).ofCall = true
  task : ∀ n, (modes (.investigation n)).ofTask = true
  served : ∀ n ∈ admitted past, (modes (.alert n)).served = true

theorem callRule_placed {reply : Except PyError act.Reply}
    (allowed : callRule n act reply mode = some m) (choice : Outside) (before after : State) :
    m.ofCall = true ∧ (m.served = true ∨ mode.served = false ∧
      admits ⟨.alert n,act,choice,before,reply,after⟩ = none) ∧
      ∀ k, admits ⟨.alert n,act,choice,before,reply,after⟩ = some k → k = n := by
  rcases callRule_some allowed with ⟨rfl,rfl⟩ | ⟨rfl,_,rfl⟩ | ⟨rfl,_,moves⟩ | ⟨rfl,_,rfl⟩ | ⟨rfl,_,rfl⟩
  · simp only [callRule,if_true] at allowed
    rcases reply with error | _ | _
    · obtain rfl := Option.some.inj allowed
      exact ⟨rfl,.inl rfl,by simp [admits]⟩
    · obtain rfl := Option.some.inj allowed
      exact ⟨rfl,.inr ⟨rfl,rfl⟩,by simp [admits]⟩
    · obtain rfl := Option.some.inj allowed
      refine ⟨rfl,.inl rfl,?_⟩
      rintro _ ⟨⟩
      rfl
  · exact ⟨rfl,.inl rfl,by simp [admits]⟩
  · rcases moves with rfl | rfl | ⟨rfl,_⟩
    all_goals exact ⟨rfl,.inl rfl,by simp [admits]⟩
  all_goals exact ⟨rfl,.inl rfl,by simp [admits]⟩

/-- Only calls are admitted. -/
theorem not_admits_of_other (allowed : rule tr.task tr.action tr.reply (modes tr.task) = some m)
    (other : ∀ n, tr.task ≠ .alert n) : admits tr = none := by
  obtain ⟨party,action,choice,before,reply,after⟩ := tr
  cases party with
  | alert n => exact absurd rfl (other n)
  | shutdown n => exact not_admits_of_quiet (shutdownRule_some allowed).1
  | investigation n =>
    rcases taskRule_some allowed with ⟨rfl,_⟩ | ⟨rfl,_⟩ | ⟨quiet,_⟩
    · rfl
    · rfl
    · exact not_admits_of_quiet quiet

/-- A step of another party than a call leaves the calls where they are. -/
theorem Placed.aside (placed : Placed past modes) (silent : admits tr = none) (other : ∀ n, tr.task ≠ .alert n)
    (task : ∀ n, (Function.update modes tr.task m (.investigation n)).ofTask = true) :
    Placed (past ++ [tr]) (Function.update modes tr.task m) := by
  refine ⟨?_,task,?_⟩
  · intro k
    rw [Function.update_of_ne (other k).symm]
    exact placed.call k
  · intro k member
    rw [admitted_snoc,silent] at member
    rw [Function.update_of_ne (other k).symm]
    exact placed.served k (by simpa using member)

theorem Placed.step (placed : Placed past modes)
    (allowed : rule tr.task tr.action tr.reply (modes tr.task) = some m) :
    Placed (past ++ [tr]) (Function.update modes tr.task m) := by
  cases own : tr.task with
  | alert n =>
    obtain ⟨party,action,choice,before,reply,after⟩ := tr
    obtain rfl : party = .alert n := own
    obtain ⟨ofCall,servedOr,named⟩ := callRule_placed allowed choice before after
    refine ⟨?_,?_,?_⟩
    · intro k
      by_cases same : k = n
      · subst same
        rw [Function.update_self]
        exact ofCall
      · rw [Function.update_of_ne (by simp [same])]
        exact placed.call k
    · intro k
      rw [Function.update_of_ne (by simp)]
      exact placed.task k
    · intro k member
      rw [admitted_snoc,List.mem_append,Option.mem_toList] at member
      by_cases same : k = n
      · subst same
        rw [Function.update_self]
        rcases servedOr with served | ⟨unserved,silent⟩
        · exact served
        · rcases member with earlier | now
          · have served : (modes (.alert k)).served = true := placed.served k earlier
            rw [show (modes (.alert k)).served = false from unserved] at served
            contradiction
          · rw [silent] at now
            contradiction
      · rw [Function.update_of_ne (by simp [same])]
        rcases member with earlier | now
        · exact placed.served k earlier
        · exact absurd (named k now) same
  | investigation n =>
    have other : ∀ k, tr.task ≠ .alert k := by simp [own]
    have ofTask : m.ofTask = true := by
      obtain ⟨party,action,choice,before,reply,after⟩ := tr
      obtain rfl : party = .investigation n := own
      rcases taskRule_some allowed with ⟨rfl,_,rfl⟩ | ⟨rfl,_,rfl⟩ | ⟨_,same⟩
      · cases reply <;> rfl
      · rfl
      · rw [← same]
        exact placed.task n
    rw [← own]
    refine placed.aside (not_admits_of_other allowed other) other fun k => ?_
    rw [own]
    by_cases same : k = n
    · subst same
      rw [Function.update_self]
      exact ofTask
    · rw [Function.update_of_ne (by simp [same])]
      exact placed.task k
  | shutdown n =>
    have other : ∀ k, tr.task ≠ .alert k := by simp [own]
    rw [← own]
    refine placed.aside (not_admits_of_other allowed other) other fun k => ?_
    rw [Function.update_of_ne (by simp [own])]
    exact placed.task k

theorem callRule_terminal {reply : Except PyError act.Reply}
    (terminal : mode.terminal = true) : callRule n act reply mode = none := by
  cases mode <;> first | contradiction | (cases act <;> first | rfl | (rename_i status; cases status <;> rfl))

theorem taskRule_terminal {reply : Except PyError act.Reply}
    (terminal : mode.terminal = true) : taskRule n act reply mode = none := by
  cases mode <;> first | contradiction | (cases act <;> rfl)

/-- A call or a task has ended in the terminal modes, and only there. -/
theorem finished_iff {party : Party} {program : Task (Option Nat)}
    (follows : program.Follows (rule party) mode fun _ m => m.terminal = true)
    (halts : ∀ act reply, mode.terminal = true → rule party act reply mode = none) :
    program.finished = mode.terminal := by
  cases program with
  | ret value | raise error => exact (show mode.terminal = true from follows).symm
  | act action next =>
    by_contra differ
    have terminal : mode.terminal = true := by
      cases ends : mode.terminal with
      | true => rfl
      | false => exact absurd ends.symm differ
    obtain ⟨m,allowed,_⟩ := follows (.error .cancelledError)
    rw [halts action _ terminal] at allowed
    contradiction

theorem ended_iff {system : System} (placed : Placed past modes)
    (counted : Counted maxConcurrent past modes system.shared)
    (follows : ∀ party, (system.tasks party).Follows (rule party) (modes party) fun _ m => m.terminal = true) (served : n ∈ admitted past) : ended system n = !occupying modes n := by
  have call := finished_iff (follows (.alert n)) fun _ _ => callRule_terminal
  have task := finished_iff (follows (.investigation n)) fun _ _ => taskRule_terminal
  have ofCall := placed.call n
  have ofTask := placed.task n
  have past := placed.served n served
  unfold ended occupying
  rw [call,task]
  have spawned := counted.spawned n
  cases mode : modes (.alert n) with
  | handed =>
    rw [mode] at spawned
    have known : n ∈ system.shared.spawned := spawned.mpr rfl
    cases other : modes (.investigation n) <;> rw [other] at ofTask <;>
      first | contradiction | simp [known,Mode.terminal,occupies]
  | finished | lost =>
    rw [mode] at spawned
    have unknown : n ∉ system.shared.spawned := fun member => by
      have := spawned.mp member
      contradiction
    simp [unknown,Mode.terminal,occupies]
  | admitted | queued | returning => simp [Mode.terminal,occupies]
  | idle | dropping =>
    rw [mode] at past
    contradiction
  | waiting | running | aside =>
    rw [mode] at ofCall
    contradiction

/-- The invariant of the runs. -/
def Tracked (maxConcurrent : Nat) (past : List Step) (modes : Party → Mode) (s : State) : Prop :=
  Counted maxConcurrent past modes s ∧ Placed past modes

theorem Tracked.step (tracked : Tracked maxConcurrent past modes tr.before) (taken : Taken exec tr)
    (allowed : rule tr.task tr.action tr.reply (modes tr.task) = some m) (kept : slips tr = false) :
    Tracked maxConcurrent (past ++ [tr]) (Function.update modes tr.task m) tr.after :=
  ⟨tracked.1.step taken allowed kept,tracked.2.step allowed⟩

/-- In every state of every run in which no cancellation strikes between a reservation and
its task or before the first step of the task, the counter is the number of investigations
that were admitted and have not yet ended, and within its bounds. -/
theorem reserved_underway (maxConcurrent : Nat) (schedule : List (Party × Outside))
    (kept : ∀ tr ∈ (run exec schedule (start maxConcurrent)).2, slips tr = false) :
    0 ≤ (run exec schedule (start maxConcurrent)).1.shared.reserved ∧
      (run exec schedule (start maxConcurrent)).1.shared.reserved ≤ maxConcurrent ∧
      (run exec schedule (start maxConcurrent)).1.shared.reserved =
        (underway (run exec schedule (start maxConcurrent)).1
          (run exec schedule (start maxConcurrent)).2).card := by
  have first : Counted maxConcurrent [] Mode.initial (start maxConcurrent).shared :=
    ⟨rfl,rfl,Int.natCast_nonneg _,by simp [occupying,Mode.initial,occupies],
      by simp [start,State.started,Mode.initial],fun _ _ => rfl⟩
  have placed : Placed [] Mode.initial := ⟨fun _ => rfl,fun _ => rfl,by simp [admitted]⟩
  obtain ⟨modes,⟨counted,placed⟩,follows⟩ := run_keeps (J := Tracked maxConcurrent)
    (fun _ _ _ _ tracked taken allowed (kept : slips _ = false) => tracked.step taken allowed kept) schedule
    (start maxConcurrent) [] Mode.initial ⟨first,placed⟩ program_follows (throughout_iff_forall.mpr kept)
  rw [List.nil_append] at counted placed
  have same : underway (run exec schedule (start maxConcurrent)).1
      (run exec schedule (start maxConcurrent)).2 =
        occupants (run exec schedule (start maxConcurrent)).2 modes := by
    unfold underway occupants
    apply Finset.filter_congr
    intro n member
    rw [ended_iff placed counted follows (List.mem_toFinset.mp member)]
    simp
  rw [same]
  refine ⟨?_,counted.bounded,counted.counted⟩
  rw [counted.counted]
  exact Int.natCast_nonneg _

/-! Two alerts for one slot, and a call that is cancelled while it writes its row -/

/-- The second alert comes while the first investigation is under way. -/
def oneSlot : List (Party × Outside) :=
  List.replicate 3 (.alert 0,calm) ++ List.replicate 4 (.investigation 0,calm) ++
    List.replicate 2 (.alert 1,calm)

theorem oneSlot_underway : 0 ≤ (run exec oneSlot (start 1)).1.shared.reserved ∧
    (run exec oneSlot (start 1)).1.shared.reserved ≤ 1 ∧
    (run exec oneSlot (start 1)).1.shared.reserved =
      (underway (run exec oneSlot (start 1)).1 (run exec oneSlot (start 1)).2).card :=
  reserved_underway 1 oneSlot (by decide +kernel)

def cancelledCall : List (Party × Outside) :=
  [(.alert 0,calm),(.alert 0,{calm with fault := .before .cancelledError})]

/-- Nothing is under way, and the slot stays reserved. -/
theorem cancelledCall_leaks : ¬∀ (maxConcurrent : Nat) (schedule : List (Party × Outside)),
    0 ≤ (run exec schedule (start maxConcurrent)).1.shared.reserved ∧
      (run exec schedule (start maxConcurrent)).1.shared.reserved ≤ maxConcurrent ∧
      (run exec schedule (start maxConcurrent)).1.shared.reserved =
        (underway (run exec schedule (start maxConcurrent)).1
          (run exec schedule (start maxConcurrent)).2).card := by
  intro always
  exact absurd (always 3 cancelledCall).2.2 (by decide +kernel)

end Vigile.Investigations
