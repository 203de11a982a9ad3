import Vigile.WorkerSessions

/-! A session that has ended leaves no node in ENROLLING, as long as no step of it fails
between its move of the node to ENROLLING and the one to CONNECTED. -/
namespace Vigile.Workers

open Interleaving Python NodeManager

variable {τ : Type} {sec : Security}

def written (tr : Step τ) : Option (String × NodeState) :=
  match tr.action with
  | .updateState nodeId _ newState _ _ =>
    if tr.choice.fault.takesEffect then some (nodeId,newState) else none
  | .enroll e =>
    if e.first && tr.choice.fault.takesEffect && (enrollRows tr.before e).isOk then
      some (e.payload.nodeId,.connected)
    else none
  | _ => none

def writerOf (nodeId : String) (tr : Step τ) : Option τ :=
  (written tr).bind fun entry => if entry.1 = nodeId then some tr.task else none

def lastWriter (past : List (Step τ)) (nodeId : String) : Option τ :=
  (past.filterMap (writerOf nodeId)).getLast?

/-- The node is in ENROLLING, and it was the task that moved it there. -/
def Holds (past : List (Step τ)) (s : State) (task : τ) (nodeId : String) : Prop :=
  s.stateOf nodeId = some .enrolling ∧ lastWriter past nodeId = some task

/-- While a session holds a node in ENROLLING, no step of it fails, the move to CONNECTED
apart when it is made all the same, and the move to ENROLLING is not interrupted. -/
def Smooth (operations : τ → Operation) (past : List (Step τ)) (tr : Step τ) : Prop :=
  (operations tr.task).isSession = true → ∀ nodeId,
    (written tr = some (nodeId,.enrolling) → tr.choice.fault = .none) ∧
    (Holds past tr.before tr.task nodeId → fails tr.action tr.reply = true →
      written tr = some (nodeId,.connected))

instance [DecidableEq τ] (past : List (Step τ)) (s : State) (task : τ) (nodeId : String) :
    Decidable (Holds past s task nodeId) := by
  unfold Holds
  infer_instance

/-- Only nodes with a row can be held. -/
instance [DecidableEq τ] (operations : τ → Operation) (past : List (Step τ)) (tr : Step τ) :
    Decidable (Smooth operations past tr) :=
  decidable_of_iff ((operations tr.task).isSession = true →
    (∀ entry ∈ written tr, entry.2 = .enrolling → tr.choice.fault = .none) ∧
    ∀ entry ∈ tr.before.nodes.entries, Holds past tr.before tr.task entry.1 →
      fails tr.action tr.reply = true → written tr = some (entry.1,.connected)) <| by
    unfold Smooth
    refine imp_congr_right fun _ => ⟨fun ⟨writes,holds⟩ nodeId => ⟨fun h => writes _ h rfl,?_⟩,?_⟩
    · intro held
      obtain ⟨row,found,_⟩ := Option.map_eq_some_iff.mp held.1
      exact holds (nodeId,row) (OrderedMap.mem_entries.mpr found) held
    · intro smooth
      constructor
      · rintro ⟨nodeId,state⟩ writes rfl
        exact (smooth nodeId).1 writes
      · intro entry _
        exact (smooth entry.1).2

theorem lastWriter_concat (past : List (Step τ)) (tr : Step τ) (nodeId : String) :
    lastWriter (past ++ [tr]) nodeId = (writerOf nodeId tr).or (lastWriter past nodeId) := by
  unfold lastWriter
  rw [List.filterMap_append,List.getLast?_append]
  cases writes : writerOf nodeId tr <;> simp [writes]

variable {nodeId : String} {tr : Step τ}

theorem writerOf_eq {task : τ} (h : writerOf nodeId tr = some task) :
    task = tr.task ∧ ∃ state, written tr = some (nodeId,state) := by
  obtain ⟨⟨node,state⟩,writes,same⟩ := Option.bind_eq_some_iff.mp h
  split at same
  · rename_i here
    dsimp only at here
    subst here
    exact ⟨(Option.some.inj same).symm,state,writes⟩
  · contradiction

theorem writerOf_none (h : writerOf nodeId tr = none)
    (state : NodeState) : written tr ≠ some (nodeId,state) := by
  intro writes
  simp [writerOf,writes] at h

theorem stateOf_written (taken : Taken (exec sec) tr)
    {state : NodeState} (writes : written tr = some (nodeId,state)) {left : NodeState}
    (found : tr.after.stateOf nodeId = some left) : left = state := by
  obtain ⟨task,action,choice,before,reply,after⟩ := tr
  simp only [Taken] at taken found
  cases action with
  | updateState other fromState newState now contact =>
    simp only [written] at writes
    split at writes
    · rename_i takes
      obtain ⟨rfl,rfl⟩ := Prod.mk.inj (Option.some.inj writes)
      rw [updateState_exec taken,if_pos takes,stateOf_updateState] at found
      obtain ⟨_,_,rfl⟩ := Option.map_eq_some_iff.mp found
      rfl
    · contradiction
  | enroll e =>
    simp only [written] at writes
    split at writes
    · rename_i through
      simp only [Bool.and_eq_true] at through
      obtain ⟨⟨first,takes⟩,ok⟩ := through
      obtain ⟨rfl,rfl⟩ := Prod.mk.inj (Option.some.inj writes)
      have struck : (choice.fault.strike before (effect sec before choice (.enroll e))).1 = after :=
        congrArg Prod.fst (Option.some.inj taken)
      rw [strike_fst,if_pos takes] at struck
      have standing : (effect sec before choice (.enroll e)).1.standing e.payload.nodeId =
          standingAfter before e.payload.nodeId (.enroll e) := standing_effect _ _ _ _
      rw [stateOf_eq,← struck,standing] at found
      simpa [standingAfter,first,ok] using found.symm
    · contradiction
  | _ => contradiction

theorem stateOf_unwritten (taken : Taken (exec sec) tr)
    (other : ∀ state, written tr ≠ some (nodeId,state)) :
    tr.after.stateOf nodeId = tr.before.stateOf nodeId ∨ tr.after.stateOf nodeId = none := by
  obtain ⟨task,action,choice,before,reply,after⟩ := tr
  simp only [Taken] at taken
  simp only [stateOf_eq]
  cases stepped_of_exec taken with
  | same missed unchanged => exact .inl (by rw [unchanged])
  | cancelled future waits after => exact .inl (by rw [after]; rfl)
  | effect struck after =>
    rw [after,standing_effect]
    cases action with
    | updateState node fromState newState now contact =>
      have takes := struck rfl fun _ impossible => by cases impossible
      have differ : nodeId ≠ node := by
        rintro rfl
        exact other newState (if_pos takes)
      exact .inl (by simp [standingAfter,differ])
    | updateFlag node disabled now =>
      refine .inl ?_
      simp only [standingAfter,Option.map_map]
      congr 1
      funext old
      simp only [Function.comp_apply]
      split <;> rfl
    | enroll e =>
      have takes := struck rfl fun _ impossible => by cases impossible
      refine .inl ?_
      simp only [standingAfter]
      split
      · rename_i through
        obtain ⟨first,rfl,ok⟩ := through
        exact absurd (if_pos (by simp [first,takes,ok])) (other .connected)
      · rfl
    | deleteNode node entry =>
      simp only [standingAfter]
      split
      · exact .inr rfl
      · exact .inl rfl
    | _ => exact .inl rfl

variable {contact : Option Contact} {fromState : NodeState} {next : Phase} {now : ℚ} {reply : Except PyError Unit}

/-- Only a session that begins its handshake moves a node to ENROLLING. -/
theorem next_enrolling {phase : Phase}
    (moves : phase.next (.updateState nodeId fromState .enrolling now contact) reply = some next)
    (ok : reply.isOk = true) : next = .opened nodeId := by
  cases phase with
  | fresh => simpa [Phase.next,ok] using moves.symm
  | _ => simp [Phase.next,Act.restricted] at moves

/-- A handshake goes on until a step fails or its node is CONNECTED. -/
theorem next_opened {act : Act} {reply : Except PyError act.Reply}
    (moves : (Phase.opened nodeId).next act reply = some next) (succeeds : fails act reply = false) :
    next = .opened nodeId ∨
      ∃ fromState now contact, act = .updateState nodeId fromState .connected now contact := by
  simp only [Phase.next] at moves
  split at moves
  · split at moves
    · rename_i same
      subst same
      exact .inr ⟨_,_,_,rfl⟩
    · contradiction
  · rename_i e reply
    split at moves
    · have ok : reply.isOk = true := by
        cases reply with
        | ok => rfl
        | error => contradiction
      simp only [ok] at moves
      exact .inl (Option.some.inj moves).symm
    · contradiction
  · rename_i other reply
    split at moves
    · have ok : reply.isOk = true := by
        cases reply with
        | ok => rfl
        | error => contradiction
      simp only [ok] at moves
      exact .inl (Option.some.inj moves).symm
    · contradiction
  · split at moves
    · contradiction
    · rw [succeeds] at moves
      exact .inl (Option.some.inj moves).symm

/-- An UPDATE replies unless it is disturbed. -/
theorem updateState_ok_iff {s s' : State} {newState : NodeState} {outside : Outside}
    (h : exec sec (.updateState nodeId fromState newState now contact) outside s = some (s',reply)) :
    reply.isOk = true ↔ outside.fault = .none := by
  obtain rfl : (outside.fault.strike s
      (effect sec s outside (.updateState nodeId fromState newState now contact))).2 = reply :=
    congrArg Prod.snd (Option.some.inj h)
  cases fault : outside.fault with
  | none => exact iff_of_true rfl rfl
  | before error | after error =>
    constructor
    · intro ok
      contradiction
    · intro impossible
      contradiction

/-- A node held in ENROLLING by a session is in the middle of its handshake. -/
def HeldOpen (operations : τ → Operation) (past : List (Step τ)) (modes : τ → Mode) (s : State) : Prop :=
  ∀ task nodeId, (operations task).isSession = true → Holds past s task nodeId →
    (modes task).phase = .opened nodeId

variable [DecidableEq τ] {operations : τ → Operation}

theorem heldOpen_step (past : List (Step τ)) (modes : τ → Mode) (tr : Step τ) (m : Mode)
    (held : HeldOpen operations past modes tr.before) (taken : Taken (exec sec) tr)
    (allowed : (operations tr.task).rule tr.action tr.reply (modes tr.task) = some m)
    (smooth : Smooth operations past tr) :
    HeldOpen operations (past ++ [tr]) (Function.update modes tr.task m) tr.after := by
  rintro task nodeId session ⟨enrolling,last⟩
  rw [lastWriter_concat] at last
  cases writes : writerOf nodeId tr with
  | some writer =>
    rw [writes] at last
    obtain ⟨rfl,state,wrote⟩ := writerOf_eq writes
    obtain rfl : tr.task = task := Option.some.inj last
    obtain rfl := stateOf_written taken wrote enrolling
    rw [Function.update_self]
    have calm := (smooth session nodeId).1 wrote
    have moves := (next_of_rule (session_rule session allowed)).2
    obtain ⟨task,action,choice,before,reply,after⟩ := tr
    cases action with
    | updateState other fromState newState now contact =>
      simp only [written] at wrote
      split at wrote
      · obtain ⟨rfl,rfl⟩ := Prod.mk.inj (Option.some.inj wrote)
        exact next_enrolling moves ((updateState_ok_iff taken).mpr calm)
      · contradiction
    | enroll e =>
      simp only [written] at wrote
      split at wrote
      · simp at wrote
      · contradiction
    | _ => contradiction
  | none =>
    rw [writes,Option.none_or] at last
    have unwritten := writerOf_none writes
    have before : tr.before.stateOf nodeId = some .enrolling := by
      rcases stateOf_unwritten taken unwritten with same | gone
      · rw [← same,enrolling]
      · rw [gone] at enrolling
        contradiction
    have opened := held task nodeId session ⟨before,last⟩
    by_cases same : task = tr.task
    · subst same
      rw [Function.update_self]
      have moves := (next_of_rule (session_rule session allowed)).2
      rw [opened] at moves
      have succeeds : fails tr.action tr.reply = false := by
        by_contra failed
        rw [Bool.not_eq_false] at failed
        exact unwritten _ ((smooth session nodeId).2 ⟨before,last⟩ failed)
      rcases next_opened moves succeeds with goesOn | ⟨fromState,now,contact,connects⟩
      · exact goesOn
      · obtain ⟨task,action,choice,before,reply,after⟩ := tr
        dsimp only at connects succeeds
        subst connects
        have ok : reply.isOk = true := by
          cases reply with
          | ok => rfl
          | error => contradiction
        have calm := (updateState_ok_iff taken).mp ok
        exact absurd (if_pos (by rw [calm]; rfl)) (unwritten .connected)
    · rw [Function.update_of_ne same]
      exact opened

/-- In every run in which the handshakes go smoothly, whatever else runs, no session has
returned and left a node in ENROLLING. -/
theorem returned_session_holds_none (sec : Security) (s : State) (operations : τ → Operation)
    (schedule : List (τ × Outside))
    (smooth : Throughout (Smooth operations) [] (run (exec sec) schedule (start sec s operations)).2)
    (task : τ) (session : (operations task).isSession = true)
    (returned : ((run (exec sec) schedule (start sec s operations)).1.tasks task).finished = true)
    (nodeId : String) :
    ¬Holds (run (exec sec) schedule (start sec s operations)).2
      (run (exec sec) schedule (start sec s operations)).1.shared task nodeId := by
  have start_held : HeldOpen operations [] (fun _ => .start) (start sec s operations).shared := by
    rintro task nodeId _ ⟨_,last⟩
    contradiction
  obtain ⟨modes,held,clients⟩ := run_keeps heldOpen_step schedule _ [] _ start_held
    (start_follows sec s operations) smooth
  intro holds
  have opened := held task nodeId session holds
  have ended := clients task
  cases rest : (run (exec sec) schedule (start sec s operations)).1.tasks task with
  | ret value =>
    rw [rest] at ended
    exact ended nodeId opened
  | raise error =>
    rw [rest] at ended
    exact ended nodeId opened
  | act action next =>
    rw [rest] at returned
    contradiction

/-! A reconnection whose transaction fails after the node was moved to ENROLLING -/

def twoSessions : Fin 2 → Operation
  | 0 => .session (arrivalAt 0) 1
  | 1 => .session (arrivalAt 1) 1

/-- The node enrolls and loses its connection. -/
def disconnected : List (Fin 2 × Outside) :=
  joining 0 "j1" "t1" "u1" ++ [(0,drops)] ++ List.replicate 8 (0,calm)

def locks : Outside := {calm with fault := .before (.operationalError "database is locked")}

def lockedReconnection : List (Fin 2 × Outside) :=
  disconnected ++ (reconnecting 1 "t1" "t2" "u2").take 13 ++ [(1,locks)] ++ List.replicate 4 (1,calm)

def undisturbedReconnection : List (Fin 2 × Outside) :=
  disconnected ++ reconnecting 1 "t1" "t2" "u2" ++ [(1,drops)] ++ List.replicate 8 (1,calm)

/-- A handshake that nothing disturbs goes smoothly, whatever happens before and after it. -/
theorem undisturbed_reconnection_holds_none :
    ¬Holds (run (exec plainSecurity) undisturbedReconnection (start plainSecurity
        (boot .empty oneJoinToken .empty 30 300) twoSessions)).2
      (run (exec plainSecurity) undisturbedReconnection (start plainSecurity
        (boot .empty oneJoinToken .empty 30 300) twoSessions)).1.shared 1 "n1" :=
  returned_session_holds_none plainSecurity _ twoSessions undisturbedReconnection (by decide +kernel) 1
    rfl (by decide +kernel) "n1"

theorem failed_reconnection_left_enrolling : ¬∀ (sec : Security) (s : State)
    (operations : Fin 2 → Operation) (schedule : List (Fin 2 × Outside)) (task : Fin 2),
    (operations task).isSession = true →
    ((run (exec sec) schedule (start sec s operations)).1.tasks task).finished = true →
    ∀ nodeId, ¬Holds (run (exec sec) schedule (start sec s operations)).2
      (run (exec sec) schedule (start sec s operations)).1.shared task nodeId := by
  intro never
  exact never plainSecurity (boot .empty oneJoinToken .empty 30 300) twoSessions lockedReconnection 1 rfl
    (by decide +kernel) "n1" (by decide +kernel)

end Vigile.Workers
