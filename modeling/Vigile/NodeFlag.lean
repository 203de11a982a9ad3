import Vigile.NodeDisabled
import Vigile.RunHistory

/-! A call of `set_disabled` by itself: when it either does all it says or raises with the
row of the node as it was. -/
namespace Vigile.Workers

open Interleaving Python NodeManager

variable {sec : Security} {nodeId : String} {flag : Bool}

def ignored : Act → PyError → Bool
  | .publish _ _ _ _,error | .closeSocket _ _ _,error => error.isException
  | _,_ => false

/-- The flag is neither written nor will be: the row was not read, or the UPDATE failed. -/
def stops (tr : Step Unit) : Bool :=
  match tr.action,tr.reply with
  | .selectFlag _,.error _ => true
  | .updateFlag _ _ _,.error _ => !tr.choice.fault.takesEffect
  | _,_ => false

/-- A failure from the commit of the flag on, of a step whose errors are not ignored. -/
def breaks (tr : Step Unit) : Bool :=
  match tr.action,tr.reply with
  | .selectFlag _,_ => false
  | .updateFlag _ _ _,.error _ => tr.choice.fault.takesEffect
  | action,.error error => !ignored action error
  | _,.ok _ => false

/-- The state that goes with the flag: DISABLED, and after it CONNECTED or LOST. -/
def required (state : NodeState) (flag alive : Bool) : NodeState :=
  if flag then .disabled
  else if state = .disabled then (if alive then .connected else .lost)
  else state

/-- What `set_disabled` owes in the end: all of it, or the rows as they were. -/
def FlagLawful (s : State) (nodeId : String) (flag : Bool) :
    Except PyError Unit → Recorded Unit Outside State Act Act.Reply PyError → Prop
  | .error _,(s',_) => s'.nodes = s.nodes
  | .ok _,(s',trace) => ∃ old new, s.standing nodeId = some old ∧
      s'.standing nodeId = some (new,flag) ∧ new = required old.1 flag (s.isRegistered nodeId) ∧
      (new = old.1 ∨ (old.1,new) ∈ validTransitions) ∧
      (flag = true → s'.isRegistered nodeId = false ∧
        ∀ conn, s.nm.connections.get? nodeId = some conn → ∃ tr ∈ trace,
          tr.action = .closeSocket conn.websocket 4429 "Node disabled by operator")

/-- The rows that `set_disabled` handles. Where the flag is the same already, the state and
the connection have to go with it already; otherwise the table has to have a way to DISABLED. -/
def Allowed (s : State) (nodeId : String) (flag : Bool) : Prop :=
  match s.standing nodeId with
  | none => True
  | some (state,flagged) =>
    if flag = flagged then
      state = required state flag (s.isRegistered nodeId) ∧ (flag = true → s.isRegistered nodeId = false)
    else flag = true → state = .disabled ∨ (state,.disabled) ∈ validTransitions

/-- The flag is written, nothing has failed, and these steps have been taken. -/
structure Going (nodeId : String) (state : NodeState) (flag : Bool) (conn : Option ActiveConnection)
    (taken : List Act) (s : Recorded Unit Outside State Act Act.Reply PyError) : Prop where
  standing : s.1.standing nodeId = some (state,flag)
  connection : s.1.nm.connections.get? nodeId = conn
  smooth : ∀ tr ∈ s.2, stops tr = false ∧ breaks tr = false
  taken : ∀ act ∈ taken, ∃ tr ∈ s.2, tr.action = act

/-- The flag is written, and a step has failed since. -/
structure Broken (nodeId : String) (flag : Bool) (s : Recorded Unit Outside State Act Act.Reply PyError) :
    Prop where
  flag : s.1.isDisabled nodeId = flag
  unstopped : ∀ tr ∈ s.2, stops tr = false
  broken : ∃ tr ∈ s.2, breaks tr = true

variable {state : NodeState} {conn : Option ActiveConnection} {taken : List Act}
  {s : Recorded Unit Outside State Act Act.Reply PyError}

variable {act : Act} {s' : State} {tr : Step Unit}

theorem Going.fewer (going : Going nodeId state flag conn (act :: taken) s) :
    Going nodeId state flag conn taken s :=
  ⟨going.standing,going.connection,going.smooth,fun other member =>
    going.taken other (List.mem_cons_of_mem _ member)⟩

theorem disabled_of_standing {s : State} {state : NodeState} (standing : s.standing nodeId = some (state,flag)) :
    s.isDisabled nodeId = flag := by
  rw [isDisabled_eq,standing]
  rfl

theorem Going.disabled (going : Going nodeId state flag conn taken s) : s.1.isDisabled nodeId = flag :=
  disabled_of_standing going.standing

/-- A step that has gone well or whose error is ignored. -/
theorem Going.next (going : Going nodeId state flag conn taken s) {new : NodeState} {conn' : Option ActiveConnection} (same : tr.action = act)
    (standing : s'.standing nodeId = some (new,flag))
    (connection : s'.nm.connections.get? nodeId = conn') (stops : stops tr = false)
    (breaks : breaks tr = false) : Going nodeId new flag conn' (act :: taken) (s',s.2 ++ [tr]) := by
  refine ⟨standing,connection,?_,?_⟩
  · intro other member
    rcases List.mem_append.mp member with earlier | last
    · exact going.smooth other earlier
    · obtain rfl := List.mem_singleton.mp last
      exact ⟨stops,breaks⟩
  · intro act member
    rcases List.mem_cons.mp member with rfl | earlier
    · exact ⟨tr,by simp,same⟩
    · obtain ⟨other,among,same⟩ := going.taken act earlier
      exact ⟨other,List.mem_append_left _ among,same⟩

theorem Going.fails {new : Bool} (going : Going nodeId state flag conn taken s) (disabled : s'.isDisabled nodeId = new) (stops : stops tr = false)
    (breaks : breaks tr = true) : Broken nodeId new (s',s.2 ++ [tr]) := by
  refine ⟨disabled,?_,⟨tr,by simp,breaks⟩⟩
  intro other member
  rcases List.mem_append.mp member with earlier | last
  · exact (going.smooth other earlier).1
  · obtain rfl := List.mem_singleton.mp last
    exact stops

/-- The actions of `set_disabled` that are not its reading and writing of the flag. -/
def Act.plain : Act → Bool
  | .selectFlag _ | .updateFlag _ _ _ => false
  | _ => true

theorem stops_plain (plain : tr.action.plain = true) : stops tr = false := by
  obtain ⟨task,action,choice,before,reply,after⟩ := tr
  unfold stops
  cases action with
  | selectFlag | updateFlag => contradiction
  | _ => cases reply <;> rfl

theorem breaks_plain (plain : act.plain = true) (choice : Outside) (before after : State)
    (reply : Except PyError act.Reply) :
    breaks ⟨(),act,choice,before,reply,after⟩ = match reply with
      | .ok _ => false
      | .error error => !ignored act error := by
  cases act with
  | selectFlag | updateFlag => contradiction
  | _ => cases reply <;> rfl

/-- A step that leaves the node alone goes well, is ignored or breaks. -/
def Passed (nodeId : String) (state : NodeState) (flag : Bool) (conn : Option ActiveConnection)
    (taken : List Act) (act : Act) :
    Except PyError act.Reply → Recorded Unit Outside State Act Act.Reply PyError → Prop
  | .ok _,s => Going nodeId state flag conn (act :: taken) s
  | .error error,s =>
    bif ignored act error then Going nodeId state flag conn (act :: taken) s else Broken nodeId flag s

theorem Going.perform (going : Going nodeId state flag conn taken s)
    (plain : act.plain = true)
    (kept : ∀ outside s' reply, exec sec act outside s.1 = some (s',reply) →
      s'.standing nodeId = s.1.standing nodeId ∧
        s'.nm.connections.get? nodeId = s.1.nm.connections.get? nodeId) :
    Recounts (exec sec) (Prog.perform act) s (Passed nodeId state flag conn taken act) := by
  apply Recounts.perform
  intro choice s' reply done
  obtain ⟨standing,connection⟩ := kept choice s' reply done
  have standing' := standing.trans going.standing
  have connection' := connection.trans going.connection
  have outcome := breaks_plain plain choice s.1 s' reply
  have unstopped : stops ⟨(),act,choice,s.1,reply,s'⟩ = false := stops_plain plain
  cases reply with
  | ok value => exact going.next rfl standing' connection' unstopped outcome
  | error error =>
    by_cases ignores : ignored act error = true
    · have passed : breaks ⟨(),act,choice,s.1,.error error,s'⟩ = false := by simp [outcome,ignores]
      simp only [Passed,ignores,cond_true]
      exact going.next rfl standing' connection' unstopped passed
    · have raised : breaks ⟨(),act,choice,s.1,.error error,s'⟩ = true := by simp [outcome,ignores]
      simp only [Passed,Bool.eq_false_iff.mpr ignores,cond_false]
      exact going.fails (disabled_of_standing standing') unstopped raised

/-- The steps that touch neither the node nor its connection. -/
theorem kept_of_exec {outside : Outside} {s : State} {reply : Except PyError act.Reply}
    (quiet : act.restricted = false) (other : ∀ act', act ≠ .nm act')
    (done : exec sec act outside s = some (s',reply)) :
    s'.standing nodeId = s.standing nodeId ∧
      s'.nm.connections.get? nodeId = s.nm.connections.get? nodeId := by
  refine ⟨(quiet_exec quiet done nodeId).1,?_⟩
  rw [nm_of_exec done other]

theorem Going.quiet (going : Going nodeId state flag conn taken s)
    (plain : act.plain = true) (quiet : act.restricted = false) (other : ∀ act', act ≠ .nm act') :
    Recounts (exec sec) (Prog.perform act) s (Passed nodeId state flag conn taken act) :=
  going.perform plain fun _ _ _ done => kept_of_exec quiet other done

/-- Whatever ends a program, its outcome is that of the row so far. -/
def Finishes (nodeId : String) (flag : Bool)
    (good : Recorded Unit Outside State Act Act.Reply PyError → Prop) {α : Type} :
    Except PyError α → Recorded Unit Outside State Act Act.Reply PyError → Prop
  | .ok _,s => good s
  | .error _,s => Broken nodeId flag s

theorem ignoring_ends {program : Task Unit} {good : Recorded Unit Outside State Act Act.Reply PyError → Prop}
    (h : Recounts (exec sec) program s fun
      | .ok _,s' => good s'
      | .error error,s' => bif error.isException then good s' else Broken nodeId flag s') :
    Recounts (exec sec) (ignoringExceptions program) s (Finishes nodeId flag good) := by
  apply Amid.attempt h
  · intro _ _ ended
    exact ended
  · intro error s' ended
    cases caught : error.isException with
    | true | false =>
      simp only [caught] at ended
      exact ended

section
variable (going : Going nodeId state flag conn taken s)
include going

theorem Going.publish (fromState newState : NodeState)
    (now : ℚ) :
    Recounts (exec sec) (ignoringExceptions (Prog.perform (Act.publish nodeId fromState newState now))) s
      (Finishes nodeId flag (Going nodeId state flag conn taken)) := by
  apply ignoring_ends
  apply (going.quiet rfl rfl fun _ => by simp).mono
  rintro (error | value) s' passed
  · simp only [Passed,ignored] at passed
    cases caught : error.isException with
    | true =>
      simp only [caught,cond_true] at passed ⊢
      exact passed.fewer
    | false =>
      simp only [caught,cond_false] at passed ⊢
      exact passed
  · exact passed.fewer

theorem Going.closeSocket (websocket : Socket)
    (code : Nat) (reason : String) :
    Recounts (exec sec) (close websocket code reason) s
      (Finishes nodeId flag (Going nodeId state flag conn (.closeSocket websocket code reason :: taken))) := by
  apply ignoring_ends
  apply (going.quiet rfl rfl fun _ => by simp).mono
  rintro (error | value) s' passed
  · simpa only [Passed,ignored] using passed
  · exact passed

/-- A step whose errors are all raised. -/
theorem Going.raising
    (plain : act.plain = true) (quiet : act.restricted = false) (other : ∀ act', act ≠ .nm act')
    (raises : ∀ error, ignored act error = false) :
    Recounts (exec sec) (Prog.perform act) s (Finishes nodeId flag (Going nodeId state flag conn taken)) := by
  apply (going.quiet plain quiet other).mono
  rintro (error | value) s' passed
  · simp only [Passed,raises] at passed
    exact passed
  · exact passed.fewer

theorem Going.isConnected :
    Recounts (exec sec) (nm (.isConnected nodeId)) s fun result s' =>
      Finishes nodeId flag (Going nodeId state flag conn taken) result s' ∧
        ∀ alive, result = .ok alive → alive = conn.isSome := by
  apply Recounts.perform
  intro choice s' reply done
  have unchanged : s' = s.1 := by
    cases stepped_of_exec done with
    | same _ unchanged => exact unchanged
    | cancelled future waits _ => cases waits
    | effect _ after => exact after
  subst unchanged
  have unstopped : stops ⟨(),.nm (.isConnected nodeId),choice,s.1,reply,s.1⟩ = false := stops_plain rfl
  cases reply with
  | ok alive =>
    refine ⟨(going.next rfl going.standing going.connection unstopped rfl).fewer,?_⟩
    rintro _ ⟨⟩
    have answer := congrArg Prod.snd (effect_of_ok_nm done (by simp))
    rw [← going.connection]
    exact (Except.ok.inj answer).symm
  | error error => exact ⟨going.fails going.disabled unstopped rfl,by simp⟩

theorem Going.updateState (fromState newState : NodeState)
    (now : ℚ) :
    Recounts (exec sec) (Workers.updateState nodeId fromState newState now none) s
      (Finishes nodeId flag (Going nodeId newState flag conn taken)) := by
  apply Recounts.perform
  intro choice s' reply done
  have connection : s'.nm.connections.get? nodeId = conn := by
    rw [nm_of_exec done fun _ => by simp,going.connection]
  have unstopped : stops ⟨(),.updateState nodeId fromState newState now none,choice,s.1,reply,s'⟩ = false :=
    stops_plain rfl
  cases reply with
  | ok value =>
    have moved : s'.standing nodeId = some (newState,flag) := by
      have after := @standing_effect sec s.1 choice
        (.updateState nodeId fromState newState now none) nodeId
      rw [effect_of_ok done fun _ => by simp] at after
      rw [after]
      simp [standingAfter,going.standing]
    exact (going.next rfl moved connection unstopped rfl).fewer
  | error error =>
    have disabled : s'.isDisabled nodeId = flag := by
      rcases outcome_of_exec done with ⟨_,same⟩ | after
      · rw [isDisabled_of_standing (same nodeId).1]
        exact going.disabled
      · rw [isDisabled_eq,(after nodeId).1]
        simp [standingAfter,going.standing]
    exact going.fails disabled unstopped rfl

theorem Going.popConnection :
    Recounts (exec sec) (nm (.popConnection nodeId)) s fun result s' =>
      Finishes nodeId flag (Going nodeId state flag none taken) result s' ∧
        ∀ popped, result = .ok popped → popped = conn := by
  apply Recounts.perform
  intro choice s' reply done
  have standing : s'.standing nodeId = some (state,flag) := by
    rw [← going.standing]
    rcases outcome_of_exec done with ⟨_,same⟩ | after
    · exact (same nodeId).1
    · exact (after nodeId).1
  have unstopped : stops ⟨(),.nm (.popConnection nodeId),choice,s.1,reply,s'⟩ = false := stops_plain rfl
  cases reply with
  | ok popped =>
    have gone : s'.nm.connections.get? nodeId = none := by
      have unregistered := registered_of_ok done (by simp) nodeId
      simpa [registeredAfter,State.isRegistered] using unregistered
    refine ⟨(going.next rfl standing gone unstopped rfl).fewer,?_⟩
    rintro _ ⟨⟩
    have answer := congrArg Prod.snd (effect_of_ok_nm done (by simp))
    rw [← going.connection]
    exact (Except.ok.inj answer).symm
  | error error =>
    exact ⟨going.fails (disabled_of_standing standing) unstopped rfl,by simp⟩

end

def closes : Option ActiveConnection → List Act
  | none => []
  | some conn => [.closeSocket conn.websocket 4429 "Node disabled by operator"]

theorem Going.closeDisabled (going : Going nodeId state flag conn [] s) :
    Recounts (exec sec) (Workers.closeDisabled nodeId) s
      (Finishes nodeId flag (Going nodeId state flag none (closes conn))) := by
  apply Amid.bind going.popConnection
  · rintro popped s' ⟨going',found⟩
    obtain rfl := found popped rfl
    cases popped with
    | none => exact going'
    | some conn => exact Going.closeSocket going' conn.websocket 4429 "Node disabled by operator"
  · rintro _ _ ⟨broken,_⟩
    exact broken

theorem Going.selectState (going : Going nodeId state flag conn taken s) :
    Recounts (exec sec) (Workers.selectState nodeId) s fun result s' =>
      Finishes nodeId flag (Going nodeId state flag conn taken) result s' ∧
        ∀ found, result = .ok found → found = some state := by
  apply Recounts.perform
  intro choice s' reply done
  obtain ⟨standing,connection⟩ := @kept_of_exec sec nodeId _ _ _ _ _ rfl (fun _ => by simp) done
  have standing' := standing.trans going.standing
  have unstopped : stops ⟨(),.selectState nodeId,choice,s.1,reply,s'⟩ = false := stops_plain rfl
  cases reply with
  | ok found =>
    refine ⟨(going.next rfl standing' (connection.trans going.connection) unstopped rfl).fewer,?_⟩
    rintro _ ⟨⟩
    have answer := congrArg Prod.snd (effect_of_ok done fun _ => by simp)
    rw [← Except.ok.inj answer,stateOf_eq,going.standing]
    rfl
  | error error =>
    exact ⟨going.fails (disabled_of_standing standing') unstopped rfl,by simp⟩

/-- The transition goes through, breaks, or is refused by the table. -/
def Transitioned (nodeId : String) (state newState : NodeState) (flag : Bool)
    (conn : Option ActiveConnection) (taken : List Act) :
    Except PyError Unit → Recorded Unit Outside State Act Act.Reply PyError → Prop
  | .ok _,s => (state,newState) ∈ validTransitions ∧ Going nodeId newState flag conn taken s
  | .error _,s => Broken nodeId flag s ∨
      (state,newState) ∉ validTransitions ∧ Going nodeId state flag conn taken s

theorem Going.transitionState (going : Going nodeId state flag conn taken s) (newState : NodeState) :
    Recounts (exec sec) (Workers.transitionState nodeId newState none) s
      (Transitioned nodeId state newState flag conn taken) := by
  apply Amid.bind going.selectState
  · rintro found s₁ ⟨going₁,accurate⟩
    obtain rfl := accurate found rfl
    dsimp only
    split
    · rename_i refused
      exact .inr ⟨refused,going₁⟩
    · rename_i valid
      rw [not_not] at valid
      apply Amid.bind (Going.raising going₁ rfl rfl (fun _ => by simp) fun _ => rfl)
      · intro now s₂ going₂
        apply Amid.bind (Going.updateState going₂ state newState now)
        · intro _ s₃ going₃
          apply (Going.publish going₃ state newState now).mono
          rintro (error | value) s₄ ended
          · exact .inl ended
          · exact ⟨valid,ended⟩
        · intro _ _ broken
          exact .inl broken
      · intro _ _ broken
        exact .inl broken
  · rintro _ _ ⟨broken,_⟩
    exact .inl broken

/-- The call does what it owes in the runs that are stopped before the UPDATE of the flag,
and, where the row allows it, in those that nothing breaks. -/
def Settled (s₀ : State) (nodeId : String) (flag : Bool) (result : Except PyError Unit)
    (s : Recorded Unit Outside State Act Act.Reply PyError) : Prop :=
  FlagLawful s₀ nodeId flag result s ↔ (∃ tr ∈ s.2, stops tr = true) ∨
    Allowed s₀ nodeId flag ∧ ∀ tr ∈ s.2, breaks tr = false

section
variable {s₀ : State}

theorem nodes_changed (before : s₀.standing nodeId = some (state,!flag)) {s' : State}
    (disabled : s'.isDisabled nodeId = flag) : s'.nodes ≠ s₀.nodes := by
  intro same
  unfold State.isDisabled at disabled
  rw [same] at disabled
  change s₀.isDisabled nodeId = flag at disabled
  rw [isDisabled_eq,before] at disabled
  cases flag <;> contradiction

theorem Broken.settled (broken : Broken nodeId flag s)
    (before : s₀.standing nodeId = some (state,!flag)) (error : PyError) :
    Settled s₀ nodeId flag (.error error) s := by
  constructor
  · intro same
    exact absurd same (nodes_changed before broken.flag)
  · rintro (⟨tr,member,stopped⟩ | ⟨_,smooth⟩)
    · rw [broken.unstopped tr member] at stopped
      contradiction
    · obtain ⟨tr,member,breaks⟩ := broken.broken
      rw [smooth tr member] at breaks
      contradiction

theorem Going.refused {now : NodeState} (going : Going nodeId now flag conn taken s)
    (before : s₀.standing nodeId = some (state,!flag)) (unlike : ¬Allowed s₀ nodeId flag)
    (error : PyError) : Settled s₀ nodeId flag (.error error) s := by
  constructor
  · intro same
    exact absurd same (nodes_changed before going.disabled)
  · rintro (⟨tr,member,stopped⟩ | ⟨allowed,_⟩)
    · rw [(going.smooth tr member).1] at stopped
      contradiction
    · exact absurd allowed unlike

theorem Going.settled {now : NodeState} (going : Going nodeId now flag conn taken s)
    (allowed : Allowed s₀ nodeId flag) (lawful : FlagLawful s₀ nodeId flag (.ok ()) s) :
    Settled s₀ nodeId flag (.ok ()) s :=
  ⟨fun _ => .inr ⟨allowed,fun tr member => (going.smooth tr member).2⟩,fun _ => lawful⟩

end

variable {s₀ : State} {byUser : String}

theorem allowed_enable (before : s₀.standing nodeId = some (state,true)) : Allowed s₀ nodeId false := by
  simp [Allowed,before]

theorem allowed_disable (before : s₀.standing nodeId = some (state,false)) :
    Allowed s₀ nodeId true ↔ state = .disabled ∨ (state,NodeState.disabled) ∈ validTransitions := by
  simp [Allowed,before]

/-- The end of `set_disabled(true)` of a node that is now DISABLED. -/
theorem close_settled (before : s₀.standing nodeId = some (state,false))
    (leaves : state = .disabled ∨ (state,NodeState.disabled) ∈ validTransitions)
    (going : Going nodeId .disabled true (s₀.nm.connections.get? nodeId) [] s) (entry : AuditEntry) :
    Recounts (exec sec) (do
      closeDisabled nodeId
      logAction entry) s (Settled s₀ nodeId true) := by
  apply Amid.bind going.closeDisabled
  · intro _ s₁ going₁
    apply (Going.raising going₁ rfl rfl (fun _ => by simp) fun _ => rfl).mono
    rintro (error | value) s₂ ended
    · exact Broken.settled ended before error
    · have going₂ : Going _ _ _ _ _ s₂ := ended
      apply going₂.settled ((allowed_disable before).mpr leaves)
      refine ⟨_,.disabled,before,going₂.standing,rfl,?_,?_⟩
      · rcases leaves with rfl | valid
        · exact .inl rfl
        · exact .inr valid
      · intro _
        constructor
        · unfold State.isRegistered
          rw [going₂.connection]
          rfl
        · intro conn found
          exact going₂.taken _ (by simp [found,closes])
  · intro error s₁ broken
    exact Broken.settled broken before error

theorem disable_settled (before : s₀.standing nodeId = some (state,false))
    (going : Going nodeId state true (s₀.nm.connections.get? nodeId) [] s) :
    Recounts (exec sec) (do
      let target ← targetState nodeId true state
      if target.isSome ∧ target ≠ some state then
        transitionState nodeId (target.getD state) none
      closeDisabled nodeId
      logAction ⟨byUser,"DISABLE_NODE",some nodeId,
        [("from_state",.str state.value),("new_state",.str (target.getD state).value)]⟩) s
      (Settled s₀ nodeId true) := by
  by_cases already : state = .disabled
  · subst already
    exact close_settled before (.inl rfl) going _
  · have target : targetState nodeId true state = pure (some NodeState.disabled) := by
      unfold targetState
      rw [if_pos rfl,if_neg already]
    have differ : some NodeState.disabled ≠ some state := by
      rintro ⟨⟩
      exact already rfl
    rw [target]
    change Recounts (exec sec) (if (some NodeState.disabled).isSome ∧ some NodeState.disabled ≠ some state
      then _ else _) s _
    rw [if_pos ⟨rfl,differ⟩]
    apply Amid.bind (Going.transitionState going .disabled)
    · rintro _ s₁ ⟨valid,going₁⟩
      exact close_settled before (.inr valid) going₁ _
    · rintro error s₁ (broken | ⟨refused,going₁⟩)
      · exact broken.settled before error
      · apply going₁.refused before
        rw [allowed_disable before]
        rintro (same | valid)
        · exact already same
        · exact refused valid

theorem enabling_moves (alive : Bool) : required .disabled false alive ≠ .disabled ∧
    (NodeState.disabled,required .disabled false alive) ∈ validTransitions := by
  cases alive <;> decide

theorem enable_settled (before : s₀.standing nodeId = some (state,true))
    (going : Going nodeId state false (s₀.nm.connections.get? nodeId) [] s) :
    Recounts (exec sec) (do
      let target ← targetState nodeId false state
      if target.isSome ∧ target ≠ some state then
        transitionState nodeId (target.getD state) none
      logAction ⟨byUser,"ENABLE_NODE",some nodeId,
        [("from_state",.str state.value),("new_state",.str (target.getD state).value)]⟩) s
      (Settled s₀ nodeId false) := by
  have logs : ∀ {new : NodeState} {s} entry, Going nodeId new false (s₀.nm.connections.get? nodeId) [] s →
      new = required state false (s₀.isRegistered nodeId) →
      (new = state ∨ (state,new) ∈ validTransitions) →
      Recounts (exec sec) (logAction entry) s (Settled s₀ nodeId false) := by
    intro new s entry going right moved
    apply (Going.raising going rfl rfl (fun _ => by simp) fun _ => rfl).mono
    rintro (error | value) s₁ ended
    · exact Broken.settled ended before error
    · have going₁ : Going _ _ _ _ _ s₁ := ended
      apply going₁.settled (allowed_enable before)
      exact ⟨_,new,before,going₁.standing,right,moved,by simp⟩
  by_cases leaves : state = .disabled
  · subst leaves
    have asks : Recounts (exec sec) (targetState nodeId false .disabled) s fun result s' =>
        Finishes nodeId false (Going nodeId .disabled false (s₀.nm.connections.get? nodeId) []) result s' ∧
          ∀ target, result = .ok target →
            target = some (required .disabled false (s₀.isRegistered nodeId)) := by
      apply Amid.bind going.isConnected
      · rintro alive s₁ ⟨going₁,accurate⟩
        obtain rfl := accurate alive rfl
        refine ⟨going₁,?_⟩
        rintro _ ⟨⟩
        rfl
      · rintro error s₁ ⟨broken,_⟩
        exact ⟨broken,by simp⟩
    apply Amid.bind asks
    · rintro target s₁ ⟨going₁,accurate⟩
      obtain rfl := accurate target rfl
      have moves := enabling_moves (s₀.isRegistered nodeId)
      rw [if_pos ⟨rfl,fun same => moves.1 (Option.some.inj same)⟩]
      apply Amid.bind (Going.transitionState going₁ _)
      · rintro _ s₂ ⟨valid,going₂⟩
        exact logs _ going₂ rfl (.inr valid)
      · rintro error s₂ (broken | ⟨refused,_⟩)
        · exact broken.settled before error
        · exact absurd moves.2 refused
    · rintro error s₁ ⟨broken,_⟩
      exact Broken.settled broken before error
  · have target : targetState nodeId false state = pure none := by
      unfold targetState
      rw [if_neg (by simp),if_neg leaves]
    rw [target]
    exact logs _ going (by simp [required,leaves]) (.inl rfl)

/-- The UPDATE of the flag, and what follows it. -/
theorem toggle_settled (before : s₀.standing nodeId = some (state,!flag))
    {trace : List (Step Unit)} (smooth : ∀ tr ∈ trace, stops tr = false ∧ breaks tr = false)
    (now : ℚ) {next : Unit → Task Unit}
    (goesOn : ∀ s, Going nodeId state flag (s₀.nm.connections.get? nodeId) [] s →
      Recounts (exec sec) (next ()) s (Settled s₀ nodeId flag)) :
    Recounts (exec sec) (Prog.perform (Act.updateFlag nodeId flag now) >>= next) (s₀,trace)
      (Settled s₀ nodeId flag) := by
  have written : Recounts (exec sec) (Prog.perform (Act.updateFlag nodeId flag now)) (s₀,trace)
      fun
        | .ok _,s => Going nodeId state flag (s₀.nm.connections.get? nodeId) [] s
        | .error error,s => Settled s₀ nodeId flag (.error error) s := by
    apply Recounts.perform
    intro choice s' reply done
    have connection : s'.nm.connections.get? nodeId = s₀.nm.connections.get? nodeId := by
      rw [nm_of_exec done fun _ => by simp]
    have start : Going nodeId state (!flag) (s₀.nm.connections.get? nodeId) [] (s₀,trace) :=
      ⟨before,rfl,smooth,by simp⟩
    cases reply with
    | ok value =>
      have after := @standing_effect sec s₀ choice (.updateFlag nodeId flag now) nodeId
      rw [effect_of_ok done fun _ => by simp] at after
      refine ⟨?_,connection,?_,by simp⟩
      · rw [after]
        simp [standingAfter,before]
      · intro tr member
        rcases List.mem_append.mp member with earlier | last
        · exact smooth tr earlier
        · obtain rfl := List.mem_singleton.mp last
          exact ⟨rfl,rfl⟩
    | error error =>
      cases stepped_of_exec done with
      | same missed unchanged =>
        have unwritten : choice.fault.takesEffect = false := by
          rcases missed with missed | ⟨_,impossible⟩
          · exact missed
          · contradiction
        have stopped : stops ⟨(),.updateFlag nodeId flag now,choice,s₀,.error error,s'⟩ = true := by
          simp [stops,unwritten]
        have same : s'.nodes = s₀.nodes := by rw [unchanged]
        exact ⟨fun _ => .inl ⟨_,by simp,stopped⟩,fun _ => same⟩
      | cancelled future waits _ => cases waits
      | effect struck after =>
        have takes : choice.fault.takesEffect = true := struck rfl fun _ impossible => by contradiction
        have disabled : s'.isDisabled nodeId = flag := by
          rw [after,isDisabled_eq,standing_effect]
          simp [standingAfter,before]
        have unstopped : stops ⟨(),.updateFlag nodeId flag now,choice,s₀,.error error,s'⟩ = false := by
          simp [stops,takes]
        exact (start.fails disabled unstopped takes).settled before error
  apply Amid.bind written
  · intro _ s going
    exact goesOn s going
  · intro _ _ settled
    exact settled

theorem setDisabled_settled (s₀ : State) (nodeId : String) (flag : Bool) (byUser : String) :
    Recounts (exec sec) (setDisabled nodeId flag byUser) (s₀,[]) (Settled s₀ nodeId flag) := by
  have read : Recounts (exec sec) (Prog.perform (Act.selectFlag nodeId)) (s₀,[]) fun result s =>
      s.1 = s₀ ∧ match result with
        | .ok found => found = s₀.standing nodeId ∧ ∀ tr ∈ s.2, stops tr = false ∧ breaks tr = false
        | .error _ => ∃ tr ∈ s.2, stops tr = true := by
    apply Recounts.perform
    intro choice s' reply done
    have unchanged : s' = s₀ := by
      cases stepped_of_exec done with
      | same _ unchanged => exact unchanged
      | cancelled future waits _ => cases waits
      | effect _ after => exact after
    refine ⟨unchanged,?_⟩
    cases reply with
    | ok found =>
      have answer := congrArg Prod.snd (effect_of_ok done fun _ => by simp)
      refine ⟨(Except.ok.inj answer).symm,?_⟩
      intro tr member
      obtain rfl := List.mem_singleton.mp member
      exact ⟨rfl,rfl⟩
    | error error => exact ⟨_,List.mem_append_right _ (List.mem_singleton.mpr rfl),rfl⟩
  apply Amid.bind read
  · rintro found ⟨s₁,trace⟩ ⟨same,rfl,smooth⟩
    obtain rfl : s₁ = s₀ := same
    have unbroken : ∀ tr ∈ trace, breaks tr = false := fun tr member => (smooth tr member).2
    have unstopped : ¬∃ tr ∈ trace, stops tr = true := by
      rintro ⟨tr,member,stopped⟩
      rw [(smooth tr member).1] at stopped
      contradiction
    cases before : s₁.standing nodeId with
    | none =>
      have allowed : Allowed s₁ nodeId flag := by simp [Allowed,before]
      exact ⟨fun _ => .inr ⟨allowed,unbroken⟩,fun _ => rfl⟩
    | some row =>
      obtain ⟨state,flagged⟩ := row
      dsimp only
      split
      · rename_i same
        subst same
        constructor
        · rintro ⟨old,new,known,stored,right,_,closed⟩
          rw [before] at known stored
          obtain rfl := Option.some.inj known
          obtain ⟨rfl,_⟩ := Prod.mk.inj (Option.some.inj stored)
          refine .inr ⟨?_,unbroken⟩
          simp only [Allowed,before,if_true]
          exact ⟨right,fun set => (closed set).1⟩
        · rintro (stopped | ⟨allowed,_⟩)
          · exact absurd stopped unstopped
          · simp only [Allowed,before,if_true] at allowed
            refine ⟨_,_,before,before,allowed.1,.inl rfl,?_⟩
            intro set
            have gone := allowed.2 set
            refine ⟨gone,?_⟩
            intro conn found
            simp [State.isRegistered,found] at gone
      · rename_i differ
        obtain rfl : flagged = !flag := by
          cases flag <;> cases flagged <;> simp at differ ⊢
        have ticks : Recounts (exec sec) clock (s₁,trace) fun result s => s.1 = s₁ ∧
            (∃ now, result = .ok now) ∧ ∀ tr ∈ s.2, stops tr = false ∧ breaks tr = false := by
          apply Recounts.perform
          intro choice s' reply done
          obtain ⟨rfl,rfl⟩ := Prod.mk.inj (Option.some.inj done)
          refine ⟨rfl,⟨choice.now,rfl⟩,?_⟩
          intro tr member
          rcases List.mem_append.mp member with earlier | last
          · exact smooth tr earlier
          · obtain rfl := List.mem_singleton.mp last
            exact ⟨rfl,rfl⟩
        apply Amid.bind ticks
        · rintro now ⟨s₂,trace₂⟩ ⟨same,_,smooth₂⟩
          obtain rfl : s₂ = s₁ := same
          apply toggle_settled before smooth₂
          intro s going
          cases flag with
          | true => exact disable_settled before going
          | false => exact enable_settled before going
        · rintro error _ ⟨_,⟨_,impossible⟩,_⟩
          contradiction
  · rintro error ⟨s₁,trace⟩ ⟨same,stopped⟩
    exact ⟨fun _ => .inl stopped,fun _ => congrArg State.nodes same⟩

/-- Every finished call by itself does what it owes if it is stopped before the flag is
written or, on a row that allows it, nothing fails from the commit of the flag on, and
otherwise it does not. -/
theorem setDisabled_lawful_iff (sec : Security) (s : State) (nodeId : String) (flag : Bool)
    (byUser : String) (choices : List Outside) (result : Except PyError Unit)
    (returned : ((serve sec s (.setDisabled nodeId flag byUser) choices).1.tasks ()).outcome =
      some result) :
    FlagLawful s nodeId flag result ((serve sec s (.setDisabled nodeId flag byUser) choices).1.shared,
        (serve sec s (.setDisabled nodeId flag byUser) choices).2) ↔
      (∃ tr ∈ (serve sec s (.setDisabled nodeId flag byUser) choices).2, stops tr = true) ∨
        Allowed s nodeId flag ∧
          ∀ tr ∈ (serve sec s (.setDisabled nodeId flag byUser) choices).2, breaks tr = false := by
  have owes := @setDisabled_settled sec s nodeId flag byUser
  exact run_recounts (choices.map fun choice => ((),choice))
    ⟨s,fun _ => (Request.setDisabled nodeId flag byUser).program sec⟩ owes returned

/-- The monitor has not heard of the worker of "n1" for too long. -/
def lostMaster : State :=
  (serve plainSecurity joinedMaster (.monitor 45 300) (List.replicate 12 {calm with now := 100})).1.shared

def refusedDisabling : Config Unit State Act Act.Reply PyError Unit × List (Step Unit) :=
  serve plainSecurity lostMaster (.setDisabled "n1" true "admin") (List.replicate 10 calm)

def refusal : Except PyError Unit :=
  .error (.valueError "Invalid transition NodeState.LOST → NodeState.DISABLED for node n1")

theorem refusedDisabling_ends : (refusedDisabling.1.tasks ()).outcome = some refusal := by
  decide +kernel

/-- The flag is committed when the transition is refused. -/
theorem setDisabled_unlawful : ¬∀ (sec : Security) (s : State) (nodeId : String) (flag : Bool)
    (byUser : String) (choices : List Outside) (result : Except PyError Unit),
    ((serve sec s (.setDisabled nodeId flag byUser) choices).1.tasks ()).outcome = some result →
      FlagLawful s nodeId flag result ((serve sec s (.setDisabled nodeId flag byUser) choices).1.shared,
        (serve sec s (.setDisabled nodeId flag byUser) choices).2) := by
  intro always
  have same : refusedDisabling.1.shared.nodes = lostMaster.nodes :=
    always plainSecurity lostMaster "n1" true "admin" (List.replicate 10 calm) refusal refusedDisabling_ends
  have unflagged : lostMaster.isDisabled "n1" = false := by decide +kernel
  have flagged : refusedDisabling.1.shared.isDisabled "n1" = true := by decide +kernel
  unfold State.isDisabled at flagged unflagged
  rw [same,unflagged] at flagged
  contradiction

theorem refusedDisabling_lawful_iff :
    FlagLawful lostMaster "n1" true refusal (refusedDisabling.1.shared,refusedDisabling.2) ↔
      (∃ tr ∈ refusedDisabling.2, stops tr = true) ∨
        Allowed lostMaster "n1" true ∧ ∀ tr ∈ refusedDisabling.2, breaks tr = false :=
  setDisabled_lawful_iff plainSecurity lostMaster "n1" true "admin" (List.replicate 10 calm) refusal
    refusedDisabling_ends

end Vigile.Workers
