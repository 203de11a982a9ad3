import Vigile.WorkerHandler

/-! The protocol a worker session keeps to: which node it has moved to ENROLLING, whether
its handshake can still go on, and what it may do to the node and its connection. -/
namespace Vigile.Workers

open Interleaving Python NodeManager

inductive Phase where
  | fresh
  | opened (nodeId : String)
  | broken (nodeId : String)
  | connected (nodeId : String)
  | serving (nodeId : String)
  | leaving (nodeId : String)
  deriving DecidableEq

/-- The phase, and the last state read of a node that has not been written since. -/
structure Mode where
  phase : Phase
  read : Option (String × NodeState)

def isResponse : Option Json → Bool
  | some (.object msg) => isText (Fields.get msg "type") "ENROLLMENT_RESPONSE" &&
      (field msg "signature" (.str "")).truthy
  | _ => false

/-- Whether a node whose state was read so can be moved to CONNECTED. -/
def mayConnect : Option NodeState → Bool
  | none => false
  | some current => (current,NodeState.connected) ∈ validTransitions

/-- The outcomes of a step after which a handshake does not go on. -/
def fails (act : Act) (reply : Except PyError act.Reply) : Bool :=
  match act,reply with
  | .receive _ _,.ok message => !isResponse message
  | .verifySignature _ _ _,.ok verified => !verified
  | .selectState _,.ok state => !mayConnect state
  | .sendText _ _,.error (.webSocketDisconnect _) => false
  | .publish _ _ _ _,.error error => !error.isException
  | _,.ok _ => false
  | _,.error _ => true

def Act.restricted : Act → Bool
  | .nm (.touchHeartbeat _) | .nm (.resolveIntent _ _) | .nm (.intentNode _) => false
  | .nm _ | .updateState _ _ _ _ _ | .updateFlag _ _ _ | .enroll _ | .deleteNode _ _
  | .consumeTokens _ _ | .insertJoinToken _ _ _ => true
  | _ => false

def onward (nodeId : String) (failed : Bool) : Phase :=
  if failed then .broken nodeId else .opened nodeId

def Phase.next (act : Act) (reply : Except PyError act.Reply) : Phase → Option Phase
  | .fresh =>
    match act with
    | .updateState nodeId _ .enrolling _ _ =>
      some (if reply.isOk then .opened nodeId else .broken nodeId)
    | .enroll e =>
      if e.first then some (if reply.isOk then .connected e.payload.nodeId else .fresh) else none
    | .nm (.unregisterConnection _) => some .fresh
    | act => if act.restricted then none else some .fresh
  | .opened nodeId =>
    match act with
    | .updateState other _ .connected _ _ =>
      if other = nodeId then some (if reply.isOk then .connected nodeId else .broken nodeId) else none
    | .enroll e =>
      if e.first = false ∧ e.payload.nodeId = nodeId then some (onward nodeId (!reply.isOk)) else none
    | .nm (.unregisterConnection other) =>
      if other = nodeId then some (onward nodeId (!reply.isOk)) else none
    | act => if act.restricted then none else some (onward nodeId (fails act reply))
  | .broken nodeId => if act.restricted then none else some (.broken nodeId)
  | .connected nodeId =>
    match act with
    | .nm (.registerConnection other _ _) =>
      if other = nodeId then some (if reply.isOk then .serving nodeId else .broken nodeId) else none
    | act => if act.restricted then none else some (.connected nodeId)
  | .serving nodeId =>
    match act with
    | .nm (.unregisterConnection other) =>
      if other = nodeId then some (if reply.isOk then .leaving nodeId else .serving nodeId) else none
    | act => if act.restricted then none else some (.serving nodeId)
  | .leaving nodeId =>
    match act with
    | .nm (.unregisterConnection other) => if other = nodeId then some (.leaving nodeId) else none
    | .updateState other _ newState _ _ =>
      if other = nodeId ∧ (newState = .reconnecting ∨ newState = .pending) then some (.leaving nodeId)
      else none
    | act => if act.restricted then none else some (.leaving nodeId)

/-- A state is written only over the one that was read, and along the table. -/
def Mode.permits (m : Mode) : Act → Prop
  | .updateState nodeId fromState newState _ _ =>
    m.read = some (nodeId,fromState) ∧ (fromState,newState) ∈ validTransitions
  | _ => True

instance (m : Mode) (act : Act) : Decidable (m.permits act) := by
  cases act <;> unfold Mode.permits <;> infer_instance

def Mode.readAfter (m : Mode) (act : Act) (reply : Except PyError act.Reply) :
    Option (String × NodeState) :=
  match act,reply with
  | .selectState nodeId,.ok state => state.map fun current => (nodeId,current)
  | .selectState _,.error _ => none
  | .selectFlag nodeId,.ok row => row.map fun current => (nodeId,current.1)
  | .selectFlag _,.error _ => none
  | .updateState _ _ _ _ _,_ => none
  | _,_ => m.read

def rule (act : Act) (reply : Except PyError act.Reply) (m : Mode) : Option Mode :=
  if m.permits act then
    (m.phase.next act reply).map fun phase => ⟨phase,m.readAfter act reply⟩
  else none

def Phase.after (failed : Bool) : Phase → Phase
  | .opened nodeId => onward nodeId failed
  | phase => phase

@[simp] theorem Phase.after_false (phase : Phase) : phase.after false = phase := by
  cases phase <;> rfl

/-- No handshake is under way. -/
def Closed (phase : Phase) : Prop := ∀ nodeId, phase ≠ .opened nodeId

variable {phase : Phase}

theorem Closed.after (closed : Closed phase) (failed : Bool) :
    phase.after failed = phase := by
  cases phase with
  | opened nodeId => exact absurd rfl (closed nodeId)
  | _ => rfl

theorem closed_after_true (phase : Phase) : Closed (phase.after true) := by
  intro nodeId
  cases phase <;> simp [Phase.after,onward]

variable {act : Act}

theorem next_of_free (free : act.restricted = false) (phase : Phase)
    (reply : Except PyError act.Reply) : phase.next act reply = some (phase.after (fails act reply)) := by
  cases act with
  | nm act => cases act <;> first | contradiction | cases phase <;> rfl
  | updateState | updateFlag | enroll | deleteNode | consumeTokens | insertJoinToken => contradiction
  | _ => cases phase <;> rfl

theorem permits_of_free (free : act.restricted = false) (m : Mode) : m.permits act := by
  cases act with
  | updateState => contradiction
  | _ => trivial

inductive Moves : (act : Act) → Except PyError act.Reply → Phase → Phase → Prop
  | enrolling (nodeId : String) (fromState : NodeState) (now : ℚ) (contact : Option Contact)
      (reply : Except PyError Unit) :
      Moves (.updateState nodeId fromState .enrolling now contact) reply .fresh
        (if reply.isOk then .opened nodeId else .broken nodeId)
  | enroll (e : Enrollment) (reply : Except PyError Unit) (first : e.first = true) :
      Moves (.enroll e) reply .fresh (if reply.isOk then .connected e.payload.nodeId else .fresh)
  | reenroll (e : Enrollment) (reply : Except PyError Unit) (again : e.first = false) :
      Moves (.enroll e) reply (.opened e.payload.nodeId) (onward e.payload.nodeId (!reply.isOk))
  | connecting (nodeId : String) (fromState : NodeState) (now : ℚ) (contact : Option Contact)
      (reply : Except PyError Unit) :
      Moves (.updateState nodeId fromState .connected now contact) reply (.opened nodeId)
        (if reply.isOk then .connected nodeId else .broken nodeId)
  | register (nodeId : String) (websocket : Socket) (remote : String) (reply : Except PyError Unit) :
      Moves (.nm (.registerConnection nodeId websocket remote)) reply (.connected nodeId)
        (if reply.isOk then .serving nodeId else .broken nodeId)
  | unregister (nodeId : String) (reply : Except PyError Unit) (phase next : Phase)
      (going : phase = .fresh ∧ next = .fresh ∨
        phase = .opened nodeId ∧ next = onward nodeId (!reply.isOk) ∨
        phase = .serving nodeId ∧ next = (if reply.isOk then .leaving nodeId else .serving nodeId) ∨
        phase = .leaving nodeId ∧ next = .leaving nodeId) :
      Moves (.nm (.unregisterConnection nodeId)) reply phase next
  | leaving (nodeId : String) (fromState newState : NodeState) (now : ℚ) (contact : Option Contact)
      (reply : Except PyError Unit) (which : newState = .reconnecting ∨ newState = .pending) :
      Moves (.updateState nodeId fromState newState now contact) reply (.leaving nodeId)
        (.leaving nodeId)

/-- All that a session can do. -/
theorem next_cases {reply : Except PyError act.Reply} {next : Phase}
    (moves : phase.next act reply = some next) :
    (act.restricted = false ∧ next = phase.after (fails act reply)) ∨ Moves act reply phase next := by
  by_cases free : act.restricted = false
  · rw [next_of_free free] at moves
    exact .inl ⟨free,(Option.some.inj moves).symm⟩
  right
  cases phase with
  | fresh =>
    simp only [Phase.next] at moves
    split at moves
    · cases moves
      exact .enrolling _ _ _ _ _
    · split at moves
      · rename_i first
        cases moves
        exact .enroll _ _ first
      · contradiction
    · cases moves
      exact .unregister _ _ _ _ (.inl ⟨rfl,rfl⟩)
    · split at moves
      · contradiction
      · simp_all
  | opened nodeId =>
    simp only [Phase.next] at moves
    split at moves
    · split at moves
      · rename_i same
        subst same
        cases moves
        exact .connecting _ _ _ _ _
      · contradiction
    · split at moves
      · rename_i again
        obtain ⟨again,rfl⟩ := again
        cases moves
        exact .reenroll _ _ again
      · contradiction
    · split at moves
      · rename_i same
        subst same
        cases moves
        exact .unregister _ _ _ _ (.inr (.inl ⟨rfl,rfl⟩))
      · contradiction
    · split at moves
      · contradiction
      · simp_all
  | broken nodeId =>
    simp only [Phase.next] at moves
    split at moves
    · contradiction
    · simp_all
  | connected nodeId =>
    simp only [Phase.next] at moves
    split at moves
    · split at moves
      · rename_i same
        subst same
        cases moves
        exact .register _ _ _ _
      · contradiction
    · split at moves
      · contradiction
      · simp_all
  | serving nodeId =>
    simp only [Phase.next] at moves
    split at moves
    · split at moves
      · rename_i same
        subst same
        cases moves
        exact .unregister _ _ _ _ (.inr (.inr (.inl ⟨rfl,rfl⟩)))
      · contradiction
    · split at moves
      · contradiction
      · simp_all
  | leaving nodeId =>
    simp only [Phase.next] at moves
    split at moves
    · split at moves
      · rename_i same
        subst same
        cases moves
        exact .unregister _ _ _ _ (.inr (.inr (.inr ⟨rfl,rfl⟩)))
      · contradiction
    · split at moves
      · rename_i which
        obtain ⟨rfl,which⟩ := which
        cases moves
        exact .leaving _ _ _ _ _ _ which
      · contradiction
    · split at moves
      · contradiction
      · simp_all

/-- Where a program ends: `good` when it returns, `bad` when it raises. -/
def Ended {α : Type} (good : α → Phase → Prop) (bad : PyError → Phase → Prop)
    (result : Except PyError α) (phase : Phase) : Prop :=
  match result with
  | .ok value => good value phase
  | .error error => bad error phase

/-- From the phase, the program ends so, whatever the session has read before. -/
def Leads {α : Type} (phase : Phase) (program : Task α) (good : α → Phase → Prop)
    (bad : PyError → Phase → Prop) : Prop :=
  ∀ read, program.Follows rule ⟨phase,read⟩ fun result m => Ended good bad result m.phase

section
variable {α β : Type} {phase : Phase} {program : Task α} {good : α → Phase → Prop}
  {bad : PyError → Phase → Prop}

theorem Leads.pure {value : α} (h : good value phase) : Leads phase (pure value) good bad :=
  fun _ => h

variable {error : PyError} {act : Act}

theorem Leads.throw (h : bad error phase) : Leads phase (throw error) good bad :=
  fun _ => h

theorem Leads.throw_bind {next : β → Task α} (h : bad error phase) :
    Leads phase ((.raise error : Task β) >>= next) good bad :=
  fun _ => h

theorem Leads.ofExcept {result : Except PyError α} (h : Ended good bad result phase) :
    Leads phase (Prog.ofExcept result) good bad := by
  intro read
  cases result <;> exact h

theorem Leads.bind {G : α → Phase → Prop} {good : β → Phase → Prop} {next : α → Task β}
    (h : Leads phase program G bad)
    (goesOn : ∀ value phase', G value phase' → Leads phase' (next value) good bad) :
    Leads phase (program >>= next) good bad := by
  intro read
  refine .bind (h read) ?_ fun _ _ ended => ended
  intro value m reached
  exact goesOn value m.phase reached m.read

theorem Leads.attempt {handler : PyError → Task α} {C : PyError → Phase → Prop}
    (h : Leads phase program good C)
    (handles : ∀ error phase', C error phase' → Leads phase' (handler error) good bad) :
    Leads phase (tryCatch program handler) good bad := by
  intro read
  refine .attempt (h read) (fun _ _ ended => ended) ?_
  intro error m reached
  exact handles error m.phase reached m.read

theorem Leads.ensure {cleanup : Task Unit} {middle : α → Phase → Prop}
    {raised : PyError → Phase → Prop} (h : Leads phase program middle raised)
    (returns : ∀ value phase', middle value phase' → Leads phase' cleanup (fun _ => good value) bad)
    (raises : ∀ error phase', raised error phase' → Leads phase' cleanup (fun _ => bad error) bad) :
    Leads phase (program.ensure cleanup) good bad := by
  intro read
  refine .ensure (h read) ?_
  rintro (error | value) m reached
  · refine (raises error m.phase reached m.read).mono ?_
    rintro (other | _) m' ended <;> exact ended
  · refine (returns value m.phase reached m.read).mono ?_
    rintro (other | _) m' ended <;> exact ended

theorem Leads.mono {good' : α → Phase → Prop} {bad' : PyError → Phase → Prop}
    (h : Leads phase program good bad) (goods : ∀ value q, good value q → good' value q)
    (bads : ∀ error q, bad error q → bad' error q) : Leads phase program good' bad' := by
  intro read
  refine (h read).mono ?_
  rintro (error | value) m ended
  · exact bads _ _ ended
  · exact goods _ _ ended

/-- An action that writes no state of a node. -/
theorem Leads.perform {good : act.Reply → Phase → Prop}
    (plain : ∀ m : Mode, m.permits act)
    (next : ∀ reply, ∃ q, phase.next act reply = some q ∧ Ended good bad reply q) :
    Leads phase (Prog.perform act) good bad := by
  intro read
  refine .perform fun reply => ?_
  obtain ⟨q,moves,ended⟩ := next reply
  refine ⟨⟨q,Mode.readAfter ⟨phase,read⟩ act reply⟩,?_,ended⟩
  unfold rule
  rw [if_pos (plain _),moves]
  rfl

theorem Leads.free {good : act.Reply → Phase → Prop} (free : act.restricted = false)
    (ended : ∀ reply, Ended good bad reply (phase.after (fails act reply))) :
    Leads phase (Prog.perform act) good bad :=
  .perform (permits_of_free free) fun reply => ⟨_,next_of_free free phase reply,ended reply⟩

end

def Within {α : Type} (I : Phase → Prop) (program : Task α) : Prop :=
  ∀ phase, I phase → Leads phase program (fun _ => I) fun _ => I

section
variable {α β : Type} {I : Phase → Prop} {program : Task α}

theorem Within.pure {value : α} : Within I (pure value) := fun _ inside _ => inside

variable {error : PyError}

theorem Within.throw : Within I (throw error : Task α) := fun _ inside _ => inside

theorem Within.throw_bind {next : β → Task α} :
    Within I ((.raise error : Task β) >>= next) := fun _ inside _ => inside

theorem Within.ofExcept {result : Except PyError α} : Within I (Prog.ofExcept result) := by
  intro phase inside read
  cases result <;> exact inside

theorem Within.bind {next : α → Task β} (h : Within I program)
    (goesOn : ∀ value, Within I (next value)) : Within I (program >>= next) :=
  fun phase inside => .bind (h phase inside) fun value => goesOn value

theorem Within.attempt {handler : PyError → Task α} (h : Within I program)
    (handles : ∀ error, Within I (handler error)) : Within I (tryCatch program handler) :=
  fun phase inside => .attempt (h phase inside) fun error => handles error

theorem Within.free (closed : ∀ phase, I phase → Closed phase) {act : Act}
    (free : act.restricted = false) : Within I (Prog.perform act) := by
  intro phase inside
  refine .free free fun reply => ?_
  rw [(closed phase inside).after]
  cases reply <;> exact inside

theorem within_ignoringExceptions {program : Task Unit} (h : Within I program) :
    Within I (ignoringExceptions program) := by
  refine .attempt h fun error => ?_
  split
  · exact .pure
  · exact .throw

theorem within_close (closed : ∀ phase, I phase → Closed phase) (websocket : Socket) (code : Nat)
    (reason : String) : Within I (close websocket code reason) :=
  within_ignoringExceptions (.free closed rfl)

end

variable {sec : Security}

abbrev Fresh (phase : Phase) : Prop := phase = .fresh

theorem fresh_closed : ∀ phase, Fresh phase → Closed phase := by
  rintro _ rfl nodeId ⟨⟩

theorem fresh_recvTyped (websocket : Socket) (expected : String) :
    Within Fresh (recvTyped sec websocket expected) := by
  refine .bind (.attempt (.free fresh_closed rfl) fun error => ?_) fun raw => .ofExcept
  cases error <;> exact .throw

theorem fresh_admitWorker (remote : Option String) (joinToken : Json) :
    Within Fresh (admitWorker sec remote joinToken) := by
  unfold admitWorker
  dsimp only
  split
  · exact .throw_bind
  refine .bind (.free fresh_closed rfl) fun now => .bind .ofExcept fun payload => ?_
  split
  · exact .throw_bind
  refine .bind (.free fresh_closed rfl) fun token => ?_
  cases token with
  | none => exact .throw
  | some token =>
    dsimp only
    split
    · exact .throw_bind
    refine .bind (.free fresh_closed rfl) fun now => ?_
    split
    · exact .throw_bind
    exact .bind (.free fresh_closed rfl) fun state => .bind .ofExcept fun first => .pure

theorem fresh_verifyWorkerToken (workerToken : Json) :
    Within Fresh (verifyWorkerToken sec workerToken) := by
  refine .bind (.free fresh_closed rfl) fun now => .bind .ofExcept fun subject => ?_
  refine .bind (.free fresh_closed rfl) fun revoked => ?_
  split
  · exact .throw
  · exact .throw
  · exact .pure

abbrev Raised (_ : PyError) (phase : Phase) : Prop := Closed phase

/-- The phase stays while the program succeeds, and a failure ends the handshake. -/
abbrev Keeps {α : Type} (phase : Phase) (program : Task α) : Prop :=
  Leads phase program (fun _ q => q = phase) Raised

variable {phase : Phase} {nodeId : String} {newState : NodeState} {α : Type}

variable {act : Act} {raw : Option Json} {current : NodeState} {program : Task α} {admission : Admission}

theorem keeps_perform (free : act.restricted = false)
    (plain : ∀ reply, fails act reply = !reply.isOk) : Keeps phase (Prog.perform act) := by
  refine .free free fun reply => ?_
  rw [plain]
  cases reply with
  | ok value => exact phase.after_false
  | error error => exact closed_after_true phase

theorem keeps_then {β : Type} {next : act.Reply → Task β} {good : β → Phase → Prop} (free : act.restricted = false)
    (goesOn : ∀ value, Leads phase (next value) good Raised)
    (plain : ∀ reply, fails act reply = !reply.isOk := by intro reply; cases reply <;> rfl) :
    Leads phase (Prog.perform act >>= next) good Raised := by
  refine .bind (keeps_perform free plain) ?_
  rintro value _ rfl
  exact goesOn value

/-- Before and after its node is moved to ENROLLING, a session may unregister it. -/
abbrev Shaking (nodeId : String) (phase : Phase) : Prop := phase = .fresh ∨ phase = .opened nodeId

theorem keeps_send (shaking : Shaking nodeId phase)
    (websocket : Socket) (data : Fields) : Keeps phase (send websocket data nodeId) := by
  have caught : Leads phase (Prog.perform (Act.sendText websocket data)) (fun _ q => q = phase)
      fun error q => ((∃ code, error = .webSocketDisconnect code) → q = phase) ∧
        ((¬∃ code, error = .webSocketDisconnect code) → Closed q) := by
    refine .free rfl fun reply => ?_
    rcases reply with error | value
    · cases error with
      | webSocketDisconnect code => exact ⟨fun _ => phase.after_false,fun other => absurd ⟨code,rfl⟩ other⟩
      | _ => exact ⟨by simp,fun _ => closed_after_true phase⟩
    · exact phase.after_false
  refine .attempt caught fun error q reached => ?_
  cases error with
  | webSocketDisconnect code =>
    obtain rfl := reached.1 ⟨code,rfl⟩
    dsimp only
    split
    · refine .perform (fun _ => trivial) fun reply => ?_
      rcases shaking with rfl | rfl
      · refine ⟨_,rfl,?_⟩
        cases reply with
        | ok => rfl
        | error => exact fresh_closed _ rfl
      · refine ⟨_,if_pos rfl,?_⟩
        cases reply with
        | ok => rfl
        | error => exact closed_after_true (.opened nodeId)
    · exact .pure rfl
  | _ => exact .throw (reached.2 (by simp))

/-- The message that answers a challenge, or the failure it is. -/
theorem typed_response {msg : Fields}
    (h : typed sec "ENROLLMENT_RESPONSE" raw = .ok msg) :
    isResponse raw = (field msg "signature" (.str "")).truthy := by
  unfold typed at h
  split at h
  · contradiction
  · rename_i fields
    dsimp only at h
    split at h
    · rename_i isTyped
      obtain rfl := Except.ok.inj h
      simp [isResponse,isTyped]
    · contradiction
  · contradiction

theorem untyped_response {error : PyError}
    (h : typed sec "ENROLLMENT_RESPONSE" raw = .error error) : isResponse raw = false := by
  unfold typed at h
  split at h
  · rfl
  · dsimp only at h
    split at h
    · contradiction
    · rename_i other
      simp [isResponse,other]
  · rename_i other
    unfold isResponse
    split
    · rename_i msg same
      exact (other msg (Option.some.inj same)).elim
    · rfl

theorem recvTyped_response (phase : Phase) (websocket : Socket) :
    Leads phase (recvTyped sec websocket "ENROLLMENT_RESPONSE")
      (fun msg q => q = phase.after (!(field msg "signature" (.str "")).truthy)) Raised := by
  have waits : Leads phase (waitFor websocket "ENROLLMENT_RESPONSE")
      (fun raw q => q = phase.after (!isResponse raw)) Raised := by
    refine .attempt (C := Raised) (.free rfl fun reply => ?_) fun error q closed => ?_
    · cases reply with
      | ok raw => rfl
      | error error => exact closed_after_true phase
    · cases error <;> exact .throw closed
  refine .bind waits fun raw q reached => .ofExcept ?_
  subst reached
  cases h : typed sec "ENROLLMENT_RESPONSE" raw with
  | ok msg =>
    change phase.after _ = phase.after _
    rw [typed_response h]
  | error error =>
    rw [untyped_response h]
    exact closed_after_true phase

theorem keeps_challengeWorker (shaking : Shaking nodeId phase)
    (websocket : Socket) (publicKey : Json) :
    Keeps phase (challengeWorker sec websocket nodeId publicKey) := by
  refine .bind (keeps_perform rfl fun reply => by cases reply <;> rfl) ?_
  rintro challenge phase rfl
  refine .bind (keeps_send shaking _ _) ?_
  rintro _ phase rfl
  refine .bind (recvTyped_response _ _) ?_
  rintro resp _ rfl
  dsimp only
  cases (field resp "signature" (.str "")).truthy with
  | false => exact .throw_bind (closed_after_true phase)
  | true =>
    simp only [Bool.not_true,Phase.after_false]
    refine .bind (G := fun verified q => q = phase.after (!verified)) (.free rfl fun reply => ?_) ?_
    · cases reply with
      | ok verified => rfl
      | error error => exact closed_after_true phase
    · rintro verified _ rfl
      cases verified with
      | false => exact .throw (closed_after_true phase)
      | true => exact .pure phase.after_false

theorem keeps_publish (nodeId : String) (fromState newState : NodeState) (ts : ℚ) :
    Keeps phase (ignoringExceptions (Prog.perform (Act.publish nodeId fromState newState ts))) := by
  have caught : Leads phase (Prog.perform (Act.publish nodeId fromState newState ts))
      (fun _ q => q = phase) fun error q => q = phase.after (!error.isException) := by
    refine .free rfl fun reply => ?_
    cases reply with
    | ok value => exact phase.after_false
    | error error => rfl
  refine .attempt caught fun error q reached => ?_
  subst reached
  cases error.isException with
  | true => exact .pure phase.after_false
  | false => exact .throw (closed_after_true phase)

theorem follows_of_free (free : act.restricted = false) (m : Mode) :
    (Prog.perform act : Task act.Reply).Follows rule m fun reply m' =>
      m' = ⟨m.phase.after (fails act reply),m.readAfter act reply⟩ := by
  refine .perform fun reply => ⟨_,?_,rfl⟩
  unfold rule
  rw [if_pos (permits_of_free free m),next_of_free free]
  rfl

theorem not_fails_of_valid
    (suited : Closed phase ∨ newState = .connected)
    (valid : (current,newState) ∈ validTransitions) :
    phase.after (fails (.selectState nodeId) (.ok (some current))) = phase := by
  rcases suited with closed | rfl
  · exact closed.after _
  · simp [fails,mayConnect,valid]

theorem closed_of_invalid
    (suited : Closed phase ∨ newState = .connected)
    (invalid : (current,newState) ∉ validTransitions) :
    Closed (phase.after (fails (.selectState nodeId) (.ok (some current)))) := by
  rcases suited with closed | rfl
  · rw [closed.after]
    exact closed
  · simpa [fails,mayConnect,invalid] using closed_after_true phase

/-- A transition whose UPDATE the phase allows leads to the phase after it. -/
theorem transitionState_leads {written : Phase}
    (suited : Closed phase ∨ newState = .connected) (contact : Option Contact)
    (writes : ∀ fromState now reply, ∃ q,
      phase.next (.updateState nodeId fromState newState now contact) reply = some q ∧
        Ended (fun _ q => q = written) Raised reply q) :
    Leads phase (transitionState nodeId newState contact) (fun _ q => q = written) Raised := by
  intro read
  unfold transitionState
  refine .bind (follows_of_free rfl ⟨phase,read⟩) ?_ ?_
  · rintro found _ rfl
    cases found with
    | none =>
      change Closed (phase.after true)
      exact closed_after_true phase
    | some current =>
      dsimp only
      split
      · rename_i invalid
        exact closed_of_invalid suited invalid
      · rename_i valid
        rw [not_fails_of_valid suited (not_not.mp valid)]
        refine .bind (follows_of_free rfl _) ?_ ?_
        · rintro now _ rfl
          change Prog.Follows rule _ ⟨phase.after false,some (nodeId,current)⟩ _
          rw [Phase.after_false]
          have updates : (updateState nodeId current newState now contact).Follows rule
              ⟨phase,some (nodeId,current)⟩ fun result m =>
                Ended (fun _ q => q = written) Raised result m.phase := by
            refine .perform fun reply => ?_
            obtain ⟨q,moves,ended⟩ := writes current now reply
            refine ⟨⟨q,none⟩,?_,ended⟩
            unfold rule
            rw [if_pos ⟨rfl,not_not.mp valid⟩,moves]
            rfl
          refine .bind updates ?_ fun _ _ ended => ended
          rintro _ ⟨q,read⟩ rfl
          exact keeps_publish _ _ _ _ read
        · rintro error _ rfl
          exact closed_after_true phase
  · rintro error _ rfl
    exact closed_after_true phase

theorem opens (nodeId : String) :
    Leads .fresh (transitionState nodeId .enrolling none) (fun _ q => q = .opened nodeId) Raised := by
  refine transitionState_leads (.inl (fresh_closed _ rfl)) none fun fromState now reply => ⟨_,rfl,?_⟩
  cases reply with
  | ok => rfl
  | error error => exact closed_after_true (.opened nodeId)

theorem connects (nodeId : String) (contact : Option Contact) :
    Leads (.opened nodeId) (transitionState nodeId .connected contact)
      (fun _ q => q = .connected nodeId) Raised := by
  refine transitionState_leads (.inr rfl) contact fun fromState now reply => ⟨_,if_pos rfl,?_⟩
  cases reply with
  | ok => rfl
  | error error => exact closed_after_true (.opened nodeId)

def Active (nodeId : String) (phase : Phase) : Prop :=
  phase = .serving nodeId ∨ phase = .leaving nodeId

theorem active_closed : ∀ phase, Active nodeId phase → Closed phase := by
  rintro _ (rfl | rfl) other ⟨⟩

variable {nodeId : String}

theorem active_unregister : Within (Active nodeId) (nm (.unregisterConnection nodeId)) := by
  rintro _ (rfl | rfl)
  · refine .perform (fun _ => trivial) fun reply => ⟨_,if_pos rfl,?_⟩
    cases reply with
    | ok => exact .inr rfl
    | error => exact .inl rfl
  · refine .perform (fun _ => trivial) fun reply => ⟨_,if_pos rfl,?_⟩
    cases reply <;> exact .inr rfl

theorem active_send (websocket : Socket) (data : Fields) :
    Within (Active nodeId) (send websocket data nodeId) := by
  refine .attempt (.free active_closed rfl) fun error => ?_
  cases error with
  | webSocketDisconnect =>
    dsimp only
    split
    · exact active_unregister
    · exact .pure
  | _ => exact .throw

theorem welcomes (websocket : Socket) (remote : Option String) (token : String) :
    Leads (.connected nodeId) (welcome sec websocket remote nodeId token)
      (fun _ => Active nodeId) Raised := by
  have registers : ∀ address, Leads (.connected nodeId) (nm (.registerConnection nodeId websocket address))
      (fun _ => Active nodeId) Raised := by
    refine fun address => .perform (fun _ => trivial) fun reply => ⟨_,if_pos rfl,?_⟩
    cases reply with
    | ok => exact .inl rfl
    | error => exact closed_after_true (.opened nodeId)
  refine .bind (registers _) fun _ phase active => ?_
  exact (active_send _ _ phase active).mono (fun _ _ h => h) fun _ => active_closed

theorem active_rotateToken (websocket : Socket) :
    Within (Active nodeId) (rotateToken websocket nodeId) := by
  refine .bind (.free active_closed rfl) fun token => ?_
  rcases token with _ | ⟨oldHash,due⟩
  · exact .pure
  · refine .bind (.free active_closed rfl) fun now => ?_
    split
    · refine .bind (.free active_closed rfl) fun issued => .bind (.free active_closed rfl) fun id => ?_
      refine .bind (.free active_closed rfl) fun revokedAt => ?_
      exact .bind (.free active_closed rfl) fun _ => active_send _ _
    · exact .pure

theorem active_storeVersion (msg : Fields) : Within (Active nodeId) (storeVersion nodeId msg) := by
  unfold storeVersion
  dsimp only
  split
  · exact .bind (.free active_closed rfl) fun now => .free active_closed rfl
  · exact .pure

theorem active_onHeartbeat (websocket : Socket) (msg : Fields) :
    Within (Active nodeId) (onHeartbeat websocket nodeId msg) := by
  refine .bind (.free active_closed rfl) fun _ => .bind (.free active_closed rfl) fun ts => ?_
  refine .bind (active_send _ _) fun _ => .bind (active_storeVersion _) fun _ => ?_
  exact within_ignoringExceptions (active_rotateToken _)

theorem active_onIntentResult (msg : Fields) : Within (Active nodeId) (onIntentResult nodeId msg) := by
  refine .bind .ofExcept fun key => ?_
  cases key with
  | none => exact .pure
  | some intentId =>
    refine .bind (.free active_closed rfl) fun expected => ?_
    split
    · refine .bind ?_ fun genuine => ?_
      · unfold dispatchMatches
        split
        · exact .pure
        · exact .bind (.free active_closed rfl) fun row => .pure
      · split
        · exact .bind (.free active_closed rfl) fun _ => .free active_closed rfl
        · exact .pure
    · exact .pure

theorem active_onMessage (websocket : Socket) (msg : Fields) :
    Within (Active nodeId) (onMessage websocket nodeId msg) := by
  unfold onMessage
  dsimp only
  split
  · exact active_onHeartbeat _ _
  · split
    · exact active_onIntentResult _
    · split
      · exact .bind (.free active_closed rfl) fun _ => active_storeVersion _
      · exact .pure

theorem active_operationalStep (websocket : Socket) :
    Within (Active nodeId) (operationalStep sec websocket nodeId) := by
  have next : Within (Active nodeId) (nextMessage sec websocket) := by
    refine .attempt (.bind (.free active_closed rfl) fun raw => .pure) fun error => ?_
    cases error <;> first | exact .pure | exact .throw
  refine .bind next fun received => ?_
  split
  · exact .bind (within_close active_closed _ _ _) fun _ => .pure
  · exact .bind (within_close active_closed _ _ _) fun _ => .pure
  · exact .bind (active_onMessage _ _) fun _ => .pure
  · exact .throw

theorem active_runOperational (sec : Security) (websocket : Socket) (messages : Nat) :
    Within (Active nodeId) (runOperational sec websocket nodeId messages) := by
  induction messages with
  | zero => exact .free active_closed rfl
  | succ messages ih =>
    refine .bind (active_operationalStep _) fun goesOn => ?_
    split
    · exact ih
    · exact .pure

theorem within_closingOnError {I : Phase → Prop} (closed : ∀ phase, I phase → Closed phase) (h : Within I program) (websocket : Socket) (otherwise : α) :
    Within I (closingOnError websocket otherwise program) := by
  unfold closingOnError
  refine .attempt h fun error => ?_
  split
  · exact .pure
  · exact .bind (within_close closed _ _ _) fun _ => .pure
  · exact .bind (within_close closed _ _ _) fun _ => .pure
  · split
    · exact .bind (within_close closed _ _ _) fun _ => .pure
    · exact .throw

/-- Only a node that has been unregistered is moved, and the session ends there. -/
theorem endSession_leads (phase : Phase) (active : Active nodeId phase) :
    Leads phase (endSession nodeId) (fun _ => Closed) Raised := by
  have moves : ∀ newState, newState = .reconnecting ∨ newState = .pending →
      Leads (.leaving nodeId) (transitionState nodeId newState none)
        (fun _ q => q = .leaving nodeId) Raised := by
    intro newState which
    refine transitionState_leads (.inl (active_closed _ (.inr rfl))) none
      fun fromState now reply => ⟨_,if_pos ⟨rfl,which⟩,?_⟩
    cases reply with
    | ok => rfl
    | error => exact active_closed _ (.inr rfl)
  have left : Leads (.leaving nodeId) (do
      let current ← selectState nodeId
      if current = some .connected then
        transitionState nodeId .reconnecting none
      else if current = some .enrolling then
        transitionState nodeId .pending none) (fun _ => Closed) Raised := by
    refine .bind (G := fun _ q => q = .leaving nodeId) (.free rfl fun reply => ?_) ?_
    · cases reply with
      | ok => rfl
      | error => exact active_closed _ (.inr rfl)
    · rintro current _ rfl
      have closed : ∀ (_ : Unit) q, q = .leaving nodeId → Closed q := by
        rintro _ _ rfl
        exact active_closed _ (.inr rfl)
      split
      · exact (moves _ (.inl rfl)).mono closed fun _ _ h => h
      · split
        · exact (moves _ (.inr rfl)).mono closed fun _ _ h => h
        · exact .pure (active_closed _ (.inr rfl))
  unfold endSession
  split
  · have unregisters : Leads phase (nm (.unregisterConnection nodeId))
        (fun _ q => q = .leaving nodeId) Raised := by
      rcases active with rfl | rfl
      · refine .perform (fun _ => trivial) fun reply => ⟨_,if_pos rfl,?_⟩
        cases reply with
        | ok => rfl
        | error => exact active_closed _ (.inl rfl)
      · refine .perform (fun _ => trivial) fun reply => ⟨_,if_pos rfl,?_⟩
        cases reply with
        | ok => rfl
        | error => exact active_closed _ (.inr rfl)
    refine .bind unregisters ?_
    rintro _ _ rfl
    refine .attempt left fun error q closed => ?_
    split
    · exact .pure closed
    · exact .throw closed
  · exact .pure (active_closed _ active)

/-- What is done before anything is written may also fail there. -/
theorem Within.keeps (h : Within Fresh program) :
    Keeps .fresh program :=
  (h .fresh rfl).mono (fun _ _ same => same) fun _ => fresh_closed

theorem commitEnrollment_first (first : admission.first = true)
    (remote : Option String) (publicKey : Json) (now : ℚ) (fingerprint : Fingerprint) :
    Leads .fresh (commitEnrollment admission remote publicKey now fingerprint)
      (fun _ q => q = .connected admission.payload.nodeId) Raised := by
  refine keeps_then rfl fun issued => ?_
  refine keeps_then rfl fun id => ?_
  have enrolls : ∀ e : Enrollment, e.first = true →
      Leads .fresh (Prog.perform (Act.enroll e)) (fun _ q => q = .connected e.payload.nodeId) Raised := by
    refine fun e first => .perform (fun _ => trivial) fun reply => ⟨_,if_pos first,?_⟩
    cases reply with
    | ok => rfl
    | error => exact fresh_closed _ rfl
  refine .bind (enrolls _ first) ?_
  rintro _ _ rfl
  exact .pure rfl

theorem commitEnrollment_again (again : admission.first = false)
    (remote : Option String) (publicKey : Json) (now : ℚ) (fingerprint : Fingerprint) :
    Keeps (.opened admission.payload.nodeId)
      (commitEnrollment admission remote publicKey now fingerprint) := by
  refine keeps_then rfl fun issued => ?_
  refine keeps_then rfl fun id => ?_
  have enrolls : ∀ e : Enrollment, e.first = false →
      Keeps (.opened e.payload.nodeId) (Prog.perform (Act.enroll e)) := by
    refine fun e again => .perform (fun _ => trivial) fun reply => ⟨_,if_pos ⟨again,rfl⟩,?_⟩
    cases reply with
    | ok => rfl
    | error => exact closed_after_true (.opened e.payload.nodeId)
  refine .bind (enrolls _ again) ?_
  rintro _ _ rfl
  exact .pure rfl

theorem active_raised (h : Within (Active nodeId) program) (active : Active nodeId phase) :
    Leads phase program (fun _ => Active nodeId) Raised :=
  (h phase active).mono (fun _ _ h => h) fun _ => active_closed

theorem runJoin_leads (websocket : Socket) (remote : Option String)
    (joinToken publicKey fingerprint : Json) :
    Leads .fresh (runJoin sec websocket remote joinToken publicKey fingerprint)
      (fun node => Active node) Raised := by
  refine .bind (fresh_admitWorker _ _).keeps ?_
  rintro admission _ rfl
  have ends : ∀ (phase : Phase) (fingerprint : Fingerprint) (token : String),
      phase = .connected admission.payload.nodeId →
      Leads phase (do
        welcome sec websocket remote admission.payload.nodeId token
        logAction ⟨"system","NODE_ENROLLED",some admission.payload.nodeId,
          [("hostname",fingerprint.hostname),("arch",fingerprint.arch),("os",fingerprint.os),
            ("machine_id",fingerprint.machineId),("remote_ip",Json.ofText remote)]⟩
        return admission.payload.nodeId) (fun node => Active node) Raised := by
    rintro _ fingerprint token rfl
    refine .bind (welcomes _ _ _) fun _ phase active => ?_
    refine .bind (active_raised (.free active_closed rfl) active) fun _ phase active => ?_
    exact .pure active
  cases first : admission.first with
  | true =>
    simp only [Bool.not_true,Bool.false_eq_true,if_false]
    refine .bind (keeps_challengeWorker (.inl rfl) _ _) ?_
    rintro _ _ rfl
    refine keeps_then rfl fun now => ?_
    refine keeps_then rfl fun fingerprint => ?_
    refine .bind (commitEnrollment_first first _ _ _ _) ?_
    rintro issued phase reached
    exact ends phase fingerprint issued.token reached
  | false =>
    simp only [Bool.not_false,if_true]
    refine .bind (opens _) ?_
    rintro _ _ rfl
    refine .bind (keeps_challengeWorker (.inr rfl) _ _) ?_
    rintro _ _ rfl
    refine keeps_then rfl fun now => ?_
    refine keeps_then rfl fun fingerprint => ?_
    refine .bind (commitEnrollment_again first _ _ _ _) ?_
    rintro issued _ rfl
    refine .bind (connects _ _) ?_
    rintro _ phase reached
    exact ends phase fingerprint issued.token reached

theorem keeps_commitReconnection (remote : Option String) (workerToken : Json) (now : ℚ)
    (fingerprint : Fingerprint) : Keeps (.opened nodeId)
      (commitReconnection sec nodeId remote workerToken now fingerprint) := by
  refine keeps_then rfl fun issued => ?_
  refine keeps_then rfl fun id => ?_
  refine keeps_then rfl fun _ => ?_
  exact .pure rfl

theorem active_reconnectionCount : Within (Active nodeId) (reconnectionCount nodeId) := by
  refine .attempt (.bind (.free active_closed rfl) fun count => .pure) fun error => ?_
  split
  · exact .pure
  · exact .throw

theorem runReconnect_leads (websocket : Socket) (remote : Option String)
    (workerToken publicKey fingerprint : Json) :
    Leads .fresh (runReconnect sec websocket remote workerToken publicKey fingerprint)
      (fun node => Active node) Raised := by
  refine .bind (fresh_verifyWorkerToken _).keeps ?_
  rintro nodeId _ rfl
  dsimp only
  split
  · exact .throw_bind (fresh_closed _ rfl)
  refine keeps_then rfl fun row => ?_
  refine .bind (Within.keeps .ofExcept) ?_
  rintro _ _ rfl
  refine .bind (opens _) ?_
  rintro _ _ rfl
  refine keeps_then rfl fun now => ?_
  refine keeps_then rfl fun fingerprint => ?_
  refine .bind (keeps_commitReconnection _ _ _ _) ?_
  rintro issued _ rfl
  refine .bind (connects _ _) ?_
  rintro _ _ rfl
  refine .bind (welcomes _ _ _) fun _ phase active => ?_
  refine .bind (active_raised active_reconnectionCount active) fun count phase active => ?_
  refine .bind (active_raised (.free active_closed rfl) active) fun _ phase active => ?_
  exact .pure active

theorem runEnrollment_leads (websocket : Socket) (remote : Option String) :
    Leads .fresh (runEnrollment sec websocket remote) (fun node => Active node) Raised := by
  refine .bind (fresh_recvTyped _ _).keeps ?_
  rintro req _ rfl
  dsimp only
  split
  · exact .throw_bind (fresh_closed _ rfl)
  · split
    · exact runReconnect_leads _ _ _ _ _
    · exact runJoin_leads _ _ _ _ _

/-- What `openSession` leaves: a registered node, or nothing to clean up. -/
def Entered (entered : Option String) (phase : Phase) : Prop :=
  match entered with
  | none => Closed phase
  | some nodeId => Active nodeId phase

theorem openSession_leads (arrival : Arrival) :
    Leads .fresh (openSession sec arrival) Entered Raised := by
  unfold openSession
  split
  · refine keeps_then rfl fun _ => ?_
    refine keeps_then rfl fun _ => ?_
    exact .pure (fresh_closed _ rfl)
  · refine keeps_then rfl fun _ => ?_
    dsimp only
    split
    · exact .throw_bind (fresh_closed _ rfl)
    · unfold closingOnError
      refine .attempt (C := Raised) (.bind (runEnrollment_leads _ _) fun node q active => .pure active) ?_
      intro error q closed
      have closes : ∀ code reason, Leads q (do
          close arrival.websocket code reason
          pure none) Entered Raised := by
        intro code reason
        refine .bind (within_close (I := Closed) (fun _ h => h) _ _ _ q closed) fun _ phase closed => ?_
        exact .pure closed
      split
      · exact .pure closed
      · exact closes _ _
      · exact closes _ _
      · split
        · exact closes _ _
        · exact .throw closed

theorem workerJoinHandler_leads (arrival : Arrival) (messages : Nat) :
    Leads .fresh (workerJoinHandler sec arrival messages) (fun _ => Closed) Raised := by
  refine .bind (openSession_leads arrival) fun entered q reached => ?_
  cases entered with
  | none => exact .pure reached
  | some nodeId =>
    have serves := within_closingOnError active_closed
      (active_runOperational sec arrival.websocket messages) arrival.websocket () q reached
    refine .ensure serves (fun _ phase active => endSession_leads phase active) ?_
    exact fun _ phase active => endSession_leads phase active

/-- What only sessions do. -/
def Act.sessional : Act → Bool
  | .nm (.registerConnection _ _ _) | .enroll _ | .reissue _ _ _ _ _ _ | .rotate _ _ _ _
  | .selectJoinToken _ _ | .generateWorkerToken _ | .sendText _ _ => true
  | _ => false

def Act.pops : Act → Bool
  | .nm (.popConnection _) => true
  | _ => false

/-- The operations that close a connection without unregistering it. -/
def Operation.pops : Operation → Bool
  | .setDisabled _ _ _ | .deleteNode _ _ => true
  | _ => false

def Operation.isSession : Operation → Bool
  | .session _ _ => true
  | _ => false

def otherRule (pops : Bool) (act : Act) (_ : Except PyError act.Reply) (m : Mode) : Option Mode :=
  if act.sessional || (act.pops && !pops) then none else some m

abbrev Other {α : Type} (pops : Bool) (program : Task α) : Prop :=
  ∀ m, program.Stays (otherRule pops) m

variable {pops : Bool}

theorem stays_ignoringExceptions {M : Type} {rule : Prog.Protocol Act Act.Reply PyError M} {m : M}
    {program : Task Unit} (h : program.Stays rule m) : (ignoringExceptions program).Stays rule m := by
  apply Prog.Stays.attempt h
  intro error
  split
  · exact .pure
  · exact .throw

theorem other_ignoringExceptions {program : Task Unit} (h : Other pops program) :
    Other pops (ignoringExceptions program) := fun m => stays_ignoringExceptions (h m)

theorem other_close (websocket : Socket) (code : Nat) (reason : String) :
    Other pops (close websocket code reason) :=
  other_ignoringExceptions fun _ => .perform fun _ => rfl

theorem other_transitionState (nodeId : String) (newState : NodeState) (contact : Option Contact) :
    Other pops (transitionState nodeId newState contact) := by
  refine fun m => .bind (.perform fun _ => rfl) fun found => ?_
  cases found with
  | none => exact .throw
  | some current =>
    dsimp only
    split
    · exact .throw_bind
    · refine .bind (.perform fun _ => rfl) fun now => .bind (.perform fun _ => rfl) fun _ => ?_
      exact other_ignoringExceptions (fun _ => .perform fun _ => rfl) m

theorem other_checkConnection (lostThreshold : ℚ) (nodeId : String) (conn : ActiveConnection) :
    Other pops (checkConnection lostThreshold nodeId conn) := by
  refine fun m => .bind (.perform fun _ => rfl) fun age => ?_
  split
  · refine .bind (.perform fun _ => rfl) fun _ => ?_
    refine other_ignoringExceptions (fun m => .bind (other_transitionState _ _ _ m) fun _ => ?_) m
    exact .perform fun _ => rfl
  · exact .pure

theorem other_checkConnections (lostThreshold : ℚ) (connected : List (String × ActiveConnection)) :
    Other pops (checkConnections lostThreshold connected) := by
  intro m
  induction connected with
  | nil => exact .pure
  | cons entry rest ih => exact .bind (other_checkConnection _ _ _ m) fun _ => ih

theorem other_checkAllLost (now staleThreshold : ℚ) (rows : List (String × ℚ)) :
    Other pops (checkAllLost now staleThreshold rows) := by
  intro m
  induction rows with
  | nil => exact .pure
  | cons row rest ih =>
    refine .bind ?_ fun _ => ih
    unfold checkLost
    dsimp only
    split
    · refine other_ignoringExceptions (fun m => .bind (other_transitionState _ _ _ m) fun _ => ?_) m
      exact .perform fun _ => rfl
    · exact .pure

theorem other_checkHeartbeats (lostThreshold staleThreshold : ℚ) :
    Other pops (checkHeartbeats lostThreshold staleThreshold) := by
  refine fun m => .bind (.perform fun _ => rfl) fun now => .bind (.perform fun _ => rfl) fun connected => ?_
  refine .bind (other_checkConnections _ _ m) fun _ => .bind (.perform fun _ => rfl) fun rows => ?_
  exact other_checkAllLost _ _ _ m

theorem other_sendIntent (floatText : ℚ → String) (nodeId : String) (intent : Intent)
    (timeout maxAge : Option ℚ) :
    Other pops (NodeManager.sendIntent nm floatText nodeId intent timeout maxAge) := by
  refine fun m => .bind (.perform fun _ => rfl) fun default => .bind (.perform fun _ => rfl) fun opened => ?_
  refine .bind (.perform fun _ => rfl) fun _ => ?_
  refine .ensure (.attempt (.perform fun _ => rfl) fun error => ?_) (.perform fun _ => rfl)
  cases error <;> exact .throw

theorem other_setDisabled (nodeId : String) (disabled : Bool) (byUser : String) :
    Other true (setDisabled nodeId disabled byUser) := by
  have closes : Other true (closeDisabled nodeId) := by
    refine fun m => .bind (.perform fun _ => rfl) fun conn => ?_
    cases conn with
    | none => exact .pure
    | some conn => exact other_close _ _ _ m
  have target : ∀ current, Other true (targetState nodeId disabled current) := by
    intro current m
    unfold targetState
    split
    · exact .pure
    · split
      · exact .bind (.perform fun _ => rfl) fun isAlive => .pure
      · exact .pure
  refine fun m => .bind (.perform fun _ => rfl) fun row => ?_
  rcases row with _ | ⟨current,currently⟩
  · exact .throw
  · dsimp only
    split
    · exact .pure
    · refine .bind (.perform fun _ => rfl) fun now => .bind (.perform fun _ => rfl) fun _ => ?_
      refine .bind (target _ m) fun state => ?_
      split
      · refine .bind (other_transitionState _ _ _ m) fun _ => ?_
        split
        · exact .bind (closes m) fun _ => .perform fun _ => rfl
        · exact .perform fun _ => rfl
      · split
        · exact .bind (closes m) fun _ => .perform fun _ => rfl
        · exact .perform fun _ => rfl

theorem other_deleteNode (nodeId deletedBy : String) : Other true (deleteNode nodeId deletedBy) := by
  refine fun m => .bind (.perform fun _ => rfl) fun row => ?_
  cases row with
  | none => exact .pure
  | some row =>
    refine .bind (.perform fun _ => rfl) fun now => .bind (.perform fun _ => rfl) fun _ => ?_
    refine .bind (.perform fun _ => rfl) fun conn => ?_
    have publishes : Other true (do
        ignoringExceptions (Prog.perform (Act.publishDeleted nodeId row.state now))
        return some row) :=
      fun m => .bind (other_ignoringExceptions (fun _ => .perform fun _ => rfl) m) fun _ => .pure
    cases conn with
    | none => exact publishes m
    | some conn => exact .bind (other_close _ _ _ m) fun _ => publishes m

theorem other_generateJoinToken (byUser name group ipPrefix : String) :
    Other pops (generateJoinToken sec byUser name group ipPrefix) := by
  refine fun m => .bind (.perform fun _ => rfl) fun nodeId => .bind (.perform fun _ => rfl) fun token => ?_
  exact .bind (.perform fun _ => rfl) fun _ => .bind (.perform fun _ => rfl) fun _ => .pure

theorem other_regenerateJoinToken (nodeId byUser : String) :
    Other pops (regenerateJoinToken sec nodeId byUser) := by
  refine fun m => .bind (.perform fun _ => rfl) fun row => ?_
  cases row with
  | none => exact .throw
  | some row =>
    dsimp only
    split
    · exact .throw_bind
    · have invalidates : Other pops (invalidateJoinTokens nodeId) := by
        refine fun m => .bind (.perform fun _ => rfl) fun now => .bind (.perform fun _ => rfl) fun hashes => ?_
        split
        · exact .pure
        · exact .bind (.perform fun _ => rfl) fun _ => .pure
      refine .bind (invalidates m) fun invalidated => .bind (.perform fun _ => rfl) fun token => ?_
      exact .bind (.perform fun _ => rfl) fun _ => .bind (.perform fun _ => rfl) fun _ => .pure

def Operation.rule (operation : Operation) : Prog.Protocol Act Act.Reply PyError Mode :=
  if operation.isSession then Workers.rule else otherRule operation.pops

def Mode.start : Mode := ⟨.fresh,none⟩

/-- No operation ends in the middle of a handshake. -/
theorem operation_follows (operation : Operation) :
    (operation.program sec).Follows operation.rule .start fun _ m => Closed m.phase := by
  have others : ∀ {pops : Bool} {α : Type} {program : Task α}, Other pops program →
      program.Follows (otherRule pops) .start fun _ m => Closed m.phase := by
    intro pops α program stays
    refine (stays .start).mono ?_
    rintro _ _ rfl
    exact fresh_closed _ rfl
  cases operation with
  | session arrival messages =>
    refine (workerJoinHandler_leads arrival messages none).mono ?_
    rintro (error | value) m ended <;> exact ended
  | monitor lost stale => exact others (other_checkHeartbeats lost stale)
  | sendIntent nodeId intent timeout maxAge =>
    exact others fun m => .bind (other_sendIntent _ _ _ _ _ m) fun _ => .pure
  | cleanup => exact others fun m => .perform fun _ => rfl
  | setDisabled nodeId disabled byUser => exact others (other_setDisabled nodeId disabled byUser)
  | deleteNode nodeId deletedBy =>
    exact others fun m => .bind (other_deleteNode nodeId deletedBy m) fun _ => .pure
  | generateJoinToken byUser name group ipPrefix =>
    exact others fun m => .bind (other_generateJoinToken byUser name group ipPrefix m) fun _ => .pure
  | regenerateJoinToken nodeId byUser =>
    exact others fun m => .bind (other_regenerateJoinToken nodeId byUser m) fun _ => .pure

variable (sec) in
theorem start_follows {τ : Type} (s : State) (operations : τ → Operation) (task : τ) :
    ((start sec s operations).tasks task).Follows (operations task).rule .start
      fun _ m => Closed m.phase :=
  operation_follows (operations task)

end Vigile.Workers
