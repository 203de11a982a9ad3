import Mathlib.Data.List.Basic
import Mathlib.Logic.Function.Basic

/-! The token of one worker through enrollment, reconnection and rotation: the master's rows,
the messages in flight, and what the worker keeps. -/
namespace Vigile.WorkerCredentials

/-- A row of `worker_tokens`; a token stands for its hash as well. -/
structure TokenRow where
  token : Nat
  revoked : Bool
  deriving DecidableEq

inductive ToMaster where
  /-- ENROLLMENT_REQUEST, with the worker's token or, without one, with a join token. -/
  | request (workerToken : Option Nat)
  /-- ENROLLMENT_RESPONSE -/
  | response
  | heartbeat
  deriving DecidableEq

inductive ToWorker where
  /-- ENROLLMENT_CHALLENGE -/
  | challenge
  /-- ENROLLMENT_SUCCESS -/
  | success (workerToken : Nat)
  /-- TOKEN_ROTATION_COMMAND -/
  | rotation (workerToken : Nat)
  deriving DecidableEq

inductive Handler where
  | accepted
  | challenged
  /-- `_run_reconnect`, past its checks of the token -/
  | verified (workerToken : Nat)
  | operational
  | closed
  deriving DecidableEq

structure Connection where
  handler : Handler
  toMaster : List ToMaster
  toWorker : List ToWorker

inductive Phase where
  | disconnected
  | reconnecting
  | awaitingChallenge
  | awaitingSuccess
  | operational
  deriving DecidableEq

/-- `issued` counts the tokens of `generate_worker_token`, and is the next one; the worker's
connection is the `current` one, the earlier ones are those it left. -/
structure State where
  rows : List TokenRow
  issued : Nat
  withdrawn : Bool
  connections : Nat → Connection
  current : Nat
  phase : Phase
  workerToken : Option Nat
  stored : Option Nat

namespace State

def start : State := ⟨[],0,false,fun _ => ⟨.closed,[],[]⟩,0,.disconnected,none,none⟩

def verifyWorkerToken (s : State) (workerToken : Nat) : Bool :=
  match s.rows.find? fun row => row.token == workerToken with
  | some row => !row.revoked
  | none => false

def newest (s : State) : Option Nat := (s.rows.filter fun row => !row.revoked).getLast?.map TokenRow.token

def put (s : State) (c : Nat) (connection : Connection) : State :=
  {s with connections := Function.update s.connections c connection}

/-- The transaction that revokes a token and inserts a new one. -/
def issue (s : State) (replaced : Option Nat) : State :=
  {s with
    rows := (s.rows.map fun row => if some row.token = replaced then {row with revoked := true} else row) ++
      [⟨s.issued,false⟩]
    issued := s.issued + 1}

/-- The transaction, and the message with the new token; or what comes between them fails. -/
def issueOn (s : State) (c : Nat) (connection : Connection) (replaced : Option Nat) (message : Nat → ToWorker)
    (sent : Bool) (failed : Handler) : State :=
  (s.issue replaced).put c
    (if sent then {connection with handler := .operational, toWorker := connection.toWorker ++ [message s.issued]}
    else {connection with handler := failed})

/-- The worker sets its token, and stores it unless the file cannot be written. -/
def keep (s : State) (workerToken : Nat) (persisted : Bool) : State :=
  {s with workerToken := some workerToken, stored := if persisted then some workerToken else s.stored}

end State

inductive Event where
  | connect
  /-- The master handles the next message of a connection: whether its other checks pass,
  whether the rotation is due, and whether the message with a new token is sent. -/
  | read (c : Nat) (fine due sent : Bool)
  | commit (c : Nat) (done sent : Bool)
  | loseRequest (c k : Nat)
  | loseAnswer (c k : Nat)
  | close (c : Nat)
  | hear (persisted : Bool)
  | heartbeat
  | drop
  | withdraw

namespace State

def read (s : State) (c : Nat) (fine due sent : Bool) : State :=
  match (s.connections c).toMaster with
  | [] => s
  | message :: rest =>
    let connection := {s.connections c with toMaster := rest}
    match connection.handler, message with
    | .accepted, .request (some workerToken) =>
      s.put c {connection with handler := if fine && s.verifyWorkerToken workerToken then .verified workerToken else .closed}
    | .accepted, .request none =>
      s.put c (if fine then {connection with handler := .challenged, toWorker := connection.toWorker ++ [.challenge]}
        else {connection with handler := .closed})
    | .challenged, .response =>
      if fine then s.issueOn c connection none .success sent .closed else s.put c {connection with handler := .closed}
    | .operational, .heartbeat =>
      match due, s.newest with
      | true, some old => s.issueOn c connection (some old) .rotation sent .operational
      | _, _ => s.put c connection
    | .operational, _ => s.put c connection
    | .verified _, _ => s
    | _, _ => s.put c {connection with handler := .closed}

def commit (s : State) (c : Nat) (done sent : Bool) : State :=
  match (s.connections c).handler with
  | .verified workerToken =>
    if done then s.issueOn c (s.connections c) (some workerToken) .success sent .closed
    else s.put c {s.connections c with handler := .closed}
  | _ => s

/-- `readTyped` fails on a message of another type; `RunOperational` only logs it. -/
def hear (s : State) (persisted : Bool) : State :=
  match (s.connections s.current).toWorker with
  | [] => s
  | message :: rest =>
    let connection := {s.connections s.current with toWorker := rest}
    let heard := s.put s.current connection
    match s.phase, message with
    | .disconnected, _ => s
    | .reconnecting, .success workerToken | .awaitingSuccess, .success workerToken =>
      {heard.keep workerToken persisted with phase := .operational}
    | .awaitingChallenge, .challenge =>
      {s.put s.current {connection with toMaster := connection.toMaster ++ [.response]} with phase := .awaitingSuccess}
    | .operational, .rotation workerToken => heard.keep workerToken persisted
    | .operational, _ => heard
    | _, _ => {heard with phase := .disconnected}

def connect (s : State) : State :=
  let workerToken := s.workerToken.or s.stored
  {s.put (s.current + 1) ⟨.accepted,[.request workerToken],[]⟩ with
    current := s.current + 1
    workerToken := workerToken
    phase := if workerToken.isSome then .reconnecting else .awaitingChallenge}

end State

def step (s : State) : Event → State
  | .connect => if s.phase = .disconnected then s.connect else s
  | .read c fine due sent => s.read c fine due sent
  | .commit c done sent => s.commit c done sent
  | .loseRequest c k => s.put c {s.connections c with toMaster := (s.connections c).toMaster.eraseIdx k}
  | .loseAnswer c k => s.put c {s.connections c with toWorker := (s.connections c).toWorker.eraseIdx k}
  | .close c => s.put c {s.connections c with handler := .closed}
  | .hear persisted => s.hear persisted
  | .heartbeat =>
    if s.phase = .operational then
      s.put s.current {s.connections s.current with toMaster := (s.connections s.current).toMaster ++ [.heartbeat]}
    else s
  | .drop => {s with phase := .disconnected}
  | .withdraw => {s with rows := [], withdrawn := true}

def run (s : State) : List Event → State
  | [] => s
  | event :: rest => run (step s event) rest

/-- The worker holds a token that the master accepts. -/
def Held (s : State) : Prop :=
  ∃ workerToken, (s.workerToken = some workerToken ∨ s.stored = some workerToken) ∧
    s.verifyWorkerToken workerToken = true

def ToWorker.token? : ToWorker → Option Nat
  | .challenge => none
  | .success workerToken | .rotation workerToken => some workerToken

/-- The tokens sent to the worker that it has not received. -/
def State.onItsWay (s : State) : List Nat :=
  if s.phase = .disconnected then [] else (s.connections s.current).toWorker.filterMap ToWorker.token?

/-- A new token is sent on the connection that the worker has, and is neither lost nor left
behind there. -/
def Delivered (s : State) : Event → Prop
  | .read c fine due sent =>
    (s.read c fine due sent).issued = s.issued ∨ c = s.current ∧ s.phase ≠ .disconnected ∧ sent = true
  | .commit c done sent =>
    (s.commit c done sent).issued = s.issued ∨ c = s.current ∧ s.phase ≠ .disconnected ∧ sent = true
  | .loseAnswer c k => c ≠ s.current ∨ ((s.connections c).toWorker[k]?.bind ToWorker.token?) = none
  | .drop => s.onItsWay = []
  | _ => True

def DeliveredRun (s : State) : List Event → Prop
  | [] => True
  | event :: rest => Delivered s event ∧ DeliveredRun (step s event) rest

instance Delivered.decidable (s : State) : (event : Event) → Decidable (Delivered s event)
  | .read c fine due sent =>
    inferInstanceAs (Decidable ((s.read c fine due sent).issued = s.issued ∨
      c = s.current ∧ s.phase ≠ .disconnected ∧ sent = true))
  | .commit c done sent =>
    inferInstanceAs (Decidable ((s.commit c done sent).issued = s.issued ∨
      c = s.current ∧ s.phase ≠ .disconnected ∧ sent = true))
  | .loseAnswer c k =>
    inferInstanceAs (Decidable (c ≠ s.current ∨ ((s.connections c).toWorker[k]?.bind ToWorker.token?) = none))
  | .drop => inferInstanceAs (Decidable (s.onItsWay = []))
  | .connect | .loseRequest _ _ | .close _ | .hear _ | .heartbeat | .withdraw => .isTrue trivial

instance DeliveredRun.decidable (s : State) : (events : List Event) → Decidable (DeliveredRun s events)
  | [] => .isTrue trivial
  | event :: rest =>
    have := DeliveredRun.decidable (step s event) rest
    inferInstanceAs (Decidable (_ ∧ _))

def Linked (connection : Connection) : Phase → Prop
  | .disconnected => True
  | .reconnecting =>
    (∀ message ∈ connection.toMaster, ∃ workerToken, message = .request (some workerToken)) ∧
      (connection.handler ≠ .challenged ∧ connection.handler ≠ .operational ∧ connection.toWorker = [] ∨
        (connection.handler = .operational ∨ connection.handler = .closed) ∧
          ∃ workerToken, connection.toWorker = [.success workerToken])
  | .awaitingChallenge =>
    (∀ message ∈ connection.toMaster, message = .request none) ∧
      (connection.handler = .accepted ∧ connection.toWorker = [] ∨
        (connection.handler = .challenged ∨ connection.handler = .closed) ∧
          (connection.toWorker = [] ∨ connection.toWorker = [.challenge]))
  | .awaitingSuccess =>
    (∀ message ∈ connection.toMaster, message ≠ .heartbeat) ∧
      ((connection.handler = .challenged ∨ connection.handler = .closed) ∧ connection.toWorker = [] ∨
        (connection.handler = .operational ∨ connection.handler = .closed) ∧
          ∃ workerToken, connection.toWorker = [.success workerToken])
  | .operational =>
    (connection.handler = .operational ∨ connection.handler = .closed) ∧
      ∀ message ∈ connection.toWorker, ∃ workerToken, message = .rotation workerToken

/-- The newest token is accepted; it is the last one on its way, or what the worker holds. -/
structure Sound (s : State) : Prop where
  fresh : ∀ row ∈ s.rows, row.token < s.issued
  accepted : s.withdrawn = false → ∀ workerToken, workerToken + 1 = s.issued → s.verifyWorkerToken workerToken = true
  linked : Linked (s.connections s.current) s.phase
  last : ∀ workerToken, s.onItsWay.getLast? = some workerToken → workerToken + 1 = s.issued
  kept : ∀ workerToken, s.workerToken = some workerToken → s.onItsWay = [] → workerToken + 1 = s.issued
  /-- What is stored was in memory first. -/
  stored : s.workerToken = none → s.stored = none

section
variable {s : State} {c : Nat} {connection : Connection}

theorem verify_issue (fresh : ∀ row ∈ s.rows, row.token < s.issued) (replaced : Option Nat) :
    (s.issue replaced).verifyWorkerToken s.issued = true := by
  have others : (s.rows.map fun row => if some row.token = replaced then {row with revoked := true} else row).find?
      (fun row => row.token == s.issued) = none := by
    rw [List.find?_eq_none]
    intro row member
    obtain ⟨old,stood,rfl⟩ := List.mem_map.mp member
    have older := fresh old stood
    split <;> simp <;> omega
  simp only [State.verifyWorkerToken,State.issue,List.find?_append,others,Option.none_or]
  simp

theorem onItsWay_put_other (other : c ≠ s.current) : (s.put c connection).onItsWay = s.onItsWay := by
  simp [State.onItsWay,State.put,Function.update_of_ne other.symm]

theorem onItsWay_put : (s.put s.current connection).onItsWay =
    if s.phase = .disconnected then [] else connection.toWorker.filterMap ToWorker.token? := by
  simp [State.onItsWay,State.put]

theorem connections_put_other (other : c ≠ s.current) :
    (s.put c connection).connections s.current = s.connections s.current := by
  simp [State.put,Function.update_of_ne other.symm]

/-- A change of a connection that leaves the tokens on their way. -/
theorem Sound.put (sound : Sound s)
    (same : c = s.current → connection.toWorker.filterMap ToWorker.token? =
      (s.connections c).toWorker.filterMap ToWorker.token?)
    (linked : c = s.current → Linked connection s.phase) : Sound (s.put c connection) := by
  by_cases here : c = s.current
  · subst here
    have unmoved : (s.put s.current connection).onItsWay = s.onItsWay := by
      rw [onItsWay_put,State.onItsWay,same rfl]
    refine ⟨sound.fresh,sound.accepted,?_,?_,?_,sound.stored⟩
    · simpa [State.put] using linked rfl
    · rw [unmoved]
      exact sound.last
    · rw [unmoved]
      exact sound.kept
  · refine ⟨sound.fresh,sound.accepted,?_,?_,?_,sound.stored⟩
    · have stays : (s.put c connection).connections s.current = s.connections s.current := connections_put_other here
      simp only [State.put] at stays ⊢
      rw [stays]
      exact sound.linked
    · rw [onItsWay_put_other here]
      exact sound.last
    · rw [onItsWay_put_other here]
      exact sound.kept

/-- The worker is connected, and the new token is sent to it. -/
theorem Sound.issueOn (sound : Sound s) {replaced : Option Nat} {message : Nat → ToWorker} {failed : Handler}
    (carries : ∀ workerToken, (message workerToken).token? = some workerToken) (up : s.phase ≠ .disconnected)
    (linked : Linked {connection with handler := .operational, toWorker := connection.toWorker ++ [message s.issued]}
      s.phase) :
    Sound (s.issueOn s.current connection replaced message true failed) := by
  have way : (s.issueOn s.current connection replaced message true failed).onItsWay =
      connection.toWorker.filterMap ToWorker.token? ++ [s.issued] := by
    simp [State.onItsWay,State.issueOn,State.issue,State.put,up,carries]
  refine ⟨?_,?_,?_,?_,?_,sound.stored⟩
  · intro row member
    simp only [State.issueOn,State.issue,State.put] at member ⊢
    rcases List.mem_append.mp member with member | member
    · obtain ⟨old,stood,rfl⟩ := List.mem_map.mp member
      have older := sound.fresh old stood
      split <;> exact Nat.lt_succ_of_lt older
    · obtain rfl := List.mem_singleton.mp member
      simp
  · intro _ workerToken newest
    obtain rfl : workerToken = s.issued := Nat.succ.inj newest
    exact verify_issue sound.fresh replaced
  · simpa [State.issueOn,State.issue,State.put] using linked
  · intro workerToken ends
    rw [way,List.getLast?_append_cons,List.getLast?_singleton] at ends
    simp only [State.issueOn,State.issue,State.put]
    have := Option.some.inj ends
    omega
  · intro workerToken _ none
    rw [way] at none
    simp at none

variable {k : Connection} {phase : Phase} {rest : List ToMaster} {workerToken c : Nat}

section
variable (linked : Linked k phase)
include linked

theorem Linked.read {message : ToMaster} (messages : k.toMaster = message :: rest) : Linked {k with toMaster := rest} phase := by
  cases phase <;> simp only [Linked,messages,List.forall_mem_cons] at linked ⊢ <;> grind

theorem Linked.close :
    Linked {k with handler := .closed} phase := by
  cases phase <;> simp only [Linked] at linked ⊢ <;> grind

theorem Linked.verify (messages : k.toMaster = .request (some workerToken) :: rest) (handler : k.handler = .accepted) :
    Linked {k with toMaster := rest, handler := .verified workerToken} phase := by
  cases phase <;> simp only [Linked,messages,handler,List.forall_mem_cons] at linked ⊢ <;> grind

theorem Linked.challenge (messages : k.toMaster = .request none :: rest) (handler : k.handler = .accepted) :
    Linked {k with toMaster := rest, handler := .challenged, toWorker := k.toWorker ++ [.challenge]} phase := by
  cases phase <;> simp only [Linked,messages,handler,List.forall_mem_cons] at linked ⊢ <;> grind

theorem Linked.enroll (messages : k.toMaster = .response :: rest) (handler : k.handler = .challenged) :
    Linked {k with toMaster := rest, handler := .operational, toWorker := k.toWorker ++ [.success workerToken]} phase := by
  cases phase <;> simp only [Linked,messages,handler,List.forall_mem_cons] at linked ⊢
  case awaitingSuccess =>
    have empty : k.toWorker = [] := by simpa using linked.2
    exact ⟨linked.1.2,.inr ⟨.inl trivial,workerToken,by rw [empty]; rfl⟩⟩
  all_goals grind

theorem Linked.rotate (messages : k.toMaster = .heartbeat :: rest) (handler : k.handler = .operational) :
    Linked {k with toMaster := rest, handler := .operational, toWorker := k.toWorker ++ [.rotation workerToken]} phase := by
  cases phase <;> simp only [Linked,messages,handler,List.forall_mem_cons] at linked ⊢ <;> grind

theorem Linked.commit {issued : Nat}
    (handler : k.handler = .verified workerToken) :
    Linked {k with handler := .operational, toWorker := k.toWorker ++ [.success issued]} phase := by
  cases phase <;> simp only [Linked,handler] at linked ⊢
  case reconnecting =>
    have empty : k.toWorker = [] := by simpa using linked.2
    exact ⟨linked.1,.inr ⟨.inl trivial,issued,by rw [empty]; rfl⟩⟩
  all_goals simp at linked

end

theorem Sound.close (sound : Sound s) (c : Nat) : Sound (step s (.close c)) := by
  refine sound.put (fun _ => rfl) ?_
  rintro rfl
  exact sound.linked.close

theorem Sound.erase_request (sound : Sound s) (c k : Nat) : Sound (step s (.loseRequest c k)) := by
  refine sound.put (fun _ => rfl) ?_
  rintro rfl
  have linked := sound.linked
  have kept : ∀ message ∈ (s.connections s.current).toMaster.eraseIdx k, message ∈ (s.connections s.current).toMaster :=
    fun message member => (List.eraseIdx_sublist _ k).mem member
  cases phase : s.phase <;> simp only [phase,Linked] at linked ⊢
  case operational => exact linked
  all_goals exact ⟨fun message member => linked.1 message (kept message member),linked.2⟩

theorem filterMap_eraseIdx {α β : Type} {f : α → Option β} {items : List α} {k : Nat}
    (nothing : (items[k]?.bind f) = none) : (items.eraseIdx k).filterMap f = items.filterMap f := by
  induction items generalizing k with
  | nil => rfl
  | cons item rest ih =>
    cases k with
    | zero =>
      have skipped : f item = none := by simpa using nothing
      simp [skipped]
    | succ k =>
      have below := ih (k := k) (by simpa using nothing)
      simp [List.filterMap_cons,below]

section
variable (sound : Sound s)
include sound

theorem Sound.erase_answer {k : Nat} (delivered : Delivered s (.loseAnswer c k)) :
    Sound (step s (.loseAnswer c k)) := by
  have nothing : c = s.current → ((s.connections c).toWorker[k]?.bind ToWorker.token?) = none :=
    fun here => delivered.resolve_left fun other => other here
  refine sound.put (fun here => filterMap_eraseIdx (nothing here)) ?_
  rintro rfl
  have nothing := nothing rfl
  have single : ∀ workerToken, (s.connections s.current).toWorker = [.success workerToken] →
      (s.connections s.current).toWorker.eraseIdx k = [.success workerToken] := by
    intro workerToken only
    rw [only] at nothing ⊢
    cases k with
    | zero => simp [ToWorker.token?] at nothing
    | succ => rfl
  have emptied : (s.connections s.current).toWorker = [] → (s.connections s.current).toWorker.eraseIdx k = [] := by
    intro empty
    rw [empty]
    rfl
  have linked := sound.linked
  cases phase : s.phase <;> simp only [phase,Linked] at linked ⊢
  case reconnecting =>
    refine ⟨linked.1,?_⟩
    rcases linked.2 with ⟨unchallenged,unopened,empty⟩ | ⟨handler,workerToken,only⟩
    · exact .inl ⟨unchallenged,unopened,emptied empty⟩
    · exact .inr ⟨handler,workerToken,single workerToken only⟩
  case awaitingChallenge =>
    refine ⟨linked.1,?_⟩
    rcases linked.2 with ⟨handler,empty⟩ | ⟨handler,empty | one⟩
    · exact .inl ⟨handler,emptied empty⟩
    · exact .inr ⟨handler,.inl (emptied empty)⟩
    · rw [one]
      cases k with
      | zero => exact .inr ⟨handler,.inl rfl⟩
      | succ => exact .inr ⟨handler,.inr rfl⟩
  case awaitingSuccess =>
    refine ⟨linked.1,?_⟩
    rcases linked.2 with ⟨handler,empty⟩ | ⟨handler,workerToken,only⟩
    · exact .inl ⟨handler,emptied empty⟩
    · exact .inr ⟨handler,workerToken,single workerToken only⟩
  case operational =>
    exact ⟨linked.1,fun message member => linked.2 message ((List.eraseIdx_sublist _ k).mem member)⟩

theorem Sound.heartbeat : Sound (step s .heartbeat) := by
  simp only [step]
  split
  · rename_i operational
    refine sound.put (fun _ => rfl) fun _ => ?_
    have linked := sound.linked
    simp only [operational,Linked] at linked ⊢
    exact linked
  · exact sound

theorem Sound.connect : Sound (step s .connect) := by
  simp only [step]
  split
  · rename_i down
    have way : s.onItsWay = [] := by simp [State.onItsWay,down]
    have same : s.workerToken.or s.stored = s.workerToken := by
      cases memory : s.workerToken with
      | none => simp [sound.stored memory]
      | some => rfl
    have way' : s.connect.onItsWay = [] := by
      simp [State.onItsWay,State.connect,State.put]
    refine ⟨sound.fresh,sound.accepted,?_,?_,?_,?_⟩
    · cases memory : s.workerToken with
      | none => simp [State.connect,State.put,memory,sound.stored memory,Linked]
      | some => simp [State.connect,State.put,memory,Linked]
    · simp [way']
    · intro workerToken held _
      exact sound.kept workerToken (by simpa [State.connect,same] using held) way
    · intro none
      exact sound.stored (by simpa [State.connect,same] using none)
  · exact sound

theorem Sound.drop (delivered : Delivered s .drop) : Sound (step s .drop) := by
  have way : (step s .drop).onItsWay = [] := by simp [State.onItsWay,step]
  refine ⟨sound.fresh,sound.accepted,trivial,?_,?_,sound.stored⟩
  · simp [way]
  · intro workerToken held _
    exact sound.kept workerToken held delivered

theorem Sound.withdraw : Sound (step s .withdraw) :=
  ⟨by simp [step],by simp [step],sound.linked,sound.last,sound.kept,sound.stored⟩

theorem Sound.take {rest : List ToWorker} (persisted : Bool) (phase : Phase)
    (way : s.onItsWay = workerToken :: rest.filterMap ToWorker.token?) (up : phase ≠ .disconnected)
    (linked : Linked {s.connections s.current with toWorker := rest} phase) :
    Sound {(s.put s.current {s.connections s.current with toWorker := rest}).keep workerToken persisted with
      phase := phase} := by
  have left : ({(s.put s.current {s.connections s.current with toWorker := rest}).keep workerToken persisted with
      phase := phase} : State).onItsWay = rest.filterMap ToWorker.token? := by
    simp [State.onItsWay,State.keep,State.put,up]
  refine ⟨sound.fresh,sound.accepted,?_,?_,?_,?_⟩
  · simpa [State.keep,State.put] using linked
  · intro last ends
    rw [left] at ends
    refine sound.last last ?_
    rw [way,List.getLast?_cons,ends]
    rfl
  · intro held keeps none
    rw [left] at none
    obtain rfl : workerToken = held := Option.some.inj keeps
    refine sound.last workerToken ?_
    rw [way,none]
    rfl
  · intro none
    contradiction

theorem Sound.hear (persisted : Bool) : Sound (step s (.hear persisted)) := by
  simp only [step,State.hear]
  split
  · exact sound
  rename_i message rest messages
  have linked := sound.linked
  have way : s.phase ≠ .disconnected → s.onItsWay = (message :: rest).filterMap ToWorker.token? := by
    intro up
    simp [State.onItsWay,up,messages]
  cases phase : s.phase <;> simp only [phase,Linked,messages] at linked ⊢
  case disconnected => exact sound
  case reconnecting =>
    obtain ⟨handler,workerToken,only⟩ : ((s.connections s.current).handler = .operational ∨
        (s.connections s.current).handler = .closed) ∧ ∃ workerToken, message :: rest = [.success workerToken] := by
      simpa using linked.2
    obtain ⟨rfl,rfl⟩ := List.cons.inj only
    exact sound.take persisted .operational (way (by simp [phase])) (by simp) ⟨handler,by simp⟩
  case awaitingChallenge =>
    obtain ⟨handler,only⟩ : ((s.connections s.current).handler = .challenged ∨
        (s.connections s.current).handler = .closed) ∧ message :: rest = [.challenge] := by
      simpa using linked.2
    obtain ⟨rfl,rfl⟩ := List.cons.inj only
    have before : s.onItsWay = [] := by rw [way (by simp [phase])]; rfl
    refine ⟨sound.fresh,sound.accepted,?_,?_,?_,sound.stored⟩
    · simp only [State.put,Function.update_self,Linked]
      refine ⟨?_,.inl ⟨handler,trivial⟩⟩
      intro other member
      rcases List.mem_append.mp member with member | member
      · rw [linked.1 other member]
        simp
      · rw [List.mem_singleton.mp member]
        simp
    · intro workerToken ends
      simp [State.onItsWay,State.put] at ends
    · intro workerToken held _
      exact sound.kept workerToken held before
  case awaitingSuccess =>
    obtain ⟨handler,workerToken,only⟩ : ((s.connections s.current).handler = .operational ∨
        (s.connections s.current).handler = .closed) ∧ ∃ workerToken, message :: rest = [.success workerToken] := by
      simpa using linked.2
    obtain ⟨rfl,rfl⟩ := List.cons.inj only
    exact sound.take persisted .operational (way (by simp [phase])) (by simp) ⟨handler,by simp⟩
  case operational =>
    obtain ⟨workerToken,rfl⟩ := linked.2 message List.mem_cons_self
    have taken := sound.take persisted s.phase (way (by simp [phase])) (by simp [phase])
      (by simpa [phase,Linked] using ⟨linked.1,fun other member => linked.2 other (List.mem_cons_of_mem _ member)⟩)
    exact taken

theorem Sound.read {fine due sent : Bool} (delivered : Delivered s (.read c fine due sent)) :
    Sound (step s (.read c fine due sent)) := by
  simp only [step,Delivered,State.read] at delivered ⊢
  split
  · exact sound
  rename_i message rest messages
  simp only [messages] at delivered
  have linked : c = s.current → Linked (s.connections c) s.phase := by
    rintro rfl
    exact sound.linked
  split
  case h_1 workerToken handler =>
    refine sound.put (fun _ => rfl) fun here => ?_
    split
    · exact (linked here).verify messages handler
    · exact ((linked here).read messages).close
  case h_2 handler =>
    split
    · refine sound.put (fun _ => ?_) fun here => (linked here).challenge messages handler
      simp [ToWorker.token?]
    · exact sound.put (fun _ => rfl) fun here => ((linked here).read messages).close
  case h_3 handler =>
    simp only [handler] at delivered
    split
    · rename_i fine
      obtain ⟨rfl,up,rfl⟩ : c = s.current ∧ s.phase ≠ .disconnected ∧ sent = true := by
        simpa [fine,State.issueOn,State.issue,State.put] using delivered
      exact sound.issueOn (fun _ => rfl) up ((linked rfl).enroll messages handler)
    · exact sound.put (fun _ => rfl) fun here => ((linked here).read messages).close
  case h_4 handler =>
    simp only [handler] at delivered
    split
    · rename_i old newest
      obtain ⟨rfl,up,rfl⟩ : c = s.current ∧ s.phase ≠ .disconnected ∧ sent = true := by
        simpa [newest,State.issueOn,State.issue,State.put] using delivered
      exact sound.issueOn (fun _ => rfl) up ((linked rfl).rotate messages handler)
    · exact sound.put (fun _ => rfl) fun here => (linked here).read messages
  case h_5 handler =>
    exact sound.put (fun _ => rfl) fun here => (linked here).read messages
  case h_6 handler =>
    exact sound
  case h_7 handler =>
    exact sound.put (fun _ => rfl) fun here => ((linked here).read messages).close

theorem Sound.commit {done sent : Bool} (delivered : Delivered s (.commit c done sent)) :
    Sound (step s (.commit c done sent)) := by
  simp only [step,Delivered,State.commit] at delivered ⊢
  split
  · rename_i workerToken verified
    simp only [verified] at delivered
    split
    · rename_i done
      obtain ⟨rfl,up,rfl⟩ : c = s.current ∧ s.phase ≠ .disconnected ∧ sent = true := by
        simpa [done,State.issueOn,State.issue,State.put] using delivered
      exact sound.issueOn (fun _ => rfl) up (sound.linked.commit verified)
    · refine sound.put (fun _ => rfl) ?_
      rintro rfl
      exact sound.linked.close
  · exact sound

theorem Sound.step {event : Event} (delivered : Delivered s event) : Sound (step s event) := by
  cases event with
  | connect => exact sound.connect
  | read => exact sound.read delivered
  | commit => exact sound.commit delivered
  | loseRequest c k => exact sound.erase_request c k
  | loseAnswer => exact sound.erase_answer delivered
  | close c => exact sound.close c
  | hear persisted => exact sound.hear persisted
  | heartbeat => exact sound.heartbeat
  | drop => exact sound.drop delivered
  | withdraw => exact sound.withdraw

theorem sound_run {events : List Event} (delivered : DeliveredRun s events) : Sound (run s events) := by
  induction events generalizing s with
  | nil => exact sound
  | cons event rest ih => exact ih (sound.step delivered.1) delivered.2

end

theorem sound_start : Sound State.start :=
  ⟨by simp [State.start],by simp [State.start],trivial,by simp [State.onItsWay,State.start],by simp [State.start],
    fun _ => rfl⟩

end

/-- Where every new token is sent on the worker's connection and is not lost there, an enrolled
worker with no token on its way holds one that the master accepts. -/
theorem worker_token_held (events : List Event) (delivered : DeliveredRun State.start events)
    (enrolled : (run State.start events).workerToken ≠ none) (standing : (run State.start events).withdrawn = false)
    (received : (run State.start events).onItsWay = []) : Held (run State.start events) := by
  have sound := sound_run sound_start delivered
  obtain ⟨workerToken,held⟩ := Option.ne_none_iff_exists'.mp enrolled
  exact ⟨workerToken,.inl held,sound.accepted standing workerToken (sound.kept workerToken held received)⟩

def enrollment : List Event := [.connect,.read 1 true false true,.hear true,.read 1 true false true,.hear true]

/-- The worker enrolls, its token is rotated, and it reconnects. -/
theorem rotated_token_held :
    Held (run State.start (enrollment ++ [.heartbeat,.read 1 true true true,.hear true,.drop,.connect,
      .read 2 true false true,.commit 2 true true,.hear true])) :=
  worker_token_held _ (by decide) (by decide) (by decide +kernel) (by decide +kernel)

/-- The answer to a reconnection is lost: the token that the worker has was revoked for it. -/
theorem token_lost_with_answer :
    ¬∀ events, (run State.start events).workerToken ≠ none → (run State.start events).withdrawn = false →
      Held (run State.start events) := by
  intro claimed
  let events : List Event := enrollment ++ [.drop,.connect,.read 2 true false true,.commit 2 true true,
    .loseAnswer 2 0,.drop]
  have unwithdrawn : (run State.start events).withdrawn = false := by decide +kernel
  obtain ⟨workerToken,held,accepted⟩ := claimed events (by decide) unwithdrawn
  have first : workerToken = 0 := by
    rcases held with memory | file
    · exact (Option.some.inj memory).symm
    · exact (Option.some.inj file).symm
  subst first
  contradiction

/-! Without an accepted token there is no way back -/

/-- No token of the worker is accepted, and it is not connected, or not further than its request. -/
structure LockedOut (s : State) : Prop where
  refused : ∀ workerToken, s.workerToken = some workerToken ∨ s.stored = some workerToken →
    workerToken < s.issued ∧ s.verifyWorkerToken workerToken = false
  enrolled : s.workerToken ≠ none
  nowhere : s.phase = .disconnected ∨
    s.phase = .reconnecting ∧ (s.connections s.current).toWorker = [] ∧
      ((s.connections s.current).handler = .accepted ∨ (s.connections s.current).handler = .closed) ∧
      ∀ message ∈ (s.connections s.current).toMaster, message = .request s.workerToken

section
variable {s s' : State} {c : Nat}

theorem refused_issue {workerToken : Nat} (older : workerToken < s.issued) (refused : s.verifyWorkerToken workerToken = false)
    (replaced : Option Nat) : (s.issue replaced).verifyWorkerToken workerToken = false := by
  have newer : s.issued ≠ workerToken := by omega
  simp only [State.verifyWorkerToken,State.issue,List.find?_append,List.find?_map] at refused ⊢
  have same : ((fun row : TokenRow => row.token == workerToken) ∘ fun row =>
      if some row.token = replaced then {row with revoked := true} else row) = fun row => row.token == workerToken := by
    funext row
    simp only [Function.comp]
    split <;> rfl
  rw [same]
  cases found : s.rows.find? fun row => row.token == workerToken with
  | none => simp [newer]
  | some row =>
    have revoked : row.revoked = true := by simpa [found] using refused
    simp only [Option.map_some,Option.some_or]
    split <;> simp [revoked]

structure Served (s : State) (c : Nat) (s' : State) : Prop where
  workerToken : s'.workerToken = s.workerToken
  stored : s'.stored = s.stored
  phase : s'.phase = s.phase
  current : s'.current = s.current
  issued : s.issued ≤ s'.issued
  refused : ∀ workerToken < s.issued, s.verifyWorkerToken workerToken = false → s'.verifyWorkerToken workerToken = false
  others : ∀ other ≠ c, s'.connections other = s.connections other

theorem served_put (connection : Connection) : Served s c (s.put c connection) :=
  ⟨rfl,rfl,rfl,rfl,Nat.le_refl _,fun _ _ refused => refused,fun _ other => by simp [State.put,other]⟩

theorem served_issueOn (connection : Connection) (replaced : Option Nat) (message : Nat → ToWorker) (sent : Bool)
    (failed : Handler) : Served s c (s.issueOn c connection replaced message sent failed) :=
  ⟨rfl,rfl,rfl,rfl,Nat.le_succ _,fun _ older refused => refused_issue older refused replaced,
    fun _ other => by simp [State.issueOn,State.issue,State.put,other]⟩

theorem served_self : Served s c s :=
  ⟨rfl,rfl,rfl,rfl,Nat.le_refl _,fun _ _ refused => refused,fun _ _ => rfl⟩

theorem served_read (fine due sent : Bool) : Served s c (s.read c fine due sent) := by
  simp only [State.read]
  split
  · exact served_self
  split
  · exact served_put _
  · exact served_put _
  · split
    · exact served_issueOn ..
    · exact served_put _
  · split
    · exact served_issueOn ..
    · exact served_put _
  · exact served_put _
  · exact served_self
  · exact served_put _

theorem served_commit (done sent : Bool) : Served s c (s.commit c done sent) := by
  unfold State.commit
  split
  · split
    · exact served_issueOn ..
    · exact served_put _
  · exact served_self

/-- The master does nothing for the worker on its connection. -/
theorem LockedOut.served (locked : LockedOut s) (served : Served s c s')
    (here : c = s.current → s.phase = .reconnecting → (s.connections c).toWorker = [] →
      ((s.connections c).handler = .accepted ∨ (s.connections c).handler = .closed) →
      (∀ message ∈ (s.connections c).toMaster, message = .request s.workerToken) →
      (s'.connections c).toWorker = [] ∧ ((s'.connections c).handler = .accepted ∨ (s'.connections c).handler = .closed) ∧
        ∀ message ∈ (s'.connections c).toMaster, message = .request s.workerToken) : LockedOut s' := by
  refine ⟨?_,?_,?_⟩
  · intro workerToken held
    rw [served.workerToken,served.stored] at held
    have older := locked.refused workerToken held
    exact ⟨Nat.lt_of_lt_of_le older.1 served.issued,served.refused workerToken older.1 older.2⟩
  · rw [served.workerToken]
    exact locked.enrolled
  · rw [served.phase,served.current,served.workerToken]
    rcases locked.nowhere with down | ⟨reconnecting,nothing,handler,requests⟩
    · exact .inl down
    · refine .inr ⟨reconnecting,?_⟩
      by_cases same : c = s.current
      · subst same
        exact here rfl reconnecting nothing handler requests
      · rw [served.others s.current fun is => same is.symm]
        exact ⟨nothing,handler,requests⟩

theorem LockedOut.step (locked : LockedOut s) (event : Event) : LockedOut (step s event) := by
  cases event with
  | connect =>
    simp only [WorkerCredentials.step]
    split
    · have same : s.workerToken.or s.stored = s.workerToken := by
        obtain ⟨workerToken,memory⟩ := Option.ne_none_iff_exists'.mp locked.enrolled
        rw [memory]
        rfl
      obtain ⟨workerToken,memory⟩ := Option.ne_none_iff_exists'.mp locked.enrolled
      refine ⟨?_,?_,.inr ?_⟩
      · intro workerToken held
        exact locked.refused workerToken (by simpa [State.connect,State.put,same] using held)
      · simp [State.connect,memory]
      · simp [State.connect,State.put,memory]
    · exact locked
  | read c fine due sent =>
    refine locked.served (served_read fine due sent) ?_
    rintro rfl _ nothing handler requests
    simp only [WorkerCredentials.step,State.read]
    cases messages : (s.connections s.current).toMaster with
    | nil => exact ⟨nothing,handler,by simp [messages]⟩
    | cons message rest =>
      rw [messages] at requests
      have later := fun other member => requests other (List.mem_cons_of_mem message member)
      obtain ⟨workerToken,memory⟩ := Option.ne_none_iff_exists'.mp locked.enrolled
      have refused := (locked.refused workerToken (.inl memory)).2
      have request : message = .request (some workerToken) := by rw [requests message List.mem_cons_self,memory]
      subst request
      rcases handler with accepted | closed
      · simp only [accepted,refused,Bool.and_false,State.put,Function.update_self]
        exact ⟨nothing,.inr rfl,later⟩
      · simp only [closed,State.put,Function.update_self]
        exact ⟨nothing,.inr trivial,later⟩
  | commit c done sent =>
    refine locked.served (served_commit done sent) ?_
    rintro rfl _ nothing handler requests
    rcases handler with accepted | closed
    · simp only [WorkerCredentials.step,State.commit,accepted]
      exact ⟨nothing,.inl trivial,requests⟩
    · simp only [WorkerCredentials.step,State.commit,closed]
      exact ⟨nothing,.inr trivial,requests⟩
  | loseRequest c k =>
    refine locked.served (served_put _) ?_
    rintro rfl _ nothing handler requests
    simp only [WorkerCredentials.step,State.put,Function.update_self]
    exact ⟨nothing,handler,fun message member => requests message ((List.eraseIdx_sublist _ k).mem member)⟩
  | loseAnswer c k =>
    refine locked.served (served_put _) ?_
    rintro rfl _ nothing handler requests
    simp only [WorkerCredentials.step,State.put,Function.update_self,nothing]
    exact ⟨rfl,handler,requests⟩
  | close c =>
    refine locked.served (served_put _) ?_
    rintro rfl _ nothing handler requests
    simp only [WorkerCredentials.step,State.put,Function.update_self]
    exact ⟨nothing,.inr trivial,requests⟩
  | hear persisted =>
    have deaf : WorkerCredentials.step s (.hear persisted) = s := by
      simp only [WorkerCredentials.step,State.hear]
      rcases locked.nowhere with down | ⟨_,nothing,_,_⟩
      · split
        · rfl
        · simp [down]
      · simp [nothing]
    rw [deaf]
    exact locked
  | heartbeat =>
    have silent : s.phase ≠ .operational := by
      rcases locked.nowhere with down | ⟨reconnecting,_,_,_⟩
      · simp [down]
      · simp [reconnecting]
    simpa only [WorkerCredentials.step,silent,if_false] using locked
  | drop => exact ⟨locked.refused,locked.enrolled,.inl rfl⟩
  | withdraw => exact ⟨fun workerToken held => ⟨(locked.refused workerToken held).1,rfl⟩,locked.enrolled,locked.nowhere⟩

/-- A worker that is disconnected with none but revoked tokens never has an accepted one again. -/
theorem locked_out (locked : LockedOut s) (events : List Event) : ¬Held (run s events) := by
  induction events generalizing s with
  | nil =>
    rintro ⟨workerToken,held,accepted⟩
    have refused := (locked.refused workerToken held).2
    exact absurd (refused.symm.trans accepted) Bool.false_ne_true
  | cons event rest ih => exact ih (locked.step event)

/-- The answer with the new token of a reconnection is lost. -/
theorem locked_out_lost : ¬Held (run (run State.start (enrollment ++ [.drop,.connect,.read 2 true false true,
    .commit 2 true true,.loseAnswer 2 0,.drop])) [.connect,.read 3 true false true,.hear true]) := by
  refine locked_out ⟨?_,by decide,.inl rfl⟩ _
  rintro workerToken (memory | file)
  · obtain rfl := Option.some.inj memory
    exact ⟨by decide,by decide⟩
  · obtain rfl := Option.some.inj file
    exact ⟨by decide,by decide⟩

end
end Vigile.WorkerCredentials
