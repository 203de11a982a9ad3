import Vigile.SessionProtocol

/-! The protocol a session keeps to with tokens: it enrolls with the join token it looked
up, and a message with a worker token carries the one it has just committed. -/
namespace Vigile.Workers

open Interleaving Python NodeManager

structure Commit where
  nodeId : String
  token : String
  joinHash : Option String
  deriving DecidableEq

structure Ledger where
  presented : Option String
  vouched : Option String
  /-- The token and the hash that were generated last. -/
  generated : Option (String × String)
  committed : Option Commit

def isSuccess (data : Fields) : Bool := isText (Fields.get data "type") "ENROLLMENT_SUCCESS"

def isRotation (data : Fields) : Bool := isText (Fields.get data "type") "TOKEN_ROTATION_COMMAND"

/-- The message carries the token of the commit, and a success its node. -/
def announces (data : Fields) (commit : Commit) : Bool :=
  isText (Fields.get data "worker_token") commit.token &&
    (!isSuccess data || isText (Fields.get data "node_id") commit.nodeId)

def Ledger.sends (ledger : Ledger) (data : Fields) : Option Ledger :=
  if isSuccess data || isRotation data then
    match ledger.committed with
    | none => none
    | some commit =>
      if announces data commit ∧ (isSuccess data → commit.joinHash = ledger.presented) then
        some {ledger with committed := none}
      else none
  else some ledger

/-- A transaction stores the token generated last. -/
def Ledger.commits (ledger : Ledger) (issued : IssuedToken) (commit : Commit) (ok : Bool) :
    Option Ledger :=
  if ledger.generated = some (issued.token,issued.tokenHash) then
    some {ledger with generated := none,committed := if ok then some commit else none}
  else none

def vouches (nodeId : String) : Except PyError (Option JoinToken) → Option String
  | .ok (some _) => some nodeId
  | _ => none

/-- Handshakes rotate no token, and neither issue nor drop join tokens and nodes by hand. -/
def ledgerRule (serving : Bool) : Prog.Protocol Act Act.Reply PyError Ledger := fun act reply ledger =>
  match act,reply with
  | .selectJoinToken tokenHash nodeId,reply =>
    if ledger.presented = none then
      some {ledger with presented := some tokenHash,vouched := vouches nodeId reply}
    else none
  | .generateWorkerToken _,.ok issued =>
    some {ledger with generated := some (issued.token,issued.tokenHash)}
  | .enroll e,reply =>
    if ledger.presented = some e.tokenHash ∧ ledger.vouched = some e.payload.nodeId then
      ledger.commits e.issued ⟨e.payload.nodeId,e.issued.token,some e.tokenHash⟩ reply.isOk
    else none
  | .reissue nodeId _ _ _ _ issued,reply =>
    ledger.commits issued ⟨nodeId,issued.token,none⟩ reply.isOk
  | .rotate nodeId _ _ issued,reply =>
    if serving then ledger.commits issued ⟨nodeId,issued.token,none⟩ reply.isOk else none
  | .sendText _ data,_ => ledger.sends data
  | .deleteNode _ _,_ | .consumeTokens _ _,_ | .insertJoinToken _ _ _,_ =>
    if serving then some ledger else none
  | _,_ => some ledger

def Act.tokenless : Act → Bool
  | .selectJoinToken _ _ | .generateWorkerToken _ | .enroll _ | .reissue _ _ _ _ _ _
  | .rotate _ _ _ _ | .deleteNode _ _ | .consumeTokens _ _ | .insertJoinToken _ _ _ => false
  | .sendText _ data => !(isSuccess data || isRotation data)
  | _ => true

theorem ledgerRule_tokenless {act : Act} (tokenless : act.tokenless = true)
    (serving : Bool) (reply : Except PyError act.Reply) (ledger : Ledger) :
    ledgerRule serving act reply ledger = some ledger := by
  cases act with
  | sendText websocket data =>
    simp only [Act.tokenless,Bool.not_eq_true'] at tokenless
    simp [ledgerRule,Ledger.sends,tokenless]
  | selectJoinToken | generateWorkerToken | enroll | reissue | rotate | deleteNode | consumeTokens
    | insertJoinToken => contradiction
  | _ => cases reply <;> rfl

section
variable {serving : Bool} {ledger ledger' : Ledger}

theorem ledger_looked {tokenHash nodeId : String} {reply : Except PyError (Option JoinToken)}
    (allowed : ledgerRule serving (.selectJoinToken tokenHash nodeId) reply ledger = some ledger') :
    ledger.presented = none ∧
      ledger' = {ledger with presented := some tokenHash,vouched := vouches nodeId reply} := by
  simp only [ledgerRule] at allowed
  split at allowed
  · rename_i fresh
    exact ⟨fresh,(Option.some.inj allowed).symm⟩
  · contradiction

theorem Ledger.commits_looked {issued : IssuedToken} {commit : Commit} {ok : Bool}
    (stored : ledger.commits issued commit ok = some ledger') :
    ledger'.presented = ledger.presented ∧ ledger'.vouched = ledger.vouched := by
  unfold Ledger.commits at stored
  split at stored
  · cases stored
    exact ⟨rfl,rfl⟩
  · contradiction

/-- Only the SELECT of a join token presents one. -/
theorem ledger_kept {act : Act} {reply : Except PyError act.Reply}
    (allowed : ledgerRule serving act reply ledger = some ledger')
    (other : ∀ tokenHash nodeId, act ≠ .selectJoinToken tokenHash nodeId) :
    ledger'.presented = ledger.presented ∧ ledger'.vouched = ledger.vouched := by
  cases act with
  | selectJoinToken tokenHash nodeId => exact absurd rfl (other _ _)
  | sendText websocket data =>
    simp only [ledgerRule,Ledger.sends] at allowed
    split at allowed
    · split at allowed
      · contradiction
      · split at allowed
        · cases allowed
          exact ⟨rfl,rfl⟩
        · contradiction
    · cases allowed
      exact ⟨rfl,rfl⟩
  | enroll e | rotate =>
    simp only [ledgerRule] at allowed
    split at allowed
    · exact Ledger.commits_looked allowed
    · contradiction
  | reissue => exact Ledger.commits_looked allowed
  | deleteNode | consumeTokens | insertJoinToken =>
    simp only [ledgerRule] at allowed
    split at allowed
    · cases allowed
      exact ⟨rfl,rfl⟩
    · contradiction
  | generateWorkerToken =>
    cases reply <;>
    · cases allowed
      exact ⟨rfl,rfl⟩
  | _ =>
    rw [ledgerRule_tokenless rfl] at allowed
    cases allowed
    exact ⟨rfl,rfl⟩

end

abbrev Tokenless {α : Type} (program : Task α) : Prop :=
  ∀ serving ledger, program.Stays (ledgerRule serving) ledger

section
variable {α β : Type} {program : Task α}

theorem Tokenless.perform {act : Act} (tokenless : act.tokenless = true) :
    Tokenless (Prog.perform act) :=
  fun serving ledger => .perform fun reply => ledgerRule_tokenless tokenless serving reply ledger

variable {next : α → Task β} {error : PyError}

theorem Tokenless.bind (h : Tokenless program)
    (goesOn : ∀ value, Tokenless (next value)) : Tokenless (program >>= next) :=
  fun serving ledger => .bind (h serving ledger) fun value => goesOn value serving ledger

theorem Tokenless.attempt {handler : PyError → Task α} (h : Tokenless program)
    (handles : ∀ error, Tokenless (handler error)) : Tokenless (tryCatch program handler) :=
  fun serving ledger => .attempt (h serving ledger) fun error => handles error serving ledger

theorem Tokenless.pure {value : α} : Tokenless (pure value : Task α) := fun _ _ => .pure

theorem Tokenless.throw : Tokenless (throw error : Task α) := fun _ _ => .throw

theorem Tokenless.throw_bind :
    Tokenless ((.raise error : Task α) >>= next) := fun _ _ => .throw_bind

theorem Tokenless.ofExcept {result : Except PyError α} : Tokenless (Prog.ofExcept result) :=
  fun _ _ => .ofExcept

theorem tokenless_ignoringExceptions {program : Task Unit} (h : Tokenless program) :
    Tokenless (ignoringExceptions program) :=
  fun serving ledger => stays_ignoringExceptions (h serving ledger)

theorem tokenless_close (websocket : Socket) (code : Nat) (reason : String) :
    Tokenless (close websocket code reason) :=
  tokenless_ignoringExceptions (.perform rfl)

theorem tokenless_transitionState (nodeId : String) (newState : NodeState) (contact : Option Contact) :
    Tokenless (transitionState nodeId newState contact) := by
  apply Tokenless.bind (.perform rfl)
  intro found
  cases found with
  | none => exact .throw
  | some current =>
    dsimp only
    split
    · exact .throw_bind
    · exact .bind (.perform rfl) fun now => .bind (.perform rfl) fun _ =>
        tokenless_ignoringExceptions (.perform rfl)

end

variable {sec : Security}

theorem tokenless_send {websocket : Socket} {data : Fields} {nodeId : String}
    (plain : (isSuccess data || isRotation data) = false) : Tokenless (send websocket data nodeId) := by
  have sends : Tokenless (Prog.perform (Act.sendText websocket data)) :=
    .perform (by rw [Act.tokenless,plain]; rfl)
  apply Tokenless.attempt sends
  intro error
  cases error with
  | webSocketDisconnect =>
    dsimp only
    split
    · exact .perform rfl
    · exact .pure
  | _ => exact .throw

theorem tokenless_recvTyped (websocket : Socket) (expected : String) :
    Tokenless (recvTyped sec websocket expected) := by
  apply Tokenless.bind
  · apply Tokenless.attempt (.perform rfl)
    intro error
    cases error <;> exact .throw
  · exact fun raw => .ofExcept

theorem tokenless_challengeWorker (websocket : Socket) (nodeId : String) (publicKey : Json) :
    Tokenless (challengeWorker sec websocket nodeId publicKey) := by
  apply Tokenless.bind (.perform rfl)
  intro challenge
  apply Tokenless.bind (tokenless_send rfl)
  intro _
  apply Tokenless.bind (tokenless_recvTyped _ _)
  intro resp
  dsimp only
  split
  · exact .throw_bind
  · apply Tokenless.bind (.perform rfl)
    intro verified
    split
    · exact .throw
    · exact .pure

theorem tokenless_verifyWorkerToken (workerToken : Json) :
    Tokenless (verifyWorkerToken sec workerToken) := by
  apply Tokenless.bind (.perform rfl)
  intro now
  apply Tokenless.bind .ofExcept
  intro subject
  apply Tokenless.bind (.perform rfl)
  intro revoked
  split
  · exact .throw
  · exact .throw
  · exact .pure

theorem tokenless_storeVersion (nodeId : String) (msg : Fields) : Tokenless (storeVersion nodeId msg) := by
  unfold storeVersion
  dsimp only
  split
  · exact .bind (.perform rfl) fun now => .perform rfl
  · exact .pure

theorem tokenless_onIntentResult (nodeId : String) (msg : Fields) :
    Tokenless (onIntentResult nodeId msg) := by
  apply Tokenless.bind .ofExcept
  intro key
  cases key with
  | none => exact .pure
  | some intentId =>
    apply Tokenless.bind (.perform rfl)
    intro expected
    split
    · have matched : Tokenless (dispatchMatches intentId (Fields.get msg "dispatch_id")) := by
        unfold dispatchMatches
        split
        · exact .pure
        · exact .bind (.perform rfl) fun row => .pure
      apply Tokenless.bind matched
      intro genuine
      split
      · exact .bind (.perform rfl) fun _ => .perform rfl
      · exact .pure
    · exact .pure

theorem tokenless_endSession (nodeId : String) : Tokenless (endSession nodeId) := by
  unfold endSession
  split
  · apply Tokenless.bind (.perform rfl)
    intro _
    apply tokenless_ignoringExceptions
    apply Tokenless.bind (.perform rfl)
    intro current
    split
    · exact tokenless_transitionState _ _ _
    · split
      · exact tokenless_transitionState _ _ _
      · exact .pure
  · exact .pure

theorem tokenless_reconnectionCount (nodeId : String) : Tokenless (reconnectionCount nodeId) := by
  apply Tokenless.attempt (.bind (.perform rfl) fun count => .pure)
  intro error
  split
  · exact .pure
  · exact .throw

/-- Whatever tokens a session holds, the program keeps to the protocol. -/
abbrev Lawful {α : Type} (program : Task α) : Prop :=
  ∀ ledger, program.Follows (ledgerRule true) ledger fun _ _ => True

section
variable {α β : Type} {program : Task α} {ledger : Ledger} {serving : Bool}

theorem Tokenless.lawful (h : Tokenless program) : Lawful program :=
  fun ledger => (h true ledger).mono fun _ _ _ => trivial

variable {next : α → Task β} {nodeId : String}

theorem Lawful.bind (h : Lawful program) (goesOn : ∀ value, Lawful (next value)) :
    Lawful (program >>= next) :=
  fun ledger => .bind (h ledger) (fun value ledger' _ => goesOn value ledger') fun _ _ _ => trivial

theorem Lawful.attempt {handler : PyError → Task α} (h : Lawful program)
    (handles : ∀ error, Lawful (handler error)) : Lawful (tryCatch program handler) :=
  fun ledger => .attempt (h ledger) (fun _ _ _ => trivial) fun error ledger' _ => handles error ledger'

theorem Tokenless.ends (h : Tokenless program) :
    program.Follows (ledgerRule serving) ledger fun _ _ => True :=
  (h serving ledger).mono fun _ _ _ => trivial

/-- A first part that touches no token. -/
theorem Tokenless.first {post : Except PyError β → Ledger → Prop}
    (h : Tokenless program) (goesOn : ∀ value, (next value).Follows (ledgerRule serving) ledger post)
    (fails : ∀ error, post (.error error) ledger) : (program >>= next).Follows (ledgerRule serving) ledger post := by
  apply Prog.Follows.bind (h serving ledger)
  · rintro value _ rfl
    exact goesOn value
  · rintro error _ rfl
    exact fails error

theorem send_follows {websocket : Socket} {data : Fields} {after : Ledger}
    (sent : ledger.sends data = some after) :
    (send websocket data nodeId).Follows (ledgerRule serving) ledger fun _ m => m = after := by
  have sends : (Prog.perform (Act.sendText websocket data) : Task Unit).Follows (ledgerRule serving) ledger
      fun _ m => m = after := .perform fun reply => ⟨after,by cases reply <;> exact sent,rfl⟩
  apply Prog.Follows.attempt sends
  · exact fun _ _ same => same
  · rintro error _ rfl
    cases error with
    | webSocketDisconnect =>
      dsimp only
      split
      · exact Tokenless.perform rfl _ _
      · exact Tokenless.pure _ _
    | _ => exact Tokenless.throw _ _

/-- A token that is generated is the one the next transaction stores. -/
theorem generate_follows (nodeId : String) :
    (generateWorkerToken nodeId).Follows (ledgerRule serving) ledger fun result m =>
      ∀ issued, result = .ok issued →
        m = {ledger with generated := some (issued.token,issued.tokenHash)} := by
  apply Prog.Follows.perform
  intro reply
  cases reply with
  | error error => exact ⟨ledger,rfl,by simp⟩
  | ok issued => exact ⟨_,rfl,by rintro _ ⟨⟩; rfl⟩

theorem lawful_rotateToken (websocket : Socket) (nodeId : String) :
    Lawful (rotateToken websocket nodeId) := by
  apply Lawful.bind (Tokenless.perform rfl).lawful
  intro token
  cases token with
  | none => exact Tokenless.pure.lawful
  | some entry =>
    obtain ⟨oldHash,due⟩ := entry
    apply Lawful.bind (Tokenless.perform rfl).lawful
    intro now
    split
    · intro ledger
      apply Prog.Follows.bind (generate_follows nodeId)
      · intro issued ledger' generated
        obtain rfl := generated issued rfl
        apply Tokenless.first (.perform rfl)
        · intro id
          apply Tokenless.first (.perform rfl)
          · intro revokedAt
            have rotates : (Prog.perform (Act.rotate nodeId oldHash revokedAt {issued with id := id}) :
                Task Unit).Follows (ledgerRule true) {ledger with
                  generated := some (issued.token,issued.tokenHash)} fun result m =>
                ∀ value, result = .ok value → m.committed = some ⟨nodeId,issued.token,none⟩ := by
              apply Prog.Follows.perform
              intro reply
              refine ⟨_,if_pos rfl,?_⟩
              rintro value rfl
              rfl
            apply Prog.Follows.bind rotates
            · intro value ledger' committed
              have sent : ledger'.sends [("type",.str "TOKEN_ROTATION_COMMAND"),
                  ("worker_token",.str issued.token)] = some {ledger' with committed := none} := by
                unfold Ledger.sends
                rw [committed value rfl]
                simp [isRotation,isSuccess,announces,isText,Fields.get,List.lookup_cons]
              exact (send_follows sent).mono fun _ _ _ => trivial
            · exact fun _ _ _ => trivial
          · exact fun _ => trivial
        · exact fun _ => trivial
      · exact fun _ _ _ => trivial
    · exact Tokenless.pure.lawful

theorem lawful_onMessage (websocket : Socket) (nodeId : String) (msg : Fields) :
    Lawful (onMessage websocket nodeId msg) := by
  unfold onMessage
  dsimp only
  split
  · apply Lawful.bind (Tokenless.perform rfl).lawful
    intro _
    apply Lawful.bind (Tokenless.perform rfl).lawful
    intro ts
    apply Lawful.bind (tokenless_send rfl).lawful
    intro _
    apply Lawful.bind (tokenless_storeVersion _ _).lawful
    intro _
    apply Lawful.attempt (lawful_rotateToken websocket nodeId)
    intro error
    split
    · exact Tokenless.pure.lawful
    · exact Tokenless.throw.lawful
  · split
    · exact (tokenless_onIntentResult _ _).lawful
    · split
      · exact (Tokenless.bind (.perform rfl) fun _ => tokenless_storeVersion _ _).lawful
      · exact Tokenless.pure.lawful

theorem lawful_operationalStep (websocket : Socket) (nodeId : String) :
    Lawful (operationalStep sec websocket nodeId) := by
  have next : Tokenless (nextMessage sec websocket) := by
    apply Tokenless.attempt (.bind (.perform rfl) fun raw => .pure)
    intro error
    cases error <;> first | exact .pure | exact .throw
  apply Lawful.bind next.lawful
  intro received
  split
  · exact (Tokenless.bind (tokenless_close _ _ _) fun _ => .pure).lawful
  · exact (Tokenless.bind (tokenless_close _ _ _) fun _ => .pure).lawful
  · exact .bind (lawful_onMessage _ _ _) fun _ => Tokenless.pure.lawful
  · exact Tokenless.throw.lawful

theorem lawful_runOperational (websocket : Socket) (nodeId : String) (messages : Nat) :
    Lawful (runOperational sec websocket nodeId messages) := by
  induction messages with
  | zero => exact (Tokenless.perform rfl).lawful
  | succ messages ih =>
    apply Lawful.bind (lawful_operationalStep _ _)
    intro goesOn
    split
    · exact ih
    · exact Tokenless.pure.lawful

/-- The session has looked up the join token of the admission, and found it for its node. -/
def Ledger.presents (ledger : Ledger) (admission : Admission) : Prop :=
  ledger.presented = some admission.tokenHash ∧ ledger.vouched = some admission.payload.nodeId

theorem admit_follows (remote : Option String) (joinToken : Json) (fresh : ledger.presented = none) :
    (admitWorker sec remote joinToken).Follows (ledgerRule serving) ledger fun result m =>
      ∀ admission, result = .ok admission → m.presents admission := by
  have never : ∀ (m : Ledger) (error : PyError) (admission : Admission),
      (.error error : Except PyError Admission) = .ok admission → m.presents admission :=
    fun _ _ _ impossible => by contradiction
  unfold admitWorker
  dsimp only
  split
  · exact never _ _
  · apply Tokenless.first (.perform rfl) _ (never _)
    intro now
    apply Tokenless.first .ofExcept _ (never _)
    intro payload
    split
    · exact never _ _
    · have selects : (Prog.perform (Act.selectJoinToken (sec.tokenHash joinToken) payload.nodeId) :
          Task (Option JoinToken)).Follows (ledgerRule serving) ledger fun reply m =>
          m.presented = some (sec.tokenHash joinToken) ∧ m.vouched = vouches payload.nodeId reply := by
        apply Prog.Follows.perform
        intro reply
        exact ⟨_,if_pos fresh,rfl,rfl⟩
      apply Prog.Follows.bind selects
      · intro token ledger' presented
        cases token with
        | none => exact never _ _
        | some token =>
          dsimp only
          split
          · exact never _ _
          · apply Tokenless.first (.perform rfl) _ (never _)
            intro now
            split
            · exact never _ _
            · apply Tokenless.first (.perform rfl) _ (never _)
              intro state
              apply Tokenless.first .ofExcept _ (never _)
              intro first
              rintro admission ⟨⟩
              exact presented
      · intro error ledger' _
        exact never _ _

/-- The token of an enrollment is committed for the join token of the session. -/
theorem commitEnrollment_follows (admission : Admission) (remote : Option String) (publicKey : Json)
    (now : ℚ) (fingerprint : Fingerprint) (presented : ledger.presents admission) :
    (commitEnrollment admission remote publicKey now fingerprint).Follows (ledgerRule serving) ledger
      fun result m => ∀ issued, result = .ok issued →
        m.committed = some ⟨admission.payload.nodeId,issued.token,m.presented⟩ := by
  apply Prog.Follows.bind (generate_follows _)
  · intro issued ledger' generated
    obtain rfl := generated issued rfl
    apply Tokenless.first (.perform rfl)
    · intro id
      have enrolls : ∀ e : Enrollment, e.tokenHash = admission.tokenHash →
          e.payload = admission.payload → e.issued = {issued with id := id} →
          (Prog.perform (Act.enroll e) : Task Unit).Follows (ledgerRule serving)
            {ledger with generated := some (issued.token,issued.tokenHash)} fun result m =>
            ∀ value, result = .ok value →
              m.committed = some ⟨admission.payload.nodeId,issued.token,m.presented⟩ := by
        rintro e hash payload issues
        apply Prog.Follows.perform
        intro reply
        refine ⟨_,(if_pos (by rw [hash,payload]; exact presented)).trans (if_pos (by rw [issues])),?_⟩
        rintro value rfl
        simp [presented.1,hash,payload,issues,Except.isOk,Except.toBool]
      apply Prog.Follows.bind (enrolls _ rfl rfl rfl)
      · rintro value ledger' committed _ ⟨⟩
        exact committed value rfl
      · intro _ _ _ _ impossible
        contradiction
    · intro _ _ impossible
      contradiction
  · intro _ _ _ _ impossible
    contradiction

theorem commitReconnection_follows (nodeId : String) (remote : Option String) (workerToken : Json)
    (now : ℚ) (fingerprint : Fingerprint) (absent : ledger.presented = none) :
    (commitReconnection sec nodeId remote workerToken now fingerprint).Follows (ledgerRule serving) ledger
      fun result m => ∀ issued, result = .ok issued →
        m.committed = some ⟨nodeId,issued.token,m.presented⟩ := by
  apply Prog.Follows.bind (generate_follows _)
  · intro issued ledger' generated
    obtain rfl := generated issued rfl
    apply Tokenless.first (.perform rfl)
    · intro id
      have reissues : (Prog.perform (Act.reissue nodeId fingerprint remote (sec.tokenHash workerToken) now
          {issued with id := id}) : Task Unit).Follows (ledgerRule serving)
            {ledger with generated := some (issued.token,issued.tokenHash)} fun result m =>
            ∀ value, result = .ok value →
              m.committed = some ⟨nodeId,issued.token,m.presented⟩ := by
        apply Prog.Follows.perform
        intro reply
        refine ⟨_,if_pos rfl,?_⟩
        rintro value rfl
        simp [absent,Except.isOk,Except.toBool]
      apply Prog.Follows.bind reissues
      · rintro value ledger' committed _ ⟨⟩
        exact committed value rfl
      · intro _ _ _ _ impossible
        contradiction
    · intro _ _ impossible
      contradiction
  · intro _ _ _ _ impossible
    contradiction

/-- The success of a handshake announces what was committed. -/
theorem welcome_follows (websocket : Socket) (remote : Option String) {token : String}
    (committed : ledger.committed = some ⟨nodeId,token,ledger.presented⟩) :
    (welcome sec websocket remote nodeId token).Follows (ledgerRule serving) ledger fun _ _ => True := by
  apply Tokenless.first (.perform rfl)
  · intro _
    have sent : ledger.sends [("type",.str "ENROLLMENT_SUCCESS"),("worker_token",.str token),
        ("master_public_key",.str sec.masterPublicKey),("node_id",.str nodeId),
        ("heartbeat_interval",.num sec.heartbeatInterval)] = some {ledger with committed := none} := by
      unfold Ledger.sends
      rw [committed]
      simp [isSuccess,announces,isText,Fields.get,List.lookup_cons]
    exact (send_follows sent).mono fun _ _ _ => trivial
  · exact fun _ => trivial

theorem runJoin_follows (websocket : Socket) (remote : Option String)
    (joinToken publicKey fingerprint : Json) (fresh : ledger.presented = none) :
    (runJoin sec websocket remote joinToken publicKey fingerprint).Follows (ledgerRule serving) ledger
      fun _ _ => True := by
  apply Prog.Follows.bind (admit_follows remote joinToken fresh)
  · intro admission ledger' admitted
    have presented := admitted admission rfl
    have rest : ∀ connect : ℚ → Task Unit, (∀ now, Tokenless (connect now)) → (do
        challengeWorker sec websocket admission.payload.nodeId publicKey
        let now ← clock
        let fingerprint ← readFingerprint fingerprint
        let issued ← commitEnrollment admission remote publicKey now fingerprint
        connect now
        welcome sec websocket remote admission.payload.nodeId issued.token
        logAction ⟨"system","NODE_ENROLLED",some admission.payload.nodeId,[("hostname",fingerprint.hostname),
          ("arch",fingerprint.arch),("os",fingerprint.os),("machine_id",fingerprint.machineId),
          ("remote_ip",Json.ofText remote)]⟩
        return admission.payload.nodeId : Task String).Follows (ledgerRule serving) ledger' fun _ _ => True := by
      intro connect tokenless
      apply Tokenless.first (tokenless_challengeWorker _ _ _) _ fun _ => trivial
      intro _
      apply Tokenless.first (.perform rfl) _ fun _ => trivial
      intro now
      apply Tokenless.first (.perform rfl) _ fun _ => trivial
      intro fingerprint
      apply Prog.Follows.bind (commitEnrollment_follows admission remote publicKey now fingerprint presented)
      · intro issued ledger'' stored
        apply Tokenless.first (tokenless now) _ fun _ => trivial
        intro _
        apply Prog.Follows.bind (welcome_follows websocket remote (stored issued rfl))
        · intro _ ledger _
          exact (Tokenless.bind (.perform rfl) fun _ => Tokenless.pure).ends
        · exact fun _ _ _ => trivial
      · exact fun _ _ _ => trivial
    dsimp only
    cases admission.first with
    | true => exact rest (fun _ => pure ()) fun _ => .pure
    | false =>
      apply Tokenless.first (tokenless_transitionState _ _ _) _ fun _ => trivial
      intro _
      exact rest (fun now => transitionState admission.payload.nodeId .connected
        (some (contactAt now remote))) fun _ => tokenless_transitionState _ _ _
  · exact fun _ _ _ => trivial

theorem runReconnect_follows (websocket : Socket) (remote : Option String)
    (workerToken publicKey fingerprint : Json) (absent : ledger.presented = none) :
    (runReconnect sec websocket remote workerToken publicKey fingerprint).Follows (ledgerRule serving) ledger
      fun _ _ => True := by
  unfold runReconnect
  dsimp only
  apply Tokenless.first (tokenless_verifyWorkerToken _) _ fun _ => trivial
  intro nodeId
  split
  · trivial
  · apply Tokenless.first (.perform rfl) _ fun _ => trivial
    intro row
    apply Tokenless.first .ofExcept _ fun _ => trivial
    intro _
    apply Tokenless.first (tokenless_transitionState _ _ _) _ fun _ => trivial
    intro _
    apply Tokenless.first (.perform rfl) _ fun _ => trivial
    intro now
    apply Tokenless.first (.perform rfl) _ fun _ => trivial
    intro fingerprint
    apply Prog.Follows.bind (commitReconnection_follows nodeId remote workerToken now fingerprint absent)
    · intro issued ledger' stored
      apply Tokenless.first (tokenless_transitionState _ _ _) _ fun _ => trivial
      intro _
      apply Prog.Follows.bind (welcome_follows websocket remote (stored issued rfl))
      · intro _ ledger _
        exact (Tokenless.bind (tokenless_reconnectionCount _) fun count =>
          Tokenless.bind (.perform rfl) fun _ => Tokenless.pure).ends
      · exact fun _ _ _ => trivial
    · exact fun _ _ _ => trivial

theorem openSession_follows (arrival : Arrival) (fresh : ledger.presented = none) :
    (openSession sec arrival).Follows (ledgerRule serving) ledger fun _ _ => True := by
  have enrolls : (do
      let nodeId ← runEnrollment sec arrival.websocket arrival.remote
      return some nodeId : Task (Option String)).Follows (ledgerRule serving) ledger fun _ _ => True := by
    have runs : (runEnrollment sec arrival.websocket arrival.remote).Follows (ledgerRule serving) ledger
        fun _ _ => True := by
      apply Tokenless.first (tokenless_recvTyped _ _) _ fun _ => trivial
      intro req
      dsimp only
      split
      · trivial
      · split
        · exact runReconnect_follows _ _ _ _ _ fresh
        · exact runJoin_follows _ _ _ _ _ fresh
    apply Prog.Follows.bind runs
    · exact fun _ _ _ => trivial
    · exact fun _ _ _ => trivial
  unfold openSession
  split
  · exact (Tokenless.bind (.perform rfl) fun _ => .bind (.perform rfl) fun _ => .pure).ends
  · apply Tokenless.first (.perform rfl) _ fun _ => trivial
    intro _
    split
    · trivial
    · apply Prog.Follows.attempt enrolls
      · exact fun _ _ _ => trivial
      · intro error ledger' _
        have closes : ∀ code reason, Tokenless (do
            close arrival.websocket code reason
            pure none : Task (Option String)) := fun _ _ => .bind (tokenless_close _ _ _) fun _ => .pure
        split
        · trivial
        · exact (closes _ _).ends
        · exact (closes _ _).ends
        · split
          · exact (closes _ _).ends
          · trivial

end

def Ledger.start : Ledger := ⟨none,none,none,none⟩

theorem workerJoinHandler_lawful (arrival : Arrival) (messages : Nat) :
    (workerJoinHandler sec arrival messages).Follows (ledgerRule true) .start fun _ _ => True := by
  apply Prog.Follows.bind (openSession_follows arrival rfl)
  · intro entered ledger _
    cases entered with
    | none => trivial
    | some nodeId =>
      have serves : Lawful (closingOnError arrival.websocket ()
          (runOperational sec arrival.websocket nodeId messages)) := by
        apply Lawful.attempt (lawful_runOperational _ _ _)
        intro error
        split
        · exact Tokenless.pure.lawful
        · exact (Tokenless.bind (tokenless_close _ _ _) fun _ => .pure).lawful
        · exact (Tokenless.bind (tokenless_close _ _ _) fun _ => .pure).lawful
        · split
          · exact (Tokenless.bind (tokenless_close _ _ _) fun _ => .pure).lawful
          · exact Tokenless.throw.lawful
      apply Prog.Follows.ensure (serves ledger)
      intro result ledger' _
      apply ((tokenless_endSession nodeId).lawful ledger').mono
      intro cleaned _ _
      cases cleaned <;> trivial
  · exact fun _ _ _ => trivial

/-- Every operation keeps to the protocol of tokens. -/
theorem operation_lawful (operation : Operation) :
    (operation.program sec).Follows (ledgerRule true) .start fun _ _ => True := by
  have others : ∀ {α : Type} {program : Task α}, Other true program →
      program.Follows (ledgerRule true) .start fun _ _ => True := by
    intro α program stays
    have kept : program.Stays (ledgerRule true) .start := by
      apply Prog.Stays.transfer (stays .start)
      intro act reply m allowed
      unfold otherRule at allowed
      split at allowed
      · contradiction
      · rename_i free
        refine ⟨(Option.some.inj allowed).symm,?_⟩
        cases act with
        | enroll | reissue | rotate | selectJoinToken | generateWorkerToken | sendText =>
          simp [Act.sessional] at free
        | deleteNode | consumeTokens | insertJoinToken => rfl
        | _ => exact ledgerRule_tokenless rfl true reply _
    exact kept.mono fun _ _ _ => trivial
  cases operation with
  | session arrival messages => exact workerJoinHandler_lawful arrival messages
  | monitor lost stale => exact others (other_checkHeartbeats lost stale)
  | sendIntent nodeId intent timeout maxAge =>
    exact others fun m => .bind (other_sendIntent _ _ _ _ _ m) fun _ => .pure
  | cleanup => exact others fun m => .perform fun _ => rfl
  | setDisabled nodeId disabled byUser => exact others (other_setDisabled nodeId disabled byUser)
  | deleteNode nodeId deletedBy =>
    exact others fun m => .bind (other_deleteNode nodeId deletedBy m) fun _ => .pure
  | generateJoinToken byUser name group ipPrefix =>
    exact others fun m => .bind (other_generateJoinToken byUser name group ipPrefix m) fun _ => .pure
  | regenerateJoinToken nodeId byUser =>
    exact others fun m => .bind (other_regenerateJoinToken nodeId byUser m) fun _ => .pure

end Vigile.Workers
