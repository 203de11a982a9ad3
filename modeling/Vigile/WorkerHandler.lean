import Vigile.NodeManager
import Vigile.NodeState

/-! The WebSocket sessions of the workers, the heartbeat monitor and `set_disabled` as
sequences of atomic steps. Every statement with its commit is one step, and so is every
transaction. -/
namespace Vigile.Workers

open Interleaving Python NodeManager

/-- What the handler uses of the settings and of the `SecurityManager`. -/
structure Security where
  enforceHttps : Bool
  heartbeatInterval : ℚ
  decodeJoinToken : Json → ℚ → Except PyError JoinPayload
  /-- The subject of a WORKER_TOKEN. -/
  verifyWorkerToken : Json → ℚ → Except PyError String
  tokenHash : Json → String
  verifySignature : String → String → String → Bool
  workerTokenTtl : ℚ
  workerTokenRotation : ℚ
  joinTokenTtl : ℚ
  masterPublicKey : String
  /-- `str` of a JSON value. -/
  jsonText : Json → String
  floatText : ℚ → String

structure Enrollment where
  tokenHash : String
  payload : JoinPayload
  first : Bool
  name : Json
  fingerprint : Fingerprint
  publicKey : Json
  remote : Option String
  now : ℚ
  issued : IssuedToken

inductive Act where
  | nm (act : NodeManager.Act)
  | clock
  | uuid
  | challenge
  | verifySignature (publicKey : Json) (challenge : String) (signature : Json)
  | readFingerprint (fingerprint : Json)
  | generateWorkerToken (nodeId : String)
  | generateJoinToken
  | heartbeatAge (conn : ActiveConnection)
  | accept (websocket : Socket)
  | receive (websocket : Socket) (timeout : ℚ)
  | sendText (websocket : Socket) (data : Fields)
  | closeSocket (websocket : Socket) (code : Nat) (reason : String)
  | logAction (entry : AuditEntry)
  | publish (nodeId : String) (fromState newState : NodeState) (ts : ℚ)
  | publishDeleted (nodeId : String) (previousState : NodeState) (ts : ℚ)
  | statusReport (nodeId : String) (msg : Fields)
  | selectJoinToken (tokenHash nodeId : String)
  | selectRevoked (tokenHash : String)
  | selectState (nodeId : String)
  | selectKey (nodeId : String)
  | selectFlag (nodeId : String)
  | selectNode (nodeId : String)
  | selectUnconsumed (nodeId : String)
  | selectRotation (nodeId : String)
  | selectDispatchId (intentId : String)
  | countReconnections (nodeId : String)
  | selectLost
  /-- The state it leaves is not part of the statement, only of the history. -/
  | updateState (nodeId : String) (fromState newState : NodeState) (now : ℚ) (contact : Option Contact)
  | updateFlag (nodeId : String) (disabled : Bool) (now : ℚ)
  | updateVersion (nodeId : String) (version : Json) (now : ℚ)
  | enroll (enrollment : Enrollment)
  | reissue (nodeId : String) (fingerprint : Fingerprint) (remote : Option String) (oldHash : String)
      (now : ℚ) (issued : IssuedToken)
  | rotate (nodeId oldHash : String) (now : ℚ) (issued : IssuedToken)
  | deleteNode (nodeId : String) (entry : AuditEntry)
  | consumeTokens (hashes : List String) (now : ℚ)
  | insertJoinToken (tokenHash nodeId : String) (expiresAt : ℚ)
  | goOn

abbrev Act.Reply : Act → Type
  | .nm act => act.Reply
  | .clock | .heartbeatAge _ => ℚ
  | .uuid | .challenge => String
  | .verifySignature _ _ _ => Bool
  | .readFingerprint _ => Fingerprint
  | .generateWorkerToken _ => IssuedToken
  | .generateJoinToken => String × ℚ
  -- no value where the text is not JSON
  | .receive _ _ => Option Json
  | .selectJoinToken _ _ => Option JoinToken
  | .selectRevoked _ => Option Bool
  | .selectState _ => Option NodeState
  | .selectKey _ => Option (NodeState × Json)
  | .selectFlag _ => Option (NodeState × Bool)
  | .selectNode _ => Option NodeRow
  | .selectUnconsumed _ => List String
  | .selectRotation _ => Option (String × ℚ)
  | .selectDispatchId _ => Option (Option String)
  | .countReconnections _ => Nat
  | .selectLost => List (String × ℚ)
  | .accept _ | .sendText _ _ | .closeSocket _ _ _ | .logAction _ | .publish _ _ _ _
  | .publishDeleted _ _ _ | .statusReport _ _ | .updateState _ _ _ _ _ | .updateFlag _ _ _
  | .updateVersion _ _ _ | .enroll _ | .reissue _ _ _ _ _ _ | .rotate _ _ _ _ | .deleteNode _ _
  | .consumeTokens _ _ | .insertJoinToken _ _ _ | .goOn => Unit

abbrev Task (α : Type) := Prog Act Act.Reply PyError α

structure State where
  nodes : OrderedMap String NodeRow
  joinTokens : OrderedMap String JoinToken
  workerTokens : OrderedMap String WorkerToken
  nm : NodeManager

def State.stateOf (s : State) (nodeId : String) : Option NodeState :=
  (s.nodes.get? nodeId).map NodeRow.state

def State.isDisabled (s : State) (nodeId : String) : Bool :=
  ((s.nodes.get? nodeId).map NodeRow.disabled).getD false

/-- What the outside supplies: how a step fails, the time, a fresh text, the message a
worker sends, and the answers of what is not modelled. -/
structure Outside where
  fault : Fault
  now : ℚ
  expired : Bool
  fresh : String
  message : Option Json
  /-- When an object that has left the registry was last touched. -/
  touched : ℚ
  count : Nat
  dispatchId : Option (Option String)

def calm : Outside := ⟨.none,0,false,"",none,0,0,none⟩

variable (sec : Security)

def lastTouch (nm : NodeManager) (conn : ActiveConnection) (touched : ℚ) : ℚ :=
  match nm.connections.get? conn.nodeId with
  | some current =>
    if current.websocket = conn.websocket then current.lastHeartbeat
    else if conn.lastHeartbeat ≤ touched then touched else conn.lastHeartbeat
  | none => if conn.lastHeartbeat ≤ touched then touched else conn.lastHeartbeat

def newestToken (tokens : OrderedMap String WorkerToken) (nodeId : String) : Option (String × ℚ) :=
  let current := tokens.entries.filter fun entry => entry.2.nodeId = nodeId ∧ entry.2.revoked = false
  ((current.mergeSort fun a b => b.2.issuedAt ≤ a.2.issuedAt).head?).map fun entry =>
    (entry.1,entry.2.rotationDue)

def enrollNode (nodes : OrderedMap String NodeRow) (e : Enrollment) :
    Except PyError (OrderedMap String NodeRow) :=
  if !(e.fingerprint.bindable && bindable e.publicKey) then .error bindingError
  else if e.first then
    if (nodes.get? e.payload.nodeId).isSome then
      .error (.integrityError "UNIQUE constraint failed: nodes.id")
    else if isNull e.name then .error (.integrityError "NOT NULL constraint failed: nodes.name")
    else .ok (nodes.set e.payload.nodeId
      (.enrolled e.payload e.name e.fingerprint e.publicKey e.remote e.now))
  else .ok (updateNode nodes e.payload.nodeId
    (·.reenrolled e.fingerprint e.publicKey e.remote e.now))

def consume (tokens : OrderedMap String JoinToken) (tokenHash : String) : OrderedMap String JoinToken :=
  tokens.modify fun hash token => if hash = tokenHash then {token with consumed := true} else token

def enrollRows (s : State) (e : Enrollment) : Except PyError State :=
  if ((s.joinTokens.get? e.tokenHash).filter fun token => !token.consumed).isNone then
    .error (.enrollmentError 4401 "Token already consumed")
  else
    match enrollNode s.nodes e with
    | .error error => .error error
    | .ok nodes =>
      match insertToken nodes s.workerTokens e.payload.nodeId e.issued with
      | .error error => .error error
      | .ok workerTokens => .ok {s with
          nodes := nodes
          workerTokens := workerTokens
          joinTokens := consume s.joinTokens e.tokenHash}

/-- The rows a reconnection writes, all or none. -/
def reissueRows (s : State) (nodeId : String) (fingerprint : Fingerprint) (remote : Option String)
    (oldHash : String) (now : ℚ) (issued : IssuedToken) : Except PyError State :=
  if !fingerprint.bindable then .error bindingError
  else
    let nodes := updateNode s.nodes nodeId (·.refreshed fingerprint remote now)
    match insertToken nodes (revokeToken s.workerTokens oldHash now) nodeId issued with
    | .error error => .error error
    | .ok workerTokens => .ok {s with nodes := nodes,workerTokens := workerTokens}

def rotateRows (s : State) (nodeId oldHash : String) (now : ℚ) (issued : IssuedToken) :
    Except PyError State :=
  match insertToken s.nodes (revokeToken s.workerTokens oldHash now) nodeId issued with
  | .error error => .error error
  | .ok workerTokens => .ok {s with workerTokens := workerTokens}

/-- The tokens of a worker go with the row of its node, its join tokens do not. -/
def deleteRows (s : State) (nodeId : String) : State :=
  {s with
    nodes := s.nodes.erase nodeId
    workerTokens := s.workerTokens.filter fun _ token => token.nodeId ≠ nodeId}

/-- A transaction either has its whole effect or fails without any. -/
def transaction (s : State) : Except PyError State → State × Except PyError Unit
  | .ok s' => (s',.ok ())
  | .error error => (s,.error error)

/-- What every step does undisturbed, the waits apart. -/
def effect (s : State) (outside : Outside) : (act : Act) → State × Except PyError act.Reply
  | .nm act =>
    let done := NodeManager.effect s.nm outside.now act
    ({s with nm := done.1},done.2)
  | .clock => (s,.ok outside.now)
  | .uuid | .challenge => (s,.ok outside.fresh)
  | .verifySignature publicKey challenge signature =>
    (s,.ok (match publicKey,signature with
      | .str key,.str signature => sec.verifySignature key challenge signature
      | _,_ => false))
  | .readFingerprint fingerprint => (s,Fingerprint.read fingerprint)
  | .generateWorkerToken _ =>
    (s,.ok ⟨outside.fresh,outside.fresh,sec.tokenHash (.str outside.fresh),outside.now,
      outside.now + sec.workerTokenRotation,outside.now + sec.workerTokenTtl⟩)
  | .generateJoinToken => (s,.ok (outside.fresh,outside.now.floor + sec.joinTokenTtl))
  | .heartbeatAge conn => (s,.ok (outside.now - lastTouch s.nm conn outside.touched))
  | .receive _ _ => (s,.ok outside.message)
  | .selectJoinToken tokenHash nodeId =>
    (s,.ok ((s.joinTokens.get? tokenHash).filter fun token => token.nodeId = nodeId))
  | .selectRevoked tokenHash => (s,.ok ((s.workerTokens.get? tokenHash).map WorkerToken.revoked))
  | .selectState nodeId => (s,.ok (s.stateOf nodeId))
  | .selectKey nodeId => (s,.ok ((s.nodes.get? nodeId).map fun row => (row.state,row.publicKey)))
  | .selectFlag nodeId => (s,.ok ((s.nodes.get? nodeId).map fun row => (row.state,row.disabled)))
  | .selectNode nodeId => (s,.ok (s.nodes.get? nodeId))
  | .selectUnconsumed nodeId =>
    (s,.ok (s.joinTokens.entries.filterMap fun entry =>
      if entry.2.nodeId = nodeId ∧ entry.2.consumed = false then some entry.1 else none))
  | .selectRotation nodeId => (s,.ok (newestToken s.workerTokens nodeId))
  | .selectDispatchId _ => (s,.ok outside.dispatchId)
  | .countReconnections _ => (s,.ok outside.count)
  | .selectLost =>
    (s,.ok (s.nodes.entries.filterMap fun entry =>
      if entry.2.state = .lost then entry.2.lastHeartbeat.map fun at_ => (entry.1,at_) else none))
  | .updateState nodeId _ newState now contact =>
    ({s with nodes := updateNode s.nodes nodeId (·.moved newState now contact)},.ok ())
  | .updateFlag nodeId disabled now =>
    ({s with nodes := updateNode s.nodes nodeId fun row =>
      {row with disabled := disabled,updatedAt := now}},.ok ())
  | .updateVersion nodeId version now =>
    if bindable version then
      ({s with nodes := updateNode s.nodes nodeId fun row =>
        {row with workerVersion := version,updatedAt := now}},.ok ())
    else (s,.error bindingError)
  | .enroll enrollment => transaction s (enrollRows s enrollment)
  | .reissue nodeId fingerprint remote oldHash now issued =>
    transaction s (reissueRows s nodeId fingerprint remote oldHash now issued)
  | .rotate nodeId oldHash now issued => transaction s (rotateRows s nodeId oldHash now issued)
  | .deleteNode nodeId _ => (deleteRows s nodeId,.ok ())
  | .consumeTokens hashes now =>
    ({s with joinTokens := s.joinTokens.modify fun hash token =>
      if hash ∈ hashes then {token with consumed := true,expiresAt := now} else token},.ok ())
  | .insertJoinToken tokenHash nodeId expiresAt =>
    if (s.joinTokens.get? tokenHash).isSome then
      (s,.error (.integrityError "UNIQUE constraint failed: join_tokens.token_hash"))
    else ({s with joinTokens := s.joinTokens.set tokenHash ⟨nodeId,false,expiresAt⟩},.ok ())
  | .accept _ | .sendText _ _ | .closeSocket _ _ _ | .logAction _ | .publish _ _ _ _
  | .publishDeleted _ _ _ | .statusReport _ _ | .goOn => (s,.ok ())

/-- The steps that run without awaiting: nothing disturbs them. -/
def Act.immediate : Act → Bool
  | .clock | .uuid | .challenge | .verifySignature _ _ _ | .readFingerprint _
  | .generateWorkerToken _ | .generateJoinToken | .heartbeatAge _ => true
  | _ => false

def exec (act : Act) (outside : Outside) (s : State) : Option (State × Except PyError act.Reply) :=
  match act with
  | .nm act =>
    (NodeManager.exec act ⟨outside.fault,outside.now,outside.expired⟩ s.nm).map fun done =>
      ({s with nm := done.1},done.2)
  | .goOn => none
  | act =>
    if act.immediate then some (effect sec s outside act)
    else some (outside.fault.strike s (effect sec s outside act))

abbrev nm (act : NodeManager.Act) : Task act.Reply := Prog.perform (Act.nm act)
abbrev clock : Task ℚ := Prog.perform Act.clock
abbrev uuid : Task String := Prog.perform Act.uuid
abbrev receive (websocket : Socket) (timeout : ℚ) : Task (Option Json) :=
  Prog.perform (Act.receive websocket timeout)
abbrev closeSocket (websocket : Socket) (code : Nat) (reason : String) : Task Unit :=
  Prog.perform (Act.closeSocket websocket code reason)
abbrev logAction (entry : AuditEntry) : Task Unit := Prog.perform (Act.logAction entry)
abbrev readFingerprint (fingerprint : Json) : Task Fingerprint :=
  Prog.perform (Act.readFingerprint fingerprint)
abbrev generateWorkerToken (nodeId : String) : Task IssuedToken :=
  Prog.perform (Act.generateWorkerToken nodeId)
abbrev selectState (nodeId : String) : Task (Option NodeState) :=
  Prog.perform (Act.selectState nodeId)
abbrev updateState (nodeId : String) (fromState newState : NodeState) (now : ℚ)
    (contact : Option Contact) : Task Unit :=
  Prog.perform (Act.updateState nodeId fromState newState now contact)
abbrev updateVersion (nodeId : String) (version : Json) (now : ℚ) : Task Unit :=
  Prog.perform (Act.updateVersion nodeId version now)

def enrollmentStepTimeout : ℚ := 30

def ignoringExceptions (program : Task Unit) : Task Unit := do
  try
    program
  catch error =>
    if error.isException then
      pure ()
    else
      throw error

def close (websocket : Socket) (code : Nat) (reason : String) : Task Unit :=
  ignoringExceptions (closeSocket websocket code reason)

def send (websocket : Socket) (data : Fields) (nodeId : String) : Task Unit := do
  try
    Prog.perform (Act.sendText websocket data)
  catch error =>
    match error with
    | .webSocketDisconnect _ =>
      if nodeId ≠ "" then
        nm (.unregisterConnection nodeId)
      else
        pure ()
    | error => throw error

def transitionState (nodeId : String) (newState : NodeState) (contact : Option Contact) :
    Task Unit := do
  let some current ← selectState nodeId
    | throw (.valueError s!"Node not found: {nodeId}")
  if (current,newState) ∉ validTransitions then
    throw (.valueError s!"Invalid transition {current.text} → {newState.text} for node {nodeId}")
  let now ← clock
  updateState nodeId current newState now contact
  ignoringExceptions (Prog.perform (Act.publish nodeId current newState now))

/-- `asyncio.wait_for` of the next message, with the text of its timeout. -/
def waitFor (websocket : Socket) (expected : String) : Task (Option Json) := do
  try
    receive websocket enrollmentStepTimeout
  catch error =>
    match error with
    | .timeoutError _ => throw (.timeoutError s!"Timeout waiting for {expected}")
    | error => throw error

def typed (expected : String) : Option Json → Except PyError Fields
  | none => .error (.enrollmentError 4420 "Malformed JSON")
  | some (.object msg) =>
    let given := Fields.get msg "type"
    if isText given expected then .ok msg
    else .error (.enrollmentError 4420
      s!"Expected message type '{expected}', got '{sec.jsonText given}'")
  | some _ => .error (.attributeError "object has no attribute 'get'")

def recvTyped (websocket : Socket) (expected : String) : Task Fields := do
  let raw ← waitFor websocket expected
  Prog.ofExcept (typed sec expected raw)

def refusing {α : Type} (lead : String) : Except PyError α → Except PyError α
  | .error (.valueError message) => .error (.enrollmentError 4400 (lead ++ message))
  | other => other

structure Admission where
  payload : JoinPayload
  tokenHash : String
  first : Bool

def matchesPrefix (remote : Option String) (ipPrefix : String) : Bool :=
  match remote with
  | none => false
  | some ip => ip ≠ "" && ipPrefix.toList.isPrefixOf ip.toList

/-- Step 5: no row yet, or a state from which a node may enroll again. -/
def enrollable : Option NodeState → Except PyError Bool
  | none => .ok true
  | some .revoked => .error (.enrollmentError 4403 "Node is revoked")
  | some state =>
    if state ∈ [NodeState.pending,.lost,.stale,.reconnecting] then .ok false
    else .error (.enrollmentError 4420 s!"Node is in unexpected state: {state.text}")

def admitWorker (remote : Option String) (joinToken : Json) : Task Admission := do
  if !joinToken.truthy then
    throw (.enrollmentError 4420 "Missing join_token or worker_token")
  let now ← clock
  let payload ← Prog.ofExcept (refusing "" (sec.decodeJoinToken joinToken now))
  if payload.ipPrefix ≠ "" && !matchesPrefix remote payload.ipPrefix then
    throw (.enrollmentError 4400 "IP prefix restriction violated")
  let tokenHash := sec.tokenHash joinToken
  let some token ← Prog.perform (Act.selectJoinToken tokenHash payload.nodeId)
    | throw (.enrollmentError 4400 "Token not found")
  if token.consumed then
    throw (.enrollmentError 4401 "Token already consumed")
  let now ← clock
  if token.expiresAt < now then
    throw (.enrollmentError 4402 "Token expired")
  let state ← selectState payload.nodeId
  let first ← Prog.ofExcept (enrollable state)
  return ⟨payload,tokenHash,first⟩

def challengeWorker (websocket : Socket) (nodeId : String) (publicKey : Json) : Task Unit := do
  let challenge ← Prog.perform Act.challenge
  send websocket [("type",.str "ENROLLMENT_CHALLENGE"),("challenge",.str challenge)] nodeId
  let resp ← recvTyped sec websocket "ENROLLMENT_RESPONSE"
  let signature := field resp "signature" (.str "")
  if !signature.truthy then
    throw (.enrollmentError 4420 "Missing signature in response")
  let verified ← Prog.perform (Act.verifySignature publicKey challenge signature)
  if !verified then
    throw (.enrollmentError 4410 "Signature verification failed")

/-- The address is stored only where it is known. -/
def contactAt (now : ℚ) (remote : Option String) : Contact :=
  match remote with
  | none | some "" => ⟨now,none⟩
  | some ip => ⟨now,some ip⟩

/-- The registration, and the ENROLLMENT_SUCCESS of both kinds of handshake. -/
def welcome (websocket : Socket) (remote : Option String) (nodeId token : String) : Task Unit := do
  nm (.registerConnection nodeId websocket (match remote with
    | none | some "" => "unknown"
    | some ip => ip))
  send websocket [("type",.str "ENROLLMENT_SUCCESS"),("worker_token",.str token),
    ("master_public_key",.str sec.masterPublicKey),("node_id",.str nodeId),
    ("heartbeat_interval",.num sec.heartbeatInterval)] nodeId

def commitEnrollment (admission : Admission) (remote : Option String) (publicKey : Json)
    (now : ℚ) (fingerprint : Fingerprint) : Task IssuedToken := do
  let issued ← generateWorkerToken admission.payload.nodeId
  let id ← uuid
  let issued := {issued with id := id}
  let name := (Json.str admission.payload.name).or fingerprint.hostname
  Prog.perform (Act.enroll ⟨admission.tokenHash,admission.payload,admission.first,name,fingerprint,
    publicKey,remote,now,issued⟩)
  return issued

/-- `_run_enrollment` of a worker that is not reconnecting. -/
def runJoin (websocket : Socket) (remote : Option String) (joinToken publicKey fingerprint : Json) :
    Task String := do
  let admission ← admitWorker sec remote joinToken
  let nodeId := admission.payload.nodeId
  if !admission.first then
    transitionState nodeId .enrolling none
  challengeWorker sec websocket nodeId publicKey
  let now ← clock
  let fingerprint ← readFingerprint fingerprint
  let issued ← commitEnrollment admission remote publicKey now fingerprint
  if !admission.first then
    transitionState nodeId .connected (some (contactAt now remote))
  welcome sec websocket remote nodeId issued.token
  logAction ⟨"system","NODE_ENROLLED",some nodeId,[("hostname",fingerprint.hostname),
    ("arch",fingerprint.arch),("os",fingerprint.os),("machine_id",fingerprint.machineId),
    ("remote_ip",Json.ofText remote)]⟩
  return nodeId

def verifyWorkerToken (workerToken : Json) : Task String := do
  let now ← clock
  let subject ← Prog.ofExcept (refusing "Invalid worker token: " (sec.verifyWorkerToken workerToken now))
  let revoked ← Prog.perform (Act.selectRevoked (sec.tokenHash workerToken))
  match revoked with
  | none => throw (.enrollmentError 4400 "Invalid worker token: Worker token not found in database")
  | some true => throw (.enrollmentError 4400 "Invalid worker token: Worker token has been revoked")
  | some false => return subject

def sameText : Json → Json → Bool
  | .str stored,.str given => stored = given
  | _,_ => false

/-- R2 and R3: the key is the node's, and its state is none of the refused ones. -/
def reconnectable (publicKey : Json) : Option (NodeState × Json) → Except PyError Unit
  | none => .error (.enrollmentError 4400 "Node not found for worker token")
  | some (state,stored) =>
    if !stored.truthy then
      .error (.enrollmentError 4420 "Node has no stored public key (not enrolled)")
    else if !sameText stored publicKey then
      .error (.enrollmentError 4410 "Public key mismatch — token theft detected")
    else if state = .revoked then .error (.enrollmentError 4403 "Node is revoked")
    else if state ∈ [NodeState.pending,.enrolling,.connected] then
      .error (.enrollmentError 4420 s!"Node is in unexpected state for reconnect: {state.text}")
    else .ok ()

def reconnectionCount (nodeId : String) : Task Nat := do
  try
    let count ← Prog.perform (Act.countReconnections nodeId)
    pure (count + 1)
  catch error =>
    if error.isException then
      pure 1
    else
      throw error

/-- R5. -/
def commitReconnection (nodeId : String) (remote : Option String) (workerToken : Json) (now : ℚ)
    (fingerprint : Fingerprint) : Task IssuedToken := do
  let issued ← generateWorkerToken nodeId
  let id ← uuid
  let issued := {issued with id := id}
  Prog.perform (Act.reissue nodeId fingerprint remote (sec.tokenHash workerToken) now issued)
  return issued

def runReconnect (websocket : Socket) (remote : Option String)
    (workerToken publicKey fingerprint : Json) : Task String := do
  let fingerprint := fingerprint.or (.object [])
  let nodeId ← verifyWorkerToken sec workerToken
  if nodeId = "" then
    throw (.enrollmentError 4420 "Worker token missing subject")
  let row ← Prog.perform (Act.selectKey nodeId)
  Prog.ofExcept (reconnectable publicKey row)
  transitionState nodeId .enrolling none
  let now ← clock
  let fingerprint ← readFingerprint fingerprint
  let issued ← commitReconnection sec nodeId remote workerToken now fingerprint
  transitionState nodeId .connected (some (contactAt now remote))
  welcome sec websocket remote nodeId issued.token
  let count ← reconnectionCount nodeId
  logAction ⟨"system","NODE_RECONNECTED",some nodeId,[("token_id",.str issued.id),
    ("reconnection_count",.num count),("remote_ip",Json.ofText remote)]⟩
  return nodeId

def runEnrollment (websocket : Socket) (remote : Option String) : Task String := do
  let req ← recvTyped sec websocket "ENROLLMENT_REQUEST"
  let joinToken := field req "join_token" (.str "")
  let workerToken := field req "worker_token" (.str "")
  let reconnect := field req "reconnect" (.bool false)
  let publicKey := field req "public_key" (.str "")
  let fingerprint := field req "fingerprint" (.object [])
  if !publicKey.truthy then
    throw (.enrollmentError 4420 "Missing public_key")
  if reconnect.truthy && workerToken.truthy then
    runReconnect sec websocket remote workerToken publicKey fingerprint
  else
    runJoin sec websocket remote joinToken publicKey fingerprint

/-- The rotation of a WORKER_TOKEN that is due. -/
def rotateToken (websocket : Socket) (nodeId : String) : Task Unit := do
  let token ← Prog.perform (Act.selectRotation nodeId)
  match token with
  | none => pure ()
  | some (oldHash,due) => do
    let now ← clock
    if due < now then
      let issued ← generateWorkerToken nodeId
      let id ← uuid
      let revokedAt ← clock
      Prog.perform (Act.rotate nodeId oldHash revokedAt {issued with id := id})
      send websocket [("type",.str "TOKEN_ROTATION_COMMAND"),("worker_token",.str issued.token)] nodeId

def storeVersion (nodeId : String) (msg : Fields) : Task Unit := do
  let version := Fields.get msg "version"
  if version.truthy then
    let now ← clock
    updateVersion nodeId version now

def onHeartbeat (websocket : Socket) (nodeId : String) (msg : Fields) : Task Unit := do
  nm (.touchHeartbeat nodeId)
  let ts ← clock
  send websocket [("type",.str "HEARTBEAT_ACK"),("ts",.num ts)] nodeId
  storeVersion nodeId msg
  ignoringExceptions (rotateToken websocket nodeId)

/-- A key of a dict: a text that may be there, another value that is not, or no key. -/
def intentKey : Json → Except PyError (Option String)
  | .str intentId => .ok (some intentId)
  | .array _ => .error (.otherException "unhashable type: 'list'")
  | .object _ => .error (.otherException "unhashable type: 'dict'")
  | _ => .ok none

def dispatchMatches (intentId : String) (dispatchId : Json) : Task Bool := do
  if isNull dispatchId then
    return true
  let row ← Prog.perform (Act.selectDispatchId intentId)
  return sameText (Json.ofText row.join) dispatchId

def acceptResult (nodeId intentId : String) (msg : Fields) : Task Unit := do
  nm (.resolveIntent intentId msg)
  logAction ⟨"system","INTENT_RESULT",some nodeId,[("intent_id",.str intentId),
    ("success",field msg "success" (.bool false)),("output",Fields.get msg "output"),
    ("error",Fields.get msg "error")]⟩

def onIntentResult (nodeId : String) (msg : Fields) : Task Unit := do
  let key ← Prog.ofExcept (intentKey (field msg "intent_id" (.str "?")))
  match key with
  | none => pure ()
  | some intentId => do
    let expected ← nm (.intentNode intentId)
    if expected = some nodeId then
      let genuine ← dispatchMatches intentId (Fields.get msg "dispatch_id")
      if genuine then
        acceptResult nodeId intentId msg

def onStatusReport (nodeId : String) (msg : Fields) : Task Unit := do
  Prog.perform (Act.statusReport nodeId msg)
  storeVersion nodeId msg

def onMessage (websocket : Socket) (nodeId : String) (msg : Fields) : Task Unit :=
  let type := Fields.get msg "type"
  if isText type "HEARTBEAT" then onHeartbeat websocket nodeId msg
  else if isText type "INTENT_RESULT" then onIntentResult nodeId msg
  else if isText type "STATUS_REPORT" then onStatusReport nodeId msg
  else pure ()

def nextMessage (websocket : Socket) : Task (Option (Option Json)) := do
  try
    let raw ← receive websocket (sec.heartbeatInterval * 3)
    pure (some raw)
  catch error =>
    match error with
    | .timeoutError _ => pure none
    | error => throw error

/-- One round of the loop: whether it goes on. -/
def operationalStep (websocket : Socket) (nodeId : String) : Task Bool := do
  let received ← nextMessage sec websocket
  match received with
  | none => do
    close websocket 4408 "Heartbeat timeout"
    return false
  | some none => do
    close websocket 4420 "Invalid JSON"
    return false
  | some (some (.object msg)) => do
    onMessage websocket nodeId msg
    return true
  | some (some _) => throw (.attributeError "object has no attribute 'get'")

/-- The loop, followed for any number of messages. -/
def runOperational (websocket : Socket) (nodeId : String) : Nat → Task Unit
  | 0 => Prog.perform Act.goOn
  | messages + 1 => do
    let goesOn ← operationalStep sec websocket nodeId
    if goesOn then
      runOperational websocket nodeId messages
    else
      pure ()

/-- The `finally` clause. -/
def endSession (nodeId : String) : Task Unit := do
  if nodeId ≠ "" then
    nm (.unregisterConnection nodeId)
    ignoringExceptions do
      let current ← selectState nodeId
      if current = some .connected then
        transitionState nodeId .reconnecting none
      else if current = some .enrolling then
        transitionState nodeId .pending none

/-- The `except` clauses. -/
def closingOnError {α : Type} (websocket : Socket) (otherwise : α) (program : Task α) : Task α := do
  try
    program
  catch error =>
    match error with
    | .webSocketDisconnect _ => pure otherwise
    | .timeoutError _ => do
      close websocket 4408 "Enrollment timeout"
      pure otherwise
    | .enrollmentError code detail => do
      close websocket code detail
      pure otherwise
    | error =>
      if error.isException then
        close websocket 4500 "Internal server error"
        pure otherwise
      else
        throw error

/-- How a worker connects: its socket and address, whether the transport is encrypted, and
whether the audit log counts as compromised then. -/
structure Arrival where
  websocket : Socket
  remote : Option String
  secure : Bool
  compromised : Bool

/-- Up to the end of the handshake: the node, or none where the handler returns. -/
def openSession (arrival : Arrival) : Task (Option String) := do
  if !arrival.secure && sec.enforceHttps then
    Prog.perform (Act.accept arrival.websocket)
    closeSocket arrival.websocket 4426 "WSS/TLS required"
    return none
  Prog.perform (Act.accept arrival.websocket)
  if arrival.compromised then
    throw (.enrollmentError 4433 "Security compromise detected")
  closingOnError arrival.websocket none do
    let nodeId ← runEnrollment sec arrival.websocket arrival.remote
    return some nodeId

/-- The `finally` clause ends the session only when the handshake has returned its node. -/
def workerJoinHandler (arrival : Arrival) (messages : Nat) : Task Unit := do
  let entered ← openSession sec arrival
  match entered with
  | none => pure ()
  | some nodeId =>
    (closingOnError arrival.websocket () (runOperational sec arrival.websocket nodeId messages)).ensure
      (endSession nodeId)

def checkConnection (lostThreshold : ℚ) (nodeId : String) (conn : ActiveConnection) : Task Unit := do
  let age ← Prog.perform (Act.heartbeatAge conn)
  if lostThreshold < age then
    nm (.unregisterConnection nodeId)
    ignoringExceptions do
      transitionState nodeId .lost none
      logAction ⟨"system","NODE_LOST",some nodeId,
        [("heartbeat_age",.num age),("lost_threshold",.num lostThreshold)]⟩

def checkConnections (lostThreshold : ℚ) : List (String × ActiveConnection) → Task Unit
  | [] => pure ()
  | (nodeId,conn) :: rest => do
    checkConnection lostThreshold nodeId conn
    checkConnections lostThreshold rest

def checkLost (now staleThreshold : ℚ) (nodeId : String) (lastHeartbeat : ℚ) : Task Unit := do
  let age := now - lastHeartbeat
  if staleThreshold < age then
    ignoringExceptions do
      transitionState nodeId .stale none
      logAction ⟨"system","NODE_STALE",some nodeId,
        [("heartbeat_age",.num age),("stale_threshold",.num staleThreshold)]⟩

def checkAllLost (now staleThreshold : ℚ) : List (String × ℚ) → Task Unit
  | [] => pure ()
  | (nodeId,lastHeartbeat) :: rest => do
    checkLost now staleThreshold nodeId lastHeartbeat
    checkAllLost now staleThreshold rest

def checkHeartbeats (lostThreshold staleThreshold : ℚ) : Task Unit := do
  let now ← clock
  let connected ← nm .connections
  checkConnections lostThreshold connected
  let rows ← Prog.perform Act.selectLost
  checkAllLost now staleThreshold rows

def targetState (nodeId : String) (disabled : Bool) (current : NodeState) :
    Task (Option NodeState) := do
  if disabled then
    return if current = .disabled then none else some .disabled
  else if current = .disabled then
    let isAlive ← nm (.isConnected nodeId)
    return some (if isAlive then .connected else .lost)
  else
    return none

def closeDisabled (nodeId : String) : Task Unit := do
  let conn ← nm (.popConnection nodeId)
  match conn with
  | none => pure ()
  | some conn => close conn.websocket 4429 "Node disabled by operator"

def setDisabled (nodeId : String) (disabled : Bool) (byUser : String) : Task Unit := do
  let some (current,currently) ← Prog.perform (Act.selectFlag nodeId)
    | throw (.valueError s!"Node not found: {nodeId}")
  if disabled = currently then
    return
  let now ← clock
  Prog.perform (Act.updateFlag nodeId disabled now)
  let target ← targetState nodeId disabled current
  if target.isSome ∧ target ≠ some current then
    transitionState nodeId (target.getD current) none
  if disabled then
    closeDisabled nodeId
  logAction ⟨byUser,if disabled then "DISABLE_NODE" else "ENABLE_NODE",some nodeId,
    [("from_state",.str current.value),("new_state",.str (target.getD current).value)]⟩

def deleteNode (nodeId deletedBy : String) : Task (Option NodeRow) := do
  let some row ← Prog.perform (Act.selectNode nodeId)
    | return none
  let now ← clock
  Prog.perform (Act.deleteNode nodeId ⟨deletedBy,"NODE_DELETED",some nodeId,
    [("previous_state",.str row.state.value),("previous_name",row.name),
      ("previous_hostname",row.hostname)]⟩)
  let conn ← nm (.popConnection nodeId)
  match conn with
  | none => pure ()
  | some conn => close conn.websocket 4403 "Node deleted by operator"
  ignoringExceptions (Prog.perform (Act.publishDeleted nodeId row.state now))
  return some row

/-- `generate_join_token`: the node id is new, and its row is left to the enrollment. -/
def generateJoinToken (byUser name group ipPrefix : String) : Task String := do
  let nodeId ← uuid
  let (token,expiresAt) ← Prog.perform Act.generateJoinToken
  Prog.perform (Act.insertJoinToken (sec.tokenHash (.str token)) nodeId expiresAt)
  logAction ⟨byUser,"GENERATE_JOIN_TOKEN",some nodeId,
    [("node_name",.str name),("node_group",.str group),("ip_prefix",.str ipPrefix)]⟩
  return token

def invalidateJoinTokens (nodeId : String) : Task Nat := do
  let now ← clock
  let hashes ← Prog.perform (Act.selectUnconsumed nodeId)
  if hashes.isEmpty then
    return 0
  Prog.perform (Act.consumeTokens hashes now)
  return hashes.length

def regenerateJoinToken (nodeId byUser : String) : Task String := do
  let some row ← Prog.perform (Act.selectNode nodeId)
    | throw (.httpException 404 "Node not found")
  if row.state ≠ .pending then
    throw (.httpException 409 "Node already enrolled. Cannot regenerate token.")
  let invalidated ← invalidateJoinTokens nodeId
  let (token,expiresAt) ← Prog.perform Act.generateJoinToken
  Prog.perform (Act.insertJoinToken (sec.tokenHash (.str token)) nodeId expiresAt)
  logAction ⟨byUser,"REGENERATE_JOIN_TOKEN",some nodeId,[("invalidated",.num invalidated)]⟩
  return token

inductive Operation where
  | session (arrival : Arrival) (messages : Nat)
  | monitor (lostThreshold staleThreshold : ℚ)
  | sendIntent (nodeId : String) (intent : Intent) (timeout intentMaxAge : Option ℚ)
  | cleanup
  | setDisabled (nodeId : String) (disabled : Bool) (byUser : String)
  | deleteNode (nodeId deletedBy : String)
  | generateJoinToken (byUser name group ipPrefix : String)
  | regenerateJoinToken (nodeId byUser : String)

def Operation.program : Operation → Task Unit
  | .session arrival messages => workerJoinHandler sec arrival messages
  | .monitor lostThreshold staleThreshold => checkHeartbeats lostThreshold staleThreshold
  | .sendIntent nodeId intent timeout maxAge => do
    let _ ← NodeManager.sendIntent nm sec.floatText nodeId intent timeout maxAge
  | .cleanup => nm .cleanupStaleIntents
  | .setDisabled nodeId disabled byUser => Workers.setDisabled nodeId disabled byUser
  | .deleteNode nodeId deletedBy => do let _ ← Workers.deleteNode nodeId deletedBy
  | .generateJoinToken byUser name group ipPrefix => do
    let _ ← Workers.generateJoinToken sec byUser name group ipPrefix
  | .regenerateJoinToken nodeId byUser => do
    let _ ← Workers.regenerateJoinToken sec nodeId byUser

def start {τ : Type} (s : State) (operations : τ → Operation) :
    Config τ State Act Act.Reply PyError Unit :=
  ⟨s,fun task => (operations task).program sec⟩

end Vigile.Workers
