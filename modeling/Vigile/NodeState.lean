import Vigile.OrderedMap
import Vigile.Python

/-! The states of a node with their transition table, and the rows of nodes and tokens
that the worker handler reads and writes. -/
namespace Vigile.Workers

open Python

inductive NodeState where
  | pending
  | enrolling
  | unconfigured
  | connected
  | reconnecting
  | lost
  | stale
  | disabled
  | revoked
  deriving DecidableEq

def NodeState.value : NodeState → String
  | .pending => "PENDING"
  | .enrolling => "ENROLLING"
  | .unconfigured => "UNCONFIGURED"
  | .connected => "CONNECTED"
  | .reconnecting => "RECONNECTING"
  | .lost => "LOST"
  | .stale => "STALE"
  | .disabled => "DISABLED"
  | .revoked => "REVOKED"

def NodeState.text (state : NodeState) : String := "NodeState." ++ state.value

def validTransitions : List (NodeState × NodeState) :=
  [(.pending,.enrolling),
    (.enrolling,.unconfigured),
    (.enrolling,.connected),
    (.enrolling,.pending),
    (.unconfigured,.connected),
    (.unconfigured,.disabled),
    (.connected,.lost),
    (.connected,.reconnecting),
    (.connected,.disabled),
    (.reconnecting,.connected),
    (.reconnecting,.lost),
    (.lost,.connected),
    (.lost,.stale),
    (.lost,.enrolling),
    (.stale,.connected),
    (.stale,.enrolling),
    (.reconnecting,.enrolling),
    (.disabled,.connected),
    (.disabled,.lost),
    (.disabled,.enrolling)]

instance (move : NodeState × NodeState) : Decidable (move ∈ validTransitions) := inferInstance

/-- No handshake starts from CONNECTED. -/
theorem ne_connected_of_enrolling {state : NodeState}
    (valid : (state,NodeState.enrolling) ∈ validTransitions) : state ≠ .connected := by
  rintro rfl
  revert valid
  decide

theorem ne_connected_of_stale {state : NodeState}
    (valid : (state,NodeState.stale) ∈ validTransitions) : state ≠ .connected := by
  rintro rfl
  revert valid
  decide

/-- A row of `nodes`; a column that stores what the worker sent keeps it as it was bound. -/
structure NodeRow where
  name : Json
  hostname : Json
  machineId : Json
  arch : Json
  os : Json
  publicKey : Json
  state : NodeState
  ipPrefix : String
  lastHeartbeat : Option ℚ
  enrolledAt : Option ℚ
  createdAt : ℚ
  updatedAt : ℚ
  version : Json
  workerVersion : Json
  nodeGroup : String
  disabled : Bool
  lastIp : Option String

/-- A row of `join_tokens`, whose key here is the unique hash. -/
structure JoinToken where
  nodeId : String
  consumed : Bool
  expiresAt : ℚ

/-- A row of `worker_tokens`, whose key here is the unique hash. -/
structure WorkerToken where
  id : String
  nodeId : String
  issuedAt : ℚ
  rotationDue : ℚ
  expiresAt : ℚ
  revoked : Bool
  revokedAt : Option ℚ

structure JoinPayload where
  nodeId : String
  ipPrefix : String
  name : String
  group : String

structure Fingerprint where
  hostname : Json
  machineId : Json
  arch : Json
  os : Json
  version : Json

structure IssuedToken where
  id : String
  token : String
  tokenHash : String
  issuedAt : ℚ
  rotationDue : ℚ
  expiresAt : ℚ

/-- The `extra_fields` of the transition to CONNECTED. -/
structure Contact where
  lastHeartbeat : ℚ
  /-- Written only where it is known. -/
  lastIp : Option String

def field (fields : Fields) (key : String) (default : Json) : Json :=
  (fields.lookup key).getD default

def isText (value : Json) (text : String) : Bool :=
  match value with
  | .str other => other = text
  | _ => false

def isNull : Json → Bool
  | .null => true
  | _ => false

def Fingerprint.read : Json → Except PyError Fingerprint
  | .object fields => .ok ⟨field fields "hostname" (.str ""),field fields "machine_id" (.str ""),
      field fields "arch" (.str ""),field fields "os" (.str ""),field fields "version" (.str "")⟩
  | _ => .error (.attributeError "object has no attribute 'get'")

/-- Whether SQLite can store the value. -/
def bindable : Json → Bool
  | .array _ | .object _ => false
  | _ => true

def Fingerprint.bindable (fingerprint : Fingerprint) : Bool :=
  Workers.bindable fingerprint.hostname && Workers.bindable fingerprint.machineId &&
    Workers.bindable fingerprint.arch && Workers.bindable fingerprint.os &&
    Workers.bindable fingerprint.version

def bindingError : PyError := .otherException "Error binding parameter: type is not supported"

def coalesce (given old : Json) : Json :=
  match given with
  | .null | .str "" => old
  | value => value

def NodeRow.enrolled (payload : JoinPayload) (name : Json) (fingerprint : Fingerprint)
    (publicKey : Json) (remote : Option String) (now : ℚ) : NodeRow :=
  ⟨name,fingerprint.hostname,fingerprint.machineId,fingerprint.arch,fingerprint.os,publicKey,
    .connected,payload.ipPrefix,some now,some now,now,now,fingerprint.version,fingerprint.version,
    payload.group,false,remote⟩

/-- The columns a handshake of a known node updates. -/
def NodeRow.refreshed (row : NodeRow) (fingerprint : Fingerprint) (remote : Option String)
    (now : ℚ) : NodeRow :=
  {row with
    hostname := fingerprint.hostname
    machineId := fingerprint.machineId
    arch := fingerprint.arch
    os := fingerprint.os
    version := coalesce fingerprint.version row.version
    workerVersion := coalesce fingerprint.version row.workerVersion
    lastIp := remote.orElse fun _ => row.lastIp
    updatedAt := now}

def NodeRow.reenrolled (row : NodeRow) (fingerprint : Fingerprint) (publicKey : Json)
    (remote : Option String) (now : ℚ) : NodeRow :=
  {row.refreshed fingerprint remote now with publicKey := publicKey,enrolledAt := some now}

/-- The UPDATE of `transition_state`. -/
def NodeRow.moved (row : NodeRow) (state : NodeState) (now : ℚ) : Option Contact → NodeRow
  | none => {row with state := state,updatedAt := now}
  | some contact => {row with
      state := state
      updatedAt := now
      lastHeartbeat := some contact.lastHeartbeat
      lastIp := contact.lastIp.orElse fun _ => row.lastIp}

@[simp] theorem NodeRow.moved_state (row : NodeRow) (state : NodeState) (now : ℚ)
    (contact : Option Contact) : (row.moved state now contact).state = state := by
  cases contact <;> rfl

@[simp] theorem NodeRow.moved_disabled (row : NodeRow) (state : NodeState) (now : ℚ)
    (contact : Option Contact) : (row.moved state now contact).disabled = row.disabled := by
  cases contact <;> rfl

/-- The UPDATE of one row. -/
def updateNode (nodes : OrderedMap String NodeRow) (nodeId : String) (change : NodeRow → NodeRow) :
    OrderedMap String NodeRow :=
  nodes.modify fun id row => if id = nodeId then change row else row

theorem get?_updateNode (nodes : OrderedMap String NodeRow) (nodeId id : String)
    (change : NodeRow → NodeRow) : (updateNode nodes nodeId change).get? id =
      (nodes.get? id).map fun row => if id = nodeId then change row else row :=
  OrderedMap.get?_modify _

/-- The INSERT of a token, whose id and hash are unique and whose node exists. -/
def insertToken (nodes : OrderedMap String NodeRow) (tokens : OrderedMap String WorkerToken)
    (nodeId : String) (issued : IssuedToken) : Except PyError (OrderedMap String WorkerToken) :=
  if (tokens.get? issued.tokenHash).isSome ∨ issued.id ∈ tokens.values.map WorkerToken.id then
    .error (.integrityError "UNIQUE constraint failed: worker_tokens")
  else if (nodes.get? nodeId).isNone then
    .error (.integrityError "FOREIGN KEY constraint failed")
  else
    .ok (tokens.set issued.tokenHash
      ⟨issued.id,nodeId,issued.issuedAt,issued.rotationDue,issued.expiresAt,false,none⟩)

def revokeToken (tokens : OrderedMap String WorkerToken) (tokenHash : String) (now : ℚ) :
    OrderedMap String WorkerToken :=
  tokens.modify fun hash token =>
    if hash = tokenHash then {token with revoked := true,revokedAt := some now} else token

end Vigile.Workers
