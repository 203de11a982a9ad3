import Vigile.Interleaving
import Vigile.OrderedMap
import Vigile.Python

/-! The connection registry of the `NodeManager` and its pending intents. A future is a
reference into the heap of all futures made so far. -/
namespace Vigile

open Interleaving Python

/-- A WebSocket object, by the number of its connection. -/
abbrev Socket := Nat

structure ActiveConnection where
  nodeId : String
  websocket : Socket
  connectedAt : ℚ
  lastHeartbeat : ℚ
  remoteAddress : String
  deriving DecidableEq

inductive Future where
  | pending
  | result (value : Fields)
  | cancelled

def Future.isCancelled : Future → Bool
  | .cancelled => true
  | _ => false

structure Intent where
  action : String
  params : Fields
  intentId : String
  /-- The proposal it carries out: not part of the message, only of the history. -/
  proposal : Option String

/-- The arguments of `log_action`. -/
structure AuditEntry where
  userId : String
  action : String
  nodeId : Option String
  details : Fields

structure NodeManager where
  connections : OrderedMap String ActiveConnection
  pendingIntents : OrderedMap String Nat
  intentCreatedAt : OrderedMap String ℚ
  intentNodes : OrderedMap String String
  intentMaxAge : OrderedMap String ℚ
  defaultTimeout : ℚ
  defaultIntentMaxAge : ℚ
  futures : List Future

namespace NodeManager

/-- A new process. -/
def started (defaultTimeout defaultIntentMaxAge : ℚ) : NodeManager :=
  ⟨.empty,.empty,.empty,.empty,.empty,defaultTimeout,defaultIntentMaxAge,[]⟩

def cancel (nm : NodeManager) (future : Nat) : NodeManager :=
  {nm with futures := nm.futures.modify future fun
    | .pending => .cancelled
    | done => done}

def settle (nm : NodeManager) (future : Nat) (value : Fields) : NodeManager :=
  {nm with futures := nm.futures.modify future fun
    | .pending => .result value
    | done => done}

def forget (nm : NodeManager) (intentId : String) : NodeManager :=
  {nm with
    intentNodes := nm.intentNodes.erase intentId
    intentCreatedAt := nm.intentCreatedAt.erase intentId
    pendingIntents := nm.pendingIntents.erase intentId}

def forgetMaxAge (nm : NodeManager) (intentId : String) : NodeManager :=
  {nm with intentMaxAge := nm.intentMaxAge.erase intentId}

/-- An entry is popped and its future, if any, cancelled. -/
def dropIntent (nm : NodeManager) (intentId : String) : NodeManager :=
  match nm.pendingIntents.get? intentId with
  | none => nm.forget intentId
  | some future => (nm.forget intentId).cancel future

def registerConnection (nm : NodeManager) (nodeId : String) (websocket : Socket)
    (now : ℚ) (remoteAddress : String) : NodeManager :=
  {nm with connections := nm.connections.set nodeId ⟨nodeId,websocket,now,now,remoteAddress⟩}

def intentsOf (nm : NodeManager) (nodeId : String) : List String :=
  (nm.intentNodes.entries.filter fun entry => entry.2 = nodeId).map Prod.fst

def popConnection (nm : NodeManager) (nodeId : String) : NodeManager :=
  {nm with connections := nm.connections.erase nodeId}

def unregisterConnection (nm : NodeManager) (nodeId : String) : NodeManager :=
  (nm.intentsOf nodeId).foldl dropIntent (nm.popConnection nodeId)

def isConnected (nm : NodeManager) (nodeId : String) : Bool := (nm.connections.get? nodeId).isSome

def touchHeartbeat (nm : NodeManager) (nodeId : String) (now : ℚ) : NodeManager :=
  {nm with connections := nm.connections.modify fun node conn =>
    if node = nodeId then {conn with lastHeartbeat := now} else conn}

def resolveIntent (nm : NodeManager) (intentId : String) (result : Fields) : NodeManager :=
  match nm.pendingIntents.get? intentId with
  | none => nm.forget intentId
  | some future => (nm.forget intentId).settle future result

def staleIntents (nm : NodeManager) (now : ℚ) : List String :=
  (nm.pendingIntents.entries.filter fun entry =>
    let created := (nm.intentCreatedAt.get? entry.1).getD now
    let maxAge := (nm.intentMaxAge.get? entry.1).getD nm.defaultIntentMaxAge
    match nm.futures[entry.2]? with
    | some .pending => maxAge < now - created
    | _ => true).map Prod.fst

def cleanupStaleIntents (nm : NodeManager) (now : ℚ) : NodeManager :=
  (nm.staleIntents now).foldl (fun nm intentId => (nm.dropIntent intentId).forgetMaxAge intentId) nm

/-- The section of `_send_intent` under the lock: the connection, and a new future. -/
def openIntent (nm : NodeManager) (nodeId : String) (intent : Intent) (now : ℚ)
    (intentMaxAge : Option ℚ) : Except PyError (NodeManager × Socket × Nat) :=
  match nm.connections.get? nodeId with
  | none => .error (.runtimeError s!"Node {nodeId} is not connected")
  | some conn =>
    let future := nm.futures.length
    .ok ({nm with
        futures := nm.futures ++ [.pending]
        pendingIntents := nm.pendingIntents.set intent.intentId future
        intentCreatedAt := nm.intentCreatedAt.set intent.intentId now
        intentNodes := nm.intentNodes.set intent.intentId nodeId
        intentMaxAge := match intentMaxAge with
          | none => nm.intentMaxAge
          | some age => nm.intentMaxAge.set intent.intentId age},
      conn.websocket,future)

/-- The `finally` clause of `_send_intent`. -/
def closeIntent (nm : NodeManager) (intentId : String) : NodeManager :=
  (nm.forgetMaxAge intentId).forget intentId

/-- What other code asks of the `NodeManager` in one piece. -/
inductive Act where
  | defaultTimeout
  | openIntent (nodeId : String) (intent : Intent) (intentMaxAge : Option ℚ)
  | sendIntent (websocket : Socket) (intent : Intent)
  | awaitFuture (future : Nat)
  | closeIntent (intentId : String)
  | isConnected (nodeId : String)
  | getConnection (nodeId : String)
  | registerConnection (nodeId : String) (websocket : Socket) (remoteAddress : String)
  | unregisterConnection (nodeId : String)
  | popConnection (nodeId : String)
  | touchHeartbeat (nodeId : String)
  | resolveIntent (intentId : String) (result : Fields)
  | intentNode (intentId : String)
  | connections
  | cleanupStaleIntents
  | setDefaultIntentMaxAge (value : ℚ)

abbrev Act.Reply : Act → Type
  | .defaultTimeout => ℚ
  | .openIntent _ _ _ => Socket × Nat
  | .awaitFuture _ => Fields
  | .isConnected _ => Bool
  | .getConnection _ => Option ActiveConnection
  | .popConnection _ => Option ActiveConnection
  | .intentNode _ => Option String
  | .connections => List (String × ActiveConnection)
  | .sendIntent _ _ | .closeIntent _ | .registerConnection _ _ _ | .unregisterConnection _
  | .touchHeartbeat _ | .resolveIntent _ _ | .cleanupStaleIntents | .setDefaultIntentMaxAge _ => Unit

structure Outside where
  fault : Fault
  now : ℚ
  expired : Bool
  deriving DecidableEq

/-- `await asyncio.wait_for(future, timeout)`: only a done future or the end of the
timeout lets it continue, and what ends the wait also cancels the future. -/
def awaitFuture (nm : NodeManager) (future : Nat) (outside : Outside) :
    Option (NodeManager × Except PyError Fields) :=
  match outside.fault with
  | .before error | .after error => some (nm.cancel future,.error error)
  | .none =>
    match nm.futures[future]? with
    | none => none
    | some (.result value) => some (nm,.ok value)
    | some .cancelled => some (nm,.error .cancelledError)
    | some .pending =>
      if outside.expired then some (nm.cancel future,.error (.timeoutError "")) else none

/-- What every action but the wait does undisturbed. -/
def effect (nm : NodeManager) (now : ℚ) :
    (act : Act) → NodeManager × Except PyError act.Reply
  | .defaultTimeout => (nm,.ok nm.defaultTimeout)
  | .openIntent nodeId intent maxAge =>
    match nm.openIntent nodeId intent now maxAge with
    | .error error => (nm,.error error)
    | .ok (nm',opened) => (nm',.ok opened)
  | .sendIntent _ _ => (nm,.ok ())
  | .awaitFuture _ => (nm,.ok [])
  | .closeIntent intentId => (nm.closeIntent intentId,.ok ())
  | .isConnected nodeId => (nm,.ok (nm.isConnected nodeId))
  | .getConnection nodeId => (nm,.ok (nm.connections.get? nodeId))
  | .registerConnection nodeId websocket remote =>
    (nm.registerConnection nodeId websocket now remote,.ok ())
  | .unregisterConnection nodeId => (nm.unregisterConnection nodeId,.ok ())
  | .popConnection nodeId => (nm.popConnection nodeId,.ok (nm.connections.get? nodeId))
  | .touchHeartbeat nodeId => (nm.touchHeartbeat nodeId now,.ok ())
  | .resolveIntent intentId result => (nm.resolveIntent intentId result,.ok ())
  | .intentNode intentId => (nm,.ok (nm.intentNodes.get? intentId))
  | .connections => (nm,.ok nm.connections.entries)
  | .cleanupStaleIntents => (nm.cleanupStaleIntents now,.ok ())
  | .setDefaultIntentMaxAge value => ({nm with defaultIntentMaxAge := value},.ok ())

/-- Whether an action can be cancelled or fail: those that run without awaiting cannot. -/
def Act.awaits : Act → Bool
  | .defaultTimeout | .closeIntent _ | .resolveIntent _ _ | .intentNode _ | .cleanupStaleIntents
  | .setDefaultIntentMaxAge _ => false
  | _ => true

def exec (act : Act) (outside : Outside) (nm : NodeManager) :
    Option (NodeManager × Except PyError act.Reply) :=
  match act with
  | .awaitFuture future => awaitFuture nm future outside
  | act =>
    if act.awaits then some (outside.fault.strike nm (effect nm outside.now act))
    else some (effect nm outside.now act)

section
variable {ι : Type} {ρ : ι → Type} (call : (act : Act) → Prog ι ρ PyError act.Reply)

def sendIntent (floatText : ℚ → String) (nodeId : String) (intent : Intent)
    (timeout intentMaxAge : Option ℚ) : Prog ι ρ PyError Fields := do
  let default ← call .defaultTimeout
  let limit := timeout.getD default
  let (websocket,future) ← call (.openIntent nodeId intent intentMaxAge)
  call (.sendIntent websocket intent)
  let answer : Prog ι ρ PyError Fields := do
    try
      call (.awaitFuture future)
    catch error =>
      match error with
      | .timeoutError _ =>
        throw (.timeoutError s!"Node {nodeId} did not respond to intent {intent.intentId} within {floatText limit}s")
      | error => throw error
  answer.ensure (call (.closeIntent intent.intentId))

end

end NodeManager
end Vigile
