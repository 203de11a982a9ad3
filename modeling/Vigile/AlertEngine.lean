import Vigile.Interleaving
import Vigile.OrderedMap
import Vigile.Python
import Mathlib.Data.Rat.Init

/-! The alert engine. A `transaction` block with the memory update that follows it is one
action; what lies between the acquisition and the release of `_lock` is not. Snapshots are read
after their derived metrics were added, and numbers are rationals. -/
namespace Vigile.Alerts

open Interleaving Python

inductive Severity where
  | warning
  | critical
  deriving DecidableEq

def Severity.rank : Severity → Nat
  | .warning => 1
  | .critical => 2

inductive Operator where
  | gt
  | lt
  | gte
  | lte
  deriving DecidableEq

structure AlertThreshold where
  name : String
  metric : String
  warningAt : Option ℚ
  criticalAt : Option ℚ
  resolveAt : Option ℚ
  operator : Operator

namespace AlertThreshold

def cmp (t : AlertThreshold) (value threshold : ℚ) : Bool :=
  match t.operator with
  | .gt => threshold < value
  | .lt => value < threshold
  | .gte => threshold ≤ value
  | .lte => value ≤ threshold

def check (t : AlertThreshold) (value : ℚ) : Option (Severity × ℚ) :=
  match t.criticalAt.filter (t.cmp value),t.warningAt.filter (t.cmp value) with
  | some threshold,_ => some (.critical,threshold)
  | none,some threshold => some (.warning,threshold)
  | none,none => none

def isResolved (t : AlertThreshold) (value : ℚ) : Bool :=
  match t.resolveAt with
  | none => false
  | some bound =>
    match t.operator with
    | .gt => value ≤ bound
    | .lt => bound ≤ value
    | .gte | .lte => false

end AlertThreshold

structure Row where
  node : String
  name : String
  severity : Severity
  firing : Bool
  metricValue : Option ℚ
  threshold : Option ℚ
  createdAt : ℚ
  resolvedAt : Option ℚ

/-- The node and the name of an alert. -/
abbrev Key := String × String

def Row.key (row : Row) : Key := (row.node,row.name)

structure Active where
  id : Nat
  severity : Severity
  createdAt : ℚ

abbrev Snapshot := OrderedMap String ℚ

structure Memory where
  active : OrderedMap Key Active
  lastSnapshot : OrderedMap String Snapshot
  intentFailures : OrderedMap String (List (ℚ × Bool))
  reconnectCounts : OrderedMap String (List ℚ)
  rateLimiter : OrderedMap Key (List ℚ)

def Memory.empty : Memory := ⟨.empty,.empty,.empty,.empty,.empty⟩

structure State where
  nodes : List String
  alerts : OrderedMap Nat Row
  issued : Nat
  memory : Memory
  locked : Bool
  epoch : Nat

inductive Op where
  | acquire
  | release
  /-- The severity of the alert in memory. -/
  | look (key : Key)
  | insert (key : Key) (severity : Severity) (metricValue threshold : Option ℚ)
  | resolve (key : Key)
  | underLimit (key : Key)
  | previous (node : String)
  | remember (node : String) (snapshot : Snapshot)
  | recordIntent (node : String) (success : Bool)
  | reconnect (node : String)
  | deleteOrphans
  | selectNodes
  | forget (valid : List String)
  | deleteOld
  | acknowledge (id : Nat)
  | addNode (node : String)
  | deleteNode (node : String)

inductive Action where
  | op (epoch : Nat) (op : Op)
  | restart

abbrev Reply : Action → Type
  | .op _ (.look _) => Option Severity
  | .op _ (.underLimit _) => Bool
  | .op _ (.previous _) => Option Snapshot
  | .op _ (.recordIntent _ _) => Nat × Nat
  | .op _ (.reconnect _) => Nat
  | .op _ .selectNodes => List String
  | .op _ .deleteOrphans | .op _ .deleteOld | .op _ (.acknowledge _) | .restart => Nat
  | .op _ _ => Unit

abbrev Task (α : Type) := Prog Action Reply PyError α

structure Choice where
  fault : Fault
  now : ℚ

/-- The alerts that are read back at a start; a later row takes the place of an earlier one. -/
def restored (alerts : OrderedMap Nat Row) : OrderedMap Key Active :=
  alerts.entries.foldl (fun active entry =>
    if entry.2.firing then active.set entry.2.key ⟨entry.1,entry.2.severity,entry.2.createdAt⟩ else active) .empty

def recent (now window : ℚ) (times : List ℚ) : List ℚ := times.filter fun t => now - t < window

def State.withMemory (s : State) (change : Memory → Memory) : State := {s with memory := change s.memory}

def State.dropAlerts (s : State) (drop : Row → Bool) : State × Nat :=
  ({s with alerts := s.alerts.filter fun _ row => !drop row},(s.alerts.filter fun _ row => drop row).entries.length)

def State.markResolved (s : State) (id : Nat) (now : ℚ) : State :=
  {s with alerts := s.alerts.modify fun key row =>
    if key = id ∧ row.firing = true then {row with firing := false,resolvedAt := some now} else row}

/-- What an operation does; the rows of a node go with it (`ON DELETE CASCADE`). -/
def answer (epoch : Nat) (now : ℚ) (s : State) : (op : Op) → State × Except PyError (Reply (.op epoch op))
  | .acquire => ({s with locked := true},.ok ())
  | .release => ({s with locked := false},.ok ())
  | .look key => (s,.ok ((s.memory.active.get? key).map Active.severity))
  | .insert key severity metricValue threshold =>
    if key.1 ∈ s.nodes then
      ({s with
        alerts := s.alerts.set s.issued ⟨key.1,key.2,severity,true,metricValue,threshold,now,none⟩
        issued := s.issued + 1
        memory := {s.memory with active := s.memory.active.set key ⟨s.issued,severity,now⟩}},.ok ())
    else (s,.error (.integrityError "FOREIGN KEY constraint failed"))
  | .resolve key =>
    match s.memory.active.get? key with
    | none => (s,.ok ())
    | some current =>
      ((s.markResolved current.id now).withMemory fun memory => {memory with active := memory.active.erase key},.ok ())
  | .underLimit key =>
    let times := recent now 60 ((s.memory.rateLimiter.get? key).getD [])
    if 10 ≤ times.length then
      (s.withMemory fun memory => {memory with rateLimiter := memory.rateLimiter.set key times},.ok false)
    else (s.withMemory fun memory => {memory with rateLimiter := memory.rateLimiter.set key (times ++ [now])},.ok true)
  | .previous node => (s,.ok (s.memory.lastSnapshot.get? node))
  | .remember node snapshot =>
    (s.withMemory fun memory => {memory with lastSnapshot := memory.lastSnapshot.set node snapshot},.ok ())
  | .recordIntent node success =>
    let results := (((s.memory.intentFailures.get? node).getD []) ++ [(now,success)]).filter fun entry => now - 3600 < entry.1
    (s.withMemory fun memory => {memory with intentFailures := memory.intentFailures.set node results},
      .ok (results.countP fun entry => !entry.2,results.length))
  | .reconnect node =>
    let times := (((s.memory.reconnectCounts.get? node).getD []) ++ [now]).filter fun t => now - 3600 < t
    (s.withMemory fun memory => {memory with reconnectCounts := memory.reconnectCounts.set node times},.ok times.length)
  | .deleteOrphans =>
    let (after,deleted) := s.dropAlerts fun row => row.node ∉ s.nodes
    (after,.ok deleted)
  | .selectNodes => (s,.ok s.nodes)
  | .forget valid =>
    (s.withMemory fun memory =>
      {memory with
        active := memory.active.filter fun key _ => key.1 ∈ valid
        lastSnapshot := memory.lastSnapshot.filter fun node _ => node ∈ valid
        intentFailures := memory.intentFailures.filter fun node _ => node ∈ valid
        reconnectCounts := memory.reconnectCounts.filter fun node _ => node ∈ valid
        rateLimiter := memory.rateLimiter.filter fun key _ => key.1 ∈ valid},.ok ())
  | .deleteOld =>
    let (after,deleted) := s.dropAlerts fun row => !row.firing && row.resolvedAt.any (· < now - 604800)
    (after,.ok deleted)
  | .acknowledge id =>
    (s.markResolved id now,.ok (if (s.alerts.get? id).any Row.firing then 1 else 0))
  | .addNode node => ({s with nodes := node :: s.nodes},.ok ())
  | .deleteNode node =>
    ({s with nodes := s.nodes.filter (· ≠ node),alerts := s.alerts.filter fun _ row => row.node ≠ node},.ok ())

/-- A new run of the master: nobody has the lock and nothing is known. -/
def State.fresh (s : State) : State := {s with memory := .empty,locked := false,epoch := s.epoch + 1}

/-- What belongs to an earlier run does not happen any more; the lock is waited for. -/
def exec (action : Action) (choice : Choice) (s : State) : Option (State × Except PyError (Reply action)) :=
  match action with
  | .op epoch op =>
    if epoch = s.epoch then
      match op with
      | .acquire => if s.locked then none else some (choice.fault.strike s (answer epoch choice.now s .acquire))
      | op => some (choice.fault.strike s (answer epoch choice.now s op))
    else none
  | .restart =>
    let active := restored s.alerts
    some (choice.fault.strike s.fresh
      (s.fresh.withMemory fun memory => {memory with active := active},.ok active.entries.length))

def perform (epoch : Nat) (op : Op) : Task (Reply (.op epoch op)) := Prog.perform (Action.op epoch op)

/-- `except Exception: logger.error(...); return` -/
def swallow (program : Task Unit) : Task Unit :=
  tryCatch program fun error => if error.isException then pure () else throw error

def locking (epoch : Nat) (body : Task Unit) : Task Unit := do
  perform epoch .acquire
  Prog.ensure body (perform epoch .release)

def fireAlert (epoch : Nat) (key : Key) (severity : Severity) (metricValue threshold : Option ℚ) : Task Unit := do
  if ← perform epoch (.underLimit key) then
    swallow (perform epoch (.insert key severity metricValue threshold))

def resolveAlert (epoch : Nat) (key : Key) : Task Unit := swallow (perform epoch (.resolve key))

def evaluateThreshold (epoch : Nat) (node : String) (t : AlertThreshold) (value : ℚ) : Task Unit := do
  let current ← perform epoch (.look (node,t.name))
  match t.check value,current with
  | some (severity,threshold),none => fireAlert epoch (node,t.name) severity (some value) (some threshold)
  | some (severity,threshold),some firing =>
    if severity.rank ≤ firing.rank then pure ()
    else do
      resolveAlert epoch (node,t.name)
      fireAlert epoch (node,t.name) severity (some value) (some threshold)
  | none,some _ => if t.isResolved value then resolveAlert epoch (node,t.name) else pure ()
  | none,none => pure ()

def evaluateThresholds (epoch : Nat) (node : String) (snapshot : Snapshot) : List AlertThreshold → Task Unit
  | [] => pure ()
  | t :: rest => do
    match snapshot.get? t.metric with
    | none => pure ()
    | some value => evaluateThreshold epoch node t value
    evaluateThresholds epoch node snapshot rest

def fireUnlessActive (epoch : Nat) (key : Key) (severity : Severity) (metricValue threshold : Option ℚ) : Task Unit := do
  match ← perform epoch (.look key) with
  | none => fireAlert epoch key severity metricValue threshold
  | some _ => pure ()

def resolveIfActive (epoch : Nat) (key : Key) : Task Unit := do
  match ← perform epoch (.look key) with
  | none => pure ()
  | some _ => resolveAlert epoch key

def detectReboot (epoch : Nat) (node : String) (snapshot : Snapshot) : Task Unit := do
  match snapshot.get? "uptime_seconds" with
  | none => pure ()
  | some uptime =>
    let previous ← perform epoch (.previous node)
    match previous.bind (·.get? "uptime_seconds") with
    | none => pure ()
    | some before =>
      if uptime < before - 5 then fireUnlessActive epoch (node,"node_reboot_detected") .warning (some uptime) none
      else resolveIfActive epoch (node,"node_reboot_detected")

def evaluateMetrics (thresholds : List AlertThreshold) (epoch : Nat) (node : String) (snapshot : Snapshot) : Task Unit :=
  locking epoch do
    detectReboot epoch node snapshot
    perform epoch (.remember node snapshot)
    evaluateThresholds epoch node snapshot thresholds

inductive NodeState where
  | lost
  | stale
  | connected
  | other
  deriving DecidableEq

def evaluateNodeState (epoch : Nat) (node : String) (state : NodeState) : Task Unit :=
  locking epoch do
    match state with
    | .lost => fireUnlessActive epoch (node,"node_state_lost") .critical none none
    | .stale => fireUnlessActive epoch (node,"node_state_stale") .critical none none
    | .connected => do
      resolveIfActive epoch (node,"node_state_lost")
      resolveIfActive epoch (node,"node_state_stale")
      let count ← perform epoch (.reconnect node)
      if 5 ≤ count then fireUnlessActive epoch (node,"node_connection_flap") .warning none none
      else resolveIfActive epoch (node,"node_connection_flap")
    | .other => pure ()

def trackIntentResult (epoch : Nat) (node : String) (success : Bool) : Task Unit :=
  locking epoch do
    let (failed,total) ← perform epoch (.recordIntent node success)
    if total = 0 then pure ()
    else if (1 : ℚ) / 5 < (failed : ℚ) / total ∧ 5 ≤ total then
      fireUnlessActive epoch (node,"intent_failed_rate") .warning (some ((failed : ℚ) / total)) (some (1 / 5))
    else resolveIfActive epoch (node,"intent_failed_rate")

/-- Whether the orphans were deleted, then what is left of them in memory. -/
def cleanupOrphanedAlerts (epoch : Nat) : Task Unit := do
  let deleted ← tryCatch (do
      let _ ← perform epoch .deleteOrphans
      pure true)
    fun error => if error.isException then pure false else throw error
  if deleted then
    locking epoch do
      let valid ← tryCatch (perform epoch .selectNodes) fun error => if error.isException then pure [] else throw error
      perform epoch (.forget valid)

inductive Client where
  | evaluateMetrics (epoch : Nat) (node : String) (snapshot : Snapshot)
  | evaluateNodeState (epoch : Nat) (node : String) (state : NodeState)
  | trackIntentResult (epoch : Nat) (node : String) (success : Bool)
  | cleanupOrphanedAlerts (epoch : Nat)
  | cleanupOldAlerts (epoch : Nat)
  | acknowledgeAlert (epoch id : Nat)
  | addNode (epoch : Nat) (node : String)
  | deleteNode (epoch : Nat) (node : String)
  | startup

def Client.program (thresholds : List AlertThreshold) : Client → Task Unit
  | .evaluateMetrics epoch node snapshot => Alerts.evaluateMetrics thresholds epoch node snapshot
  | .evaluateNodeState epoch node state => Alerts.evaluateNodeState epoch node state
  | .trackIntentResult epoch node success => Alerts.trackIntentResult epoch node success
  | .cleanupOrphanedAlerts epoch => Alerts.cleanupOrphanedAlerts epoch
  | .cleanupOldAlerts epoch => swallow do
    let _ ← perform epoch .deleteOld
    pure ()
  | .acknowledgeAlert epoch id => do
    let changed ← perform epoch (.acknowledge id)
    if changed = 0 then throw (.httpException 404 "Alert not found or already resolved")
  | .addNode epoch node => perform epoch (.addNode node)
  | .deleteNode epoch node => perform epoch (.deleteNode node)
  | .startup => swallow do
    let _ ← Prog.perform Action.restart
    pure ()

def start {τ : Type} (thresholds : List AlertThreshold) (clients : τ → Client) : Config τ State Action Reply PyError Unit :=
  ⟨⟨[],.empty,0,.empty,false,0⟩,fun task => (clients task).program thresholds⟩

abbrev Step (τ : Type) := Transition τ Choice State Action Reply PyError

end Vigile.Alerts
