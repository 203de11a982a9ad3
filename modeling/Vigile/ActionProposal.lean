import Vigile.DelimitedText
import Vigile.OrderedMap
import Vigile.Python

/-! Action proposals: the model and its row, the UPDATE statements on the row, and what
the API and the expiry sweep decide about a proposal without the database. -/
namespace Vigile.Proposals

open DelimitedText Python

inductive ProposalStatus where
  | pending
  | approved
  | executed
  | failed
  | rejected
  deriving DecidableEq

def ProposalStatus.text : ProposalStatus → String
  | .pending => "PENDING"
  | .approved => "APPROVED"
  | .executed => "EXECUTED"
  | .failed => "FAILED"
  | .rejected => "REJECTED"

def validStatusTransitions : ProposalStatus → List ProposalStatus
  | .pending => [.approved,.rejected]
  | .approved => [.executed,.failed]
  | .executed | .failed | .rejected => []

/-- A row of `action_proposals`, its key apart. A JSON column holds the value that
`_json_loads` reads from it, `null` where the text is not JSON. -/
structure ProposalRow where
  nodeId : String
  action : String
  paramsJson : Json
  reasoning : String
  riskLevel : String
  status : ProposalStatus
  createdBy : String
  approvedBy : Option String
  rejectedBy : Option String
  rejectionReason : Option String
  createdAt : ℚ
  updatedAt : ℚ
  executedAt : Option ℚ
  resultJson : Json
  dispatchId : Option String
  intentId : Option String
  expiresAt : Option ℚ

structure ActionProposal where
  id : String
  nodeId : String
  action : String
  params : Fields
  reasoning : String
  riskLevel : String
  status : ProposalStatus
  createdBy : String
  approvedBy : Option String
  rejectedBy : Option String
  rejectionReason : Option String
  createdAt : ℚ
  updatedAt : ℚ
  executedAt : Option ℚ
  result : Option Fields
  dispatchId : Option String
  intentId : Option String
  expiresAt : Option ℚ

namespace ActionProposal

def approve (proposal : ActionProposal) (userId : String) (now : ℚ) :
    Except PyError ActionProposal :=
  if proposal.status ≠ .pending then
    .error (.valueError s!"Cannot approve proposal in state {proposal.status.text}")
  else
    .ok {proposal with status := .approved,approvedBy := some userId,updatedAt := now}

def reject (proposal : ActionProposal) (userId reason : String) (now : ℚ) :
    Except PyError ActionProposal :=
  if proposal.status ≠ .pending then
    .error (.valueError s!"Cannot reject proposal in state {proposal.status.text}")
  else
    .ok {proposal with
      status := .rejected
      rejectedBy := some userId
      rejectionReason := some reason
      updatedAt := now}

def complete (proposal : ActionProposal) (success : Bool) (resultData : Fields) (now : ℚ) :
    Except PyError ActionProposal :=
  if proposal.status ≠ .approved then
    .error (.valueError s!"Cannot complete proposal in state {proposal.status.text}")
  else
    .ok {proposal with
      status := if success then .executed else .failed
      executedAt := some now
      result := some resultData
      updatedAt := now}

/-- An empty result is stored as NULL. -/
def toDbDict (proposal : ActionProposal) : ProposalRow where
  nodeId := proposal.nodeId
  action := proposal.action
  paramsJson := .object proposal.params
  reasoning := proposal.reasoning
  riskLevel := proposal.riskLevel
  status := proposal.status
  createdBy := proposal.createdBy
  approvedBy := proposal.approvedBy
  rejectedBy := proposal.rejectedBy
  rejectionReason := proposal.rejectionReason
  createdAt := proposal.createdAt
  updatedAt := proposal.updatedAt
  executedAt := proposal.executedAt
  resultJson := match proposal.result with
    | none | some [] => .null
    | some fields => .object fields
  dispatchId := proposal.dispatchId
  intentId := proposal.intentId
  expiresAt := proposal.expiresAt

/-- `params` has to be an object, and `result` an object or absent. -/
def fromDbRow (id : String) (row : ProposalRow) : Except PyError ActionProposal :=
  match row.paramsJson,row.resultJson with
  | .object params,.null => .ok (build params none)
  | .object params,.object result => .ok (build params (some result))
  | _,_ => .error (.valueError "validation error for ActionProposal")
where
  build (params : Fields) (result : Option Fields) : ActionProposal :=
    ⟨id,row.nodeId,row.action,params,row.reasoning,row.riskLevel,row.status,row.createdBy,
      row.approvedBy,row.rejectedBy,row.rejectionReason,row.createdAt,row.updatedAt,row.executedAt,
      result,row.dispatchId,row.intentId,row.expiresAt⟩

end ActionProposal

inductive StatusUpdate where
  /-- `approve_proposal`, after a successful normalisation. -/
  | approval (id : String) (data : ProposalRow)
  /-- `approve_proposal`, after a failed one. -/
  | refusal (id : String) (data : ProposalRow)
  /-- `reject_proposal` and `_do_cancel`. -/
  | rejection (id : String) (data : ProposalRow)
  /-- `dispatch_approved`, step 5. -/
  | completion (id : String) (data : ProposalRow)
  | resolution (intentId dispatchId : String) (status : ProposalStatus) (now : ℚ) (result : Fields)

namespace StatusUpdate

/-- The WHERE clause. -/
def selects (update : StatusUpdate) (key : String) (row : ProposalRow) : Bool :=
  match update with
  | .approval id _ | .refusal id _ | .rejection id _ | .completion id _ => key = id
  | .resolution intentId dispatchId _ _ _ =>
    row.intentId = some intentId ∧ row.dispatchId = some dispatchId

/-- The SET clause. -/
def apply (update : StatusUpdate) (row : ProposalRow) : ProposalRow :=
  match update with
  | .approval _ data =>
    {row with
      status := data.status
      approvedBy := data.approvedBy
      updatedAt := data.updatedAt
      paramsJson := data.paramsJson}
  | .refusal _ data =>
    {row with
      status := data.status
      approvedBy := data.approvedBy
      updatedAt := data.updatedAt
      executedAt := data.executedAt
      resultJson := data.resultJson
      paramsJson := data.paramsJson}
  | .rejection _ data =>
    {row with
      status := data.status
      rejectedBy := data.rejectedBy
      rejectionReason := data.rejectionReason
      updatedAt := data.updatedAt}
  | .completion _ data =>
    {row with
      status := data.status
      updatedAt := data.updatedAt
      executedAt := data.executedAt
      resultJson := data.resultJson}
  | .resolution _ _ status now result =>
    {row with
      status := status
      updatedAt := now
      executedAt := some now
      resultJson := .object result}

def status : StatusUpdate → ProposalStatus
  | .approval _ data | .refusal _ data | .rejection _ data | .completion _ data => data.status
  | .resolution _ _ status _ _ => status

@[simp] theorem apply_status (update : StatusUpdate) (row : ProposalRow) :
    (update.apply row).status = update.status := by
  cases update <;> rfl

@[simp] theorem apply_dispatchId (update : StatusUpdate) (row : ProposalRow) :
    (update.apply row).dispatchId = row.dispatchId := by
  cases update <;> rfl

/-- The whole statement. -/
def run (update : StatusUpdate) (table : OrderedMap String ProposalRow) :
    OrderedMap String ProposalRow :=
  table.modify fun key row => if update.selects key row then update.apply row else row

end StatusUpdate

/-! What the code uses of Python and of the container matching: a parameter -/

inductive Resolution where
  | matched (containerId : String)
  | ambiguous (candidates : List String)
  | notFound

structure Builtins where
  /-- `str.lower`. -/
  lower : String → String
  /-- The text of a float. -/
  floatText : ℚ → String
  /-- `float(text)`. -/
  floatOf : String → Option ℚ
  matchContainer : String → List Fields → Resolution
  /-- `parse_worker_list(output, ContainerSummary) or []`. -/
  parseContainers : Json → List Fields

section
variable (py : Builtins)

structure Claims where
  sub : String
  role : Option String

def destructiveActions : List String := ["DELETE_CONTAINER","STOP_CONTAINER","STOP_SERVICE"]

def protectedServices : List String :=
  ["ssh","sshd","docker","dockerd","containerd","networking","systemd-networkd","networkmanager",
    "systemd-resolved","systemd-journald","systemd-logind","dbus","vigile","vigile-worker"]

def unitExtensions : List String := [".service",".socket",".target",".timer",".slice"]

def canonicalServiceName (service : String) : String :=
  let clean := py.lower (strip service)
  match unitExtensions.find? fun ext => ext.toList.isSuffixOf clean.toList with
  | none => clean
  | some ext => String.ofList (clean.toList.take (clean.length - ext.length))

def isProtectedService (service : String) : Bool :=
  canonicalServiceName py service ∈ protectedServices

/-- The service an approval is about, whatever JSON value it is. -/
def targetService (proposal : ActionProposal) : Json :=
  let target := if contains "SERVICE" proposal.action then proposal.params.get "target" else .str ""
  (((proposal.params.get "service").or (proposal.params.get "service_name")).or target).or (.str "")

def auditTarget (params : Fields) (keys : List String) : Json :=
  keys.foldr (fun key rest => (params.get key).or rest) (.str "")

def containerTargetKeys : List String := ["container_id","container","name","target","id"]

def extractContainerTarget (params : Fields) : String :=
  (containerTargetKeys.findSome? fun key =>
    match params.get key with
    | .str value => if strip value = "" then none else some (strip value)
    | _ => none).getD ""

/-- `_get_cached_containers`, after the SELECT: anything but a list counts as empty. -/
def cachedContainers (cached : Option Json) : List Fields :=
  match cached with
  | some (.array items) => items.filterMap fun
    | .object fields => some fields
    | _ => none
  | _ => []

def unresolved (target : String) : Resolution → String
  | .ambiguous candidates =>
    let listed := String.intercalate ", " candidates
    s!"Ambiguous container target '{target}'. Candidates: {listed}"
  | _ => s!"Unknown container target '{target}'"

def proposalTtl : ℚ := 3600

def metricOkThreshold : ℚ := 80

def resourceKeywords : List (String × List String) :=
  [("disk_percent",["disk","espace disque","stockage","storage","volume","disque","disk usage",
      "utilisation disque"]),
    ("mem_percent",["memory","ram","mémoire","mem","memory usage","utilisation mémoire","swap"]),
    ("cpu_percent",["cpu","processeur","processor","load","cpu load","charge cpu"])]

def metricOf (reasoning : String) : Option String :=
  (resourceKeywords.find? fun entry =>
    entry.2.any fun keyword => contains keyword (py.lower reasoning)).map Prod.fst

/-- `float(data[metric])` on the report in memory, where it has the metric. -/
def reportedMetric (latest : Option Fields) (metric : String) : Option ℚ :=
  match latest with
  | none => none
  | some report =>
    let data := (report.lookup "metrics").getD (.object report)
    match data with
    | .object fields =>
      match Fields.get fields metric with
      | .num value => some value
      | .bool value => some (if value then 1 else 0)
      | .str text => py.floatOf text
      | _ => none
    | _ => none

def resolvedReason (metric : String) (value : Option ℚ) : Option String :=
  match value with
  | none => none
  | some value =>
    if value < metricOkThreshold then
      let current := fixed 1 value
      some s!"Condition résolue: {metric} à {current}% (< 80%)"
    else none

end

end Vigile.Proposals
