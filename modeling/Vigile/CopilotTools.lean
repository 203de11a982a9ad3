import Vigile.ChatStream
import Vigile.ProposalOperations

/-! The tools of the copilot: what their schemas admit, the intents that `ToolExecutor.execute` and
the chat stream hand over, what an approval makes of a proposal, and what the handlers of the
worker read from the parameters. -/
namespace Vigile.Copilot

open Python Proposals

inductive ArgType where
  | string
  | integer
  deriving DecidableEq

def ArgType.admits : ArgType → Json → Bool
  | .string, .str _ => true
  | .integer, .num value => value.den = 1
  | _, _ => false

structure Tool where
  name : String
  properties : List (String × ArgType)
  required : List String
  additionalProperties : Bool

structure Tool.Satisfied (tool : Tool) (arguments : Fields) : Prop where
  present : ∀ key ∈ tool.required, (arguments.lookup key).isSome
  admitted : ∀ key value, arguments.lookup key = some value →
    ∀ type, tool.properties.lookup key = some type → type.admits value = true
  closed : tool.additionalProperties = false →
    ∀ key value, arguments.lookup key = some value → (tool.properties.lookup key).isSome

def nodeKey : String := "node_id_or_name"

def getFleetOverview : Tool := ⟨"get_fleet_overview",[],[],false⟩
def getNodeMetrics : Tool := ⟨"get_node_metrics",[(nodeKey,.string)],[nodeKey],false⟩
def listServices : Tool := ⟨"list_services",[(nodeKey,.string)],[nodeKey],false⟩
def getServiceStatus : Tool :=
  ⟨"get_service_status",[(nodeKey,.string),("service_name",.string)],[nodeKey,"service_name"],false⟩
def listContainers : Tool := ⟨"list_containers",[(nodeKey,.string)],[nodeKey],false⟩
def readLogs : Tool :=
  ⟨"read_logs",[(nodeKey,.string),("log_path",.string),("lines",.integer)],[nodeKey],false⟩
def proposeRestartService : Tool :=
  ⟨"propose_restart_service",[(nodeKey,.string),("service_name",.string),("reasoning",.string)],
    [nodeKey,"service_name","reasoning"],false⟩
def proposeRestartContainer : Tool :=
  ⟨"propose_restart_container",[(nodeKey,.string),("container_id_or_name",.string),("reasoning",.string)],
    [nodeKey,"container_id_or_name","reasoning"],false⟩

def toolDefinitions : List Tool :=
  [getFleetOverview,getNodeMetrics,listServices,getServiceStatus,listContainers,readLogs,proposeRestartService,
    proposeRestartContainer]

namespace Stream

def listContainers : Tool := ⟨"list_containers",[],[],true⟩
def listServices : Tool := ⟨"list_services",[],[],true⟩
def readLogs : Tool := ⟨"read_logs",[("file",.string)],[],true⟩
def statusService : Tool := ⟨"status_service",[("service",.string)],["service"],true⟩
def restartService : Tool := ⟨"restart_service",[("service",.string)],["service"],true⟩
def restartContainer : Tool := ⟨"restart_container",[("container_id",.string)],["container_id"],true⟩
def diskScan : Tool :=
  ⟨"disk_scan",[("path",.string),("max_depth",.integer),("min_size_bytes",.integer)],[],true⟩

def toolsList : List Tool :=
  [listContainers,listServices,readLogs,statusService,restartService,restartContainer,diskScan]

end Stream

structure NodeRow where
  id : String
  name : String
  online : Bool

/-- What the executor finds around it: `resolve_node`, and `int` of what is not a number. -/
structure Surroundings where
  resolveNode : Json → Except String NodeRow
  int : Json → Except String Int

structure Proposed where
  nodeId : String
  action : String
  params : Fields
  reasoning : Json
  riskLevel : String

/-- What becomes of a tool call: it is answered from the database, refused, or an intent is handed
to `nm.send_intent`, or a proposal is stored. -/
inductive Handed where
  | answered
  | refused (error : String)
  | query (nodeId action : String) (params : Fields)
  | proposal (proposed : Proposed)

def Surroundings.toInt (s : Surroundings) : Json → Except String Int
  | .num value => .ok (value.num.tdiv value.den)
  | .bool value => .ok (if value then 1 else 0)
  | value => s.int value

/-- `arguments.get(key)` where it is truthy. -/
def withArgument (arguments : Fields) (key : String) (next : Json → Handed) : Handed :=
  if (arguments.get key).truthy then next (arguments.get key)
  else .refused ("Le paramètre '" ++ key ++ "' est requis.")

def clampLines (lines : Int) : Int := min (max lines 1) 200

def operate (s : Surroundings) (node : NodeRow) (toolName : String) (arguments : Fields) : Handed :=
  match toolName with
  | "list_services" => .query node.id "LIST_SERVICES" []
  | "get_service_status" => withArgument arguments "service_name" fun serviceName =>
    .query node.id "STATUS_SERVICE" [("name",serviceName)]
  | "list_containers" => .query node.id "LIST_CONTAINERS" []
  | "read_logs" =>
    let logPath := (arguments.get "log_path").or (.str "syslog")
    match s.toInt ((arguments.get "lines").or (.num 50)) with
    | .error error => .refused error
    | .ok lines => .query node.id "READ_LOGS" [("path",logPath),("lines",.num (clampLines lines))]
  | "propose_restart_service" => withArgument arguments "service_name" fun serviceName =>
    .proposal ⟨node.id,"RESTART_SERVICE",[("service",serviceName)],
      (arguments.lookup "reasoning").getD (.str ""),"MEDIUM"⟩
  | "propose_restart_container" => withArgument arguments "container_id_or_name" fun container =>
    .proposal ⟨node.id,"RESTART_CONTAINER",[("container",container)],
      (arguments.lookup "reasoning").getD (.str ""),"MEDIUM"⟩
  | _ => .refused ("Outil inconnu '" ++ toolName ++ "'.")

def disconnected (node : NodeRow) : String :=
  "Le nœud '" ++ node.name ++ "' (" ++ String.ofList (node.id.toList.take 8) ++ ") est déconnecté. " ++
    "Impossible d'interroger ou de modifier son état."

def execute (s : Surroundings) (toolName : String) (arguments : Fields) : Handed :=
  if toolName = "get_fleet_overview" then .answered
  else withArgument arguments nodeKey fun nodeIdOrName =>
    match s.resolveNode nodeIdOrName with
    | .error error => .refused error
    | .ok node =>
      if toolName = "get_node_metrics" then .answered
      else if node.online then operate s node toolName arguments
      else .refused (disconnected node)

/-- `_normalize_action_proposal`, from what `_resolve_container_target` gives for the target. -/
def normalized (resolve : String → Resolution) (proposal : ActionProposal) : Except String ActionProposal :=
  if proposal.action ≠ "RESTART_CONTAINER" then .ok proposal
  else
    let target := extractContainerTarget proposal.params
    if target = "" then .error "RESTART_CONTAINER requires a container target"
    else
      match resolve target with
      | .matched value => .ok {proposal with params := [("container_id",.str value),("target",.str value)]}
      | other => .error (unresolved target other)

def approvedIntent (py : Builtins) (claims : Claims) (resolve : String → Resolution) (proposal : ActionProposal) :
    Option (String × Fields) :=
  if proposal.action ∈ destructiveActions ∧ claims.role ≠ some "admin" then none
  else
    match targetService proposal with
    | .str service =>
      if isProtectedService py service then none
      else
        match normalized resolve proposal with
        | .ok approved => some (approved.action,approved.params)
        | .error _ => none
    | _ => none

structure Worker where
  isAllowedLogPath : String → Bool
  isAllowedScanPath : String → List String → Bool

inductive Operation where
  | listServices
  | listContainers
  | readLogs (path : String) (lines : Int) (since until_ : String)
  | statusService (service : String)
  | restartService (service : String)
  | restartContainer (containerId : String)
  | diskScan (path : String) (maxDepth minSizeBytes maxChildren : Int) (includeHidden : Bool) (mounts : List String)

inductive Handled where
  | missing (error : String)
  | refused (error : String)
  | operates (operation : Operation)

def getParamString (params : Fields) (key defaultVal : String) : String :=
  match params.lookup key with
  | some (.str text) => text
  | _ => defaultVal

/-- Of a number that a float64 has exactly. -/
def getParamInt (params : Fields) (key : String) (defaultVal : Int) : Int :=
  match params.lookup key with
  | some (.num value) => value.num.tdiv value.den
  | _ => defaultVal

def getParamBool (params : Fields) (key : String) (defaultVal : Bool) : Bool :=
  match params.lookup key with
  | some (.bool value) => value
  | _ => defaultVal

def getParamStringSlice (params : Fields) (key : String) : List String :=
  match params.lookup key with
  | some (.array items) => items.filterMap fun
    | .str text => some text
    | _ => none
  | _ => []

def isTargetChar (c : Char) : Bool :=
  ('a' ≤ c && c ≤ 'z') || ('A' ≤ c && c ≤ 'Z') || ('0' ≤ c && c ≤ '9') || c = '@' || c = '.' || c = '_' || c = '-'

/-- `serviceTargetRegex`, and no leading hyphen. -/
def isServiceTarget (service : String) : Bool :=
  service.toList.head? ≠ some '-' && service ≠ "" && service.toList.all isTargetChar

def isContainerId (id : String) : Bool :=
  0 < id.length && id.length ≤ 128 && id.toList.all fun c => isTargetChar c && c ≠ '@' && c ≠ '.'

def onService (params : Fields) (operation : String → Operation) : Handled :=
  let service := getParamString params "service" ""
  if service = "" then .missing "service parameter required"
  else if isServiceTarget service then .operates (operation service)
  else .refused ("invalid service name format: " ++ service)

def handleReadLogs (worker : Worker) (params : Fields) : Handled :=
  let path := getParamString params "path" ""
  let lines := getParamInt params "lines" 50
  if path = "" then .missing "path parameter required"
  else if worker.isAllowedLogPath path then
    .operates (.readLogs path (if lines ≤ 0 then 50 else lines) (getParamString params "since" "")
      (getParamString params "until" ""))
  else .refused ("path " ++ path ++ " not allowed")

def handleRestartContainer (params : Fields) : Handled :=
  let containerId := getParamString params "container_id" ""
  if containerId = "" then .missing "container_id parameter required"
  else if isContainerId containerId then .operates (.restartContainer containerId)
  else .refused ("invalid container_id format: " ++ containerId)

def defaultMinSize : Int := 1024 * 1024
def maxChildrenPerNode : Int := 50

def handleDiskScan (worker : Worker) (params : Fields) : Handled :=
  let path := getParamString params "path" "/"
  let mounts := getParamStringSlice params "mounts"
  if mounts = [] then .missing "path not allowed: no mounts provided"
  else if worker.isAllowedScanPath path mounts then
    .operates (.diskScan path (getParamInt params "max_depth" 4) (getParamInt params "min_size_bytes" defaultMinSize)
      (getParamInt params "max_children_per_node" maxChildrenPerNode) (getParamBool params "include_hidden" false) mounts)
  else .refused "path not allowed"

def dispatchIntent (worker : Worker) (action : String) (params : Fields) : Handled :=
  match action with
  | "READ_LOGS" => handleReadLogs worker params
  | "LIST_CONTAINERS" => .operates .listContainers
  | "RESTART_CONTAINER" => handleRestartContainer params
  | "LIST_SERVICES" => .operates .listServices
  | "STATUS_SERVICE" => onService params .statusService
  | "RESTART_SERVICE" => onService params .restartService
  | "DISK_SCAN" => handleDiskScan worker params
  | _ => .refused ("action " ++ action ++ " not implemented")

end Vigile.Copilot
