import Vigile.CopilotTools

/-! Which tools of the copilot reach the worker with what their arguments name. -/
namespace Vigile.Copilot

open Python Proposals

inductive Naming where
  | service (name : String)
  | log (path : String)
  | lines (count : Int)
  | container (name : String)
  | scanPath (path : String)
  | scanDepth (depth : Int)
  | scanSize (bytes : Int)

def naming (key : String) (value : Json) : Option Naming :=
  match key,value with
  | "service_name", .str text | "service", .str text => some (.service text)
  | "log_path", .str text | "file", .str text => some (.log text)
  | "lines", .num value => some (.lines value.num)
  | "container_id_or_name", .str text | "container_id", .str text => some (.container text)
  | "path", .str text => some (.scanPath text)
  | "max_depth", .num value => some (.scanDepth value.num)
  | "min_size_bytes", .num value => some (.scanSize value.num)
  | _, _ => none

def Tool.Names (tool : Tool) (arguments : Fields) (thing : Naming) : Prop :=
  ∃ property ∈ tool.properties, ∃ value ∈ arguments.lookup property.1, naming property.1 value = some thing

/-- The operation is on the thing; `names` tells which container on the node a text names. -/
def Operation.On (names : String → String → Prop) (operation : Operation) : Naming → Prop
  | .service name => operation = .statusService name ∨ operation = .restartService name
  | .log path => ∃ lines since until_, operation = .readLogs path lines since until_
  | .lines count => ∃ path since until_, operation = .readLogs path count since until_
  | .container name => ∃ containerId, operation = .restartContainer containerId ∧ names name containerId
  | .scanPath path => ∃ depth size children hidden mounts, operation = .diskScan path depth size children hidden mounts
  | .scanDepth depth => ∃ path size children hidden mounts, operation = .diskScan path depth size children hidden mounts
  | .scanSize size => ∃ path depth children hidden mounts, operation = .diskScan path depth size children hidden mounts

/-- The handler misses no parameter, and where it goes on it is on everything that the arguments
name. -/
def Agrees (worker : Worker) (names : String → String → Prop) (tool : Tool) (arguments : Fields)
    (intent : Option (String × Fields)) : Prop :=
  ∀ sent ∈ intent,
    match dispatchIntent worker sent.1 sent.2 with
    | .missing _ => False
    | .refused _ => True
    | .operates operation => ∀ thing, tool.Names arguments thing → operation.On names thing

/-- Everything around a tool call: whether `nm.send_intent` sends what it is handed (the node
manager of this repository refuses it), the proposal's row, who approves it, and the resolutions
of a container when a proposal is made and when it is approved. -/
structure Setting where
  surroundings : Surroundings
  sends : Bool
  py : Builtins
  claims : Claims
  proposalId : String
  userId : String
  now : ℚ
  atProposal : String → Resolution
  atApproval : String → Resolution
  worker : Worker
  names : String → String → Prop

namespace Setting
variable (c : Setting)

def stored (proposed : Proposed) : ActionProposal where
  id := c.proposalId
  nodeId := proposed.nodeId
  action := proposed.action
  params := proposed.params
  reasoning := match proposed.reasoning with
    | .str text => text
    | _ => ""
  riskLevel := proposed.riskLevel
  status := .pending
  createdBy := c.userId
  approvedBy := none
  rejectedBy := none
  rejectionReason := none
  createdAt := c.now
  updatedAt := c.now
  executedAt := none
  result := none
  dispatchId := none
  intentId := none
  expiresAt := none

def approved (proposal : ActionProposal) : Option (String × Fields) :=
  approvedIntent c.py c.claims c.atApproval proposal

/-- What is sent of a call to `ToolExecutor.execute`. -/
def toolIntent (toolName : String) (arguments : Fields) : Option (String × Fields) :=
  match execute c.surroundings toolName arguments with
  | .query _ action params => if c.sends then some (action,params) else none
  | .proposal proposed => c.approved (c.stored proposed)
  | .answered | .refused _ => none

/-- A proposal of the chat stream, normalised where that succeeds. -/
def persisted (proposal : ActionProposal) : ActionProposal :=
  match normalized c.atProposal proposal with
  | .ok normal => normal
  | .error _ => proposal

def streamIntent (nodeId toolName : String) (arguments : Fields) : Option (String × Fields) :=
  match ChatStream.readAction toolName,ChatStream.writeKey toolName with
  | some action, _ =>
    match ChatStream.readParams toolName (.object arguments) with
    | some params =>
      if toolName = "read_logs" && !ChatStream.validateLogPath (params.get "file") then none else some (action,params)
    | none => none
  | none, some key =>
    match ChatStream.copyArg (.object arguments) key [] with
    | some params =>
      let action := if toolName = "restart_service" then "RESTART_SERVICE" else "RESTART_CONTAINER"
      c.approved (c.persisted (c.stored ⟨nodeId,action,params,.str "",
        if action = "RESTART_SERVICE" then "HIGH" else "MEDIUM"⟩))
    | none => none
  | none, none => none

end Setting

/-- Who handles a tool call; the chat stream does so for the node that is selected. -/
inductive Caller where
  | toolExecutor
  | chatStream (nodeId : String)

def Caller.tools : Caller → List Tool
  | .toolExecutor => toolDefinitions
  | .chatStream _ => Stream.toolsList

def Setting.intent (c : Setting) : Caller → String → Fields → Option (String × Fields)
  | .toolExecutor, toolName, arguments => c.toolIntent toolName arguments
  | .chatStream nodeId, toolName, arguments => c.streamIntent nodeId toolName arguments

namespace Setting
variable (c : Setting) (arguments : Fields)

/-- The node is resolved and online. -/
def Reaches : Prop :=
  (arguments.get nodeKey).truthy = true ∧
    ∃ node, c.surroundings.resolveNode (arguments.get nodeKey) = .ok node ∧ node.online = true

def logPath : String :=
  match arguments.lookup "log_path" with
  | some (.str path) => if path = "" then "syslog" else path
  | _ => "syslog"

def FindsNamed (named : String) (resolved : Resolution) : Prop :=
  isProtectedService c.py "" = false → ∀ value, resolved = .matched value →
    value ≠ "" ∧ (isContainerId value = true → c.names named value)

/-- The container that `approve_proposal` finds for a proposal of the chat stream. -/
def foundTwice (named : String) : Resolution :=
  match c.atProposal (strip named) with
  | .matched value => if strip value = "" then .notFound else c.atApproval (strip value)
  | _ => c.atApproval (strip named)

def ToolHolds (toolName : String) : Prop :=
  match toolName with
  | "get_service_status" => c.sends = true → c.Reaches arguments → arguments.lookup "service_name" = some (.str "")
  | "read_logs" => c.sends = true → c.Reaches arguments → c.worker.isAllowedLogPath (logPath arguments) = true →
      arguments.lookup "log_path" ≠ some (.str "") ∧
      ∀ lines : ℚ, arguments.lookup "lines" = some (.num lines) → 1 ≤ lines.num ∧ lines.num ≤ 200
  | "propose_restart_container" => c.Reaches arguments →
      ∀ named, arguments.lookup "container_id_or_name" = some (.str named) → strip named ≠ "" →
        c.FindsNamed named (c.atApproval (strip named))
  | _ => True

def StreamHolds (toolName : String) : Prop :=
  match toolName with
  | "read_logs" => ∃ file, arguments.lookup "file" = some (.str file) ∧ file ∉ ChatStream.allowedLogPaths
  | "status_service" => arguments.lookup "service" ≠ some (.str "")
  | "restart_service" => isProtectedService c.py "" = true ∨ arguments.lookup "service" ≠ some (.str "")
  | "restart_container" => ∀ named, arguments.lookup "container_id" = some (.str named) → strip named ≠ "" →
      c.FindsNamed named (c.foundTwice named)
  | "disk_scan" => False
  | _ => True

def Holds : Caller → String → Prop
  | .toolExecutor, toolName => c.ToolHolds arguments toolName
  | .chatStream _, toolName => c.StreamHolds arguments toolName

end Setting

section
variable {c : Setting} {tool : Tool} {arguments : Fields} {worker : Worker} {names : String → String → Prop}

theorem Tool.Satisfied.text (satisfied : tool.Satisfied arguments) (key : String) (isRequired : key ∈ tool.required)
    (isText : tool.properties.lookup key = some .string) : ∃ text, arguments.lookup key = some (.str text) := by
  obtain ⟨value,found⟩ := Option.isSome_iff_exists.mp (satisfied.present key isRequired)
  have admitted := satisfied.admitted key value found .string isText
  cases value with
  | str text => exact ⟨text,found⟩
  | null | bool | num | array | object => cases admitted

theorem Tool.Satisfied.optionalText (satisfied : tool.Satisfied arguments) (key : String)
    (isText : tool.properties.lookup key = some .string) :
    arguments.lookup key = none ∨ ∃ text, arguments.lookup key = some (.str text) := by
  cases found : arguments.lookup key with
  | none => exact .inl rfl
  | some value =>
    have admitted := satisfied.admitted key value found .string isText
    cases value with
    | str text => exact .inr ⟨text,rfl⟩
    | null | bool | num | array | object => cases admitted

theorem Tool.Satisfied.optionalInteger (satisfied : tool.Satisfied arguments) (key : String)
    (isInteger : tool.properties.lookup key = some .integer) :
    arguments.lookup key = none ∨ ∃ value : ℚ, value.den = 1 ∧ arguments.lookup key = some (.num value) := by
  cases found : arguments.lookup key with
  | none => exact .inl rfl
  | some value =>
    have admitted := satisfied.admitted key value found .integer isInteger
    cases value with
    | num value => exact .inr ⟨value,by simpa [ArgType.admits] using admitted,rfl⟩
    | null | bool | str | array | object => cases admitted

theorem agrees_none : Agrees worker names tool arguments none := fun _ sent => by cases sent

variable {params : Fields} {key text named nodeId : String} {proposal : ActionProposal}

theorem agrees_some {action : String} :
    Agrees worker names tool arguments (some (action,params)) ↔
      match dispatchIntent worker action params with
      | .missing _ => False
      | .refused _ => True
      | .operates operation => ∀ thing, tool.Names arguments thing → operation.On names thing := by
  unfold Agrees
  simp

variable {thing : Naming} {value : Json} {path service : String}

@[simp] theorem naming_nodeKey (value : Json) : naming nodeKey value = none := by
  cases value <;> rfl

@[simp] theorem naming_reasoning (value : Json) : naming "reasoning" value = none := by
  cases value <;> rfl

/-- A tool whose only argument is its node names nothing else. -/
theorem not_names (only : ∀ property ∈ tool.properties, property.1 = nodeKey) :
    ¬tool.Names arguments thing := by
  rintro ⟨property,member,value,-,names⟩
  rw [only property member,naming_nodeKey] at names
  cases names

theorem toolIntent_eq (toolName : String) : c.toolIntent toolName arguments =
    match execute c.surroundings toolName arguments with
    | .query _ action params => if c.sends then some (action,params) else none
    | .proposal proposed => c.approved (c.stored proposed)
    | .answered | .refused _ => none := rfl

/-- Without its node the executor hands over nothing. -/
theorem toolIntent_unreached (unreached : ¬c.Reaches arguments) (toolName : String) :
    c.toolIntent toolName arguments = none := by
  rw [toolIntent_eq]
  delta execute withArgument
  dsimp only
  by_cases overview : toolName = "get_fleet_overview"
  · simp only [if_pos overview]
  · rw [if_neg overview]
    by_cases given : (arguments.get nodeKey).truthy = true
    · rw [if_pos given]
      cases resolved : c.surroundings.resolveNode (arguments.get nodeKey) with
      | error => rfl
      | ok node =>
        have offline : ¬node.online = true := fun online => unreached ⟨given,node,resolved,online⟩
        by_cases metrics : toolName = "get_node_metrics"
        · simp only [if_pos metrics]
        · simp only [if_neg metrics,if_neg offline]
    · rw [if_neg given]

/-- With it, it does the operation. -/
theorem execute_reached (reached : c.Reaches arguments) (toolName : String) (notOverview : toolName ≠ "get_fleet_overview")
    (notMetrics : toolName ≠ "get_node_metrics") :
    ∃ node, execute c.surroundings toolName arguments = operate c.surroundings node toolName arguments := by
  obtain ⟨given,node,resolved,online⟩ := reached
  refine ⟨node,?_⟩
  unfold execute withArgument
  rw [if_neg notOverview,if_pos given]
  simp only [resolved,if_neg notMetrics,if_pos online]

theorem get_lookup (found : arguments.lookup key = some value) : arguments.get key = value := by
  unfold Fields.get
  rw [found]
  rfl

theorem get_absent (found : arguments.lookup key = none) : arguments.get key = .null := by
  unfold Fields.get
  rw [found]
  rfl

theorem or_text : value.or (.str text) = if value.truthy then value else .str text := rfl

theorem agrees_sends {sends : Bool} {sent : String × Fields} :
    Agrees worker names tool arguments (if sends then some sent else none) ↔
      (sends = true → Agrees worker names tool arguments (some sent)) := by
  cases sends with
  | true => simp
  | false => simp [agrees_none]

theorem listServices_agrees (reached : c.Reaches arguments) :
    Agrees c.worker c.names listServices arguments (c.toolIntent "list_services" arguments) := by
  obtain ⟨node,executed⟩ := execute_reached reached "list_services" (by decide) (by decide)
  have operated : operate c.surroundings node "list_services" arguments = .query node.id "LIST_SERVICES" [] := rfl
  rw [toolIntent_eq,executed,operated]
  refine agrees_sends.mpr fun _ => agrees_some.mpr ?_
  exact fun thing named => absurd named (not_names (by simp [listServices]))

theorem listContainers_agrees (reached : c.Reaches arguments) :
    Agrees c.worker c.names listContainers arguments (c.toolIntent "list_containers" arguments) := by
  obtain ⟨node,executed⟩ := execute_reached reached "list_containers" (by decide) (by decide)
  have operated : operate c.surroundings node "list_containers" arguments = .query node.id "LIST_CONTAINERS" [] := rfl
  rw [toolIntent_eq,executed,operated]
  refine agrees_sends.mpr fun _ => agrees_some.mpr ?_
  exact fun thing named => absurd named (not_names (by simp [listContainers]))

theorem withArgument_text {next : Json → Handed} (found : arguments.lookup key = some (.str text)) :
    withArgument arguments key next =
      if text = "" then .refused ("Le paramètre '" ++ key ++ "' est requis.") else next (.str text) := by
  unfold withArgument
  rw [get_lookup found]
  by_cases empty : text = "" <;> simp [Json.truthy,empty]

theorem getNodeMetrics_agrees :
    Agrees c.worker c.names getNodeMetrics arguments (c.toolIntent "get_node_metrics" arguments) := by
  have answered : c.toolIntent "get_node_metrics" arguments = none := by
    rw [toolIntent_eq]
    delta execute withArgument
    dsimp only
    rw [if_neg (by decide)]
    by_cases given : (arguments.get nodeKey).truthy = true
    · rw [if_pos given]
      cases resolved : c.surroundings.resolveNode (arguments.get nodeKey) <;> rfl
    · rw [if_neg given]
  rw [answered]
  exact agrees_none

/-- The status of a service is asked for under another key than the handler reads. -/
theorem getServiceStatus_agrees (satisfied : getServiceStatus.Satisfied arguments) (reached : c.Reaches arguments) :
    Agrees c.worker c.names getServiceStatus arguments (c.toolIntent "get_service_status" arguments) ↔
      (c.sends = true → arguments.lookup "service_name" = some (.str "")) := by
  obtain ⟨service,found⟩ := satisfied.text "service_name" (by simp [getServiceStatus]) (by rfl)
  obtain ⟨node,executed⟩ := execute_reached reached "get_service_status" (by decide) (by decide)
  have operated : operate c.surroundings node "get_service_status" arguments =
    withArgument arguments "service_name" fun serviceName =>
      .query node.id "STATUS_SERVICE" [("name",serviceName)] := rfl
  rw [toolIntent_eq,executed,operated,withArgument_text found]
  by_cases empty : service = ""
  · simp [empty,found,agrees_none]
  · simp only [if_neg empty,agrees_sends,agrees_some]
    have unnamed : dispatchIntent c.worker "STATUS_SERVICE" [("name",.str service)] = .missing "service parameter required" := rfl
    rw [unnamed]
    simp [found,empty]

theorem logPath_eq (satisfied : readLogs.Satisfied arguments) :
    (arguments.get "log_path").or (.str "syslog") = .str (Setting.logPath arguments) := by
  unfold Setting.logPath
  rcases satisfied.optionalText "log_path" (by rfl) with absent | ⟨path,found⟩
  · rw [get_absent absent,absent]
    rfl
  · rw [get_lookup found,found,or_text]
    by_cases empty : path = "" <;> simp [Json.truthy,empty]

theorem logPath_ne : Setting.logPath arguments ≠ "" := by
  unfold Setting.logPath
  split
  · split
    · decide
    · assumption
  · decide

def askedLines (arguments : Fields) : Int :=
  clampLines (match arguments.lookup "lines" with
    | some (.num lines) => if lines.num = 0 then 50 else lines.num
    | _ => 50)

theorem toInt_eq (satisfied : readLogs.Satisfied arguments) :
    ∃ lines, c.surroundings.toInt ((arguments.get "lines").or (.num 50)) = .ok lines ∧
      clampLines lines = askedLines arguments := by
  unfold askedLines
  rcases satisfied.optionalInteger "lines" (by rfl) with absent | ⟨lines,whole,found⟩
  · rw [get_absent absent,absent]
    exact ⟨50,rfl,rfl⟩
  · rw [get_lookup found,found]
    by_cases zero : lines = 0
    · subst zero
      exact ⟨50,rfl,rfl⟩
    · refine ⟨lines.num,?_,?_⟩
      · simp [Json.or,Json.truthy,zero,Surroundings.toInt,whole]
      · simp [zero]

theorem clampLines_bounds (lines : Int) : 1 ≤ clampLines lines ∧ clampLines lines ≤ 200 := by
  unfold clampLines
  omega

theorem handleReadLogs_eq (allowed : c.worker.isAllowedLogPath (Setting.logPath arguments) = true) :
    dispatchIntent c.worker "READ_LOGS"
        [("path",.str (Setting.logPath arguments)),("lines",.num (askedLines arguments : Int))] =
      .operates (.readLogs (Setting.logPath arguments) (askedLines arguments) "" "") := by
  have path : getParamString [("path",.str (Setting.logPath arguments)),("lines",.num (askedLines arguments : Int))] "path" "" =
      Setting.logPath arguments := rfl
  have lines : getParamInt [("path",.str (Setting.logPath arguments)),("lines",.num (askedLines arguments : Int))] "lines" 50 =
      askedLines arguments := by
    have found : ([("path",.str (Setting.logPath arguments)),("lines",.num (askedLines arguments : Int))] : Fields).lookup
        "lines" = some (.num (askedLines arguments : Int)) := rfl
    unfold getParamInt
    rw [found]
    simp
  have positive : ¬askedLines arguments ≤ 0 := by
    have bounds := (clampLines_bounds (match arguments.lookup "lines" with
      | some (.num lines) => if lines.num = 0 then 50 else lines.num
      | _ => 50)).1
    unfold askedLines
    omega
  show handleReadLogs _ _ = _
  unfold handleReadLogs
  simp only [path,lines,if_neg logPath_ne,allowed,if_true,if_neg positive]
  rfl

theorem logPath_named (found : arguments.lookup "log_path" = some (.str path)) :
    Setting.logPath arguments = path ↔ path ≠ "" := by
  unfold Setting.logPath
  rw [found]
  by_cases empty : path = "" <;> simp [empty]

theorem askedLines_named {lines : ℚ} (found : arguments.lookup "lines" = some (.num lines)) :
    askedLines arguments = lines.num ↔ 1 ≤ lines.num ∧ lines.num ≤ 200 := by
  unfold askedLines clampLines
  rw [found]
  dsimp only
  split <;> omega

theorem readLogs_names : readLogs.Names arguments thing ↔
    (∃ path, arguments.lookup "log_path" = some (.str path) ∧ thing = .log path) ∨
      ∃ lines, arguments.lookup "lines" = some (.num lines) ∧ thing = .lines lines.num := by
  unfold Tool.Names
  simp only [readLogs,List.mem_cons,List.not_mem_nil,or_false,exists_eq_or_imp,exists_eq_left,naming_nodeKey,
    reduceCtorEq,and_false,exists_false,false_or,Option.mem_def]
  refine or_congr ⟨?_,?_⟩ ⟨?_,?_⟩
  · rintro ⟨value,found,names⟩
    cases value with
    | str path => exact ⟨path,found,(Option.some.inj names).symm⟩
    | null | bool | num | array | object => cases names
  · rintro ⟨path,found,rfl⟩
    exact ⟨_,found,rfl⟩
  · rintro ⟨value,found,names⟩
    cases value with
    | num lines => exact ⟨lines,found,(Option.some.inj names).symm⟩
    | null | bool | str | array | object => cases names
  · rintro ⟨lines,found,rfl⟩
    exact ⟨_,found,rfl⟩

theorem readLogs_on {lines : Int} {since until_ : String} :
    (∀ thing, readLogs.Names arguments thing → (Operation.readLogs path lines since until_).On names thing) ↔
      (∀ named, arguments.lookup "log_path" = some (.str named) → path = named) ∧
        ∀ named : ℚ, arguments.lookup "lines" = some (.num named) → lines = named.num := by
  simp only [readLogs_names]
  constructor
  · intro all
    refine ⟨fun named found => ?_,fun named found => ?_⟩
    · obtain ⟨_,_,_,same⟩ := all _ (.inl ⟨named,found,rfl⟩)
      cases same
      rfl
    · obtain ⟨_,_,_,same⟩ := all _ (.inr ⟨named,found,rfl⟩)
      cases same
      rfl
  · rintro ⟨onPath,onLines⟩ thing (⟨named,found,rfl⟩ | ⟨named,found,rfl⟩)
    · exact ⟨lines,since,until_,by rw [onPath named found]⟩
    · exact ⟨path,since,until_,by rw [onLines named found]⟩

/-- The log and the lines are those named, unless the one is empty or the other out of bounds. -/
theorem readLogs_agrees (satisfied : readLogs.Satisfied arguments) (reached : c.Reaches arguments) :
    Agrees c.worker c.names readLogs arguments (c.toolIntent "read_logs" arguments) ↔
      (c.sends = true → c.worker.isAllowedLogPath (Setting.logPath arguments) = true →
        arguments.lookup "log_path" ≠ some (.str "") ∧
        ∀ lines : ℚ, arguments.lookup "lines" = some (.num lines) → 1 ≤ lines.num ∧ lines.num ≤ 200) := by
  obtain ⟨node,executed⟩ := execute_reached reached "read_logs" (by decide) (by decide)
  obtain ⟨lines,isInt,asked⟩ := toInt_eq (c := c) satisfied
  rw [toolIntent_eq,executed]
  simp only [operate,isInt,logPath_eq satisfied,asked,agrees_sends,agrees_some]
  refine imp_congr_right fun _ => ?_
  by_cases allowed : c.worker.isAllowedLogPath (Setting.logPath arguments) = true
  · rw [handleReadLogs_eq allowed]
    simp only [readLogs_on,allowed,forall_true_left]
    refine and_congr ⟨fun onPath isEmpty => ?_,fun notEmpty named found => ?_⟩
      (forall₂_congr fun lines found => askedLines_named found)
    · exact (logPath_named isEmpty).mp (onPath "" isEmpty) rfl
    · exact (logPath_named found).mpr fun isEmpty => notEmpty (isEmpty ▸ found)
  · have refused : ∃ error, dispatchIntent c.worker "READ_LOGS"
        [("path",.str (Setting.logPath arguments)),("lines",.num (askedLines arguments : Int))] = .refused error := by
      refine ⟨"path " ++ Setting.logPath arguments ++ " not allowed",?_⟩
      show handleReadLogs _ _ = _
      unfold handleReadLogs
      have path : getParamString [("path",.str (Setting.logPath arguments)),("lines",.num (askedLines arguments : Int))]
          "path" "" = Setting.logPath arguments := rfl
      simp only [path,if_neg logPath_ne,if_neg allowed]
    obtain ⟨error,refused⟩ := refused
    rw [refused]
    simp [allowed]

theorem approved_service (proposal : ActionProposal) (action : proposal.action = "RESTART_SERVICE")
    (params : proposal.params = [("service",.str service)]) :
    c.approved proposal =
      if isProtectedService c.py service then none else some ("RESTART_SERVICE",[("service",.str service)]) := by
  have notDestructive : ¬("RESTART_SERVICE" ∈ destructiveActions ∧ c.claims.role ≠ some "admin") :=
    fun both => absurd both.1 (by decide)
  have target : targetService proposal = .str service := by
    unfold targetService
    rw [action,params]
    have onService : contains "SERVICE" "RESTART_SERVICE" = true := by decide +kernel
    by_cases empty : service = ""
    · subst empty
      simp only [onService]
      rfl
    · have truthy : (Json.str service).truthy = true := by simp [Json.truthy,empty]
      have given : Fields.get [("service",.str service)] "service" = .str service := rfl
      simp only [given,Json.or,truthy,if_true]
  unfold Setting.approved approvedIntent normalized
  rw [action,if_neg notDestructive,target]
  dsimp only
  rw [if_pos (by decide : "RESTART_SERVICE" ≠ "RESTART_CONTAINER")]
  simp only [action,params]

theorem approved_container (proposal : ActionProposal) (action : proposal.action = "RESTART_CONTAINER")
    (noService : targetService proposal = .str "") :
    c.approved proposal =
      if isProtectedService c.py "" ∨ extractContainerTarget proposal.params = "" then none
      else
        match c.atApproval (extractContainerTarget proposal.params) with
        | .matched value => some ("RESTART_CONTAINER",[("container_id",.str value),("target",.str value)])
        | _ => none := by
  have notDestructive : ¬("RESTART_CONTAINER" ∈ destructiveActions ∧ c.claims.role ≠ some "admin") :=
    fun both => absurd both.1 (by decide)
  unfold Setting.approved approvedIntent normalized
  rw [action,if_neg notDestructive,noService]
  simp only [ne_eq,not_true_eq_false,if_false]
  by_cases isProtected : isProtectedService c.py "" = true
  · simp [isProtected]
  · by_cases empty : extractContainerTarget proposal.params = ""
    · simp [isProtected,empty]
    · simp only [isProtected,empty,if_false]
      cases c.atApproval (extractContainerTarget proposal.params) with
      | matched value => simp
      | ambiguous | notFound => rfl

/-- The agreement of an approved restart of a container. -/
theorem approved_container_agrees {resolved : Resolution}
    (approved : c.approved proposal =
      if isProtectedService c.py "" then none
      else
        match resolved with
        | .matched value => some ("RESTART_CONTAINER",[("container_id",.str value),("target",.str value)])
        | _ => none)
    (only : ∀ thing, tool.Names arguments thing ↔ thing = .container named) :
    Agrees c.worker c.names tool arguments (c.approved proposal) ↔ c.FindsNamed named resolved := by
  rw [approved]
  unfold Setting.FindsNamed
  by_cases isProtected : isProtectedService c.py "" = true
  · simp [isProtected,agrees_none]
  · cases resolved with
    | ambiguous | notFound => simp [agrees_none]
    | matched value =>
      rw [if_neg isProtected]
      simp only [Bool.not_eq_true] at isProtected
      simp only [agrees_some,isProtected,forall_true_left,Resolution.matched.injEq,forall_eq',only,forall_eq]
      have read : dispatchIntent c.worker "RESTART_CONTAINER" [("container_id",.str value),("target",.str value)] =
          if value = "" then .missing "container_id parameter required"
          else if isContainerId value then .operates (.restartContainer value)
          else .refused ("invalid container_id format: " ++ value) := rfl
      rw [read]
      by_cases empty : value = ""
      · simp [empty]
      · rw [if_neg empty]
        by_cases valid : isContainerId value = true
        · rw [if_pos valid]
          constructor
          · rintro ⟨_,same,isNamed⟩
            cases same
            exact ⟨empty,fun _ => isNamed⟩
          · exact fun finds => ⟨value,rfl,finds.2 valid⟩
        · rw [if_neg valid]
          simp [empty,valid]

/-- The agreement of a proposal to restart a container, from the target in its parameters. -/
theorem container_agrees {target : String} (action : proposal.action = "RESTART_CONTAINER")
    (noService : targetService proposal = .str "") (extracted : extractContainerTarget proposal.params = target)
    (only : ∀ thing, tool.Names arguments thing ↔ thing = .container named) :
    Agrees c.worker c.names tool arguments (c.approved proposal) ↔
      (target ≠ "" → c.FindsNamed named (c.atApproval target)) := by
  have approved := approved_container (c := c) proposal action noService
  rw [extracted] at approved
  by_cases empty : target = ""
  · rw [approved,if_pos (.inr empty)]
    simp [agrees_none,empty]
  · simp only [empty,or_false] at approved
    rw [approved_container_agrees approved only]
    simp [empty]

/-- The agreement of an approved restart of a service. -/
theorem approved_service_agrees
    (approved : c.approved proposal =
      if isProtectedService c.py service then none else some ("RESTART_SERVICE",[("service",.str service)]))
    (only : ∀ thing, tool.Names arguments thing ↔ thing = .service service) :
    Agrees c.worker c.names tool arguments (c.approved proposal) ↔ isProtectedService c.py service = true ∨ service ≠ "" := by
  rw [approved]
  by_cases isProtected : isProtectedService c.py service = true
  · simp [isProtected,agrees_none]
  · rw [if_neg isProtected,agrees_some]
    simp only [only,forall_eq]
    have read : dispatchIntent c.worker "RESTART_SERVICE" [("service",.str service)] =
        if service = "" then .missing "service parameter required"
        else if isServiceTarget service then .operates (.restartService service)
        else .refused ("invalid service name format: " ++ service) := rfl
    rw [read]
    by_cases empty : service = ""
    · rw [if_pos empty]
      exact ⟨False.elim,fun either => either.elim isProtected fun given => given empty⟩
    · rw [if_neg empty]
      by_cases valid : isServiceTarget service = true
      · rw [if_pos valid]
        exact ⟨fun _ => .inr empty,fun _ => .inr rfl⟩
      · rw [if_neg valid]
        exact ⟨fun _ => .inr empty,fun _ => trivial⟩

theorem names_text (tool : Tool) (make : String → Naming) (property : (key,ArgType.string) ∈ tool.properties)
    (others : ∀ other ∈ tool.properties, other.1 ≠ key → ∀ value, naming other.1 value = none)
    (made : ∀ value, naming key value = match value with
      | .str text => some (make text)
      | _ => none)
    (found : arguments.lookup key = some (.str text)) (thing : Naming) :
    tool.Names arguments thing ↔ thing = make text := by
  constructor
  · rintro ⟨other,member,value,isValue,names⟩
    by_cases same : other.1 = key
    · rw [same] at isValue names
      obtain rfl := Option.some.inj (found.symm.trans isValue)
      rw [made] at names
      exact (Option.some.inj names).symm
    · rw [others other member same] at names
      cases names
  · rintro rfl
    exact ⟨_,property,_,found,made _⟩

theorem proposeRestartService_agrees (satisfied : proposeRestartService.Satisfied arguments) (reached : c.Reaches arguments) :
    Agrees c.worker c.names proposeRestartService arguments (c.toolIntent "propose_restart_service" arguments) := by
  obtain ⟨service,found⟩ := satisfied.text "service_name" (by simp [proposeRestartService]) (by rfl)
  obtain ⟨node,executed⟩ := execute_reached reached "propose_restart_service" (by decide) (by decide)
  have only := names_text proposeRestartService .service (by simp [proposeRestartService])
    (by simp [proposeRestartService]) (fun value => by cases value <;> rfl) found
  have operated : operate c.surroundings node "propose_restart_service" arguments =
    withArgument arguments "service_name" fun serviceName => .proposal ⟨node.id,"RESTART_SERVICE",[("service",serviceName)],
      (arguments.lookup "reasoning").getD (.str ""),"MEDIUM"⟩ := rfl
  rw [toolIntent_eq,executed,operated,withArgument_text found]
  by_cases empty : service = ""
  · rw [if_pos empty]
    exact agrees_none
  · rw [if_neg empty]
    exact (approved_service_agrees (approved_service _ rfl rfl) only).mpr (.inr empty)

theorem targetService_container (action : proposal.action = "RESTART_CONTAINER")
    (noService : proposal.params.get "service" = .null) (noName : proposal.params.get "service_name" = .null) :
    targetService proposal = .str "" := by
  unfold targetService
  rw [action,noService,noName]
  have offService : contains "SERVICE" "RESTART_CONTAINER" = false := by decide +kernel
  simp only [offService]
  rfl

theorem extractContainerTarget_eq (params : Fields) : extractContainerTarget params =
    (containerTargetKeys.findSome? fun key =>
      match params.get key with
      | .str value => if strip value = "" then none else some (strip value)
      | _ => none).getD "" := rfl

theorem findSome?_only {α β : Type} {f : α → Option β} {keys : List α} {value : β}
    (only : ∀ key ∈ keys, f key = some value ∨ f key = none) (given : ∃ key ∈ keys, f key = some value) :
    keys.findSome? f = some value := by
  obtain ⟨key,member,isValue⟩ := given
  have found : (keys.findSome? f).isSome := List.findSome?_isSome_iff.mpr ⟨key,member,by rw [isValue]; rfl⟩
  obtain ⟨target,isTarget⟩ := Option.isSome_iff_exists.mp found
  obtain ⟨other,inside,named⟩ := List.exists_of_findSome?_eq_some isTarget
  rcases only other inside with same | absent
  · rw [isTarget,← named,same]
  · rw [absent] at named
    cases named

/-- Parameters that hold one text throughout, one of them where a target is looked for. -/
theorem extract_text (all : ∀ field ∈ params, field.2 = .str text)
    (given : ∃ key ∈ containerTargetKeys, params.get key = .str text) : extractContainerTarget params = strip text := by
  have get_or (key : String) : params.get key = .str text ∨ params.get key = .null := by
    cases found : params.lookup key with
    | none => exact .inr (get_absent found)
    | some value =>
      obtain ⟨before,after,rfl,-⟩ := List.lookup_eq_some_iff.mp found
      have isText : value = .str text := all (key,value) (List.mem_append_right _ List.mem_cons_self)
      exact .inl (isText ▸ get_lookup found)
  rw [extractContainerTarget_eq]
  by_cases empty : strip text = ""
  · rw [List.findSome?_eq_none_iff.mpr,empty]
    · rfl
    · intro key _
      rcases get_or key with isText | absent
      · simp [isText,empty]
      · simp [absent]
  · obtain ⟨key,member,isText⟩ := given
    show _ = (some (strip text)).getD ""
    refine congrArg (Option.getD · "") (findSome?_only (fun other _ => ?_) ⟨key,member,by simp [isText,empty]⟩)
    rcases get_or other with isText | absent
    · exact .inl (by simp [isText,empty])
    · exact .inr (by simp [absent])

theorem extract_container : extractContainerTarget [("container",.str named)] = strip named :=
  extract_text (by simp) ⟨"container",by decide,rfl⟩

theorem extract_containerId : extractContainerTarget [("container_id",.str named)] = strip named :=
  extract_text (by simp) ⟨"container_id",by decide,rfl⟩

theorem extract_matched {value : String} :
    extractContainerTarget [("container_id",.str value),("target",.str value)] = strip value :=
  extract_text (by simp) ⟨"container_id",by decide,rfl⟩

theorem proposeRestartContainer_agrees (satisfied : proposeRestartContainer.Satisfied arguments)
    (reached : c.Reaches arguments) :
    Agrees c.worker c.names proposeRestartContainer arguments (c.toolIntent "propose_restart_container" arguments) ↔
      ∀ named, arguments.lookup "container_id_or_name" = some (.str named) → strip named ≠ "" →
        c.FindsNamed named (c.atApproval (strip named)) := by
  obtain ⟨named,found⟩ := satisfied.text "container_id_or_name" (by simp [proposeRestartContainer]) (by rfl)
  obtain ⟨node,executed⟩ := execute_reached reached "propose_restart_container" (by decide) (by decide)
  have only := names_text proposeRestartContainer .container (by simp [proposeRestartContainer])
    (by simp [proposeRestartContainer]) (fun value => by cases value <;> rfl) found
  have alone {P : String → Prop} : (∀ text, arguments.lookup "container_id_or_name" = some (.str text) → P text) ↔ P named := by
    simp [found]
  rw [alone]
  have operated : operate c.surroundings node "propose_restart_container" arguments =
    withArgument arguments "container_id_or_name" fun container => .proposal ⟨node.id,"RESTART_CONTAINER",[("container",container)],
      (arguments.lookup "reasoning").getD (.str ""),"MEDIUM"⟩ := rfl
  rw [toolIntent_eq,executed,operated,withArgument_text found]
  by_cases empty : named = ""
  · subst empty
    simp [agrees_none,show strip "" = "" from rfl]
  · rw [if_neg empty]
    exact container_agrees rfl (targetService_container rfl rfl rfl) extract_container only

theorem any_lookup : arguments.any (fun field => decide (field.1 = key)) = (arguments.lookup key).isSome := by
  induction arguments with
  | nil => rfl
  | cons field rest ih =>
    rw [List.any_cons,List.lookup_cons,ih]
    by_cases same : field.1 = key
    · simp [same]
    · have differ : (key == field.1) = false := beq_false_of_ne (Ne.symm same)
      simp [same,differ]

/-- An argument is copied if it is given. -/
theorem copyArg_object :
    ChatStream.copyArg (.object arguments) key params =
      some (match arguments.lookup key with
        | some value => params ++ [(key,value)]
        | none => params) := by
  unfold ChatStream.copyArg ChatStream.present
  dsimp only
  rw [any_lookup]
  cases found : arguments.lookup key with
  | none => rfl
  | some value =>
    rw [← get_lookup found]
    rfl

theorem stream_listContainers_agrees :
    Agrees c.worker c.names Stream.listContainers arguments (c.streamIntent nodeId "list_containers" arguments) := by
  have sent : c.streamIntent nodeId "list_containers" arguments = some ("LIST_CONTAINERS",[]) := rfl
  rw [sent,agrees_some]
  exact fun thing named => absurd named (not_names (by simp [Stream.listContainers]))

theorem stream_listServices_agrees :
    Agrees c.worker c.names Stream.listServices arguments (c.streamIntent nodeId "list_services" arguments) := by
  have sent : c.streamIntent nodeId "list_services" arguments = some ("LIST_SERVICES",[]) := rfl
  rw [sent,agrees_some]
  exact fun thing named => absurd named (not_names (by simp [Stream.listServices]))

/-- The handler misses the path in every intent that gets past the list of logs. -/
theorem stream_readLogs_agrees (nodeId : String) (satisfied : Stream.readLogs.Satisfied arguments) :
    Agrees c.worker c.names Stream.readLogs arguments (c.streamIntent nodeId "read_logs" arguments) ↔
      ∃ file, arguments.lookup "file" = some (.str file) ∧ file ∉ ChatStream.allowedLogPaths := by
  have sent : c.streamIntent nodeId "read_logs" arguments =
      match ChatStream.copyArg (.object arguments) "file" [] with
      | some params =>
        if !ChatStream.validateLogPath (params.get "file") then none else some ("READ_LOGS",params)
      | none => none := rfl
  rw [sent,copyArg_object]
  rcases satisfied.optionalText "file" (by rfl) with absent | ⟨file,found⟩
  · rw [absent]
    have missing : dispatchIntent c.worker "READ_LOGS" [] = .missing "path parameter required" := rfl
    have valid : ChatStream.validateLogPath (Fields.get [] "file") = true := rfl
    simp only [valid,Bool.not_true,Bool.false_eq_true,if_false,agrees_some,missing]
    simp
  · rw [found]
    have missing : dispatchIntent c.worker "READ_LOGS" [("file",.str file)] = .missing "path parameter required" := rfl
    have valid : ChatStream.validateLogPath (Fields.get ([] ++ [("file",.str file)]) "file") =
        ChatStream.allowedLogPaths.contains file := rfl
    dsimp only
    rw [valid]
    by_cases allowed : file ∈ ChatStream.allowedLogPaths
    · simp only [List.contains_eq_mem,allowed,decide_true,Bool.not_true,Bool.false_eq_true,if_false,agrees_some,
        List.nil_append,missing]
      simp [allowed]
    · simp [allowed,agrees_none]

theorem stream_statusService_agrees (satisfied : Stream.statusService.Satisfied arguments) :
    Agrees c.worker c.names Stream.statusService arguments (c.streamIntent nodeId "status_service" arguments) ↔
      arguments.lookup "service" ≠ some (.str "") := by
  obtain ⟨service,found⟩ := satisfied.text "service" (by simp [Stream.statusService]) (by rfl)
  have only := names_text Stream.statusService .service (by simp [Stream.statusService])
    (by simp [Stream.statusService]) (fun value => by cases value <;> rfl) found
  have sent : c.streamIntent nodeId "status_service" arguments =
      match ChatStream.copyArg (.object arguments) "service" [] with
      | some params => some ("STATUS_SERVICE",params)
      | none => none := rfl
  rw [sent,copyArg_object,found]
  dsimp only
  rw [List.nil_append,agrees_some]
  simp only [only,forall_eq]
  have read : dispatchIntent c.worker "STATUS_SERVICE" [("service",.str service)] =
      if service = "" then .missing "service parameter required"
      else if isServiceTarget service then .operates (.statusService service)
      else .refused ("invalid service name format: " ++ service) := rfl
  rw [read]
  by_cases empty : service = ""
  · simp [empty]
  · rw [if_neg empty]
    have given : (some (Json.str service) ≠ some (.str "")) := by simp [empty]
    by_cases valid : isServiceTarget service = true
    · rw [if_pos valid]
      exact ⟨fun _ => given,fun _ => .inl rfl⟩
    · rw [if_neg valid]
      exact ⟨fun _ => given,fun _ => trivial⟩

/-- No scan has its mounts. -/
theorem stream_diskScan_disagrees :
    ¬Agrees c.worker c.names Stream.diskScan arguments (c.streamIntent nodeId "disk_scan" arguments) := by
  have sent : c.streamIntent nodeId "disk_scan" arguments =
      match (ChatStream.copyArg (.object arguments) "path" []).bind fun params =>
        (ChatStream.copyArg (.object arguments) "max_depth" params).bind
          (ChatStream.copyArg (.object arguments) "min_size_bytes") with
      | some params => some ("DISK_SCAN",params)
      | none => none := rfl
  rw [sent]
  simp only [copyArg_object,Option.bind_some,agrees_some]
  have missing (params : Fields) (noMounts : getParamStringSlice params "mounts" = []) :
      dispatchIntent c.worker "DISK_SCAN" params = .missing "path not allowed: no mounts provided" := by
    show handleDiskScan _ _ = _
    unfold handleDiskScan
    simp only [noMounts,if_true]
  rw [missing]
  · exact id
  · cases arguments.lookup "path" <;> cases arguments.lookup "max_depth" <;>
      cases arguments.lookup "min_size_bytes" <;> rfl

theorem stream_restartService_agrees (satisfied : Stream.restartService.Satisfied arguments) :
    Agrees c.worker c.names Stream.restartService arguments (c.streamIntent nodeId "restart_service" arguments) ↔
      isProtectedService c.py "" = true ∨ arguments.lookup "service" ≠ some (.str "") := by
  obtain ⟨service,found⟩ := satisfied.text "service" (by simp [Stream.restartService]) (by rfl)
  have only := names_text Stream.restartService .service (by simp [Stream.restartService])
    (by simp [Stream.restartService]) (fun value => by cases value <;> rfl) found
  have sent : c.streamIntent nodeId "restart_service" arguments =
      match ChatStream.copyArg (.object arguments) "service" [] with
      | some params => c.approved (c.persisted (c.stored ⟨nodeId,"RESTART_SERVICE",params,.str "","HIGH"⟩))
      | none => none := rfl
  rw [sent,copyArg_object,found]
  dsimp only
  have persisted : c.persisted (c.stored ⟨nodeId,"RESTART_SERVICE",[] ++ [("service",.str service)],.str "","HIGH"⟩) =
      c.stored ⟨nodeId,"RESTART_SERVICE",[("service",.str service)],.str "","HIGH"⟩ := rfl
  rw [persisted,approved_service_agrees (approved_service _ rfl rfl) only]
  by_cases empty : service = ""
  · subst empty
    simp
  · simp [empty]

theorem persisted_container (action : proposal.action = "RESTART_CONTAINER") :
    c.persisted proposal =
      if extractContainerTarget proposal.params = "" then proposal
      else
        match c.atProposal (extractContainerTarget proposal.params) with
        | .matched value => {proposal with params := [("container_id",.str value),("target",.str value)]}
        | _ => proposal := by
  unfold Setting.persisted normalized
  rw [if_neg (not_not.mpr action)]
  dsimp only
  by_cases empty : extractContainerTarget proposal.params = ""
  · rw [if_pos empty,if_pos empty]
  · rw [if_neg empty,if_neg empty]
    cases c.atProposal (extractContainerTarget proposal.params) <;> rfl

/-- The target is resolved when the proposal is made, and the result again when it is approved. -/
theorem stream_restartContainer_agrees (satisfied : Stream.restartContainer.Satisfied arguments) :
    Agrees c.worker c.names Stream.restartContainer arguments (c.streamIntent nodeId "restart_container" arguments) ↔
      ∀ named, arguments.lookup "container_id" = some (.str named) → strip named ≠ "" →
        c.FindsNamed named (c.foundTwice named) := by
  obtain ⟨named,found⟩ := satisfied.text "container_id" (by simp [Stream.restartContainer]) (by rfl)
  have only := names_text Stream.restartContainer .container (by simp [Stream.restartContainer])
    (by simp [Stream.restartContainer]) (fun value => by cases value <;> rfl) found
  have alone {P : String → Prop} : (∀ text, arguments.lookup "container_id" = some (.str text) → P text) ↔ P named := by
    simp [found]
  have sent : c.streamIntent nodeId "restart_container" arguments =
      match ChatStream.copyArg (.object arguments) "container_id" [] with
      | some params => c.approved (c.persisted (c.stored ⟨nodeId,"RESTART_CONTAINER",params,.str "","MEDIUM"⟩))
      | none => none := rfl
  rw [alone,sent,copyArg_object,found]
  dsimp only
  rw [List.nil_append]
  rw [persisted_container rfl,show extractContainerTarget (c.stored ⟨nodeId,"RESTART_CONTAINER",
    [("container_id",.str named)],.str "","MEDIUM"⟩).params = strip named from extract_containerId]
  unfold Setting.foundTwice
  have direct : Agrees c.worker c.names Stream.restartContainer arguments
      (c.approved (c.stored ⟨nodeId,"RESTART_CONTAINER",[("container_id",.str named)],.str "","MEDIUM"⟩)) ↔
      (strip named ≠ "" → c.FindsNamed named (c.atApproval (strip named))) :=
    container_agrees rfl (targetService_container rfl rfl rfl) extract_containerId only
  by_cases empty : strip named = ""
  · rw [if_pos empty,direct]
    simp [empty]
  · rw [if_neg empty]
    cases c.atProposal (strip named) with
    | ambiguous | notFound => exact direct
    | matched value =>
      have again : Agrees c.worker c.names Stream.restartContainer arguments
          (c.approved {c.stored ⟨nodeId,"RESTART_CONTAINER",[("container_id",.str named)],.str "","MEDIUM"⟩ with
            params := [("container_id",.str value),("target",.str value)]}) ↔
          (strip value ≠ "" → c.FindsNamed named (c.atApproval (strip value))) :=
        container_agrees rfl (targetService_container rfl rfl rfl) extract_matched only
      dsimp only
      refine again.trans ?_
      by_cases blank : strip value = ""
      · simp [blank,empty,Setting.FindsNamed]
      · simp [blank,empty]

/-- A call whose arguments satisfy the schema of its tool is sent as the worker reads it exactly in
these cases. -/
theorem agrees_iff (c : Setting) (caller : Caller) {tool : Tool} (offered : tool ∈ caller.tools) {arguments : Fields}
    (satisfied : tool.Satisfied arguments) :
    Agrees c.worker c.names tool arguments (c.intent caller tool.name arguments) ↔ c.Holds arguments caller tool.name := by
  cases caller with
  | toolExecutor =>
    show Agrees _ _ _ _ (c.toolIntent tool.name arguments) ↔ c.ToolHolds arguments tool.name
    by_cases reached : c.Reaches arguments
    · have once {P : Prop} : (c.sends = true → c.Reaches arguments → P) ↔ (c.sends = true → P) :=
        imp_congr_right fun _ => ⟨fun holds => holds reached,fun holds _ => holds⟩
      simp only [Caller.tools,toolDefinitions,List.mem_cons,List.not_mem_nil,or_false] at offered
      rcases offered with rfl | rfl | rfl | rfl | rfl | rfl | rfl | rfl
      · exact ⟨fun _ => trivial,fun _ => agrees_none⟩
      · exact ⟨fun _ => trivial,fun _ => getNodeMetrics_agrees⟩
      · exact ⟨fun _ => trivial,fun _ => listServices_agrees reached⟩
      · exact (getServiceStatus_agrees satisfied reached).trans once.symm
      · exact ⟨fun _ => trivial,fun _ => listContainers_agrees reached⟩
      · exact (readLogs_agrees satisfied reached).trans once.symm
      · exact ⟨fun _ => trivial,fun _ => proposeRestartService_agrees satisfied reached⟩
      · exact (proposeRestartContainer_agrees satisfied reached).trans ⟨fun holds _ => holds,fun holds => holds reached⟩
    · rw [toolIntent_unreached reached]
      refine ⟨fun _ => ?_,fun _ => agrees_none⟩
      simp only [Caller.tools,toolDefinitions,List.mem_cons,List.not_mem_nil,or_false] at offered
      rcases offered with rfl | rfl | rfl | rfl | rfl | rfl | rfl | rfl
      · trivial
      · trivial
      · trivial
      · exact fun _ reaches => absurd reaches reached
      · trivial
      · exact fun _ reaches => absurd reaches reached
      · trivial
      · exact fun reaches => absurd reaches reached
  | chatStream nodeId =>
    show Agrees _ _ _ _ (c.streamIntent nodeId tool.name arguments) ↔ c.StreamHolds arguments tool.name
    simp only [Caller.tools,Stream.toolsList,List.mem_cons,List.not_mem_nil,or_false] at offered
    rcases offered with rfl | rfl | rfl | rfl | rfl | rfl | rfl
    · exact ⟨fun _ => trivial,fun _ => stream_listContainers_agrees⟩
    · exact ⟨fun _ => trivial,fun _ => stream_listServices_agrees⟩
    · exact stream_readLogs_agrees nodeId satisfied
    · exact stream_statusService_agrees satisfied
    · exact stream_restartService_agrees satisfied
    · exact stream_restartContainer_agrees satisfied
    · exact ⟨fun agrees => stream_diskScan_disagrees agrees,fun holds => holds.elim⟩

/-- One text for the only argument of an open schema. -/
theorem satisfied_text (only : tool.properties = [(key,.string)]) (required : ∀ other ∈ tool.required, other = key)
    (isOpen : tool.additionalProperties = true) : tool.Satisfied [(key,.str text)] where
  present := by
    intro other member
    rw [required other member,List.lookup_cons_self]
    rfl
  admitted := by
    intro other value found type isType
    rw [only] at isType
    by_cases same : other = key
    · subst same
      rw [List.lookup_cons_self] at found isType
      cases found
      cases isType
      rfl
    · rw [List.lookup_cons,beq_false_of_ne same] at found
      cases found
  closed := fun closed => by
    rw [isOpen] at closed
    cases closed

end

/-- A node manager that refuses `send_intent`, an administrator, containers known by their names. -/
def ordinary : Setting where
  surroundings := ⟨fun _ => .ok ⟨"a3c1","web",true⟩,fun _ => .error ""⟩
  sends := false
  py := ⟨id,fun _ => "",fun _ => none,fun _ _ => .notFound,fun _ => []⟩
  claims := ⟨"root",some "admin"⟩
  proposalId := "p"
  userId := "ai"
  now := 0
  atProposal := .matched
  atApproval := .matched
  worker := ⟨fun path => "/var/log/".toList.isPrefixOf path.toList,fun _ _ => true⟩
  names := (· = ·)

theorem agrees_iff_status : Stream.statusService ∈ (Caller.chatStream "a3c1").tools ∧
    Stream.statusService.Satisfied [("service",.str "nginx")] ∧
    (Agrees ordinary.worker ordinary.names Stream.statusService [("service",.str "nginx")]
        (ordinary.intent (.chatStream "a3c1") Stream.statusService.name [("service",.str "nginx")]) ↔
      ordinary.Holds [("service",.str "nginx")] (.chatStream "a3c1") Stream.statusService.name) :=
  have offered : Stream.statusService ∈ (Caller.chatStream "a3c1").tools := by simp [Caller.tools,Stream.toolsList]
  have satisfied : Stream.statusService.Satisfied [("service",.str "nginx")] :=
    satisfied_text rfl (by simp [Stream.statusService]) rfl
  ⟨offered,satisfied,agrees_iff ordinary (.chatStream "a3c1") offered satisfied⟩

/-- The log that the chat stream asks for never gets to the worker. -/
theorem syslog_disagrees : Stream.readLogs ∈ (Caller.chatStream "a3c1").tools ∧
    Stream.readLogs.Satisfied [("file",.str "/var/log/syslog")] ∧
    ordinary.intent (.chatStream "a3c1") Stream.readLogs.name [("file",.str "/var/log/syslog")] =
      some ("READ_LOGS",[("file",.str "/var/log/syslog")]) ∧
    ¬Agrees ordinary.worker ordinary.names Stream.readLogs [("file",.str "/var/log/syslog")]
      (ordinary.intent (.chatStream "a3c1") Stream.readLogs.name [("file",.str "/var/log/syslog")]) := by
  have satisfied : Stream.readLogs.Satisfied [("file",.str "/var/log/syslog")] :=
    satisfied_text rfl (by simp [Stream.readLogs]) rfl
  refine ⟨by simp [Caller.tools,Stream.toolsList],satisfied,rfl,fun agrees => ?_⟩
  have blocked : ∃ file, List.lookup "file" [("file",Json.str "/var/log/syslog")] = some (.str file) ∧
      file ∉ ChatStream.allowedLogPaths := (stream_readLogs_agrees "a3c1" satisfied).mp agrees
  obtain ⟨file,found,blocked⟩ := blocked
  rw [List.lookup_cons_self,Option.some.injEq,Json.str.injEq] at found
  subst found
  exact blocked (by simp [ChatStream.allowedLogPaths])

end Vigile.Copilot
