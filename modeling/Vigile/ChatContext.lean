import Vigile.Binary64
import Vigile.Python

/-! The system prompt of the chat: `_build_chat_context` on a fleet and on one node. -/
namespace Vigile.ChatContext

open Python

/-- A float with a fixed number of decimals, as `format` writes it. -/
def fixed (decimals : Nat) (f : Binary64) : String :=
  let scaled := Binary64.nearest (f.magnitude * 10 ^ decimals)
  let fraction := (Nat.toDigits 10 (scaled % 10 ^ decimals)).leftpad decimals '0'
  (if f.negative then "-" else "") ++ toString (scaled / 10 ^ decimals) ++
    if decimals = 0 then "" else "." ++ String.ofList fraction

def chatGeneric (langInstruction fleetContext : String) : String :=
  "You are Vigile Copilot, an expert sysadmin and server fleet assistant.\n" ++
  "You help operators monitor and manage their homelabs and server fleet.\n\nCRITICAL RESPONSE RULES:\n" ++
  "1. USE REAL FLEET DATA: When asked about the fleet status, health, or servers, ALWAYS use the \"Current Fleet " ++
  "Overview\" below to report real status (server names, online/offline counts, CPU/RAM/Disk metrics, active alerts). " ++
  "NEVER output generic manual CLI instructions (do NOT tell the operator to manually run `top`, `df`, `free`, or " ++
  "`systemctl` when the fleet data is monitored right here).\n" ++
  "2. ULTRA-CONCISE: Maximum 3 to 5 bullet points. Direct, precise, no conversational filler or intro text.\n" ++
  "3. FORMATTING: Use clean Markdown with **bold** for metrics/servers and `inline code` for names.\n\n" ++
  langInstruction ++ "\n\nCurrent Fleet Overview:\n" ++ fleetContext ++ "\n"

def chatNodeNotFound (langInstruction : String) : String :=
  "You are a server fleet management AI assistant. The specified node was not found. " ++ langInstruction ++ "\n"

def chatWithContext (langInstruction contextLines : String) : String :=
  "You are Vigile Copilot, an expert sysadmin and server fleet assistant.\n" ++
  "You help operators diagnose and resolve server issues.\n\n" ++
  "Available actions you can propose (use the proper action name):\n- GET_STATS: Collect CPU/RAM/disk metrics\n" ++
  "- READ_LOGS: Read log files from /var/log/\n- LIST_SERVICES: List systemd services\n" ++
  "- STATUS_SERVICE: Get status of a specific service\n- RESTART_SERVICE: Restart a systemd service\n" ++
  "- LIST_CONTAINERS: List Docker containers\n- RESTART_CONTAINER: Restart a Docker container\n" ++
  "- DISK_SCAN: Scan directory disk usage\n\nCRITICAL RESPONSE GUIDELINES:\n" ++
  "1. BREVITY: Be ultra-concise, direct, and actionable. Maximum 3 to 5 sentences or short bullet points. NEVER write " ++
  "long essays, redundant steps, or conversational filler.\n" ++
  "2. FORMATTING: Use clean Markdown: **bold** for metrics/findings, `inline code` for services, paths, and commands.\n" ++
  "3. ROOT CAUSE: State the immediate cause and the concrete fix or command.\n\n" ++
  langInstruction ++ "\n\nCurrent node context:\n" ++ contextLines

/-- The names that the module binds, and the builtins that the function reads. -/
def bound : List String :=
  ["annotations","json","logging","re","time","SequenceMatcher","Any","DB","ActionProposal","NodeManager","StructuredLLM",
    "logger","MAX_MESSAGE_LENGTH","MAX_HISTORY_SIZE","ALLOWED_LOG_PATHS","_sanitize_message","_cap_history",
    "_validate_log_path","_build_chat_context","_CONTAINER_TARGET_KEYS","_FUZZY_CONTAINER_THRESHOLD",
    "_FUZZY_CONTAINER_AMBIGUITY_MARGIN","_normalize_action_proposal","_extract_container_target",
    "_resolve_container_target","_get_cached_containers","_get_live_containers","_match_container",
    "_container_match_variants","_normalize_match_text","_persist_proposal","_list_available_actions","len","id","Exception"]

/-- The object of a name that the function itself does not bind. -/
def load (name : String) : Except PyError String :=
  if name ∈ bound then .ok name else .error (.otherException s!"name '{name}' is not defined")

/-- `row[key]` where the key is one of these objects: the keys of a row are texts. -/
def subscript {ρ α : Type} (_row : ρ) (key : String) : Except PyError α := .error (.otherException s!"KeyError: {key}")

def get {ρ α : Type} (_row : ρ) (_key : String) (default : α) : α := default

structure NodeRow where
  id : String
  name : String
  state : String
  os : Option String
  arch : Option String
  hostname : Option String
  deriving DecidableEq

structure Snapshot where
  cpuPercent : Binary64
  memPercent : Binary64
  diskPercent : Binary64
  uptimeSeconds : Binary64

def shown (column : Option String) : String := column.getD "None"

def prefix8 (id : String) : String := String.ofList (id.toList.take 8)

def percents (cpu mem disk : Binary64) : String :=
  s!"CPU: {fixed 1 cpu}% | RAM: {fixed 1 mem}% | Disk: {fixed 1 disk}%"

def online (node : NodeRow) : Bool := node.state = "CONNECTED"

def offline (node : NodeRow) : Bool := !online node

/-- The first line of the overview. -/
def totals (nodes : List NodeRow) : String :=
  s!"Total servers: {nodes.length} ({(nodes.filter online).length} online, {(nodes.filter offline).length} offline)"

/-- `n.get(name, n[id])`, where neither name is in quotes. -/
def liveLabel (n : NodeRow) : Except PyError String := do
  let name ← load "name"
  let default ← subscript n (← load "id")
  return get n name default

/-- The try block of an online node, with what its SELECT comes to. -/
def liveMetrics (row : Except PyError (Option Snapshot)) (n : NodeRow) : Except PyError String := do
  let mStr ← match ← row with
    | none => pure ""
    | some row => do
      let cpu ← subscript row (← load "cpu_percent")
      let mem ← subscript row (← load "mem_percent")
      let disk ← subscript row (← load "disk_percent")
      pure (" | " ++ percents cpu mem disk)
  let label ← liveLabel n
  let id ← subscript n (← load "id")
  return s!"- {label} (ID: {prefix8 id}...){mStr}"

def liveOnlineLine (row : Except PyError (Option Snapshot)) (n : NodeRow) : Except PyError String :=
  match liveMetrics row n with
  | .ok line => .ok line
  | .error error => if error.isException then (liveLabel n).map fun label => s!"- {label}" else .error error

def liveOfflineLine (n : NodeRow) : Except PyError String := do
  let label ← liveLabel n
  let state ← load "state"
  let default ← load "OFFLINE"
  return s!"- {label} (State: {get n state default})"

def liveLines (latest : String → Except PyError (Option Snapshot)) (nodes : List NodeRow) : Except PyError (List String) := do
  let up ← (nodes.filter online).mapM fun node => liveOnlineLine (latest node.id) node
  let down ← (nodes.filter offline).mapM liveOfflineLine
  return totals nodes :: "\nOnline Servers:" :: up ++
    if nodes.filter offline = [] then [] else "\nOffline / Unreachable Servers:" :: down

structure Insight where
  severity : Option String
  headline : Option String
  nodeId : Option String
  detail : Option String

structure Demo where
  nodes : List NodeRow
  metrics : String → List Snapshot
  insights : List Insight

def demoOnlineLine (demo : Demo) (node : NodeRow) : String :=
  let mStr := match demo.metrics node.id with
    | [] => ""
    | m :: _ => " | " ++ percents m.cpuPercent m.memPercent m.diskPercent
  s!"- {node.name} (ID: {node.id}){mStr}"

def demoOfflineLine (node : NodeRow) : String := s!"- {node.name} (State: {node.state})"

def Insight.actionable (insight : Insight) : Bool :=
  insight.severity = some "warning" || insight.severity = some "critical" || insight.severity = some "offline"

def Insight.line (insight : Insight) : String :=
  let severity := (insight.severity.getD "warning").toUpper
  let target := insight.nodeId.getD "fleet"
  s!"- [{severity}] {shown insight.headline} (Target: {target}): {shown insight.detail}"

def demoLines (demo : Demo) : List String :=
  let actionable := demo.insights.filter Insight.actionable
  totals demo.nodes :: "\nOnline Servers:" :: (demo.nodes.filter online).map (demoOnlineLine demo) ++
    (if demo.nodes.filter offline = [] then []
      else "\nOffline / Unreachable Servers:" :: (demo.nodes.filter offline).map demoOfflineLine) ++
    if actionable = [] then [] else "\nActive Insights / Issues:" :: (actionable.take 5).map Insight.line

def isDemo (claims : Fields) : Bool :=
  match Fields.get claims "username" with
  | .str username => username = "guest" || username = "demo"
  | _ => false

/-- What the function reads: the rows of `list_nodes` and `get_node`, and the newest snapshot of a node. -/
structure Database where
  nodes : List NodeRow
  getNode : String → Option NodeRow
  latest : String → Except PyError (Option Snapshot)

def nodeMetrics (m : Snapshot) : String :=
  let hours := (Binary64.round m.uptimeSeconds.negative (m.uptimeSeconds.magnitude / 3600)).getD m.uptimeSeconds
  percents m.cpuPercent m.memPercent m.diskPercent ++ s!" | Uptime: {fixed 0 hours}h"

/-- What is said of one node; an error of its SELECT is logged. -/
def contextParts (latest : Except PyError (Option Snapshot)) (nodeId : String) (node : NodeRow) : Except PyError (List String) :=
  let described := [s!"Node: {node.name} (ID: {prefix8 nodeId}...)",s!"State: {node.state}",
    s!"OS: {shown node.os} / {shown node.arch}",s!"Hostname: {shown node.hostname}"]
  if online node then
    match latest with
    | .ok row => .ok (described ++ "Status: online" :: (row.map nodeMetrics).toList)
    | .error error => if error.isException then .ok (described ++ ["Status: online"]) else .error error
  else .ok described

def langInstruction (locale : String) : String :=
  if locale = "en" then "You must always reply in English." else "Tu dois toujours répondre en français."

def fleetWide (nodeId : Option String) : Bool := nodeId = none || nodeId = some "" || nodeId = some "all"

def demoUser (claims : Option Fields) : Bool := claims.any fun claims => !claims.isEmpty && isDemo claims

def buildChatContext (demo : Demo) (db : Database) (nodeId : Option String) (locale : String) (claims : Option Fields) :
    Except PyError String := do
  if fleetWide nodeId then
    let fleetLines ← if demoUser claims then pure (demoLines demo) else liveLines db.latest db.nodes
    return chatGeneric (langInstruction locale) (String.intercalate "\n" fleetLines)
  else
    let nodeId := nodeId.getD ""
    match db.getNode nodeId with
    | none => return chatNodeNotFound (langInstruction locale)
    | some node =>
      let parts ← contextParts (db.latest nodeId) nodeId node
      return chatWithContext (langInstruction locale) (String.intercalate "\n" (parts.map fun line => "- " ++ line))

/-! What the overview has to say -/

def ShowsOnline (latest : String → Except PyError (Option Snapshot)) (node : NodeRow) (line : String) : Prop :=
  ∃ rest, line = "- " ++ node.name ++ rest ∧ ∀ m, latest node.id = .ok (some m) →
    contains (percents m.cpuPercent m.memPercent m.diskPercent) rest = true

def ShowsOffline (node : NodeRow) (line : String) : Prop :=
  ∃ rest, line = "- " ++ node.name ++ rest ∧ contains node.state rest = true

/-- The prompt of a fleet: one line for each node, under the heading of its state. -/
def Overview (db : Database) (locale : String) (result : Except PyError String) : Prop :=
  ∃ up down : List String, result = .ok (chatGeneric (langInstruction locale) (String.intercalate "\n"
      (totals db.nodes :: "\nOnline Servers:" :: up ++
        if db.nodes.filter offline = [] then [] else "\nOffline / Unreachable Servers:" :: down))) ∧
    List.Forall₂ (ShowsOnline db.latest) (db.nodes.filter online) up ∧
    List.Forall₂ ShowsOffline (db.nodes.filter offline) down

variable {n : NodeRow} {row : Except PyError (Option Snapshot)}

/-- The name of the function's source that no scope binds. -/
def nameError : PyError := .otherException "name 'name' is not defined"

theorem liveMetrics_error : ∃ error, liveMetrics row n = .error error := by
  cases row with
  | error error => exact ⟨error,rfl⟩
  | ok found =>
    cases found with
    | none => exact ⟨nameError,rfl⟩
    | some m => exact ⟨_,rfl⟩

/-- Neither the try block nor the except block writes a line. -/
theorem liveOnlineLine_error (row : Except PyError (Option Snapshot)) (n : NodeRow) :
    ∃ error, liveOnlineLine row n = .error error := by
  obtain ⟨error,raised⟩ : ∃ error, liveMetrics row n = .error error := liveMetrics_error
  simp only [liveOnlineLine,raised]
  split
  · exact ⟨nameError,rfl⟩
  · exact ⟨error,rfl⟩

theorem liveOfflineLine_error (n : NodeRow) : ∃ error, liveOfflineLine n = .error error := ⟨nameError,rfl⟩

/-- A loop over a line that fails fails at the first node. -/
theorem mapM_error {f : NodeRow → Except PyError String} (fails : ∀ n, ∃ error, f n = .error error) {nodes : List NodeRow}
    (filled : nodes ≠ []) : ∃ error, nodes.mapM f = .error error := by
  cases nodes with
  | nil => exact absurd rfl filled
  | cons n rest =>
    obtain ⟨error,raised⟩ := fails n
    exact ⟨error,by rw [List.mapM_cons,raised]; rfl⟩

theorem liveLines_error (latest : String → Except PyError (Option Snapshot)) {nodes : List NodeRow} (filled : nodes ≠ []) :
    ∃ error, liveLines latest nodes = .error error := by
  by_cases up : nodes.filter online = []
  · have down : nodes.filter offline ≠ [] := by
      intro none_
      cases nodes with
      | nil => exact filled rfl
      | cons n rest =>
        have notOnline := List.filter_eq_nil_iff.mp up n List.mem_cons_self
        have notOffline := List.filter_eq_nil_iff.mp none_ n List.mem_cons_self
        simp [offline,notOnline] at notOffline
    obtain ⟨error,raised⟩ := mapM_error liveOfflineLine_error down
    exact ⟨error,by simp only [liveLines,up,List.mapM_nil,raised]; rfl⟩
  · obtain ⟨error,raised⟩ := mapM_error (fun n => liveOnlineLine_error (latest n.id) n) up
    exact ⟨error,by simp only [liveLines,raised]; rfl⟩

/-- A prompt that lists the fleet is built exactly for the fleet without nodes. -/
theorem overview_iff (demo : Demo) (db : Database) {nodeId : Option String} (locale : String) {claims : Option Fields}
    (asked : fleetWide nodeId = true) (user : demoUser claims = false) :
    Overview db locale (buildChatContext demo db nodeId locale claims) ↔ db.nodes = [] := by
  constructor
  · rintro ⟨up,down,built,-⟩
    by_contra filled
    obtain ⟨error,raised⟩ := liveLines_error db.latest filled
    simp only [buildChatContext,asked,user,raised] at built
    cases built
  · intro empty
    refine ⟨[],[],?_,?_,?_⟩
    · simp only [buildChatContext,asked,user,liveLines,empty,List.filter_nil]
      rfl
    · simp only [empty,List.filter_nil,List.Forall₂.nil]
    · simp only [empty,List.filter_nil,List.Forall₂.nil]

def noDemo : Demo := ⟨[],fun _ => [],[]⟩

def fleet (nodes : List NodeRow) : Database := ⟨nodes,fun id => nodes.find? fun node => node.id = id,fun _ => .ok none⟩

theorem overview_iff_empty : Overview (fleet []) "fr" (buildChatContext noDemo (fleet []) (some "all") "fr" none) ↔
    (fleet []).nodes = [] :=
  overview_iff noDemo (fleet []) "fr" rfl rfl

/-- One connected node without a snapshot is enough. -/
theorem not_overview_connected : ¬∀ demo db nodeId locale claims, fleetWide nodeId = true → demoUser claims = false →
    Overview db locale (buildChatContext demo db nodeId locale claims) := by
  intro claim
  obtain ⟨up,down,built,-⟩ := claim noDemo (fleet [⟨"3f2a9c41","web-01","CONNECTED",none,none,none⟩]) none "fr" none rfl rfl
  cases built

end Vigile.ChatContext
