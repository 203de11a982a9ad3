import Vigile.Python
import Vigile.LLMStream

/-! The ReAct loop of `chat_stream` and the message lists it passes to `llm.stream`. The
events it sends to the browser are left out. -/
namespace Vigile.ChatStream
open Python LLMClient

/-- A message, with `tool_calls` as far as the field is read: `ρ` is the list itself or
the number of the list object. -/
inductive Message (ρ : Type) where
  | other (role content : String)
  | assistant (content : Option String) (toolCalls : ρ)
  | tool (toolCallId name : String) (content : Json)

structure Context where
  nodeId : Option String
  locale : String
  /-- `json.loads`, where it does not raise. -/
  loads : String → Option Json
  /-- `str` of a JSON value. -/
  str : Json → String
  /-- `port.query`, at the moment given by the number of messages appended so far. -/
  query : Nat → String → String → Fields → Except PyError Fields

/-- The node the tools work on: `node_id and node_id != "all"`. -/
def Context.node (ctx : Context) : Option String :=
  ctx.nodeId.filter fun node => node ≠ "" && node ≠ "all"

def allowedLogPaths : List String :=
  ["/var/log/syslog","/var/log/messages","/var/log/auth.log","/var/log/kern.log",
    "/var/log/dpkg.log","/var/log/apt/history.log","/var/log/nginx/access.log",
    "/var/log/nginx/error.log","/var/log/apache2/access.log","/var/log/apache2/error.log",
    "/var/log/mysql/error.log","/var/log/postgresql/postgresql.log"]

def validateLogPath : Json → Bool
  | .null => true
  | .str path => allowedLogPaths.contains path
  | _ => false

/-- `key in args`; it raises for a number, a truth value and `None`. -/
def present (args : Json) (key : String) : Option Bool :=
  match args with
  | .object fields => some (fields.any (·.1 = key))
  | .array items => some (items.any fun | .str text => text = key | _ => false)
  | .str text => some (contains key text)
  | .num _ | .bool _ | .null => none

/-- `params[key] = args[key]` if the key is in `args`; reading a list or a text by it
raises. -/
def copyArg (args : Json) (key : String) (params : Fields) : Option Fields :=
  match present args key, args with
  | some false, _ => some params
  | some true, .object fields => some (params ++ [(key,Fields.get fields key)])
  | _, _ => none

def readAction : String → Option String
  | "list_containers" => some "LIST_CONTAINERS"
  | "list_services" => some "LIST_SERVICES"
  | "read_logs" => some "READ_LOGS"
  | "status_service" => some "STATUS_SERVICE"
  | "disk_scan" => some "DISK_SCAN"
  | _ => none

/-- The parameter that a write tool takes from its arguments. -/
def writeKey : String → Option String
  | "restart_service" => some "service"
  | "restart_container" => some "container_id"
  | _ => none

def readParams (name : String) (args : Json) : Option Fields :=
  match name with
  | "read_logs" => copyArg args "file" []
  | "status_service" => copyArg args "service" []
  | "disk_scan" =>
    (copyArg args "path" []).bind fun params =>
      (copyArg args "max_depth" params).bind (copyArg args "min_size_bytes")
  | _ => some []

def failure (error : String) : Json := .object [("success",.bool false),("error",.str error)]

inductive Outcome where
  /-- It is answered, with this under `json.dumps`. -/
  | answered (content : Json)
  /-- The generator is over: a proposal waits for approval. -/
  | proposed
  /-- The generator is over: an exception got to its last handler, or it was cancelled. -/
  | raised

def unavailable (ctx : Context) (name : String) : String :=
  if ctx.node.isSome then "Outil '" ++ name ++ "' non reconnu ou non disponible."
  else if ctx.locale = "fr" then
    "Veuillez sélectionner un serveur spécifique dans la liste pour exécuter cette inspection."
  else "Please select a specific server from the list to perform this inspection."

/-- The READ branch. -/
def inspect (ctx : Context) (moment : Nat) (node action name : String) (args : Json) : Outcome :=
  match readParams name args with
  | none => .raised
  | some params =>
    let requestedPath := Fields.get params "file"
    if name = "read_logs" && !validateLogPath requestedPath then
      .answered (failure ("Access denied: log file '" ++ ctx.str requestedPath ++
        "' is not in the allowed list."))
    else
      match ctx.query moment node action params with
      | .ok result => .answered (.object result)
      | .error error => if error.isException then .answered (failure error.text) else .raised

/-- The three branches; whether the proposal is stored or its storing fails, the WRITE
branch ends the generator. -/
def execute (ctx : Context) (moment : Nat) (name : String) (args : Json) : Outcome :=
  match ctx.node, readAction name, writeKey name with
  | some node, some action, _ => inspect ctx moment node action name args
  | some _, none, some key => if (copyArg args key []).isSome then .proposed else .raised
  | _, _, _ => .answered (failure (unavailable ctx name))

structure LoopState where
  appended : List (Message Nat)
  lists : List (List ToolCall)
  seen : List String
  tokenBuffer : String

def LoopState.start : LoopState := ⟨[],[],[],""⟩

def fingerprint (call : ToolCall) : String := call.name ++ ":" ++ call.arguments

def duplicate : Json := failure "This action was already performed in a previous step."

def LoopState.content (s : LoopState) : Option String :=
  if s.tokenBuffer = "" then none else some s.tokenBuffer

/-- `assistant_tool_calls.append`, seen through every message that has the object. -/
def LoopState.list (s : LoopState) (call : ToolCall) : LoopState :=
  { s with
    seen := fingerprint call :: s.seen
    lists := s.lists.modify (s.lists.length - 1)
      (· ++ [⟨call.id,"function",call.name,call.arguments⟩]) }

def LoopState.append (s : LoopState) (messages : List (Message Nat)) : LoopState :=
  { s with appended := s.appended ++ messages }

/-- One pass of the loop over `tool_calls_buf`; `none` when it ends the generator. -/
def processCall (ctx : Context) (s : LoopState) (call : ToolCall) : Option LoopState :=
  if fingerprint call ∈ s.seen then some (s.append [.tool call.id call.name duplicate])
  else
    let listed := s.list call
    match execute ctx s.appended.length call.name ((ctx.loads call.arguments).getD (.object [])) with
    | .answered content =>
      some (listed.append [.assistant s.content (s.lists.length - 1),.tool call.id call.name content])
    | .proposed | .raised => none

def processCalls (ctx : Context) (s : LoopState) : List ToolCall → Option LoopState
  | [] => some s
  | call :: rest => (processCall ctx s call).bind (processCalls ctx · rest)

/-- One step, from its call of `llm.stream` to the next one: `none` when there is none. -/
def step (ctx : Context) (s : LoopState) (events : List Event) : Option LoopState :=
  match toolCallsBuf s.tokenBuffer events with
  | none => none
  | some consumed =>
    if consumed.toolCalls.isEmpty then none
    else processCalls ctx
      { s with tokenBuffer := consumed.tokenBuffer, lists := s.lists ++ [[]] } consumed.toolCalls

def maxSteps : Nat := 5

/-- The states in which `llm.stream` is called, the model answering as `answers` says. -/
inductive Calls (ctx : Context) (answers : Nat → List Event) : Nat → LoopState → Prop where
  | start : Calls ctx answers 0 .start
  | step {k : Nat} {s s' : LoopState} : Calls ctx answers k s → k + 1 < maxSteps →
      step ctx s (answers k) = some s' → Calls ctx answers (k + 1) s'

def deref (lists : List (List ToolCall)) : Message Nat → Message (List ToolCall)
  | .other role content => .other role content
  | .assistant content ref => .assistant content (lists.getD ref [])
  | .tool id name content => .tool id name content

def LoopState.sent (s : LoopState) : List (Message (List ToolCall)) := s.appended.map (deref s.lists)

/-- What a message does to the calls: list some, answer one, or neither. -/
inductive Mark where
  | lists (ids : List String)
  | answers (id : String)
  | other
  deriving DecidableEq

def Message.mark : Message (List ToolCall) → Mark
  | .other .. => .other
  | .assistant _ calls => .lists (calls.map ToolCall.id)
  | .tool id .. => .answers id

def Mark.answered : Mark → Option String
  | .answers id => some id
  | _ => none

def answeredNext : List Mark → List String
  | .answers id :: rest => id :: answeredNext rest
  | _ => []

/-- The messages are well formed when `nearest` are the calls of the nearest assistant
message before them: each answer is to one of those, and each listed call is answered
once before a message of another role. -/
def WellFormed (nearest : List String) : List Mark → Prop
  | [] => True
  | .other :: rest => WellFormed nearest rest
  | .answers id :: rest => id ∈ nearest ∧ WellFormed nearest rest
  | .lists ids :: rest => (∀ id ∈ ids, (answeredNext rest).count id = 1) ∧ WellFormed ids rest

def nearest (messages : List (Message (List ToolCall))) : List String :=
  messages.foldl (fun ids message =>
    match message with
    | .assistant _ calls => calls.map ToolCall.id
    | _ => ids) []

def freshCalls (seen : List String) : List ToolCall → List ToolCall
  | [] => []
  | call :: rest =>
    if fingerprint call ∈ seen then freshCalls seen rest
    else call :: freshCalls (fingerprint call :: seen) rest

/-- `answered` are the ids of `listed`, each once. -/
def Closes (listed answered : List String) : Prop :=
  (∀ id ∈ listed, answered.count id = 1) ∧ ∀ id ∈ answered, id ∈ listed

/-- Every call that repeats none, with the repetitions right after it, has the ids of the
listed calls; `group` is the ids of the last such call and its repetitions so far. -/
def Grouped (listed group seen : List String) : List ToolCall → Prop
  | [] => Closes listed group
  | call :: rest =>
    if fingerprint call ∈ seen then Grouped listed (group ++ [call.id]) seen rest
    else Closes listed group ∧ Grouped listed [call.id] (fingerprint call :: seen) rest

def Orderly (seen : List String) : List ToolCall → Prop
  | [] => True
  | call :: rest => fingerprint call ∉ seen ∧
      Grouped ((freshCalls seen (call :: rest)).map ToolCall.id) [call.id]
        (fingerprint call :: seen) rest

/-! What one step appends. -/

def LoopState.marks (s : LoopState) : List Mark := s.sent.map Message.mark

def stepMarks (ids seen : List String) : List ToolCall → List Mark
  | [] => []
  | call :: rest =>
    if fingerprint call ∈ seen then .answers call.id :: stepMarks ids seen rest
    else .lists ids :: .answers call.id :: stepMarks ids (fingerprint call :: seen) rest

def seenAfter (seen : List String) : List ToolCall → List String
  | [] => seen
  | call :: rest =>
    if fingerprint call ∈ seen then seenAfter seen rest
    else seenAfter (fingerprint call :: seen) rest

@[simp] theorem append_seen (s : LoopState) (messages : List (Message Nat)) :
    (s.append messages).seen = s.seen := rfl

@[simp] theorem append_lists (s : LoopState) (messages : List (Message Nat)) :
    (s.append messages).lists = s.lists := rfl

@[simp] theorem append_appended (s : LoopState) (messages : List (Message Nat)) :
    (s.append messages).appended = s.appended ++ messages := rfl

@[simp] theorem list_seen (s : LoopState) (call : ToolCall) :
    (s.list call).seen = fingerprint call :: s.seen := rfl

@[simp] theorem list_appended (s : LoopState) (call : ToolCall) :
    (s.list call).appended = s.appended := rfl

theorem modify_last {α : Type} (older : List α) (last : α) (change : α → α) :
    (older ++ [last]).modify older.length change = older ++ [change last] := by
  induction older with
  | nil => rfl
  | cons head tail ih => simpa using ih

variable {ctx : Context} {s s' : LoopState} {events : List Event}

/-- A call that is answered either repeats one, or is listed and answered. -/
theorem processCall_cases {call : ToolCall}
    (continues : processCall ctx s call = some s') :
    (fingerprint call ∈ s.seen ∧ s' = s.append [.tool call.id call.name duplicate]) ∨
      (fingerprint call ∉ s.seen ∧ ∃ content, s' = (s.list call).append
        [.assistant s.content (s.lists.length - 1),.tool call.id call.name content]) := by
  unfold processCall at continues
  split at continues
  case isTrue repeated => exact .inl ⟨repeated,(Option.some.inj continues).symm⟩
  case isFalse fresh =>
    split at continues
    case h_1 content _ => exact .inr ⟨fresh,content,(Option.some.inj continues).symm⟩
    all_goals cases continues

theorem deref_listed (lists : List (List ToolCall)) (ids : List String) (ref : Nat)
    (content : Option String) (current : (lists.getD ref []).map ToolCall.id = ids) :
    (deref lists (.assistant content ref)).mark = .lists ids := by
  rw [← current]
  rfl

/-- The calls of a step extend its list object and append messages that refer to it. -/
theorem processCalls_appends (older : List (List ToolCall)) (calls : List ToolCall) (current : List ToolCall) (owns : s.lists = older ++ [current])
    (continues : processCalls ctx s calls = some s') :
    ∃ (listed : List ToolCall) (messages : List (Message Nat)),
      listed.map ToolCall.id = (freshCalls s.seen calls).map ToolCall.id ∧
      s'.lists = older ++ [current ++ listed] ∧ s'.appended = s.appended ++ messages ∧
      s'.seen = seenAfter s.seen calls ∧
      (∀ message ∈ messages, ∀ content ref, message = .assistant content ref → ref = older.length) ∧
      ∀ (final : List ToolCall) (ids : List String), final.map ToolCall.id = ids →
        messages.map (fun message => (deref (older ++ [final]) message).mark) =
          stepMarks ids s.seen calls := by
  induction calls generalizing s current with
  | nil =>
    cases continues
    exact ⟨[],[],rfl,by simpa using owns,by simp,rfl,by simp,fun _ _ _ => rfl⟩
  | cons call rest ih =>
    obtain ⟨mid,first,later⟩ := Option.bind_eq_some_iff.mp continues
    obtain ⟨repeated,rfl⟩ | ⟨fresh,content,rfl⟩ := processCall_cases first
    · obtain ⟨listed,messages,same,lists,appended,seen,refs,marks⟩ := ih (s := s.append [.tool call.id call.name duplicate]) current owns later
      refine ⟨listed,.tool call.id call.name duplicate :: messages,?_,lists,?_,?_,?_,?_⟩
      · simpa [freshCalls,repeated] using same
      · simp [appended]
      · simpa [seenAfter,repeated] using seen
      · intro message member content ref isAssistant
        obtain rfl | here := List.mem_cons.mp member
        · cases isAssistant
        · exact refs message here content ref isAssistant
      · intro final ids names
        have tail := marks final ids names
        rw [append_seen] at tail
        rw [stepMarks,if_pos repeated,List.map_cons,tail]
        rfl
    · have bound : s.lists.length - 1 = older.length := by simp [owns]
      have extended : (s.list call).lists = older ++ [current ++
          [⟨call.id,"function",call.name,call.arguments⟩]] := by
        rw [LoopState.list,bound,owns]
        exact modify_last older current _
      obtain ⟨listed,messages,same,lists,appended,seen,refs,marks⟩ := ih
        (s := (s.list call).append [.assistant s.content (s.lists.length - 1),
          .tool call.id call.name content]) _ extended later
      refine ⟨⟨call.id,"function",call.name,call.arguments⟩ :: listed,
        .assistant s.content (s.lists.length - 1) :: .tool call.id call.name content :: messages,
        ?_,?_,?_,?_,?_,?_⟩
      · simpa [freshCalls,fresh] using same
      · simpa using lists
      · simp [appended]
      · simpa [seenAfter,fresh] using seen
      · intro message member content ref isAssistant
        obtain rfl | rfl | here := by simpa using member
        · cases isAssistant
          exact bound
        · cases isAssistant
        · exact refs message here content ref isAssistant
      · intro final ids names
        have tail := marks final ids names
        rw [append_seen,list_seen] at tail
        have listing := deref_listed (older ++ [final]) ids (s.lists.length - 1) s.content
          (by simpa [bound] using names)
        simp [stepMarks,fresh,tail,listing]
        simp [deref,Message.mark]

/-- No appended message refers to an object that is still to come. -/
def LoopState.Referring (s : LoopState) : Prop :=
  ∀ message ∈ s.appended, ∀ content ref, message = .assistant content ref → ref < s.lists.length

/-- Older messages keep what they list when the new object grows. -/
theorem deref_older {lists : List (List ToolCall)} {message : Message Nat} (final : List ToolCall)
    (old : ∀ content ref, message = .assistant content ref → ref < lists.length) :
    deref (lists ++ [final]) message = deref lists message := by
  cases message with
  | other | tool => rfl
  | assistant content ref =>
    have bound := old content ref rfl
    simp [deref,List.getElem?_append_left bound]

/-- A step that is followed by another call of `llm.stream`. -/
theorem step_marks
    (referring : s.Referring) (continues : step ctx s events = some s') :
    ∃ consumed, toolCallsBuf s.tokenBuffer events = some consumed ∧ consumed.toolCalls ≠ [] ∧
      s'.Referring ∧ s'.seen = seenAfter s.seen consumed.toolCalls ∧
      s'.marks = s.marks ++
        stepMarks ((freshCalls s.seen consumed.toolCalls).map ToolCall.id) s.seen consumed.toolCalls := by
  unfold step at continues
  split at continues
  · cases continues
  case h_2 consumed ended =>
    rw [Option.ite_none_left_eq_some] at continues
    obtain ⟨some_calls,continues⟩ := continues
    obtain ⟨listed,messages,same,lists,appended,seen,refs,marks⟩ :=
      processCalls_appends s.lists consumed.toolCalls [] rfl continues
    refine ⟨consumed,ended,by simpa using some_calls,?_,seen,?_⟩
    · intro message member content ref isAssistant
      rw [appended,List.mem_append] at member
      rw [lists,List.length_append]
      obtain old | new := member
      · have bound := referring message old content ref isAssistant
        simp only [List.length_singleton]
        omega
      · rw [refs message new content ref isAssistant]
        simp
    · have older : s.appended.map (deref s'.lists) = s.appended.map (deref s.lists) :=
        List.map_congr_left fun message member => by
          rw [lists]
          exact deref_older _ (referring message member)
      have newer := marks listed _ same
      rw [LoopState.marks,LoopState.sent,appended,List.map_append,List.map_append,older,lists]
      rw [LoopState.marks,LoopState.sent,← newer]
      simp

theorem answeredNext_append_lists (marks : List Mark) (ids : List String) (rest : List Mark) :
    answeredNext (marks ++ .lists ids :: rest) = answeredNext marks := by
  induction marks with
  | nil => rfl
  | cons mark marks ih => cases mark <;> simp [answeredNext,ih]

/-- An assistant message begins afresh. -/
theorem wellFormed_append_lists (marks : List Mark) (near ids : List String) (rest : List Mark) :
    WellFormed near (marks ++ .lists ids :: rest) ↔
      WellFormed near marks ∧ WellFormed [] (.lists ids :: rest) := by
  induction marks generalizing near with
  | nil => simp [WellFormed]
  | cons mark marks ih =>
    cases mark <;> simp only [List.cons_append,WellFormed,ih,answeredNext_append_lists,and_assoc]

theorem wellFormed_answers (answered near : List String) :
    WellFormed near (answered.map Mark.answers) ↔ ∀ id ∈ answered, id ∈ near := by
  induction answered with
  | nil => simp [WellFormed]
  | cons id answered ih => simp [WellFormed,ih]

theorem answeredNext_answers (answered : List String) (rest : List Mark) :
    answeredNext (answered.map Mark.answers ++ rest) = answered ++ answeredNext rest := by
  induction answered with
  | nil => rfl
  | cons id answered ih => simp [answeredNext,ih]

theorem wellFormed_step (ids group seen : List String) (calls : List ToolCall) :
    WellFormed [] (.lists ids :: group.map Mark.answers ++ stepMarks ids seen calls) ↔
      Grouped ids group seen calls := by
  induction calls generalizing group seen with
  | nil =>
    have next := answeredNext_answers group []
    rw [List.append_nil] at next
    simp [stepMarks,Grouped,WellFormed,Closes,wellFormed_answers,next,answeredNext]
  | cons call rest ih =>
    by_cases repeated : fingerprint call ∈ seen
    · have longer := ih (group ++ [call.id]) seen
      simpa [stepMarks,Grouped,repeated] using longer
    · have closed : WellFormed [] (.lists ids :: group.map Mark.answers) ↔ Closes ids group := by
        have next := answeredNext_answers group []
        rw [List.append_nil] at next
        simp [WellFormed,Closes,wellFormed_answers,next,answeredNext]
      have again := ih [call.id] (fingerprint call :: seen)
      simp only [stepMarks,repeated,if_false,Grouped,List.cons_append] at again ⊢
      rw [← List.cons_append,wellFormed_append_lists,closed]
      exact and_congr_right fun _ => again

/-- Once the listed calls are answered, a further answer is never well formed. -/
theorem answered_again (marks : List Mark) (near ids : List String) (id : String) (rest : List Mark)
    (own : ∀ mark ∈ marks, mark ≠ .other) (lists : .lists ids ∈ marks)
    (sound : WellFormed near marks) : ¬ WellFormed near (marks ++ .answers id :: rest) := by
  induction marks generalizing near ids with
  | nil => simp at lists
  | cons mark marks ih =>
    have later := fun next member => own next (List.mem_cons_of_mem mark member)
    by_cases further : ∃ ids, .lists ids ∈ marks
    · obtain ⟨ids',there⟩ := further
      cases mark with
      | other => exact absurd rfl (own _ List.mem_cons_self)
      | answers | lists => exact fun broken => ih _ _ later there sound.2 broken.2
    · have answers : ∃ answered : List String, marks = answered.map Mark.answers := by
        clear ih sound lists
        induction marks with
        | nil => exact ⟨[],rfl⟩
        | cons head tail ih =>
          obtain ⟨answered,rfl⟩ := ih
            (fun next member => own next (by
              obtain rfl | inside := List.mem_cons.mp member
              · exact List.mem_cons_self
              · exact List.mem_cons_of_mem _ (List.mem_cons_of_mem _ inside)))
            (fun next member => later next (List.mem_cons_of_mem _ member))
            (fun found => further (found.imp fun _ => List.mem_cons_of_mem _))
          cases head with
          | other => exact absurd rfl (later _ List.mem_cons_self)
          | answers first => exact ⟨first :: answered,rfl⟩
          | lists listed => exact absurd ⟨listed,List.mem_cons_self⟩ further
      obtain ⟨answered,rfl⟩ := answers
      obtain rfl : Mark.lists ids = mark := by
        obtain here | there := List.mem_cons.mp lists
        · exact here
        · exact absurd ⟨ids,there⟩ further
      rintro ⟨once,answering⟩
      have listed : id ∈ ids := by
        clear once sound own later further lists ih
        induction answered with
        | nil => exact answering.1
        | cons _ _ ih => exact ih answering.2
      have before := sound.1 id listed
      have after := once id listed
      have only := answeredNext_answers answered []
      rw [List.append_nil] at only
      rw [only] at before
      have more := answeredNext_answers answered (.answers id :: rest)
      simp only [List.append_eq] at after
      rw [more,answeredNext] at after
      simp only [answeredNext,List.append_nil] at before
      simp only [List.count_append,List.count_cons_self] at after
      omega

/-- What holds whenever `llm.stream` is called: a call seen before was listed by some
assistant message, and the loop appends no message of a third role. -/
structure Reached (s : LoopState) : Prop where
  referring : s.Referring
  listed : s.seen ≠ [] → ∃ ids, .lists ids ∈ s.marks
  own : ∀ mark ∈ s.marks, mark ≠ .other

theorem stepMarks_own (ids seen : List String) (calls : List ToolCall) :
    ∀ mark ∈ stepMarks ids seen calls, mark ≠ .other := by
  induction calls generalizing seen with
  | nil => simp [stepMarks]
  | cons call rest ih =>
    intro mark member
    unfold stepMarks at member
    split at member
    · obtain rfl | later := List.mem_cons.mp member
      · simp
      · exact ih _ mark later
    · obtain rfl | rfl | later := by simpa using member
      · simp
      · simp
      · exact ih _ mark later

/-- Unless something was seen before, a step begins with a message that lists calls. -/
theorem stepMarks_fresh {seen : List String} {call : ToolCall} (ids : List String)
    (rest : List ToolCall) (fresh : fingerprint call ∉ seen) :
    stepMarks ids seen (call :: rest) = .lists ids :: [call.id].map Mark.answers ++
      stepMarks ids (fingerprint call :: seen) rest := by
  rw [stepMarks,if_neg fresh]
  rfl

theorem Reached.step (reached : Reached s)
    (continues : ChatStream.step ctx s events = some s') : Reached s' := by
  obtain ⟨consumed,_,someCalls,referring,_,marks⟩ := step_marks reached.referring continues
  refine ⟨referring,fun _ => ?_,fun mark member => ?_⟩
  · rw [marks]
    by_cases before : s.seen = []
    · obtain ⟨call,rest,calls⟩ := List.exists_cons_of_ne_nil someCalls
      have fresh : fingerprint call ∉ s.seen := by simp [before]
      refine ⟨(freshCalls s.seen consumed.toolCalls).map ToolCall.id,List.mem_append_right _ ?_⟩
      rw [calls,stepMarks_fresh _ rest fresh]
      exact List.mem_cons_self
    · obtain ⟨ids,there⟩ := reached.listed before
      exact ⟨ids,List.mem_append_left _ there⟩
  · rw [marks,List.mem_append] at member
    obtain old | new := member
    · exact reached.own mark old
    · exact stepMarks_own _ _ _ mark new

theorem reached_start : Reached .start where
  referring := by simp [LoopState.Referring,LoopState.start]
  listed := by simp [LoopState.start]
  own := by simp [LoopState.marks,LoopState.sent,LoopState.start]

theorem Calls.reached {answers : Nat → List Event} {k : Nat}
    (calls : Calls ctx answers k s) : Reached s := by
  induction calls with
  | start => exact reached_start
  | step _ _ continues ih => exact ih.step continues

/-- A well-formed list stays so over a step exactly when the step is orderly. -/
theorem step_wellFormed
    {near : List String} (reached : Reached s) (sound : WellFormed near s.marks)
    (continues : step ctx s events = some s') :
    WellFormed near s'.marks ↔
      ∀ consumed, toolCallsBuf s.tokenBuffer events = some consumed →
        Orderly s.seen consumed.toolCalls := by
  obtain ⟨consumed,ended,someCalls,_,_,marks⟩ := step_marks reached.referring continues
  have only : (∀ other, toolCallsBuf s.tokenBuffer events = some other →
      Orderly s.seen other.toolCalls) ↔ Orderly s.seen consumed.toolCalls := by
    constructor
    · exact fun every => every consumed ended
    · rintro orderly other same
      obtain rfl := Option.some.inj (ended.symm.trans same)
      exact orderly
  rw [only,marks]
  obtain ⟨call,rest,calls⟩ := List.exists_cons_of_ne_nil someCalls
  rw [calls]
  by_cases repeated : fingerprint call ∈ s.seen
  · obtain ⟨ids,listed⟩ := reached.listed (List.ne_nil_of_mem repeated)
    constructor
    · intro still
      rw [stepMarks,if_pos repeated] at still
      exact absurd still (answered_again _ _ _ _ _ reached.own listed sound)
    · exact fun orderly => absurd repeated orderly.1
  · rw [stepMarks_fresh _ rest repeated,List.cons_append,wellFormed_append_lists,
      ← List.cons_append,wellFormed_step]
    constructor
    · exact fun both => ⟨repeated,both.2⟩
    · exact fun orderly => ⟨sound,orderly.2⟩

/-- Every message list passed to `llm.stream` is well formed if and only if every step
that another one follows is orderly. -/
theorem messages_wellFormed (ctx : Context) (messages : List (Message (List ToolCall)))
    (answers : Nat → List Event) :
    (∀ k s, Calls ctx answers k s → WellFormed (nearest messages) s.marks) ↔
      ∀ k s s', Calls ctx answers k s → k + 1 < maxSteps → step ctx s (answers k) = some s' →
        ∀ consumed, toolCallsBuf s.tokenBuffer (answers k) = some consumed →
          Orderly s.seen consumed.toolCalls := by
  constructor
  · intro sound k s s' called within continues
    have after := sound _ _ (.step called within continues)
    exact (step_wellFormed called.reached (sound k s called) continues).mp after
  · intro orderly k s called
    induction called with
    | start => trivial
    | step before within continues ih =>
      exact (step_wellFormed before.reached ih continues).mpr
        (orderly _ _ _ before within continues)

/-- The model asks for the same thing twice, under two ids. -/
def repeats (step : Nat) : List Event :=
  stream (.lines [.chunk [⟨none,[⟨some 0,some (if step = 0 then "call_a" else "call_b"),
    some "function",some ⟨some "list_services",some "\x7b\x7d"⟩⟩]⟩],.done] .exhausted)

def oneNode : Context where
  nodeId := some "n1"
  locale := "fr"
  loads := fun _ => none
  str := fun _ => ""
  query := fun _ _ _ _ => .ok [("success",.bool true)]

/-- The second call is answered, but no assistant message lists it. -/
theorem messages_malformed :
    ¬ ∀ k s, Calls oneNode repeats k s → WellFormed (nearest []) s.marks := by
  intro every
  obtain ⟨s,called,marks⟩ : ∃ s, Calls oneNode repeats 2 s ∧
      s.marks = [.lists ["call_a"],.answers "call_a",.answers "call_b"] :=
    ⟨_,.step (.step .start (by decide) rfl) (by decide) rfl,rfl⟩
  have sound := every 2 s called
  rw [marks] at sound
  simp [WellFormed] at sound

end Vigile.ChatStream
