import Mathlib.Data.List.Basic

/-! `LLMClient.stream`, which puts the fragments of the tool calls of one answer
together, and its two consumers, which put what it yields together once more. -/
namespace Vigile.LLMClient

/-- A `dict` in insertion order. -/
abbrev Dict (α : Type) := List (Nat × α)

namespace Dict
variable {α : Type}

def update (d : Dict α) (blank : α) (key : Nat) (change : α → α) : Dict α :=
  match d with
  | [] => [(key,change blank)]
  | (k,value) :: rest =>
    if k = key then (k,change value) :: rest else (k,value) :: update rest blank key change

def get (d : Dict α) (key : Nat) : Option α :=
  match d with
  | [] => none
  | (k,value) :: rest => if k = key then some value else get rest key

def values (d : Dict α) : List α := d.map Prod.snd

def insertSorted (entry : Nat × α) : Dict α → Dict α
  | [] => [entry]
  | other :: rest =>
    if entry.1 ≤ other.1 then entry :: other :: rest else other :: insertSorted entry rest

/-- `sorted(d.items())`; the keys differ, so they alone decide. -/
def sorted : Dict α → Dict α
  | [] => []
  | entry :: rest => insertSorted entry (sorted rest)

theorem get_update (d : Dict α) (blank : α) (key other : Nat) (change : α → α) :
    (d.update blank key change).get other =
      if key = other then some (change ((d.get key).getD blank)) else d.get other := by
  induction d with
  | nil => simp [update,get]
  | cons head rest ih =>
    obtain ⟨k,value⟩ := head
    by_cases here : k = key
    · subst here
      by_cases same : k = other <;> simp [update,get,same]
    · by_cases same : k = other
      · subst same
        have apart : ¬ key = k := fun equal => here equal.symm
        simp [update,get,here,apart]
      · simp [update,get,here,same,ih]

end Dict

structure FunctionDelta where
  name : Option String
  arguments : Option String

structure ToolCallDelta where
  index : Option Nat
  id : Option String
  type : Option String
  function : Option FunctionDelta

def ToolCallDelta.name (delta : ToolCallDelta) : Option String := delta.function.bind (·.name)

def ToolCallDelta.arguments (delta : ToolCallDelta) : Option String :=
  delta.function.bind (·.arguments)

structure ToolCall where
  id : String
  type : String
  name : String
  arguments : String
  deriving DecidableEq

/-- What of a call is compared: all of it but the `type`, which is always `function`. -/
structure Call where
  id : String
  name : String
  arguments : String
  deriving DecidableEq

def ToolCall.call (call : ToolCall) : Call := ⟨call.id,call.name,call.arguments⟩

def ToolCall.blank : ToolCall := ⟨"","function","",""⟩

/-- The call as an event carries it: there is no `index` in it. -/
def ToolCall.entry (call : ToolCall) : ToolCallDelta :=
  ⟨none,some call.id,some call.type,some ⟨some call.name,some call.arguments⟩⟩

structure Delta where
  content : Option String
  toolCalls : List ToolCallDelta

/-- A line of the response. Without the prefix `data: `, with a payload that is no
JSON or without choices it is skipped. -/
inductive Line where
  | noData
  | malformed
  | chunk (choices : List Delta)
  | done

def Line.toolCalls : Line → List ToolCallDelta
  | .chunk (delta :: _) => delta.toolCalls
  | _ => []

/-- How the lines end when `[DONE]` does not end them. -/
inductive Ending where
  | exhausted
  | timeout
  | connectError

inductive Response where
  | circuitOpen
  | status (code : Nat)
  | lines (lines : List Line) (ending : Ending)

inductive Event where
  | token (content : String)
  | toolCall (toolCalls : List ToolCallDelta)
  | done
  | error (detail : String)

def httpError (code : Nat) : String :=
  "Le service IA a renvoyé une erreur (HTTP " ++ toString code ++ "). " ++
    "Contactez l'administrateur si le problème persiste."

def circuitOpen : String :=
  "Le service IA est temporairement indisponible (circuit ouvert). " ++
    "Réessayez dans quelques secondes."

def streamTimeout : String :=
  "Le service IA a mis trop de temps à répondre. " ++
    "Réessayez ou réduisez la complexité de votre demande."

def connectionFailed : String :=
  "Connexion au service IA impossible. " ++
    "Vérifiez la configuration LLM dans Paramètres → Configuration Master."

/-- What one delta adds to its entry of `_tc_accumulator`. -/
def ToolCall.add (acc : ToolCall) (delta : ToolCallDelta) : ToolCall where
  id := acc.id ++ delta.id.getD ""
  type := delta.type.getD acc.type
  name := acc.name ++ delta.name.getD ""
  arguments := acc.arguments ++ delta.arguments.getD ""

def accumulate (acc : Dict ToolCall) (delta : ToolCallDelta) : Dict ToolCall :=
  acc.update .blank (delta.index.getD 0) (·.add delta)

def flush (acc : Dict ToolCall) : List Event :=
  if acc.isEmpty then [] else [.toolCall (acc.values.map ToolCall.entry)]

def tokens (content : Option String) : List Event :=
  match content with
  | some text => if text = "" then [] else [.token text]
  | none => []

/-- The loop over `resp.aiter_lines()`. -/
def readLines (acc : Dict ToolCall) (ending : Ending) : List Line → List Event
  | [] =>
    match ending with
    | .exhausted => flush acc
    | .timeout => [.error streamTimeout]
    | .connectError => [.error connectionFailed]
  | .done :: _ => flush acc ++ [.done]
  | .chunk (delta :: _) :: rest =>
    tokens delta.content ++ readLines (delta.toolCalls.foldl accumulate acc) ending rest
  | .chunk [] :: rest | .noData :: rest | .malformed :: rest => readLines acc ending rest

def stream : Response → List Event
  | .circuitOpen => [.error circuitOpen]
  | .status code => [.error (httpError code)]
  | .lines lines ending => readLines [] ending lines

structure Consumed (α : Type) where
  tokenBuffer : String
  toolCalls : α

def consume {α : Type} (take : α → ToolCallDelta → α) (s : Consumed α) :
    List Event → Option (Consumed α)
  | [] => some s
  | .token content :: rest => consume take { s with tokenBuffer := s.tokenBuffer ++ content } rest
  | .toolCall calls :: rest =>
    consume take { s with toolCalls := calls.foldl take s.toolCalls } rest
  | .done :: rest => consume take s rest
  | .error _ :: _ => none

def replaced (text : String) (given : Option String) : String :=
  match given with
  | some new => if new = "" then text else new
  | none => text

end Vigile.LLMClient

namespace Vigile.ChatStream
open LLMClient

def target (call : ToolCall) (tc : ToolCallDelta) : ToolCall where
  id := replaced call.id tc.id
  type := replaced call.type tc.type
  name := call.name ++ tc.name.getD ""
  arguments := call.arguments ++ tc.arguments.getD ""

/-- `tool_calls_buf` after one more chunk, with the padding its index needs. -/
def aggregate (buffer : List ToolCall) (tc : ToolCallDelta) : List ToolCall :=
  let idx := tc.index.getD 0
  (buffer ++ List.replicate (idx + 1 - buffer.length) ToolCall.blank).modify idx (target · tc)

def toolCallsBuf (tokenBuffer : String) (events : List Event) : Option (Consumed (List ToolCall)) :=
  consume aggregate ⟨tokenBuffer,[]⟩ events

end Vigile.ChatStream

namespace Vigile.ChatEngine
open LLMClient

/-- The update of an entry of `tool_calls_map`. -/
def take (call : Call) (tc : ToolCallDelta) : Call where
  id := replaced call.id tc.id
  name := replaced call.name tc.name
  arguments := call.arguments ++ tc.arguments.getD ""

def aggregate (calls : Dict Call) (tc : ToolCallDelta) : Dict Call :=
  calls.update ⟨"","",""⟩ (tc.index.getD 0) (take · tc)

/-- `sorted(tool_calls_map.items())` when the stream of one round is over. -/
def toolCalls (events : List Event) : Option (List Call) :=
  (consume aggregate ⟨"",[]⟩ events).map fun s => s.toolCalls.sorted.values

end Vigile.ChatEngine

namespace Vigile.LLMClient

def fragments : List ToolCallDelta → String
  | [] => ""
  | delta :: rest => delta.arguments.getD "" ++ fragments rest

/-- The deltas are the call cut into pieces: id and name come in the first one only,
the arguments are cut anywhere. -/
def CutInto (call : Call) : List ToolCallDelta → Prop
  | [] => False
  | first :: rest =>
    first.id = some call.id ∧ first.name = some call.name ∧
      (∀ delta ∈ rest, delta.id = none ∧ delta.name = none) ∧
      fragments (first :: rest) = call.arguments

instance (call : Call) : DecidablePred (CutInto call)
  | [] => inferInstanceAs (Decidable False)
  | first :: rest => inferInstanceAs (Decidable (first.id = some call.id ∧
      first.name = some call.name ∧ (∀ delta ∈ rest, delta.id = none ∧ delta.name = none) ∧
      fragments (first :: rest) = call.arguments))

/-- The deltas carry the calls, each with its index; those of different calls interleave. -/
structure Division (calls : List Call) (deltas : List ToolCallDelta) : Prop where
  indexed : ∀ delta ∈ deltas, ∃ i < calls.length, delta.index = some i
  cut : ∀ entry ∈ calls.zipIdx, CutInto entry.1 (deltas.filter (·.index = some entry.2))

/-- A response that is read to its end: `[DONE]`, whatever comes after it, or the end
of the lines. -/
inductive Complete : Response → List Line → Prop where
  | done (lines rest : List Line) (ending : Ending) (noDone : ∀ line ∈ lines, line ≠ .done) :
    Complete (.lines (lines ++ .done :: rest) ending) lines
  | exhausted (lines : List Line) (noDone : ∀ line ∈ lines, line ≠ .done) :
    Complete (.lines lines .exhausted) lines

/-! The first accumulator puts every call together again. -/

theorem add_rest (rest : List ToolCallDelta) (acc : ToolCall)
    (bare : ∀ delta ∈ rest, delta.id = none ∧ delta.name = none) :
    (rest.foldl ToolCall.add acc).call =
      ⟨acc.id,acc.name,acc.arguments ++ fragments rest⟩ := by
  induction rest generalizing acc with
  | nil => simp [ToolCall.call,fragments]
  | cons delta rest ih =>
    obtain ⟨noId,noName⟩ := bare delta List.mem_cons_self
    have later := ih (acc.add delta) (fun other member => bare other (List.mem_cons_of_mem _ member))
    rw [List.foldl_cons,later]
    simp [ToolCall.add,noId,noName,fragments,String.append_assoc]

variable {call : Call} {deltas : List ToolCallDelta} {lines : List Line} {response : Response}

theorem add_pieces (cut : CutInto call deltas) :
    (deltas.foldl ToolCall.add .blank).call = call := by
  cases deltas with
  | nil => exact cut.elim
  | cons first rest =>
    obtain ⟨hasId,hasName,bare,joined⟩ := cut
    rw [List.foldl_cons,add_rest rest _ bare]
    rw [fragments] at joined
    simp [ToolCall.add,ToolCall.blank,hasId,hasName,joined]

/-- What `_tc_accumulator` holds for an index is made of that index's deltas only. -/
theorem accumulated_get (deltas : List ToolCallDelta) (acc : Dict ToolCall) (i : Nat)
    (indexed : ∀ delta ∈ deltas, delta.index ≠ none)
    (some_of : deltas.filter (·.index = some i) ≠ [] ∨ acc.get i ≠ none) :
    (deltas.foldl accumulate acc).get i =
      some ((deltas.filter (·.index = some i)).foldl ToolCall.add ((acc.get i).getD .blank)) := by
  induction deltas generalizing acc with
  | nil =>
    obtain nothing | present := some_of
    · simp at nothing
    · obtain ⟨call,held⟩ := Option.ne_none_iff_exists'.mp present
      simp [held]
  | cons delta rest ih =>
    have later := fun other member => indexed other (List.mem_cons_of_mem delta member)
    obtain ⟨j,at_j⟩ := Option.ne_none_iff_exists'.mp (indexed delta List.mem_cons_self)
    have now : (accumulate acc delta).get i =
        if j = i then some (((acc.get j).getD .blank).add delta) else acc.get i := by
      simp [accumulate,at_j,Dict.get_update]
    rw [List.foldl_cons]
    by_cases same : j = i
    · subst same
      rw [if_pos rfl] at now
      rw [ih _ later (.inr (by simp [now])),now]
      simp [at_j]
    · rw [if_neg same] at now
      have skipped : (delta :: rest).filter (·.index = some i) = rest.filter (·.index = some i) := by
        simp [at_j,same]
      rw [skipped] at some_of ⊢
      rw [ih _ later (by rwa [now]),now]

/-- Whatever the number of calls and the order of their deltas, `_tc_accumulator`
holds each of them under its index. -/
theorem accumulator_rebuilds {calls : List Call}
    (division : Division calls deltas) {i : Nat} (listed : calls[i]? = some call) :
    ((deltas.foldl accumulate []).get i).map ToolCall.call = some call := by
  have entry : (call,i) ∈ calls.zipIdx := List.mk_mem_zipIdx_iff_getElem?.mpr listed
  have cut := division.cut _ entry
  have present : deltas.filter (·.index = some i) ≠ [] := by
    intro empty
    simp only [empty] at cut
    exact cut
  have indexed : ∀ delta ∈ deltas, delta.index ≠ none := by
    intro delta member
    obtain ⟨j,_,at_j⟩ := division.indexed delta member
    simp [at_j]
  rw [accumulated_get deltas [] i indexed (.inl present)]
  simpa [Dict.get] using add_pieces cut

/-- The deltas of a single call leave a single entry. -/
theorem accumulated_alone (deltas : List ToolCallDelta) (acc : ToolCall)
    (first : ∀ delta ∈ deltas, delta.index = some 0) :
    deltas.foldl accumulate [(0,acc)] = [(0,deltas.foldl ToolCall.add acc)] := by
  induction deltas generalizing acc with
  | nil => rfl
  | cons delta rest ih =>
    have now : accumulate [(0,acc)] delta = [(0,acc.add delta)] := by
      simp [accumulate,Dict.update,first delta List.mem_cons_self]
    rw [List.foldl_cons,now,List.foldl_cons]
    exact ih _ fun other member => first other (List.mem_cons_of_mem _ member)

/-! What the stream yields. -/

def Line.tokens : Line → List Event
  | .chunk (delta :: _) => LLMClient.tokens delta.content
  | _ => []

theorem readLines_open (lines rest : List Line) (acc : Dict ToolCall) (ending : Ending)
    (noDone : ∀ line ∈ lines, line ≠ .done) :
    readLines acc ending (lines ++ rest) = lines.flatMap Line.tokens ++
      readLines ((lines.flatMap Line.toolCalls).foldl accumulate acc) ending rest := by
  induction lines generalizing acc with
  | nil => rfl
  | cons line lines ih =>
    have later := fun acc => ih acc fun other member => noDone other (List.mem_cons_of_mem _ member)
    match line with
    | .done => exact absurd rfl (noDone .done List.mem_cons_self)
    | .noData | .malformed | .chunk [] =>
      simpa [readLines,Line.tokens,Line.toolCalls] using later acc
    | .chunk (delta :: _) =>
      simp [readLines,Line.tokens,Line.toolCalls,later,List.foldl_append]

/-- A complete response yields its tokens and then all the calls at once. -/
theorem stream_complete (complete : Complete response lines) :
    ∃ closing, (closing = [] ∨ closing = [.done]) ∧ stream response =
      lines.flatMap Line.tokens ++
        flush ((lines.flatMap Line.toolCalls).foldl accumulate []) ++ closing := by
  cases complete with
  | done _ rest ending noDone =>
    refine ⟨[.done],.inr rfl,?_⟩
    simp [stream,readLines_open _ _ _ _ noDone,readLines]
  | exhausted _ noDone =>
    refine ⟨[],.inl rfl,?_⟩
    have read := readLines_open lines [] [] .exhausted noDone
    simpa [stream,readLines] using read

def Event.Unindexed : Event → Prop
  | .toolCall calls => ∀ call ∈ calls, call.index = none
  | _ => True

theorem flush_unindexed (acc : Dict ToolCall) : ∀ event ∈ flush acc, event.Unindexed := by
  intro event member
  unfold flush at member
  split at member
  · simp at member
  · rw [List.mem_singleton.mp member]
    intro call listed
    obtain ⟨_,_,rfl⟩ := List.mem_map.mp listed
    rfl

theorem tokens_unindexed (content : Option String) :
    ∀ event ∈ tokens content, event.Unindexed := by
  intro event member
  cases content with
  | none => simp [tokens] at member
  | some text =>
    simp only [tokens] at member
    split at member
    · simp at member
    · rw [List.mem_singleton.mp member]
      trivial

theorem stream_unindexed
    (complete : Complete response lines) : ∀ event ∈ stream response, event.Unindexed := by
  obtain ⟨closing,ends,yields⟩ := stream_complete complete
  intro event member
  rw [yields,List.mem_append,List.mem_append] at member
  obtain (token | call) | last := member
  · obtain ⟨line,_,here⟩ := List.mem_flatMap.mp token
    match line with
    | .chunk (delta :: _) => exact tokens_unindexed _ event here
    | .done | .noData | .malformed | .chunk [] => simp [Line.tokens] at here
  · exact flush_unindexed _ event call
  · obtain rfl | rfl := ends
    · simp at last
    · rw [List.mem_singleton.mp last]
      trivial

/-! What a consumer makes of it. -/

variable {α : Type} (take : α → ToolCallDelta → α)

/-- A consumer's invariant: what holds of `toolCalls` at first and is kept by a call
without index holds when the stream is over. -/
theorem consume_keeps (kept : α → Prop)
    (step : ∀ calls tc, tc.index = none → kept calls → kept (take calls tc))
    (events : List Event) (unindexed : ∀ event ∈ events, event.Unindexed) (s s' : Consumed α)
    (holds : kept s.toolCalls) (ended : consume take s events = some s') : kept s'.toolCalls := by
  induction events generalizing s with
  | nil =>
    cases ended
    exact holds
  | cons event rest ih =>
    have later := ih fun other member => unindexed other (List.mem_cons_of_mem _ member)
    cases event with
    | token content => exact later ⟨s.tokenBuffer ++ content,s.toolCalls⟩ holds ended
    | done => exact later _ holds ended
    | error detail => cases ended
    | toolCall calls =>
      have here : ∀ call ∈ calls, call.index = none := unindexed _ List.mem_cons_self
      refine later _ ?_ ended
      clear ended later unindexed
      show kept (calls.foldl take s.toolCalls)
      generalize s.toolCalls = held at holds
      induction calls generalizing held with
      | nil => exact holds
      | cons call calls ih =>
        exact ih (fun other member => here other (List.mem_cons_of_mem _ member)) _
          (step _ _ (here call List.mem_cons_self) holds)

theorem consume_tokens (lines : List Line) (rest : List Event) (s : Consumed α) :
    ∃ buffer, consume take s (lines.flatMap Line.tokens ++ rest) =
      consume take ⟨buffer,s.toolCalls⟩ rest := by
  induction lines generalizing s with
  | nil => exact ⟨s.tokenBuffer,rfl⟩
  | cons line lines ih =>
    match line with
    | .done | .noData | .malformed | .chunk [] | .chunk (⟨none,_⟩ :: _) => exact ih s
    | .chunk (⟨some text,_⟩ :: _) =>
      by_cases empty : text = ""
      · simpa [Line.tokens,tokens,empty] using ih s
      · simpa [Line.tokens,tokens,empty,consume] using ih ⟨s.tokenBuffer ++ text,s.toolCalls⟩

/-- A consumer takes in what was accumulated, in the order of the first deltas. -/
theorem consume_stream
    (complete : Complete response lines) (s : Consumed α) :
    ∃ buffer, consume take s (stream response) =
      some ⟨buffer,(((lines.flatMap Line.toolCalls).foldl accumulate []).values.map
        ToolCall.entry).foldl take s.toolCalls⟩ := by
  obtain ⟨closing,ends,yields⟩ := stream_complete complete
  generalize (lines.flatMap Line.toolCalls).foldl accumulate [] = acc at yields
  obtain ⟨buffer,read⟩ := consume_tokens take lines (flush acc ++ closing) s
  refine ⟨buffer,?_⟩
  rw [yields,List.append_assoc,read]
  cases acc with
  | nil | cons entry rest => obtain rfl | rfl := ends <;> rfl

/-- A single call's response leaves one entry, which is the call. -/
theorem accumulated_single
    (division : Division [call] deltas) :
    ∃ acc : ToolCall, acc.call = call ∧ deltas.foldl accumulate [] = [(0,acc)] := by
  have first : ∀ delta ∈ deltas, delta.index = some 0 := by
    intro delta member
    obtain ⟨i,bound,at_i⟩ := division.indexed delta member
    have zero : i = 0 := by simpa using bound
    rw [at_i,zero]
  have all : deltas.filter (·.index = some 0) = deltas :=
    List.filter_eq_self.mpr fun delta member => by simp [first delta member]
  have cut : CutInto call deltas := by
    have here := division.cut (call,0) (by simp)
    rwa [all] at here
  refine ⟨_,add_pieces cut,?_⟩
  cases deltas with
  | nil => exact cut.elim
  | cons delta rest =>
    have now : accumulate [] delta = [(0,ToolCall.blank.add delta)] := by
      simp [accumulate,Dict.update,first delta List.mem_cons_self]
    rw [List.foldl_cons,now,List.foldl_cons]
    exact accumulated_alone rest _ fun other member => first other (List.mem_cons_of_mem _ member)

theorem no_deltas (division : Division [] deltas) : deltas = [] := by
  apply List.eq_nil_iff_forall_not_mem.mpr
  intro delta member
  obtain ⟨i,bound,_⟩ := division.indexed delta member
  simp at bound

theorem chat_stream_single (acc : ToolCall) :
    ((([acc].map ToolCall.entry).foldl ChatStream.aggregate []).map ToolCall.call) = [acc.call] := by
  simp [ChatStream.aggregate,ToolCall.entry,ChatStream.target,ToolCall.blank,ToolCall.call,
    ToolCallDelta.name,ToolCallDelta.arguments,replaced]

theorem chat_engine_single (acc : ToolCall) :
    ((([acc].map ToolCall.entry).foldl ChatEngine.aggregate []).sorted.values) = [acc.call] := by
  simp [ChatEngine.aggregate,Dict.update,Dict.sorted,Dict.insertSorted,Dict.values,
    ToolCall.entry,ChatEngine.take,ToolCall.call,ToolCallDelta.name,ToolCallDelta.arguments,
    replaced]

/-- Without an index every call lands in the first place. -/
theorem chat_stream_first (events : List Event) (unindexed : ∀ event ∈ events, event.Unindexed)
    (tokenBuffer : String) (s : Consumed (List ToolCall))
    (ended : ChatStream.toolCallsBuf tokenBuffer events = some s) : s.toolCalls.length ≤ 1 := by
  refine consume_keeps ChatStream.aggregate (·.length ≤ 1) ?_ events unindexed _ s (by simp) ended
  intro buffer tc noIndex short
  simp only [ChatStream.aggregate,noIndex,Option.getD_none,List.length_modify,List.length_append,
    List.length_replicate]
  omega

theorem chat_engine_first (events : List Event) (unindexed : ∀ event ∈ events, event.Unindexed)
    (calls : List Call) (ended : ChatEngine.toolCalls events = some calls) : calls.length ≤ 1 := by
  obtain ⟨s,consumed,rfl⟩ := Option.map_eq_some_iff.mp ended
  have alone : s.toolCalls = [] ∨ ∃ call, s.toolCalls = [(0,call)] := by
    refine consume_keeps ChatEngine.aggregate (fun d => d = [] ∨ ∃ call, d = [(0,call)]) ?_ events
      unindexed _ s (.inl rfl) consumed
    rintro d tc noIndex (rfl | ⟨call,rfl⟩)
    all_goals exact .inr ⟨_,by simp [ChatEngine.aggregate,noIndex,Dict.update]; rfl⟩
  obtain empty | ⟨call,single⟩ := alone
  · simp [empty,Dict.sorted,Dict.values]
  · simp [single,Dict.sorted,Dict.insertSorted,Dict.values]

/-- Every accumulated call loses its index on the way, so the consumers have the
calls back exactly when there is at most one. -/
theorem tool_calls_reassembled (calls : List Call) (lines : List Line) (response : Response)
    (tokenBuffer : String) (complete : Complete response lines)
    (division : Division calls (lines.flatMap Line.toolCalls)) :
    ((ChatStream.toolCallsBuf tokenBuffer (stream response)).map (·.toolCalls.map ToolCall.call) =
        some calls ↔ calls.length ≤ 1) ∧
      (ChatEngine.toolCalls (stream response) = some calls ↔ calls.length ≤ 1) := by
  have unindexed := stream_unindexed complete
  refine ⟨⟨fun same => ?_,fun short => ?_⟩,⟨fun same => ?_,fun short => ?_⟩⟩
  · obtain ⟨s,ended,rfl⟩ := Option.map_eq_some_iff.mp same
    simpa using chat_stream_first _ unindexed tokenBuffer s ended
  · obtain ⟨buffer,consumed⟩ := consume_stream ChatStream.aggregate complete ⟨tokenBuffer,[]⟩
    rw [ChatStream.toolCallsBuf,consumed]
    match calls with
    | [] =>
      rw [no_deltas division]
      rfl
    | [call] =>
      obtain ⟨acc,rfl,single⟩ := accumulated_single division
      rw [single]
      exact congrArg some (chat_stream_single acc)
  · exact chat_engine_first _ unindexed calls same
  · obtain ⟨buffer,consumed⟩ := consume_stream ChatEngine.aggregate complete ⟨"",[]⟩
    rw [ChatEngine.toolCalls,consumed]
    match calls with
    | [] =>
      rw [no_deltas division]
      rfl
    | [call] =>
      obtain ⟨acc,rfl,single⟩ := accumulated_single division
      rw [single]
      exact congrArg some (chat_engine_single acc)

/-- Two calls, the fragments of the second between those of the first. -/
def interleaved : List Line :=
  [.chunk [⟨some "Je regarde.",[⟨some 0,some "call_a",some "function",some ⟨some "read_logs",some ""⟩⟩]⟩],
    .chunk [⟨none,[⟨some 1,some "call_b",some "function",some ⟨some "list_services",some "\x7b"⟩⟩]⟩],
    .chunk [⟨none,[⟨some 0,none,none,some ⟨none,some "\x7b\x7d"⟩⟩,⟨some 1,none,none,some ⟨none,some "\x7d"⟩⟩]⟩]]

def interleavedCalls : List Call :=
  [⟨"call_a","read_logs","\x7b\x7d"⟩,⟨"call_b","list_services","\x7b\x7d"⟩]

theorem interleaved_division : Division interleavedCalls (interleaved.flatMap Line.toolCalls) where
  indexed := by decide
  cut := by decide

theorem accumulator_rebuilds_interleaved : (((interleaved.flatMap Line.toolCalls).foldl accumulate []).get 1).map ToolCall.call =
    interleavedCalls[1]? :=
  accumulator_rebuilds interleaved_division rfl

theorem tool_calls_reassembled_interleaved :
    ¬ ChatEngine.toolCalls (stream (.lines (interleaved ++ [.done]) .exhausted)) =
      some interleavedCalls := fun same =>
  absurd ((tool_calls_reassembled interleavedCalls interleaved _ ""
    (.done interleaved [] .exhausted (by simp [interleaved])) interleaved_division).2.mp same)
    (by decide)

/-- The two calls arrive as one with both names and both arguments. -/
theorem tool_calls_merged :
    ¬ ∀ (calls : List Call) (lines : List Line) (response : Response),
      Complete response lines → Division calls (lines.flatMap Line.toolCalls) →
      (ChatStream.toolCallsBuf "" (stream response)).map (·.toolCalls.map ToolCall.call) = some calls ∧
        ChatEngine.toolCalls (stream response) = some calls := by
  intro every
  have complete : Complete (.lines (interleaved ++ [.done]) .exhausted) interleaved :=
    .done interleaved [] .exhausted (by simp [interleaved])
  obtain ⟨same,_⟩ := every _ _ _ complete interleaved_division
  have merged : (ChatStream.toolCallsBuf "" (stream (.lines (interleaved ++ [.done]) .exhausted))).map
      (·.toolCalls.map ToolCall.call) =
      some [⟨"call_b","read_logslist_services","\x7b\x7d\x7b\x7d"⟩] := by
    decide
  rw [merged] at same
  revert same
  decide

end Vigile.LLMClient
