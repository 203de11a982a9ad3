import Vigile.ChatStream
import Vigile.Runs

/-! The stored history of a chat session under interleaved requests. -/
namespace Vigile.ChatHistory

open Python LLMClient ChatStream

structure Entry where
  role : String
  content : String
  deriving DecidableEq

def maxHistorySize : Nat := 100

def capHistory (history : List Entry) : List Entry :=
  if maxHistorySize < history.length then history.drop (history.length - maxHistorySize) else history

inductive Exit where
  | finished (tokenBuffer : String)
  | proposed (tokenBuffer : String)
  | failed (tokenBuffer : String)
  deriving DecidableEq

def Exit.tokenBuffer : Exit → String
  | .finished tokenBuffer | .proposed tokenBuffer | .failed tokenBuffer => tokenBuffer

/-- A call that ends the generator is a proposal, unless it raises or cannot be stored. -/
def proposes (ctx : Context) (persists : Bool) (s : LoopState) (call : ToolCall) : Bool :=
  match execute ctx s.appended.length call.name ((ctx.loads call.arguments).getD (.object [])) with
  | .proposed => persists
  | .answered _ | .raised => false

/-- The loop over `tool_calls_buf`, up to its end or that of the generator. -/
def runCalls (ctx : Context) (persists : Bool) (s : LoopState) : List ToolCall → Except Exit LoopState
  | [] => .ok s
  | call :: rest =>
    match processCall ctx s call with
    | some s => runCalls ctx persists s rest
    | none => .error (if proposes ctx persists s call then .proposed s.tokenBuffer else .failed s.tokenBuffer)

def react (ctx : Context) (persists : Bool) (answers : Nat → List Event) : Nat → LoopState → Exit
  | 0,s => .finished s.tokenBuffer
  | steps + 1,s =>
    match toolCallsBuf s.tokenBuffer (answers (maxSteps - (steps + 1))) with
    | none => .failed s.tokenBuffer
    | some consumed =>
      if consumed.toolCalls.isEmpty then .finished consumed.tokenBuffer
      else
        match runCalls ctx persists {s with tokenBuffer := consumed.tokenBuffer, lists := s.lists ++ [[]]} consumed.toolCalls with
        | .ok s => react ctx persists answers steps s
        | .error exit => exit

inductive Phase where
  | loading
  | streaming (history : List Entry)
  | selecting (history : List Entry)
  | writing (history : List Entry) (found : Bool)
  | done
  | failed
  | cancelled
  deriving DecidableEq

def Phase.first (history : List Entry) : Phase := if history = [] then .loading else .streaming history

structure Request where
  message : String
  ctx : Context
  answers : Nat → List Event
  persists : Bool
  phase : Phase

def Request.exit (request : Request) : Exit := react request.ctx request.persists request.answers maxSteps .start

def Request.entries (request : Request) : List Entry :=
  [⟨"user",request.message⟩,⟨"assistant",request.exit.tokenBuffer⟩]

structure Session where
  historyJson : Option (List Entry)
  read : Nat → List Entry
  requests : List Request

inductive Action where
  | read (client : Nat)
  | send (client : Nat) (withHistory : Bool) (message : String) (ctx : Context) (answers : Nat → List Event) (persists : Bool)
  | loads (i : Nat)
  | streams (i : Nat)
  | selects (i : Nat)
  | writes (i : Nat)
  | writeFails (i : Nat)
  | disconnects (i : Nat)

def Session.setPhase (s : Session) (i : Nat) (request : Request) (phase : Phase) : Session :=
  {s with requests := s.requests.set i {request with phase := phase}}

def Session.history (s : Session) : List Entry := s.historyJson.getD []

def advance (s : Session) (i : Nat) (request : Request) (action : Action) : Session :=
  match action,request.phase with
  | .loads _,.loading => s.setPhase i request (.streaming s.history)
  | .streams _,.streaming history =>
    match request.exit with
    | .finished _ => s.setPhase i request (.selecting history)
    | .proposed _ => s.setPhase i request .done
    | .failed _ => s.setPhase i request .failed
  | .selects _,.selecting history => s.setPhase i request (.writing history s.historyJson.isSome)
  | .writes _,.writing history found =>
    if found then {s.setPhase i request .done with historyJson := s.historyJson.map fun _ => history ++ request.entries}
    -- The row has come in between, and the INSERT violates the primary key.
    else if s.historyJson.isSome then s.setPhase i request .failed
    else {s.setPhase i request .done with historyJson := some (history ++ request.entries)}
  | .writeFails _,.selecting _ | .writeFails _,.writing _ _ => s.setPhase i request .failed
  | .disconnects _,.done | .disconnects _,.failed => s
  | .disconnects _,_ => s.setPhase i request .cancelled
  | _,_ => s

def Action.request : Action → Option Nat
  | .read _ | .send .. => none
  | .loads i | .streams i | .selects i | .writes i | .writeFails i | .disconnects i => some i

def step (s : Session) (action : Action) : Session :=
  match action with
  | .read client => {s with read := fun other => if other = client then s.history else s.read other}
  | .send client withHistory message ctx answers persists =>
    let history := capHistory (if withHistory then s.read client else [])
    {s with requests := s.requests ++ [⟨message,ctx,answers,persists,.first history⟩]}
  | action =>
    match action.request.bind (s.requests[·]?) with
    | none => s
    | some request => advance s (action.request.getD 0) request action

def initial (historyJson : Option (List Entry)) : Session := ⟨historyJson,fun _ => [],[]⟩

/-! What is promised -/

/-- A step removes no message, and a request that is done with it has appended its two. -/
structure Durable (s : Session) (action : Action) : Prop where
  keeps : ∀ entry, s.history.count entry ≤ (step s action).history.count entry
  appends : ∀ (i : Nat) before_ after_, s.requests[i]? = some before_ → (step s action).requests[i]? = some after_ →
    before_.phase ≠ .done → after_.phase = .done → (step s action).history = s.history ++ before_.entries

def Current (s : Session) : Action → Prop
  | .streams i => ∀ request history, s.requests[i]? = some request → request.phase = .streaming history →
    ∀ tokenBuffer, request.exit ≠ .proposed tokenBuffer
  | .writes i => ∀ request history found, s.requests[i]? = some request → request.phase = .writing history found →
    (found = true ∨ s.historyJson = none) → history = s.history
  | _ => True

def Found (s : Session) : Prop :=
  ∀ request ∈ s.requests, ∀ history, request.phase = .writing history true → s.historyJson.isSome = true

variable {s s' : Session} {i : Nat} {request after_ : Request} {phase : Phase} {action : Action} {history : List Entry}

theorem requests_setPhase (changed : (s.setPhase i request phase).requests[j]? = some after_) :
    (j = i ∧ after_ = {request with phase := phase}) ∨ s.requests[j]? = some after_ := by
  rcases Decidable.eq_or_ne j i with rfl | other
  · have inside : j < s.requests.length := by
      obtain ⟨below,-⟩ := List.getElem?_eq_some_iff.mp changed
      simpa [Session.setPhase] using below
    exact .inl ⟨rfl,(Option.some.inj ((List.getElem?_set_self inside).symm.trans changed)).symm⟩
  · exact .inr ((List.getElem?_set_ne other.symm).symm.trans changed)

/-- What a step does to the history and to the request that it moves, if it is as promised. -/
def Promised (s s' : Session) : Prop :=
  (∀ entry, s.history.count entry ≤ s'.history.count entry) ∧
    ∀ (i : Nat) before_ after_, s.requests[i]? = some before_ → s'.requests[i]? = some after_ →
      before_.phase ≠ .done → after_.phase = .done → s'.history = s.history ++ before_.entries

theorem durable_iff : Durable s action ↔ Promised s (step s action) :=
  ⟨fun durable => ⟨durable.keeps,durable.appends⟩,fun promised => ⟨promised.1,promised.2⟩⟩

theorem promised_same (history : s'.history = s.history)
    (calm : ∀ (i : Nat) before_ after_, s.requests[i]? = some before_ → s'.requests[i]? = some after_ → after_.phase = .done →
      before_.phase = .done) : Promised s s' := by
  refine ⟨fun entry => Nat.le_of_eq (by rw [history]),?_⟩
  intro i before_ after_ was now open_ closed
  exact absurd (calm i before_ after_ was now closed) open_

theorem promised_setPhase (found : s.requests[i]? = some request) (open_ : phase ≠ .done) : Promised s (s.setPhase i request phase) := by
  refine promised_same rfl fun j before_ after_ was now closed => ?_
  rcases requests_setPhase now with ⟨rfl,rfl⟩ | same
  · exact absurd closed open_
  · obtain rfl := Option.some.inj (was.symm.trans same)
    exact closed

/-- A request that is done is as promised exactly when its two messages are all that the history gains. -/
theorem promised_done (found : s.requests[i]? = some request) (open_ : request.phase ≠ .done) (historyJson : Option (List Entry)) :
    Promised s {s.setPhase i request .done with historyJson := historyJson} ↔ historyJson.getD [] = s.history ++ request.entries := by
  have here : (s.setPhase i request .done).requests[i]? = some {request with phase := .done} := by
    obtain ⟨inside,-⟩ := List.getElem?_eq_some_iff.mp found
    exact List.getElem?_set_self inside
  constructor
  · exact fun promised => promised.2 i request _ found here open_ rfl
  · intro appended
    refine ⟨fun entry => ?_,?_⟩
    · have counts : (historyJson.getD []).count entry = s.history.count entry + request.entries.count entry := by
        rw [appended,List.count_append]
      exact Nat.le_trans (Nat.le_add_right _ _) (Nat.le_of_eq counts.symm)
    · intro j before_ after_ was now still closed
      rcases requests_setPhase now with ⟨rfl,-⟩ | same
      · obtain rfl := Option.some.inj (was.symm.trans found)
        exact appended
      · obtain rfl := Option.some.inj (was.symm.trans same)
        exact absurd closed still

theorem entries_ne_nil (request : Request) : request.entries ≠ [] := List.cons_ne_nil _ _

theorem promised_streams (found : s.requests[i]? = some request) (streaming : request.phase = .streaming history) :
    Promised s (advance s i request (.streams i)) ↔ ∀ tokenBuffer, request.exit ≠ .proposed tokenBuffer := by
  simp only [advance,streaming]
  cases exit : request.exit with
  | finished tokenBuffer | failed tokenBuffer => exact iff_of_true (promised_setPhase found (by simp)) (by simp)
  | proposed tokenBuffer =>
    refine iff_of_false (fun promised => ?_) (by simp)
    have same : s.history = s.history ++ request.entries :=
      (promised_done found (by rw [streaming]; simp) s.historyJson).mp promised
    exact entries_ne_nil request (List.self_eq_append_right.mp same)

theorem promised_writes (kept : Found s) (found : s.requests[i]? = some request) {row : Bool} (writing : request.phase = .writing history row) :
    Promised s (advance s i request (.writes i)) ↔ (row = true ∨ s.historyJson = none → history = s.history) := by
  have open_ : request.phase ≠ .done := by rw [writing]; simp
  simp only [advance,writing]
  cases row with
  | true =>
    obtain ⟨old,stored⟩ := Option.isSome_iff_exists.mp (kept request (List.mem_of_getElem? found) history writing)
    rw [if_pos rfl,promised_done found open_,stored]
    simp [List.append_cancel_right_eq]
  | false =>
    rw [if_neg Bool.false_ne_true]
    split
    · rename_i stored
      refine iff_of_true (promised_setPhase found (by simp)) fun either => ?_
      rcases either with row | none_
      · cases row
      · rw [none_] at stored
        cases stored
    · rename_i absent
      have none_ : s.historyJson = none := by simpa using absent
      rw [promised_done found open_]
      simp [none_,List.append_cancel_right_eq]

theorem promised_refl (s : Session) : Promised s s :=
  promised_same rfl fun _ _ _ was now closed => by rwa [Option.some.inj (was.symm.trans now)]

/-- The moves that neither end a stream nor write. -/
theorem promised_advance (found : s.requests[i]? = some request) (calm : ∀ j, action ≠ .streams j ∧ action ≠ .writes j) :
    Promised s (advance s i request action) := by
  unfold advance
  split
  · exact promised_setPhase found (by simp)
  · exact absurd rfl (calm _).1
  · exact promised_setPhase found (by simp)
  · exact absurd rfl (calm _).2
  · exact promised_setPhase found (by simp)
  · exact promised_setPhase found (by simp)
  · exact promised_refl s
  · exact promised_refl s
  · exact promised_setPhase found (by simp)
  · exact promised_refl s

theorem step_durable (s : Session) (action : Action) (kept : Found s) : Durable s action ↔ Current s action := by
  rw [durable_iff]
  have moves (i : Nat) (at_ : action.request = some i) (calm : ∀ j, action ≠ .streams j ∧ action ≠ .writes j) :
      Promised s (step s action) := by
    cases action with
    | read | send => cases at_
    | loads j | streams j | selects j | writes j | writeFails j | disconnects j =>
      cases found : s.requests[j]? with
      | none =>
        simp only [step,Action.request,Option.bind_some,found]
        exact promised_refl s
      | some request =>
        simp only [step,Action.request,Option.bind_some,Option.getD_some,found]
        exact promised_advance found calm
  cases action with
  | read client => exact iff_of_true (promised_refl s) trivial
  | send client withHistory message ctx answers persists =>
    refine iff_of_true (promised_same rfl fun i before_ after_ was now closed => ?_) trivial
    obtain ⟨inside,-⟩ := List.getElem?_eq_some_iff.mp was
    have same : s.requests[i]? = some after_ := (List.getElem?_append_left inside).symm.trans now
    rwa [Option.some.inj (was.symm.trans same)]
  | loads i | selects i | writeFails i | disconnects i => exact iff_of_true (moves i rfl (by simp)) trivial
  | streams i =>
    cases found : s.requests[i]? with
    | none =>
      simp only [step,Action.request,Option.bind_some,found,Current]
      exact iff_of_true (promised_refl s) (by simp)
    | some request =>
      simp only [step,Action.request,Option.bind_some,Option.getD_some,found,Current,Option.some.injEq]
      cases phase : request.phase with
      | streaming history =>
        refine (promised_streams found phase).trans ⟨?_,fun all => all request history rfl phase⟩
        rintro all other _ rfl -
        exact all
      | loading | selecting | writing | done | failed | cancelled =>
        simp only [advance,phase]
        refine iff_of_true (promised_refl s) ?_
        rintro other _ rfl streaming
        rw [phase] at streaming
        cases streaming
  | writes i =>
    cases found : s.requests[i]? with
    | none =>
      simp only [step,Action.request,Option.bind_some,found,Current]
      exact iff_of_true (promised_refl s) (by simp)
    | some request =>
      simp only [step,Action.request,Option.bind_some,Option.getD_some,found,Current,Option.some.injEq]
      cases phase : request.phase with
      | writing history row =>
        refine (promised_writes kept found phase).trans ⟨?_,fun all => all request history row rfl phase⟩
        rintro all other _ _ rfl writing
        obtain ⟨rfl,rfl⟩ := Phase.writing.inj (phase.symm.trans writing)
        exact all
      | loading | selecting | streaming | done | failed | cancelled =>
        simp only [advance,phase]
        refine iff_of_true (promised_refl s) ?_
        rintro other _ _ rfl writing
        rw [phase] at writing
        cases writing

theorem found_setPhase (kept : Found s) (open_ : ∀ history, phase = .writing history true → s.historyJson.isSome = true) :
    Found (s.setPhase i request phase) := by
  intro other member history writing
  rcases List.mem_or_eq_of_mem_set member with was | rfl
  · exact kept other was history writing
  · exact open_ history writing

theorem found_historyJson (kept : Found s) {historyJson : Option (List Entry)} (stays : s.historyJson.isSome = true → historyJson.isSome = true) :
    Found {s with historyJson := historyJson} :=
  fun request member history writing => stays (kept request member history writing)

theorem found_advance (kept : Found s) : Found (advance s i request action) := by
  have moved (phase : Phase) (open_ : ∀ history, phase ≠ .writing history true) : Found (s.setPhase i request phase) :=
    found_setPhase kept fun history writing => absurd writing (open_ history)
  unfold advance
  split
  · exact moved _ (by simp)
  · split
    all_goals exact moved _ (by simp)
  · exact found_setPhase kept fun history writing => (Phase.writing.inj writing).2
  · split
    · exact found_historyJson (moved _ (by simp)) fun stored => by simpa [Session.setPhase] using stored
    · split
      · exact moved _ (by simp)
      · exact found_historyJson (moved _ (by simp)) fun _ => rfl
  · exact moved _ (by simp)
  · exact moved _ (by simp)
  · exact kept
  · exact kept
  · exact moved _ (by simp)
  · exact kept

theorem first_reads (begins : List Entry) : Phase.first begins ≠ .writing history true := by
  unfold Phase.first
  split <;> simp

theorem step_found (s : Session) (action : Action) (kept : Found s) : Found (step s action) := by
  cases action with
  | read client => exact kept
  | send client withHistory message ctx answers persists =>
    intro request member history writing
    rcases List.mem_append.mp member with was | fresh
    · exact kept request was history writing
    · rw [List.mem_singleton.mp fresh] at writing
      exact absurd writing (first_reads _)
  | loads i | streams i | selects i | writes i | writeFails i | disconnects i =>
    simp only [step,Action.request,Option.bind_some,Option.getD_some]
    split
    · exact kept
    · exact found_advance kept

/-- Messages are kept and appended along exactly the runs in which no stream ends with a proposal and every write
extends the stored history. -/
theorem durable_along_iff (historyJson : Option (List Entry)) (actions : List Action) :
    Runs.Along step Durable (initial historyJson) actions ↔ Runs.Along step Current (initial historyJson) actions :=
  Runs.along_congr step_found step_durable actions fun _ member => by cases member

/-- A node without tools to ask. -/
def quietContext : Context := ⟨none,"fr",fun _ => none,fun _ => "",fun _ _ _ _ => .ok []⟩

/-- The second of two overlapping requests overwrites what the first has stored. -/
theorem not_durable_overlap : ¬∀ historyJson actions, Runs.Along step Durable (initial historyJson) actions := by
  intro durable
  have along := durable (some []) [.send 0 false "a" quietContext (fun _ => []) true,.send 1 false "b" quietContext (fun _ => []) true,
    .loads 0,.loads 1,.streams 0,.selects 0,.writes 0,.streams 1,.selects 1,.writes 1]
  have kept := along.2.2.2.2.2.2.2.2.2.1.keeps ⟨"user","a"⟩
  exact absurd kept (by decide)

end Vigile.ChatHistory
