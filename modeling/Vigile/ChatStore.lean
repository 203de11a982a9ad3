import Vigile.EventStream
import Vigile.Runs

/-! The frontend's chat store: the sessions, the active one, and the calls of `sendMessage` that are suspended while
other actions change them. -/
namespace Vigile.ChatStore

open EventStream JsonText

inductive Role where
  | system
  | user
  | assistant
  | tool

structure Message where
  role : Role
  content : String
  model : Option Value
  tools : List Value
  proposal : Option Value
  placeholderOf : Option Nat

structure ChatSession where
  id : String
  history : List Message
  lastModel : Option Value

/-- The fields of the store, and whether an update of a stream has ever replaced another message than its own
placeholder. -/
structure Store where
  sessions : List ChatSession
  activeSessionId : Option String
  activeSession : Option ChatSession
  isStreaming : Bool
  abortController : Option Nat
  overwritten : Bool

def initial : Store := ⟨[],none,none,false,none,false⟩

/-- Where a call is suspended: in `createSession`, in `fetch`, in `reader.read` or in `reader.cancel`. -/
inductive Phase where
  | creating
  | fetching
  | reading
  | cancelling
  | ended
  deriving DecidableEq

/-- The variables of a call of `sendMessage`, the bytes that it has read, and whether another action has set the
active session since its last update. -/
structure Call where
  content : String
  phase : Phase
  aborted : Bool
  sessionId : String
  assistantMessage : Message
  timed : Bool
  rafPending : Bool
  reader : Reader
  received : List UInt8
  reloaded : Bool

structure State where
  store : Store
  calls : List Call

def userMessage (content : String) : Message := ⟨.user,content,none,[],none,none⟩

def placeholder (k : Nat) : Message := ⟨.assistant,"",none,[],none,some k⟩

def ofServer (session : ChatSession) : ChatSession :=
  {session with history := session.history.map fun m => {m with placeholderOf := none}}

def find (sessions : List ChatSession) (id : String) : Option ChatSession := sessions.find? fun s => s.id = id

def Store.setActive (s : Store) (change : ChatSession → ChatSession) : Store :=
  match s.activeSession with
  | none => s
  | some active =>
    let updated := change active
    {s with activeSession := some updated, sessions := s.sessions.map fun x => if x.id = updated.id then updated else x}

def Store.fetchSessions (s : Store) (data : List ChatSession) : Store :=
  match s.activeSessionId with
  | none => {s with sessions := data}
  | some id => if id = "" then {s with sessions := data} else {s with sessions := data, activeSession := find data id}

def Store.selectSession (s : Store) (sessionId : Option String) : Store :=
  {s with activeSessionId := sessionId, activeSession := sessionId.bind (find s.sessions)}

def Store.createSession (s : Store) (session : ChatSession) : Store :=
  let sessions :=
    if s.sessions.any fun x => x.id = session.id then s.sessions.map fun x => if x.id = session.id then session else x
    else session :: s.sessions
  {s with sessions := sessions, activeSessionId := some session.id, activeSession := some session}

def Store.deleteSession (s : Store) (sessionId : String) : Store :=
  let filtered := s.sessions.filter fun x => x.id ≠ sessionId
  let nextActiveId := if s.activeSessionId = some sessionId then none else s.activeSessionId
  {s with
    sessions := filtered
    activeSessionId := nextActiveId
    activeSession := nextActiveId.bind fun id => if id = "" then none else find filtered id}

/-- The condition of `trim` on a content. -/
def isBlank (content : String) : Bool := (trim content.toList).isEmpty

def Call.begin_ (content : String) : Call where
  content := content
  phase := .creating
  aborted := false
  sessionId := ""
  assistantMessage := placeholder 0
  timed := false
  rafPending := false
  reader := .start
  received := []
  reloaded := false

/-- The user's message is shown, and the request is made. -/
def request (s : Store) (k : Nat) (call : Call) (currentSession : ChatSession) : Store × Call :=
  let baseHistory := currentSession.history ++ [userMessage call.content]
  let shown :=
    match s.activeSession with
    | none => s
    | some _ => {s.setActive fun active => {active with history := baseHistory} with isStreaming := true}
  ({shown with abortController := some k},{call with phase := .fetching, aborted := false, sessionId := currentSession.id})

/-- `updateAssistantMessage`, which replaces the last message of the active session if it is the session of the call. -/
def update (s : Store) (k : Nat) (call : Call) : Store × Call :=
  match s.activeSession with
  | none => (s,call)
  | some active =>
    if active.id ≠ call.sessionId then (s,call)
    else
      ({s with
          activeSession := some {active with history := active.history.dropLast ++ [call.assistantMessage]}
          overwritten := s.overwritten || active.history.getLast?.any (·.placeholderOf ≠ some k)},
        {call with reloaded := false})

/-- `flushUpdate`, and the callback of the frame that `scheduleUpdate` asked for. -/
def flushUpdate (s : Store) (k : Nat) (call : Call) : Store × Call :=
  if call.rafPending then update s k {call with rafPending := false} else (s,call)

/-- The answer has a body: the placeholder goes behind the history of the session that is active. -/
def respond (s : Store) (k : Nat) (call : Call) : Store × Call :=
  (s.setActive fun active => {active with history := active.history ++ [placeholder k]},
    {call with
      phase := .reading
      assistantMessage := placeholder k
      timed := false
      reader := .start
      received := []
      reloaded := false})

def handle (s : Store) (k : Nat) (call : Call) : Event → Store × Call
  | .described model =>
    let updated := update s k {call with assistantMessage := {call.assistantMessage with model := some model}}
    (updated.1.setActive fun active => {active with lastModel := some model},updated.2)
  | .token content =>
    (s,{call with
          timed := true
          assistantMessage := {call.assistantMessage with content := call.assistantMessage.content ++ content}
          rafPending := true})
  | .proposal data => update s k {call with assistantMessage := {call.assistantMessage with proposal := some data}}
  | .toolResult data =>
    update s k {call with assistantMessage := {call.assistantMessage with tools := call.assistantMessage.tools ++ [data]}}
  | .done | .other => (s,call)

/-- The events of a chunk, up to the end of the answer. -/
def handleAll (s : Store) (k : Nat) (call : Call) : List Event → Store × Call
  | [] => (s,call)
  | .done :: _ => (s,{call with phase := .cancelling})
  | e :: rest => handleAll (handle s k call e).1 k (handle s k call e).2 rest

def receive (appended : Option Value → String) (s : Store) (k : Nat) (call : Call) (value : List UInt8) : Store × Call :=
  let read := call.reader.receive appended value
  handleAll s k {call with reader := read.1, received := call.received ++ value} read.2

/-- The reader is cancelled; a message without a token is shown once more. -/
def conclude (s : Store) (k : Nat) (call : Call) : Store × Call :=
  let flushed := flushUpdate s k call
  if flushed.2.timed then flushed else update flushed.1 k {flushed.2 with timed := true}

def finish (s : Store) (k : Nat) (call : Call) : Store × Call :=
  let flushed := flushUpdate s k call
  ({flushed.1 with isStreaming := false, abortController := none},{flushed.2 with phase := .ended})

/-- Actions, with the answer of the server or none for an error, and what suspended calls wait for: the session or the error of `createSession`, a body or an error of
`fetch`, which is also what an abort and the timeout come to, chunks or the end of the body, the end of
`reader.cancel`, and frames. -/
inductive Action where
  | sendMessage (content : String)
  | abortStreaming
  | fetchSessions (data : Option (List ChatSession))
  | selectSession (sessionId : Option String)
  | deleteSession (sessionId : String)
  | created (k : Nat) (answer : Option ChatSession)
  | responds (k : Nat)
  | rejects (k : Nat)
  | chunk (k : Nat) (value : List UInt8)
  | closes (k : Nat)
  | cancelled (k : Nat)
  | frame (k : Nat)

/-- A call goes on from where it is suspended, if that is where its event comes. -/
def State.resume (s : State) (k : Nat) (waits : Call → Bool) (next : Store → Call → Store × Call) : State :=
  match s.calls[k]? with
  | none => s
  | some call => if waits call then ⟨(next s.store call).1,s.calls.set k (next s.store call).2⟩ else s

/-- Another action sets the active session. -/
def State.load (s : State) (store : Store) : State :=
  ⟨store,s.calls.map fun call => {call with reloaded := true}⟩

def abort (s : State) : State :=
  match s.store.abortController with
  | none => s
  | some k => ⟨{s.store with isStreaming := false},s.calls.modify k fun call => {call with aborted := true}⟩

def sendMessage (s : State) (content : String) : State :=
  if s.store.isStreaming ∨ isBlank content then s
  else
    match s.store.activeSession with
    | none => ⟨s.store,s.calls ++ [.begin_ content]⟩
    | some session =>
      let requested := request s.store s.calls.length (.begin_ content) session
      ⟨requested.1,s.calls ++ [requested.2]⟩

def continueCreated (k : Nat) (answer : Option ChatSession) (s : Store) (call : Call) : Store × Call :=
  match answer with
  | none => (s,{call with phase := .ended})
  | some session => request (s.createSession (ofServer session)) k call (ofServer session)

def step (appended : Option Value → String) (s : State) : Action → State
  | .sendMessage content => ChatStore.sendMessage s content
  | .abortStreaming => abort s
  | .fetchSessions none => s
  | .fetchSessions (some data) => s.load (s.store.fetchSessions (data.map ofServer))
  | .selectSession sessionId => s.load (s.store.selectSession sessionId)
  | .deleteSession sessionId => s.load (s.store.deleteSession sessionId)
  | .created k answer => s.resume k (fun call => call.phase = .creating) (continueCreated k answer)
  | .responds k => s.resume k (fun call => call.phase = .fetching && !call.aborted) fun store call => respond store k call
  | .rejects k =>
    s.resume k (fun call => call.phase = .fetching || call.phase = .reading) fun store call => finish store k call
  | .chunk k value =>
    s.resume k (fun call => call.phase = .reading && !call.aborted) fun store call => receive appended store k call value
  | .closes k =>
    s.resume k (fun call => call.phase = .reading && !call.aborted) fun store call => (store,{call with phase := .cancelling})
  | .cancelled k =>
    s.resume k (fun call => call.phase = .cancelling) fun store call =>
      let concluded := conclude store k call
      finish concluded.1 k concluded.2
  | .frame k => s.resume k (·.rafPending) fun store call => flushUpdate store k call

/-! What is expected -/

def Call.inFlight (call : Call) : Bool :=
  !call.aborted && (call.phase = .fetching || call.phase = .reading || call.phase = .cancelling)

def Call.past (call : Call) : Bool := call.phase = .reading || call.phase = .cancelling

/-- At most one request is in flight, the store is streaming exactly while one is, and no other message than the
placeholder of a stream has been replaced by it. -/
structure Sound (s : State) : Prop where
  single : ∀ (i j : Nat) (first second : Call), s.calls[i]? = some first → s.calls[j]? = some second →
    first.inFlight = true → second.inFlight = true → i = j
  streaming : s.store.isStreaming = true ↔ ∃ (k : Nat) (call : Call), s.calls[k]? = some call ∧ call.inFlight = true
  kept : s.store.overwritten = false

variable (appended : Option Value → String)

/-- After the end of an answer whose session is the active one, its last message has the tokens of the answer. -/
def Complete (s : State) : Action → Prop
  | .cancelled k => ∀ call, s.calls[k]? = some call → call.phase = .cancelling →
      ∀ active, (step appended s (.cancelled k)).store.activeSession = some active → active.id = call.sessionId →
        active.history.getLast?.map (·.content) = some (tokens (events appended call.received))
  | _ => True

def Store.loaded (s : Store) : Action → Option ChatSession
  | .fetchSessions (some data) => s.activeSessionId.bind fun id => if id = "" then none else find (data.map ofServer) id
  | .selectSession sessionId => sessionId.bind (find s.sessions)
  | .deleteSession sessionId => (s.activeSessionId.filter (· ≠ sessionId)).bind (find s.sessions)
  | _ => none

/-- A message is sent when no call is suspended; the session of a stream becomes the active one only with the
placeholder of the stream at its end, and then an update follows before the stream ends. -/
def Orderly (s : State) : Action → Prop
  | .sendMessage content => s.store.isStreaming = true ∨ isBlank content = true ∨ ∀ call ∈ s.calls, call.phase = .ended
  | .cancelled k => ∀ call active, s.calls[k]? = some call → call.phase = .cancelling →
      s.store.activeSession = some active → active.id = call.sessionId → call.reloaded = true →
        call.rafPending = true ∨ call.timed = false
  | action => ∀ k call active, s.calls[k]? = some call → call.past = true →
      s.store.loaded action = some active → active.id = call.sessionId →
        ∀ m ∈ active.history.getLast?, m.placeholderOf = some k

structure Placed (s : Store) (k : Nat) (call : Call) : Prop where
  kept : s.overwritten = false
  own : call.assistantMessage.placeholderOf = some k
  ends : ∀ active, s.activeSession = some active → active.id = call.sessionId →
    ∀ m ∈ active.history.getLast?, m.placeholderOf = some k

/-- Without a pending update the message is shown as it is. -/
def Shown (s : Store) (call : Call) : Prop :=
  ∀ active, s.activeSession = some active → active.id = call.sessionId → call.reloaded = false → call.rafPending = false →
    active.history.getLast?.map (·.content) = some call.assistantMessage.content

structure Frame (before after : Store × Call) : Prop where
  streaming : after.1.isStreaming = before.1.isStreaming
  controller : after.1.abortController = before.1.abortController
  phase : after.2.phase = before.2.phase
  aborted : after.2.aborted = before.2.aborted
  sessionId : after.2.sessionId = before.2.sessionId
  reader : after.2.reader = before.2.reader
  received : after.2.received = before.2.received

theorem Frame.trans {first second third : Store × Call} (earlier : Frame first second) (later : Frame second third) :
    Frame first third where
  streaming := later.streaming.trans earlier.streaming
  controller := later.controller.trans earlier.controller
  phase := later.phase.trans earlier.phase
  aborted := later.aborted.trans earlier.aborted
  sessionId := later.sessionId.trans earlier.sessionId
  reader := later.reader.trans earlier.reader
  received := later.received.trans earlier.received

variable {s : Store} {k : Nat} {call : Call}

theorem update_cases (s : Store) (k : Nat) (call : Call) :
    (update s k call = (s,call) ∧ ∀ active, s.activeSession = some active → active.id ≠ call.sessionId) ∨
      ∃ active, s.activeSession = some active ∧ active.id = call.sessionId ∧ update s k call =
        ({s with
            activeSession := some {active with history := active.history.dropLast ++ [call.assistantMessage]}
            overwritten := s.overwritten || active.history.getLast?.any (·.placeholderOf ≠ some k)},
          {call with reloaded := false}) := by
  unfold update
  cases current : s.activeSession with
  | none => exact .inl ⟨rfl,fun _ other => nomatch other⟩
  | some active =>
    by_cases same : active.id = call.sessionId
    · exact .inr ⟨active,rfl,same,by simp [same]⟩
    · refine .inl ⟨by simp [same],fun found eq => ?_⟩
      cases eq
      exact same

theorem update_frame (s : Store) (k : Nat) (call : Call) : Frame (s,call) (update s k call) := by
  rcases update_cases s k call with ⟨eq,-⟩ | ⟨active,-,-,eq⟩
  all_goals
    rw [eq]
    exact ⟨rfl,rfl,rfl,rfl,rfl,rfl,rfl⟩

@[simp] theorem update_message (s : Store) (k : Nat) (call : Call) :
    (update s k call).2.assistantMessage = call.assistantMessage := by
  rcases update_cases s k call with ⟨eq,-⟩ | ⟨active,-,-,eq⟩ <;> rw [eq]

@[simp] theorem update_timed (s : Store) (k : Nat) (call : Call) : (update s k call).2.timed = call.timed := by
  rcases update_cases s k call with ⟨eq,-⟩ | ⟨active,-,-,eq⟩ <;> rw [eq]

@[simp] theorem update_rafPending (s : Store) (k : Nat) (call : Call) : (update s k call).2.rafPending = call.rafPending := by
  rcases update_cases s k call with ⟨eq,-⟩ | ⟨active,-,-,eq⟩ <;> rw [eq]

theorem update_shows (s : Store) (k : Nat) (call : Call) (active : ChatSession)
    (current : (update s k call).1.activeSession = some active) (same : active.id = call.sessionId) :
    active.history.getLast?.map (·.content) = some call.assistantMessage.content := by
  rcases update_cases s k call with ⟨eq,other⟩ | ⟨found,-,-,eq⟩
  · rw [eq] at current
    exact absurd same (other active current)
  · rw [eq] at current
    obtain rfl := Option.some.inj current
    simp

theorem update_shown (s : Store) (k : Nat) (call : Call) : Shown (update s k call).1 (update s k call).2 := by
  intro active current same _ _
  rw [update_message]
  exact update_shows s k call active current (same.trans (update_frame s k call).sessionId)

theorem update_placed (placed : Placed s k call) : Placed (update s k call).1 k (update s k call).2 := by
  rcases update_cases s k call with ⟨eq,-⟩ | ⟨active,current,same,eq⟩
  · rw [eq]
    exact placed
  · have ends := placed.ends active current same
    rw [eq]
    refine ⟨?_,placed.own,?_⟩
    · rw [placed.kept,Bool.false_or,Option.any_eq_false_iff_get]
      intro found
      simpa using ends _ (Option.get_mem found)
    · rintro found eq' - m last
      obtain rfl := Option.some.inj eq'
      obtain rfl : call.assistantMessage = m := by simpa using last
      exact placed.own

/-- The last model of the active session changes no history. -/
theorem Placed.described (placed : Placed s k call) (model : Value) :
    Placed (s.setActive fun active => {active with lastModel := some model}) k call := by
  unfold Store.setActive
  cases current : s.activeSession with
  | none => simpa only [current] using placed
  | some active =>
    refine ⟨placed.kept,placed.own,?_⟩
    rintro found eq same
    obtain rfl := Option.some.inj eq
    exact placed.ends active current same

theorem Shown.described (shown : Shown s call) (model : Value) :
    Shown (s.setActive fun active => {active with lastModel := some model}) call := by
  unfold Store.setActive
  cases current : s.activeSession with
  | none => simpa only [current] using shown
  | some active =>
    rintro found eq same
    obtain rfl := Option.some.inj eq
    exact shown active current same

theorem setActive_frame (change : ChatSession → ChatSession) : Frame (s,call) (s.setActive change,call) := by
  unfold Store.setActive
  cases s.activeSession <;> exact ⟨rfl,rfl,rfl,rfl,rfl,rfl,rfl⟩

structure Handled (k : Nat) (before : Store × Call) (content : String) (after : Store × Call) : Prop where
  placed : Placed after.1 k after.2
  shown : Shown after.1 after.2
  content : after.2.assistantMessage.content = before.2.assistantMessage.content ++ content

/-- An update after a change of the message that leaves its content. -/
theorem update_handled (message : Message) (placed : Placed s k call) (own : message.placeholderOf = some k)
    (content : message.content = call.assistantMessage.content) :
    Frame (s,call) (update s k {call with assistantMessage := message}) ∧
      Handled k (s,call) "" (update s k {call with assistantMessage := message}) := by
  have changed : Placed s k {call with assistantMessage := message} := ⟨placed.kept,own,placed.ends⟩
  have frame := update_frame s k {call with assistantMessage := message}
  refine ⟨⟨frame.streaming,frame.controller,frame.phase,frame.aborted,frame.sessionId,frame.reader,frame.received⟩,
    update_placed changed,update_shown _ _ _,?_⟩
  rw [update_message,content,String.append_empty]

theorem handle_handled {e : Event} (open_ : e.isDone = false) (placed : Placed s k call) (shown : Shown s call) :
    Frame (s,call) (handle s k call e) ∧ Handled k (s,call) (tokens [e]) (handle s k call e) := by
  cases e with
  | done => cases open_
  | described model =>
    obtain ⟨frame,handled⟩ := update_handled {call.assistantMessage with model := some model} placed placed.own rfl
    exact ⟨frame.trans (setActive_frame _),handled.placed.described model,handled.shown.described model,handled.content⟩
  | token content =>
    refine ⟨⟨rfl,rfl,rfl,rfl,rfl,rfl,rfl⟩,⟨placed.kept,placed.own,placed.ends⟩,?_,?_⟩
    · intro active _ _ _ settled
      cases settled
    · simp [handle,tokens]
  | proposal data => exact update_handled {call.assistantMessage with proposal := some data} placed placed.own rfl
  | toolResult data =>
    exact update_handled {call.assistantMessage with tools := call.assistantMessage.tools ++ [data]} placed placed.own rfl
  | other => exact ⟨⟨rfl,rfl,rfl,rfl,rfl,rfl,rfl⟩,placed,shown,by simp [handle,tokens]⟩

/-- What a chunk leaves, and what it adds: its tokens up to the end, which stops the reading. -/
structure Received (k : Nat) (before : Store × Call) (read : List Event) (after : Store × Call) : Prop where
  handled : Handled k before (tokens read) after
  streaming : after.1.isStreaming = before.1.isStreaming
  controller : after.1.abortController = before.1.abortController
  phase : after.2.phase = if read.any Event.isDone then .cancelling else before.2.phase
  aborted : after.2.aborted = before.2.aborted
  sessionId : after.2.sessionId = before.2.sessionId
  reader : after.2.reader = before.2.reader
  received : after.2.received = before.2.received

theorem handleAll_received (placed : Placed s k call) (shown : Shown s call) (read : List Event) :
    Received k (s,call) read (handleAll s k call read) := by
  induction read generalizing s call with
  | nil => exact ⟨⟨placed,shown,by simp [handleAll,tokens]⟩,rfl,rfl,rfl,rfl,rfl,rfl,rfl⟩
  | cons e rest later =>
    cases ends : e.isDone with
    | true =>
      cases e with
      | done =>
        refine ⟨⟨⟨placed.kept,placed.own,placed.ends⟩,shown,by simp [handleAll,tokens]⟩,rfl,rfl,?_,rfl,rfl,rfl,rfl⟩
        simp [handleAll,Event.isDone]
      | _ => cases ends
    | false =>
      obtain ⟨frame,handled⟩ := handle_handled ends placed shown
      have more := later handled.placed handled.shown
      have all : handleAll s k call (e :: rest) = handleAll (handle s k call e).1 k (handle s k call e).2 rest := by
        cases e with
        | done => cases ends
        | _ => rfl
      have single : ∀ e' ∈ [e], e'.isDone = false := by simpa using ends
      have split : tokens (e :: rest) = tokens [e] ++ tokens rest := tokens_append single rest
      rw [all]
      refine ⟨⟨more.handled.placed,more.handled.shown,?_⟩,more.streaming.trans frame.streaming,
        more.controller.trans frame.controller,?_,more.aborted.trans frame.aborted,more.sessionId.trans frame.sessionId,
        more.reader.trans frame.reader,more.received.trans frame.received⟩
      · rw [more.handled.content,handled.content,split,String.append_assoc]
      · rw [more.phase,frame.phase,List.any_cons,ends,Bool.false_or]

/-- The message has the tokens of what was read, and while the call reads there was no end. -/
structure Told (call : Call) : Prop where
  content : call.assistantMessage.content = tokens (events appended call.received)
  going : call.phase = .reading → call.reader = (Reader.start.receive appended call.received).1 ∧
    ∀ e ∈ events appended call.received, e.isDone = false

structure Live (k : Nat) (current : Store × Call) : Prop where
  kept : current.1.overwritten = false
  streaming : current.1.isStreaming = current.2.inFlight
  controller : current.1.abortController = none ∨ current.1.abortController = some k
  released : current.2.phase = .creating ∨ current.2.phase = .ended → current.1.abortController = none
  quiet : current.2.past = false → current.2.rafPending = false
  placed : current.2.past = true → Placed current.1 k current.2
  shown : current.2.past = true → Shown current.1 current.2
  told : current.2.past = true → Told appended current.2

variable {appended}

theorem Live.request (kept : s.overwritten = false) (session : ChatSession) (active : s.activeSession.isSome = true)
    (quiet : call.rafPending = false) : Live appended k (request s k call session) := by
  obtain ⟨shown,eq⟩ := Option.isSome_iff_exists.mp active
  have inFlight : (ChatStore.request s k call session).2.inFlight = true := by
    simp [ChatStore.request,Call.inFlight]
  have past : (ChatStore.request s k call session).2.past = false := by
    simp [ChatStore.request,Call.past]
  refine ⟨?_,?_,.inr rfl,?_,fun _ => quiet,?_,?_,?_⟩
  · simpa [ChatStore.request,Store.setActive,eq] using kept
  · rw [inFlight]
    simp [ChatStore.request,eq]
  · intro resting
    simp [ChatStore.request] at resting
  all_goals
    intro set
    rw [past] at set
    cases set

theorem Live.respond (live : Live appended k (s,call)) (fetching : call.phase = .fetching) :
    Live appended k (respond s k call) := by
  have quiet : call.rafPending = false := live.quiet (by simp [Call.past,fetching])
  have same : (ChatStore.respond s k call).1.isStreaming = s.isStreaming ∧
      (ChatStore.respond s k call).1.abortController = s.abortController ∧
      (ChatStore.respond s k call).1.overwritten = s.overwritten := by
    unfold ChatStore.respond Store.setActive
    cases s.activeSession <;> exact ⟨rfl,rfl,rfl⟩
  have ends : ∀ active, (ChatStore.respond s k call).1.activeSession = some active →
      active.history.getLast? = some (placeholder k) := by
    intro active current
    unfold ChatStore.respond Store.setActive at current
    cases before : s.activeSession with
    | none => simp [before] at current
    | some found =>
      rw [before] at current
      obtain rfl := Option.some.inj current
      simp
  refine ⟨same.2.2.trans live.kept,?_,?_,?_,?_,?_,?_,?_⟩
  · rw [same.1,live.streaming]
    simp [ChatStore.respond,Call.inFlight,fetching]
  · rw [same.2.1]
    exact live.controller
  · intro resting
    simp [ChatStore.respond] at resting
  · exact fun _ => quiet
  · refine fun _ => ⟨same.2.2.trans live.kept,rfl,?_⟩
    intro active current _ m last
    rw [ends active current] at last
    obtain rfl := Option.some.inj last
    rfl
  · intro _ active current _ _ _
    rw [ends active current]
    rfl
  · intro _
    refine ⟨rfl,fun _ => ⟨rfl,?_⟩⟩
    intro e member
    simp [events,ChatStore.respond,Reader.receive,Reader.start,Decoder.decode] at member

theorem Live.receive (live : Live appended k (s,call)) (reading : call.phase = .reading) (value : List UInt8) :
    Live appended k (receive appended s k call value) := by
  have past : call.past = true := by simp [Call.past,reading]
  have told := live.told past
  obtain ⟨reader,open_⟩ := told.going reading
  have placed := live.placed past
  let begun : Call :=
    {call with reader := (call.reader.receive appended value).1, received := call.received ++ value}
  have begunPlaced : Placed s k begun := ⟨placed.kept,placed.own,placed.ends⟩
  have begunShown : Shown s begun := live.shown past
  have read : Received k (s,begun) (call.reader.receive appended value).2 (ChatStore.receive appended s k call value) :=
    handleAll_received begunPlaced begunShown _
  have all : events appended (call.received ++ value) =
      events appended call.received ++ (call.reader.receive appended value).2 := by
    rw [events_append,← reader]
  have phase : (ChatStore.receive appended s k call value).2.phase = .cancelling ∨
      (ChatStore.receive appended s k call value).2.phase = .reading ∧
        (call.reader.receive appended value).2.any Event.isDone = false := by
    rw [read.phase]
    cases (call.reader.receive appended value).2.any Event.isDone with
    | true => exact .inl rfl
    | false => exact .inr ⟨reading,rfl⟩
  have after : (ChatStore.receive appended s k call value).2.past = true := by
    rcases phase with cancelling | ⟨reading,-⟩
    · simp [Call.past,cancelling]
    · simp [Call.past,reading]
  refine ⟨read.handled.placed.kept,?_,?_,?_,?_,fun _ => read.handled.placed,fun _ => read.handled.shown,fun _ => ⟨?_,?_⟩⟩
  · rw [read.streaming,live.streaming]
    unfold Call.inFlight
    rw [read.aborted]
    rcases phase with cancelling | ⟨same,-⟩
    · simp [begun,cancelling,reading]
    · simp [begun,same,reading]
  · rw [read.controller]
    exact live.controller
  · intro resting
    rcases phase with cancelling | ⟨same,-⟩
    · simp [cancelling] at resting
    · simp [same] at resting
  · intro other
    cases after.symm.trans other
  · rw [read.handled.content,read.received,all,tokens_append open_,told.content]
  · intro still
    rw [read.reader,read.received]
    refine ⟨?_,?_⟩
    · rw [receive_append,← reader]
    · intro e member
      rw [all] at member
      rcases List.mem_append.mp member with old | new
      · exact open_ e old
      · rcases phase with cancelling | ⟨-,none_⟩
        · cases cancelling.symm.trans still
        · simpa using List.any_eq_false.mp none_ e new

theorem Live.close (live : Live appended k (s,call)) (reading : call.phase = .reading) :
    Live appended k (s,{call with phase := .cancelling}) := by
  have past : call.past = true := by simp [Call.past,reading]
  have placed := live.placed past
  refine ⟨live.kept,?_,live.controller,?_,?_,fun _ => ⟨placed.kept,placed.own,placed.ends⟩,fun _ => live.shown past,
    fun _ => ⟨(live.told past).content,?_⟩⟩
  · rw [live.streaming]
    simp [Call.inFlight,reading]
  · intro resting
    simp at resting
  · intro other
    cases other
  · intro other
    cases other

/-- An update shows what the message has become, whatever was shown before. -/
theorem live_update (past : call.past = true) (placed : Placed s k call) (told : Told appended call)
    (streaming : s.isStreaming = call.inFlight) (controller : s.abortController = none ∨ s.abortController = some k) :
    Live appended k (update s k call) := by
  have frame := update_frame s k call
  have after : (update s k call).2.past = true := by
    unfold Call.past
    rw [frame.phase]
    exact past
  refine ⟨(update_placed placed).kept,?_,?_,?_,?_,fun _ => update_placed placed,fun _ => update_shown s k call,
    fun _ => ⟨?_,?_⟩⟩
  · rw [frame.streaming,streaming]
    unfold Call.inFlight
    rw [frame.aborted,frame.phase]
  · rw [frame.controller]
    exact controller
  · intro resting
    rcases resting with creating | ended
    · simp [Call.past,creating] at after
    · simp [Call.past,ended] at after
  · intro other
    cases after.symm.trans other
  · rw [update_message,frame.received]
    exact told.content
  · rw [frame.phase,frame.reader,frame.received]
    exact told.going

theorem Live.flush (live : Live appended k (s,call)) : Live appended k (flushUpdate s k call) := by
  unfold flushUpdate
  by_cases pending : call.rafPending = true
  · rw [if_pos pending]
    have past : call.past = true := by
      by_contra other
      cases (live.quiet (Bool.eq_false_iff.mpr other)).symm.trans pending
    have placed := live.placed past
    have told := live.told past
    have flushed : Placed s k {call with rafPending := false} := ⟨placed.kept,placed.own,placed.ends⟩
    have same : Told appended {call with rafPending := false} := ⟨told.content,told.going⟩
    exact live_update past flushed same live.streaming live.controller
  · rw [if_neg pending]
    exact live

theorem flushUpdate_frame (s : Store) (k : Nat) (call : Call) : Frame (s,call) (flushUpdate s k call) := by
  unfold flushUpdate
  split
  · have frame := update_frame s k {call with rafPending := false}
    exact ⟨frame.streaming,frame.controller,frame.phase,frame.aborted,frame.sessionId,frame.reader,frame.received⟩
  · exact ⟨rfl,rfl,rfl,rfl,rfl,rfl,rfl⟩

@[simp] theorem flushUpdate_rafPending (s : Store) (k : Nat) (call : Call) : (flushUpdate s k call).2.rafPending = false := by
  unfold flushUpdate
  by_cases pending : call.rafPending = true
  · rw [if_pos pending,update_rafPending]
  · rw [if_neg pending]
    exact Bool.eq_false_iff.mpr pending

theorem Live.finish (live : Live appended k (s,call)) : Live appended k (finish s k call) := by
  have past : (ChatStore.finish s k call).2.past = false := by
    simp [ChatStore.finish,Call.past]
  refine ⟨live.flush.kept,?_,.inl rfl,fun _ => rfl,fun _ => flushUpdate_rafPending s k call,?_,?_,?_⟩
  · simp [ChatStore.finish,Call.inFlight]
  all_goals
    intro other
    cases past.symm.trans other

theorem Live.conclude (live : Live appended k (s,call)) (cancelling : call.phase = .cancelling) :
    Live appended k (conclude s k call) := by
  have flushed := live.flush
  have past : (flushUpdate s k call).2.past = true := by
    unfold Call.past
    rw [(flushUpdate_frame s k call).phase]
    simp [cancelling]
  unfold ChatStore.conclude
  by_cases timed : (flushUpdate s k call).2.timed = true
  · simpa only [timed,if_true] using flushed
  · rw [if_neg timed]
    have placed := flushed.placed past
    have told := flushed.told past
    have again : Placed (flushUpdate s k call).1 k {(flushUpdate s k call).2 with timed := true} :=
      ⟨placed.kept,placed.own,placed.ends⟩
    have same : Told appended {(flushUpdate s k call).2 with timed := true} := ⟨told.content,told.going⟩
    exact live_update past again same flushed.streaming flushed.controller

/-- After the end the message is shown, unless the session was set again since an update that is the last. -/
theorem conclude_shows (live : Live appended k (s,call)) (cancelling : call.phase = .cancelling)
    (fresh : ∀ active, s.activeSession = some active → active.id = call.sessionId → call.reloaded = true →
      call.rafPending = true ∨ call.timed = false) (active : ChatSession)
    (current : (conclude s k call).1.activeSession = some active) (same : active.id = call.sessionId) :
    active.history.getLast?.map (·.content) = some call.assistantMessage.content := by
  unfold ChatStore.conclude flushUpdate at current
  by_cases pending : call.rafPending = true
  · simp only [pending,if_true,update_timed] at current
    split at current
    · have shown := update_shows s k _ active current same
      exact shown
    · have shown := update_shows _ k _ active current (same.trans (update_frame s k {call with rafPending := false}).sessionId.symm)
      simpa using shown
  · simp only [pending,Bool.false_eq_true,if_false] at current
    split at current
    · rename_i timed
      have past : call.past = true := by simp [Call.past,cancelling]
      have settled := Bool.eq_false_iff.mpr pending
      refine live.shown past active current same ?_ settled
      by_contra reloaded
      rcases fresh active current same (Bool.eq_true_of_not_eq_false reloaded) with again | untimed
      · exact pending again
      · cases timed.symm.trans untimed
    · have shown := update_shows s k _ active current same
      exact shown

def Settled (call : Call) : Prop := call.phase = .ended ∧ call.rafPending = false

structure Idle (s : State) : Prop where
  settled : ∀ call ∈ s.calls, Settled call
  streaming : s.store.isStreaming = false
  controller : s.store.abortController = none
  kept : s.store.overwritten = false

structure Busy (appended : Option Value → String) (s : State) (k : Nat) (call : Call) : Prop where
  here : s.calls[k]? = some call
  others : ∀ j other, s.calls[j]? = some other → j ≠ k → Settled other
  live : Live appended k (s.store,call)

def Invariant (appended : Option Value → String) (s : State) : Prop := Idle s ∨ ∃ k call, Busy appended s k call

theorem Settled.inFlight {call : Call} (settled : Settled call) : call.inFlight = false := by
  simp [Call.inFlight,settled.1]

theorem sound_of_invariant {s : State} (invariant : Invariant appended s) : Sound s := by
  rcases invariant with idle | ⟨k,call,busy⟩
  · have none_ : ∀ (i : Nat) (call : Call), s.calls[i]? = some call → call.inFlight ≠ true := fun i call at_ =>
      Bool.eq_false_iff.mp (idle.settled call (List.mem_of_getElem? at_)).inFlight
    refine ⟨fun i j first second at_ _ flies _ => absurd flies (none_ i first at_),?_,idle.kept⟩
    constructor
    · intro streaming
      cases idle.streaming.symm.trans streaming
    · rintro ⟨i,call,at_,flies⟩
      exact absurd flies (none_ i call at_)
  · have only : ∀ (i : Nat) (other : Call), s.calls[i]? = some other → other.inFlight = true → i = k := by
      intro i other at_ flies
      by_contra different
      cases (busy.others i other at_ different).inFlight.symm.trans flies
    refine ⟨fun i j first second left right flies too => (only i first left flies).trans (only j second right too).symm,?_,
      busy.live.kept⟩
    rw [busy.live.streaming]
    constructor
    · exact fun flies => ⟨k,call,busy.here,flies⟩
    · rintro ⟨i,other,at_,flies⟩
      obtain rfl := only i other at_ flies
      obtain rfl := Option.some.inj (busy.here.symm.trans at_)
      exact flies

variable {next : Store → Call → Store × Call} {action : Action}

/-- A suspended call goes on. -/
theorem invariant_resume {s : State} (invariant : Invariant appended s) {waits : Call → Bool} (j : Nat) (asleep : ∀ call, Settled call → waits call = false)
    (goes : ∀ call, Live appended j (s.store,call) → waits call = true → Live appended j (next s.store call)) :
    Invariant appended (s.resume j waits next) := by
  unfold State.resume
  cases at_ : s.calls[j]? with
  | none => exact invariant
  | some call =>
    by_cases wakes : waits call = true
    · simp only [wakes,if_true]
      rcases invariant with idle | ⟨k,found,busy⟩
      · cases (asleep call (idle.settled call (List.mem_of_getElem? at_))).symm.trans wakes
      · by_cases same : j = k
        · subst same
          obtain rfl := Option.some.inj (busy.here.symm.trans at_)
          have bound : j < s.calls.length := (List.getElem?_eq_some_iff.mp at_).1
          refine .inr ⟨j,_,?_,?_,goes found busy.live wakes⟩
          · simp [bound]
          · intro i other elsewhere different
            rw [List.getElem?_set_ne (Ne.symm different)] at elsewhere
            exact busy.others i other elsewhere different
        · cases (asleep call (busy.others j call at_ same)).symm.trans wakes
    · simp only [wakes]
      exact invariant

/-- The same for what only a call that is not aborted waits for. -/
theorem invariant_unaborted {s : State} (invariant : Invariant appended s) {phase : Phase} (suspended : phase ≠ .ended) (j : Nat)
    (goes : ∀ call, Live appended j (s.store,call) → call.phase = phase → Live appended j (next s.store call)) :
    Invariant appended (s.resume j (fun call => call.phase = phase && !call.aborted) next) := by
  apply invariant_resume invariant j
  · intro call settled
    simp [settled.1,Ne.symm suspended]
  · intro call live waits
    simp only [Bool.and_eq_true,decide_eq_true_eq] at waits
    exact goes call live waits.1

/-- Another action sets the active session, if at all to one that ends with the placeholder of its stream. -/
theorem invariant_load {s : State} (invariant : Invariant appended s) {store : Store} {loaded : Option ChatSession}
    (streaming : store.isStreaming = s.store.isStreaming) (controller : store.abortController = s.store.abortController)
    (kept : store.overwritten = s.store.overwritten)
    (sets : ∀ active, store.activeSession = some active → s.store.activeSession = some active ∨ loaded = some active)
    (ends : ∀ k call active, s.calls[k]? = some call → call.past = true → loaded = some active →
      active.id = call.sessionId → ∀ m ∈ active.history.getLast?, m.placeholderOf = some k) :
    Invariant appended (s.load store) := by
  rcases invariant with idle | ⟨k,call,busy⟩
  · refine .inl ⟨?_,streaming.trans idle.streaming,controller.trans idle.controller,kept.trans idle.kept⟩
    intro call member
    obtain ⟨before,among,rfl⟩ := List.mem_map.mp member
    exact idle.settled before among
  · have live := busy.live
    refine .inr ⟨k,{call with reloaded := true},?_,?_,?_⟩
    · simp [State.load,busy.here]
    · intro j other at_ different
      obtain ⟨before,found,rfl⟩ := Option.map_eq_some_iff.mp ((List.getElem?_map ..).symm.trans at_)
      exact busy.others j before found different
    · refine ⟨kept.trans live.kept,streaming.trans live.streaming,?_,?_,live.quiet,?_,?_,?_⟩
      · show store.abortController = none ∨ store.abortController = some k
        rw [controller]
        exact live.controller
      · exact fun resting => controller.trans (live.released resting)
      · intro past
        have placed := live.placed past
        refine ⟨kept.trans live.kept,placed.own,?_⟩
        intro active current same
        rcases sets active current with before | loads
        · exact placed.ends active before same
        · exact ends k call active busy.here past loads same
      · intro _ active _ _ fresh
        cases fresh
      · exact fun past => ⟨(live.told past).content,(live.told past).going⟩

theorem invariant_abort {s : State} (invariant : Invariant appended s) : Invariant appended (abort s) := by
  unfold abort
  cases controller : s.store.abortController with
  | none => exact invariant
  | some j =>
    rcases invariant with idle | ⟨k,call,busy⟩
    · cases idle.controller.symm.trans controller
    · have live := busy.live
      obtain rfl : j = k := by
        rcases live.controller with none_ | some_
        · cases none_.symm.trans controller
        · exact Option.some.inj (controller.symm.trans some_)
      refine .inr ⟨j,{call with aborted := true},?_,?_,?_⟩
      · simp [busy.here]
      · intro i other at_ different
        rw [List.getElem?_modify_ne _ _ (Ne.symm different)] at at_
        exact busy.others i other at_ different
      · refine ⟨live.kept,by simp [Call.inFlight],live.controller,live.released,live.quiet,?_,live.shown,?_⟩
        · exact fun past => ⟨live.kept,(live.placed past).own,(live.placed past).ends⟩
        · exact fun past => ⟨(live.told past).content,(live.told past).going⟩

/-- A call that begins while all others have ended. -/
theorem invariant_begin {s : State} (settled : ∀ call ∈ s.calls, Settled call) {current : Store × Call}
    (live : Live appended s.calls.length current) : Invariant appended ⟨current.1,s.calls ++ [current.2]⟩ := by
  refine .inr ⟨s.calls.length,current.2,by simp,?_,live⟩
  intro j other at_ different
  have bound : j < s.calls.length := by
    have whole := (List.getElem?_eq_some_iff.mp at_).1
    simp only [List.length_append,List.length_singleton] at whole
    omega
  rw [List.getElem?_append_left bound] at at_
  exact settled other (List.mem_of_getElem? at_)

theorem idle_of_ended {s : State} (invariant : Invariant appended s) (ended : ∀ call ∈ s.calls, call.phase = .ended) :
    Idle s := by
  rcases invariant with idle | ⟨k,call,busy⟩
  · exact idle
  · have over_ := ended call (List.mem_of_getElem? busy.here)
    have settled : Settled call := ⟨over_,busy.live.quiet (by simp [Call.past,over_])⟩
    refine ⟨?_,?_,busy.live.released (.inr over_),busy.live.kept⟩
    · intro other member
      obtain ⟨j,at_⟩ := List.mem_iff_getElem?.mp member
      by_cases same : j = k
      · subst same
        obtain rfl := Option.some.inj (busy.here.symm.trans at_)
        exact settled
      · exact busy.others j other at_ same
    · exact busy.live.streaming.trans settled.inFlight

theorem invariant_send {s : State} (invariant : Invariant appended s) {content : String}
    (orderly : Orderly s (.sendMessage content)) : Invariant appended (sendMessage s content) := by
  unfold sendMessage
  split
  · exact invariant
  · rename_i sends
    have idle : Idle s := by
      rcases orderly with streaming | blank | ended
      · exact absurd (.inl streaming) sends
      · exact absurd (.inr blank) sends
      · exact idle_of_ended invariant ended
    split
    · have begun : Live appended s.calls.length (s.store,.begin_ content) :=
        ⟨idle.kept,idle.streaming,.inl idle.controller,fun _ => idle.controller,fun _ => rfl,
          (fun past => nomatch past),(fun past => nomatch past),(fun past => nomatch past)⟩
      exact invariant_begin idle.settled begun
    · rename_i session current
      have requested : Live appended s.calls.length (request s.store s.calls.length (.begin_ content) session) :=
        .request idle.kept session (by simp [current]) rfl
      exact invariant_begin idle.settled requested

theorem Live.created (live : Live appended k (s,call)) (creating : call.phase = .creating) (answer : Option ChatSession) :
    Live appended k (continueCreated k answer s call) := by
  have before : call.past = false := by simp [Call.past,creating]
  cases answer with
  | none =>
    have controller := live.released (.inl creating)
    refine ⟨live.kept,?_,.inl controller,fun _ => controller,fun _ => live.quiet before,
      (fun past => nomatch past),(fun past => nomatch past),(fun past => nomatch past)⟩
    have streaming : s.isStreaming = call.inFlight := live.streaming
    simp [continueCreated,streaming,Call.inFlight,creating]
  | some session =>
    have kept : (s.createSession (ofServer session)).overwritten = false := live.kept
    exact .request kept (ofServer session) rfl (live.quiet before)

theorem find_filter (sessions : List ChatSession) {id sessionId : String} (other : id ≠ sessionId) :
    find (sessions.filter fun x => x.id ≠ sessionId) id = find sessions id := by
  unfold find
  induction sessions with
  | nil => rfl
  | cons x rest ih =>
    by_cases deleted : x.id = sessionId
    · have differs : x.id ≠ id := fun same => other (same.symm.trans deleted)
      simp [deleted,Ne.symm other] at ih ⊢
      exact ih
    · by_cases same : x.id = id
      · simp [same,other]
      · simpa [deleted,same] using ih

theorem fetchSessions_frame (s : Store) (data : List ChatSession) : (s.fetchSessions data).isStreaming = s.isStreaming ∧
    (s.fetchSessions data).abortController = s.abortController ∧ (s.fetchSessions data).overwritten = s.overwritten := by
  unfold Store.fetchSessions
  split
  · exact ⟨rfl,rfl,rfl⟩
  · split <;> exact ⟨rfl,rfl,rfl⟩

theorem invariant_step {s : State} (invariant : Invariant appended s) (orderly : Orderly s action) :
    Invariant appended (step appended s action) := by
  cases action with
  | sendMessage content => exact invariant_send invariant orderly
  | abortStreaming => exact invariant_abort invariant
  | fetchSessions data =>
    cases data with
    | none => exact invariant
    | some data =>
      refine invariant_load invariant ?_ ?_ ?_ ?_ orderly
      · exact (fetchSessions_frame s.store _).1
      · exact (fetchSessions_frame s.store _).2.1
      · exact (fetchSessions_frame s.store _).2.2
      · intro active sets
        simp only [Store.fetchSessions,Store.loaded] at sets ⊢
        cases current : s.store.activeSessionId with
        | none => exact .inl (by simpa [current] using sets)
        | some id =>
          by_cases empty : id = ""
          · exact .inl (by simpa [current,empty] using sets)
          · exact .inr (by simpa [current,empty] using sets)
  | selectSession sessionId => exact invariant_load invariant rfl rfl rfl (fun active sets => .inr sets) orderly
  | deleteSession sessionId =>
    refine invariant_load invariant rfl rfl rfl ?_ orderly
    intro active sets
    right
    simp only [Store.deleteSession,Store.loaded] at sets ⊢
    cases current : s.store.activeSessionId with
    | none => simp [current] at sets
    | some id =>
      by_cases same : id = sessionId
      · simp [current,same] at sets
      · have kept : ¬ some id = some sessionId := fun eq => same (Option.some.inj eq)
        rw [current,if_neg kept] at sets
        simp only [Option.bind_some] at sets
        split at sets
        · cases sets
        · rw [find_filter _ same] at sets
          simpa [Option.filter,same] using sets
  | created k answer =>
    apply invariant_resume invariant k
    · intro call settled
      simp [settled.1]
    · intro call live waits
      exact live.created (by simpa using waits) answer
  | responds k =>
    unfold step
    apply invariant_unaborted invariant
    · simp
    · exact fun call live fetching => live.respond fetching
  | rejects k =>
    unfold step
    apply invariant_resume invariant k
    · intro call settled
      simp [settled.1]
    · exact fun call live _ => live.finish
  | chunk k value =>
    unfold step
    apply invariant_unaborted invariant
    · simp
    · exact fun call live reading => live.receive reading value
  | closes k =>
    unfold step
    apply invariant_unaborted invariant
    · simp
    · exact fun call live reading => live.close reading
  | cancelled k =>
    unfold step
    apply invariant_resume invariant k
    · intro call settled
      simp [settled.1]
    · intro call live waits
      exact (live.conclude (by simpa using waits)).finish
  | frame k =>
    unfold step
    apply invariant_resume invariant k
    · exact fun call settled => settled.2
    · exact fun call live _ => live.flush

theorem conclude_rafPending (s : Store) (k : Nat) (call : Call) : (conclude s k call).2.rafPending = false := by
  unfold conclude
  dsimp only
  split
  · exact flushUpdate_rafPending s k call
  · rw [update_rafPending]
    exact flushUpdate_rafPending s k call

theorem complete_step {s : State} (invariant : Invariant appended s) (orderly : Orderly s action) :
    Complete appended s action := by
  cases action with
  | cancelled k =>
    intro call at_ cancelling active current same
    rcases invariant with idle | ⟨j,found,busy⟩
    · cases (idle.settled call (List.mem_of_getElem? at_)).1.symm.trans cancelling
    · by_cases here : k = j
      · subst here
        obtain rfl := Option.some.inj (busy.here.symm.trans at_)
        have live := busy.live
        have past : found.past = true := by simp [Call.past,cancelling]
        rw [← (live.told past).content]
        have last : (conclude s.store k found).1.activeSession = some active := by
          have quiet := conclude_rafPending s.store k found
          simpa [step,State.resume,at_,cancelling,finish,flushUpdate,quiet] using current
        exact conclude_shows live cancelling (fun active sets => orderly found active at_ cancelling sets) active last same
      · cases (busy.others k call at_ here).1.symm.trans cancelling
  | _ => trivial

/-- Before anything has happened. -/
def State.start : State := ⟨initial,[]⟩

theorem invariant_start : Invariant appended .start :=
  .inl ⟨(fun _ member => nomatch member),rfl,rfl,rfl⟩

/-- In a run whose steps are orderly the store is sound in every state, and every answer that ends is complete. -/
theorem sound_and_complete (appended : Option Value → String) (actions : List Action)
    (orderly : Runs.Along (step appended) Orderly .start actions) :
    Runs.Throughout (step appended) Sound .start actions ∧
      Runs.Along (step appended) (Complete appended) .start actions := by
  have keeps : ∀ s action, Invariant appended s → Orderly s action → Invariant appended (step appended s action) :=
    fun s action invariant orderly => invariant_step invariant orderly
  constructor
  · have invariant := Runs.throughout_of_along keeps actions invariant_start orderly
    exact invariant.imp fun s invariant => sound_of_invariant invariant
  · exact Runs.along_of_along keeps (fun s action invariant orderly => complete_step invariant orderly) actions
      invariant_start orderly

def written : Option Value → String
  | some (.string text) => text
  | _ => "undefined"

def answered : ChatSession := ⟨"s",[userMessage "a",⟨.assistant,"b",none,[],none,none⟩],none⟩

/-- A message is sent in a session that the server has, and answered by a body without a token. -/
def exchange : List Action :=
  [.fetchSessions (some [answered]),.selectSession (some "s"),.sendMessage "c",.responds 0,.closes 0,.cancelled 0]

/-- The same, while the list of sessions is fetched again. -/
def refreshed : List Action :=
  [.fetchSessions (some [answered]),.selectSession (some "s"),.sendMessage "c",.responds 0,
    .fetchSessions (some [answered]),.closes 0,.cancelled 0]

theorem sound_and_complete_exchange : Runs.Throughout (step written) Sound .start exchange ∧
    Runs.Along (step written) (Complete written) .start exchange := by
  refine sound_and_complete written exchange ⟨?_,?_,?_,?_,?_,?_,trivial⟩
  · intro k call active at_
    cases at_
  · intro k call active at_
    cases at_
  · exact .inr (.inr (fun call member => nomatch member))
  · intro k call active _ _ loads
    cases loads
  · intro k call active _ _ loads
    cases loads
  · intro call active at_ _ _ _ reloaded
    cases at_
    cases reloaded

/-- The last message of the server is replaced by the stream's. -/
theorem not_sound_refreshed : ¬ Runs.Throughout (step written) Sound .start refreshed := by
  intro throughout
  have kept := throughout.last.kept
  have overwritten : (Runs.last (step written) .start refreshed).store.overwritten = true := by decide
  cases kept.symm.trans overwritten

end Vigile.ChatStore
