import Mathlib.Data.List.Nodup
import Mathlib.Data.List.Range
import Mathlib.Logic.Function.Basic

/-! `EventBus` and one connected `_sse_stream`: publications interleaved with the steps of
the stream and of the tasks that wait on its two queues. -/
namespace Vigile.NodeEvents

inductive Topic where
  | state
  | deleted
  deriving DecidableEq

variable {P : Type}

structure Event (P : Type) where
  topic : Topic
  payload : P
  number : Nat
  deriving DecidableEq

/-- A task on `queue.get()`: not begun, waiting on its getter, with the getter resolved, or
done. -/
inductive Getter (P : Type) where
  | created
  | blocked
  | woken
  | done (event : Event P)
  deriving DecidableEq

inductive Phase (P : Type) where
  | connecting
  /-- Between two events of a replay; `rest` is left of the copied ring. -/
  | replaying (topic : Topic) (rest : List (Event P))
  | idle
  | waiting (tasks : Topic → Getter P)

structure Stream (P : Type) where
  published : List (Event P)
  ring : Topic → List (Event P)
  queue : Topic → List (Event P)
  phase : Phase P
  /-- How much was published when the stream subscribed. -/
  since : Nat
  sent : List (Event P)

def Stream.start : Stream P := ⟨[],fun _ => [],fun _ => [],.connecting,0,[]⟩

def maxQueueSize : Nat := 200

def replayRingSize : Nat := 200

def ringAppend (ring : List (Event P)) (event : Event P) : List (Event P) :=
  (ring ++ [event]).drop (ring.length + 1 - replayRingSize)

def wake (topic : Topic) : Phase P → Phase P
  | .waiting tasks =>
    .waiting (Function.update tasks topic (match tasks topic with
      | .blocked => .woken
      | other => other))
  | phase => phase

def Phase.subscribed : Phase P → Bool
  | .connecting => false
  | _ => true

def Stream.event (s : Stream P) (topic : Topic) (payload : P) : Event P :=
  ⟨topic,payload,s.published.length⟩

/-- The publication's part under the lock. -/
def Stream.note (s : Stream P) (topic : Topic) (payload : P) : Stream P :=
  { s with
    published := s.published ++ [s.event topic payload]
    ring := Function.update s.ring topic (ringAppend (s.ring topic) (s.event topic payload)) }

/-- `EventBus.publish`; its lock is never held across a suspension, so it is one step. -/
def Stream.publish (s : Stream P) (topic : Topic) (payload : P) : Stream P :=
  if s.phase.subscribed && (s.queue topic).length < maxQueueSize then
    { s.note topic payload with
      queue := Function.update s.queue topic (s.queue topic ++ [s.event topic payload])
      phase := wake topic s.phase }
  else s.note topic payload

/-- `bus.replay("node.deleted")`; an empty ring is passed over without a suspension. -/
def replayDeleted (ring : Topic → List (Event P)) : Phase P :=
  if ring .deleted = [] then .idle else .replaying .deleted (ring .deleted)

/-- `bus.replay("node.state")`, and at once the next one when there is nothing to send. -/
def replayState (ring : Topic → List (Event P)) : Phase P :=
  if ring .state = [] then replayDeleted ring else .replaying .state (ring .state)

inductive Choice (P : Type) where
  | publish (topic : Topic) (payload : P)
  | connect
  | replayNext
  | wait
  /-- The task on the topic's queue moves. -/
  | get (topic : Topic)
  /-- `_next_event` goes on and `done.pop()` is the topic's task. -/
  | next (topic : Topic)
  | timeout

/-- A task that begins or goes on takes the head of the queue, or waits. -/
def getStep (topic : Topic) (tasks : Topic → Getter P) (s : Stream P) : Option (Stream P) :=
  match tasks topic with
  | .created | .woken =>
    match s.queue topic with
    | [] => some { s with phase := .waiting (Function.update tasks topic .blocked) }
    | event :: rest => some { s with
        queue := Function.update s.queue topic rest
        phase := .waiting (Function.update tasks topic (.done event)) }
  | .blocked | .done _ => none

def Getter.begun : Getter P → Bool
  | .created => false
  | _ => true

/-- Both tasks have begun before `asyncio.wait` returns; what the other one took is gone
with it, and one that is not done is cancelled before it takes anything. -/
def nextStep (topic : Topic) (tasks : Topic → Getter P) (s : Stream P) : Option (Stream P) :=
  match tasks topic with
  | .done event =>
    if (tasks .state).begun && (tasks .deleted).begun then
      some { s with sent := s.sent ++ [event], phase := .idle }
    else none
  | _ => none

def step : Choice P → Stream P → Option (Stream P)
  | .publish topic payload,s => some (s.publish topic payload)
  | .connect,s =>
    match s.phase with
    | .connecting => some { s with since := s.published.length, phase := replayState s.ring }
    | _ => none
  | .replayNext,s =>
    match s.phase with
    | .replaying topic (event :: rest) =>
      some { s with sent := s.sent ++ [event], phase := .replaying topic rest }
    | .replaying .state [] => some { s with phase := replayDeleted s.ring }
    | .replaying .deleted [] => some { s with phase := .idle }
    | _ => none
  | .wait,s =>
    match s.phase with
    | .idle => some { s with phase := .waiting fun _ => .created }
    | _ => none
  | .get topic,s =>
    match s.phase with
    | .waiting tasks => getStep topic tasks s
    | _ => none
  | .next topic,s =>
    match s.phase with
    | .waiting tasks => nextStep topic tasks s
    | _ => none
  | .timeout,s =>
    match s.phase with
    | .waiting _ => some { s with phase := .idle }
    | _ => none

/-- The states of the runs whose steps are all `legal`. -/
inductive Reaches (legal : Stream P → Choice P → Prop) : Stream P → Prop where
  | start : Reaches legal .start
  | step {s s' : Stream P} {choice : Choice P} : Reaches legal s → legal s choice →
      step choice s = some s' → Reaches legal s'

/-! What is sent, held and published since the subscription. -/

def Getter.event : Getter P → List (Event P)
  | .done event => [event]
  | _ => []

@[simp] theorem event_created : (Getter.created : Getter P).event = [] := rfl

@[simp] theorem event_blocked : (Getter.blocked : Getter P).event = [] := rfl

@[simp] theorem event_done (event : Event P) : (Getter.done event).event = [event] := rfl

def Phase.inHand (topic : Topic) : Phase P → List (Event P)
  | .waiting tasks => (tasks topic).event
  | _ => []

def ofTopic (since : Nat) (topic : Topic) (events : List (Event P)) : List (Event P) :=
  events.filter fun event => event.topic = topic ∧ since ≤ event.number

def Stream.sentSince (s : Stream P) (topic : Topic) : List (Event P) := ofTopic s.since topic s.sent

def Stream.publishedSince (s : Stream P) (topic : Topic) : List (Event P) :=
  ofTopic s.since topic s.published

def Stream.pending (s : Stream P) (topic : Topic) : List (Event P) :=
  s.phase.inHand topic ++ s.queue topic

/-- Nothing is lost, doubled or out of order: what was published is what was sent, and
then what the stream still holds. -/
def Exact (s : Stream P) : Prop :=
  ∀ topic, s.sentSince topic ++ s.pending topic = s.publishedSince topic

def Fits (s : Stream P) : Choice P → Prop
  | .publish topic _ => (s.queue topic).length < maxQueueSize
  | _ => True

instance (s : Stream P) : DecidablePred (Fits s)
  | .publish topic _ => inferInstanceAs (Decidable ((s.queue topic).length < maxQueueSize))
  | .connect | .replayNext | .wait | .get _ | .next _ | .timeout => .isTrue trivial

def Getter.isDone : Getter P → Bool
  | .done _ => true
  | _ => false

def Topic.other : Topic → Topic
  | .state => .deleted
  | .deleted => .state

/-- No node is deleted while the states are replayed, no wait ends with both tasks done,
and none is timed out with a task done. -/
def Undisturbed (s : Stream P) : Choice P → Prop
  | .publish .deleted _ =>
    match s.phase with
    | .replaying .state _ => False
    | _ => True
  | .next topic =>
    match s.phase with
    | .waiting tasks => (tasks topic.other).isDone = false
    | _ => True
  | .timeout =>
    match s.phase with
    | .waiting tasks => ∀ topic, (tasks topic).isDone = false
    | _ => True
  | _ => True

def Phase.older (since : Nat) (ring : Topic → List (Event P)) : Phase P → Prop
  | .replaying .state rest =>
    (∀ event ∈ rest, event.number < since) ∧ ∀ event ∈ ring .deleted, event.number < since
  | .replaying .deleted rest => ∀ event ∈ rest, event.number < since
  | _ => True

structure Sound (s : Stream P) : Prop where
  numbered : s.published.map Event.number = List.range s.published.length
  rings : ∀ topic, ∀ event ∈ s.ring topic, event.number < s.published.length
  since : s.since ≤ s.published.length
  older : s.phase.older s.since s.ring
  blocked : ∀ tasks topic, s.phase = .waiting tasks → tasks topic = .blocked → s.queue topic = []
  apart : s.phase = .connecting → s.sent = [] ∧ ∀ topic, s.queue topic = []
  exact : s.phase.subscribed = true → Exact s

theorem sound_start : Sound (.start : Stream P) where
  numbered := rfl
  rings := by simp [Stream.start]
  since := Nat.le_refl _
  older := trivial
  blocked := by simp [Stream.start]
  apart := fun _ => ⟨rfl,fun _ => rfl⟩
  exact := by simp [Stream.start,Phase.subscribed]

variable {s s' : Stream P} {tasks : Topic → Getter P}

/-- A step after which no task waits, and which publishes nothing. -/
theorem Sound.untasked (sound : Sound s) (published : s'.published = s.published)
    (ring : s'.ring = s.ring) (since : s'.since ≤ s.published.length)
    (older : s'.phase.older s'.since s.ring) (subscribed : s'.phase.subscribed = true)
    (free : ∀ tasks, s'.phase ≠ .waiting tasks) (exact : Exact s') : Sound s' where
  numbered := published ▸ sound.numbered
  rings := ring ▸ published ▸ sound.rings
  since := published ▸ since
  older := ring ▸ older
  blocked := fun tasks _ waiting => absurd waiting (free tasks)
  apart := fun connecting => by simp [connecting,Phase.subscribed] at subscribed
  exact := fun _ => exact

@[simp] theorem ofTopic_append (since : Nat) (topic : Topic) (events more : List (Event P)) :
    ofTopic since topic (events ++ more) = ofTopic since topic events ++ ofTopic since topic more :=
  List.filter_append ..

theorem ofTopic_single (since : Nat) (topic : Topic) (event : Event P) :
    ofTopic since topic [event] = if event.topic = topic ∧ since ≤ event.number then [event] else [] := by
  unfold ofTopic
  split <;> simp_all

/-- What the stream holds was published since it subscribed. -/
theorem pending_since (exact : Exact s) {topic : Topic} {event : Event P}
    (held : event ∈ s.pending topic) : event.topic = topic ∧ s.since ≤ event.number := by
  have listed : event ∈ s.publishedSince topic := by
    rw [← exact topic]
    exact List.mem_append_right _ held
  simpa using (List.mem_filter.mp listed).2

@[simp] theorem inHand_wake (topic other : Topic) (phase : Phase P) :
    (wake topic phase).inHand other = phase.inHand other := by
  cases phase with
  | waiting tasks =>
    by_cases same : other = topic
    · subst same
      cases now : tasks other <;> simp [wake,Phase.inHand,Getter.event,now]
    · simp [wake,Phase.inHand,same]
  | _ => rfl

theorem subscribed_wake (topic : Topic) (phase : Phase P) :
    (wake topic phase).subscribed = phase.subscribed := by
  cases phase <;> rfl

theorem Sound.note (sound : Sound s) (topic : Topic) (payload : P)
    (undisturbed : Undisturbed s (.publish topic payload)) :
    (s.note topic payload).published.map Event.number =
        List.range (s.note topic payload).published.length ∧
      (∀ other, ∀ event ∈ (s.note topic payload).ring other,
        event.number < (s.note topic payload).published.length) ∧
      s.since ≤ (s.note topic payload).published.length ∧
      s.phase.older s.since (s.note topic payload).ring := by
  have longer : (s.note topic payload).published.length = s.published.length + 1 := by
    simp [Stream.note]
  refine ⟨?_,?_,?_,?_⟩
  · rw [longer,List.range_succ,← sound.numbered]
    simp [Stream.note,Stream.event]
  · intro other event member
    rw [longer]
    by_cases same : other = topic
    · subst same
      simp only [Stream.note,Function.update_self] at member
      obtain old | new := List.mem_append.mp (List.mem_of_mem_drop member)
      · exact Nat.lt_succ_of_lt (sound.rings other event old)
      · rw [List.mem_singleton.mp new]
        exact Nat.lt_succ_self _
    · simp only [Stream.note,Function.update_of_ne same] at member
      exact Nat.lt_succ_of_lt (sound.rings other event member)
  · rw [longer]
    exact Nat.le_succ_of_le sound.since
  · have before := sound.older
    match phase : s.phase with
    | .connecting | .idle | .waiting _ => trivial
    | .replaying .deleted rest =>
      rw [phase] at before
      exact before
    | .replaying .state rest =>
      rw [phase] at before
      refine ⟨before.1,?_⟩
      cases topic with
      | state => exact before.2
      | deleted => simp [Undisturbed,phase] at undisturbed

theorem Sound.publish (sound : Sound s) (topic : Topic) (payload : P)
    (fits : Fits s (.publish topic payload)) (undisturbed : Undisturbed s (.publish topic payload)) :
    Sound (s.publish topic payload) := by
  obtain ⟨numbered,rings,since,older⟩ := sound.note topic payload undisturbed
  by_cases subscribed : s.phase.subscribed = true
  · have room : (s.queue topic).length < maxQueueSize := fits
    have now : s.publish topic payload = { s.note topic payload with
        queue := Function.update s.queue topic (s.queue topic ++ [s.event topic payload])
        phase := wake topic s.phase } := by
      simp [Stream.publish,subscribed,room]
    rw [now]
    refine ⟨numbered,rings,since,?_,?_,?_,?_⟩
    · cases phase : s.phase <;> rw [phase] at older <;> exact older
    · intro tasks other waiting isBlocked
      cases phase : s.phase with
      | waiting held =>
        have same : wake topic (.waiting held) = .waiting tasks := by rw [← phase]; exact waiting
        obtain rfl := Phase.waiting.inj same
        by_cases same : other = topic
        · subst same
          rw [Function.update_self] at isBlocked
          split at isBlocked
          · cases isBlocked
          · contradiction
        · rw [Function.update_of_ne same] at isBlocked
          simp only [Function.update_of_ne same]
          exact sound.blocked held other phase isBlocked
      | _ =>
        simp only [phase] at waiting
        cases waiting
    · intro connecting
      have still := subscribed_wake topic s.phase
      rw [show wake topic s.phase = .connecting from connecting,subscribed] at still
      cases still
    · intro _ other
      have before := sound.exact subscribed other
      simp only [Stream.sentSince,Stream.publishedSince,Stream.pending,inHand_wake,ofTopic_append,
        Stream.note] at before ⊢
      rw [← before,ofTopic_single]
      by_cases same : topic = other
      · subst same
        simp [Stream.event,sound.since]
      · have apart : other ≠ topic := fun equal => same equal.symm
        simp [Stream.event,same,Function.update_of_ne apart]
  · have now : s.publish topic payload = s.note topic payload := by
      simp [Stream.publish,subscribed]
    rw [now]
    exact ⟨numbered,rings,since,older,sound.blocked,sound.apart,
      fun connected => absurd connected subscribed⟩

/-- What a replay begins with is older than what is published from now on, and it begins
without a task. -/
theorem replayDeleted_older {ring : Topic → List (Event P)} {since : Nat}
    (old : ∀ event ∈ ring .deleted, event.number < since) :
    (replayDeleted ring).older since ring := by
  unfold replayDeleted
  split
  · trivial
  · exact old

theorem replayState_older {ring : Topic → List (Event P)} {since : Nat}
    (old : ∀ topic, ∀ event ∈ ring topic, event.number < since) :
    (replayState ring).older since ring := by
  unfold replayState
  split
  · exact replayDeleted_older (old .deleted)
  · exact ⟨old .state,old .deleted⟩

theorem replayDeleted_free (ring : Topic → List (Event P)) :
    (∀ other, (replayDeleted ring).inHand other = []) ∧ (replayDeleted ring).subscribed = true ∧
      ∀ tasks, replayDeleted ring ≠ .waiting tasks := by
  unfold replayDeleted
  split <;> exact ⟨fun _ => rfl,rfl,fun _ => by simp⟩

theorem replayState_free (ring : Topic → List (Event P)) :
    (∀ other, (replayState ring).inHand other = []) ∧ (replayState ring).subscribed = true ∧
      ∀ tasks, replayState ring ≠ .waiting tasks := by
  unfold replayState
  split
  · exact replayDeleted_free ring
  · exact ⟨fun _ => rfl,rfl,fun _ => by simp⟩

theorem Sound.connect (sound : Sound s) (connecting : s.phase = .connecting) :
    Sound { s with since := s.published.length, phase := replayState s.ring } := by
  obtain ⟨free,subscribed,untasked⟩ := replayState_free s.ring
  obtain ⟨unsent,empty⟩ := sound.apart connecting
  refine sound.untasked rfl rfl (Nat.le_refl _) (replayState_older sound.rings) subscribed untasked ?_
  intro topic
  have none_later : ofTopic s.published.length topic s.published = [] := by
    apply List.filter_eq_nil_iff.mpr
    intro event member
    have number : event.number ∈ List.range s.published.length := by
      rw [← sound.numbered]
      exact List.mem_map_of_mem member
    have bound := List.mem_range.mp number
    simp only [decide_eq_true_eq,not_and]
    omega
  have none_sent : ofTopic s.published.length topic s.sent = [] := by rw [unsent]; rfl
  simp [Stream.sentSince,Stream.publishedSince,Stream.pending,none_sent,empty,free,none_later]

/-- Without a task and with nothing new sent, what is held stays the same. -/
theorem exact_of_same (exact : Exact s) (sent : ∀ topic, s'.sentSince topic = s.sentSince topic)
    (held : ∀ topic, s'.pending topic = s.pending topic)
    (published : ∀ topic, s'.publishedSince topic = s.publishedSince topic) : Exact s' := by
  intro topic
  rw [sent,held,published]
  exact exact topic

theorem Sound.replayNext (sound : Sound s)
    (taken : NodeEvents.step .replayNext s = some s') : Sound s' := by
  have before := sound.older
  simp only [NodeEvents.step] at taken
  split at taken
  case h_1 topic event rest phase =>
    obtain rfl := Option.some.inj taken
    rw [phase] at before
    have old : event.number < s.since := by
      cases topic with
      | state => exact before.1 event List.mem_cons_self
      | deleted => exact before event List.mem_cons_self
    refine sound.untasked rfl rfl sound.since ?_ rfl (fun _ => by simp) ?_
    · cases topic with
      | state => exact ⟨fun other member => before.1 other (List.mem_cons_of_mem _ member),before.2⟩
      | deleted => exact fun other member => before other (List.mem_cons_of_mem _ member)
    · refine exact_of_same (sound.exact (by rw [phase]; rfl)) ?_ ?_ (fun _ => rfl)
      · intro other
        have skipped : ofTopic s.since other [event] = [] := by
          rw [ofTopic_single,if_neg]
          omega
        simp [Stream.sentSince,skipped]
      · intro other
        simp [Stream.pending,Phase.inHand,phase]
  case h_2 phase =>
    obtain rfl := Option.some.inj taken
    rw [phase] at before
    obtain ⟨_,subscribed,untasked⟩ := replayDeleted_free s.ring
    refine sound.untasked rfl rfl sound.since (replayDeleted_older before.2) subscribed untasked ?_
    refine exact_of_same (sound.exact (by rw [phase]; rfl)) (fun _ => rfl) ?_ (fun _ => rfl)
    intro other
    simp [Stream.pending,phase,Phase.inHand]
  case h_3 phase =>
    obtain rfl := Option.some.inj taken
    refine sound.untasked rfl rfl sound.since trivial rfl (fun _ => by simp) ?_
    refine exact_of_same (sound.exact (by rw [phase]; rfl)) (fun _ => rfl) ?_ (fun _ => rfl)
    intro other
    simp [Stream.pending,phase,Phase.inHand]
  case h_4 => cases taken

theorem Sound.wait (sound : Sound s) (idle : s.phase = .idle) :
    Sound { s with phase := .waiting fun _ => .created } := by
  refine ⟨sound.numbered,sound.rings,sound.since,trivial,?_,(fun connecting => by cases connecting),
    fun _ => ?_⟩
  · intro tasks topic waiting isBlocked
    obtain rfl := Phase.waiting.inj waiting
    cases isBlocked
  · refine exact_of_same (sound.exact (by rw [idle]; rfl)) (fun _ => rfl) ?_ (fun _ => rfl)
    intro other
    simp [Stream.pending,idle,Phase.inHand,Getter.event]

theorem Sound.get (sound : Sound s) (topic : Topic)
    (waiting : s.phase = .waiting tasks) (taken : getStep topic tasks s = some s') : Sound s' := by
  have exact := sound.exact (by rw [waiting]; rfl)
  have idle : (tasks topic).event = [] := by
    cases now : tasks topic with
    | done event => simp [getStep,now] at taken
    | _ => rfl
  have moves : (match s.queue topic with
      | [] => some { s with phase := .waiting (Function.update tasks topic .blocked) }
      | event :: rest => some { s with
          queue := Function.update s.queue topic rest
          phase := .waiting (Function.update tasks topic (.done event)) }) = some s' := by
    cases now : tasks topic with
    | created | woken => simpa [getStep,now] using taken
    | blocked | done => simp [getStep,now] at taken
  clear taken
  cases queued : s.queue topic with
  | nil =>
    rw [queued] at moves
    obtain rfl := Option.some.inj moves
    refine ⟨sound.numbered,sound.rings,sound.since,trivial,?_,(fun connecting => by cases connecting),
      fun _ => ?_⟩
    · intro held other same isBlocked
      obtain rfl := Phase.waiting.inj same
      by_cases here : other = topic
      · rw [here]
        exact queued
      · rw [Function.update_of_ne here] at isBlocked
        exact sound.blocked tasks other waiting isBlocked
    · refine exact_of_same exact (fun _ => rfl) ?_ (fun _ => rfl)
      intro other
      by_cases here : other = topic
      · subst here
        simp [Stream.pending,waiting,Phase.inHand,idle]
      · simp [Stream.pending,waiting,Phase.inHand,Function.update_of_ne here]
  | cons event rest =>
    rw [queued] at moves
    obtain rfl := Option.some.inj moves
    refine ⟨sound.numbered,sound.rings,sound.since,trivial,?_,(fun connecting => by cases connecting),
      fun _ => ?_⟩
    · intro held other same isBlocked
      obtain rfl := Phase.waiting.inj same
      by_cases here : other = topic
      · subst here
        rw [Function.update_self] at isBlocked
        cases isBlocked
      · rw [Function.update_of_ne here] at isBlocked
        simp only [Function.update_of_ne here]
        exact sound.blocked tasks other waiting isBlocked
    · refine exact_of_same exact (fun _ => rfl) ?_ (fun _ => rfl)
      intro other
      by_cases here : other = topic
      · subst here
        simp [Stream.pending,waiting,Phase.inHand,idle,queued]
      · simp [Stream.pending,waiting,Phase.inHand,Function.update_of_ne here]

theorem event_of_not_done {task : Getter P} (still : task.isDone = false) : task.event = [] := by
  cases task with
  | done => cases still
  | _ => rfl

theorem Sound.next (sound : Sound s) (topic : Topic)
    (waiting : s.phase = .waiting tasks) (alone : (tasks topic.other).isDone = false)
    (taken : nextStep topic tasks s = some s') : Sound s' := by
  have exact := sound.exact (by rw [waiting]; rfl)
  unfold nextStep at taken
  split at taken
  case h_2 => cases taken
  case h_1 event done =>
    obtain ⟨_,taken⟩ := Option.ite_none_right_eq_some.mp taken
    obtain rfl := Option.some.inj taken
    have held : event ∈ s.pending topic := by
      simp [Stream.pending,waiting,Phase.inHand,done,Getter.event]
    obtain ⟨own,later⟩ := pending_since exact held
    refine sound.untasked rfl rfl sound.since trivial rfl (fun _ => by simp) ?_
    intro other
    have before := exact other
    simp only [Stream.sentSince,Stream.publishedSince,Stream.pending,Phase.inHand,waiting,
      ofTopic_append,ofTopic_single] at before ⊢
    rw [← before]
    by_cases here : other = topic
    · subst here
      simp [own,later,done,Getter.event]
    · have apart : ¬ event.topic = other := fun equal => here (equal.symm.trans own)
      have others : other = topic.other := by cases other <;> cases topic <;> simp_all [Topic.other]
      have nothing : (tasks other).event = [] := by
        rw [others]
        exact event_of_not_done alone
      simp [apart,nothing]

theorem Sound.timeout (sound : Sound s)
    (waiting : s.phase = .waiting tasks) (idle : ∀ topic, (tasks topic).isDone = false) :
    Sound { s with phase := .idle } := by
  refine sound.untasked rfl rfl sound.since trivial rfl (fun _ => by simp) ?_
  refine exact_of_same (sound.exact (by rw [waiting]; rfl)) (fun _ => rfl) ?_ (fun _ => rfl)
  intro topic
  simp [Stream.pending,waiting,Phase.inHand,event_of_not_done (idle topic)]

/-- One step that neither overflows a queue nor is disturbed. -/
theorem Sound.step {choice : Choice P} (sound : Sound s)
    (legal : Fits s choice ∧ Undisturbed s choice) (taken : step choice s = some s') : Sound s' := by
  obtain ⟨fits,undisturbed⟩ := legal
  cases choice with
  | publish topic payload =>
    obtain rfl := Option.some.inj taken
    exact sound.publish topic payload fits undisturbed
  | replayNext => exact sound.replayNext taken
  | connect =>
    simp only [NodeEvents.step] at taken
    split at taken
    case h_1 connecting =>
      obtain rfl := Option.some.inj taken
      exact sound.connect connecting
    case h_2 => cases taken
  | wait =>
    simp only [NodeEvents.step] at taken
    split at taken
    case h_1 idle =>
      obtain rfl := Option.some.inj taken
      exact sound.wait idle
    case h_2 => cases taken
  | get topic =>
    simp only [NodeEvents.step] at taken
    split at taken
    case h_1 tasks waiting => exact sound.get topic waiting taken
    case h_2 => cases taken
  | next topic =>
    simp only [NodeEvents.step] at taken
    split at taken
    case h_1 tasks waiting =>
      simp only [Undisturbed,waiting] at undisturbed
      exact sound.next topic waiting undisturbed taken
    case h_2 => cases taken
  | timeout =>
    simp only [NodeEvents.step] at taken
    split at taken
    case h_1 tasks waiting =>
      simp only [Undisturbed,waiting] at undisturbed
      obtain rfl := Option.some.inj taken
      exact sound.timeout waiting undisturbed
    case h_2 => cases taken

theorem reaches_sound (reached : Reaches (fun s c => Fits s c ∧ Undisturbed s c) s) :
    Sound s := by
  induction reached with
  | start => exact sound_start
  | step _ legal taken ih => exact ih.step legal taken

/-- Both tasks wait for their queues. -/
def Stream.AtRest (s : Stream P) : Prop :=
  ∃ tasks, s.phase = .waiting tasks ∧ ∀ topic, tasks topic = .blocked

/-- In a run without overflow whose steps are undisturbed, every event published since the
subscription is sent once and in its topic's order, or still held; at rest all are sent. -/
theorem node_events_sent_once {s : Stream P}
    (reached : Reaches (fun s c => Fits s c ∧ Undisturbed s c) s)
    (subscribed : s.phase.subscribed = true) (topic : Topic) :
    s.sentSince topic ++ s.pending topic = s.publishedSince topic ∧
      (s.publishedSince topic).Nodup ∧
      (s.AtRest → s.sentSince topic = s.publishedSince topic) := by
  have sound := reaches_sound reached
  have exact := sound.exact subscribed topic
  refine ⟨exact,?_,?_⟩
  · have distinct : (s.published.map Event.number).Nodup := by
      rw [sound.numbered]
      exact List.nodup_range
    exact (List.Nodup.of_map _ distinct).filter _
  · rintro ⟨tasks,waiting,blocked⟩
    have empty := sound.blocked tasks topic waiting (blocked topic)
    rw [← exact]
    simp [Stream.pending,waiting,Phase.inHand,empty,blocked]

/-- One state arrives and is sent. -/
theorem node_events_sent_once_one : ∃ s : Stream Unit, s.AtRest ∧ s.sent.length = 1 ∧
    s.sentSince .state = s.publishedSince .state := by
  have connected := @Reaches.step Unit (fun s c => Fits s c ∧ Undisturbed s c) _ _ .connect .start
    ⟨trivial,trivial⟩ rfl
  have published := @Reaches.step Unit _ _ _ (.publish .state ()) connected ⟨by decide,trivial⟩ rfl
  have waits := @Reaches.step Unit _ _ _ .wait published ⟨trivial,trivial⟩ rfl
  have takes := @Reaches.step Unit _ _ _ (.get .state) waits ⟨trivial,trivial⟩ rfl
  have blocks := @Reaches.step Unit _ _ _ (.get .deleted) takes ⟨trivial,trivial⟩ rfl
  have sends := @Reaches.step Unit _ _ _ (.next .state) blocks ⟨trivial,rfl⟩ rfl
  have again := @Reaches.step Unit _ _ _ .wait sends ⟨trivial,trivial⟩ rfl
  have first := @Reaches.step Unit _ _ _ (.get .state) again ⟨trivial,trivial⟩ rfl
  have second := @Reaches.step Unit _ _ _ (.get .deleted) first ⟨trivial,trivial⟩ rfl
  obtain ⟨_,_,settled⟩ := node_events_sent_once second rfl .state
  refine ⟨_,?_,?_,settled ?_⟩
  · exact ⟨_,rfl,fun topic => by cases topic <;> rfl⟩
  · rfl
  · exact ⟨_,rfl,fun topic => by cases topic <;> rfl⟩

def after (s : Stream P) : List (Choice P) → Option (Stream P)
  | [] => some s
  | choice :: rest => if Fits s choice then (step choice s).bind (after · rest) else none

theorem after_reaches (choices : List (Choice P)) (reached : Reaches Fits s)
    (taken : after s choices = some s') : Reaches Fits s' := by
  induction choices generalizing s with
  | nil =>
    obtain rfl := Option.some.inj taken
    exact reached
  | cons choice rest ih =>
    obtain ⟨fits,taken⟩ := Option.ite_none_right_eq_some.mp taken
    obtain ⟨mid,first,later⟩ := Option.bind_eq_some_iff.mp taken
    exact ih (.step reached fits first) later

/-- A state and a deletion arrive while the stream waits, and both tasks take theirs. -/
def bothArrive : List (Choice Unit) :=
  [.connect,.wait,.get .state,.get .deleted,.publish .state (),.publish .deleted (),.get .state,
    .get .deleted,.next .state]

/-- The deletion is neither sent nor held any more. -/
theorem node_events_lost :
    ¬ ∀ s : Stream Unit, Reaches Fits s → s.phase.subscribed = true → ∀ topic,
      s.sentSince topic ++ s.pending topic = s.publishedSince topic := by
  intro every
  obtain ⟨s,reached,subscribed,lost⟩ : ∃ s : Stream Unit, Reaches Fits s ∧
      s.phase.subscribed = true ∧ s.sentSince .deleted ++ s.pending .deleted ≠ s.publishedSince .deleted :=
    ⟨_,after_reaches bothArrive .start rfl,rfl,by decide⟩
  exact lost (every s reached subscribed .deleted)

end Vigile.NodeEvents
