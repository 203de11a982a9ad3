import Mathlib.Data.List.Basic
import Mathlib.Logic.Function.Basic
import Mathlib.Algebra.GroupWithZero.Nat

/-! A worker's operational sessions and the goroutines that carry out its intents. A session
ends while its goroutines run on. -/
namespace Vigile.IntentDispatch

def startsWith (start text : String) : Bool := start.toList.isPrefixOf text.toList

def isMutationAction (action : String) : Bool :=
  startsWith "STOP_" action || startsWith "START_" action || startsWith "RESTART_" action ||
    startsWith "DELETE_" action || action == "UPDATE_WORKER" || action == "TOKEN_ROTATION"

structure IntentResult where
  intentId : String
  success : Bool
  output : String
  error : String
  deriving DecidableEq

/-- The channels that serve as semaphores of a session. -/
inductive Sem where
  | query
  | mutation
  | diskScan
  deriving DecidableEq

def Sem.capacity : Sem → Nat
  | .query => 4
  | .mutation | .diskScan => 1

inductive Phase where
  /-- Not in `dispatchIntent` yet; other intents than mutations wait for `querySem`. -/
  | waiting
  | dispatching
  | checking (result : IntentResult)
  | sending (result : IntentResult)
  | writing (result : IntentResult)
  | leaving
  | ended
  deriving DecidableEq

structure Handler where
  session : Nat
  action : String
  intentId : String
  phase : Phase
  deriving DecidableEq

/-- `sems` has who put a token into a channel; `sent` has every INTENT_RESULT that was
written, with the place of its intent. -/
structure Worker where
  sessionEpoch : Nat
  running : Bool
  cancelled : Nat → Bool
  sems : Sem → Nat → List Nat
  handlers : List Handler
  sent : List (Nat × IntentResult)

namespace Worker

def start : Worker := ⟨0,false,fun _ => false,fun _ _ => [],[],[]⟩

def isOpen (w : Worker) (session : Nat) : Bool :=
  w.running && w.sessionEpoch == session && !w.cancelled session

def token (w : Worker) (sem : Sem) (session i : Nat) : Worker :=
  {w with sems := fun other of =>
    if other = sem ∧ of = session then w.sems sem session ++ [i] else w.sems other of}

/-- `sem <- struct{}{}`, where the channel has room. -/
def take (w : Worker) (sem : Sem) (session i : Nat) : Option Worker :=
  if (w.sems sem session).length < sem.capacity then some (w.token sem session i) else none

/-- The deferred `<-sem`. -/
def release (w : Worker) (i : Nat) : Worker :=
  {w with sems := fun sem session => (w.sems sem session).filter fun other => other ≠ i}

def put (w : Worker) (i : Nat) (h : Handler) (phase : Phase) : Worker :=
  {w with handlers := w.handlers.set i {h with phase := phase}}

end Worker

/-- The semaphore that the loop itself takes for an intent. -/
def semOf (action : String) : Option Sem :=
  if isMutationAction action then some .mutation
  else if action = "DISK_SCAN" then some .diskScan
  else none

def busy (sem : Sem) (intentId : String) : IntentResult :=
  ⟨intentId,false,"",match sem with
    | .mutation => "WORKER_BUSY: another mutation is already in progress on this node"
    | _ => "WORKER_BUSY: another disk scan is already in progress on this node"⟩

/-- What `dispatchIntent` makes of the outcome of its handler or of its refusal. -/
def dispatchIntent (intentId : String) (outcome : IntentResult) : IntentResult := {outcome with intentId := intentId}

inductive Doing where
  | begin
  | abandon
  | returned (outcome : IntentResult)
  | panicked
  | checkEpoch
  | checkContext
  | write (delivered : Bool)
  | leave

def Worker.goes (w : Worker) (i : Nat) (h : Handler) (doing : Doing) : Option Worker :=
  match doing, h.phase with
  | .begin, .waiting =>
    if isMutationAction h.action then some (w.put i h .dispatching)
    else (w.take .query h.session i).map fun w => w.put i h .dispatching
  | .abandon, .waiting =>
    if !isMutationAction h.action && w.cancelled h.session then some (w.put i h .leaving) else none
  | .returned outcome, .dispatching => some (w.put i h (.checking (dispatchIntent h.intentId outcome)))
  | .panicked, .dispatching => some (w.put i h .leaving)
  | .checkEpoch, .checking result =>
    some (w.put i h (if w.sessionEpoch = h.session then .sending result else .leaving))
  | .checkContext, .sending result =>
    some (w.put i h (if w.cancelled h.session then .leaving else .writing result))
  | .write delivered, .writing result =>
    some ({w with sent := if delivered then w.sent ++ [(i,result)] else w.sent}.put i h .leaving)
  | .leave, .leaving => some ((w.release i).put i h .ended)
  | _, _ => none

def Worker.started (w : Worker) (action intentId : String) : Worker :=
  {w with handlers := w.handlers ++ [⟨w.sessionEpoch,action,intentId,.waiting⟩]}

/-- An intent is answered with `busy`, unless `sendJSON` fails. -/
def Worker.rejected (w : Worker) (sem : Sem) (action intentId : String) (delivered : Bool) : Worker :=
  {w with
    handlers := w.handlers ++ [⟨w.sessionEpoch,action,intentId,.ended⟩]
    sent := if delivered && !w.cancelled w.sessionEpoch then w.sent ++ [(w.handlers.length,busy sem intentId)] else w.sent}

/-- The loop reads an INTENT. -/
def Worker.receive (w : Worker) (action intentId : String) (delivered : Bool) : Worker :=
  match semOf action with
  | none => w.started action intentId
  | some sem =>
    match w.take sem w.sessionEpoch w.handlers.length with
    | some taken => taken.started action intentId
    | none => w.rejected sem action intentId delivered

inductive Event where
  | start
  | stop
  | cancel
  | intent (action intentId : String) (delivered : Bool)
  | goes (i : Nat) (doing : Doing)

def step (w : Worker) : Event → Option Worker
  | .start =>
    if w.running then none
    else some {w with
      sessionEpoch := w.sessionEpoch + 1
      running := true
      cancelled := Function.update w.cancelled (w.sessionEpoch + 1) false
      sems := fun sem session => if session = w.sessionEpoch + 1 then [] else w.sems sem session}
  | .stop =>
    if w.running then
      some {w with running := false, cancelled := Function.update w.cancelled w.sessionEpoch true}
    else none
  | .cancel =>
    if w.running then some {w with cancelled := Function.update w.cancelled w.sessionEpoch true} else none
  | .intent action intentId delivered => if w.running then some (w.receive action intentId delivered) else none
  | .goes i doing => w.handlers[i]?.bind fun h => w.goes i h doing

def run (w : Worker) : List Event → Worker
  | [] => w
  | event :: rest => run ((step w event).getD w) rest

def Handler.mutates (h : Handler) : Bool := isMutationAction h.action && h.phase == .dispatching

/-- Every INTENT_RESULT written for an intent. -/
def Worker.resultsOf (w : Worker) (i : Nat) : List IntentResult := (w.sent.filter fun entry => entry.1 = i).map Prod.snd

/-- Steps that a goroutine still has to make. -/
def Phase.weight : Phase → Nat
  | .waiting => 6
  | .dispatching => 5
  | .checking _ => 4
  | .sending _ => 3
  | .writing _ => 2
  | .leaving => 1
  | .ended => 0

def Worker.work (w : Worker) : Nat := (w.handlers.map fun h => h.phase.weight).sum

structure Dispatched (w : Worker) : Prop where
  exclusive : ∀ (i j : Nat) (h k : Handler), w.handlers[i]? = some h → w.handlers[j]? = some k →
    h.mutates = true → k.mutates = true → i = j
  once : ∀ i, (w.resultsOf i).length ≤ 1
  /-- An intent of the open session that is through has its one result. -/
  answered : ∀ (i : Nat) (h : Handler), w.handlers[i]? = some h → w.isOpen h.session = true → h.phase = .ended →
    ∃ result, w.resultsOf i = [result] ∧ result.intentId = h.intentId
  /-- And while one is not through, some goroutine can go on, with less left to do. -/
  goesOn : ∀ (i : Nat) (h : Handler), w.handlers[i]? = some h → w.isOpen h.session = true → h.phase ≠ .ended →
    ∃ j doing w', step w (.goes j doing) = some w' ∧ w'.work < w.work

/-- A mutation begins while none of another session is being carried out; and in the session
that is open no handler panics and no result is lost on its way. -/
def Fair (w : Worker) : Event → Prop
  | .goes i .begin => ∀ h, w.handlers[i]? = some h → isMutationAction h.action = true →
      ∀ k ∈ w.handlers, k.session ≠ h.session → k.mutates = false
  | .goes i .panicked => ∀ h, w.handlers[i]? = some h → w.isOpen h.session = false
  | .goes i (.write delivered) => ∀ h, w.handlers[i]? = some h → delivered = true ∨ w.isOpen h.session = false
  | .intent _ _ delivered => delivered = true ∨ w.isOpen w.sessionEpoch = false
  | _ => True

def FairRun (w : Worker) : List Event → Prop
  | [] => True
  | event :: rest => Fair w event ∧ FairRun ((step w event).getD w) rest

instance Fair.decidable (w : Worker) : (event : Event) → Decidable (Fair w event)
  | .goes i .begin => inferInstanceAs (Decidable (∀ h ∈ w.handlers[i]?, isMutationAction h.action = true →
      ∀ k ∈ w.handlers, k.session ≠ h.session → k.mutates = false))
  | .goes i .panicked => inferInstanceAs (Decidable (∀ h ∈ w.handlers[i]?, w.isOpen h.session = false))
  | .goes i (.write delivered) =>
    inferInstanceAs (Decidable (∀ h ∈ w.handlers[i]?, delivered = true ∨ w.isOpen h.session = false))
  | .intent _ _ delivered => inferInstanceAs (Decidable (delivered = true ∨ w.isOpen w.sessionEpoch = false))
  | .start | .stop | .cancel | .goes _ .abandon | .goes _ (.returned _) | .goes _ .checkEpoch | .goes _ .checkContext
  | .goes _ .leave => .isTrue trivial

instance FairRun.decidable (w : Worker) : (events : List Event) → Decidable (FairRun w events)
  | [] => .isTrue trivial
  | event :: rest =>
    have := FairRun.decidable ((step w event).getD w) rest
    inferInstanceAs (Decidable (_ ∧ _))

section
variable {w w' : Worker} {i : Nat} {h : Handler} {doing : Doing}

def Phase.result : Phase → Option IntentResult
  | .checking result | .sending result | .writing result => some result
  | _ => none

def Phase.through : Phase → Bool
  | .leaving | .ended => true
  | _ => false

structure Moved (w : Worker) (i : Nat) (h : Handler) (doing : Doing) (phase : Phase) (w' : Worker) : Prop where
  handlers : w'.handlers = w.handlers.set i {h with phase := phase}
  epoch : w'.sessionEpoch = w.sessionEpoch
  running : w'.running = w.running
  cancelled : w'.cancelled = w.cancelled
  lighter : phase.weight < h.phase.weight
  held : ∀ sem session j, j ∈ w'.sems sem session → j ∈ w.sems sem session ∧ (phase = .ended → j ≠ i) ∨
    sem = .query ∧ session = h.session ∧ j = i ∧ phase = .dispatching
  kept : ∀ sem session j, j ∈ w.sems sem session → j ∈ w'.sems sem session ∨ j = i ∧ phase = .ended
  capacity : ∀ sem session, (w'.sems sem session).length ≤ (w.sems sem session).length ∨
    (w'.sems sem session).length ≤ sem.capacity
  begins : phase = .dispatching → doing = .begin
  result : ∀ result, phase.result = some result → result.intentId = h.intentId ∨ h.phase.result = some result
  sent : w'.sent = w.sent ∨ ∃ result, h.phase = .writing result ∧ phase = .leaving ∧ w'.sent = w.sent ++ [(i,result)]
  /-- In the open session a goroutine is through when its result is written. -/
  through : h.phase.through = false → phase.through = true → w.handlers[i]? = some h → w.isOpen h.session = true →
    Fair w (.goes i doing) → ∃ result, h.phase = .writing result ∧ w'.sent = w.sent ++ [(i,result)]

variable {session : Nat}

theorem open_iff : w.isOpen session = true ↔
    w.running = true ∧ w.sessionEpoch = session ∧ w.cancelled session = false := by
  simp [Worker.isOpen,and_assoc]

/-- A step that leaves the channels and the socket alone. -/
theorem moved_put {phase : Phase} (lighter : phase.weight < h.phase.weight) (going : phase ≠ .ended)
    (begins : phase = .dispatching → doing = .begin)
    (result : ∀ result, phase.result = some result → result.intentId = h.intentId ∨ h.phase.result = some result)
    (through : phase.through = true → w.handlers[i]? = some h → w.isOpen h.session = true →
      ¬Fair w (.goes i doing)) : Moved w i h doing phase (w.put i h phase) :=
  ⟨rfl,rfl,rfl,rfl,lighter,fun _ _ _ member => .inl ⟨member,fun is => absurd is going⟩,fun _ _ _ member => .inl member,
    fun _ _ => .inl (Nat.le_refl _),begins,result,.inl rfl,
    fun _ is found isOpen fair => absurd fair (through is found isOpen)⟩

theorem take_eq_some {sem : Sem} (taken : w.take sem session i = some w') :
    (w.sems sem session).length < sem.capacity ∧ w' = w.token sem session i := by
  unfold Worker.take at taken
  split at taken
  · rename_i room
    exact ⟨room,(Option.some.inj taken).symm⟩
  · contradiction

theorem sems_take {sem : Sem} (taken : w.take sem session i = some w') (sem' : Sem) (session' : Nat) :
    w'.sems sem' session' = if sem' = sem ∧ session' = session then w.sems sem session ++ [i] else w.sems sem' session' := by
  obtain ⟨_,rfl⟩ := take_eq_some taken
  rfl

theorem moved_of_goes (goes : w.goes i h doing = some w') : ∃ phase, Moved w i h doing phase w' := by
  unfold Worker.goes at goes
  split at goes
  · rename_i waiting
    split at goes
    · obtain rfl := Option.some.inj goes
      exact ⟨.dispatching,moved_put (by rw [waiting]; simp [Phase.weight]) (by simp) (fun _ => rfl) (by simp [Phase.result])
        (by simp [Phase.through])⟩
    · obtain ⟨taken,took,rfl⟩ := Option.map_eq_some_iff.mp goes
      obtain ⟨room,same⟩ := take_eq_some took
      have sems := sems_take took
      refine ⟨.dispatching,by rw [same]; rfl,by rw [same]; rfl,by rw [same]; rfl,by rw [same]; rfl,by rw [waiting]; simp [Phase.weight],
        ?_,?_,?_,fun _ => rfl,by simp [Phase.result],.inl (by rw [same]; rfl),by simp [Phase.through]⟩
      · intro sem session j member
        change j ∈ taken.sems sem session at member
        rw [sems] at member
        split at member
        · rename_i here
          rw [List.mem_append,List.mem_singleton] at member
          rcases member with member | rfl
          · exact .inl ⟨by rw [here.1,here.2]; exact member,by simp⟩
          · exact .inr ⟨here.1,here.2,rfl,rfl⟩
        · exact .inl ⟨member,by simp⟩
      · intro sem session j member
        refine .inl ?_
        change j ∈ taken.sems sem session
        rw [sems]
        split
        · rename_i here
          rw [here.1,here.2] at member
          exact List.mem_append_left _ member
        · exact member
      · intro sem session
        change (taken.sems sem session).length ≤ _ ∨ (taken.sems sem session).length ≤ _
        rw [sems]
        split
        · rename_i here
          rw [here.1,List.length_append]
          exact .inr room
        · exact .inl (Nat.le_refl _)
  · rename_i waiting
    split at goes
    · rename_i cancelled
      obtain rfl := Option.some.inj goes
      refine ⟨.leaving,moved_put (by rw [waiting]; simp [Phase.weight]) (by simp) (by simp) (by simp [Phase.result]) ?_⟩
      intro _ _ isOpen
      rw [(open_iff.mp isOpen).2.2,Bool.and_false] at cancelled
      contradiction
    · contradiction
  · rename_i outcome dispatching
    obtain rfl := Option.some.inj goes
    refine ⟨_,moved_put (by rw [dispatching]; simp [Phase.weight]) (by simp) (by simp) ?_ (by simp [Phase.through])⟩
    intro result is
    obtain rfl := Option.some.inj is
    exact .inl rfl
  · rename_i dispatching
    obtain rfl := Option.some.inj goes
    refine ⟨.leaving,moved_put (by rw [dispatching]; simp [Phase.weight]) (by simp) (by simp) (by simp [Phase.result]) ?_⟩
    intro _ found isOpen fair
    rw [fair h found] at isOpen
    contradiction
  · rename_i result checking
    obtain rfl := Option.some.inj goes
    by_cases current : w.sessionEpoch = h.session
    · rw [if_pos current]
      refine ⟨_,moved_put (by rw [checking]; simp [Phase.weight]) (by simp) (by simp) ?_ (by simp [Phase.through])⟩
      intro other is
      exact .inr (by rw [checking]; exact is)
    · rw [if_neg current]
      refine ⟨_,moved_put (by rw [checking]; simp [Phase.weight]) (by simp) (by simp) (by simp [Phase.result]) ?_⟩
      intro _ _ isOpen
      exact absurd (open_iff.mp isOpen).2.1 current
  · rename_i result sending
    obtain rfl := Option.some.inj goes
    cases cancelled : w.cancelled h.session with
    | false =>
      refine ⟨_,moved_put (by rw [sending]; simp [Phase.weight]) (by simp) (by simp) ?_ (by simp [Phase.through])⟩
      intro other is
      exact .inr (by rw [sending]; exact is)
    | true =>
      refine ⟨_,moved_put (by rw [sending]; simp [Phase.weight]) (by simp) (by simp) (by simp [Phase.result]) ?_⟩
      intro _ _ isOpen
      rw [(open_iff.mp isOpen).2.2] at cancelled
      contradiction
  · rename_i delivered result writing
    obtain rfl := Option.some.inj goes
    refine ⟨.leaving,rfl,rfl,rfl,rfl,by rw [writing]; simp [Phase.weight],fun _ _ _ member => .inl ⟨member,by simp⟩,
      fun _ _ _ member => .inl member,fun _ _ => .inl (Nat.le_refl _),by simp,by simp [Phase.result],?_,?_⟩
    · cases delivered with
      | true => exact .inr ⟨result,writing,rfl,rfl⟩
      | false => exact .inl rfl
    · intro _ _ found isOpen fair
      rcases fair h found with rfl | shut
      · exact ⟨result,writing,rfl⟩
      · rw [shut] at isOpen
        contradiction
  · rename_i leaving
    obtain rfl := Option.some.inj goes
    refine ⟨.ended,rfl,rfl,rfl,rfl,by rw [leaving]; simp [Phase.weight],?_,?_,fun _ _ => .inl (List.length_filter_le ..),by simp,
      by simp [Phase.result],.inl rfl,by simp [leaving,Phase.through]⟩
    · intro sem session j member
      obtain ⟨member,other⟩ := List.mem_filter.mp member
      exact .inl ⟨member,fun _ => by simpa using other⟩
    · intro sem session j member
      by_cases own : j = i
      · exact .inr ⟨own,rfl⟩
      · exact .inl (List.mem_filter.mpr ⟨member,by simpa using own⟩)
  · contradiction

end

variable {h : Handler} {handlers : List Handler} {i : Nat}

theorem get_set {j : Nat} {h' k : Handler} (found : handlers[i]? = some h)
    (now : (handlers.set i h')[j]? = some k) : j = i ∧ k = h' ∨ j ≠ i ∧ handlers[j]? = some k := by
  by_cases same : j = i
  · subst same
    rw [List.getElem?_set_self (List.getElem?_eq_some_iff.mp found).1] at now
    exact .inl ⟨rfl,(Option.some.inj now).symm⟩
  · rw [List.getElem?_set_ne (Ne.symm same)] at now
    exact .inr ⟨same,now⟩

theorem get_set_self (found : handlers[i]? = some h) (h' : Handler) :
    (handlers.set i h')[i]? = some h' := List.getElem?_set_self (List.getElem?_eq_some_iff.mp found).1

theorem get_concat {j : Nat} {k : Handler} (now : (handlers ++ [h])[j]? = some k) :
    j = handlers.length ∧ k = h ∨ handlers[j]? = some k := by
  rcases Nat.lt_or_ge j handlers.length with before | after
  · rw [List.getElem?_append_left before] at now
    exact .inr now
  · rw [List.getElem?_append_right after] at now
    have first : j - handlers.length = 0 := by
      have short := (List.getElem?_eq_some_iff.mp now).1
      rw [List.length_singleton] at short
      omega
    rw [first] at now
    exact .inl ⟨by omega,(Option.some.inj now).symm⟩

theorem resultsOf_concat {w w' : Worker} {result : IntentResult} (sent : w'.sent = w.sent ++ [(i,result)]) (j : Nat) :
    w'.resultsOf j = if j = i then w.resultsOf j ++ [result] else w.resultsOf j := by
  unfold Worker.resultsOf
  rw [sent,List.filter_append,List.map_append]
  by_cases same : j = i
  · simp [same]
  · simp [same,Ne.symm same]

structure Sound (w : Worker) : Prop where
  epochs : ∀ (i : Nat) (h : Handler), w.handlers[i]? = some h → h.session ≤ w.sessionEpoch
  held : ∀ sem session i, i ∈ w.sems sem session → ∃ h, w.handlers[i]? = some h ∧ h.session = session ∧ h.phase ≠ .ended ∧
    (sem = .mutation → isMutationAction h.action = true) ∧ (sem = .query → h.phase ≠ .waiting)
  capacity : ∀ sem session, (w.sems sem session).length ≤ sem.capacity
  mutating : ∀ (i : Nat) (h : Handler), w.handlers[i]? = some h → isMutationAction h.action = true → h.phase ≠ .ended →
    i ∈ w.sems .mutation h.session
  carried : ∀ (i : Nat) (h : Handler) (result : IntentResult), w.handlers[i]? = some h → h.phase.result = some result →
    result.intentId = h.intentId
  unsent : ∀ (i : Nat) (h : Handler), w.handlers[i]? = some h → h.phase.through = false → w.resultsOf i = []
  unknown : ∀ i, w.handlers.length ≤ i → w.resultsOf i = []
  once : ∀ i, (w.resultsOf i).length ≤ 1
  own : ∀ (i : Nat) (h : Handler), w.handlers[i]? = some h → ∀ result ∈ w.resultsOf i, result.intentId = h.intentId
  answered : ∀ (i : Nat) (h : Handler), w.handlers[i]? = some h → w.isOpen h.session = true → h.phase.through = true →
    w.resultsOf i ≠ []
  exclusive : ∀ (i j : Nat) (h k : Handler), w.handlers[i]? = some h → w.handlers[j]? = some k →
    h.mutates = true → k.mutates = true → i = j

section
variable {w w' : Worker} {i : Nat} {h : Handler}

theorem open_kept {doing : Doing} {phase : Phase} (moved : Moved w i h doing phase w') (session : Nat) :
    w'.isOpen session = w.isOpen session := by
  unfold Worker.isOpen
  rw [moved.running,moved.epoch,moved.cancelled]

/-- Two goroutines of one session that carry out a mutation are one. -/
theorem Sound.alone (sound : Sound w) {j : Nat} {k : Handler} (found : w.handlers[i]? = some h) (also : w.handlers[j]? = some k)
    (same : k.session = h.session) (mutation : isMutationAction h.action = true) (mutation' : isMutationAction k.action = true)
    (going : h.phase ≠ .ended) (going' : k.phase ≠ .ended) : i = j := by
  have mine := sound.mutating i h found mutation going
  have other := sound.mutating j k also mutation' going'
  rw [same] at other
  have single : (w.sems .mutation h.session).length ≤ 1 := sound.capacity .mutation h.session
  cases tokens : w.sems .mutation h.session with
  | nil =>
    rw [tokens] at mine
    contradiction
  | cons first rest =>
    rw [tokens] at mine other single
    obtain rfl : rest = [] := List.eq_nil_of_length_eq_zero (by simpa using single)
    exact (List.mem_singleton.mp mine).trans (List.mem_singleton.mp other).symm

theorem mutates_iff : h.mutates = true ↔ isMutationAction h.action = true ∧ h.phase = .dispatching := by
  simp [Handler.mutates]

theorem sound_goes {doing : Doing} {phase : Phase} (sound : Sound w) (found : w.handlers[i]? = some h)
    (moved : Moved w i h doing phase w') (fair : Fair w (.goes i doing)) : Sound w' := by
  have going : h.phase ≠ .ended := by
    intro ended
    have lighter := moved.lighter
    rw [ended] at lighter
    exact Nat.not_lt_zero _ lighter
  have begun : phase ≠ .waiting := by
    rintro rfl
    have lighter := moved.lighter
    cases was : h.phase <;> rw [was] at lighter <;> simp [Phase.weight] at lighter
  have now : ∀ {j : Nat} {k : Handler}, w'.handlers[j]? = some k →
      j = i ∧ k = {h with phase := phase} ∨ j ≠ i ∧ w.handlers[j]? = some k := by
    intro j k is
    rw [moved.handlers] at is
    exact get_set found is
  have here : w'.handlers[i]? = some {h with phase := phase} := by
    rw [moved.handlers]
    exact get_set_self found _
  have elsewhere : ∀ {j : Nat} {k : Handler}, j ≠ i → w.handlers[j]? = some k → w'.handlers[j]? = some k := by
    intro j k ne is
    rw [moved.handlers,List.getElem?_set_ne (Ne.symm ne)]
    exact is
  -- only the goroutine that writes its result changes what was sent
  have others : ∀ j, j ≠ i → w'.resultsOf j = w.resultsOf j := by
    intro j ne
    rcases moved.sent with same | ⟨result,_,_,sent⟩
    · unfold Worker.resultsOf
      rw [same]
    · rw [resultsOf_concat sent,if_neg ne]
  have mine : w'.resultsOf i = w.resultsOf i ∨
      ∃ result, h.phase = .writing result ∧ phase = .leaving ∧ w'.resultsOf i = [result] := by
    rcases moved.sent with same | ⟨result,writing,leaving,sent⟩
    · unfold Worker.resultsOf
      rw [same]
      exact .inl rfl
    · refine .inr ⟨result,writing,leaving,?_⟩
      rw [resultsOf_concat sent,if_pos rfl,sound.unsent i h found (by rw [writing]; rfl)]
      rfl
  refine ⟨?_,?_,?_,?_,?_,?_,?_,?_,?_,?_,?_⟩
  · intro j k is
    rw [moved.epoch]
    rcases now is with ⟨_,rfl⟩ | ⟨_,was⟩
    · exact sound.epochs i h found
    · exact sound.epochs j k was
  · intro sem session j member
    rcases moved.held sem session j member with ⟨had,left⟩ | ⟨rfl,rfl,rfl,rfl⟩
    · obtain ⟨k,was,of,live,mutation,query⟩ := sound.held sem session j had
      by_cases same : j = i
      · subst same
        obtain rfl := Option.some.inj (found.symm.trans was)
        exact ⟨_,here,of,fun ended => left ended rfl,mutation,fun _ => begun⟩
      · exact ⟨k,elsewhere same was,of,live,mutation,query⟩
    · exact ⟨_,here,rfl,by simp,by simp,by simp⟩
  · intro sem session
    rcases moved.capacity sem session with fewer | within
    · exact Nat.le_trans fewer (sound.capacity sem session)
    · exact within
  · intro j k is mutation live
    rcases now is with ⟨rfl,rfl⟩ | ⟨ne,was⟩
    · rcases moved.kept .mutation h.session j (sound.mutating j h found mutation going) with kept | ⟨_,ended⟩
      · exact kept
      · exact absurd ended live
    · rcases moved.kept .mutation k.session j (sound.mutating j k was mutation live) with kept | ⟨own,_⟩
      · exact kept
      · exact absurd own ne
  · intro j k result is carries
    rcases now is with ⟨rfl,rfl⟩ | ⟨_,was⟩
    · rcases moved.result result carries with named | before
      · exact named
      · exact sound.carried j h result found before
    · exact sound.carried j k result was carries
  · intro j k is through
    rcases now is with ⟨rfl,rfl⟩ | ⟨ne,was⟩
    · have before : h.phase.through = false := by
        have lighter := moved.lighter
        cases was : h.phase <;> first | rfl | skip
        all_goals
          rw [was] at lighter
          cases becomes : phase <;> rw [becomes] at lighter through <;> simp [Phase.weight,Phase.through] at lighter through
      rcases mine with same | ⟨_,_,rfl,_⟩
      · exact same.trans (sound.unsent j h found before)
      · contradiction
    · rw [others j ne]
      exact sound.unsent j k was through
  · intro j unknown
    rw [moved.handlers,List.length_set] at unknown
    have ne : j ≠ i := by
      rintro rfl
      exact absurd (List.getElem?_eq_some_iff.mp found).1 (Nat.not_lt.mpr unknown)
    rw [others j ne]
    exact sound.unknown j unknown
  · intro j
    by_cases same : j = i
    · subst same
      rcases mine with kept | ⟨result,_,_,one⟩
      · rw [kept]
        exact sound.once j
      · rw [one]
        exact Nat.le_refl _
    · rw [others j same]
      exact sound.once j
  · intro j k is result member
    rcases now is with ⟨rfl,rfl⟩ | ⟨ne,was⟩
    · rcases mine with kept | ⟨written,writing,_,one⟩
      · exact sound.own j h found result (kept ▸ member)
      · rw [one] at member
        obtain rfl := List.mem_singleton.mp member
        exact sound.carried j h result found (by rw [writing]; rfl)
    · exact sound.own j k was result (others j ne ▸ member)
  · intro j k is isOpen through
    rw [open_kept moved] at isOpen
    rcases now is with ⟨rfl,rfl⟩ | ⟨ne,was⟩
    · cases before : h.phase.through with
      | false =>
        obtain ⟨result,_,sent⟩ := moved.through before through found isOpen fair
        rw [resultsOf_concat sent,if_pos rfl]
        simp
      | true =>
        rcases mine with kept | ⟨result,_,_,one⟩
        · rw [kept]
          exact sound.answered j h found isOpen before
        · simp [one]
    · rw [others j ne]
      exact sound.answered j k was isOpen through
  · intro j l k k' is also mutates mutates'
    -- who begins a mutation is alone with it, in its session and among the others
    have alone : ∀ {j : Nat} {k : Handler}, j ≠ i → w.handlers[j]? = some k → k.mutates = true →
        ({h with phase := phase} : Handler).mutates = true → False := by
      intro j k ne was mutates begins
      obtain ⟨mutation,rfl⟩ := mutates_iff.mp begins
      obtain ⟨mutation',dispatching⟩ := mutates_iff.mp mutates
      obtain rfl := moved.begins rfl
      by_cases same : k.session = h.session
      · exact ne (sound.alone found was same mutation mutation' going (by simp [dispatching])).symm
      · have idle := fair h found mutation k (List.mem_of_getElem? was) same
        rw [mutates] at idle
        contradiction
    rcases now is with ⟨rfl,rfl⟩ | ⟨ne,was⟩ <;> rcases now also with ⟨rfl,rfl⟩ | ⟨ne',was'⟩
    · rfl
    · exact (alone ne' was' mutates' mutates).elim
    · exact (alone ne was mutates mutates').elim
    · exact sound.exclusive j l k k' was was' mutates mutates'

end

section
variable {w w' : Worker}

variable {action intentId : String} {h : Handler} {i : Nat}

/-- A goroutine is started, with the token that the loop took for it. -/
theorem sound_started (sound : Sound w)
    (handlers : w'.handlers = w.handlers ++ [⟨w.sessionEpoch,action,intentId,.waiting⟩])
    (epoch : w'.sessionEpoch = w.sessionEpoch) (isOpen : ∀ session, w'.isOpen session = w.isOpen session)
    (sent : w'.sent = w.sent) (held : ∀ sem session j, j ∈ w'.sems sem session → j ∈ w.sems sem session ∨
      j = w.handlers.length ∧ session = w.sessionEpoch ∧ sem ≠ .query ∧ (sem = .mutation → isMutationAction action = true))
    (kept : ∀ sem session j, j ∈ w.sems sem session → j ∈ w'.sems sem session)
    (capacity : ∀ sem session, (w'.sems sem session).length ≤ sem.capacity)
    (mutating : isMutationAction action = true → w.handlers.length ∈ w'.sems .mutation w.sessionEpoch) : Sound w' := by
  have results : ∀ j, w'.resultsOf j = w.resultsOf j := by
    intro j
    unfold Worker.resultsOf
    rw [sent]
  have now : ∀ {j : Nat} {k : Handler}, w'.handlers[j]? = some k →
      j = w.handlers.length ∧ k = ⟨w.sessionEpoch,action,intentId,.waiting⟩ ∨ w.handlers[j]? = some k := by
    intro j k is
    rw [handlers] at is
    exact get_concat is
  have before : ∀ {j : Nat} {k : Handler}, w.handlers[j]? = some k → w'.handlers[j]? = some k := by
    intro j k was
    rw [handlers,List.getElem?_append_left (List.getElem?_eq_some_iff.mp was).1]
    exact was
  have fresh : w'.handlers[w.handlers.length]? = some ⟨w.sessionEpoch,action,intentId,.waiting⟩ := by
    rw [handlers]
    simp
  refine ⟨?_,?_,capacity,?_,?_,?_,?_,?_,?_,?_,?_⟩
  · intro j k is
    rw [epoch]
    rcases now is with ⟨_,rfl⟩ | was
    · exact Nat.le_refl _
    · exact sound.epochs j k was
  · intro sem session j member
    rcases held sem session j member with had | ⟨rfl,rfl,query,mutation⟩
    · obtain ⟨k,was,rest⟩ := sound.held sem session j had
      exact ⟨k,before was,rest⟩
    · exact ⟨_,fresh,rfl,by simp,mutation,fun is => absurd is query⟩
  · intro j k is mutation live
    rcases now is with ⟨rfl,rfl⟩ | was
    · exact mutating mutation
    · exact kept .mutation k.session j (sound.mutating j k was mutation live)
  · intro j k result is carries
    rcases now is with ⟨_,rfl⟩ | was
    · contradiction
    · exact sound.carried j k result was carries
  · intro j k is through
    rw [results]
    rcases now is with ⟨rfl,_⟩ | was
    · exact sound.unknown w.handlers.length (Nat.le_refl _)
    · exact sound.unsent j k was through
  · intro j unknown
    rw [handlers,List.length_append] at unknown
    rw [results]
    exact sound.unknown j (Nat.le_of_add_right_le unknown)
  · intro j
    rw [results]
    exact sound.once j
  · intro j k is result member
    rw [results] at member
    rcases now is with ⟨rfl,_⟩ | was
    · rw [sound.unknown w.handlers.length (Nat.le_refl _)] at member
      contradiction
    · exact sound.own j k was result member
  · intro j k is opened through
    rw [isOpen] at opened
    rw [results]
    rcases now is with ⟨_,rfl⟩ | was
    · contradiction
    · exact sound.answered j k was opened through
  · intro j l k k' is also mutates mutates'
    rcases now is with ⟨_,rfl⟩ | was
    · simp [Handler.mutates] at mutates
    · rcases now also with ⟨_,rfl⟩ | was'
      · simp [Handler.mutates] at mutates'
      · exact sound.exclusive j l k k' was was' mutates mutates'

theorem semOf_none (free : semOf action = none) : isMutationAction action = false := by
  unfold semOf at free
  split at free
  · contradiction
  · rename_i other
    exact Bool.eq_false_iff.mpr other

theorem semOf_some {sem : Sem} (takes : semOf action = some sem) :
    sem ≠ .query ∧ (sem = .mutation ↔ isMutationAction action = true) := by
  unfold semOf at takes
  split at takes
  · rename_i mutation
    obtain rfl := Option.some.inj takes
    exact ⟨by simp,by simp [mutation]⟩
  · rename_i other
    split at takes
    · obtain rfl := Option.some.inj takes
      exact ⟨by simp,by simp [other]⟩
    · contradiction

/-- An intent that is answered at once. -/
theorem sound_rejected {sent : List (Nat × IntentResult)} (sound : Sound w)
    (rejected : w' = {w with handlers := w.handlers ++ [⟨w.sessionEpoch,action,intentId,.ended⟩], sent := sent})
    (others : ∀ j, j ≠ w.handlers.length → w'.resultsOf j = w.resultsOf j)
    (once : (w'.resultsOf w.handlers.length).length ≤ 1)
    (own : ∀ result ∈ w'.resultsOf w.handlers.length, result.intentId = intentId)
    (answered : w.isOpen w.sessionEpoch = true → w'.resultsOf w.handlers.length ≠ []) : Sound w' := by
  have now : ∀ {j : Nat} {k : Handler}, w'.handlers[j]? = some k →
      j = w.handlers.length ∧ k = ⟨w.sessionEpoch,action,intentId,.ended⟩ ∨ j ≠ w.handlers.length ∧ w.handlers[j]? = some k := by
    intro j k is
    rw [rejected] at is
    rcases get_concat is with new | was
    · exact .inl new
    · exact .inr ⟨Nat.ne_of_lt (List.getElem?_eq_some_iff.mp was).1,was⟩
  have before : ∀ {j : Nat} {k : Handler}, w.handlers[j]? = some k → w'.handlers[j]? = some k := by
    intro j k was
    rw [rejected]
    exact (List.getElem?_append_left (List.getElem?_eq_some_iff.mp was).1).trans was
  have same : w'.sems = w.sems ∧ w'.sessionEpoch = w.sessionEpoch ∧ (∀ session, w'.isOpen session = w.isOpen session) := by
    rw [rejected]
    exact ⟨rfl,rfl,fun _ => rfl⟩
  obtain ⟨sems,epoch,opens⟩ := same
  refine ⟨?_,?_,?_,?_,?_,?_,?_,?_,?_,?_,?_⟩
  · intro j k is
    rw [epoch]
    rcases now is with ⟨_,rfl⟩ | ⟨_,was⟩
    · exact Nat.le_refl _
    · exact sound.epochs j k was
  · intro sem session j member
    rw [sems] at member
    obtain ⟨k,was,rest⟩ := sound.held sem session j member
    exact ⟨k,before was,rest⟩
  · intro sem session
    rw [sems]
    exact sound.capacity sem session
  · intro j k is mutation live
    rw [sems]
    rcases now is with ⟨_,rfl⟩ | ⟨_,was⟩
    · exact absurd rfl live
    · exact sound.mutating j k was mutation live
  · intro j k result is carries
    rcases now is with ⟨_,rfl⟩ | ⟨_,was⟩
    · contradiction
    · exact sound.carried j k result was carries
  · intro j k is through
    rcases now is with ⟨_,rfl⟩ | ⟨ne,was⟩
    · contradiction
    · rw [others j ne]
      exact sound.unsent j k was through
  · intro j unknown
    rw [rejected] at unknown
    have long : w.handlers.length + 1 ≤ j := by simpa using unknown
    rw [others j (by omega)]
    exact sound.unknown j (by omega)
  · intro j
    by_cases new : j = w.handlers.length
    · rw [new]
      exact once
    · rw [others j new]
      exact sound.once j
  · intro j k is result member
    rcases now is with ⟨rfl,rfl⟩ | ⟨ne,was⟩
    · exact own result member
    · exact sound.own j k was result (others j ne ▸ member)
  · intro j k is opened through
    rw [opens] at opened
    rcases now is with ⟨rfl,rfl⟩ | ⟨ne,was⟩
    · exact answered opened
    · rw [others j ne]
      exact sound.answered j k was opened through
  · intro j l k k' is also mutates mutates'
    rcases now is with ⟨_,rfl⟩ | ⟨_,was⟩
    · simp [Handler.mutates] at mutates
    · rcases now also with ⟨_,rfl⟩ | ⟨_,was'⟩
      · simp [Handler.mutates] at mutates'
      · exact sound.exclusive j l k k' was was' mutates mutates'

/-- The worker answers that it is busy. -/
theorem sound_busy {delivered : Bool} {sem : Sem} (sound : Sound w)
    (fair : delivered = true ∨ w.isOpen w.sessionEpoch = false) : Sound (w.rejected sem action intentId delivered) := by
  have unknown := sound.unknown w.handlers.length (Nat.le_refl _)
  cases sends : delivered && !w.cancelled w.sessionEpoch with
  | false =>
    have sent : (w.rejected sem action intentId delivered).sent = w.sent := if_neg (by simp [sends])
    have results : ∀ j, (w.rejected sem action intentId delivered).resultsOf j = w.resultsOf j := by
      intro j
      unfold Worker.resultsOf
      rw [sent]
    refine sound_rejected sound rfl (fun j _ => results j) (results _ ▸ sound.once _) ?_ ?_
    · intro result member
      rw [results,unknown] at member
      contradiction
    · intro isOpen
      rcases fair with rfl | shut
      · rw [(open_iff.mp isOpen).2.2] at sends
        contradiction
      · rw [shut] at isOpen
        contradiction
  | true =>
    have sent : (w.rejected sem action intentId delivered).sent = w.sent ++ [(w.handlers.length,busy sem intentId)] :=
      if_pos sends
    have results := resultsOf_concat sent
    have one : (w.rejected sem action intentId delivered).resultsOf w.handlers.length = [busy sem intentId] := by
      rw [results,if_pos rfl,unknown,List.nil_append]
    refine sound_rejected sound rfl (fun j ne => (results j).trans (if_neg ne)) ?_ ?_ ?_
    · rw [one]
      exact Nat.le_refl _
    · intro result member
      rw [one] at member
      obtain rfl := List.mem_singleton.mp member
      rfl
    · intro _
      rw [one]
      simp

theorem sound_receive {delivered : Bool} (sound : Sound w)
    (fair : delivered = true ∨ w.isOpen w.sessionEpoch = false) : Sound (w.receive action intentId delivered) := by
  unfold Worker.receive
  split
  · rename_i free
    unfold Worker.started
    exact sound_started sound rfl rfl (fun _ => rfl) rfl (fun _ _ _ member => .inl member) (fun _ _ _ member => member)
      sound.capacity (by simp [semOf_none free])
  · rename_i sem takes
    obtain ⟨query,mutation⟩ := semOf_some takes
    cases took : w.take sem w.sessionEpoch w.handlers.length with
    | some taken =>
      obtain ⟨room,rfl⟩ := take_eq_some took
      have sems := sems_take took
      refine sound_started sound rfl rfl (fun _ => rfl) rfl ?_ ?_ ?_ ?_
      · intro other session j member
        change j ∈ (w.token sem w.sessionEpoch w.handlers.length).sems other session at member
        rw [sems] at member
        split at member
        · rename_i here
          rw [List.mem_append,List.mem_singleton] at member
          rcases member with member | rfl
          · exact .inl (by rw [here.1,here.2]; exact member)
          · exact .inr ⟨rfl,here.2,by rw [here.1]; exact query,by rw [here.1]; exact mutation.mp⟩
        · exact .inl member
      · intro other session j member
        change j ∈ (w.token sem w.sessionEpoch w.handlers.length).sems other session
        rw [sems]
        split
        · rename_i here
          rw [here.1,here.2] at member
          exact List.mem_append_left _ member
        · exact member
      · intro other session
        change ((w.token sem w.sessionEpoch w.handlers.length).sems other session).length ≤ _
        rw [sems]
        split
        · rename_i here
          rw [here.1,List.length_append]
          exact room
        · exact sound.capacity other session
      · intro mutates
        change w.handlers.length ∈ (w.token sem w.sessionEpoch w.handlers.length).sems .mutation w.sessionEpoch
        rw [sems,if_pos ⟨(mutation.mpr mutates).symm,rfl⟩]
        exact List.mem_append_right _ (List.mem_singleton_self _)
    | none => exact sound_busy sound fair

/-- Sessions that end or begin leave the goroutines alone. -/
theorem sound_session (sound : Sound w) (handlers : w'.handlers = w.handlers) (sent : w'.sent = w.sent)
    (epoch : w.sessionEpoch ≤ w'.sessionEpoch)
    (sems : ∀ sem session, w'.sems sem session = w.sems sem session ∨ w.sessionEpoch < session ∧ w'.sems sem session = [])
    (opens : ∀ session, session ≤ w.sessionEpoch → w'.isOpen session = false) : Sound w' := by
  have results : ∀ j, w'.resultsOf j = w.resultsOf j := by
    intro j
    unfold Worker.resultsOf
    rw [sent]
  refine ⟨?_,?_,?_,?_,?_,?_,?_,?_,?_,?_,?_⟩
  · intro j k is
    exact Nat.le_trans (sound.epochs j k (handlers ▸ is)) epoch
  · intro sem session j member
    rcases sems sem session with same | ⟨_,empty⟩
    · rw [handlers]
      exact sound.held sem session j (same ▸ member)
    · rw [empty] at member
      contradiction
  · intro sem session
    rcases sems sem session with same | ⟨_,empty⟩
    · rw [same]
      exact sound.capacity sem session
    · simp [empty]
  · intro j k is mutation live
    have was : w.handlers[j]? = some k := handlers ▸ is
    rcases sems .mutation k.session with same | ⟨new,_⟩
    · rw [same]
      exact sound.mutating j k was mutation live
    · exact absurd new (Nat.not_lt.mpr (sound.epochs j k was))
  · exact fun j k result is => sound.carried j k result (handlers ▸ is)
  · exact fun j k is through => (results j).trans (sound.unsent j k (handlers ▸ is) through)
  · exact fun j unknown => (results j).trans (sound.unknown j (handlers ▸ unknown))
  · exact fun j => results j ▸ sound.once j
  · exact fun j k is result member => sound.own j k (handlers ▸ is) result (results j ▸ member)
  · intro j k is isOpen
    rw [opens k.session (sound.epochs j k (handlers ▸ is))] at isOpen
    contradiction
  · exact fun j l k k' is also => sound.exclusive j l k k' (handlers ▸ is) (handlers ▸ also)

theorem sound_step {event : Event} (sound : Sound w) (fair : Fair w event) (stepped : step w event = some w') : Sound w' := by
  cases event with
  | start =>
    unfold step at stepped
    simp only at stepped
    split at stepped
    · contradiction
    · obtain rfl := Option.some.inj stepped
      refine sound_session sound rfl rfl (Nat.le_succ _) ?_ ?_
      · intro sem session
        by_cases new : session = w.sessionEpoch + 1
        · exact .inr ⟨by omega,if_pos new⟩
        · exact .inl (if_neg new)
      · intro session old
        refine Bool.eq_false_iff.mpr fun isOpen => ?_
        have current : w.sessionEpoch + 1 = session := (open_iff.mp isOpen).2.1
        omega
  | stop | cancel =>
    unfold step at stepped
    simp only at stepped
    split at stepped
    · obtain rfl := Option.some.inj stepped
      refine sound_session sound rfl rfl (Nat.le_refl _) (fun _ _ => .inl rfl) fun session _ => ?_
      refine Bool.eq_false_iff.mpr fun isOpen => ?_
      obtain ⟨_,current,uncancelled⟩ := open_iff.mp isOpen
      obtain rfl : w.sessionEpoch = session := current
      have cancelled : Function.update w.cancelled w.sessionEpoch true w.sessionEpoch = false := uncancelled
      rw [Function.update_self] at cancelled
      contradiction
    · contradiction
  | intent action intentId delivered =>
    unfold step at stepped
    simp only at stepped
    split at stepped
    · obtain rfl := Option.some.inj stepped
      exact sound_receive sound fair
    · contradiction
  | goes i doing =>
    obtain ⟨h,found,goes⟩ := Option.bind_eq_some_iff.mp stepped
    obtain ⟨phase,moved⟩ := moved_of_goes goes
    exact sound_goes sound found moved fair

theorem sound_start : Sound Worker.start :=
  ⟨by simp [Worker.start],by simp [Worker.start],by simp [Worker.start],by simp [Worker.start],by simp [Worker.start],
    fun _ _ _ _ => rfl,fun _ _ => rfl,fun _ => Nat.zero_le _,by simp [Worker.start],by simp [Worker.start],by simp [Worker.start]⟩

theorem sound_run {events : List Event} (sound : Sound w) (fair : FairRun w events) : Sound (run w events) := by
  induction events generalizing w with
  | nil => exact sound
  | cons event rest ih =>
    refine ih ?_ fair.2
    cases stepped : step w event with
    | none => exact sound
    | some w' => exact sound_step sound fair.1 stepped

theorem sum_set_lt {handlers : List Handler} {h' : Handler} (found : handlers[i]? = some h)
    (lighter : h'.phase.weight < h.phase.weight) :
    ((handlers.set i h').map fun h => h.phase.weight).sum < (handlers.map fun h => h.phase.weight).sum := by
  induction handlers generalizing i with
  | nil => contradiction
  | cons head rest ih =>
    cases i with
    | zero =>
      obtain rfl := Option.some.inj found
      simpa using lighter
    | succ i =>
      have smaller := ih (i := i) (by simpa using found)
      simpa using smaller

theorem goes_on {doing : Doing} (found : w.handlers[i]? = some h)
    (goes : w.goes i h doing = some w') : ∃ j doing w', step w (.goes j doing) = some w' ∧ w'.work < w.work := by
  obtain ⟨phase,moved⟩ := moved_of_goes goes
  refine ⟨i,doing,w',by rw [step,found]; exact goes,?_⟩
  unfold Worker.work
  rw [moved.handlers]
  exact sum_set_lt found moved.lighter

/-- Only for a token of `querySem` does a goroutine wait. -/
theorem goes_of_begun (begun : h.phase ≠ .waiting) (going : h.phase ≠ .ended) :
    ∃ doing w', w.goes i h doing = some w' := by
  obtain ⟨session,action,intentId,phase⟩ := h
  cases phase with
  | waiting => exact absurd rfl begun
  | dispatching => exact ⟨.panicked,_,rfl⟩
  | checking result => exact ⟨.checkEpoch,_,rfl⟩
  | sending result => exact ⟨.checkContext,_,rfl⟩
  | writing result => exact ⟨.write true,_,rfl⟩
  | leaving => exact ⟨.leave,_,rfl⟩
  | ended => exact absurd rfl going

/-- A mutation begins at once, and anything else where `querySem` has room. -/
theorem goes_of_waiting (waiting : h.phase = .waiting)
    (room : isMutationAction h.action = true ∨ (w.sems .query h.session).length < Sem.query.capacity) :
    ∃ w', w.goes i h .begin = some w' := by
  obtain ⟨session,action,intentId,phase⟩ := h
  obtain rfl : phase = .waiting := waiting
  by_cases mutation : isMutationAction action = true
  · exact ⟨_,if_pos mutation⟩
  · have free : (w.sems .query session).length < Sem.query.capacity := room.resolve_left mutation
    exact ⟨_,(if_neg mutation).trans (by rw [Worker.take,if_pos free]; rfl)⟩

theorem dispatched_of_sound (sound : Sound w) : Dispatched w := by
  refine ⟨sound.exclusive,sound.once,?_,?_⟩
  · intro i h found isOpen ended
    have some' := sound.answered i h found isOpen (by rw [ended]; rfl)
    have one := sound.once i
    have own := sound.own i h found
    cases results : w.resultsOf i with
    | nil => exact absurd results some'
    | cons result rest =>
      rw [results] at one own
      obtain rfl : rest = [] := List.eq_nil_of_length_eq_zero (by simpa using one)
      exact ⟨result,rfl,own result (List.mem_singleton_self _)⟩
  · intro i h found _ going
    by_cases waiting : h.phase = .waiting
    · by_cases room : isMutationAction h.action = true ∨ (w.sems .query h.session).length < Sem.query.capacity
      · obtain ⟨w',goes⟩ := goes_of_waiting (i := i) waiting room
        exact goes_on found goes
      · -- whoever has a token is past waiting for it
        obtain ⟨j,member⟩ : ∃ j, j ∈ w.sems .query h.session := by
          refine List.exists_mem_of_length_pos ?_
          have full := Nat.le_of_not_lt fun free => room (.inr free)
          exact Nat.lt_of_lt_of_le (by decide) full
        obtain ⟨k,has,_,live,_,begun⟩ := sound.held .query h.session j member
        obtain ⟨doing,w',goes⟩ := goes_of_begun (w := w) (i := j) (begun rfl) live
        exact goes_on has goes
    · obtain ⟨doing,w',goes⟩ := goes_of_begun (w := w) (i := i) waiting going
      exact goes_on found goes

end

/-- A mutation is carried out while a second one is refused. -/
def refused : List Event :=
  [.start,.intent "STOP_CONTAINER" "a" true,.goes 0 .begin,.intent "START_CONTAINER" "b" true,
    .goes 0 (.returned ⟨"",true,"stopped",""⟩),.goes 0 .checkEpoch,.goes 0 .checkContext,.goes 0 (.write true),
    .goes 0 .leave]

end Vigile.IntentDispatch
