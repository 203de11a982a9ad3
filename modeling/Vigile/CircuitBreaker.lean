import Mathlib.Algebra.Order.Ring.Rat
import Mathlib.Data.Rat.Defs
import Mathlib.Data.List.Count

/-! The circuit breaker and the calls that go through it. The check starts its function
without an await between, the outcome is recorded whenever the function ends. -/
namespace Vigile.CircuitBreaker

inductive CircuitState where
  | closed
  | opened
  | halfOpen
  deriving DecidableEq

structure Breaker where
  state : CircuitState
  failureCount : Int
  lastFailureTime : ℚ
  deriving DecidableEq

structure Call where
  probe : Bool
  inFlight : Bool
  deriving DecidableEq

structure World where
  breaker : Breaker
  calls : List Call
  failures : List ℚ
  deriving DecidableEq

inductive Event where
  | call (now : ℚ)
  | succeed (i : Nat)
  /-- The function raises, be it because its caller is cancelled. -/
  | fail (now : ℚ) (i : Nat)
  | reset
  deriving DecidableEq

def fresh : Breaker := ⟨.closed,0,0⟩

def start : World := ⟨fresh,[],[]⟩

namespace Breaker

def recordSuccess (cb : Breaker) : Breaker :=
  {cb with
    state := if cb.state = .halfOpen then .closed else cb.state
    failureCount := 0}

def reset (_ : Breaker) : Breaker := ⟨.closed,0,0⟩

section
variable (failureThreshold : Int) (timeout : ℚ)

def recordFailure (cb : Breaker) (now : ℚ) : Breaker :=
  let failureCount := cb.failureCount + 1
  ⟨if failureThreshold ≤ failureCount then .opened else cb.state,failureCount,now⟩

/-- `_check`; `none` where it raises `CircuitBreakerOpenError`. -/
def check (cb : Breaker) (now : ℚ) : Option Breaker :=
  if cb.state = .opened then
    if timeout ≤ now - cb.lastFailureTime then some {cb with state := .halfOpen} else none
  else some cb

end

end Breaker

section
variable (failureThreshold : Int) (timeout : ℚ)

def step (w : World) : Event → Option World
  | .call now =>
    match w.breaker.check timeout now with
    | some breaker => some {w with breaker, calls := w.calls ++ [⟨breaker.state = .halfOpen,true⟩]}
    | none => some w
  | .succeed i =>
    match w.calls[i]? with
    | some call =>
      if call.inFlight then
        some {w with breaker := w.breaker.recordSuccess, calls := w.calls.set i {call with inFlight := false}}
      else none
    | none => none
  | .fail now i =>
    match w.calls[i]? with
    | some call =>
      if call.inFlight then
        some ⟨w.breaker.recordFailure failureThreshold now,w.calls.set i {call with inFlight := false},
          w.failures ++ [now]⟩
      else none
    | none => none
  | .reset => some {w with breaker := w.breaker.reset}

def probes (w : World) : Nat := w.calls.countP fun call => call.probe ∧ call.inFlight

/-- What a step of the breaker is meant to do. -/
structure Lawful (w : World) (event : Event) (w' : World) : Prop where
  /-- Once it has opened, no function starts before the timeout since the last failure. -/
  patient : ∀ now, event = .call now → w'.calls ≠ w.calls → w.breaker.state ≠ .closed →
    ∃ last, w.failures.getLast? = some last ∧ timeout ≤ now - last
  single : w'.breaker.state = .halfOpen → probes w' ≤ 1
  reopens : ∀ now i call, event = .fail now i → w.calls[i]? = some call → call.probe = true →
    w.breaker.state ≠ .closed → w'.breaker.state = .opened
  closes : w.breaker.state ≠ .closed → w'.breaker.state = .closed →
    event = .reset ∨ ∃ i call, event = .succeed i ∧ w.calls[i]? = some call ∧ call.probe = true

def LawfulRun : World → List Event → Prop
  | _, [] => True
  | w, event :: events =>
    ∀ w' ∈ step failureThreshold timeout w event, Lawful timeout w event w' ∧ LawfulRun w' events

/-- No probe is let in beside another, no other call succeeds while the breaker is half open,
and no probe fails there before the count is one below the threshold. -/
def Fair (w : World) : Event → Prop
  | .call now => w.breaker.state ≠ .closed →
      (w.breaker.state = .opened → timeout ≤ now - w.breaker.lastFailureTime) → probes w = 0
  | .succeed i => w.breaker.state = .halfOpen → ∀ call ∈ w.calls[i]?, call.probe = true
  | .fail _ i => w.breaker.state = .halfOpen → ∀ call ∈ w.calls[i]?, call.probe = true →
      failureThreshold ≤ w.breaker.failureCount + 1
  | .reset => True

def FairRun : World → List Event → Prop
  | _, [] => True
  | w, event :: events =>
    ∀ w' ∈ step failureThreshold timeout w event, Fair failureThreshold timeout w event ∧ FairRun w' events

/-- A half open breaker waits for a probe, and one that is not closed knows its last failure. -/
structure Sound (w : World) : Prop where
  busy : w.breaker.state = .halfOpen → probes w = 1
  last : w.breaker.state ≠ .closed → w.failures.getLast? = some w.breaker.lastFailureTime

variable {failureThreshold timeout} {w w' : World} {event : Event} {events : List Event} {now : ℚ} {i : Nat} {call : Call}

theorem sound_start : Sound start := ⟨fun half => (by cases half),fun opened => absurd rfl opened⟩

theorem probes_call (breaker : Breaker) (failures : List ℚ) (calls : List Call) (probe : Bool) :
    probes ⟨breaker,calls ++ [⟨probe,true⟩],failures⟩ = calls.countP (fun call => call.probe ∧ call.inFlight)
      + if probe = true then 1 else 0 := by
  cases probe <;> simp [probes]

/-- A call that ends is a probe less where it was one. -/
theorem probes_end (breaker : Breaker) (failures : List ℚ) (found : w.calls[i]? = some call)
    (flies : call.inFlight = true) :
    probes ⟨breaker,w.calls.set i {call with inFlight := false},failures⟩ + (if call.probe = true then 1 else 0)
      = probes w := by
  obtain ⟨inside,rfl⟩ := List.getElem?_eq_some_iff.mp found
  unfold probes
  rw [List.countP_set inside]
  by_cases isProbe : w.calls[i].probe = true
  · have counted : 0 < w.calls.countP fun call => call.probe ∧ call.inFlight :=
      List.countP_pos_iff.mpr ⟨w.calls[i],List.getElem_mem inside,by simp [isProbe,flies]⟩
    simp only [isProbe,flies,Bool.false_eq_true,and_false,and_self,decide_true,decide_false,if_true,if_false]
    omega
  · simp [isProbe]

/-- Whether and how the check lets a call in. -/
theorem check_cases (cb : Breaker) (timeout now : ℚ) :
    cb.check timeout now = none ∧ cb.state = .opened ∧ ¬timeout ≤ now - cb.lastFailureTime ∨
    cb.check timeout now = some {cb with state := .halfOpen} ∧ cb.state = .opened ∧
      timeout ≤ now - cb.lastFailureTime ∨
    cb.check timeout now = some cb ∧ cb.state ≠ .opened := by
  unfold Breaker.check
  by_cases isOpen : cb.state = .opened
  · by_cases elapsed : timeout ≤ now - cb.lastFailureTime <;> simp [isOpen,elapsed]
  · simp [isOpen]

theorem Sound.checked (sound : Sound w) (fair : Fair failureThreshold timeout w (.call now))
    (stepped : step failureThreshold timeout w (.call now) = some w') :
    Lawful timeout w (.call now) w' ∧ Sound w' := by
  rcases check_cases w.breaker timeout now with ⟨checked,isOpen,early⟩ | ⟨checked,isOpen,elapsed⟩ | ⟨checked,notOpen⟩
  · have same : w = w' := by simpa [step,checked] using stepped
    subst same
    refine ⟨⟨fun _ _ started => absurd rfl started,fun half => ?_,fun _ _ _ isFail => (by cases isFail),
      fun notClosed isClosed => absurd isClosed notClosed⟩,sound⟩
    rw [half] at isOpen
    cases isOpen
  · have idle : probes w = 0 := fair (by simp [isOpen]) fun _ => elapsed
    obtain rfl : (⟨{w.breaker with state := .halfOpen},w.calls ++ [⟨true,true⟩],w.failures⟩ : World) = w' := by
      simpa [step,checked] using stepped
    have one : probes ⟨{w.breaker with state := .halfOpen},w.calls ++ [⟨true,true⟩],w.failures⟩ = 1 := by
      rw [probes_call]
      simpa [probes] using idle
    refine ⟨⟨fun moment isCall _ notClosed => ?_,fun _ => one.le,fun _ _ _ isFail => (by cases isFail),
      fun _ isClosed => by cases isClosed⟩,⟨fun _ => one,fun _ => sound.last (by simp [isOpen])⟩⟩
    obtain rfl := Event.call.inj isCall
    exact ⟨_,sound.last notClosed,elapsed⟩
  · obtain rfl : (⟨w.breaker,w.calls ++ [⟨w.breaker.state = .halfOpen,true⟩],w.failures⟩ : World) = w' := by
      simpa [step,checked] using stepped
    -- a half open breaker has its probe in flight, so that only a closed one lets calls in here
    have closed : w.breaker.state = .closed := by
      by_contra notClosed
      have half : w.breaker.state = .halfOpen := by
        cases state : w.breaker.state <;> simp_all
      have idle := fair notClosed fun isOpen => absurd isOpen notOpen
      rw [sound.busy half] at idle
      cases idle
    exact ⟨⟨fun _ _ _ notClosed => absurd closed notClosed,fun half => by simp [closed] at half,
      fun _ _ _ isFail => (by cases isFail),fun notClosed => absurd closed notClosed⟩,
      ⟨fun half => by simp [closed] at half,fun notClosed => absurd closed notClosed⟩⟩

theorem Sound.succeed (sound : Sound w) (fair : Fair failureThreshold timeout w (.succeed i))
    (found : w.calls[i]? = some call) :
    Lawful timeout w (.succeed i)
        {w with breaker := w.breaker.recordSuccess, calls := w.calls.set i {call with inFlight := false}} ∧
      Sound {w with breaker := w.breaker.recordSuccess, calls := w.calls.set i {call with inFlight := false}} := by
  have notHalf : w.breaker.recordSuccess.state ≠ .halfOpen := by
    unfold Breaker.recordSuccess
    dsimp only
    split
    · simp
    · assumption
  refine ⟨⟨fun _ isCall => (by cases isCall),fun half => absurd half notHalf,fun _ _ _ isFail => (by cases isFail),
    fun notClosed isClosed => Or.inr ⟨i,call,rfl,found,?_⟩⟩,⟨fun half => absurd half notHalf,fun notClosed => ?_⟩⟩
  · refine fair ?_ call found
    by_contra notHalf
    exact notClosed (by simpa [Breaker.recordSuccess,notHalf] using isClosed)
  · refine sound.last fun isClosed => notClosed ?_
    simp [Breaker.recordSuccess,isClosed]

theorem Sound.fail (sound : Sound w) (fair : Fair failureThreshold timeout w (.fail now i))
    (found : w.calls[i]? = some call) (flies : call.inFlight = true) :
    Lawful timeout w (.fail now i)
        ⟨w.breaker.recordFailure failureThreshold now,w.calls.set i {call with inFlight := false},w.failures ++ [now]⟩ ∧
      Sound
        ⟨w.breaker.recordFailure failureThreshold now,w.calls.set i {call with inFlight := false},w.failures ++ [now]⟩ := by
  have fewer := probes_end (w.breaker.recordFailure failureThreshold now) (w.failures ++ [now]) found flies
  have stays : (w.breaker.recordFailure failureThreshold now).state ≠ .opened →
      (w.breaker.recordFailure failureThreshold now).state = w.breaker.state ∧
      ¬failureThreshold ≤ w.breaker.failureCount + 1 := fun notOpen => by
    simp only [Breaker.recordFailure] at notOpen ⊢
    split at notOpen
    · exact absurd rfl notOpen
    · rename_i below
      exact ⟨if_neg below,below⟩
  -- a probe that fails in a half open breaker opens it
  have probeOpens : call.probe = true → w.breaker.state ≠ .closed →
      (w.breaker.recordFailure failureThreshold now).state = .opened := fun isProbe notClosed => by
    by_contra notOpen
    obtain ⟨same,below⟩ := stays notOpen
    cases state : w.breaker.state with
    | closed => exact notClosed state
    | opened => exact notOpen (same.trans state)
    | halfOpen => exact below (fair state call found isProbe)
  have half : (w.breaker.recordFailure failureThreshold now).state = .halfOpen →
      w.breaker.state = .halfOpen ∧ call.probe = false := fun isHalf => by
    have same := (stays (by simp [isHalf])).1
    have was : w.breaker.state = .halfOpen := same.symm.trans isHalf
    refine ⟨was,?_⟩
    by_contra isProbe
    have opens := probeOpens (by simpa using isProbe) (by simp [was])
    simp [isHalf] at opens
  have busy : (w.breaker.recordFailure failureThreshold now).state = .halfOpen →
      probes ⟨w.breaker.recordFailure failureThreshold now,w.calls.set i {call with inFlight := false},
        w.failures ++ [now]⟩ = 1 := fun isHalf => by
    obtain ⟨was,notProbe⟩ := half isHalf
    simpa [notProbe,sound.busy was] using fewer
  refine ⟨⟨fun _ isCall => (by cases isCall),fun isHalf => (busy isHalf).le,fun _ j other isFail there isProbe notClosed => ?_,
    fun notClosed isClosed => ?_⟩,⟨busy,fun _ => by simp [Breaker.recordFailure]⟩⟩
  · cases isFail
    obtain rfl := Option.some.inj (found.symm.trans there)
    exact probeOpens isProbe notClosed
  · have same := (stays fun isOpen => by simp [isOpen] at isClosed).1
    exact absurd (same.symm.trans isClosed) notClosed

/-- From a sound world a fair step is lawful and leaves a sound world. -/
theorem Sound.step (sound : Sound w) (fair : Fair failureThreshold timeout w event)
    (stepped : step failureThreshold timeout w event = some w') : Lawful timeout w event w' ∧ Sound w' := by
  cases event with
  | call now => exact sound.checked fair stepped
  | succeed i =>
    simp only [CircuitBreaker.step] at stepped
    split at stepped
    · rename_i call found
      split at stepped
      · obtain rfl := Option.some.inj stepped
        exact sound.succeed fair found
      · contradiction
    · contradiction
  | fail now i =>
    simp only [CircuitBreaker.step] at stepped
    split at stepped
    · rename_i call found
      split at stepped
      · rename_i flies
        obtain rfl := Option.some.inj stepped
        exact sound.fail fair found flies
      · contradiction
    · contradiction
  | reset =>
    obtain rfl := Option.some.inj stepped
    exact ⟨⟨fun _ isCall => (by cases isCall),fun half => (by cases half),fun _ _ _ isFail => (by cases isFail),
      fun _ _ => Or.inl rfl⟩,⟨fun half => (by cases half),fun notClosed => absurd rfl notClosed⟩⟩

/-- A lawful step was fair: what the condition leaves out breaks a law at once. -/
theorem Lawful.fair (lawful : Lawful timeout w event w')
    (stepped : CircuitBreaker.step failureThreshold timeout w event = some w') :
    Fair failureThreshold timeout w event := by
  cases event with
  | call now =>
    intro notClosed elapsed
    have started : w' = ⟨{w.breaker with state := .halfOpen},w.calls ++ [⟨true,true⟩],w.failures⟩ := by
      rcases check_cases w.breaker timeout now with ⟨-,isOpen,early⟩ | ⟨checked,-⟩ | ⟨checked,notOpen⟩
      · exact absurd (elapsed isOpen) early
      · simpa [CircuitBreaker.step,checked,eq_comm] using stepped
      · have half : w.breaker.state = .halfOpen := by
          cases state : w.breaker.state <;> simp_all
        have same : ({w.breaker with state := .halfOpen} : Breaker) = w.breaker := by rw [← half]
        rw [same]
        simpa [CircuitBreaker.step,checked,half,eq_comm] using stepped
    have single := lawful.single (by rw [started])
    rw [started,probes_call] at single
    simpa [probes] using single
  | succeed i =>
    intro half other there
    simp only [CircuitBreaker.step] at stepped
    split at stepped
    · rename_i call found
      split at stepped
      · obtain rfl := Option.some.inj stepped
        rcases lawful.closes (by simp [half]) (by simp [Breaker.recordSuccess,half]) with
          isReset | ⟨j,probe,isSuccess,foundProbe,isProbe⟩
        · cases isReset
        · cases isSuccess
          exact Option.some.inj (foundProbe.symm.trans there) ▸ isProbe
      · contradiction
    · contradiction
  | fail now i =>
    intro half call there isProbe
    simp only [CircuitBreaker.step] at stepped
    split at stepped
    · split at stepped
      · obtain rfl := Option.some.inj stepped
        have opens := lawful.reopens now i call rfl there isProbe (by simp [half])
        simp only [Breaker.recordFailure] at opens
        split at opens
        · assumption
        · simp [half] at opens
      · contradiction
    · contradiction
  | reset => trivial

theorem Sound.lawfulRun (sound : Sound w) :
    LawfulRun failureThreshold timeout w events ↔ FairRun failureThreshold timeout w events := by
  induction events generalizing w with
  | nil => exact Iff.rfl
  | cons event events ih =>
    constructor
    · intro lawful w' stepped
      obtain ⟨now,later⟩ := lawful w' stepped
      have fair := now.fair stepped
      exact ⟨fair,(ih (sound.step fair stepped).2).mp later⟩
    · intro fair w' stepped
      obtain ⟨now,later⟩ := fair w' stepped
      obtain ⟨lawful,next⟩ := sound.step now stepped
      exact ⟨lawful,(ih next).mpr later⟩

/-- The steps of a run keep the laws of the breaker exactly where they are all fair. -/
theorem lawful_iff_fair (failureThreshold : Int) (timeout : ℚ) (events : List Event) :
    LawfulRun failureThreshold timeout start events ↔ FairRun failureThreshold timeout start events :=
  sound_start.lawfulRun

instance (w : World) (event : Event) : Decidable (Fair failureThreshold timeout w event) :=
  match event with
  | .call now => inferInstanceAs (Decidable (w.breaker.state ≠ .closed →
      (w.breaker.state = .opened → timeout ≤ now - w.breaker.lastFailureTime) → probes w = 0))
  | .succeed i => inferInstanceAs (Decidable (w.breaker.state = .halfOpen → ∀ call ∈ w.calls[i]?, call.probe = true))
  | .fail _ i => inferInstanceAs (Decidable (w.breaker.state = .halfOpen → ∀ call ∈ w.calls[i]?, call.probe = true →
      failureThreshold ≤ w.breaker.failureCount + 1))
  | .reset => .isTrue trivial

instance FairRun.decidable (w : World) : (events : List Event) → Decidable (FairRun failureThreshold timeout w events)
  | [] => .isTrue trivial
  | event :: events =>
    have : ∀ next, Decidable (FairRun failureThreshold timeout next events) := fun next => FairRun.decidable next events
    inferInstanceAs (Decidable (∀ w' ∈ step failureThreshold timeout w event,
      Fair failureThreshold timeout w event ∧ FairRun failureThreshold timeout w' events))

/-- A slow call succeeds after the breaker has opened, and then the probe fails without
opening it again. -/
theorem late_success_not_lawful :
    ¬LawfulRun 2 60 start [.call 0,.call 0,.call 0,.fail 1 0,.fail 1 1,.succeed 2,.call 70,.fail 71 3] := by
  rw [sound_start.lawfulRun]
  decide +kernel

/-- Two calls that come after the timeout are both let in. -/
example : ¬LawfulRun 1 60 start [.call 0,.fail 1 0,.call 70,.call 71] := by
  rw [sound_start.lawfulRun]
  decide +kernel

end

end Vigile.CircuitBreaker
