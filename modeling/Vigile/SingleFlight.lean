import Mathlib.Tactic.IntervalCases
import Vigile.OrderedMap
import Vigile.Python

/-! `SingleFlight.run` on one event loop, with callers that are cancelled where they wait.
The lock is never held over an `await`, so that each stretch between two waits is one step. -/
namespace Vigile.SingleFlight

open Python

/-- How an awaited `fn` ends. -/
inductive Outcome (α : Type) where
  | result (value : α)
  | exception (error : PyError)
  deriving DecidableEq

inductive Future (α : Type) where
  | pending
  | finished (outcome : Outcome α)
  | cancelled
  deriving DecidableEq

/-- A `run` call: the leader is in `await fn()`, the others in `await fut`. -/
structure Caller (α : Type) where
  key : String
  fut : Nat
  leader : Bool
  /-- Its task was cancelled before it ended. -/
  cancelled : Bool
  ended : Option (Outcome α)
  deriving DecidableEq

structure Flights (α : Type) where
  inFlight : OrderedMap String Nat
  futures : List (Future α)
  callers : List (Caller α)

inductive Event (α : Type) where
  | call (key : String)
  | finish (i : Nat) (outcome : Outcome α)
  | cancel (i : Nat)
  | resume (i : Nat)

variable {α : Type}

def start : Flights α := ⟨.empty,[],[]⟩

/-- A new future and its leader. -/
def lead (w : Flights α) (key : String) : Flights α :=
  ⟨w.inFlight.set key w.futures.length,w.futures ++ [.pending],
    w.callers ++ [⟨key,w.futures.length,true,false,none⟩]⟩

def call (w : Flights α) (key : String) : Flights α :=
  match w.inFlight.get? key with
  | some fut =>
    match w.futures[fut]? with
    | some .pending => {w with callers := w.callers ++ [⟨key,fut,false,false,none⟩]}
    | _ => lead w key
  | none => lead w key

def Caller.ends (caller : Caller α) (outcome : Outcome α) : Caller α := {caller with ended := some outcome}

/-- `set_result` or `set_exception` where the future is not done, and the `finally`. -/
def finish (w : Flights α) (i : Nat) (caller : Caller α) (outcome : Outcome α) : Flights α :=
  { inFlight := if w.inFlight.get? caller.key = some caller.fut then w.inFlight.erase caller.key else w.inFlight
    futures := match w.futures[caller.fut]? with
      | some .pending => w.futures.set caller.fut (.finished outcome)
      | _ => w.futures
    callers := w.callers.set i (caller.ends outcome) }

/-- `Task.cancel`: of a follower that waits, it cancels the future. -/
def cancel (w : Flights α) (i : Nat) (caller : Caller α) : Flights α :=
  {w with
    futures := match caller.leader, w.futures[caller.fut]? with
      | false, some .pending => w.futures.set caller.fut .cancelled
      | _, _ => w.futures
    callers := w.callers.set i {caller with cancelled := true}}

def awaited (caller : Caller α) : Future α → Option (Outcome α)
  | .pending => none
  | .finished outcome => some (if caller.cancelled then .exception .cancelledError else outcome)
  | .cancelled => some (.exception .cancelledError)

def step (w : Flights α) : Event α → Option (Flights α)
  | .call key => some (call w key)
  | .finish i outcome =>
    match w.callers[i]? with
    | some caller => if caller.leader ∧ caller.ended = none then some (finish w i caller outcome) else none
    | none => none
  | .cancel i =>
    match w.callers[i]? with
    | some caller => if caller.ended = none then some (cancel w i caller) else none
    | none => none
  | .resume i =>
    match w.callers[i]? with
    | some caller =>
      if caller.leader = false ∧ caller.ended = none then
        match (w.futures[caller.fut]?).bind (awaited caller) with
        | some outcome => some {w with callers := w.callers.set i (caller.ends outcome)}
        | none => none
      else none
    | none => none

def run : Flights α → List (Event α) → Option (Flights α)
  | w, [] => some w
  | w, event :: events => (step w event).bind fun next => run next events

/-- In `await fn()`. -/
def Caller.Flying (caller : Caller α) : Prop := caller.leader = true ∧ caller.ended = none

/-- In `await fut`, and not cancelled. -/
def Caller.Waiting (fut : Nat) (caller : Caller α) : Prop :=
  caller.leader = false ∧ caller.fut = fut ∧ caller.ended = none ∧ caller.cancelled = false

instance (caller : Caller α) (fut : Nat) : Decidable (caller.Waiting fut) :=
  match caller with
  | ⟨_,other,leader,cancelled,none⟩ =>
    decidable_of_iff (leader = false ∧ other = fut ∧ cancelled = false) (by simp [Caller.Waiting])
  | ⟨_,_,_,_,some _⟩ => isFalse fun waits => by simp [Caller.Waiting] at waits

/-- At most one `fn` is in flight for a key. -/
def OneFlight (w : Flights α) : Prop :=
  ∀ (i j : Nat) a b, w.callers[i]? = some a → w.callers[j]? = some b → a.Flying → b.Flying → a.key = b.key → i = j

/-- A caller that was not cancelled has what the `fn` of its flight gave, and no
`CancelledError` of a leader that was. -/
def Served (w : Flights α) : Prop :=
  ∀ (i : Nat) caller outcome, w.callers[i]? = some caller → caller.ended = some outcome → caller.cancelled = false →
    ∃ (l : Nat) (leader : Caller α), w.callers[l]? = some leader ∧ leader.leader = true ∧ leader.fut = caller.fut ∧
      leader.key = caller.key ∧ leader.ended = some outcome ∧
      (outcome = .exception .cancelledError → leader.cancelled = false)

/-- Whether another caller still waits for the future. -/
def Awaited (w : Flights α) (fut : Nat) (but : Option Nat) : Prop :=
  ∃ j < w.callers.length, some j ≠ but ∧ ∃ caller ∈ w.callers[j]?, caller.Waiting fut

instance (w : Flights α) (fut : Nat) (but : Option Nat) : Decidable (Awaited w fut but) :=
  inferInstanceAs (Decidable (∃ j < w.callers.length, some j ≠ but ∧ ∃ caller ∈ w.callers[j]?, caller.Waiting fut))

/-- No follower is cancelled while another waits for the same future, no call finds a future
that was cancelled, and no cancelled leader ends by its `CancelledError` while followers wait. -/
def Undisturbed (w : Flights α) : Event α → Prop
  | .call key => ∀ fut ∈ w.inFlight.get? key, w.futures[fut]? ≠ some .cancelled
  | .finish i outcome => ∀ caller ∈ w.callers[i]?, caller.cancelled = true →
      outcome = .exception .cancelledError → ¬Awaited w caller.fut none
  | .cancel i => ∀ caller ∈ w.callers[i]?, caller.leader = false →
      w.futures[caller.fut]? = some .pending → ¬Awaited w caller.fut (some i)
  | .resume _ => True

def UndisturbedRun : Flights α → List (Event α) → Prop
  | _, [] => True
  | w, event :: events => Undisturbed w event ∧ ∀ next ∈ step w event, UndisturbedRun next events

variable {w next : Flights α} {key : String} {fut i j : Nat} {caller other : Caller α} {outcome : Outcome α}
  {event : Event α} {events : List (Event α)}

structure Shaped (w : Flights α) : Prop where
  valid : ∀ (i : Nat) caller, w.callers[i]? = some caller → caller.fut < w.futures.length
  unique : ∀ (i j : Nat) a b, w.callers[i]? = some a → w.callers[j]? = some b → a.leader = true → b.leader = true →
    a.fut = b.fut → i = j
  sameKey : ∀ (i j : Nat) a b, w.callers[i]? = some a → w.callers[j]? = some b → a.fut = b.fut → a.key = b.key

structure Sound (w : Flights α) : Prop extends Shaped w where
  flying : ∀ (i : Nat) caller, w.callers[i]? = some caller → caller.Flying →
    w.inFlight.get? caller.key = some caller.fut ∧ ∀ outcome, w.futures[caller.fut]? ≠ some (.finished outcome)
  known : ∀ key fut, w.inFlight.get? key = some fut →
    ∃ (i : Nat) (caller : Caller α), w.callers[i]? = some caller ∧ caller.Flying ∧ caller.key = key ∧ caller.fut = fut
  finished : ∀ (fut : Nat) outcome, w.futures[fut]? = some (.finished outcome) →
    ∃ (l : Nat) (leader : Caller α), w.callers[l]? = some leader ∧ leader.leader = true ∧ leader.fut = fut ∧
      leader.ended = some outcome ∧
      (outcome = .exception .cancelledError → leader.cancelled = true →
        ∀ (j : Nat) other, w.callers[j]? = some other → ¬other.Waiting fut)
  cancelled : ∀ (fut : Nat), w.futures[fut]? = some .cancelled →
    ∀ (j : Nat) other, w.callers[j]? = some other → ¬other.Waiting fut
  served : Served w

theorem sound_start : Sound (start : Flights α) := by
  refine ⟨⟨?_,?_,?_⟩,?_,?_,?_,?_,?_⟩ <;> simp [start,Served]

theorem Sound.oneFlight (sound : Sound w) : OneFlight w := by
  intro i j a b foundA foundB flyingA flyingB sameKey
  have futA := (sound.flying i a foundA flyingA).1
  have futB := (sound.flying j b foundB flyingB).1
  have sameFut : a.fut = b.fut := Option.some.inj (futA.symm.trans (sameKey ▸ futB))
  exact sound.unique i j a b foundA foundB flyingA.1 flyingB.1 sameFut

theorem not_awaited (quiet : ¬Awaited w fut none) (found : w.callers[j]? = some other) : ¬other.Waiting fut :=
  fun waits => quiet ⟨j,(List.getElem?_eq_some_iff.mp found).1,Option.some_ne_none j,other,found,waits⟩

theorem not_awaited_but (quiet : ¬Awaited w fut (some i)) (found : w.callers[j]? = some other) (differ : j ≠ i) :
    ¬other.Waiting fut :=
  fun waits => quiet ⟨j,(List.getElem?_eq_some_iff.mp found).1,by simpa using differ,other,found,waits⟩

variable {callers : List (Caller α)} {changed : Caller α}

/-- The callers after one more has come. -/
theorem callers_append (found : (callers ++ [caller])[j]? = some other) :
    callers[j]? = some other ∨ j = callers.length ∧ other = caller := by
  rw [List.getElem?_append] at found
  split at found
  · exact Or.inl found
  · rename_i beyond
    have at0 : j - callers.length = 0 := by
      by_contra later
      simp [later] at found
    rw [at0] at found
    exact Or.inr ⟨by omega,by simpa using found.symm⟩

theorem getElem?_append_of_some {β : Type} {items : List β} {item added : β} (found : items[j]? = some item) :
    (items ++ [added])[j]? = some item := by
  rw [List.getElem?_append_left (List.getElem?_eq_some_iff.mp found).1]
  exact found

theorem callers_set
    (found : (callers.set i changed)[j]? = some other) :
    j = i ∧ other = changed ∨ j ≠ i ∧ callers[j]? = some other := by
  rcases eq_or_ne j i with rfl | differ
  · have inside : j < callers.length := by
      simpa using (List.getElem?_eq_some_iff.mp found).1
    rw [List.getElem?_set_self inside] at found
    exact Or.inl ⟨rfl,(Option.some.inj found).symm⟩
  · rw [List.getElem?_set_ne differ.symm] at found
    exact Or.inr ⟨differ,found⟩

structure Caller.Alike (changed caller : Caller α) : Prop where
  key : changed.key = caller.key
  fut : changed.fut = caller.fut
  leader : changed.leader = caller.leader

theorem alike_of_set (here : callers[i]? = some caller)
    (alike : changed.Alike caller) (found : (callers.set i changed)[j]? = some other) :
    ∃ old, callers[j]? = some old ∧ other.Alike old := by
  rcases callers_set found with ⟨rfl,rfl⟩ | ⟨-,old⟩
  · exact ⟨caller,here,alike⟩
  · exact ⟨other,old,rfl,rfl,rfl⟩

/-- Those who have ended are not touched by what happens to one who has not. -/
theorem getElem?_set_of_ended (here : callers[i]? = some caller)
    (running : caller.ended = none) (found : callers[j]? = some other) (ended : other.ended = some outcome) :
    (callers.set i changed)[j]? = some other := by
  have differ : j ≠ i := fun same => by
    rw [same,here] at found
    rw [Option.some.inj found,ended] at running
    cases running
  rw [List.getElem?_set_ne differ.symm]
  exact found

/-- Whoever waits after a change of a caller was waiting before, or is that caller. -/
theorem waiting_of_set (quiet : ¬changed.Waiting fut)
    (found : (callers.set i changed)[j]? = some other) (waits : other.Waiting fut) :
    j ≠ i ∧ callers[j]? = some other := by
  rcases callers_set found with ⟨rfl,rfl⟩ | old
  · exact absurd waits quiet
  · exact old

theorem Shaped.set (shaped : Shaped w) (here : w.callers[i]? = some caller)
    (alike : changed.Alike caller) (callers : next.callers = w.callers.set i changed)
    (futures : next.futures.length = w.futures.length) : Shaped next := by
  have before : ∀ (j : Nat) other, next.callers[j]? = some other →
      ∃ old, w.callers[j]? = some old ∧ other.Alike old := fun j other found =>
    alike_of_set here alike (callers ▸ found)
  constructor
  · intro j other found
    obtain ⟨old,there,similar⟩ := before j other found
    rw [futures,similar.fut]
    exact shaped.valid j old there
  · intro j k a b foundA foundB leaderA leaderB same
    obtain ⟨oldA,thereA,similarA⟩ := before j a foundA
    obtain ⟨oldB,thereB,similarB⟩ := before k b foundB
    exact shaped.unique j k oldA oldB thereA thereB (similarA.leader ▸ leaderA) (similarB.leader ▸ leaderB)
      (by rw [← similarA.fut,← similarB.fut,same])
  · intro j k a b foundA foundB same
    obtain ⟨oldA,thereA,similarA⟩ := before j a foundA
    obtain ⟨oldB,thereB,similarB⟩ := before k b foundB
    rw [similarA.key,similarB.key]
    exact shaped.sameKey j k oldA oldB thereA thereB (by rw [← similarA.fut,← similarB.fut,same])

section
variable (sound : Sound w)
include sound

/-- Who was served stays served when another changes. -/
theorem served_of_set (here : w.callers[i]? = some caller)
    (running : caller.ended = none) (found : w.callers[j]? = some other) (ended : other.ended = some outcome)
    (uncancelled : other.cancelled = false) :
    ∃ (l : Nat) (leader : Caller α), (w.callers.set i changed)[l]? = some leader ∧ leader.leader = true ∧
      leader.fut = other.fut ∧ leader.key = other.key ∧ leader.ended = some outcome ∧
      (outcome = .exception .cancelledError → leader.cancelled = false) := by
  obtain ⟨l,leader,there,leads,isFut,isKey,leaderEnded,blameless⟩ := sound.served j other outcome found ended uncancelled
  exact ⟨l,leader,getElem?_set_of_ended here running there leaderEnded,leads,isFut,isKey,leaderEnded,blameless⟩

/-- A flight that has ended stands when a caller changes that will not wait for it. -/
theorem finished_of_set (here : w.callers[i]? = some caller)
    (running : caller.ended = none) (nobody : ¬changed.Waiting fut) (before : w.futures[fut]? = some (.finished outcome)) :
    ∃ (l : Nat) (leader : Caller α), (w.callers.set i changed)[l]? = some leader ∧ leader.leader = true ∧
      leader.fut = fut ∧ leader.ended = some outcome ∧
      (outcome = .exception .cancelledError → leader.cancelled = true →
        ∀ (j : Nat) other, (w.callers.set i changed)[j]? = some other → ¬other.Waiting fut) := by
  obtain ⟨l,leader,there,leads,isFut,ended,quiet⟩ := sound.finished fut outcome before
  refine ⟨l,leader,getElem?_set_of_ended here running there ended,leads,isFut,ended,
    fun isCancelled cancelled j follower found waits => ?_⟩
  obtain ⟨-,was⟩ := waiting_of_set nobody found waits
  exact quiet isCancelled cancelled j follower was waits

theorem Sound.join (known : w.inFlight.get? key = some fut)
    (isPending : w.futures[fut]? = some .pending) :
    Sound {w with callers := w.callers ++ [⟨key,fut,false,false,none⟩]} := by
  obtain ⟨l,leader,isLeader,flying,rfl,rfl⟩ := sound.known key fut known
  have inside : leader.fut < w.futures.length := sound.valid l leader isLeader
  constructor
  case toShaped =>
    constructor
    case valid =>
      intro i caller found
      rcases callers_append found with old | ⟨-,rfl⟩
      · exact sound.valid i caller old
      · exact inside
    case unique =>
      intro i j a b foundA foundB leaderA leaderB
      rcases callers_append foundA with oldA | ⟨-,rfl⟩
      · rcases callers_append foundB with oldB | ⟨-,rfl⟩
        · exact sound.unique i j a b oldA oldB leaderA leaderB
        · contradiction
      · contradiction
    case sameKey =>
      intro i j a b foundA foundB same
      rcases callers_append foundA with oldA | ⟨-,rfl⟩ <;> rcases callers_append foundB with oldB | ⟨-,rfl⟩
      · exact sound.sameKey i j a b oldA oldB same
      · exact sound.sameKey i l a leader oldA isLeader same
      · exact sound.sameKey l j leader b isLeader oldB same
      · rfl
  case flying =>
    intro i caller found flies
    rcases callers_append found with old | ⟨-,rfl⟩
    · exact sound.flying i caller old flies
    · exact absurd flies.1 (by simp)
  case known =>
    intro key fut isKnown
    obtain ⟨i,caller,found,rest⟩ := sound.known key fut isKnown
    exact ⟨i,caller,getElem?_append_of_some found,rest⟩
  case finished =>
    intro other outcome isFinished
    obtain ⟨k,ended,found,leads,isFut,hasEnded,quiet⟩ := sound.finished other outcome isFinished
    refine ⟨k,ended,getElem?_append_of_some found,leads,isFut,hasEnded,fun isCancelled cancelled j follower here => ?_⟩
    rcases callers_append here with old | ⟨-,rfl⟩
    · exact quiet isCancelled cancelled j follower old
    · rintro ⟨-,rfl,-⟩
      rw [isPending] at isFinished
      cases isFinished
  case cancelled =>
    intro other isCancelled j follower here
    rcases callers_append here with old | ⟨-,rfl⟩
    · exact sound.cancelled other isCancelled j follower old
    · rintro ⟨-,rfl,-⟩
      rw [isPending] at isCancelled
      cases isCancelled
  case served =>
    intro i caller outcome found ended uncancelled
    rcases callers_append found with old | ⟨-,rfl⟩
    · obtain ⟨k,leader',foundLeader,rest⟩ := sound.served i caller outcome old ended uncancelled
      exact ⟨k,leader',getElem?_append_of_some foundLeader,rest⟩
    · cases ended

theorem Sound.lead (unknown : w.inFlight.get? key = none) : Sound (lead w key) := by
  have old : ∀ {fut : Nat} {future : Future α}, (w.futures ++ [.pending])[fut]? = some future → future ≠ .pending →
      w.futures[fut]? = some future := fun {fut future} found differ => by
    rw [List.getElem?_append] at found
    split at found
    · exact found
    · exact absurd (by simpa using (List.mem_of_getElem? found)) differ
  constructor
  case toShaped =>
    constructor
    case valid =>
      intro i caller found
      rcases callers_append found with before | ⟨-,rfl⟩
      · have := sound.valid i caller before
        simp [SingleFlight.lead]
        omega
      · simp [SingleFlight.lead]
    case unique =>
      intro i j a b foundA foundB leaderA leaderB same
      rcases callers_append foundA with oldA | ⟨isLastA,rfl⟩ <;> rcases callers_append foundB with oldB | ⟨isLastB,rfl⟩
      · exact sound.unique i j a b oldA oldB leaderA leaderB same
      · have := sound.valid i a oldA
        simp only at same
        omega
      · have := sound.valid j b oldB
        simp only at same
        omega
      · exact isLastA.trans isLastB.symm
    case sameKey =>
      intro i j a b foundA foundB same
      rcases callers_append foundA with oldA | ⟨-,rfl⟩ <;> rcases callers_append foundB with oldB | ⟨-,rfl⟩
      · exact sound.sameKey i j a b oldA oldB same
      · have := sound.valid i a oldA
        simp only at same
        omega
      · have := sound.valid j b oldB
        simp only at same
        omega
      · rfl
  case flying =>
    intro i caller found flies
    rcases callers_append found with before | ⟨-,rfl⟩
    · obtain ⟨isKnown,unfinished⟩ := sound.flying i caller before flies
      have differ : caller.key ≠ key := fun same => by simp [same,unknown] at isKnown
      refine ⟨(OrderedMap.get?_set_of_ne differ).trans isKnown,fun outcome isFinished => ?_⟩
      exact unfinished outcome (old isFinished (by simp))
    · refine ⟨OrderedMap.get?_set_self,fun outcome isFinished => ?_⟩
      have inside := (List.getElem?_eq_some_iff.mp (old isFinished (by simp))).1
      simp at inside
  case known =>
    intro other fut isKnown
    rcases eq_or_ne other key with rfl | differ
    · have isNew : w.futures.length = fut := by simpa [SingleFlight.lead] using isKnown
      exact ⟨w.callers.length,⟨other,w.futures.length,true,false,none⟩,by simp [SingleFlight.lead],⟨rfl,rfl⟩,rfl,isNew⟩
    · obtain ⟨i,caller,found,rest⟩ := sound.known other fut ((OrderedMap.get?_set_of_ne differ).symm.trans isKnown)
      exact ⟨i,caller,getElem?_append_of_some found,rest⟩
  case finished =>
    intro fut outcome isFinished
    have before := old isFinished (by simp)
    obtain ⟨k,ended,found,leads,isFut,hasEnded,quiet⟩ := sound.finished fut outcome before
    refine ⟨k,ended,getElem?_append_of_some found,leads,isFut,hasEnded,fun isCancelled cancelled j follower here => ?_⟩
    rcases callers_append here with there | ⟨-,rfl⟩
    · exact quiet isCancelled cancelled j follower there
    · rintro ⟨isFollower,-⟩
      cases isFollower
  case cancelled =>
    intro fut isCancelled j follower here
    rcases callers_append here with there | ⟨-,rfl⟩
    · exact sound.cancelled fut (old isCancelled (by simp)) j follower there
    · rintro ⟨isFollower,-⟩
      cases isFollower
  case served =>
    intro i caller outcome found ended uncancelled
    rcases callers_append found with before | ⟨-,rfl⟩
    · obtain ⟨k,leader',foundLeader,rest⟩ := sound.served i caller outcome before ended uncancelled
      exact ⟨k,leader',getElem?_append_of_some foundLeader,rest⟩
    · cases ended

theorem Sound.call (undisturbed : Undisturbed w (.call key)) : Sound (call w key) := by
  unfold SingleFlight.call
  cases known : w.inFlight.get? key with
  | none => exact sound.lead known
  | some fut =>
    dsimp only
    split
    · rename_i isPending
      exact sound.join known isPending
    · rename_i notPending
      -- a leader in flight whose future is done has had it cancelled
      exfalso
      obtain ⟨l,leader,found,flies,rfl,rfl⟩ := sound.known key fut known
      have inside := sound.valid l leader found
      cases future : w.futures[leader.fut]? with
      | none => exact absurd inside (not_lt.mpr (List.getElem?_eq_none_iff.mp future))
      | some state =>
        cases state with
        | pending => exact notPending future
        | finished outcome => exact (sound.flying l leader found flies).2 outcome future
        | cancelled => exact undisturbed leader.fut known future

theorem Sound.finish (here : w.callers[i]? = some caller) (flies : caller.Flying)
    (undisturbed : Undisturbed w (.finish i outcome)) : Sound (finish w i caller outcome) := by
  obtain ⟨isLeader,running⟩ := flies
  obtain ⟨isKnown,unfinished⟩ := sound.flying i caller here ⟨isLeader,running⟩
  have inside := (List.getElem?_eq_some_iff.mp here).1
  have alike : (caller.ends outcome).Alike caller := ⟨rfl,rfl,rfl⟩
  have itself : (w.callers.set i (caller.ends outcome))[i]? = some (caller.ends outcome) :=
    List.getElem?_set_self inside
  have nowFinished : ∀ {fut : Nat} {o : Outcome α},
      (SingleFlight.finish w i caller outcome).futures[fut]? = some (.finished o) →
      fut = caller.fut ∧ o = outcome ∨ w.futures[fut]? = some (.finished o) := fun {fut o} found => by
    unfold SingleFlight.finish at found
    dsimp only at found
    split at found
    · rcases eq_or_ne fut caller.fut with rfl | differ
      · rw [List.getElem?_set_self (sound.valid i caller here)] at found
        cases found
        exact Or.inl ⟨rfl,rfl⟩
      · rw [List.getElem?_set_ne differ.symm] at found
        exact Or.inr found
    · exact Or.inr found
  have nowCancelled : ∀ {fut : Nat}, (SingleFlight.finish w i caller outcome).futures[fut]? = some .cancelled →
      w.futures[fut]? = some .cancelled := fun {fut} found => by
    unfold SingleFlight.finish at found
    dsimp only at found
    split at found
    · rcases eq_or_ne fut caller.fut with rfl | differ
      · rw [List.getElem?_set_self (sound.valid i caller here)] at found
        cases found
      · rwa [List.getElem?_set_ne differ.symm] at found
    · exact found
  have nobody : ∀ {fut : Nat}, ¬(caller.ends outcome).Waiting fut := fun waits => by
    simp [Caller.Waiting,Caller.ends] at waits
  have emptied : (SingleFlight.finish w i caller outcome).inFlight = w.inFlight.erase caller.key := by
    simp [SingleFlight.finish,isKnown]
  constructor
  case toShaped =>
    refine sound.set here alike rfl ?_
    unfold SingleFlight.finish
    dsimp only
    split <;> simp
  case flying =>
    intro j other found flies
    rcases callers_set found with ⟨-,rfl⟩ | ⟨differ,there⟩
    · exact absurd flies.2 (by simp [Caller.ends])
    · obtain ⟨known,notFinished⟩ := sound.flying j other there flies
      have otherKey : other.key ≠ caller.key := fun same =>
        differ (sound.oneFlight j i other caller there here flies ⟨isLeader,running⟩ same)
      have otherFut : other.fut ≠ caller.fut := fun same =>
        differ (sound.unique j i other caller there here flies.1 isLeader same)
      refine ⟨by rw [emptied,OrderedMap.get?_erase_of_ne otherKey,known],fun o isFinished => ?_⟩
      rcases nowFinished isFinished with ⟨same,-⟩ | before
      · exact otherFut same
      · exact notFinished o before
  case known =>
    intro key fut known
    rw [emptied] at known
    obtain ⟨differ,before⟩ := OrderedMap.get?_erase_some known
    obtain ⟨j,other,there,flies,rfl,rfl⟩ := sound.known key fut before
    have away : j ≠ i := fun same => by
      rw [same,here] at there
      exact differ (Option.some.inj there ▸ rfl)
    exact ⟨j,other,(List.getElem?_set_ne away.symm).trans there,flies,rfl,rfl⟩
  case finished =>
    intro fut o isFinished
    rcases nowFinished isFinished with ⟨rfl,rfl⟩ | before
    · refine ⟨i,caller.ends o,itself,isLeader,rfl,rfl,fun isCancelled cancelled j follower found waits => ?_⟩
      obtain ⟨-,there⟩ := waiting_of_set nobody found waits
      exact not_awaited (undisturbed caller here cancelled isCancelled) there waits
    · exact finished_of_set sound here running nobody before
  case cancelled =>
    intro fut isCancelled j follower found waits
    obtain ⟨-,was⟩ := waiting_of_set nobody found waits
    exact sound.cancelled fut (nowCancelled isCancelled) j follower was waits
  case served =>
    intro j other o found ended uncancelled
    rcases callers_set found with ⟨-,rfl⟩ | ⟨-,there⟩
    · exact ⟨i,_,itself,isLeader,rfl,rfl,ended,fun _ => uncancelled⟩
    · exact served_of_set sound here running there ended uncancelled

theorem Sound.cancel (here : w.callers[i]? = some caller) (running : caller.ended = none)
    (undisturbed : Undisturbed w (.cancel i)) : Sound (cancel w i caller) := by
  have alike : ({caller with cancelled := true} : Caller α).Alike caller := ⟨rfl,rfl,rfl⟩
  have nobody : ∀ {fut : Nat}, ¬({caller with cancelled := true} : Caller α).Waiting fut := fun waits => by
    simp [Caller.Waiting] at waits
  have futures : (SingleFlight.cancel w i caller).futures = w.futures ∨
      (caller.leader = false ∧ w.futures[caller.fut]? = some .pending) ∧
      (SingleFlight.cancel w i caller).futures = w.futures.set caller.fut .cancelled := by
    unfold SingleFlight.cancel
    dsimp only
    split
    · rename_i follows isPending
      exact Or.inr ⟨⟨follows,isPending⟩,rfl⟩
    · exact Or.inl rfl
  have nowFinished : ∀ {fut : Nat} {o : Outcome α},
      (SingleFlight.cancel w i caller).futures[fut]? = some (.finished o) → w.futures[fut]? = some (.finished o) :=
    fun {fut o} found => by
      rcases futures with same | ⟨-,same⟩ <;> rw [same] at found
      · exact found
      · rcases eq_or_ne fut caller.fut with rfl | differ
        · rw [List.getElem?_set_self (sound.valid i caller here)] at found
          cases found
        · rwa [List.getElem?_set_ne differ.symm] at found
  constructor
  case toShaped =>
    refine sound.set here alike rfl ?_
    rcases futures with same | ⟨-,same⟩ <;> simp [same]
  case flying =>
    intro j other found flies
    obtain ⟨known,notFinished⟩ : w.inFlight.get? other.key = some other.fut ∧
        ∀ o, w.futures[other.fut]? ≠ some (.finished o) := by
      rcases callers_set found with ⟨-,rfl⟩ | ⟨-,there⟩
      · exact sound.flying i caller here ⟨flies.1,running⟩
      · exact sound.flying j other there flies
    exact ⟨known,fun o isFinished => notFinished o (nowFinished isFinished)⟩
  case known =>
    intro key fut known
    obtain ⟨j,other,there,flies,rfl,rfl⟩ := sound.known key fut known
    rcases eq_or_ne j i with rfl | differ
    · obtain rfl := Option.some.inj (here.symm.trans there)
      exact ⟨j,_,List.getElem?_set_self (List.getElem?_eq_some_iff.mp here).1,⟨flies.1,running⟩,rfl,rfl⟩
    · exact ⟨j,other,(List.getElem?_set_ne differ.symm).trans there,flies,rfl,rfl⟩
  case finished => exact fun fut o isFinished => finished_of_set sound here running nobody (nowFinished isFinished)
  case cancelled =>
    intro fut isCancelled j follower found waits
    obtain ⟨differ,was⟩ := waiting_of_set nobody found waits
    rcases futures with same | ⟨⟨follows,isPending⟩,same⟩ <;> rw [same] at isCancelled
    · exact sound.cancelled fut isCancelled j follower was waits
    · rcases eq_or_ne fut caller.fut with rfl | other
      · exact not_awaited_but (undisturbed caller here follows isPending) was differ waits
      · rw [List.getElem?_set_ne other.symm] at isCancelled
        exact sound.cancelled fut isCancelled j follower was waits
  case served =>
    intro j other o found ended uncancelled
    rcases callers_set found with ⟨-,rfl⟩ | ⟨-,there⟩
    · cases uncancelled
    · exact served_of_set sound here running there ended uncancelled

theorem Sound.resume (here : w.callers[i]? = some caller) (follows : caller.leader = false)
    (running : caller.ended = none) (woken : (w.futures[caller.fut]?).bind (awaited caller) = some outcome) :
    Sound {w with callers := w.callers.set i (caller.ends outcome)} := by
  have alike : (caller.ends outcome).Alike caller := ⟨rfl,rfl,rfl⟩
  have nobody : ∀ {fut : Nat}, ¬(caller.ends outcome).Waiting fut := fun waits => by
    simp [Caller.Waiting,Caller.ends] at waits
  constructor
  case toShaped => exact sound.set here alike rfl rfl
  case flying =>
    intro j other found flies
    rcases callers_set found with ⟨-,rfl⟩ | ⟨-,there⟩
    · exact absurd flies.2 (by simp [Caller.ends])
    · exact sound.flying j other there flies
  case known =>
    intro key fut known
    obtain ⟨j,other,there,flies,rest⟩ := sound.known key fut known
    have away : j ≠ i := fun same => by
      rw [same,here] at there
      have leads := flies.1
      rw [← Option.some.inj there,follows] at leads
      cases leads
    exact ⟨j,other,(List.getElem?_set_ne away.symm).trans there,flies,rest⟩
  case finished => exact fun fut o isFinished => finished_of_set sound here running nobody isFinished
  case cancelled =>
    intro fut isCancelled j follower found waits
    obtain ⟨-,was⟩ := waiting_of_set nobody found waits
    exact sound.cancelled fut isCancelled j follower was waits
  case served =>
    intro j other o found ended uncancelled
    rcases callers_set found with ⟨-,rfl⟩ | ⟨-,there⟩
    · have waits : caller.Waiting caller.fut := ⟨follows,rfl,running,uncancelled⟩
      obtain ⟨future,isFuture,gave⟩ := Option.bind_eq_some_iff.mp woken
      have sameOutcome : outcome = o := Option.some.inj ended
      cases future with
      | pending => cases gave
      | cancelled => exact absurd waits (sound.cancelled caller.fut isFuture i caller here)
      | finished given =>
        have isGiven : given = o := by
          have whole : (if caller.cancelled then .exception .cancelledError else given) = outcome := Option.some.inj gave
          rw [if_neg (by simpa [Caller.ends] using uncancelled)] at whole
          exact whole.trans sameOutcome
        subst isGiven
        obtain ⟨l,leader,there,leads,isFut,leaderEnded,quiet⟩ := sound.finished caller.fut given isFuture
        refine ⟨l,leader,getElem?_set_of_ended here running there leaderEnded,leads,isFut,
          sound.sameKey l i leader caller there here isFut,leaderEnded,fun isCancelled => ?_⟩
        by_contra cancelled
        exact quiet isCancelled (by simpa using cancelled) i caller here waits
    · exact served_of_set sound here running there ended uncancelled

theorem Sound.step (undisturbed : Undisturbed w event) (stepped : step w event = some next) :
    Sound next := by
  cases event with
  | call key =>
    obtain rfl := Option.some.inj stepped
    exact sound.call undisturbed
  | finish i outcome =>
    simp only [SingleFlight.step] at stepped
    split at stepped
    · rename_i caller here
      split at stepped
      · rename_i flies
        obtain rfl := Option.some.inj stepped
        exact sound.finish here flies undisturbed
      · contradiction
    · contradiction
  | cancel i =>
    simp only [SingleFlight.step] at stepped
    split at stepped
    · rename_i caller here
      split at stepped
      · rename_i running
        obtain rfl := Option.some.inj stepped
        exact sound.cancel here running undisturbed
      · contradiction
    · contradiction
  | resume i =>
    simp only [SingleFlight.step] at stepped
    split at stepped
    · rename_i caller here
      split at stepped
      · rename_i follower
        split at stepped
        · rename_i outcome woken
          obtain rfl := Option.some.inj stepped
          exact sound.resume here follower.1 follower.2 woken
        · contradiction
      · contradiction
    · contradiction

theorem sound_run (undisturbed : UndisturbedRun w events) (ran : run w events = some next) :
    Sound next := by
  induction events generalizing w with
  | nil => exact Option.some.inj ran ▸ sound
  | cons event events ih =>
    obtain ⟨middle,stepped,rest⟩ := Option.bind_eq_some_iff.mp ran
    exact ih (sound.step undisturbed.1 stepped) (undisturbed.2 middle stepped) rest

end

instance decidableUndisturbedRun [DecidableEq α] :
    (w : Flights α) → (events : List (Event α)) → Decidable (UndisturbedRun w events)
  | _, [] => isTrue trivial
  | w, event :: events =>
    have : ∀ next, Decidable (UndisturbedRun next events) := fun next => decidableUndisturbedRun next events
    have : Decidable (Undisturbed w event) := match event with
      | .call key => inferInstanceAs (Decidable (∀ fut ∈ w.inFlight.get? key, w.futures[fut]? ≠ some .cancelled))
      | .finish i outcome => inferInstanceAs (Decidable (∀ caller ∈ w.callers[i]?, caller.cancelled = true →
          outcome = .exception .cancelledError → ¬Awaited w caller.fut none))
      | .cancel i => inferInstanceAs (Decidable (∀ caller ∈ w.callers[i]?, caller.leader = false →
          w.futures[caller.fut]? = some .pending → ¬Awaited w caller.fut (some i)))
      | .resume _ => isTrue trivial
    inferInstanceAs (Decidable (Undisturbed w event ∧ ∀ next ∈ step w event, UndisturbedRun next events))

/-- The leader is cancelled and swallows it, a follower is cancelled after the result is there. -/
def swallowed : List (Event Nat) :=
  [.call "k",.call "k",.call "k",.cancel 0,.finish 0 (.result 5),.cancel 2,.resume 1,.resume 2]

/-- A leader that is cancelled hands its `CancelledError` to those who wait. -/
example : ∃ w, run start [.call "k",.call "k",.cancel 0,.finish 0 (.exception .cancelledError),.resume 1] = some w ∧
    w.callers.map (fun caller : Caller Nat => (caller.cancelled,caller.ended))
      = [(true,some (.exception .cancelledError)),(false,some (.exception .cancelledError))] := ⟨_,rfl,rfl⟩

end Vigile.SingleFlight
