import Mathlib.Algebra.Order.Ring.Rat
import Vigile.OrderedMap
import Vigile.SlidingWindow

/-! `RateLimiter`: requests counted per key in a sliding window. The lock is never held over
an `await`, so that each call is one step. -/
namespace Vigile.RateLimiter

open SlidingWindow

inductive Call where
  | isAllowed (key : String) (maxRequests : Option Int)
  | cleanupExpired
  deriving DecidableEq

abbrev Buckets := OrderedMap String (List ℚ)

/-- What a bucket holds; a missing one holds nothing. -/
def bucket {ι : Type} (buckets : OrderedMap String (List ι)) (key : String) : List ι :=
  (buckets.get? key).getD []

section

variable {ι : Type} {buckets : OrderedMap String (List ι)} {key another : String}

@[simp] theorem bucket_set_self (q : List ι) : bucket (buckets.set key q) key = q := by simp [bucket]

theorem bucket_set_of_ne (differ : another ≠ key) (q : List ι) :
    bucket (buckets.set key q) another = bucket buckets another := by
  simp [bucket,OrderedMap.get?_set_of_ne differ]

/-- A sweep leaves a bucket as it is or drops it. -/
theorem bucket_filter (keep : String → List ι → Bool) :
    bucket (buckets.filter keep) key = bucket buckets key ∨
    bucket (buckets.filter keep) key = [] ∧ keep key (bucket buckets key) = false := by
  unfold bucket
  rw [OrderedMap.get?_filter]
  cases buckets.get? key with
  | none => simp
  | some q => cases kept : keep key q <;> simp [Option.filter,kept]

/-- A sweep may drop the buckets whose last item is too old. -/
theorem tracks_filter {stamp : ι → ℚ} {window now : ℚ} {whole : List ι} (keep : String → List ι → Bool)
    (tracks : Tracks stamp window now (bucket buckets key) whole)
    (old : keep key (bucket buckets key) = false →
      ∀ item ∈ (bucket buckets key).getLast?, stamp item ≤ now - window) :
    Tracks stamp window now (bucket (buckets.filter keep) key) whole := by
  rcases bucket_filter keep with left | ⟨dropped,isOld⟩
  · rwa [left]
  · rw [dropped]
    exact tracks.forget (old isOld)

end

section
-- what the constructor was given
variable (maxRequests : Int) (window : ℚ)

def isAllowed (buckets : Buckets) (now : ℚ) (key : String) (limit : Option Int) : Buckets × Bool :=
  let cutoff := now - window
  let q := (bucket buckets key).dropWhile (· ≤ cutoff)
  if limit.getD maxRequests ≤ q.length then (buckets.set key q,false)
  else (buckets.set key (q ++ [now]),true)

def cleanupExpired (buckets : Buckets) (now : ℚ) : Buckets :=
  let cutoff := now - window
  buckets.filter fun _ q =>
    match q.getLast? with
    | none => false
    | some last => cutoff < last

def step (buckets : Buckets) (now : ℚ) : Call → Buckets × Option Bool
  | .isAllowed key limit =>
    let (buckets,answer) := isAllowed maxRequests window buckets now key limit
    (buckets,some answer)
  | .cleanupExpired => (cleanupExpired window buckets now,none)

structure Record where
  now : ℚ
  call : Call
  answer : Option Bool
  deriving DecidableEq

def run (buckets : Buckets) : List (ℚ × Call) → List Record
  | [] => []
  | (now,call) :: calls =>
    let (buckets,answer) := step maxRequests window buckets now call
    ⟨now,call,answer⟩ :: run buckets calls

def Record.allowedFor (key : String) : Record → Option ℚ
  | ⟨now,.isAllowed other _,some true⟩ => if other = key then some now else none
  | _ => none

def allowedTimes (key : String) (past : List Record) : List ℚ := past.filterMap (Record.allowedFor key)

def allowedIn (now : ℚ) (key : String) (past : List Record) : Nat :=
  (allowedTimes key past).countP fun time => now - window < time ∧ time ≤ now

structure Sound (now : ℚ) (past : List Record) (buckets : Buckets) : Prop where
  reached : ∀ key, ∀ time ∈ allowedTimes key past, time ≤ now
  tracks : ∀ key, Tracks id window now (bucket buckets key) (allowedTimes key past)

variable {maxRequests window} {buckets other : Buckets} {now moment : ℚ} {past : List Record}
  {key : String} {limit : Option Int} {calls : List (ℚ × Call)}

theorem sound_start (now : ℚ) : Sound window now [] .empty :=
  ⟨by simp [allowedTimes],fun _ => Tracks.nil⟩

theorem Sound.mono (sound : Sound window now past buckets) (after : now ≤ moment) :
    Sound window moment past buckets :=
  ⟨fun key time member => (sound.reached key time member).trans after,fun key => (sound.tracks key).mono after⟩

/-- The eviction leaves what is younger than the window. -/
theorem Sound.evicted (sound : Sound window now past buckets) (key : String) :
    (bucket buckets key).dropWhile (· ≤ now - window) = live id window now (bucket buckets key) :=
  dropWhile_eq_live (sound.tracks key).sorted

theorem Sound.length_evicted (sound : Sound window now past buckets) (key : String) :
    ((bucket buckets key).dropWhile (· ≤ now - window)).length = allowedIn window now key past := by
  have inPast : ∀ time ∈ allowedTimes key past, (now - window < time ↔ now - window < time ∧ time ≤ now) :=
    fun time member => by simp [sound.reached key time member]
  rw [sound.evicted,(sound.tracks key).kept now le_rfl]
  unfold live allowedIn
  rw [List.countP_eq_length_filter]
  exact congrArg List.length (List.filter_congr fun time member => by simpa using inPast time member)

theorem allowedTimes_append (record : Record) :
    allowedTimes key (past ++ [record]) = allowedTimes key past ++ (record.allowedFor key).toList := by
  cases allowed : record.allowedFor key <;> simp [allowedTimes,allowed]

section
variable (sound : Sound window now past buckets)
include sound

/-- One bucket is written, with the times that the calls of its key were allowed at. -/
theorem Sound.put {record : Record} {q : List ℚ}
    (own : ∀ another time, record.allowedFor another = some time → another = key ∧ time = now)
    (tracks : Tracks id window now q (allowedTimes key (past ++ [record]))) :
    Sound window now (past ++ [record]) (buckets.set key q) := by
  constructor
  · intro another time member
    rw [allowedTimes_append,List.mem_append,Option.mem_toList] at member
    rcases member with before | here
    · exact sound.reached another time before
    · exact le_of_eq (own another time here).2
  · intro another
    rcases eq_or_ne another key with rfl | differ
    · simpa only [bucket_set_self]
    · have none : record.allowedFor another = none :=
        Option.eq_none_iff_forall_ne_some.mpr fun time allowed => differ (own another time allowed).1
      simpa [bucket_set_of_ne differ,allowedTimes_append,none] using sound.tracks another

theorem Sound.isAllowed (maxRequests : Int) (key : String)
    (limit : Option Int) :
    Sound window now
      (past ++ [⟨now,.isAllowed key limit,some (isAllowed maxRequests window buckets now key limit).2⟩])
      (isAllowed maxRequests window buckets now key limit).1 := by
  have evicted : Tracks id window now ((bucket buckets key).dropWhile (· ≤ now - window)) (allowedTimes key past) :=
    sound.evicted key ▸ (sound.tracks key).live
  unfold RateLimiter.isAllowed
  dsimp only
  split
  · refine sound.put (fun another time allowed => by simp [Record.allowedFor] at allowed) ?_
    simpa [allowedTimes_append,Record.allowedFor] using evicted
  · refine sound.put (fun another time allowed => ?_) ?_
    · simpa [Record.allowedFor,eq_comm] using allowed
    · simpa [allowedTimes_append,Record.allowedFor] using evicted.push rfl

/-- A bucket that the sweep drops holds nothing that would ever count again. -/
theorem Sound.cleanupExpired :
    Sound window now (past ++ [⟨now,.cleanupExpired,none⟩]) (cleanupExpired window buckets now) := by
  have same : ∀ key, allowedTimes key (past ++ [⟨now,.cleanupExpired,none⟩]) = allowedTimes key past :=
    fun key => by simp [allowedTimes_append,Record.allowedFor]
  refine ⟨by simpa only [same] using sound.reached,fun key => same key ▸ ?_⟩
  refine tracks_filter _ (sound.tracks key) fun old time isLast => ?_
  rw [Option.mem_def] at isLast
  simpa [isLast] using old

theorem Sound.step (call : Call) :
    Sound window now (past ++ [⟨now,call,(step maxRequests window buckets now call).2⟩])
      (step maxRequests window buckets now call).1 := by
  cases call with
  | isAllowed key limit => exact sound.isAllowed maxRequests key limit
  | cleanupExpired => exact sound.cleanupExpired

/-- The answer is a matter of the calls allowed before, whatever else is in the buckets. -/
theorem Sound.answer (key : String) (limit : Option Int) :
    (RateLimiter.isAllowed maxRequests window buckets now key limit).2
      = decide ((allowedIn window now key past : Int) < limit.getD maxRequests) := by
  unfold RateLimiter.isAllowed
  dsimp only
  rw [sound.length_evicted]
  split <;> simp <;> omega

/-- Every answer of a run is the count over the records before it. -/
theorem Sound.run (inOrder : (now :: calls.map Prod.fst).Pairwise (· ≤ ·))
    {i : Nat} {moment : ℚ} {answer : Option Bool}
    (here : (RateLimiter.run maxRequests window buckets calls)[i]? = some ⟨moment,.isAllowed key limit,answer⟩) :
    answer = some (decide ((allowedIn window moment key
      (past ++ (RateLimiter.run maxRequests window buckets calls).take i) : Int) < limit.getD maxRequests)) := by
  induction calls generalizing now past buckets i with
  | nil => simp [RateLimiter.run] at here
  | cons call calls ih =>
    obtain ⟨time,call⟩ := call
    obtain ⟨below,tail⟩ := List.pairwise_cons.mp inOrder
    have reached : Sound window time past buckets := sound.mono (below time (by simp))
    cases i with
    | zero =>
      simp only [RateLimiter.run,List.getElem?_cons_zero,Option.some.injEq,Record.mk.injEq] at here
      obtain ⟨rfl,rfl,rfl⟩ := here
      simp [RateLimiter.step,reached.answer]
    | succ i =>
      have next := ih (reached.step call) tail (by simpa only [RateLimiter.run,List.getElem?_cons_succ] using here)
      rwa [List.append_assoc] at next

/-- Two limiters that know the same calls answer alike, one that is swept and one that is not. -/
theorem Sound.unswept {unswept : List Record}
    (bare : Sound window now unswept other) (agree : ∀ key, allowedTimes key past = allowedTimes key unswept)
    (inOrder : (now :: calls.map Prod.fst).Pairwise (· ≤ ·)) :
    RateLimiter.run maxRequests window other (calls.filter fun call => call.2 ≠ .cleanupExpired)
      = (RateLimiter.run maxRequests window buckets calls).filter fun record => record.call ≠ .cleanupExpired := by
  induction calls generalizing now past buckets unswept other with
  | nil => rfl
  | cons call calls ih =>
    obtain ⟨time,call⟩ := call
    obtain ⟨below,tail⟩ := List.pairwise_cons.mp inOrder
    have after : now ≤ time := below time (by simp)
    have reached := sound.mono after
    have bareReached := bare.mono after
    cases call with
    | cleanupExpired =>
      have next := ih reached.cleanupExpired bareReached
        (fun key => by simp [allowedTimes_append,Record.allowedFor,agree]) tail
      simpa [RateLimiter.run,RateLimiter.step] using next
    | isAllowed key limit =>
      have same : (RateLimiter.isAllowed maxRequests window other time key limit).2
          = (RateLimiter.isAllowed maxRequests window buckets time key limit).2 := by
        rw [reached.answer,bareReached.answer]
        simp [allowedIn,agree]
      have next := ih (reached.isAllowed maxRequests key limit)
        (bareReached.isAllowed maxRequests key limit)
        (fun another => by simp [allowedTimes_append,agree,same]) tail
      simpa [RateLimiter.run,RateLimiter.step,same] using next

end

/-- At times that never go back the limiter is exact: a call is allowed where fewer calls of its
key than its limit were allowed in the window, and the sweep changes no answer. -/
theorem isAllowed_exact (maxRequests : Int) (window : ℚ) (calls : List (ℚ × Call))
    (inOrder : (calls.map Prod.fst).Pairwise (· ≤ ·)) :
    (∀ i now key limit answer,
      (run maxRequests window .empty calls)[i]? = some ⟨now,.isAllowed key limit,answer⟩ →
      (answer = some true ↔
        (allowedIn window now key ((run maxRequests window .empty calls).take i) : Int)
          < limit.getD maxRequests)) ∧
    run maxRequests window .empty (calls.filter fun call => call.2 ≠ .cleanupExpired)
      = (run maxRequests window .empty calls).filter fun record => record.call ≠ .cleanupExpired := by
  cases calls with
  | nil => exact ⟨fun i now key limit answer here => by simp [run] at here,rfl⟩
  | cons call calls =>
    have started := pairwise_head_cons inOrder (List.cons_ne_nil _ _)
    constructor
    · intro i now key limit answer here
      have exact := (sound_start call.1).run started here
      simp [exact]
    · exact (sound_start call.1).unswept (sound_start call.1) (fun _ => rfl) started

/-- Two calls at the same moment and one a window later, with a sweep between. -/
theorem isAllowed_exact_window :
    let calls : List (ℚ × Call) := [(0,.isAllowed "a" (some 1)),(0,.isAllowed "a" (some 1)),(60,.cleanupExpired),
      (60,.isAllowed "a" none)]
    (run 5 60 .empty calls).map Record.answer = [some true,some false,none,some true] ∧
    ((∀ i now key limit answer,
      (run 5 60 .empty calls)[i]? = some ⟨now,.isAllowed key limit,answer⟩ →
      (answer = some true ↔ (allowedIn 60 now key ((run 5 60 .empty calls).take i) : Int) < limit.getD 5)) ∧
    run 5 60 .empty (calls.filter fun call => call.2 ≠ .cleanupExpired)
      = (run 5 60 .empty calls).filter fun record => record.call ≠ .cleanupExpired) :=
  ⟨by decide +kernel,isAllowed_exact 5 60 _ (by decide +kernel)⟩

end

end Vigile.RateLimiter
