import Mathlib.Data.List.Sort
import Vigile.Binary64
import Vigile.LeastSquares

/-! The master's forecast of when a disk is full: level shifts taken out of the history by the quartiles of its
differences, and a line through what is left. -/
namespace Vigile.DiskForecast

structure Snapshot where
  collectedAt : ℚ
  diskUsedBytes : ℤ
  deriving DecidableEq

/-- `1024**3` -/
def gb : ℚ := 1024 ^ 3

/-- Python's `round` of a number, to the even one where two are as near. -/
def round (q : ℚ) : ℤ := if q < 0 then -Binary64.nearest (-q) else Binary64.nearest q

def rawGb (snapshots : List Snapshot) : List ℚ := snapshots.map fun s => s.diskUsedBytes / gb

/-- From each to the next one. -/
def deltas : List ℚ → List ℚ
  | x :: y :: rest => (y - x) :: deltas (y :: rest)
  | _ => []

structure Fences where
  lower : ℚ
  upper : ℚ
  deriving DecidableEq

def Fences.inlier (f : Fences) (delta : ℚ) : Bool := f.lower ≤ delta ∧ delta ≤ f.upper

def fences (ds : List ℚ) : Fences :=
  let sortedDeltas := ds.insertionSort (· ≤ ·)
  let n := sortedDeltas.length
  let q1 := sortedDeltas.getD ((n + 3) / 4 - 1) 0
  let q3 := sortedDeltas.getD ((3 * n + 3) / 4 - 1) 0
  let iqr := q3 - q1
  ⟨q1 - 3 / 2 * iqr,q3 + 3 / 2 * iqr⟩

/-- The series rebuilt backwards from its last value, without the differences that are outliers. -/
def normalized (f : Fences) : List ℚ → List ℚ
  | x :: y :: rest =>
    let later := normalized f (y :: rest)
    (if f.inlier (y - x) then later.headD 0 - (y - x) else later.headD 0) :: later
  | series => series

def rebuilt (snapshots : List Snapshot) : List Snapshot :=
  let series := rawGb snapshots
  List.zipWith (fun s value => {s with diskUsedBytes := round (value * gb)}) snapshots
    (normalized (fences (deltas series)) series)

def days (snapshots : List Snapshot) : List ℚ :=
  match snapshots with
  | [] => []
  | first :: _ => snapshots.map fun s => (s.collectedAt - first.collectedAt) / 86400

/-- GB per day, of the rebuilt snapshots. -/
def rawSlope (snapshots : List Snapshot) : ℚ :=
  let x := days snapshots
  let y := rawGb snapshots
  let denominator := LeastSquares.spread x
  if 1 / 10 ^ 6 < |denominator| then LeastSquares.cross x y / denominator else 0

def rSquared (snapshots : List Snapshot) : ℚ :=
  let x := days snapshots
  let y := rawGb snapshots
  let n : ℚ := snapshots.length
  let slope := rawSlope snapshots
  let yMean := y.sum / n
  let ssTot := (y.map fun yi => (yi - yMean) ^ 2).sum
  let ssRes := (List.zipWith (fun xi yi => (yi - (slope * xi + (y.sum - slope * x.sum) / n)) ^ 2) x y).sum
  if 1 / 10 ^ 9 < ssTot then 1 - ssRes / ssTot else 0

def timespan (snapshots : List Snapshot) : ℚ :=
  if 2 ≤ snapshots.length then
    (snapshots.map (·.collectedAt)).getLastD 0 - (snapshots.map (·.collectedAt)).headD 0
  else 0

def outliers (snapshots : List Snapshot) : List ℚ :=
  let ds := deltas (rawGb snapshots)
  ds.filter fun delta => !(fences ds).inlier delta

inductive Severity where
  | ok
  | warning
  | critical
  deriving DecidableEq

inductive Confidence where
  | none
  | low
  | medium
  | high
  deriving DecidableEq

/-- The insight, by its headline; numbers are not rounded for display. -/
inductive Insight where
  | collecting (hoursCollected : ℤ)
  | filtered
  | freeing (growthGbPerDay rSquared : ℚ) (confidence : Confidence)
  | fluctuating (growthGbPerDay rSquared : ℚ)
  | stable (growthGbPerDay rSquared : ℚ) (confidence : Confidence)
  | saturationToday (growthGbPerDay daysLeft : ℚ) (hoursCollected : ℤ)
  | saturation (growthGbPerDay : ℚ) (daysLeft actionBeforeDays : ℤ) (severity : Severity) (confidence : Confidence)
  deriving DecidableEq

def severity (daysLeft : ℚ) : Severity := if daysLeft < 14 then .critical else if daysLeft < 60 then .warning else .ok

def decision (freeGb span slope rSquared : ℚ) : Insight :=
  let confidence : Confidence := if 86400 ≤ span then .high else .medium
  if slope < -1 / 20 then .freeing slope rSquared confidence
  else
    let growth := max 0 slope
    if rSquared < 1 / 2 ∧ 21600 ≤ span ∧ 1 / 20 < growth then .fluctuating growth rSquared
    else if growth ≤ 1 / 100 then .stable growth rSquared confidence
    else
      let daysLeft := freeGb / growth
      let daysInt := max 1 (round daysLeft)
      if span < 86400 ∧ daysLeft < 1 then .saturationToday growth daysLeft ⌊span / 3600⌋
      else .saturation growth daysInt (max 1 (daysInt - 2)) (severity daysLeft) confidence

def calculateDiskInsight (diskTotal diskUsed : ℤ) (snapshots : List Snapshot) : Option Insight :=
  if diskTotal = 0 then none
  else
    let span := timespan snapshots
    if span < 21600 ∨ snapshots.length < 4 then some (.collecting ⌊span / 3600⌋)
    else
      let ds := deltas (rawGb snapshots)
      if (ds.filter (fences ds).inlier).length < 3 then some .filtered
      else some (decision ((diskTotal - diskUsed) / gb) span (rawSlope (rebuilt snapshots)) (rSquared (rebuilt snapshots)))

/-! What it is for -/

structure LinearHistory where
  snapshots : List Snapshot
  offset : ℚ
  rate : ℚ
  increasing : (snapshots.map (·.collectedAt)).Pairwise (· < ·)
  enough : 4 ≤ snapshots.length
  long : 21600 ≤ timespan snapshots
  onLine : ∀ s ∈ snapshots, (s.diskUsedBytes : ℚ) = offset + rate * s.collectedAt

namespace LinearHistory

/-- The slope of the line, in GB per day. -/
def slope (h : LinearHistory) : ℚ := h.rate * 86400 / gb

/-- The gaps between the samples, with the sign of the growth. -/
def gaps (h : LinearHistory) : List ℚ :=
  (deltas (h.snapshots.map (·.collectedAt))).map fun gap => if 0 < h.rate then gap else -gap

/-- The line rises or falls nowhere, or no gap between samples is an outlier among the gaps. -/
def Regular (h : LinearHistory) : Prop := h.rate = 0 ∨ ∀ gap ∈ h.gaps, (fences h.gaps).inlier gap = true

instance (h : LinearHistory) : Decidable h.Regular := inferInstanceAs (Decidable (_ ∨ _))

end LinearHistory

variable {snapshots : List Snapshot} {f : Fences} {xs ds series : List ℚ}

theorem deltas_map (offset slope : ℚ) (xs : List ℚ) :
    deltas (xs.map fun x => offset + slope * x) = (deltas xs).map (slope * ·) := by
  induction xs with
  | nil => rfl
  | cons x xs ih =>
    cases xs with
    | nil => rfl
    | cons y rest =>
      simp only [List.map_cons,deltas] at ih ⊢
      rw [ih]
      congr 1
      ring

/-- Fences grow with what they are taken of. -/
theorem fences_scale {k : ℚ} (positive : 0 < k) (ds : List ℚ) :
    fences (ds.map (k * ·)) = ⟨k * (fences ds).lower,k * (fences ds).upper⟩ := by
  have sorted : (ds.map (k * ·)).insertionSort (· ≤ ·) = (ds.insertionSort (· ≤ ·)).map (k * ·) :=
    (List.map_insertionSort (· ≤ ·) (· ≤ ·) (k * ·) ds fun a _ b _ => (mul_le_mul_iff_right₀ positive).symm).symm
  have entry (l : List ℚ) (i : Nat) : (l.map (k * ·)).getD i 0 = k * l.getD i 0 := by
    rw [List.getD_eq_getElem?_getD,List.getD_eq_getElem?_getD,List.getElem?_map]
    cases l[i]? <;> simp
  unfold fences
  simp only [sorted,entry,List.length_map,Fences.mk.injEq]
  constructor <;> ring

theorem inlier_scale {k : ℚ} (positive : 0 < k) (ds : List ℚ) (d : ℚ) :
    (fences (ds.map (k * ·))).inlier (k * d) = (fences ds).inlier d := by
  rw [fences_scale positive]
  unfold Fences.inlier
  simp only [mul_le_mul_iff_right₀ positive]

theorem normalized_clean (clean : ∀ d ∈ deltas series, f.inlier d = true) : normalized f series = series := by
  induction series with
  | nil => rfl
  | cons x series ih =>
    cases series with
    | nil => rfl
    | cons y rest =>
      have later := ih fun d member => clean d (List.mem_cons_of_mem _ member)
      have first := clean (y - x) List.mem_cons_self
      simp [normalized,later,first]

theorem round_intCast (n : ℤ) : round n = n := by
  unfold round
  by_cases negative : (n : ℚ) < 0
  · have below : n < 0 := by exact_mod_cast negative
    obtain ⟨k,rfl⟩ : ∃ k : ℕ, n = -k := ⟨n.natAbs,by omega⟩
    rw [if_pos negative,Int.cast_neg,neg_neg,Int.cast_natCast,Binary64.nearest_natCast]
  · have above : 0 ≤ n := by
      have := not_lt.mp negative
      exact_mod_cast this
    obtain ⟨k,rfl⟩ := Int.eq_ofNat_of_zero_le above
    rw [if_neg negative,Int.cast_natCast,Binary64.nearest_natCast]

theorem outliers_eq_nil : outliers snapshots = [] ↔
    ∀ d ∈ deltas (rawGb snapshots), (fences (deltas (rawGb snapshots))).inlier d = true := by
  unfold outliers
  simp [Bool.not_eq_true']

/-- Without outliers the snapshots stay as they are. -/
theorem rebuilt_clean (clean : outliers snapshots = []) : rebuilt snapshots = snapshots := by
  unfold rebuilt
  dsimp only
  rw [normalized_clean (outliers_eq_nil.mp clean)]
  have whole : gb ≠ 0 := by norm_num [gb]
  unfold rawGb
  rw [List.zipWith_map_right,List.zipWith_self]
  refine (List.map_congr_left fun s _ => ?_).trans (List.map_id _)
  rw [div_mul_cancel₀ _ whole,round_intCast]
  rfl

theorem rawGb_line (h : LinearHistory) :
    rawGb h.snapshots = (h.snapshots.map (·.collectedAt)).map fun t => h.offset / gb + h.rate / gb * t := by
  unfold rawGb
  rw [List.map_map]
  refine List.map_congr_left fun s member => ?_
  rw [h.onLine s member]
  simp only [Function.comp_apply]
  ring

theorem deltas_line (h : LinearHistory) :
    deltas (rawGb h.snapshots) = (deltas (h.snapshots.map (·.collectedAt))).map (h.rate / gb * ·) := by
  rw [rawGb_line,deltas_map]

theorem gb_pos : 0 < gb := by norm_num [gb]

/-- Constant lists have no outliers. -/
theorem inlier_zero (n : Nat) : (fences (List.replicate n 0)).inlier 0 = true := by
  have sorted : (List.replicate n (0 : ℚ)).insertionSort (· ≤ ·) = List.replicate n 0 :=
    List.Pairwise.insertionSort_eq (List.pairwise_replicate.mpr (.inr le_rfl))
  have entry (i : Nat) : (List.replicate n (0 : ℚ)).getD i 0 = 0 := by
    rw [List.getD_eq_getElem?_getD,List.getElem?_replicate]
    split <;> rfl
  unfold fences Fences.inlier
  simp only [sorted,entry]
  simp

/-- No difference is an outlier exactly if the sampling is regular. -/
theorem outliers_iff (h : LinearHistory) : outliers h.snapshots = [] ↔ h.Regular := by
  rw [outliers_eq_nil,deltas_line]
  by_cases flat : h.rate = 0
  · refine iff_of_true (fun d member => ?_) (.inl flat)
    obtain ⟨gap,_,rfl⟩ := List.mem_map.mp member
    have zeros : (deltas (h.snapshots.map (·.collectedAt))).map (h.rate / gb * ·) =
        List.replicate (deltas (h.snapshots.map (·.collectedAt))).length 0 := by
      rw [List.eq_replicate_iff,flat]
      simp
    rw [zeros,flat,zero_div,zero_mul]
    exact inlier_zero _
  · have positive : 0 < |h.rate / gb| := abs_pos.mpr (div_ne_zero flat gb_pos.ne')
    have oriented : (deltas (h.snapshots.map (·.collectedAt))).map (h.rate / gb * ·) =
        h.gaps.map (|h.rate / gb| * ·) := by
      unfold LinearHistory.gaps
      rw [List.map_map]
      refine List.map_congr_left fun gap _ => ?_
      simp only [Function.comp_apply]
      by_cases rising : 0 < h.rate
      · rw [if_pos rising,abs_of_pos (div_pos rising gb_pos)]
      · have falling : h.rate / gb < 0 := div_neg_of_neg_of_pos (lt_of_le_of_ne (not_lt.mp rising) flat) gb_pos
        rw [if_neg rising,abs_of_neg falling]
        ring
    rw [oriented]
    constructor
    · intro clean
      exact .inr fun gap member => (inlier_scale positive h.gaps gap).symm.trans (clean _ (List.mem_map_of_mem member))
    · intro regular d member
      obtain ⟨gap,listed,rfl⟩ := List.mem_map.mp member
      exact (inlier_scale positive h.gaps gap).trans (regular.resolve_left flat gap listed)

/-- A history begins with a snapshot and goes on. -/
theorem history_cons (two : 2 ≤ snapshots.length) : ∃ first rest, snapshots = first :: rest ∧ rest ≠ [] := by
  cases snapshots with
  | nil => exact absurd two (by decide)
  | cons first rest =>
    refine ⟨first,rest,rfl,?_⟩
    rintro rfl
    exact absurd two (by simp)

theorem timespan_split {first : Snapshot} {rest : List Snapshot} (two : 2 ≤ snapshots.length)
    (split : snapshots = first :: rest) (filled : rest ≠ []) :
    timespan snapshots = (rest.getLast filled).collectedAt - first.collectedAt := by
  unfold timespan
  rw [if_pos two,split,List.map_cons,List.headD_cons,List.getLastD_cons,List.getLastD_eq_getLast?,
    List.getLast?_map,List.getLast?_eq_getLast_of_ne_nil filled]
  rfl

/-- Samples that span a quarter of a day have days that differ. -/
theorem spread_days (two : 2 ≤ snapshots.length) (long : 21600 ≤ timespan snapshots) :
    1 / 16 ≤ LeastSquares.spread (days snapshots) := by
  obtain ⟨first,rest,split,filled⟩ := history_cons two
  have places : days snapshots = 0 :: rest.map fun s => (s.collectedAt - first.collectedAt) / 86400 := by
    rw [split]
    simp [days]
  have span := timespan_split two split filled
  have apart := LeastSquares.distance_le_spread (x := (0 : ℚ))
    (List.mem_map_of_mem (f := fun s : Snapshot => (s.collectedAt - first.collectedAt) / 86400) (List.getLast_mem filled))
  rw [span] at long
  have quarter : 1 / 4 ≤ ((rest.getLast filled).collectedAt - first.collectedAt) / 86400 := by
    rw [le_div_iff₀ (by norm_num)]
    linarith
  have square : 1 / 16 ≤ (0 - ((rest.getLast filled).collectedAt - first.collectedAt) / 86400) *
      (0 - ((rest.getLast filled).collectedAt - first.collectedAt) / 86400) := by
    nlinarith
  rw [places]
  exact square.trans apart

theorem two_snapshots (h : LinearHistory) : 2 ≤ h.snapshots.length := (by decide : 2 ≤ 4).trans h.enough

theorem rawGb_days (h : LinearHistory) :
    ∃ offset, rawGb h.snapshots = LeastSquares.line offset h.slope (days h.snapshots) := by
  obtain ⟨first,rest,split,_⟩ := history_cons (two_snapshots h)
  refine ⟨(h.offset + h.rate * first.collectedAt) / gb,?_⟩
  have places : days h.snapshots = h.snapshots.map fun s => (s.collectedAt - first.collectedAt) / 86400 := by
    rw [split]
    rfl
  unfold rawGb LeastSquares.line
  rw [places,List.map_map]
  refine List.map_congr_left fun s member => ?_
  rw [h.onLine s member]
  simp only [Function.comp_apply,LinearHistory.slope]
  ring

theorem rawSlope_line (h : LinearHistory) : rawSlope h.snapshots = h.slope := by
  obtain ⟨offset,onLine⟩ := rawGb_days h
  have wide := spread_days (two_snapshots h) h.long
  have apart : 1 / 10 ^ 6 < |LeastSquares.spread (days h.snapshots)| :=
    lt_of_lt_of_le (by norm_num) (wide.trans (le_abs_self _))
  have filled : LeastSquares.spread (days h.snapshots) ≠ 0 := (lt_of_lt_of_le (by norm_num) wide).ne'
  unfold rawSlope
  dsimp only
  rw [if_pos apart,onLine,LeastSquares.cross_line,mul_div_cancel_right₀ _ filled]

/-- The forecast of a line is its slope exactly if no gap between the samples is an outlier among them. -/
theorem forecast_exact_iff (h : LinearHistory) :
    (outliers h.snapshots = [] ∧ rawSlope (rebuilt h.snapshots) = h.slope) ↔ h.Regular := by
  rw [outliers_iff]
  refine and_iff_left_of_imp fun regular => ?_
  rw [rebuilt_clean ((outliers_iff h).mpr regular),rawSlope_line]

theorem length_deltas (xs : List ℚ) : (deltas xs).length = xs.length - 1 := by
  induction xs with
  | nil => rfl
  | cons x xs ih =>
    cases xs with
    | nil => rfl
    | cons y rest =>
      simp only [deltas,List.length_cons] at ih ⊢
      omega

/-- A line that rises fits itself. -/
theorem rSquared_line (h : LinearHistory) (rising : 1 / 20 < h.slope) : rSquared h.snapshots = 1 := by
  obtain ⟨first,rest,split,filled⟩ := history_cons (two_snapshots h)
  obtain ⟨offset,onLine⟩ := rawGb_days h
  have length : (h.snapshots.length : ℚ) = (days h.snapshots).length := by
    rw [split]
    simp [days]
  have filled_days : ((days h.snapshots).length : ℚ) ≠ 0 := by
    rw [← length,split]
    simp only [List.length_cons]
    positivity
  have varies : 1 / 10 ^ 9 <
      ((rawGb h.snapshots).map fun y => (y - (rawGb h.snapshots).sum / h.snapshots.length) ^ 2).sum := by
    have apart := LeastSquares.distance_le_variation (x := first.diskUsedBytes / gb)
      ((rawGb h.snapshots).sum / h.snapshots.length)
      (List.mem_map_of_mem (f := fun s : Snapshot => s.diskUsedBytes / gb) (List.getLast_mem filled))
    rw [show first.diskUsedBytes / gb :: _ = rawGb h.snapshots from (congrArg rawGb split).symm] at apart
    refine lt_of_lt_of_le ?_ apart
    have span := h.long
    rw [timespan_split (two_snapshots h) split filled] at span
    rw [h.onLine first (by simp [split]),h.onLine _ (by simp [split])]
    have far : (h.offset + h.rate * first.collectedAt) / gb - (h.offset + h.rate * (rest.getLast filled).collectedAt) / gb =
        -(h.slope * (((rest.getLast filled).collectedAt - first.collectedAt) / 86400)) := by
      unfold LinearHistory.slope
      ring
    have grown : 1 / 20 * (1 / 4) ≤ h.slope * (((rest.getLast filled).collectedAt - first.collectedAt) / 86400) :=
      mul_le_mul rising.le (by linarith) (by norm_num) (by linarith)
    rw [far,neg_sq]
    nlinarith
  unfold rSquared
  dsimp only
  rw [if_pos varies,rawSlope_line,length]
  rw [onLine,LeastSquares.residues_line _ _ filled_days,zero_div,sub_zero]

/-- A disk that fills along a line, regularly sampled, is full after its free space divided by the slope. -/
theorem calculateDiskInsight_line (h : LinearHistory) {diskTotal : ℤ} (diskUsed : ℤ) (there : diskTotal ≠ 0)
    (regular : h.Regular) (rising : 1 / 100 < h.slope) : calculateDiskInsight diskTotal diskUsed h.snapshots =
      some (let daysLeft := (diskTotal - diskUsed) / gb / h.slope
        if timespan h.snapshots < 86400 ∧ daysLeft < 1 then
          .saturationToday h.slope daysLeft ⌊timespan h.snapshots / 3600⌋
        else .saturation h.slope (max 1 (round daysLeft)) (max 1 (max 1 (round daysLeft) - 2)) (severity daysLeft)
          (if 86400 ≤ timespan h.snapshots then .high else .medium)) := by
  have clean := (outliers_iff h).mpr regular
  have used : ¬(timespan h.snapshots < 21600 ∨ h.snapshots.length < 4) :=
    not_or.mpr ⟨not_lt.mpr h.long,not_lt.mpr h.enough⟩
  have kept : (deltas (rawGb h.snapshots)).filter (fences (deltas (rawGb h.snapshots))).inlier =
      deltas (rawGb h.snapshots) := List.filter_eq_self.mpr (outliers_eq_nil.mp clean)
  have many : ¬(deltas (rawGb h.snapshots)).length < 3 := by
    have enough := h.enough
    rw [length_deltas,rawGb,List.length_map]
    omega
  have fits : ¬(rSquared h.snapshots < 1 / 2 ∧ 21600 ≤ timespan h.snapshots ∧ 1 / 20 < h.slope) := by
    rintro ⟨loose,_,steep⟩
    rw [rSquared_line h steep] at loose
    norm_num at loose
  unfold calculateDiskInsight
  dsimp only
  rw [if_neg there,if_neg used,kept,if_neg many,rebuilt_clean clean,rawSlope_line]
  unfold decision
  dsimp only
  rw [if_neg (by linarith),max_eq_right (by linarith : 0 ≤ h.slope),if_neg fits,if_neg (not_le.mpr rising)]

/-- A GB each two hours. -/
def steady : LinearHistory where
  snapshots := [⟨0,0⟩,⟨7200,1024 ^ 3⟩,⟨14400,2 * 1024 ^ 3⟩,⟨21600,3 * 1024 ^ 3⟩]
  offset := 0
  rate := 1024 ^ 3 / 7200
  increasing := by norm_num
  enough := by simp
  long := by norm_num [timespan]
  onLine s member := by
    simp only [List.mem_cons,List.not_mem_nil,or_false] at member
    rcases member with rfl | rfl | rfl | rfl <;> norm_num

theorem calculateDiskInsight_steady :
    calculateDiskInsight (8 * 1024 ^ 3) (3 * 1024 ^ 3) steady.snapshots = some (.saturationToday 12 (5 / 12) 6) :=
  (calculateDiskInsight_line steady _ (by decide) (by decide +kernel) (by decide +kernel)).trans (by decide +kernel)

/-- A sample each hour for four hours, and one after four more; a GB each hour. -/
def gapped : LinearHistory where
  snapshots := [⟨0,0⟩,⟨3600,1024 ^ 3⟩,⟨7200,2 * 1024 ^ 3⟩,⟨10800,3 * 1024 ^ 3⟩,⟨14400,4 * 1024 ^ 3⟩,⟨28800,8 * 1024 ^ 3⟩]
  offset := 0
  rate := 1024 ^ 3 / 3600
  increasing := by
    norm_num
  enough := by
    simp
  long := by
    norm_num [timespan]
  onLine s member := by
    simp only [List.mem_cons,List.not_mem_nil,or_false] at member
    rcases member with rfl | rfl | rfl | rfl | rfl | rfl <;> norm_num

/-- The last gap is taken for a level shift. -/
theorem gapped_unsound : ¬(outliers gapped.snapshots = [] ∧ rawSlope (rebuilt gapped.snapshots) = gapped.slope) := by
  rintro ⟨clean,_⟩
  have found : outliers gapped.snapshots = [4] := by
    decide +kernel
  rw [found] at clean
  exact absurd clean (List.cons_ne_nil _ _)

end Vigile.DiskForecast
