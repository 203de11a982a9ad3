import Mathlib.Data.List.GetD
import Vigile.DiskForecast
import Vigile.OrderedMap

/-! The frontend's estimate of when a disk is full, and where it agrees with the master's forecast. -/
namespace Vigile.DiskSaturation

open DiskForecast (Snapshot Fences Confidence deltas normalized rawGb rebuilt rawSlope days timespan gb)

structure DiskMount where
  mountPoint : String
  usedBytes : ℤ
  totalBytes : ℤ

/-- A snapshot of the history, with its time in seconds if it has any. -/
structure Entry where
  collectedAt : Option ℚ
  disks : List DiskMount

structure Point where
  ts : ℚ
  usedBytes : ℤ
  totalBytes : ℤ
  deriving DecidableEq

abbrev ByMount : Type := OrderedMap String (List Point)

def addDisk (ts : ℚ) (byMount : ByMount) (disk : DiskMount) : ByMount :=
  if disk.mountPoint = "" then byMount
  else
    let point : Point := ⟨ts,disk.usedBytes,disk.totalBytes⟩
    byMount.set disk.mountPoint ((byMount.get? disk.mountPoint).getD [] ++ [point])

def addEntry (byMount : ByMount) (entry : Entry) : ByMount :=
  let tsMs := entry.collectedAt.getD 0 * 1000
  if tsMs = 0 then byMount else entry.disks.foldl (addDisk tsMs) byMount

def grouped (history : List Entry) : ByMount := history.foldl addEntry .empty

def sortedPoints (points : List Point) : List Point := points.mergeSort fun a b => a.ts ≤ b.ts

def deduped : List Point → List Point
  | p :: q :: rest => if p.ts = q.ts then deduped (q :: rest) else p :: deduped (q :: rest)
  | points => points

/-- The quartiles' positions are rounded down. -/
def fences (ds : List ℚ) : Fences :=
  let sortedDeltas := ds.insertionSort (· ≤ ·)
  let nDeltas := sortedDeltas.length
  let q1 := sortedDeltas.getD (nDeltas / 4) 0
  let q3 := sortedDeltas.getD (min (nDeltas - 1) (3 * nDeltas / 4)) 0
  let iqr := q3 - q1
  ⟨q1 - 3 / 2 * iqr,q3 + 3 / 2 * iqr⟩

def yRaw (points : List Point) : List ℚ := points.map fun p => p.usedBytes / gb

def xDays (points : List Point) : List ℚ :=
  match points with
  | [] => []
  | first :: _ => points.map fun p => (p.ts - first.ts) / 86400000

def timespanMs (points : List Point) : ℚ := (points.map (·.ts)).getLastD 0 - (points.map (·.ts)).headD 0

inductive Analysis where
  | fewPoints
  | short
  | fewDeltas
  | fluctuating
  | degenerate
  | fitted (slope : ℚ)
  deriving DecidableEq

def analysis (points : List Point) : Analysis :=
  let points := deduped (sortedPoints points)
  if points.length < 4 then .fewPoints
  else if timespanMs points / 3600000 < 2 ∨ timespanMs points ≤ 0 then .short
  else
    let ds := deltas (yRaw points)
    if ds.length < 3 then .fewDeltas
    else if (ds.filter (fences ds).inlier).length < 3 then .fluctuating
    else
      let x := xDays points
      let y := normalized (fences ds) (yRaw points)
      let denominator := LeastSquares.spread x
      if |denominator| < 1 / 10 ^ 10 then .degenerate else .fitted (LeastSquares.cross x y / denominator)

structure DiskEstimation where
  daysLeft : Option ℤ
  growthGbPerDay : ℚ
  confidence : Confidence
  hoursCollected : ℚ
  isNoisy : Option Bool

def mathRound (q : ℚ) : ℤ := ⌊q + 1 / 2⌋

/-- The coefficient of determination of the rebuilt series. -/
def rSquared (slope : ℚ) (x y : List ℚ) : ℚ :=
  let n : ℚ := x.length
  let intercept := (y.sum - slope * x.sum) / n
  let ssTot := (y.map fun yi => (yi - y.sum / n) ^ 2).sum
  let ssRes := (List.zipWith (fun xi yi => (yi - (slope * xi + intercept)) ^ 2) x y).sum
  if 1 / 10 ^ 9 < ssTot then 1 - ssRes / ssTot else 0

def fittedEstimation (points : List Point) (slope : ℚ) : DiskEstimation :=
  let span := timespanMs points
  let hours : ℚ := mathRound (span / 3600000 * 10) / 10
  let roundedSlope : ℚ := mathRound (slope * 1000) / 1000
  let y := normalized (fences (deltas (yRaw points))) (yRaw points)
  let isNoisy : Bool := rSquared slope (xDays points) y < 1 / 2 ∧ 21600000 ≤ span ∧ 1 / 20 < |roundedSlope|
  let confidence : Confidence :=
    if isNoisy then .low else if 24 ≤ span / 3600000 then .high else if 6 ≤ span / 3600000 then .medium else .low
  if |slope| ≤ 1 / 10000 then ⟨none,0,confidence,hours,some isNoisy⟩
  else if slope < 0 then ⟨none,roundedSlope,confidence,hours,some isNoisy⟩
  else
    let total : ℚ := (points.map (·.totalBytes)).getLastD 0
    let freeGb := max 0 (total - (yRaw points).getLastD 0 * gb) / gb
    ⟨some (mathRound (if 0 < freeGb then freeGb / slope else 0)),roundedSlope,confidence,hours,some isNoisy⟩

/-- The estimation of a mount; without a line to fit it has none. -/
def estimation (points : List Point) : Option DiskEstimation :=
  let ordered := deduped (sortedPoints points)
  let hours : ℚ := mathRound (timespanMs ordered / 3600000 * 10) / 10
  match analysis points with
  | .fewPoints | .degenerate => none
  | .short => some ⟨none,0,.none,hours,none⟩
  | .fewDeltas => some ⟨none,0,.low,hours,none⟩
  | .fluctuating => some ⟨none,0,.low,hours,some true⟩
  | .fitted slope => some (fittedEstimation ordered slope)

def estimateDiskSaturation (history : List Entry) : List (String × DiskEstimation) :=
  if history.length < 4 then []
  else (grouped history).entries.filterMap fun mount =>
    if mount.2.length < 4 then none else (estimation mount.2).map fun estimate => (mount.1,estimate)

/-! What it is to mirror -/

structure History where
  mountPoint : String
  rows : List (Snapshot × ℤ)
  named : mountPoint ≠ ""
  increasing : (rows.map fun row => row.1.collectedAt).Pairwise (· < ·)
  positive : ∀ row ∈ rows, 0 < row.1.collectedAt
  enough : 4 ≤ rows.length
  long : 21600 ≤ timespan (rows.map Prod.fst)

namespace History

def snapshots (h : History) : List Snapshot := h.rows.map Prod.fst

def entries (h : History) : List Entry :=
  h.rows.map fun row => ⟨some row.1.collectedAt,[⟨h.mountPoint,row.1.diskUsedBytes,row.2⟩]⟩

def differences (h : History) : List ℚ := deltas (rawGb h.snapshots)

/-- What the frontend makes of the mount. -/
def analysed (h : History) : Analysis := analysis (((grouped h.entries).get? h.mountPoint).getD [])

/-- The two take the same differences for outliers, agree whether too few are left, and fit the same line otherwise. -/
def Mirrors (h : History) : Prop :=
  (∀ d ∈ h.differences, (fences h.differences).inlier d = (DiskForecast.fences h.differences).inlier d) ∧
    (h.analysed = .fluctuating ↔ (h.differences.filter (DiskForecast.fences h.differences).inlier).length < 3) ∧
      (3 ≤ (h.differences.filter (DiskForecast.fences h.differences).inlier).length →
        h.analysed = .fitted (rawSlope (rebuilt h.snapshots)))

/-- The number of differences is no multiple of four, or none of them lies between the fences of the one position of the
quartiles and those of the next. -/
def Unambiguous (h : History) : Prop :=
  ¬4 ∣ h.differences.length ∨ ∀ d ∈ h.differences,
    let sorted := h.differences.insertionSort (· ≤ ·)
    let k := h.differences.length / 4
    let fencesAt (i j : Nat) : Fences :=
      ⟨sorted.getD i 0 - 3 / 2 * (sorted.getD j 0 - sorted.getD i 0),sorted.getD j 0 + 3 / 2 * (sorted.getD j 0 - sorted.getD i 0)⟩
    (fencesAt k (3 * k)).inlier d = (fencesAt (k - 1) (3 * k - 1)).inlier d

end History

variable {h : History} {f : Fences} {series : List ℚ}

def pointsOf (rows : List (Snapshot × ℤ)) : List Point :=
  rows.map fun row => ⟨row.1.collectedAt * 1000,row.1.diskUsedBytes,row.2⟩

theorem foldl_addEntry {mount : String} (named : mount ≠ "") (rows : List (Snapshot × ℤ))
    (positive : ∀ row ∈ rows, 0 < row.1.collectedAt) (before : ByMount) :
    (((rows.map fun row => (⟨some row.1.collectedAt,[⟨mount,row.1.diskUsedBytes,row.2⟩]⟩ : Entry)).foldl addEntry
      before).get? mount).getD [] = (before.get? mount).getD [] ++ pointsOf rows := by
  induction rows generalizing before with
  | nil => simp [pointsOf]
  | cons row rows ih =>
    have later := positive row List.mem_cons_self
    rw [List.map_cons,List.foldl_cons,ih fun other member => positive other (List.mem_cons_of_mem _ member)]
    have added : addEntry before ⟨some row.1.collectedAt,[⟨mount,row.1.diskUsedBytes,row.2⟩]⟩ =
        before.set mount ((before.get? mount).getD [] ++ [⟨row.1.collectedAt * 1000,row.1.diskUsedBytes,row.2⟩]) := by
      have nonzero : row.1.collectedAt * 1000 ≠ 0 := by positivity
      simp [addEntry,addDisk,nonzero,named]
    rw [added,OrderedMap.get?_set_self,Option.getD_some,List.append_assoc]
    rfl

theorem points_entries (h : History) : ((grouped h.entries).get? h.mountPoint).getD [] = pointsOf h.rows := by
  unfold grouped History.entries
  rw [foldl_addEntry h.named h.rows h.positive]
  rfl

theorem increasing_points (h : History) : (pointsOf h.rows).Pairwise fun a b => a.ts < b.ts := by
  have increasing := h.increasing
  rw [List.pairwise_map] at increasing
  unfold pointsOf
  rw [List.pairwise_map]
  exact increasing.imp fun earlier => by
    simpa using earlier

theorem deduped_increasing {points : List Point} (increasing : points.Pairwise fun a b => a.ts < b.ts) :
    deduped points = points := by
  induction points with
  | nil => rfl
  | cons p rest ih =>
    cases rest with
    | nil => rfl
    | cons q rest =>
      have first := (List.pairwise_cons.mp increasing).1 q List.mem_cons_self
      rw [deduped,if_neg (ne_of_lt first),ih (List.pairwise_cons.mp increasing).2]

theorem ordered_points (h : History) : deduped (sortedPoints (pointsOf h.rows)) = pointsOf h.rows := by
  have increasing := increasing_points h
  have sorted : sortedPoints (pointsOf h.rows) = pointsOf h.rows :=
    List.mergeSort_of_pairwise (increasing.imp fun earlier => decide_eq_true (le_of_lt earlier))
  rw [sorted,deduped_increasing increasing]

theorem yRaw_points (h : History) : yRaw (pointsOf h.rows) = rawGb h.snapshots := by
  simp [yRaw,pointsOf,rawGb,History.snapshots]

theorem xDays_points (h : History) : xDays (pointsOf h.rows) = days h.snapshots := by
  unfold xDays pointsOf days History.snapshots
  cases h.rows with
  | nil => rfl
  | cons first rest =>
    simp only [List.map_cons,List.map_map,List.cons.injEq]
    refine ⟨by ring,List.map_congr_left fun row _ => ?_⟩
    simp only [Function.comp_apply]
    ring

theorem getLastD_map {α : Type} (g : α → ℚ) (l : List α) (filled : l ≠ []) :
    (l.map fun a => g a * 1000).getLastD 0 = (l.map g).getLastD 0 * 1000 := by
  obtain ⟨front,last,rfl⟩ := List.eq_nil_or_concat l |>.resolve_left filled
  simp

theorem two_snapshots (h : History) : 2 ≤ h.snapshots.length := by
  have enough := h.enough
  rw [History.snapshots,List.length_map]
  omega

theorem timespanMs_points (h : History) : timespanMs (pointsOf h.rows) = timespan h.snapshots * 1000 := by
  have enough := h.enough
  have filled : h.rows ≠ [] := by
    rintro empty
    simp [empty] at enough
  have two := two_snapshots h
  have last := getLastD_map (fun row : Snapshot × ℤ => row.1.collectedAt) h.rows filled
  unfold timespanMs timespan
  rw [if_pos two]
  unfold pointsOf History.snapshots
  simp only [List.map_map]
  have first : (h.rows.map fun row => row.1.collectedAt * 1000).headD 0 =
      (h.rows.map fun row => row.1.collectedAt).headD 0 * 1000 := by
    cases h.rows with
    | nil => simp
    | cons row rows => rfl
  rw [sub_mul]
  exact congrArg₂ _ last first

theorem length_differences (h : History) : h.differences.length + 1 = h.rows.length := by
  have enough := h.enough
  rw [History.differences,DiskForecast.length_deltas,rawGb,List.length_map,History.snapshots,List.length_map]
  omega

theorem spread_days (h : History) : 1 / 16 ≤ LeastSquares.spread (days h.snapshots) :=
  DiskForecast.spread_days (two_snapshots h) h.long

/-- What the frontend makes of the history, with its own fences. -/
theorem analysed_eq (h : History) : h.analysed =
    if (h.differences.filter (fences h.differences).inlier).length < 3 then .fluctuating
    else .fitted (LeastSquares.cross (days h.snapshots) (normalized (fences h.differences) (rawGb h.snapshots)) /
      LeastSquares.spread (days h.snapshots)) := by
  have enough := h.enough
  have lengths := length_differences h
  have long := h.long
  have span := timespanMs_points h
  have wide := spread_days h
  unfold History.analysed analysis
  rw [points_entries,ordered_points]
  dsimp only
  have many : ¬(pointsOf h.rows).length < 4 := by simpa [pointsOf] using enough
  have lasting : ¬(timespanMs (pointsOf h.rows) / 3600000 < 2 ∨ timespanMs (pointsOf h.rows) ≤ 0) := by
    rw [span,not_or,not_lt,not_le]
    change 21600 ≤ timespan h.snapshots at long
    constructor <;> linarith
  have differences : deltas (yRaw (pointsOf h.rows)) = h.differences := by rw [yRaw_points,History.differences]
  rw [if_neg many,if_neg lasting,differences,if_neg (by omega),xDays_points,yRaw_points]
  congr 1
  rw [if_neg]
  rw [abs_of_nonneg (by linarith),not_lt]
  linarith

theorem normalized_congr {g : Fences} (same : ∀ d ∈ deltas series, f.inlier d = g.inlier d) :
    normalized f series = normalized g series := by
  induction series with
  | nil => rfl
  | cons x series ih =>
    cases series with
    | nil => rfl
    | cons y rest =>
      have later := ih fun d member => same d (List.mem_cons_of_mem _ member)
      rw [normalized,normalized,later,same (y - x) List.mem_cons_self]

def WholeBytes (value : ℚ) : Prop := ∃ bytes : ℤ, value * gb = bytes

theorem normalized_whole (whole : ∀ value ∈ series, WholeBytes value) : ∀ value ∈ normalized f series, WholeBytes value := by
  induction series with
  | nil => exact whole
  | cons x series ih =>
    cases series with
    | nil => exact whole
    | cons y rest =>
      have later := ih fun value member => whole value (List.mem_cons_of_mem _ member)
      have head : WholeBytes ((normalized f (y :: rest)).headD 0) := by
        cases split : normalized f (y :: rest) with
        | nil => exact ⟨0,by simp⟩
        | cons first others => exact later first (split ▸ List.mem_cons_self)
      obtain ⟨a,xWhole⟩ := whole x List.mem_cons_self
      obtain ⟨b,yWhole⟩ := whole y (List.mem_cons_of_mem _ List.mem_cons_self)
      obtain ⟨c,headWhole⟩ := head
      intro value member
      rw [normalized,List.mem_cons] at member
      rcases member with rfl | member
      · split
        · exact ⟨c - (b - a),by push_cast; rw [sub_mul,sub_mul,headWhole,xWhole,yWhole]⟩
        · exact ⟨c,headWhole⟩
      · exact later value member

theorem length_normalized : (normalized f series).length = series.length := by
  induction series with
  | nil => rfl
  | cons x series ih =>
    cases series with
    | nil => rfl
    | cons y rest => rw [normalized,List.length_cons,ih,List.length_cons,List.length_cons,List.length_cons]

variable {snapshots : List Snapshot} {values : List ℚ} {k : ℕ}

theorem zipWith_rounded (lengths : values.length = snapshots.length)
    (whole : ∀ value ∈ values, WholeBytes value) :
    List.zipWith (fun (_ : Snapshot) value => (DiskForecast.round (value * gb) : ℚ) / gb) snapshots values = values := by
  induction values generalizing snapshots with
  | nil => exact List.zipWith_nil_right
  | cons value values ih =>
    cases snapshots with
    | nil => cases lengths
    | cons s rest =>
      obtain ⟨bytes,wholeHere⟩ := whole value List.mem_cons_self
      rw [List.zipWith_cons_cons,ih (Nat.succ.inj lengths) fun other member => whole other (List.mem_cons_of_mem _ member),
        wholeHere,DiskForecast.round_intCast,← wholeHere,mul_div_cancel_right₀ _ DiskForecast.gb_pos.ne']

/-- The rounding to bytes changes nothing. -/
theorem rawGb_rebuilt (snapshots : List Snapshot) :
    rawGb (rebuilt snapshots) = normalized (DiskForecast.fences (deltas (rawGb snapshots))) (rawGb snapshots) := by
  have whole : ∀ value ∈ rawGb snapshots, WholeBytes value := by
    intro value member
    obtain ⟨s,_,rfl⟩ := List.mem_map.mp member
    exact ⟨s.diskUsedBytes,div_mul_cancel₀ _ DiskForecast.gb_pos.ne'⟩
  have lengths : (normalized (DiskForecast.fences (deltas (rawGb snapshots))) (rawGb snapshots)).length = snapshots.length := by
    rw [length_normalized,rawGb,List.length_map]
  have rounded := zipWith_rounded lengths (normalized_whole whole)
  unfold rebuilt
  dsimp only
  rw [rawGb,List.map_zipWith]
  exact rounded

theorem times_zipWith (lengths : values.length = snapshots.length)
    (bytes : ℚ → ℤ) : (List.zipWith (fun (s : Snapshot) value => {s with diskUsedBytes := bytes value}) snapshots
      values).map (·.collectedAt) = snapshots.map (·.collectedAt) := by
  induction snapshots generalizing values with
  | nil => rfl
  | cons s rest ih =>
    cases values with
    | nil => cases lengths
    | cons value values =>
      rw [List.zipWith_cons_cons,List.map_cons,List.map_cons,ih (Nat.succ.inj lengths)]

theorem days_of_times {first second : List Snapshot} (same : first.map (·.collectedAt) = second.map (·.collectedAt)) :
    days first = days second := by
  cases first with
  | nil =>
    obtain rfl := List.map_eq_nil_iff.mp same.symm
    rfl
  | cons s rest =>
    cases second with
    | nil => cases same
    | cons t others =>
      have heads : s.collectedAt = t.collectedAt := (List.cons.inj same).1
      have scaled := congrArg (List.map fun time => (time - s.collectedAt) / 86400) same
      rw [List.map_map,List.map_map] at scaled
      rw [days,days,← heads]
      exact scaled

theorem days_rebuilt (snapshots : List Snapshot) : days (rebuilt snapshots) = days snapshots := by
  refine days_of_times (times_zipWith ?_ fun value => DiskForecast.round (value * gb))
  rw [length_normalized,rawGb,List.length_map]

/-- The slope that the master computes. -/
theorem rawSlope_rebuilt (h : History) : rawSlope (rebuilt h.snapshots) =
    LeastSquares.cross (days h.snapshots) (normalized (DiskForecast.fences h.differences) (rawGb h.snapshots)) /
      LeastSquares.spread (days h.snapshots) := by
  have wide := spread_days h
  unfold rawSlope
  dsimp only
  rw [days_rebuilt,rawGb_rebuilt,if_pos]
  · rfl
  · exact lt_of_lt_of_le (by norm_num) (wide.trans (le_abs_self _))

theorem length_sorted (ds : List ℚ) : (ds.insertionSort (· ≤ ·)).length = ds.length := List.length_insertionSort _ ds

theorem three_le_length (h : History) : 3 ≤ h.differences.length := by
  have enough := h.enough
  have lengths := length_differences h
  omega

/-- The positions of the quartiles are the same unless the number is a multiple of four. -/
theorem fences_eq {ds : List ℚ} (apart : ¬4 ∣ ds.length) : fences ds = DiskForecast.fences ds := by
  have first : ds.length / 4 = (ds.length + 3) / 4 - 1 := by omega
  have third : min (ds.length - 1) (3 * ds.length / 4) = (3 * ds.length + 3) / 4 - 1 := by
    obtain ⟨q,r,split,remainder⟩ : ∃ q r, ds.length = 4 * q + r ∧ (r = 1 ∨ r = 2 ∨ r = 3) :=
      ⟨ds.length / 4,ds.length % 4,by omega,by omega⟩
    rw [split]
    rcases remainder with rfl | rfl | rfl <;> omega
  unfold fences DiskForecast.fences
  simp only [length_sorted,first,third]

/-- The slopes are the same where the outliers are. -/
theorem mirrors_iff (h : History) : h.Mirrors ↔
    ∀ d ∈ h.differences, (fences h.differences).inlier d = (DiskForecast.fences h.differences).inlier d := by
  refine ⟨And.left,fun same => ⟨same,?_⟩⟩
  have kept : h.differences.filter (fences h.differences).inlier =
      h.differences.filter (DiskForecast.fences h.differences).inlier := List.filter_congr same
  rw [analysed_eq,rawSlope_rebuilt,kept,normalized_congr same]
  constructor
  · constructor
    · intro few
      by_contra many
      rw [if_neg many] at few
      cases few
    · exact fun few => if_pos few
  · exact fun many => if_neg (not_lt.mpr many)

theorem mirrors_iff_unambiguous (h : History) : h.Mirrors ↔ h.Unambiguous := by
  rw [mirrors_iff]
  by_cases multiple : 4 ∣ h.differences.length
  · rw [History.Unambiguous,or_iff_right (not_not.mpr multiple)]
    have three := three_le_length h
    have first : (h.differences.length + 3) / 4 - 1 = h.differences.length / 4 - 1 := by omega
    have third : min (h.differences.length - 1) (3 * h.differences.length / 4) = 3 * (h.differences.length / 4) := by omega
    have before : (3 * h.differences.length + 3) / 4 - 1 = 3 * (h.differences.length / 4) - 1 := by omega
    unfold fences DiskForecast.fences
    simp only [length_sorted,first,third,before]
  · exact iff_of_true (fun d _ => by rw [fences_eq multiple]) (.inl multiple)

/-! Histories with a multiple of four differences -/

/-- Level for three quarters of the time, and then a GB more each time. -/
def lateRow (k i : ℕ) : Snapshot × ℤ := (⟨((i + 1 : ℕ) : ℚ) * 21600,((i - 3 * k : ℕ) : ℤ) * 1024 ^ 3⟩,0)

def lateRows (k : ℕ) : List (Snapshot × ℤ) := (List.range (4 * k + 1)).map (lateRow k)

theorem late_long (positive : 0 < k) : 21600 ≤ timespan ((lateRows k).map Prod.fst) := by
  have two : 2 ≤ ((lateRows k).map Prod.fst).length := by
    simp [lateRows]
    omega
  have last : (((lateRows k).map Prod.fst).map (·.collectedAt)).getLastD 0 = ((4 * k + 1 : ℕ) : ℚ) * 21600 := by
    simp only [lateRows,List.range_succ,List.map_append,List.map_cons,List.map_nil,List.getLastD_concat]
    rfl
  have first : (((lateRows k).map Prod.fst).map (·.collectedAt)).headD 0 = 21600 := by
    simp only [lateRows,List.range_succ_eq_map,List.map_cons,List.headD_cons,lateRow]
    norm_num
  have growing : (1 : ℚ) ≤ k := by exact_mod_cast positive
  rw [timespan,if_pos two,last,first]
  push_cast
  linarith

def late (k : ℕ) (positive : 0 < k) : History where
  mountPoint := "/"
  rows := lateRows k
  named := by decide
  increasing := by
    rw [lateRows,List.map_map,List.pairwise_map]
    refine List.pairwise_lt_range.imp fun {i j} earlier => ?_
    have apart : (i : ℚ) < j := by exact_mod_cast earlier
    simp only [Function.comp_apply,lateRow]
    push_cast
    linarith
  positive := by
    intro row member
    obtain ⟨i,_,rfl⟩ := List.mem_map.mp member
    simp only [lateRow]
    positivity
  enough := by
    simp [lateRows]
    omega
  long := late_long positive

theorem deltas_range' (g : ℕ → ℚ) (start n : ℕ) : deltas ((List.range' start (n + 1)).map g) =
    (List.range' start n).map fun i => g (i + 1) - g i := by
  induction n generalizing start with
  | zero => rfl
  | succ n ih =>
    have next := ih (start + 1)
    rw [List.range'_succ,List.map_cons] at next
    rw [List.range'_succ,List.range'_succ,List.map_cons,List.map_cons,deltas,next,List.range'_succ,List.map_cons]

theorem differences_late (positive : 0 < k) :
    (late k positive).differences = List.replicate (3 * k) 0 ++ List.replicate k 1 := by
  have raw : rawGb (late k positive).snapshots = (List.range' 0 (4 * k + 1)).map fun i => ((i - 3 * k : ℕ) : ℚ) := by
    simp only [rawGb,History.snapshots,late,lateRows,List.map_map,List.range_eq_range']
    refine List.map_congr_left fun i _ => ?_
    simp only [Function.comp_apply,lateRow]
    push_cast
    exact mul_div_cancel_right₀ _ DiskForecast.gb_pos.ne'
  have split : List.range' 0 (4 * k) = List.range' 0 (3 * k) ++ List.range' (3 * k) k := by
    have whole : 4 * k = 3 * k + k := by omega
    rw [whole,← List.range'_append_1,Nat.zero_add]
  rw [History.differences,raw,deltas_range',split,List.map_append]
  congr 1
  · rw [List.eq_replicate_iff]
    refine ⟨by simp,fun d member => ?_⟩
    obtain ⟨i,inside,rfl⟩ := List.mem_map.mp member
    have early : i < 3 * k := by simpa using inside
    have next : i + 1 - 3 * k = 0 := by omega
    have here : i - 3 * k = 0 := by omega
    rw [next,here,sub_self]
  · rw [List.eq_replicate_iff]
    refine ⟨by simp,fun d member => ?_⟩
    obtain ⟨i,inside,rfl⟩ := List.mem_map.mp member
    have later : 3 * k ≤ i := (List.mem_range'_1.mp inside).1
    have next : i + 1 - 3 * k = i - 3 * k + 1 := by omega
    rw [next]
    push_cast
    ring

/-- The growth is an outlier to the master and not to the frontend. -/
theorem not_mirrors_late (positive : 0 < k) : ¬(late k positive).Mirrors := by
  intro mirrors
  have sorted : (List.replicate (3 * k) (0 : ℚ) ++ List.replicate k 1).insertionSort (· ≤ ·) =
      List.replicate (3 * k) 0 ++ List.replicate k 1 := by
    refine List.Pairwise.insertionSort_eq (List.pairwise_append.mpr ⟨?_,?_,?_⟩)
    · exact List.pairwise_replicate.mpr (.inr le_rfl)
    · exact List.pairwise_replicate.mpr (.inr le_rfl)
    · intro a first b second
      rw [List.eq_of_mem_replicate first,List.eq_of_mem_replicate second]
      norm_num
  have low (i : ℕ) (early : i < 3 * k) : (List.replicate (3 * k) (0 : ℚ) ++ List.replicate k 1).getD i 0 = 0 := by
    rw [List.getD_append _ _ _ _ (by simpa using early),List.getD_replicate _ early]
  have high (i : ℕ) (late : 3 * k ≤ i) (inside : i < 4 * k) :
      (List.replicate (3 * k) (0 : ℚ) ++ List.replicate k 1).getD i 0 = 1 := by
    rw [List.getD_append_right _ _ _ _ (by simpa using late),List.length_replicate,List.getD_replicate _ (by omega)]
  have length : (List.replicate (3 * k) (0 : ℚ) ++ List.replicate k 1).length = 4 * k := by
    simp
    omega
  have grown := (mirrors_iff _).mp mirrors 1 (by rw [differences_late]; simp [positive.ne'])
  have first : 4 * k / 4 = k := by omega
  have third : min (4 * k - 1) (3 * (4 * k) / 4) = 3 * k := by omega
  have firstBefore : (4 * k + 3) / 4 - 1 = k - 1 := by omega
  have thirdBefore : (3 * (4 * k) + 3) / 4 - 1 = 3 * k - 1 := by omega
  rw [differences_late] at grown
  unfold fences DiskForecast.fences at grown
  simp only [sorted,length,first,third,firstBefore,thirdBefore] at grown
  rw [low k (by omega),high (3 * k) (Nat.le_refl _) (by omega),low (k - 1) (by omega),low (3 * k - 1) (by omega)] at grown
  norm_num [Fences.inlier] at grown

/-- A history is mirrored exactly if its quartiles are unambiguous; those of one length all are exactly if the number of
differences is no multiple of four. -/
theorem mirrors_iff_length (h : History) : (h.Mirrors ↔ h.Unambiguous) ∧
    ((∀ other : History, other.differences.length = h.differences.length → other.Mirrors) ↔
      ¬4 ∣ h.differences.length) := by
  refine ⟨mirrors_iff_unambiguous h,fun all multiple => ?_,fun apart other same => ?_⟩
  · obtain ⟨k,four⟩ := multiple
    have three := three_le_length h
    have positive : 0 < k := by omega
    refine not_mirrors_late positive (all (late k positive) ?_)
    rw [differences_late,four,List.length_append,List.length_replicate,List.length_replicate]
    omega
  · exact (mirrors_iff_unambiguous other).mpr (.inl (same ▸ apart))

theorem not_mirrors_four : ¬(late 1 Nat.one_pos).Mirrors := not_mirrors_late Nat.one_pos

end Vigile.DiskSaturation
