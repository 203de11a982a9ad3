import Vigile.BinaryRounding
import Vigile.JournalLogs

/-! What the histogram of the last day counts, and where both readers of the journal are faithful to it. -/
namespace Vigile.JournalLogs

open JsonText Go

variable (format : Int → String) (clock : Nat → Int)
variable {now : Int} {line : Line} {lines : List Line}

def Line.slot (now : Int) (line : Line) : Option (Nat × Class) := JournalLogs.slot now (trimSpace line.token)

def weight (now : Int) (class_ : Class) (line : Line) : Nat := if (line.slot now).map Prod.snd = some class_ then 1 else 0

theorem count_add (bucket : HistogramBucket) (class_ other : Class) :
    (bucket.add other).count class_ = bucket.count class_ + if class_ = other then 1 else 0 := by
  cases other <;> cases class_ <;> rfl

variable {i r : Nat} {buckets : List HistogramBucket} {d : Int}

theorem sum_modify (buckets : List HistogramBucket) (bound : i < buckets.length) (class_ other : Class) :
    ((buckets.modify i (HistogramBucket.add other)).map fun bucket => bucket.count class_).sum =
      (buckets.map fun bucket => bucket.count class_).sum + if class_ = other then 1 else 0 := by
  induction buckets generalizing i with
  | nil => contradiction
  | cons bucket rest ih =>
    cases i with
    | zero =>
      rw [List.modify_zero_cons,List.map_cons,List.map_cons,List.sum_cons,List.sum_cons,count_add]
      omega
    | succ i =>
      rw [List.modify_succ_cons,List.map_cons,List.map_cons,List.sum_cons,List.sum_cons,
        ih (Nat.succ_lt_succ_iff.mp bound)]
      omega

theorem slot_lt {data : List Char} {class_ : Class} (found : slot now data = some (i,class_)) : i < 24 := by
  unfold slot at found
  split at found
  · contradiction
  · split at found
    · contradiction
    · split at found
      · contradiction
      · split at found
        · obtain ⟨rfl,_⟩ := Prod.mk.inj (Option.some.inj found)
          omega
        · contradiction

theorem countLine_spec (buckets : List HistogramBucket) (full : buckets.length = 24) (line : Line) (class_ : Class) :
    (countLine now buckets line.token).length = 24 ∧
      ((countLine now buckets line.token).map fun bucket => bucket.count class_).sum =
        (buckets.map fun bucket => bucket.count class_).sum + weight now class_ line := by
  unfold countLine weight Line.slot
  by_cases blank : trimSpace line.token = []
  · have none : slot now (trimSpace line.token) = none := by
      rw [blank]
      rfl
    rw [if_pos blank,none]
    exact ⟨full,rfl⟩
  · rw [if_neg blank]
    cases found : slot now (trimSpace line.token) with
    | none => exact ⟨full,rfl⟩
    | some place =>
      obtain ⟨i,other⟩ := place
      refine ⟨(List.length_modify _ _ _).trans full,?_⟩
      have bound : i < buckets.length := full ▸ slot_lt found
      refine (sum_modify buckets bound class_ other).trans ?_
      simp [eq_comm]

theorem foldl_countLine (read : List Line) (buckets : List HistogramBucket) (full : buckets.length = 24) (class_ : Class) :
    (((read.map Line.token).foldl (countLine now) buckets).map fun bucket => bucket.count class_).sum =
      (buckets.map fun bucket => bucket.count class_).sum + (read.map (weight now class_)).sum := by
  induction read generalizing buckets with
  | nil => rfl
  | cons line rest ih =>
    obtain ⟨length,counted⟩ := countLine_spec buckets full line class_
    rw [List.map_cons,List.foldl_cons,ih _ length,counted,List.map_cons,List.sum_cons,Nat.add_assoc]

/-- The count of a class is the number of lines that are scanned and have a slot for it. -/
theorem count_eq (now : Int) (lines : List Line) (class_ : Class) :
    (handleLogHistogram now (some (output lines))).count class_ = ((scanned lines).map (weight now class_)).sum := by
  change (((scanLines (output lines)).foldl (countLine now) _).map _).sum = _
  rw [scanLines_output,foldl_countLine _ _ (by simp)]
  have empty : (((List.range 24).map (emptyBucket now)).map fun bucket => bucket.count class_).sum = 0 := by
    rw [List.map_map]
    refine List.sum_eq_zero fun n member => ?_
    obtain ⟨i,_,rfl⟩ := List.mem_map.mp member
    cases class_ <;> rfl
  rw [empty,Nat.zero_add]

theorem tmod_bounds (a : Int) {b : Int} (positive : 0 < b) : a = a.tmod b + b * a.tdiv b ∧ -b < a.tmod b ∧ a.tmod b < b :=
  ⟨(Int.tmod_add_mul_tdiv a b).symm,Int.lt_tmod_of_pos a positive,Int.tmod_lt_of_pos a positive⟩

theorem float64_small {n : Int} (small : n.natAbs ≤ 2 ^ 53) :
    ∃ f, float64 n = some f ∧ f.negative = decide (n < 0) ∧ f.magnitude = n.natAbs := Binary64.round_natCast _ small

/-- Below a day, the fraction of an hour is too far from one to be rounded up. -/
theorem floor_hours {h : Nat} (few : h ≤ 24) (part : r < 3600000000000) {q : ℚ}
    (near : |q - r / 3600000000000| ≤ 2 ^ (-53 : Int) / 2) (nonneg : 0 ≤ q) (whole : r = 0 → q = 0) :
    ∃ f, Binary64.round false (h + q) = some f ∧ f.negative = false ∧ ⌊f.magnitude⌋₊ = h := by
  rcases Nat.eq_zero_or_pos r with none | some
  · obtain ⟨f,rounded,sign,same⟩ := Binary64.round_natCast false (show h ≤ 2 ^ 53 by omega)
    rw [whole none,add_zero]
    exact ⟨f,rounded,sign,by rw [same,Nat.floor_natCast]⟩
  · have few' : (h : ℚ) ≤ 24 := by exact_mod_cast few
    have least : (1 : ℚ) ≤ r := by exact_mod_cast some
    have most : (r : ℚ) ≤ 3599999999999 := by exact_mod_cast Nat.le_of_lt_succ part
    have tiny : (2 : ℚ) ^ (-53 : Int) = 1 / 9007199254740992 := by norm_num
    rw [tiny,abs_le] at near
    obtain ⟨above,below⟩ := near
    have total : (h : ℚ) + q < 2 ^ (5 : Int) := by
      norm_num
      linarith
    obtain ⟨f,rounded,sign,close⟩ := Binary64.round_near false (by positivity) total (by omega) (by omega)
    have step : (2 : ℚ) ^ ((5 : Int) - 53) = 1 / 281474976710656 := by norm_num
    rw [step,abs_le] at close
    refine ⟨f,rounded,sign,(Nat.floor_eq_iff (Binary64.magnitude_nonneg f)).mpr ⟨?_,?_⟩⟩ <;> linarith

/-- The fraction of an hour, which is nothing where nothing is left. -/
theorem fraction_near (part : r < 3600000000000) : ∃ f, Binary64.round false (r / 3600000000000) = some f ∧
    f.negative = false ∧ |f.magnitude - r / 3600000000000| ≤ 2 ^ (-53 : Int) / 2 ∧ (r = 0 → f.magnitude = 0) := by
  have most : (r : ℚ) < 3600000000000 := by exact_mod_cast part
  have small : (r : ℚ) / 3600000000000 < 2 ^ (0 : Int) := by
    rw [zpow_zero,div_lt_one (by norm_num)]
    exact most
  obtain ⟨f,rounded,sign,near⟩ := Binary64.round_near false (by positivity) small (by omega) (by omega)
  refine ⟨f,rounded,sign,near,?_⟩
  rintro rfl
  obtain ⟨zero,is_zero,_,nothing⟩ := Binary64.round_natCast false (Nat.zero_le (2 ^ 53))
  rw [Nat.cast_zero,zero_div] at rounded
  rw [Nat.cast_zero] at is_zero nothing
  obtain rfl := Option.some.inj (rounded.symm.trans is_zero)
  exact nothing

theorem hours_natural (natural : 0 ≤ d) (high : d < 25 * hour) :
    ∃ f, hours d = some f ∧ truncated f = d.tdiv hour := by
  have length : hour = 3600000000000 := by decide
  rw [length] at high
  obtain ⟨n,rfl⟩ := Int.eq_ofNat_of_zero_le natural
  have quotient : (n : Int).tdiv hour = ((n / 3600000000000 : Nat) : Int) := rfl
  have remainder : (n : Int).tmod hour = ((n % 3600000000000 : Nat) : Int) := rfl
  have part : n % 3600000000000 < 3600000000000 := Nat.mod_lt _ (by decide)
  obtain ⟨h,is_h,h_sign,h_same⟩ := float64_small (show ((n / 3600000000000 : Nat) : Int).natAbs ≤ 2 ^ 53 by omega)
  obtain ⟨nsec,is_nsec,nsec_sign,nsec_same⟩ :=
    float64_small (show ((n % 3600000000000 : Nat) : Int).natAbs ≤ 2 ^ 53 by omega)
  rw [Int.natAbs_natCast] at h_same nsec_same
  have h_plus : h.negative = false := h_sign.trans (decide_eq_false (by omega))
  have nsec_plus : nsec.negative = false := nsec_sign.trans (decide_eq_false (by omega))
  obtain ⟨fraction,is_fraction,plus,near,whole⟩ := fraction_near part
  have value : h.value + fraction.value = ((n / 3600000000000 : Nat) : ℚ) + fraction.magnitude := by
    unfold Binary64.value
    rw [h_plus,plus,h_same]
    rfl
  have nonneg := Binary64.magnitude_nonneg fraction
  have sum_nonneg : (0 : ℚ) ≤ ((n / 3600000000000 : Nat) : ℚ) + fraction.magnitude := by positivity
  obtain ⟨f,rounded,sign,floor⟩ := floor_hours (show n / 3600000000000 ≤ 24 by omega) part near nonneg whole
  refine ⟨f,?_,?_⟩
  · unfold hours
    rw [quotient,remainder,is_h,is_nsec]
    simp only [Option.bind_eq_bind,Option.bind_some,nsec_plus,nsec_same,is_fraction,value]
    rw [abs_of_nonneg sum_nonneg,decide_eq_false (not_lt.mpr sum_nonneg)]
    exact rounded
  · unfold truncated
    rw [sign,floor,quotient]
    rfl

theorem hours_negative (low : -1000000000 < d) (negative : d < 0) :
    ∃ f, hours d = some f ∧ truncated f = 0 := by
  have length : hour = 3600000000000 := by decide
  have quotient : d.tdiv hour = 0 := by
    rw [← Int.neg_neg d,Int.neg_tdiv,Int.tdiv_eq_zero_of_lt (by omega) (by omega),Int.neg_zero]
  have remainder : d.tmod hour = d := by
    have split := Int.tmod_add_mul_tdiv d hour
    rwa [quotient,Int.mul_zero,Int.add_zero] at split
  obtain ⟨h,is_h,_,h_same⟩ := float64_small (show (0 : Int).natAbs ≤ 2 ^ 53 by decide)
  obtain ⟨nsec,is_nsec,nsec_sign,nsec_same⟩ := float64_small (show d.natAbs ≤ 2 ^ 53 by omega)
  have nsec_minus : nsec.negative = true := nsec_sign.trans (decide_eq_true negative)
  have few : (d.natAbs : ℚ) < 1000000000 := by exact_mod_cast (by omega : d.natAbs < 1000000000)
  have half : (2 : ℚ) ^ (-1 : Int) = 1 / 2 := by norm_num
  have small : (d.natAbs : ℚ) / 3600000000000 < 2 ^ (-1 : Int) := by
    rw [half,div_lt_iff₀ (by norm_num)]
    linarith
  obtain ⟨fraction,is_fraction,minus,near⟩ := Binary64.round_near true (by positivity) small (by omega) (by omega)
  have value : h.value + fraction.value = -fraction.magnitude := by
    unfold Binary64.value
    rw [h_same,minus]
    simp
  have nonneg := Binary64.magnitude_nonneg fraction
  have step : (2 : ℚ) ^ ((-1 : Int) - 53) = 1 / 18014398509481984 := by norm_num
  rw [step,abs_le] at near
  have below : fraction.magnitude < 2 ^ (0 : Int) := by
    rw [half] at small
    rw [zpow_zero]
    linarith [near.2]
  obtain ⟨f,rounded,_,close⟩ := Binary64.round_near (decide (-fraction.magnitude < 0)) nonneg below (by omega) (by omega)
  have floor : ⌊f.magnitude⌋₊ = 0 := by
    have step' : (2 : ℚ) ^ ((0 : Int) - 53) = 1 / 9007199254740992 := by norm_num
    rw [step',abs_le] at close
    rw [Nat.floor_eq_zero]
    rw [half] at small
    linarith [near.2,close.2]
  refine ⟨f,?_,?_⟩
  · unfold hours
    rw [quotient,remainder,is_h,is_nsec]
    simp only [Option.bind_eq_bind,Option.bind_some,nsec_minus,nsec_same,is_fraction,value]
    rw [abs_neg,abs_of_nonneg nonneg]
    exact rounded
  · unfold truncated
    rw [floor]
    split <;> rfl

/-- A timestamp of the last day is counted exactly if its second is of the last day too. -/
theorem diffHours_iff {us : Int} (after : now - 24 * hour < us * 1000) (before : us * 1000 ≤ now) :
    ∃ f, hours (sub now (us.tdiv 1000000 * 10 ^ 9)) = some f ∧
      ((0 ≤ truncated f ∧ truncated f < 24) ↔ now - us.tdiv 1000000 * 10 ^ 9 < 24 * hour) := by
  have length : hour = 3600000000000 := by decide
  obtain ⟨whole,low,high⟩ := tmod_bounds us (by decide : (0 : Int) < 1000000)
  have near : sub now (us.tdiv 1000000 * 10 ^ 9) = now - us.tdiv 1000000 * 10 ^ 9 := by
    unfold sub
    omega
  rw [near]
  have least : -1000000000 < now - us.tdiv 1000000 * 10 ^ 9 := by omega
  have most : now - us.tdiv 1000000 * 10 ^ 9 < 25 * hour := by omega
  generalize now - us.tdiv 1000000 * 10 ^ 9 = d at least most
  rcases Int.lt_or_le d 0 with negative | natural
  · obtain ⟨f,found,same⟩ := hours_negative least negative
    refine ⟨f,found,?_⟩
    rw [same,length]
    omega
  · obtain ⟨f,found,same⟩ := hours_natural natural most
    refine ⟨f,found,?_⟩
    rw [same,length,Int.tdiv_eq_ediv_of_nonneg natural]
    omega

/-- The two readers agree on the class of a priority exactly if it is told. -/
theorem priorityClass_iff (fields : Fields) :
    priorityClass (some fields) = (entryLevel (some fields)).toClass ↔ PriorityTold fields := by
  unfold priorityClass entryLevel PriorityTold
  cases text : stringField (some fields) "PRIORITY" with
  | none => decide
  | some pStr =>
    simp only [Option.getD_some,Option.bind_some]
    unfold parsed
    dsimp only
    by_cases fine : (parseInt pStr.toList).2 = none
    · rw [if_pos fine]
      dsimp only
      refine iff_of_true ?_ (.inl fine)
      split
      · rfl
      · split
        · rfl
        · split <;> rfl
    · rw [if_neg fine]
      dsimp only
      constructor
      · intro same
        right
        split at same
        · contradiction
        · split at same
          · contradiction
          · omega
      · intro told
        have great := told.resolve_left fine
        rw [if_neg (by omega),if_neg (by omega)]
        rfl

/-- A line of the last day is counted in its class exactly if it decodes, its second is of the last day
and its priority is told. -/
theorem slot_iff (window : InWindow now line fields) :
    (line.slot now).map Prod.snd = some (entryLevel (some fields)).toClass ↔
      Decodes (trimSpace line.token) ∧ SecondInWindow now fields ∧ PriorityTold fields := by
  obtain ⟨object,us,stamp,after,before⟩ := window
  obtain ⟨rtStr,text,parse⟩ := Option.bind_eq_some_iff.mp stamp
  unfold Line.slot slot
  by_cases decodes : Decodes (trimSpace line.token)
  · have second : SecondInWindow now fields ↔ now - us.tdiv 1000000 * 10 ^ 9 < 24 * hour := by
      unfold SecondInWindow
      rw [Option.mem_def.mp stamp]
      simp
    rw [unmarshal_decodes object decodes]
    simp only [text,Option.getD_some,parse]
    obtain ⟨f,found,counted⟩ := diffHours_iff after before
    rw [second,← priorityClass_iff,← counted,found]
    dsimp only [Option.map_some]
    by_cases within : 0 ≤ truncated f ∧ truncated f < 24
    · rw [if_pos within,Option.map_some,Option.some.injEq]
      exact ⟨fun same => ⟨decodes,within,same⟩,fun told => told.2.2⟩
    · rw [if_neg within]
      exact ⟨fun same => absurd same (by simp),fun told => absurd told.2.1 within⟩
  · rw [unmarshal_fails object decodes]
    simp [decodes]

/-- What one more line adds, where all lines before it and the line itself are scanned. -/
theorem count_insert {before : List Line} (short : ∀ earlier ∈ before, earlier.buffered = true)
    (fits : line.buffered = true) (after : List Line) (class_ : Class) :
    (handleLogHistogram now (some (output (before ++ line :: after)))).count class_ =
      (handleLogHistogram now (some (output (before ++ after)))).count class_ + weight now class_ line := by
  rw [count_eq,count_eq]
  unfold scanned
  rw [List.takeWhile_append_of_pos short,List.takeWhile_append_of_pos short,List.takeWhile_cons_of_pos fits]
  simp only [List.map_append,List.map_cons,List.sum_append,List.sum_cons]
  omega

/-- A line is scanned with all before it, or it is one of those that are not. -/
theorem scanned_or (before : List Line) (line : Line) (after : List Line) :
    ((∀ earlier ∈ before, earlier.buffered = true) ∧ line.buffered = true ∧ line ∈ scanned (before ++ line :: after)) ∨
      line ∈ unscanned (before ++ line :: after) := by
  by_cases short : ∀ earlier ∈ before, earlier.buffered = true
  · by_cases fits : line.buffered = true
    · left
      refine ⟨short,fits,?_⟩
      unfold scanned
      rw [List.takeWhile_append_of_pos short,List.takeWhile_cons_of_pos fits]
      simp
    · right
      unfold unscanned
      rw [List.dropWhile_append_of_pos short,List.dropWhile_cons_of_neg fits]
      simp
  · right
    unfold unscanned
    have stopped : (before.dropWhile Line.buffered).isEmpty = false := by
      rw [← Bool.not_eq_true,List.isEmpty_iff,List.dropWhile_eq_nil_iff]
      exact short
    rw [List.dropWhile_append,stopped]
    simp

theorem counts_iff (lines : List Line) : CountsFaithful format now lines ↔
    (∀ line ∈ unscanned lines, ∀ fields, ¬InWindow now line fields) ∧
      ∀ line ∈ scanned lines, ∀ fields, InWindow now line fields →
        Decodes (trimSpace line.token) ∧ SecondInWindow now fields ∧ PriorityTold fields := by
  constructor
  · intro faithful
    have own (fields : Fields) : (if (entryLevel (some fields)).toClass =
        (parseJournaldJSON format now now (some fields)).level.toClass then 1 else 0) = 1 := if_pos rfl
    constructor
    · intro line member fields window
      obtain ⟨before,after,split⟩ := List.append_of_mem member
      have whole : lines = (scanned lines ++ before) ++ line :: after := by
        rw [List.append_assoc,← split,lines_eq]
      -- without the line, no fewer lines are scanned
      have more := faithful _ line after fields whole window (entryLevel (some fields)).toClass
      have kept : scanned (scanned lines ++ before ++ after) = scanned lines ++ scanned (before ++ after) := by
        rw [List.append_assoc]
        exact List.takeWhile_append_of_pos fun _ => List.mem_takeWhile_imp
      rw [count_eq,count_eq,kept,List.map_append,List.sum_append] at more
      have one := own fields
      omega
    · intro line member fields window
      obtain ⟨before,after,split⟩ := List.append_of_mem member
      have whole : lines = before ++ line :: (after ++ unscanned lines) := by
        rw [← List.cons_append,← List.append_assoc,← split,lines_eq]
      have short : ∀ earlier ∈ before, earlier.buffered = true := fun earlier among =>
        List.mem_takeWhile_imp (split ▸ List.mem_append_left _ among : earlier ∈ scanned lines)
      have more := faithful _ line _ fields whole window (entryLevel (some fields)).toClass
      have inserted : (handleLogHistogram now _).count _ = _ := count_insert short (List.mem_takeWhile_imp member)
        (after ++ unscanned lines) (entryLevel (some fields)).toClass
      rw [← whole,more] at inserted
      have one := own fields
      have weighs : weight now (entryLevel (some fields)).toClass line = 1 := by omega
      refine (slot_iff window).mp ?_
      unfold weight at weighs
      by_contra other
      rw [if_neg other] at weighs
      contradiction
  · rintro ⟨unreached,counted⟩ before line after fields rfl window class_
    rcases scanned_or before line after with ⟨short,fits,member⟩ | member
    · rw [count_insert short fits after]
      have own := (slot_iff window).mpr (counted line member fields window)
      unfold weight
      rw [own]
      simp only [Option.some.injEq,eq_comm]
      rfl
    · exact absurd window (unreached line member fields)

/-- The readers are faithful to the same output exactly if nothing that counts stands behind a line that is
too long, every object decodes and no line is null, and every line of the last day has its second there too
and a priority that is told. -/
theorem readers_faithful_iff (lines : List Line) (now : Int) (service : String) (n : Int) (since upto : String) :
    EntriesFaithful format clock lines
        (handleReadLogsService format clock (fun _ => ⟨.ok (output lines),false⟩) service n since upto) ∧
      CountsFaithful format now lines ↔ Regular now lines := by
  rw [faithful_iff format clock _ (fun _ => rfl),maps_iff,counts_iff]
  constructor
  · rintro ⟨⟨unread,decoded,valued⟩,unreached,counted⟩
    exact ⟨fun line member => ⟨unread line member,unreached line member⟩,decoded,valued,counted⟩
  · intro regular
    exact ⟨⟨fun line member => (regular.reached line member).1,regular.decoded,regular.valued⟩,
      fun line member => (regular.reached line member).2,regular.counted⟩

def untold : Line := ⟨"\x7b\"__REALTIME_TIMESTAMP\":\"1000000\"\x7d".toList,by decide⟩

/-- An entry without a priority is information to the one reader and an error to the other. -/
theorem untold_unfaithful : ¬CountsFaithful (fun _ => "00:00:01.000") (2 * 10 ^ 9) [untold] := by
  intro faithful
  have more := faithful [] untold [] [("__REALTIME_TIMESTAMP",.string "1000000")] rfl
    ⟨by rfl,1000000,by decide +kernel,by decide,by decide⟩ .error
  have counted : (handleLogHistogram (2 * 10 ^ 9) (some (output [untold]))).count .error = 1 := by decide +kernel
  exact absurd (counted.symm.trans more) (by decide +kernel)

end Vigile.JournalLogs
