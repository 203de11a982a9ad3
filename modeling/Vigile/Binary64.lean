import Mathlib.Data.Int.Log
import Mathlib.Data.Rat.Floor
import Mathlib.Tactic.FieldSimp
import Mathlib.Tactic.Linarith
import Mathlib.Tactic.Ring

/-! Finite binary64 numbers: rounding a magnitude to the nearest one, ties to even, and
the shortest decimal that rounds back to a number. -/

/-- The largest mantissa is used unless the exponent is already the least one, so that no
magnitude has two forms. -/
structure Binary64 where
  negative : Bool
  mantissa : Nat
  exponent : Int
  normal : mantissa < 2 ^ 53 ∧ -1074 ≤ exponent ∧ exponent ≤ 971 ∧
    (2 ^ 52 ≤ mantissa ∨ exponent = -1074)
  deriving DecidableEq

namespace Binary64

def magnitude (f : Binary64) : ℚ := f.mantissa * 2 ^ f.exponent

def value (f : Binary64) : ℚ := if f.negative then -f.magnitude else f.magnitude

/-- The natural number nearest to a magnitude, the even one where two are. -/
def nearest (q : ℚ) : Nat :=
  if q - ⌊q⌋₊ < 1 / 2 then ⌊q⌋₊
  else if 1 / 2 < q - ⌊q⌋₊ then ⌊q⌋₊ + 1
  else if ⌊q⌋₊ % 2 = 0 then ⌊q⌋₊ else ⌊q⌋₊ + 1

/-- The exponent at which a magnitude is rounded. -/
def scale (q : ℚ) : Int := if q = 0 then -1074 else max (Int.log 2 q - 52) (-1074)

def ofParts (negative : Bool) (mantissa : Nat) (exponent : Int) : Option Binary64 :=
  if normal : mantissa < 2 ^ 53 ∧ -1074 ≤ exponent ∧ exponent ≤ 971 ∧
      (2 ^ 52 ≤ mantissa ∨ exponent = -1074) then
    some ⟨negative,mantissa,exponent,normal⟩
  else none

/-- The number nearest to a magnitude; none where the magnitude is too large. -/
def round (negative : Bool) (q : ℚ) : Option Binary64 :=
  if nearest (q / 2 ^ scale q) = 2 ^ 53 then ofParts negative (2 ^ 52) (scale q + 1)
  else ofParts negative (nearest (q / 2 ^ scale q)) (scale q)

theorem nearest_natCast (n : Nat) : nearest n = n := by
  simp [nearest]

theorem nearest_cases (q : ℚ) :
    (nearest q = ⌊q⌋₊ ∧ q - ⌊q⌋₊ ≤ 1 / 2) ∨ (nearest q = ⌊q⌋₊ + 1 ∧ 1 / 2 ≤ q - ⌊q⌋₊) := by
  unfold nearest
  split
  · exact .inl ⟨rfl,le_of_lt ‹_›⟩
  · split
    · exact .inr ⟨rfl,le_of_lt ‹_›⟩
    · split
      · exact .inl ⟨rfl,not_lt.mp ‹_›⟩
      · exact .inr ⟨rfl,not_lt.mp ‹_›⟩

variable {q : ℚ}

theorem nearest_error (positive : 0 ≤ q) : |(nearest q : ℚ) - q| ≤ 1 / 2 := by
  have below := Nat.floor_le positive
  have above := Nat.lt_floor_add_one q
  rcases nearest_cases q with ⟨same,near⟩ | ⟨same,near⟩
  · rw [same,abs_le]
    constructor <;> linarith
  · rw [same,abs_le]
    push_cast
    constructor <;> linarith

theorem scale_ge (q : ℚ) : -1074 ≤ scale q := by
  unfold scale
  split
  · exact le_refl _
  · exact le_max_right _ _

theorem two_zpow_pos (e : Int) : (0 : ℚ) < 2 ^ e := zpow_pos (by norm_num) e

theorem magnitude_nonneg (f : Binary64) : 0 ≤ f.magnitude :=
  mul_nonneg (Nat.cast_nonneg _) (le_of_lt (two_zpow_pos _))

/-- A magnitude on the grid of its own scale lies below 2 to the 53rd steps. -/
theorem div_scale_lt (q : ℚ) : q / 2 ^ scale q < 2 ^ 53 := by
  rw [div_lt_iff₀ (two_zpow_pos _)]
  unfold scale
  split
  · rename_i zero
    rw [zero]
    exact mul_pos (by norm_num) (two_zpow_pos _)
  · rename_i nonzero
    have above : q < 2 ^ (Int.log 2 q + 1) := by
      have below := Int.lt_zpow_succ_log_self (b := 2) (by norm_num) q
      exact_mod_cast below
    have wide : (2 : ℚ) ^ (Int.log 2 q + 1) ≤ 2 ^ (53 : Nat) * 2 ^ max (Int.log 2 q - 52) (-1074) := by
      rw [← zpow_natCast,← zpow_add₀ (by norm_num)]
      apply zpow_le_zpow_right₀ (by norm_num)
      have larger := le_max_left (Int.log 2 q - 52) (-1074)
      push_cast
      linarith
    exact lt_of_lt_of_le above wide

theorem le_div_scale (positive : 0 < q) (above : scale q ≠ -1074) : 2 ^ 52 ≤ q / 2 ^ scale q := by
  have nonzero : q ≠ 0 := ne_of_gt positive
  unfold scale at above ⊢
  rw [if_neg nonzero] at above ⊢
  have here : max (Int.log 2 q - 52) (-1074) = Int.log 2 q - 52 := by
    rcases max_choice (Int.log 2 q - 52) (-1074) with same | same
    · exact same
    · exact absurd same above
  rw [here,le_div_iff₀ (two_zpow_pos _),← zpow_natCast,← zpow_add₀ (by norm_num)]
  have below : (2 : ℚ) ^ Int.log 2 q ≤ q := by
    have low := Int.zpow_log_le_self (b := 2) (by norm_num) positive
    exact_mod_cast low
  have same : ((52 : Nat) : Int) + (Int.log 2 q - 52) = Int.log 2 q := by
    push_cast
    ring
  rw [same]
  exact below

variable {f : Binary64} {negative : Bool} {n : Nat}

theorem ofParts_eq {mantissa : Nat} {exponent : Int}
    (built : ofParts negative mantissa exponent = some f) :
    f.negative = negative ∧ f.mantissa = mantissa ∧ f.exponent = exponent := by
  unfold ofParts at built
  split at built
  · obtain rfl := Option.some.inj built
    exact ⟨rfl,rfl,rfl⟩
  · contradiction

/-- Rounding moves a magnitude by half a step at most. -/
theorem round_error (positive : 0 ≤ q)
    (rounded : round negative q = some f) :
    f.negative = negative ∧ |f.magnitude - q| ≤ 2 ^ scale q / 2 := by
  have step := two_zpow_pos (scale q)
  have near : |(nearest (q / 2 ^ scale q) : ℚ) - q / 2 ^ scale q| ≤ 1 / 2 :=
    nearest_error (div_nonneg positive (le_of_lt step))
  have same : q / 2 ^ scale q * 2 ^ scale q = q := div_mul_cancel₀ q (ne_of_gt step)
  have moved : |(nearest (q / 2 ^ scale q) : ℚ) * 2 ^ scale q - q| ≤ 2 ^ scale q / 2 := by
    calc |(nearest (q / 2 ^ scale q) : ℚ) * 2 ^ scale q - q|
        = |((nearest (q / 2 ^ scale q) : ℚ) - q / 2 ^ scale q) * 2 ^ scale q| := by rw [sub_mul,same]
      _ = |(nearest (q / 2 ^ scale q) : ℚ) - q / 2 ^ scale q| * 2 ^ scale q := by
          rw [abs_mul,abs_of_pos step]
      _ ≤ 1 / 2 * 2 ^ scale q := mul_le_mul_of_nonneg_right near (le_of_lt step)
      _ = 2 ^ scale q / 2 := by ring
  unfold round at rounded
  split at rounded
  · rename_i carried
    obtain ⟨sign,mantissa,exponent⟩ := ofParts_eq rounded
    refine ⟨sign,?_⟩
    rw [carried] at moved
    have double : (2 : ℚ) ^ (scale q + 1) = 2 ^ scale q * 2 := by
      rw [zpow_add₀ (by norm_num),zpow_one]
    unfold magnitude
    rw [mantissa,exponent,double]
    push_cast at moved ⊢
    have shifted : (4503599627370496 : ℚ) * (2 ^ scale q * 2) = 9007199254740992 * 2 ^ scale q := by
      ring
    rw [shifted]
    exact moved
  · obtain ⟨sign,mantissa,exponent⟩ := ofParts_eq rounded
    refine ⟨sign,?_⟩
    unfold magnitude
    rw [mantissa,exponent]
    exact moved

/-- A magnitude on the grid of its own scale is a number itself. -/
theorem round_grid (negative : Bool) {m : Nat} (small : scale q ≤ 971)
    (grid : q = m * 2 ^ scale q) :
    ∃ f, round negative q = some f ∧ f.negative = negative ∧ f.magnitude = q := by
  have step := two_zpow_pos (scale q)
  have steps : q / 2 ^ scale q = m := by
    rw [div_eq_iff (ne_of_gt step)]
    exact grid
  have fits : m < 2 ^ 53 := by
    have bound := div_scale_lt q
    rw [steps] at bound
    exact_mod_cast bound
  have full : 2 ^ 52 ≤ m ∨ scale q = -1074 := by
    by_cases least : scale q = -1074
    · exact .inr least
    · refine .inl ?_
      have positive : 0 < q := by
        rcases eq_or_lt_of_le (show 0 ≤ q by rw [grid]; positivity) with zero | positive
        · exact absurd (by rw [← zero]; rfl) least
        · exact positive
      have bound := le_div_scale positive least
      rw [steps] at bound
      exact_mod_cast bound
  have normal : m < 2 ^ 53 ∧ -1074 ≤ scale q ∧ scale q ≤ 971 ∧ (2 ^ 52 ≤ m ∨ scale q = -1074) :=
    ⟨fits,scale_ge q,small,full⟩
  refine ⟨⟨negative,m,scale q,normal⟩,?_,rfl,grid.symm⟩
  unfold round ofParts
  rw [steps,nearest_natCast,if_neg (ne_of_lt fits),dif_pos normal]

theorem scale_magnitude (f : Binary64) : scale f.magnitude = f.exponent := by
  obtain ⟨fits,least,most,full⟩ := f.normal
  have step := two_zpow_pos f.exponent
  unfold scale magnitude
  by_cases zero : f.mantissa = 0
  · rw [zero]
    rcases full with full | full
    · omega
    · simp [full]
  · have one : (1 : ℚ) ≤ f.mantissa := by exact_mod_cast Nat.pos_of_ne_zero zero
    have positive : (0 : ℚ) < f.mantissa * 2 ^ f.exponent := by positivity
    rw [if_neg (ne_of_gt positive)]
    have above : Int.log 2 ((f.mantissa : ℚ) * 2 ^ f.exponent) < 53 + f.exponent := by
      rw [← Int.lt_zpow_iff_log_lt (by norm_num) positive]
      push_cast
      rw [zpow_add₀ (by norm_num)]
      apply mul_lt_mul_of_pos_right _ step
      exact_mod_cast fits
    rcases full with full | full
    · have below : 52 + f.exponent ≤ Int.log 2 ((f.mantissa : ℚ) * 2 ^ f.exponent) := by
        rw [← Int.zpow_le_iff_le_log (by norm_num) positive]
        push_cast
        rw [zpow_add₀ (by norm_num)]
        apply mul_le_mul_of_nonneg_right _ (le_of_lt step)
        exact_mod_cast full
      omega
    · omega

/-- A number is the one nearest to its own magnitude. -/
theorem round_magnitude (f : Binary64) : round f.negative f.magnitude = some f := by
  have steps : f.magnitude / 2 ^ f.exponent = f.mantissa :=
    mul_div_cancel_right₀ _ (ne_of_gt (two_zpow_pos f.exponent))
  unfold round ofParts
  rw [scale_magnitude,steps,nearest_natCast,if_neg (ne_of_lt f.normal.1),dif_pos f.normal]

theorem scale_natCast (positive : 0 < n) : scale n = (Nat.log 2 n : Int) - 52 := by
  have nonzero : (n : ℚ) ≠ 0 := by exact_mod_cast Nat.ne_of_gt positive
  unfold scale
  rw [if_neg nonzero,Int.log_natCast]
  omega

/-- The natural numbers up to 2 to the 53rd are numbers. -/
theorem round_natCast (negative : Bool) (small : n ≤ 2 ^ 53) :
    ∃ f, round negative n = some f ∧ f.negative = negative ∧ f.magnitude = n := by
  rcases Nat.eq_zero_or_pos n with rfl | positive
  · have least : scale ((0 : Nat) : ℚ) = -1074 := by simp [scale]
    have grid : (((0 : Nat) : ℚ)) = ((0 : Nat) : ℚ) * 2 ^ scale ((0 : Nat) : ℚ) := by simp
    exact round_grid negative (by omega) grid
  · have exponent := scale_natCast positive
    have below : 2 ^ Nat.log 2 n ≤ n := Nat.pow_log_le_self 2 (Nat.ne_of_gt positive)
    by_cases top : n = 2 ^ 53
    · have one : scale ((n : Nat) : ℚ) = 1 := by
        rw [exponent,top,Nat.log_pow (by omega)]
        rfl
      have grid : (n : ℚ) = ((2 ^ 52 : Nat) : ℚ) * 2 ^ scale (n : ℚ) := by
        rw [one,top]
        norm_num
      exact round_grid negative (by omega) grid
    · have short : Nat.log 2 n < 53 := Nat.log_lt_of_lt_pow (Nat.ne_of_gt positive) (by omega)
      have grid : (n : ℚ) = ((n * 2 ^ (52 - Nat.log 2 n) : Nat) : ℚ) * 2 ^ scale (n : ℚ) := by
        have cancel : (2 : ℚ) ^ (52 - Nat.log 2 n) * 2 ^ ((Nat.log 2 n : Int) - 52) = 1 := by
          rw [← zpow_natCast,← zpow_add₀ (by norm_num),Nat.cast_sub (by omega)]
          simp
        rw [exponent]
        push_cast
        rw [mul_assoc,cancel,mul_one]
      exact round_grid negative (by omega) grid

end Binary64

structure Decimal where
  digits : Nat
  exponent : Int
  deriving DecidableEq

namespace Decimal

def magnitude (d : Decimal) : ℚ := d.digits * 10 ^ d.exponent

theorem magnitude_nonneg (d : Decimal) : 0 ≤ d.magnitude :=
  mul_nonneg (Nat.cast_nonneg _) (zpow_nonneg (by norm_num) _)

def stripped : Nat → Decimal → Decimal
  | 0,d => d
  | fuel + 1,d =>
    if d.digits ≠ 0 ∧ d.digits % 10 = 0 then stripped fuel ⟨d.digits / 10,d.exponent + 1⟩ else d

/-- Without zeros at the end; there are no more of them than digits. -/
def trimmed (d : Decimal) : Decimal := stripped (Nat.log 10 d.digits) d

theorem magnitude_stripped (fuel : Nat) (d : Decimal) : (stripped fuel d).magnitude = d.magnitude := by
  induction fuel generalizing d with
  | zero => rfl
  | succ fuel ih =>
    unfold stripped
    split
    · rename_i ends
      have digits : d.digits = d.digits / 10 * 10 := by omega
      rw [ih]
      simp only [magnitude]
      rw [zpow_add₀ (by norm_num),zpow_one]
      have cast : (d.digits : ℚ) = (d.digits / 10 : Nat) * 10 := by exact_mod_cast digits
      rw [cast]
      ring
    · rfl

theorem magnitude_trimmed (d : Decimal) : d.trimmed.magnitude = d.magnitude := magnitude_stripped _ d

theorem stripped_ends (fuel : Nat) (d : Decimal) (enough : Nat.log 10 d.digits ≤ fuel) :
    (stripped fuel d).digits = 0 ∨ (stripped fuel d).digits % 10 ≠ 0 := by
  induction fuel generalizing d with
  | zero =>
    have small : d.digits < 10 := by
      rcases Nat.log_eq_zero_iff.mp (Nat.le_zero.mp enough) with small | impossible
      · exact small
      · omega
    change d.digits = 0 ∨ d.digits % 10 ≠ 0
    omega
  | succ fuel ih =>
    unfold stripped
    split
    · apply ih
      rw [Nat.log_div_base]
      omega
    · rename_i ends
      by_cases zero : d.digits = 0
      · exact .inl zero
      · exact .inr fun last => ends ⟨zero,last⟩

theorem trimmed_ends (d : Decimal) : d.trimmed.digits = 0 ∨ d.trimmed.digits % 10 ≠ 0 :=
  stripped_ends _ d (Nat.le_refl _)

end Decimal

namespace Binary64

def Reads (f : Binary64) (d : Decimal) : Prop := round f.negative d.magnitude = some f

instance (f : Binary64) (d : Decimal) : Decidable (f.Reads d) :=
  inferInstanceAs (Decidable (round f.negative d.magnitude = some f))

/-- The exponent of the last of so many digits of a number. -/
def point (f : Binary64) (count : Nat) : Int := Int.log 10 f.magnitude + 1 - count

/-- A decimal of so many digits that rounds to the number. The two next to the number are
tried, the nearer one first. -/
def candidate (f : Binary64) (count : Nat) : Option Decimal :=
  let steps := f.magnitude / 10 ^ f.point count
  let near : Decimal := ⟨nearest steps,f.point count⟩
  let far : Decimal := ⟨2 * ⌊steps⌋₊ + 1 - nearest steps,f.point count⟩
  if f.Reads near then some near else if f.Reads far then some far else none

/-- All the digits of a number. -/
def exact (f : Binary64) : Decimal :=
  if 0 ≤ f.exponent then ⟨f.mantissa * 2 ^ f.exponent.toNat,0⟩
  else ⟨f.mantissa * 5 ^ (-f.exponent).toNat,f.exponent⟩

def shortest (f : Binary64) : Decimal :=
  (((List.range 17).findSome? fun count => f.candidate (count + 1)).getD f.exact).trimmed

theorem magnitude_exact (f : Binary64) : f.exact.magnitude = f.magnitude := by
  unfold exact
  split
  · rename_i positive
    obtain ⟨e,same⟩ := Int.eq_ofNat_of_zero_le positive
    simp [Decimal.magnitude,magnitude,same]
  · rename_i negative
    obtain ⟨e,same⟩ : ∃ e : Nat, f.exponent = -(e : Int) := ⟨(-f.exponent).toNat,by omega⟩
    have ten : (10 : ℚ) ^ (-(e : Int)) = 5 ^ (-(e : Int)) * 2 ^ (-(e : Int)) := by
      rw [← mul_zpow]
      norm_num
    have five : (5 : ℚ) ^ e * 5 ^ (-(e : Int)) = 1 := by
      rw [← zpow_natCast,← zpow_add₀ (by norm_num)]
      simp
    simp only [Decimal.magnitude,magnitude,same,neg_neg,Int.toNat_natCast]
    push_cast
    calc (f.mantissa : ℚ) * 5 ^ e * 10 ^ (-(e : Int))
        = f.mantissa * (5 ^ e * 5 ^ (-(e : Int))) * 2 ^ (-(e : Int)) := by
          rw [ten]
          ring
      _ = f.mantissa * 2 ^ (-(e : Int)) := by rw [five,mul_one]

variable {f : Binary64} {n : Nat}

variable {count : Nat} {d : Decimal}

theorem reads_candidate (found : f.candidate count = some d) :
    f.Reads d ∧ d.exponent = f.point count := by
  unfold candidate at found
  dsimp only at found
  split at found
  · obtain rfl := Option.some.inj found
    exact ⟨‹_›,rfl⟩
  · split at found
    · obtain rfl := Option.some.inj found
      exact ⟨‹_›,rfl⟩
    · contradiction

/-- What the search ends with. -/
theorem shortest_cases (f : Binary64) : (∃ d, d.magnitude = f.shortest.magnitude ∧
      ∃ count, f.candidate count = some d) ∨ f.shortest.magnitude = f.magnitude := by
  unfold shortest
  rw [Decimal.magnitude_trimmed]
  cases search : (List.range 17).findSome? fun count => f.candidate (count + 1) with
  | none => exact .inr (magnitude_exact f)
  | some d =>
    obtain ⟨count,_,found⟩ := List.exists_of_findSome?_eq_some search
    exact .inl ⟨d,rfl,count + 1,found⟩

/-- The shortest decimal rounds to the number it was made from. -/
theorem reads_shortest (f : Binary64) : f.Reads f.shortest := by
  unfold Reads
  rcases shortest_cases f with ⟨d,same,count,found⟩ | same
  · rw [← same]
    exact (reads_candidate found).1
  · rw [same]
    exact round_magnitude f

/-- A decimal that ends in a zero rounds to no integer up to 2 to the 53rd but itself. -/
theorem round_tens {negative : Bool} {tens : Nat} (small : n ≤ 2 ^ 53)
    (rounded : round negative ((tens * 10 : Nat) : ℚ) = some f) (integer : f.magnitude = n) : tens * 10 = n := by
  have moved := (round_error (by positivity) rounded).2
  rw [integer] at moved
  rcases Nat.eq_zero_or_pos (tens * 10) with zero | positive
  · rw [zero] at moved ⊢
    have least : scale ((0 : Nat) : ℚ) = -1074 := by simp [scale]
    rw [least] at moved
    have less : (n : ℚ) < 1 := by
      have bound : (2 : ℚ) ^ (-1074 : Int) ≤ 1 := zpow_le_one_of_nonpos₀ (by norm_num) (by norm_num)
      have half := le_trans moved (div_le_div_of_nonneg_right bound (by norm_num))
      have upper := (abs_le.mp half).2
      push_cast at upper
      linarith only [upper]
    have less : n < 1 := by exact_mod_cast less
    omega
  · have below : 2 ^ Nat.log 2 (tens * 10) ≤ tens * 10 := Nat.pow_log_le_self 2 (Nat.ne_of_gt positive)
    have step : (2 : ℚ) ^ scale ((tens * 10 : Nat) : ℚ) * 2 ^ 52 ≤ (tens * 10 : Nat) := by
      have joined : ((Nat.log 2 (tens * 10) : Int) - 52) + (52 : Nat) = (Nat.log 2 (tens * 10) : Nat) := by
        omega
      rw [scale_natCast positive,← zpow_natCast (2 : ℚ) 52,← zpow_add₀ (by norm_num),joined,zpow_natCast]
      exact_mod_cast below
    obtain ⟨lower,upper⟩ := abs_le.mp moved
    have lower : (2 ^ 53 : ℚ) * ((tens * 10 : Nat) - n) ≤ (tens * 10 : Nat) := by linarith
    have upper : (2 ^ 53 : ℚ) * (n - (tens * 10 : Nat)) ≤ (tens * 10 : Nat) := by linarith
    have lower : (2 ^ 53 : Int) * ((tens * 10 : Nat) - n) ≤ (tens * 10 : Nat) := by exact_mod_cast lower
    have upper : (2 ^ 53 : Int) * (n - (tens * 10 : Nat)) ≤ (tens * 10 : Nat) := by exact_mod_cast upper
    rcases Nat.lt_trichotomy (tens * 10) n with less | same | more
    · omega
    · exact same
    · obtain ⟨apart,distance⟩ := Nat.exists_eq_add_of_lt more
      have next : apart = 0 := by omega
      omega

/-- The search finds the digits of an integer up to 2 to the 53rd, and nothing else. -/
theorem candidate_integer (small : n ≤ 2 ^ 53) (integer : f.magnitude = n) (found : f.candidate count = some d) : d.magnitude = n := by
  obtain ⟨reads,at_point⟩ := reads_candidate found
  by_cases ends : 1 ≤ d.exponent
  · obtain ⟨zeros,same⟩ : ∃ zeros : Nat, d.exponent = (zeros + 1 : Nat) := ⟨(d.exponent - 1).toNat,by omega⟩
    have tens : d.magnitude = ((d.digits * 10 ^ zeros * 10 : Nat) : ℚ) := by
      unfold Decimal.magnitude
      rw [same,zpow_natCast,pow_succ]
      push_cast
      ring
    unfold Reads at reads
    rw [tens] at reads ⊢
    exact_mod_cast round_tens small reads integer
  · obtain ⟨places,same⟩ : ∃ places : Nat, f.point count = -(places : Int) :=
      ⟨(-f.point count).toNat,by omega⟩
    have steps : f.magnitude / 10 ^ f.point count = ((n * 10 ^ places : Nat) : ℚ) := by
      rw [integer,same]
      push_cast
      simp
    have whole : (⟨nearest (f.magnitude / 10 ^ f.point count),f.point count⟩ : Decimal).magnitude = n := by
      unfold Decimal.magnitude
      dsimp only
      rw [steps,nearest_natCast,← steps,div_mul_cancel₀ _ (ne_of_gt (zpow_pos (by norm_num) _)),integer]
    have near : f.Reads ⟨nearest (f.magnitude / 10 ^ f.point count),f.point count⟩ := by
      unfold Reads
      rw [whole,← integer]
      exact round_magnitude f
    unfold candidate at found
    dsimp only at found
    rw [if_pos near] at found
    obtain rfl := Option.some.inj found
    exact whole

theorem shortest_integer (small : n ≤ 2 ^ 53) (integer : f.magnitude = n) :
    f.shortest.magnitude = n := by
  rcases shortest_cases f with ⟨d,same,count,found⟩ | same
  · rw [← same]
    exact candidate_integer small integer found
  · rw [same,integer]

theorem shortest_zero (zero : f.magnitude = 0) : f.shortest = ⟨0,0⟩ := by
  have here : f.point 1 = 0 := by simp [point,zero]
  have steps : f.magnitude / 10 ^ f.point 1 = ((0 : Nat) : ℚ) := by simp [zero]
  have reads : f.Reads ⟨0,0⟩ := by
    have same : (⟨0,0⟩ : Decimal).magnitude = f.magnitude := by simp [Decimal.magnitude,zero]
    unfold Reads
    rw [same]
    exact round_magnitude f
  have first : f.candidate 1 = some ⟨0,0⟩ := by
    unfold candidate
    dsimp only
    rw [steps,nearest_natCast,here,if_pos reads]
  unfold shortest
  rw [List.range_succ_eq_map,List.findSome?_cons,first]
  rfl

/-- The shortest decimal of an integer up to 2 to the 53rd is that integer, without a point. -/
theorem shortest_digits (small : n ≤ 2 ^ 53) (integer : f.magnitude = n) :
    ∃ zeros : Nat, f.shortest.exponent = zeros ∧ f.shortest.digits * 10 ^ zeros = n := by
  rcases Nat.eq_zero_or_pos n with rfl | positive
  · rw [shortest_zero (by simpa using integer)]
    exact ⟨0,rfl,rfl⟩
  · have same := shortest_integer small integer
    unfold Decimal.magnitude at same
    by_cases point : 0 ≤ f.shortest.exponent
    · obtain ⟨zeros,exponent⟩ := Int.eq_ofNat_of_zero_le point
      rw [exponent,zpow_natCast] at same
      exact ⟨zeros,exponent,by exact_mod_cast same⟩
    · obtain ⟨places,exponent⟩ : ∃ places : Nat, f.shortest.exponent = -((places + 1 : Nat) : Int) :=
        ⟨(-f.shortest.exponent - 1).toNat,by omega⟩
      have digits : f.shortest.digits = n * 10 ^ places * 10 := by
        rw [exponent,zpow_neg,zpow_natCast,← div_eq_mul_inv,div_eq_iff (by positivity)] at same
        have exact_digits : f.shortest.digits = n * 10 ^ (places + 1) := by exact_mod_cast same
        rw [exact_digits,pow_succ,Nat.mul_assoc]
      have nonzero : 0 < n * 10 ^ places := by positivity
      rcases (((List.range 17).findSome? fun count => f.candidate (count + 1)).getD f.exact).trimmed_ends with
        zero | last
      · change f.shortest.digits = 0 at zero
        omega
      · change f.shortest.digits % 10 ≠ 0 at last
        omega

end Binary64
