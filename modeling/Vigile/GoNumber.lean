import Vigile.DecimalText

/-! Numbers as Go converts and formats them. A conversion of a number that int64 does not
hold gives what the machine gives. -/
namespace Go

open JsonText

structure Platform where
  overflow : Binary64 → BitVec 64

def truncated (f : Binary64) : Int :=
  if f.negative then -(⌊f.magnitude⌋₊ : Int) else (⌊f.magnitude⌋₊ : Int)

def int64 (platform : Platform) (f : Binary64) : Int :=
  if -2 ^ 63 ≤ truncated f ∧ truncated f < 2 ^ 63 then truncated f else (platform.overflow f).toInt

def float64 (n : Int) : Option Binary64 := Binary64.round (decide (n < 0)) n.natAbs

def formatInt (n : Int) : Literal := .integer n

/-- strconv.FormatFloat with 'g' and the shortest precision, for which six digits decide
between the two forms. -/
def formatFloat (f : Binary64) : Literal :=
  if leading f.shortest < -4 ∨ 6 ≤ leading f.shortest then .scientific 1 f.negative f.shortest
  else .fixed f.negative f.shortest

def millionth : Binary64 := ⟨false,4722366482869645,-72,by decide⟩

/-- How encoding/json writes a float64: the exponents of small numbers have no zero in front. -/
def marshalFloat (f : Binary64) : Literal :=
  if f.magnitude ≠ 0 ∧ (f.magnitude < millionth.magnitude ∨ 10 ^ 21 ≤ f.magnitude) then
    .scientific 0 f.negative f.shortest
  else .fixed f.negative f.shortest

@[simp] theorem formatFloat_negative (f : Binary64) : (formatFloat f).negative = f.negative := by
  unfold formatFloat Literal.fixed
  repeat' split
  all_goals rfl

@[simp] theorem formatFloat_magnitude (f : Binary64) : (formatFloat f).magnitude = f.shortest.magnitude := by
  unfold formatFloat
  split <;> simp

@[simp] theorem marshalFloat_negative (f : Binary64) : (marshalFloat f).negative = f.negative := by
  unfold marshalFloat Literal.fixed
  repeat' split
  all_goals rfl

@[simp] theorem marshalFloat_magnitude (f : Binary64) : (marshalFloat f).magnitude = f.shortest.magnitude := by
  unfold marshalFloat
  split <;> simp

/-- A number is formatted as a decimal that rounds to it. -/
theorem formatFloat_reads (f : Binary64) : (formatFloat f).binary64 = some f := by
  unfold Literal.binary64
  rw [formatFloat_negative,formatFloat_magnitude]
  exact f.reads_shortest

theorem marshalFloat_reads (f : Binary64) : (marshalFloat f).binary64 = some f := by
  unfold Literal.binary64
  rw [marshalFloat_negative,marshalFloat_magnitude]
  exact f.reads_shortest

variable {f : Binary64} {n : Nat}

theorem truncated_integer (integer : f.magnitude = n) :
    truncated f = if f.negative then -(n : Int) else n := by
  unfold truncated
  rw [integer,Nat.floor_natCast]

/-- An integer up to 2 to the 53rd survives the way to int64. -/
theorem int64_integer (platform : Platform) (small : n ≤ 2 ^ 53)
    (integer : f.magnitude = n) : int64 platform f = if f.negative then -(n : Int) else n := by
  have fits : -2 ^ 63 ≤ truncated f ∧ truncated f < 2 ^ 63 := by
    rw [truncated_integer integer]
    split <;> constructor <;> omega
  unfold int64
  rw [if_pos fits]
  exact truncated_integer integer

theorem log_mul_pow (nonzero : n ≠ 0) (zeros : Nat) :
    Nat.log 10 (n * 10 ^ zeros) = Nat.log 10 n + zeros := by
  induction zeros with
  | zero => simp
  | succ zeros ih =>
    have more : n * 10 ^ zeros ≠ 0 := by positivity
    rw [pow_succ,← Nat.mul_assoc,Nat.log_mul_base (by omega) more,ih]
    omega

theorem leading_digits {d : Decimal} {zeros : Nat} (exponent : d.exponent = zeros)
    (digits : d.digits * 10 ^ zeros = n) (positive : 0 < n) : leading d = Nat.log 10 n := by
  have nonzero : d.digits ≠ 0 := by
    rintro none
    rw [none,Nat.zero_mul] at digits
    omega
  unfold leading
  rw [exponent,← digits,log_mul_pow nonzero]
  push_cast
  ring

/-- An integer of six digits at most is formatted without a point and without an exponent. -/
theorem formatFloat_short (short : n < 10 ^ 6) (integer : f.magnitude = n) :
    formatFloat f = ⟨f.negative,n,[],none⟩ := by
  obtain ⟨zeros,exponent,digits⟩ := Binary64.shortest_digits (by omega) integer
  have fixed : Literal.fixed f.negative f.shortest = ⟨f.negative,n,[],none⟩ := by
    unfold Literal.fixed
    rw [if_pos (by omega),exponent,Int.toNat_natCast,digits]
  have plain : ¬(leading f.shortest < -4 ∨ 6 ≤ leading f.shortest) := by
    rcases Nat.eq_zero_or_pos n with rfl | positive
    · rw [Binary64.shortest_zero (by simpa using integer)]
      simp [leading]
    · have small : Nat.log 10 n < 6 := Nat.log_lt_of_lt_pow (Nat.ne_of_gt positive) short
      rw [leading_digits exponent digits positive]
      omega
  unfold formatFloat
  rw [if_neg plain,fixed]

end Go
