import Vigile.Binary64
import Vigile.JsonText

/-! Numbers as they are written and the magnitudes they denote: the decimal of a literal,
and the literals of a decimal with a point or with an exponent. -/
namespace JsonText

def digitsValue (digits : List (Fin 10)) : Nat := digits.foldl (fun value digit => value * 10 + digit.val) 0

def Exponent.value (exponent : Exponent) : Int :=
  if exponent.sign = some true then -(digitsValue (exponent.first :: exponent.rest) : Int)
  else digitsValue (exponent.first :: exponent.rest)

def Literal.decimal (literal : Literal) : Decimal :=
  ⟨literal.whole * 10 ^ literal.fraction.length + digitsValue literal.fraction,
    (literal.exponent.map Exponent.value).getD 0 - literal.fraction.length⟩

def Literal.magnitude (literal : Literal) : ℚ := literal.decimal.magnitude

def Literal.value (literal : Literal) : ℚ :=
  if literal.negative then -literal.magnitude else literal.magnitude

/-- The number nearest to what is written; none where it is too large. -/
def Literal.binary64 (literal : Literal) : Option Binary64 :=
  Binary64.round literal.negative literal.magnitude

/-- Neither a point nor an exponent. -/
def Literal.Plain (literal : Literal) : Prop := literal.fraction = [] ∧ literal.exponent = none

instance (literal : Literal) : Decidable literal.Plain :=
  inferInstanceAs (Decidable (literal.fraction = [] ∧ literal.exponent = none))

def Literal.integer (n : Int) : Literal := ⟨decide (n < 0),n.natAbs,[],none⟩

def lastDigit (n : Nat) : Fin 10 := ⟨n % 10,Nat.mod_lt n (by decide)⟩

def lastDigits : Nat → Nat → List (Fin 10)
  | 0,_ => []
  | count + 1,n => lastDigits count (n / 10) ++ [lastDigit n]

def Exponent.of (least : Nat) (e : Int) : Exponent :=
  let others := max least (Nat.log 10 e.natAbs)
  ⟨false,some (decide (e < 0)),lastDigit (e.natAbs / 10 ^ others),lastDigits others e.natAbs⟩

def Literal.fixed (negative : Bool) (d : Decimal) : Literal :=
  if 0 ≤ d.exponent then ⟨negative,d.digits * 10 ^ d.exponent.toNat,[],none⟩
  else ⟨negative,d.digits / 10 ^ (-d.exponent).toNat,lastDigits (-d.exponent).toNat d.digits,none⟩

def leading (d : Decimal) : Int := d.exponent + Nat.log 10 d.digits

/-- A decimal with one digit before its point and an exponent. -/
def Literal.scientific (least : Nat) (negative : Bool) (d : Decimal) : Literal :=
  ⟨negative,d.digits / 10 ^ Nat.log 10 d.digits,lastDigits (Nat.log 10 d.digits) d.digits,
    some (.of least (leading d))⟩

theorem digitsValue_concat (digits : List (Fin 10)) (digit : Fin 10) :
    digitsValue (digits ++ [digit]) = digitsValue digits * 10 + digit := by
  unfold digitsValue
  rw [List.foldl_append,List.foldl_cons,List.foldl_nil]

theorem digitsValue_cons (digit : Fin 10) (digits : List (Fin 10)) :
    digitsValue (digit :: digits) = digit * 10 ^ digits.length + digitsValue digits := by
  induction digits using List.reverseRecOn with
  | nil => simp [digitsValue]
  | append_singleton digits last ih =>
    rw [← List.cons_append,digitsValue_concat,ih,digitsValue_concat,List.length_append,
      List.length_singleton,pow_succ]
    ring

@[simp] theorem length_lastDigits (count n : Nat) : (lastDigits count n).length = count := by
  induction count generalizing n with
  | zero => rfl
  | succ count ih => simp [lastDigits,ih]

theorem digitsValue_lastDigits (count n : Nat) : digitsValue (lastDigits count n) = n % 10 ^ count := by
  induction count generalizing n with
  | zero => simp [lastDigits,digitsValue,Nat.mod_one]
  | succ count ih =>
    have split := Nat.mod_mul (x := n) (a := 10) (b := 10 ^ count)
    rw [lastDigits,digitsValue_concat,ih,pow_succ,Nat.mul_comm (10 ^ count) 10,split]
    simp only [lastDigit]
    ring

theorem div_pow_log_lt (n : Nat) {others : Nat} (enough : Nat.log 10 n ≤ others) : n / 10 ^ others < 10 := by
  rw [Nat.div_lt_iff_lt_mul (by positivity),← pow_succ']
  exact lt_of_lt_of_le (Nat.lt_pow_succ_log_self (by omega) n) (Nat.pow_le_pow_right (by omega) (by omega))

@[simp] theorem value_exponent (least : Nat) (e : Int) : (Exponent.of least e).value = e := by
  have digits : digitsValue ((Exponent.of least e).first :: (Exponent.of least e).rest) = e.natAbs := by
    have first := div_pow_log_lt e.natAbs (le_max_right least (Nat.log 10 e.natAbs))
    simp only [Exponent.of]
    rw [digitsValue_cons,digitsValue_lastDigits,length_lastDigits]
    simp only [lastDigit,Nat.mod_eq_of_lt first]
    exact Nat.div_add_mod' _ _
  unfold Exponent.value
  rw [digits]
  by_cases negative : e < 0
  · simp only [Exponent.of,negative,decide_true,if_true]
    omega
  · simp only [Exponent.of,negative,decide_false]
    rw [if_neg (by simp)]
    omega

@[simp] theorem magnitude_integer (n : Int) : (Literal.integer n).magnitude = n.natAbs := by
  simp [Literal.integer,Literal.magnitude,Literal.decimal,Decimal.magnitude,digitsValue]

@[simp] theorem value_integer (n : Int) : (Literal.integer n).value = n := by
  unfold Literal.value
  rw [magnitude_integer]
  by_cases negative : n < 0
  · have absolute : ((n.natAbs : Nat) : ℚ) = -n := by
      rw [Nat.cast_natAbs,abs_of_neg negative,Int.cast_neg]
    simp [Literal.integer,negative,absolute]
  · have absolute : ((n.natAbs : Nat) : ℚ) = n := by
      rw [Nat.cast_natAbs,abs_of_nonneg (not_lt.mp negative)]
    simp [Literal.integer,negative,absolute]

@[simp] theorem magnitude_fixed (negative : Bool) (d : Decimal) :
    (Literal.fixed negative d).magnitude = d.magnitude := by
  unfold Literal.fixed
  split
  · rename_i above
    obtain ⟨e,same⟩ := Int.eq_ofNat_of_zero_le above
    simp [Literal.magnitude,Literal.decimal,Decimal.magnitude,digitsValue,same]
  · rename_i below
    obtain ⟨e,same⟩ : ∃ e : Nat, d.exponent = -(e : Int) := ⟨(-d.exponent).toNat,by omega⟩
    simp only [Literal.magnitude,Literal.decimal,Decimal.magnitude,length_lastDigits,digitsValue_lastDigits,same,
      neg_neg,Int.toNat_natCast,Nat.div_add_mod']
    simp

@[simp] theorem magnitude_scientific (least : Nat) (negative : Bool) (d : Decimal) :
    (Literal.scientific least negative d).magnitude = d.magnitude := by
  simp only [Literal.scientific,Literal.magnitude,Literal.decimal,Decimal.magnitude,length_lastDigits,
    digitsValue_lastDigits,Nat.div_add_mod',Option.map_some,Option.getD_some,value_exponent,leading]
  simp

end JsonText
