import Mathlib.Algebra.Order.Round
import Mathlib.Data.Rat.Floor

/-! Fields joined by one separator character, and decimal texts. Joining forgets where
a field ends but not the separated segments, so two joined texts agree exactly when
their segments do. -/
namespace DelimitedText

def segments (sep : Char) (text : String) : List (List Char) := text.toList.splitOn sep

def join (sep : Char) (fields : List String) : String :=
  (String.singleton sep).intercalate fields

variable {sep : Char}

theorem segments_injective : Function.Injective (segments sep) := by
  intro a b equal
  have joined := congrArg (List.intercalate [sep]) equal
  simp only [segments,List.intercalate_splitOn] at joined
  exact String.toList_injective joined

theorem segments_of_not_mem {text : String} (absent : sep ∉ text.toList) :
    segments sep text = [text.toList] := List.splitOn_eq_singleton absent

theorem join_cons_cons (field next : String) (rest : List String) :
    (join sep (field :: next :: rest)).toList =
      field.toList ++ sep :: (join sep (next :: rest)).toList := by
  simp [join,String.toList_intercalate]

variable {fields rest rest' : List String} {field : String} {c : Char}

/-- A joined text has the segments of its fields, in order. -/
theorem segments_join (filled : fields ≠ []) :
    segments sep (join sep fields) = fields.flatMap (segments sep) := by
  induction fields with
  | nil => contradiction
  | cons field rest ih =>
    cases rest with
    | nil => simp [join]
    | cons next rest =>
      have tail := ih (List.cons_ne_nil next rest)
      simp only [segments,join_cons_cons,List.splitOn_append_cons_self] at tail ⊢
      rw [tail]
      rfl

/-- Joined texts agree exactly when the segments of their fields do. -/
theorem join_eq_iff {fields' : List String} (filled : fields ≠ []) (filled' : fields' ≠ []) :
    join sep fields = join sep fields' ↔
      fields.flatMap (segments sep) = fields'.flatMap (segments sep) := by
  rw [← segments_join filled,← segments_join filled']
  exact segments_injective.eq_iff.symm

/-- An equal leading field can be cancelled, whatever it contains. -/
theorem flatMap_cons_left_eq_iff :
    (field :: rest).flatMap (segments sep) = (field :: rest').flatMap (segments sep) ↔
      rest.flatMap (segments sep) = rest'.flatMap (segments sep) := by
  simp

/-- A leading field without the separator can be read back. -/
theorem flatMap_cons_eq_iff {field' : String}
    (absent : sep ∉ field.toList) (absent' : sep ∉ field'.toList) :
    (field :: rest).flatMap (segments sep) = (field' :: rest').flatMap (segments sep) ↔
      field = field' ∧ rest.flatMap (segments sep) = rest'.flatMap (segments sep) := by
  simp [segments_of_not_mem absent,segments_of_not_mem absent',String.toList_inj]

theorem not_mem_toDigits (other : c.isDigit = false) (n : Nat) :
    c ∉ Nat.toDigits 10 n := by
  intro member
  have digit := Nat.isDigit_of_mem_toDigits (by decide) (by decide) member
  simp [digit] at other

theorem repr_injective : Function.Injective Nat.repr := by
  intro m n equal
  have digits := congrArg (fun text => Nat.ofDigitChars 10 text.toList 0) equal
  simpa only [Nat.toList_repr,Nat.ofDigitChars_ten_toDigits] using digits

/-- Python's `str` of an integer. -/
def decimal (n : Int) : String :=
  match n with
  | .ofNat m => Nat.repr m
  | .negSucc m => "-" ++ Nat.repr (m+1)

theorem not_mem_decimal (other : c.isDigit = false) (unsigned : c ≠ '-') (n : Int) :
    c ∉ (decimal n).toList := by
  cases n with
  | ofNat m => simpa [decimal] using not_mem_toDigits other m
  | negSucc m => simpa [decimal,unsigned] using not_mem_toDigits other (m+1)

private theorem unsigned_ne_signed (m : Nat) (text : String) : Nat.repr m ≠ "-" ++ text := by
  intro equal
  have sign : '-' ∈ (Nat.repr m).toList := by simp [equal]
  rw [Nat.toList_repr] at sign
  exact not_mem_toDigits (by decide) m sign

theorem decimal_injective : Function.Injective decimal := by
  intro a b equal
  cases a with
  | ofNat m =>
    cases b with
    | ofNat n => exact congrArg _ (repr_injective equal)
    | negSucc n => exact absurd equal (unsigned_ne_signed m _)
  | negSucc m =>
    cases b with
    | ofNat n => exact absurd equal.symm (unsigned_ne_signed n _)
    | negSucc n =>
      have same : Nat.repr (m+1) = Nat.repr (n+1) := by simpa [decimal] using equal
      exact congrArg _ (Nat.succ.inj (repr_injective same))

/-- To the nearest integer, a tie to the even one. -/
def roundEven (q : ℚ) : Int :=
  if q - ⌊q⌋ < 1/2 then ⌊q⌋
  else if 1/2 < q - ⌊q⌋ then ⌊q⌋ + 1
  else if ⌊q⌋ % 2 = 0 then ⌊q⌋ else ⌊q⌋ + 1

def padded (width : Nat) (text : String) : String :=
  String.ofList (List.replicate (width - text.length) '0') ++ text

/-- Fixed-point text with `places` decimals, as the format `.<places>f` writes it. -/
def fixed (places : Nat) (q : ℚ) : String :=
  let scaled := (roundEven (|q| * 10 ^ places)).toNat
  (if q < 0 then "-" else "") ++ Nat.repr (scaled / 10 ^ places) ++ "." ++
    padded places (Nat.repr (scaled % 10 ^ places))

theorem not_mem_fixed (other : c.isDigit = false) (unsigned : c ≠ '-') (point : c ≠ '.')
    (places : Nat) (q : ℚ) : c ∉ (fixed places q).toList := by
  have zero : c ≠ '0' := by rintro rfl; simp at other
  have sign : c ∉ (if q < 0 then "-" else "").toList := by split <;> simp [unsigned]
  simp [fixed,padded,sign,not_mem_toDigits other,point,List.mem_replicate,zero]

example : fixed 6 (3/2) = "1.500000" := by decide +kernel
example : fixed 1 (-1/4) = "-0.2" := by decide +kernel

end DelimitedText
