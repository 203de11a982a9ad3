import Mathlib.Data.List.Induction
import Mathlib.Data.String.Basic

/-! JSON texts. A value keeps its numbers as they are written, so that a compact text
determines the value it was written from: reading it gives that value back. -/
namespace JsonText

structure Exponent where
  capital : Bool
  sign : Option Bool
  first : Fin 10
  rest : List (Fin 10)
  deriving DecidableEq

/-- A number as it is written. The whole part has no leading zeros, and no fraction is an
empty list of digits. -/
structure Literal where
  negative : Bool
  whole : Nat
  fraction : List (Fin 10)
  exponent : Option Exponent
  deriving DecidableEq

inductive Value where
  | null
  | bool (value : Bool)
  | number (literal : Literal)
  | string (text : String)
  | array (items : List Value)
  | object (fields : List (String × Value))

def digitChar (digit : Fin 10) : Char := Nat.digitChar digit

def Exponent.text (exponent : Exponent) : List Char :=
  (if exponent.capital then 'E' else 'e') ::
    (match exponent.sign with
      | none => []
      | some false => ['+']
      | some true => ['-']) ++ (exponent.first :: exponent.rest).map digitChar

def Literal.text (literal : Literal) : List Char :=
  (if literal.negative then ['-'] else []) ++ Nat.toDigits 10 literal.whole ++
    (if literal.fraction = [] then [] else '.' :: literal.fraction.map digitChar) ++
    (literal.exponent.map Exponent.text).getD []

def quoted (escape : Char → List Char) (text : String) : List Char :=
  '"' :: text.toList.flatMap escape ++ ['"']

def separated (texts : List (List Char)) : List Char := List.intercalate [','] texts

mutual
def Value.text (escape : Char → List Char) : Value → List Char
  | .null => ['n','u','l','l']
  | .bool true => ['t','r','u','e']
  | .bool false => ['f','a','l','s','e']
  | .number literal => literal.text
  | .string text => quoted escape text
  | .array items => '[' :: separated (itemTexts escape items) ++ [']']
  | .object fields => '{' :: separated (fieldTexts escape fields) ++ ['}']

def itemTexts (escape : Char → List Char) : List Value → List (List Char)
  | [] => []
  | value :: rest => value.text escape :: itemTexts escape rest

def fieldTexts (escape : Char → List Char) : List (String × Value) → List (List Char)
  | [] => []
  | (key,value) :: rest => (quoted escape key ++ ':' :: value.text escape) :: fieldTexts escape rest
end

def digitOf (c : Char) : Fin 10 := Fin.ofNat 10 (c.toNat - '0'.toNat)

def readWhole : List Char → Option (Nat × List Char)
  | '0' :: rest => some (0,rest)
  | cs =>
    match cs.takeWhile Char.isDigit with
    | [] => none
    | digits => some (Nat.ofDigitChars 10 digits 0,cs.dropWhile Char.isDigit)

def readFraction : List Char → Option (List (Fin 10) × List Char)
  | '.' :: rest =>
    match rest.takeWhile Char.isDigit with
    | [] => none
    | digits => some (digits.map digitOf,rest.dropWhile Char.isDigit)
  | cs => some ([],cs)

def readSign : List Char → Option Bool × List Char
  | '+' :: rest => (some false,rest)
  | '-' :: rest => (some true,rest)
  | cs => (none,cs)

def readExponent : List Char → Option (Option Exponent × List Char)
  | c :: rest =>
    if c = 'e' ∨ c = 'E' then
      match (readSign rest).2.takeWhile Char.isDigit with
      | [] => none
      | digit :: digits =>
        some (some ⟨c = 'E',(readSign rest).1,digitOf digit,digits.map digitOf⟩,
          (readSign rest).2.dropWhile Char.isDigit)
    else some (none,c :: rest)
  | [] => some (none,[])

def readMinus : List Char → Bool × List Char
  | '-' :: rest => (true,rest)
  | cs => (false,cs)

def readNumber (cs : List Char) : Option (Literal × List Char) := do
  let (whole,afterWhole) ← readWhole (readMinus cs).2
  let (fraction,afterFraction) ← readFraction afterWhole
  let (exponent,rest) ← readExponent afterFraction
  return (⟨(readMinus cs).1,whole,fraction,exponent⟩,rest)

def hexDigit (c : Char) : Option Nat :=
  if '0' ≤ c ∧ c ≤ '9' then some (c.toNat - '0'.toNat)
  else if 'a' ≤ c ∧ c ≤ 'f' then some (c.toNat - 'a'.toNat + 10)
  else if 'A' ≤ c ∧ c ≤ 'F' then some (c.toNat - 'A'.toNat + 10)
  else none

def readHex : List Char → Option (Nat × List Char)
  | a :: b :: c :: d :: rest => do
    let a ← hexDigit a
    let b ← hexDigit b
    let c ← hexDigit c
    let d ← hexDigit d
    return (((a * 16 + b) * 16 + c) * 16 + d,rest)
  | _ => none

/-- What stands for a surrogate without its partner. -/
def replacement : Char := Char.ofNat 0xFFFD

/-- The second half of a surrogate pair, where there is one. -/
def readLowSurrogate : List Char → Option (Nat × List Char)
  | '\\' :: 'u' :: rest => (readHex rest).filter fun low => 0xDC00 ≤ low.1 ∧ low.1 < 0xE000
  | _ => none

def readUnicode (cs : List Char) : Option (Char × List Char) := do
  let (unit,rest) ← readHex cs
  if 0xD800 ≤ unit ∧ unit < 0xDC00 then
    match readLowSurrogate rest with
    | some (low,rest) => return (Char.ofNat (0x10000 + (unit - 0xD800) * 0x400 + (low - 0xDC00)),rest)
    | none => return (replacement,rest)
  else if 0xDC00 ≤ unit ∧ unit < 0xE000 then return (replacement,rest)
  else return (Char.ofNat unit,rest)

def readEscape : List Char → Option (Char × List Char)
  | '"' :: rest => some ('"',rest)
  | '\\' :: rest => some ('\\',rest)
  | '/' :: rest => some ('/',rest)
  | 'b' :: rest => some ('\x08',rest)
  | 'f' :: rest => some ('\x0c',rest)
  | 'n' :: rest => some ('\n',rest)
  | 'r' :: rest => some ('\r',rest)
  | 't' :: rest => some ('\t',rest)
  | 'u' :: rest => readUnicode rest
  | _ => none

/-- One character of a text: written itself, or as an escape sequence. -/
def readChar : List Char → Option (Char × List Char)
  | '\\' :: rest => readEscape rest
  | c :: rest => if c.toNat < 0x20 then none else some (c,rest)
  | [] => none

/-- The characters up to the closing quote; as much fuel as there are characters is enough. -/
def readChars : Nat → List Char → Option (List Char × List Char)
  | 0,_ => none
  | _ + 1,'"' :: rest => some ([],rest)
  | fuel + 1,cs => do
    let (c,afterChar) ← readChar cs
    let (text,rest) ← readChars fuel afterChar
    return (c :: text,rest)

def readString (cs : List Char) : Option (String × List Char) :=
  (readChars cs.length cs).map fun read => (String.ofList read.1,read.2)

def isSpace (c : Char) : Bool := c = ' ' || c = '\t' || c = '\n' || c = '\r'

def skipSpaces (cs : List Char) : List Char := cs.dropWhile isSpace

def readScalar : List Char → Option (Value × List Char)
  | 'n' :: 'u' :: 'l' :: 'l' :: rest => some (.null,rest)
  | 't' :: 'r' :: 'u' :: 'e' :: rest => some (.bool true,rest)
  | 'f' :: 'a' :: 'l' :: 's' :: 'e' :: rest => some (.bool false,rest)
  | '"' :: rest => (readString rest).map fun read => (.string read.1,read.2)
  | cs => (readNumber cs).map fun read => (.number read.1,read.2)

section
variable {α : Type} (read : List Char → Option (α × List Char)) (close : Char)

/-- One entry or more, up to the closing bracket. -/
def readEntries : Nat → List Char → Option (List α × List Char)
  | 0,_ => none
  | fuel + 1,cs => do
    let (entry,afterEntry) ← read cs
    match skipSpaces afterEntry with
    | ',' :: rest => do
      let (entries,rest) ← readEntries fuel rest
      return (entry :: entries,rest)
    | c :: rest => if c = close then return ([entry],rest) else none
    | [] => none

/-- The entries after an opening bracket. -/
def readList (cs : List Char) : Option (List α × List Char) :=
  match skipSpaces cs with
  | c :: rest => if c = close then some ([],rest) else readEntries read close cs.length cs
  | [] => none

/-- A key, a colon and a value. -/
def readField (cs : List Char) : Option ((String × α) × List Char) :=
  match skipSpaces cs with
  | '"' :: afterQuote => do
    let (key,afterKey) ← readString afterQuote
    match skipSpaces afterKey with
    | ':' :: afterColon => do
      let (value,rest) ← read afterColon
      return ((key,value),rest)
    | _ => none
  | _ => none

end

/-- A field given again replaces the one before. -/
def assign {α : Type} (fields : List (String × α)) (field : String × α) : List (String × α) :=
  if field.1 ∈ fields.map Prod.fst then
    fields.map fun old => if old.1 = field.1 then field else old
  else fields ++ [field]

/-- The value at the head of a text, and what follows it. Arrays and objects nest at most
`depth` times. -/
def readValue : (depth : Nat) → List Char → Option (Value × List Char)
  | 0,cs => readScalar (skipSpaces cs)
  | depth + 1,cs =>
    match skipSpaces cs with
    | '[' :: rest => (readList (readValue depth) ']' rest).map fun read => (.array read.1,read.2)
    | '{' :: rest =>
      (readList (readField (readValue depth)) '}' rest).map fun read =>
        (.object (read.1.foldl assign []),read.2)
    | cs => readScalar cs

@[simp] theorem isDigit_digitChar (digit : Fin 10) : (digitChar digit).isDigit = true := by
  unfold digitChar
  rw [Nat.isDigit_digitChar]
  exact decide_eq_true digit.isLt

@[simp] theorem digitOf_digitChar (digit : Fin 10) : digitOf (digitChar digit) = digit := by
  unfold digitOf digitChar
  rw [Nat.toNat_digitChar_of_lt_ten digit.isLt]
  apply Fin.ext
  have bound := digit.isLt
  simp only [Fin.ofNat,Char.reduceToNat]
  omega

theorem map_digitOf (digits : List (Fin 10)) : (digits.map digitChar).map digitOf = digits := by
  rw [List.map_map]
  exact (List.map_congr_left fun digit _ => digitOf_digitChar digit).trans (List.map_id digits)

/-- What may follow a value inside a text. -/
def Closed (rest : List Char) : Prop := ∀ c cs, rest = c :: cs → c = ',' ∨ c = ']' ∨ c = '}'

theorem closed_nil : Closed [] := by
  intro c cs impossible
  contradiction

/-- The text does not go on with a digit. -/
def Undigited (rest : List Char) : Prop := ∀ c cs, rest = c :: cs → c.isDigit = false

variable {rest : List Char} {c : Char}

theorem Closed.undigited (closed : Closed rest) : Undigited rest := by
  intro c cs here
  rcases closed c cs here with rfl | rfl | rfl <;> rfl

theorem undigited_cons (other : c.isDigit = false) (rest : List Char) : Undigited (c :: rest) := by
  rintro _ _ ⟨⟩
  exact other

variable {digits : List Char} {n : Nat}

theorem takeWhile_digits (all : ∀ c ∈ digits, c.isDigit = true)
    (ends : Undigited rest) : (digits ++ rest).takeWhile Char.isDigit = digits := by
  rw [List.takeWhile_append_of_pos all]
  cases rest with
  | nil => simp
  | cons c cs => rw [List.takeWhile_cons_of_neg (by simp [ends c cs rfl]),List.append_nil]

theorem dropWhile_digits (all : ∀ c ∈ digits, c.isDigit = true)
    (ends : Undigited rest) : (digits ++ rest).dropWhile Char.isDigit = rest := by
  rw [List.dropWhile_append_of_pos all]
  cases rest with
  | nil => rfl
  | cons c cs => rw [List.dropWhile_cons_of_neg (by simp [ends c cs rfl])]

/-- A number that is not zero begins with a digit that is not zero. -/
theorem toDigits_cons (positive : 0 < n) :
    ∃ c cs, Nat.toDigits 10 n = c :: cs ∧ c ≠ '0' := by
  induction n using Nat.strongRecOn with
  | _ n ih =>
    by_cases small : n < 10
    · refine ⟨Nat.digitChar n,[],Nat.toDigits_of_lt_base small,?_⟩
      rw [Ne,Nat.digitChar_eq_zero]
      omega
    · obtain ⟨c,cs,front,differ⟩ := ih (n / 10) (by omega) (by omega)
      refine ⟨c,cs ++ [Nat.digitChar (n % 10)],?_,differ⟩
      rw [Nat.toDigits_of_base_le (by omega) (by omega),front]
      rfl

theorem isDigit_toDigits (member : c ∈ Nat.toDigits 10 n) : c.isDigit = true :=
  Nat.isDigit_of_mem_toDigits (by omega) (by omega) member

theorem readWhole_toDigits (n : Nat) (ends : Undigited rest) :
    readWhole (Nat.toDigits 10 n ++ rest) = some (n,rest) := by
  rcases Nat.eq_zero_or_pos n with rfl | positive
  · rfl
  · obtain ⟨c,cs,front,differ⟩ := toDigits_cons positive
    have taken : (Nat.toDigits 10 n ++ rest).takeWhile Char.isDigit = Nat.toDigits 10 n :=
      takeWhile_digits (fun _ => isDigit_toDigits) ends
    have dropped : (Nat.toDigits 10 n ++ rest).dropWhile Char.isDigit = rest :=
      dropWhile_digits (fun _ => isDigit_toDigits) ends
    have value : Nat.ofDigitChars 10 (c :: cs) 0 = n := by
      rw [← front,Nat.ofDigitChars_ten_toDigits]
    rw [front] at taken dropped ⊢
    unfold readWhole
    split
    · rename_i same
      exact absurd (List.cons.inj same).1 differ
    · rw [taken,dropped]
      simp only [value]

theorem isDigit_mem {digits : List (Fin 10)} (member : c ∈ digits.map digitChar) :
    c.isDigit = true := by
  obtain ⟨digit,_,rfl⟩ := List.mem_map.mp member
  exact isDigit_digitChar digit

def fractionText (fraction : List (Fin 10)) : List Char :=
  if fraction = [] then [] else '.' :: fraction.map digitChar

theorem readFraction_text {fraction : List (Fin 10)} (ends : Undigited rest)
    (unpointed : ∀ cs, rest ≠ '.' :: cs) :
    readFraction (fractionText fraction ++ rest) = some (fraction,rest) := by
  cases fraction with
  | nil =>
    change readFraction rest = _
    unfold readFraction
    split
    · exact absurd rfl (unpointed _)
    · rfl
  | cons digit digits =>
    have taken : ((digit :: digits).map digitChar ++ rest).takeWhile Char.isDigit =
        (digit :: digits).map digitChar := takeWhile_digits (fun _ => isDigit_mem) ends
    have dropped : ((digit :: digits).map digitChar ++ rest).dropWhile Char.isDigit = rest :=
      dropWhile_digits (fun _ => isDigit_mem) ends
    change (match ((digit :: digits).map digitChar ++ rest).takeWhile Char.isDigit with
      | [] => none
      | found => some (found.map digitOf,((digit :: digits).map digitChar ++ rest).dropWhile Char.isDigit)) = _
    rw [taken,dropped]
    change some (((digit :: digits).map digitChar).map digitOf,rest) = _
    rw [map_digitOf]

theorem readSign_text (sign : Option Bool)
    (digit : ∃ c cs, rest = c :: cs ∧ c.isDigit = true) :
    readSign ((match sign with
      | none => []
      | some false => ['+']
      | some true => ['-']) ++ rest) = (sign,rest) := by
  obtain ⟨c,cs,rfl,isDigit⟩ := digit
  rcases sign with _ | _ | _
  · change readSign (c :: cs) = _
    unfold readSign
    split
    · rename_i same
      obtain rfl := (List.cons.inj same).1
      contradiction
    · rename_i same
      obtain rfl := (List.cons.inj same).1
      contradiction
    · rfl
  · rfl
  · rfl

theorem readExponent_text (exponent : Exponent) (ends : Undigited rest) :
    readExponent (exponent.text ++ rest) = some (some exponent,rest) := by
  obtain ⟨capital,sign,first,digits⟩ := exponent
  have digit : ∃ c cs, (first :: digits).map digitChar ++ rest = c :: cs ∧ c.isDigit = true :=
    ⟨digitChar first,digits.map digitChar ++ rest,rfl,isDigit_digitChar first⟩
  have signed := readSign_text sign digit
  have taken : ((first :: digits).map digitChar ++ rest).takeWhile Char.isDigit =
      (first :: digits).map digitChar := takeWhile_digits (fun _ => isDigit_mem) ends
  have dropped : ((first :: digits).map digitChar ++ rest).dropWhile Char.isDigit = rest :=
    dropWhile_digits (fun _ => isDigit_mem) ends
  have letter : (if capital then 'E' else 'e') = 'e' ∨ (if capital then 'E' else 'e') = 'E' := by
    cases capital <;> simp
  have capitals : decide ((if capital then 'E' else 'e') = 'E') = capital := by
    cases capital <;> rfl
  simp only [Exponent.text,List.cons_append,List.append_assoc]
  unfold readExponent
  dsimp only
  rw [if_pos letter]
  simp only [List.map_cons,List.cons_append] at signed taken dropped ⊢
  rw [signed]
  dsimp only
  rw [taken,dropped]
  simp only [capitals,digitOf_digitChar,map_digitOf]

theorem readExponent_none (closed : Closed rest) :
    readExponent rest = some (none,rest) := by
  cases rest with
  | nil => rfl
  | cons c cs =>
    have other : ¬(c = 'e' ∨ c = 'E') := by
      rcases closed c cs rfl with rfl | rfl | rfl <;> decide
    exact if_neg other

theorem readMinus_text (negative : Bool)
    (digit : ∃ c cs, rest = c :: cs ∧ c.isDigit = true) :
    readMinus ((if negative then ['-'] else []) ++ rest) = (negative,rest) := by
  cases negative with
  | true => rfl
  | false =>
    obtain ⟨c,cs,rfl,isDigit⟩ := digit
    change readMinus (c :: cs) = _
    unfold readMinus
    split
    · rename_i same
      obtain rfl := (List.cons.inj same).1
      contradiction
    · rfl

theorem toDigits_head (n : Nat) (rest : List Char) :
    ∃ c cs, Nat.toDigits 10 n ++ rest = c :: cs ∧ c.isDigit = true := by
  cases digits : Nat.toDigits 10 n with
  | nil => exact absurd digits Nat.toDigits_ne_nil
  | cons c cs =>
    have member : c ∈ Nat.toDigits 10 n := by
      rw [digits]
      exact List.mem_cons_self
    exact ⟨c,cs ++ rest,rfl,isDigit_toDigits member⟩

def exponentText (exponent : Option Exponent) : List Char := (exponent.map Exponent.text).getD []

theorem literal_text (literal : Literal) : literal.text = (if literal.negative then ['-'] else []) ++
    (Nat.toDigits 10 literal.whole ++ (fractionText literal.fraction ++ exponentText literal.exponent)) := by
  simp [Literal.text,fractionText,exponentText]

theorem exponentText_head (exponent : Option Exponent) (closed : Closed rest) :
    ∀ c cs, exponentText exponent ++ rest = c :: cs → c.isDigit = false ∧ c ≠ '.' := by
  intro c cs here
  cases exponent with
  | none =>
    rcases closed c cs here with rfl | rfl | rfl <;> exact ⟨rfl,by decide⟩
  | some exponent =>
    obtain ⟨capital,sign,first,digits⟩ := exponent
    obtain rfl : (if capital then 'E' else 'e') = c := (List.cons.inj here).1
    cases capital <;> exact ⟨rfl,by decide⟩

theorem fractionText_undigited (fraction : List (Fin 10)) (ends : Undigited rest) :
    Undigited (fractionText fraction ++ rest) := by
  cases fraction with
  | nil => exact ends
  | cons digit digits => exact undigited_cons rfl _

theorem readNumber_text (literal : Literal) (closed : Closed rest) :
    readNumber (literal.text ++ rest) = some (literal,rest) := by
  have ends : Undigited (exponentText literal.exponent ++ rest) :=
    fun c cs here => (exponentText_head literal.exponent closed c cs here).1
  have unpointed : ∀ cs, exponentText literal.exponent ++ rest ≠ '.' :: cs :=
    fun cs here => (exponentText_head literal.exponent closed '.' cs here).2 rfl
  have minus := readMinus_text literal.negative (toDigits_head literal.whole
    (fractionText literal.fraction ++ (exponentText literal.exponent ++ rest)))
  have whole := readWhole_toDigits literal.whole (fractionText_undigited literal.fraction ends)
  have fraction : readFraction (fractionText literal.fraction ++ (exponentText literal.exponent ++ rest)) =
      some (literal.fraction,exponentText literal.exponent ++ rest) := readFraction_text ends unpointed
  have exponent : readExponent (exponentText literal.exponent ++ rest) = some (literal.exponent,rest) := by
    cases literal.exponent with
    | none => exact readExponent_none closed
    | some exponent => exact readExponent_text exponent closed.undigited
  rw [literal_text]
  simp only [List.append_assoc]
  unfold readNumber
  rw [minus]
  simp [whole,fraction,exponent]

/-- Every character is read back from the way it is written. -/
structure Reads (escape : Char → List Char) : Prop where
  char : ∀ c rest, readChar (escape c ++ rest) = some (c,rest)
  head : ∀ c, ∃ d ds, escape c = d :: ds ∧ d ≠ '"'

variable {escape : Char → List Char}

theorem Reads.length_le (reads : Reads escape) (cs : List Char) : cs.length ≤ (cs.flatMap escape).length := by
  induction cs with
  | nil => exact Nat.le_refl _
  | cons c cs ih =>
    obtain ⟨d,ds,front,_⟩ := reads.head c
    simp only [List.flatMap_cons,List.length_append,List.length_cons,front]
    omega

theorem Reads.chars (reads : Reads escape) (cs rest : List Char) (fuel : Nat) (enough : cs.length < fuel) :
    readChars fuel (cs.flatMap escape ++ '"' :: rest) = some (cs,rest) := by
  induction cs generalizing fuel with
  | nil =>
    obtain ⟨fuel,rfl⟩ := Nat.exists_eq_add_of_lt enough
    rfl
  | cons c cs ih =>
    cases fuel with
    | zero => simp at enough
    | succ fuel =>
      obtain ⟨d,ds,front,differ⟩ := reads.head c
      have read := reads.char c (cs.flatMap escape ++ '"' :: rest)
      have goesOn := ih fuel (by simpa using enough)
      simp only [List.flatMap_cons,List.append_assoc]
      rw [front] at read ⊢
      simp only [List.cons_append] at read ⊢
      unfold readChars
      split
      · contradiction
      · rename_i same
        exact absurd (List.cons.inj same).1 differ
      · rename_i same _
        obtain rfl := Nat.succ.inj same
        simp [read,goesOn]

theorem Reads.string (reads : Reads escape) (text : String) (rest : List Char) :
    readString (text.toList.flatMap escape ++ '"' :: rest) = some (text,rest) := by
  have enough : text.toList.length < (text.toList.flatMap escape ++ '"' :: rest).length := by
    have longer := reads.length_le text.toList
    simp only [List.length_append,List.length_cons]
    omega
  unfold readString
  rw [reads.chars text.toList rest _ enough]
  simp

section
variable {α : Type} {read : List Char → Option (α × List Char)} {close : Char} {write : α → List Char}

def Begins (close : Char) (text : List Char) : Prop :=
  ∃ c cs, text = c :: cs ∧ isSpace c = false ∧ c ≠ close

theorem Begins.skipSpaces {text rest : List Char} (begins : Begins close text) :
    skipSpaces (text ++ rest) = text ++ rest := by
  obtain ⟨c,cs,rfl,visible,_⟩ := begins
  exact List.dropWhile_cons_of_neg (by simp [visible])

theorem separated_cons_cons (text next : List Char) (texts : List (List Char)) :
    separated (text :: next :: texts) = text ++ ',' :: separated (next :: texts) := by
  simp [separated,List.intercalate_cons_cons]

theorem readEntries_separated (bracket : close = ']' ∨ close = '}') (entries : List α) (filled : entries ≠ [])
    (reads : ∀ entry ∈ entries, ∀ rest, Closed rest → read (write entry ++ rest) = some (entry,rest))
    (rest : List Char) (fuel : Nat) (enough : entries.length ≤ fuel) :
    readEntries read close fuel (separated (entries.map write) ++ close :: rest) = some (entries,rest) := by
  induction entries generalizing fuel with
  | nil => contradiction
  | cons entry entries ih =>
    cases fuel with
    | zero => simp at enough
    | succ fuel =>
      cases entries with
      | nil =>
        have closed : Closed (close :: rest) := by
          rintro _ _ ⟨⟩
          rcases bracket with rfl | rfl <;> simp
        have first := reads entry List.mem_cons_self (close :: rest) closed
        simp only [List.map_cons,List.map_nil,separated,List.intercalate_singleton]
        unfold readEntries
        rw [first]
        rcases bracket with rfl | rfl <;> rfl
      | cons next entries =>
        have closed : Closed (',' :: (separated ((next :: entries).map write) ++ close :: rest)) := by
          rintro _ _ ⟨⟩
          simp
        have first := reads entry List.mem_cons_self _ closed
        have others := ih (List.cons_ne_nil next entries)
          (fun entry member => reads entry (List.mem_cons_of_mem _ member)) fuel (by simpa using enough)
        simp only [List.map_cons,separated_cons_cons,List.append_assoc,List.cons_append] at first others ⊢
        unfold readEntries
        rw [first]
        change ((readEntries read close fuel _).bind fun found => some (entry :: found.1,found.2)) = _
        rw [others]
        rfl

theorem separated_head (text : List Char) (texts : List (List Char)) :
    ∃ rest, separated (text :: texts) = text ++ rest := by
  cases texts with
  | nil => exact ⟨[],by simp [separated]⟩
  | cons next texts => exact ⟨_,separated_cons_cons text next texts⟩

theorem length_le_separated (texts : List (List Char)) (filled : ∀ text ∈ texts, text ≠ []) :
    texts.length ≤ (separated texts).length := by
  induction texts with
  | nil => exact Nat.zero_le _
  | cons text texts ih =>
    have here := List.length_pos_iff.mpr (filled text List.mem_cons_self)
    cases texts with
    | nil =>
      simp only [separated,List.intercalate_singleton,List.length_singleton]
      omega
    | cons next texts =>
      have others := ih fun text member => filled text (List.mem_cons_of_mem _ member)
      simp only [separated_cons_cons,List.length_append,List.length_cons] at others ⊢
      omega

theorem readList_separated (bracket : close = ']' ∨ close = '}') (entries : List α)
    (begins : ∀ entry ∈ entries, Begins close (write entry))
    (reads : ∀ entry ∈ entries, ∀ rest, Closed rest → read (write entry ++ rest) = some (entry,rest))
    (rest : List Char) :
    readList read close (separated (entries.map write) ++ close :: rest) = some (entries,rest) := by
  cases entries with
  | nil => rcases bracket with rfl | rfl <;> rfl
  | cons entry entries =>
    obtain ⟨tail,front⟩ := separated_head (write entry) (entries.map write)
    have begun := begins entry List.mem_cons_self
    have filled : ∀ text ∈ (entry :: entries).map write, text ≠ [] := by
      intro text member
      obtain ⟨other,here,rfl⟩ := List.mem_map.mp member
      obtain ⟨c,cs,nonempty,_⟩ := begins other here
      rw [nonempty]
      exact List.cons_ne_nil c cs
    have enough : (entry :: entries).length ≤
        (separated ((entry :: entries).map write) ++ close :: rest).length := by
      have longer := length_le_separated _ filled
      rw [List.length_map] at longer
      rw [List.length_append]
      omega
    have entriesRead := readEntries_separated bracket (entry :: entries) (List.cons_ne_nil entry entries)
      reads rest _ enough
    have unspaced : skipSpaces (separated ((entry :: entries).map write) ++ close :: rest) =
        separated ((entry :: entries).map write) ++ close :: rest := by
      rw [List.map_cons,front,List.append_assoc]
      exact begun.skipSpaces
    unfold readList
    rw [unspaced]
    obtain ⟨c,cs,first,_,differ⟩ := begun
    have shape : separated ((entry :: entries).map write) ++ close :: rest =
        c :: (cs ++ tail ++ close :: rest) := by
      rw [List.map_cons,front,first]
      simp
    rw [shape] at entriesRead ⊢
    dsimp only
    rw [if_neg differ]
    exact entriesRead

end

/-- Nested at most `depth` times, and no object has a key twice. -/
def Value.Fits : Nat → Value → Prop
  | 0,.array _ | 0,.object _ => False
  | depth + 1,.array items => ∀ item ∈ items, item.Fits depth
  | depth + 1,.object fields => (fields.map Prod.fst).Nodup ∧ ∀ field ∈ fields, field.2.Fits depth
  | _,_ => True

theorem itemTexts_eq (items : List Value) : itemTexts escape items = items.map (Value.text escape) := by
  induction items with
  | nil => rfl
  | cons item items ih => simp only [itemTexts,List.map_cons,ih]

def fieldText (escape : Char → List Char) (field : String × Value) : List Char :=
  quoted escape field.1 ++ ':' :: field.2.text escape

theorem fieldTexts_eq (fields : List (String × Value)) :
    fieldTexts escape fields = fields.map (fieldText escape) := by
  induction fields with
  | nil => rfl
  | cons field fields ih =>
    obtain ⟨key,value⟩ := field
    simp [fieldTexts,ih,fieldText]

/-- A number begins with its sign or a digit. -/
theorem literal_head (literal : Literal) (rest : List Char) :
    ∃ c cs, literal.text ++ rest = c :: cs ∧ (c = '-' ∨ c.isDigit = true) := by
  rw [literal_text]
  cases literal.negative with
  | true => exact ⟨'-',_,rfl,.inl rfl⟩
  | false =>
    obtain ⟨c,cs,front,digit⟩ := toDigits_head literal.whole
      (fractionText literal.fraction ++ exponentText literal.exponent ++ rest)
    exact ⟨c,cs,by simpa using front,.inr digit⟩

theorem digit_visible {c : Char} (digit : c.isDigit = true) : isSpace c = false ∧
    c ≠ ']' ∧ c ≠ '}' ∧ c ≠ 'n' ∧ c ≠ 't' ∧ c ≠ 'f' ∧ c ≠ '"' ∧ c ≠ '[' ∧ c ≠ '{' := by
  refine ⟨?_,?_,?_,?_,?_,?_,?_,?_,?_⟩
  · by_contra space
    simp only [isSpace,Bool.not_eq_false,Bool.or_eq_true,decide_eq_true_eq] at space
    rcases space with ((rfl | rfl) | rfl) | rfl <;> contradiction
  all_goals
    rintro rfl
    contradiction

/-- No value begins with a space or ends a list. -/
theorem text_begins (value : Value) {close : Char} (bracket : close = ']' ∨ close = '}') :
    Begins close (value.text escape) := by
  have plain : ∀ c : Char, isSpace c = false → c ≠ ']' → c ≠ '}' → ∀ cs, Begins close (c :: cs) := by
    intro c visible first second cs
    refine ⟨c,cs,rfl,visible,?_⟩
    rcases bracket with rfl | rfl
    · exact first
    · exact second
  cases value with
  | null => exact plain 'n' rfl (by decide) (by decide) _
  | bool value =>
    cases value with
    | true => exact plain 't' rfl (by decide) (by decide) _
    | false => exact plain 'f' rfl (by decide) (by decide) _
  | number literal =>
    obtain ⟨c,cs,front,head⟩ := literal_head literal []
    rw [List.append_nil] at front
    simp only [Value.text]
    rw [front]
    rcases head with rfl | digit
    · exact plain '-' rfl (by decide) (by decide) _
    · exact plain c (digit_visible digit).1 (digit_visible digit).2.1 (digit_visible digit).2.2.1 _
  | string text => exact plain '"' rfl (by decide) (by decide) _
  | array items => exact plain '[' rfl (by decide) (by decide) _
  | object fields => exact plain '{' rfl (by decide) (by decide) _

theorem readScalar_quote (rest : List Char) :
    readScalar ('"' :: rest) = (readString rest).map fun read => (.string read.1,read.2) := rfl

variable {α : Type} {rest : List Char} {value : Value}

theorem readField_quote (read : List Char → Option (α × List Char)) (rest : List Char) :
    readField read ('"' :: rest) = (readString rest).bind fun key =>
      match skipSpaces key.2 with
      | ':' :: afterColon => (read afterColon).bind fun value => some ((key.1,value.1),value.2)
      | _ => none := rfl

theorem readValue_array (depth : Nat) (rest : List Char) : readValue (depth + 1) ('[' :: rest) =
    (readList (readValue depth) ']' rest).map fun read => (.array read.1,read.2) := rfl

theorem readValue_object (depth : Nat) (rest : List Char) : readValue (depth + 1) ('{' :: rest) =
    (readList (readField (readValue depth)) '}' rest).map fun read =>
      (.object (read.1.foldl assign []),read.2) := rfl

theorem readValue_scalar (depth : Nat) {c : Char} {cs : List Char} (visible : isSpace c = false)
    (first : c ≠ '[') (second : c ≠ '{') : readValue depth (c :: cs) = readScalar (c :: cs) := by
  have unspaced : skipSpaces (c :: cs) = c :: cs := List.dropWhile_cons_of_neg (by simp [visible])
  cases depth with
  | zero =>
    unfold readValue
    rw [unspaced]
  | succ depth =>
    unfold readValue
    rw [unspaced]
    split
    · exact absurd (List.cons.inj ‹_›).1 first
    · exact absurd (List.cons.inj ‹_›).1 second
    · rfl

def Value.isScalar : Value → Bool
  | .array _ | .object _ => false
  | _ => true

theorem readScalar_text (reads : Reads escape) (scalar : value.isScalar = true) (closed : Closed rest) :
    readScalar (value.text escape ++ rest) = some (value,rest) := by
  cases value with
  | null => rfl
  | bool value => cases value <;> rfl
  | number literal =>
    obtain ⟨c,cs,front,head⟩ := literal_head literal rest
    have read := readNumber_text literal closed
    simp only [Value.text]
    rw [front] at read ⊢
    have other : c ≠ 'n' ∧ c ≠ 't' ∧ c ≠ 'f' ∧ c ≠ '"' := by
      rcases head with rfl | digit
      · decide
      · exact ⟨(digit_visible digit).2.2.2.1,(digit_visible digit).2.2.2.2.1,
          (digit_visible digit).2.2.2.2.2.1,(digit_visible digit).2.2.2.2.2.2.1⟩
    unfold readScalar
    split
    · exact absurd (List.cons.inj ‹_›).1 other.1
    · exact absurd (List.cons.inj ‹_›).1 other.2.1
    · exact absurd (List.cons.inj ‹_›).1 other.2.2.1
    · exact absurd (List.cons.inj ‹_›).1 other.2.2.2
    · rw [read]
      rfl
  | string text =>
    have read := reads.string text rest
    simp only [Value.text,quoted,List.cons_append,List.append_assoc,List.nil_append]
    rw [readScalar_quote,read]
    rfl
  | array | object => contradiction

/-- A text of a scalar is no bracket. -/
theorem scalar_head (scalar : value.isScalar = true) (rest : List Char) :
    ∃ c cs, value.text escape ++ rest = c :: cs ∧ isSpace c = false ∧ c ≠ '[' ∧ c ≠ '{' := by
  cases value with
  | null => exact ⟨'n',_,rfl,rfl,by decide,by decide⟩
  | bool value =>
    cases value with
    | true => exact ⟨'t',_,rfl,rfl,by decide,by decide⟩
    | false => exact ⟨'f',_,rfl,rfl,by decide,by decide⟩
  | number literal =>
    obtain ⟨c,cs,front,head⟩ := literal_head literal rest
    refine ⟨c,cs,front,?_⟩
    rcases head with rfl | digit
    · exact ⟨rfl,by decide,by decide⟩
    · exact ⟨(digit_visible digit).1,(digit_visible digit).2.2.2.2.2.2.2⟩
  | string text => exact ⟨'"',_,rfl,rfl,by decide,by decide⟩
  | array | object => contradiction

theorem assign_fresh {fields : List (String × α)} {field : String × α}
    (fresh : field.1 ∉ fields.map Prod.fst) : assign fields field = fields ++ [field] := if_neg fresh

/-- Fields with different keys all stay. -/
theorem foldl_assign (fields before : List (String × α))
    (unique : ((before ++ fields).map Prod.fst).Nodup) : fields.foldl assign before = before ++ fields := by
  induction fields generalizing before with
  | nil => simp
  | cons field fields ih =>
    have fresh : field.1 ∉ before.map Prod.fst := by
      rw [List.map_append,List.nodup_append] at unique
      intro member
      exact unique.2.2 field.1 member field.1 (by simp) rfl
    rw [List.foldl_cons,assign_fresh fresh,ih _ (by simpa using unique)]
    simp

theorem readField_text (reads : Reads escape) {read : List Char → Option (Value × List Char)}
    {field : String × Value}
    (value : read (field.2.text escape ++ rest) = some (field.2,rest)) :
    readField read (fieldText escape field ++ rest) = some (field,rest) := by
  have key := reads.string field.1 (':' :: (field.2.text escape ++ rest))
  have shape : fieldText escape field ++ rest =
      '"' :: (field.1.toList.flatMap escape ++ '"' :: ':' :: (field.2.text escape ++ rest)) := by
    simp [fieldText,quoted]
  rw [shape,readField_quote,key]
  change (read (field.2.text escape ++ rest)).bind _ = _
  rw [value]
  rfl

theorem readValue_scalarText (reads : Reads escape) (scalar : value.isScalar = true)
    (depth : Nat) (closed : Closed rest) :
    readValue depth (value.text escape ++ rest) = some (value,rest) := by
  obtain ⟨c,cs,front,visible,first,second⟩ : ∃ c cs, value.text escape ++ rest = c :: cs ∧
      isSpace c = false ∧ c ≠ '[' ∧ c ≠ '{' := scalar_head scalar rest
  rw [front,readValue_scalar depth visible first second,← front]
  exact readScalar_text reads scalar closed

/-- A compact text is read back as the value it was written from. -/
theorem readValue_text (reads : Reads escape) (depth : Nat) (value : Value) (fits : value.Fits depth)
    (rest : List Char) (closed : Closed rest) :
    readValue depth (value.text escape ++ rest) = some (value,rest) := by
  induction depth generalizing value rest with
  | zero =>
    have scalar : value.isScalar = true := by
      cases value <;> first | rfl | contradiction
    exact readValue_scalarText reads scalar 0 closed
  | succ depth ih =>
    cases value with
    | array items =>
      have items_read : readList (readValue depth) ']' (separated (items.map (Value.text escape)) ++ ']' :: rest) =
          some (items,rest) :=
        readList_separated (.inl rfl) items (fun item _ => text_begins item (.inl rfl))
          (fun item member => ih item (fits item member)) rest
      simp only [Value.text,itemTexts_eq,List.cons_append,List.append_assoc,List.nil_append]
      rw [readValue_array,items_read]
      rfl
    | object fields =>
      have begins : ∀ field ∈ fields, Begins '}' (fieldText escape field) :=
        fun field _ => ⟨'"',_,rfl,rfl,by decide⟩
      have fields_read : readList (readField (readValue depth)) '}'
          (separated (fields.map (fieldText escape)) ++ '}' :: rest) = some (fields,rest) :=
        readList_separated (.inr rfl) fields begins
          (fun field member rest closed => readField_text reads (ih field.2 (fits.2 field member) rest closed))
          rest
      simp only [Value.text,fieldTexts_eq,List.cons_append,List.append_assoc,List.nil_append]
      rw [readValue_object,fields_read]
      simp [foldl_assign fields [] (by simpa using fits.1)]
    | null | bool | number | string => exact readValue_scalarText reads rfl _ closed

section
variable {α : Type} {read : List Char → Option (α × List Char)} {close : Char} {P : α → Prop}

variable {cs rest : List Char}

variable {entries : List α}

theorem readEntries_all (each : ∀ cs entry rest, read cs = some (entry,rest) → P entry) {fuel : Nat}
    (found : readEntries read close fuel cs = some (entries,rest)) : ∀ entry ∈ entries, P entry := by
  induction fuel generalizing cs entries rest with
  | zero => contradiction
  | succ fuel ih =>
    unfold readEntries at found
    obtain ⟨⟨entry,afterEntry⟩,first,found⟩ := Option.bind_eq_some_iff.mp found
    have here := each cs entry afterEntry first
    dsimp only at found
    split at found
    · obtain ⟨⟨others,tail⟩,read,same⟩ := Option.bind_eq_some_iff.mp found
      obtain ⟨rfl,rfl⟩ := Prod.mk.inj (Option.some.inj same)
      intro other member
      rcases List.mem_cons.mp member with rfl | member
      · exact here
      · exact ih read other member
    · split at found
      · obtain ⟨rfl,rfl⟩ := Prod.mk.inj (Option.some.inj found)
        intro other member
        rw [List.mem_singleton.mp member]
        exact here
      · contradiction
    · contradiction

theorem readList_all (each : ∀ cs entry rest, read cs = some (entry,rest) → P entry) (found : readList read close cs = some (entries,rest)) :
    ∀ entry ∈ entries, P entry := by
  unfold readList at found
  split at found
  · split at found
    · obtain ⟨rfl,_⟩ := Prod.mk.inj (Option.some.inj found)
      simp
    · exact readEntries_all each found
  · contradiction

theorem readField_value {Q : α → Prop} (each : ∀ cs value rest, read cs = some (value,rest) → Q value) {field : String × α}
    (found : readField read cs = some (field,rest)) : Q field.2 := by
  unfold readField at found
  split at found
  · obtain ⟨key,_,found⟩ := Option.bind_eq_some_iff.mp found
    dsimp only at found
    split at found
    · obtain ⟨⟨value,tail⟩,read,same⟩ := Option.bind_eq_some_iff.mp found
      obtain ⟨rfl,_⟩ := Prod.mk.inj (Option.some.inj same)
      exact each _ _ _ read
    · contradiction
  · contradiction

end

variable {α : Type} {value : Value}

variable {field : String × α} {fields : List (String × α)} {cs rest : List Char}

theorem keys_assign
    (known : field.1 ∈ fields.map Prod.fst) :
    (assign fields field).map Prod.fst = fields.map Prod.fst := by
  unfold assign
  rw [if_pos known,List.map_map]
  apply List.map_congr_left
  intro old _
  simp only [Function.comp_apply]
  split
  · rename_i same
    exact same.symm
  · rfl

theorem nodup_foldl_assign (fields before : List (String × α))
    (unique : (before.map Prod.fst).Nodup) : ((fields.foldl assign before).map Prod.fst).Nodup := by
  induction fields generalizing before with
  | nil => exact unique
  | cons field fields ih =>
    apply ih
    by_cases known : field.1 ∈ before.map Prod.fst
    · rw [keys_assign known]
      exact unique
    · rw [assign_fresh known,List.map_append,List.nodup_append]
      refine ⟨unique,by simp,?_⟩
      rintro key member _ single rfl
      rw [List.map_singleton,List.mem_singleton] at single
      exact known (single ▸ member)

theorem mem_foldl_assign {before : List (String × α)}
    (member : field ∈ fields.foldl assign before) : field ∈ before ∨ field ∈ fields := by
  induction fields generalizing before with
  | nil => exact .inl member
  | cons first fields ih =>
    rcases ih member with old | later
    · unfold assign at old
      split at old
      · obtain ⟨previous,here,same⟩ := List.mem_map.mp old
        split at same
        · exact .inr (by simp [same])
        · exact .inl (same ▸ here)
      · rcases List.mem_append.mp old with old | single
        · exact .inl old
        · exact .inr (by simp [List.mem_singleton.mp single])
    · exact .inr (List.mem_cons_of_mem _ later)

theorem fits_of_scalar (scalar : value.isScalar = true) (depth : Nat) : value.Fits depth := by
  cases value with
  | array | object => contradiction
  | null | bool | number | string => cases depth <;> trivial

theorem isScalar_of_readScalar
    (found : readScalar cs = some (value,rest)) : value.isScalar = true := by
  unfold readScalar at found
  split at found
  · obtain ⟨rfl,_⟩ := Prod.mk.inj (Option.some.inj found)
    rfl
  · obtain ⟨rfl,_⟩ := Prod.mk.inj (Option.some.inj found)
    rfl
  · obtain ⟨rfl,_⟩ := Prod.mk.inj (Option.some.inj found)
    rfl
  all_goals
    obtain ⟨_,_,same⟩ := Option.map_eq_some_iff.mp found
    obtain ⟨rfl,_⟩ := Prod.mk.inj same
    rfl

/-- A value that is read nests no deeper than allowed, and its objects have no key twice. -/
theorem fits_of_read {depth : Nat}
    (found : readValue depth cs = some (value,rest)) : value.Fits depth := by
  induction depth generalizing cs value rest with
  | zero => exact fits_of_scalar (isScalar_of_readScalar found) 0
  | succ depth ih =>
    have each : ∀ cs value rest, readValue depth cs = some (value,rest) → value.Fits depth :=
      fun _ _ _ found => ih found
    unfold readValue at found
    split at found
    · obtain ⟨⟨items,tail⟩,read,same⟩ := Option.map_eq_some_iff.mp found
      obtain ⟨rfl,_⟩ := Prod.mk.inj same
      exact readList_all each read
    · obtain ⟨⟨fields,tail⟩,read,same⟩ := Option.map_eq_some_iff.mp found
      obtain ⟨rfl,_⟩ := Prod.mk.inj same
      refine ⟨nodup_foldl_assign fields [] List.nodup_nil,?_⟩
      intro field member
      have given : ∀ cs field rest, readField (readValue depth) cs = some (field,rest) →
          field.2.Fits depth := fun _ _ _ found => readField_value each found
      rcases mem_foldl_assign member with impossible | member
      · contradiction
      · exact readList_all given read field member
    · exact fits_of_scalar (isScalar_of_readScalar found) _

end JsonText
