import Mathlib.Data.Char
import Mathlib.Data.List.Lex
import Mathlib.Data.Prod.Lex
import Mathlib.Data.Sum.Order
import Mathlib.Order.WithBot

/-! Versions of Semantic Versioning 2.0.0: their texts, and their precedence. -/
namespace SemanticVersion

def isIdentifierChar (c : Char) : Bool := c.isAlphanum || c = '-'

inductive Identifier where
  | numeric (n : Nat)
  | alphanumeric (text : List Char) (valid : (∀ c ∈ text, isIdentifierChar c) ∧ ∃ c ∈ text, c.isDigit = false)

structure BuildIdentifier where
  text : List Char
  valid : text ≠ [] ∧ ∀ c ∈ text, isIdentifierChar c

structure Version where
  major : Nat
  minor : Nat
  patch : Nat
  prerelease : List Identifier
  build : List BuildIdentifier

def Identifier.text : Identifier → List Char
  | .numeric n => Nat.toDigits 10 n
  | .alphanumeric text _ => text

/-- Identifiers after a character that begins them, where there are any. -/
def dotted (begins : Char) : List (List Char) → List Char
  | [] => []
  | texts => begins :: List.intercalate ['.'] texts

def Version.coreText (v : Version) : List Char :=
  List.intercalate ['.'] [Nat.toDigits 10 v.major,Nat.toDigits 10 v.minor,Nat.toDigits 10 v.patch]

def Version.text (v : Version) : List Char :=
  v.coreText ++ dotted '-' (v.prerelease.map Identifier.text) ++ dotted '+' (v.build.map BuildIdentifier.text)

/-- Numbers come before texts, which are compared by their ASCII characters. -/
def Identifier.rank : Identifier → Nat ⊕ₗ List Char
  | .numeric n => Sum.inlₗ n
  | .alphanumeric text _ => Sum.inrₗ text

def Version.core (v : Version) : Nat ×ₗ Nat ×ₗ Nat := toLex (v.major,toLex (v.minor,v.patch))

/-- A pre-release comes before its release; the first identifiers that differ decide, or else the number of them. -/
def Version.stage (v : Version) : WithTop (List (Nat ⊕ₗ List Char)) :=
  if v.prerelease = [] then ⊤ else ((v.prerelease.map Identifier.rank : List (Nat ⊕ₗ List Char)) : WithTop _)

def Version.rank (v : Version) : (Nat ×ₗ Nat ×ₗ Nat) ×ₗ WithTop (List (Nat ⊕ₗ List Char)) := toLex (v.core,v.stage)

/-- The second version has the higher precedence. -/
def Version.Precedes (v w : Version) : Prop := v.rank < w.rank

variable {v w : Version} {c : Char}

theorem precedes_iff : v.Precedes w ↔ v.core < w.core ∨ v.core = w.core ∧ v.stage < w.stage :=
  Prod.Lex.toLex_lt_toLex

theorem core_lt_iff : v.core < w.core ↔ v.major < w.major ∨ v.major = w.major ∧
    (v.minor < w.minor ∨ v.minor = w.minor ∧ v.patch < w.patch) := by
  simp only [Version.core,Prod.Lex.toLex_lt_toLex]

/-- Where the numbers differ, they decide. -/
theorem precedes_of_differ (differ : v.core ≠ w.core) : v.Precedes w ↔ v.core < w.core := by
  constructor
  · intro precedes
    exact (precedes_iff.mp precedes).resolve_right fun same => differ same.1
  · exact fun below => precedes_iff.mpr (.inl below)

theorem Version.Precedes.trans {u : Version} (first : u.Precedes v) (second : v.Precedes w) : u.Precedes w :=
  lt_trans (a := u.rank) first second

theorem isIdentifierChar_digit (digit : c.isDigit = true) : isIdentifierChar c = true := by
  simp [isIdentifierChar,Char.isAlphanum,digit]

theorem isDigit_mem_toDigits {n : Nat} (member : c ∈ Nat.toDigits 10 n) : c.isDigit = true :=
  Nat.isDigit_of_mem_toDigits (by omega) (by omega) member

theorem mem_intercalate {texts : List (List Char)} (member : c ∈ List.intercalate ['.'] texts) :
    c = '.' ∨ ∃ text ∈ texts, c ∈ text := by
  induction texts with
  | nil => cases member
  | cons text rest ih =>
    cases rest with
    | nil =>
      rw [List.intercalate_singleton] at member
      exact .inr ⟨text,List.mem_cons_self,member⟩
    | cons next rest =>
      rw [List.intercalate_cons_cons,List.append_assoc,List.mem_append,List.mem_append,List.mem_singleton] at member
      rcases member with here | dot | later
      · exact .inr ⟨text,List.mem_cons_self,here⟩
      · exact .inl dot
      · rcases ih later with dot | ⟨other,listed,inside⟩
        · exact .inl dot
        · exact .inr ⟨other,List.mem_cons_of_mem _ listed,inside⟩

theorem mem_dotted {begins : Char} {texts : List (List Char)} (member : c ∈ dotted begins texts) :
    c = begins ∨ c = '.' ∨ ∃ text ∈ texts, c ∈ text := by
  cases texts with
  | nil => cases member
  | cons text rest =>
    rcases List.mem_cons.mp member with same | inside
    · exact .inl same
    · exact .inr (mem_intercalate inside)

theorem mem_coreText (member : c ∈ v.coreText) : c.isDigit = true ∨ c = '.' := by
  rcases mem_intercalate member with dot | ⟨text,listed,inside⟩
  · exact .inr dot
  · simp only [List.mem_cons,List.not_mem_nil,or_false] at listed
    rcases listed with rfl | rfl | rfl
    all_goals exact .inl (isDigit_mem_toDigits inside)

theorem mem_identifier {identifier : Identifier} (member : c ∈ identifier.text) : isIdentifierChar c = true := by
  cases identifier with
  | numeric n => exact isIdentifierChar_digit (isDigit_mem_toDigits member)
  | alphanumeric text valid => exact valid.1 c member

/-- A version is written in the characters of identifiers, points and a plus. -/
theorem mem_text (member : c ∈ v.text) : isIdentifierChar c = true ∨ c = '.' ∨ c = '+' := by
  simp only [Version.text,List.mem_append] at member
  rcases member with (inside | inside) | inside
  · rcases mem_coreText inside with digit | dot
    · exact .inl (isIdentifierChar_digit digit)
    · exact .inr (.inl dot)
  · rcases mem_dotted inside with rfl | dot | ⟨text,listed,inside⟩
    · exact .inl rfl
    · exact .inr (.inl dot)
    · obtain ⟨identifier,-,rfl⟩ := List.mem_map.mp listed
      exact .inl (mem_identifier inside)
  · rcases mem_dotted inside with plus | dot | ⟨text,listed,inside⟩
    · exact .inr (.inr plus)
    · exact .inr (.inl dot)
    · obtain ⟨identifier,-,rfl⟩ := List.mem_map.mp listed
      exact .inl (identifier.valid.2 c inside)

/-- A version begins with a digit. -/
theorem text_cons (v : Version) : ∃ c rest, v.text = c :: rest ∧ c.isDigit = true := by
  cases digits : Nat.toDigits 10 v.major with
  | nil => exact absurd digits Nat.toDigits_ne_nil
  | cons c cs =>
    have digit : c.isDigit = true := isDigit_mem_toDigits (n := v.major) (digits ▸ List.mem_cons_self)
    simp only [Version.text,Version.coreText,List.intercalate_cons_cons,digits,List.cons_append]
    exact ⟨c,_,rfl,digit⟩

end SemanticVersion
