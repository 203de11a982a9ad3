import Vigile.JsonDatum
import Vigile.JsonEscape

/-! Where the quotes of a compact JSON text stand. A separator that stands outside of them in no text
cuts what is put together around it in one way. -/
namespace JsonText

inductive Place where
  | outside
  | inside
  | escaped

/-- What a compact text has outside of quotes. -/
def structural (c : Char) : Bool := c.isAlphanum || c ∈ ['-','+','.',',',':','[',']','{','}']

def Place.next : Place → Char → Option Place
  | .outside,c => if c = '"' then some .inside else if structural c then some .outside else none
  | .inside,c => if c = '"' then some .outside else if c = '\\' then some .escaped else some .inside
  | .escaped,_ => some .inside

/-- Where a reader is after a text, if the text can be read there. -/
def Place.after : Place → List Char → Option Place
  | place,[] => some place
  | place,c :: cs => (place.next c).bind fun next => next.after cs

/-- A text that begins and ends outside of quotes. -/
def Balanced (text : List Char) : Prop := Place.outside.after text = some .outside

/-- No character is written so that a reader leaves the quotes. -/
def Quotable (escape : Char → List Char) : Prop := ∀ c, Place.inside.after (escape c) = some .inside

/-- Such a character stands in a text inside of quotes only, and alone. -/
structure Separates (bar : Char) : Prop where
  unstructural : structural bar = false
  unquoted : bar ≠ '"'
  unescaped : bar ≠ '\\'

variable {escape : Char → List Char} {text other front back : List Char} {place : Place} {bar : Char}

theorem after_append (place : Place) (text other : List Char) :
    place.after (text ++ other) = (place.after text).bind fun next => next.after other := by
  induction text generalizing place with
  | nil => rfl
  | cons c cs ih =>
    simp only [List.cons_append,Place.after,Option.bind_assoc]
    cases place.next c with
    | none => rfl
    | some next => exact ih next

theorem structural_plain {c : Char} (plain : structural c = true) : c ≠ '"' ∧ c ≠ '\\' := by
  constructor
  · rintro rfl
    cases plain
  · rintro rfl
    cases plain

theorem outside_structural {c : Char} (plain : structural c = true) : Place.outside.next c = some .outside := by
  simp [Place.next,(structural_plain plain).1,plain]

theorem balanced_append (first : Balanced text) (second : Balanced other) : Balanced (text ++ other) := by
  rw [Balanced,after_append,first]
  exact second

theorem balanced_cons {c : Char} (plain : structural c = true) (rest : Balanced text) : Balanced (c :: text) := by
  rw [Balanced,Place.after,outside_structural plain]
  exact rest

theorem balanced_structural (plain : ∀ c ∈ text, structural c = true) : Balanced text := by
  induction text with
  | nil => rfl
  | cons c cs ih =>
    exact balanced_cons (plain c List.mem_cons_self) (ih fun d member => plain d (List.mem_cons_of_mem c member))

theorem balanced_bracketed {left right : Char} (first : structural left = true) (second : structural right = true)
    (inner : Balanced text) : Balanced (left :: text ++ [right]) :=
  balanced_append (balanced_cons first inner) (balanced_cons second rfl)

theorem balanced_separated {texts : List (List Char)} (each : ∀ text ∈ texts, Balanced text) :
    Balanced (separated texts) := by
  induction texts with
  | nil => rfl
  | cons text texts ih =>
    have here := each text List.mem_cons_self
    cases texts with
    | nil => simpa only [separated,List.intercalate_singleton] using here
    | cons next texts =>
      rw [separated_cons_cons]
      exact balanced_append here (balanced_cons rfl (ih fun text member => each text (List.mem_cons_of_mem _ member)))

theorem balanced_quoted (quotable : Quotable escape) (text : String) : Balanced (quoted escape text) := by
  have inner (cs : List Char) : Place.inside.after (cs.flatMap escape) = some .inside := by
    induction cs with
    | nil => rfl
    | cons c cs ih =>
      rw [List.flatMap_cons,after_append,quotable c]
      exact ih
  change Place.inside.after (text.toList.flatMap escape ++ ['"']) = some .outside
  rw [after_append,inner]
  rfl

theorem structural_digit {c : Char} (digit : c.isDigit = true) : structural c = true := by
  simp [structural,Char.isAlphanum,digit]

theorem structural_exponent {exponent : Exponent} : ∀ c ∈ exponent.text, structural c = true := by
  obtain ⟨capital,sign,first,rest⟩ := exponent
  intro c member
  rcases List.mem_cons.mp member with rfl | member
  · cases capital <;> rfl
  · rcases List.mem_append.mp member with signed | digit
    · rcases sign with _ | _ | _
      · cases signed
      all_goals
        rw [List.mem_singleton.mp signed]
        rfl
    · exact structural_digit (isDigit_mem digit)

theorem structural_literal {literal : Literal} : ∀ c ∈ literal.text, structural c = true := by
  intro c member
  rw [literal_text] at member
  rcases List.mem_append.mp member with minus | member
  · split at minus
    · rw [List.mem_singleton.mp minus]
      rfl
    · cases minus
  rcases List.mem_append.mp member with whole | member
  · exact structural_digit (isDigit_toDigits whole)
  rcases List.mem_append.mp member with fraction | exponent
  · unfold fractionText at fraction
    split at fraction
    · cases fraction
    · rcases List.mem_cons.mp fraction with rfl | digit
      · rfl
      · exact structural_digit (isDigit_mem digit)
  · cases here : literal.exponent with
    | none =>
      rw [here] at exponent
      cases exponent
    | some written =>
      rw [here] at exponent
      exact structural_exponent c exponent

/-- A compact text ends outside of the quotes it opens. -/
theorem balanced_text (quotable : Quotable escape) (value : Value) : Balanced (value.text escape) := by
  induction value using Value.induction with
  | scalar value scalar =>
    cases value with
    | null => rfl
    | bool value => cases value <;> rfl
    | number literal => exact balanced_structural structural_literal
    | string text => exact balanced_quoted quotable text
    | array | object => contradiction
  | array items ih =>
    simp only [Value.text,itemTexts_eq]
    refine balanced_bracketed rfl rfl (balanced_separated fun text member => ?_)
    obtain ⟨item,here,rfl⟩ := List.mem_map.mp member
    exact ih item here
  | object fields ih =>
    simp only [Value.text,fieldTexts_eq]
    refine balanced_bracketed rfl rfl (balanced_separated fun text member => ?_)
    obtain ⟨field,here,rfl⟩ := List.mem_map.mp member
    exact balanced_append (balanced_quoted quotable field.1) (balanced_cons rfl (ih field here))

theorem inside_unicodeEscape (n : Nat) : Place.inside.after (unicodeEscape n) = some .inside := by
  have every : ∀ d : Fin 16, Nat.digitChar d ≠ '"' ∧ Nat.digitChar d ≠ '\\' := by decide
  have digit (k : Nat) : Place.inside.next (Nat.digitChar (k % 16)) = some .inside := by
    have here := every ⟨k % 16,Nat.mod_lt k (by omega)⟩
    simp only [Place.next,here.1,here.2,if_false]
  have backslash : Place.inside.next '\\' = some .escaped := rfl
  have letter : Place.escaped.next 'u' = some .inside := rfl
  simp [unicodeEscape,Place.after,backslash,letter,digit]

theorem quotable_escapeWith (plain : Char → Bool) : Quotable (escapeWith plain) := by
  intro c
  unfold escapeWith
  rcases shortEscape_cases c with ⟨d,short,_⟩ | ⟨none_,quote,backslash⟩
  · rw [short]
    rfl
  · rw [none_,Option.getD_none]
    split
    · simp [Place.after,Place.next,quote,backslash]
    · unfold numericEscape
      split
      · rw [inside_unicodeEscape]
      · rw [after_append,inside_unicodeEscape,Option.bind_some,inside_unicodeEscape]

/-! Where a separator stands -/

/-- Readers that begin on both sides of a quote never meet: each leaves the quotes where the other enters them, and a
backslash can be read by none of them where the other is inside. -/
theorem not_balanced_inside (text : List Char) {place : Place} (outer : Place.outside.after text = some place) :
    Place.inside.after text ≠ some place := by
  induction text generalizing place with
  | nil =>
    obtain rfl := Option.some.inj outer
    exact fun same => Place.noConfusion (Option.some.inj same)
  | cons c cs ih =>
    intro inner
    by_cases quote : c = '"'
    · subst quote
      exact ih inner outer
    · cases plain : structural c with
      | true =>
        rw [Place.after,outside_structural plain] at outer
        simp only [Place.after,Place.next,quote,(structural_plain plain).2,if_false,Option.bind_some] at inner
        exact ih outer inner
      | false =>
        simp only [Place.after,Place.next,quote,plain,Bool.false_eq_true,if_false,Option.bind_none] at outer
        cases outer

/-- What follows a separator in a balanced text is not balanced. -/
theorem not_balanced_bar (separates : Separates bar) (whole : Balanced (front ++ bar :: text)) : ¬Balanced text := by
  intro balanced
  rw [Balanced,after_append] at whole
  obtain ⟨place,_,rest⟩ := Option.bind_eq_some_iff.mp whole
  have inner : place.next bar = some .inside := by
    cases place with
    | outside =>
      simp only [Place.after,Place.next,separates.unquoted,separates.unstructural,Bool.false_eq_true,if_false,
        Option.bind_none] at rest
      cases rest
    | inside => simp only [Place.next,separates.unquoted,separates.unescaped,if_false]
    | escaped => rfl
  rw [Place.after,inner] at rest
  exact not_balanced_inside text balanced rest

/-- Whatever stands before a separator and a balanced text, their concatenation determines both. -/
theorem cut_unique (separates : Separates bar) (first : Balanced text) (second : Balanced other)
    (same : front ++ bar :: text = back ++ bar :: other) : front = back ∧ text = other := by
  rcases List.append_eq_append_iff.mp same with ⟨middle,rfl,cut⟩ | ⟨middle,rfl,cut⟩
  · cases middle with
    | nil => exact ⟨(List.append_nil front).symm,(List.cons.inj cut).2⟩
    | cons c middle =>
      obtain rfl := (List.cons.inj cut).2
      exact absurd second (not_balanced_bar separates first)
  · cases middle with
    | nil => exact ⟨List.append_nil back,(List.cons.inj cut).2.symm⟩
    | cons c middle =>
      obtain rfl := (List.cons.inj cut).2
      exact absurd first (not_balanced_bar separates second)

end JsonText
