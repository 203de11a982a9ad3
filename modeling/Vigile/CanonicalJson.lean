import Vigile.GoNumber
import Vigile.JsonDatum
import Vigile.JsonEscape

/-! The worker's canonical JSON. Texts are characters: bytes that are no text do not occur. -/
namespace CanonicalJson

open JsonText Go

/-- How serializeString writes a character. -/
def jcsEscape : Char → List Char := escapeWith fun c => 0x20 ≤ c.toNat

def serializeString (text : String) : List Char := quoted jcsEscape text

/-- A number without a point or an exponent is an integer, if int64 holds it; every other
number is formatted anew. A number that is out of range is an error. -/
def serializeNumber (platform : Platform) (rawNum : Literal) : Option Literal := do
  let f ← rawNum.binary64
  if (float64 (int64 platform f)).map Binary64.value = some f.value ∧ rawNum.Plain then
    return formatInt (int64 platform f)
  else return formatFloat f

def serializeArray (items : List (List Char)) : List Char := '[' :: separated items ++ [']']

/-- The keys are sorted, and a comma stands between the fields. -/
def serializeObject (fields : List (String × List Char)) : List Char :=
  '{' :: separated ((keySorted fields).map fun field => serializeString field.1 ++ ':' :: field.2) ++ ['}']

mutual
def serializeJCS (platform : Platform) : Value → Option (List Char)
  | .null => some ['n','u','l','l']
  | .bool true => some ['t','r','u','e']
  | .bool false => some ['f','a','l','s','e']
  | .string text => some (serializeString text)
  | .number rawNum => (serializeNumber platform rawNum).map Literal.text
  | .object fields => (serializeFields platform fields).map serializeObject
  | .array items => (serializeItems platform items).map serializeArray

def serializeItems (platform : Platform) : List Value → Option (List (List Char))
  | [] => some []
  | value :: rest => do
    let text ← serializeJCS platform value
    let texts ← serializeItems platform rest
    return text :: texts

def serializeFields (platform : Platform) : List (String × Value) → Option (List (String × List Char))
  | [] => some []
  | (key,value) :: rest => do
    let text ← serializeJCS platform value
    let texts ← serializeFields platform rest
    return (key,text) :: texts
end

/-- What a decoder with UseNumber makes of a text; it looks at the first value only, and
gives up where values nest too deep. -/
def decode (data : List Char) : Option Value := (readValue 10000 data).map Prod.fst

def canonicalizeJSON (platform : Platform) (data : List Char) : Option (List Char) := do
  let val ← decode data
  serializeJCS platform val

theorem reads_jcsEscape : Reads jcsEscape :=
  reads_escapeWith fun _ shown => of_decide_eq_true shown

theorem serializeItems_eq (platform : Platform) {items : List Value}
    (each : ∀ item ∈ items, serializeJCS platform item =
      (item.canonical (serializeNumber platform)).map (Value.text jcsEscape)) :
    serializeItems platform items =
      (canonicalItems (serializeNumber platform) items).map (itemTexts jcsEscape) := by
  induction items with
  | nil => rfl
  | cons item items ih =>
    have here := each item List.mem_cons_self
    have others := ih fun item member => each item (List.mem_cons_of_mem _ member)
    simp only [serializeItems,canonicalItems,here,others]
    cases item.canonical (serializeNumber platform) with
    | none => rfl
    | some first =>
      cases canonicalItems (serializeNumber platform) items with
      | none | some rest => rfl

theorem serializeFields_eq (platform : Platform) {fields : List (String × Value)}
    (each : ∀ field ∈ fields, serializeJCS platform field.2 =
      (field.2.canonical (serializeNumber platform)).map (Value.text jcsEscape)) :
    serializeFields platform fields = (canonicalFields (serializeNumber platform) fields).map
      (List.map fun field => (field.1,field.2.text jcsEscape)) := by
  induction fields with
  | nil => rfl
  | cons field fields ih =>
    have here := each field List.mem_cons_self
    have others := ih fun field member => each field (List.mem_cons_of_mem _ member)
    simp only [serializeFields,canonicalFields,here,others]
    cases field.2.canonical (serializeNumber platform) with
    | none => rfl
    | some first =>
      cases canonicalFields (serializeNumber platform) fields with
      | none | some rest => rfl

theorem serializeObject_text (fields : List (String × Value)) :
    serializeObject (fields.map fun field => (field.1,field.2.text jcsEscape)) =
      (Value.object (keySorted fields)).text jcsEscape := by
  have keyed : ∀ field : String × Value, (field.1,field.2.text jcsEscape).1 = field.1 := fun _ => rfl
  unfold serializeObject
  rw [keySorted_map _ keyed,List.map_map]
  simp only [Value.text,fieldTexts_eq]
  rfl

/-- What is written is the compact text of the canonical form. -/
theorem serializeJCS_eq (platform : Platform) (value : Value) : serializeJCS platform value =
    (value.canonical (serializeNumber platform)).map (Value.text jcsEscape) := by
  induction value using Value.induction with
  | scalar value scalar =>
    cases value with
    | null | string => rfl
    | bool value => cases value <;> rfl
    | number rawNum =>
      simp only [serializeJCS,Value.canonical,Option.map_map]
      rfl
    | array | object => contradiction
  | array items ih =>
    simp only [serializeJCS,Value.canonical,serializeItems_eq platform ih,Option.map_map]
    rfl
  | object fields ih =>
    simp only [serializeJCS,Value.canonical,serializeFields_eq platform ih,Option.map_map]
    congr 1
    funext fields
    exact serializeObject_text fields

variable {value : Value} {literal : Literal} {n : Int}

/-- The canonical text is read back as the canonical form. -/
theorem decode_canonical {platform : Platform} {data : List Char} {written : Value}
    (decoded : decode data = some value) (canonical : value.canonical (serializeNumber platform) = some written) :
    decode (written.text jcsEscape) = some written := by
  obtain ⟨⟨_,rest⟩,read,rfl⟩ := Option.map_eq_some_iff.mp decoded
  have fits : written.Fits 10000 := fits_canonical canonical (fits_of_read read)
  have back := readValue_text reads_jcsEscape 10000 written fits [] closed_nil
  unfold decode
  rw [List.append_nil] at back
  rw [back]
  rfl

/-- An integer that binary64 and its neighbours hold. -/
def SafeInteger (literal : Literal) : Prop := ∃ n : Int, literal.value = n ∧ n.natAbs ≤ 2 ^ 53

/-- Neither a point nor an exponent, or short enough to be formatted without one. -/
def Uniform (literal : Literal) : Prop :=
  literal.Plain ∨ (literal.magnitude < 10 ^ 6 ∧ (literal.magnitude = 0 → literal.negative = false))

theorem magnitude_of_value (integer : literal.value = n) :
    literal.magnitude = n.natAbs := by
  have positive : 0 ≤ literal.magnitude := literal.decimal.magnitude_nonneg
  rw [Nat.cast_natAbs,Int.cast_abs,← integer]
  unfold Literal.value
  split
  · rw [abs_neg,abs_of_nonneg positive]
  · rw [abs_of_nonneg positive]

theorem signed_natAbs (integer : literal.value = n) :
    (if literal.negative then -(n.natAbs : Int) else n.natAbs) = n := by
  have signed : (((if literal.negative then -(n.natAbs : Int) else n.natAbs) : Int) : ℚ) = literal.value := by
    unfold Literal.value
    rw [magnitude_of_value integer]
    split <;> simp
  rw [integer] at signed
  exact_mod_cast signed

theorem value_of_integer {f : Binary64} (magnitude : f.magnitude = n.natAbs)
    (signed : (if f.negative then -(n.natAbs : Int) else n.natAbs) = n) : f.value = n := by
  unfold Binary64.value
  rw [magnitude,← Int.cast_natCast]
  split
  · rename_i negative
    rw [if_pos negative] at signed
    rw [← Int.cast_neg,signed]
  · rename_i negative
    rw [if_neg negative] at signed
    rw [signed]

/-- What becomes of a safe integer. -/
theorem serializeNumber_eq (platform : Platform) (integer : literal.value = n)
    (small : n.natAbs ≤ 2 ^ 53) : ∃ f : Binary64, f.negative = literal.negative ∧ f.magnitude = n.natAbs ∧
      serializeNumber platform literal = some (if literal.Plain then formatInt n else formatFloat f) := by
  obtain ⟨f,rounded,sign,magnitude⟩ := Binary64.round_natCast literal.negative small
  have parsed : literal.binary64 = some f := by
    unfold Literal.binary64
    rw [magnitude_of_value integer]
    exact rounded
  have signed : (if f.negative then -(n.natAbs : Int) else n.natAbs) = n := by
    rw [sign]
    exact signed_natAbs integer
  have converted : int64 platform f = n := (int64_integer platform small magnitude).trans signed
  have back : (float64 n).map Binary64.value = some f.value := by
    obtain ⟨g,rounded,negative,same⟩ := Binary64.round_natCast (decide (n < 0)) small
    have value : g.value = n := by
      apply value_of_integer same
      rw [negative]
      by_cases below : n < 0
      · rw [if_pos (decide_eq_true below)]
        omega
      · rw [if_neg (by simp [below])]
        omega
    unfold float64
    rw [rounded,Option.map_some,value,value_of_integer magnitude signed]
  refine ⟨f,sign,magnitude,?_⟩
  simp only [serializeNumber,parsed,converted,back,Option.bind_eq_bind,Option.bind_some,true_and]
  split <;> rfl

/-- A safe integer is written as a number of the same value. -/
theorem serializeNumber_value (platform : Platform) (safe : SafeInteger literal) :
    ∃ other, serializeNumber platform literal = some other ∧ other.value = literal.value := by
  obtain ⟨n,integer,small⟩ := safe
  obtain ⟨f,sign,magnitude,written⟩ := serializeNumber_eq platform integer small
  refine ⟨_,written,?_⟩
  split
  · rw [integer]
    exact value_integer n
  · unfold Literal.value
    rw [formatFloat_negative,formatFloat_magnitude,Binary64.shortest_integer small magnitude,sign,
      magnitude_of_value integer]

theorem serializeNumber_uniform (platform : Platform) (safe : SafeInteger literal)
    (uniform : Uniform literal) : serializeNumber platform literal = some (.integer literal.value.num) := by
  obtain ⟨n,integer,small⟩ := safe
  obtain ⟨f,sign,magnitude,written⟩ := serializeNumber_eq platform integer small
  rw [written,integer,Rat.num_intCast]
  split
  · rfl
  · rename_i marked
    obtain ⟨short,positive⟩ := uniform.resolve_left marked
    rw [magnitude_of_value integer] at short positive
    have digits : n.natAbs < 10 ^ 6 := by exact_mod_cast short
    rw [formatFloat_short digits magnitude]
    have negative : literal.negative = decide (n < 0) := by
      have signed := signed_natAbs integer
      by_cases zero : n = 0
      · rw [zero] at positive ⊢
        rw [positive (by simp)]
        rfl
      · cases sign : literal.negative with
        | true =>
          rw [sign,if_pos rfl] at signed
          exact (decide_eq_true (by omega)).symm
        | false =>
          rw [sign,if_neg (by decide)] at signed
          exact (decide_eq_false (by omega)).symm
    rw [sign,negative]
    rfl

/-- A text whose numbers are safe integers is accepted, and what is written is read back as
the value of the text. -/
theorem canonicalizeJSON_safe (platform : Platform) {data : List Char}
    (decoded : decode data = some value) (safe : value.Every SafeInteger) :
    ∃ written, value.canonical (serializeNumber platform) = some written ∧
      canonicalizeJSON platform data = some (written.text jcsEscape) ∧
      decode (written.text jcsEscape) = some written ∧ written.datum = value.datum := by
  obtain ⟨written,canonical,same⟩ :=
    datum_canonical (fun _ integer => serializeNumber_value platform integer) value safe
  refine ⟨written,canonical,?_,decode_canonical decoded canonical,same⟩
  unfold canonicalizeJSON
  rw [decoded]
  change serializeJCS platform value = _
  rw [serializeJCS_eq,canonical]
  rfl

/-- Safe integers that are written uniformly have one canonical form, which depends on what
the value denotes alone. -/
theorem canonical_uniform (platform : Platform) (safe : value.Every SafeInteger)
    (uniform : value.Every Uniform) : value.canonical (serializeNumber platform) =
      some (value.datum.written fun number => .integer number.num) :=
  canonical_of_datum (fun number => .integer number.num)
    (fun _ both => serializeNumber_uniform platform both.1 both.2) value (every_and value safe uniform)

/-- Over safe integers the canonical text determines the value and is read back as it; the
value determines the canonical text where the numbers are written uniformly. -/
theorem canonical_of_safe_integers (platform : Platform) {first second : List Char} {v w : Value}
    (decodedFirst : decode first = some v) (decodedSecond : decode second = some w)
    (safeFirst : v.Every SafeInteger) (safeSecond : w.Every SafeInteger) :
    ∃ a b, canonicalizeJSON platform first = some a ∧ canonicalizeJSON platform second = some b ∧
      (a = b → v.datum = w.datum) ∧
      (v.Every Uniform → w.Every Uniform → v.datum = w.datum → a = b) ∧
      (decode a).map Value.datum = some v.datum ∧ (decode b).map Value.datum = some w.datum := by
  obtain ⟨c,canonicalFirst,outFirst,backFirst,sameFirst⟩ := canonicalizeJSON_safe platform decodedFirst safeFirst
  obtain ⟨d,canonicalSecond,outSecond,backSecond,sameSecond⟩ :=
    canonicalizeJSON_safe platform decodedSecond safeSecond
  refine ⟨c.text jcsEscape,d.text jcsEscape,outFirst,outSecond,?_,?_,?_,?_⟩
  · intro same
    rw [same,backSecond] at backFirst
    obtain rfl := Option.some.inj backFirst
    rw [← sameFirst,sameSecond]
  · intro uniformFirst uniformSecond same
    rw [canonical_uniform platform safeFirst uniformFirst,same,
      ← canonical_uniform platform safeSecond uniformSecond,canonicalSecond] at canonicalFirst
    rw [Option.some.inj canonicalFirst]
  · rw [backFirst,Option.map_some,sameFirst]
  · rw [backSecond,Option.map_some,sameSecond]

/-- A machine that turns a number too large for int64 into the least int64. -/
def amd64 : Platform := ⟨fun _ => BitVec.ofNat 64 (2 ^ 63)⟩

/-- Two texts of one object. -/
theorem rewritten_object_is_canonical : ∃ a b,
    canonicalizeJSON amd64 "\x7b\"b\": 1e3, \"a\": [-2]\x7d".toList = some a ∧
    canonicalizeJSON amd64 "\x7b\"a\":[-2.0],\"b\":1000\x7d".toList = some b ∧ a = b := by
  have first : decode "\x7b\"b\": 1e3, \"a\": [-2]\x7d".toList =
    some (.object [("b",.number ⟨false,1,[],some ⟨false,none,3,[]⟩⟩),("a",.array [.number ⟨true,2,[],none⟩])]) := rfl
  have second : decode "\x7b\"a\":[-2.0],\"b\":1000\x7d".toList =
    some (.object [("a",.array [.number ⟨true,2,[0],none⟩]),("b",.number ⟨false,1000,[],none⟩)]) := rfl
  have thousand : SafeInteger ⟨false,1,[],some ⟨false,none,3,[]⟩⟩ :=
    ⟨1000,by decide +kernel,by decide⟩
  have plainThousand : SafeInteger ⟨false,1000,[],none⟩ := ⟨1000,by decide +kernel,by decide⟩
  have two : SafeInteger ⟨true,2,[],none⟩ := ⟨-2,by decide +kernel,by decide⟩
  have pointedTwo : SafeInteger ⟨true,2,[0],none⟩ := ⟨-2,by decide +kernel,by decide⟩
  obtain ⟨a,b,outFirst,outSecond,_,same,_⟩ := canonical_of_safe_integers amd64 first second
    ⟨thousand,⟨two,trivial⟩,trivial⟩ ⟨⟨pointedTwo,trivial⟩,plainThousand,trivial⟩
  refine ⟨a,b,outFirst,outSecond,same ?_ ?_ ?_⟩
  · refine ⟨.inr ⟨by decide +kernel,?_⟩,⟨.inl (by decide),trivial⟩,trivial⟩
    exact fun _ => rfl
  · refine ⟨⟨.inr ⟨by decide +kernel,fun zero => absurd zero (by decide +kernel)⟩,trivial⟩,.inl (by decide),trivial⟩
  · have thousands : Literal.value ⟨false,1,[],some ⟨false,none,3,[]⟩⟩ = Literal.value ⟨false,1000,[],none⟩ := by
      decide +kernel
    have twos : Literal.value ⟨true,2,[],none⟩ = Literal.value ⟨true,2,[0],none⟩ := by decide +kernel
    simp only [Value.datum,fieldData,itemData,thousands,twos]
    exact congrArg Datum.object ((keySorted_eq_iff (by simp)).mpr (List.Perm.swap _ _ _))

/-- An integer of any size. -/
def Integral (literal : Literal) : Prop := ∃ n : Int, literal.value = n

/-- Beyond 2 to the 53rd two integers have one canonical text, and an integer of seven digits
has two. -/
theorem canonical_text_of_integers_fails :
    (¬∀ first second v w a b, decode first = some v → decode second = some w → v.Every Integral → w.Every Integral →
      canonicalizeJSON amd64 first = some a → canonicalizeJSON amd64 second = some b →
      a = b → v.datum = w.datum) ∧
    (¬∀ first second v w a b, decode first = some v → decode second = some w → v.Every Integral → w.Every Integral →
      canonicalizeJSON amd64 first = some a → canonicalizeJSON amd64 second = some b →
      v.datum = w.datum → a = b) := by
  constructor
  · intro claim
    have odd : Integral ⟨false,9007199254740993,[],none⟩ := ⟨9007199254740993,by decide +kernel⟩
    have even : Integral ⟨false,9007199254740992,[],none⟩ := ⟨9007199254740992,by decide +kernel⟩
    have same := claim "9007199254740993".toList "9007199254740992".toList (.number ⟨false,9007199254740993,[],none⟩)
      (.number ⟨false,9007199254740992,[],none⟩) "9007199254740992".toList "9007199254740992".toList rfl rfl
      odd even (by decide +kernel) (by decide +kernel) rfl
    simp only [Value.datum,Datum.number.injEq] at same
    exact absurd same (by decide +kernel)
  · intro claim
    have plain : Integral ⟨false,1000000,[],none⟩ := ⟨1000000,by decide +kernel⟩
    have scientific : Integral ⟨false,1,[],some ⟨false,none,6,[]⟩⟩ := ⟨1000000,by decide +kernel⟩
    have value : Literal.value ⟨false,1000000,[],none⟩ = Literal.value ⟨false,1,[],some ⟨false,none,6,[]⟩⟩ := by
      decide +kernel
    have same := claim "1000000".toList "1e6".toList (.number ⟨false,1000000,[],none⟩)
      (.number ⟨false,1,[],some ⟨false,none,6,[]⟩⟩) "1000000".toList "1e+06".toList rfl rfl
      plain scientific (by decide +kernel) (by decide +kernel) (congrArg Datum.number value)
    exact absurd same (by decide +kernel)

end CanonicalJson
