import Vigile.CanonicalJson

/-! The texts that encoding/json writes, on their way through the canonical form. -/
namespace Go

open JsonText CanonicalJson

/-- How encoding/json writes a character: what HTML or JavaScript would mistake is escaped. -/
def marshalEscape : Char → List Char :=
  escapeWith fun c => 0x20 ≤ c.toNat && c ≠ '<' && c ≠ '>' && c ≠ '&' && c.toNat ≠ 0x2028 && c.toNat ≠ 0x2029

def marshal (value : Value) : List Char := value.text marshalEscape

def marshalMap (fields : List (String × Value)) : Value := .object (keySorted fields)

theorem reads_marshalEscape : Reads marshalEscape := by
  apply reads_escapeWith
  intro c shown
  simp only [Bool.and_eq_true,decide_eq_true_eq] at shown
  exact shown.1.1.1.1.1

/-- The canonical text of what is marshalled is the one of the value. -/
theorem canonicalizeJSON_marshal (platform : Platform) {value : Value} (fits : value.Fits 10000) :
    canonicalizeJSON platform (marshal value) = serializeJCS platform value := by
  have back := readValue_text reads_marshalEscape 10000 value fits [] closed_nil
  rw [List.append_nil] at back
  unfold canonicalizeJSON decode marshal
  rw [back]
  rfl

/-- A canonical text is the text of one canonical form only. -/
theorem canonical_of_text {platform : Platform} {first second c d : Value} {text : List Char}
    (fitsFirst : first.Fits 10000) (fitsSecond : second.Fits 10000)
    (canonicalFirst : first.canonical (serializeNumber platform) = some c)
    (canonicalSecond : second.canonical (serializeNumber platform) = some d)
    (textFirst : serializeJCS platform first = some text)
    (textSecond : serializeJCS platform second = some text) : c = d := by
  rw [serializeJCS_eq,canonicalFirst,Option.map_some,Option.some.injEq] at textFirst
  rw [serializeJCS_eq,canonicalSecond,Option.map_some,Option.some.injEq] at textSecond
  have backFirst := readValue_text reads_jcsEscape 10000 c (fits_canonical canonicalFirst fitsFirst) [] closed_nil
  have backSecond := readValue_text reads_jcsEscape 10000 d (fits_canonical canonicalSecond fitsSecond) [] closed_nil
  rw [textFirst,← textSecond,backSecond] at backFirst
  exact (congrArg Prod.fst (Option.some.inj backFirst)).symm

/-- What is written for a number still tells its binary64 value. -/
theorem serializeNumber_reads {platform : Platform} {literal written : Literal}
    (found : serializeNumber platform literal = some written) :
    ∃ f g, literal.binary64 = some f ∧ written.binary64 = some g ∧ g.value = f.value := by
  obtain ⟨f,parsed,found⟩ := Option.bind_eq_some_iff.mp found
  split at found
  · rename_i plain
    obtain rfl := Option.some.inj found
    obtain ⟨g,back,same⟩ := Option.map_eq_some_iff.mp plain.1
    refine ⟨f,g,parsed,?_,same⟩
    unfold Literal.binary64 formatInt
    rw [magnitude_integer]
    exact back
  · obtain rfl := Option.some.inj found
    exact ⟨f,f,parsed,formatFloat_reads f,rfl⟩

end Go
