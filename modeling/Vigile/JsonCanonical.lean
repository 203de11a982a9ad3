import Vigile.JsonDatum

/-! The canonical form of a JSON value: what it keeps of the fields, the numbers and the strings. -/
namespace JsonText

section
variable {number other : Literal → Option Literal}

theorem canonicalFields_keySorted {fields written : List (String × Value)}
    (found : canonicalFields number fields = some written) :
    canonicalFields number (keySorted fields) = some (keySorted written) := by
  let rewritten := fun field : String × Value => (field.1,(field.2.canonical number).getD .null)
  have related := canonicalFields_eq_some.mp found
  have mapped : written = fields.map rewritten := by
    clear found
    induction related with
    | nil => rfl
    | cons first _ ih =>
      rw [List.map_cons,← ih]
      congr 1
      exact Prod.ext first.1 (by simp [rewritten,first.2])
  have each : ∀ field ∈ fields, field.2.canonical number = some (rewritten field).2 := by
    intro field member
    clear mapped found
    induction related with
    | nil => simp at member
    | cons first _ ih =>
      rcases List.mem_cons.mp member with rfl | member
      · simp [rewritten,first.2]
      · exact ih member
  rw [mapped,keySorted_map rewritten fun _ => rfl]
  refine canonicalFields_eq_some.mpr (List.forall₂_map_right_iff.mpr ?_)
  exact List.forall₂_same.mpr fun field member => ⟨rfl,each field (mem_keySorted.mp member)⟩

/-- Sorting the fields first changes nothing. -/
theorem canonical_keySorted {fields written : List (String × Value)}
    (found : canonicalFields number fields = some written) :
    (Value.object (keySorted fields)).canonical number = some (.object (keySorted written)) := by
  rw [Value.canonical,canonicalFields_keySorted found,Option.map_some,keySorted_keySorted]

/-- A value in canonical form stays as it is, where a number that was rewritten does. -/
theorem canonical_canonical (settled : ∀ literal other, number literal = some other → number other = some other)
    (value : Value) {written : Value} (found : value.canonical number = some written) :
    written.canonical number = some written := by
  induction value using Value.induction generalizing written with
  | scalar value scalar =>
    cases value with
    | number literal =>
      obtain ⟨other,rewritten,rfl⟩ := Option.map_eq_some_iff.mp found
      simp [Value.canonical,settled literal other rewritten]
    | array | object => contradiction
    | null | bool | string =>
      obtain rfl := Option.some.inj found
      rfl
  | array items ih =>
    obtain ⟨others,rewritten,rfl⟩ := Option.map_eq_some_iff.mp found
    have same : canonicalItems number others = some others := by
      refine canonicalItems_eq_some.mpr (List.forall₂_same.mpr fun other member => ?_)
      obtain ⟨item,here,there⟩ := exists_of_forall₂ (canonicalItems_eq_some.mp rewritten) member
      exact ih item here there
    simp [Value.canonical,same]
  | object fields ih =>
    obtain ⟨others,rewritten,rfl⟩ := Option.map_eq_some_iff.mp found
    refine canonical_keySorted (canonicalFields_eq_some.mpr (List.forall₂_same.mpr fun other member => ⟨rfl,?_⟩))
    obtain ⟨field,here,_,there⟩ := exists_of_forall₂ (canonicalFields_eq_some.mp rewritten) member
    exact ih field here there

/-- Two ways to rewrite numbers, one after the other, that give each number back. -/
def Returned (number other : Literal → Option Literal) (literal : Literal) : Prop :=
  ∃ between, number literal = some between ∧ other between = some literal

theorem canonicalFields_returned {fields : List (String × Value)}
    (each : ∀ field ∈ fields, ∃ between sorted, field.2.canonical number = some between ∧
      field.2.canonical some = some sorted ∧ between.canonical other = some sorted) :
    ∃ between sorted, canonicalFields number fields = some between ∧ canonicalFields some fields = some sorted ∧
      canonicalFields other between = some sorted := by
  induction fields with
  | nil => exact ⟨[],[],rfl,rfl,rfl⟩
  | cons field rest ih =>
    obtain ⟨key,value⟩ := field
    obtain ⟨between,sorted,there,plain,back⟩ := each _ List.mem_cons_self
    obtain ⟨betweens,sorteds,theres,plains,backs⟩ := ih fun field member => each field (List.mem_cons_of_mem _ member)
    exact ⟨(key,between) :: betweens,(key,sorted) :: sorteds,by simp [canonicalFields,there,theres],
      by simp [canonicalFields,plain,plains],by simp [canonicalFields,back,backs]⟩

theorem canonicalItems_returned {items : List Value}
    (each : ∀ item ∈ items, ∃ between sorted, item.canonical number = some between ∧
      item.canonical some = some sorted ∧ between.canonical other = some sorted) :
    ∃ between sorted, canonicalItems number items = some between ∧ canonicalItems some items = some sorted ∧
      canonicalItems other between = some sorted := by
  induction items with
  | nil => exact ⟨[],[],rfl,rfl,rfl⟩
  | cons item rest ih =>
    obtain ⟨between,sorted,there,plain,back⟩ := each _ List.mem_cons_self
    obtain ⟨betweens,sorteds,theres,plains,backs⟩ := ih fun item member => each item (List.mem_cons_of_mem _ member)
    exact ⟨between :: betweens,sorted :: sorteds,by simp [canonicalItems,there,theres],
      by simp [canonicalItems,plain,plains],by simp [canonicalItems,back,backs]⟩

/-- Where every number comes back, what remains is the sorting. -/
theorem canonical_returned (value : Value) (returned : value.Every (Returned number other)) :
    ∃ between sorted, value.canonical number = some between ∧ value.canonical some = some sorted ∧
      between.canonical other = some sorted := by
  induction value using Value.induction with
  | scalar value scalar =>
    cases value with
    | number literal =>
      obtain ⟨between,there,back⟩ := returned
      exact ⟨.number between,.number literal,by simp [Value.canonical,there],rfl,by simp [Value.canonical,back]⟩
    | array | object => contradiction
    | null | bool | string => exact ⟨_,_,rfl,rfl,rfl⟩
  | array items ih =>
    obtain ⟨between,sorted,there,plain,back⟩ := canonicalItems_returned fun item member =>
      ih item member (everyItem_of_mem returned member)
    exact ⟨.array between,.array sorted,by simp [Value.canonical,there],by simp [Value.canonical,plain],
      by simp [Value.canonical,back]⟩
  | object fields ih =>
    obtain ⟨between,sorted,there,plain,back⟩ := canonicalFields_returned fun field member =>
      ih field member (everyField_of_mem returned member)
    exact ⟨.object (keySorted between),.object (keySorted sorted),by simp [Value.canonical,there],
      by simp [Value.canonical,plain],canonical_keySorted back⟩

inductive Value.Strings (P : String → Prop) : Value → Prop
  | null : Strings P .null
  | bool (value : Bool) : Strings P (.bool value)
  | number (literal : Literal) : Strings P (.number literal)
  | string {text : String} (here : P text) : Strings P (.string text)
  | array {items : List Value} (each : ∀ item ∈ items, Strings P item) : Strings P (.array items)
  | object {fields : List (String × Value)} (keys : ∀ field ∈ fields, P field.1)
      (each : ∀ field ∈ fields, Strings P field.2) : Strings P (.object fields)

theorem strings_mono {P Q : String → Prop} {value : Value} (implies : ∀ text, P text → Q text)
    (strings : value.Strings P) : value.Strings Q := by
  induction strings with
  | null => exact .null
  | bool value => exact .bool value
  | number literal => exact .number literal
  | string here => exact .string (implies _ here)
  | array _ ih => exact .array ih
  | object keys _ ih => exact .object (fun field member => implies _ (keys field member)) ih

theorem quoted_congr {escape escape' : Char → List Char} {text : String}
    (same : ∀ c ∈ text.toList, escape c = escape' c) : quoted escape text = quoted escape' text := by
  unfold quoted
  rw [List.flatMap_congr same]

/-- Two ways to write characters that agree on those of the strings. -/
theorem text_congr {escape escape' : Char → List Char} {value : Value}
    (strings : value.Strings fun text => ∀ c ∈ text.toList, escape c = escape' c) :
    value.text escape = value.text escape' := by
  induction strings with
  | null | number => rfl
  | bool value => cases value <;> rfl
  | string here => exact quoted_congr here
  | array _ ih =>
    simp only [Value.text,itemTexts_eq]
    rw [List.map_congr_left ih]
  | object keys _ ih =>
    simp only [Value.text,fieldTexts_eq]
    rw [List.map_congr_left fun field member => ?_]
    simp only [fieldText]
    rw [quoted_congr (keys field member),ih field member]

theorem strings_canonical {P : String → Prop} {value written : Value} (strings : value.Strings P)
    (found : value.canonical number = some written) : written.Strings P := by
  induction strings generalizing written with
  | null | bool | string =>
    obtain rfl := Option.some.inj found
    constructor
    try assumption
  | number literal =>
    obtain ⟨_,_,rfl⟩ := Option.map_eq_some_iff.mp found
    constructor
  | array _ ih =>
    obtain ⟨others,related,rfl⟩ := Option.map_eq_some_iff.mp found
    refine .array fun other member => ?_
    obtain ⟨item,here,same⟩ := exists_of_forall₂ (canonicalItems_eq_some.mp related) member
    exact ih item here same
  | object keys _ ih =>
    obtain ⟨others,related,rfl⟩ := Option.map_eq_some_iff.mp found
    refine .object (fun other member => ?_) fun other member => ?_
    · obtain ⟨field,here,same⟩ := exists_of_forall₂ (canonicalFields_eq_some.mp related) (mem_keySorted.mp member)
      rw [same.1]
      exact keys field here
    · obtain ⟨field,here,same⟩ := exists_of_forall₂ (canonicalFields_eq_some.mp related) (mem_keySorted.mp member)
      exact ih field here same.2

theorem field_of_canonical {fields out : List (String × Value)}
    (found : (Value.object fields).canonical number = some (.object out)) {field : String × Value} (member : field ∈ fields) :
    ∃ written, field.2.canonical number = some written ∧ (field.1,written) ∈ out := by
  obtain ⟨others,rewritten,same⟩ := Option.map_eq_some_iff.mp found
  obtain rfl := Value.object.inj same
  have related := canonicalFields_eq_some.mp rewritten
  have here : ∃ other ∈ others, other.1 = field.1 ∧ field.2.canonical number = some other.2 := by
    clear found rewritten same
    induction related with
    | nil => simp at member
    | cons first _ ih =>
      rcases List.mem_cons.mp member with rfl | member
      · exact ⟨_,List.mem_cons_self,first⟩
      · obtain ⟨other,here,same⟩ := ih member
        exact ⟨other,List.mem_cons_of_mem _ here,same⟩
  obtain ⟨other,listed,key,written⟩ := here
  refine ⟨other.2,written,mem_keySorted.mpr ?_⟩
  rw [← key]
  exact listed

theorem key_of_canonical {fields out : List (String × Value)}
    (found : (Value.object fields).canonical number = some (.object out)) {field : String × Value} (member : field ∈ out) :
    ∃ value, (field.1,value) ∈ fields := by
  obtain ⟨others,rewritten,same⟩ := Option.map_eq_some_iff.mp found
  obtain rfl := Value.object.inj same
  obtain ⟨origin,here,keys⟩ := exists_of_forall₂ (canonicalFields_eq_some.mp rewritten) (mem_keySorted.mp member)
  exact ⟨origin.2,keys.1 ▸ here⟩

theorem field_agrees {first second : List (String × Value)} {out : Value} {depth : Nat} (fits : out.Fits depth)
    (one : (Value.object first).canonical number = some out) (two : (Value.object second).canonical other = some out)
    {key : String} {value value' : Value} (member : (key,value) ∈ first) (member' : (key,value') ∈ second) :
    ∃ written, value.canonical number = some written ∧ value'.canonical other = some written := by
  obtain ⟨fields,_,rfl⟩ := Option.map_eq_some_iff.mp one
  obtain ⟨written,found,listed⟩ := field_of_canonical one member
  obtain ⟨written',found',listed'⟩ := field_of_canonical two member'
  have unique : ((keySorted fields).map Prod.fst).Nodup := by
    cases depth with
    | zero => exact absurd fits id
    | succ depth => exact fits.1
  have same : written = written' := congrArg Prod.snd (List.inj_on_of_nodup_map unique listed listed' rfl)
  exact ⟨written,found,same ▸ found'⟩

theorem number_agrees {first second : List (String × Value)} {out : Value} {depth : Nat} (fits : out.Fits depth)
    (one : (Value.object first).canonical some = some out) (two : (Value.object second).canonical other = some out)
    {key : String} {literal literal' : Literal} (member : (key,.number literal) ∈ first)
    (member' : (key,.number literal') ∈ second) : other literal' = some literal := by
  obtain ⟨written,left,right⟩ := field_agrees fits one two member member'
  obtain rfl := Option.some.inj left
  obtain ⟨found,back,same⟩ := Option.map_eq_some_iff.mp right
  rw [back,Value.number.inj same]

theorem items_agree {items between : List Value} {sorted : List Value} (there : canonicalItems number items = some between)
    (plain : canonicalItems some items = some sorted) (back : canonicalItems other between = some sorted) :
    ∀ item ∈ items, ∃ one written, item.canonical number = some one ∧ item.canonical some = some written ∧
      one.canonical other = some written := by
  induction items generalizing between sorted with
  | nil => simp
  | cons item rest ih =>
    simp only [canonicalItems,Option.bind_eq_bind,Option.bind_eq_some_iff,Option.pure_def,Option.some.injEq] at there plain
    obtain ⟨one,first,ones,firsts,rfl⟩ := there
    obtain ⟨written,second,writtens,seconds,rfl⟩ := plain
    simp only [canonicalItems,Option.bind_eq_bind,Option.bind_eq_some_iff,Option.pure_def,Option.some.injEq,
      List.cons.injEq] at back
    obtain ⟨_,third,_,thirds,same,sames⟩ := back
    rw [same] at third
    rw [sames] at thirds
    exact List.forall_mem_cons.mpr ⟨⟨one,written,first,second,third⟩,ih firsts seconds thirds⟩

/-- Where what remains is the sorting, every number came back. -/
theorem returned_of_canonical (value : Value) {between sorted : Value} {depth : Nat} (fits : value.Fits depth)
    (there : value.canonical number = some between) (plain : value.canonical some = some sorted)
    (back : between.canonical other = some sorted) : value.Every (Returned number other) := by
  induction value using Value.induction generalizing between sorted depth with
  | scalar value scalar =>
    cases value with
    | number literal =>
      obtain ⟨one,first,rfl⟩ := Option.map_eq_some_iff.mp there
      obtain ⟨two,second,rfl⟩ := Option.map_eq_some_iff.mp back
      obtain rfl := Value.number.inj (Option.some.inj plain)
      exact ⟨one,first,second⟩
    | array | object => contradiction
    | null | bool | string => trivial
  | array items ih =>
    obtain ⟨ones,firsts,rfl⟩ := Option.map_eq_some_iff.mp there
    obtain ⟨writtens,seconds,rfl⟩ := Option.map_eq_some_iff.mp plain
    obtain ⟨others,thirds,same⟩ := Option.map_eq_some_iff.mp back
    obtain rfl := Value.array.inj same
    refine everyItem_iff.mpr fun item member => ?_
    obtain ⟨one,written,first,second,third⟩ := items_agree firsts seconds thirds item member
    cases depth with
    | zero => exact absurd fits id
    | succ depth => exact ih item member (fits item member) first second third
  | object fields ih =>
    obtain ⟨ones,firsts,rfl⟩ := Option.map_eq_some_iff.mp there
    refine everyField_iff.mpr fun field member => ?_
    obtain ⟨one,first,listed⟩ := field_of_canonical there member
    obtain ⟨written,second,third⟩ := field_agrees (fits_canonical plain fits) plain back member listed
    cases depth with
    | zero => exact absurd fits id
    | succ depth => exact ih field member (fits.2 field member) first second third

theorem mem_separated {c : Char} {texts : List (List Char)} (member : c ∈ separated texts) :
    c = ',' ∨ ∃ text ∈ texts, c ∈ text := by
  unfold separated at member
  induction texts with
  | nil => simp at member
  | cons text rest ih =>
    cases rest with
    | nil =>
      rw [List.intercalate_singleton] at member
      exact .inr ⟨text,List.mem_cons_self,member⟩
    | cons next rest =>
      rw [List.intercalate_cons_cons,List.mem_append,List.mem_append] at member
      rcases member with (member | comma) | member
      · exact .inr ⟨text,List.mem_cons_self,member⟩
      · exact .inl (List.mem_singleton.mp comma)
      · refine (ih member).imp_right ?_
        rintro ⟨other,listed,here⟩
        exact ⟨other,List.mem_cons_of_mem _ listed,here⟩

theorem mem_separated_of_mem {c : Char} {text : List Char} {texts : List (List Char)} (listed : text ∈ texts)
    (member : c ∈ text) : c ∈ separated texts := by
  unfold separated
  induction texts with
  | nil => simp at listed
  | cons first rest ih =>
    cases rest with
    | nil =>
      rw [List.intercalate_singleton]
      exact List.mem_singleton.mp listed ▸ member
    | cons next rest =>
      rw [List.intercalate_cons_cons,List.mem_append,List.mem_append]
      rcases List.mem_cons.mp listed with rfl | listed
      · exact .inl (.inl member)
      · exact .inr (ih listed)

/-- What holds of what is written for each character, and of punctuation and digits. -/
theorem text_every {escape : Char → List Char} {P : Char → Prop} (ascii : ∀ c : Char, c.toNat < 0x7f → P c)
    (escaped : ∀ c, ∀ d ∈ escape c, P d) (value : Value) : ∀ c ∈ value.text escape, P c := by
  have digits : ∀ n : Nat, ∀ c ∈ Nat.toDigits 10 n, P c := by
    intro n c member
    have digit := isDigit_toDigits member
    simp only [Char.isDigit,Bool.and_eq_true,decide_eq_true_eq] at digit
    apply ascii
    have above : c.toNat ≤ 57 := digit.2
    omega
  have digit : ∀ d : Fin 10, P (digitChar d) := by
    intro d
    apply ascii
    revert d
    decide
  have quotes : ∀ text, ∀ c ∈ quoted escape text, P c := by
    intro text c member
    simp only [quoted,List.mem_append,List.mem_cons,List.mem_flatMap,List.not_mem_nil,or_false] at member
    rcases member with (rfl | ⟨d,_,member⟩) | rfl
    · exact ascii _ (by decide)
    · exact escaped d c member
    · exact ascii _ (by decide)
  induction value using Value.induction with
  | scalar value scalar =>
    cases value with
    | null =>
      intro c member
      simp only [Value.text,List.mem_cons,List.not_mem_nil,or_false] at member
      rcases member with rfl | rfl | rfl | rfl <;> exact ascii _ (by decide)
    | bool value =>
      intro c member
      cases value <;> simp only [Value.text,List.mem_cons,List.not_mem_nil,or_false] at member
      · rcases member with rfl | rfl | rfl | rfl | rfl <;> exact ascii _ (by decide)
      · rcases member with rfl | rfl | rfl | rfl <;> exact ascii _ (by decide)
    | number literal =>
      intro c member
      simp only [Value.text,Literal.text,List.mem_append] at member
      rcases member with ((sign | whole) | fraction) | exponent
      · split at sign
        · rw [List.mem_singleton.mp sign]
          exact ascii _ (by decide)
        · simp at sign
      · exact digits _ c whole
      · split at fraction
        · simp at fraction
        · rcases List.mem_cons.mp fraction with rfl | fraction
          · exact ascii _ (by decide)
          · obtain ⟨d,_,rfl⟩ := List.mem_map.mp fraction
            exact digit d
      · cases given : literal.exponent with
        | none => simp [given] at exponent
        | some e =>
          simp only [given,Option.map_some,Option.getD_some,Exponent.text,List.mem_append,List.mem_cons,List.mem_map] at exponent
          rcases exponent with (letter | sign) | ⟨d,_,rfl⟩
          · rw [letter]
            split <;> exact ascii _ (by decide)
          · split at sign
            · simp at sign
            all_goals
              rw [List.mem_singleton.mp sign]
              exact ascii _ (by decide)
          · exact digit d
    | string text => exact quotes text
    | array | object => contradiction
  | array items ih =>
    intro c member
    simp only [Value.text,itemTexts_eq,List.mem_append,List.mem_cons,List.not_mem_nil,or_false] at member
    rcases member with (rfl | member) | rfl
    · exact ascii _ (by decide)
    · rcases mem_separated member with rfl | ⟨text,listed,here⟩
      · exact ascii _ (by decide)
      · obtain ⟨item,there,rfl⟩ := List.mem_map.mp listed
        exact ih item there c here
    · exact ascii _ (by decide)
  | object fields ih =>
    intro c member
    simp only [Value.text,fieldTexts_eq,List.mem_append,List.mem_cons,List.not_mem_nil,or_false] at member
    rcases member with (rfl | member) | rfl
    · exact ascii _ (by decide)
    · rcases mem_separated member with rfl | ⟨text,listed,here⟩
      · exact ascii _ (by decide)
      · obtain ⟨field,there,rfl⟩ := List.mem_map.mp listed
        simp only [fieldText,List.mem_append,List.mem_cons] at here
        rcases here with key | rfl | value
        · exact quotes field.1 c key
        · exact ascii _ (by decide)
        · exact ih field there c value
    · exact ascii _ (by decide)

/-- The characters of a text are those written for the characters of its strings. -/
theorem strings_of_text {escape : Char → List Char} {P : Char → Prop} {value : Value}
    (every : ∀ c ∈ value.text escape, P c) : value.Strings fun text => ∀ c ∈ text.toList, ∀ d ∈ escape c, P d := by
  have quotes : ∀ text, (∀ c ∈ quoted escape text, P c) → ∀ c ∈ text.toList, ∀ d ∈ escape c, P d := by
    intro text holds c member d written
    refine holds d ?_
    simp only [quoted,List.mem_append,List.mem_cons,List.mem_flatMap]
    exact .inl (.inr ⟨c,member,written⟩)
  induction value using Value.induction with
  | scalar value scalar =>
    cases value with
    | null => exact .null
    | bool value => exact .bool value
    | number literal => exact .number literal
    | string text => exact .string (quotes text every)
    | array | object => contradiction
  | array items ih =>
    refine .array fun item member => ih item member fun c here => every c ?_
    simp only [Value.text,itemTexts_eq,List.mem_append,List.mem_cons]
    exact .inl (.inr (mem_separated_of_mem (List.mem_map_of_mem member) here))
  | object fields ih =>
    have within : ∀ field ∈ fields, ∀ c ∈ fieldText escape field, P c := by
      intro field member c here
      refine every c ?_
      simp only [Value.text,fieldTexts_eq,List.mem_append,List.mem_cons]
      exact .inl (.inr (mem_separated_of_mem (List.mem_map_of_mem member) here))
    refine .object (fun field member => ?_) fun field member => ih field member fun c here => ?_
    · exact quotes field.1 fun c here => within field member c (List.mem_append_left _ here)
    · exact within field member c (List.mem_append_right _ (List.mem_cons_of_mem _ here))

theorem item_of_canonical {items out : List Value} (found : canonicalItems number items = some out) {item : Value}
    (member : item ∈ items) : ∃ written ∈ out, item.canonical number = some written := by
  have related := canonicalItems_eq_some.mp found
  clear found
  induction related with
  | nil => simp at member
  | cons first _ ih =>
    rcases List.mem_cons.mp member with rfl | member
    · exact ⟨_,List.mem_cons_self,first⟩
    · obtain ⟨written,listed,there⟩ := ih member
      exact ⟨written,List.mem_cons_of_mem _ listed,there⟩

theorem strings_of_canonical {P : String → Prop} {value written : Value} (found : value.canonical number = some written)
    (strings : written.Strings P) : value.Strings P := by
  induction value using Value.induction generalizing written with
  | scalar value scalar =>
    cases value with
    | null => exact .null
    | bool value => exact .bool value
    | number literal => exact .number literal
    | string text =>
      obtain rfl := Option.some.inj found
      exact strings
    | array | object => contradiction
  | array items ih =>
    obtain ⟨others,rewritten,rfl⟩ := Option.map_eq_some_iff.mp found
    cases strings with
    | array each =>
      refine .array fun item member => ?_
      obtain ⟨written,listed,there⟩ := item_of_canonical rewritten member
      exact ih item member there (each written listed)
  | object fields ih =>
    obtain ⟨others,_,rfl⟩ := Option.map_eq_some_iff.mp found
    cases strings with
    | object keys each =>
      refine .object (fun field member => ?_) fun field member => ?_
      · obtain ⟨written,_,listed⟩ := field_of_canonical found member
        exact keys (field.1,written) listed
      · obtain ⟨written,there,listed⟩ := field_of_canonical found member
        exact ih field member there (each (field.1,written) listed)

end
end JsonText
