import Mathlib.Data.List.Sort
import Vigile.DecimalText

/-! What JSON texts denote, and the canonical form of a value: its fields in the order of
their keys and its numbers rewritten. -/
namespace JsonText

section
variable {α β : Type}

def keySorted (entries : List (String × α)) : List (String × α) :=
  entries.insertionSort fun first second => first.1 ≤ second.1

theorem keySorted_perm (entries : List (String × α)) : (keySorted entries).Perm entries :=
  List.perm_insertionSort _ entries

variable {entries : List (String × α)}

theorem mem_keySorted {entry : String × α} :
    entry ∈ keySorted entries ↔ entry ∈ entries := (keySorted_perm entries).mem_iff

theorem keySorted_pairwise (entries : List (String × α)) :
    (keySorted entries).Pairwise fun first second => first.1 ≤ second.1 := by
  have total : Std.Total fun first second : String × α => first.1 ≤ second.1 :=
    ⟨fun first second => le_total first.1 second.1⟩
  have transitive : IsTrans (String × α) fun first second => first.1 ≤ second.1 :=
    ⟨fun _ _ _ => le_trans⟩
  exact List.pairwise_insertionSort _ entries

theorem keySorted_sorted
    (sorted : entries.Pairwise fun first second => first.1 ≤ second.1) : keySorted entries = entries :=
  sorted.insertionSort_eq

theorem keySorted_keySorted (entries : List (String × α)) :
    keySorted (keySorted entries) = keySorted entries := keySorted_sorted (keySorted_pairwise entries)

theorem keySorted_map (f : String × α → String × β) (keeps : ∀ entry, (f entry).1 = entry.1)
    (entries : List (String × α)) : keySorted (entries.map f) = (keySorted entries).map f := by
  have order : ∀ first ∈ entries, ∀ second ∈ entries,
      first.1 ≤ second.1 ↔ (f first).1 ≤ (f second).1 := by
    intro first _ second _
    rw [keeps,keeps]
  exact (List.map_insertionSort _ _ f entries order).symm

/-- Sorting forgets the order of entries and nothing else. -/
theorem keySorted_eq_iff {first second : List (String × α)} (unique : (first.map Prod.fst).Nodup) :
    keySorted first = keySorted second ↔ first.Perm second := by
  constructor
  · intro same
    exact (keySorted_perm first).symm.trans (same ▸ keySorted_perm second)
  · intro permuted
    have sorted : (keySorted first).Perm (keySorted second) :=
      ((keySorted_perm first).trans permuted).trans (keySorted_perm second).symm
    have strict : ∀ entry ∈ keySorted first, ∀ other ∈ keySorted first, entry.1 ≤ other.1 →
        other.1 ≤ entry.1 → entry = other := by
      intro entry here other there below above
      exact List.inj_on_of_nodup_map unique (mem_keySorted.mp here) (mem_keySorted.mp there)
        (le_antisymm below above)
    refine List.Perm.eq_of_pairwise ?_ (keySorted_pairwise first) (keySorted_pairwise second) sorted
    intro entry other here there below above
    exact strict entry here other (sorted.mem_iff.mpr there) below above

end

/-- What a JSON text denotes. An object is its entries in the order of their keys, since the
order they are written in is not part of it. -/
inductive Datum where
  | null
  | bool (value : Bool)
  | number (value : ℚ)
  | string (text : String)
  | array (items : List Datum)
  | object (entries : List (String × Datum))

mutual
def Value.datum : Value → Datum
  | .null => .null
  | .bool value => .bool value
  | .number literal => .number literal.value
  | .string text => .string text
  | .array items => .array (itemData items)
  | .object fields => .object (keySorted (fieldData fields))

def itemData : List Value → List Datum
  | [] => []
  | value :: rest => value.datum :: itemData rest

def fieldData : List (String × Value) → List (String × Datum)
  | [] => []
  | (key,value) :: rest => (key,value.datum) :: fieldData rest
end

mutual
def Value.Every (P : Literal → Prop) : Value → Prop
  | .number literal => P literal
  | .array items => EveryItem P items
  | .object fields => EveryField P fields
  | _ => True

def EveryItem (P : Literal → Prop) : List Value → Prop
  | [] => True
  | value :: rest => value.Every P ∧ EveryItem P rest

def EveryField (P : Literal → Prop) : List (String × Value) → Prop
  | [] => True
  | (_,value) :: rest => value.Every P ∧ EveryField P rest
end

mutual
def Value.canonical (number : Literal → Option Literal) : Value → Option Value
  | .number literal => (number literal).map .number
  | .array items => (canonicalItems number items).map .array
  | .object fields => (canonicalFields number fields).map fun fields => .object (keySorted fields)
  | scalar => some scalar

def canonicalItems (number : Literal → Option Literal) : List Value → Option (List Value)
  | [] => some []
  | value :: rest => do
    let value ← value.canonical number
    let rest ← canonicalItems number rest
    return value :: rest

def canonicalFields (number : Literal → Option Literal) : List (String × Value) →
    Option (List (String × Value))
  | [] => some []
  | (key,value) :: rest => do
    let value ← value.canonical number
    let rest ← canonicalFields number rest
    return (key,value) :: rest
end

/-- A property of all values follows from its step to arrays and objects. -/
theorem Value.induction {P : Value → Prop} (scalar : ∀ value : Value, value.isScalar = true → P value)
    (array : ∀ items, (∀ item ∈ items, P item) → P (.array items))
    (object : ∀ fields, (∀ field ∈ fields, P field.2) → P (.object fields)) (value : Value) : P value :=
  @Value.rec P (fun items => ∀ item ∈ items, P item) (fun fields => ∀ field ∈ fields, P field.2)
    (fun field => P field.2) (scalar .null rfl) (fun value => scalar (.bool value) rfl)
    (fun literal => scalar (.number literal) rfl) (fun text => scalar (.string text) rfl)
    array object (by simp) (fun _ _ head tail => List.forall_mem_cons.mpr ⟨head,tail⟩) (by simp)
    (fun _ _ head tail => List.forall_mem_cons.mpr ⟨head,tail⟩) (fun _ _ value => value) value

theorem itemData_eq (items : List Value) : itemData items = items.map Value.datum := by
  induction items with
  | nil => rfl
  | cons item items ih => simp only [itemData,List.map_cons,ih]

theorem fieldData_eq (fields : List (String × Value)) :
    fieldData fields = fields.map fun field => (field.1,field.2.datum) := by
  induction fields with
  | nil => rfl
  | cons field fields ih => simp only [fieldData,List.map_cons,ih]

variable {P : Literal → Prop} {items : List Value} {fields : List (String × Value)}

theorem everyItem_iff :
    EveryItem P items ↔ ∀ item ∈ items, item.Every P := by
  induction items with
  | nil => simp [EveryItem]
  | cons item items ih => simp only [EveryItem,List.forall_mem_cons,ih]

theorem everyField_iff :
    EveryField P fields ↔ ∀ field ∈ fields, field.2.Every P := by
  induction fields with
  | nil => simp [EveryField]
  | cons field fields ih => simp only [EveryField,List.forall_mem_cons,ih]

theorem everyItem_of_mem (every : (Value.array items).Every P)
    {item : Value} (member : item ∈ items) : item.Every P := everyItem_iff.mp every item member

theorem everyField_of_mem
    (every : (Value.object fields).Every P) {field : String × Value} (member : field ∈ fields) :
    field.2.Every P := everyField_iff.mp every field member

theorem every_and {Q : Literal → Prop} (value : Value) (first : value.Every P) (second : value.Every Q) :
    value.Every fun literal => P literal ∧ Q literal := by
  induction value using Value.induction with
  | scalar value scalar =>
    cases value with
    | number literal => exact ⟨first,second⟩
    | array | object => contradiction
    | null | bool | string => trivial
  | array items ih =>
    apply everyItem_iff.mpr
    exact fun item member => ih item member (everyItem_of_mem first member) (everyItem_of_mem second member)
  | object fields ih =>
    apply everyField_iff.mpr
    exact fun field member => ih field member (everyField_of_mem first member) (everyField_of_mem second member)

section
variable {number : Literal → Option Literal}

theorem canonicalItems_eq_some {items written : List Value} : canonicalItems number items = some written ↔
    List.Forall₂ (fun item other => item.canonical number = some other) items written := by
  induction items generalizing written with
  | nil =>
    simp only [canonicalItems,Option.some.injEq,List.forall₂_nil_left_iff]
    exact eq_comm
  | cons item items ih =>
    simp only [canonicalItems,Option.bind_eq_bind,Option.bind_eq_some_iff,Option.pure_def,Option.some.injEq,
      List.forall₂_cons_left_iff,ih]
    constructor
    · rintro ⟨first,here,rest,others,rfl⟩
      exact ⟨first,rest,here,others,rfl⟩
    · rintro ⟨first,rest,here,others,rfl⟩
      exact ⟨first,here,rest,others,rfl⟩

variable {fields written : List (String × Value)}

theorem canonicalFields_eq_some :
    canonicalFields number fields = some written ↔
    List.Forall₂ (fun field other => other.1 = field.1 ∧ field.2.canonical number = some other.2)
      fields written := by
  induction fields generalizing written with
  | nil =>
    simp only [canonicalFields,Option.some.injEq,List.forall₂_nil_left_iff]
    exact eq_comm
  | cons field fields ih =>
    obtain ⟨key,value⟩ := field
    simp only [canonicalFields,Option.bind_eq_bind,Option.bind_eq_some_iff,Option.pure_def,Option.some.injEq,
      List.forall₂_cons_left_iff,ih]
    constructor
    · rintro ⟨first,here,rest,others,rfl⟩
      exact ⟨(key,first),rest,⟨rfl,here⟩,others,rfl⟩
    · rintro ⟨⟨_,first⟩,rest,⟨rfl,here⟩,others,rfl⟩
      exact ⟨first,here,rest,others,rfl⟩

theorem exists_of_forall₂ {α β : Type} {R : α → β → Prop} {items : List α} {others : List β}
    (related : List.Forall₂ R items others) {other : β} (member : other ∈ others) :
    ∃ item ∈ items, R item other := by
  induction related with
  | nil => simp at member
  | cons first _ ih =>
    rcases List.mem_cons.mp member with rfl | member
    · exact ⟨_,List.mem_cons_self,first⟩
    · obtain ⟨item,here,same⟩ := ih member
      exact ⟨item,List.mem_cons_of_mem _ here,same⟩

theorem keys_canonicalFields
    (found : canonicalFields number fields = some written) : written.map Prod.fst = fields.map Prod.fst := by
  have related := canonicalFields_eq_some.mp found
  induction related with
  | nil => rfl
  | cons first others ih => simp only [List.map_cons,first.1,ih (canonicalFields_eq_some.mpr others)]

/-- The canonical form nests as deep as the value, and its objects have no key twice either. -/
theorem fits_canonical {depth : Nat} {value written : Value} (found : value.canonical number = some written)
    (fits : value.Fits depth) : written.Fits depth := by
  induction depth generalizing value written with
  | zero =>
    cases value with
    | array | object => exact absurd fits id
    | number literal =>
      obtain ⟨_,_,rfl⟩ := Option.map_eq_some_iff.mp found
      trivial
    | null | bool | string =>
      obtain rfl := Option.some.inj found
      trivial
  | succ depth ih =>
    cases value with
    | array items =>
      obtain ⟨others,related,rfl⟩ := Option.map_eq_some_iff.mp found
      intro other member
      obtain ⟨item,here,same⟩ := exists_of_forall₂ (canonicalItems_eq_some.mp related) member
      exact ih same (fits item here)
    | object fields =>
      obtain ⟨others,rewritten,rfl⟩ := Option.map_eq_some_iff.mp found
      constructor
      · rw [((keySorted_perm others).map Prod.fst).nodup_iff,keys_canonicalFields rewritten]
        exact fits.1
      · intro other member
        obtain ⟨field,here,_,same⟩ :=
          exists_of_forall₂ (canonicalFields_eq_some.mp rewritten) (mem_keySorted.mp member)
        exact ih same (fits.2 field here)
    | number literal =>
      obtain ⟨_,_,rfl⟩ := Option.map_eq_some_iff.mp found
      trivial
    | null | bool | string =>
      obtain rfl := Option.some.inj found
      trivial

variable {P : Literal → Prop}

/-- Where the numbers are rewritten as numbers of the same value, the canonical form exists
and denotes what the value denotes. -/
theorem datum_canonical (keeps : ∀ literal, P literal → ∃ other, number literal = some other ∧ other.value = literal.value)
    (value : Value) (every : value.Every P) :
    ∃ written, value.canonical number = some written ∧ written.datum = value.datum := by
  induction value using Value.induction with
  | scalar value scalar =>
    cases value with
    | number literal =>
      obtain ⟨other,found,same⟩ := keeps literal every
      refine ⟨.number other,?_,?_⟩
      · simp [Value.canonical,found]
      · simp only [Value.datum,same]
    | array | object => contradiction
    | null | bool | string => exact ⟨_,rfl,rfl⟩
  | array items ih =>
    have each : ∃ others, canonicalItems number items = some others ∧ itemData others = itemData items := by
      simp only [canonicalItems_eq_some,itemData_eq]
      induction items with
      | nil => exact ⟨[],.nil,rfl⟩
      | cons item items step =>
        obtain ⟨first,here,same⟩ := ih item List.mem_cons_self (everyItem_of_mem every List.mem_cons_self)
        obtain ⟨rest,there,others⟩ := step (fun item member => ih item (List.mem_cons_of_mem _ member)) every.2
        refine ⟨first :: rest,.cons here there,?_⟩
        rw [List.map_cons,List.map_cons,same,others]
    obtain ⟨others,found,same⟩ := each
    refine ⟨.array others,?_,?_⟩
    · simp [Value.canonical,found]
    · simp only [Value.datum,same]
  | object fields ih =>
    have each : ∃ others, canonicalFields number fields = some others ∧ fieldData others = fieldData fields := by
      simp only [canonicalFields_eq_some,fieldData_eq]
      induction fields with
      | nil => exact ⟨[],.nil,rfl⟩
      | cons field fields step =>
        obtain ⟨first,here,same⟩ := ih field List.mem_cons_self (everyField_of_mem every List.mem_cons_self)
        obtain ⟨rest,there,others⟩ := step (fun field member => ih field (List.mem_cons_of_mem _ member)) every.2
        refine ⟨(field.1,first) :: rest,.cons ⟨rfl,here⟩ there,?_⟩
        rw [List.map_cons,List.map_cons,same,others]
    obtain ⟨others,found,same⟩ := each
    refine ⟨.object (keySorted others),?_,?_⟩
    · simp [Value.canonical,found]
    · simp only [Value.datum,fieldData_eq] at same ⊢
      have keyed : ∀ field : String × Value, (field.1,field.2.datum).1 = field.1 := fun _ => rfl
      rw [← keySorted_map _ keyed,keySorted_keySorted,same]

end

mutual
def Datum.written (write : ℚ → Literal) : Datum → Value
  | .null => .null
  | .bool value => .bool value
  | .number value => .number (write value)
  | .string text => .string text
  | .array items => .array (writtenItems write items)
  | .object entries => .object (writtenEntries write entries)

def writtenItems (write : ℚ → Literal) : List Datum → List Value
  | [] => []
  | datum :: rest => datum.written write :: writtenItems write rest

def writtenEntries (write : ℚ → Literal) : List (String × Datum) → List (String × Value)
  | [] => []
  | (key,datum) :: rest => (key,datum.written write) :: writtenEntries write rest
end

theorem writtenItems_eq (write : ℚ → Literal) (items : List Datum) :
    writtenItems write items = items.map (Datum.written write) := by
  induction items with
  | nil => rfl
  | cons item items ih => simp only [writtenItems,List.map_cons,ih]

theorem writtenEntries_eq (write : ℚ → Literal) (entries : List (String × Datum)) :
    writtenEntries write entries = entries.map fun entry => (entry.1,entry.2.written write) := by
  induction entries with
  | nil => rfl
  | cons entry entries ih => simp only [writtenEntries,List.map_cons,ih]

/-- Where the way a number is rewritten depends on its value alone, the canonical form
depends on what the value denotes alone. -/
theorem canonical_of_datum {number : Literal → Option Literal} {P : Literal → Prop} (write : ℚ → Literal)
    (normal : ∀ literal, P literal → number literal = some (write literal.value)) (value : Value)
    (every : value.Every P) : value.canonical number = some (value.datum.written write) := by
  induction value using Value.induction with
  | scalar value scalar =>
    cases value with
    | number literal => simp only [Value.canonical,Value.datum,Datum.written,normal literal every,Option.map_some]
    | array | object => contradiction
    | null | bool | string => rfl
  | array items ih =>
    have each : canonicalItems number items = some (writtenItems write (itemData items)) := by
      simp only [canonicalItems_eq_some,writtenItems_eq,itemData_eq,List.map_map,List.forall₂_map_right_iff,
        List.forall₂_same]
      exact fun item member => ih item member (everyItem_of_mem every member)
    simp [Value.canonical,Value.datum,Datum.written,each]
  | object fields ih =>
    have each : canonicalFields number fields =
        some (fields.map fun field => (field.1,field.2.datum.written write)) := by
      simp only [canonicalFields_eq_some,List.forall₂_map_right_iff,List.forall₂_same,true_and]
      exact fun field member => ih field member (everyField_of_mem every member)
    have keyed : ∀ entry : String × Datum, (entry.1,entry.2.written write).1 = entry.1 := fun _ => rfl
    simp only [Value.canonical,Value.datum,Datum.written,each,Option.map_some,writtenEntries_eq,fieldData_eq]
    rw [← keySorted_map _ keyed,List.map_map]
    rfl

end JsonText
