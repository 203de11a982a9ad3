import Vigile.JsonDatum

/-! Values with their fields in the order of any relation on keys: they denote what they denoted, and their texts tell
them apart. -/
namespace JsonText

section
variable (le : String → String → Prop) [DecidableRel le] {α β : Type}

def sortedBy (entries : List (String × α)) : List (String × α) :=
  entries.insertionSort fun first second => le first.1 second.1

theorem sortedBy_perm (entries : List (String × α)) : (sortedBy le entries).Perm entries :=
  List.perm_insertionSort _ entries

theorem sortedBy_map (f : String × α → String × β) (keeps : ∀ entry, (f entry).1 = entry.1)
    (entries : List (String × α)) : sortedBy le (entries.map f) = (sortedBy le entries).map f := by
  have order : ∀ first ∈ entries, ∀ second ∈ entries, le first.1 second.1 ↔ le (f first).1 (f second).1 := by
    intro first _ second _
    rw [keeps,keeps]
  exact (List.map_insertionSort _ _ f entries order).symm

mutual
def Value.ordered : Value → Value
  | .array items => .array (orderedItems items)
  | .object fields => .object (sortedBy le (orderedFields fields))
  | scalar => scalar

def orderedItems : List Value → List Value
  | [] => []
  | value :: rest => value.ordered :: orderedItems rest

def orderedFields : List (String × Value) → List (String × Value)
  | [] => []
  | (key,value) :: rest => (key,value.ordered) :: orderedFields rest
end

theorem orderedItems_eq (items : List Value) : orderedItems le items = items.map (Value.ordered le) := by
  induction items with
  | nil => rfl
  | cons item items ih => simp only [orderedItems,List.map_cons,ih]

theorem orderedFields_eq (fields : List (String × Value)) :
    orderedFields le fields = fields.map fun field => (field.1,field.2.ordered le) := by
  induction fields with
  | nil => rfl
  | cons field fields ih => simp only [orderedFields,List.map_cons,ih]

theorem datum_perm {fields others : List (String × Value)} (unique : (fields.map Prod.fst).Nodup)
    (same : fields.Perm others) : (Value.object fields).datum = (Value.object others).datum := by
  have keys : ((fieldData fields).map Prod.fst).Nodup := by
    rw [fieldData_eq,List.map_map]
    exact unique
  have data : (fieldData fields).Perm (fieldData others) := by
    rw [fieldData_eq,fieldData_eq]
    exact same.map _
  simp only [Value.datum,(keySorted_eq_iff keys).mpr data]

variable {depth : Nat} {value : Value}

theorem fits_ordered (fits : value.Fits depth) : (value.ordered le).Fits depth := by
  induction depth generalizing value with
  | zero =>
    cases value with
    | array | object => exact absurd fits id
    | null | bool | number | string => trivial
  | succ depth ih =>
    cases value with
    | array items =>
      simp only [Value.ordered,orderedItems_eq]
      intro other member
      obtain ⟨item,here,rfl⟩ := List.mem_map.mp member
      exact ih (fits item here)
    | object fields =>
      simp only [Value.ordered,orderedFields_eq]
      constructor
      · rw [((sortedBy_perm le _).map Prod.fst).nodup_iff,List.map_map]
        exact fits.1
      · intro other member
        obtain ⟨field,here,rfl⟩ := List.mem_map.mp ((sortedBy_perm le _).mem_iff.mp member)
        exact ih (fits.2 field here)
    | null | bool | number | string => trivial

/-- The order of fields is not part of what a value denotes. -/
theorem datum_ordered (fits : value.Fits depth) : (value.ordered le).datum = value.datum := by
  induction depth generalizing value with
  | zero =>
    cases value with
    | array | object => exact absurd fits id
    | null | bool | number | string => rfl
  | succ depth ih =>
    cases value with
    | array items =>
      have each : itemData (orderedItems le items) = itemData items := by
        simp only [itemData_eq,orderedItems_eq,List.map_map]
        exact List.map_congr_left fun item member => ih (fits item member)
      simp only [Value.ordered,Value.datum,each]
    | object fields =>
      have each : fieldData (orderedFields le fields) = fieldData fields := by
        simp only [fieldData_eq,orderedFields_eq,List.map_map]
        exact List.map_congr_left fun field member => Prod.ext rfl (ih (fits.2 field member))
      have unique : ((orderedFields le fields).map Prod.fst).Nodup := by
        rw [orderedFields_eq,List.map_map]
        exact fits.1
      calc (Value.object (sortedBy le (orderedFields le fields))).datum
          = (Value.object (orderedFields le fields)).datum := (datum_perm unique (sortedBy_perm le _).symm).symm
        _ = (Value.object fields).datum := by simp only [Value.datum,each]
    | null | bool | number | string => rfl

end

theorem fits_mono {depth deeper : Nat} {value : Value} (fits : value.Fits depth) (room : depth ≤ deeper) :
    value.Fits deeper := by
  induction depth generalizing value deeper with
  | zero =>
    cases value with
    | array | object => exact absurd fits id
    | null | bool | number | string => exact fits_of_scalar rfl deeper
  | succ depth ih =>
    obtain ⟨deeper,rfl⟩ : ∃ further, deeper = further + 1 := ⟨deeper - 1,by omega⟩
    have within : depth ≤ deeper := by omega
    cases value with
    | array items => exact fun item member => ih (fits item member) within
    | object fields => exact ⟨fits.1,fun field member => ih (fits.2 field member) within⟩
    | null | bool | number | string => exact fits_of_scalar rfl _

/-- Values without a repeated key are told apart by their texts. -/
theorem text_injective {escape : Char → List Char} (reads : Reads escape) {depth : Nat} {first second : Value}
    (fits : first.Fits depth) (others : second.Fits depth) (same : first.text escape = second.text escape) :
    first = second := by
  have read := readValue_text reads depth first fits [] closed_nil
  rw [same,readValue_text reads depth second others [] closed_nil] at read
  exact ((Prod.mk.inj (Option.some.inj read)).1).symm

end JsonText
