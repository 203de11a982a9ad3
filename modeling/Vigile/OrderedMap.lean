import Mathlib.Data.List.Nodup

/-! Finite maps that keep the order of insertion: a Python dict, or a table with its
primary key. -/

structure OrderedMap (κ β : Type) where
  entries : List (κ × β)
  unique : (entries.map Prod.fst).Nodup

namespace OrderedMap

variable {κ β : Type}

def empty : OrderedMap κ β := ⟨[],List.nodup_nil⟩

def keys (m : OrderedMap κ β) : List κ := m.entries.map Prod.fst

def values (m : OrderedMap κ β) : List β := m.entries.map Prod.snd

/-- Every value is replaced, no key is added or lost. -/
def modify (change : κ → β → β) (m : OrderedMap κ β) : OrderedMap κ β :=
  ⟨m.entries.map fun entry => (entry.1,change entry.1 entry.2),by
    rw [List.map_map]
    exact m.unique⟩

def filter (keep : κ → β → Bool) (m : OrderedMap κ β) : OrderedMap κ β :=
  ⟨m.entries.filter fun entry => keep entry.1 entry.2,
    m.unique.sublist (List.filter_sublist.map Prod.fst)⟩

variable [DecidableEq κ]

def get? (m : OrderedMap κ β) (key : κ) : Option β :=
  (m.entries.find? fun entry => entry.1 = key).map Prod.snd

def erase (m : OrderedMap κ β) (key : κ) : OrderedMap κ β :=
  ⟨m.entries.filter fun entry => entry.1 ≠ key,
    m.unique.sublist (List.filter_sublist.map Prod.fst)⟩

def set (m : OrderedMap κ β) (key : κ) (value : β) : OrderedMap κ β :=
  if known : key ∈ m.keys then m.modify fun k old => if k = key then value else old
  else ⟨m.entries ++ [(key,value)],by
    rw [List.map_append]
    exact m.unique.append (List.nodup_singleton key) (by simpa [keys] using known)⟩

variable {m : OrderedMap κ β} {key other : κ} {value : β}

@[simp] theorem get?_empty : (empty : OrderedMap κ β).get? key = none := rfl

theorem mem_entries : (key,value) ∈ m.entries ↔ m.get? key = some value := by
  unfold get?
  constructor
  · intro member
    cases found : m.entries.find? fun entry => entry.1 = key with
    | none => simpa using List.find?_eq_none.mp found (key,value) member
    | some entry =>
      have same : entry = (key,value) :=
        List.inj_on_of_nodup_map m.unique (List.mem_of_find?_eq_some found) member
          (by simpa using List.find?_some found)
      rw [same]
      rfl
  · intro found
    obtain ⟨entry,isFound,rfl⟩ := Option.map_eq_some_iff.mp found
    have isKey : entry.1 = key := by simpa using List.find?_some isFound
    exact isKey ▸ List.mem_of_find?_eq_some isFound

theorem get?_ext {n : OrderedMap κ β}
    (same : ∀ v, (key,v) ∈ n.entries ↔ (other,v) ∈ m.entries) : n.get? key = m.get? other := by
  refine Option.ext fun v => ?_
  rw [← mem_entries,← mem_entries,same]

theorem mem_values : value ∈ m.values ↔ ∃ key, m.get? key = some value := by
  unfold values
  rw [List.mem_map]
  constructor
  · rintro ⟨entry,member,rfl⟩
    exact ⟨entry.1,mem_entries.mp member⟩
  · rintro ⟨key,found⟩
    exact ⟨(key,value),mem_entries.mpr found,rfl⟩

theorem mem_keys : key ∈ m.keys ↔ ∃ value, m.get? key = some value := by
  simp [keys,mem_entries]

@[simp] theorem get?_modify (change : κ → β → β) :
    (m.modify change).get? key = (m.get? key).map (change key) := by
  refine Option.ext fun v => ?_
  rw [← mem_entries,Option.map_eq_some_iff]
  simp only [modify,List.mem_map,Prod.mk.injEq,Prod.exists]
  constructor
  · rintro ⟨k,old,member,rfl,rfl⟩
    exact ⟨old,mem_entries.mp member,rfl⟩
  · rintro ⟨old,found,rfl⟩
    exact ⟨key,old,mem_entries.mpr found,rfl,rfl⟩

theorem get?_erase (m : OrderedMap κ β) (key other : κ) :
    (m.erase key).get? other = if other = key then none else m.get? other := by
  split
  · rename_i same
    refine Option.eq_none_iff_forall_ne_some.mpr fun v found => ?_
    simpa [erase,same] using mem_entries.mpr found
  · rename_i differ
    exact get?_ext fun v => by simp [erase,differ]

theorem get?_erase_some (found : (m.erase key).get? other = some value) :
    other ≠ key ∧ m.get? other = some value := by
  rw [get?_erase] at found
  split at found
  · contradiction
  · rename_i differ
    exact ⟨differ,found⟩

theorem get?_filter (keep : κ → β → Bool) :
    (m.filter keep).get? key = (m.get? key).filter (keep key) := by
  refine Option.ext fun v => ?_
  rw [← mem_entries,Option.filter_eq_some_iff,← mem_entries]
  simp [filter]

@[simp] theorem get?_erase_self : (m.erase key).get? key = none := by simp [get?_erase]

theorem get?_erase_of_ne (differ : other ≠ key) : (m.erase key).get? other = m.get? other := by
  simp [get?_erase,differ]

@[simp] theorem get?_set_self : (m.set key value).get? key = some value := by
  unfold set
  split
  · rename_i known
    obtain ⟨old,found⟩ := mem_keys.mp known
    simp [found]
  · rw [← mem_entries]
    simp

theorem get?_set_of_ne (differ : other ≠ key) : (m.set key value).get? other = m.get? other := by
  unfold set
  split
  · simp [differ]
  · exact get?_ext fun v => by simp [differ]

end OrderedMap
