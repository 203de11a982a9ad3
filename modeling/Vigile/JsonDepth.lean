import Vigile.JsonText

/-! Reading a JSON text with more room for what nests in it, and reading every field of it. -/
namespace JsonText

section
variable {α : Type} {read more : List Char → Option (α × List Char)} {close : Char}

variable {cs : List Char} {found : List α × List Char}

section
variable (wider : ∀ cs found, read cs = some found → more cs = some found)
include wider

theorem readEntries_mono {fuel : Nat} (reads : readEntries read close fuel cs = some found) :
    readEntries more close fuel cs = some found := by
  induction fuel generalizing cs found with
  | zero => contradiction
  | succ fuel ih =>
    unfold readEntries at reads ⊢
    obtain ⟨⟨entry,afterEntry⟩,first,reads⟩ := Option.bind_eq_some_iff.mp reads
    refine Option.bind_eq_some_iff.mpr ⟨(entry,afterEntry),wider _ _ first,?_⟩
    dsimp only at reads ⊢
    split at reads
    · obtain ⟨others,tail,same⟩ := Option.bind_eq_some_iff.mp reads
      exact Option.bind_eq_some_iff.mpr ⟨others,ih tail,same⟩
    · exact reads
    · contradiction

theorem readList_mono (reads : readList read close cs = some found) :
    readList more close cs = some found := by
  unfold readList at reads ⊢
  split at reads
  · split at reads
    · rename_i closed
      rw [if_pos closed]
      exact reads
    · rename_i opened
      rw [if_neg opened]
      exact readEntries_mono wider reads
  · contradiction

theorem readField_mono
    {found : (String × α) × List Char} (reads : readField read cs = some found) : readField more cs = some found := by
  unfold readField at reads ⊢
  split at reads
  · obtain ⟨key,afterKey,reads⟩ := Option.bind_eq_some_iff.mp reads
    refine Option.bind_eq_some_iff.mpr ⟨key,afterKey,?_⟩
    dsimp only at reads ⊢
    split at reads
    · obtain ⟨value,first,same⟩ := Option.bind_eq_some_iff.mp reads
      exact Option.bind_eq_some_iff.mpr ⟨value,wider _ _ first,same⟩
    · contradiction
  · contradiction

end

end

theorem readScalar_bracket {c : Char} (bracket : c = '[' ∨ c = '{') (rest : List Char) :
    readScalar (c :: rest) = none := by
  rcases bracket with rfl | rfl <;> rfl

variable {cs : List Char} {depth : Nat} {found : Value × List Char}

theorem readValue_succ
    (reads : readValue depth cs = some found) : readValue (depth + 1) cs = some found := by
  induction depth generalizing cs found with
  | zero =>
    unfold readValue at reads ⊢
    split
    · rename_i text
      rw [text,readScalar_bracket (.inl rfl)] at reads
      contradiction
    · rename_i text
      rw [text,readScalar_bracket (.inr rfl)] at reads
      contradiction
    · exact reads
  | succ depth ih =>
    unfold readValue at reads ⊢
    split at reads
    · obtain ⟨items,list,same⟩ := Option.map_eq_some_iff.mp reads
      exact Option.map_eq_some_iff.mpr ⟨items,readList_mono (fun _ _ => ih) list,same⟩
    · obtain ⟨fields,list,same⟩ := Option.map_eq_some_iff.mp reads
      exact Option.map_eq_some_iff.mpr ⟨fields,readList_mono (fun _ _ => readField_mono fun _ _ => ih) list,same⟩
    · exact reads

theorem readValue_mono {deeper : Nat} (room : depth ≤ deeper)
    (reads : readValue depth cs = some found) : readValue deeper cs = some found := by
  induction room with
  | refl => exact reads
  | step _ ih => exact readValue_succ ih

/-- `readValue` without letting a field that is given again replace the one before. -/
def readEvery : (depth : Nat) → List Char → Option (Value × List Char)
  | 0,cs => readScalar (skipSpaces cs)
  | depth + 1,cs =>
    match skipSpaces cs with
    | '[' :: rest => (readList (readEvery depth) ']' rest).map fun read => (.array read.1,read.2)
    | '{' :: rest => (readList (readField (readEvery depth)) '}' rest).map fun read => (.object read.1,read.2)
    | cs => readScalar cs

mutual
def Value.numbers : Value → List Literal
  | .number literal => [literal]
  | .array items => itemNumbers items
  | .object fields => fieldNumbers fields
  | _ => []

def itemNumbers : List Value → List Literal
  | [] => []
  | value :: rest => value.numbers ++ itemNumbers rest

def fieldNumbers : List (String × Value) → List Literal
  | [] => []
  | (_,value) :: rest => value.numbers ++ fieldNumbers rest
end

end JsonText
