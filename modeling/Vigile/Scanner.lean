import Mathlib.Data.List.Chain
import Mathlib.Data.List.Infix

/-! Scanners: a text is read piece by piece, each piece with its value and its place. -/
namespace Scanner

theorem isAlpha_iff {c : Char} : c.isAlpha = true ↔ 65 ≤ c.toNat ∧ c.toNat ≤ 90 ∨ 97 ≤ c.toNat ∧ c.toNat ≤ 122 := by
  change (decide (c.val ≥ 'A'.val ∧ c.val ≤ 'Z'.val) ||
    decide (c.val ≥ 'a'.val) && decide (c.val ≤ 'z'.val)) = true ↔ _
  simp only [Bool.or_eq_true,Bool.and_eq_true,decide_eq_true_eq]
  exact Iff.rfl

/-- A value read from a text, with the text that is left at its start and at its end. -/
structure Piece (σ α : Type) where
  value : α
  before : List σ
  after : List σ

variable {σ α β : Type}

/-- Places are compared by what is left of the text. -/
def Piece.Inside (piece : Piece σ α) (outer : Piece σ β) : Prop :=
  piece.before.length ≤ outer.before.length ∧ outer.after.length ≤ piece.after.length

def Piece.Apart (piece : Piece σ α) (other : Piece σ β) : Prop :=
  other.before.length ≤ piece.after.length ∨ piece.before.length ≤ other.after.length

variable (next : List σ → Option (α × List σ))

def scan : Nat → List σ → Option (List (Piece σ α))
  | 0,text =>
    match next text with
    | none => some []
    | some _ => none
  | fuel+1,text =>
    match next text with
    | none => some []
    | some (value,rest) => (scan fuel rest).map (⟨value,text,rest⟩ :: ·)

/-- Every piece takes a part of the text, and leaves the rest. -/
def Consumes : Prop := ∀ text value rest, next text = some (value,rest) → ∃ taken, taken ≠ [] ∧ text = taken ++ rest

def pieces (text : List σ) : List (Piece σ α) := (scan next text.length text).getD []

variable {next} {text rest : List σ} {value : α} {fuel : Nat} {piece : Piece σ α}

theorem Consumes.shorter (consumes : Consumes next) (read : next text = some (value,rest)) : rest.length < text.length := by
  obtain ⟨taken,nonempty,split⟩ := consumes text value rest read
  have positive := List.length_pos_of_ne_nil nonempty
  rw [split,List.length_append]
  omega

theorem Consumes.suffix (consumes : Consumes next) (read : next text = some (value,rest)) : rest <:+ text := by
  obtain ⟨taken,-,split⟩ := consumes text value rest read
  exact ⟨taken,split.symm⟩

theorem scan_stop (stops : next text = none) : scan next fuel text = some [] := by
  cases fuel <;> simp only [scan,stops]

/-- The fuel does not matter where it is enough. -/
theorem scan_enough (consumes : Consumes next) {fuel : Nat} (more : Nat) {text : List σ} (enough : text.length ≤ fuel)
    (larger : fuel ≤ more) : ∃ pieces, scan next fuel text = some pieces ∧ scan next more text = some pieces := by
  induction fuel generalizing more text with
  | zero =>
    cases read : next text with
    | none => exact ⟨[],scan_stop read,scan_stop read⟩
    | some found =>
      obtain ⟨value,rest⟩ := found
      have shorter := consumes.shorter read
      omega
  | succ fuel ih =>
    cases read : next text with
    | none => exact ⟨[],scan_stop read,scan_stop read⟩
    | some found =>
      obtain ⟨value,rest⟩ := found
      have shorter := consumes.shorter read
      obtain ⟨more,rfl⟩ : ∃ k, more = k+1 := ⟨more-1,by omega⟩
      obtain ⟨later,short,long⟩ := ih more (by omega : rest.length ≤ fuel) (by omega)
      exact ⟨⟨value,text,rest⟩ :: later,by simp only [scan,read,short,Option.map_some],by simp only [scan,read,long,Option.map_some]⟩

/-- A scanner that consumes comes to an end, in as many rounds as the text has symbols. -/
theorem scan_pieces (consumes : Consumes next) (text : List σ) : scan next text.length text = some (pieces next text) := by
  obtain ⟨found,scanned,-⟩ := scan_enough consumes text.length (Nat.le_refl text.length) (Nat.le_refl text.length)
  rw [pieces,scanned]
  rfl

theorem pieces_stop (stops : next text = none) : pieces next text = [] := by
  rw [pieces,scan_stop stops]
  rfl

theorem pieces_read (consumes : Consumes next) (read : next text = some (value,rest)) :
    pieces next text = ⟨value,text,rest⟩ :: pieces next rest := by
  have shorter := consumes.shorter read
  obtain ⟨size,long⟩ : ∃ k, text.length = k+1 := ⟨text.length-1,by omega⟩
  obtain ⟨found,short,enough⟩ := scan_enough consumes size (Nat.le_refl rest.length) (by omega)
  rw [pieces,long,scan,read]
  dsimp only
  rw [enough,pieces,short]
  rfl

/-- Induction over the rounds of a scanner. -/
theorem rounds (consumes : Consumes next) {motive : List σ → Prop} (stop : ∀ text, next text = none → motive text)
    (round : ∀ text value rest, next text = some (value,rest) → motive rest → motive text) (text : List σ) : motive text := by
  induction size : text.length using Nat.strong_induction_on generalizing text with
  | _ n ih =>
    cases read : next text with
    | none => exact stop text read
    | some found => exact round text found.1 found.2 read (ih _ (size ▸ consumes.shorter read) found.2 rfl)

/-- A piece is what is read at its place. -/
theorem of_mem_pieces (consumes : Consumes next) {text : List σ} (member : piece ∈ pieces next text) :
    piece.before <:+ text ∧ next piece.before = some (piece.value,piece.after) := by
  induction text using rounds consumes with
  | stop text stops =>
    rw [pieces_stop stops] at member
    cases member
  | round text value rest read later =>
    rw [pieces_read consumes read] at member
    rcases List.mem_cons.mp member with rfl | there
    · exact ⟨List.suffix_refl text,read⟩
    · have found := later there
      exact ⟨found.1.trans (consumes.suffix read),found.2⟩

/-- A piece begins the text, or begins where another one ends. -/
theorem before_of_mem (consumes : Consumes next) {text : List σ} (member : piece ∈ pieces next text) :
    piece.before = text ∨ ∃ earlier ∈ pieces next text, earlier.after = piece.before := by
  induction text using rounds consumes with
  | stop text stops =>
    rw [pieces_stop stops] at member
    cases member
  | round text value rest read later =>
    rw [pieces_read consumes read] at member ⊢
    rcases List.mem_cons.mp member with rfl | there
    · exact .inl rfl
    · rcases later there with here | ⟨earlier,inside,ends⟩
      · exact .inr ⟨_,List.mem_cons_self,here.symm⟩
      · exact .inr ⟨earlier,List.mem_cons_of_mem _ inside,ends⟩

/-- What holds of every two pieces of which one ends where the other begins holds along the list. -/
theorem pieces_isChain (consumes : Consumes next) {related : Piece σ α → Piece σ α → Prop} (text : List σ)
    (adjacent : ∀ first ∈ pieces next text, ∀ second ∈ pieces next text, first.after = second.before → related first second) :
    (pieces next text).IsChain related := by
  induction text using rounds consumes with
  | stop text stops =>
    rw [pieces_stop stops]
    exact .nil
  | round text value rest read later =>
    rw [pieces_read consumes read] at adjacent ⊢
    refine (later fun first here second there => adjacent first (List.mem_cons_of_mem _ here) second
      (List.mem_cons_of_mem _ there)).cons fun second head => ?_
    have member := List.mem_of_mem_head? head
    refine adjacent _ List.mem_cons_self second (List.mem_cons_of_mem _ member) ?_
    cases more : next rest with
    | none =>
      rw [pieces_stop more] at member
      cases member
    | some found =>
      obtain ⟨value,after⟩ := found
      rw [pieces_read consumes more] at head
      cases head
      rfl

end Scanner
