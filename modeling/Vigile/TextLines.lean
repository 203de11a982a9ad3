import Mathlib.Data.List.DropRight

/-! Texts as lines: cut at a separator, joined by it, trimmed at the end, and the last of them. -/
namespace TextLines

variable {α : Type} [DecidableEq α] {nl : α} {p : α → Bool}

/-- Lines with separators between them. -/
def join (nl : α) (ls : List (List α)) : List α := [nl].intercalate ls

/-- No separator in a line. -/
def Separate (nl : α) (ls : List (List α)) : Prop := ∀ l ∈ ls, nl ∉ l

def linesOf (nl : α) (text : List α) : List (List α) :=
  if (text.splitOn nl).getLast? = some [] then (text.splitOn nl).dropLast else text.splitOn nl

/-- The line has nothing that is not trimmed. -/
def hollow (p : α → Bool) (l : List α) : Bool := l.all p

def trimLast (p : α → Bool) (ls : List (List α)) : List (List α) := ls.dropLast ++ [(ls.getLastD []).rdropWhile p]

omit [DecidableEq α] in
@[simp] theorem join_nil : join nl [] = [] := by
  rfl

omit [DecidableEq α] in
@[simp] theorem join_singleton (l : List α) : join nl [l] = l := by
  simp [join]

omit [DecidableEq α] in
theorem join_append {xs ys : List (List α)} (left : xs ≠ []) (right : ys ≠ []) :
    join nl (xs ++ ys) = join nl xs ++ nl :: join nl ys := by
  unfold join
  induction xs with
  | nil => contradiction
  | cons x xs ih =>
    by_cases last : xs = []
    · rw [last,List.singleton_append,List.intercalate_cons_of_ne_nil right,List.intercalate_singleton]
      simp
    · rw [List.cons_append,List.intercalate_cons_of_ne_nil (by simp [last]),ih last,List.intercalate_cons_of_ne_nil last]
      simp

omit [DecidableEq α] in
theorem suffix_join (xs ys : List (List α)) : join nl ys <:+ join nl (xs ++ ys) := by
  by_cases left : xs = []
  · rw [left]
    exact List.suffix_refl _
  by_cases right : ys = []
  · rw [right]
    exact List.nil_suffix
  rw [join_append left right]
  exact ⟨join nl xs ++ [nl],by simp⟩

theorem separate_split (text : List α) : Separate nl (text.splitOn nl) := by
  induction text with
  | nil => simp [Separate]
  | cons c rest ih =>
    rw [List.splitOn_cons_eq_if_modifyHead]
    obtain ⟨first,others,cut⟩ := List.exists_cons_of_ne_nil (List.splitOn_ne_nil nl rest)
    rw [cut] at ih ⊢
    split
    · intro l member
      rcases List.mem_cons.mp member with rfl | member
      · simp
      · exact ih l member
    · rename_i other
      intro l member
      rcases List.mem_cons.mp member with rfl | member
      · intro among
        rcases List.mem_cons.mp among with rfl | among
        · exact other (beq_self_eq_true _)
        · exact ih first List.mem_cons_self among
      · exact ih l (List.mem_cons_of_mem _ member)

variable {ls : List (List α)} {β : Type} {n : Nat}

/-- Lines that each have their separator behind them, taken apart. -/
theorem split_terminated (separate : Separate nl ls) :
    (ls.flatMap (· ++ [nl])).splitOn nl = ls ++ [[]] := by
  induction ls with
  | nil => rfl
  | cons l ls ih =>
    have text : (l :: ls).flatMap (· ++ [nl]) = l ++ nl :: ls.flatMap (· ++ [nl]) := by simp
    rw [text,List.splitOn_append_cons_self_of_not_mem (separate l List.mem_cons_self)]
    exact congrArg (l :: ·) (ih fun other member => separate other (List.mem_cons_of_mem _ member))

theorem join_split (nl : α) (text : List α) : join nl (text.splitOn nl) = text := List.intercalate_splitOn nl

theorem split_join (separate : Separate nl ls) (filled : ls ≠ []) :
    (join nl ls).splitOn nl = ls := List.splitOn_intercalate nl separate filled

/-- Lines that are not empty are told by their text. -/
theorem join_injective {xs ys : List (List α)} (left : Separate nl xs) (right : Separate nl ys)
    (xs_filled : [] ∉ xs) (ys_filled : [] ∉ ys) (same : join nl xs = join nl ys) : xs = ys := by
  by_cases left_nil : xs = []
  · by_cases right_nil : ys = []
    · rw [left_nil,right_nil]
    · have cut := split_join right right_nil
      rw [← same,left_nil] at cut
      exact absurd (cut ▸ List.mem_singleton_self _) ys_filled
  · by_cases right_nil : ys = []
    · have cut := split_join left left_nil
      rw [same,right_nil] at cut
      exact absurd (cut ▸ List.mem_singleton_self _) xs_filled
    · rw [← split_join left left_nil,same,split_join right right_nil]

/-- Lines that are not empty have no text only where there are none. -/
theorem nil_of_join {xs : List (List α)} (separate : Separate nl xs) (filled : [] ∉ xs) (none : join nl xs = []) :
    xs = [] := join_injective separate (fun _ member => absurd member (by simp)) filled (by simp) none

theorem count_join (separate : Separate nl ls) (filled : ls ≠ []) :
    (join nl ls).count nl + 1 = ls.length := by
  induction ls with
  | nil => contradiction
  | cons l ls ih =>
    have alone : l.count nl = 0 := List.count_eq_zero.mpr (separate l List.mem_cons_self)
    by_cases last : ls = []
    · rw [last,join_singleton,alone]
      rfl
    · have rest := ih (fun other member => separate other (List.mem_cons_of_mem _ member)) last
      rw [← List.singleton_append,join_append (by simp) last,join_singleton,List.count_append,alone,
        List.count_cons_self,Nat.zero_add,rest]
      simp

/-- A text at the end of another has no more lines. -/
theorem length_le_of_suffix {xs ys : List (List α)} (left : Separate nl xs) (right : Separate nl ys)
    (xs_filled : [] ∉ xs) (suffix : join nl xs <:+ join nl ys) : xs.length ≤ ys.length := by
  by_cases left_nil : xs = []
  · simp [left_nil]
  by_cases right_nil : ys = []
  · rw [right_nil,join_nil,List.suffix_nil] at suffix
    have cut := split_join left left_nil
    rw [suffix] at cut
    exact absurd (cut ▸ List.mem_singleton_self _) xs_filled
  · rw [← count_join left left_nil,← count_join right right_nil]
    exact Nat.succ_le_succ (suffix.sublist.count_le nl)

theorem rtake_append (xs ys : List β) (n : Nat) :
    (xs ++ ys).rtake n = xs.rtake (n - ys.length) ++ ys.rtake n := by
  unfold List.rtake
  rw [List.drop_append,List.length_append]
  by_cases few : n ≤ ys.length
  · have index : xs.length + ys.length - n - xs.length = ys.length - n := by omega
    have left : xs.drop (xs.length + ys.length - n) = [] := List.drop_of_length_le (by omega)
    have right : xs.drop (xs.length - (n - ys.length)) = [] := List.drop_of_length_le (by omega)
    rw [index,left,right]
  · have left : xs.length + ys.length - n = xs.length - (n - ys.length) := by omega
    have right : xs.length + ys.length - n - xs.length = ys.length - n := by omega
    rw [right,left]

theorem rtake_concat (xs : List β) (x : β) (positive : 1 ≤ n) :
    (xs ++ [x]).rtake n = xs.rtake (n - 1) ++ [x] := by
  obtain ⟨k,rfl⟩ := Nat.exists_eq_add_of_le' positive
  exact List.rtake_concat_succ _ _ _

theorem rtake_all {xs : List β} (enough : xs.length ≤ n) : xs.rtake n = xs := by
  unfold List.rtake
  rw [Nat.sub_eq_zero_of_le enough,List.drop_zero]

/-- Of more of the last ones, those that are too many come first. -/
theorem rdrop_append_rtake (xs : List β) {m : Nat} (less : n ≤ m) :
    (xs.rtake m).rdrop n ++ xs.rtake n = xs.rtake m := by
  have same : xs.rtake n = (xs.rtake m).rtake n := by
    unfold List.rtake
    rw [List.drop_drop,List.length_drop]
    congr 1
    omega
  rw [same]
  exact List.take_append_drop _ _

omit [DecidableEq α] in
theorem rdropWhile_append_all {xs ys : List α} (all : ∀ c ∈ ys, p c = true) :
    (xs ++ ys).rdropWhile p = xs.rdropWhile p := by
  unfold List.rdropWhile
  rw [List.reverse_append,List.dropWhile_append_of_pos fun c member => all c (List.mem_reverse.mp member)]

omit [DecidableEq α] in
theorem rdropWhile_append_some {xs ys : List α} (some : ys.rdropWhile p ≠ []) :
    (xs ++ ys).rdropWhile p = xs ++ ys.rdropWhile p := by
  unfold List.rdropWhile at *
  have kept : (ys.reverse.dropWhile p).isEmpty = false := by
    rw [← Bool.not_eq_true,List.isEmpty_iff]
    exact fun none => some (by rw [none,List.reverse_nil])
  rw [List.reverse_append,List.dropWhile_append,kept]
  simp

omit [DecidableEq α] in
theorem hollow_iff {l : List α} : hollow p l = true ↔ l.rdropWhile p = [] := by
  rw [List.rdropWhile_eq_nil_iff,hollow,List.all_eq_true]

omit [DecidableEq α] in
@[simp] theorem trimLast_concat (ls : List (List α)) (l : List α) :
    trimLast p (ls ++ [l]) = ls ++ [l.rdropWhile p] := by
  simp [trimLast]

omit [DecidableEq α] in
/-- To trim a text is to leave the hollow lines at its end and trim the last one that is not. -/
theorem trim_join (trimmed : p nl = true) (ls : List (List α)) :
    (join nl ls).rdropWhile p = join nl (trimLast p (ls.rdropWhile (hollow p))) := by
  induction ls using List.reverseRecOn with
  | nil => simp [trimLast]
  | append_singleton ls l ih =>
    by_cases none : hollow p l = true
    · rw [List.rdropWhile_concat_pos _ _ _ none,← ih]
      by_cases only : ls = []
      · rw [only,List.nil_append,join_singleton,hollow_iff.mp none]
        simp
      · rw [join_append only (by simp),join_singleton]
        refine rdropWhile_append_all fun c member => ?_
        rcases List.mem_cons.mp member with rfl | member
        · exact trimmed
        · exact List.all_eq_true.mp none c member
    · rw [List.rdropWhile_concat_neg _ _ _ none,trimLast_concat]
      have kept : l.rdropWhile p ≠ [] := fun empty => none (hollow_iff.mpr empty)
      by_cases only : ls = []
      · rw [only,List.nil_append,List.nil_append,join_singleton,join_singleton]
      · rw [join_append only (by simp),join_append only (by simp),join_singleton,join_singleton,
          ← List.singleton_append,← List.append_assoc,rdropWhile_append_some kept]
        simp

omit [DecidableEq α] in
theorem separate_trimLast (separate : Separate nl ls) : Separate nl (trimLast p ls) := by
  induction ls using List.reverseRecOn with
  | nil => simp [trimLast,Separate]
  | append_singleton ls l _ =>
    rw [trimLast_concat]
    intro other member
    rcases List.mem_append.mp member with member | member
    · exact separate other (List.mem_append_left _ member)
    · rw [List.mem_singleton.mp member]
      exact fun among => separate l (by simp) ((List.rdropWhile_prefix p l).subset among)

omit [DecidableEq α] in
theorem Separate.rdropWhile (separate : Separate nl ls) (q : List α → Bool) :
    Separate nl (ls.rdropWhile q) := fun l member => separate l ((List.rdropWhile_prefix q ls).subset member)

theorem split_trim (trimmed : p nl = true) (separate : Separate nl ls) :
    ((join nl ls).rdropWhile p).splitOn nl = trimLast p (ls.rdropWhile (hollow p)) := by
  rw [trim_join trimmed,split_join (separate_trimLast (separate.rdropWhile _)) (by simp [trimLast])]

/-- Cut as a whole, a text has the lines of its end behind those of its beginning. -/
theorem split_append (nl : α) (first second : List α) : ∃ before start begun rest,
    second.splitOn nl = begun :: rest ∧ (first ++ second).splitOn nl = before ++ (start ++ begun) :: rest := by
  obtain ⟨begun,rest,cut⟩ := List.exists_cons_of_ne_nil (List.splitOn_ne_nil nl second)
  induction first with
  | nil => exact ⟨[],[],begun,rest,cut,cut⟩
  | cons c first ih =>
    obtain ⟨before,start,begun',rest',cut',whole⟩ := ih
    obtain ⟨rfl,rfl⟩ := List.cons.inj (cut.symm.trans cut')
    rw [List.cons_append,List.splitOn_cons_eq_if_modifyHead,whole]
    split
    · exact ⟨[] :: before,start,begun,rest,cut,rfl⟩
    · cases before with
      | nil => exact ⟨[],c :: start,begun,rest,cut,rfl⟩
      | cons l before => exact ⟨(c :: l) :: before,start,begun,rest,cut,rfl⟩

theorem linesOf_cases (nl : α) (text : List α) : linesOf nl text = text.splitOn nl ∨ text.splitOn nl = linesOf nl text ++ [[]] := by
  unfold linesOf
  split
  · rename_i last
    exact .inr (List.dropLast_append_getLast? _ last).symm
  · exact .inl rfl

theorem separate_linesOf (text : List α) : Separate nl (linesOf nl text) := by
  intro l member
  rcases linesOf_cases nl text with same | more
  · exact separate_split text l (same ▸ member)
  · exact separate_split text l (more ▸ List.mem_append_left _ member)

/-- The lines and the parts of a text have the same lines up to the last that is not hollow. -/
theorem rdropWhile_linesOf (text : List α) :
    (linesOf nl text).rdropWhile (hollow p) = (text.splitOn nl).rdropWhile (hollow p) := by
  rcases linesOf_cases nl text with same | more
  · rw [same]
  · rw [more,List.rdropWhile_concat_pos _ _ _ rfl]

end TextLines
