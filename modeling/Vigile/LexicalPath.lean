import Mathlib.Data.List.DropRight
import Mathlib.Data.List.Induction

/-! Slash-separated paths, resolved without looking at a file system: a dot stays, two dots
leave a directory again, and nothing is above the root. -/
namespace LexicalPath

/-- Where a path leads: from the root or not, so many levels up, then down the names; the
deepest name comes first. -/
structure Place where
  absolute : Bool
  ups : Nat
  names : List (List Char)
  deriving DecidableEq

def Place.enter (p : Place) (component : List Char) : Place :=
  if component = [] ∨ component = ['.'] then p
  else if component = ['.','.'] then
    match p.names with
    | _ :: above => { p with names := above }
    | [] => if p.absolute then p else { p with ups := p.ups + 1 }
  else { p with names := component :: p.names }

def components (path : List Char) : List (List Char) := path.splitOn '/'

def isAbsolute (path : List Char) : Bool := path.head? = some '/'

def walk (p : Place) (parts : List (List Char)) : Place := parts.foldl Place.enter p

def place (path : List Char) : Place := walk ⟨isAbsolute path,0,[]⟩ (components path)

def Below (directory target : Place) : Prop :=
  target.absolute = directory.absolute ∧ target.ups = directory.ups ∧ directory.names <:+ target.names

instance (directory target : Place) : Decidable (Below directory target) :=
  inferInstanceAs (Decidable (_ ∧ _ ∧ _))

def relative (parts : List (List Char)) : Place := walk ⟨false,0,[]⟩ parts

def Place.leave (p : Place) (levels : Nat) : Place :=
  ⟨p.absolute,if p.absolute then p.ups else p.ups + (levels - p.names.length),p.names.drop levels⟩

/-- The parts lead out of a directory by no more levels than they name again. -/
def Returns (p : Place) (parts : List (List Char)) : Prop :=
  (p.absolute = true ∨ (relative parts).ups ≤ p.names.length) ∧
    p.names.take (relative parts).ups <:+ (relative parts).names

theorem leave_zero (p : Place) : p.leave 0 = p := by
  obtain ⟨absolute,ups,names⟩ := p
  simp [Place.leave]

theorem enter_up (p : Place) (levels : Nat) : (p.leave levels).enter ['.','.'] = p.leave (levels + 1) := by
  obtain ⟨absolute,ups,names⟩ := p
  have up : ¬((['.','.'] : List Char) = [] ∨ (['.','.'] : List Char) = ['.']) := by decide
  unfold Place.enter
  rw [if_neg up,if_pos rfl]
  by_cases inside : levels < names.length
  · have split := List.drop_eq_getElem_cons inside
    simp only [Place.leave,split]
    congr 1
    split <;> omega
  · have above : names.drop levels = [] := List.drop_eq_nil_of_le (by omega)
    have further : names.drop (levels + 1) = [] := List.drop_eq_nil_of_le (by omega)
    simp only [Place.leave,above,further]
    cases absolute with
    | true => rfl
    | false =>
      simp only [Bool.false_eq_true,if_false]
      congr 1
      omega

theorem enter_absolute (p : Place) (part : List Char) : (p.enter part).absolute = p.absolute := by
  unfold Place.enter
  repeat' split
  all_goals rfl

theorem walk_absolute (p : Place) (parts : List (List Char)) : (walk p parts).absolute = p.absolute := by
  induction parts generalizing p with
  | nil => rfl
  | cons part parts ih => exact (ih (p.enter part)).trans (enter_absolute p part)

theorem walk_concat (p : Place) (parts : List (List Char)) (part : List Char) :
    walk p (parts ++ [part]) = (walk p parts).enter part := by
  simp [walk]

theorem walk_append (p : Place) (first second : List (List Char)) :
    walk p (first ++ second) = walk (walk p first) second := List.foldl_append

/-- Walking goes up first and then down. -/
theorem walk_eq (p : Place) (parts : List (List Char)) : walk p parts =
    { p.leave (relative parts).ups with names := (relative parts).names ++ p.names.drop (relative parts).ups } := by
  induction parts using List.reverseRecOn with
  | nil => exact (leave_zero p).symm
  | append_singleton parts part ih =>
    have floating : (relative parts).absolute = false := walk_absolute _ parts
    have there : relative (parts ++ [part]) = (relative parts).enter part := walk_concat _ parts part
    rw [walk_concat,there,ih]
    by_cases still : part = [] ∨ part = ['.']
    · simp only [Place.enter,if_pos still]
    · by_cases up : part = ['.','.']
      · cases names : (relative parts).names with
        | nil =>
          have higher : (relative parts).enter part = { relative parts with ups := (relative parts).ups + 1 } := by
            simp [Place.enter,if_neg still,if_pos up,names,floating]
          rw [higher,up]
          simp only [names,List.nil_append]
          exact enter_up p _
        | cons name above => simp only [Place.enter,if_neg still,if_pos up,names,List.cons_append]
      · simp [Place.enter,if_neg still,if_neg up]

/-- Where a walk from a directory ends below it. -/
theorem below_walk_iff (p : Place) (parts : List (List Char)) : Below p (walk p parts) ↔ Returns p parts := by
  have names : p.names <:+ (relative parts).names ++ p.names.drop (relative parts).ups ↔
      p.names.take (relative parts).ups <:+ (relative parts).names := by
    calc p.names <:+ (relative parts).names ++ p.names.drop (relative parts).ups
        ↔ p.names.take (relative parts).ups ++ p.names.drop (relative parts).ups <:+
            (relative parts).names ++ p.names.drop (relative parts).ups := by rw [List.take_append_drop]
      _ ↔ p.names.take (relative parts).ups <:+ (relative parts).names := List.suffix_append_self_iff
  have ups : (p.leave (relative parts).ups).ups = p.ups ↔
      p.absolute = true ∨ (relative parts).ups ≤ p.names.length := by
    cases absolute : p.absolute <;> simp [Place.leave,absolute]
    omega
  rw [walk_eq]
  simp only [Below,Returns,names]
  rw [ups]
  simp [Place.leave]

theorem walk_slash (p : Place) (first second : List Char) :
    walk p (components (first ++ '/' :: second)) = walk (walk p (components first)) (components second) := by
  unfold components
  rw [← walk_append,List.splitOn_append_cons_self]

theorem walk_trailing (p : Place) (path : List Char) : walk p (components (path.rdropWhile (· = '/'))) = walk p (components path) := by
  induction path using List.reverseRecOn with
  | nil => rfl
  | append_singleton path last ih =>
    by_cases slash : last = '/'
    · subst slash
      rw [List.rdropWhile_concat_pos _ _ _ (by simp),ih,walk_slash]
      rfl
    · rw [List.rdropWhile_concat_neg _ _ _ (by simpa using slash)]

end LexicalPath
