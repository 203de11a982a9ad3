import Vigile.LexicalPath

/-! The text of a lexical place, and what Go's path/filepath makes of slash-separated paths. -/
namespace LexicalPath

def Place.parts (p : Place) : List (List Char) := List.replicate p.ups ['.','.'] ++ p.names.reverse

def Place.text (p : Place) : List Char :=
  if p.absolute then '/' :: ['/'].intercalate p.parts
  else if p.parts = [] then ['.'] else ['/'].intercalate p.parts

def clean (path : List Char) : List Char := (place path).text

/-- filepath.Join of two elements; empty ones are left out. -/
def join (first second : List Char) : List Char :=
  if first = [] then if second = [] then [] else clean second
  else if second = [] then clean first
  else clean (first ++ '/' :: second)

def base (path : List Char) : List Char :=
  if path = [] then ['.']
  else
    let last := (path.rdropWhile (· = '/')).rtakeWhile (· ≠ '/')
    if last = [] then ['/'] else last

/-- A component that names an entry. -/
def Ordinary (part : List Char) : Prop := part ≠ [] ∧ part ≠ ['.'] ∧ part ≠ ['.','.']

instance (part : List Char) : Decidable (Ordinary part) := inferInstanceAs (Decidable (_ ∧ _ ∧ _))

structure Place.Proper (p : Place) : Prop where
  ordinary : ∀ name ∈ p.names, Ordinary name
  separate : ∀ name ∈ p.names, '/' ∉ name
  rooted : p.absolute = true → p.ups = 0

variable {p q : Place} {path part : List Char} {parts : List (List Char)}

theorem not_mem_components (member : part ∈ components path) : '/' ∉ part := by
  unfold components at member
  induction path generalizing part with
  | nil =>
    rw [List.splitOn_nil,List.mem_singleton] at member
    simp [member]
  | cons c rest ih =>
    rw [List.splitOn_cons_eq_if_modifyHead] at member
    split at member
    · rcases List.mem_cons.mp member with rfl | later
      · exact List.not_mem_nil
      · exact ih later
    · rename_i other
      have separator : c ≠ '/' := by simpa using other
      cases tail : rest.splitOn '/' with
      | nil => exact absurd tail (List.splitOn_ne_nil _ _)
      | cons head tails =>
        rw [tail] at member ih
        rcases List.mem_cons.mp member with rfl | later
        · rw [List.mem_cons,not_or]
          exact ⟨separator.symm,ih List.mem_cons_self⟩
        · exact ih (List.mem_cons_of_mem _ later)

theorem enter_ordinary (p : Place) (ordinary : Ordinary part) : p.enter part = { p with names := part :: p.names } := by
  unfold Place.enter
  rw [if_neg (not_or.mpr ⟨ordinary.1,ordinary.2.1⟩),if_neg ordinary.2.2]

theorem Place.Proper.enter (proper : p.Proper) (separate : '/' ∉ part) : (p.enter part).Proper := by
  by_cases ordinary : Ordinary part
  · rw [enter_ordinary p ordinary]
    exact ⟨List.forall_mem_cons.mpr ⟨ordinary,proper.ordinary⟩,List.forall_mem_cons.mpr ⟨separate,proper.separate⟩,
      proper.rooted⟩
  · unfold Place.enter
    split
    · exact proper
    · rename_i still
      split
      · split
        · rename_i name above names
          exact ⟨fun other inside => proper.ordinary other (names ▸ List.mem_cons_of_mem _ inside),
            fun other inside => proper.separate other (names ▸ List.mem_cons_of_mem _ inside),proper.rooted⟩
        · rename_i names
          split
          · exact proper
          · rename_i floating
            exact ⟨proper.ordinary,proper.separate,fun absolute => absurd absolute floating⟩
      · rename_i up
        exact absurd ⟨(not_or.mp still).1,(not_or.mp still).2,up⟩ ordinary

theorem proper_start (absolute : Bool) : (Place.mk absolute 0 []).Proper := ⟨by simp,by simp,fun _ => rfl⟩

theorem walk_proper (proper : p.Proper) (separate : ∀ part ∈ parts, '/' ∉ part) : (walk p parts).Proper := by
  induction parts generalizing p with
  | nil => exact proper
  | cons part parts ih =>
    obtain ⟨here,later⟩ := List.forall_mem_cons.mp separate
    exact ih (proper.enter here) later

theorem place_proper (path : List Char) : (place path).Proper :=
  walk_proper (proper_start _) fun _ member => not_mem_components member

theorem place_absolute (path : List Char) : (place path).absolute = isAbsolute path := walk_absolute _ _

theorem walk_ordinary (p : Place) (ordinary : ∀ part ∈ parts, Ordinary part) :
    walk p parts = { p with names := parts.reverse ++ p.names } := by
  induction parts generalizing p with
  | nil => rfl
  | cons part parts ih =>
    obtain ⟨here,later⟩ := List.forall_mem_cons.mp ordinary
    have next : walk p (part :: parts) = walk (p.enter part) parts := rfl
    rw [next,ih _ later,enter_ordinary p here]
    simp

theorem walk_ups (ups : Nat) : walk ⟨false,0,[]⟩ (List.replicate ups ['.','.']) = ⟨false,ups,[]⟩ := by
  induction ups with
  | zero => rfl
  | succ ups ih =>
    rw [List.replicate_succ',walk_concat,ih]
    rfl

theorem Place.Proper.parts_separate (proper : p.Proper) : ∀ part ∈ p.parts, '/' ∉ part := by
  intro part member
  unfold Place.parts at member
  rcases List.mem_append.mp member with up | name
  · rw [List.eq_of_mem_replicate up]
    decide
  · exact proper.separate part (List.mem_reverse.mp name)

/-- The components of the text of a place from the root. -/
theorem components_text (proper : p.Proper) (absolute : p.absolute = true) :
    components p.text = [] :: if p.names = [] then [[]] else p.names.reverse := by
  have parts : p.parts = p.names.reverse := by
    unfold Place.parts
    rw [proper.rooted absolute]
    rfl
  have slash : components ('/' :: ['/'].intercalate p.parts) = [] :: components (['/'].intercalate p.parts) :=
    List.splitOn_append_cons_self [] _
  unfold Place.text
  rw [if_pos absolute,slash]
  congr 1
  by_cases none : p.names = []
  · rw [if_pos none,parts,none]
    rfl
  · rw [if_neg none]
    have some : p.parts ≠ [] := by simpa [parts] using none
    unfold components
    rw [List.splitOn_intercalate _ proper.parts_separate some,parts]

theorem Place.Proper.parts_filled (proper : p.Proper) : [] ∉ p.parts := by
  intro member
  unfold Place.parts at member
  rcases List.mem_append.mp member with up | name
  · exact absurd (List.eq_of_mem_replicate up) (by decide)
  · exact (proper.ordinary [] (List.mem_reverse.mp name)).1 rfl

/-- The components of the text of a place that starts nowhere. -/
theorem components_text_floating (proper : p.Proper) (floating : p.absolute = false) (some : p.parts ≠ []) :
    components p.text = p.parts := by
  unfold Place.text
  rw [if_neg (by simp [floating]),if_neg some]
  exact List.splitOn_intercalate _ proper.parts_separate some

theorem isAbsolute_text (proper : p.Proper) : isAbsolute p.text = p.absolute := by
  cases absolute : p.absolute with
  | true =>
    unfold Place.text
    rw [if_pos absolute]
    rfl
  | false =>
    by_cases none : p.parts = []
    · unfold Place.text
      rw [if_neg (by simp [absolute]),if_pos none]
      rfl
    · have components := components_text_floating proper absolute none
      unfold isAbsolute
      rw [decide_eq_false_iff_not]
      intro slash
      obtain ⟨rest,starts⟩ : ∃ rest, p.text = '/' :: rest := by
        cases text : p.text with
        | nil => simp [text] at slash
        | cons c rest => exact ⟨rest,by simp_all⟩
      have first : LexicalPath.components p.text = [] :: LexicalPath.components rest := by
        rw [starts]
        exact List.splitOn_append_cons_self [] rest
      exact proper.parts_filled (components ▸ first ▸ List.mem_cons_self)

/-- A place is where its text leads. -/
theorem place_text (proper : p.Proper) : place p.text = p := by
  unfold place
  rw [isAbsolute_text proper]
  cases absolute : p.absolute with
  | true =>
    rw [components_text proper absolute]
    have whole : (⟨true,0,p.names⟩ : Place) = p := by
      rw [← absolute,← proper.rooted absolute]
    have first (rest : List (List Char)) : walk ⟨true,0,[]⟩ ([] :: rest) = walk ⟨true,0,[]⟩ rest := rfl
    rw [first]
    split
    · rename_i none
      rw [← whole,none]
      rfl
    · rw [walk_ordinary _ fun part member => proper.ordinary part (List.mem_reverse.mp member)]
      simpa using whole
  | false =>
    have whole : (⟨false,p.ups,p.names⟩ : Place) = p := by rw [← absolute]
    by_cases none : p.parts = []
    · obtain ⟨noUps,noNames⟩ := List.append_eq_nil_iff.mp none
      have text : p.text = ['.'] := by
        unfold Place.text
        rw [if_neg (by simp [absolute]),if_pos none]
      have grounded : p.ups = 0 := by simpa using noUps
      rw [text,← whole,List.reverse_eq_nil_iff.mp noNames,grounded]
      rfl
    · rw [components_text_floating proper absolute none]
      unfold Place.parts
      rw [walk_append,walk_ups,walk_ordinary _ fun part member => proper.ordinary part (List.mem_reverse.mp member)]
      simpa using whole

theorem clean_text (proper : p.Proper) : clean p.text = p.text := by
  unfold clean
  rw [place_text proper]

theorem clean_clean (path : List Char) : clean (clean path) = clean path := clean_text (place_proper path)

theorem text_ne_nil (proper : p.Proper) : p.text ≠ [] := by
  intro none
  have absolute := isAbsolute_text proper
  unfold Place.text at none
  split at none
  · simp at none
  · split at none
    · simp at none
    · rename_i floating some
      have components := components_text_floating proper (by simpa using floating) some
      unfold Place.text at components
      rw [if_neg floating,if_neg some,none] at components
      exact proper.parts_filled (components ▸ List.mem_singleton_self [])

/-- A text that another one continues with a slash, or that is the same, is that of a directory above. -/
theorem names_suffix_of_text (proper : p.Proper) (proper' : q.Proper) (absolute : p.absolute = true)
    (below : p.text = q.text ∨ q.text ++ ['/'] <+: p.text) (inner : q.text ≠ ['/']) :
    q.absolute = true ∧ q.names <:+ p.names := by
  rcases below with same | ⟨rest,continued⟩
  · have place : p = q := by rw [← place_text proper,same,place_text proper']
    subst place
    exact ⟨absolute,List.suffix_refl _⟩
  · have absolute' : q.absolute = true := by
      rw [← isAbsolute_text proper']
      have starts : isAbsolute p.text = true := (isAbsolute_text proper).trans absolute
      rw [← continued] at starts
      cases text : q.text with
      | nil =>
        have filled := place_text proper'
        rw [text] at filled
        have dot : q.text = ['.'] := by
          rw [← filled]
          rfl
        simp [text] at dot
      | cons c tail =>
        rw [text] at starts
        simpa [isAbsolute] using starts
    refine ⟨absolute',?_⟩
    have split : components p.text = components q.text ++ components rest := by
      rw [← continued,List.append_assoc]
      exact List.splitOn_append_cons_self q.text rest
    rw [components_text proper absolute,components_text proper' absolute'] at split
    have named : q.names ≠ [] := by
      intro none
      refine inner ?_
      unfold Place.text Place.parts
      rw [if_pos absolute',none,proper'.rooted absolute']
      rfl
    rw [if_neg named,List.cons_append] at split
    have tails := (List.cons.inj split).2
    by_cases none : p.names = []
    · rw [if_pos none] at tails
      have lengths := congrArg List.length tails
      have some := List.length_pos_iff.mpr named
      have more : 0 < (components rest).length := List.length_pos_iff.mpr (List.splitOn_ne_nil _ _)
      simp at lengths
      omega
    · rw [if_neg none] at tails
      rw [← List.reverse_prefix,tails]
      exact List.prefix_append _ _

end LexicalPath
