import Vigile.TextLines

/-! The end of a log file as the worker reads it: with the tail command, or out of a window of its last bytes. -/
namespace Vigile.LogTail

open TextLines

def newline : UInt8 := 10

def asciiSpace (b : UInt8) : Bool := (9 ≤ b && b ≤ 13) || b == 32

def twoSpace (b c : UInt8) : Bool := b == 0xC2 && (c == 0x85 || c == 0xA0)

def threeSpace (b c d : UInt8) : Bool :=
  (b == 0xE1 && c == 0x9A && d == 0x80) ||
    (b == 0xE2 && c == 0x80 && ((0x80 ≤ d && d ≤ 0x8A) || d == 0xA8 || d == 0xA9 || d == 0xAF)) ||
    (b == 0xE2 && c == 0x81 && d == 0x9F) || (b == 0xE3 && c == 0x80 && d == 0x80)

def blank : List UInt8 → Bool
  | [] => true
  | b :: rest =>
    if asciiSpace b then blank rest
    else
      match rest with
      | [] => false
      | c :: rest =>
        if twoSpace b c then blank rest
        else
          match rest with
          | [] => false
          | d :: rest => if threeSpace b c d then blank rest else false

def lineEnd (b : UInt8) : Bool := b == 13 || b == 10

def trimRight (text : List UInt8) : List UInt8 := text.rdropWhile lineEnd

def trimSuffix (l : List UInt8) : List UInt8 := if l.getLast? = some 13 then l.dropLast else l

def split (text : List UInt8) : List (List UInt8) := text.splitOn newline

/-- The loop over the lines. -/
def filtered (raw : List (List UInt8)) : List (List UInt8) := (raw.map trimSuffix).filter fun l => !blank l

def maxTailWindow : Nat := 4 * 1024 * 1024

def tailTruncatedMarker : String := "[truncated: tail window exceeded"

inductive Output where
  | whole (out : List UInt8)
  | truncated (maxWindow : Nat) (out : List UInt8)

def Output.bytes : Output → List UInt8
  | .whole out => out
  | .truncated maxWindow out =>
    (tailTruncatedMarker ++ " " ++ toString maxWindow ++ " bytes]\n").toUTF8.data.toList ++ out

def windowOffset (content : List UInt8) (maxWindow : Nat) : Nat :=
  content.length - min content.length (if maxWindow = 0 then maxTailWindow else maxWindow)

def window (content : List UInt8) (maxWindow : Nat) : List UInt8 := content.drop (windowOffset content maxWindow)

def windowLines (content : List UInt8) (maxWindow : Nat) : List (List UInt8) :=
  let raw := split (trimRight (window content maxWindow))
  if 0 < windowOffset content maxWindow ∧ 1 < raw.length then raw.tail else raw

/-- The fallback in pure Go. -/
def readWindow (content : List UInt8) (lines maxWindow : Nat) : Output :=
  let raw := windowLines content maxWindow
  let kept := filtered (if lines < raw.length then raw.drop (raw.length - lines) else raw)
  if 0 < windowOffset content maxWindow ∧ kept.length < lines then .truncated maxWindow (join newline kept)
  else .whole (join newline kept)

/-- `tailFile` of a file with this content; there is no output of the tail command where it fails. -/
def tailFile (command : Option (List UInt8)) (content : List UInt8) (lines maxWindow : Nat) : Output :=
  match if content.length ≤ maxWindow then command else none with
  | some out => .whole (join newline (filtered (split (trimRight out))))
  | none => readWindow content lines maxWindow

/-! What it is for -/

/-- What `tail -n` prints: the last lines as they are. -/
def tailCommand (content : List UInt8) (lines : Nat) : List UInt8 :=
  join newline ((linesOf newline content).rtake lines) ++ if content.getLast? = some newline then [newline] else []

/-- The last lines, without the return at their end, and without those that are blank. -/
def reference (content : List UInt8) (lines : Nat) : List UInt8 :=
  join newline (filtered ((linesOf newline content).rtake lines))

def Faithful (reference : List UInt8) : Output → Prop
  | .whole out => out = reference
  | .truncated _ out => out <:+ reference

instance (reference : List UInt8) : (output : Output) → Decidable (Faithful reference output)
  | .whole _ => inferInstanceAs (Decidable (_ = _))
  | .truncated _ _ => inferInstanceAs (Decidable (_ <:+ _))

/-- The lines up to the last one that is more than returns. -/
def filledLines (content : List UInt8) : List (List UInt8) := (linesOf newline content).rdropWhile (hollow lineEnd)

def emptyLines (content : List UInt8) : Nat := (linesOf newline content).length - (filledLines content).length

/-- At most one return ends the line, or it is blank. -/
def Plain (line : List UInt8) : Prop := blank line = true ∨ ¬[13,13] <:+ line

instance (line : List UInt8) : Decidable (Plain line) := inferInstanceAs (Decidable (_ ∨ _))

def lastFilled (lines : List (List UInt8)) : List UInt8 := (lines.rdropWhile (hollow lineEnd)).getLastD []

/-- Of the lines that are taken, those that are not among the last ones of the file are blank. -/
def Fits (content : List UInt8) (lines taken : Nat) : Prop :=
  (∀ line ∈ ((filledLines content).rtake taken).rdrop (lines - emptyLines content), blank line = true) ∧
    (lines ≤ emptyLines content ∨ Plain (lastFilled (linesOf newline content)))

instance (content : List UInt8) (lines taken : Nat) : Decidable (Fits content lines taken) :=
  inferInstanceAs (Decidable ((∀ line ∈ ((filledLines content).rtake taken).rdrop (lines - emptyLines content), _) ∧ _))

/-- No newline is in the window: what is there is blank, or the end of a line that is among the last ones,
and all of it if it is the only one. -/
def PieceFits (content piece : List UInt8) (lines : Nat) : Prop :=
  let line := lastFilled (linesOf newline content)
  blank piece = true ∨
    (emptyLines content < lines ∧ blank line = false ∧ Plain line ∧ (lines = 1 → piece = trimRight line)) ∨
    (blank line = true ∧ piece <:+ reference content lines)

def Regular (commandWorks : Bool) (content : List UInt8) (lines maxWindow : Nat) : Prop :=
  let piece := trimRight (window content maxWindow)
  if content.length ≤ maxWindow then
    if commandWorks then Plain (lastFilled ((linesOf newline content).rtake lines)) else Fits content lines lines
  else if 1 < (split piece).length then Fits content lines (min lines ((split piece).length - 1))
  else PieceFits content piece lines

variable {l line : List UInt8} {content : List UInt8} {lines maxWindow : Nat}

variable {c b : UInt8} {ls : List (List UInt8)}

theorem blank_space (space : asciiSpace c = true) (rest : List UInt8) : blank (c :: rest) = blank rest := by
  rw [blank.eq_def]
  exact if_pos space

theorem blank_two {d : UInt8} (other : ¬asciiSpace c = true) (two : twoSpace c d = true) (rest : List UInt8) :
    blank (c :: d :: rest) = blank rest := by
  rw [blank.eq_def]
  exact (if_neg other).trans (if_pos two)

theorem blank_concat (l : List UInt8) (ends : lineEnd b = true) : blank (l ++ [b]) = blank l := by
  have either : b = 13 ∨ b = 10 := by simpa [lineEnd] using ends
  fun_induction blank l with
  | case1 => rcases either with rfl | rfl <;> rfl
  | case2 c rest space ih => rw [List.cons_append,blank_space space,ih]
  | case3 c other => rcases either with rfl | rfl <;> simp [blank,other,twoSpace]
  | case4 c other d rest two ih => rw [List.cons_append,List.cons_append,blank_two other two,ih]
  | case5 c other d two => rcases either with rfl | rfl <;> simp [blank,other,two,threeSpace]
  | case6 c other d two e rest three ih => simp [blank,other,two,three,ih]
  | case7 c other d two e rest three => simp [blank,other,two,three]

@[simp] theorem blank_trimRight (l : List UInt8) : blank (trimRight l) = blank l := by
  unfold trimRight
  induction l using List.reverseRecOn with
  | nil => rfl
  | append_singleton l b ih =>
    by_cases ends : lineEnd b = true
    · rw [List.rdropWhile_concat_pos _ _ _ ends,ih,blank_concat l ends]
    · rw [List.rdropWhile_concat_neg _ _ _ ends]

theorem trimSuffix_cases (l : List UInt8) : (∃ rest, l = rest ++ [13] ∧ trimSuffix l = rest) ∨
    (l.getLast? ≠ some 13 ∧ trimSuffix l = l) := by
  unfold trimSuffix
  split
  · rename_i last
    exact .inl ⟨l.dropLast,(List.dropLast_append_getLast? _ last).symm,rfl⟩
  · rename_i other
    exact .inr ⟨other,rfl⟩

@[simp] theorem blank_trimSuffix (l : List UInt8) : blank (trimSuffix l) = blank l := by
  rcases trimSuffix_cases l with ⟨rest,rfl,same⟩ | ⟨_,same⟩
  · rw [same,blank_concat rest rfl]
  · rw [same]

theorem blank_of_hollow (none : hollow lineEnd l = true) : blank l = true := by
  rw [← blank_trimRight]
  unfold trimRight
  rw [hollow_iff.mp none]
  rfl

theorem trimRight_last (l : List UInt8) (last : (trimRight l).getLast? = some b) : lineEnd b = false := by
  have filled : trimRight l ≠ [] := by
    rintro empty
    rw [empty] at last
    contradiction
  have stopped := List.rdropWhile_last_not lineEnd l filled
  rw [List.getLast?_eq_some_getLast filled] at last
  rw [← Option.some.inj last]
  exact Bool.eq_false_iff.mpr stopped

theorem trimSuffix_trimRight (l : List UInt8) : trimSuffix (trimRight l) = trimRight l := by
  rcases trimSuffix_cases (trimRight l) with ⟨rest,cut,_⟩ | ⟨_,same⟩
  · have last := trimRight_last l (b := 13) (by rw [cut]; simp)
    contradiction
  · exact same

/-- Where at most one return ends a line, both cut the same. -/
theorem trimRight_single (single : newline ∉ l) (once : ¬[13,13] <:+ l) : trimRight l = trimSuffix l := by
  unfold trimRight
  have other {rest : List UInt8} {b : UInt8} (cut : l = rest ++ [b]) (plain : b ≠ 13) : ¬lineEnd b = true := by
    intro ends
    rcases (by simpa [lineEnd] using ends : b = 13 ∨ b = 10) with rfl | rfl
    · exact plain rfl
    · exact single (by rw [cut]; simp [newline])
  rcases trimSuffix_cases l with ⟨rest,rfl,same⟩ | ⟨last,same⟩
  · rw [same,List.rdropWhile_concat_pos _ _ _ rfl,List.rdropWhile_eq_self_iff]
    intro filled ends
    rcases (by simpa [lineEnd] using ends : rest.getLast filled = 13 ∨ rest.getLast filled = 10) with ret | nl
    · refine once ⟨rest.dropLast,?_⟩
      rw [← List.dropLast_append_getLast filled,ret]
      simp
    · have among := List.getLast_mem filled
      rw [nl] at among
      exact single (List.mem_append_left _ among)
  · rw [same,List.rdropWhile_eq_self_iff]
    intro filled
    refine other (List.dropLast_append_getLast filled).symm fun ret => last ?_
    rw [List.getLast?_eq_some_getLast filled,ret]

/-- Where more returns end it, one cut leaves a return. -/
theorem trimSuffix_double (twice : [13,13] <:+ l) : (trimSuffix l).getLast? = some 13 := by
  obtain ⟨rest,rfl⟩ := twice
  unfold trimSuffix
  rw [if_pos (by simp),← List.singleton_append,← List.append_assoc,List.dropLast_concat]
  simp

theorem filled_of_visible (visible : blank l = false) : trimRight l ≠ [] := by
  intro empty
  rw [← blank_trimRight,empty] at visible
  contradiction

theorem filtered_append (xs ys : List (List UInt8)) : filtered (xs ++ ys) = filtered xs ++ filtered ys := by
  unfold filtered
  rw [List.map_append,List.filter_append]

@[simp] theorem filtered_nil : filtered [] = [] := by
  rfl

theorem filtered_nil_iff : filtered ls = [] ↔ ∀ l ∈ ls, blank l = true := by
  unfold filtered
  rw [List.filter_eq_nil_iff]
  simp

theorem filtered_visible (visible : blank l = false) : filtered [l] = [trimSuffix l] := by
  simp [filtered,visible]

theorem filtered_blank (none : blank l = true) : filtered [l] = [] := by
  simp [filtered,none]

theorem filtered_filled (ls : List (List UInt8)) : [] ∉ filtered ls := by
  intro member
  have visible := (List.mem_filter.mp member).2
  contradiction

theorem separate_filtered (separate : Separate newline ls) :
    Separate newline (filtered ls) := by
  intro l member
  obtain ⟨whole,among,rfl⟩ := List.mem_map.mp (List.mem_filter.mp member).1
  rcases trimSuffix_cases whole with ⟨rest,rfl,same⟩ | ⟨_,same⟩
  · rw [same]
    exact fun nl => separate _ among (List.mem_append_left _ nl)
  · rw [same]
    exact separate _ among

theorem length_tips (l : List UInt8) : (filtered [trimRight l]).length = (filtered [l]).length := by
  cases visible : blank l with
  | true => rw [filtered_blank visible,filtered_blank (by simpa using visible)]
  | false =>
    rw [filtered_visible visible,filtered_visible (by simpa using visible)]
    rfl

theorem tips_eq (single : newline ∉ l) (plain : Plain l) : filtered [trimRight l] = filtered [l] := by
  cases visible : blank l with
  | true => rw [filtered_blank visible,filtered_blank (by simpa using visible)]
  | false =>
    have once := plain.resolve_left (by simp [visible])
    rw [filtered_visible visible,filtered_visible (by simpa using visible),trimSuffix_trimRight,
      trimRight_single single once]

theorem getLast?_join (ls : List (List UInt8)) {l : List UInt8} (filled : l ≠ []) :
    (join newline (ls ++ [l])).getLast? = l.getLast? := by
  by_cases only : ls = []
  · rw [only,List.nil_append,join_singleton]
  · rw [join_append only (by simp),join_singleton,← List.singleton_append,← List.append_assoc,
      List.getLast?_append_of_ne_nil _ filled]

theorem getLast?_suffix {first second : List UInt8} (suffix : first <:+ second) (filled : first ≠ []) :
    second.getLast? = first.getLast? := by
  obtain ⟨before,rfl⟩ := suffix
  exact List.getLast?_append_of_ne_nil _ filled

/-- A text whose last line is trimmed ends one whose last line is cut only if that line is plain. -/
theorem plain_of_suffix {xs ys : List (List UInt8)}
    (suffix : join newline (xs ++ filtered [trimRight l]) <:+ join newline (ys ++ filtered [l])) : Plain l := by
  by_contra rough
  obtain ⟨visible,twice⟩ := not_or.mp rough
  have visible := Bool.eq_false_iff.mpr visible
  have twice := not_not.mp twice
  rw [filtered_visible visible,filtered_visible (by simpa using visible),trimSuffix_trimRight] at suffix
  have cut := trimSuffix_double twice
  have filled := filled_of_visible visible
  have cut_filled : trimSuffix l ≠ [] := fun empty => by simp [empty] at cut
  have last := getLast?_suffix suffix fun empty => by
    have same := getLast?_join xs filled
    rw [empty] at same
    exact filled (List.getLast?_eq_none_iff.mp same.symm)
  rw [getLast?_join _ filled,getLast?_join _ cut_filled,cut] at last
  exact absurd (trimRight_last l last.symm) (by decide)

section
variable {front : List (List UInt8)} {m n : Nat}

/-- Lines taken with the last one trimmed are the last lines of the file, if those that are more are blank and
the last one is plain. -/
theorem taken_same (single : newline ∉ l) (positive : 1 ≤ m) (less : n ≤ m)
    (blanks : ∀ line ∈ ((front ++ [l]).rtake m).rdrop n, blank line = true) (plain : n = 0 ∨ Plain l) :
    filtered (front.rtake (m - 1) ++ [trimRight l]) = filtered ((front ++ [l]).rtake n) := by
  cases n with
  | zero =>
    rw [List.rdrop_zero,rtake_concat front l positive] at blanks
    rw [List.rtake_zero,filtered_nil,filtered_nil_iff]
    intro line member
    rcases List.mem_append.mp member with member | member
    · exact blanks line (List.mem_append_left _ member)
    · rw [List.mem_singleton.mp member,blank_trimRight]
      exact blanks l (by simp)
  | succ n =>
    rw [rtake_concat front l positive,List.rdrop_concat_succ] at blanks
    rw [List.rtake_concat_succ,← rdrop_append_rtake front (Nat.le_sub_one_of_lt less),filtered_append,filtered_append,
      filtered_append,filtered_nil_iff.mpr blanks,tips_eq single (plain.resolve_left (by simp)),List.nil_append]

theorem taken_suffix (separate : Separate newline (front ++ [l])) (positive : 1 ≤ m) :
    join newline (filtered (front.rtake (m - 1) ++ [trimRight l])) <:+
        join newline (filtered ((front ++ [l]).rtake n)) ↔
      (∀ line ∈ ((front ++ [l]).rtake m).rdrop n, blank line = true) ∧ (n = 0 ∨ Plain l) := by
  have single : newline ∉ l := separate l (by simp)
  have taken (k : Nat) : Separate newline (front.rtake k) := fun line member =>
    separate line (List.mem_append_left _ (List.mem_of_mem_drop member))
  have trimmed : Separate newline [trimRight l] := fun line member => by
    rw [List.mem_singleton.mp member]
    exact fun among => single ((List.rdropWhile_prefix lineEnd l).subset among)
  have left : Separate newline (front.rtake (m - 1) ++ [trimRight l]) := fun line member =>
    (List.mem_append.mp member).elim (taken _ line) (trimmed line)
  constructor
  · intro suffix
    cases n with
    | zero =>
      rw [List.rtake_zero,filtered_nil,join_nil,List.suffix_nil] at suffix
      have none := nil_of_join (separate_filtered left) (filtered_filled _) suffix
      rw [filtered_nil_iff] at none
      rw [rtake_concat front l positive,List.rdrop_zero]
      refine ⟨fun line member => ?_,.inl rfl⟩
      rcases List.mem_append.mp member with member | member
      · exact none line (List.mem_append_left _ member)
      · rw [List.mem_singleton.mp member,← blank_trimRight]
        exact none _ (by simp)
    | succ n =>
      have right : Separate newline (front.rtake n ++ [l]) := fun line member =>
        (List.mem_append.mp member).elim (taken _ line) fun last => List.mem_singleton.mp last ▸ single
      rw [List.rtake_concat_succ] at suffix
      have lengths := length_le_of_suffix (separate_filtered left) (separate_filtered right) (filtered_filled _) suffix
      rw [filtered_append,filtered_append] at suffix
      refine ⟨?_,.inr (plain_of_suffix suffix)⟩
      rw [rtake_concat front l positive,List.rdrop_concat_succ]
      by_cases less : n ≤ m - 1
      · rw [← rdrop_append_rtake front less,List.append_assoc,filtered_append,filtered_append,filtered_append] at lengths
        simp only [List.length_append,length_tips] at lengths
        exact filtered_nil_iff.mp (List.length_eq_zero_iff.mp (by omega))
      · have none : (front.rtake (m - 1)).rdrop n = [] := by
          unfold List.rdrop List.rtake
          rw [List.length_drop]
          simp
          omega
        rw [none]
        simp
  · rintro ⟨blanks,plain⟩
    by_cases less : n ≤ m
    · exact ⟨[],congrArg (join newline) (taken_same single positive less blanks plain)⟩
    · obtain ⟨k,rfl⟩ := Nat.exists_eq_add_of_le' (show 1 ≤ n by omega)
      rw [List.rtake_concat_succ,filtered_append,filtered_append,tips_eq single (plain.resolve_left (by simp)),
        ← rdrop_append_rtake front (show m - 1 ≤ k by omega),filtered_append,List.append_assoc]
      exact suffix_join _ _

/-- The same for all of the text instead of its end. -/
theorem taken_eq (separate : Separate newline (front ++ [l])) (positive : 1 ≤ m) (less : n ≤ m) :
    join newline (filtered (front.rtake (m - 1) ++ [trimRight l])) = join newline (filtered ((front ++ [l]).rtake n)) ↔
      (∀ line ∈ ((front ++ [l]).rtake m).rdrop n, blank line = true) ∧ (n = 0 ∨ Plain l) := by
  constructor
  · intro same
    exact (taken_suffix separate positive).mp (same ▸ List.suffix_refl _)
  · rintro ⟨blanks,plain⟩
    rw [taken_same (separate l (by simp)) positive less blanks plain]

end

theorem separate_filledLines (content : List UInt8) : Separate newline (filledLines content) :=
  (separate_linesOf content).rdropWhile _

theorem filled_append (ls : List (List UInt8)) :
    ls.rdropWhile (hollow lineEnd) ++ ls.rtakeWhile (hollow lineEnd) = ls := List.rdropWhile_append_rtakeWhile

theorem trim_concat (ls : List (List UInt8)) (l : List UInt8) : trimLast lineEnd (ls ++ [l]) = ls ++ [trimRight l] :=
  trimLast_concat ls l

theorem filtered_filledLines (ls : List (List UInt8)) : filtered (ls.rdropWhile (hollow lineEnd)) = filtered ls := by
  have none : filtered (ls.rtakeWhile (hollow lineEnd)) = [] :=
    filtered_nil_iff.mpr fun l member => blank_of_hollow (List.mem_rtakeWhile_imp member)
  have whole := congrArg filtered (filled_append ls)
  rwa [filtered_append,none,List.append_nil] at whole

/-- The lines behind the last filled one add nothing but take the place of others. -/
theorem reference_eq (content : List UInt8) (lines : Nat) :
    reference content lines = join newline (filtered ((filledLines content).rtake (lines - emptyLines content))) := by
  have whole := filled_append (linesOf newline content)
  have behind : ((linesOf newline content).rtakeWhile (hollow lineEnd)).length = emptyLines content := by
    unfold emptyLines filledLines
    have lengths := congrArg List.length whole
    rw [List.length_append] at lengths
    omega
  have none : filtered (((linesOf newline content).rtakeWhile (hollow lineEnd)).rtake lines) = [] :=
    filtered_nil_iff.mpr fun l member => blank_of_hollow (List.mem_rtakeWhile_imp (List.mem_of_mem_drop member))
  unfold reference
  conv_lhs => rw [← whole,rtake_append,filtered_append,none,List.append_nil,behind]
  rfl

theorem trimRight_tailCommand (content : List UInt8) (lines : Nat) :
    trimRight (tailCommand content lines) = trimRight (join newline ((linesOf newline content).rtake lines)) := by
  unfold trimRight tailCommand
  split
  · exact rdropWhile_append_all (by simp [lineEnd,newline])
  · rw [List.append_nil]

theorem command_iff (content : List UInt8) (lines : Nat) :
    join newline (filtered (split (trimRight (tailCommand content lines)))) = reference content lines ↔
      Plain (lastFilled ((linesOf newline content).rtake lines)) := by
  have separate : Separate newline ((linesOf newline content).rtake lines) := fun l member =>
    separate_linesOf content l (List.mem_of_mem_drop member)
  have cut : split (trimRight (tailCommand content lines)) =
      trimLast lineEnd (((linesOf newline content).rtake lines).rdropWhile (hollow lineEnd)) := by
    rw [trimRight_tailCommand]
    exact split_trim rfl separate
  rw [cut]
  unfold reference lastFilled
  rw [← filtered_filledLines ((linesOf newline content).rtake lines)]
  have kept := separate.rdropWhile (hollow lineEnd)
  generalize ((linesOf newline content).rtake lines).rdropWhile (hollow lineEnd) = ls at kept
  cases ls using List.reverseRecOn with
  | nil => exact iff_of_true rfl (.inl rfl)
  | append_singleton front l _ =>
    rw [trim_concat,filtered_append,filtered_append,List.getLastD_concat]
    constructor
    · intro same
      exact plain_of_suffix ⟨[],same⟩
    · intro plain
      exact congrArg (fun tip => join newline (filtered front ++ tip)) (tips_eq (kept l (by simp)) plain)

theorem split_content (content : List UInt8) :
    split (trimRight content) = trimLast lineEnd (filledLines content) := by
  have cut : split (trimRight (join newline (content.splitOn newline))) = _ := split_trim rfl (separate_split content)
  rw [join_split] at cut
  unfold filledLines
  rw [rdropWhile_linesOf]
  exact cut

theorem kept_eq (raw : List (List UInt8)) (lines : Nat) :
    (if lines < raw.length then raw.drop (raw.length - lines) else raw) = raw.rtake lines := by
  split
  · rfl
  · rename_i few
    rw [rtake_all (not_lt.mp few)]

/-- The whole file in the window. -/
theorem whole_iff (content : List UInt8) {lines : Nat} (positive : 1 ≤ lines) :
    join newline (filtered ((split (trimRight content)).rtake lines)) = reference content lines ↔
      Fits content lines lines := by
  rw [split_content,reference_eq]
  unfold Fits
  change _ ↔ _ ∧ (_ ∨ Plain ((filledLines content).getLastD []))
  have separate := separate_filledLines content
  generalize filledLines content = ls at separate
  cases ls using List.reverseRecOn with
  | nil =>
    refine iff_of_true ?_ ⟨by simp [List.rtake,List.rdrop],.inr (.inl rfl)⟩
    rw [rtake_all (by simpa [trimLast] using positive)]
    simp [List.rtake,trimLast]
    rfl
  | append_singleton front l _ =>
    rw [trim_concat,rtake_concat front _ positive,List.getLastD_concat,
      taken_eq separate positive (Nat.sub_le _ _),Nat.sub_eq_zero_iff_le]

theorem filledLines_split (content : List UInt8) :
    filledLines content = (split content).rdropWhile (hollow lineEnd) := rdropWhile_linesOf content

/-- What is in a window: some of the last lines and the end of one before them, or nothing but line ends,
or the end of the last line. -/
theorem window_cases (first second : List UInt8) :
    (∃ before begun front l, filledLines (first ++ second) = before ++ front ++ [l] ∧
      split (trimRight second) = begun :: (front ++ [trimRight l])) ∨
    (trimRight second = [] ∧ split (trimRight second) = [[]]) ∨
    (∃ front l start, filledLines (first ++ second) = front ++ [l] ∧ trimRight l = start ++ trimRight second ∧
      split (trimRight second) = [trimRight second]) := by
  obtain ⟨before,start,begun,rest,cut,whole⟩ := split_append newline first second
  have content : filledLines (first ++ second) = _ := filledLines_split (first ++ second)
  have window := split_content second
  rw [filledLines_split] at window
  change split second = _ at cut
  change split (first ++ second) = _ at whole
  rw [whole] at content
  rw [cut] at window
  by_cases behind : rest.rdropWhile (hollow lineEnd) = []
  · have none := List.rdropWhile_eq_nil_iff.mp behind
    have alone : (begun :: rest).rdropWhile (hollow lineEnd) = [begun].rdropWhile (hollow lineEnd) := by
      rw [← List.singleton_append,rdropWhile_append_all none]
    have last : (before ++ (start ++ begun) :: rest).rdropWhile (hollow lineEnd) =
        (before ++ [start ++ begun]).rdropWhile (hollow lineEnd) := by
      rw [← List.singleton_append,← List.append_assoc,rdropWhile_append_all none]
    rw [alone,List.rdropWhile_singleton] at window
    rw [last] at content
    right
    by_cases empty : hollow lineEnd begun = true
    · left
      rw [if_pos empty] at window
      have piece : trimRight second = [] := by
        rw [← join_split newline (trimRight second)]
        exact congrArg (join newline) window
      exact ⟨piece,window⟩
    · right
      have kept : begun.rdropWhile lineEnd ≠ [] := fun none => empty (hollow_iff.mpr none)
      have extended : (start ++ begun).rdropWhile lineEnd = start ++ begun.rdropWhile lineEnd :=
        rdropWhile_append_some kept
      have filled : ¬hollow lineEnd (start ++ begun) = true := fun none => by
        rw [hollow_iff,extended] at none
        exact kept (List.append_eq_nil_iff.mp none).2
      rw [if_neg empty] at window
      rw [List.rdropWhile_concat_neg _ _ _ filled] at content
      have piece : trimRight second = begun.rdropWhile lineEnd := by
        rw [← join_split newline (trimRight second)]
        exact (congrArg (join newline) window).trans (join_singleton _)
      exact ⟨before,start ++ begun,start,content,piece ▸ extended,piece ▸ window⟩
  · left
    obtain ⟨front,l,lines⟩ := List.eq_nil_or_concat' (rest.rdropWhile (hollow lineEnd)) |>.resolve_left behind
    refine ⟨before ++ [start ++ begun],begun,front,l,?_,?_⟩
    · rw [content,← List.singleton_append,← List.append_assoc,rdropWhile_append_some behind,lines,List.append_assoc]
      simp
    · rw [window,← List.singleton_append,rdropWhile_append_some behind,lines,← List.append_assoc,trim_concat]
      simp

theorem length_filtered (ls : List (List UInt8)) : (filtered ls).length ≤ ls.length :=
  (List.length_filter_le _ _).trans (List.length_map _).le

variable {front : List (List UInt8)} {piece start : List UInt8}

/-- Lines behind the first newline of the window. -/
theorem many_iff {before : List (List UInt8)} (separate : Separate newline (before ++ front ++ [l]))
    (filled : filledLines content = before ++ front ++ [l]) (positive : 1 ≤ lines) (maxWindow : Nat) :
    Faithful (reference content lines)
        (if (filtered ((front ++ [trimRight l]).rtake lines)).length < lines then
          .truncated maxWindow (join newline (filtered ((front ++ [trimRight l]).rtake lines)))
        else .whole (join newline (filtered ((front ++ [trimRight l]).rtake lines)))) ↔
      Fits content lines (min lines (front.length + 1)) := by
  have taken : (front ++ [trimRight l]).rtake lines =
      (before ++ front).rtake (min lines (front.length + 1) - 1) ++ [trimRight l] := by
    rw [rtake_concat _ _ positive,rtake_append]
    have none : before.rtake (min lines (front.length + 1) - 1 - front.length) = [] := by
      rw [show min lines (front.length + 1) - 1 - front.length = 0 by omega,List.rtake_zero]
    have same : front.rtake (min lines (front.length + 1) - 1) = front.rtake (lines - 1) := by
      unfold List.rtake
      congr 1
      omega
    rw [none,same,List.nil_append]
  have fits : Fits content lines (min lines (front.length + 1)) ↔
      (∀ line ∈ ((before ++ front ++ [l]).rtake (min lines (front.length + 1))).rdrop (lines - emptyLines content),
        blank line = true) ∧ (lines - emptyLines content = 0 ∨ Plain l) := by
    unfold Fits
    change _ ∧ (_ ∨ Plain ((filledLines content).getLastD [])) ↔ _
    rw [filled,List.getLastD_concat,Nat.sub_eq_zero_iff_le]
  rw [reference_eq,filled,fits]
  split
  · rw [taken]
    exact taken_suffix separate (by omega)
  · rename_i enough
    have short : (filtered ((front ++ [trimRight l]).rtake lines)).length ≤ front.length + 1 := by
      refine (length_filtered _).trans ?_
      unfold List.rtake
      rw [List.length_drop,List.length_append,List.length_singleton]
      omega
    rw [taken]
    exact taken_eq separate (by omega) (by omega)

theorem reference_some (filled : filledLines content = front ++ [l])
    (some : emptyLines content < lines) : reference content lines =
      join newline (filtered (front.rtake (lines - emptyLines content - 1)) ++ filtered [l]) := by
  rw [reference_eq,filled,rtake_concat _ _ (by omega),filtered_append]

theorem reference_none (none : lines ≤ emptyLines content) : reference content lines = [] := by
  rw [reference_eq,Nat.sub_eq_zero_of_le none,List.rtake_zero]
  rfl

/-- The end of the last line ends the reference exactly if that line is among those that are asked for and plain. -/
theorem piece_suffix (single : newline ∉ l)
    (filled : filledLines content = front ++ [l]) (trimmed : trimRight l = start ++ piece) (nonempty : piece ≠ [])
    (visible : blank l = false) : piece <:+ reference content lines ↔ emptyLines content < lines ∧ Plain l := by
  by_cases some : emptyLines content < lines
  · rw [reference_some filled some,filtered_visible visible]
    have kept : trimSuffix l ≠ [] := by
      intro empty
      rw [← blank_trimSuffix,empty] at visible
      contradiction
    constructor
    · intro suffix
      refine ⟨some,or_iff_not_imp_left.mpr fun _ twice => ?_⟩
      have last := getLast?_suffix suffix nonempty
      rw [getLast?_join _ kept,trimSuffix_double twice,← getLast?_suffix ⟨start,trimmed.symm⟩ nonempty] at last
      exact absurd (trimRight_last l last.symm) (by decide)
    · rintro ⟨_,plain⟩
      rw [← trimRight_single single (plain.resolve_left (by simp [visible])),trimmed]
      have tip : join newline [start ++ piece] <:+ _ := suffix_join (filtered (front.rtake (lines - emptyLines content - 1))) _
      rw [join_singleton] at tip
      exact (List.suffix_append start piece).trans tip
  · rw [reference_none (not_lt.mp some),List.suffix_nil]
    exact iff_of_false nonempty fun told => some told.1

theorem reference_one (filled : filledLines content = front ++ [l])
    (some : emptyLines content < 1) : reference content 1 = join newline (filtered [l]) := by
  rw [reference_some filled some]
  have none : 1 - emptyLines content - 1 = 0 := by omega
  rw [none,List.rtake_zero]
  rfl

/-- The end of the last line alone. -/
theorem piece_iff (single : newline ∉ l)
    (filled : filledLines content = front ++ [l]) (trimmed : trimRight l = start ++ piece)
    (cut : trimSuffix piece = piece) (positive : 1 ≤ lines) (maxWindow : Nat) :
    Faithful (reference content lines)
        (if (filtered [piece]).length < lines then .truncated maxWindow (join newline (filtered [piece]))
        else .whole (join newline (filtered [piece]))) ↔ PieceFits content piece lines := by
  have last : lastFilled (linesOf newline content) = l := by
    change (filledLines content).getLastD [] = l
    rw [filled,List.getLastD_concat]
  unfold PieceFits
  rw [last]
  dsimp only
  cases visible : blank piece with
  | true =>
    rw [filtered_blank visible,List.length_nil,if_pos (Nat.pos_of_ne_zero (by omega))]
    exact iff_of_true List.nil_suffix (.inl rfl)
  | false =>
    have nonempty : piece ≠ [] := by
      rintro rfl
      contradiction
    rw [filtered_visible visible,cut,join_singleton,List.length_singleton]
    rw [or_iff_right Bool.false_ne_true]
    rcases Nat.lt_or_ge 1 lines with more | one
    · -- the marker is set
      rw [if_pos more]
      change piece <:+ _ ↔ _
      cases shown : blank l with
      | true => simp
      | false =>
        rw [piece_suffix single filled trimmed nonempty shown]
        simp only [Bool.false_eq_true,false_and,or_false,true_and]
        exact ⟨fun told => ⟨told.1,told.2,fun same => absurd same (by omega)⟩,fun told => ⟨told.1,told.2.1⟩⟩
    · -- one line, which the piece has to be
      obtain rfl : lines = 1 := by omega
      rw [if_neg (by omega)]
      change piece = _ ↔ _
      cases shown : blank l with
      | true =>
        have none : reference content 1 = [] := by
          by_cases some : emptyLines content < 1
          · rw [reference_one filled some,filtered_blank shown]
            rfl
          · exact reference_none (not_lt.mp some)
        rw [none,List.suffix_nil]
        simp [nonempty]
      | false =>
        simp only [Bool.false_eq_true,false_and,or_false,true_and,forall_const]
        have own (some : emptyLines content < 1) (plain : Plain l) : reference content 1 = trimRight l := by
          rw [reference_one filled some,← tips_eq single plain,filtered_visible (by simpa using shown),
            join_singleton,trimSuffix_trimRight]
        constructor
        · intro same
          obtain ⟨some,plain⟩ := (piece_suffix single filled trimmed nonempty shown).mp ⟨[],same⟩
          exact ⟨some,plain,same.trans (own some plain)⟩
        · rintro ⟨some,plain,same⟩
          exact same.trans (own some plain).symm

/-- The output is the reference, or the end of it where it says that it is cut, exactly if no line that is not
asked for and no return more than one comes into it. -/
theorem tailFile_faithful_iff (commandWorks : Bool) (content : List UInt8) (lines maxWindow : Nat)
    (positive : 1 ≤ lines) (opened : 0 < maxWindow) :
    Faithful (reference content lines) (tailFile (if commandWorks then some (tailCommand content lines) else none)
        content lines maxWindow) ↔ Regular commandWorks content lines maxWindow := by
  have size : windowOffset content maxWindow = content.length - maxWindow := by
    unfold windowOffset
    rw [if_neg (by omega)]
    omega
  unfold tailFile Regular
  by_cases fits : content.length ≤ maxWindow
  · have all : windowOffset content maxWindow = 0 := by omega
    have whole : Faithful (reference content lines) (readWindow content lines maxWindow) ↔ Fits content lines lines := by
      unfold readWindow windowLines window
      rw [all]
      simp only [Nat.lt_irrefl,false_and,if_false,List.drop_zero,kept_eq]
      exact whole_iff content positive
    rw [if_pos fits,if_pos fits]
    cases commandWorks with
    | true => exact command_iff content lines
    | false => exact whole
  · have offset : 0 < windowOffset content maxWindow := by omega
    rw [if_neg fits,if_neg fits]
    unfold readWindow
    simp only [kept_eq,offset,true_and]
    have joined : content.take (windowOffset content maxWindow) ++ window content maxWindow = content :=
      List.take_append_drop _ _
    have separate := separate_filledLines content
    rcases window_cases (content.take (windowOffset content maxWindow)) (window content maxWindow) with
      ⟨before,begun,front,l,filled,cut⟩ | ⟨none,cut⟩ | ⟨front,l,start,filled,trimmed,cut⟩
    · rw [joined] at filled
      have raw : windowLines content maxWindow = front ++ [trimRight l] := by
        unfold windowLines
        rw [cut]
        exact if_pos ⟨offset,by simp⟩
      have count : (split (trimRight (window content maxWindow))).length = front.length + 1 + 1 := by
        rw [cut]
        simp
      have many : 1 < front.length + 1 + 1 := by omega
      rw [raw,count,Nat.add_sub_cancel]
      conv_rhs => rw [if_pos many]
      exact many_iff (filled ▸ separate) filled positive maxWindow
    · have raw : windowLines content maxWindow = [[]] := by
        unfold windowLines
        rw [cut]
        exact if_neg (by simp)
      rw [raw,cut,none,rtake_all (by simpa using positive)]
      have empty : filtered [[]] = [] := by
        rfl
      rw [empty,List.length_nil,if_pos (Nat.pos_of_ne_zero (by omega))]
      conv_rhs => rw [if_neg (by simp)]
      exact iff_of_true List.nil_suffix (.inl rfl)
    · rw [joined] at filled
      have raw : windowLines content maxWindow = [trimRight (window content maxWindow)] := by
        unfold windowLines
        rw [cut]
        exact if_neg (by simp)
      rw [raw,cut,rtake_all (by simpa using positive)]
      conv_rhs => rw [if_neg (by simp)]
      exact piece_iff ((filled ▸ separate : Separate newline (front ++ [l])) l (by simp)) filled trimmed
        (trimSuffix_trimRight _) positive maxWindow

/-- The window holds the last line, and the newline before it. -/
theorem tailFile_faithful_window : Regular true [97,10,98,10] 1 3 ∧
    Faithful (reference [97,10,98,10] 1) (tailFile (some (tailCommand [97,10,98,10] 1)) [97,10,98,10] 1 3) := by
  have regular : Regular true [97,10,98,10] 1 3 := by
    have fits : Fits [97,10,98,10] 1 1 := by decide
    exact fits
  exact ⟨regular,(tailFile_faithful_iff true _ 1 3 (by decide) (by decide)).mpr regular⟩

/-- Where the command fails, the empty lines at the end of a file make room for a line that is not asked for. -/
theorem emptyLines_unfaithful : ¬Faithful (reference [97,10,10,10] 1) (tailFile none [97,10,10,10] 1 8) := by
  decide

end Vigile.LogTail
