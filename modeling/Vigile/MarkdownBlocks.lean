import Mathlib.Data.List.TakeWhile

/-! The block loop of `MarkdownContent`: code, quotes, headings, lists and paragraphs, line by line. -/
namespace Vigile.MarkdownBlocks

/-- A JavaScript string, by its code units. -/
abbrev Text : Type := List UInt16

/-- The code units of a text of ASCII characters. -/
def ascii (text : String) : Text := text.toList.map fun c => UInt16.ofNat c.toNat

def hash : UInt16 := 35

def newline : UInt16 := 10

/-- What `\s` matches and `trim` removes. -/
def isSpace (unit : UInt16) : Bool :=
  (9 ≤ unit && unit ≤ 13) || unit == 32 || unit == 160 || unit == 0x1680 || (0x2000 ≤ unit && unit ≤ 0x200A) ||
    unit == 0x2028 || unit == 0x2029 || unit == 0x202F || unit == 0x205F || unit == 0x3000 || unit == 0xFEFF

/-- What `.` does not match. -/
def isTerminator (unit : UInt16) : Bool := unit == 10 || unit == 13 || unit == 0x2028 || unit == 0x2029

def isDigit (unit : UInt16) : Bool := 48 ≤ unit && unit ≤ 57

def trim (line : Text) : Text := ((line.dropWhile isSpace).reverse.dropWhile isSpace).reverse

def splitLines : Text → List Text
  | [] => [[]]
  | unit :: rest =>
    if unit = newline then [] :: splitLines rest
    else
      match splitLines rest with
      | [] => [[unit]]
      | line :: lines => (unit :: line) :: lines

def isFence (line : Text) : Bool := (ascii "```").isPrefixOf (trim line)

def isQuote (line : Text) : Bool := (ascii ">").isPrefixOf (trim line)

def afterHashes (line : Text) : Option Text :=
  let hashes := line.takeWhile (· = hash)
  if 1 ≤ hashes.length ∧ hashes.length ≤ 4 then some (line.dropWhile (· = hash)) else none

/-- `^#{1,4}\s+`: after a fifth hash no space follows four of them. -/
def headingLike (line : Text) : Bool :=
  match afterHashes line with
  | some (unit :: _) => isSpace unit
  | _ => false

/-- `^(#{1,4})\s+(.+)$`: the level and the text, for which `\s+` gives back as many spaces as it takes. -/
def headingMatch (line : Text) : Option (Nat × Text) :=
  (afterHashes line).bind fun after =>
    let spaces := after.takeWhile isSpace
    let tails := (List.range spaces.length).reverse.map fun i => after.drop (i + 1)
    let found := tails.find? fun text => text ≠ [] && text.all (!isTerminator ·)
    found.map fun text => ((line.takeWhile (· = hash)).length,text)

/-- `^\d+\.\s+`, and what follows it. -/
def orderedItem (line : Text) : Option Text :=
  if line.takeWhile isDigit = [] then none
  else
    match line.dropWhile isDigit with
    | 46 :: unit :: rest => if isSpace unit then some ((unit :: rest).dropWhile isSpace) else none
    | _ => none

/-- `^[-*]\s+`, and what follows it. -/
def unorderedItem : Text → Option Text
  | mark :: unit :: rest =>
    if (mark == 45 || mark == 42) && isSpace unit then some ((unit :: rest).dropWhile isSpace) else none
  | _ => none

def isOrdered (line : Text) : Bool := (orderedItem (trim line)).isSome

def isUnordered (line : Text) : Bool := (unorderedItem (trim line)).isSome

def isBlank (line : Text) : Bool := (trim line).isEmpty

def continues (line : Text) : Bool :=
  !isBlank line && !isFence line && !isQuote line && !headingLike line && !isOrdered line && !isUnordered line

abbrev Line : Type := Nat × Text

inductive Block where
  | code (language : Text) (lines : List Line)
  | quote (lines : List Line)
  | heading (level : Nat) (line : Line)
  | ordered (items : List Line)
  | unordered (items : List Line)
  | paragraph (lines : List Line)

def Block.sources : Block → List Nat
  | .code _ lines | .quote lines | .ordered lines | .unordered lines | .paragraph lines => lines.map Prod.fst
  | .heading _ line => [line.1]

def shown (show_ : Text → Text) (lines : List Line) : List Line := lines.map fun line => (line.1,show_ line.2)

def quoteText (line : Text) : Text := ((trim line).drop 1).dropWhile isSpace

def turn (line : Line) (rest : List Line) : Option Block × List Line :=
  if isFence line.2 then
    (some (.code (trim ((trim line.2).drop 3)) (rest.takeWhile fun l => !isFence l.2)),
      (rest.dropWhile fun l => !isFence l.2).tail)
  else if isQuote line.2 then
    (some (.quote (shown quoteText ((line :: rest).takeWhile fun l => isQuote l.2))),
      (line :: rest).dropWhile fun l => isQuote l.2)
  else
    match headingMatch line.2 with
    | some (level,text) => (some (.heading level (line.1,text)),rest)
    | none =>
      if isOrdered line.2 then
        (some (.ordered (shown (fun l => (orderedItem (trim l)).getD []) ((line :: rest).takeWhile fun l => isOrdered l.2))),
          (line :: rest).dropWhile fun l => isOrdered l.2)
      else if isUnordered line.2 then
        (some (.unordered (shown (fun l => (unorderedItem (trim l)).getD [])
          ((line :: rest).takeWhile fun l => isUnordered l.2))),(line :: rest).dropWhile fun l => isUnordered l.2)
      else if isBlank line.2 then (none,rest)
      else
        (some (.paragraph ((line :: rest).takeWhile fun l => continues l.2)),
          (line :: rest).dropWhile fun l => continues l.2)

def loop : Nat → List Line → Option (List Block)
  | _,[] => some []
  | 0,_ :: _ => none
  | turns + 1,line :: rest =>
    let turned := turn line rest
    (loop turns turned.2).map (turned.1.toList ++ ·)

def numbered (content : Text) : List Line := (splitLines content).zipIdx.map fun line => (line.2,line.1)

/-- `MarkdownContent`, after at most so many turns; an empty content has no blocks. -/
def markdownContent (turns : Nat) (content : Text) : Option (List Block) :=
  if content = [] then some [] else loop turns (numbered content)

/-! What is claimed of it -/

/-- The loop ends, and the lines that are neither blank nor fences contribute to one block each, in their order. -/
def Rendered (content : Text) : Prop :=
  ∃ turns blocks, markdownContent turns content = some blocks ∧
    (blocks.flatMap Block.sources).Pairwise (· < ·) ∧
    ∀ line ∈ numbered content, isBlank line.2 = false → isFence line.2 = false → line.1 ∈ blocks.flatMap Block.sources

/-- A heading to the paragraph's condition but not to the heading's. -/
def Stuck (line : Text) : Prop := headingLike line = true ∧ headingMatch line = none

def outside : Bool → List Line → List Line
  | _,[] => []
  | inCode,line :: rest =>
    if isFence line.2 then outside (!inCode) rest
    else if inCode then outside true rest
    else line :: outside false rest

/-! What the recognisers exclude -/

theorem trim_hash (tail : Text) : ∃ rest, trim (hash :: tail) = hash :: rest := by
  unfold trim
  rw [List.dropWhile_cons_of_neg (by decide),List.reverse_cons,List.dropWhile_append]
  split
  · exact ⟨[],by decide⟩
  · exact ⟨(tail.reverse.dropWhile isSpace).reverse,by simp⟩

variable {line : Text}

theorem afterHashes_trim {after : Text} (hashes : afterHashes line = some after) : ∃ rest, trim line = hash :: rest := by
  cases line with
  | nil => simp [afterHashes] at hashes
  | cons unit tail =>
    by_cases same : unit = hash
    · subst same
      exact trim_hash tail
    · simp [afterHashes,same] at hashes

/-- A line that begins a heading is recognised by nothing but the heading's pattern. -/
theorem headingLike_trim (like : headingLike line = true) : ∃ rest, trim line = hash :: rest := by
  cases hashes : afterHashes line with
  | none => simp [headingLike,hashes] at like
  | some after => exact afterHashes_trim hashes

section
variable {line : Text}

section
variable (like : headingLike line = true)
include like

theorem not_fence_of_headingLike : isFence line = false := by
  obtain ⟨rest,trimmed⟩ := headingLike_trim like
  rw [isFence,trimmed]
  rfl

theorem not_quote_of_headingLike : isQuote line = false := by
  obtain ⟨rest,trimmed⟩ := headingLike_trim like
  rw [isQuote,trimmed]
  rfl

theorem not_ordered_of_headingLike : isOrdered line = false := by
  obtain ⟨rest,trimmed⟩ := headingLike_trim like
  rw [isOrdered,trimmed,orderedItem,List.takeWhile_cons_of_neg (by decide),if_pos rfl]
  rfl

theorem not_unordered_of_headingLike : isUnordered line = false := by
  obtain ⟨rest,trimmed⟩ := headingLike_trim like
  rw [isUnordered,trimmed]
  cases rest <;> rfl

theorem not_blank_of_headingLike : isBlank line = false := by
  obtain ⟨rest,trimmed⟩ := headingLike_trim like
  rw [isBlank,trimmed]
  rfl

end

theorem not_stuck_of_quote (quote : isQuote line = true) : ¬Stuck line :=
  fun stuck => Bool.false_ne_true ((not_quote_of_headingLike stuck.1).symm.trans quote)

theorem not_stuck_of_ordered (ordered : isOrdered line = true) : ¬Stuck line :=
  fun stuck => Bool.false_ne_true ((not_ordered_of_headingLike stuck.1).symm.trans ordered)

theorem not_stuck_of_unordered (unordered : isUnordered line = true) : ¬Stuck line :=
  fun stuck => Bool.false_ne_true ((not_unordered_of_headingLike stuck.1).symm.trans unordered)

theorem not_stuck_of_continues (goes : continues line = true) : ¬Stuck line := by
  intro stuck
  simp [continues,stuck.1] at goes

theorem not_fence_of_continues (goes : continues line = true) : isFence line = false := by
  simp only [continues,Bool.and_eq_true,Bool.not_eq_true'] at goes
  exact goes.1.1.1.1.2

/-- The fence's mark is not the quote's, a digit or a bullet. -/
theorem not_fence_of_head {unit : UInt16} {rest : Text} (trimmed : trim line = unit :: rest) (other : unit ≠ 96) :
    isFence line = false := by
  rw [isFence,trimmed]
  have first : ascii "```" = [96,96,96] := by decide
  rw [first,List.isPrefixOf_cons_cons]
  simp [other.symm]

theorem not_fence_of_quote (quote : isQuote line = true) : isFence line = false := by
  unfold isQuote at quote
  have mark : ascii ">" = [62] := by decide
  rw [mark] at quote
  cases trimmed : trim line with
  | nil => simp [trimmed] at quote
  | cons unit rest =>
    rw [trimmed] at quote
    obtain rfl : 62 = unit := by simpa using quote
    exact not_fence_of_head trimmed (by decide)

theorem not_fence_of_ordered (ordered : isOrdered line = true) : isFence line = false := by
  cases trimmed : trim line with
  | nil =>
    rw [isOrdered,trimmed] at ordered
    simp [orderedItem] at ordered
  | cons unit rest =>
    refine not_fence_of_head trimmed ?_
    rintro rfl
    rw [isOrdered,trimmed,orderedItem,List.takeWhile_cons_of_neg (by decide),if_pos rfl] at ordered
    exact Bool.false_ne_true ordered

theorem not_fence_of_unordered (unordered : isUnordered line = true) : isFence line = false := by
  cases trimmed : trim line with
  | nil =>
    rw [isUnordered,trimmed] at unordered
    exact absurd unordered Bool.false_ne_true
  | cons unit rest =>
    refine not_fence_of_head trimmed ?_
    rintro rfl
    rw [isUnordered,trimmed] at unordered
    cases rest with
    | nil => exact Bool.false_ne_true unordered
    | cons next rest => simp [unorderedItem] at unordered

end

/-- What a turn does with the lines from its own on: it takes some, of which those that are neither blank nor fences are
in the block, and leaves the rest; none of those it takes outside a code block is stuck. -/
structure Turned (lines : List Line) (block : Option Block) (rest : List Line) : Prop where
  split : ∃ taken, taken ≠ [] ∧ lines = taken ++ rest ∧
    (block.toList.flatMap Block.sources).Sublist (taken.map Prod.fst) ∧
    ∀ line ∈ taken, isBlank line.2 = false → isFence line.2 = false → line.1 ∈ block.toList.flatMap Block.sources
  outside : ∃ before, outside false lines = before ++ MarkdownBlocks.outside false rest ∧ ∀ line ∈ before, ¬Stuck line.2

theorem outside_append {taken : List Line} (open_ : ∀ line ∈ taken, isFence line.2 = false) (rest : List Line) :
    outside false (taken ++ rest) = taken ++ outside false rest := by
  induction taken with
  | nil => rfl
  | cons line taken ih =>
    rw [List.cons_append,outside,if_neg (by simp [open_ line]),if_neg Bool.false_ne_true,
      ih fun other member => open_ other (List.mem_cons_of_mem _ member),List.cons_append]

theorem outside_code (lines : List Line) :
    outside true lines = outside false (lines.dropWhile fun l => !isFence l.2).tail := by
  induction lines with
  | nil => rfl
  | cons line rest ih =>
    rw [outside]
    by_cases fence : isFence line.2 = true
    · rw [if_pos fence,List.dropWhile_cons_of_neg (by simp [fence])]
      rfl
    · rw [if_neg fence,if_pos rfl,ih,List.dropWhile_cons_of_pos (by simp [fence])]

theorem sources_shown (show_ : Text → Text) (lines : List Line) : (shown show_ lines).map Prod.fst = lines.map Prod.fst := by
  simp [shown]

variable {line : Line} {rest lines : List Line}

theorem turned_takeWhile {kind : Text → Bool} {block : Block} (first : kind line.2 = true)
    (open_ : ∀ l, kind l = true → isFence l = false) (free : ∀ l, kind l = true → ¬Stuck l)
    (sources : block.sources = ((line :: rest).takeWhile fun l => kind l.2).map Prod.fst) :
    Turned (line :: rest) (some block) ((line :: rest).dropWhile fun l => kind l.2) := by
  have split := List.takeWhile_append_dropWhile (p := fun l : Line => kind l.2) (l := line :: rest)
  have each : ∀ l ∈ (line :: rest).takeWhile fun l => kind l.2, kind l.2 = true := by
    intro l member
    exact List.mem_takeWhile_imp (p := fun l : Line => kind l.2) member
  have shows : (some block).toList.flatMap Block.sources = ((line :: rest).takeWhile fun l => kind l.2).map Prod.fst := by
    simp [sources]
  refine ⟨⟨_,?_,split.symm,?_,?_⟩,⟨_,?_,fun l member => free _ (each l member)⟩⟩
  · intro none_
    rw [List.takeWhile_cons_of_pos (p := fun l : Line => kind l.2) first] at none_
    exact List.cons_ne_nil _ _ none_
  · exact shows ▸ List.Sublist.refl _
  · intro l member _ _
    rw [shows]
    exact List.mem_map_of_mem member
  · rw [← outside_append (fun l member => open_ _ (each l member)),split]

/-- A turn that takes its own line only. -/
theorem turned_one {block : Option Block} (open_ : isFence line.2 = false)
    (free : ¬Stuck line.2) (sources : block.toList.flatMap Block.sources = if isBlank line.2 then [] else [line.1]) :
    Turned (line :: rest) block rest := by
  have single : ∀ l ∈ [line], isFence l.2 = false := by simp [open_]
  refine ⟨⟨[line],List.cons_ne_nil _ _,rfl,?_,?_⟩,[line],outside_append single rest,by simp [free]⟩
  · rw [sources]
    split <;> simp
  · intro l member filled _
    obtain rfl := List.mem_singleton.mp member
    rw [sources,filled]
    simp

theorem turned_code (fence : isFence line.2 = true) (language : Text) :
    Turned (line :: rest) (some (.code language (rest.takeWhile fun l => !isFence l.2)))
      (rest.dropWhile fun l => !isFence l.2).tail := by
  have split := List.takeWhile_append_dropWhile (p := fun l : Line => !isFence l.2) (l := rest)
  refine ⟨⟨line :: (rest.takeWhile fun l => !isFence l.2) ++ (rest.dropWhile fun l => !isFence l.2).take 1,by simp,?_,?_,?_⟩,
    [],?_,by simp⟩
  · rw [List.cons_append,List.cons_append,List.append_assoc,← List.drop_one,List.take_append_drop,split]
  · simp [Block.sources]
  · intro l member filled open_
    rw [List.cons_append,List.mem_cons,List.mem_append] at member
    rcases member with rfl | member | member
    · rw [fence] at open_
      cases open_
    · simp only [Option.toList_some,List.flatMap_singleton,Block.sources]
      exact List.mem_map_of_mem member
    · have closes : isFence l.2 = true := by
        cases dropped : rest.dropWhile fun l => !isFence l.2 with
        | nil => simp [dropped] at member
        | cons other later =>
          have stops := List.head?_dropWhile_not (fun l : Line => !isFence l.2) rest
          rw [dropped] at stops member
          simp only [List.take_succ_cons,List.take_zero,List.mem_singleton] at member
          subst member
          simpa using stops
      rw [closes] at open_
      cases open_
  · rw [outside,if_pos fence,List.nil_append]
    exact outside_code rest

theorem turned (line : Line) (rest : List Line) (free : ¬Stuck line.2) :
    Turned (line :: rest) (turn line rest).1 (turn line rest).2 := by
  unfold turn
  split
  · rename_i fence
    exact turned_code fence _
  rename_i open_
  split
  · rename_i quote
    exact turned_takeWhile quote (fun _ => not_fence_of_quote) (fun _ => not_stuck_of_quote) (sources_shown _ _)
  rename_i unquoted
  split
  · rename_i level text heading
    obtain ⟨after,hashes,-⟩ := Option.bind_eq_some_iff.mp heading
    obtain ⟨tail,trimmed⟩ := afterHashes_trim hashes
    exact turned_one (by simpa using open_) free (by simp [Block.sources,isBlank,trimmed])
  rename_i none
  split
  · rename_i ordered
    exact turned_takeWhile ordered (fun _ => not_fence_of_ordered) (fun _ => not_stuck_of_ordered) (sources_shown _ _)
  rename_i unordered
  split
  · rename_i bullet
    exact turned_takeWhile bullet (fun _ => not_fence_of_unordered) (fun _ => not_stuck_of_unordered) (sources_shown _ _)
  rename_i bulletless
  split
  · rename_i blank
    exact turned_one (by simpa using open_) free (by simp [blank])
  · rename_i filled
    have like : headingLike line.2 = false := by
      by_contra like
      exact free ⟨by simpa using like,none⟩
    refine turned_takeWhile ?_ (fun _ => not_fence_of_continues) (fun _ => not_stuck_of_continues) rfl
    simp [continues,like,open_,unquoted,unordered,bulletless,filled]

/-- A turn on a stuck line takes nothing. -/
theorem turn_stuck (stuck : Stuck line.2) (rest : List Line) :
    turn line rest = (some (.paragraph []),line :: rest) := by
  have halted : continues line.2 = false := by simp [continues,stuck.1]
  unfold turn
  rw [if_neg (by simp [not_fence_of_headingLike stuck.1]),if_neg (by simp [not_quote_of_headingLike stuck.1]),stuck.2]
  simp only
  rw [if_neg (by simp [not_ordered_of_headingLike stuck.1]),if_neg (by simp [not_unordered_of_headingLike stuck.1]),
    if_neg (by simp [not_blank_of_headingLike stuck.1]),List.takeWhile_cons_of_neg (by simp [halted]),
    List.dropWhile_cons_of_neg (by simp [halted])]

/-- With a stuck line outside the code blocks the loop goes on for ever. -/
theorem loop_stuck (turns : Nat) (member : line ∈ outside false lines)
    (stuck : Stuck line.2) : loop turns lines = none := by
  induction turns generalizing lines with
  | zero =>
    cases lines with
    | nil => simp [outside] at member
    | cons => rfl
  | succ turns ih =>
    cases lines with
    | nil => simp [outside] at member
    | cons first rest =>
      rw [loop,Option.map_eq_none_iff]
      by_cases here : Stuck first.2
      · rw [turn_stuck here]
        exact ih member
      · obtain ⟨before,split,free⟩ := (turned first rest here).outside
        rw [split] at member
        exact ih ((List.mem_append.mp member).resolve_left fun early => free line early stuck)

/-- Without one each turn takes a line, and what the turns take is in the blocks. -/
theorem loop_ends (turns : Nat) (enough : lines.length ≤ turns)
    (free : ∀ line ∈ outside false lines, ¬Stuck line.2) : ∃ blocks, loop turns lines = some blocks ∧
      (blocks.flatMap Block.sources).Sublist (lines.map Prod.fst) ∧
      ∀ line ∈ lines, isBlank line.2 = false → isFence line.2 = false → line.1 ∈ blocks.flatMap Block.sources := by
  induction turns generalizing lines with
  | zero =>
    obtain rfl := List.length_eq_zero_iff.mp (Nat.le_zero.mp enough)
    exact ⟨[],rfl,by simp,by simp⟩
  | succ turns ih =>
    cases lines with
    | nil => exact ⟨[],rfl,by simp,by simp⟩
    | cons first rest =>
      have here : ¬Stuck first.2 := by
        intro stuck
        refine free first ?_ stuck
        rw [outside,if_neg (by simp [not_fence_of_headingLike stuck.1]),if_neg Bool.false_ne_true]
        exact List.mem_cons_self
      obtain ⟨⟨taken,progress,split,inside,covers⟩,before,splits,-⟩ := turned first rest here
      have shorter : (turn first rest).2.length ≤ turns := by
        have lengths := congrArg List.length split
        have positive := List.length_pos_iff.mpr progress
        rw [List.length_append] at lengths
        omega
      obtain ⟨blocks,ended,later,coversLater⟩ := ih shorter fun line member =>
        free line (splits ▸ List.mem_append_right _ member)
      refine ⟨(turn first rest).1.toList ++ blocks,by rw [loop,ended]; rfl,?_,?_⟩
      · rw [List.flatMap_append,split,List.map_append]
        exact inside.append later
      · intro line member filled open_
        rw [List.flatMap_append,List.mem_append]
        rw [split] at member
        rcases List.mem_append.mp member with early | late
        · exact .inl (covers line early filled open_)
        · exact .inr (coversLater line late filled open_)

theorem numbers_numbered (content : Text) : (numbered content).map Prod.fst = List.range (splitLines content).length := by
  rw [numbered,List.map_map,List.range_eq_range']
  exact List.zipIdx_map_snd 0 _

/-- The loop ends, and shows each line that it should once, exactly if no line outside the code blocks is stuck. -/
theorem rendered_iff (content : Text) : Rendered content ↔ ∀ line ∈ outside false (numbered content), ¬Stuck line.2 := by
  constructor
  · rintro ⟨turns,blocks,ended,-⟩ line member stuck
    unfold markdownContent at ended
    split at ended
    · rename_i empty
      subst empty
      obtain rfl : line = (0,[]) := List.mem_singleton.mp member
      exact Bool.false_ne_true stuck.1
    · rw [loop_stuck turns member stuck] at ended
      cases ended
  · intro free
    obtain ⟨blocks,ended,inside,covers⟩ := loop_ends _ (Nat.le_refl _) free
    by_cases empty : content = []
    · subst empty
      exact ⟨0,[],rfl,List.Pairwise.nil,by decide⟩
    · refine ⟨_,blocks,by rw [markdownContent,if_neg empty,ended],?_,covers⟩
      rw [numbers_numbered] at inside
      exact List.pairwise_lt_range.sublist inside

/-- The beginning of a heading, as it comes while an answer is streamed. -/
theorem not_rendered_heading : ¬Rendered (ascii "# ") := by
  rintro ⟨turns,blocks,ended,-⟩
  have member : (0,ascii "# ") ∈ outside false (numbered (ascii "# ")) := by decide
  have stuck : Stuck (ascii "# ") := by
    unfold Stuck
    decide
  rw [markdownContent,if_neg (by decide),loop_stuck turns member stuck] at ended
  cases ended

end Vigile.MarkdownBlocks
