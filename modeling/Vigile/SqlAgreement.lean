import Mathlib.Data.List.Forall2
import Vigile.SqlTokenizer

/-! The tokenizer of the table-access check next to SQLite's lexer: which names it reads, and what it must not read. -/
namespace Vigile.SqlTokenizer

open Scanner
open Python (isSpace)

variable (isalnum : Char → Bool)

/-! What is promised -/

/-- The identifiers and keywords SQLite reads, with their places. -/
def name? (piece : Piece Char Sqlite.Kind) : Option (Piece Char (List Char)) :=
  match piece.value with
  | .name _ text => some ⟨text,piece.before,piece.after⟩
  | _ => none

def Reads (token name : Piece Char (List Char)) : Prop := token.value = name.value ∧ token.Inside name

/-- What is part of a string literal or a comment. -/
def Hidden (kind : Sqlite.Kind) : Prop := kind = .literal ∨ kind = .comment

/-- Every name SQLite reads is a token, in the same order, and no token is part of a literal or a comment. -/
structure Agrees (tokens : List (Piece Char (List Char))) (pieces : List (Piece Char Sqlite.Kind)) : Prop where
  names : ∃ picked, picked.Sublist tokens ∧ List.Forall₂ Reads picked (pieces.filterMap name?)
  hidden : ∀ token ∈ tokens, ∀ piece ∈ pieces, Hidden piece.value → token.Apart piece

/-- The loop ends, and its tokens agree with SQLite's reading. -/
def Faithful (sql : List Char) : Prop :=
  ∃ tokens, places isalnum sql.length sql = some tokens ∧ Agrees tokens (pieces Sqlite.next sql)

/-! Where it holds -/

/-- What the tokenizer makes one token of: a word, or one character that is no space and no quote. -/
def Plain (text : List Char) : Prop :=
  (text ≠ [] ∧ ∀ c ∈ text, isWord isalnum c = true) ∨ ∃ c, text = [c] ∧ isSpace c = false ∧ c ≠ '"' ∧ c ≠ '\''

/-- A bare name directly after a numbered parameter. -/
def Glued (first second : Piece Char Sqlite.Kind) : Prop :=
  first.value = .numbered ∧ ∃ c text, second.value = .name .bare (c :: text) ∧ isWord isalnum c = true

/-- Names that are not in double quotes are plain, and no word stands directly after a numbered parameter. -/
structure Readable (pieces : List (Piece Char Sqlite.Kind)) : Prop where
  plain : ∀ piece ∈ pieces, ∀ quote text, piece.value = .name quote text → quote ≠ .double → Plain isalnum text
  apart : pieces.IsChain fun first second => ¬Glued isalnum first second

/-- No bind parameter has a quote or the beginning of a comment in its suffix. -/
def Unopened (pieces : List (Piece Char Sqlite.Kind)) : Prop :=
  ∀ piece ∈ pieces, piece.value = .parameter → Sqlite.Calm piece.before piece.after

/-- A place of a piece is read by both, with the tokens between. -/
def InStep (sql rest : List Char) : Prop :=
  ∃ within, tokens isalnum sql = within ++ tokens isalnum rest ∧
    ∀ token ∈ within, token.before.length ≤ sql.length ∧ rest.length ≤ token.after.length

variable {isalnum} {c : Char} {sql text rest after : List Char} {value : Option (List Char)}

theorem InStep.refl (sql : List Char) : InStep isalnum sql sql := ⟨[],rfl,fun _ none_ => by cases none_⟩

theorem InStep.trans (first : InStep isalnum sql after) (inside : after <:+ sql) (second : InStep isalnum after rest)
    (later : rest <:+ after) : InStep isalnum sql rest := by
  obtain ⟨front,here,places⟩ := first
  obtain ⟨back,there,more⟩ := second
  have short := inside.length_le
  have shorter := later.length_le
  refine ⟨front ++ back,by rw [here,there,List.append_assoc],fun token member => ?_⟩
  rcases List.mem_append.mp member with early | late
  · have := places token early
    omega
  · have := more token late
    omega

/-- One round. -/
theorem inStep_next (read : next isalnum sql = some (value,rest)) : InStep isalnum sql rest := by
  cases value with
  | none => exact ⟨[],tokens_skip read,fun _ none_ => by cases none_⟩
  | some text =>
    refine ⟨[⟨text,sql,rest⟩],tokens_read read,fun token member => ?_⟩
    rw [List.mem_singleton.mp member]
    exact ⟨Nat.le_refl _,Nat.le_refl _⟩

/-- The rest of a text is in step where no word goes across its beginning. -/
theorem suffix_dropWhile {p : Char → Bool} (inside : rest <:+ text) (head : ∀ c, rest.head? = some c → p c = false) :
    rest <:+ text.dropWhile p := by
  induction text with
  | nil => exact inside
  | cons c text ih =>
    rcases List.suffix_cons_iff.mp inside with rfl | later
    · rw [List.dropWhile_cons_of_neg (Bool.eq_false_iff.mp (head c rfl))]
    · by_cases here : p c = true
      · rw [List.dropWhile_cons_of_pos here]
        exact ih later
      · rw [List.dropWhile_cons_of_neg here]
        exact inside

theorem Calm.suffix {later : List Char} (calm : Sqlite.Calm text rest) (inside : later <:+ text) : Sqlite.Calm later rest :=
  fun last here longer => calm last (here.trans inside) longer

/-- A text without quotes and comments is read in step, where no word goes across its end. -/
theorem inStep_calm (laws : AlnumLaws isalnum) (inside : rest <:+ sql) (calm : Sqlite.Calm sql rest)
    (head : ∀ c, rest.head? = some c → isWord isalnum c = false) : InStep isalnum sql rest := by
  induction size : sql.length using Nat.strong_induction_on generalizing sql with
  | _ n ih =>
    cases sql with
    | nil =>
      rw [List.suffix_nil.mp inside]
      exact InStep.refl []
    | cons c text =>
      rcases List.suffix_cons_iff.mp inside with rfl | later
      · exact InStep.refl _
      · have shut := calm (c :: text) (List.suffix_refl _) (Nat.lt_succ_of_le later.length_le)
        have round {value : Option (List Char)} {after : List Char} (read : next isalnum (c :: text) = some (value,after))
            (kept : rest <:+ after) : InStep isalnum (c :: text) rest := by
          have taken := consumes.suffix read
          exact (inStep_next read).trans taken (ih _ (size ▸ consumes.shorter read) kept (Calm.suffix calm taken) rfl) kept
        by_cases word : isWord isalnum c = true
        · exact round (next_word laws word) (suffix_dropWhile inside head)
        · exact round (next_symbol (Bool.eq_false_iff.mpr word) shut) later

/-- The same where the text ends with a character that is in no word. -/
theorem inStep_edge (laws : AlnumLaws isalnum) (inside : rest <:+ sql) (calm : Sqlite.Calm sql rest)
    (edge : Sqlite.Edge sql rest) : InStep isalnum sql rest := by
  rcases edge with head | ⟨c,other,last⟩
  · exact inStep_calm laws inside calm fun c here => not_isWord laws (head c here)
  · have symbol := not_isWord laws other
    have tail : rest <:+ c :: rest := List.suffix_cons c rest
    have shut : ¬Sqlite.Opens (c :: rest) := calm (c :: rest) last (Nat.lt_succ_self _)
    have front : InStep isalnum sql (c :: rest) := by
      refine inStep_calm laws last (fun later here longer => calm later here ?_) fun d here => ?_
      · have := tail.length_le
        omega
      · cases here
        exact symbol
    exact front.trans last (inStep_next (next_symbol symbol shut)) tail

variable {kind : Sqlite.Kind} {piece : Piece Char Sqlite.Kind} {token : Piece Char (List Char)}

variable (isalnum) in
/-- The tokens that may follow where SQLite's next piece begins: those of the text, those behind a word that ends with
the letter of a blob, or any where SQLite reads only operators to its end. -/
inductive Follows (sql : List Char) : List (Piece Char (List Char)) → Prop where
  | same : Follows sql (tokens isalnum sql)
  | glued {token : Piece Char (List Char)} {rest : List Char} (read : Sqlite.next sql = some (.blob,rest))
    (ends : token.after = sql.tail) : Follows sql (token :: tokens isalnum sql.tail)
  | idle {later : List (Piece Char (List Char))} (others : ∀ piece ∈ pieces Sqlite.next sql, piece.value = .other) : Follows sql later

variable (isalnum) in
structure Round (piece : Piece Char Sqlite.Kind) (within later : List (Piece Char (List Char))) : Prop where
  past : ∀ token ∈ within, piece.after.length ≤ token.after.length
  name : ∀ name, name? piece = some name → ∃ token ∈ within, Reads token name
  hidden : Hidden piece.value → within = [] ∧ ∀ token ∈ later, token.before.length ≤ piece.after.length
  follows : Follows isalnum piece.after later

variable (isalnum) in
/-- What follows the tokens of a piece is read from its end. -/
def Steps (piece : Piece Char Sqlite.Kind) : Prop :=
  ∃ within later, tokens isalnum piece.before = within ++ later ∧ Round isalnum piece within later

theorem not_hidden (shown : (match kind with | .literal | .comment => false | _ => true) = true) : ¬Hidden kind := by
  rintro (rfl | rfl) <;> cases shown

variable {quote : Sqlite.Quote}

theorem not_hidden_name : ¬Hidden (.name quote text) := not_hidden rfl

theorem name?_eq_none (unnamed : ∀ quote text, kind ≠ .name quote text) : name? ⟨kind,sql,rest⟩ = none := by
  unfold name?
  split
  · rename_i quote text named
    exact absurd named (unnamed quote text)
  · rfl

/-- A piece that is neither a name nor hidden, in step. -/
theorem steps_inStep (unnamed : ∀ quote text, kind ≠ .name quote text) (shown : ¬Hidden kind) (step : InStep isalnum sql rest) :
    Steps isalnum ⟨kind,sql,rest⟩ := by
  obtain ⟨within,here,places⟩ := step
  refine ⟨within,tokens isalnum rest,here,fun token member => (places token member).2,fun name named => ?_,
    fun hidden => absurd hidden shown,.same⟩
  rw [name?_eq_none unnamed] at named
  cases named

/-- A literal or a comment. -/
theorem steps_hidden {ends : List Char} (hidden : Hidden kind) (skipped : tokens isalnum sql = tokens isalnum ends)
    (short : ends.length ≤ rest.length) (follows : tokens isalnum ends = tokens isalnum rest ∨ Sqlite.next rest = none) :
    Steps isalnum ⟨kind,sql,rest⟩ := by
  refine ⟨[],tokens isalnum ends,skipped,fun _ none_ => absurd none_ List.not_mem_nil,fun name named => ?_,
    fun _ => ⟨rfl,fun token member => (of_mem_tokens member).1.length_le.trans short⟩,?_⟩
  · rw [name?_eq_none fun quote text here => not_hidden_name (here ▸ hidden)] at named
    cases named
  · rcases follows with same | stops
    · rw [same]
      exact .same
    · refine .idle fun piece member => ?_
      dsimp only at member
      rw [pieces_stop stops] at member
      cases member

theorem steps_name {front back : List (Piece Char (List Char))}
    (here : tokens isalnum sql = (front ++ token :: back) ++ tokens isalnum rest) (value : token.value = text)
    (starts : token.before.length ≤ sql.length) (past : ∀ other ∈ front ++ token :: back, rest.length ≤ other.after.length) :
    Steps isalnum ⟨.name quote text,sql,rest⟩ := by
  refine ⟨front ++ token :: back,tokens isalnum rest,here,past,fun name named => ?_,
    fun hidden => absurd hidden not_hidden_name,.same⟩
  cases named
  have member : token ∈ front ++ token :: back := List.mem_append_right front List.mem_cons_self
  exact ⟨token,member,value,starts,past token member⟩

/-- A name that is one token. -/
theorem steps_read (read : next isalnum sql = some (some text,rest)) :
    Steps isalnum ⟨.name quote text,sql,rest⟩ := by
  have here : tokens isalnum sql = ([] ++ ⟨text,sql,rest⟩ :: []) ++ tokens isalnum rest := tokens_read read
  refine steps_name here rfl (Nat.le_refl _) fun other member => ?_
  rw [List.mem_singleton.mp member]

theorem takeWhile_head {p : Char → Bool} (head : ∀ c, rest.head? = some c → p c = false) :
    rest.takeWhile p = [] ∧ rest.dropWhile p = rest := by
  cases rest with
  | nil => exact ⟨rfl,rfl⟩
  | cons c rest =>
    have stops : ¬p c = true := Bool.eq_false_iff.mp (head c rfl)
    exact ⟨List.takeWhile_cons_of_neg stops,List.dropWhile_cons_of_neg stops⟩

/-- A plain text is one token. -/
theorem plain_read (laws : AlnumLaws isalnum) (plain : Plain isalnum text) (head : ∀ c, rest.head? = some c → isWord isalnum c = false)
    (shut : ∀ c, text = [c] → c ≠ '"' → c ≠ '\'' → ¬Sqlite.Opens (c :: rest)) :
    next isalnum (text ++ rest) = some (some text,rest) := by
  have whole (filled : text ≠ []) (words : ∀ c ∈ text, isWord isalnum c = true) :
      next isalnum (text ++ rest) = some (some text,rest) := by
    cases text with
    | nil => exact absurd rfl filled
    | cons c text =>
      obtain ⟨taken,left⟩ := takeWhile_head head
      have read : next isalnum (c :: (text ++ rest)) = _ := next_word laws (words c List.mem_cons_self)
      rw [← List.cons_append,List.takeWhile_append_of_pos words,List.dropWhile_append_of_pos words,taken,left,List.append_nil] at read
      exact read
  rcases plain with ⟨filled,words⟩ | ⟨c,rfl,solid,double,single⟩
  · exact whole filled words
  · by_cases word : isWord isalnum c = true
    · exact whole (List.cons_ne_nil c []) fun d member => (List.mem_singleton.mp member) ▸ word
    · have read := next_symbol (Bool.eq_false_iff.mpr word) (shut c rfl double single)
      rw [if_neg (Bool.eq_false_iff.mp solid)] at read
      exact read

theorem not_opens_closed {close : Char} (closing : Sqlite.Quiet close) (star : close ≠ '*') (double : c ≠ '"') (single : c ≠ '\'') :
    ¬Sqlite.Opens (c :: close :: rest) := by
  rintro (here | here | line | block)
  · exact double (Option.some.inj here)
  · exact single (Option.some.inj here)
  · exact closing.2.2.1 (List.cons_prefix_cons.mp (List.cons_prefix_cons.mp line).2).1.symm
  · exact star (List.cons_prefix_cons.mp (List.cons_prefix_cons.mp block).2).1.symm

/-- A quote of SQLite's that the tokenizer takes for a symbol. -/
theorem quote_read (laws : AlnumLaws isalnum) (symbol : c = '[' ∨ c = ']' ∨ c = Char.ofNat 96) (rest : List Char) :
    next isalnum (c :: rest) = some (some [c],rest) := by
  have quiet : Sqlite.Symbol c ∧ isSpace c = false := by
    rcases symbol with rfl | rfl | rfl <;> decide
  have read := next_symbol (not_isWord laws quiet.1.2) (quiet.1.1.not_opens rest)
  rwa [if_neg (Bool.eq_false_iff.mp quiet.2)] at read

/-- A plain name between a bracket or backtick and another. -/
theorem steps_enclosed (laws : AlnumLaws isalnum) {opening closing : Char}
    (opens : opening = '[' ∨ opening = ']' ∨ opening = Char.ofNat 96) (closes : closing = '[' ∨ closing = ']' ∨ closing = Char.ofNat 96)
    (plain : Plain isalnum text) : Steps isalnum ⟨.name quote text,opening :: (text ++ closing :: rest),rest⟩ := by
  have quiet : Sqlite.Symbol closing ∧ closing ≠ '*' := by
    rcases closes with rfl | rfl | rfl <;> decide
  have first := quote_read laws opens (text ++ closing :: rest)
  have last := quote_read laws closes rest
  have middle : next isalnum (text ++ closing :: rest) = some (some text,closing :: rest) := by
    refine plain_read laws plain (fun c head => ?_) fun c _ double single => not_opens_closed quiet.1.1 quiet.2 double single
    cases head
    exact not_isWord laws quiet.1.2
  have read : tokens isalnum (opening :: (text ++ closing :: rest)) =
      ([⟨[opening],opening :: (text ++ closing :: rest),text ++ closing :: rest⟩] ++
        ⟨text,text ++ closing :: rest,closing :: rest⟩ :: [⟨[closing],closing :: rest,rest⟩]) ++ tokens isalnum rest := by
    rw [tokens_read first,tokens_read middle,tokens_read last]
    rfl
  refine steps_name read rfl (Nat.le_succ _) fun other member => ?_
  simp only [List.cons_append,List.nil_append,List.mem_cons,List.not_mem_nil,or_false] at member
  rcases member with rfl | rfl | rfl
  · simp only [List.length_append,List.length_cons]
    omega
  · simp only [List.length_cons]
    omega
  · exact Nat.le_refl _

theorem doubled_solid {delim : Char} (solid : delim ∉ text) : Sqlite.doubled delim text = text := by
  induction text with
  | nil => rfl
  | cons c text ih =>
    have other : c ≠ delim := fun here => solid (here ▸ List.mem_cons_self)
    have later := ih fun member => solid (List.mem_cons_of_mem c member)
    rw [Sqlite.doubled,List.flatMap_cons,if_neg other]
    exact congrArg (c :: ·) later

/-- A backtick between two others is written twice: the second of four tokens reads it. -/
theorem steps_four (laws : AlnumLaws isalnum) (symbol : c = '[' ∨ c = ']' ∨ c = Char.ofNat 96) :
    Steps isalnum ⟨.name quote [c],c :: c :: c :: c :: rest,rest⟩ := by
  have one (rest : List Char) := quote_read laws symbol rest
  have read : tokens isalnum (c :: c :: c :: c :: rest) =
      ([⟨[c],c :: c :: c :: c :: rest,c :: c :: c :: rest⟩] ++ ⟨[c],c :: c :: c :: rest,c :: c :: rest⟩ ::
        [⟨[c],c :: c :: rest,c :: rest⟩,⟨[c],c :: rest,rest⟩]) ++ tokens isalnum rest := by
    rw [tokens_read (one _),tokens_read (one _),tokens_read (one _),tokens_read (one _)]
    rfl
  refine steps_name read rfl (Nat.le_succ _) fun other member => ?_
  simp only [List.cons_append,List.nil_append,List.mem_cons,List.not_mem_nil,or_false] at member
  rcases member with rfl | rfl | rfl | rfl
  all_goals
    simp only [List.length_cons]
    omega

theorem steps_backtick (laws : AlnumLaws isalnum) (closed : Sqlite.quoted (Char.ofNat 96) sql = some (text,rest))
    (plain : Plain isalnum text) : Steps isalnum ⟨.name .backtick text,Char.ofNat 96 :: sql,rest⟩ := by
  have split := Sqlite.quoted_split closed
  dsimp only at split
  have enclosed (solid : Char.ofNat 96 ∉ text) : Steps isalnum ⟨.name .backtick text,Char.ofNat 96 :: sql,rest⟩ := by
    rw [split,doubled_solid solid]
    exact steps_enclosed laws (.inr (.inr rfl)) (.inr (.inr rfl)) plain
  rcases plain with ⟨filled,words⟩ | ⟨c,rfl,-⟩
  · refine enclosed fun member => ?_
    have word := words _ member
    rw [not_word laws (by decide) (by decide) (by decide)] at word
    cases word
  · by_cases here : c = Char.ofNat 96
    · subst here
      rw [split]
      exact steps_four laws (.inr (.inr rfl))
    · exact enclosed fun member => here (List.mem_singleton.mp member).symm

theorem quiet_name (starts : Sqlite.startsName c = true) : Sqlite.Quiet c := by
  refine ⟨?_,?_,?_,?_⟩
  all_goals
    rintro rfl
    cases starts

theorem steps_bare (laws : AlnumLaws isalnum) (starts : Sqlite.startsName c = true)
    (plain : Plain isalnum (c :: rest.takeWhile Sqlite.isIdChar)) :
    Steps isalnum ⟨.name .bare (c :: rest.takeWhile Sqlite.isIdChar),c :: rest,rest.dropWhile Sqlite.isIdChar⟩ := by
  have split : c :: rest = (c :: rest.takeWhile Sqlite.isIdChar) ++ rest.dropWhile Sqlite.isIdChar := by
    rw [List.cons_append,List.takeWhile_append_dropWhile]
  have read : next isalnum (c :: rest) = some (some (c :: rest.takeWhile Sqlite.isIdChar),rest.dropWhile Sqlite.isIdChar) := by
    rw [split]
    refine plain_read laws plain (fun d head => not_isWord laws (Sqlite.dropWhile_head _ _ d head)) fun d same _ _ => ?_
    rw [← (List.cons.inj same).1]
    exact (quiet_name starts).not_opens _
  exact steps_read read

/-- What SQLite reads between two quotes is what the tokenizer reads. -/
theorem readQuoted_closed {quote : Char} {found : List Char × List Char} (closed : Sqlite.quoted quote sql = some found) :
    readQuoted quote sql = found := by
  fun_induction Sqlite.quoted quote sql generalizing found with
  | case1 => cases closed
  | case2 =>
    cases closed
    simp only [readQuoted,if_true]
  | case3 | case4 => cases closed
  | case5 rest _ ih =>
    obtain ⟨inner,read,rfl⟩ := Option.map_eq_some_iff.mp closed
    simp only [readQuoted,if_true,ih read]
  | case6 d rest other _ =>
    cases closed
    simp only [readQuoted,if_true,if_neg other]
  | case7 c d rest _ other ih =>
    obtain ⟨inner,read,rfl⟩ := Option.map_eq_some_iff.mp closed
    simp only [readQuoted,if_neg other,ih read]

/-- What SQLite reads up to the end of the text, the tokenizer does too. -/
theorem readQuoted_open {quote : Char} (opened : Sqlite.quoted quote sql = none) :
    (readQuoted quote sql).2.length ≤ (sql.dropWhile (· ≠ Sqlite.nul)).length := by
  have passed {c : Char} (plain : ¬c = Sqlite.nul) (rest : List Char) :
      (c :: rest).dropWhile (· ≠ Sqlite.nul) = rest.dropWhile (· ≠ Sqlite.nul) := List.dropWhile_cons_of_pos (decide_eq_true plain)
  fun_induction Sqlite.quoted quote sql with
  | case1 => exact Nat.le_refl 0
  | case2 => cases opened
  | case3 c other =>
    simp only [readQuoted,if_neg other]
    exact Nat.zero_le _
  | case4 d rest =>
    rw [List.dropWhile_cons_of_neg (by simp only [ne_eq,not_true_eq_false,decide_false]; decide)]
    exact (readQuoted_suffix quote _).length_le
  | case5 rest plain ih =>
    have later := ih (Option.map_eq_none_iff.mp opened)
    simp only [readQuoted,if_true]
    rw [passed plain,passed plain]
    exact later
  | case6 => cases opened
  | case7 c d rest plain other ih =>
    have later := ih (Option.map_eq_none_iff.mp opened)
    simp only [readQuoted,if_neg other]
    rw [passed plain]
    exact later

theorem steps_double (closed : Sqlite.quoted '"' sql = some (text,rest)) :
    Steps isalnum ⟨.name .double text,'"' :: sql,rest⟩ := by
  refine steps_read ?_
  rw [next_double,readQuoted_closed closed]

theorem steps_literal (closed : Sqlite.quoted '\'' sql = some (text,rest)) : Steps isalnum ⟨.literal,'\'' :: sql,rest⟩ := by
  have skipped : next isalnum ('\'' :: sql) = some (none,rest) := by
    rw [next_quote,readQuoted_closed closed]
  exact steps_hidden (.inl rfl) (tokens_skip skipped) (Nat.le_refl _) (.inl rfl)

theorem next_nul (rest : List Char) : Sqlite.next (Sqlite.nul :: rest) = none := rfl

theorem stops_dropWhile (text : List Char) : Sqlite.next (text.dropWhile (· ≠ Sqlite.nul)) = none := by
  cases left : text.dropWhile (· ≠ Sqlite.nul) with
  | nil => rfl
  | cons c rest =>
    have stop := Sqlite.dropWhile_head (· ≠ Sqlite.nul) text c (by rw [left]; rfl)
    rw [not_not.mp (of_decide_eq_false stop)]
    exact next_nul rest

theorem steps_line : Steps isalnum ⟨.comment,'-' :: '-' :: sql,sql.dropWhile fun c => c ≠ Sqlite.nul && c ≠ '\n'⟩ := by
  have ends : ((sql.dropWhile (· ≠ '\n')).drop 1).length ≤ (sql.dropWhile fun c => c ≠ Sqlite.nul && c ≠ '\n').length ∧
      (tokens isalnum ((sql.dropWhile (· ≠ '\n')).drop 1) = tokens isalnum (sql.dropWhile fun c => c ≠ Sqlite.nul && c ≠ '\n') ∨
        Sqlite.next (sql.dropWhile fun c => c ≠ Sqlite.nul && c ≠ '\n') = none) := by
    induction sql with
    | nil => exact ⟨Nat.le_refl 0,.inl rfl⟩
    | cons c sql ih =>
      by_cases feed : c = '\n'
      · subst feed
        exact ⟨Nat.le_succ _,.inl (tokens_skip rfl).symm⟩
      · by_cases stop : c = Sqlite.nul
        · subst stop
          have short := ((List.drop_suffix 1 _).trans (List.dropWhile_suffix (l := Sqlite.nul :: sql) (· ≠ '\n'))).length_le
          exact ⟨short,.inr rfl⟩
        · rw [List.dropWhile_cons_of_pos (by simp only [ne_eq,feed,not_false_eq_true,decide_true]),
            List.dropWhile_cons_of_pos (by simp only [ne_eq,stop,feed,not_false_eq_true,decide_true,Bool.and_self])]
          exact ih
  have skipped : next isalnum ('-' :: '-' :: sql) = some (none,(sql.dropWhile (· ≠ '\n')).drop 1) := rfl
  exact steps_hidden (.inr rfl) (tokens_skip skipped) ends.1 ends.2

theorem block_end (body : List Char) : (afterBlock body).length ≤ (Sqlite.blockEnd body).length ∧
    (afterBlock body = Sqlite.blockEnd body ∨ Sqlite.next (Sqlite.blockEnd body) = none) := by
  fun_induction Sqlite.blockEnd body with
  | case1 => exact ⟨Nat.le_refl 0,.inl rfl⟩
  | case2 rest => exact ⟨(afterBlock_suffix _).length_le,.inr rfl⟩
  | case3 c rest _ closes =>
    obtain ⟨rfl,slash⟩ := closes
    obtain ⟨more,rfl⟩ := List.head?_eq_some_iff.mp slash
    exact ⟨Nat.le_refl _,.inl rfl⟩
  | case4 c rest _ other ih =>
    have same : afterBlock (c :: rest) = afterBlock rest := by
      rw [afterBlock]
      rintro more rfl rfl
      exact other ⟨rfl,rfl⟩
    rw [same]
    exact ih

theorem steps_block : Steps isalnum ⟨.comment,'/' :: '*' :: sql,Sqlite.blockEnd sql⟩ := by
  have skipped : next isalnum ('/' :: '*' :: sql) = some (none,afterBlock sql) := rfl
  obtain ⟨short,same⟩ := block_end sql
  exact steps_hidden (.inr rfl) (tokens_skip skipped) short (same.imp_left fun here => by rw [here])

/-- Behind the letter of a blob both read what follows the blob. -/
theorem tokens_blob (read : Sqlite.next sql = some (.blob,rest)) : tokens isalnum sql.tail = tokens isalnum rest := by
  cases Sqlite.read_of_next read with
  | blob cross hex =>
    refine tokens_literal fun c member => ?_
    rintro rfl
    cases hex _ member

theorem steps_blob (laws : AlnumLaws isalnum) (read : Sqlite.next sql = some (.blob,rest)) : Steps isalnum ⟨.blob,sql,rest⟩ := by
  have skipped : tokens isalnum sql.tail = tokens isalnum rest := tokens_blob read
  cases Sqlite.read_of_next read with
  | @blob x digits after cross hex =>
    have letter : isWord isalnum x = true := by
      rcases cross with rfl | rfl <;> rw [isWord,laws.ascii _ (by decide)] <;> rfl
    have quote : isWord isalnum '\'' = false := not_word laws (by decide) (by decide) (by decide)
    have first : next isalnum (x :: '\'' :: (digits ++ '\'' :: rest)) = _ := next_word laws letter
    rw [List.takeWhile_cons_of_pos letter,List.dropWhile_cons_of_pos letter,List.dropWhile_cons_of_neg (Bool.eq_false_iff.mp quote)] at first
    refine steps_inStep (fun _ _ => Sqlite.Kind.noConfusion) (not_hidden rfl) ?_
    refine ⟨[_],(tokens_read first).trans (congrArg (_ :: ·) skipped),fun token member => ?_⟩
    rw [List.mem_singleton.mp member]
    refine ⟨Nat.le_refl _,?_⟩
    simp only [List.length_cons,List.length_append]
    omega

theorem startsName_of_isWord (laws : AlnumLaws isalnum) (word : isWord isalnum c = true) (letter : c.isDigit = false) :
    Sqlite.startsName c = true := by
  rcases Bool.or_eq_true_iff.mp word with alnum | line
  · by_cases ascii : c.toNat < 128
    · rw [laws.ascii c ascii,Char.isAlphanum,letter,Bool.or_false] at alnum
      rw [Sqlite.startsName,alnum]
      rfl
    · have other : c ≠ Sqlite.mark := by
        rintro rfl
        rw [laws.mark] at alnum
        cases alnum
      rw [Sqlite.startsName,decide_eq_true (by omega : 128 ≤ c.toNat),decide_eq_true other]
      exact Bool.or_true _
  · rw [Sqlite.startsName,line,Bool.or_true]
    rfl

theorem isWord_of_isDigit (laws : AlnumLaws isalnum) (digit : c.isDigit = true) : isWord isalnum c = true := by
  have high : c.toNat ≤ 57 := (Char.isDigit_iff_toNat.mp digit).2
  rw [isWord,laws.ascii c (by omega),Char.isAlphanum,digit,Bool.or_true]
  rfl

/-- SQLite reads a blob or a bare name where a letter stands. -/
theorem read_letter (laws : AlnumLaws isalnum) (word : isWord isalnum c = true) (starts : Sqlite.startsName c = true)
    (read : Sqlite.Read (c :: rest) kind after) : kind = .blob ∨ ∃ text, kind = .name .bare (c :: text) := by
  cases read with
  | space blank =>
    exact absurd (isSpace_of_space (Bool.and_eq_true_iff.mp blank).1) (not_isSpace laws word)
  | blob => exact .inl rfl
  | bare => exact .inr ⟨_,rfl⟩
  | parameter sigil =>
    rw [starts] at sigil
    cases sigil
  | other first =>
    rw [starts] at first
    cases first
  | _ => cases starts

/-- The digits of a numbered parameter, and the letter of a blob that may follow them, are one word. -/
theorem steps_numbered (laws : AlnumLaws isalnum) (digit : sql.head?.any Char.isDigit = true)
    (apart : ∀ c text after, Sqlite.next (sql.dropWhile Char.isDigit) = some (.name .bare (c :: text),after) → isWord isalnum c = false) :
    Steps isalnum ⟨.numbered,'?' :: sql,sql.dropWhile Char.isDigit⟩ := by
  have sigil : next isalnum ('?' :: sql) = some (some ['?'],sql) :=
    next_symbol (not_word laws (by decide) (by decide) (by decide)) (Sqlite.Quiet.not_opens (by decide) sql)
  have inside := List.dropWhile_suffix (l := sql) Char.isDigit
  have calm : Sqlite.Calm ('?' :: sql) (sql.dropWhile Char.isDigit) :=
    (Sqlite.calm_cons (Sqlite.Quiet.not_opens (by decide) sql)).trans (List.suffix_cons '?' sql)
      (Sqlite.calm_dropWhile (fun c => Sqlite.quiet_digit) sql)
  by_cases head : ∀ c, (sql.dropWhile Char.isDigit).head? = some c → isWord isalnum c = false
  · exact steps_inStep (fun _ _ => Sqlite.Kind.noConfusion) (not_hidden rfl)
      (inStep_calm laws (inside.trans (List.suffix_cons '?' sql)) calm head)
  · simp only [not_forall,Bool.not_eq_false] at head
    obtain ⟨c,here,word⟩ := head
    have letter := Sqlite.dropWhile_head Char.isDigit sql c here
    obtain ⟨more,left⟩ := List.head?_eq_some_iff.mp here
    have starts := startsName_of_isWord laws word letter
    have shown {later : List (Piece Char (List Char))} (places : tokens isalnum sql = later)
        (follows : Follows isalnum (sql.dropWhile Char.isDigit) later) :
        Steps isalnum ⟨.numbered,'?' :: sql,sql.dropWhile Char.isDigit⟩ := by
      refine ⟨[⟨['?'],'?' :: sql,sql⟩],later,(tokens_read sigil).trans (congrArg (_ :: ·) places),fun token member => ?_,
        fun name named => ?_,fun hidden => absurd hidden (not_hidden rfl),follows⟩
      · rw [List.mem_singleton.mp member]
        exact inside.length_le
      · cases named
    cases read : Sqlite.next (sql.dropWhile Char.isDigit) with
    | none =>
      refine shown rfl (.idle fun piece member => ?_)
      rw [pieces_stop read] at member
      cases member
    | some found =>
      obtain ⟨kind,after⟩ := found
      have form := Sqlite.read_of_next read
      rw [left] at form
      rcases read_letter laws word starts form with rfl | ⟨text,rfl⟩
      · have ends : sql.dropWhile (isWord isalnum) = (sql.dropWhile Char.isDigit).tail := by
          have split := List.takeWhile_append_dropWhile (p := Char.isDigit) (l := sql)
          have digits : ∀ d ∈ sql.takeWhile Char.isDigit, isWord isalnum d = true := fun d member =>
            isWord_of_isDigit laws (List.all_eq_true.mp List.all_takeWhile d member)
          rw [← split,List.dropWhile_append_of_pos digits,split,left,List.dropWhile_cons_of_pos word,List.tail_cons]
          cases form with
          | blob => exact List.dropWhile_cons_of_neg (Bool.eq_false_iff.mp (not_word laws (by decide) (by decide) (by decide)))
        cases sql with
        | nil => cases digit
        | cons d sql =>
          have first : next isalnum (d :: sql) = _ := next_word laws (isWord_of_isDigit laws digit)
          have places := tokens_read first
          rw [ends] at places
          exact shown places (.glued read rfl)
      · rw [apart c text after read] at word
        cases word

/-- The text ends within what is no comment yet. -/
theorem steps_slashed (ends : sql.head?.all (· = Sqlite.nul) = true) : Steps isalnum ⟨.other,'/' :: '*' :: sql,'*' :: sql⟩ := by
  have star : Sqlite.next ('*' :: sql) = some (.other,sql) := rfl
  have stop : Sqlite.next sql = none := by
    cases sql with
    | nil => rfl
    | cons c rest =>
      rw [of_decide_eq_true ends]
      exact next_nul rest
  refine ⟨[],tokens isalnum ('/' :: '*' :: sql),rfl,fun _ none_ => absurd none_ List.not_mem_nil,fun name named => ?_,
    fun hidden => absurd hidden (not_hidden rfl),.idle fun piece member => ?_⟩
  · cases named
  · dsimp only at member
    rw [pieces_read Sqlite.consumes star,pieces_stop stop,List.mem_singleton] at member
    rw [member]

/-- Every piece of SQLite's is passed in step where it is plain, unopened and apart. -/
theorem steps_next (laws : AlnumLaws isalnum) (read : Sqlite.next sql = some (kind,rest))
    (plain : ∀ quote text, kind = .name quote text → quote ≠ .double → Plain isalnum text)
    (unopened : kind = .parameter → Sqlite.Calm sql rest)
    (apart : ∀ c text after, kind = .numbered → Sqlite.next rest = some (.name .bare (c :: text),after) → isWord isalnum c = false) :
    Steps isalnum ⟨kind,sql,rest⟩ := by
  have suffix := Sqlite.consumes.suffix read
  cases Sqlite.read_of_next read with
  | space blank =>
    refine steps_inStep (fun _ _ => Sqlite.Kind.noConfusion) (not_hidden rfl) ⟨[],?_,fun _ none_ => absurd none_ List.not_mem_nil⟩
    rw [tokens_skip (next_space (isSpace_of_space (Bool.and_eq_true_iff.mp blank).1)),tokens_dropWhile fun c => isSpace_of_space]
    rfl
  | mark =>
    have other : isWord isalnum Sqlite.mark = false := by
      rw [isWord,laws.mark]
      rfl
    exact steps_inStep (fun _ _ => Sqlite.Kind.noConfusion) (not_hidden rfl)
      (inStep_next (next_symbol other (Sqlite.Quiet.not_opens (by decide) rest)))
  | line => exact steps_line
  | block => exact steps_block
  | slashed ends => exact steps_slashed ends
  | literal closed => exact steps_literal closed
  | unclosed opened => exact steps_hidden (.inl rfl) (tokens_skip next_quote) (readQuoted_open opened) (.inr (stops_dropWhile _))
  | double closed => exact steps_double closed
  | backtick closed => exact steps_backtick laws closed (plain _ _ rfl Sqlite.Quote.noConfusion)
  | bracket => exact steps_enclosed laws (.inl rfl) (.inr (.inl rfl)) (plain _ _ rfl Sqlite.Quote.noConfusion)
  | numbered digit => exact steps_numbered laws digit fun c text after => apart c text after rfl
  | parameter _ _ edge =>
    exact steps_inStep (fun _ _ => Sqlite.Kind.noConfusion) (not_hidden rfl) (inStep_edge laws suffix (unopened rfl) edge)
  | blob => exact steps_blob laws read
  | bare starts => exact steps_bare laws starts (plain _ _ rfl Sqlite.Quote.noConfusion)
  | other _ _ calm edge =>
    exact steps_inStep (fun _ _ => Sqlite.Kind.noConfusion) (not_hidden rfl) (inStep_edge laws suffix calm edge)

theorem agrees_idle {later : List (Piece Char (List Char))} {pieces : List (Piece Char Sqlite.Kind)}
    (others : ∀ piece ∈ pieces, piece.value = .other) : Agrees later pieces := by
  constructor
  · refine ⟨[],List.nil_sublist _,?_⟩
    have unnamed : pieces.filterMap name? = [] := by
      rw [List.filterMap_eq_nil_iff]
      intro piece member
      rw [name?,others piece member]
    rw [unnamed]
    exact .nil
  · intro token _ piece member hidden
    rw [others piece member] at hidden
    exact absurd hidden (not_hidden rfl)

variable {within later : List (Piece Char (List Char))} {others : List (Piece Char Sqlite.Kind)}

theorem agrees_cons (round : Round isalnum piece within later) (agrees : Agrees later others)
    (inside : ∀ other ∈ others, other.before.length ≤ piece.after.length) : Agrees (within ++ later) (piece :: others) := by
  obtain ⟨picked,sub,reads⟩ := agrees.names
  constructor
  · cases named : name? piece with
    | none =>
      rw [List.filterMap_cons_none named]
      exact ⟨picked,sub.trans (List.sublist_append_right within later),reads⟩
    | some name =>
      obtain ⟨token,member,here⟩ := round.name name named
      rw [List.filterMap_cons_some named]
      exact ⟨[token] ++ picked,(List.singleton_sublist.mpr member).append sub,.cons here reads⟩
  · intro token member other among hidden
    rcases List.mem_cons.mp among with rfl | rest
    · obtain ⟨rfl,past⟩ := round.hidden hidden
      exact .inr (past token member)
    · rcases List.mem_append.mp member with early | late
      · exact .inl ((inside other rest).trans (round.past token early))
      · exact agrees.hidden token late other rest hidden

theorem agrees_of_follows (laws : AlnumLaws isalnum) (sql : List Char) : ∀ later, Follows isalnum sql later →
    Readable isalnum (pieces Sqlite.next sql) → Unopened (pieces Sqlite.next sql) → Agrees later (pieces Sqlite.next sql) := by
  induction sql using rounds Sqlite.consumes with
  | stop sql stops =>
    intro later _ _ _
    rw [pieces_stop stops]
    exact agrees_idle fun _ none_ => absurd none_ List.not_mem_nil
  | round sql kind rest read ih =>
    intro later follows readable unopened
    have split := pieces_read Sqlite.consumes read
    have inside : ∀ other ∈ pieces Sqlite.next rest, other.before.length ≤ rest.length := fun other member =>
      (of_mem_pieces Sqlite.consumes member).1.length_le
    rw [split] at readable unopened ⊢
    have rest_readable : Readable isalnum (pieces Sqlite.next rest) :=
      ⟨fun piece member => readable.plain piece (List.mem_cons_of_mem _ member),readable.apart.tail⟩
    have rest_unopened : Unopened (pieces Sqlite.next rest) := fun piece member => unopened piece (List.mem_cons_of_mem _ member)
    have goesOn {within later : List (Piece Char (List Char))} (round : Round isalnum ⟨kind,sql,rest⟩ within later) :
        Agrees (within ++ later) (⟨kind,sql,rest⟩ :: pieces Sqlite.next rest) :=
      agrees_cons round (ih later round.follows rest_readable rest_unopened) inside
    cases follows with
    | same =>
      obtain ⟨within,later,here,round⟩ := steps_next laws read (readable.plain _ List.mem_cons_self)
        (unopened _ List.mem_cons_self) fun c text after numbered named => by
          rw [pieces_read Sqlite.consumes named] at readable
          have apart := readable.apart.rel_head? rfl
          by_contra word
          exact apart ⟨numbered,c,text,rfl,Bool.not_eq_false _ ▸ word⟩
      rw [here]
      exact goesOn round
    | @glued token _ blob ends =>
      rw [read] at blob
      cases blob
      rw [tokens_blob read]
      have round : Round isalnum ⟨.blob,sql,rest⟩ [token] (tokens isalnum rest) := by
        refine ⟨fun other member => ?_,fun name named => ?_,fun hidden => absurd hidden (not_hidden rfl),.same⟩
        · have shorter := Sqlite.consumes.shorter read
          rw [List.mem_singleton.mp member,ends,List.length_tail]
          dsimp only
          omega
        · cases named
      exact goesOn round
    | idle others =>
      rw [split] at others
      exact agrees_idle others

/-! What has to hold -/

theorem count_readQuoted (quote : Char) (text : List Char) :
    (readQuoted quote text).1.count quote + (readQuoted quote text).2.count quote ≤ text.count quote := by
  fun_induction readQuoted quote text with
  | case1 => exact Nat.le_refl 0
  | case2 => exact Nat.zero_le _
  | case3 => exact Nat.le_refl _
  | case4 rest inner after found ih =>
    rw [found] at ih
    simp only [List.count_cons_self] at ih ⊢
    omega
  | case5 d rest =>
    simp only [List.count_nil,List.count_cons_self]
    omega
  | case6 c d rest other inner after found ih =>
    rw [found] at ih
    rw [List.count_cons_of_ne other,List.count_cons_of_ne other]
    exact ih

/-- A token is plain and what was read, or has fewer double quotes than what was read. -/
theorem text_of_next (read : next isalnum sql = some (some text,rest)) :
    Plain isalnum text ∧ sql = text ++ rest ∨ text.count '"' + rest.count '"' < sql.count '"' := by
  cases sql with
  | nil => cases read
  | cons c sql =>
  simp only [next] at read
  split at read
  · cases read
  rename_i solid
  split at read
  · cases read
  split at read
  · cases read
  split at read
  · rename_i quote
    cases read
    subst quote
    have count := count_readQuoted '"' sql
    right
    rw [List.count_cons_self]
    omega
  split at read
  · cases read
  rename_i double single
  have alone : Plain isalnum [c] := .inr ⟨c,rfl,Bool.eq_false_iff.mpr solid,double,single⟩
  split at read
  · cases read
    exact .inl ⟨alone,rfl⟩
  split at read
  · cases read
    exact .inl ⟨alone,rfl⟩
  split at read
  · rename_i word
    cases read
    refine .inl ⟨.inl ⟨?_,List.all_eq_true.mp List.all_takeWhile⟩,List.takeWhile_append_dropWhile.symm⟩
    rw [List.takeWhile_cons_of_pos word]
    exact List.cons_ne_nil _ _
  · cases read
    exact .inl ⟨alone,rfl⟩

theorem count_doubled {delim quote : Char} (other : delim ≠ quote) (text : List Char) :
    (Sqlite.doubled delim text).count quote = text.count quote := by
  induction text with
  | nil => rfl
  | cons c text ih =>
    rw [Sqlite.doubled,List.flatMap_cons,List.count_append]
    change _ + (Sqlite.doubled delim text).count quote = _
    rw [ih]
    by_cases here : c = delim
    · subst here
      rw [if_pos rfl,List.count_cons_of_ne other,List.count_cons_of_ne other,List.count_cons_of_ne other]
      exact Nat.zero_add _
    · rw [if_neg here,List.count_cons,List.count_cons,List.count_nil]
      omega

theorem count_name (read : Sqlite.next sql = some (.name quote text,rest)) (other : quote ≠ .double) :
    sql.count '"' = text.count '"' + rest.count '"' := by
  cases Sqlite.read_of_next read with
  | double => exact absurd rfl other
  | backtick closed =>
    rw [Sqlite.quoted_split closed,List.count_cons_of_ne (by decide),List.count_append,count_doubled (by decide),
      List.count_cons_of_ne (by decide)]
  | bracket =>
    rw [List.count_cons_of_ne (by decide),List.count_append,List.count_cons_of_ne (by decide)]
  | bare starts =>
    rw [← List.count_append,List.cons_append,List.takeWhile_append_dropWhile]

theorem mem_of_forall₂ {picked names : List (Piece Char (List Char))} (reads : List.Forall₂ Reads picked names)
    {name : Piece Char (List Char)} (member : name ∈ names) : ∃ token ∈ picked, Reads token name := by
  induction reads with
  | nil => cases member
  | cons here _ ih =>
    rcases List.mem_cons.mp member with rfl | later
    · exact ⟨_,List.mem_cons_self,here⟩
    · obtain ⟨token,there,reads⟩ := ih later
      exact ⟨token,List.mem_cons_of_mem _ there,reads⟩

/-- The token that reads a name is plain, what was read, and within the name, where that is not in double quotes. -/
theorem token_of_name (agrees : Agrees (tokens isalnum sql) (pieces Sqlite.next sql)) (member : piece ∈ pieces Sqlite.next sql) (named : piece.value = .name quote text) (other : quote ≠ .double) :
    ∃ token ∈ tokens isalnum sql, token.Inside piece ∧ Plain isalnum text ∧ token.before = text ++ token.after := by
  obtain ⟨picked,sub,reads⟩ := agrees.names
  have listed : (⟨text,piece.before,piece.after⟩ : Piece Char (List Char)) ∈ (pieces Sqlite.next sql).filterMap name? :=
    List.mem_filterMap.mpr ⟨piece,member,by rw [name?,named]⟩
  obtain ⟨token,chosen,value,inside⟩ := mem_of_forall₂ reads listed
  have known := sub.subset chosen
  obtain ⟨start,read⟩ := of_mem_tokens known
  obtain ⟨begins,name⟩ := of_mem_pieces Sqlite.consumes member
  refine ⟨token,known,inside,?_⟩
  change token.value = text at value
  rw [named] at name
  rw [value] at read
  rcases text_of_next read with plain | fewer
  · exact plain
  · have whole := count_name name other
    have front := (List.suffix_of_suffix_length_le start begins inside.1).sublist.count_le '"'
    have back := (List.suffix_of_suffix_length_le ((Sqlite.consumes.suffix name).trans begins)
      ((consumes.suffix read).trans start) inside.2).sublist.count_le '"'
    omega

/-- No token begins within a word. -/
theorem token_edge (laws : AlnumLaws isalnum) {d : Char} {more : List Char} (inside : d :: c :: more <:+ sql)
    (first : isWord isalnum d = true) (second : isWord isalnum c = true) : ∀ token ∈ tokens isalnum sql, token.before ≠ c :: more := by
  intro token member here
  obtain ⟨found,read,made⟩ := List.mem_filterMap.mp member
  obtain ⟨_,_,rfl⟩ := Option.map_eq_some_iff.mp made
  dsimp only at here
  rcases before_of_mem consumes read with whole | ⟨earlier,among,ends⟩
  · have short := inside.length_le
    rw [← whole,here,List.length_cons] at short
    omega
  · obtain ⟨begins,round⟩ := of_mem_pieces consumes among
    rw [ends,here] at round
    rcases next_edge laws round with head | ⟨e,symbol,last⟩
    · rw [head c rfl] at second
      cases second
    · have same := (List.suffix_of_suffix_length_le (last.trans begins) inside (Nat.le_refl _)).eq_of_length rfl
      rw [(List.cons.inj same).1,first] at symbol
      cases symbol

theorem digit_before (digit : sql.head?.any Char.isDigit = true) :
    ∃ d, d.isDigit = true ∧ d :: sql.dropWhile Char.isDigit <:+ sql := by
  induction sql with
  | nil => cases digit
  | cons c sql ih =>
    have here : c.isDigit = true := digit
    rw [List.dropWhile_cons_of_pos here]
    by_cases more : sql.head?.any Char.isDigit = true
    · obtain ⟨d,numeral,inside⟩ := ih more
      exact ⟨d,numeral,inside.trans (List.suffix_cons c sql)⟩
    · refine ⟨c,here,?_⟩
      cases sql with
      | nil => exact List.suffix_refl _
      | cons d sql =>
        rw [List.dropWhile_cons_of_neg (by exact more)]

theorem numbered_digit (read : Sqlite.next sql = some (.numbered,rest)) : ∃ d, d.isDigit = true ∧ d :: rest <:+ sql := by
  cases Sqlite.read_of_next read with
  | numbered digit =>
    obtain ⟨d,numeral,inside⟩ := digit_before digit
    exact ⟨d,numeral,inside.trans (List.suffix_cons _ _)⟩

theorem bare_split (read : Sqlite.next sql = some (.name .bare text,rest)) : sql = text ++ rest := by
  cases Sqlite.read_of_next read with
  | bare => rw [List.cons_append,List.takeWhile_append_dropWhile]

theorem readable_of_agrees (laws : AlnumLaws isalnum) (agrees : Agrees (tokens isalnum sql) (pieces Sqlite.next sql)) :
    Readable isalnum (pieces Sqlite.next sql) := by
  constructor
  · intro piece member quote text named other
    obtain ⟨token,-,-,plain,-⟩ := token_of_name agrees member named other
    exact plain
  · refine pieces_isChain Sqlite.consumes sql fun first here second there adjacent glued => ?_
    obtain ⟨numbered,c,text,named,word⟩ := glued
    obtain ⟨token,known,inside,-,taken⟩ := token_of_name agrees there named Sqlite.Quote.noConfusion
    obtain ⟨begins,read⟩ := of_mem_pieces Sqlite.consumes here
    obtain ⟨starts,name⟩ := of_mem_pieces Sqlite.consumes there
    rw [numbered] at read
    rw [named] at name
    obtain ⟨d,digit,last⟩ := numbered_digit read
    have whole := bare_split name
    have same : token.before = second.before := by
      have short := congrArg List.length taken
      have long := congrArg List.length whole
      rw [List.length_append] at short long
      obtain ⟨after,before⟩ := inside
      exact (List.suffix_of_suffix_length_le (of_mem_tokens known).1 starts after).eq_of_length (by omega)
    rw [adjacent,whole] at last
    exact token_edge laws (last.trans begins) (isWord_of_isDigit laws digit) word token known (same.trans whole)

theorem readable_of_faithful (laws : AlnumLaws isalnum) (faithful : Faithful isalnum sql) :
    Readable isalnum (pieces Sqlite.next sql) := by
  obtain ⟨found,read,agrees⟩ := faithful
  rw [places_length] at read
  obtain rfl := Option.some.inj read
  exact readable_of_agrees laws agrees

/-- The tokenizer ends on every text. Where the names that are not in double quotes are words or single characters, apart
from numbered parameters, and no suffix of a parameter opens a quote or comment, it reads what SQLite reads; and it does
so only where the names are such. -/
theorem faithful_of_readable (laws : AlnumLaws isalnum) (sql : List Char) :
    (Readable isalnum (pieces Sqlite.next sql) ∧ Unopened (pieces Sqlite.next sql) → Faithful isalnum sql) ∧
      (Faithful isalnum sql → Readable isalnum (pieces Sqlite.next sql)) :=
  ⟨fun ⟨readable,unopened⟩ => ⟨tokens isalnum sql,places_length sql,agrees_of_follows laws sql _ .same readable unopened⟩,
    readable_of_faithful laws⟩

/-- ASCII alone satisfies the laws. -/
theorem asciiLaws : AlnumLaws Char.isAlphanum where
  ascii := fun _ _ => rfl
  space := by
    intro c space
    have range : c.toNat < 48 ∨ 122 < c.toNat := by
      simp only [isSpace,Bool.or_eq_true,Bool.and_eq_true,decide_eq_true_eq,beq_iff_eq] at space
      omega
    by_contra alnum
    rcases Bool.or_eq_true_iff.mp (Bool.not_eq_false _ ▸ alnum) with letter | digit
    · have bounds := Scanner.isAlpha_iff.mp letter
      omega
    · obtain ⟨low,high⟩ := Char.isDigit_iff_toNat.mp digit
      change 48 ≤ c.toNat at low
      change c.toNat ≤ 57 at high
      omega
  mark := rfl

/-- A statement of bare words, a quoted name, a literal and a comment. -/
def statement : List Char := "SELECT \"a b\", 'it''s' FROM t -- x".toList

theorem faithful_of_readable_statement : Faithful Char.isAlphanum statement := by
  have words : (pieces Sqlite.next statement).all (fun piece =>
      match piece.value with
      | .name .double _ => true
      | .name _ text => !text.isEmpty && text.all (isWord Char.isAlphanum)
      | .numbered | .parameter => false
      | _ => true) = true := by decide
  rw [List.all_eq_true] at words
  refine (faithful_of_readable asciiLaws statement).1 ⟨⟨fun piece member quote text named other => ?_,?_⟩,fun piece member value => ?_⟩
  · have here := words piece member
    rw [named] at here
    have filled : (!text.isEmpty && text.all (isWord Char.isAlphanum)) = true := by
      cases quote with
      | double => exact absurd rfl other
      | bare | backtick | bracket => exact here
    obtain ⟨nonempty,all⟩ := Bool.and_eq_true_iff.mp filled
    exact .inl ⟨by simpa using nonempty,List.all_eq_true.mp all⟩
  · refine pieces_isChain Sqlite.consumes statement fun first inside second _ _ glued => ?_
    have here := words first inside
    rw [glued.1] at here
    cases here
  · have here := words piece member
    rw [value] at here
    cases here

/-- A quote in a bracketed name is read as the beginning of a literal, and hides every name behind it. -/
def concealed : List Char := "SELECT 1 AS [it's] FROM secret --'".toList

example : tokenizeSql Char.isAlphanum concealed.length concealed =
    some ["SELECT".toList,"1".toList,"AS".toList,"[".toList,"it".toList] := by decide

theorem not_faithful_bracket : ¬Faithful Char.isAlphanum concealed := by
  intro faithful
  obtain ⟨piece,member,named⟩ : ∃ piece ∈ pieces Sqlite.next concealed, piece.value = .name .bracket "it's".toList := by decide
  rcases (readable_of_faithful asciiLaws faithful).plain piece member _ _ named Sqlite.Quote.noConfusion with ⟨-,words⟩ | ⟨c,single,-⟩
  · exact absurd (words '\'' (by decide)) (by decide)
  · cases single

end Vigile.SqlTokenizer
