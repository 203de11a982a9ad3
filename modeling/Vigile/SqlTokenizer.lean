import Vigile.Python
import Vigile.SqliteLexer

/-! The tokens of an SQL text, as the table-access check of a plugin reads them. -/
namespace Vigile.SqlTokenizer

open Scanner
open Python (isSpace)

variable (isalnum : Char → Bool)

def isWord (c : Char) : Bool := isalnum c || c = '_'

/-- A quoted text up to its closing quote, two of which stand for one, or to the end, and what follows. -/
def readQuoted (quote : Char) : List Char → List Char × List Char
  | [] => ([],[])
  | [c] => if c = quote then ([],[]) else ([c],[])
  | c :: d :: rest =>
    if c = quote then
      if d = quote then
        let (text,after) := readQuoted quote rest
        (quote :: text,after)
      else ([],d :: rest)
    else
      let (text,after) := readQuoted quote (d :: rest)
      (c :: text,after)

/-- What follows the next `*/`, if there is one. -/
def afterBlock : List Char → List Char
  | '*' :: '/' :: rest => rest
  | _ :: rest => afterBlock rest
  | [] => []

/-- One round of the loop: a token, or what is skipped, and the rest. -/
def next (sql : List Char) : Option (Option (List Char) × List Char) :=
  match sql with
  | [] => none
  | c :: rest =>
    if isSpace c then some (none,rest)
    else if c = '-' ∧ rest.head? = some '-' then some (none,(sql.dropWhile (· ≠ '\n')).drop 1)
    else if c = '/' ∧ rest.head? = some '*' then some (none,afterBlock (rest.drop 1))
    else if c = '"' then
      let (buf,after) := readQuoted c rest
      some (some buf,after)
    else if c = '\'' then some (none,(readQuoted c rest).2)
    else if c = ';' then some (some [c],rest)
    else if c ∈ ['(',')',',','.'] then some (some [c],rest)
    else if isWord isalnum c then some (some (sql.takeWhile (isWord isalnum)),sql.dropWhile (isWord isalnum))
    else some (some [c],rest)

def token? (piece : Piece Char (Option (List Char))) : Option (Piece Char (List Char)) :=
  piece.value.map fun text => ⟨text,piece.before,piece.after⟩

/-- The tokens with their places, if the loop ends in as many rounds as there is fuel. -/
def places (fuel : Nat) (sql : List Char) : Option (List (Piece Char (List Char))) :=
  (scan (next isalnum) fuel sql).map fun pieces => pieces.filterMap token?

def tokenizeSql (fuel : Nat) (sql : List Char) : Option (List (List Char)) :=
  (places isalnum fuel sql).map fun tokens => tokens.map Piece.value

/-- `str.isalnum` of one character: ASCII, and no space and no byte order mark is one. -/
structure AlnumLaws (isalnum : Char → Bool) : Prop where
  ascii : ∀ c, c.toNat < 128 → isalnum c = c.isAlphanum
  space : ∀ c, isSpace c = true → isalnum c = false
  mark : isalnum Sqlite.mark = false

variable {isalnum} {c : Char} {sql text rest : List Char} {value : Option (List Char)}

theorem readQuoted_suffix (quote : Char) (text : List Char) : (readQuoted quote text).2 <:+ text := by
  fun_induction readQuoted quote text with
  | case1 => exact List.suffix_refl []
  | case2 | case3 => exact List.nil_suffix
  | case4 rest _ _ found ih =>
    rw [found] at ih
    exact ih.trans (List.suffix_append [quote,quote] rest)
  | case5 d rest => exact List.suffix_cons quote (d :: rest)
  | case6 c d rest _ _ _ found ih =>
    rw [found] at ih
    exact ih.trans (List.suffix_cons c (d :: rest))

theorem afterBlock_suffix (text : List Char) : afterBlock text <:+ text := by
  fun_induction afterBlock text with
  | case1 rest => exact List.suffix_append ['*','/'] rest
  | case2 c rest _ ih => exact ih.trans (List.suffix_cons c rest)
  | case3 => exact List.suffix_refl []

/-- Each round takes the first character. -/
theorem next_suffix (read : next isalnum (c :: text) = some (value,rest)) : rest <:+ text := by
  simp only [next] at read
  split at read
  · cases read
    exact List.suffix_refl text
  split at read
  · rename_i line
    cases read
    rw [line.1,List.dropWhile_cons_of_pos (by decide)]
    exact (List.drop_suffix 1 _).trans (List.dropWhile_suffix _)
  split at read
  · cases read
    exact (afterBlock_suffix _).trans (List.drop_suffix 1 text)
  split at read
  · cases read
    exact readQuoted_suffix c text
  split at read
  · cases read
    exact readQuoted_suffix c text
  split at read
  · cases read
    exact List.suffix_refl text
  split at read
  · cases read
    exact List.suffix_refl text
  split at read
  · rename_i word
    cases read
    rw [List.dropWhile_cons_of_pos word]
    exact List.dropWhile_suffix _
  · cases read
    exact List.suffix_refl text

theorem consumes : Consumes (next isalnum) := by
  intro sql value rest read
  cases sql with
  | nil => cases read
  | cons c text =>
    obtain ⟨taken,rfl⟩ := next_suffix read
    exact ⟨c :: taken,List.cons_ne_nil c taken,rfl⟩

def tokens (isalnum : Char → Bool) (sql : List Char) : List (Piece Char (List Char)) := (pieces (next isalnum) sql).filterMap token?

theorem places_length (sql : List Char) : places isalnum sql.length sql = some (tokens isalnum sql) := by
  rw [places,scan_pieces consumes]
  rfl

theorem tokens_skip (read : next isalnum sql = some (none,rest)) : tokens isalnum sql = tokens isalnum rest := by
  rw [tokens,pieces_read consumes read]
  rfl

theorem tokens_read (read : next isalnum sql = some (some text,rest)) :
    tokens isalnum sql = ⟨text,sql,rest⟩ :: tokens isalnum rest := by
  rw [tokens,pieces_read consumes read]
  rfl

theorem of_mem_tokens {token : Piece Char (List Char)} (member : token ∈ tokens isalnum sql) :
    token.before <:+ sql ∧ next isalnum token.before = some (some token.value,token.after) := by
  obtain ⟨piece,inside,made⟩ := List.mem_filterMap.mp member
  obtain ⟨text,value,rfl⟩ := Option.map_eq_some_iff.mp made
  have read := of_mem_pieces consumes inside
  rw [value] at read
  exact read

theorem not_word (laws : AlnumLaws isalnum) (ascii : c.toNat < 128) (other : c.isAlphanum = false) (line : c ≠ '_') : isWord isalnum c = false := by
  rw [isWord,laws.ascii c ascii,other,decide_eq_false line]
  rfl

theorem isIdChar_of_isWord (laws : AlnumLaws isalnum) (word : isWord isalnum c = true) : Sqlite.isIdChar c = true := by
  by_cases ascii : c.toNat < 128
  · rw [isWord,laws.ascii c ascii] at word
    rw [Sqlite.isIdChar]
    rcases Bool.or_eq_true_iff.mp word with alnum | line
    · rw [alnum]
      rfl
    · rw [line,Bool.or_true]
      rfl
  · rw [Sqlite.isIdChar,decide_eq_true (by omega : 128 ≤ c.toNat),Bool.or_true]

theorem not_isWord (laws : AlnumLaws isalnum) (other : Sqlite.isIdChar c = false) : isWord isalnum c = false := by
  by_contra word
  rw [isIdChar_of_isWord laws (Bool.not_eq_false _ ▸ word)] at other
  cases other

theorem isSpace_of_space (space : Sqlite.isSpace c = true) : isSpace c = true := by
  have range : 9 ≤ c.toNat ∧ c.toNat ≤ 13 ∨ c.toNat = 32 := by
    rcases Bool.or_eq_true_iff.mp space with tab | blank
    · obtain ⟨low,high⟩ := Bool.and_eq_true_iff.mp tab
      exact .inl ⟨of_decide_eq_true low,of_decide_eq_true high⟩
    · rw [of_decide_eq_true blank]
      exact .inr rfl
  unfold isSpace
  dsimp only
  rcases range with ⟨low,high⟩ | same
  · rw [decide_eq_true low,decide_eq_true high]
    rfl
  · rw [same]
    rfl

theorem next_space (space : isSpace c = true) : next isalnum (c :: rest) = some (none,rest) := by
  rw [next,if_pos space]

theorem opens_line (dash : rest.head? = some '-') : Sqlite.Opens ('-' :: rest) := by
  obtain ⟨more,rfl⟩ := List.head?_eq_some_iff.mp dash
  exact .inr (.inr (.inl (List.prefix_append ['-','-'] more)))

theorem opens_block (star : rest.head? = some '*') : Sqlite.Opens ('/' :: rest) := by
  obtain ⟨more,rfl⟩ := List.head?_eq_some_iff.mp star
  exact .inr (.inr (.inr (List.prefix_append ['/','*'] more)))

theorem not_isSpace (laws : AlnumLaws isalnum) (word : isWord isalnum c = true) : ¬isSpace c = true := by
  intro space
  rcases Bool.or_eq_true_iff.mp word with alnum | line
  · rw [laws.space c space] at alnum
    cases alnum
  · rw [of_decide_eq_true line] at space
    cases space

/-- A word is taken whole. -/
theorem next_word (laws : AlnumLaws isalnum) (word : isWord isalnum c = true) : next isalnum (c :: rest) =
    some (some ((c :: rest).takeWhile (isWord isalnum)),(c :: rest).dropWhile (isWord isalnum)) := by
  have solid := not_isSpace laws word
  have other {d : Char} (ascii : d.toNat < 128) (symbol : d.isAlphanum = false) (line : d ≠ '_') : c ≠ d := by
    rintro rfl
    rw [not_word laws ascii symbol line] at word
    cases word
  have points : c ∉ ['(',')',',','.'] := by
    simp only [List.mem_cons,List.not_mem_nil,or_false,not_or]
    exact ⟨other (by decide) rfl (by decide),other (by decide) rfl (by decide),other (by decide) rfl (by decide),
      other (by decide) rfl (by decide)⟩
  rw [next,if_neg solid,if_neg fun line => other (by decide) rfl (by decide) line.1,
    if_neg fun block => other (by decide) rfl (by decide) block.1,if_neg (other (by decide) rfl (by decide)),
    if_neg (other (by decide) rfl (by decide)),if_neg (other (by decide) rfl (by decide)),if_neg points,if_pos word]

/-- What is no letter, and opens nothing, is taken alone. -/
theorem next_symbol (other : isWord isalnum c = false) (shut : ¬Sqlite.Opens (c :: rest)) :
    next isalnum (c :: rest) = some (if isSpace c then none else some [c],rest) := by
  by_cases space : isSpace c = true
  · rw [next_space space,if_pos space]
  have line : ¬(c = '-' ∧ rest.head? = some '-') := fun ⟨dash,head⟩ => shut (dash ▸ opens_line head)
  have block : ¬(c = '/' ∧ rest.head? = some '*') := fun ⟨slash,head⟩ => shut (slash ▸ opens_block head)
  have double : c ≠ '"' := fun here => shut (.inl (congrArg some here))
  have single : c ≠ '\'' := fun here => shut (.inr (.inl (congrArg some here)))
  rw [next,if_neg space,if_neg line,if_neg block,if_neg double,if_neg single,if_neg space,if_neg (Bool.eq_false_iff.mp other)]
  simp only [ite_self]

theorem next_quote : next isalnum ('\'' :: rest) = some (none,(readQuoted '\'' rest).2) := rfl

theorem next_double : next isalnum ('"' :: rest) = some (some (readQuoted '"' rest).1,(readQuoted '"' rest).2) := rfl

/-- Spaces are skipped. -/
theorem tokens_dropWhile {p : Char → Bool} (spaces : ∀ c, p c = true → isSpace c = true) (text : List Char) :
    tokens isalnum (text.dropWhile p) = tokens isalnum text := by
  induction text with
  | nil => rfl
  | cons c text ih =>
    by_cases here : p c = true
    · rw [List.dropWhile_cons_of_pos here,ih,tokens_skip (next_space (spaces c here))]
    · rw [List.dropWhile_cons_of_neg here]

theorem readQuoted_append {quote : Char} {body : List Char} (solid : ∀ c ∈ body, c ≠ quote) (text : List Char) :
    (readQuoted quote (body ++ text)).2 = (readQuoted quote text).2 := by
  have single {c : Char} (other : c ≠ quote) (text : List Char) : (readQuoted quote (c :: text)).2 = (readQuoted quote text).2 := by
    cases text with
    | nil | cons d text => simp only [readQuoted,if_neg other]
  induction body with
  | nil => rfl
  | cons c body ih =>
    rw [List.cons_append,single (solid c List.mem_cons_self),ih fun d member => solid d (List.mem_cons_of_mem c member)]

/-- A literal that begins with the closing quote of another one ends where the two end together. -/
theorem tokens_literal {body after : List Char} (solid : ∀ c ∈ body, c ≠ '\'') :
    tokens isalnum ('\'' :: (body ++ '\'' :: after)) = tokens isalnum after := by
  rw [tokens_skip next_quote,readQuoted_append solid]
  cases after with
  | nil => rfl
  | cons c after =>
    by_cases quote : c = '\''
    · rw [quote,tokens_skip next_quote]
      simp only [readQuoted,if_true]
    · simp only [readQuoted,if_true,if_neg quote]

theorem readQuoted_last (quote : Char) (text : List Char) :
    (readQuoted quote text).2 = [] ∨ quote :: (readQuoted quote text).2 <:+ text := by
  fun_induction readQuoted quote text with
  | case1 | case2 | case3 => exact .inl rfl
  | case4 rest inner after found ih =>
    rw [found] at ih
    exact ih.imp_right fun inside => inside.trans (List.suffix_append [quote,quote] rest)
  | case5 d rest => exact .inr (List.suffix_refl _)
  | case6 c d rest other inner after found ih =>
    rw [found] at ih
    exact ih.imp_right fun inside => inside.trans (List.suffix_cons c (d :: rest))

theorem afterBlock_last (text : List Char) : afterBlock text = [] ∨ '/' :: afterBlock text <:+ text := by
  fun_induction afterBlock text with
  | case1 rest => exact .inr (List.suffix_cons '*' ('/' :: rest))
  | case2 c rest _ ih => exact ih.imp_right fun inside => inside.trans (List.suffix_cons c rest)
  | case3 => exact .inl rfl

/-- No word goes across the place where a round ends. -/
theorem next_edge (laws : AlnumLaws isalnum) (read : next isalnum sql = some (value,rest)) :
    (∀ c, rest.head? = some c → isWord isalnum c = false) ∨ ∃ c, isWord isalnum c = false ∧ c :: rest <:+ sql := by
  have nothing {rest : List Char} (empty : rest = []) : ∀ c, rest.head? = some c → isWord isalnum c = false := by
    rintro c head
    rw [empty] at head
    cases head
  cases sql with
  | nil => cases read
  | cons e sql =>
  simp only [next] at read
  split at read
  · rename_i space
    cases read
    exact .inr ⟨e,Bool.eq_false_iff.mpr fun word => not_isSpace laws word space,List.suffix_refl _⟩
  split at read
  · cases read
    cases left : (e :: sql).dropWhile (· ≠ '\n') with
    | nil => exact .inl (nothing rfl)
    | cons c more =>
      have feed := Sqlite.dropWhile_head (· ≠ '\n') (e :: sql) c (by rw [left]; rfl)
      refine .inr ⟨c,?_,left ▸ List.dropWhile_suffix _⟩
      rw [not_not.mp (of_decide_eq_false feed)]
      exact not_word laws (by decide) (by decide) (by decide)
  split at read
  · cases read
    rcases afterBlock_last (sql.drop 1) with empty | inside
    · exact .inl (nothing empty)
    · exact .inr ⟨'/',not_word laws (by decide) (by decide) (by decide),
        inside.trans ((List.drop_suffix 1 sql).trans (List.suffix_cons e sql))⟩
  have quoted (quote : Char) (symbol : isWord isalnum quote = false) :
      (∀ c, (readQuoted quote sql).2.head? = some c → isWord isalnum c = false) ∨
        ∃ c, isWord isalnum c = false ∧ c :: (readQuoted quote sql).2 <:+ e :: sql := by
    rcases readQuoted_last quote sql with empty | inside
    · exact .inl (nothing empty)
    · exact .inr ⟨quote,symbol,inside.trans (List.suffix_cons e sql)⟩
  split at read
  · rename_i quote
    cases read
    exact quoted e (quote ▸ not_word laws (by decide) (by decide) (by decide))
  split at read
  · rename_i quote
    cases read
    exact quoted e (quote ▸ not_word laws (by decide) (by decide) (by decide))
  split at read
  · rename_i symbol
    cases read
    exact .inr ⟨e,symbol ▸ not_word laws (by decide) (by decide) (by decide),List.suffix_refl _⟩
  split at read
  · rename_i symbol
    cases read
    refine .inr ⟨e,?_,List.suffix_refl _⟩
    have ascii := of_decide_eq_true (List.all_eq_true.mp
      (by decide : ['(',')',',','.'].all (fun d => d.toNat < 128 ∧ d.isAlphanum = false ∧ d ≠ '_') = true) e symbol)
    exact not_word laws ascii.1 ascii.2.1 ascii.2.2
  split at read
  · cases read
    exact .inl (Sqlite.dropWhile_head _ _)
  · rename_i symbol
    cases read
    exact .inr ⟨e,Bool.eq_false_iff.mpr symbol,List.suffix_refl _⟩

end Vigile.SqlTokenizer
