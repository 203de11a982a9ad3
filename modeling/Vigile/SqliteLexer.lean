import Vigile.Scanner

/-! The tokens SQLite reads in a text. The text ends at its first NUL, and the reading at the first token that is illegal. -/
namespace Sqlite

inductive Quote where
  | bare
  | double
  | backtick
  | bracket
  deriving DecidableEq

inductive Kind where
  | blank
  | comment
  /-- A string, terminated or not. -/
  | literal
  | blob
  /-- An identifier or a keyword, without its quotes. -/
  | name (quote : Quote) (text : List Char)
  /-- `?` and a number. -/
  | numbered
  | parameter
  | other
  deriving DecidableEq

def nul : Char := Char.ofNat 0

def isSpace (c : Char) : Bool := (9 ≤ c.toNat && c.toNat ≤ 13) || c = ' '

/-- A vertical tab is a space only after another one. -/
def startsSpace (c : Char) : Bool := isSpace c && c.toNat ≠ 11

/-- A byte order mark is a space where a token starts, and a letter within one. -/
def mark : Char := Char.ofNat 0xFEFF

def isIdChar (c : Char) : Bool := c.isAlphanum || c = '_' || c = '$' || 128 ≤ c.toNat

def startsName (c : Char) : Bool := c.isAlpha || c = '_' || (128 ≤ c.toNat && c ≠ mark)

def isHex (c : Char) : Bool := c.isDigit || ('a' ≤ c && c ≤ 'f') || ('A' ≤ c && c ≤ 'F')

/-- What is before the closing delimiter, where two of them stand for one, and what follows it. -/
def quoted (delim : Char) : List Char → Option (List Char × List Char)
  | [] => none
  | [c] => if c = delim then some ([],[]) else none
  | c :: d :: rest =>
    if c = nul then none
    else if c = delim then
      if d = delim then (quoted delim rest).map fun found => (delim :: found.1,found.2) else some ([],d :: rest)
    else (quoted delim (d :: rest)).map fun found => (c :: found.1,found.2)

/-- What follows a block comment, from its third character. -/
def blockEnd : List Char → List Char
  | [] => []
  | c :: rest =>
    if c = nul then c :: rest
    else if c = '*' ∧ rest.head? = some '/' then rest.drop 1
    else blockEnd rest

def isNumeral (c : Char) : Bool := c.isDigit || c = '_'

def fraction (text : List Char) : List Char :=
  match text.dropWhile isNumeral with
  | '.' :: rest => rest.dropWhile isNumeral
  | rest => rest

def exponent (text : List Char) : List Char :=
  match text with
  | e :: d :: rest =>
    if (e = 'e' || e = 'E') && (d.isDigit || ((d = '+' || d = '-') && rest.head?.any Char.isDigit)) then rest.dropWhile isNumeral
    else text
  | _ => text

def numberEnd (text : List Char) : List Char :=
  match text with
  | '0' :: x :: h :: rest =>
    if (x = 'x' || x = 'X') && isHex h then rest.dropWhile fun c => isHex c || c = '_' else exponent (fraction text)
  | _ => exponent (fraction text)

/-- A letter may not follow a number. -/
def number (text : List Char) : Option (List Char) :=
  if (numberEnd text).head?.any isIdChar then none else some (numberEnd text)

/-- What follows a bind parameter, `named` when it has a letter: `::` within it, and a suffix in parentheses at its end. -/
def parameter (named : Bool) : List Char → Option (List Char)
  | [] => if named then some [] else none
  | c :: rest =>
    if isIdChar c then parameter true rest
    else if c = '(' && named then
      match rest.dropWhile fun c => c ≠ nul && !isSpace c && c ≠ ')' with
      | ')' :: rest => some rest
      | _ => none
    else
      match c,rest with
      | ':',':' :: rest => parameter named rest
      | _,_ => if named then some (c :: rest) else none

def skipOne (seconds rest : List Char) : List Char := if rest.head?.any (seconds.contains ·) then rest.drop 1 else rest

/-- What follows an operator that is neither `-` nor `/`. -/
def operator (c : Char) (rest : List Char) : Option (List Char) :=
  if c ∈ ['(',')',';','+','*','%',',','&','~','.'] then some rest
  else if c = '=' then some (skipOne ['='] rest)
  else if c = '<' then some (skipOne ['=','>','<'] rest)
  else if c = '>' then some (skipOne ['=','>'] rest)
  else if c = '|' then some (skipOne ['|'] rest)
  else if c = '!' ∧ rest.head? = some '=' then some (rest.drop 1)
  else none

/-- What follows a blob, from its quote: an even number of hexadecimal digits. -/
def blob (rest : List Char) : Option (List Char) :=
  match (rest.drop 1).dropWhile isHex with
  | '\'' :: after => if ((rest.drop 1).takeWhile isHex).length % 2 = 0 then some after else none
  | _ => none

/-- `-` and what follows it: a comment up to the end of its line, or an operator. -/
def minus : List Char → Kind × List Char
  | '-' :: rest => (.comment,rest.dropWhile fun c => c ≠ nul && c ≠ '\n')
  | '>' :: '>' :: rest => (.other,rest)
  | '>' :: rest => (.other,rest)
  | rest => (.other,rest)

/-- `/` and what follows it. A comment has a third character. -/
def slash : List Char → Kind × List Char
  | '*' :: body => if body.head?.all (· = nul) then (.other,'*' :: body) else (.comment,blockEnd body)
  | rest => (.other,rest)

def string (rest : List Char) : Kind × List Char :=
  match quoted '\'' rest with
  | some (_,after) => (.literal,after)
  | none => (.literal,rest.dropWhile (· ≠ nul))

/-- A name between two delimiters, which has to end. -/
def quotedName (quote : Quote) (delim : Char) (rest : List Char) : Option (Kind × List Char) :=
  (quoted delim rest).map fun found => (.name quote found.1,found.2)

/-- A name between brackets has no second form for the closing one. -/
def bracketName (rest : List Char) : Option (Kind × List Char) :=
  match rest.dropWhile fun c => c ≠ nul && c ≠ ']' with
  | ']' :: after => some (.name .bracket (rest.takeWhile fun c => c ≠ nul && c ≠ ']'),after)
  | _ => none

def next (text : List Char) : Option (Kind × List Char) :=
  match text with
  | [] => none
  | c :: rest =>
    if startsSpace c then some (.blank,rest.dropWhile isSpace)
    else if c = mark then some (.blank,rest)
    else if c = '-' then some (minus rest)
    else if c = '/' then some (slash rest)
    else if c = '\'' then some (string rest)
    else if c = '"' then quotedName .double c rest
    else if c = Char.ofNat 96 then quotedName .backtick c rest
    else if c = '[' then bracketName rest
    else if c.isDigit || (c = '.' && rest.head?.any Char.isDigit) then (number text).map (.other,·)
    else if c = '?' then some (if rest.head?.any Char.isDigit then .numbered else .parameter,rest.dropWhile Char.isDigit)
    else if c ∈ ['$','@','#',':'] then (parameter false rest).map (.parameter,·)
    else if (c = 'x' || c = 'X') && rest.head? = some '\'' then (blob rest).map (.blob,·)
    else if startsName c then some (.name .bare (text.takeWhile isIdChar),text.dropWhile isIdChar)
    else (operator c rest).map (.other,·)

/-- A quote or a comment begins. -/
def Opens (text : List Char) : Prop :=
  text.head? = some '"' ∨ text.head? = some '\'' ∨ ['-','-'] <+: text ∨ ['/','*'] <+: text

def Calm (text rest : List Char) : Prop := ∀ later, later <:+ text → rest.length < later.length → ¬Opens later

/-- No letter is on both sides of the place where the rest begins. -/
def Edge (text rest : List Char) : Prop :=
  (∀ c, rest.head? = some c → isIdChar c = false) ∨ ∃ c, isIdChar c = false ∧ c :: rest <:+ text

/-- Neither a quote nor the beginning of a comment. -/
def Quiet (c : Char) : Prop := c ≠ '"' ∧ c ≠ '\'' ∧ c ≠ '-' ∧ c ≠ '/'

instance : DecidablePred Quiet := fun c => by
  unfold Quiet
  infer_instance

variable {c : Char} {text rest after body : List Char} {kind : Kind} {p : Char → Bool}

theorem Quiet.not_opens (quiet : Quiet c) (rest : List Char) : ¬Opens (c :: rest) := by
  rintro (double | single | line | block)
  · exact quiet.1 (Option.some.inj double)
  · exact quiet.2.1 (Option.some.inj single)
  · exact quiet.2.2.1 (List.cons_prefix_cons.mp line).1.symm
  · exact quiet.2.2.2 (List.cons_prefix_cons.mp block).1.symm

theorem Calm.refl (text : List Char) : Calm text text := by
  intro later suffix longer
  have := suffix.length_le
  omega

theorem Calm.trans (first : Calm text after) (suffix : after <:+ text) (second : Calm after rest) : Calm text rest := by
  intro later inside longer
  by_cases short : later.length ≤ after.length
  · exact second later (List.suffix_of_suffix_length_le inside suffix short) longer
  · exact first later inside (by omega)

theorem calm_cons (shut : ¬Opens (c :: rest)) : Calm (c :: rest) rest := by
  intro later suffix longer
  rcases List.suffix_cons_iff.mp suffix with rfl | shorter
  · exact shut
  · have := shorter.length_le
    omega

theorem calm_dropWhile (quiet : ∀ c, p c = true → Quiet c) (text : List Char) : Calm text (text.dropWhile p) := by
  induction text with
  | nil => exact Calm.refl []
  | cons c text ih =>
    rw [List.dropWhile_cons]
    split
    · rename_i here
      exact (calm_cons ((quiet c here).not_opens text)).trans (List.suffix_cons c text) ih
    · exact Calm.refl (c :: text)

theorem dropWhile_head (p : Char → Bool) (text : List Char) : ∀ c, (text.dropWhile p).head? = some c → p c = false := by
  intro c head
  have stopped := List.head?_dropWhile_not p text
  rw [head] at stopped
  exact stopped

/-- The text between two delimiters, which is written twice where it is the delimiter. -/
def doubled (delim : Char) (text : List Char) : List Char := text.flatMap fun c => if c = delim then [delim,delim] else [c]

theorem quoted_split {delim : Char} {found : List Char × List Char} (closed : quoted delim text = some found) :
    text = doubled delim found.1 ++ delim :: found.2 := by
  fun_induction quoted delim text generalizing found with
  | case1 => cases closed
  | case2 =>
    cases closed
    rfl
  | case3 | case4 => cases closed
  | case5 rest _ ih =>
    obtain ⟨inner,read,rfl⟩ := Option.map_eq_some_iff.mp closed
    rw [ih read]
    simp [doubled]
  | case6 =>
    cases closed
    rfl
  | case7 c d rest _ other ih =>
    obtain ⟨inner,read,rfl⟩ := Option.map_eq_some_iff.mp closed
    rw [ih read]
    simp [doubled,if_neg other]

theorem quoted_suffix {delim : Char} {found : List Char × List Char} (closed : quoted delim text = some found) :
    found.2 <:+ text := by
  rw [quoted_split closed]
  exact (List.suffix_cons delim found.2).trans (List.suffix_append _ _)

theorem blockEnd_suffix (text : List Char) : blockEnd text <:+ text := by
  fun_induction blockEnd text with
  | case1 => exact List.suffix_refl []
  | case2 => exact List.suffix_refl _
  | case3 c rest => exact (List.drop_suffix 1 rest).trans (List.suffix_cons c rest)
  | case4 c rest _ _ ih => exact ih.trans (List.suffix_cons c rest)

theorem Edge.mono (edge : Edge after rest) (suffix : after <:+ text) : Edge text rest :=
  edge.imp_right fun ⟨c,other,inside⟩ => ⟨c,other,inside.trans suffix⟩

theorem edge_head (head : ∀ c, rest.head? = some c → isIdChar c = false) : Edge text rest := .inl head

theorem edge_after (other : isIdChar c = false) (inside : c :: rest <:+ text) : Edge text rest := .inr ⟨c,other,inside⟩

theorem parameter_read {named : Bool} (read : parameter named text = some rest) : rest <:+ text ∧ Edge text rest := by
  fun_induction parameter named text with
  | case1 =>
    cases read
    exact ⟨List.suffix_refl [],edge_head fun c head => by cases head⟩
  | case2 => cases read
  | case3 named c text _ ih =>
    obtain ⟨suffix,edge⟩ := ih read
    exact ⟨suffix.trans (List.suffix_cons c text),edge.mono (List.suffix_cons c text)⟩
  | case4 named c text _ _ after closed =>
    obtain rfl : after = rest := Option.some.inj read
    have inside : ')' :: after <:+ c :: text := (closed ▸ List.dropWhile_suffix _).trans (List.suffix_cons c text)
    exact ⟨(List.suffix_cons ')' after).trans inside,edge_after rfl inside⟩
  | case5 => cases read
  | case6 named text _ _ ih =>
    obtain ⟨suffix,edge⟩ := ih read
    have inside : text <:+ ':' :: ':' :: text := List.suffix_append [':',':'] text
    exact ⟨suffix.trans inside,edge.mono inside⟩
  | case7 c text letter =>
    cases read
    refine ⟨List.suffix_refl _,edge_head fun d head => ?_⟩
    cases head
    exact Bool.eq_false_iff.mpr letter
  | case8 => cases read

theorem quiet_numeral (numeral : isNumeral c = true) : Quiet c := by
  refine ⟨?_,?_,?_,?_⟩
  all_goals
    rintro rfl
    cases numeral

theorem quiet_hex (hex : (isHex c || c = '_') = true) : Quiet c := by
  refine ⟨?_,?_,?_,?_⟩
  all_goals
    rintro rfl
    cases hex

theorem fraction_calm (text : List Char) : fraction text <:+ text ∧ Calm text (fraction text) := by
  have digits := List.dropWhile_suffix (l := text) isNumeral
  have calm := calm_dropWhile (fun c => quiet_numeral) text
  unfold fraction
  split
  · rename_i rest point
    rw [point] at digits calm
    have inside : rest <:+ '.' :: rest := List.suffix_cons '.' rest
    have shut : ¬Opens ('.' :: rest) := Quiet.not_opens (by decide) rest
    refine ⟨(List.dropWhile_suffix isNumeral).trans (inside.trans digits),calm.trans digits ?_⟩
    exact (calm_cons shut).trans inside (calm_dropWhile (fun c => quiet_numeral) rest)
  · exact ⟨digits,calm⟩

theorem quiet_digit (digit : c.isDigit = true) : Quiet c := quiet_numeral (by rw [isNumeral,digit]; rfl)

theorem not_opens_sign (digit : rest.head?.any Char.isDigit = true) : ¬Opens ('-' :: rest) := by
  rintro (double | single | line | block)
  · cases double
  · cases single
  · obtain ⟨more,split⟩ := List.prefix_cons_inj '-' |>.mp line
    rw [← split] at digit
    cases digit
  · cases (List.cons_prefix_cons.mp block).1

theorem exponent_calm (text : List Char) : exponent text <:+ text ∧ Calm text (exponent text) := by
  unfold exponent
  split
  · rename_i e d rest
    split
    · rename_i marked
      obtain ⟨letter,sign⟩ := Bool.and_eq_true_iff.mp marked
      have first : Quiet e := by
        rcases Bool.or_eq_true_iff.mp letter with here | here <;> rw [of_decide_eq_true here] <;> decide
      have second : ¬Opens (d :: rest) := by
        rcases Bool.or_eq_true_iff.mp sign with digit | signed
        · exact (quiet_digit digit).not_opens rest
        · obtain ⟨here,digit⟩ := Bool.and_eq_true_iff.mp signed
          rcases Bool.or_eq_true_iff.mp here with plus | minus
          · rw [of_decide_eq_true plus]
            exact Quiet.not_opens (by decide) rest
          · rw [of_decide_eq_true minus]
            exact not_opens_sign digit
      have one : d :: rest <:+ e :: d :: rest := List.suffix_cons e _
      have two : rest <:+ d :: rest := List.suffix_cons d rest
      refine ⟨(List.dropWhile_suffix isNumeral).trans (two.trans one),(calm_cons (first.not_opens _)).trans one ?_⟩
      exact (calm_cons second).trans two (calm_dropWhile (fun c => quiet_numeral) rest)
    · exact ⟨List.suffix_refl _,Calm.refl _⟩
  · exact ⟨List.suffix_refl _,Calm.refl _⟩

theorem exponent_fraction (text : List Char) :
    exponent (fraction text) <:+ text ∧ Calm text (exponent (fraction text)) := by
  obtain ⟨first,whole⟩ := fraction_calm text
  obtain ⟨second,power⟩ := exponent_calm (fraction text)
  exact ⟨second.trans first,whole.trans first power⟩

theorem numberEnd_calm (text : List Char) : Calm text (numberEnd text) := by
  unfold numberEnd
  split
  · rename_i x h rest
    split
    · rename_i hex
      obtain ⟨cross,digit⟩ := Bool.and_eq_true_iff.mp hex
      have zero : Quiet '0' := by decide
      have mark : Quiet x := by
        rcases Bool.or_eq_true_iff.mp cross with here | here <;> rw [of_decide_eq_true here] <;> decide
      have first : Quiet h := quiet_hex (by rw [digit]; rfl)
      refine (calm_cons (zero.not_opens _)).trans (List.suffix_cons _ _) ?_
      refine (calm_cons (mark.not_opens _)).trans (List.suffix_cons _ _) ?_
      exact (calm_cons (first.not_opens _)).trans (List.suffix_cons _ _) (calm_dropWhile (fun c => quiet_hex) rest)
    · exact (exponent_fraction _).2
  · exact (exponent_fraction text).2

/-- The text of a number has no quote and begins no comment, and no letter follows it. -/
theorem number_read (read : number text = some rest) : Calm text rest ∧ Edge text rest := by
  unfold number at read
  split at read
  · cases read
  · rename_i letter
    cases read
    refine ⟨numberEnd_calm text,edge_head fun c head => ?_⟩
    rw [head] at letter
    exact Bool.eq_false_iff.mpr letter

/-- A number takes its first character, a digit or a point before one. -/
theorem number_suffix (starts : c.isDigit = true ∨ c = '.') (read : number (c :: text) = some rest) : rest <:+ text := by
  have point : fraction (c :: text) <:+ text := by
    unfold fraction
    rcases starts with digit | rfl
    · have numeral : isNumeral c = true := by rw [isNumeral,digit]; rfl
      rw [List.dropWhile_cons,if_pos numeral]
      have digits := List.dropWhile_suffix (l := text) isNumeral
      split
      · rename_i after here
        rw [here] at digits
        exact ((List.dropWhile_suffix isNumeral).trans (List.suffix_cons _ _)).trans digits
      · exact digits
    · exact List.dropWhile_suffix isNumeral
  have decimal : exponent (fraction (c :: text)) <:+ text := (exponent_calm _).1.trans point
  unfold number at read
  split at read
  · cases read
  · cases read
    unfold numberEnd
    split
    · rename_i x h more same
      cases same
      split
      · exact (List.dropWhile_suffix _).trans (List.suffix_append [x,h] more)
      · exact decimal
    · exact decimal

/-- Neither a letter nor the beginning of a quote or comment. -/
def Symbol (c : Char) : Prop := Quiet c ∧ isIdChar c = false

instance : DecidablePred Symbol := fun c => by
  unfold Symbol
  infer_instance

theorem skipOne_read (seconds rest : List Char) : skipOne seconds rest = rest ∨ ∃ d ∈ seconds, rest = d :: skipOne seconds rest := by
  unfold skipOne
  split
  · rename_i known
    cases rest with
    | nil => cases known
    | cons d rest => exact .inr ⟨d,List.contains_iff_mem.mp known,rfl⟩
  · exact .inl rfl

theorem operator_read (read : operator c text = some rest) :
    Symbol c ∧ (rest = text ∨ ∃ d, Symbol d ∧ text = d :: rest) := by
  have second {seconds : List Char} (all : seconds.all (Symbol ·) = true) (rest_ : skipOne seconds text = rest) :
      rest = text ∨ ∃ d, Symbol d ∧ text = d :: rest := by
    rcases skipOne_read seconds text with same | ⟨d,known,split⟩
    · exact .inl (rest_.symm.trans same)
    · exact .inr ⟨d,of_decide_eq_true (List.all_eq_true.mp all d known),by rw [← rest_]; exact split⟩
  unfold operator at read
  split at read
  · rename_i known
    have symbols := List.all_eq_true.mp (by decide : ['(',')',';','+','*','%',',','&','~','.'].all (Symbol ·) = true) c known
    exact ⟨of_decide_eq_true symbols,.inl (Option.some.inj read).symm⟩
  split at read
  · rename_i here
    exact ⟨here ▸ (by decide),second (by decide) (Option.some.inj read)⟩
  split at read
  · rename_i here
    exact ⟨here ▸ (by decide),second (by decide) (Option.some.inj read)⟩
  split at read
  · rename_i here
    exact ⟨here ▸ (by decide),second (by decide) (Option.some.inj read)⟩
  split at read
  · rename_i here
    exact ⟨here ▸ (by decide),second (by decide) (Option.some.inj read)⟩
  split at read
  · rename_i here
    obtain ⟨rfl,equals⟩ := here
    obtain ⟨more,rfl⟩ := List.head?_eq_some_iff.mp equals
    exact ⟨by decide,.inr ⟨'=',by decide,by rw [← Option.some.inj read]; rfl⟩⟩
  · cases read

inductive Read : List Char → Kind → List Char → Prop where
  | space {c : Char} {rest : List Char} (starts : startsSpace c = true) : Read (c :: rest) .blank (rest.dropWhile isSpace)
  | mark {rest : List Char} : Read (mark :: rest) .blank rest
  | line {rest : List Char} : Read ('-' :: '-' :: rest) .comment (rest.dropWhile fun c => c ≠ nul && c ≠ '\n')
  | block {body : List Char} : Read ('/' :: '*' :: body) .comment (blockEnd body)
  /-- The text ends after the asterisk. -/
  | slashed {body : List Char} (ends : body.head?.all (· = nul) = true) : Read ('/' :: '*' :: body) .other ('*' :: body)
  | literal {rest text after : List Char} (closed : quoted '\'' rest = some (text,after)) : Read ('\'' :: rest) .literal after
  | unclosed {rest : List Char} (opened : quoted '\'' rest = none) : Read ('\'' :: rest) .literal (rest.dropWhile (· ≠ nul))
  | double {rest text after : List Char} (closed : quoted '"' rest = some (text,after)) :
    Read ('"' :: rest) (.name .double text) after
  | backtick {rest text after : List Char} (closed : quoted (Char.ofNat 96) rest = some (text,after)) :
    Read (Char.ofNat 96 :: rest) (.name .backtick text) after
  | bracket {text after : List Char} : Read ('[' :: (text ++ ']' :: after)) (.name .bracket text) after
  | numbered {rest : List Char} (digit : rest.head?.any Char.isDigit = true) :
    Read ('?' :: rest) .numbered (rest.dropWhile Char.isDigit)
  | parameter {c : Char} {rest after : List Char} (sigil : startsName c = false) (inside : after <:+ rest)
    (edge : Edge (c :: rest) after) : Read (c :: rest) .parameter after
  | blob {x : Char} {digits after : List Char} (cross : x = 'x' ∨ x = 'X') (hex : ∀ c ∈ digits, isHex c = true) :
    Read (x :: '\'' :: (digits ++ '\'' :: after)) .blob after
  | bare {c : Char} {rest : List Char} (starts : startsName c = true) :
    Read (c :: rest) (.name .bare (c :: rest.takeWhile isIdChar)) (rest.dropWhile isIdChar)
  | other {c : Char} {rest after : List Char} (first : startsName c = false) (inside : after <:+ rest)
    (calm : Calm (c :: rest) after) (edge : Edge (c :: rest) after) : Read (c :: rest) .other after

theorem startsName_isIdChar (starts : startsName c = true) : isIdChar c = true := by
  rcases Bool.or_eq_true_iff.mp starts with here | high
  · rcases Bool.or_eq_true_iff.mp here with letter | line
    · rw [isIdChar,Char.isAlphanum,letter]
      rfl
    · rw [isIdChar,line,Bool.or_true]
      rfl
  · rw [isIdChar,(Bool.and_eq_true_iff.mp high).1,Bool.or_true]

theorem not_opens_arrow : ¬Opens ('-' :: '>' :: rest) := by
  rintro (double | single | line | block)
  · cases double
  · cases single
  · cases (List.cons_prefix_cons.mp (List.cons_prefix_cons.mp line).2).1
  · cases (List.cons_prefix_cons.mp block).1

theorem not_opens_minus (other : ∀ more, rest = '-' :: more → False) : ¬Opens ('-' :: rest) := by
  rintro (double | single | line | block)
  · cases double
  · cases single
  · obtain ⟨more,split⟩ := List.prefix_cons_inj '-' |>.mp line
    exact other more split.symm
  · cases (List.cons_prefix_cons.mp block).1

theorem not_opens_slash (other : ∀ more, rest = '*' :: more → False) : ¬Opens ('/' :: rest) := by
  rintro (double | single | line | block)
  · cases double
  · cases single
  · cases (List.cons_prefix_cons.mp line).1
  · obtain ⟨more,split⟩ := List.prefix_cons_inj '/' |>.mp block
    exact other more split.symm

theorem read_minus (rest : List Char) : Read ('-' :: rest) (minus rest).1 (minus rest).2 := by
  have quiet : Quiet '>' := by decide
  unfold minus
  split
  · exact .line
  · rename_i rest
    refine .other rfl (List.suffix_append ['>','>'] _) ?_ (edge_after rfl (List.suffix_append ['-','>'] ('>' :: rest)))
    refine (calm_cons not_opens_arrow).trans (List.suffix_cons _ _) ?_
    exact (calm_cons (quiet.not_opens _)).trans (List.suffix_cons _ _) (calm_cons (quiet.not_opens _))
  · rename_i rest _
    refine .other rfl (List.suffix_cons '>' _) ?_ (edge_after rfl (List.suffix_cons '-' ('>' :: rest)))
    exact (calm_cons not_opens_arrow).trans (List.suffix_cons _ _) (calm_cons (quiet.not_opens _))
  · rename_i line _ _
    exact .other rfl (List.suffix_refl _) (calm_cons (not_opens_minus line)) (edge_after rfl (List.suffix_refl ('-' :: rest)))

theorem read_slash (rest : List Char) : Read ('/' :: rest) (slash rest).1 (slash rest).2 := by
  unfold slash
  split
  · split
    · rename_i ends
      exact .slashed ends
    · exact .block
  · rename_i block
    exact .other rfl (List.suffix_refl _) (calm_cons (not_opens_slash block)) (edge_after rfl (List.suffix_refl ('/' :: rest)))

theorem read_string (rest : List Char) : Read ('\'' :: rest) (string rest).1 (string rest).2 := by
  unfold string
  split
  · rename_i closed
    exact .literal closed
  · rename_i opened
    exact .unclosed opened

theorem read_bracket (read : bracketName rest = some (kind,after)) : Read ('[' :: rest) kind after := by
  unfold bracketName at read
  split at read
  · rename_i more closed
    cases read
    have split := List.takeWhile_append_dropWhile (p := fun c => c ≠ nul && c ≠ ']') (l := rest)
    rw [closed] at split
    have form : Read ('[' :: ((rest.takeWhile fun c => c ≠ nul && c ≠ ']') ++ ']' :: after))
        (.name .bracket (rest.takeWhile fun c => c ≠ nul && c ≠ ']')) after := .bracket
    rwa [split] at form
  · cases read

theorem read_blob (cross : c = 'x' ∨ c = 'X') (quote : rest.head? = some '\'') (read : blob rest = some after) :
    Read (c :: rest) .blob after := by
  obtain ⟨body,rfl⟩ := List.head?_eq_some_iff.mp quote
  unfold blob at read
  rw [List.drop_one,List.tail_cons] at read
  split at read
  · rename_i closed
    split at read
    · cases read
      have split := List.takeWhile_append_dropWhile (p := isHex) (l := body)
      rw [closed] at split
      have form : Read (c :: '\'' :: (body.takeWhile isHex ++ '\'' :: after)) .blob after :=
        .blob cross (List.all_eq_true.mp List.all_takeWhile)
      rwa [split] at form
    · cases read
  · cases read

theorem read_operator (first : startsName c = false) (read : operator c rest = some after) : Read (c :: rest) .other after := by
  obtain ⟨symbol,here⟩ := operator_read read
  rcases here with rfl | ⟨d,second,rfl⟩
  · exact .other first (List.suffix_refl _) (calm_cons (symbol.1.not_opens _)) (edge_after symbol.2 (List.suffix_refl _))
  · refine .other first (List.suffix_cons d after) ?_ (edge_after second.2 (List.suffix_cons c _))
    exact (calm_cons (symbol.1.not_opens _)).trans (List.suffix_cons c _) (calm_cons (second.1.not_opens _))

theorem not_startsName (digit : c.isDigit = true ∨ c = '.') : startsName c = false := by
  rcases digit with digit | rfl
  · obtain ⟨low,high⟩ := Char.isDigit_iff_toNat.mp digit
    change 48 ≤ c.toNat at low
    change c.toNat ≤ 57 at high
    by_contra starts
    rcases Bool.or_eq_true_iff.mp (Bool.not_eq_false _ ▸ starts) with here | far
    · rcases Bool.or_eq_true_iff.mp here with letter | line
      · have bounds := Scanner.isAlpha_iff.mp letter
        omega
      · rw [of_decide_eq_true line] at high
        exact absurd high (by decide)
    · have : 128 ≤ c.toNat := of_decide_eq_true (Bool.and_eq_true_iff.mp far).1
      omega
  · rfl

theorem read_of_next (read : next text = some (kind,rest)) : Read text kind rest := by
  cases text with
  | nil => cases read
  | cons c text =>
  unfold next at read
  dsimp only at read
  by_cases space : startsSpace c = true
  · rw [if_pos space] at read
    cases read
    exact .space space
  rw [if_neg space] at read
  by_cases here : c = mark
  · rw [if_pos here] at read
    cases read
    exact here ▸ .mark
  rw [if_neg here] at read
  by_cases here : c = '-'
  · rw [if_pos here] at read
    have form := read_minus text
    rw [Option.some.inj read] at form
    exact here ▸ form
  rw [if_neg here] at read
  by_cases here : c = '/'
  · rw [if_pos here] at read
    have form := read_slash text
    rw [Option.some.inj read] at form
    exact here ▸ form
  rw [if_neg here] at read
  by_cases here : c = '\''
  · rw [if_pos here] at read
    have form := read_string text
    rw [Option.some.inj read] at form
    exact here ▸ form
  rw [if_neg here] at read
  by_cases here : c = '"'
  · rw [if_pos here] at read
    obtain ⟨found,closed,same⟩ := Option.map_eq_some_iff.mp read
    cases same
    subst here
    exact .double closed
  rw [if_neg here] at read
  by_cases here : c = Char.ofNat 96
  · rw [if_pos here] at read
    obtain ⟨found,closed,same⟩ := Option.map_eq_some_iff.mp read
    cases same
    subst here
    exact .backtick closed
  rw [if_neg here] at read
  by_cases here : c = '['
  · rw [if_pos here] at read
    exact here ▸ read_bracket read
  rw [if_neg here] at read
  by_cases starts : (c.isDigit || (c = '.' && text.head?.any Char.isDigit)) = true
  · rw [if_pos starts] at read
    obtain ⟨after,found,same⟩ := Option.map_eq_some_iff.mp read
    cases same
    have digit : c.isDigit = true ∨ c = '.' :=
      (Bool.or_eq_true_iff.mp starts).imp_right fun point => of_decide_eq_true (Bool.and_eq_true_iff.mp point).1
    exact .other (not_startsName digit) (number_suffix digit found) (number_read found).1 (number_read found).2
  rw [if_neg starts] at read
  by_cases here : c = '?'
  · rw [if_pos here] at read
    subst here
    by_cases digit : text.head?.any Char.isDigit = true
    · rw [if_pos digit] at read
      cases read
      exact .numbered digit
    · rw [if_neg digit] at read
      cases read
      have whole : text.dropWhile Char.isDigit = text := by
        cases text with
        | nil => rfl
        | cons d text => exact List.dropWhile_cons_of_neg digit
      rw [whole]
      exact .parameter rfl (List.suffix_refl _) (edge_after (c := '?') rfl (List.suffix_refl _))
  rw [if_neg here] at read
  by_cases sigil : c ∈ ['$','@','#',':']
  · rw [if_pos sigil] at read
    obtain ⟨after,found,same⟩ := Option.map_eq_some_iff.mp read
    cases same
    have first := List.all_eq_true.mp (by decide : ['$','@','#',':'].all (!startsName ·) = true) c sigil
    exact .parameter (by simpa using first) (parameter_read found).1 ((parameter_read found).2.mono (List.suffix_cons c text))
  rw [if_neg sigil] at read
  by_cases cross : ((c = 'x' || c = 'X') && text.head? = some '\'') = true
  · rw [if_pos cross] at read
    obtain ⟨after,found,same⟩ := Option.map_eq_some_iff.mp read
    cases same
    obtain ⟨letter,quote⟩ := Bool.and_eq_true_iff.mp cross
    exact read_blob (by simpa using letter) (of_decide_eq_true quote) found
  rw [if_neg cross] at read
  by_cases starts : startsName c = true
  · rw [if_pos starts] at read
    have letter := startsName_isIdChar starts
    rw [List.takeWhile_cons_of_pos letter,List.dropWhile_cons_of_pos letter] at read
    cases read
    exact .bare starts
  rw [if_neg starts] at read
  obtain ⟨after,found,same⟩ := Option.map_eq_some_iff.mp read
  cases same
  exact read_operator (Bool.eq_false_iff.mpr starts) found

theorem Read.suffix (read : Read text kind rest) : ∃ c more, text = c :: more ∧ rest <:+ more := by
  cases read with
  | space | unclosed | numbered | bare => exact ⟨_,_,rfl,List.dropWhile_suffix _⟩
  | mark | slashed => exact ⟨_,_,rfl,List.suffix_refl _⟩
  | line => exact ⟨_,_,rfl,(List.dropWhile_suffix _).trans (List.suffix_cons _ _)⟩
  | block => exact ⟨_,_,rfl,(blockEnd_suffix _).trans (List.suffix_cons _ _)⟩
  | literal closed | double closed | backtick closed => exact ⟨_,_,rfl,quoted_suffix closed⟩
  | bracket => exact ⟨_,_,rfl,(List.suffix_cons _ _).trans (List.suffix_append _ _)⟩
  | parameter _ inside | other _ inside => exact ⟨_,_,rfl,inside⟩
  | blob => exact ⟨_,_,rfl,((List.suffix_cons _ _).trans (List.suffix_append _ _)).trans (List.suffix_cons _ _)⟩

theorem consumes : Scanner.Consumes next := by
  intro text kind rest read
  obtain ⟨c,more,rfl,taken,rfl⟩ := (read_of_next read).suffix
  exact ⟨c :: taken,List.cons_ne_nil c taken,rfl⟩

end Sqlite
