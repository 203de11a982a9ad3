import Vigile.GoText

/-! Go's strings as bytes: white space in UTF-8, fields, decimal numbers, and texts set in columns. -/
namespace Go.Bytes

def spaces : List (List UInt8) :=
  [[9],[10],[11],[12],[13],[32],[0xC2,0x85],[0xC2,0xA0],[0xE1,0x9A,0x80],[0xE2,0x80,0x80],[0xE2,0x80,0x81],
    [0xE2,0x80,0x82],[0xE2,0x80,0x83],[0xE2,0x80,0x84],[0xE2,0x80,0x85],[0xE2,0x80,0x86],[0xE2,0x80,0x87],
    [0xE2,0x80,0x88],[0xE2,0x80,0x89],[0xE2,0x80,0x8A],[0xE2,0x80,0xA8],[0xE2,0x80,0xA9],[0xE2,0x80,0xAF],
    [0xE2,0x81,0x9F],[0xE3,0x80,0x80]]

def spaceAt (texts : List (List UInt8)) (s : List UInt8) : Option (List UInt8) := texts.find? (·.isPrefixOf s)

def emit (field : List UInt8) : List (List UInt8) := if field = [] then [] else [field]

/-- What is left of a space is skipped; the field read so far ends at the next one. -/
def cutFields : Nat → List UInt8 → List UInt8 → List (List UInt8)
  | _,field,[] => emit field
  | skip + 1,field,_ :: rest => cutFields skip field rest
  | 0,field,b :: rest =>
    match spaceAt spaces (b :: rest) with
    | some space => emit field ++ cutFields (space.length - 1) [] rest
    | none => cutFields 0 (field ++ [b]) rest

def fields (s : List UInt8) : List (List UInt8) := cutFields 0 [] s

def dropSpaces (texts : List (List UInt8)) : Nat → List UInt8 → List UInt8
  | _,[] => []
  | skip + 1,_ :: rest => dropSpaces texts skip rest
  | 0,b :: rest =>
    match spaceAt texts (b :: rest) with
    | some space => dropSpaces texts (space.length - 1) rest
    | none => b :: rest

def trimSpace (s : List UInt8) : List UInt8 :=
  (dropSpaces (spaces.map List.reverse) 0 (dropSpaces spaces 0 s).reverse).reverse

/-- Bytes as characters, for what is ASCII. -/
def ascii (s : List UInt8) : List Char := s.map fun b => Char.ofNat b.toNat

/-- strconv.ParseInt(s, 10, 64) and strconv.ParseUint(s, 10, 64), whose result counts also where there is an error. -/
def parseInt (s : List UInt8) : Int × Option NumError := Go.parseInt (ascii s)

def parseUint (s : List UInt8) : Nat × Option NumError := Go.parseUint (ascii s)

def indexByte (s : List UInt8) (c : UInt8) : Int := if c ∈ s then s.idxOf c else -1

def lastIndexByte (s : List UInt8) (c : UInt8) : Int := if c ∈ s then s.length - 1 - s.reverse.idxOf c else -1

/-- What `%d` and `%s` write. -/
def decimal (n : Nat) : List UInt8 := (Nat.toDigits 10 n).map fun c => UInt8.ofNat c.toNat

def decimalInt : Int → List UInt8
  | .ofNat n => decimal n
  | .negSucc n => 45 :: decimal (n + 1)

/-- Right-aligned in so many bytes. -/
def padLeft (width : Nat) (s : List UInt8) : List UInt8 := List.replicate (width - s.length) 32 ++ s

/-- Each with spaces in front, one and so many more. -/
def spaced (columns : List (Nat × List UInt8)) : List UInt8 :=
  columns.flatMap fun column => List.replicate (column.1 + 1) 32 ++ column.2

/-- Something, of bytes that are seen. -/
def Plain (s : List UInt8) : Prop := s ≠ [] ∧ ∀ b ∈ s, 33 ≤ b ∧ b < 128

instance (s : List UInt8) : Decidable (Plain s) := inferInstanceAs (Decidable (_ ∧ _))

variable {b c : UInt8} {s field front rest tail : List UInt8} {columns : List (Nat × List UInt8)} {n : Nat}

theorem indexByte_first (absent : c ∉ front) (rest : List UInt8) : indexByte (front ++ c :: rest) c = front.length := by
  unfold indexByte
  rw [if_pos (by simp),List.idxOf_append_of_notMem absent,List.idxOf_cons_self]
  simp

theorem lastIndexByte_last (front : List UInt8) (absent : c ∉ rest) :
    lastIndexByte (front ++ c :: rest) c = front.length := by
  have reversed : (front ++ c :: rest).reverse = rest.reverse ++ c :: front.reverse := by simp
  unfold lastIndexByte
  rw [if_pos (by simp),reversed,List.idxOf_append_of_notMem fun member => absent (List.mem_reverse.mp member),
    List.idxOf_cons_self]
  simp
  omega

/-- A byte of a text, at its last place. -/
theorem split_last (member : c ∈ s) : ∃ front rest, s = front ++ c :: rest ∧ c ∉ rest := by
  obtain ⟨back,front,split,absent⟩ := List.eq_append_cons_of_mem (List.mem_reverse.mpr member)
  refine ⟨front.reverse,back.reverse,?_,fun among => absent (List.mem_reverse.mp among)⟩
  rw [← List.reverse_reverse s,split]
  simp

/-- A space begins with a byte that is not seen. -/
theorem spaceAt_seen (seen : 33 ≤ b ∧ b < 128) (rest : List UInt8) : spaceAt spaces (b :: rest) = none := by
  have begins : ∀ space ∈ spaces, ∃ c ∈ space.head?, c < 33 ∨ 128 ≤ c := by
    decide
  refine List.find?_eq_none.mpr fun space member isPrefix => ?_
  obtain ⟨c,front,unseen⟩ := begins space member
  cases space with
  | nil => simp at front
  | cons d others =>
    obtain rfl := Option.some.inj front
    rw [List.isPrefixOf_iff_prefix,List.cons_prefix_cons] at isPrefix
    obtain ⟨rfl,_⟩ := isPrefix
    simp only [UInt8.lt_iff_toNat_lt,UInt8.le_iff_toNat_le] at seen unseen
    have := UInt8.toNat_ofNat (n := 33)
    have := UInt8.toNat_ofNat (n := 128)
    omega

theorem cutFields_space (field rest : List UInt8) : cutFields 0 field (32 :: rest) = emit field ++ cutFields 0 [] rest := by
  have found : spaceAt spaces (32 :: rest) = some [32] := by
    simp [spaceAt,spaces]
  rw [cutFields,found]
  rfl

theorem cutFields_newline (field rest : List UInt8) :
    cutFields 0 field (10 :: rest) = emit field ++ cutFields 0 [] rest := by
  have found : spaceAt spaces (10 :: rest) = some [10] := by
    simp [spaceAt,spaces]
  rw [cutFields,found]
  rfl

theorem cutFields_seen (seen : ∀ b ∈ s, 33 ≤ b ∧ b < 128) (field rest : List UInt8) :
    cutFields 0 field (s ++ rest) = cutFields 0 (field ++ s) rest := by
  induction s generalizing field with
  | nil => simp
  | cons b s ih =>
    rw [List.cons_append,cutFields,spaceAt_seen (seen b List.mem_cons_self)]
    have next := ih (fun c member => seen c (List.mem_cons_of_mem _ member)) (field ++ [b])
    rwa [List.append_assoc] at next

theorem fields_blank (k : Nat) (rest : List UInt8) : fields (List.replicate k 32 ++ rest) = fields rest := by
  induction k with
  | zero => rfl
  | succ k ih =>
    rw [List.replicate_succ,List.cons_append]
    exact (cutFields_space [] _).trans ih

theorem emit_plain (plain : Plain s) : emit s = [s] := if_neg plain.1

/-- Columns, up to the end of the text or to a newline that ends it. -/
theorem cutFields_spaced (plain : ∀ column ∈ columns, Plain column.2) (ends : tail = [] ∨ tail = [10]) :
    ∀ field, cutFields 0 field (spaced columns ++ tail) = emit field ++ columns.map (·.2) := by
  induction columns with
  | nil =>
    intro field
    rw [List.map_nil,List.append_nil]
    rcases ends with rfl | rfl
    · rw [spaced,List.flatMap_nil,List.nil_append,cutFields]
    · exact (cutFields_newline field []).trans (List.append_nil _)
  | cons column columns ih =>
    intro field
    have first := plain column List.mem_cons_self
    have text : spaced (column :: columns) ++ tail =
        32 :: (List.replicate column.1 32 ++ (column.2 ++ (spaced columns ++ tail))) := by
      simp [spaced,List.replicate_succ]
    have next : cutFields 0 [] (List.replicate column.1 32 ++ (column.2 ++ (spaced columns ++ tail))) =
        [column.2] ++ columns.map (·.2) := by
      refine (fields_blank column.1 _).trans ?_
      rw [fields,cutFields_seen first.2,List.nil_append,ih fun other member => plain other (List.mem_cons_of_mem _ member),
        emit_plain first]
    rw [text,cutFields_space,next]
    simp

theorem fields_spaced (plain : ∀ column ∈ columns, Plain column.2) : fields (spaced columns) = columns.map (·.2) := by
  have whole := cutFields_spaced plain (.inl rfl) []
  rwa [List.append_nil] at whole

/-- A column in front of the others, which may have no space before it. -/
theorem fields_padLeft (width : Nat) (first : Plain s) (plain : ∀ column ∈ columns, Plain column.2)
    (ends : tail = [] ∨ tail = [10]) :
    fields (padLeft width s ++ (spaced columns ++ tail)) = s :: columns.map (·.2) := by
  unfold padLeft
  rw [List.append_assoc,fields_blank,fields,cutFields_seen first.2,List.nil_append,cutFields_spaced plain ends,
    emit_plain first]
  rfl

theorem newline_padLeft (absent : 10 ∉ s) (width : Nat) : 10 ∉ padLeft width s := by
  intro member
  rcases List.mem_append.mp member with gap | text
  · exact absurd (List.eq_of_mem_replicate gap) (by decide)
  · exact absent text

theorem newline_plain (plain : Plain s) : 10 ∉ s := by
  intro member
  exact absurd (plain.2 _ member).1 (by decide)

theorem newline_spaced (plain : ∀ column ∈ columns, Plain column.2) : 10 ∉ spaced columns := by
  intro member
  obtain ⟨column,among,within⟩ := List.mem_flatMap.mp member
  rcases List.mem_append.mp within with gap | shown
  · exact absurd (List.eq_of_mem_replicate gap) (by decide)
  · exact newline_plain (plain column among) shown

theorem spaces_ne_nil : [] ∉ spaces := by
  decide

theorem spaces_prefix_free : ∀ a ∈ spaces, ∀ b ∈ spaces, a <+: b → a = b := by
  decide

/-- A space is found where it stands. -/
theorem spaceAt_append {space : List UInt8} (member : space ∈ spaces) (rest : List UInt8) :
    spaceAt spaces (space ++ rest) = some space := by
  cases found : spaceAt spaces (space ++ rest) with
  | none => exact absurd (List.find?_eq_none.mp found space member) (by simp)
  | some other =>
    have isPrefix : other <+: space ++ rest := by simpa using List.find?_some found
    have listed := List.mem_of_find?_eq_some found
    rcases List.prefix_or_prefix_of_prefix isPrefix (List.prefix_append space rest) with shorter | longer
    · rw [spaces_prefix_free other listed space member shorter]
    · rw [spaces_prefix_free space member other listed longer]

theorem cutFields_skip (field left rest : List UInt8) : cutFields left.length field (left ++ rest) = cutFields 0 field rest := by
  induction left with
  | nil => rfl
  | cons b left ih => exact ih

/-- A space ends the field before it. -/
theorem cutFields_between {space : List UInt8} (member : space ∈ spaces) (field rest : List UInt8) :
    cutFields 0 field (space ++ rest) = emit field ++ cutFields 0 [] rest := by
  have found := spaceAt_append member rest
  cases space with
  | nil => exact absurd member spaces_ne_nil
  | cons b left =>
    rw [List.cons_append] at found ⊢
    rw [cutFields,found]
    exact congrArg (emit field ++ ·) (cutFields_skip [] left rest)

theorem fields_flatten {lead : List (List UInt8)} (listed : ∀ space ∈ lead, space ∈ spaces) (rest : List UInt8) :
    fields (lead.flatten ++ rest) = fields rest := by
  induction lead with
  | nil => rfl
  | cons space lead ih =>
    rw [List.flatten_cons,List.append_assoc]
    exact (cutFields_between (listed space List.mem_cons_self) [] _).trans
      (ih fun other member => listed other (List.mem_cons_of_mem _ member))

theorem dropSpaces_skip (texts : List (List UInt8)) (k : Nat) (s : List UInt8) :
    dropSpaces texts k s = dropSpaces texts 0 (s.drop k) := by
  induction s generalizing k with
  | nil =>
    rw [List.drop_nil]
    cases k <;> rfl
  | cons b s ih =>
    cases k with
    | zero => rfl
    | succ k =>
      rw [List.drop_succ_cons]
      exact ih k

/-- What is dropped are spaces. -/
theorem dropSpaces_split {texts : List (List UInt8)} (filled : [] ∉ texts) (s : List UInt8) :
    ∃ lead : List (List UInt8), (∀ space ∈ lead, space ∈ texts) ∧ s = lead.flatten ++ dropSpaces texts 0 s := by
  induction length : s.length using Nat.strong_induction_on generalizing s with
  | _ n ih =>
    cases s with
    | nil => exact ⟨[],by simp,rfl⟩
    | cons b rest =>
      cases found : spaceAt texts (b :: rest) with
      | none =>
        refine ⟨[],by simp,?_⟩
        rw [dropSpaces,found]
        rfl
      | some space =>
        have isPrefix : space <+: b :: rest := by simpa using List.find?_some found
        have listed := List.mem_of_find?_eq_some found
        obtain ⟨later,split⟩ := isPrefix
        cases space with
        | nil => exact absurd listed filled
        | cons c left =>
          rw [List.cons_append] at split
          obtain ⟨rfl,rfl⟩ := List.cons.inj split
          have shorter : later.length < n := by
            rw [← length,List.length_cons,List.length_append]
            omega
          obtain ⟨lead,among,whole⟩ := ih later.length shorter later rfl
          refine ⟨(c :: left) :: lead,fun space member => ?_,?_⟩
          · rcases List.mem_cons.mp member with rfl | member
            · exact listed
            · exact among space member
          · have dropped : dropSpaces texts 0 (c :: (left ++ later)) = dropSpaces texts 0 later := by
              rw [dropSpaces,found]
              refine (dropSpaces_skip texts _ _).trans ?_
              simp
            rw [dropped,List.flatten_cons,List.append_assoc,List.cons_append,← whole]

/-- A text is what is trimmed of it, with spaces on both sides. -/
theorem trimSpace_split (s : List UInt8) : ∃ lead trail : List (List UInt8), (∀ space ∈ lead, space ∈ spaces) ∧
    (∀ space ∈ trail, space ∈ spaces) ∧ s = lead.flatten ++ (trimSpace s ++ trail.flatten) := by
  obtain ⟨lead,listed,whole⟩ := dropSpaces_split spaces_ne_nil s
  have filled : [] ∉ spaces.map List.reverse := by
    decide
  obtain ⟨back,among,rest⟩ := dropSpaces_split filled (dropSpaces spaces 0 s).reverse
  refine ⟨lead,(back.map List.reverse).reverse,listed,fun space member => ?_,?_⟩
  · obtain ⟨reversed,within,rfl⟩ := List.mem_map.mp (List.mem_reverse.mp member)
    obtain ⟨space,isSpace,rfl⟩ := List.mem_map.mp (among reversed within)
    rwa [List.reverse_reverse]
  · have front := congrArg List.reverse rest
    rw [List.reverse_reverse,List.reverse_append,List.reverse_flatten] at front
    unfold trimSpace
    rw [← front]
    exact whole

/-- A seen text between spaces is the first field. -/
theorem head_fields (plain : Plain (trimSpace s)) (ends : tail = [] ∨ ∃ rest, tail = 32 :: rest) :
    (fields (s ++ tail)).head? = some (trimSpace s) := by
  obtain ⟨lead,trail,leading,trailing,split⟩ := trimSpace_split s
  have text : s ++ tail = lead.flatten ++ (trimSpace s ++ (trail.flatten ++ tail)) := by
    rw [← List.append_assoc,← List.append_assoc,List.append_assoc lead.flatten,← split]
  rw [text,fields_flatten leading,fields,cutFields_seen plain.2,List.nil_append]
  cases trail with
  | nil =>
    rcases ends with rfl | ⟨rest,rfl⟩
    · rw [List.flatten_nil,List.append_nil,cutFields,emit_plain plain]
      rfl
    · rw [List.flatten_nil,List.nil_append,cutFields_space,emit_plain plain]
      rfl
  | cons space trail =>
    rw [List.flatten_cons,List.append_assoc,cutFields_between (trailing space List.mem_cons_self),emit_plain plain]
    rfl

/-- A digit has a byte between 48 and 57. -/
theorem digit_byte {c : Char} (digit : c.isDigit = true) :
    Char.ofNat (UInt8.ofNat c.toNat).toNat = c ∧ 48 ≤ UInt8.ofNat c.toNat ∧ UInt8.ofNat c.toNat ≤ 57 := by
  have range : 48 ≤ c.toNat ∧ c.toNat ≤ 57 := by
    simpa [Char.isDigit,UInt32.le_iff_toNat_le] using digit
  have small : (UInt8.ofNat c.toNat).toNat = c.toNat := by
    rw [UInt8.toNat_ofNat']
    omega
  refine ⟨by rw [small,Char.ofNat_toNat],?_⟩
  rw [UInt8.le_iff_toNat_le,UInt8.le_iff_toNat_le,small]
  exact range

theorem isDigit_of_mem {c : Char} (member : c ∈ Nat.toDigits 10 n) : c.isDigit = true :=
  Nat.isDigit_of_mem_toDigits (by decide) (by decide) member

theorem ascii_decimal (n : Nat) : ascii (decimal n) = Nat.toDigits 10 n := by
  unfold ascii decimal
  rw [List.map_map]
  exact (List.map_congr_left fun c member => (digit_byte (isDigit_of_mem member)).1).trans (List.map_id _)

theorem mem_decimal (member : b ∈ decimal n) : 48 ≤ b ∧ b ≤ 57 := by
  obtain ⟨c,digit,rfl⟩ := List.mem_map.mp member
  exact (digit_byte (isDigit_of_mem digit)).2

theorem decimal_ne_nil (n : Nat) : decimal n ≠ [] := by
  unfold decimal
  rw [Ne,List.map_eq_nil_iff]
  exact Nat.toDigits_ne_nil

theorem plain_decimal (n : Nat) : Plain (decimal n) := by
  refine ⟨decimal_ne_nil n,fun b member => ?_⟩
  have range := mem_decimal member
  simp only [UInt8.lt_iff_toNat_lt,UInt8.le_iff_toNat_le] at range ⊢
  exact ⟨Nat.le_trans (by decide) range.1,Nat.lt_of_le_of_lt range.2 (by decide)⟩

theorem mem_decimalInt {k : Int} (member : b ∈ decimalInt k) : b = 45 ∨ 48 ≤ b ∧ b ≤ 57 := by
  cases k with
  | ofNat n => exact .inr (mem_decimal member)
  | negSucc n => exact (List.mem_cons.mp member).imp id mem_decimal

theorem plain_decimalInt (k : Int) : Plain (decimalInt k) := by
  cases k with
  | ofNat n => exact plain_decimal n
  | negSucc n =>
    refine ⟨List.cons_ne_nil _ _,fun b member => ?_⟩
    rcases List.mem_cons.mp member with rfl | digit
    · decide
    · exact (plain_decimal (n + 1)).2 b digit

theorem le_ofDigitChars (cs : List Char) (n : Nat) : n ≤ Nat.ofDigitChars 10 cs n := by
  induction cs generalizing n with
  | nil => simp
  | cons c cs ih =>
    rw [Nat.ofDigitChars_cons]
    have := ih (10 * n + (c.toNat - '0'.toNat))
    omega

/-- Digits are read as what they stand for, where that is below 2^64. -/
theorem parseDigits_digits {cs : List Char} (digits : ∀ c ∈ cs, c.isDigit = true) (n : Nat) (small : n < 2 ^ 64) :
    parseDigits n cs = if Nat.ofDigitChars 10 cs n < 2 ^ 64 then (Nat.ofDigitChars 10 cs n,none)
      else (2 ^ 64 - 1,some .range) := by
  induction cs generalizing n with
  | nil =>
    rw [Nat.ofDigitChars_nil,if_pos small]
    rfl
  | cons c cs ih =>
    have next := le_ofDigitChars cs (10 * n + (c.toNat - '0'.toNat))
    rw [parseDigits,if_pos (digits c List.mem_cons_self),Nat.ofDigitChars_cons,Nat.mul_comm n 10]
    by_cases large : 2 ^ 64 ≤ 10 * n + (c.toNat - '0'.toNat)
    · rw [if_pos large,if_neg (Nat.not_lt.mpr (large.trans next))]
    · rw [if_neg large,ih (fun d member => digits d (List.mem_cons_of_mem _ member)) _ (Nat.lt_of_not_le large)]

theorem parseUint_toDigits (n : Nat) :
    Go.parseUint (Nat.toDigits 10 n) = if n < 2 ^ 64 then (n,none) else (2 ^ 64 - 1,some .range) := by
  unfold Go.parseUint
  rw [if_neg Nat.toDigits_ne_nil,parseDigits_digits (fun c member => isDigit_of_mem member) 0 (by decide),
    Nat.ofDigitChars_ten_toDigits]

@[simp] theorem parseUint_decimal (n : Nat) :
    parseUint (decimal n) = if n < 2 ^ 64 then (n,none) else (2 ^ 64 - 1,some .range) := by
  unfold parseUint
  rw [ascii_decimal,parseUint_toDigits]

/-- A number beyond int64 is read as the greatest one. -/
@[simp] theorem parseInt_decimal (n : Nat) : (parseInt (decimal n)).1 = min n (2 ^ 63 - 1) := by
  have unsigned : Go.parseInt (Nat.toDigits 10 n) = withSign false (Go.parseUint (Nat.toDigits 10 n)) := by
    unfold Go.parseInt
    split
    · rename_i rest text
      have digit := isDigit_of_mem (n := n) (c := '+') (by simp [text])
      exact absurd digit (by decide)
    · rename_i rest text
      have digit := isDigit_of_mem (n := n) (c := '-') (by simp [text])
      exact absurd digit (by decide)
    · rfl
  unfold parseInt
  rw [ascii_decimal,unsigned,parseUint_toDigits]
  unfold withSign
  by_cases large : 2 ^ 63 ≤ n
  · have cut : min n (2 ^ 63 - 1) = 2 ^ 63 - 1 := by omega
    rw [cut]
    by_cases fits : n < 2 ^ 64
    · rw [if_pos fits,if_neg (by simp),if_pos ⟨rfl,large⟩]
      rfl
    · rw [if_neg fits,if_neg (by simp),if_pos ⟨rfl,by decide⟩]
      rfl
  · have whole : min n (2 ^ 63 - 1) = n := by omega
    have fits : n < 2 ^ 64 := by omega
    rw [whole,if_pos fits,if_neg (by simp),if_neg fun both : false = false ∧ 2 ^ 63 ≤ n => large both.2,if_neg (by simp)]
    rfl

end Go.Bytes
