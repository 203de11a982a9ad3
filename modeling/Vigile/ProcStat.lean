import Vigile.GoBytes

/-! What the worker reads out of `/proc/<pid>/stat`, where the name of the process is any text in parentheses. -/
namespace Vigile.ProcStat

open Go.Bytes

/-- The fields that `parseProcStat` returns. -/
structure Stat where
  name : List UInt8
  state : List UInt8
  utime : Nat
  stime : Nat
  starttime : Nat
  rssPages : Int
  deriving DecidableEq

inductive Panic where
  | slice
  | index
  deriving DecidableEq

def openParen : UInt8 := 40
def closeParen : UInt8 := 41

def slice (s : List UInt8) (low high : Int) : Except Panic (List UInt8) :=
  if 0 ≤ low ∧ low ≤ high ∧ high ≤ s.length then .ok ((s.take high.toNat).drop low.toNat) else .error .slice

def field (columns : List (List UInt8)) (i : Nat) : Except Panic (List UInt8) :=
  match columns[i]? with
  | some column => .ok column
  | none => .error .index

def residentPages (column : List UInt8) : Int :=
  match parseUint column with
  | (rssUint,none) => if 9223372036854775807 < rssUint then 0 else rssUint
  | (_,some _) => 0

def parseProcStat (s : List UInt8) : Except Panic Stat := do
  let openIdx := indexByte s openParen
  let closeIdx := lastIndexByte s closeParen
  if openIdx = -1 ∨ closeIdx = -1 ∨ closeIdx ≤ openIdx then
    return ⟨[],[],0,0,0,0⟩
  let name ← slice s (openIdx + 1) closeIdx
  let columns := fields (← slice s (closeIdx + 2) s.length)
  if columns.length < 23 then
    return ⟨name,[],0,0,0,0⟩
  let state ← field columns 0
  let utime := (parseUint (← field columns 11)).1
  let stime := (parseUint (← field columns 12)).1
  let starttime := (parseUint (← field columns 19)).1
  let rssPages := residentPages (← field columns 21)
  return ⟨name,state,utime,stime,starttime,rssPages⟩

/-- A process as proc(5) writes it: between the fields that are read, ten, six and one number, and at least one behind
them. -/
structure Process where
  pid : Nat
  name : List UInt8
  state : UInt8
  before : List Int
  utime : Nat
  stime : Nat
  between : List Int
  starttime : Nat
  vsize : Nat
  rss : Nat
  after : List Int
  letter : 65 ≤ state ∧ state ≤ 122
  ten : before.length = 10
  six : between.length = 6
  behind : after ≠ []
  times : utime < 2 ^ 64 ∧ stime < 2 ^ 64 ∧ starttime < 2 ^ 64
  pages : rss < 2 ^ 63

namespace Process

def numbers (p : Process) : List (List UInt8) :=
  p.before.map decimalInt ++ [decimal p.utime,decimal p.stime] ++ p.between.map decimalInt ++
    [decimal p.starttime,decimal p.vsize,decimal p.rss] ++ p.after.map decimalInt

def line (p : Process) : List UInt8 :=
  decimal p.pid ++ [32,openParen] ++ p.name ++ [closeParen,32] ++
    ([p.state] ++ (spaced (p.numbers.map fun column => (0,column)) ++ [10]))

def stat (p : Process) : Stat := ⟨p.name,[p.state],p.utime,p.stime,p.starttime,p.rss⟩

end Process

/-! What it is for -/

/-- A parenthesis is opened, and closed with the last byte. -/
def EndsInName (s : List UInt8) : Prop := s.getLast? = some closeParen ∧ openParen ∈ s

instance (s : List UInt8) : Decidable (EndsInName s) := inferInstanceAs (Decidable (_ ∧ _))

variable {s front name rest : List UInt8}

def read (name rest : List UInt8) : Stat :=
  let columns := fields rest
  if columns.length < 23 then ⟨name,[],0,0,0,0⟩
  else ⟨name,columns.getD 0 [],(parseUint (columns.getD 11 [])).1,(parseUint (columns.getD 12 [])).1,
    (parseUint (columns.getD 19 [])).1,residentPages (columns.getD 21 [])⟩

theorem field_getD {columns : List (List UInt8)} {i : Nat} (bound : i < columns.length) :
    field columns i = .ok (columns.getD i []) := by
  unfold field
  rw [List.getD_eq_getElem?_getD,List.getElem?_eq_getElem bound]
  rfl

/-- What lies between a front and an end. -/
theorem slice_middle {front middle back : List UInt8} {low high : Int} (from_ : low = front.length)
    (to_ : high = front.length + middle.length) : slice (front ++ middle ++ back) low high = .ok middle := by
  have taken : (front ++ middle ++ back).take high.toNat = front ++ middle := List.take_left' (by simp; omega)
  have dropped : (front ++ middle).drop low.toNat = middle := List.drop_left' (by omega)
  unfold slice
  rw [if_pos (by simp; omega),taken,dropped]

/-- A text with a parenthesis, the first to be opened, and a later one, the last to be closed: the byte behind it is
dropped, unless there is none. -/
theorem parseProcStat_named (opening : openParen ∉ front) (closing : closeParen ∉ rest) :
    parseProcStat (front ++ openParen :: (name ++ closeParen :: rest)) =
      if rest = [] then .error .slice else .ok (read name (rest.drop 1)) := by
  have regrouped : front ++ openParen :: (name ++ closeParen :: rest) = front ++ openParen :: name ++ closeParen :: rest := by
    simp
  have opens := indexByte_first opening (name ++ closeParen :: rest)
  have closes := lastIndexByte_last (front ++ openParen :: name) closing
  have length : ((front ++ openParen :: name).length : Int) = front.length + 1 + name.length := by
    simp
    omega
  rw [← regrouped,length] at closes
  have named : slice (front ++ openParen :: (name ++ closeParen :: rest)) (front.length + 1)
      (front.length + 1 + name.length) = .ok name := by
    have parts : front ++ openParen :: (name ++ closeParen :: rest) =
        (front ++ [openParen]) ++ name ++ closeParen :: rest := by simp
    rw [parts]
    exact slice_middle (by simp) (by simp)
  unfold parseProcStat
  dsimp only
  rw [opens,closes,if_neg (by omega),named]
  change (do
    let columns := fields (← slice (front ++ openParen :: (name ++ closeParen :: rest)) (front.length + 1 + name.length + 2)
      (front ++ openParen :: (name ++ closeParen :: rest)).length)
    _ : Except Panic Stat) = _
  cases rest with
  | nil =>
    have beyond : slice (front ++ openParen :: (name ++ [closeParen])) (front.length + 1 + name.length + 2)
        (front ++ openParen :: (name ++ [closeParen])).length = .error .slice := by
      unfold slice
      rw [if_neg (by simp; omega)]
    rw [beyond]
    rfl
  | cons b rest =>
    have behind : slice (front ++ openParen :: (name ++ closeParen :: b :: rest)) (front.length + 1 + name.length + 2)
        (front ++ openParen :: (name ++ closeParen :: b :: rest)).length = .ok rest := by
      have parts : front ++ openParen :: (name ++ closeParen :: b :: rest) =
          (front ++ openParen :: name ++ [closeParen,b]) ++ rest ++ [] := by simp
      rw [parts]
      exact slice_middle (by simp; omega) (by simp; omega)
    rw [behind]
    change (if (fields rest).length < 23 then _ else _) = _
    unfold read
    by_cases short : (fields rest).length < 23
    · rw [if_pos short]
      simp only [List.drop_succ_cons,List.drop_zero]
      rw [if_pos short]
      rfl
    · rw [if_neg short]
      simp only [List.drop_succ_cons,List.drop_zero]
      rw [if_neg short,field_getD (by omega),field_getD (by omega),field_getD (by omega),field_getD (by omega),
        field_getD (by omega)]
      rfl

/-- Without a name in parentheses there is nothing to read. -/
theorem parseProcStat_unnamed (unnamed : ∀ front name rest, openParen ∉ front → closeParen ∉ rest →
    s ≠ front ++ openParen :: (name ++ closeParen :: rest)) : parseProcStat s = .ok ⟨[],[],0,0,0,0⟩ := by
  have nothing : indexByte s openParen = -1 ∨ lastIndexByte s closeParen = -1 ∨
      lastIndexByte s closeParen ≤ indexByte s openParen := by
    by_cases opened : openParen ∈ s
    · obtain ⟨front,tail,rfl,first⟩ := List.eq_append_cons_of_mem opened
      have opens := indexByte_first first tail
      by_cases closed : closeParen ∈ front ++ openParen :: tail
      · have before : closeParen ∉ openParen :: tail := by
          intro member
          have later : closeParen ∈ tail := (List.mem_cons.mp member).resolve_left (by decide)
          obtain ⟨name,rest,rfl,last⟩ := split_last later
          exact unnamed front name rest first last rfl
        have within : closeParen ∈ front := (List.mem_append.mp closed).resolve_right before
        obtain ⟨start,rest,rfl,last⟩ := split_last within
        have regrouped : start ++ closeParen :: rest ++ openParen :: tail =
            start ++ closeParen :: (rest ++ openParen :: tail) := by simp
        have absent : closeParen ∉ rest ++ openParen :: tail := by
          rw [List.mem_append,not_or]
          exact ⟨last,before⟩
        have closes := lastIndexByte_last start absent
        rw [← regrouped] at closes
        rw [opens,closes]
        simp
        omega
      · exact .inr (.inl (if_neg closed))
    · exact .inl (if_neg opened)
  unfold parseProcStat
  dsimp only
  rw [if_pos nothing]
  rfl

theorem parseProcStat_returns_iff (s : List UInt8) : (∃ stat, parseProcStat s = .ok stat) ↔ ¬EndsInName s := by
  by_cases named : ∃ front name rest, openParen ∉ front ∧ closeParen ∉ rest ∧
      s = front ++ openParen :: (name ++ closeParen :: rest)
  · obtain ⟨front,name,rest,opening,closing,rfl⟩ := named
    rw [parseProcStat_named opening closing]
    have ends : EndsInName (front ++ openParen :: (name ++ closeParen :: rest)) ↔ rest = [] := by
      unfold EndsInName
      constructor
      · rintro ⟨last,_⟩
        by_contra filled
        rw [List.getLast?_append_cons,List.getLast?_cons_of_ne_nil (by simp),List.getLast?_append_cons,
          List.getLast?_cons_of_ne_nil filled] at last
        exact closing (List.mem_of_getLast? last)
      · rintro rfl
        have regrouped : front ++ openParen :: (name ++ [closeParen]) = (front ++ openParen :: name) ++ [closeParen] := by simp
        exact ⟨by rw [regrouped,List.getLast?_concat],by simp⟩
    rw [ends]
    by_cases last : rest = []
    · simp [last]
    · simp [last]
  · have unnamed : ∀ front name rest, openParen ∉ front → closeParen ∉ rest →
        s ≠ front ++ openParen :: (name ++ closeParen :: rest) :=
      fun front name rest opening closing same => named ⟨front,name,rest,opening,closing,same⟩
    refine iff_of_true ⟨_,parseProcStat_unnamed unnamed⟩ ?_
    rintro ⟨last,opened⟩
    obtain ⟨front,tail,rfl,first⟩ := List.eq_append_cons_of_mem opened
    have later : closeParen ∈ tail := by
      rw [List.getLast?_append_cons] at last
      exact (List.mem_cons.mp (List.mem_of_getLast? last)).resolve_left (by decide)
    obtain ⟨name,rest,rfl,absent⟩ := split_last later
    exact unnamed front name rest first absent rfl

theorem plain_numbers (p : Process) : ∀ column ∈ p.numbers.map fun column => ((0 : Nat),column), Plain column.2 := by
  intro column member
  obtain ⟨number,listed,rfl⟩ := List.mem_map.mp member
  unfold Process.numbers at listed
  simp only [List.mem_append,List.mem_map,List.mem_cons,List.not_mem_nil,or_false] at listed
  rcases listed with (((⟨k,_,rfl⟩ | rfl | rfl) | ⟨k,_,rfl⟩) | rfl | rfl | rfl) | ⟨k,_,rfl⟩
  all_goals first | exact plain_decimalInt _ | exact plain_decimal _

theorem closing_line (p : Process) :
    closeParen ∉ 32 :: ([p.state] ++ (spaced (p.numbers.map fun column => (0,column)) ++ [10])) := by
  intro member
  rcases List.mem_cons.mp member with same | member
  · exact absurd same (by decide)
  rcases List.mem_append.mp member with state | member
  · have low := p.letter.1
    rw [← List.mem_singleton.mp state] at low
    exact absurd low (by decide)
  rcases List.mem_append.mp member with columns | last
  · obtain ⟨column,listed,within⟩ := List.mem_flatMap.mp columns
    obtain ⟨number,among,rfl⟩ := List.mem_map.mp listed
    rcases List.mem_append.mp within with gap | digits
    · exact absurd (List.eq_of_mem_replicate gap) (by decide)
    · unfold Process.numbers at among
      simp only [List.mem_append,List.mem_map,List.mem_cons,List.not_mem_nil,or_false] at among
      have number : closeParen = 45 ∨ 48 ≤ closeParen ∧ closeParen ≤ 57 := by
        rcases among with (((⟨k,_,rfl⟩ | rfl | rfl) | ⟨k,_,rfl⟩) | rfl | rfl | rfl) | ⟨k,_,rfl⟩
        all_goals first | exact mem_decimalInt digits | exact .inr (mem_decimal digits)
      exact absurd number (by decide)
  · exact absurd (List.mem_singleton.mp last) (by decide)

theorem residentPages_decimal {n : Nat} (small : n < 2 ^ 63) : residentPages (decimal n) = n := by
  unfold residentPages
  rw [parseUint_decimal,if_pos (by omega)]
  exact if_neg (by omega)

/-- What the kernel writes is read back. -/
theorem parseProcStat_line (p : Process) : parseProcStat p.line = .ok p.stat := by
  have opening : openParen ∉ decimal p.pid ++ [32] := by
    rw [List.mem_append,not_or]
    exact ⟨fun digit => absurd (mem_decimal digit).1 (by decide),by decide⟩
  have text : p.line = (decimal p.pid ++ [32]) ++ openParen :: (p.name ++ closeParen :: 32 ::
      ([p.state] ++ (spaced (p.numbers.map fun column => (0,column)) ++ [10]))) := by
    simp [Process.line]
  have seen : Plain [p.state] := by
    refine ⟨List.cons_ne_nil _ _,fun b member => ?_⟩
    obtain ⟨low,high⟩ := p.letter
    rw [List.mem_singleton.mp member]
    exact ⟨UInt8.le_trans (by decide) low,UInt8.lt_of_le_of_lt high (by decide)⟩
  have cut := fields_padLeft 0 seen (plain_numbers p) (.inr rfl)
  have columns : fields ([p.state] ++ (spaced (p.numbers.map fun column => (0,column)) ++ [10])) =
      [p.state] :: p.numbers := by
    refine cut.trans ?_
    rw [List.map_map]
    exact congrArg ([p.state] :: ·) (List.map_id _)
  have complete : 22 ≤ p.numbers.length := by
    have behind := List.length_pos_of_ne_nil p.behind
    simp only [Process.numbers,List.length_append,List.length_map,List.length_cons,List.length_nil,p.ten,p.six]
    omega
  rw [text,parseProcStat_named opening (closing_line p),if_neg (List.cons_ne_nil _ _),List.drop_succ_cons,List.drop_zero]
  unfold read
  rw [columns]
  dsimp only
  rw [if_neg (by simp; omega)]
  have utime : p.numbers.getD 10 [] = decimal p.utime := by
    simp [Process.numbers,p.ten,p.six]
  have stime : p.numbers.getD 11 [] = decimal p.stime := by
    simp [Process.numbers,List.getElem?_append,p.ten,p.six]
  have starttime : p.numbers.getD 18 [] = decimal p.starttime := by
    simp [Process.numbers,List.getElem?_append,p.ten,p.six]
  have rss : p.numbers.getD 20 [] = decimal p.rss := by
    simp [Process.numbers,List.getElem?_append,p.ten,p.six]
  simp only [List.getD_cons_zero,List.getD_cons_succ,utime,stime,starttime,rss,parseUint_decimal,if_pos p.times.1,
    if_pos p.times.2.1,if_pos p.times.2.2,residentPages_decimal p.pages]
  rfl

/-- It returns for exactly those texts that do not end with a name, and reads back every line that the kernel writes,
whatever the name. -/
theorem parseProcStat_sound_iff (s : List UInt8) (p : Process) :
    ((∃ stat, parseProcStat s = .ok stat) ↔ ¬EndsInName s) ∧ parseProcStat p.line = .ok p.stat :=
  ⟨parseProcStat_returns_iff s,parseProcStat_line p⟩

/-- A line cut behind the name. -/
theorem truncated_panics : parseProcStat "1 (a)".toUTF8.data.toList = .error .slice := by
  decide +kernel

end Vigile.ProcStat
