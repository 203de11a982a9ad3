import Mathlib.Algebra.BigOperators.Group.List.Lemmas
import Mathlib.Algebra.Order.BigOperators.Group.List
import Vigile.GoBytes

/-! The worker's network counters, read from the text of the kernel's `/proc/net/dev`. -/
namespace Vigile.NetworkStats

open Go.Bytes

/-- The counters that `getNetworkStats` returns. -/
inductive Counter where
  | bytesRecv
  | bytesSent
  | pktsRecv
  | pktsSent
  | errIn
  | errOut
  | dropIn
  | dropOut
  deriving DecidableEq

def Counter.index : Counter → Fin 16
  | .bytesRecv => 0
  | .pktsRecv => 1
  | .errIn => 2
  | .dropIn => 3
  | .bytesSent => 8
  | .pktsSent => 9
  | .errOut => 10
  | .dropOut => 11

abbrev Stats := Counter → Int64

/-- A number that cannot be parsed is logged, and counts as what the parser makes of it. -/
def parseInt64 (s : List UInt8) : Int64 := Int64.ofInt (parseInt s).1

def newline : UInt8 := 10
def colon : UInt8 := 58
def blank : UInt8 := 32
def lo : List UInt8 := "lo".toUTF8.data.toList

def splitColon (line : List UInt8) : List UInt8 × List UInt8 :=
  (line.takeWhile (· ≠ colon),(line.dropWhile (· ≠ colon)).tail)

/-- The loop body. -/
def addLine (stats : Stats) (line : List UInt8) : Stats :=
  if colon ∉ line ∨ [blank].isPrefixOf line then stats
  else
    let parts := splitColon line
    let iface := trimSpace parts.1
    if lo.isPrefixOf iface then stats
    else
      let columns := fields parts.2
      if columns.length < 16 then stats
      else fun counter => stats counter + parseInt64 (columns.getD counter.index [])

/-- The file's content, or nothing where it cannot be read. -/
def getNetworkStats : Option (List UInt8) → Stats
  | none => fun _ => 0
  | some data => (data.splitOn newline).foldl addLine fun _ => 0

/-- What the kernel allows in a name, besides the colon of the loopback's aliases. -/
def Named (name : List UInt8) : Prop :=
  name ≠ [] ∧ (∀ b ∈ name, ¬(9 ≤ b ∧ b ≤ 13) ∧ b ≠ blank) ∧ (colon ∉ name ∨ (lo ++ [colon]).isPrefixOf name)

instance (name : List UInt8) : Decidable (Named name) := inferInstanceAs (Decidable (_ ∧ _))

structure Interface where
  name : List UInt8
  counters : Fin 16 → Nat
  named : Named name
  small : ∀ i, counters i < 2 ^ 63

namespace Interface

def Loopback (i : Interface) : Prop := i.name = lo ∨ (lo ++ [colon]).isPrefixOf i.name

instance (i : Interface) : Decidable i.Loopback := inferInstanceAs (Decidable (_ ∨ _))

def count (i : Interface) (counter : Counter) : Nat := i.counters counter.index

end Interface

def header : List (List UInt8) :=
  ["Inter-|   Receive                                                |  Transmit".toUTF8.data.toList,
    " face |bytes    packets errs drop fifo frame compressed multicast|bytes    packets errs drop fifo colls carrier compressed".toUTF8.data.toList]

def width (k : Fin 16) : Nat := [7,7,4,4,4,5,10,9,8,7,4,4,4,5,7,10].getD k 0

def columnsOf (i : Interface) : List (Nat × List UInt8) :=
  (List.finRange 16).map fun k => (width k - (decimal (i.counters k)).length,decimal (i.counters k))

/-- `"%6s: %7llu %7llu %4llu …"` -/
def lineOf (i : Interface) : List UInt8 := padLeft 6 i.name ++ colon :: spaced (columnsOf i)

def procNetDev (interfaces : List Interface) : List UInt8 :=
  (header ++ interfaces.map lineOf).flatMap (· ++ [newline])

/-! What it is for -/

def total (interfaces : List Interface) (counter : Counter) : Nat :=
  ((interfaces.filter fun i => ¬i.Loopback).map (·.count counter)).sum

/-- Lines that begin with a space are taken for the header, and names that begin with "lo" for the loopback. -/
def Missed (i : Interface) : Prop := i.name.length < 6 ∨ lo.isPrefixOf (trimSpace i.name)

instance (i : Interface) : Decidable (Missed i) := inferInstanceAs (Decidable (_ ∨ _))

variable {stats : Stats} {i : Interface} {interfaces : List Interface} {line : List UInt8}

theorem addLine_header (line : List UInt8) (member : line ∈ header) (stats : Stats) : addLine stats line = stats := by
  have plain : ∀ line ∈ header, colon ∉ line := by
    decide +kernel
  exact if_pos (.inl (plain line member))

theorem plain_columns (i : Interface) : ∀ column ∈ columnsOf i, Plain column.2 := by
  intro column member
  obtain ⟨k,_,rfl⟩ := List.mem_map.mp member
  exact plain_decimal _

theorem fields_columns (i : Interface) :
    fields (spaced (columnsOf i)) = (List.finRange 16).map fun k => decimal (i.counters k) := by
  rw [fields_spaced (plain_columns i)]
  simp [columnsOf]

/-- As an int64, with what is beyond it cut to the greatest. -/
theorem parseInt64_decimal (n : Nat) : parseInt64 (decimal n) = Int64.ofNat (min n (2 ^ 63 - 1)) := by
  unfold parseInt64
  rw [parseInt_decimal]
  rfl

theorem parseInt64_column (i : Interface) (counter : Counter) :
    parseInt64 (((List.finRange 16).map fun k => decimal (i.counters k)).getD counter.index []) =
      Int64.ofNat (i.count counter) := by
  have column : ((List.finRange 16).map fun k => decimal (i.counters k)).getD counter.index [] =
      decimal (i.counters counter.index) := by
    simp
  have small := i.small counter.index
  have value : min (i.counters counter.index) (2 ^ 63 - 1) = i.counters counter.index := by omega
  rw [column,parseInt64_decimal,value]
  rfl

/-- What precedes the colon of a name without one, and of an alias of the loopback. -/
theorem splitColon_named (front rest : List UInt8) (absent : colon ∉ front) :
    splitColon (front ++ colon :: rest) = (front,rest) := by
  have whole : ∀ b ∈ front, (decide (b ≠ colon)) = true := by
    intro b member
    have other : b ≠ colon := fun same => absent (same ▸ member)
    exact decide_eq_true other
  unfold splitColon
  rw [List.takeWhile_append_of_pos whole,List.dropWhile_append_of_pos whole]
  simp

/-- A line that is read adds its counters; the others leave the sums as they are. -/
theorem addLine_interface (i : Interface) (stats : Stats) :
    addLine stats (lineOf i) =
      if i.Loopback ∨ Missed i then stats else fun counter => stats counter + Int64.ofNat (i.count counter) := by
  by_cases short : i.name.length < 6
  · have begins : [blank].isPrefixOf (lineOf i) = true := by
      obtain ⟨k,gap⟩ : ∃ k, 6 - i.name.length = k + 1 := ⟨5 - i.name.length,by omega⟩
      unfold lineOf padLeft
      rw [gap,List.replicate_succ]
      rfl
    rw [if_pos (.inr (.inl short))]
    exact if_pos (.inr begins)
  have line : lineOf i = i.name ++ colon :: spaced (columnsOf i) := by
    unfold lineOf padLeft
    rw [Nat.sub_eq_zero_of_le (Nat.le_of_not_lt short)]
    rfl
  have read : ¬(colon ∉ lineOf i ∨ [blank].isPrefixOf (lineOf i) = true) := by
    rw [line,not_or,not_not]
    obtain ⟨filled,clear,_⟩ := i.named
    refine ⟨List.mem_append_right _ List.mem_cons_self,?_⟩
    cases name : i.name with
    | nil => contradiction
    | cons b rest =>
      have other := (clear b (name ▸ List.mem_cons_self)).2
      simp [other.symm]
  unfold addLine
  rw [if_neg read,line]
  rcases i.named.2.2 with absent | aliased
  · rw [splitColon_named i.name _ absent]
    have single : ¬(lo ++ [colon]).isPrefixOf i.name = true := by
      intro isPrefix
      rw [List.isPrefixOf_iff_prefix] at isPrefix
      exact absent (isPrefix.subset (by simp))
    have long : i.name ≠ lo := by
      intro same
      exact short (same ▸ by decide)
    have real : ¬i.Loopback := not_or.mpr ⟨long,single⟩
    by_cases named : lo.isPrefixOf (trimSpace i.name) = true
    · have missed : i.Loopback ∨ Missed i := .inr (.inr named)
      rw [if_pos missed]
      exact if_pos named
    · have counted : ¬(i.Loopback ∨ Missed i) := not_or.mpr ⟨real,not_or.mpr ⟨short,named⟩⟩
      rw [if_neg counted]
      dsimp only
      rw [if_neg named,fields_columns,if_neg (by simp)]
      funext counter
      rw [parseInt64_column]
  · have loopback : i.Loopback ∨ Missed i := .inl (.inr aliased)
    rw [if_pos loopback]
    rw [List.isPrefixOf_iff_prefix] at aliased
    obtain ⟨rest,split⟩ := aliased
    have text : i.name ++ colon :: spaced (columnsOf i) = lo ++ colon :: (rest ++ colon :: spaced (columnsOf i)) := by
      rw [← split]
      simp
    rw [text,splitColon_named lo _ (by decide)]
    have named : lo.isPrefixOf (trimSpace lo) = true := by
      decide +kernel
    exact if_pos named

/-- Adding up what each interface has. -/
theorem foldl_add (counted : List Interface) (stats : Stats) (counter : Counter) :
    counted.foldl (fun (stats : Stats) i counter => stats counter + Int64.ofNat (i.count counter)) stats counter =
      stats counter + Int64.ofNat (counted.map (·.count counter)).sum := by
  induction counted generalizing stats with
  | nil => simp
  | cons i counted ih =>
    rw [List.foldl_cons,ih,List.map_cons,List.sum_cons,Int64.ofNat_add,Int64.add_assoc]

def counted (interfaces : List Interface) : List Interface := interfaces.filter fun i => ¬(i.Loopback ∨ Missed i)

theorem foldl_lines (interfaces : List Interface) (stats : Stats) :
    (interfaces.map lineOf).foldl addLine stats =
      (counted interfaces).foldl (fun stats i counter => stats counter + Int64.ofNat (i.count counter)) stats := by
  induction interfaces generalizing stats with
  | nil => rfl
  | cons i interfaces ih =>
    rw [List.map_cons,List.foldl_cons,ih,addLine_interface]
    unfold counted
    by_cases skipped : i.Loopback ∨ Missed i
    · rw [if_pos skipped,List.filter_cons_of_neg (by simpa using or_iff_not_imp_left.mp skipped)]
    · rw [if_neg skipped,List.filter_cons_of_pos (by simpa using skipped),List.foldl_cons]

theorem newline_line (i : Interface) : newline ∉ lineOf i := by
  intro member
  rcases List.mem_append.mp member with name | columns
  · exact newline_padLeft (fun among => (i.named.2.1 newline among).1 (by decide)) 6 name
  · rcases List.mem_cons.mp columns with same | columns
    · exact absurd same (by decide)
    · exact newline_spaced (plain_columns i) columns

/-- The sums are those of the lines that are read. -/
theorem getNetworkStats_counted (interfaces : List Interface) (counter : Counter) :
    getNetworkStats (some (procNetDev interfaces)) counter =
      Int64.ofNat ((counted interfaces).map (·.count counter)).sum := by
  have separate : TextLines.Separate newline (header ++ interfaces.map lineOf) := by
    intro line member
    rcases List.mem_append.mp member with first | among
    · have plain : ∀ line ∈ header, newline ∉ line := by
        decide +kernel
      exact plain line first
    · obtain ⟨i,_,rfl⟩ := List.mem_map.mp among
      exact newline_line i
  have titles : header.foldl addLine (fun _ => 0) = fun _ => 0 := by
    unfold header
    rw [List.foldl_cons,List.foldl_cons,addLine_header _ List.mem_cons_self,
      addLine_header _ (List.mem_cons_of_mem _ List.mem_cons_self)]
    rfl
  have last (stats : Stats) : addLine stats [] = stats := if_pos (.inl (by simp))
  unfold getNetworkStats procNetDev
  dsimp only
  rw [TextLines.split_terminated separate,List.foldl_append,List.foldl_append,titles,foldl_lines,List.foldl_cons,
    List.foldl_nil,last,foldl_add]
  exact Int64.zero_add _

/-- What is not read of what should be. -/
theorem total_split (interfaces : List Interface) (counter : Counter) :
    total interfaces counter = ((counted interfaces).map (·.count counter)).sum +
      ((interfaces.filter fun i => ¬i.Loopback ∧ Missed i).map (·.count counter)).sum := by
  induction interfaces with
  | nil => rfl
  | cons i interfaces ih =>
    unfold total counted at ih ⊢
    by_cases loopback : i.Loopback
    · simpa [loopback] using ih
    · by_cases missed : Missed i
      · simp only [loopback,missed,not_false_eq_true,decide_true,or_true,not_true_eq_false,decide_false,and_self,
          List.filter_cons_of_pos,List.map_cons,List.sum_cons,Bool.false_eq_true,List.filter_cons_of_neg] at ih ⊢
        omega
      · simp only [loopback,missed,not_false_eq_true,decide_true,or_self,decide_false,and_false,
          List.filter_cons_of_pos,List.map_cons,List.sum_cons,Bool.false_eq_true,List.filter_cons_of_neg] at ih ⊢
        omega

/-- What is returned is right for exactly those texts whose sums an int64 holds, and where an interface that is
missed has counted nothing. -/
theorem getNetworkStats_sound_iff (interfaces : List Interface) :
    (∀ counter, (getNetworkStats (some (procNetDev interfaces)) counter).toInt = total interfaces counter) ↔
      (∀ counter, total interfaces counter < 2 ^ 63) ∧
      ∀ i ∈ interfaces, ¬i.Loopback → Missed i → ∀ counter, i.count counter = 0 := by
  have returned (counter : Counter) (fits : total interfaces counter < 2 ^ 63) :
      (getNetworkStats (some (procNetDev interfaces)) counter).toInt =
        ((counted interfaces).map (·.count counter)).sum := by
    have split := total_split interfaces counter
    rw [getNetworkStats_counted,Int64.toInt_ofNat_of_lt (by omega)]
  constructor
  · intro sound
    have fits (counter : Counter) : total interfaces counter < 2 ^ 63 := by
      have bound := Int64.toInt_lt (getNetworkStats (some (procNetDev interfaces)) counter)
      rw [sound counter] at bound
      exact_mod_cast bound
    refine ⟨fits,fun i member real missed counter => ?_⟩
    have same := (returned counter (fits counter)).symm.trans (sound counter)
    have split := total_split interfaces counter
    have nothing : ((interfaces.filter fun i => ¬i.Loopback ∧ Missed i).map (·.count counter)).sum = 0 := by
      omega
    exact List.sum_eq_zero_iff.mp nothing _ (List.mem_map_of_mem (List.mem_filter.mpr ⟨member,by simp [real,missed]⟩))
  · rintro ⟨fits,nothing⟩ counter
    have none : ((interfaces.filter fun i => ¬i.Loopback ∧ Missed i).map (·.count counter)).sum = 0 := by
      refine List.sum_eq_zero_iff.mpr fun n member => ?_
      obtain ⟨i,among,rfl⟩ := List.mem_map.mp member
      obtain ⟨listed,both⟩ := List.mem_filter.mp among
      have both := of_decide_eq_true both
      exact nothing i listed both.1 both.2 counter
    rw [returned counter (fits counter),total_split,none]
    rfl

/-- A card that has received one byte, under a name of four letters. -/
def eth0 : Interface where
  name := "eth0".toUTF8.data.toList
  counters k := if k = 0 then 1 else 0
  named := by decide +kernel
  small k := by
    split <;> decide

/-- Its line begins with two spaces. -/
theorem eth0_unsound : ¬∀ counter, (getNetworkStats (some (procNetDev [eth0])) counter).toInt = total [eth0] counter := by
  intro sound
  have read : (getNetworkStats (some (procNetDev [eth0])) .bytesRecv).toInt = 0 := by
    decide +kernel
  have right : total [eth0] .bytesRecv = 1 := by
    decide +kernel
  have same := sound .bytesRecv
  rw [read,right] at same
  exact absurd same (by decide)

end Vigile.NetworkStats
