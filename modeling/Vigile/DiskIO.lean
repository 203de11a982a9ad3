import Vigile.NetworkStats

/-! The worker's disk throughput, read from the text of the kernel's `/proc/diskstats`. -/
namespace Vigile.DiskIO

open Go.Bytes
open NetworkStats (parseInt64 parseInt64_decimal newline)

/-- What `getDiskIO` returns. -/
structure Totals where
  reads : Int64
  writes : Int64
  readBytes : Int64
  writeBytes : Int64
  deriving DecidableEq

def Totals.add (a b : Totals) : Totals :=
  ⟨a.reads + b.reads,a.writes + b.writes,a.readBytes + b.readBytes,a.writeBytes + b.writeBytes⟩

def text (s : String) : List UInt8 := s.toUTF8.data.toList

def p : UInt8 := 112

def prefixes : List (List UInt8) := [text "sd",text "nvme",text "vd",text "xvd",text "mmcblk"]

def lastIndexP (name : List UInt8) : Int := lastIndexByte name p

def isPhysicalDisk (name : List UInt8) : Bool :=
  if !prefixes.any (·.isPrefixOf name) then false
  else
    let last := name.getLastD 0
    if 97 ≤ last && last ≤ 122 then true
    else if (text "nvme").isPrefixOf name then
      let lastP := lastIndexP name
      if 0 < lastP ∧ (text "nvme0").length < lastP ∧ lastP < name.length - 1 then false else true
    else if (text "mmcblk").isPrefixOf name then !name.contains p
    else false

/-- The loop body. -/
def addLine (io : Totals) (line : List UInt8) : Totals :=
  let columns := fields line
  if columns.length < 14 then io
  else if !isPhysicalDisk (columns.getD 2 []) then io
  else io.add ⟨parseInt64 (columns.getD 3 []),parseInt64 (columns.getD 7 []),parseInt64 (columns.getD 5 []) * 512,
    parseInt64 (columns.getD 9 []) * 512⟩

/-- The file's content, or nothing where it cannot be read. -/
def getDiskIO : Option (List UInt8) → Totals
  | none => ⟨0,0,0,0⟩
  | some data => (data.splitOn newline).foldl addLine ⟨0,0,0,0⟩

inductive Family where
  | sd
  | vd
  | xvd
  deriving DecidableEq

def Family.text : Family → List UInt8
  | .sd => DiskIO.text "sd"
  | .vd => DiskIO.text "vd"
  | .xvd => DiskIO.text "xvd"

def Letters (s : List UInt8) : Prop := s ≠ [] ∧ ∀ b ∈ s, 97 ≤ b ∧ b ≤ 122

instance (s : List UInt8) : Decidable (Letters s) := inferInstanceAs (Decidable (_ ∧ _))

inductive Disk where
  | lettered (family : Family) (letters : {s : List UInt8 // Letters s})
  | nvme (controller «namespace» : Nat)
  | mmcblk (number : Nat)

def Disk.name : Disk → List UInt8
  | .lettered family letters => family.text ++ letters
  | .nvme controller «namespace» => text "nvme" ++ decimal controller ++ text "n" ++ decimal «namespace»
  | .mmcblk number => text "mmcblk" ++ decimal number

/-- What stands between a disk and the number of a partition. -/
def Disk.separator : Disk → List UInt8
  | .lettered _ _ => []
  | .nvme _ _ => [p]
  | .mmcblk _ => [p]

/-- A line: a whole disk or a partition of it, with eleven counters and those that later kernels have added. -/
structure Device where
  major : Nat
  minor : Nat
  disk : Disk
  partition : Option Nat
  counters : List Nat
  complete : 11 ≤ counters.length

namespace Device

def name (d : Device) : List UInt8 :=
  match d.partition with
  | none => d.disk.name
  | some k => d.disk.name ++ d.disk.separator ++ decimal k

def columns (d : Device) : List (Nat × List UInt8) :=
  (7 - (decimal d.minor).length,decimal d.minor) :: (0,d.name) :: d.counters.map fun n => (0,decimal n)

def line (d : Device) : List UInt8 := padLeft 4 (decimal d.major) ++ spaced d.columns

def count (d : Device) (k : Nat) : Nat := d.counters.getD k 0

end Device

def diskstats (devices : List Device) : List UInt8 := devices.flatMap fun d => d.line ++ [newline]

/-! What it is for -/

def whole (devices : List Device) : List Device := devices.filter fun d => d.partition.isNone

/-- A counter over the whole disks, each once, as far as an int64 goes. -/
def total (k : Nat) (devices : List Device) : Nat := ((whole devices).map fun d => min (d.count k) (2 ^ 63 - 1)).sum

def sum (k : Nat) (devices : List Device) : Nat := ((whole devices).map (·.count k)).sum

variable {name s : List UInt8} {d : Device} {devices : List Device}

theorem text_eq : text "sd" = [115,100] ∧ text "vd" = [118,100] ∧ text "xvd" = [120,118,100] ∧
    text "nvme" = [110,118,109,101] ∧ text "n" = [110] ∧ text "mmcblk" = [109,109,99,98,108,107] := by
  decide +kernel

theorem prefixes_eq : prefixes =
    [[115,100],[110,118,109,101],[118,100],[120,118,100],[109,109,99,98,108,107]] := by
  decide +kernel

theorem last_mem (front : List UInt8) (filled : s ≠ []) : (front ++ s).getLastD 0 ∈ s := by
  rw [List.getLastD_eq_getLast?,List.getLast?_append_of_ne_nil _ filled,List.getLast?_eq_getLast_of_ne_nil filled]
  exact List.getLast_mem filled

theorem not_letter {b : UInt8} {n : Nat} (member : b ∈ decimal n) : ¬97 ≤ b := by
  have range := (mem_decimal member).2
  intro letter
  exact absurd (UInt8.le_trans letter range) (by decide)

theorem p_decimal (n : Nat) : p ∉ decimal n := fun member => not_letter member (by decide)

/-- The names that end in a digit are told apart by their 'p', and the others are of whole disks. -/
theorem isPhysicalDisk_numbered (front : List UInt8) (n : Nat) (known : prefixes.any (·.isPrefixOf (front ++ decimal n))) :
    isPhysicalDisk (front ++ decimal n) =
      if (text "nvme").isPrefixOf (front ++ decimal n) then
        !decide (0 < lastIndexP (front ++ decimal n) ∧ (text "nvme0").length < lastIndexP (front ++ decimal n) ∧
          lastIndexP (front ++ decimal n) < (front ++ decimal n).length - 1)
      else (text "mmcblk").isPrefixOf (front ++ decimal n) && !(front ++ decimal n).contains p := by
  have digit := not_letter (last_mem front (decimal_ne_nil n))
  generalize front ++ decimal n = name at known digit ⊢
  have numbered : (decide (97 ≤ name.getLastD 0) && decide (name.getLastD 0 ≤ 122)) = false := by
    rw [decide_eq_false digit,Bool.false_and]
  unfold isPhysicalDisk
  simp only [known,numbered,Bool.not_true,Bool.false_eq_true,if_false]
  by_cases nvme : (text "nvme").isPrefixOf name = true
  · rw [if_pos nvme,if_pos nvme]
    by_cases behind : 0 < lastIndexP name ∧ ((text "nvme0").length : Int) < lastIndexP name ∧ lastIndexP name < name.length - 1
    · rw [if_pos behind,decide_eq_true behind]
      rfl
    · rw [if_neg behind,decide_eq_false behind]
      rfl
  · rw [if_neg nvme,if_neg nvme]
    by_cases mmcblk : (text "mmcblk").isPrefixOf name = true
    · rw [if_pos mmcblk,mmcblk,Bool.true_and]
    · rw [if_neg mmcblk,Bool.eq_false_iff.mpr mmcblk,Bool.false_and]

/-- The last 'p' of a name that ends in it and a number. -/
theorem lastIndexP_number (front : List UInt8) (n : Nat) : lastIndexP (front ++ [p] ++ decimal n) = front.length := by
  rw [List.append_assoc]
  exact lastIndexByte_last front (p_decimal n)

/-- A name is of a physical disk exactly if it is of a whole disk. -/
theorem isPhysicalDisk_name (d : Device) : isPhysicalDisk d.name = d.partition.isNone := by
  obtain ⟨sd,vd,xvd,nvme,n,mmcblk⟩ := text_eq
  unfold Device.name
  cases disk : d.disk with
  | lettered family letters =>
    have begins (rest : List UInt8) : prefixes.any (·.isPrefixOf (family.text ++ rest)) = true := by
      rw [prefixes_eq]
      cases family <;> simp [Family.text,sd,vd,xvd]
    have other (rest : List UInt8) : (text "nvme").isPrefixOf (family.text ++ rest) = false ∧
        (text "mmcblk").isPrefixOf (family.text ++ rest) = false := by
      rw [nvme,mmcblk]
      cases family <;> simp only [Family.text,sd,vd,xvd] <;> exact ⟨rfl,rfl⟩
    cases partition : d.partition with
    | none =>
      obtain ⟨low,high⟩ := letters.2.2 _ (last_mem family.text letters.2.1)
      unfold isPhysicalDisk Disk.name
      dsimp only
      rw [begins]
      simp only [low,high,decide_true,Bool.and_self,Bool.not_true,Bool.false_eq_true,if_false,if_true]
      rfl
    | some k =>
      have numbered := isPhysicalDisk_numbered (family.text ++ letters) k (by
        rw [List.append_assoc]
        exact begins _)
      have plain := other (letters ++ decimal k)
      rw [List.append_assoc,plain.1,plain.2] at numbered
      change isPhysicalDisk (family.text ++ (letters : List UInt8) ++ [] ++ decimal k) = false
      rw [List.append_nil,List.append_assoc]
      exact numbered
  | nvme controller number =>
    have begins (rest : List UInt8) : (text "nvme").isPrefixOf (text "nvme" ++ rest) = true := by
      simp
    have known (rest : List UInt8) : prefixes.any (·.isPrefixOf (text "nvme" ++ rest)) = true :=
      List.any_eq_true.mpr ⟨_,by simp [prefixes],begins rest⟩
    have short : ((text "nvme0").length : Int) = 5 := by
      decide +kernel
    cases partition : d.partition with
    | none =>
      change isPhysicalDisk (text "nvme" ++ decimal controller ++ text "n" ++ decimal number) = true
      have absent : p ∉ text "nvme" ++ decimal controller ++ text "n" ++ decimal number := by
        simp only [nvme,n,List.mem_append,p_decimal,or_false]
        decide
      have whole : lastIndexP (text "nvme" ++ decimal controller ++ text "n" ++ decimal number) = -1 := if_neg absent
      rw [isPhysicalDisk_numbered,whole]
      · simp only [List.append_assoc,begins]
        rfl
      · simp only [List.append_assoc,known]
    | some k =>
      change isPhysicalDisk (text "nvme" ++ decimal controller ++ text "n" ++ decimal number ++ [p] ++ decimal k) = false
      have digits := List.length_pos_of_ne_nil (decimal_ne_nil k)
      have digits' := List.length_pos_of_ne_nil (decimal_ne_nil controller)
      have digits'' := List.length_pos_of_ne_nil (decimal_ne_nil number)
      have front : (text "nvme").isPrefixOf
          (text "nvme" ++ decimal controller ++ text "n" ++ decimal number ++ [p] ++ decimal k) = true := by
        simp [begins]
      have long : 5 < (text "nvme" ++ decimal controller ++ text "n" ++ decimal number).length := by
        simp only [nvme,n,List.length_append,List.length_cons,List.length_nil]
        omega
      have behind (w : List UInt8) : (w ++ [p] ++ decimal k).length = w.length + 1 + (decimal k).length := by
        simp
        omega
      rw [isPhysicalDisk_numbered,lastIndexP_number,short,if_pos front,behind,decide_eq_true (by omega)]
      · rfl
      · simp only [List.append_assoc,known]
  | mmcblk number =>
    have known (rest : List UInt8) : prefixes.any (·.isPrefixOf (text "mmcblk" ++ rest)) = true :=
      List.any_eq_true.mpr ⟨text "mmcblk",by simp [prefixes],by simp⟩
    have other (rest : List UInt8) : (text "nvme").isPrefixOf (text "mmcblk" ++ rest) = false ∧
        (text "mmcblk").isPrefixOf (text "mmcblk" ++ rest) = true := by
      rw [nvme,mmcblk]
      exact ⟨rfl,by simp⟩
    cases partition : d.partition with
    | none =>
      change isPhysicalDisk (text "mmcblk" ++ decimal number) = true
      have absent : p ∉ text "mmcblk" ++ decimal number := by
        simp only [mmcblk,List.mem_append,p_decimal,or_false]
        decide
      have plain := other (decimal number)
      rw [isPhysicalDisk_numbered _ _ (known _),plain.1,plain.2]
      simpa using absent
    | some k =>
      change isPhysicalDisk (text "mmcblk" ++ decimal number ++ [p] ++ decimal k) = false
      have plain := other (decimal number ++ [p] ++ decimal k)
      rw [isPhysicalDisk_numbered]
      · simp only [List.append_assoc] at plain ⊢
        rw [plain.1,plain.2]
        simp
      · simp only [List.append_assoc,known]

theorem plain_append {front : List UInt8} (first : ∀ b ∈ front, 33 ≤ b ∧ b < 128) (second : Plain s) : Plain (front ++ s) := by
  refine ⟨List.append_ne_nil_of_right_ne_nil _ second.1,fun b member => ?_⟩
  exact (List.mem_append.mp member).elim (first b) (second.2 b)

theorem visible_of_all {front : List UInt8} (visible : (front.all fun b => 33 ≤ b && b < 128) = true) :
    ∀ b ∈ front, 33 ≤ b ∧ b < 128 := by
  intro b member
  have seen := List.all_eq_true.mp visible b member
  rw [Bool.and_eq_true,decide_eq_true_eq,decide_eq_true_eq] at seen
  exact seen

theorem plain_letters (letters : Letters s) : Plain s := by
  refine ⟨letters.1,fun b member => ?_⟩
  obtain ⟨low,high⟩ := letters.2 b member
  exact ⟨UInt8.le_trans (by decide) low,UInt8.lt_of_le_of_lt high (by decide)⟩

theorem plain_disk (disk : Disk) : Plain disk.name := by
  obtain ⟨sd,vd,xvd,nvme,n,mmcblk⟩ := text_eq
  cases disk with
  | lettered family letters =>
    refine plain_append ?_ (plain_letters letters.2)
    cases family <;> simp only [Family.text,sd,vd,xvd] <;> exact visible_of_all (by decide)
  | nvme controller number =>
    refine plain_append (fun b member => ?_) (plain_decimal number)
    rw [nvme,n,List.append_assoc,List.mem_append,List.mem_append] at member
    rcases member with name | digits | letter
    · exact visible_of_all (by decide) b name
    · exact (plain_decimal controller).2 b digits
    · obtain rfl := List.mem_singleton.mp letter
      decide
  | mmcblk number =>
    refine plain_append ?_ (plain_decimal number)
    rw [mmcblk]
    exact visible_of_all (by decide)

theorem plain_name (d : Device) : Plain d.name := by
  unfold Device.name
  cases d.partition with
  | none => exact plain_disk d.disk
  | some k =>
    refine plain_append (fun b member => ?_) (plain_decimal k)
    rcases List.mem_append.mp member with name | separator
    · exact (plain_disk d.disk).2 b name
    · have only : b = p := by
        cases disk : d.disk <;> simp [Disk.separator,disk] at separator
        all_goals exact separator
      rw [only]
      decide

theorem plain_columns (d : Device) : ∀ column ∈ d.columns, Plain column.2 := by
  intro column member
  unfold Device.columns at member
  rcases List.mem_cons.mp member with rfl | member
  · exact plain_decimal _
  rcases List.mem_cons.mp member with rfl | member
  · exact plain_name d
  · obtain ⟨n,_,rfl⟩ := List.mem_map.mp member
    exact plain_decimal n

/-- The fields of a line, in their order. -/
theorem fields_line (d : Device) :
    fields d.line = decimal d.major :: decimal d.minor :: d.name :: d.counters.map decimal := by
  have cut := fields_padLeft 4 (plain_decimal d.major) (plain_columns d) (.inl rfl)
  rw [List.append_nil] at cut
  unfold Device.line
  rw [cut]
  simp [Device.columns]

/-- What a whole disk adds. -/
def share (d : Device) : Totals :=
  ⟨parseInt64 (decimal (d.count 0)),parseInt64 (decimal (d.count 4)),parseInt64 (decimal (d.count 2)) * 512,
    parseInt64 (decimal (d.count 6)) * 512⟩

theorem addLine_device (d : Device) (io : Totals) :
    addLine io d.line = if d.partition.isNone then io.add (share d) else io := by
  have counter (k : Nat) (listed : k < 11) :
      (decimal d.major :: decimal d.minor :: d.name :: d.counters.map decimal).getD (k + 3) [] = decimal (d.count k) := by
    have bound : k < d.counters.length := Nat.lt_of_lt_of_le listed d.complete
    simp [Device.count,bound]
  have complete := d.complete
  unfold addLine
  rw [fields_line]
  dsimp only
  rw [if_neg (by simp; omega),counter 0 (by decide),counter 4 (by decide),counter 2 (by decide),counter 6 (by decide)]
  change (if (!isPhysicalDisk d.name) = true then _ else _) = _
  rw [isPhysicalDisk_name]
  cases d.partition with
  | none | some k => rfl

/-- The sums, in the arithmetic of int64. -/
def returned (devices : List Device) : Totals :=
  ⟨Int64.ofNat (total 0 devices),Int64.ofNat (total 4 devices),Int64.ofNat (total 2 devices * 512),
    Int64.ofNat (total 6 devices * 512)⟩

theorem foldl_lines (devices : List Device) (io : Totals) :
    (devices.map Device.line).foldl addLine io = io.add (returned devices) := by
  induction devices generalizing io with
  | nil => simp [Totals.add,returned,total,whole]
  | cons d devices ih =>
    rw [List.map_cons,List.foldl_cons,ih,addLine_device]
    cases partition : d.partition with
    | none =>
      have counted (k : Nat) : total k (d :: devices) = min (d.count k) (2 ^ 63 - 1) + total k devices := by
        simp [total,whole,partition]
      rw [Option.isNone_none,if_pos rfl]
      simp only [Totals.add,returned,share,counted,parseInt64_decimal,Nat.add_mul,Int64.ofNat_add,Int64.ofNat_mul,
        Int64.add_assoc]
      rfl
    | some k =>
      have skipped (j : Nat) : total j (d :: devices) = total j devices := by
        simp [total,whole,partition]
      simp only [returned,skipped]
      rfl

theorem newline_line (d : Device) : newline ∉ d.line := by
  intro member
  rcases List.mem_append.mp member with major | columns
  · exact newline_padLeft (newline_plain (plain_decimal _)) 4 major
  · exact newline_spaced (plain_columns d) columns

theorem getDiskIO_returned (devices : List Device) : getDiskIO (some (diskstats devices)) = returned devices := by
  have separate : TextLines.Separate newline (devices.map Device.line) := by
    intro line member
    obtain ⟨d,_,rfl⟩ := List.mem_map.mp member
    exact newline_line d
  have lines : diskstats devices = (devices.map Device.line).flatMap (· ++ [newline]) := by
    unfold diskstats
    rw [List.flatMap_map]
  have last (io : Totals) : addLine io [] = io := rfl
  unfold getDiskIO
  dsimp only
  rw [lines,TextLines.split_terminated separate,List.foldl_append,foldl_lines,List.foldl_cons,List.foldl_nil,last]
  simp [Totals.add]

/-- Nothing is lost on the way to an int64 exactly if the sum is below 2^63. -/
theorem toInt_iff (devices : List Device) (k : Nat) {unit : Nat} (positive : 0 < unit) :
    (Int64.ofNat (total k devices * unit)).toInt = (sum k devices * unit : Nat) ↔ sum k devices * unit < 2 ^ 63 := by
  constructor
  · intro same
    have bound := Int64.toInt_lt (Int64.ofNat (total k devices * unit))
    rw [same] at bound
    exact_mod_cast bound
  · intro fits
    have small : sum k devices < 2 ^ 63 := Nat.lt_of_le_of_lt (Nat.le_mul_of_pos_right _ positive) fits
    have whole : total k devices = sum k devices := by
      unfold total sum
      refine congrArg List.sum (List.map_congr_left fun d member => ?_)
      have below := List.le_sum_of_mem (List.mem_map_of_mem (f := fun d => d.count k) member)
      unfold sum at small
      omega
    rw [whole,Int64.toInt_ofNat_of_lt fits]

/-- Every whole disk is counted exactly once and no partition, in the arithmetic of int64, where a counter of 2^63
and above counts as the greatest; each value is the sum itself exactly if that is below 2^63. -/
theorem getDiskIO_sound (devices : List Device) :
    let io := getDiskIO (some (diskstats devices))
    io = returned devices ∧
    (io.reads.toInt = sum 0 devices ↔ sum 0 devices < 2 ^ 63) ∧
    (io.writes.toInt = sum 4 devices ↔ sum 4 devices < 2 ^ 63) ∧
    (io.readBytes.toInt = (sum 2 devices * 512 : Nat) ↔ sum 2 devices * 512 < 2 ^ 63) ∧
    (io.writeBytes.toInt = (sum 6 devices * 512 : Nat) ↔ sum 6 devices * 512 < 2 ^ 63) := by
  have plain (k : Nat) := toInt_iff devices k Nat.one_pos
  simp only [Nat.mul_one] at plain
  intro io
  have returns : io = returned devices := getDiskIO_returned devices
  rw [returns]
  exact ⟨rfl,plain 0,plain 4,toInt_iff devices 2 (by decide),toInt_iff devices 6 (by decide)⟩

/-- A disk of which 2^54 sectors have been read. -/
def worn : Device where
  major := 8
  minor := 0
  disk := .lettered .sd ⟨text "a",by decide +kernel⟩
  partition := none
  counters := [1,0,2 ^ 54,0,0,0,0,0,0,0,0]
  complete := by decide

/-- Its bytes do not fit. -/
theorem worn_overflows : ( getDiskIO (some (diskstats [worn]))).readBytes.toInt = -2 ^ 63 ∧
    ¬( getDiskIO (some (diskstats [worn]))).readBytes.toInt = (sum 2 [worn] * 512 : Nat) := by
  decide +kernel

end Vigile.DiskIO
