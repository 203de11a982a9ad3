import Vigile.CanaryRollout
import Vigile.Scanner
import Vigile.SemanticVersion

/-! `is_newer_version` against the precedence of semantic versions, and what an update cycle makes of a fleet. -/
namespace Vigile.VersionOrder

open Python CanaryRollout SemanticVersion

def written (tagged : Bool) (v : Version) : String := String.ofList (if tagged then 'v' :: v.text else v.text)

/-- The numbers are no longer than `int` reads, and build metadata stands after a pre-release only. -/
structure Readable (v : Version) : Prop where
  major : (Nat.toDigits 10 v.major).length ≤ maxStrDigits
  minor : (Nat.toDigits 10 v.minor).length ≤ maxStrDigits
  patch : (Nat.toDigits 10 v.patch).length ≤ maxStrDigits
  build : v.build = [] ∨ v.prerelease ≠ []

/-- What the Unicode tables say of the ASCII digits. -/
def AsciiDigits (decimal : Char → Option Nat) : Prop := ∀ c : Char, c.isDigit = true → decimal c = some (c.toNat - '0'.toNat)

/-- Whether a row gets into the list of outdated nodes: its state in the SELECT, the connection, and its version. -/
def outdated (decimal : Char → Option Nat) (latestVersion : String) (node : Node) : Bool :=
  !node.revoked && (node.connected && isNewerVersion decimal latestVersion node.reported)

/-- The list that `_process_worker_updates` sends the update to. -/
def outdatedNodes (decimal : Char → Option Nat) (latestVersion : String) (rows : List Node) : List Node :=
  rows.filter (outdated decimal latestVersion)

def updatedRows (decimal : Char → Option Nat) (latestVersion : String) (rows : List Node) : List Node :=
  rows.map fun node => if outdated decimal latestVersion node then {node with workerVersion := some latestVersion} else node

def Node.Runs (node : Node) (v : Version) : Prop := ∃ tagged, node.reported = written tagged v

/-- What the update cycles do to a fleet with the version of the manifest. -/
structure Converges (decimal : Char → Option Nat) (latestVersion : String) (latest : Version) (rows : List Node) : Prop where
  reached : ∀ node ∈ rows, node.revoked = false → node.connected = true → ∀ v, Readable v → Node.Runs node v →
    v.core < latest.core → node ∈ outdatedNodes decimal latestVersion rows
  raised : ∀ node ∈ outdatedNodes decimal latestVersion rows, ∀ v, Readable v → Node.Runs node v → v.Precedes latest
  settled : ∀ node ∈ outdatedNodes decimal latestVersion rows, ∀ v, Readable v → Node.Runs node v → v.core ≠ latest.core
  ends : outdatedNodes decimal latestVersion (updatedRows decimal latestVersion rows) = []

variable {decimal : Char → Option Nat} {v a b : Version} {c : Char}

theorem visible_identifier (valid : isIdentifierChar c = true) : 33 ≤ c.toNat ∧ c.toNat < 127 := by
  simp only [isIdentifierChar,Bool.or_eq_true,decide_eq_true_eq,Char.isAlphanum] at valid
  rcases valid with (letter | digit) | rfl
  · have bounds := Scanner.isAlpha_iff.mp letter
    omega
  · obtain ⟨low,high⟩ := Char.isDigit_iff_toNat.mp digit
    change 48 ≤ c.toNat at low
    change c.toNat ≤ 57 at high
    omega
  · decide

theorem solid_text (v : Version) (member : c ∈ v.text) : isSpace c = false := by
  have visible : 33 ≤ c.toNat ∧ c.toNat < 127 := by
    rcases mem_text member with valid | rfl | rfl
    · exact visible_identifier valid
    · decide
    · decide
  simp only [isSpace,Bool.or_eq_false_iff,Bool.and_eq_false_iff,decide_eq_false_iff_not,beq_eq_false_iff_ne]
  omega

theorem strip_solid {text : List Char} (solid : ∀ c ∈ text, isSpace c = false) : strip (String.ofList text) = String.ofList text := by
  have kept (cs : List Char) (none_ : ∀ c ∈ cs, isSpace c = false) : cs.dropWhile isSpace = cs := by
    cases cs with
    | nil => rfl
    | cons c cs => exact List.dropWhile_cons_of_neg (by simp [none_ c List.mem_cons_self])
  have turned : ∀ c ∈ text.reverse, isSpace c = false := fun c member => solid c (List.mem_reverse.mp member)
  simp [strip,kept text solid,kept text.reverse turned]

theorem written_ne (tagged : Bool) (v : Version) : written tagged v ≠ "" := by
  obtain ⟨c,rest,text,-⟩ := text_cons v
  intro empty
  have chars := congrArg String.toList empty
  cases tagged <;> simp [written,text] at chars

/-- Blanks and the v are gone. -/
theorem clean_written (tagged : Bool) (v : Version) : clean (written tagged v) = String.ofList v.text := by
  obtain ⟨c,rest,text,digit⟩ := text_cons v
  have other : c ≠ 'v' := by
    rintro rfl
    cases digit
  have stays : v.text.dropWhile (· = 'v') = v.text := by
    rw [text]
    exact List.dropWhile_cons_of_neg (by simpa using other)
  cases tagged with
  | false =>
    have solid : ∀ c ∈ v.text, isSpace c = false := fun _ => solid_text v
    simp [clean,written,strip_solid solid,stays]
  | true =>
    have solid : ∀ c ∈ 'v' :: v.text, isSpace c = false := by
      intro c member
      rcases List.mem_cons.mp member with rfl | inside
      · decide
      · exact solid_text v inside
    simp only [clean,written,if_true,strip_solid solid,String.toList_ofList]
    rw [List.dropWhile_cons_of_pos (by simp),stays]

/-- What stands before the first hyphen are the numbers. -/
theorem takeWhile_text (readable : Readable v) : v.text.takeWhile (· ≠ '-') = v.coreText := by
  have numbers : ∀ c ∈ v.coreText, decide (c ≠ '-') = true := by
    intro c member
    rcases mem_coreText member with digit | rfl
    · apply decide_eq_true
      rintro rfl
      cases digit
    · rfl
  simp only [Version.text,List.append_assoc,List.takeWhile_append_of_pos numbers]
  cases stage : v.prerelease with
  | nil =>
    have build := readable.build.resolve_right (absurd stage)
    simp [build,dotted]
  | cons identifier rest => simp [dotted]

theorem splitOn_coreText (v : Version) : v.coreText.splitOn '.' =
    [Nat.toDigits 10 v.major,Nat.toDigits 10 v.minor,Nat.toDigits 10 v.patch] := by
  apply List.splitOn_intercalate
  · intro digits listed dot
    simp only [List.mem_cons,List.not_mem_nil,or_false] at listed
    rcases listed with rfl | rfl | rfl
    all_goals cases isDigit_mem_toDigits dot
  · exact List.cons_ne_nil _ _

theorem mapM_digits (ascii : AsciiDigits decimal) (digits : List Char) (all : ∀ c ∈ digits, c.isDigit = true) :
    digits.mapM decimal = some (digits.map fun c => c.toNat - '0'.toNat) := by
  induction digits with
  | nil => rfl
  | cons c cs ih =>
    have here := ascii c (all c List.mem_cons_self)
    have later := ih fun c member => all c (List.mem_cons_of_mem _ member)
    simp [List.mapM_cons,here,later]

theorem int_toDigits (ascii : AsciiDigits decimal) {n : Nat} (short : (Nat.toDigits 10 n).length ≤ maxStrDigits) :
    CanaryRollout.int decimal (String.ofList (Nat.toDigits 10 n)) = some (n : Int) := by
  have digits : ∀ c ∈ Nat.toDigits 10 n, c.isDigit = true := fun _ => isDigit_mem_toDigits
  have solid : ∀ c ∈ Nat.toDigits 10 n, isSpace c = false := by
    intro c member
    have visible := visible_identifier (isIdentifierChar_digit (digits c member))
    simp only [isSpace,Bool.or_eq_false_iff,Bool.and_eq_false_iff,decide_eq_false_iff_not,beq_eq_false_iff_ne]
    omega
  have ungrouped : (Nat.toDigits 10 n).splitOn '_' = [Nat.toDigits 10 n] := by
    apply List.splitOn_eq_singleton
    intro member
    cases digits _ member
  have value : ((Nat.toDigits 10 n).map fun c => c.toNat - '0'.toNat).foldl (fun n digit => 10 * n + digit) 0 = n := by
    rw [List.foldl_map,← Nat.ofDigitChars_eq_foldl]
    exact Nat.ofDigitChars_ten_toDigits
  have filled : [] ≠ Nat.toDigits 10 n := Nat.toDigits_ne_nil.symm
  simp only [CanaryRollout.int,strip_solid solid,String.toList_ofList]
  split
  · rename_i rest shape
    cases digits '+' (shape ▸ List.mem_cons_self)
  · rename_i rest shape
    cases digits '-' (shape ▸ List.mem_cons_self)
  · simp only [ungrouped,List.mem_singleton,filled,false_or,List.flatten_cons,List.flatten_nil,List.append_nil,
      not_lt.mpr short,if_false,mapM_digits ascii _ digits,Option.map_some,value]
    rfl

theorem parseSemver_written (ascii : AsciiDigits decimal) (readable : Readable v) (tagged : Bool) :
    parseSemver decimal (written tagged v) = ((v.major : Int),(v.minor : Int),(v.patch : Int)) := by
  simp only [parseSemver,if_neg (written_ne tagged v),clean_written,semverOf,String.toList_ofList,takeWhile_text readable,splitOn_coreText,
    List.map_cons,List.map_nil,int_toDigits ascii readable.major,int_toDigits ascii readable.minor,
    int_toDigits ascii readable.patch]
  rfl

theorem later_iff (v w : Version) : later ((v.major : Int),(v.minor : Int),(v.patch : Int))
    ((w.major : Int),(w.minor : Int),(w.patch : Int)) = true ↔ w.core < v.core := by
  simp only [later,core_lt_iff,Bool.or_eq_true,Bool.and_eq_true,decide_eq_true_eq]
  omega

theorem newer_iff (ascii : AsciiDigits decimal) (readableA : Readable a) (readableB : Readable b) (taggedA taggedB : Bool) :
    isNewerVersion decimal (written taggedA a) (written taggedB b) = true ↔ b.core < a.core := by
  simp only [isNewerVersion,Bool.and_eq_true,decide_eq_true_eq,parseSemver_written ascii readableA,
    parseSemver_written ascii readableB,later_iff]
  exact and_iff_right (written_ne taggedA a)

theorem not_newer_self (version : String) : isNewerVersion decimal version version = false := by
  simp only [isNewerVersion,later]
  simp

theorem newer_trans {first second third : String} (upper : isNewerVersion decimal first second = true)
    (lower : isNewerVersion decimal second third = true) : isNewerVersion decimal first third = true := by
  simp only [isNewerVersion,later,Bool.and_eq_true,Bool.or_eq_true,decide_eq_true_eq] at upper lower ⊢
  refine ⟨upper.1,?_⟩
  omega

/-- A check of the rollout puts the node on its list exactly if its row is outdated. -/
theorem check_outdated {autoUpdateCanary : Bool} {w : Fleet} {version name : String} {row : Node} {rows : List (String × String)}
    {found : List String} (cycle : w.cycle = .checking version ((name,row.reported) :: rows) found)
    (known : w.nodes.get? name = some row) (registered : row.revoked = false) :
    step decimal autoUpdateCanary w .check =
      some {w with cycle := .checking version rows (if outdated decimal version row then found ++ [name] else found)} := by
  have connected : w.isConnected name = row.connected := by simp only [Fleet.isConnected,known,Option.any_some]
  simp only [step,cycle,connected,outdated,registered,Bool.not_false,Bool.true_and,Bool.and_eq_true]
  split <;> rfl

theorem newer_of_outdated {latestVersion : String} {node : Node} (outdated_ : outdated decimal latestVersion node = true) :
    isNewerVersion decimal latestVersion node.reported = true := by
  simp only [outdated,Bool.and_eq_true] at outdated_
  exact outdated_.2.2

theorem updated_settled {latestVersion : String} (filled : latestVersion ≠ "") (node : Node) :
    outdated decimal latestVersion {node with workerVersion := some latestVersion} = false := by
  have reported : Node.reported {node with workerVersion := some latestVersion} = latestVersion := by
    simp [Node.reported,Option.filter,filled]
  simp [outdated,reported,not_newer_self]

theorem ended_updated {latestVersion : String} (filled : latestVersion ≠ "") (rows : List Node) :
    outdatedNodes decimal latestVersion (updatedRows decimal latestVersion rows) = [] := by
  apply List.filter_eq_nil_iff.mpr
  intro node member
  obtain ⟨row,-,rfl⟩ := List.mem_map.mp member
  split
  · simp [updated_settled filled row]
  · assumption

theorem converges (ascii : AsciiDigits decimal) (readable : Readable a) (tagged : Bool) (rows : List Node) :
    Converges decimal (written tagged a) a rows := by
  have below {node : Node} (outdated_ : node ∈ outdatedNodes decimal (written tagged a) rows) (v : Version)
      (readableV : Readable v) (runs : Node.Runs node v) : v.core < a.core := by
    obtain ⟨taggedV,reported⟩ := runs
    have newer := newer_of_outdated (List.mem_filter.mp outdated_).2
    exact (newer_iff ascii readable readableV tagged taggedV).mp (reported ▸ newer)
  constructor
  · intro node member registered connected v readableV runs lower
    obtain ⟨taggedV,reported⟩ := runs
    have newer := (newer_iff ascii readable readableV tagged taggedV).mpr lower
    exact List.mem_filter.mpr ⟨member,by simp only [outdated,registered,connected,reported,newer]; rfl⟩
  · exact fun node outdated_ v readableV runs => precedes_iff.mpr (.inl (below outdated_ v readableV runs))
  · exact fun node outdated_ v readableV runs => ne_of_lt (below outdated_ v readableV runs)
  · exact ended_updated (written_ne tagged a) rows

/-- A version is newer exactly if it has the higher precedence and not only another pre-release; the order is strict, and
update cycles end with a fleet that needs no update. -/
theorem newer_iff_precedes (ascii : AsciiDigits decimal) (readableA : Readable a) (readableB : Readable b)
    (taggedA taggedB : Bool) (rows : List Node) :
    (isNewerVersion decimal (written taggedA a) (written taggedB b) = true ↔ b.Precedes a ∧ b.core ≠ a.core) ∧
    (∀ version, isNewerVersion decimal version version = false) ∧
    (∀ first second third, isNewerVersion decimal first second = true → isNewerVersion decimal second third = true →
      isNewerVersion decimal first third = true) ∧
    Converges decimal (written taggedA a) a rows := by
  refine ⟨?_,not_newer_self,fun _ _ _ => newer_trans,converges ascii readableA taggedA rows⟩
  constructor
  · intro newer
    have lower := (newer_iff ascii readableA readableB taggedA taggedB).mp newer
    exact ⟨precedes_iff.mpr (.inl lower),ne_of_lt lower⟩
  · rintro ⟨precedes,differ⟩
    exact (newer_iff ascii readableA readableB taggedA taggedB).mpr ((precedes_of_differ differ).mp precedes)

def asciiDecimal (c : Char) : Option Nat := if c.isDigit then some (c.toNat - '0'.toNat) else none

def release (major minor patch : Nat) : Version := ⟨major,minor,patch,[],[]⟩

def candidate (major minor patch : Nat) : Version :=
  ⟨major,minor,patch,[.alphanumeric ['r','c','1'] ⟨List.all_eq_true.mp (by decide),'r',by decide,by decide⟩],[]⟩

theorem newer_iff_precedes_candidate : isNewerVersion asciiDecimal "v1.2.0" "1.1.0-rc1" = true ↔
    (candidate 1 1 0).Precedes (release 1 2 0) ∧ (candidate 1 1 0).core ≠ (release 1 2 0).core :=
  (newer_iff_precedes (a := release 1 2 0) (b := candidate 1 1 0) (fun _ digit => if_pos digit)
    ⟨by decide,by decide,by decide,.inl rfl⟩ ⟨by decide,by decide,by decide,.inl rfl⟩ true false []).1

/-- A release is not newer than its candidates, though it has the higher precedence. -/
theorem candidate_kept : ¬∀ (a b : Version) (taggedA taggedB : Bool),
    isNewerVersion asciiDecimal (written taggedA a) (written taggedB b) = true ↔ b.Precedes a := by
  intro claim
  have higher : (candidate 2 0 0).Precedes (release 2 0 0) :=
    precedes_iff.mpr (.inr ⟨rfl,WithTop.coe_lt_top _⟩)
  exact absurd ((claim (release 2 0 0) (candidate 2 0 0) false false).mpr higher) (by decide)

end Vigile.VersionOrder
