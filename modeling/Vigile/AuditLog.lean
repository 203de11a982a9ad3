import Vigile.DelimitedText
import Vigile.HashChain

/-! The audit log: one row per action, chained by the SHA-256 of its fields, and the
walk that recomputes the chain. SHA-256 is a parameter; timestamps are exact. -/
namespace Vigile.AuditLog

open DelimitedText HashChain

structure AuditRow where
  id : String
  sequence : Int
  timestamp : ℚ
  userId : String
  action : String
  nodeId : Option String
  detailsJson : String
  previousHash : String
  entryHash : String
  deriving DecidableEq

/-- The `previous_hash` of the first row of the chain. -/
def genesisHash : String := "0000000000000000000000000000000000000000000000000000000000000000"

def computeEntryHash (sha256 : String → String) (previousHash : String) (sequence : Int)
    (timestamp : ℚ) (action userId : String) (nodeId : Option String) (detailsJson : String) :
    String :=
  sha256 (join '|' [previousHash,decimal sequence,fixed 6 timestamp,action,userId,
    nodeId.getD "",detailsJson])

/-- The hash the verifier recomputes for a stored row. -/
def AuditRow.computed (sha256 : String → String) (row : AuditRow) : String :=
  computeEntryHash sha256 row.previousHash row.sequence row.timestamp row.action row.userId
    row.nodeId row.detailsJson

structure Report where
  valid : Bool
  totalEntries : Nat
  firstBrokenSequence : Option Int
  error : Option String
  deriving DecidableEq

private def shown (hash : String) : String := String.ofList (hash.toList.take 12)

/-- The loop of `verify_chain`; it stops at the first broken row. -/
def verifyRows (sha256 : String → String) (expectedPreviousHash : String) (count : Nat) :
    List AuditRow → Report
  | [] => ⟨true,count,none,none⟩
  | row :: rest =>
    if row.previousHash ≠ expectedPreviousHash then
      ⟨false,count+1,some row.sequence,some (
        "Sequence " ++ decimal row.sequence ++ ": previous_hash mismatch. Expected '" ++
          shown expectedPreviousHash ++ "...', got '" ++ shown row.previousHash ++ "...'")⟩
    else if row.computed sha256 ≠ row.entryHash then
      ⟨false,count+1,some row.sequence,some (
        "Sequence " ++ decimal row.sequence ++
          ": entry_hash mismatch. Record has been tampered with.")⟩
    else verifyRows sha256 row.entryHash (count+1) rest

/-- The rows `verify_chain` reads, oldest first. A negative `LIMIT` is none. -/
def fetchRows (rows : List AuditRow) (maxEntries : Option Int) : List AuditRow :=
  let ordered := inOrder AuditRow.sequence rows
  match maxEntries with
  | none => ordered
  | some limit => if limit < 0 then ordered else ordered.drop (ordered.length - limit.toNat)

def verifyChain (sha256 : String → String) (rows : List AuditRow) (maxEntries : Option Int) :
    Report :=
  match fetchRows rows maxEntries with
  | [] => ⟨true,0,none,none⟩
  | first :: rest =>
    let expectedPreviousHash := if first.sequence = 1 then genesisHash else first.previousHash
    verifyRows sha256 expectedPreviousHash 0 (first :: rest)

variable {sha256 : String → String}

def Follows (before row : AuditRow) : Prop := row.previousHash = before.entryHash

/-- Only a row with sequence 1 is held to the genesis hash. -/
def Anchored (rows : List AuditRow) : Prop :=
  ∀ first ∈ rows.head?, first.sequence = 1 → first.previousHash = genesisHash

variable {expected : String} {rows : List AuditRow}

theorem verifyRows_valid {count : Nat} :
    (verifyRows sha256 expected count rows).valid = true ↔
      Linked AuditRow.previousHash AuditRow.entryHash expected rows ∧
        ∀ row ∈ rows, row.computed sha256 = row.entryHash := by
  induction rows generalizing expected count with
  | nil => simp [verifyRows,Linked]
  | cons row rest ih =>
    simp only [verifyRows,Linked,List.forall_mem_cons]
    split
    · rename_i broken
      simp [broken]
    · rename_i linked
      split
      · rename_i tampered
        simp [tampered]
      · rename_i intact
        simp only [not_not] at linked intact
        simp only [ih,linked,intact,true_and]

/-- Rows that are linked, anchored and intact. -/
def Verified (sha256 : String → String) (rows : List AuditRow) : Prop :=
  rows.IsChain Follows ∧ Anchored rows ∧ ∀ row ∈ rows, row.computed sha256 = row.entryHash

theorem verifyRows_first {first : AuditRow} {rest : List AuditRow} {count : Nat} :
    (verifyRows sha256 (if first.sequence = 1 then genesisHash else first.previousHash) count (first :: rest)).valid = true ↔
      Verified sha256 (first :: rest) := by
  simp only [verifyRows_valid,linked_iff_isChain,Verified,Anchored,List.head?_cons,Option.mem_some_iff,
    forall_eq']
  constructor
  · rintro ⟨⟨anchor,chain⟩,intact⟩
    exact ⟨chain,fun one => by simpa only [one,if_true] using anchor,intact⟩
  · rintro ⟨chain,anchor,intact⟩
    refine ⟨⟨?_,chain⟩,intact⟩
    split
    · rename_i one
      exact anchor one
    · rfl

/-- What the verifier establishes about the rows it fetched. -/
theorem verifyChain_valid {maxEntries : Option Int} :
    (verifyChain sha256 rows maxEntries).valid = true ↔
      (fetchRows rows maxEntries).IsChain Follows ∧ Anchored (fetchRows rows maxEntries) ∧
        ∀ row ∈ fetchRows rows maxEntries, row.computed sha256 = row.entryHash := by
  unfold verifyChain
  cases fetched : fetchRows rows maxEntries with
  | nil => simp [Anchored]
  | cons first rest => exact verifyRows_first

/-- The whole table is valid when its rows, in order, are intact, linked and anchored. -/
theorem verifyChain_all_valid :
    (verifyChain sha256 rows none).valid = true ↔
      (inOrder AuditRow.sequence rows).IsChain Follows ∧
        Anchored (inOrder AuditRow.sequence rows) ∧
        ∀ row ∈ rows, row.computed sha256 = row.entryHash := by
  simp [verifyChain_valid,fetchRows]

/-- The rows before a broken one are valid, with whatever number they are counted from. -/
theorem verifyRows_broken {count : Nat} (broken : (verifyRows sha256 expected count rows).valid = false) :
    ∃ front row behind, rows = front ++ row :: behind ∧
      (verifyRows sha256 expected count rows).totalEntries = count + front.length + 1 ∧
      (verifyRows sha256 expected count rows).firstBrokenSequence = some row.sequence ∧
      ∀ n, (verifyRows sha256 expected n front).valid = true ∧ (verifyRows sha256 expected n (front ++ [row])).valid = false := by
  induction rows generalizing expected count with
  | nil => cases broken
  | cons row rest ih =>
    simp only [verifyRows] at broken ⊢
    split at broken
    · rename_i unlinked
      exact ⟨[],row,rest,rfl,by simp [unlinked],by simp [unlinked],fun n => by simp [verifyRows,unlinked]⟩
    split at broken
    · rename_i linked tampered
      exact ⟨[],row,rest,rfl,by simp [linked,tampered],by simp [linked,tampered],
        fun n => by simp [verifyRows,linked,tampered]⟩
    · rename_i linked intact
      obtain ⟨front,found,behind,rfl,total,named,each⟩ := ih broken
      rw [if_neg linked,if_neg intact]
      refine ⟨row :: front,found,behind,rfl,by rw [total,List.length_cons]; omega,named,fun n => ?_⟩
      simpa only [List.cons_append,verifyRows,if_neg linked,if_neg intact] using each (n+1)

/-- A report that is not valid names the first row that does not verify, and counts the rows up to it. -/
theorem verifyChain_locates (sha256 : String → String) (rows : List AuditRow) (maxEntries : Option Int) :
    (verifyChain sha256 rows maxEntries).valid = true ∨ ∃ front row behind,
      fetchRows rows maxEntries = front ++ row :: behind ∧
      (verifyChain sha256 rows maxEntries).totalEntries = front.length + 1 ∧
      (verifyChain sha256 rows maxEntries).firstBrokenSequence = some row.sequence ∧
      Verified sha256 front ∧ ¬Verified sha256 (front ++ [row]) := by
  unfold verifyChain
  cases fetched : fetchRows rows maxEntries with
  | nil => exact .inl rfl
  | cons first rest =>
    dsimp only
    cases valid : (verifyRows sha256 (if first.sequence = 1 then genesisHash else first.previousHash) 0 (first :: rest)).valid with
    | true => exact .inl rfl
    | false =>
      obtain ⟨front,row,behind,parts,total,named,each⟩ := verifyRows_broken valid
      refine .inr ⟨front,row,behind,parts,by rw [total,Nat.zero_add],named,?_⟩
      cases front with
      | nil =>
        obtain ⟨rfl,_⟩ := List.cons.inj parts
        exact ⟨⟨.nil,by simp [Anchored],by simp⟩,
          fun verified => absurd (verifyRows_first.mpr verified) (Bool.eq_false_iff.mp (each 0).2)⟩
      | cons head front =>
        obtain ⟨rfl,_⟩ := List.cons.inj parts
        exact ⟨verifyRows_first.mp (each 0).1,
          fun verified => absurd (verifyRows_first.mpr verified) (Bool.eq_false_iff.mp (each 0).2)⟩

end Vigile.AuditLog
