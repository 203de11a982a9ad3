import Vigile.AuditLog

/-! What the full verification notices of a valid table whose rows are altered or
deleted while every stored hash stays as it was. -/
namespace Vigile.AuditLog

open DelimitedText HashChain

/-- The table `audit_log` with its primary key and its two UNIQUE columns. -/
structure AuditTable where
  rows : List AuditRow
  id_unique : (rows.map (·.id)).Nodup
  sequence_unique : (rows.map (·.sequence)).Nodup
  entryHash_unique : (rows.map (·.entryHash)).Nodup

namespace AuditTable

def log (table : AuditTable) : List AuditRow := inOrder AuditRow.sequence table.rows

theorem nodup (table : AuditTable) : table.rows.Nodup := table.id_unique.of_map _

theorem log_nodup (table : AuditTable) : table.log.Nodup :=
  (inOrder_perm table.rows).nodup_iff.mpr table.nodup

/-- The hash a row names determines the row before it. -/
theorem follows_left_unique (table : AuditTable) : ∀ a ∈ table.log, ∀ b ∈ table.log, ∀ c,
    Follows a c → Follows b c → a = b := by
  intro a ma b mb c ac bc
  exact List.inj_on_of_nodup_map table.entryHash_unique (mem_inOrder.mp ma) (mem_inOrder.mp mb)
    (ac.symm.trans bc)

end AuditTable

/-- The free-text fields of the pre-image, in its order. -/
def AuditRow.texts (row : AuditRow) : List String :=
  [row.action,row.userId,row.nodeId.getD "",row.detailsJson]

def AuditRow.preimage (row : AuditRow) : String :=
  join '|' (row.previousHash :: decimal row.sequence :: fixed 6 row.timestamp :: row.texts)

/-! A log of three rows, with the digests SHA-256 has on their pre-images -/

def genesisRow : AuditRow :=
  ⟨"e1",1,1700000000,"u1","SYSTEM_INIT",none,
    "\x7b\"message\": \"Database initialized. Genesis audit entry.\"\x7d",genesisHash,
    "b2a748062afa208f2db0dba6baf7a1438eead0a09f5d0c587c9ca178f6783a95"⟩

def resultRow : AuditRow :=
  ⟨"e2",2,1700000001.5,"system","INTENT_RESULT",some "n1","\x7b\"output\":\"a|b\"\x7d",
    genesisRow.entryHash,"b46e6f96c1a4623056fe864050f5727d0cfc2b79d74fac0bd37a404a9300c75b"⟩

def loginRow : AuditRow :=
  ⟨"e3",3,1700000002,"u1","USER_LOGIN",none,"\x7b\x7d",
    resultRow.entryHash,"5172ff187527488e08e432f71246e48ff5a9395e7b76a99e3318466be0dbe900"⟩

def sampleTable : AuditTable := ⟨[genesisRow,resultRow,loginRow],by decide,by decide,by decide⟩

def reattributedRow : AuditRow := {resultRow with userId := "u1"}

/-- The result row with the border between node and details moved. -/
def shiftedRow : AuditRow :=
  {resultRow with
    nodeId := some "n1|\x7b\"output\":\"a"
    detailsJson := "b\"\x7d"}

def sampleDigests : List (String × String) :=
  [(genesisRow.preimage,genesisRow.entryHash),(resultRow.preimage,resultRow.entryHash),
    (loginRow.preimage,loginRow.entryHash),
    (reattributedRow.preimage,"197a5175b5dc5ab791040edd5b2e3e3b3e95d228a7a64faaa56c7c1d9f4449a6")]

def sampleSha256 (text : String) : String :=
  match sampleDigests.lookup text with
  | some digest => digest
  | none => "~" ++ text

private theorem mem_of_lookup {text digest : String}
    (found : sampleDigests.lookup text = some digest) : (text,digest) ∈ sampleDigests := by
  obtain ⟨front,rear,split,_⟩ := List.lookup_eq_some_iff.mp found
  exact split ▸ List.mem_append_right _ List.mem_cons_self

private theorem sampleDigest_ne {known text digest : String} (member : (known,digest) ∈ sampleDigests) :
    digest ≠ "~" ++ text := by
  have hexadecimal : ∀ pair ∈ sampleDigests, pair.2.toList.head? ≠ some '~' := by decide +kernel
  rintro rfl
  exact hexadecimal _ member (by simp)

theorem sampleSha256_injective : Function.Injective sampleSha256 := by
  intro a b equal
  unfold sampleSha256 at equal
  split at equal
  · rename_i digest found
    split at equal
    · rename_i digest' found'
      subst equal
      have once : (sampleDigests.map (·.2)).Nodup := by decide +kernel
      exact congrArg Prod.fst (List.inj_on_of_nodup_map once (mem_of_lookup found) (mem_of_lookup found') rfl)
    · exact absurd equal (sampleDigest_ne (mem_of_lookup found))
  · split at equal
    · rename_i digest' found'
      exact absurd equal.symm (sampleDigest_ne (mem_of_lookup found'))
    · simpa using equal

theorem sampleTable_valid : (verifyChain sampleSha256 sampleTable.rows none).valid = true := by
  decide +kernel

variable {sha256 : String → String}

/-- Same sequence, same timestamp to six decimals, same text between the separators. -/
def SameText (row altered : AuditRow) : Prop :=
  row.sequence = altered.sequence ∧ fixed 6 row.timestamp = fixed 6 altered.timestamp ∧
    row.texts.flatMap (segments '|') = altered.texts.flatMap (segments '|')

instance (row altered : AuditRow) : Decidable (SameText row altered) :=
  inferInstanceAs (Decidable (_ ∧ _ ∧ _))

/-- The pre-image is injective up to `SameText`. -/
theorem computed_eq_iff (collisionFree : Function.Injective sha256) {row altered : AuditRow}
    (stored : altered.previousHash = row.previousHash) :
    row.computed sha256 = altered.computed sha256 ↔ SameText row altered := by
  have sequenceText : ∀ n : Int, '|' ∉ (decimal n).toList := not_mem_decimal (by decide) (by decide)
  have timestampText : ∀ q : ℚ, '|' ∉ (fixed 6 q).toList :=
    not_mem_fixed (by decide) (by decide) (by decide) 6
  change sha256 row.preimage = sha256 altered.preimage ↔ _
  rw [collisionFree.eq_iff,AuditRow.preimage,AuditRow.preimage,join_eq_iff (by simp) (by simp),stored,flatMap_cons_left_eq_iff,
    flatMap_cons_eq_iff (sequenceText _) (sequenceText _),
    flatMap_cons_eq_iff (timestampText _) (timestampText _),decimal_injective.eq_iff]
  rfl

def alter (rows : List AuditRow) (row altered : AuditRow) : List AuditRow :=
  rows.map fun r => if r = row then altered else r

/-- A rewritten row with the same text leaves every check as it was. -/
private theorem alter_valid {rows : List AuditRow} {row altered : AuditRow}
    (valid : (verifyChain sha256 rows none).valid = true)
    (previous : altered.previousHash = row.previousHash) (entry : altered.entryHash = row.entryHash)
    (sequence : row.sequence = altered.sequence)
    (computed : row.computed sha256 = altered.computed sha256) :
    (verifyChain sha256 (alter rows row altered) none).valid = true := by
  obtain ⟨chain,anchored,intact⟩ := verifyChain_all_valid.mp valid
  have samePrevious : ∀ r : AuditRow, (if r = row then altered else r).previousHash = r.previousHash := by
    intro r; split <;> simp_all
  have sameEntry : ∀ r : AuditRow, (if r = row then altered else r).entryHash = r.entryHash := by
    intro r; split <;> simp_all
  have sameSequence : ∀ r : AuditRow, (if r = row then altered else r).sequence = r.sequence := by
    intro r; split <;> simp_all
  refine verifyChain_all_valid.mpr ⟨?_,?_,?_⟩
  · rw [alter,inOrder_map sameSequence,List.isChain_map]
    refine chain.imp fun a b linked => ?_
    rw [Follows,samePrevious,sameEntry]
    exact linked
  · rw [alter,inOrder_map sameSequence]
    intro first isFirst one
    rw [List.head?_map] at isFirst
    obtain ⟨before,wasFirst,rfl⟩ := Option.mem_map.mp isFirst
    rw [samePrevious]
    exact anchored before wasFirst (by simpa only [sameSequence] using one)
  · intro r member
    obtain ⟨before,was,rfl⟩ := List.mem_map.mp member
    have kept := intact before was
    split
    · rename_i same
      subst same
      rw [← computed,entry,kept]
    · exact kept

/-- Rewriting one row of a valid table, its hashes apart, is reported exactly when the
sequence, the rendered timestamp or the separated text of the row changed. -/
theorem altered_row_reported_iff (collisionFree : Function.Injective sha256) (table : AuditTable)
    (valid : (verifyChain sha256 table.rows none).valid = true)
    (row altered : AuditRow) (member : row ∈ table.rows)
    (stored : altered.id = row.id ∧ altered.previousHash = row.previousHash ∧
      altered.entryHash = row.entryHash) :
    (verifyChain sha256 (alter table.rows row altered) none).valid = false ↔
      ¬SameText row altered := by
  obtain ⟨_,previous,entry⟩ := stored
  rw [← computed_eq_iff collisionFree previous,← Bool.not_eq_true]
  refine not_congr ⟨fun still => ?_,fun same => ?_⟩
  · have rewritten : altered ∈ alter table.rows row altered :=
      List.mem_map.mpr ⟨row,member,if_pos rfl⟩
    have before := (verifyChain_all_valid.mp valid).2.2 row member
    have after := (verifyChain_all_valid.mp still).2.2 altered rewritten
    rw [before,after,entry]
  · exact alter_valid valid previous entry ((computed_eq_iff collisionFree previous).mp same).1 same

theorem reattributed_row_reported :
    (verifyChain sampleSha256 (alter sampleTable.rows resultRow reattributedRow) none).valid = false :=
  (altered_row_reported_iff sampleSha256_injective sampleTable sampleTable_valid resultRow
    reattributedRow (by simp [sampleTable]) (by decide)).mpr (by decide +kernel)

/-- Moving a separator between two fields is a change the verification does not notice. -/
theorem shifted_row_unnoticed : ¬∀ sha256 : String → String, Function.Injective sha256 →
    ∀ (table : AuditTable) (row altered : AuditRow),
      (verifyChain sha256 table.rows none).valid = true → row ∈ table.rows →
      altered.id = row.id ∧ altered.previousHash = row.previousHash ∧
        altered.entryHash = row.entryHash → altered ≠ row →
      (verifyChain sha256 (alter table.rows row altered) none).valid = false := by
  intro reported
  have noticed := reported sampleSha256 sampleSha256_injective sampleTable resultRow shiftedRow
    sampleTable_valid (by simp [sampleTable]) (by decide) (by decide +kernel)
  have unnoticed :
      (verifyChain sampleSha256 (alter sampleTable.rows resultRow shiftedRow) none).valid = true := by
    decide +kernel
  exact absurd (unnoticed.symm.trans noticed) (by decide)

/-- Deleting rows of a valid table is reported exactly when the kept rows are not
consecutive rows of the log that are anchored where they start. -/
theorem deleted_rows_reported_iff (table : AuditTable)
    (valid : (verifyChain sha256 table.rows none).valid = true) (keep : AuditRow → Bool) :
    (verifyChain sha256 (table.rows.filter keep) none).valid = false ↔
      ¬(table.log.filter keep <:+: table.log ∧ Anchored (table.log.filter keep)) := by
  obtain ⟨chain,_,intact⟩ := verifyChain_all_valid.mp valid
  have keptIntact : ∀ row ∈ table.rows.filter keep, row.computed sha256 = row.entryHash :=
    fun row member => intact row (List.mem_of_mem_filter member)
  rw [← Bool.not_eq_true,verifyChain_all_valid,inOrder_filter table.sequence_unique]
  have consecutive := isChain_iff_infix (List.filter_sublist (p := keep)) chain table.log_nodup
    table.follows_left_unique
  unfold AuditTable.log at consecutive ⊢
  rw [consecutive]
  exact not_congr ⟨fun h => ⟨h.1,h.2.1⟩,fun h => ⟨h.1,h.2,keptIntact⟩⟩

theorem deleted_middle_reported :
    (verifyChain sampleSha256 (sampleTable.rows.filter fun row => row ≠ resultRow) none).valid = false :=
  (deleted_rows_reported_iff sampleTable sampleTable_valid fun row => row ≠ resultRow).mpr
    (fun kept => absurd kept.1 (by decide +kernel))

/-- Deleting the oldest rows is not noticed: the first row left vouches for itself. -/
theorem deleted_head_unnoticed : ¬∀ sha256 : String → String, Function.Injective sha256 →
    ∀ (table : AuditTable) (keep : AuditRow → Bool),
      (verifyChain sha256 table.rows none).valid = true → ¬table.log.filter keep <+: table.log →
      (verifyChain sha256 (table.rows.filter keep) none).valid = false := by
  intro reported
  have noticed := reported sampleSha256 sampleSha256_injective sampleTable
    (fun row => row ≠ genesisRow) sampleTable_valid (by decide +kernel)
  have unnoticed : (verifyChain sampleSha256
      (sampleTable.rows.filter fun row => row ≠ genesisRow) none).valid = true := by
    decide +kernel
  exact absurd (unnoticed.symm.trans noticed) (by decide)

end Vigile.AuditLog
