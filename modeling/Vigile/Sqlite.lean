import Mathlib.Data.List.Infix
import Mathlib.Logic.Function.Basic

/-! A write-ahead-logged database as the list of changes committed to it. At most one
connection holds the write transaction; a connection whose implicit BEGIN could not
write keeps reading the prefix it began with. -/
namespace Sqlite

structure Database (γ χ : Type) where
  committed : List χ
  writer : Option γ
  changes : List χ
  /-- How much of the log an open transaction that wrote nothing reads. -/
  snapshots : γ → Option Nat

inductive Refusal where
  | nested
  | locked
  deriving DecidableEq

namespace Database

variable {γ χ ε : Type}

def opened (committed : List χ) : Database γ χ := ⟨committed,none,[],fun _ => none⟩

/-- One more change of the open write transaction. -/
def append (db : Database γ χ) (change : χ) : Database γ χ :=
  {db with changes := db.changes ++ [change]}

/-- How much of the log a connection outside a write transaction sees. -/
def seen (db : Database γ χ) (c : γ) : Nat := (db.snapshots c).getD db.committed.length

variable [DecidableEq γ]

/-- The `in_transaction` property of a connection. -/
def inTransaction (db : Database γ χ) (c : γ) : Bool := db.writer = some c ∨ (db.snapshots c).isSome

/-- The changes of the connection's own write transaction. -/
def pending (db : Database γ χ) (c : γ) : List χ := if db.writer = some c then db.changes else []

/-- The changes a SELECT on the connection sees. -/
def view (db : Database γ χ) (c : γ) : List χ :=
  if db.writer = some c then db.committed ++ db.changes else db.committed.take (db.seen c)

def beginImmediate (db : Database γ χ) (c : γ) : Database γ χ × Except Refusal Unit :=
  if db.inTransaction c then (db,.error .nested)
  else if db.writer.isSome then (db,.error .locked)
  else ({db with writer := some c,changes := []},.ok ())

/-- The write lock a data-changing statement takes, after an implicit BEGIN. Where it is
refused the implicit transaction stays open, reading what it can. -/
def lock (db : Database γ χ) (c : γ) : Database γ χ × Except Refusal Unit :=
  if db.writer = some c then (db,.ok ())
  else if db.writer = none ∧ db.seen c = db.committed.length then
    ({db with
      writer := some c
      changes := []
      snapshots := Function.update db.snapshots c none},.ok ())
  else ({db with snapshots := Function.update db.snapshots c (some (db.seen c))},.error .locked)

/-- A data-changing statement: the lock may refuse it, or a constraint that looks at
what the connection sees. -/
def execute (db : Database γ χ) (c : γ) (refuse : Refusal → ε)
    (check : List χ → Except ε Unit) (change : χ) : Database γ χ × Except ε Unit :=
  match db.lock c with
  | (locked,.error refusal) => (locked,.error (refuse refusal))
  | (locked,.ok ()) =>
    match check (locked.view c) with
    | .error error => (locked,.error error)
    | .ok () => (locked.append change,.ok ())

def leave (db : Database γ χ) (c : γ) : Database γ χ :=
  {db with
    writer := if db.writer = some c then none else db.writer
    snapshots := Function.update db.snapshots c none}

/-- COMMIT; nothing happens outside a transaction. -/
def commit (db : Database γ χ) (c : γ) : Database γ χ :=
  {db.leave c with committed := db.committed ++ db.pending c}

/-- ROLLBACK; nothing happens outside a transaction. -/
def rollback (db : Database γ χ) (c : γ) : Database γ χ := db.leave c

variable {db next : Database γ χ} {c d : γ} {change : χ}

omit [DecidableEq γ] in
@[simp] theorem opened_committed (changes : List χ) :
    (opened changes : Database γ χ).committed = changes := rfl

@[simp] theorem opened_inTransaction (changes : List χ) :
    (opened changes : Database γ χ).inTransaction c = false := rfl

omit [DecidableEq γ] in
@[simp] theorem append_committed : (db.append change).committed = db.committed := rfl

omit [DecidableEq γ] in
@[simp] theorem append_writer : (db.append change).writer = db.writer := rfl

omit [DecidableEq γ] in
@[simp] theorem append_snapshots : (db.append change).snapshots = db.snapshots := rfl

@[simp] theorem rollback_committed : (db.rollback c).committed = db.committed := rfl

@[simp] theorem commit_committed : (db.commit c).committed = db.committed ++ db.pending c := rfl

@[simp] theorem commit_writer :
    (db.commit c).writer = if db.writer = some c then none else db.writer := rfl

@[simp] theorem rollback_writer :
    (db.rollback c).writer = if db.writer = some c then none else db.writer := rfl

omit [DecidableEq γ] in
private theorem take_seen_prefix (n : Option Nat) (log more : List χ) :
    log.take (n.getD log.length) <+: (log ++ more).take (n.getD (log ++ more).length) := by
  cases n with
  | none =>
    simp only [Option.getD_none,List.take_length]
    exact List.prefix_append _ _
  | some n => simpa using (List.prefix_append log more).take n

/-! What a connection sees only grows, its own ROLLBACK apart -/

theorem view_beginImmediate : db.view c <+: (db.beginImmediate d).1.view c := by
  unfold beginImmediate
  split
  · exact List.prefix_refl _
  · split
    · exact List.prefix_refl _
    · rename_i outside free
      have idle : db.writer = none := by simpa using free
      by_cases same : d = c
      · subst same
        simpa [view,idle] using List.take_prefix _ _
      · simp [view,idle,same,seen]

theorem view_lock : db.view c <+: (db.lock d).1.view c := by
  unfold lock
  split
  · exact List.prefix_refl _
  · split
    · rename_i other free
      by_cases same : d = c
      · subst same
        simpa [view,free.1] using List.take_prefix _ _
      · simp [view,free.1,same,seen,Function.update_of_ne (Ne.symm same)]
    · rename_i other busy
      by_cases same : d = c
      · subst same
        simp [view,other,seen]
      · simp [view,seen,Function.update_of_ne (Ne.symm same)]

theorem view_append : db.view c <+: (db.append change).view c := by
  unfold view append
  split
  · simp
  · exact List.prefix_refl _

/-- A granted lock makes the connection the writer. -/
theorem lock_ok (granted : db.lock c = (next,.ok ())) : next.writer = some c := by
  unfold lock at granted
  split at granted
  · rename_i holds
    exact (Prod.mk.inj granted).1 ▸ holds
  · split at granted
    · exact (Prod.mk.inj granted).1 ▸ rfl
    · simp at granted

/-- A statement leaves what its lock leaves, or one more change on a connection that holds the lock. -/
theorem execute_after (db : Database γ χ) (c : γ) (refuse : Refusal → ε) (check : List χ → Except ε Unit) (change : χ) :
    (db.execute c refuse check change).1 = (db.lock c).1 ∨
      ((db.lock c).1.writer = some c ∧ check ((db.lock c).1.view c) = .ok () ∧
        (db.execute c refuse check change).1 = (db.lock c).1.append change) := by
  unfold execute
  split
  · rename_i refused
    exact .inl (congrArg Prod.fst refused).symm
  · rename_i granted
    have holds := lock_ok granted
    rw [granted]
    split
    · exact .inl rfl
    · rename_i passed
      exact .inr ⟨holds,passed,rfl⟩

theorem view_execute (refuse : Refusal → ε) (check : List χ → Except ε Unit) :
    db.view c <+: (db.execute d refuse check change).1.view c := by
  have locked : db.view c <+: (db.lock d).1.view c := view_lock
  rcases execute_after db d refuse check change with same | ⟨_,_,more⟩
  · rw [same]
    exact locked
  · rw [more]
    exact locked.trans view_append

theorem view_commit : db.view c <+: (db.commit d).view c := by
  by_cases same : d = c
  · subst same
    by_cases holds : db.writer = some d
    · have whole : (db.committed ++ db.changes).take (db.committed.length + db.changes.length) =
          db.committed ++ db.changes := List.take_of_length_le (by simp)
      simp [view,commit,leave,holds,pending,seen,whole]
    · simpa [view,commit,leave,holds,pending,seen] using List.take_prefix _ _
  · by_cases holds : db.writer = some d
    · have other : db.writer ≠ some c := by simp [holds,same]
      simpa [view,commit,leave,holds,other,same,pending,seen,Function.update_of_ne (Ne.symm same)]
        using take_seen_prefix (db.snapshots c) db.committed db.changes
    · simp [view,commit,leave,holds,pending,seen,Function.update_of_ne (Ne.symm same)]

theorem view_rollback_other (other : d ≠ c) : db.view c <+: (db.rollback d).view c := by
  by_cases holds : db.writer = some d
  · simp [view,rollback,leave,holds,other,seen,Function.update_of_ne (Ne.symm other)]
  · simp [view,rollback,leave,holds,seen,Function.update_of_ne (Ne.symm other)]

/-- After its own ROLLBACK a connection sees the committed log. -/
theorem view_rollback_self : (db.rollback c).view c = db.committed := by
  simp [view,rollback,leave,seen]

/-! What a connection is in, beside its own statements and after them -/

theorem pending_of_outside (outside : db.inTransaction c = false) : db.pending c = [] := by
  have idle : db.writer ≠ some c := fun holds => by simp [inTransaction,holds] at outside
  simp [pending,idle]

theorem lock_other (other : c ≠ d) : (db.lock c).1.inTransaction d = db.inTransaction d ∧
    (db.lock c).1.pending d = db.pending d := by
  unfold lock
  split
  · exact ⟨rfl,rfl⟩
  · split
    · rename_i free
      simp [inTransaction,pending,free.1,other,Function.update_of_ne (Ne.symm other)]
    · simp [inTransaction,pending,Function.update_of_ne (Ne.symm other)]

theorem beginImmediate_other (other : c ≠ d) : (db.beginImmediate c).1.inTransaction d = db.inTransaction d ∧
    (db.beginImmediate c).1.pending d = db.pending d := by
  unfold beginImmediate
  split
  · exact ⟨rfl,rfl⟩
  · split
    · exact ⟨rfl,rfl⟩
    · rename_i free
      have idle : db.writer = none := by simpa using free
      simp [inTransaction,pending,idle,other]

theorem append_other (holds : db.writer = some c) (other : c ≠ d) :
    (db.append change).inTransaction d = db.inTransaction d ∧ (db.append change).pending d = db.pending d := by
  simp [inTransaction,pending,append,holds,other]

theorem execute_other (refuse : Refusal → ε) (check : List χ → Except ε Unit) (other : c ≠ d) :
    (db.execute c refuse check change).1.inTransaction d = db.inTransaction d ∧
      (db.execute c refuse check change).1.pending d = db.pending d := by
  have locked : (db.lock c).1.inTransaction d = db.inTransaction d ∧ (db.lock c).1.pending d = db.pending d :=
    lock_other other
  rcases execute_after db c refuse check change with same | ⟨holds,_,more⟩
  · rw [same]
    exact locked
  · rw [more]
    exact ⟨(append_other holds other).1.trans locked.1,(append_other holds other).2.trans locked.2⟩

theorem leave_other (other : c ≠ d) : (db.leave c).inTransaction d = db.inTransaction d ∧
    (db.leave c).pending d = db.pending d := by
  by_cases holds : db.writer = some c
  · simp [inTransaction,pending,leave,holds,other,Function.update_of_ne (Ne.symm other)]
  · simp [inTransaction,pending,leave,holds,Function.update_of_ne (Ne.symm other)]

theorem leave_self : (db.leave c).inTransaction c = false := by
  by_cases holds : db.writer = some c <;> simp [inTransaction,leave,holds]

theorem beginImmediate_self : (db.beginImmediate c).1.pending c = db.pending c := by
  unfold beginImmediate
  split
  · rfl
  · rename_i outside
    split
    · rfl
    · have none : db.pending c = [] := pending_of_outside (by simpa using outside)
      rw [none]
      simp [pending]

theorem lock_self : (db.lock c).1.inTransaction c = true ∧ (db.lock c).1.pending c = db.pending c := by
  unfold lock
  split
  · rename_i holds
    exact ⟨by simp [inTransaction,holds],rfl⟩
  · rename_i other
    split
    · simp [inTransaction,pending,other]
    · simp [inTransaction,pending]

omit [DecidableEq γ] in
/-- The log with the changes of the open write transaction. -/
def written (db : Database γ χ) : List χ := if db.writer.isSome then db.committed ++ db.changes else db.committed

omit [DecidableEq γ] in
theorem written_of_idle (idle : db.writer = none) : db.written = db.committed := by simp [written,idle]

omit [DecidableEq γ] in
theorem written_of_writer (holds : db.writer = some c) : db.written = db.committed ++ db.changes := by
  simp [written,holds]

theorem view_written : db.view c <+: db.written := by
  unfold view
  split
  · rename_i holds
    rw [written_of_writer holds]
  · apply (List.take_prefix _ _).trans
    unfold written
    split
    · exact List.prefix_append _ _
    · exact List.prefix_refl _

/-- What a data-changing statement leaves: it was refused, or everything written has one more
change, which passed the constraint. -/
theorem execute_cases {refuse : Refusal → ε} {check : List χ → Except ε Unit} {reply : Except ε Unit}
    (done : db.execute c refuse check change = (next,reply)) :
    next.committed = db.committed ∧
      ((next.written = db.written ∧ (next.writer = db.writer ∨ db.writer = none) ∧ reply.isOk = false) ∨
        (next.written = db.written ++ [change] ∧ (db.writer = none ∨ db.writer = some c) ∧
          next.writer = some c ∧ check db.written = .ok ())) := by
  have locked : (db.lock c).1.committed = db.committed ∧ (db.lock c).1.written = db.written ∧
      (((db.lock c).1.writer = db.writer ∧ (db.lock c).2 = .error .locked) ∨
        ((db.writer = none ∨ db.writer = some c) ∧ (db.lock c).1.writer = some c ∧ (db.lock c).2 = .ok ())) := by
    unfold lock
    split
    · rename_i holds
      exact ⟨rfl,rfl,.inr ⟨.inr holds,holds,rfl⟩⟩
    · split
      · rename_i free
        exact ⟨rfl,by simp [written,free.1],.inr ⟨.inl free.1,rfl,rfl⟩⟩
      · exact ⟨rfl,rfl,.inl ⟨rfl,rfl⟩⟩
  obtain ⟨committed,written,refused | ⟨before,holds,granted⟩⟩ := locked
  · unfold execute at done
    rw [show db.lock c = ((db.lock c).1,.error .locked) from Prod.ext rfl refused.2] at done
    obtain ⟨rfl,rfl⟩ := Prod.mk.inj done
    exact ⟨committed,.inl ⟨written,.inl refused.1,rfl⟩⟩
  · have view : (db.lock c).1.view c = db.written := by
      rw [← written,written_of_writer holds]
      simp [Database.view,holds]
    unfold execute at done
    rw [show db.lock c = ((db.lock c).1,.ok ()) from Prod.ext rfl granted] at done
    dsimp only at done
    rw [view] at done
    split at done
    · obtain ⟨rfl,rfl⟩ := Prod.mk.inj done
      refine ⟨committed,.inl ⟨written,?_,rfl⟩⟩
      exact before.symm.imp (fun same => holds.trans same.symm) id
    · rename_i passed
      obtain ⟨rfl,rfl⟩ := Prod.mk.inj done
      refine ⟨committed,.inr ⟨?_,before,holds,passed⟩⟩
      have appended : ((db.lock c).1.append change).writer = some c := holds
      rw [written_of_writer appended,← written,written_of_writer holds]
      simp [append]

theorem commit_cases : (db.commit c).written = db.written ∧
    (((db.commit c).committed = db.committed ∧ (db.commit c).writer = db.writer) ∨
      ((db.commit c).committed = db.written ∧ db.writer = some c ∧ (db.commit c).writer = none)) := by
  by_cases holds : db.writer = some c
  all_goals simp [commit,leave,pending,holds,written]

end Database
end Sqlite
