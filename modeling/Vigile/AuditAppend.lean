import Vigile.AuditLog
import Vigile.Transaction

/-! `log_action` run by any number of tasks over any number of connections, between
statements of transactions that may enclose it. -/
namespace Vigile.AuditLog

open DelimitedText HashChain Interleaving Python Sqlite

/-- A change of the database: a row of `audit_log`, or a statement on other tables. -/
inductive Change where
  | auditRow (row : AuditRow)
  | other (statement : String)

def Change.row? : Change → Option AuditRow
  | .auditRow row => some row
  | .other _ => none

def tableOf (log : List Change) : List AuditRow := log.filterMap Change.row?

/-- What `log_action` reads of the last row: its sequence and its hash. -/
abbrev Head := Int × String

def headOf (rows : List AuditRow) : Option Head :=
  (inOrder AuditRow.sequence rows).getLast?.map fun row => (row.sequence,row.entryHash)

/-- The primary key and the UNIQUE columns of `audit_log`. -/
def uniqueCheck (row : AuditRow) (log : List Change) : Except PyError Unit :=
  let rows := tableOf log
  if row.id ∈ rows.map (·.id) then
    .error (.integrityError "UNIQUE constraint failed: audit_log.id")
  else if row.sequence ∈ rows.map (·.sequence) then
    .error (.integrityError "UNIQUE constraint failed: audit_log.sequence")
  else if row.entryHash ∈ rows.map (·.entryHash) then
    .error (.integrityError "UNIQUE constraint failed: audit_log.entry_hash")
  else .ok ()

inductive Act (γ : Type) where
  | inTransaction (c : γ)
  | acquire
  | release
  | clock
  | uuid
  | sleep
  | head (c : γ)
  | insert (c : γ) (row : AuditRow)
  | begin (c : γ)
  | execute (c : γ) (statement : String)
  | commit (c : γ)
  | rollback (c : γ)

variable {γ τ : Type}

abbrev Reply : Act γ → Type
  | .inTransaction _ => Bool
  | .clock => ℚ
  | .uuid => String
  | .head _ => Option Head
  | .acquire | .release | .sleep | .insert _ _ | .begin _ | .execute _ _ | .commit _
  | .rollback _ => Unit

abbrev Task (γ α : Type) := Prog (Act γ) Reply PyError α

structure State (γ : Type) where
  db : Database γ Change
  locked : Bool

structure Outside where
  fault : Fault
  now : ℚ
  fresh : String
  deriving DecidableEq

def calm : Outside := ⟨.none,0,""⟩

section
variable [DecidableEq γ]

def beginOn (db : Database γ Change) (c : γ) : Database γ Change × Except PyError Unit :=
  match db.beginImmediate c with
  | (db',.ok ()) => (db',.ok ())
  | (db',.error refusal) => (db',.error (Transaction.refused refusal))

/-- What a database statement does undisturbed, and `none` for everything else. -/
def statement? (db : Database γ Change) :
    (act : Act γ) → Option (Database γ Change × Except PyError (Reply act))
  | .head c => some (db,.ok (headOf (tableOf (db.view c))))
  | .insert c row => some (db.execute c Transaction.refused (uniqueCheck row) (.auditRow row))
  | .begin c => some (beginOn db c)
  | .execute c statement =>
    some (db.execute c Transaction.refused (fun _ => .ok ()) (.other statement))
  | .commit c => some (db.commit c,.ok ())
  | .rollback c => some (db.rollback c,.ok ())
  | _ => none

def exec (act : Act γ) (outside : Outside) (s : State γ) :
    Option (State γ × Except PyError (Reply act)) :=
  match statement? s.db act with
  | some done => some (outside.fault.strike s ({s with db := done.1},done.2))
  | none =>
    match act with
    | .inTransaction c => some (s,.ok (s.db.inTransaction c))
    | .clock => some (s,.ok outside.now)
    | .uuid => some (s,.ok outside.fresh)
    | .sleep => some (outside.fault.strike s (s,.ok ()))
    | .release => some ({s with locked := false},.ok ())
    | .acquire =>
      -- a waiting task may be cancelled; a free lock is taken at once
      match outside.fault,s.locked with
      | .before error,_ => some (s,.error error)
      | _,false => some ({s with locked := true},.ok ())
      | _,true => none
    | _ => none

end

abbrev inTransaction (c : γ) : Task γ Bool := Prog.perform (Act.inTransaction c)
abbrev acquire : Task γ Unit := Prog.perform Act.acquire
abbrev release : Task γ Unit := Prog.perform Act.release
abbrev clock : Task γ ℚ := Prog.perform Act.clock
abbrev uuid : Task γ String := Prog.perform Act.uuid
abbrev sleep : Task γ Unit := Prog.perform Act.sleep
abbrev head (c : γ) : Task γ (Option Head) := Prog.perform (Act.head c)
abbrev insert (c : γ) (row : AuditRow) : Task γ Unit := Prog.perform (Act.insert c row)
abbrev commit (c : γ) : Task γ Unit := Prog.perform (Act.commit c)

/-- The arguments of `log_action`, the details as their JSON text. -/
structure Entry where
  userId : String
  action : String
  nodeId : Option String
  detailsJson : String

def previousHashAfter : Option Head → String
  | none => genesisHash
  | some (_,hash) => hash

def sequenceAfter : Option Head → Int
  | none => 1
  | some (sequence,_) => sequence + 1

def entryRow (sha256 : String → String) (entry : Entry) (timestamp : ℚ) (entryId : String)
    (head : Option Head) : AuditRow :=
  let previousHash := previousHashAfter head
  let sequence := sequenceAfter head
  let entryHash := computeEntryHash sha256 previousHash sequence timestamp entry.action entry.userId
    entry.nodeId entry.detailsJson
  ⟨entryId,sequence,timestamp,entry.userId,entry.action,entry.nodeId,entry.detailsJson,previousHash,
    entryHash⟩

def sequenceCollision (error : PyError) : Bool :=
  error.isException && contains "UNIQUE constraint failed: audit_log.sequence" error.text

/-- The attempts of `log_action`, as many as are left after this one. -/
def insertEntry (sha256 : String → String) (c : γ) (entry : Entry) (timestamp : ℚ)
    (entryId : String) (inTrans : Bool) : Nat → Task γ Unit
  | 0 => do
    let last ← head c
    insert c (entryRow sha256 entry timestamp entryId last)
    if !inTrans then
      commit c
  | retries+1 => do
    let last ← head c
    try
      insert c (entryRow sha256 entry timestamp entryId last)
      if !inTrans then
        commit c
    catch error =>
      if sequenceCollision error then
        sleep
        insertEntry sha256 c entry timestamp entryId inTrans retries
      else
        throw error

def logAction (sha256 : String → String) (c : γ) (entry : Entry) : Task γ String := do
  let timestamp ← clock
  let entryId ← uuid
  let inTrans ← inTransaction c
  acquire
  (insertEntry sha256 c entry timestamp entryId inTrans 4).ensure release
  return entryId

/-- A call of `log_action`, or one statement of the code around such calls. -/
inductive Operation (γ : Type) where
  | logAction (c : γ) (entry : Entry)
  | begin (c : γ)
  | execute (c : γ) (statement : String)
  | commit (c : γ)
  | rollback (c : γ)

def Operation.program (sha256 : String → String) : Operation γ → Task γ String
  | .logAction c entry => AuditLog.logAction sha256 c entry
  | .begin c => do Prog.perform (Act.begin c); return ""
  | .execute c statement => do Prog.perform (Act.execute c statement); return ""
  | .commit c => do Prog.perform (Act.commit c); return ""
  | .rollback c => do Prog.perform (Act.rollback c); return ""

def seedGenesis (sha256 : String → String) (entryId : String) (now : ℚ) (adminUserId : String) :
    AuditRow :=
  entryRow sha256 ⟨adminUserId,"SYSTEM_INIT",none,
    "\x7b\"message\": \"Database initialized. Genesis audit entry.\"\x7d"⟩ now entryId none

def start (sha256 : String → String) (genesis : AuditRow) (operations : τ → Operation γ) :
    Config τ (State γ) (Act γ) Reply PyError String :=
  ⟨⟨Database.opened [.auditRow genesis],false⟩,fun task => (operations task).program sha256⟩

end Vigile.AuditLog
