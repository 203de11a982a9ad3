import Vigile.Interleaving
import Vigile.Python
import Vigile.Sqlite

/-! `transaction(db)` on one connection that several tasks share. Whether a block opens a
transaction of its own is decided by `in_transaction`, a property of the connection. -/
namespace Vigile.Transaction

open Interleaving Python Sqlite

def refused : Refusal → PyError
  | .nested => .operationalError "cannot start a transaction within a transaction"
  | .locked => .operationalError "database is locked"

/-- What a task asks of the connection; a change names the task that made it. -/
inductive Statement (τ ω : Type) where
  | inTransaction
  | begin
  | execute (change : τ × ω)
  | commit
  | rollback
  deriving DecidableEq

variable {τ ω α : Type}

abbrev Reply : Statement τ ω → Type
  | .inTransaction => Bool
  | .begin | .execute _ | .commit | .rollback => Unit

abbrev Task (τ ω α : Type) := Prog (Statement τ ω) Reply PyError α

/-- The shared connection; its log starts with the run. -/
abbrev Connection (τ ω : Type) := Database Unit (τ × ω)

def answer (db : Connection τ ω) :
    (statement : Statement τ ω) → Connection τ ω × Except PyError (Reply statement)
  | .inTransaction => (db,.ok (db.inTransaction ()))
  | .begin =>
    match db.beginImmediate () with
    | (db',.ok ()) => (db',.ok ())
    | (db',.error refusal) => (db',.error (refused refusal))
  | .execute change => db.execute () refused (fun _ => .ok ()) change
  | .commit => (db.commit (),.ok ())
  | .rollback => (db.rollback (),.ok ())

/-- Reading `in_transaction` is not awaited and cannot fail; every statement can. -/
def exec (statement : Statement τ ω) (fault : Fault) (db : Connection τ ω) :
    Option (Connection τ ω × Except PyError (Reply statement)) :=
  match statement with
  | .inTransaction => some (answer db .inTransaction)
  | statement => some (fault.strike db (answer db statement))

abbrev inTransaction : Task τ ω Bool := Prog.perform Statement.inTransaction
abbrev begin : Task τ ω Unit := Prog.perform Statement.begin
abbrev commit : Task τ ω Unit := Prog.perform Statement.commit
abbrev rollback : Task τ ω Unit := Prog.perform Statement.rollback

/-- The `except BaseException` clause of `transaction`. -/
def unwind (error : PyError) : Task τ ω α := do
  if ← inTransaction then
    rollback
  throw error

/-- The `transaction` context manager around the code under its `async with`. -/
def transaction (body : Task τ ω α) : Task τ ω α := do
  if ← inTransaction then
    body
  else
    begin
    try
      let result ← body
      commit
      pure result
    catch error =>
      unwind error

/-- Code that only executes statements, and decides by their replies. -/
abbrev Body (ω : Type) := Prog ω (fun _ => Unit) PyError Unit

def issuedBy (task : τ) : Body ω → Task τ ω Unit
  | .ret value => .ret value
  | .raise error => .raise error
  | .act write next => .act (.execute (task,write)) fun reply => issuedBy task (next reply)

def executeThenCommit (task : τ) : List (Body ω) → Task τ ω Unit
  | [] => pure ()
  | group :: rest => do
    issuedBy task group
    commit
    executeThenCommit task rest

inductive Client (ω : Type) where
  | block (body : Body ω)
  | statements (groups : List (Body ω))

def Client.program (client : Client ω) (task : τ) : Task τ ω Unit :=
  match client with
  | .block body => transaction (issuedBy task body)
  | .statements groups => executeThenCommit task groups

def start (clients : τ → Client ω) : Config τ (Connection τ ω) (Statement τ ω) Reply PyError Unit :=
  ⟨Database.opened [],fun task => (clients task).program task⟩

abbrev Step (τ ω : Type) := Transition τ Fault (Connection τ ω) (Statement τ ω) Reply PyError

variable [DecidableEq τ]

/-- The task that took the connection into the transaction it is in. -/
def opener (past : List (Step τ ω)) : Option τ :=
  past.foldl (fun opener tr =>
    if tr.after.inTransaction () then
      if tr.before.inTransaction () then opener else some tr.task
    else none) none

def change? (task : τ) (tr : Step τ ω) : Option (τ × ω) :=
  match tr.action,tr.choice with
  | .execute _,.before _ => none
  | .execute change,_ => if tr.task = task then some change else none
  | _,_ => none

def performed (task : τ) (trace : List (Step τ ω)) : List (τ × ω) := trace.filterMap (change? task)

def committedOf (task : τ) (db : Connection τ ω) : List (τ × ω) :=
  db.committed.filter (·.1 = task)

/-- What `transaction` promises of the blocks in a run, at any point of it. -/
structure Atomic (clients : τ → Client ω)
    (reached : Config τ (Connection τ ω) (Statement τ ω) Reply PyError Unit)
    (trace : List (Step τ ω)) : Prop where
  /-- After a normal exit all changes of the block are committed. -/
  committed : ∀ task body value, clients task = .block body → reached.tasks task = .ret value →
    committedOf task reached.shared = performed task trace
  /-- After a block raised none of its changes is. -/
  discarded : ∀ task body error, clients task = .block body → reached.tasks task = .raise error →
    committedOf task reached.shared = []
  /-- A block ends its transaction with no change of another task in it. -/
  own : ∀ tr ∈ trace, ∀ body, clients tr.task = .block body →
    tr.action = .commit ∨ tr.action = .rollback →
    ∀ change ∈ tr.before.pending (),change.1 = tr.task

/-- While a transaction is open only the task that opened it uses the connection, and no
block is interrupted by the COMMIT it has just made. -/
def Exclusive (clients : τ → Client ω) (past : List (Step τ ω)) (tr : Step τ ω) : Prop :=
  (∀ holder, opener past = some holder → tr.task = holder) ∧
    (∀ body, clients tr.task = .block body → tr.action = .commit → ∀ error, tr.choice ≠ .after error)

inductive Phase where
  | fresh
  | outside
  | inside
  | rolling
  | done
  | dead
  | joined
  | plain

def rule (task : τ) : Prog.Protocol (Statement τ ω) Reply PyError Phase
  | .inTransaction,.ok true,.fresh => some .joined
  | .inTransaction,.ok false,.fresh => some .outside
  | .inTransaction,.ok true,.inside => some .rolling
  | .inTransaction,_,.fresh => some .dead
  | .inTransaction,_,.inside => some .dead
  | .begin,.ok _,.outside => some .inside
  | .begin,.error _,.outside => some .dead
  | .execute change,_,phase =>
    if change.1 = task then
      match phase with
      | .inside => some .inside
      | .joined => some .joined
      | .plain => some .plain
      | _ => none
    else none
  | .commit,.ok _,.inside => some .done
  | .commit,.error _,.inside => some .inside
  | .commit,_,.plain => some .plain
  | .rollback,_,.rolling => some .dead
  | _,_,_ => none

def Client.initial : Client ω → Phase
  | .block _ => .fresh
  | .statements _ => .plain

def Client.ended (client : Client ω) (result : Except PyError Unit) (phase : Phase) : Prop :=
  match client,result with
  | .block _,.ok _ => phase = .done ∨ phase = .joined
  | .block _,.error _ => phase = .dead ∨ phase = .joined
  | .statements _,_ => True

theorem issuedBy_follows (task : τ) (body : Body ω) {phase : Phase}
    (open' : phase = .inside ∨ phase = .joined ∨ phase = .plain) :
    (issuedBy task body).Follows (rule task) phase fun _ after => after = phase := by
  induction body with
  | ret value | raise error => rfl
  | act write next ih =>
    intro reply
    refine ⟨phase,?_,ih reply⟩
    rcases open' with rfl | rfl | rfl <;> simp [rule]

/-- The clause always raises, and leaves no transaction of the block behind. -/
theorem unwind_follows (task : τ) (error : PyError) :
    (unwind error : Task τ ω α).Follows (rule task) .inside
      fun result after => (∃ e, result = .error e) ∧ after = .dead := by
  unfold unwind Prog.Follows
  simp only [Prog.wp_bind,Prog.wp_perform]
  intro reply
  rcases reply with error | (_ | _)
  · exact ⟨.dead,rfl,⟨_,rfl⟩,rfl⟩
  · exact ⟨.dead,rfl,⟨_,rfl⟩,rfl⟩
  · refine ⟨.rolling,rfl,?_⟩
    simp only [Prog.continueWith_ok,if_true,Prog.wp_bind,Prog.wp_perform]
    intro reply
    refine ⟨.dead,rfl,?_⟩
    cases reply <;> exact ⟨⟨_,rfl⟩,rfl⟩

theorem transaction_follows (task : τ) (body : Body ω) :
    (transaction (issuedBy task body)).Follows (rule task) .fresh
      (Client.ended (.block body)) := by
  unfold transaction Prog.Follows
  simp only [Prog.wp_bind,Prog.wp_perform]
  intro reply
  rcases reply with error | (_ | _)
  · exact ⟨.dead,rfl,.inl rfl⟩
  · refine ⟨.outside,rfl,?_⟩
    simp only [Prog.continueWith_ok,Bool.false_eq_true,if_false,Prog.wp_bind,Prog.wp_perform]
    intro reply
    cases reply with
    | error error => exact ⟨.dead,rfl,.inl rfl⟩
    | ok value =>
      refine ⟨.inside,rfl,?_⟩
      simp only [Prog.continueWith_ok,Prog.wp_attempt,Prog.wp_bind]
      refine (issuedBy_follows task body (.inl rfl)).mono ?_
      rintro (error | value) _ rfl
      · refine (unwind_follows task error).mono ?_
        rintro _ _ ⟨⟨e,rfl⟩,dead⟩
        exact .inl dead
      · simp only [Prog.continueWith_ok,Prog.wp_bind,Prog.wp_perform]
        intro reply
        cases reply with
        | ok value => exact ⟨.done,rfl,.inl rfl⟩
        | error error =>
          refine ⟨.inside,rfl,?_⟩
          refine (unwind_follows task error).mono ?_
          rintro _ _ ⟨⟨e,rfl⟩,dead⟩
          exact .inl dead
  · refine ⟨.joined,rfl,?_⟩
    simp only [Prog.continueWith_ok,if_true]
    refine (issuedBy_follows task body (.inr (.inl rfl))).mono ?_
    rintro (error | value) _ rfl
    · exact .inr rfl
    · exact .inr rfl

theorem executeThenCommit_follows (task : τ) (groups : List (Body ω)) :
    (executeThenCommit task groups).Follows (rule task) .plain fun _ _ => True := by
  induction groups with
  | nil => trivial
  | cons group rest ih =>
    unfold executeThenCommit Prog.Follows
    simp only [Prog.wp_bind]
    refine (issuedBy_follows task group (.inr (.inr rfl))).mono ?_
    rintro (error | value) _ rfl
    · trivial
    · intro reply
      refine ⟨.plain,by cases reply <;> rfl,?_⟩
      cases reply with
      | error error => trivial
      | ok value => exact ih

/-- Every client keeps to its protocol. -/
theorem client_follows (clients : τ → Client ω) (task : τ) :
    ((start clients).tasks task).Follows (rule task) (clients task).initial
      (clients task).ended := by
  simp only [start,Client.program,Client.initial]
  cases clients task with
  | block body => exact transaction_follows task body
  | statements groups =>
    exact (executeThenCommit_follows task groups).mono fun _ _ _ => trivial

end Vigile.Transaction
