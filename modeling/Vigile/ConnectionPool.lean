import Vigile.Transaction

/-! The pool of database connections and the sessions that borrow from it. A session's body
is any code that works on the connection it was handed; other sessions run between its
statements. Connections are numbered as they are created. -/
namespace Vigile.ConnectionPool

open Interleaving Python Sqlite
open Transaction (Statement refused)

variable {τ ω α : Type}

inductive Action (τ ω : Type) where
  /-- `asyncio.wait_for(self._pool.get(), timeout)` -/
  | get
  /-- `SELECT 1` -/
  | probe (conn : Nat)
  | isMember (conn : Nat)
  | remove (conn : Nat)
  | close (conn : Nat)
  | create
  | append (conn : Nat)
  | put (conn : Nat)
  /-- `_db_ctx.set(conn)`: the connection is handed out. -/
  | set (conn : Nat)
  | reset (conn : Nat)
  | sql (conn : Nat) (statement : Statement τ ω)

abbrev Reply : Action τ ω → Type
  | .get | .create => Nat
  | .isMember _ => Bool
  | .probe _ | .remove _ | .close _ | .append _ | .put _ | .set _ | .reset _ => Unit
  | .sql _ statement => Transaction.Reply statement

abbrev Task (τ ω α : Type) := Prog (Action τ ω) Reply PyError α

structure Pool (τ ω : Type) where
  db : Database Nat (τ × ω)
  connections : List Nat
  queue : List Nat
  created : Nat

def answer (db : Database Nat (τ × ω)) (conn : Nat) : (statement : Statement τ ω) →
    Database Nat (τ × ω) × Except PyError (Transaction.Reply statement)
  | .inTransaction => (db,.ok (db.inTransaction conn))
  | .begin =>
    match db.beginImmediate conn with
    | (db',.ok ()) => (db',.ok ())
    | (db',.error refusal) => (db',.error (refused refusal))
  | .execute change => db.execute conn refused (fun _ => .ok ()) change
  | .commit => (db.commit conn,.ok ())
  | .rollback => (db.rollback conn,.ok ())

/-- Taking from an empty queue waits, until the timeout or a cancellation. What is not
awaited cannot fail. -/
def exec (action : Action τ ω) (fault : Fault) (s : Pool τ ω) :
    Option (Pool τ ω × Except PyError (Reply action)) :=
  match action with
  | .get =>
    match s.queue with
    | [] => fault.error?.map fun error => (s,.error error)
    | conn :: rest => some (fault.strike s ({s with queue := rest},.ok conn))
  | .probe _ => some (fault.strike s (s,.ok ()))
  | .isMember conn => some (s,.ok (conn ∈ s.connections))
  | .remove conn => some ({s with connections := s.connections.erase conn},.ok ())
  | .close conn => some (fault.strike s ({s with db := s.db.leave conn},.ok ()))
  | .create => some (fault.strike s ({s with created := s.created + 1},.ok s.created))
  | .append conn => some ({s with connections := s.connections ++ [conn]},.ok ())
  | .put conn => some (fault.strike s ({s with queue := s.queue ++ [conn]},.ok ()))
  | .set _ | .reset _ => some (s,.ok ())
  | .sql conn .inTransaction => some (s,(answer s.db conn .inTransaction).2)
  | .sql conn statement =>
    some (fault.strike s ({s with db := (answer s.db conn statement).1},(answer s.db conn statement).2))

abbrev get : Task τ ω Nat := Prog.perform Action.get
abbrev probe (conn : Nat) : Task τ ω Unit := Prog.perform (Action.probe conn)
abbrev isMember (conn : Nat) : Task τ ω Bool := Prog.perform (Action.isMember conn)
abbrev remove (conn : Nat) : Task τ ω Unit := Prog.perform (Action.remove conn)
abbrev close (conn : Nat) : Task τ ω Unit := Prog.perform (Action.close conn)
abbrev create : Task τ ω Nat := Prog.perform Action.create
abbrev append (conn : Nat) : Task τ ω Unit := Prog.perform (Action.append conn)
abbrev put (conn : Nat) : Task τ ω Unit := Prog.perform (Action.put conn)
abbrev set (conn : Nat) : Task τ ω Unit := Prog.perform (Action.set conn)
abbrev reset (conn : Nat) : Task τ ω Unit := Prog.perform (Action.reset conn)

/-- `except Exception: pass` -/
def suppress (program : Task τ ω Unit) : Task τ ω Unit :=
  tryCatch program fun error => if error.isException then pure () else throw error

def isHealthy (conn : Nat) : Task τ ω Bool :=
  tryCatch (do
    probe conn
    pure true)
  fun error => if error.isException then pure false else throw error

def createConnection : Task τ ω Nat := do
  let conn ← create
  append conn
  pure conn

def dropConnection (conn : Nat) : Task τ ω Unit :=
  suppress do
    remove conn
    close conn

def acquire : Task τ ω Nat := do
  let conn ← get
  if ← isHealthy conn then
    pure conn
  else
    dropConnection conn
    createConnection

/-- A replacement that fails is tried once more. -/
def replaceConnection : Task τ ω Nat :=
  tryCatch createConnection fun error =>
    if error.isException then
      tryCatch createConnection fun again =>
        if again.isException then
          throw (.runtimeError ("Failed to replace unhealthy connection in pool: " ++ again.text))
        else throw again
    else throw error

def release (conn : Nat) : Task τ ω Unit := do
  if ← isMember conn then
    if ← isHealthy conn then
      put conn
    else
      dropConnection conn
      let fresh ← replaceConnection
      put fresh

def onConnection (conn : Nat) : Transaction.Task τ ω α → Task τ ω α
  | .ret value => .ret value
  | .raise error => .raise error
  | .act statement next => .act (.sql conn statement) fun reply => onConnection conn (next reply)

def databaseSession (body : Transaction.Task τ ω Unit) : Task τ ω Unit := do
  let conn ← acquire
  set conn
  (onConnection conn body).ensure do
    reset conn
    release conn

def start (size : Nat) (bodies : τ → Transaction.Task τ ω Unit) :
    Config τ (Pool τ ω) (Action τ ω) Reply PyError Unit :=
  ⟨⟨Database.opened [],List.range size,List.range size,size⟩,fun task => databaseSession (bodies task)⟩

abbrev Step (τ ω : Type) := Transition τ Fault (Pool τ ω) (Action τ ω) Reply PyError

section
variable [DecidableEq τ]

/-- The connection a session's body is working on. -/
def holding (past : List (Step τ ω)) (task : τ) : Option Nat :=
  past.foldl (fun held tr =>
    if tr.task = task then
      match tr.action with
      | .set conn => some conn
      | .reset _ => none
      | _ => held
    else held) none

/-- The session's body took its connection into the transaction it is in. -/
def opened (past : List (Step τ ω)) (task : τ) : Bool :=
  past.foldl (fun inside tr =>
    if tr.task = task then
      match tr.action with
      | .set _ => false
      | .sql conn _ => tr.after.db.inTransaction conn && (inside || !tr.before.db.inTransaction conn)
      | _ => inside
    else inside) false

def made (tr : Step τ ω) : Option (τ × ω) :=
  match tr.action with
  | .sql conn (.execute change) =>
    if tr.choice.takesEffect ∧ (tr.before.db.lock conn).2 = .ok () then some change else none
  | _ => none

/-- What the session's body changed since it last was outside a transaction. -/
def outstanding (past : List (Step τ ω)) (task : τ) : List (τ × ω) :=
  past.foldl (fun changes tr =>
    if tr.task = task then
      match tr.action with
      | .set _ => []
      | .sql conn _ => if tr.after.db.inTransaction conn then changes ++ (made tr).toList else []
      | _ => changes
    else changes) []

/-- A body ends, by an exception or not, only outside a transaction. -/
def Settled (tr : Step τ ω) : Prop :=
  ∀ conn, tr.action = .reset conn → tr.before.db.inTransaction conn = false

structure Clean (past : List (Step τ ω)) (tr : Step τ ω) : Prop where
  /-- No connection is handed out inside a transaction. -/
  handed : ∀ conn, tr.action = .set conn → tr.before.db.inTransaction conn = false
  /-- A `transaction()` block joins no transaction but one that its own session opened. -/
  begins : ∀ conn, tr.action = .sql conn .inTransaction →
    tr.before.db.inTransaction conn = opened past tr.task
  /-- A COMMIT makes the session's own changes permanent, all of them and no others. -/
  commits : ∀ conn, tr.action = .sql conn .commit → tr.choice.takesEffect →
    tr.after.db.committed = tr.before.db.committed ++ outstanding past tr.task
  /-- The write lock is with a session whose body still runs. -/
  unblocked : ∀ conn, tr.before.db.writer = some conn → ∃ task, holding past task = some conn

/-- A connection that a session works on is not idle, and no other session works on it. -/
def Exclusive (past : List (Step τ ω)) (tr : Step τ ω) : Prop :=
  ∀ conn, (tr.action = .set conn ∨ ∃ statement, tr.action = .sql conn statement) →
    conn ∉ tr.before.queue ∧ ∀ other ≠ tr.task, holding past other ≠ some conn

end

inductive Mode where
  | idle
  | owned (conn : Nat)
  | held (conn : Nat)

def Mode.conn : Mode → Option Nat
  | .idle => none
  | .owned conn | .held conn => some conn

def rule : Prog.Protocol (Action τ ω) Reply PyError Mode
  | .get,.ok conn,.idle => some (.owned conn)
  | .get,.error _,.idle => some .idle
  | .probe _,_,mode | .isMember _,_,mode | .remove _,_,mode | .append _,_,mode => some mode
  | .close conn,_,.owned own => if conn = own then some (.owned own) else none
  | .create,.ok conn,.owned _ => some (.owned conn)
  | .create,.error _,.owned own => some (.owned own)
  | .put conn,_,.owned own => if conn = own then some .idle else none
  | .set conn,_,.owned own => if conn = own then some (.held own) else none
  | .sql conn _,_,.held own => if conn = own then some (.held own) else none
  | .reset conn,_,.held own => if conn = own then some (.owned own) else none
  | _,_,_ => none

theorem suppress_stays {program : Task τ ω Unit} {mode : Mode} (h : program.Stays rule mode) :
    (suppress program).Stays rule mode := by
  refine .attempt h fun error => ?_
  split
  · exact .pure
  · exact .throw

theorem isHealthy_stays (conn : Nat) (mode : Mode) : (isHealthy conn : Task τ ω Bool).Stays rule mode := by
  refine .attempt (Prog.Stays.bind (Prog.Stays.perform fun reply => rfl) fun _ => Prog.Stays.pure) fun error => ?_
  split
  · exact .pure
  · exact .throw

theorem dropConnection_stays (conn : Nat) : (dropConnection conn : Task τ ω Unit).Stays rule (.owned conn) := by
  refine suppress_stays (Prog.Stays.bind (Prog.Stays.perform fun reply => rfl) fun _ => ?_)
  exact .perform fun reply => if_pos rfl

/-- The session owns a connection, the one it was given if that is the outcome. -/
def Owns (result : Except PyError Nat) (mode : Mode) : Prop :=
  match result with
  | .ok conn => mode = .owned conn
  | .error _ => ∃ conn, mode = .owned conn

theorem createConnection_follows (own : Nat) :
    (createConnection : Task τ ω Nat).Follows rule (.owned own) Owns := by
  have created : (create : Task τ ω Nat).Follows rule (.owned own) Owns := by
    refine .perform fun reply => ?_
    cases reply with
    | ok conn => exact ⟨.owned conn,rfl,rfl⟩
    | error error => exact ⟨.owned own,rfl,own,rfl⟩
  refine .bind created ?_ fun _ _ owns => owns
  rintro conn _ rfl
  refine .bind (Prog.Stays.perform fun reply => rfl) ?_ ?_
  · rintro _ _ rfl
    rfl
  · rintro _ _ rfl
    exact ⟨conn,rfl⟩

theorem replaceConnection_follows (own : Nat) :
    (replaceConnection : Task τ ω Nat).Follows rule (.owned own) Owns := by
  refine .attempt (createConnection_follows own) (fun _ _ owns => owns) ?_
  rintro error _ ⟨next,rfl⟩
  split
  · refine .attempt (createConnection_follows next) (fun _ _ owns => owns) ?_
    rintro again _ ⟨last,rfl⟩
    split <;> exact ⟨last,rfl⟩
  · exact ⟨next,rfl⟩

theorem acquire_follows : (acquire : Task τ ω Nat).Follows rule .idle fun result mode =>
    ∀ conn, result = .ok conn → mode = .owned conn := by
  have taken : (get : Task τ ω Nat).Follows rule .idle fun result mode =>
      ∀ conn, result = .ok conn → mode = .owned conn := by
    refine .perform fun reply => ?_
    cases reply with
    | ok conn => exact ⟨.owned conn,rfl,by simp⟩
    | error error => exact ⟨.idle,rfl,by simp⟩
  refine .bind taken ?_ fun _ _ _ => by simp
  intro conn mode owned
  obtain rfl := owned conn rfl
  refine .bind (isHealthy_stays conn _) ?_ fun _ _ _ => by simp
  rintro healthy _ rfl
  cases healthy with
  | true =>
    rintro _ same
    rw [Except.ok.inj same]
  | false =>
    refine .bind (dropConnection_stays conn) ?_ fun _ _ _ => by simp
    rintro _ _ rfl
    refine (createConnection_follows conn).mono ?_
    rintro _ _ owns fresh rfl
    exact owns

theorem release_follows (conn : Nat) : (release conn : Task τ ω Unit).Follows rule (.owned conn) fun _ _ => True := by
  have returned : ∀ own, (put own : Task τ ω Unit).Follows rule (.owned own) fun _ _ => True :=
    fun own => Prog.Follows.perform fun _ => ⟨.idle,if_pos rfl,trivial⟩
  refine .bind (Prog.Stays.perform fun reply => rfl) ?_ fun _ _ _ => trivial
  rintro member _ rfl
  cases member with
  | false => trivial
  | true =>
    refine .bind (isHealthy_stays conn _) ?_ fun _ _ _ => trivial
    rintro healthy _ rfl
    cases healthy with
    | true => exact returned conn
    | false =>
      refine .bind (dropConnection_stays conn) ?_ fun _ _ _ => trivial
      rintro _ _ rfl
      refine .bind (replaceConnection_follows conn) ?_ fun _ _ _ => trivial
      rintro fresh _ rfl
      exact returned fresh

theorem onConnection_stays (conn : Nat) (body : Transaction.Task τ ω α) :
    (onConnection conn body).Stays rule (.held conn) := by
  induction body with
  | ret value | raise error => rfl
  | act statement next ih => exact fun reply => ⟨.held conn,if_pos rfl,ih reply⟩

theorem databaseSession_follows (body : Transaction.Task τ ω Unit) :
    (databaseSession body).Follows rule .idle fun _ _ => True := by
  refine .bind acquire_follows ?_ fun _ _ _ => trivial
  intro conn mode owned
  obtain rfl := owned conn rfl
  have handed : (set conn : Task τ ω Unit).Follows rule (.owned conn) fun _ mode => mode = .held conn :=
    Prog.Follows.perform fun _ => ⟨.held conn,if_pos rfl,rfl⟩
  have givenBack : (reset conn : Task τ ω Unit).Follows rule (.held conn) fun _ mode => mode = .owned conn :=
    Prog.Follows.perform fun _ => ⟨.owned conn,if_pos rfl,rfl⟩
  refine .bind handed ?_ fun _ _ _ => trivial
  rintro _ _ rfl
  refine .ensure (onConnection_stays conn body) ?_
  rintro result _ rfl
  refine .bind givenBack ?_ fun _ _ _ => trivial
  rintro _ _ rfl
  refine (release_follows conn).mono ?_
  rintro (_ | _) _ _ <;> trivial

section

variable {choice : Fault} {before after : Pool τ ω} {mode m : Mode}

variable {conn : Nat} {action : Action τ ω}

/-- A statement has its effect, or leaves everything alone. -/
theorem sql_taken {statement : Statement τ ω} {reply : Except PyError (Transaction.Reply statement)}
    (taken : exec (.sql conn statement) choice before = some (after,reply)) :
    after = before ∧ (choice.takesEffect = false ∨ statement = .inTransaction) ∨
      choice.takesEffect = true ∧ after = {before with db := (answer before.db conn statement).1} := by
  cases statement
  case inTransaction => exact .inl ⟨(congrArg Prod.fst (Option.some.inj taken)).symm,.inr rfl⟩
  all_goals
    have same := congrArg Prod.fst (Option.some.inj taken)
    cases choice with
    | none | after error => exact .inr ⟨rfl,same.symm⟩
    | before error => exact .inl ⟨same.symm,.inl rfl⟩

variable {reply : Except PyError (Reply action)}

/-- Only three actions move connections. -/
theorem queue_kept
    (taken : exec action choice before = some (after,reply)) (get : action ≠ .get) (create : action ≠ .create)
    (put : ∀ conn, action ≠ .put conn) : after.queue = before.queue ∧ after.created = before.created := by
  cases action with
  | get => exact absurd rfl get
  | create => exact absurd rfl create
  | put conn => exact absurd rfl (put conn)
  | sql conn statement =>
    rcases sql_taken taken with ⟨rfl,_⟩ | ⟨_,rfl⟩ <;> exact ⟨rfl,rfl⟩
  | probe conn | close conn =>
    cases choice <;>
      obtain ⟨rfl,_⟩ := Prod.mk.inj (Option.some.inj taken) <;>
      exact ⟨rfl,rfl⟩
  | isMember conn | remove conn | append conn | set conn | reset conn =>
    obtain ⟨rfl,_⟩ := Prod.mk.inj (Option.some.inj taken)
    exact ⟨rfl,rfl⟩

/-- Only statements and the closing of a connection reach the database. -/
theorem db_kept
    (taken : exec action choice before = some (after,reply)) (close : ∀ conn, action ≠ .close conn)
    (sql : ∀ conn statement, action ≠ .sql conn statement) : after.db = before.db := by
  cases action with
  | close conn => exact absurd rfl (close conn)
  | sql conn statement => exact absurd rfl (sql conn statement)
  | get =>
    unfold exec at taken
    cases queue : before.queue with
    | nil =>
      simp only [queue] at taken
      obtain ⟨error,_,done⟩ := Option.map_eq_some_iff.mp taken
      obtain ⟨rfl,_⟩ := Prod.mk.inj done
      rfl
    | cons conn rest =>
      simp only [queue] at taken
      cases choice <;>
        obtain ⟨rfl,_⟩ := Prod.mk.inj (Option.some.inj taken) <;>
        rfl
  | probe conn | create | put conn =>
    cases choice <;>
      obtain ⟨rfl,_⟩ := Prod.mk.inj (Option.some.inj taken) <;>
      rfl
  | isMember conn | remove conn | append conn | set conn | reset conn =>
    obtain ⟨rfl,_⟩ := Prod.mk.inj (Option.some.inj taken)
    rfl

theorem conn_kept
    (allowed : rule action reply mode = some m) (get : action ≠ .get) (create : action ≠ .create)
    (had : m.conn = some conn) : mode.conn = some conn := by
  cases action with
  | get => exact absurd rfl get
  | create => exact absurd rfl create
  | probe other | isMember other | remove other | append other =>
    obtain rfl := Option.some.inj allowed
    exact had
  | close other | put other | set other | reset other | sql other statement =>
    cases mode <;> simp only [rule,reduceCtorEq] at allowed
    split at allowed
    · obtain rfl := Option.some.inj allowed
      first | exact had | exact absurd had (by simp [Mode.conn])
    · contradiction

/-- Statements of one connection do not concern another. -/
theorem answer_other (db : Database Nat (τ × ω)) {other : Nat} (statement : Statement τ ω) (ne : conn ≠ other) :
    (answer db conn statement).1.inTransaction other = db.inTransaction other ∧
      (answer db conn statement).1.pending other = db.pending other := by
  cases statement with
  | inTransaction => exact ⟨rfl,rfl⟩
  | begin =>
    have begun : (db.beginImmediate conn).1.inTransaction other = db.inTransaction other ∧
        (db.beginImmediate conn).1.pending other = db.pending other := Database.beginImmediate_other ne
    unfold answer
    split
    all_goals
      rename_i eq
      rwa [eq] at begun
  | execute change => exact Database.execute_other refused (fun _ => .ok ()) ne
  | commit | rollback => exact Database.leave_other ne

/-- What a statement leaves pending on its connection. -/
theorem answer_pending (db : Database Nat (τ × ω)) (conn : Nat) (statement : Statement τ ω) :
    (answer db conn statement).1.pending conn =
      if (answer db conn statement).1.inTransaction conn then
        db.pending conn ++ (match statement with
          | .execute change => if (db.lock conn).2 = .ok () then [change] else []
          | _ => [])
      else [] := by
  split
  · rename_i inside
    cases statement with
    | inTransaction => simp [answer]
    | begin =>
      have begun : (db.beginImmediate conn).1.pending conn = db.pending conn := Database.beginImmediate_self
      unfold answer
      split
      all_goals
        rename_i eq
        rw [eq] at begun
        simpa using begun
    | execute change =>
      have locked : (db.lock conn).1.pending conn = db.pending conn := Database.lock_self.2
      cases granted : db.lock conn with
      | mk next result =>
        rw [granted] at locked
        cases result with
        | error refusal => simpa [answer,Database.execute,granted] using locked
        | ok _ =>
          have writer := Database.lock_ok granted
          rw [← locked]
          simp [answer,Database.execute,granted,Database.pending,Database.append,writer]
    | commit | rollback =>
      have left : (db.leave conn).inTransaction conn = true := inside
      rw [Database.leave_self] at left
      contradiction
  · rename_i outside
    exact Database.pending_of_outside (by simpa using outside)

end

section
variable [DecidableEq τ] {past : List (Step τ ω)} {tr : Step τ ω} {modes : τ → Mode} {m : Mode}

theorem holding_concat (past : List (Step τ ω)) (tr : Step τ ω) (task : τ) : holding (past ++ [tr]) task =
    if tr.task = task then
      match tr.action with
      | .set conn => some conn
      | .reset _ => none
      | _ => holding past task
    else holding past task := by
  simp [holding]

theorem opened_concat (past : List (Step τ ω)) (tr : Step τ ω) (task : τ) : opened (past ++ [tr]) task =
    if tr.task = task then
      match tr.action with
      | .set _ => false
      | .sql conn _ => tr.after.db.inTransaction conn && (opened past task || !tr.before.db.inTransaction conn)
      | _ => opened past task
    else opened past task := by
  simp [opened]

theorem outstanding_concat (past : List (Step τ ω)) (tr : Step τ ω) (task : τ) : outstanding (past ++ [tr]) task =
    if tr.task = task then
      match tr.action with
      | .set _ => []
      | .sql conn _ => if tr.after.db.inTransaction conn then outstanding past task ++ (made tr).toList else []
      | _ => outstanding past task
    else outstanding past task := by
  simp [outstanding]

/-- Every connection is in the queue, or with one session, or lost. -/
structure Apart (modes : τ → Mode) (s : Pool τ ω) : Prop where
  queued : s.queue.Nodup
  numbered : ∀ conn ∈ s.queue, conn < s.created
  owned : ∀ task conn, (modes task).conn = some conn → conn < s.created ∧ conn ∉ s.queue
  alone : ∀ task other conn, (modes task).conn = some conn → (modes other).conn = some conn → task = other

/-- What the history says of a session is so on its connection, and no connection is in a
transaction that no session is working on. -/
structure Kept (past : List (Step τ ω)) (modes : τ → Mode) (db : Database Nat (τ × ω)) : Prop where
  inside : ∀ conn, db.inTransaction conn = true → ∃ task, modes task = .held conn
  pending : ∀ task conn, modes task = .held conn → db.pending conn = outstanding past task
  opened : ∀ task conn, modes task = .held conn → opened past task = db.inTransaction conn
  holding : ∀ task conn, modes task = .held conn → holding past task = some conn

variable {s s' after before : Pool τ ω} {task : τ} {conn : Nat} {choice : Fault} {reply : Except PyError Unit}

/-- A session gives up its connection, or goes on with it. -/
theorem Apart.handed_on (apart : Apart modes s) (queued : s'.queue.Nodup)
    (shorter : ∀ c ∈ s'.queue, c ∈ s.queue) (counted : s.created ≤ s'.created)
    (kept : ∀ conn, m.conn = some conn → (modes task).conn = some conn) :
    Apart (Function.update modes task m) s' := by
  have before : ∀ t conn, (Function.update modes task m t).conn = some conn → (modes t).conn = some conn := by
    intro t conn now
    by_cases own : t = task
    · subst own
      rw [Function.update_self] at now
      exact kept conn now
    · rwa [Function.update_of_ne own] at now
  refine ⟨queued,fun c member => Nat.lt_of_lt_of_le (apart.numbered c (shorter c member)) counted,?_,?_⟩
  · intro t conn now
    obtain ⟨numbered,outside⟩ := apart.owned t conn (before t conn now)
    exact ⟨Nat.lt_of_lt_of_le numbered counted,fun member => outside (shorter conn member)⟩
  · intro t other conn now also
    exact apart.alone t other conn (before t conn now) (before other conn also)

/-- Nothing changes hands. -/
theorem Apart.unmoved (apart : Apart modes s) (same : s'.queue = s.queue)
    (counted : s'.created = s.created) (kept : ∀ conn, m.conn = some conn → (modes task).conn = some conn) :
    Apart (Function.update modes task m) s' :=
  apart.handed_on (same ▸ apart.queued) (fun _ member => same ▸ member) (Nat.le_of_eq counted.symm) kept

/-- A session takes a connection that nobody has. -/
theorem Apart.taken_on (apart : Apart modes s) (queued : s'.queue.Nodup)
    (shorter : ∀ c ∈ s'.queue, c ∈ s.queue ∧ c ≠ conn) (counted : s.created ≤ s'.created) (numbered : conn < s'.created)
    (unowned : ∀ t, (modes t).conn ≠ some conn) :
    Apart (Function.update modes task (.owned conn)) s' := by
  have owned : ∀ t c, (Function.update modes task (.owned conn) t).conn = some c →
      t = task ∧ c = conn ∨ t ≠ task ∧ (modes t).conn = some c := by
    intro t c now
    by_cases own : t = task
    · subst own
      rw [Function.update_self] at now
      exact .inl ⟨rfl,(Option.some.inj now).symm⟩
    · rw [Function.update_of_ne own] at now
      exact .inr ⟨own,now⟩
  refine ⟨queued,fun c member => Nat.lt_of_lt_of_le (apart.numbered c (shorter c member).1) counted,?_,?_⟩
  · intro t c now
    rcases owned t c now with ⟨_,rfl⟩ | ⟨_,had⟩
    · exact ⟨numbered,fun member => (shorter c member).2 rfl⟩
    · have before := apart.owned t c had
      exact ⟨Nat.lt_of_lt_of_le before.1 counted,fun member => before.2 (shorter c member).1⟩
  · intro t other c now also
    rcases owned t c now with ⟨rfl,rfl⟩ | ⟨_,had⟩
    · rcases owned other c also with ⟨rfl,_⟩ | ⟨_,had⟩
      · rfl
      · exact absurd had (unowned other)
    · rcases owned other c also with ⟨rfl,rfl⟩ | ⟨_,also⟩
      · exact absurd had (unowned t)
      · exact apart.alone t other c had also

/-- A connection goes back into the queue. -/
theorem Apart.put_back (apart : Apart modes s) (own : (modes task).conn = some conn)
    (queue : s'.queue = s.queue ++ [conn]) (counted : s'.created = s.created) :
    Apart (Function.update modes task .idle) s' := by
  have mine := apart.owned task conn own
  have others : ∀ t c, (Function.update modes task .idle t).conn = some c → t ≠ task ∧ (modes t).conn = some c := by
    intro t c now
    by_cases same : t = task
    · subst same
      rw [Function.update_self] at now
      contradiction
    · rw [Function.update_of_ne same] at now
      exact ⟨same,now⟩
  refine ⟨?_,?_,?_,?_⟩
  · rw [queue]
    refine List.nodup_append.mpr ⟨apart.queued,by simp,?_⟩
    rintro c member _ last rfl
    rw [List.mem_singleton.mp last] at member
    exact mine.2 member
  · intro c member
    rw [queue,List.mem_append,List.mem_singleton] at member
    rw [counted]
    rcases member with member | rfl
    · exact apart.numbered c member
    · exact mine.1
  · intro t c now
    obtain ⟨ne,had⟩ := others t c now
    obtain ⟨numbered,outside⟩ := apart.owned t c had
    refine ⟨counted ▸ numbered,?_⟩
    rw [queue,List.mem_append,List.mem_singleton]
    rintro (member | rfl)
    · exact outside member
    · exact ne (apart.alone t task c had own)
  · intro t other c now also
    exact apart.alone t other c (others t c now).2 (others other c also).2

theorem apart_get {reply : Except PyError Nat}
    (apart : Apart modes before) (taken : exec (.get : Action τ ω) choice before = some (after,reply))
    (allowed : rule (.get : Action τ ω) reply (modes task) = some m) : Apart (Function.update modes task m) after := by
  unfold exec at taken
  cases queue : before.queue with
  | nil =>
    simp only [queue] at taken
    obtain ⟨error,_,done⟩ := Option.map_eq_some_iff.mp taken
    obtain ⟨rfl,rfl⟩ := Prod.mk.inj done
    cases mode : modes task <;> simp only [rule,mode,reduceCtorEq,Option.some.injEq] at allowed
    subst allowed
    exact apart.unmoved rfl rfl (by simp [Mode.conn])
  | cons conn rest =>
    simp only [queue] at taken
    have queued := apart.queued
    rw [queue,List.nodup_cons] at queued
    have member : conn ∈ before.queue := by simp [queue]
    cases choice with
    | none =>
      obtain ⟨rfl,rfl⟩ := Prod.mk.inj (Option.some.inj taken)
      cases mode : modes task <;> simp only [rule,mode,reduceCtorEq,Option.some.injEq] at allowed
      subst allowed
      refine apart.taken_on queued.2 ?_ (Nat.le_refl _) (apart.numbered conn member)
        fun t own => (apart.owned t conn own).2 member
      intro c left
      refine ⟨by simp [queue,show c ∈ rest from left],?_⟩
      rintro rfl
      exact queued.1 left
    | before error =>
      obtain ⟨rfl,rfl⟩ := Prod.mk.inj (Option.some.inj taken)
      cases mode : modes task <;> simp only [rule,mode,reduceCtorEq,Option.some.injEq] at allowed
      subst allowed
      exact apart.unmoved rfl rfl (by simp [Mode.conn])
    | after error =>
      obtain ⟨rfl,rfl⟩ := Prod.mk.inj (Option.some.inj taken)
      cases mode : modes task <;> simp only [rule,mode,reduceCtorEq,Option.some.injEq] at allowed
      subst allowed
      refine apart.handed_on queued.2 ?_ (Nat.le_refl _) (by simp [Mode.conn])
      intro c left
      simp [queue,show c ∈ rest from left]

theorem apart_create {reply : Except PyError Nat}
    (apart : Apart modes before) (taken : exec (.create : Action τ ω) choice before = some (after,reply))
    (allowed : rule (.create : Action τ ω) reply (modes task) = some m) : Apart (Function.update modes task m) after := by
  cases mode : modes task with
  | idle | held conn => cases reply <;> simp [rule,mode] at allowed
  | owned own =>
    cases choice with
    | none =>
      obtain ⟨rfl,rfl⟩ := Prod.mk.inj (Option.some.inj taken)
      rw [mode] at allowed
      obtain rfl := Option.some.inj allowed
      refine apart.taken_on apart.queued ?_ (Nat.le_succ _) (Nat.lt_succ_self _) ?_
      · exact fun c member => ⟨member,Nat.ne_of_lt (apart.numbered c member)⟩
      · exact fun t own => Nat.lt_irrefl _ (apart.owned t _ own).1
    | before error =>
      obtain ⟨rfl,rfl⟩ := Prod.mk.inj (Option.some.inj taken)
      rw [mode] at allowed
      obtain rfl := Option.some.inj allowed
      exact apart.unmoved rfl rfl fun _ had => mode ▸ had
    | after error =>
      obtain ⟨rfl,rfl⟩ := Prod.mk.inj (Option.some.inj taken)
      rw [mode] at allowed
      obtain rfl := Option.some.inj allowed
      exact apart.handed_on apart.queued (fun _ member => member) (Nat.le_succ _) fun _ had => mode ▸ had

theorem apart_put
    (apart : Apart modes before) (taken : exec (.put conn : Action τ ω) choice before = some (after,reply))
    (allowed : rule (.put conn : Action τ ω) reply (modes task) = some m) :
    Apart (Function.update modes task m) after := by
  cases mode : modes task with
  | idle | held conn => simp [rule,mode] at allowed
  | owned own =>
    simp only [rule,mode] at allowed
    split at allowed
    · rename_i same
      subst same
      obtain rfl := Option.some.inj allowed
      cases choice with
      | before error =>
        obtain ⟨rfl,rfl⟩ := Prod.mk.inj (Option.some.inj taken)
        exact apart.unmoved rfl rfl (by simp [Mode.conn])
      | none | after error =>
        obtain ⟨rfl,rfl⟩ := Prod.mk.inj (Option.some.inj taken)
        have mine : (modes task).conn = some conn := by rw [mode]; rfl
        exact apart.put_back mine rfl rfl
    · contradiction

theorem apart_step (apart : Apart modes tr.before) (taken : Taken exec tr)
    (allowed : rule tr.action tr.reply (modes tr.task) = some m) :
    Apart (Function.update modes tr.task m) tr.after := by
  by_cases get : tr.action = .get
  · obtain ⟨task,action,choice,before,reply,after⟩ := tr
    subst get
    exact apart_get apart taken allowed
  by_cases create : tr.action = .create
  · obtain ⟨task,action,choice,before,reply,after⟩ := tr
    subst create
    exact apart_create apart taken allowed
  by_cases put : ∃ conn, tr.action = .put conn
  · obtain ⟨task,action,choice,before,reply,after⟩ := tr
    obtain ⟨conn,rfl⟩ := put
    exact apart_put apart taken allowed
  · obtain ⟨queue,created⟩ := queue_kept taken get create fun conn is => put ⟨conn,is⟩
    exact apart.unmoved queue created fun _ had => conn_kept allowed get create had

/-- What the history says of the other sessions stays. -/
theorem kept_others {db : Database Nat (τ × ω)} (kept : Kept past modes tr.before.db)
    (elsewhere : ∀ conn, (modes tr.task).conn ≠ some conn →
      db.inTransaction conn = tr.before.db.inTransaction conn ∧ db.pending conn = tr.before.db.pending conn)
    (apart : Apart modes tr.before)
    (inside : ∀ conn, (modes tr.task).conn = some conn → db.inTransaction conn = true → m = .held conn)
    (own : ∀ conn, m = .held conn → db.pending conn = outstanding (past ++ [tr]) tr.task ∧
      opened (past ++ [tr]) tr.task = db.inTransaction conn ∧ holding (past ++ [tr]) tr.task = some conn) :
    Kept (past ++ [tr]) (Function.update modes tr.task m) db := by
  have foreign : ∀ t conn, t ≠ tr.task → modes t = .held conn → (modes tr.task).conn ≠ some conn := by
    intro t conn ne held mine
    exact ne (apart.alone t tr.task conn (by rw [held]; rfl) mine)
  refine ⟨?_,?_,?_,?_⟩
  · intro conn open'
    by_cases mine : (modes tr.task).conn = some conn
    · exact ⟨tr.task,by rw [Function.update_self]; exact inside conn mine open'⟩
    · rw [(elsewhere conn mine).1] at open'
      obtain ⟨t,held⟩ := kept.inside conn open'
      have ne : t ≠ tr.task := by
        rintro rfl
        exact mine (by rw [held]; rfl)
      exact ⟨t,by rwa [Function.update_of_ne ne]⟩
  all_goals
    intro t conn held
    by_cases same : t = tr.task
    · subst same
      rw [Function.update_self] at held
      obtain ⟨pending,open',holds⟩ := own conn held
      assumption
    · rw [Function.update_of_ne same] at held
      have away := elsewhere conn (foreign t conn same held)
      have ne : tr.task ≠ t := Ne.symm same
      simp only [outstanding_concat,opened_concat,holding_concat,if_neg ne,away]
      first
        | exact kept.pending t conn held
        | exact kept.opened t conn held
        | exact kept.holding t conn held

theorem kept_sql {statement : Statement τ ω} (apart : Apart modes tr.before)
    (kept : Kept past modes tr.before.db) (action : tr.action = .sql conn statement) (held : modes tr.task = .held conn)
    (taken : Taken exec tr) : Kept (past ++ [tr]) (Function.update modes tr.task (.held conn)) tr.after.db := by
  obtain ⟨task,action',choice,before,reply,after⟩ := tr
  obtain rfl : action' = .sql conn statement := action
  replace taken : exec (.sql conn statement) choice before = some (after,reply) := taken
  have mine : (modes task).conn = some conn := by rw [held]; rfl
  have open_before := kept.opened task conn held
  have pending_before := kept.pending task conn held
  have holds := kept.holding task conn held
  simp only at open_before pending_before
  refine kept_others kept ?_ apart ?_ ?_
  · intro other ne
    have apart' : conn ≠ other := fun same => ne (same ▸ mine)
    rcases sql_taken taken with ⟨rfl,_⟩ | ⟨_,rfl⟩
    · exact ⟨rfl,rfl⟩
    · exact answer_other before.db statement apart'
  · intro other owned _
    rw [Option.some.inj (mine.symm.trans owned)]
  · intro other same
    obtain rfl := Mode.held.inj same
    refine ⟨?_,?_,by rw [holding_concat,if_pos rfl]; exact holds⟩
    · rw [outstanding_concat,if_pos rfl]
      simp only
      rcases sql_taken taken with ⟨rfl,silent⟩ | ⟨effect,rfl⟩
      · have nothing : made ⟨task,.sql conn statement,choice,after,reply,after⟩ = none := by
          unfold made
          rcases silent with stopped | rfl
          · cases statement <;> simp [stopped]
          · rfl
        rw [nothing]
        split
        · simpa using pending_before
        · rename_i outside
          exact Database.pending_of_outside (by simpa using outside)
      · rw [answer_pending,pending_before]
        split
        · congr 1
          cases statement <;> simp [made,effect]
          split <;> rfl
        · rfl
    · rw [opened_concat,if_pos rfl]
      simp only [open_before]
      cases after.db.inTransaction conn <;> cases before.db.inTransaction conn <;> rfl

/-- A connection in a transaction is worked on. -/
theorem held_of_open (apart : Apart modes s) (kept : Kept past modes s.db)
    (mine : (modes task).conn = some conn) (inside : s.db.inTransaction conn = true) : modes task = .held conn := by
  obtain ⟨t,held⟩ := kept.inside conn inside
  obtain rfl := apart.alone t task conn (by rw [held]; rfl) mine
  exact held

/-- Steps that neither hand out nor take back nor touch the database. -/
theorem kept_quiet (apart : Apart modes tr.before) (kept : Kept past modes tr.before.db) (db : tr.after.db = tr.before.db)
    (set : ∀ conn, tr.action ≠ .set conn) (reset : ∀ conn, tr.action ≠ .reset conn)
    (sql : ∀ conn statement, tr.action ≠ .sql conn statement)
    (same : ∀ conn, m = .held conn ↔ modes tr.task = .held conn) :
    Kept (past ++ [tr]) (Function.update modes tr.task m) tr.after.db := by
  refine kept_others kept (fun _ _ => db ▸ ⟨rfl,rfl⟩) apart ?_ ?_
  · intro conn mine inside
    rw [db] at inside
    exact (same conn).mpr (held_of_open apart kept mine inside)
  · intro conn held
    have before := (same conn).mp held
    rw [db,outstanding_concat,opened_concat,holding_concat]
    simp only [if_true]
    exact ⟨kept.pending _ _ before,kept.opened _ _ before,kept.holding _ _ before⟩

section
variable (apart : Apart modes before) (kept : Kept past modes before.db) (mine : (modes task).conn = some conn)
  (closed : before.db.inTransaction conn = false)
include apart kept mine closed

theorem kept_close
    (taken : exec (.close conn : Action τ ω) choice before = some (after,reply)) :
    Kept (past ++ [⟨task,.close conn,choice,before,reply,after⟩]) (Function.update modes task (.owned conn)) after.db := by
  have left : (before.db.leave conn).inTransaction conn = false := Database.leave_self
  have done : after.db = before.db ∨ after.db = before.db.leave conn := by
    cases choice <;>
      obtain ⟨rfl,_⟩ := Prod.mk.inj (Option.some.inj taken) <;>
      simp
  refine kept_others kept ?_ apart ?_ (by simp)
  · intro other ne
    have apart' : conn ≠ other := fun same => ne (same ▸ mine)
    rcases done with same | same <;> rw [same]
    · exact ⟨rfl,rfl⟩
    · exact Database.leave_other apart'
  · intro other owned inside
    obtain rfl := Option.some.inj (mine.symm.trans owned)
    rcases done with same | same <;> rw [same] at inside
    · exact absurd inside (by simp [closed])
    · exact absurd inside (by simp [left])

theorem kept_set
    (taken : exec (.set conn : Action τ ω) choice before = some (after,reply)) :
    Kept (past ++ [⟨task,.set conn,choice,before,reply,after⟩]) (Function.update modes task (.held conn)) after.db := by
  obtain rfl : before = after := congrArg Prod.fst (Option.some.inj taken)
  refine kept_others kept (fun _ _ => ⟨rfl,rfl⟩) apart ?_ ?_
  · intro other owned _
    rw [Option.some.inj (mine.symm.trans owned)]
  · intro other same
    obtain rfl := Mode.held.inj same
    rw [outstanding_concat,opened_concat,holding_concat]
    simp only [if_true]
    exact ⟨Database.pending_of_outside closed,closed.symm,trivial⟩

end

theorem outside_of_owned (apart : Apart modes s) (kept : Kept past modes s.db)
    (mode : modes task = .owned conn) : s.db.inTransaction conn = false := by
  cases inside : s.db.inTransaction conn with
  | false => rfl
  | true =>
    have held := held_of_open apart kept (by rw [mode]; rfl) inside
    rw [mode] at held
    contradiction

section
variable (apart : Apart modes tr.before) (kept : Kept past modes tr.before.db) (taken : Taken exec tr)
  (allowed : rule tr.action tr.reply (modes tr.task) = some m)
include apart kept taken allowed

theorem kept_step (settled : Settled tr) :
    Kept (past ++ [tr]) (Function.update modes tr.task m) tr.after.db := by
  obtain ⟨task,action,choice,before,reply,after⟩ := tr
  replace taken : exec action choice before = some (after,reply) := taken
  simp only at apart kept allowed
  cases action with
  | get | create =>
    refine kept_quiet apart kept (db_kept taken (by simp) (by simp)) (by simp) (by simp) (by simp) fun conn => ?_
    cases mode : modes task <;> cases reply <;> simp only [rule,mode,reduceCtorEq] at allowed <;>
      obtain rfl := Option.some.inj allowed <;> simp
  | probe conn | isMember conn | remove conn | append conn =>
    obtain rfl := Option.some.inj allowed
    exact kept_quiet apart kept (db_kept taken (by simp) (by simp)) (by simp) (by simp) (by simp) fun _ => Iff.rfl
  | put conn | close conn | set conn =>
    cases mode : modes task <;> simp only [rule,mode,reduceCtorEq] at allowed
    split at allowed
    swap
    · contradiction
    rename_i own same
    subst same
    obtain rfl := Option.some.inj allowed
    have mine : (modes task).conn = some conn := by rw [mode]; rfl
    have closed : before.db.inTransaction conn = false := outside_of_owned apart kept mode
    first
      | exact kept_close apart kept mine closed taken
      | exact kept_set apart kept mine closed taken
      | exact kept_quiet apart kept (db_kept taken (by simp) (by simp)) (by simp) (by simp) (by simp) (by simp [mode])
  | reset conn =>
    cases mode : modes task <;> simp only [rule,mode,reduceCtorEq] at allowed
    split at allowed
    · rename_i own same
      subst same
      obtain rfl := Option.some.inj allowed
      have mine : (modes task).conn = some conn := by rw [mode]; rfl
      obtain rfl : before = after := congrArg Prod.fst (Option.some.inj taken)
      refine kept_others kept (fun _ _ => ⟨rfl,rfl⟩) apart ?_ (by simp)
      intro other owned inside
      obtain rfl := Option.some.inj (mine.symm.trans owned)
      rw [settled conn rfl] at inside
      contradiction
    · contradiction
  | sql conn statement =>
    cases mode : modes task <;> simp only [rule,mode,reduceCtorEq] at allowed
    split at allowed
    · rename_i own same
      subst same
      obtain rfl := Option.some.inj allowed
      exact kept_sql apart kept rfl mode taken
    · contradiction

theorem clean_of_kept : Clean past tr := by
  obtain ⟨task,action,choice,before,reply,after⟩ := tr
  replace taken : exec action choice before = some (after,reply) := taken
  simp only at apart kept allowed
  refine ⟨?_,?_,?_,?_⟩
  · rintro conn rfl
    cases mode : modes task <;> simp only [rule,mode,reduceCtorEq] at allowed
    split at allowed
    · rename_i own same
      subst same
      exact outside_of_owned apart kept mode
    · contradiction
  · rintro conn rfl
    cases mode : modes task <;> simp only [rule,mode,reduceCtorEq] at allowed
    split at allowed
    · rename_i own same
      subst same
      exact (kept.opened task conn mode).symm
    · contradiction
  · intro conn is effect
    obtain rfl : action = .sql conn .commit := is
    cases mode : modes task <;> simp only [rule,mode,reduceCtorEq] at allowed
    split at allowed
    · rename_i own same
      subst same
      rcases sql_taken taken with ⟨_,silent | silent⟩ | ⟨_,rfl⟩
      · exact absurd effect (by simp [silent])
      · contradiction
      · exact congrArg (before.db.committed ++ ·) (kept.pending task conn mode)
    · contradiction
  · intro conn writer
    obtain ⟨t,held⟩ := kept.inside conn (by simpa [Database.inTransaction] using .inl writer)
    exact ⟨t,kept.holding t conn held⟩

end

/-- Whatever the bodies are and wherever they are stopped: while every body ends outside a
transaction, every connection handed out is outside one, blocks and commits concern their
own session only and the write lock is with a session that still runs. -/
theorem pool_clean (size : Nat) (bodies : τ → Transaction.Task τ ω Unit) (schedule : List (τ × Fault))
    (settled : Throughout (fun _ tr => Settled tr) [] (run exec schedule (start size bodies)).2) :
    Throughout Clean [] (run exec schedule (start size bodies)).2 := by
  have keeps : ∀ (past : List (Step τ ω)) (modes : τ → Mode) (tr : Step τ ω) (m : Mode),
      Apart modes tr.before ∧ Kept past modes tr.before.db → Taken exec tr →
      rule tr.action tr.reply (modes tr.task) = some m → Settled tr →
      Apart (Function.update modes tr.task m) tr.after ∧
        Kept (past ++ [tr]) (Function.update modes tr.task m) tr.after.db :=
    fun _ _ _ _ kept taken allowed settled =>
      ⟨apart_step kept.1 taken allowed,kept_step kept.1 kept.2 taken allowed settled⟩
  have sessions : ∀ task, ((start size bodies).tasks task).Follows rule Mode.idle fun _ _ => True :=
    fun task => databaseSession_follows (bodies task)
  have apart : Apart (fun _ : τ => Mode.idle) (start size bodies).shared :=
    ⟨List.nodup_range,fun conn member => List.mem_range.mp member,by simp [Mode.conn],by simp [Mode.conn]⟩
  have kept : Kept ([] : List (Step τ ω)) (fun _ => Mode.idle) (start size bodies).shared.db :=
    ⟨by simp [start],by simp,by simp,by simp⟩
  exact run_transitions (J := fun past modes s => Apart modes s ∧ Kept past modes s.db) keeps
    (fun _ _ _ _ kept taken allowed _ => clean_of_kept kept.1 kept.2 taken allowed)
    schedule _ [] _ ⟨apart,kept⟩ sessions settled

/-- What the history says a session works on is what its mode says. -/
theorem holding_step {past : List (Step τ ω)} {modes : τ → Mode} {tr : Step τ ω} {m : Mode}
    (held : ∀ task conn, holding past task = some conn → modes task = .held conn)
    (allowed : rule tr.action tr.reply (modes tr.task) = some m) :
    ∀ task conn, holding (past ++ [tr]) task = some conn → Function.update modes tr.task m task = .held conn := by
  intro task conn here
  rw [holding_concat] at here
  by_cases own : tr.task = task
  · subst own
    rw [if_pos rfl] at here
    rw [Function.update_self]
    obtain ⟨task,action,choice,before,reply,after⟩ := tr
    cases action
    case set conn =>
      obtain rfl := Option.some.inj here
      cases mode : modes task <;> simp only [rule,mode,reduceCtorEq] at allowed
      split at allowed
      · rename_i same
        rw [same]
        exact (Option.some.inj allowed).symm
      · contradiction
    case reset => cases here
    all_goals
      rw [held task conn here] at allowed
      simp only [rule,reduceCtorEq,Option.ite_none_right_eq_some,Option.some.injEq] at allowed
    case sql => exact allowed.2.symm
    all_goals exact allowed.symm
  · rw [if_neg own] at here
    rw [Function.update_of_ne (Ne.symm own)]
    exact held task conn here

/-- Whatever the bodies do, whatever fails and whoever is cancelled: no connection is idle while a session works on it, and
no two sessions work on one. -/
theorem sessions_apart (size : Nat) (bodies : τ → Transaction.Task τ ω Unit) (schedule : List (τ × Fault)) :
    Throughout Exclusive [] (run exec schedule (start size bodies)).2 := by
  have apart : Apart (fun _ : τ => Mode.idle) (start size bodies).shared :=
    ⟨List.nodup_range,fun conn member => List.mem_range.mp member,by simp [Mode.conn],by simp [Mode.conn]⟩
  refine run_transitions
    (J := fun past modes s => Apart modes s ∧ ∀ task conn, holding past task = some conn → modes task = .held conn)
    (fun past modes tr m kept taken allowed _ => ⟨apart_step kept.1 taken allowed,holding_step kept.2 allowed⟩)
    (fun past modes tr m kept taken allowed _ => ?_) schedule _ [] (fun _ => .idle) ⟨apart,by simp [holding]⟩
    (fun task => databaseSession_follows (bodies task)) (throughout_iff_forall.mpr fun _ _ => trivial)
  obtain ⟨task,action,choice,before,reply,after⟩ := tr
  intro conn works
  have own : (modes task).conn = some conn := by
    rcases works with set_ | ⟨statement,sql⟩
    · obtain rfl : action = .set conn := set_
      cases mode : modes task <;> simp only [rule,mode,reduceCtorEq,Option.ite_none_right_eq_some] at allowed
      rw [allowed.1,Mode.conn]
    · obtain rfl : action = .sql conn statement := sql
      cases mode : modes task <;> simp only [rule,mode,reduceCtorEq,Option.ite_none_right_eq_some] at allowed
      rw [allowed.1,Mode.conn]
  refine ⟨(kept.1.owned task conn own).2,fun other differs here => differs ?_⟩
  exact kept.1.alone other task conn (by rw [kept.2 other conn here,Mode.conn]) own

end

/-- A handler that inserts, and raises before its `commit`. -/
def interrupted : Transaction.Task Nat Unit Unit := do
  Prog.perform (Statement.execute (0,()))
  throw (.httpException 400 "Invalid request")

def recorded : Transaction.Task Nat Unit Unit := Transaction.transaction (Prog.perform (Statement.execute (1,())))

def settles (tr : Step Nat Unit) : Bool :=
  match tr.action with
  | .reset conn => !tr.before.db.inTransaction conn
  | _ => true

def handsOutInside (tr : Step Nat Unit) : Bool :=
  match tr.action with
  | .set conn => tr.before.db.inTransaction conn
  | _ => false

theorem settled_of_settles {tr : Step Nat Unit} (settles : settles tr = true) : Settled tr := by
  intro conn is
  simpa [ConnectionPool.settles,is] using settles

/-- A session records in its block, another one reuses its connection. -/
theorem recorded_twice_clean : Throughout Clean []
    (run exec ((List.replicate 14 (0,Fault.none)) ++ List.replicate 6 (1,Fault.none))
      (start 1 fun _ : Nat => recorded)).2 :=
  pool_clean 1 (fun _ => recorded) _
    (throughout_iff_forall.mpr fun tr member =>
      settled_of_settles (List.all_eq_true.mp (by decide +kernel : List.all (run exec
        ((List.replicate 14 (0,Fault.none)) ++ List.replicate 6 (1,Fault.none))
        (start 1 fun _ : Nat => recorded)).2 settles = true) tr member))

/-- After an exception between a statement and its `commit` the next session is handed the
open transaction. -/
theorem open_transaction_handed_out : ¬∀ (size : Nat) (bodies : Nat → Transaction.Task Nat Unit Unit)
    (schedule : List (Nat × Fault)), Throughout Clean [] (run exec schedule (start size bodies)).2 := by
  intro claim
  have clean := claim 1 (fun task => if task = 0 then interrupted else recorded)
    (List.replicate 8 (0,.none) ++ List.replicate 3 (1,.none))
  have outside := throughout_iff_forall.mp (clean.mono fun past tr clean => clean.handed)
  obtain ⟨tr,member,inside⟩ : ∃ tr ∈ (run exec (List.replicate 8 (0,Fault.none) ++ List.replicate 3 (1,Fault.none))
      (start 1 fun task => if task = 0 then interrupted else recorded)).2, handsOutInside tr = true :=
    List.any_eq_true.mp (by decide +kernel)
  unfold handsOutInside at inside
  split at inside
  · rename_i conn is
    rw [outside tr member conn is] at inside
    contradiction
  · contradiction

end Vigile.ConnectionPool
