import Mathlib.Data.Finset.Card
import Vigile.ConnectionPool

/-! What happens to the number of connections: every connection is idle or with one
borrower in runs in which no step loses one. -/
namespace Vigile.ConnectionPool

open Interleaving Python Sqlite
open Transaction (Statement)

variable {τ ω α β : Type}

def isSqliteError : PyError → Bool
  | .operationalError _ | .integrityError _ => true
  | _ => false

/-- The `finally` of `_generate_profile_with_own_connection`: the `__aexit__` is that of the
connection, which it closes. -/
def leaveProfile (conn : Nat) : Task τ ω Unit := do
  let inTransaction ← (Prog.perform (Action.sql conn .inTransaction) : Task τ ω Bool)
  if inTransaction then
    tryCatch (Prog.perform (Action.sql conn .rollback) : Task τ ω Unit) fun error =>
      if isSqliteError error then pure () else throw error
  close conn

/-- `_generate_profile_with_own_connection`; without a connection of its own the profile
works on its caller's. -/
def profileSession (body : Transaction.Task τ ω Unit) : Task τ ω Unit := do
  let session ← tryCatch (do
    let conn ← acquire
    set conn
    pure (some conn))
    fun error => match error with
    | .timeoutError _ | .runtimeError _ => pure none
    | _ => throw error
  match session with
  | none => pure ()
  | some conn => (onConnection conn body).ensure (leaveProfile conn)

inductive Borrower (τ ω : Type) where
  | session (body : Transaction.Task τ ω Unit)
  | profile (body : Transaction.Task τ ω Unit)

def Borrower.isProfile : Borrower τ ω → Bool
  | .session _ => false
  | .profile _ => true

def Borrower.program : Borrower τ ω → Task τ ω Unit
  | .session body => databaseSession body
  | .profile body => profileSession body

def lending (size : Nat) (borrowers : τ → Borrower τ ω) :
    Config τ (Pool τ ω) (Action τ ω) Reply PyError Unit :=
  ⟨⟨Database.opened [],List.range size,List.range size,size⟩,fun task => (borrowers task).program⟩

section
variable [DecidableEq τ]

def borrowed (past : List (Step τ ω)) (task : τ) : Option Nat :=
  past.foldl (fun out tr =>
    if tr.task = task then
      match tr.action, tr.reply with
      | .get, .ok conn => some conn
      | .create, .ok conn => some conn
      | .put _, _ => none
      | _, _ => out
    else out) none

/-- The task is giving its connection back and has not tried to create another yet. -/
def mayFail (past : List (Step τ ω)) (task : τ) : Bool :=
  past.foldl (fun first tr =>
    if tr.task = task then
      match tr.action with
      | .reset _ => true
      | .get | .create => false
      | _ => first
    else first) false

/-- No step loses a connection: one that is taken out of the queue arrives; probing and
closing fail by exceptions only; nobody closes the connection it holds; a profile's rollback
fails by the database's errors only; a connection is created, but that the first attempt of
a release may fail by an exception; and a connection that is put back is put back. -/
def Returning (profiles : τ → Bool) (past : List (Step τ ω)) (tr : Step τ ω) : Prop :=
  match tr.action with
  | .get => tr.choice.error? = none ∨ tr.choice.takesEffect = false ∨ tr.before.queue = []
  | .probe _ => ∀ error, tr.choice.error? = some error → error.isException = true
  | .close conn => holding past tr.task ≠ some conn ∧
      ∀ error, tr.choice.error? = some error → error.isException = true
  | .create => ∀ error, tr.choice.error? = some error →
      mayFail past tr.task = true ∧ error.isException = true
  | .put _ => tr.choice.takesEffect = true
  | .sql _ .rollback => profiles tr.task = true →
      ∀ error, tr.choice.error? = some error → isSqliteError error = true
  | _ => True

instance Returning.decidable (profiles : τ → Bool) (past : List (Step τ ω)) :
    (tr : Step τ ω) → Decidable (Returning profiles past tr)
  | ⟨_,.get,choice,before,_,_⟩ =>
    inferInstanceAs (Decidable (choice.error? = none ∨ choice.takesEffect = false ∨ before.queue = []))
  | ⟨_,.probe _,choice,_,_,_⟩ => inferInstanceAs (Decidable (∀ error ∈ choice.error?, error.isException = true))
  | ⟨task,.close conn,choice,_,_,_⟩ => inferInstanceAs (Decidable (holding past task ≠ some conn ∧
      ∀ error ∈ choice.error?, error.isException = true))
  | ⟨task,.create,choice,_,_,_⟩ => inferInstanceAs (Decidable (∀ error ∈ choice.error?,
      mayFail past task = true ∧ error.isException = true))
  | ⟨_,.put _,choice,_,_,_⟩ => inferInstanceAs (Decidable (choice.takesEffect = true))
  | ⟨task,.sql _ .rollback,choice,_,_,_⟩ => inferInstanceAs (Decidable (profiles task = true →
      ∀ error ∈ choice.error?, isSqliteError error = true))
  | ⟨_,.isMember _,_,_,_,_⟩ | ⟨_,.remove _,_,_,_,_⟩ | ⟨_,.append _,_,_,_,_⟩ | ⟨_,.set _,_,_,_,_⟩
  | ⟨_,.reset _,_,_,_,_⟩ | ⟨_,.sql _ .inTransaction,_,_,_,_⟩ | ⟨_,.sql _ .begin,_,_,_,_⟩
  | ⟨_,.sql _ (.execute _),_,_,_,_⟩ | ⟨_,.sql _ .commit,_,_,_,_⟩ => .isTrue trivial

end

inductive Stage where
  | idle
  | fresh (conn : Nat)
  | dropping (conn : Nat)
  | created (conn : Nat)
  | held (conn : Nat)
  | returning (conn : Nat)
  | discarding (conn : Nat) (tried : Bool)
  | renewed (conn : Nat)
  | lost

namespace Stage

def conn : Stage → Option Nat
  | .fresh conn | .dropping conn | .created conn | .held conn | .returning conn
  | .discarding conn _ | .renewed conn => some conn
  | .idle | .lost => none

/-- The connection, where the pool has it in its list. -/
def registered : Stage → Option Nat
  | .fresh conn | .held conn | .returning conn => some conn
  | _ => none

def mode : Stage → Mode
  | .fresh conn | .dropping conn | .created conn | .returning conn | .discarding conn _
  | .renewed conn => .owned conn
  | .held conn => .held conn
  | .idle | .lost => .idle

def strict : Stage → Bool
  | .fresh _ | .dropping _ | .created _ | .discarding _ true => true
  | _ => false

end Stage

/-- A failure that `except Exception` catches, or none. -/
def caught {ρ : Type} : Except PyError ρ → Bool
  | .ok _ => true
  | .error error => error.isException

def answeredYes : Except PyError Bool → Bool
  | .ok yes => yes
  | .error _ => false

def steady (profile : Bool) : (statement : Statement τ ω) → Except PyError (Transaction.Reply statement) → Bool
  | .inTransaction,reply => reply.isOk
  | .rollback,.error error => !profile || isSqliteError error
  | _,_ => true

def Stage.provided (stage : Stage) (fine : Bool) : Stage := if fine then stage else .lost

def lends (profile : Bool) : Prog.Protocol (Action τ ω) Reply PyError Stage
  | _,_,.lost => some .lost
  | .get,.ok conn,.idle => some (.fresh conn)
  | .get,.error _,.idle => some .idle
  | .probe _,reply,.fresh own => some (Stage.provided (.fresh own) (caught reply))
  | .probe _,reply,.returning own => some (Stage.provided (.returning own) (caught reply))
  | .isMember conn,reply,.returning own =>
    if conn = own then some (Stage.provided (.returning own) (answeredYes reply)) else none
  | .remove conn,reply,.fresh own =>
    if conn = own then some (Stage.provided (.dropping own) reply.isOk) else none
  | .remove conn,reply,.returning own =>
    if conn = own then some (Stage.provided (.discarding own false) reply.isOk) else none
  | .close conn,reply,.dropping own =>
    if conn = own then some (Stage.provided (.dropping own) (caught reply)) else none
  | .close conn,reply,.discarding own tried =>
    if conn = own then some (Stage.provided (.discarding own tried) (caught reply)) else none
  | .close conn,_,.held own => if conn = own then some .lost else none
  | .create,.ok conn,.dropping _ => some (.created conn)
  | .create,.error _,.dropping _ => some .lost
  | .create,.ok conn,.discarding _ _ => some (.renewed conn)
  | .create,.error error,.discarding own tried =>
    some (Stage.provided (.discarding own true) (!tried && error.isException))
  | .append conn,reply,.created own =>
    if conn = own then some (Stage.provided (.fresh own) reply.isOk) else none
  | .append conn,reply,.renewed own =>
    if conn = own then some (Stage.provided (.returning own) reply.isOk) else none
  | .set conn,reply,.fresh own => if conn = own then some (Stage.provided (.held own) reply.isOk) else none
  | .sql conn statement,reply,.held own =>
    if conn = own then some (Stage.provided (.held own) (steady profile statement reply)) else none
  | .reset conn,reply,.held own => if conn = own then some (Stage.provided (.returning own) reply.isOk) else none
  | .put conn,_,.returning own => if conn = own then some .idle else none
  | _,_,_ => none

def OrLost (post : Except PyError α → Stage → Prop) (result : Except PyError α) (stage : Stage) : Prop :=
  stage = .lost ∨ post result stage

section
variable {stage next : Stage} {first : Except PyError α → Stage → Prop} {post : Except PyError β → Stage → Prop}
  {profile : Bool} {own : Nat}

/-- Who has lost its connection does what it likes. -/
theorem lost_follows (program : Task τ ω α) (post : Except PyError α → Stage → Prop) :
    program.Follows (lends profile) .lost (OrLost post) := by
  induction program with
  | ret value | raise error => exact .inl rfl
  | act action next ih =>
    intro reply
    refine ⟨.lost,?_,ih reply⟩
    cases action <;> cases reply <;> rfl

theorem bind_lends {program : Task τ ω α} {next : α → Task τ ω β}
    (h : program.Follows (lends profile) stage (OrLost first))
    (goesOn : ∀ value stage', first (.ok value) stage' → (next value).Follows (lends profile) stage' (OrLost post))
    (fails : ∀ error stage', first (.error error) stage' → OrLost post (.error error) stage') :
    (program >>= next).Follows (lends profile) stage (OrLost post) := by
  refine .bind h ?_ ?_
  · rintro value stage' (rfl | reached)
    · exact lost_follows _ _
    · exact goesOn value stage' reached
  · rintro error stage' (rfl | reached)
    · exact .inl rfl
    · exact fails error stage' reached

theorem attempt_lends {program : Task τ ω α} {handler : PyError → Task τ ω α}
    (post : Except PyError α → Stage → Prop) (h : program.Follows (lends profile) stage (OrLost first))
    (ends : ∀ value stage', first (.ok value) stage' → OrLost post (.ok value) stage')
    (handles : ∀ error stage', first (.error error) stage' →
      (handler error).Follows (lends profile) stage' (OrLost post)) :
    (tryCatch program handler).Follows (lends profile) stage (OrLost post) := by
  refine .attempt h ?_ ?_
  · rintro value stage' (rfl | reached)
    · exact .inl rfl
    · exact ends value stage' reached
  · rintro error stage' (rfl | reached)
    · exact lost_follows _ _
    · exact handles error stage' reached

/-- One action after which the connection is lost unless the reply is fine. -/
theorem perform_lends (action : Action τ ω) (fine : Except PyError (Reply action) → Bool)
    (allowed : ∀ reply, lends profile action reply stage = some (next.provided (fine reply))) :
    (Prog.perform action : Task τ ω (Reply action)).Follows (lends profile) stage
      (OrLost fun result stage' => stage' = next ∧ fine result = true) := by
  refine .perform fun reply => ⟨_,allowed reply,?_⟩
  cases ok : fine reply with
  | true => exact .inr ⟨rfl,ok⟩
  | false => exact .inl rfl

/-- A healthy connection and one that fails by an exception leave the borrower where it is. -/
theorem isHealthy_lends (probes : ∀ reply, lends profile (.probe own : Action τ ω) reply stage =
      some (stage.provided (caught reply))) :
    (isHealthy own : Task τ ω Bool).Follows (lends profile) stage
      (OrLost fun result stage' => stage' = stage ∧ ∃ healthy, result = .ok healthy) := by
  have probed : (do
      probe own
      pure true : Task τ ω Bool).Follows (lends profile) stage (OrLost fun result stage' =>
        stage' = stage ∧ caught result = true) := by
    refine bind_lends (perform_lends (.probe own) caught probes) ?_ ?_
    · rintro _ _ ⟨rfl,_⟩
      exact .inr ⟨rfl,rfl⟩
    · rintro _ _ ⟨rfl,fine⟩
      exact .inr ⟨rfl,fine⟩
  refine attempt_lends _ probed ?_ ?_
  · rintro value _ ⟨rfl,_⟩
    exact .inr ⟨rfl,value,rfl⟩
  · rintro error _ ⟨rfl,fine⟩
    have exception : error.isException = true := fine
    rw [if_pos exception]
    exact .inr ⟨rfl,false,rfl⟩

theorem dropConnection_lends (next : Stage) (removes : ∀ reply, lends profile (.remove own : Action τ ω) reply stage =
      some (next.provided reply.isOk))
    (closes : ∀ reply, lends profile (.close own : Action τ ω) reply next = some (next.provided (caught reply))) :
    (dropConnection own : Task τ ω Unit).Follows (lends profile) stage
      (OrLost fun result stage' => stage' = next ∧ result = .ok ()) := by
  have dropped : (do
      remove own
      close own : Task τ ω Unit).Follows (lends profile) stage (OrLost fun result stage' =>
        stage' = next ∧ caught result = true) := by
    refine bind_lends (perform_lends (.remove own) Except.isOk removes) ?_ ?_
    · rintro _ _ ⟨rfl,_⟩
      exact perform_lends (.close own) caught closes
    · rintro error _ ⟨_,fine⟩
      contradiction
  refine attempt_lends _ dropped ?_ ?_
  · rintro _ _ ⟨rfl,_⟩
    exact .inr ⟨rfl,rfl⟩
  · rintro error _ ⟨rfl,fine⟩
    have exception : error.isException = true := fine
    rw [if_pos exception]
    exact .inr ⟨rfl,rfl⟩

/-- The new connection is in the pool's list when it is returned. -/
theorem createConnection_lends (made : Nat → Stage) (failed : PyError → Stage → Prop)
    (creates : ∀ conn, ∃ between, lends profile (.create : Action τ ω) (.ok conn) stage = some between ∧
      ∀ reply, lends profile (.append conn : Action τ ω) reply between = some ((made conn).provided reply.isOk))
    (fails : ∀ error, ∃ after, lends profile (.create : Action τ ω) (.error error) stage = some after ∧
      (after = .lost ∨ failed error after)) :
    (createConnection : Task τ ω Nat).Follows (lends profile) stage (OrLost fun result stage' =>
      match result with
      | .ok conn => stage' = made conn
      | .error error => failed error stage') := by
  have created : (create : Task τ ω Nat).Follows (lends profile) stage (OrLost fun result stage' =>
      match result with
      | .ok conn => ∀ reply, lends profile (.append conn : Action τ ω) reply stage' = some ((made conn).provided reply.isOk)
      | .error error => failed error stage') := by
    refine .perform fun reply => ?_
    cases reply with
    | ok conn =>
      obtain ⟨between,created,appends⟩ := creates conn
      exact ⟨between,created,.inr appends⟩
    | error error => exact fails error
  refine bind_lends created ?_ fun error stage' failed => .inr failed
  intro conn stage' appends
  refine bind_lends (perform_lends (.append conn) Except.isOk appends) ?_ ?_
  · rintro _ _ ⟨rfl,_⟩
    exact .inr rfl
  · rintro error _ ⟨_,fine⟩
    contradiction

def Given (result : Except PyError Nat) (stage : Stage) : Prop :=
  match result with
  | .ok conn => stage = .fresh conn
  | .error _ => stage = .idle

theorem acquire_lends : (acquire : Task τ ω Nat).Follows (lends profile) .idle (OrLost Given) := by
  have taken : (get : Task τ ω Nat).Follows (lends profile) .idle (OrLost Given) := by
    refine .perform fun reply => ?_
    cases reply with
    | ok conn => exact ⟨.fresh conn,rfl,.inr rfl⟩
    | error error => exact ⟨.idle,rfl,.inr rfl⟩
  refine bind_lends taken ?_ fun _ _ given => .inr given
  rintro conn _ rfl
  refine bind_lends (isHealthy_lends fun reply => rfl) ?_ ?_
  · rintro healthy _ ⟨rfl,_⟩
    cases healthy with
    | true => exact .inr rfl
    | false =>
      refine bind_lends (dropConnection_lends (.dropping conn) (fun reply => if_pos rfl)
        fun reply => if_pos rfl) ?_ ?_
      · rintro _ _ ⟨rfl,_⟩
        refine (createConnection_lends .fresh (fun _ _ => False)
          (fun fresh => ⟨.created fresh,rfl,fun reply => if_pos rfl⟩)
          fun error => ⟨.lost,rfl,.inl rfl⟩).mono ?_
        rintro (error | fresh) stage' (rfl | reached)
        · exact .inl rfl
        · exact reached.elim
        · exact .inl rfl
        · exact .inr reached
      · rintro error _ ⟨_,done⟩
        contradiction
  · rintro error _ ⟨_,healthy,done⟩
    contradiction

theorem replaceConnection_lends : (replaceConnection : Task τ ω Nat).Follows (lends profile) (.discarding own false)
    (OrLost fun result stage' => ∃ conn, result = .ok conn ∧ stage' = .returning conn) := by
  have creates : ∀ tried conn, ∃ between,
      lends profile (.create : Action τ ω) (.ok conn) (.discarding own tried) = some between ∧
      ∀ reply, lends profile (.append conn : Action τ ω) reply between = some ((Stage.returning conn).provided reply.isOk) :=
    fun tried conn => ⟨.renewed conn,rfl,fun reply => if_pos rfl⟩
  refine attempt_lends _ (createConnection_lends .returning
    (fun error stage' => stage' = .discarding own true ∧ error.isException = true)
    (creates false) ?_) ?_ ?_
  · intro error
    refine ⟨_,rfl,?_⟩
    cases exception : error.isException with
    | true => exact .inr ⟨rfl,rfl⟩
    | false => exact .inl rfl
  · rintro conn _ rfl
    exact .inr ⟨conn,rfl,rfl⟩
  · rintro error _ ⟨rfl,exception⟩
    rw [if_pos exception]
    refine attempt_lends _ (createConnection_lends .returning (fun _ _ => False) (creates true)
      fun again => ⟨_,rfl,.inl rfl⟩) ?_ ?_
    · rintro conn _ rfl
      exact .inr ⟨conn,rfl,rfl⟩
    · rintro again _ impossible
      exact impossible.elim

theorem release_lends : (release own : Task τ ω Unit).Follows (lends profile) (.returning own)
    (OrLost fun _ stage' => stage' = .idle) := by
  have returned : ∀ conn, (put conn : Task τ ω Unit).Follows (lends profile) (.returning conn)
      (OrLost fun _ stage' => stage' = .idle) :=
    fun conn => .perform fun _ => ⟨.idle,if_pos rfl,.inr rfl⟩
  refine bind_lends (perform_lends (.isMember own) answeredYes fun reply => if_pos rfl) ?_ ?_
  · rintro member _ ⟨rfl,yes⟩
    obtain rfl : member = true := yes
    refine bind_lends (isHealthy_lends fun reply => rfl) ?_ ?_
    · rintro healthy _ ⟨rfl,_⟩
      cases healthy with
      | true => exact returned own
      | false =>
        refine bind_lends (dropConnection_lends (.discarding own false) (fun reply => if_pos rfl)
          fun reply => if_pos rfl) ?_ ?_
        · rintro _ _ ⟨rfl,_⟩
          refine bind_lends replaceConnection_lends ?_ ?_
          · rintro fresh _ ⟨conn,same,rfl⟩
            obtain rfl := Except.ok.inj same
            exact returned fresh
          · rintro error _ ⟨conn,same,_⟩
            contradiction
        · rintro error _ ⟨_,done⟩
          contradiction
    · rintro error _ ⟨_,healthy,done⟩
      contradiction
  · rintro error _ ⟨_,fine⟩
    contradiction

theorem sql_lends (statement : Statement τ ω) :
    (Prog.perform (Action.sql own statement) : Task τ ω (Transaction.Reply statement)).Follows (lends profile)
      (.held own) (OrLost fun result stage' => stage' = .held own ∧ steady profile statement result = true) :=
  perform_lends (.sql own statement) (steady profile statement) fun _ => if_pos rfl

theorem onConnection_lends (body : Transaction.Task τ ω α) :
    (onConnection own body).Follows (lends profile) (.held own) (OrLost fun _ stage' => stage' = .held own) := by
  induction body with
  | ret value | raise error => exact .inr rfl
  | act statement next ih =>
    intro reply
    refine ⟨_,if_pos rfl,?_⟩
    cases fine : steady profile statement reply with
    | true => exact ih reply
    | false => exact lost_follows _ _

theorem ensure_lends {body cleanup : Task τ ω Unit}
    (h : body.Follows (lends profile) stage (OrLost fun _ stage' => stage' = next))
    (cleans : cleanup.Follows (lends profile) next (OrLost fun _ stage' => stage' = .idle)) :
    (body.ensure cleanup).Follows (lends profile) stage (OrLost fun _ stage' => stage' = .idle) := by
  refine .ensure h ?_
  rintro result stage' (rfl | rfl)
  · refine (lost_follows cleanup fun _ stage' => stage' = .idle).mono ?_
    rintro (error | _) _ done <;> exact done
  · refine cleans.mono ?_
    rintro (error | _) _ done <;> exact done

theorem databaseSession_lends (body : Transaction.Task τ ω Unit) :
    (databaseSession body).Follows (lends profile) .idle (OrLost fun _ stage' => stage' = .idle) := by
  refine bind_lends acquire_lends ?_ fun _ _ idle => .inr idle
  rintro conn _ rfl
  refine bind_lends (perform_lends (.set conn) Except.isOk fun reply => if_pos rfl) ?_ ?_
  · rintro _ _ ⟨rfl,_⟩
    refine ensure_lends (onConnection_lends body) ?_
    refine bind_lends (perform_lends (.reset conn) Except.isOk fun reply => if_pos rfl) ?_ ?_
    · rintro _ _ ⟨rfl,_⟩
      exact release_lends
    · rintro error _ ⟨_,fine⟩
      contradiction
  · rintro error _ ⟨_,fine⟩
    contradiction

/-- A profile closes the connection it holds. -/
theorem leaveProfile_lends : (leaveProfile own : Task τ ω Unit).Follows (lends true) (.held own)
    (OrLost fun _ stage' => stage' = .idle) := by
  have closed : (close own : Task τ ω Unit).Follows (lends true) (.held own)
      (OrLost fun _ stage' => stage' = .idle) := Prog.Follows.perform fun _ => ⟨.lost,if_pos rfl,.inl rfl⟩
  refine bind_lends (sql_lends .inTransaction) ?_ ?_
  · rintro inTransaction _ ⟨rfl,_⟩
    cases (inTransaction : Bool) with
    | false => exact closed
    | true =>
      have rolledBack : (tryCatch (Prog.perform (Action.sql own .rollback) : Task τ ω Unit) fun error =>
          if isSqliteError error then pure () else throw error).Follows (lends true) (.held own)
            (OrLost fun result stage' => stage' = .held own ∧ result = .ok ()) := by
        refine attempt_lends _ (sql_lends .rollback) ?_ ?_
        · rintro _ _ ⟨rfl,_⟩
          exact .inr ⟨rfl,rfl⟩
        · rintro error _ ⟨rfl,fine⟩
          have sqlite : isSqliteError error = true := fine
          rw [if_pos sqlite]
          exact .inr ⟨rfl,rfl⟩
      refine bind_lends rolledBack ?_ ?_
      · rintro _ _ ⟨rfl,_⟩
        exact closed
      · rintro error _ ⟨_,done⟩
        contradiction
  · rintro error _ ⟨_,fine⟩
    contradiction

/-- A profile has a connection of its own, or works on its caller's. -/
def HasSession (result : Except PyError (Option Nat)) (stage : Stage) : Prop :=
  match result with
  | .ok (some conn) => stage = .held conn
  | _ => stage = .idle

theorem profileSession_lends (body : Transaction.Task τ ω Unit) :
    (profileSession body).Follows (lends true) .idle (OrLost fun _ stage' => stage' = .idle) := by
  have entered : (do
      let conn ← acquire
      set conn
      pure (some conn) : Task τ ω (Option Nat)).Follows (lends true) .idle (OrLost fun result stage' =>
        match result with
        | .ok session => ∃ conn, session = some conn ∧ stage' = .held conn
        | .error _ => stage' = .idle) := by
    refine bind_lends acquire_lends ?_ fun _ _ idle => .inr idle
    rintro conn _ rfl
    refine bind_lends (perform_lends (.set conn) Except.isOk fun reply => if_pos rfl) ?_ ?_
    · rintro _ _ ⟨rfl,_⟩
      exact .inr ⟨conn,rfl,rfl⟩
    · rintro error _ ⟨_,fine⟩
      contradiction
  refine bind_lends (attempt_lends HasSession entered ?_ ?_) ?_ ?_
  · rintro _ _ ⟨conn,rfl,rfl⟩
    exact .inr rfl
  · rintro error _ rfl
    split <;> exact .inr rfl
  · rintro session _ reached
    cases session with
    | none => exact .inr reached
    | some conn =>
      obtain rfl := reached
      exact ensure_lends (onConnection_lends body) leaveProfile_lends
  · rintro error _ idle
    exact .inr idle

theorem program_lends (borrower : Borrower τ ω) :
    borrower.program.Follows (lends borrower.isProfile) .idle (OrLost fun _ stage' => stage' = .idle) := by
  cases borrower with
  | session body => exact databaseSession_lends body
  | profile body => exact profileSession_lends body

end

/-! What one step can do to a borrower that keeps its connection -/

section
variable {profile : Bool} {stage m : Stage}

theorem provided_kept {fine : Bool} (found : stage.provided fine ≠ .lost) : fine = true ∧ stage.provided fine = stage := by
  cases fine with
  | true => exact ⟨rfl,rfl⟩
  | false => exact absurd rfl found

variable {reply : Except PyError Nat} {conn : Nat} {action : Action τ ω} {after before : Pool τ ω} {choice : Fault}

@[simp] theorem mode_conn (stage : Stage) : stage.mode.conn = stage.conn := by cases stage <;> rfl

theorem lends_get (allowed : lends profile (.get : Action τ ω) reply stage = some m)
    (here : stage ≠ .lost) : stage = .idle ∧ Given reply m := by
  cases stage <;> cases reply <;> simp only [lends,reduceCtorEq] at allowed here <;> first | contradiction | skip
  all_goals exact ⟨rfl,(Option.some.inj allowed).symm⟩

theorem lends_put {reply : Except PyError Unit}
    (allowed : lends profile (.put conn : Action τ ω) reply stage = some m) (here : stage ≠ .lost) :
    stage = .returning conn ∧ m = .idle := by
  cases stage <;> simp only [lends,reduceCtorEq] at allowed here <;> first | contradiction | skip
  split at allowed
  · rename_i same
    subst same
    exact ⟨rfl,(Option.some.inj allowed).symm⟩
  · contradiction

/-- The pool forgets the connection of its borrower. -/
theorem lends_remove {reply : Except PyError Unit}
    (allowed : lends profile (.remove conn : Action τ ω) reply stage = some m) (here : stage ≠ .lost) (found : m ≠ .lost) :
    stage = .fresh conn ∧ m = .dropping conn ∨ stage = .returning conn ∧ m = .discarding conn false := by
  cases stage <;> simp only [lends,reduceCtorEq] at allowed here <;> first | contradiction | skip
  all_goals
    split at allowed
    swap
    · contradiction
    rename_i same
    subst same
    obtain rfl := Option.some.inj allowed
    rw [(provided_kept found).2]
  · exact .inl ⟨rfl,rfl⟩
  · exact .inr ⟨rfl,rfl⟩

theorem lends_append {reply : Except PyError Unit}
    (allowed : lends profile (.append conn : Action τ ω) reply stage = some m) (here : stage ≠ .lost) (found : m ≠ .lost) :
    stage = .created conn ∧ m = .fresh conn ∨ stage = .renewed conn ∧ m = .returning conn := by
  cases stage <;> simp only [lends,reduceCtorEq] at allowed here <;> first | contradiction | skip
  all_goals
    split at allowed
    swap
    · contradiction
    rename_i same
    subst same
    obtain rfl := Option.some.inj allowed
    rw [(provided_kept found).2]
  · exact .inl ⟨rfl,rfl⟩
  · exact .inr ⟨rfl,rfl⟩

/-- The borrower has a new connection, or keeps the one it discards after its first try. -/
theorem lends_create (allowed : lends profile (.create : Action τ ω) reply stage = some m)
    (here : stage ≠ .lost) (found : m ≠ .lost) : (∃ conn, stage.mode = .owned conn) ∧
      (∀ conn, reply = .ok conn → m = .created conn ∨ m = .renewed conn) ∧
      ∀ error, reply = .error error → ∃ conn, stage = .discarding conn false ∧ m = .discarding conn true := by
  cases stage <;> cases reply <;> simp only [lends,reduceCtorEq] at allowed here <;> first | contradiction | skip
  all_goals obtain rfl := Option.some.inj allowed
  · contradiction
  · exact ⟨⟨_,rfl⟩,fun conn same => .inl (congrArg _ (Except.ok.inj same)),by simp⟩
  · rename_i conn tried error
    obtain ⟨first,kept⟩ := provided_kept found
    obtain rfl : tried = false := by
      cases tried with
      | true => contradiction
      | false => rfl
    exact ⟨⟨conn,rfl⟩,by simp,fun _ _ => ⟨conn,rfl,kept⟩⟩
  · exact ⟨⟨_,rfl⟩,fun conn same => .inr (congrArg _ (Except.ok.inj same)),by simp⟩

/-- The pool gives and takes the connection nowhere else. -/
def Quiet : Action τ ω → Prop
  | .get | .create | .put _ => False
  | _ => True

/-- The actions on the connection that a borrower has and that stays in the pool's lists as it is. -/
inductive Uses : Action τ ω → Stage → Stage → Prop where
  | probeFresh (conn own : Nat) : Uses (.probe conn) (.fresh own) (.fresh own)
  | probeReturning (conn own : Nat) : Uses (.probe conn) (.returning own) (.returning own)
  | isMember (own : Nat) : Uses (.isMember own) (.returning own) (.returning own)
  | closeDropping (own : Nat) : Uses (.close own) (.dropping own) (.dropping own)
  | closeDiscarding (own : Nat) (tried : Bool) : Uses (.close own) (.discarding own tried) (.discarding own tried)
  | set (own : Nat) : Uses (.set own) (.fresh own) (.held own)
  | sql (own : Nat) (statement : Statement τ ω) : Uses (.sql own statement) (.held own) (.held own)
  | reset (own : Nat) : Uses (.reset own) (.held own) (.returning own)

theorem lends_uses {reply : Except PyError (Reply action)}
    (allowed : lends profile action reply stage = some m) (here : stage ≠ .lost) (found : m ≠ .lost)
    (quiet : Quiet action) (listed : ∀ conn, action ≠ .remove conn ∧ action ≠ .append conn) : Uses action stage m := by
  cases action with
  | get | create | put conn => exact quiet.elim
  | remove conn => exact absurd rfl (listed conn).1
  | append conn => exact absurd rfl (listed conn).2
  | probe conn =>
    cases stage <;> simp only [lends,reduceCtorEq] at allowed here <;> first | contradiction | skip
    all_goals
      obtain rfl := Option.some.inj allowed
      rw [(provided_kept found).2]
      constructor
  | isMember conn | close conn | set conn | reset conn | sql conn statement =>
    cases stage <;> simp only [lends,reduceCtorEq] at allowed here <;> first | contradiction | skip
    all_goals
      split at allowed
      swap
      · contradiction
      rename_i same
      subst same
      obtain rfl := Option.some.inj allowed
      first | contradiction | skip
    all_goals
      rw [(provided_kept found).2]
      constructor

/-- Between these actions the borrower keeps the connection it has. -/
structure Still (action : Action τ ω) (stage m : Stage) : Prop where
  conn : m.conn = stage.conn
  registered : (∀ conn, action ≠ .remove conn ∧ action ≠ .append conn) → m.registered = stage.registered
  strict : m.strict = true → stage.strict = true ∧ ∀ conn, action ≠ .reset conn
  held : ∀ conn, m = .held conn → action = .set conn ∨
    stage = .held conn ∧ ∀ other, action ≠ .set other ∧ action ≠ .reset other

theorem lends_still {reply : Except PyError (Reply action)}
    (allowed : lends profile action reply stage = some m) (here : stage ≠ .lost) (found : m ≠ .lost)
    (quiet : Quiet action) : Still action stage m := by
  cases action with
  | get | create | put conn => exact quiet.elim
  | remove conn =>
    rcases lends_remove allowed here found with ⟨rfl,rfl⟩ | ⟨rfl,rfl⟩ <;>
      exact ⟨rfl,fun other => absurd rfl (other conn).1,by simp [Stage.strict],by simp⟩
  | append conn =>
    rcases lends_append allowed here found with ⟨rfl,rfl⟩ | ⟨rfl,rfl⟩ <;>
      exact ⟨rfl,fun other => absurd rfl (other conn).2,by simp [Stage.strict],by simp⟩
  | probe conn | isMember conn | close conn | set conn | reset conn | sql conn statement =>
    cases lends_uses allowed here found trivial (by simp) <;> exact ⟨rfl,fun _ => rfl,by simp [Stage.strict],by simp⟩

/-- A borrower that keeps its connection is a session as before. -/
theorem lends_rule {reply : Except PyError (Reply action)}
    (allowed : lends profile action reply stage = some m) (here : stage ≠ .lost) (found : m ≠ .lost) :
    rule action reply stage.mode = some m.mode := by
  cases action with
  | get =>
    obtain ⟨rfl,given⟩ := lends_get allowed here
    cases reply <;> obtain rfl := given <;> rfl
  | put conn =>
    obtain ⟨rfl,rfl⟩ := lends_put allowed here
    exact if_pos rfl
  | remove conn =>
    rcases lends_remove allowed here found with ⟨rfl,rfl⟩ | ⟨rfl,rfl⟩ <;> rfl
  | append conn =>
    rcases lends_append allowed here found with ⟨rfl,rfl⟩ | ⟨rfl,rfl⟩ <;> rfl
  | create =>
    obtain ⟨⟨conn,own⟩,gets,keeps⟩ := lends_create allowed here found
    cases reply with
    | ok fresh =>
      rw [own]
      rcases gets fresh rfl with rfl | rfl <;> rfl
    | error error =>
      obtain ⟨conn,rfl,rfl⟩ := keeps error rfl
      rfl
  | probe conn | isMember conn | close conn | set conn | reset conn | sql conn statement =>
    cases lends_uses allowed here found trivial (by simp) <;> first | rfl | exact if_pos rfl

/-- One action concerns one connection in the pool's lists. -/
theorem lists_taken
    {reply : Except PyError (Reply action)} (taken : exec action choice before = some (after,reply))
    (still : Quiet action) (registry : ∀ conn, action ≠ .remove conn ∧ action ≠ .append conn) :
    after.connections = before.connections ∧ after.queue = before.queue := by
  cases action with
  | get | create | put conn => exact still.elim
  | remove conn => exact absurd rfl (registry conn).1
  | append conn => exact absurd rfl (registry conn).2
  | sql conn statement =>
    rcases sql_taken taken with ⟨rfl,_⟩ | ⟨_,rfl⟩ <;> exact ⟨rfl,rfl⟩
  | probe conn | close conn =>
    cases choice <;>
      obtain ⟨rfl,_⟩ := Prod.mk.inj (Option.some.inj taken) <;>
      exact ⟨rfl,rfl⟩
  | isMember conn | set conn | reset conn =>
    obtain ⟨rfl,_⟩ := Prod.mk.inj (Option.some.inj taken)
    exact ⟨rfl,rfl⟩

/-- An idle connection is taken, or nothing happens. -/
theorem get_taken
    (taken : exec (.get : Action τ ω) choice before = some (after,reply))
    (returning : choice.error? = none ∨ choice.takesEffect = false ∨ before.queue = []) :
    (∃ conn, reply = .ok conn ∧ before.queue = conn :: after.queue ∧ after.connections = before.connections) ∨
      (∃ error, reply = .error error) ∧ after = before := by
  unfold exec at taken
  cases queue : before.queue with
  | nil =>
    simp only [queue] at taken
    obtain ⟨error,_,done⟩ := Option.map_eq_some_iff.mp taken
    obtain ⟨rfl,rfl⟩ := Prod.mk.inj done
    exact .inr ⟨⟨error,rfl⟩,rfl⟩
  | cons conn rest =>
    simp only [queue] at taken
    cases choice with
    | none =>
      obtain ⟨rfl,rfl⟩ := Prod.mk.inj (Option.some.inj taken)
      exact .inl ⟨conn,rfl,rfl,rfl⟩
    | before error =>
      obtain ⟨rfl,rfl⟩ := Prod.mk.inj (Option.some.inj taken)
      exact .inr ⟨⟨error,rfl⟩,rfl⟩
    | after error =>
      rw [queue] at returning
      rcases returning with none | silent | empty
      · exact absurd none (by simp [Fault.error?])
      · exact absurd silent (by simp [Fault.takesEffect])
      · contradiction

theorem caught_of_taken {σ ρ : Type} {s s' next : σ} {value : ρ} {reply : Except PyError ρ}
    (taken : choice.strike s (next,.ok value) = (s',reply))
    (exceptions : ∀ error, choice.error? = some error → error.isException = true) : caught reply = true := by
  cases choice <;> obtain ⟨_,rfl⟩ := Prod.mk.inj taken <;> first | rfl | exact exceptions _ rfl

theorem steady_of_taken {statement : Statement τ ω}
    {reply : Except PyError (Transaction.Reply statement)}
    (taken : exec (.sql conn statement) choice before = some (after,reply))
    (rollback : statement = .rollback → profile = true → ∀ error, choice.error? = some error → isSqliteError error = true) :
    steady profile statement reply = true := by
  cases statement with
  | inTransaction =>
    obtain ⟨_,rfl⟩ := Prod.mk.inj (Option.some.inj taken)
    rfl
  | begin | execute change | commit => cases reply <;> rfl
  | rollback =>
    cases reply with
    | ok done => rfl
    | error error =>
      cases profile with
      | false => rfl
      | true =>
        rcases choice with _ | failure | failure <;> obtain ⟨_,same⟩ := Prod.mk.inj (Option.some.inj taken)
        · contradiction
        all_goals
          obtain rfl := Except.error.inj same
          exact rollback rfl rfl failure rfl

end

section
variable [DecidableEq τ] {profiles : τ → Bool} {past : List (Step τ ω)} {tr : Step τ ω} {stages : τ → Stage} {m : Stage}

theorem borrowed_concat (past : List (Step τ ω)) (tr : Step τ ω) (task : τ) : borrowed (past ++ [tr]) task =
    if tr.task = task then
      match tr.action, tr.reply with
      | .get, .ok conn | .create, .ok conn => some conn
      | .put _, _ => none
      | _, _ => borrowed past task
    else borrowed past task := by
  simp [borrowed]

theorem mayFail_concat (past : List (Step τ ω)) (tr : Step τ ω) (task : τ) : mayFail (past ++ [tr]) task =
    if tr.task = task then
      match tr.action with
      | .reset _ => true
      | .get | .create => false
      | _ => mayFail past task
    else mayFail past task := by
  simp [mayFail]

structure Told (past : List (Step τ ω)) (task : τ) (stage : Stage) : Prop where
  found : stage ≠ .lost
  borrowed : borrowed past task = stage.conn
  holding : ∀ conn, stage = .held conn → holding past task = some conn
  strict : stage.strict = true → mayFail past task = false

structure Listed (stages : τ → Stage) (s : Pool τ ω) : Prop where
  registered : ∀ task conn, (stages task).registered = some conn → conn ∈ s.connections
  queued : ∀ conn ∈ s.queue, conn ∈ s.connections

/-- Idle connections and borrowers together are as many as the pool was made for. -/
def Counted (size : Nat) (stages : τ → Stage) (s : Pool τ ω) : Prop :=
  ∃ holders : Finset τ, (∀ task, task ∈ holders ↔ (stages task).conn.isSome = true) ∧
    s.queue.length + holders.card = size

structure Lent (size : Nat) (past : List (Step τ ω)) (stages : τ → Stage) (s : Pool τ ω) : Prop where
  told : ∀ task, Told past task (stages task)
  apart : Apart (fun task => (stages task).mode) s
  listed : Listed stages s
  counted : Counted size stages s

variable {task : τ} {s s' : Pool τ ω} {size : Nat}

theorem told_other {stage : Stage} (told : Told past task stage) (other : tr.task ≠ task) :
    Told (past ++ [tr]) task stage := by
  refine ⟨told.found,?_,?_,?_⟩
  · rw [borrowed_concat,if_neg other]
    exact told.borrowed
  · rw [holding_concat,if_neg other]
    exact told.holding
  · rw [mayFail_concat,if_neg other]
    exact told.strict

theorem told_still {action : Action τ ω} {choice : Fault} {before after : Pool τ ω}
    {reply : Except PyError (Reply action)} (told : Told past task (stages task)) (found : m ≠ .lost)
    (quiet : Quiet action) (still : Still action (stages task) m) :
    Told (past ++ [⟨task,action,choice,before,reply,after⟩]) task m := by
  refine ⟨found,?_,?_,?_⟩
  · rw [still.conn,← told.borrowed,borrowed_concat,if_pos rfl]
    cases action <;> first | rfl | exact quiet.elim
  · intro conn held
    rw [holding_concat,if_pos rfl]
    rcases still.held conn held with rfl | ⟨before,others⟩
    · rfl
    · have holds := told.holding conn before
      cases action with
      | set other => exact absurd rfl (others other).1
      | reset other => exact absurd rfl (others other).2
      | _ => exact holds
  · intro strict
    obtain ⟨before,others⟩ := still.strict strict
    have first := told.strict before
    rw [mayFail_concat,if_pos rfl]
    cases action with
    | reset other => exact absurd rfl (others other)
    | get | create => exact quiet.elim
    | _ => exact first

theorem told_step (told : Told past tr.task (stages tr.task)) (found : m ≠ .lost)
    (allowed : lends (profiles tr.task) tr.action tr.reply (stages tr.task) = some m) :
    Told (past ++ [tr]) tr.task m := by
  obtain ⟨task,action,choice,before,reply,after⟩ := tr
  simp only at told allowed
  have here := told.found
  cases action with
  | probe conn | isMember conn | remove conn | close conn | append conn | set conn | reset conn | sql conn statement =>
    exact told_still told found trivial (lends_still allowed here found trivial)
  | get =>
    obtain ⟨idle,given⟩ := lends_get allowed here
    have none : borrowed past task = none := told.borrowed.trans (by rw [idle]; rfl)
    refine ⟨found,?_,?_,fun _ => by rw [mayFail_concat,if_pos rfl]⟩
    · rw [borrowed_concat,if_pos rfl]
      cases reply <;> obtain rfl := given <;> first | rfl | exact none
    · cases reply <;> obtain rfl := given <;> simp
  | put conn =>
    obtain ⟨_,rfl⟩ := lends_put allowed here
    exact ⟨found,by rw [borrowed_concat,if_pos rfl]; rfl,by simp,by simp [Stage.strict]⟩
  | create =>
    obtain ⟨_,gets,keeps⟩ := lends_create allowed here found
    cases reply with
    | ok conn =>
      refine ⟨found,?_,?_,fun _ => by rw [mayFail_concat,if_pos rfl]⟩
      · rw [borrowed_concat,if_pos rfl]
        rcases gets conn rfl with rfl | rfl <;> rfl
      · rcases gets conn rfl with rfl | rfl <;> simp
    | error error =>
      obtain ⟨conn,own,rfl⟩ := keeps error rfl
      refine ⟨found,?_,by simp,fun _ => by rw [mayFail_concat,if_pos rfl]⟩
      rw [borrowed_concat,if_pos rfl]
      exact told.borrowed.trans (by rw [own]; rfl)

theorem Listed.still (listed : Listed stages s) (connections : ∀ conn ∈ s.connections, conn ∈ s'.connections)
    (queue : ∀ conn ∈ s'.queue, conn ∈ s'.connections)
    (registered : ∀ conn, m.registered = some conn → conn ∈ s'.connections) :
    Listed (Function.update stages task m) s' := by
  refine ⟨?_,queue⟩
  intro t conn now
  by_cases same : t = task
  · subst same
    rw [Function.update_self] at now
    exact registered conn now
  · rw [Function.update_of_ne same] at now
    exact connections conn (listed.registered t conn now)

theorem Counted.still (counted : Counted size stages s)
    (queue : s'.queue.length = s.queue.length) (conn : m.conn.isSome = (stages task).conn.isSome) :
    Counted size (Function.update stages task m) s' := by
  obtain ⟨holders,member,total⟩ := counted
  refine ⟨holders,fun t => ?_,queue ▸ total⟩
  by_cases same : t = task
  · subst same
    rw [Function.update_self,conn,member]
  · rw [Function.update_of_ne same,member]

theorem Counted.lent (counted : Counted size stages s)
    (queue : s.queue.length = s'.queue.length + 1) (had : (stages task).conn = none) (conn : m.conn.isSome = true) :
    Counted size (Function.update stages task m) s' := by
  obtain ⟨holders,member,total⟩ := counted
  have absent : task ∉ holders := by simp [member,had]
  refine ⟨insert task holders,fun t => ?_,?_⟩
  · by_cases same : t = task
    · subst same
      rw [Function.update_self]
      simp [conn]
    · rw [Function.update_of_ne same,← member]
      simp [same]
  · rw [Finset.card_insert_of_notMem absent]
    omega

theorem Counted.givenBack (counted : Counted size stages s)
    (queue : s'.queue.length = s.queue.length + 1) (had : (stages task).conn.isSome = true) (conn : m.conn = none) :
    Counted size (Function.update stages task m) s' := by
  obtain ⟨holders,member,total⟩ := counted
  have mine : task ∈ holders := (member task).mpr had
  have positive := Finset.card_pos.mpr ⟨task,mine⟩
  refine ⟨holders.erase task,fun t => ?_,?_⟩
  · by_cases same : t = task
    · subst same
      rw [Function.update_self]
      simp [conn]
    · rw [Function.update_of_ne same,← member]
      simp [same]
  · rw [Finset.card_erase_of_mem mine]
    omega

/-- The step that keeps to the condition loses nothing. -/
theorem not_lost (told : Told past tr.task (stages tr.task)) (listed : Listed stages tr.before) (taken : Taken exec tr)
    (allowed : lends (profiles tr.task) tr.action tr.reply (stages tr.task) = some m)
    (returning : Returning profiles past tr) : m ≠ .lost := by
  obtain ⟨task,action,choice,before,reply,after⟩ := tr
  replace taken : exec action choice before = some (after,reply) := taken
  simp only at told listed allowed
  have here := told.found
  have goesOn : ∀ {next : Stage} {fine : Bool}, fine = true → next ≠ .lost → some (next.provided fine) = some m →
      m ≠ .lost := by
    rintro next _ rfl found same
    rw [← Option.some.inj same]
    exact found
  cases action with
  | get =>
    obtain ⟨_,given⟩ := lends_get allowed here
    cases reply <;> obtain rfl := given <;> simp
  | put conn =>
    obtain ⟨_,rfl⟩ := lends_put allowed here
    simp
  | probe conn =>
    have fine : caught reply = true := caught_of_taken (Option.some.inj taken) returning
    cases stage : stages task <;> simp only [stage,lends,reduceCtorEq] at allowed here <;> first | contradiction | skip
    all_goals exact goesOn fine (by simp) allowed
  | isMember conn =>
    obtain ⟨_,rfl⟩ := Prod.mk.inj (Option.some.inj taken)
    cases stage : stages task <;> simp only [stage,lends,reduceCtorEq] at allowed here <;> first | contradiction | skip
    split at allowed
    · rename_i same
      subst same
      have member : conn ∈ before.connections := listed.registered task conn (by rw [stage]; rfl)
      exact goesOn (decide_eq_true member) (by simp) allowed
    · contradiction
  | remove conn | append conn | set conn | reset conn =>
    obtain ⟨_,rfl⟩ := Prod.mk.inj (Option.some.inj taken)
    cases stage : stages task <;> simp only [stage,lends,reduceCtorEq] at allowed here <;> first | contradiction | skip
    all_goals
      split at allowed
      · exact goesOn rfl (by simp) allowed
      · contradiction
  | close conn =>
    have fine : caught reply = true := caught_of_taken (Option.some.inj taken) returning.2
    cases stage : stages task <;> simp only [stage,lends,reduceCtorEq] at allowed here <;> first | contradiction | skip
    case held own =>
      split at allowed
      · rename_i same
        subst same
        exact absurd (told.holding conn stage) returning.1
      · contradiction
    all_goals
      split at allowed
      · exact goesOn fine (by simp) allowed
      · contradiction
  | sql conn statement =>
    have fine : steady (profiles task) statement reply = true := by
      refine steady_of_taken taken ?_
      rintro rfl
      exact returning
    cases stage : stages task <;> simp only [stage,lends,reduceCtorEq] at allowed here <;> first | contradiction | skip
    split at allowed
    · exact goesOn fine (by simp) allowed
    · contradiction
  | create =>
    cases reply with
    | ok conn =>
      cases stage : stages task <;> simp only [stage,lends,reduceCtorEq] at allowed here <;>
        first | contradiction | skip
      all_goals
        obtain rfl := Option.some.inj allowed
        simp
    | error error =>
      have failed : choice.error? = some error := by
        rcases choice with _ | failure | failure <;> obtain ⟨_,same⟩ := Prod.mk.inj (Option.some.inj taken)
        · contradiction
        all_goals exact congrArg some (Except.error.inj same)
      obtain ⟨first,exception⟩ := returning error failed
      cases stage : stages task <;> simp only [stage,lends,reduceCtorEq] at allowed here <;>
        first | contradiction | skip
      · have strict := told.strict (by rw [stage]; rfl)
        rw [first] at strict
        contradiction
      · rename_i own tried
        cases tried with
        | true =>
          have strict := told.strict (by rw [stage]; rfl)
          rw [first] at strict
          contradiction
        | false => exact goesOn exception (by simp) allowed

theorem listed_step (here : stages tr.task ≠ .lost) (found : m ≠ .lost)
    (apart : Apart (fun task => (stages task).mode) tr.before) (listed : Listed stages tr.before) (taken : Taken exec tr)
    (allowed : lends (profiles tr.task) tr.action tr.reply (stages tr.task) = some m)
    (returning : Returning profiles past tr) : Listed (Function.update stages tr.task m) tr.after := by
  obtain ⟨task,action,choice,before,reply,after⟩ := tr
  replace taken : exec action choice before = some (after,reply) := taken
  simp only at here apart listed allowed
  have still : ∀ {next : Pool τ ω}, next.connections = before.connections → (∀ conn ∈ next.queue, conn ∈ before.queue) →
      (∀ conn, m.registered = some conn → (stages task).registered = some conn) →
      Listed (Function.update stages task m) next := by
    intro next connections queue registered
    refine listed.still (fun _ member => connections ▸ member) ?_ fun conn now => ?_
    · exact fun conn member => connections ▸ listed.queued conn (queue conn member)
    · exact connections ▸ listed.registered task conn (registered conn now)
  cases action with
  | probe conn | isMember conn | close conn | set conn | reset conn | sql conn statement =>
    obtain ⟨connections,queue⟩ := lists_taken taken trivial (by simp)
    have same := (lends_still allowed here found trivial).registered (by simp)
    exact still connections (fun _ member => queue ▸ member) fun _ now => same ▸ now
  | get =>
    obtain ⟨idle,given⟩ := lends_get allowed here
    rcases get_taken taken returning with ⟨conn,rfl,queue,connections⟩ | ⟨⟨error,rfl⟩,rfl⟩
    · obtain rfl := given
      refine listed.still (fun _ member => connections ▸ member) ?_ ?_
      · exact fun other member => connections ▸ listed.queued other (queue ▸ List.mem_cons_of_mem _ member)
      · intro other now
        obtain rfl := Option.some.inj now
        exact connections ▸ listed.queued conn (queue ▸ List.mem_cons_self)
    · obtain rfl := given
      exact still rfl (fun _ member => member) (by simp [Stage.registered])
  | create =>
    obtain ⟨_,gets,keeps⟩ := lends_create allowed here found
    have unregistered : m.registered = none := by
      cases reply with
      | ok conn => rcases gets conn rfl with rfl | rfl <;> rfl
      | error error =>
        obtain ⟨conn,_,rfl⟩ := keeps error rfl
        rfl
    have lists : after.connections = before.connections ∧ after.queue = before.queue := by
      cases choice <;> obtain ⟨rfl,_⟩ := Prod.mk.inj (Option.some.inj taken) <;> exact ⟨rfl,rfl⟩
    exact still lists.1 (fun _ member => lists.2 ▸ member) (by simp [unregistered])
  | put conn =>
    obtain ⟨own,rfl⟩ := lends_put allowed here
    have lists : after.connections = before.connections ∧ ∀ other ∈ after.queue, other ∈ before.queue ∨ other = conn := by
      cases choice <;> obtain ⟨rfl,_⟩ := Prod.mk.inj (Option.some.inj taken) <;> simp +contextual
    refine listed.still (fun _ member => lists.1 ▸ member) ?_ (by simp [Stage.registered])
    intro other member
    rw [lists.1]
    rcases lists.2 other member with queued | rfl
    · exact listed.queued other queued
    · exact listed.registered task other (by rw [own]; rfl)
  | append conn =>
    obtain ⟨rfl,_⟩ := Prod.mk.inj (Option.some.inj taken)
    refine listed.still (fun _ member => List.mem_append_left _ member) ?_ ?_
    · exact fun other member => List.mem_append_left _ (listed.queued other member)
    · intro other now
      rcases lends_append allowed here found with ⟨_,rfl⟩ | ⟨_,rfl⟩ <;>
        obtain rfl := Option.some.inj now <;>
        exact List.mem_append_right _ (List.mem_singleton_self _)
  | remove conn =>
    obtain ⟨rfl,_⟩ := Prod.mk.inj (Option.some.inj taken)
    have own : (stages task).mode.conn = some conn := by
      rcases lends_remove allowed here found with ⟨own,_⟩ | ⟨own,_⟩ <;> rw [own] <;> rfl
    have unregistered : m.registered = none := by
      rcases lends_remove allowed here found with ⟨_,rfl⟩ | ⟨_,rfl⟩ <;> rfl
    -- nobody else has the connection that leaves the list
    refine ⟨?_,?_⟩
    · intro t other now
      by_cases same : t = task
      · subst same
        rw [Function.update_self,unregistered] at now
        contradiction
      · rw [Function.update_of_ne same] at now
        have has : (stages t).mode.conn = some other := by
          rw [mode_conn]
          cases stage : stages t <;> rw [stage] at now <;> first | exact now | contradiction
        have ne : other ≠ conn := by
          rintro rfl
          exact same (apart.alone t task other has own)
        exact (List.mem_erase_of_ne ne).mpr (listed.registered t other now)
    · intro other member
      have ne : other ≠ conn := by
        rintro rfl
        exact (apart.owned task other own).2 member
      exact (List.mem_erase_of_ne ne).mpr (listed.queued other member)

theorem counted_step (here : stages tr.task ≠ .lost) (found : m ≠ .lost)
    (counted : Counted size stages tr.before) (taken : Taken exec tr)
    (allowed : lends (profiles tr.task) tr.action tr.reply (stages tr.task) = some m)
    (returning : Returning profiles past tr) : Counted size (Function.update stages tr.task m) tr.after := by
  obtain ⟨task,action,choice,before,reply,after⟩ := tr
  replace taken : exec action choice before = some (after,reply) := taken
  simp only at here counted allowed
  cases action with
  | probe conn | isMember conn | close conn | set conn | reset conn | sql conn statement =>
    obtain ⟨_,queue⟩ := lists_taken taken trivial (by simp)
    exact counted.still (congrArg _ queue) (congrArg _ (lends_still allowed here found trivial).conn)
  | remove conn | append conn =>
    obtain ⟨rfl,_⟩ := Prod.mk.inj (Option.some.inj taken)
    exact counted.still rfl (congrArg _ (lends_still allowed here found trivial).conn)
  | create =>
    obtain ⟨⟨conn,own⟩,gets,keeps⟩ := lends_create allowed here found
    have queue : after.queue = before.queue := by
      cases choice <;> obtain ⟨rfl,_⟩ := Prod.mk.inj (Option.some.inj taken) <;> rfl
    have had : (stages task).conn.isSome = true := by rw [← mode_conn,own]; rfl
    have has : m.conn.isSome = true := by
      cases reply with
      | ok conn => rcases gets conn rfl with rfl | rfl <;> rfl
      | error error =>
        obtain ⟨conn,_,rfl⟩ := keeps error rfl
        rfl
    exact counted.still (congrArg _ queue) (has.trans had.symm)
  | get =>
    obtain ⟨idle,given⟩ := lends_get allowed here
    rcases get_taken taken returning with ⟨conn,rfl,queue,_⟩ | ⟨⟨error,rfl⟩,rfl⟩ <;> obtain rfl := given
    · exact counted.lent (by rw [queue]; rfl) (by rw [idle]; rfl) rfl
    · exact counted.still rfl (by rw [idle])
  | put conn =>
    obtain ⟨own,rfl⟩ := lends_put allowed here
    have takes : choice.takesEffect = true := returning
    have queue : after.queue = before.queue ++ [conn] := by
      cases choice <;> first | contradiction | skip
      all_goals
        obtain ⟨rfl,_⟩ := Prod.mk.inj (Option.some.inj taken)
        rfl
    exact counted.givenBack (by rw [queue,List.length_append]; rfl) (by rw [own]; rfl) rfl

theorem lent_step (lent : Lent size past stages tr.before) (taken : Taken exec tr)
    (allowed : lends (profiles tr.task) tr.action tr.reply (stages tr.task) = some m)
    (returning : Returning profiles past tr) :
    Lent size (past ++ [tr]) (Function.update stages tr.task m) tr.after := by
  have here := (lent.told tr.task).found
  have found := not_lost (lent.told tr.task) lent.listed taken allowed returning
  refine ⟨?_,?_,listed_step here found lent.apart lent.listed taken allowed returning,
    counted_step here found lent.counted taken allowed returning⟩
  · intro task
    by_cases same : task = tr.task
    · subst same
      rw [Function.update_self]
      exact told_step (lent.told _) found allowed
    · rw [Function.update_of_ne same]
      exact told_other (lent.told task) (Ne.symm same)
  · have modes : (fun task => (Function.update stages tr.task m task).mode) =
        Function.update (fun task => (stages task).mode) tr.task m.mode :=
      Function.comp_update Stage.mode stages tr.task m
    rw [modes]
    exact apart_step lent.apart taken (lends_rule allowed here found)

/-- What the pool keeps: idle connections and borrowers are as many as it was made for,
nobody shares a connection, none is idle twice, and who has ended has none. -/
structure Conserved (size : Nat) (trace : List (Step τ ω))
    (cfg : Config τ (Pool τ ω) (Action τ ω) Reply PyError Unit) : Prop where
  counted : ∃ holders : Finset τ, (∀ task, task ∈ holders ↔ (borrowed trace task).isSome = true) ∧
    cfg.shared.queue.length + holders.card = size
  alone : ∀ task other conn, borrowed trace task = some conn → borrowed trace other = some conn → task = other
  apart : ∀ task conn, borrowed trace task = some conn → conn ∉ cfg.shared.queue
  queued : cfg.shared.queue.Nodup
  ended : ∀ task, (cfg.tasks task).finished = true → borrowed trace task = none

theorem conserved_of_lent {cfg : Config τ (Pool τ ω) (Action τ ω) Reply PyError Unit}
    (lent : Lent size past stages cfg.shared)
    (ended : ∀ task, (cfg.tasks task).finished = true → stages task = .idle) : Conserved size past cfg := by
  have same : ∀ task, borrowed past task = (stages task).mode.conn :=
    fun task => (lent.told task).borrowed.trans (mode_conn _).symm
  refine ⟨?_,?_,?_,lent.apart.queued,?_⟩
  · obtain ⟨holders,member,total⟩ := lent.counted
    exact ⟨holders,fun task => by rw [member,(lent.told task).borrowed],total⟩
  · intro task other conn mine also
    exact lent.apart.alone task other conn ((same task).symm.trans mine) ((same other).symm.trans also)
  · intro task conn mine
    exact (lent.apart.owned task conn ((same task).symm.trans mine)).2
  · intro task finished
    rw [same task,ended task finished]
    rfl

/-- Whoever borrows and however the borrowers are interleaved: while no step loses a
connection, the pool is conserved. -/
theorem pool_conserved (size : Nat) (borrowers : τ → Borrower τ ω) (schedule : List (τ × Fault))
    (returning : Throughout (Returning fun task => (borrowers task).isProfile) []
      (run exec schedule (lending size borrowers)).2) :
    Conserved size (run exec schedule (lending size borrowers)).2 (run exec schedule (lending size borrowers)).1 := by
  have start : Lent size ([] : List (Step τ ω)) (fun _ => .idle) (lending size borrowers).shared := by
    refine ⟨fun task => ⟨by simp,rfl,by simp,by simp [Stage.strict]⟩,?_,⟨by simp [Stage.registered],fun _ member => member⟩,?_⟩
    · exact ⟨List.nodup_range,fun conn member => List.mem_range.mp member,by simp [Stage.mode,Mode.conn],
        by simp [Stage.mode,Mode.conn]⟩
    · exact ⟨∅,by simp [Stage.conn],by simp [lending]⟩
  obtain ⟨stages,lent,follows⟩ := run_keeps (J := fun past stages s => Lent size past stages s)
    (fun _ _ _ _ lent taken allowed returning => lent_step lent taken allowed returning)
    schedule (lending size borrowers) [] (fun _ => .idle) start (fun task => program_lends (borrowers task)) returning
  rw [List.nil_append] at lent
  refine conserved_of_lent lent fun task finished => ?_
  rcases (follows task).ended finished with ⟨_,lost | idle⟩
  · exact absurd lost (lent.told task).found
  · exact idle

end

def reader : Borrower Unit Unit := .session (pure ())

def closed : Fault := .before (.operationalError "Connection closed")

/-- A session whose connection fails while it is used, and the first replacement too. -/
def replaced : List (Unit × Fault) :=
  [.none,.none,.none,.none,.none,closed,.none,.none,closed,.none,.none,.none].map fun fault => ((),fault)

theorem replaced_conserved : Conserved 1 (run exec replaced (lending 1 fun _ => reader)).2
    (run exec replaced (lending 1 fun _ => reader)).1 :=
  pool_conserved 1 (fun _ => reader) replaced (by decide +kernel)

/-- A connection that is found closed and cannot be replaced on the way out is gone. -/
theorem unreplaced_lost : ¬∀ (size : Nat) (borrowers : Unit → Borrower Unit Unit) (schedule : List (Unit × Fault)),
    Conserved size (run exec schedule (lending size borrowers)).2 (run exec schedule (lending size borrowers)).1 := by
  intro claim
  have conserved := claim 1 (fun _ => reader) ([.none,closed,.none,.none,closed].map fun fault => ((),fault))
  have none := conserved.ended () (by decide +kernel)
  exact absurd none (by decide +kernel)

end Vigile.ConnectionPool
