import Vigile.Transaction

/-! Refresh tokens: login, rotation, logout and a change of the password, each request on a
connection of its own. -/
namespace Vigile.Refresh

open Interleaving Python Sqlite

structure RefreshToken where
  sub : String
  familyId : String
  jti : String
  deriving DecidableEq

structure TokenRow where
  id : String
  userId : String
  tokenHash : RefreshToken
  familyId : String
  expiresAt : ℚ
  revoked : Bool
  deriving DecidableEq

inductive Change where
  | insert (row : TokenRow)
  | revoke (id : String)
  | revokeToken (tokenHash : RefreshToken)
  | revokeFamily (familyId : String)
  | revokeUser (userId : String)
  /-- A row of `users` or `audit_log`. -/
  | other
  deriving DecidableEq

/-- The WHERE clause of an UPDATE that revokes. -/
def Change.revokes : Change → TokenRow → Bool
  | .revoke id,row => row.id = id
  | .revokeToken tokenHash,row => row.tokenHash = tokenHash
  | .revokeFamily familyId,row => row.familyId = familyId
  | .revokeUser userId,row => row.userId = userId
  | _,_ => false

def TokenRow.after (change : Change) (row : TokenRow) : TokenRow :=
  {row with revoked := row.revoked || change.revokes row}

def Change.apply (rows : List TokenRow) : Change → List TokenRow
  | .insert row => rows ++ [row]
  | change => rows.map (TokenRow.after change)

def Change.condemns (rows : List TokenRow) : Change → List String
  | .revokeFamily familyId => [familyId]
  | .revokeUser userId => (rows.filter fun row => row.userId = userId).map TokenRow.familyId
  | _ => []

/-- The table that a log leaves, and the families revoked on the way. -/
def replay (log : List Change) : List TokenRow × List String :=
  log.foldl (fun past change => (change.apply past.1,past.2 ++ change.condemns past.1)) ([],[])

def tableOf (log : List Change) : List TokenRow := (replay log).1

def condemned (log : List Change) : List String := (replay log).2

inductive Action (γ : Type) where
  | selectToken (c : γ) (tokenHash : RefreshToken)
  /-- `is_active` of the row. -/
  | selectUser (c : γ) (userId : String)
  /-- Whether the old password verifies against the row. -/
  | selectPassword (c : γ) (userId : String)
  | time
  | uuid4
  | execute (c : γ) (change : Change)
  | commit (c : γ)
  /-- The transaction of `login`. -/
  | login (userId : String)

variable {γ τ : Type}

abbrev Reply : Action γ → Type
  | .selectToken _ _ => Option TokenRow
  | .selectUser _ _ | .selectPassword _ _ => Option Bool
  | .time => ℚ
  | .uuid4 => String
  | .login _ => RefreshToken
  | _ => Unit

abbrev Task (γ α : Type) := Prog (Action γ) Reply PyError α

structure Choice where
  fault : Fault
  now : ℚ
  fresh : String
  familyId : String
  user : Option Bool
  deriving DecidableEq

/-- The primary key and the UNIQUE column. -/
def uniqueCheck (row : TokenRow) (log : List Change) : Except PyError Unit :=
  if (tableOf log).any fun old => old.id = row.id then
    .error (.integrityError "UNIQUE constraint failed: refresh_tokens.id")
  else if (tableOf log).any fun old => old.tokenHash = row.tokenHash then
    .error (.integrityError "UNIQUE constraint failed: refresh_tokens.token_hash")
  else .ok ()

def Change.check : Change → List Change → Except PyError Unit
  | .insert row,log => uniqueCheck row log
  | _,_ => .ok ()

def loginRow (ttl : ℚ) (userId : String) (choice : Choice) : TokenRow :=
  ⟨choice.fresh,userId,⟨userId,choice.familyId,choice.fresh⟩,choice.familyId,choice.now + ttl,false⟩

variable [DecidableEq γ]

def answer (ttl : ℚ) (choice : Choice) (db : Database γ Change) :
    (action : Action γ) → Database γ Change × Except PyError (Reply action)
  | .selectToken c tokenHash => (db,.ok ((tableOf (db.view c)).find? fun row => row.tokenHash = tokenHash))
  | .selectUser _ _ | .selectPassword _ _ => (db,.ok choice.user)
  | .time => (db,.ok choice.now)
  | .uuid4 => (db,.ok choice.fresh)
  | .execute c change => db.execute c Transaction.refused change.check change
  | .commit c => (db.commit c,.ok ())
  | .login userId =>
    if db.writer.isSome then (db,.error (Transaction.refused .locked))
    else
      match uniqueCheck (loginRow ttl userId choice) db.committed with
      | .error error => (db,.error error)
      | .ok () =>
        ({db with committed := db.committed ++ [.insert (loginRow ttl userId choice)]},
          .ok (loginRow ttl userId choice).tokenHash)

/-- The family of a login is a `uuid4` that no token has. -/
def exec (ttl : ℚ) (action : Action γ) (choice : Choice) (db : Database γ Change) :
    Option (Database γ Change × Except PyError (Reply action)) :=
  match action with
  | .login userId =>
    if choice.familyId ∈ (tableOf db.written).map TokenRow.familyId ∨ choice.familyId ∈ condemned db.written then none
    else some (choice.fault.strike db (answer ttl choice db (.login userId)))
  | action => some (choice.fault.strike db (answer ttl choice db action))

omit [DecidableEq γ]

abbrev perform (action : Action γ) : Task γ (Reply action) := Prog.perform action

abbrev execute (c : γ) (change : Change) : Task γ Unit := perform (.execute c change)

/-- The connection is in a transaction already, so `log_action` does not commit. -/
abbrev logAction (c : γ) : Task γ Unit := execute c .other

def createRefreshToken (userId familyId : String) : Task γ RefreshToken := do
  let jti ← perform .uuid4
  pure ⟨userId,familyId,jti⟩

def refused (detail : String) : PyError := .httpException 401 detail

def refreshToken (ttl : ℚ) (c : γ) (claims : Option RefreshToken) : Task γ (Option RefreshToken) := do
  match claims with
  | none => throw (refused "Invalid or expired refresh token")
  | some token =>
    match ← perform (.selectToken c token) with
    | none => throw (refused "Invalid refresh token")
    | some dbToken =>
      if dbToken.revoked then do
        execute c (.revokeFamily dbToken.familyId)
        logAction c
        perform (.commit c)
        throw (refused "Token reuse detected")
      else do
        let now ← perform .time
        if dbToken.expiresAt < now then throw (refused "Refresh token expired")
        else
          match ← perform (.selectUser c token.sub) with
          | some true => do
            let now ← perform .time
            execute c (.revoke dbToken.id)
            let newToken ← createRefreshToken token.sub dbToken.familyId
            let newId ← perform .uuid4
            execute c (.insert ⟨newId,token.sub,newToken,dbToken.familyId,now + ttl,false⟩)
            logAction c
            perform (.commit c)
            pure (some newToken)
          | _ => throw (refused "User not found or deactivated")

def logout (c : γ) (value : Option RefreshToken) : Task γ (Option RefreshToken) := do
  match value with
  | none => pure none
  | some token => do
    execute c (.revokeToken token)
    logAction c
    perform (.commit c)
    pure none

def changePassword (c : γ) (userId : String) : Task γ (Option RefreshToken) := do
  match ← perform (.selectPassword c userId) with
  | none => throw (.httpException 404 "User not found")
  | some false => throw (.httpException 400 "Invalid old password")
  | some true => do
    execute c .other
    execute c (.revokeUser userId)
    logAction c
    perform (.commit c)
    pure none

inductive Client where
  | login (userId : String)
  | refresh (claims : Option RefreshToken)
  | logout (value : Option RefreshToken)
  | changePassword (userId : String)
  deriving DecidableEq

def Client.program (ttl : ℚ) (c : γ) : Client → Task γ (Option RefreshToken)
  | .login userId => do
    let token ← perform (.login userId)
    pure (some token)
  | .refresh claims => refreshToken ttl c claims
  | .logout value => Refresh.logout c value
  | .changePassword userId => Refresh.changePassword c userId

def start (ttl : ℚ) (clients : τ → Client) :
    Config τ (Database τ Change) (Action τ) Reply PyError (Option RefreshToken) :=
  ⟨Database.opened [],fun task => (clients task).program ttl task⟩

abbrev Step (τ : Type) := Transition τ Choice (Database τ Change) (Action τ) Reply PyError

end Vigile.Refresh
