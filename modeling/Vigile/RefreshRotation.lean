import Vigile.RefreshTable

/-! Rotation of refresh tokens in runs in which a token is still unrevoked when it is revoked
for its successor. -/
namespace Vigile.Refresh

open Interleaving Python Sqlite

variable {τ : Type} {ttl : ℚ}

inductive Stage where
  | idle
  | found (token : RefreshToken) (row : TokenRow)
  /-- The token is revoked and its successor not stored. -/
  | rotated (token : RefreshToken) (row : TokenRow)
  | stored (token : RefreshToken)
  | exchanged (token : RefreshToken)
  | ended

def Stage.taken : Stage → Option RefreshToken
  | .rotated token _ | .stored token | .exchanged token => some token
  | _ => none

def Stage.isRotated : Stage → Bool
  | .rotated _ _ => true
  | _ => false

/-- Between the two writes of an exchange a request does nothing else. -/
def rule [DecidableEq τ] (c : τ) : Prog.Protocol (Action τ) Reply PyError Stage
  | .selectToken _ token,reply,.idle =>
    match reply with
    | .ok (some row) => some (.found token row)
    | _ => some .ended
  | .execute own (.revoke id),reply,.found token row =>
    if own = c ∧ id = row.id then some (if reply.isOk then .rotated token row else .ended) else none
  | .execute own (.insert new),reply,.rotated token row =>
    if own = c ∧ new.familyId = row.familyId ∧ new.userId = token.sub ∧ new.tokenHash.sub = token.sub ∧
        new.tokenHash.familyId = row.familyId then
      some (if reply.isOk then .stored token else .ended)
    else none
  | .execute _ (.revoke _),_,_ | .execute _ (.insert _),_,_ => none
  | .execute own _,_,stage => if own = c ∧ stage.isRotated = false then some stage else none
  | .commit own,reply,.stored token => if own = c then some (if reply.isOk then .exchanged token else .ended) else none
  | .commit own,_,stage => if own = c ∧ stage.isRotated = false then some stage else none
  | .login _,_,.idle => some .idle
  | .selectUser _ _,_,stage | .selectPassword _ _,_,stage | .time,_,stage | .uuid4,_,stage => some stage
  | _,_,_ => none

/-- A request that returns a successor has exchanged its token. -/
def Ended (client : Client) (result : Except PyError (Option RefreshToken)) (stage : Stage) : Prop :=
  ∀ token new, client = .refresh (some token) → result = .ok (some new) → stage = .exchanged token

section
variable [DecidableEq τ] {c : τ} {stage : Stage}

theorem execute_follows {change : Change} (update : change.isUpdate = true) (free : ∀ id, change ≠ .revoke id)
    (unrotated : stage.isRotated = false) : (execute c change).Stays (rule c) stage := by
  apply Prog.Stays.perform
  intro reply
  cases change with
  | insert row => contradiction
  | revoke id => exact absurd rfl (free id)
  | _ => exact if_pos ⟨rfl,unrotated⟩

theorem commit_follows (unrotated : stage.isRotated = false) (open' : ∀ token, stage ≠ .stored token) :
    (perform (.commit c)).Stays (rule c) stage := by
  apply Prog.Stays.perform
  intro reply
  cases stage with
  | stored token => exact absurd rfl (open' token)
  | rotated token row => contradiction
  | _ => simp [rule,Stage.isRotated]

/-- A revocation as a whole, with its entry in the log. -/
theorem revocation_follows {change : Change} (update : change.isUpdate = true) (free : ∀ id, change ≠ .revoke id)
    (unrotated : stage.isRotated = false) (open' : ∀ token, stage ≠ .stored token)
    {rest : Task τ (Option RefreshToken)} {post : Except PyError (Option RefreshToken) → Stage → Prop}
    (ends : rest.Follows (rule c) stage post) (fails : ∀ error, post (.error error) stage) :
    (do execute c change; logAction c; perform (.commit c); rest : Task τ (Option RefreshToken)).Follows (rule c)
      stage post := by
  apply Prog.Follows.bind (execute_follows update free unrotated)
  · rintro _ _ rfl
    apply Prog.Follows.bind (execute_follows rfl (by simp) unrotated)
    · rintro _ _ rfl
      apply Prog.Follows.bind (commit_follows unrotated open')
      · rintro _ _ rfl
        exact ends
      · rintro error _ rfl
        exact fails error
    · rintro error _ rfl
      exact fails error
  · rintro error _ rfl
    exact fails error

theorem failed_ended {client : Client} {error : PyError} : Ended client (.error error) stage := by
  intro _ _ _ returned
  contradiction

/-- The two writes of an exchange and its COMMIT. -/
theorem exchange_follows (token : RefreshToken) (row : TokenRow) (expiresAt : ℚ) :
    (do
      execute c (.revoke row.id)
      let newToken ← createRefreshToken token.sub row.familyId
      let newId ← perform .uuid4
      execute c (.insert ⟨newId,token.sub,newToken,row.familyId,expiresAt,false⟩)
      logAction c
      perform (.commit c)
      pure (some newToken) : Task τ (Option RefreshToken)).Follows (rule c) (.found token row)
      (Ended (.refresh (some token))) := by
  have revokes : (execute c (.revoke row.id)).Follows (rule c) (.found token row) fun result stage =>
      result.isOk = true → stage = .rotated token row :=
    .perform fun reply => ⟨_,if_pos ⟨rfl,rfl⟩,fun ok => if_pos ok⟩
  apply Prog.Follows.bind revokes _ fun _ _ _ => failed_ended
  rintro _ stage reached
  obtain rfl := reached rfl
  have creates : (createRefreshToken token.sub row.familyId).Follows (rule c) (.rotated token row) fun result stage =>
      stage = .rotated token row ∧ ∀ new, result = .ok new → new.sub = token.sub ∧ new.familyId = row.familyId := by
    intro reply
    refine ⟨_,rfl,?_⟩
    cases reply with
    | error error => exact ⟨rfl,fun _ impossible => by contradiction⟩
    | ok jti => exact ⟨rfl,fun new same => by cases same; exact ⟨rfl,rfl⟩⟩
  apply Prog.Follows.bind creates _ fun _ _ _ => failed_ended
  rintro newToken stage ⟨rfl,sub⟩
  have draws : (perform .uuid4 : Task τ String).Stays (rule c) (.rotated token row) := .perform fun _ => rfl
  apply Prog.Follows.bind draws _ fun _ _ _ => failed_ended
  rintro newId stage rfl
  have stores : (execute c (.insert ⟨newId,token.sub,newToken,row.familyId,expiresAt,false⟩)).Follows (rule c)
      (.rotated token row) fun result stage => result.isOk = true → stage = .stored token :=
    .perform fun reply => ⟨_,if_pos ⟨rfl,rfl,rfl,sub newToken rfl⟩,fun ok => if_pos ok⟩
  apply Prog.Follows.bind stores _ fun _ _ _ => failed_ended
  rintro _ stage reached
  obtain rfl := reached rfl
  apply Prog.Follows.bind (execute_follows rfl (by simp) rfl) _ fun _ _ _ => failed_ended
  rintro _ stage rfl
  have commits : (perform (.commit c) : Task τ Unit).Follows (rule c) (.stored token) fun result stage =>
      result.isOk = true → stage = .exchanged token :=
    .perform fun reply => ⟨_,if_pos rfl,fun ok => if_pos ok⟩
  apply Prog.Follows.bind commits _ fun _ _ _ => failed_ended
  intro _ stage reached presented new own _
  cases own
  exact reached rfl

/-- What throws or returns no token exchanges nothing. -/
theorem Ended.of_stays {client : Client} {program : Task τ (Option RefreshToken)} (stays : program.Stays (rule c) stage)
    (other : ∀ claims, client ≠ .refresh claims) : program.Follows (rule c) stage (Ended client) :=
  stays.mono fun _ _ _ _ _ own => absurd own (other _)

theorem refreshToken_follows (claims : Option RefreshToken) :
    (refreshToken ttl c claims).Follows (rule c) .idle (Ended (.refresh claims)) := by
  cases claims with
  | none => exact failed_ended
  | some token =>
    have selects : (perform (.selectToken c token) : Task τ (Option TokenRow)).Follows (rule c) .idle fun result stage =>
        ∀ row, result = .ok (some row) → stage = .found token row := by
      apply Prog.Follows.perform
      rintro (error | (_ | row))
      all_goals exact ⟨_,rfl,by simp⟩
    apply Prog.Follows.bind selects _ fun _ _ _ => failed_ended
    intro found stage reached
    cases found with
    | none => exact failed_ended
    | some row =>
      obtain rfl := reached row rfl
      dsimp only
      split
      · apply revocation_follows rfl (by simp) rfl (by simp)
        · exact failed_ended
        · exact fun _ => failed_ended
      · have clock : (perform .time : Task τ ℚ).Stays (rule c) (.found token row) := .perform fun _ => rfl
        apply Prog.Follows.bind clock _ fun _ _ _ => failed_ended
        rintro now stage rfl
        split
        · exact failed_ended
        · have reads : (perform (.selectUser c token.sub) : Task τ (Option Bool)).Stays (rule c) (.found token row) :=
            .perform fun _ => rfl
          apply Prog.Follows.bind reads _ fun _ _ _ => failed_ended
          rintro user stage rfl
          split
          · apply Prog.Follows.bind clock _ fun _ _ _ => failed_ended
            rintro now stage rfl
            exact exchange_follows token row (now + ttl)
          · exact failed_ended

theorem client_follows (client : Client) (task : τ) :
    (client.program ttl task).Follows (rule task) .idle (Ended client) := by
  cases client with
  | login userId =>
    apply Ended.of_stays _ (by simp)
    exact .bind (.perform fun _ => rfl) fun _ => .pure
  | refresh claims => exact refreshToken_follows claims
  | logout value =>
    apply Ended.of_stays _ (by simp)
    cases value with
    | none => exact .pure
    | some token => exact revocation_follows rfl (by simp) rfl (by simp) Prog.Stays.pure fun _ => rfl
  | changePassword userId =>
    apply Ended.of_stays _ (by simp)
    apply Prog.Stays.bind (.perform fun _ => rfl)
    intro verified
    split
    · exact .throw
    · exact .throw
    · exact .bind (execute_follows rfl (by simp) rfl) fun _ => revocation_follows rfl (by simp) rfl (by simp) Prog.Stays.pure fun _ => rfl

end

variable {tr : Step τ} {stage next : Stage} {stages : τ → Stage}

/-- The token that a refresh revokes for its successor is unrevoked when the UPDATE gets the
write lock. -/
def Lawful (tr : Step τ) : Prop :=
  match tr.action with
  | .execute c (.revoke id) => (tr.before.writer = none ∨ tr.before.writer = some c) →
      ∀ row ∈ tableOf tr.before.written, row.id = id → row.revoked = false
  | _ => True

variable {c own : τ} {reply : Except PyError Unit} {change : Change} {token : RefreshToken}
  {after db : Database τ Change}

theorem lawful_unrevoked {id : String} (lawful : Lawful tr) (executes : tr.action = .execute c (.revoke id))
    (free : tr.before.writer = none ∨ tr.before.writer = some c) :
    ∀ row ∈ tableOf tr.before.written, row.id = id → row.revoked = false := by
  unfold Lawful at lawful
  rw [executes] at lawful
  exact lawful free

instance [DecidableEq τ] (tr : Step τ) : Decidable (Lawful tr) := by
  unfold Lawful
  split <;> infer_instance

inductive Moved (tr : Step τ) : Prop where
  | same (committed : tr.after.committed = tr.before.committed) (written : tr.after.written = tr.before.written)
      (writer : tr.after.writer = tr.before.writer ∨ tr.before.writer = none)
      (refused : ∀ c change, tr.action = .execute c change → tr.reply.isOk = false)
  | wrote (c : τ) (change : Change) (executes : tr.action = .execute c change)
      (committed : tr.after.committed = tr.before.committed) (written : tr.after.written = tr.before.written ++ [change])
      (free : tr.before.writer = none ∨ tr.before.writer = some c) (writer : tr.after.writer = some c)
      (checked : change.check tr.before.written = .ok ())
  | committed (c : τ) (commits : tr.action = .commit c) (committed : tr.after.committed = tr.before.written)
      (written : tr.after.written = tr.before.written) (holds : tr.before.writer = some c) (idle : tr.after.writer = none)
  | loggedIn (row : TokenRow) (login : ∃ userId, tr.action = .login userId) (idle : tr.before.writer = none)
      (committed : tr.after.committed = tr.before.written ++ [.insert row]) (writer : tr.after.writer = none)
      (owned : row.userId = row.tokenHash.sub ∧ row.familyId = row.tokenHash.familyId)
      (fresh : row.familyId ∉ (tableOf tr.before.written).map TokenRow.familyId)
      (uncondemned : row.familyId ∉ condemned tr.before.written) (checked : uniqueCheck row tr.before.written = .ok ())

theorem moved_of_fixed (fixed : tr.after = tr.before)
    (refused : ∀ c change, tr.action = .execute c change → tr.reply.isOk = false) : Moved tr :=
  .same (by rw [fixed]) (by rw [fixed]) (.inl (by rw [fixed])) refused

variable [DecidableEq τ]

theorem moved_of_taken (taken : Taken (exec ttl) tr) : Moved tr := by
  obtain ⟨task,action,choice,before,reply,after⟩ := tr
  replace taken : exec ttl action choice before = some (after,reply) := taken
  cases action with
  | execute c change =>
    have struck : choice.fault.strike before (before.execute c Transaction.refused change.check change) = (after,reply) :=
      Option.some.inj taken
    cases done : before.execute c Transaction.refused change.check change with
    | mk reached result =>
      rw [done] at struck
      obtain ⟨committed,refused | wrote⟩ := Database.execute_cases done
      · obtain ⟨written,writer,failed⟩ := refused
        cases fault : choice.fault with
        | none =>
          rw [fault] at struck
          obtain ⟨rfl,rfl⟩ := Prod.mk.inj struck
          exact .same committed written writer fun _ _ _ => failed
        | before error =>
          rw [fault] at struck
          obtain ⟨rfl,rfl⟩ := Prod.mk.inj struck
          exact moved_of_fixed rfl fun _ _ _ => rfl
        | after error =>
          rw [fault] at struck
          obtain ⟨rfl,rfl⟩ := Prod.mk.inj struck
          exact .same committed written writer fun _ _ _ => rfl
      · obtain ⟨written,free,writer,checked⟩ := wrote
        cases fault : choice.fault with
        | before error =>
          rw [fault] at struck
          obtain ⟨rfl,rfl⟩ := Prod.mk.inj struck
          exact moved_of_fixed rfl fun _ _ _ => rfl
        | _ =>
          rw [fault] at struck
          obtain ⟨rfl,rfl⟩ := Prod.mk.inj struck
          exact .wrote c change rfl committed written free writer checked
  | commit c =>
    have struck : (choice.fault.strike before (before.commit c,(.ok () : Except PyError Unit))).1 = after :=
      congrArg Prod.fst (Option.some.inj taken)
    rcases strike_state choice.fault before (before.commit c,(.ok () : Except PyError Unit)) with same | reached
    · exact moved_of_fixed (struck.symm.trans same) (by simp)
    · obtain rfl := struck.symm.trans reached
      obtain ⟨written,kept | ends⟩ := before.commit_cases (c := c)
      · exact .same kept.1 written (.inl kept.2) (by simp)
      · exact .committed c rfl ends.1 written ends.2.1 ends.2.2
  | login userId =>
    obtain ⟨fresh,struck⟩ := Option.ite_none_left_eq_some.mp taken
    have after' : (choice.fault.strike before (answer ttl choice before (.login userId))).1 = after :=
      congrArg Prod.fst (Option.some.inj struck)
    rcases strike_state choice.fault before (answer ttl choice before (.login userId)) with same | reached
    · exact moved_of_fixed (after'.symm.trans same) (by simp)
    · obtain rfl := after'.symm.trans reached
      cases idle : before.writer with
      | some holder => exact moved_of_fixed (by simp [answer,idle]) (by simp)
      | none =>
        have written := Database.written_of_idle idle
        cases checked : uniqueCheck (loginRow ttl userId choice) before.committed with
        | error error => exact moved_of_fixed (by simp [answer,idle,checked]) (by simp)
        | ok _ =>
          rw [not_or] at fresh
          apply Moved.loggedIn (loginRow ttl userId choice) ⟨userId,rfl⟩ idle
          · simp [answer,idle,checked,written]
          · simp [answer,idle,checked]
          · exact ⟨rfl,rfl⟩
          · exact fresh.1
          · exact fresh.2
          · rw [written]
            exact checked
  | _ =>
    have same : after = before := (congrArg Prod.fst (Option.some.inj taken)).symm.trans (strike_fixed rfl)
    exact moved_of_fixed same (by simp)

/-! What the protocol allows -/

theorem insert_allowed {new : TokenRow}
    (allowed : rule c (.execute own (.insert new)) reply stage = some next) :
    own = c ∧ next.isRotated = false ∧ ∃ token row, stage = .rotated token row ∧ new.familyId = row.familyId ∧
      new.userId = token.sub ∧ new.tokenHash.sub = token.sub ∧ new.tokenHash.familyId = row.familyId := by
  cases stage with
  | rotated token row =>
    obtain ⟨⟨is,family,user,sub,hash⟩,same⟩ := Option.ite_none_right_eq_some.mp allowed
    refine ⟨is,?_,token,row,rfl,family,user,sub,hash⟩
    cases reply <;> cases same <;> rfl
  | _ => contradiction

theorem revoke_allowed {id : String}
    (allowed : rule c (.execute own (.revoke id)) reply stage = some next) :
    own = c ∧ ∃ token row, stage = .found token row ∧ id = row.id ∧
      next = if reply.isOk then .rotated token row else .ended := by
  cases stage with
  | found token row =>
    obtain ⟨⟨is,same⟩,moved⟩ := Option.ite_none_right_eq_some.mp allowed
    exact ⟨is,token,row,rfl,same,(Option.some.inj moved).symm⟩
  | _ => contradiction

theorem execute_allowed
    (allowed : rule c (.execute own change) reply stage = some next) : own = c := by
  cases change with
  | insert new => exact (insert_allowed allowed).1
  | revoke id => exact (revoke_allowed allowed).1
  | _ => exact (Option.ite_none_right_eq_some.mp allowed).1.1

theorem update_allowed (update : change.isUpdate = true)
    (free : ∀ id, change ≠ .revoke id) (allowed : rule c (.execute own change) reply stage = some next) :
    stage.isRotated = false ∧ next = stage := by
  cases change with
  | insert new => contradiction
  | revoke id => exact absurd rfl (free id)
  | _ =>
    obtain ⟨⟨_,unrotated⟩,same⟩ := Option.ite_none_right_eq_some.mp allowed
    exact ⟨unrotated,(Option.some.inj same).symm⟩

theorem commit_allowed
    (allowed : rule c (.commit own) reply stage = some next) :
    own = c ∧ stage.isRotated = false ∧ (next = stage ∨ ∃ token, stage = .stored token ∧ (next = .exchanged token ∨ next = .ended)) := by
  cases stage with
  | stored token =>
    obtain ⟨is,same⟩ := Option.ite_none_right_eq_some.mp allowed
    refine ⟨is,rfl,.inr ⟨token,rfl,?_⟩⟩
    cases reply <;> cases same
    · exact .inr rfl
    · exact .inl rfl
  | _ =>
    obtain ⟨⟨is,unrotated⟩,same⟩ := Option.ite_none_right_eq_some.mp allowed
    exact ⟨is,unrotated,.inl (Option.some.inj same).symm⟩

/-- A token is taken by the UPDATE that revokes it, and by nothing else. -/
theorem taken_allowed {action : Action τ} {reply : Except PyError (Reply action)}
    (allowed : rule c action reply stage = some next) (holds : next.taken = some token) :
    stage.taken = some token ∨
      ∃ row, stage = .found token row ∧ action = .execute c (.revoke row.id) ∧ next = .rotated token row ∧
        reply.isOk = true := by
  cases action with
  | selectToken own hash =>
    cases stage with
    | idle =>
      rcases reply with error | (_ | row) <;> cases allowed <;> contradiction
    | _ => contradiction
  | execute own change =>
    cases change with
    | insert new =>
      obtain ⟨_,_,own,row,rfl,_⟩ := insert_allowed allowed
      cases reply <;> cases (Option.ite_none_right_eq_some.mp allowed).2
      · contradiction
      · exact .inl holds
    | revoke id =>
      obtain ⟨rfl,own,row,rfl,rfl,rfl⟩ := revoke_allowed allowed
      cases reply with
      | error error => contradiction
      | ok _ =>
        cases holds
        exact .inr ⟨row,rfl,rfl,rfl,rfl⟩
    | _ =>
      obtain ⟨_,rfl⟩ := update_allowed rfl (by simp) allowed
      exact .inl holds
  | commit own =>
    obtain ⟨_,_,rfl | ⟨own,rfl,rfl | rfl⟩⟩ := commit_allowed allowed
    · exact .inl holds
    · exact .inl holds
    · contradiction
  | login userId =>
    cases stage with
    | idle =>
      cases allowed
      contradiction
    | _ => contradiction
  | _ =>
    cases allowed
    exact .inl holds

/-- What a request knows of its row, and that nothing comes between its two writes. -/
def Ready (db : Database τ Change) (c : τ) : Stage → Prop
  | .found token row => Known db.written row ∧ row.tokenHash = token
  | .rotated token row => Known db.written row ∧ row.tokenHash = token ∧ db.writer = some c ∧
      (∀ now ∈ tableOf db.written, now.familyId = row.familyId → now.revoked = true) ∧
      row.familyId ∉ condemned db.written
  | _ => True

structure Inv (stages : τ → Stage) (db : Database τ Change) : Prop where
  committed : Sound db.committed
  written : Sound db.written
  ready : ∀ c, Ready db c (stages c)
  spent : ∀ c token, (stages c).taken = some token → Spent db.written token
  once : ∀ c d token, (stages c).taken = some token → (stages d).taken = some token → c = d

omit [DecidableEq τ] in
theorem Moved.grows (moved : Moved tr) : tr.before.written <+: tr.after.written := by
  cases moved with
  | same committed written | committed c commits committed written => rw [written]
  | wrote c change executes committed written => exact written ▸ List.prefix_append _ _
  | loggedIn row login idle committed writer =>
    rw [Database.written_of_idle writer,committed]
    exact List.prefix_append _ _

omit [DecidableEq τ] in
theorem ready_unrotated (grows : db.written <+: after.written)
    (unrotated : stage.isRotated = false) (ready : Ready db c stage) : Ready after c stage := by
  cases stage with
  | found token row => exact ⟨ready.1.extend grows,ready.2⟩
  | rotated token row => contradiction
  | _ => trivial

omit [DecidableEq τ] in
theorem ready_fixed (written : after.written = db.written)
    (writer : after.writer = db.writer ∨ db.writer = none) (ready : Ready db c stage) : Ready after c stage := by
  cases stage with
  | rotated token row =>
    obtain ⟨known,hash,holds,revoked,uncondemned⟩ := ready
    have kept : after.writer = some c := by
      rcases writer with same | idle
      · exact same.trans holds
      · rw [holds] at idle
        contradiction
    exact ⟨written ▸ known,hash,kept,written ▸ revoked,written ▸ uncondemned⟩
  | _ => exact ready_unrotated (written ▸ List.prefix_refl _) rfl ready

/-- A request goes on while another one moves. -/
theorem ready_other (moved : Moved tr) (allowed : rule tr.task tr.action tr.reply stage = some next) {d : τ} {own : Stage}
    (other : d ≠ tr.task) (ready : Ready tr.before d own) : Ready tr.after d own := by
  by_cases rotated : own.isRotated = true
  · have holds : tr.before.writer = some d := by
      cases own with
      | rotated token row => exact ready.2.2.1
      | _ => contradiction
    cases moved with
    | same committed written writer => exact ready_fixed written writer ready
    | wrote c change executes committed written free =>
      obtain ⟨task,action,choice,before,reply,after⟩ := tr
      obtain rfl : action = .execute c change := executes
      have is : c = task := execute_allowed allowed
      simp only at holds free
      rw [holds] at free
      rcases free with impossible | same
      · contradiction
      · exact absurd ((Option.some.inj same).trans is) other
    | committed c commits committed written now =>
      obtain ⟨task,action,choice,before,reply,after⟩ := tr
      obtain rfl : action = .commit c := commits
      have is : c = task := (commit_allowed allowed).1
      simp only at holds now
      rw [holds] at now
      exact absurd ((Option.some.inj now).trans is) other
    | loggedIn row login idle =>
      rw [holds] at idle
      contradiction
  · exact ready_unrotated moved.grows (by simpa using rotated) ready

/-- The row that a SELECT finds is there, whichever part of the log the connection sees. -/
theorem found_known {row : TokenRow}
    (found : (tableOf (db.view c)).find? (fun row => row.tokenHash = token) = some row) :
    Known db.written row ∧ row.tokenHash = token := by
  have hash := List.find?_some found
  exact ⟨(known_of_mem (List.mem_of_find?_eq_some found)).extend Database.view_written,by simpa using hash⟩

omit [DecidableEq τ] in
/-- After the UPDATE the family has no unrevoked token. -/
theorem rotated_ready {row : TokenRow}
    (sound : Sound db.written) (ready : Known db.written row ∧ row.tokenHash = token)
    (lawful : ∀ now ∈ tableOf db.written, now.id = row.id → now.revoked = false)
    (written : after.written = db.written ++ [.revoke row.id]) (writer : after.writer = some c) :
    Ready after c (.rotated token row) := by
  obtain ⟨now,member,id,_,_,family⟩ := ready.1
  have unrevoked := lawful now member id
  refine ⟨written ▸ ready.1.concat _,ready.2,writer,?_,?_⟩
  · intro other found same
    rw [written,tableOf_concat,apply_update rfl] at found
    obtain ⟨old,there,rfl⟩ := List.mem_map.mp found
    simp only [TokenRow.after,Bool.or_eq_true,Change.revokes,decide_eq_true_eq]
    rcases sound.unrevoked_unique there member (same.trans family.symm) unrevoked with is | revoked
    · rw [is]
      exact .inr id
    · exact .inl revoked
  · rw [written,condemned_concat,List.mem_append]
    rintro (before | impossible)
    · have revoked := sound.condemned now member (family ▸ before)
      rw [unrevoked] at revoked
      contradiction
    · contradiction

omit [DecidableEq τ] in
theorem wrote_of_ok (moved : Moved tr) (executes : tr.action = .execute c change)
    (ok : tr.reply.isOk = true) : tr.after.written = tr.before.written ++ [change] ∧
      (tr.before.writer = none ∨ tr.before.writer = some c) ∧ tr.after.writer = some c := by
  cases moved with
  | same committed written writer refused =>
    rw [refused c change executes] at ok
    contradiction
  | wrote own written' executes' committed written free writer =>
    obtain ⟨rfl,rfl⟩ := Action.execute.inj (executes.symm.trans executes')
    exact ⟨written,free,writer⟩
  | committed own commits =>
    rw [executes] at commits
    contradiction
  | loggedIn row login =>
    obtain ⟨userId,login⟩ := login
    rw [executes] at login
    contradiction

theorem ready_own (kept : Inv stages tr.before) (taken : Taken (exec ttl) tr)
    (allowed : rule tr.task tr.action tr.reply (stages tr.task) = some next) (lawful : Lawful tr) :
    Ready tr.after tr.task next := by
  have moved := moved_of_taken taken
  have ready := kept.ready tr.task
  generalize stages tr.task = stage at allowed ready
  obtain ⟨task,action,choice,before,reply,after⟩ := tr
  cases action with
  | selectToken own hash =>
    cases stage with
    | idle =>
      rcases reply with error | (_ | row)
      · cases allowed
        trivial
      · cases allowed
        trivial
      · cases allowed
        obtain ⟨_,answered⟩ := strike_ok (Option.some.inj taken)
        obtain ⟨fixed,found⟩ := Prod.mk.inj answered
        have known := found_known (Except.ok.inj found)
        exact ⟨known.1.extend moved.grows,known.2⟩
    | _ => contradiction
  | execute own change =>
    cases change with
    | insert new =>
      obtain ⟨_,unrotated,own,row,rfl,_⟩ := insert_allowed allowed
      cases reply <;> cases (Option.ite_none_right_eq_some.mp allowed).2 <;> trivial
    | revoke id =>
      obtain ⟨rfl,token,row,rfl,rfl,rfl⟩ := revoke_allowed allowed
      cases reply with
      | error error => trivial
      | ok _ =>
        obtain ⟨written,free,writer⟩ := wrote_of_ok moved rfl rfl
        exact rotated_ready kept.written ready (lawful free) written writer
    | _ =>
      obtain ⟨unrotated,rfl⟩ := update_allowed rfl (by simp) allowed
      exact ready_unrotated moved.grows unrotated ready
  | commit own =>
    obtain ⟨_,unrotated,rfl | ⟨token,rfl,rfl | rfl⟩⟩ := commit_allowed allowed
    · exact ready_unrotated moved.grows unrotated ready
    · trivial
    · trivial
  | login userId =>
    cases stage with
    | idle =>
      cases allowed
      trivial
    | _ => contradiction
  | _ =>
    cases allowed
    have fixed : after = before := (congrArg Prod.fst (Option.some.inj taken)).symm.trans (strike_fixed rfl)
    subst fixed
    exact ready

/-- Both the committed table and the one being written stay sound. -/
theorem sound_next (kept : Inv stages tr.before) (moved : Moved tr)
    (allowed : rule tr.task tr.action tr.reply (stages tr.task) = some next) :
    Sound tr.after.committed ∧ Sound tr.after.written := by
  cases moved with
  | same committed written => exact ⟨committed ▸ kept.committed,written ▸ kept.written⟩
  | committed c commits committed written => exact ⟨committed ▸ kept.written,written ▸ kept.written⟩
  | loggedIn row login idle committed writer owned fresh uncondemned checked =>
    have foreign : ∀ old ∈ tableOf tr.before.written, old.familyId ≠ row.familyId :=
      fun old member same => fresh (List.mem_map.mpr ⟨old,member,same⟩)
    have sound : Sound (tr.before.written ++ [.insert row]) :=
      kept.written.insert owned (fun old member same => absurd same (foreign old member))
        (fun old member same => absurd same (foreign old member)) uncondemned
    rw [Database.written_of_idle writer,committed]
    exact ⟨sound,sound⟩
  | wrote c change executes committed written free writer checked =>
    rw [committed,written]
    refine ⟨kept.committed,?_⟩
    by_cases update : change.isUpdate = true
    · exact kept.written.update update
    · have ready := kept.ready tr.task
      generalize stages tr.task = stage at allowed ready
      obtain ⟨task,action,choice,before,reply,after⟩ := tr
      obtain rfl : action = .execute c change := executes
      cases change with
      | insert new =>
        obtain ⟨_,_,token,row,rfl,family,user,sub,hash⟩ := insert_allowed allowed
        obtain ⟨known,same,_,revoked,uncondemned⟩ := ready
        obtain ⟨now,member,_,_,nowHash,nowFamily⟩ := known
        apply kept.written.insert ⟨user.trans sub.symm,family.trans hash.symm⟩
        · intro old there is
          calc old.userId = now.userId := kept.written.users old there now member (is.trans (family.trans nowFamily.symm))
            _ = now.tokenHash.sub := (kept.written.owner now member).1
            _ = new.userId := by rw [nowHash,same,user]
        · exact fun old there is => revoked old there (is.trans family)
        · exact family ▸ uncondemned
      | _ => exact absurd rfl update

omit [DecidableEq τ] in
theorem spent_next (moved : Moved tr) (spent : Spent tr.before.written token) :
    Spent tr.after.written token := by
  cases moved with
  | same committed written | committed c commits committed written => exact written ▸ spent
  | wrote c change executes committed written free writer checked => exact written ▸ spent.concat checked
  | loggedIn row login idle committed writer owned fresh uncondemned checked =>
    rw [Database.written_of_idle writer,committed]
    exact spent.insert checked

section
variable (kept : Inv stages tr.before) (taken : Taken (exec ttl) tr)
  (allowed : rule tr.task tr.action tr.reply (stages tr.task) = some next) (lawful : Lawful tr)
include kept taken allowed lawful

/-- The UPDATE that takes a token: the token is spent, and was not before. -/
theorem taken_spent
    (holds : next.taken = some token) : (stages tr.task).taken = some token ∨
      Spent tr.after.written token ∧ ¬Spent tr.before.written token := by
  rcases taken_allowed allowed holds with before | ⟨row,found,executes,rotated,ok⟩
  · exact .inl before
  · right
    have ready := ready_own kept taken allowed lawful
    rw [rotated] at ready
    obtain ⟨known,hash,_,revoked,_⟩ := ready
    have sound := (sound_next kept (moved_of_taken taken) allowed).2
    have before := kept.ready tr.task
    rw [found] at before
    obtain ⟨now,member,id,_,nowHash,nowFamily⟩ := before.1
    refine ⟨⟨⟨row,known,hash⟩,?_⟩,?_⟩
    · intro other there is
      obtain ⟨first,present,_,_,firstHash,firstFamily⟩ := known
      apply revoked other there
      rw [(sound.owner other there).2,is,← hash,← firstHash,← (sound.owner first present).2,firstFamily]
    · intro spent
      have revoked := spent.2 now member (nowHash.trans before.2)
      have free := (wrote_of_ok (moved_of_taken taken) executes ok).2.1
      have unrevoked := lawful_unrevoked lawful executes free now member id
      rw [revoked] at unrevoked
      contradiction

theorem Inv.step :
    Inv (Function.update stages tr.task next) tr.after := by
  have moved := moved_of_taken taken
  obtain ⟨committed,written⟩ := sound_next kept moved allowed
  have once : ∀ d token, next.taken = some token → (stages d).taken = some token → d = tr.task := by
    intro d token new old
    rcases taken_spent kept taken allowed lawful new with before | ⟨_,unspent⟩
    · exact kept.once d tr.task token old before
    · exact absurd (kept.spent d token old) unspent
  refine ⟨committed,written,?_,?_,?_⟩
  · intro c
    by_cases own : c = tr.task
    · subst own
      rw [Function.update_self]
      exact ready_own kept taken allowed lawful
    · rw [Function.update_of_ne own]
      exact ready_other moved allowed own (kept.ready c)
  · intro c token holds
    by_cases own : c = tr.task
    · subst own
      rw [Function.update_self] at holds
      rcases taken_spent kept taken allowed lawful holds with before | ⟨spent,_⟩
      · exact spent_next moved (kept.spent tr.task token before)
      · exact spent
    · rw [Function.update_of_ne own] at holds
      exact spent_next moved (kept.spent c token holds)
  · intro c d token first second
    by_cases own : c = tr.task
    · by_cases own' : d = tr.task
      · exact own.trans own'.symm
      · subst own
        rw [Function.update_self] at first
        rw [Function.update_of_ne own'] at second
        exact (once d token first second).symm
    · rw [Function.update_of_ne own] at first
      by_cases own' : d = tr.task
      · subst own'
        rw [Function.update_self] at second
        exact once c token second first
      · rw [Function.update_of_ne own'] at second
        exact kept.once c d token first second

end

/-- What rotation promises of the requests and of the table that they leave. -/
structure Rotated (clients : τ → Client) (reached : Config τ (Database τ Change) (Action τ) Reply PyError (Option RefreshToken)) :
    Prop where
  /-- A token is exchanged by one request. -/
  once : ∀ task task' token new new', clients task = .refresh (some token) → clients task' = .refresh (some token) →
    reached.tasks task = .ret (some new) → reached.tasks task' = .ret (some new') → task = task'
  /-- A family has one unrevoked token. -/
  single : (tableOf reached.shared.committed).Pairwise fun row other =>
    row.familyId = other.familyId → row.revoked = true ∨ other.revoked = true
  /-- A family that was revoked has none. -/
  condemned : ∀ row ∈ tableOf reached.shared.committed, row.familyId ∈ condemned reached.shared.committed →
    row.revoked = true

/-- Rotation in a run in which every refresh revokes a token that is still unrevoked. -/
theorem tokens_rotate (ttl : ℚ) (clients : τ → Client) (schedule : List (τ × Choice))
    (lawful : Throughout (fun _ => Lawful) [] (run (exec ttl) schedule (start ttl clients)).2) :
    Rotated clients (run (exec ttl) schedule (start ttl clients)).1 := by
  have keeps : ∀ (past : List (Step τ)) stages (tr : Step τ) next, Inv stages tr.before → Taken (exec ttl) tr →
      rule tr.task tr.action tr.reply (stages tr.task) = some next → Lawful tr →
      Inv (Function.update stages tr.task next) tr.after :=
    fun _ _ _ _ kept taken allowed lawful => kept.step taken allowed lawful
  have empty : Sound ([] : List Change) := ⟨by simp [tableOf,replay],by simp [tableOf,replay],.nil,by simp [tableOf,replay]⟩
  have initial : Inv (fun _ : τ => Stage.idle) (start ttl clients).shared := by
    refine ⟨empty,empty,fun _ => trivial,?_,?_⟩
    · intro _ _ holds
      contradiction
    · intro _ _ _ holds
      contradiction
  have follows : ∀ task, ((start ttl clients).tasks task).Follows (rule task) .idle (Ended (clients task)) :=
    fun task => client_follows (clients task) task
  obtain ⟨stages,inv,ends⟩ := run_keeps (J := fun _ => Inv) keeps schedule (start ttl clients) [] (fun _ => Stage.idle)
    initial follows lawful
  refine ⟨?_,inv.committed.single,inv.committed.condemned⟩
  intro task task' token new new' own own' returned returned'
  have first := ends task
  have second := ends task'
  rw [returned] at first
  rw [returned'] at second
  have stage : stages task = .exchanged token := first token new own rfl
  have stage' : stages task' = .exchanged token := second token new' own' rfl
  exact inv.once task task' token (by rw [stage]; rfl) (by rw [stage']; rfl)

def issued : RefreshToken := ⟨"u1","f1","t1"⟩

def browsers : Nat → Client
  | 0 => .login "u1"
  | _ => .refresh (some issued)

def drawing (fresh : String) : Choice := ⟨.none,0,fresh,"f1",some true⟩

def inTurn : List (Nat × Choice) :=
  (0,drawing "t1") :: List.replicate 10 (1,drawing "t2") ++ List.replicate 6 (2,drawing "t3")

theorem tokens_rotate_in_turn : Rotated browsers (run (exec 100) inTurn (start 100 browsers)).1 :=
  tokens_rotate 100 browsers inTurn (by decide +kernel)

def atOnce : List (Nat × Choice) :=
  [(0,drawing "t1"),(1,drawing "t2"),(2,drawing "t3")] ++ List.replicate 9 (1,drawing "t2") ++
    List.replicate 9 (2,drawing "t3")

/-- Both requests have read the token before either revokes it. -/
theorem both_exchange : ¬∀ (ttl : ℚ) (clients : Nat → Client) (schedule : List (Nat × Choice)),
    Rotated clients (run (exec ttl) schedule (start ttl clients)).1 := by
  intro claim
  have single := (claim 100 browsers atOnce).single
  revert single
  decide +kernel

end Vigile.Refresh
