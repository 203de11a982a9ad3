import Vigile.ProposalSettled
import Vigile.RunHistory

/-! The read-only queries behind a profile: each is recorded as a proposal that nobody has to
approve. What its row says when the query has ended, and when the startup reconciliation
would dispatch it again. -/
namespace Vigile.Proposals

open Interleaving Python NodeManager

variable (py : Builtins)

/-- `ALLOWED_ACTIONS`, sorted as the refusal lists them. -/
def allowedActions : List String :=
  ["DISK_SCAN","GET_STATS","LIST_CONTAINERS","LIST_LOG_FILES","LIST_LOG_SOURCES","LIST_SERVICES",
    "LIST_STATS","LOG_HISTOGRAM","READ_LOGS","READ_LOGS_SERVICE","STATUS_SERVICE"]

def query (nodeId action : String) (params : Fields) (timeout : Option ℚ) : Task Fields := do
  if action ∉ allowedActions then
    let allowed := String.intercalate ", " (allowedActions.map fun name => s!"'{name}'")
    throw (.valueError
      s!"Action '{action}' is not allowed via WorkerQueryPort. Allowed actions: [{allowed}]")
  let connected ← nm (.isConnected nodeId)
  if !connected then
    throw (.runtimeError s!"Node {nodeId} is not connected")
  let intentId ← uuid
  sendIntent nm py.floatText nodeId ⟨action,params,intentId,none⟩ timeout none

/-- The `try` statement: only a caught failure completes the proposal. -/
def queried (proposal : ActionProposal) (timeout : ℚ) : Task (ActionProposal × Fields) := do
  try
    let result ← query py proposal.nodeId proposal.action proposal.params (some timeout)
    pure (proposal,result)
  catch error =>
    if isCaught error then
      let now ← clock
      let failed ← Prog.ofExcept (proposal.complete false [("error",.str error.text)] now)
      pure (failed,[("success",.bool false),("error",.str error.text)])
    else
      throw error

def autoProfilingIntent (nodeId action : String) (params : Fields) (timeout : ℚ) : Task Fields := do
  let id ← uuid
  let createdAt ← clock
  let updatedAt ← clock
  let proposal : ActionProposal := ⟨id,nodeId,action,params,
    "Profiling intent (auto-approved, read-only).","LOW",.approved,"insights",some "system",none,none,
    createdAt,updatedAt,none,none,none,none,none⟩
  insertProposal id proposal.toDbDict
  let (proposal,result) ← queried py proposal timeout
  update (.completion id proposal.toDbDict)
  logAction ⟨"system","AUTOMATION_TRIGGERED",some nodeId,
    [("proposal_id",.str id),("action",.str action),("status",.str proposal.status.text)]⟩
  return result

variable {py} {τ : Type}

/-- The query ends here with a RuntimeError or a TimeoutError. -/
def unanswered (tr : Step τ) : Bool :=
  match tr.action,tr.reply with
  | .nm (.isConnected _),.ok connected => !connected
  | .nm _,.error error => isCaught error
  | _,_ => false

def writes (tr : Step τ) : Bool :=
  match tr.action with
  | .update _ => tr.choice.fault.takesEffect
  | _ => false

/-- The row of that proposal is new. -/
def inserts (id : String) (tr : Step τ) : Bool :=
  match tr.action with
  | .insertProposal _ _ =>
    (tr.before.proposals.get? id).isNone && (tr.after.proposals.get? id).isSome
  | _ => false

/-- The row says how the run ended. -/
def Accounted (id : String) (result : Except PyError Fields) (s : State) : Prop :=
  ∃ row, s.proposals.get? id = some row ∧
    match result with
    | .ok answer => row.status = if succeeded answer then .executed else .failed
    | .error _ => row.status = .executed ∨ row.status = .failed

/-- The reconciliation of the next start would dispatch the proposal. -/
def Redispatchable (id : String) (s : State) : Prop :=
  ∃ row, s.proposals.get? id = some row ∧ claimable row = true

structure Stage (id : String) (row : ProposalRow) (failed : Bool)
    (s : Recorded τ Outside State Act Act.Reply PyError) : Prop where
  row : s.1.proposals.get? id = some row
  failed : (∃ tr ∈ s.2, unanswered tr = true) ↔ failed = true
  unwritten : ∀ tr ∈ s.2, writes tr = false

/-- The others leave the row alone. -/
def Spares (id : String) (s s' : State) : Prop := s'.proposals.get? id = s.proposals.get? id

variable {id : String} {row : ProposalRow} {failed : Bool} {task : τ}
  {s : Recorded τ Outside State Act Act.Reply PyError}

theorem Stage.step (stage : Stage id row failed s) (tr : Step τ) (taken : Taken exec tr)
    (spared : Spares id s.1 tr.before) (kept : tr.after.proposals = tr.before.proposals)
    (unwritten : writes tr = false) : Stage id row (failed || unanswered tr) (tr.after,s.2 ++ [tr]) := by
  refine ⟨?_,?_,?_⟩
  · rw [kept]
    exact spared.trans stage.row
  · simp [List.mem_singleton,or_and_right,exists_or,stage.failed]
  · intro other member
    rcases List.mem_append.mp member with earlier | last
    · exact stage.unwritten other earlier
    · obtain rfl := List.mem_singleton.mp last
      exact unwritten

def Act.plain : Act → Bool
  | .nm _ | .clock | .uuid | .logAction _ => true
  | _ => false

theorem kept_of_plain (tr : Step τ) (taken : Taken exec tr) (plain : tr.action.plain = true) :
    tr.after.proposals = tr.before.proposals ∧ writes tr = false := by
  have unwritten : writes tr = false := by
    unfold writes
    split
    · rename_i action
      rw [action] at plain
      contradiction
    · rfl
  cases tableStep_of_taken taken with
  | same _ unchanged => exact ⟨unchanged,unwritten⟩
  | inserted id data action | claimed id dispatchId intentId expiresAt now action => rw [action] at plain; contradiction
  | updated update action => rw [action] at plain; contradiction

theorem Stage.plain (stage : Stage id row failed s) (tr : Step τ) (taken : Taken exec tr)
    (spared : Spares id s.1 tr.before) (plain : tr.action.plain = true) :
    Stage id row (failed || unanswered tr) (tr.after,s.2 ++ [tr]) :=
  stage.step tr taken spared (kept_of_plain tr taken plain).1 (kept_of_plain tr taken plain).2

/-- The clock and the new ids, which nothing disturbs. -/
theorem Stage.instant {act : Act} (stage : Stage id row failed s) (plain : act.plain = true)
    (instant : ∀ outside s, ∃ value, exec act outside s = some (s,.ok value))
    (other : ∀ act', act ≠ .nm act') :
    Amid exec (Spares id) task (Prog.perform act) s fun result s' =>
      result.isOk = true ∧ Stage id row failed s' := by
  apply Amid.perform
  intro before choice s' reply spared done
  have stage' := stage.plain ⟨task,act,choice,before,reply,s'⟩ done spared plain
  obtain ⟨value,replies⟩ := instant choice before
  rw [replies] at done
  obtain ⟨rfl,rfl⟩ := Prod.mk.inj (Option.some.inj done)
  have quiet : unanswered (τ := τ) ⟨task,act,choice,before,.ok value,before⟩ = false := by
    cases act with
    | nm act => exact absurd rfl (other act)
    | _ => rfl
  rw [quiet,Bool.or_false] at stage'
  exact ⟨rfl,stage'⟩

theorem Stage.clock (stage : Stage id row failed s) :
    Amid exec (Spares id) task Proposals.clock s fun result s' =>
      result.isOk = true ∧ Stage id row failed s' :=
  stage.instant rfl (fun outside _ => ⟨outside.now,rfl⟩) fun _ => by simp

theorem Stage.uuid (stage : Stage id row failed s) :
    Amid exec (Spares id) task Proposals.uuid s fun result s' =>
      result.isOk = true ∧ Stage id row failed s' :=
  stage.instant rfl (fun outside _ => ⟨outside.fresh,rfl⟩) fun _ => by simp

/-- What is left of the query after a step of it. -/
def Answers (id : String) (row : ProposalRow) {α : Type} :
    Except PyError α → Recorded τ Outside State Act Act.Reply PyError → Prop
  | .ok _,s => Stage id row false s
  | .error error,s => Stage id row (isCaught error) s

theorem Stage.asks (stage : Stage id row false s) (act : NodeManager.Act)
    (other : ∀ nodeId, act ≠ .isConnected nodeId) :
    Amid exec (Spares id) task (nm act) s (Answers id row) := by
  apply Amid.perform
  intro before choice s' reply spared done
  have stage' := stage.plain ⟨task,.nm act,choice,before,reply,s'⟩ done spared rfl
  rw [Bool.false_or] at stage'
  cases reply with
  | ok value =>
    have goesOn : unanswered (τ := τ) ⟨task,.nm act,choice,before,.ok value,s'⟩ = false := by
      cases act with
      | isConnected nodeId => exact absurd rfl (other nodeId)
      | _ => rfl
    rwa [goesOn] at stage'
  | error error =>
    have ends : unanswered (τ := τ) ⟨task,.nm act,choice,before,.error error,s'⟩ = isCaught error := by
      cases act <;> rfl
    rwa [ends] at stage'

theorem Stage.isConnected (stage : Stage id row false s) (nodeId : String) :
    Amid exec (Spares id) task (nm (.isConnected nodeId)) s fun
      | .ok connected,s' => Stage id row (!connected) s'
      | .error error,s' => Stage id row (isCaught error) s' := by
  apply Amid.perform
  intro before choice s' reply spared done
  have stage' := stage.plain ⟨task,.nm (.isConnected nodeId),choice,before,reply,s'⟩ done spared rfl
  cases reply <;> exact stage'

theorem Stage.closeIntent (stage : Stage id row failed s) (intentId : String) :
    Amid exec (Spares id) task (nm (.closeIntent intentId)) s fun result s' =>
      result.isOk = true ∧ Stage id row failed s' := by
  apply Amid.perform
  intro before choice s' reply spared done
  have stage' := stage.plain ⟨task,.nm (.closeIntent intentId),choice,before,reply,s'⟩ done spared rfl
  obtain ⟨rfl,rfl⟩ := Prod.mk.inj (Option.some.inj done)
  refine ⟨rfl,?_⟩
  have unfailed : Stage id row (failed || false) _ := stage'
  rwa [Bool.or_false] at unfailed

theorem Stage.sendIntent (stage : Stage id row false s) (floatText : ℚ → String) (nodeId : String)
    (intent : Intent) (timeout maxAge : Option ℚ) :
    Amid exec (Spares id) task (NodeManager.sendIntent nm floatText nodeId intent timeout maxAge) s
      (Answers id row) := by
  apply Amid.bind (stage.asks .defaultTimeout (by simp))
  · intro default s₁ stage₁
    apply Amid.bind (Stage.asks stage₁ (.openIntent nodeId intent maxAge) (by simp))
    · rintro ⟨websocket,future⟩ s₂ stage₂
      apply Amid.bind (Stage.asks stage₂ (.sendIntent websocket intent) (by simp))
      · intro _ s₃ stage₃
        refine Amid.ensure (?_ : Amid exec (Spares id) task _ s₃ (Answers id row)) ?_
        · apply Amid.attempt (Stage.asks stage₃ (.awaitFuture future) (by simp))
          · intro _ _ answered
            exact answered
          · intro error s₄ failed
            split
            · exact failed
            · exact failed
        · rintro (error | value) s₄ answered
          all_goals
            apply (Stage.closeIntent answered intent.intentId).mono
            rintro (_ | _) s₅ ⟨closed,stage₅⟩
            · contradiction
            · exact stage₅
      · intro _ _ failed
        exact failed
    · intro _ _ failed
      exact failed
  · intro _ _ failed
    exact failed

theorem Stage.query (stage : Stage id row false s) (nodeId action : String) (params : Fields)
    (timeout : Option ℚ) :
    Amid exec (Spares id) task (Proposals.query py nodeId action params timeout) s (Answers id row) := by
  unfold Proposals.query
  split
  · exact stage
  · apply Amid.bind (stage.isConnected nodeId)
    · intro connected s₁ stage₁
      dsimp only at stage₁
      cases connected with
      | false => exact stage₁
      | true =>
        apply Amid.bind (Stage.uuid stage₁)
        · rintro intentId s₂ ⟨_,stage₂⟩
          exact Stage.sendIntent stage₂ _ _ _ _ _
        · rintro _ _ ⟨impossible,_⟩
          contradiction
    · intro _ _ failed
      exact failed

/-- The outcome of the `try` statement: the proposal is completed where the query failed. -/
def Tried (id : String) (row : ProposalRow) :
    Except PyError (ActionProposal × Fields) → Recorded τ Outside State Act Act.Reply PyError → Prop
  | .ok (proposal,result),s => ∃ failed, Stage id row failed s ∧
      proposal.status = (if failed then .failed else .approved) ∧ (failed = true → succeeded result = false)
  | .error _,s => Stage id row false s

theorem Stage.queried (stage : Stage id row false s) {proposal : ActionProposal} (timeout : ℚ)
    (approved : proposal.status = .approved) :
    Amid exec (Spares id) task (Proposals.queried py proposal timeout) s (Tried id row) := by
  have answers : Amid exec (Spares id) task (do
      let result ← Proposals.query py proposal.nodeId proposal.action proposal.params (some timeout)
      pure (proposal,result)) s fun
        | .ok (proposal',_),s' => proposal' = proposal ∧ Stage id row false s'
        | .error error,s' => Stage id row (isCaught error) s' := by
    apply Amid.bind (stage.query proposal.nodeId proposal.action proposal.params (some timeout))
    · intro result s₁ stage₁
      exact ⟨rfl,stage₁⟩
    · intro _ _ failed
      exact failed
  apply Amid.attempt answers
  · rintro ⟨_,result⟩ s₁ ⟨rfl,stage₁⟩
    exact ⟨false,stage₁,approved,by simp⟩
  · intro error s₁ failed
    dsimp only at failed
    split
    · rename_i caught
      rw [caught] at failed
      apply Amid.bind (Stage.clock failed)
      · rintro now s₂ ⟨_,stage₂⟩
        have completes : proposal.complete false [("error",.str error.text)] now =
            .ok {proposal with
              status := .failed
              executedAt := some now
              result := some [("error",.str error.text)]
              updatedAt := now} := by
          simp [ActionProposal.complete,approved]
        rw [completes]
        exact ⟨true,stage₂,rfl,fun _ => rfl⟩
      · rintro _ _ ⟨impossible,_⟩
        contradiction
    · rename_i uncaught
      rw [Bool.not_eq_true] at uncaught
      rw [uncaught] at failed
      exact failed

/-- What the theorem says of a run that has ended. -/
def Judged (id : String) (result : Except PyError Fields)
    (s : Recorded τ Outside State Act Act.Reply PyError) : Prop :=
  (Accounted id result s.1 ↔
    (∃ tr ∈ s.2, unanswered tr = true) ∧ ∃ tr ∈ s.2, writes tr = true) ∧
  (Accounted id result s.1 ∨ Redispatchable id s.1)

theorem not_accounted_of_approved {result : Except PyError Fields} {s : State}
    (found : s.proposals.get? id = some row) (approved : row.status = .approved) :
    ¬Accounted id result s := by
  rintro ⟨row',found',accounts⟩
  rw [found] at found'
  obtain rfl := Option.some.inj found'
  rw [approved] at accounts
  cases result with
  | ok answer =>
    dsimp only at accounts
    split at accounts <;> contradiction
  | error error => simp at accounts

/-- A run that ends before its UPDATE leaves the row as it inserted it. -/
theorem Stage.judged (stage : Stage id row failed s) (claimable : claimable row = true)
    (result : Except PyError Fields) : Judged id result s := by
  have approved : row.status = .approved := by
    simp only [Proposals.claimable,Bool.decide_and,Bool.and_eq_true,decide_eq_true_eq] at claimable
    exact claimable.2
  refine ⟨⟨fun accounted => absurd accounted (not_accounted_of_approved stage.row approved),?_⟩,
    .inr ⟨row,stage.row,claimable⟩⟩
  rintro ⟨_,tr,member,wrote⟩
  rw [stage.unwritten tr member] at wrote
  contradiction

structure Written (id : String) (failed : Bool) (s : Recorded τ Outside State Act Act.Reply PyError) :
    Prop where
  row : ∃ row, s.1.proposals.get? id = some row ∧
    row.status = (if failed then .failed else .approved) ∧ row.dispatchId = none
  failed : (∃ tr ∈ s.2, unanswered tr = true) ↔ failed = true
  written : ∃ tr ∈ s.2, writes tr = true

theorem Written.judged (written : Written id failed s) {result : Except PyError Fields}
    (unsuccessful : ∀ answer, result = .ok answer → failed = true → succeeded answer = false) :
    Judged id result s := by
  obtain ⟨row,found,status,undispatched⟩ := written.row
  cases failed with
  | false =>
    have unfailed : ¬∃ tr ∈ s.2, unanswered tr = true := by simp [written.failed]
    refine ⟨⟨fun accounted => absurd accounted (not_accounted_of_approved found status),?_⟩,
      .inr ⟨row,found,by simpa [claimable,undispatched] using status⟩⟩
    rintro ⟨failed,_⟩
    exact absurd failed unfailed
  | true =>
    have accounted : Accounted id result s.1 := by
      refine ⟨row,found,?_⟩
      cases result with
      | ok answer =>
        dsimp only
        rw [status,unsuccessful answer rfl rfl]
        rfl
      | error error => exact .inr status
    exact ⟨⟨fun _ => ⟨written.failed.mpr rfl,written.written⟩,fun _ => accounted⟩,.inl accounted⟩

theorem Stage.completion (stage : Stage id row failed s) (claimable : claimable row = true)
    {proposal : ActionProposal} (status : proposal.status = if failed then .failed else .approved) :
    Amid exec (Spares id) task (update (.completion id proposal.toDbDict)) s fun
      | .ok _,s' => Written id failed s'
      | .error _,s' => Written id failed s' ∨ Stage id row failed s' := by
  apply Amid.perform
  intro before choice s' reply spared done
  have answered : unanswered (τ := τ)
      ⟨task,.update (.completion id proposal.toDbDict),choice,before,reply,s'⟩ = false := rfl
  cases takes : choice.fault.takesEffect with
  | false =>
    have unwritten : writes (τ := τ)
        ⟨task,.update (.completion id proposal.toDbDict),choice,before,reply,s'⟩ = false := takes
    have unchanged : s' = before := by
      have struck := congrArg Prod.fst (Option.some.inj done)
      rw [strike_fst,takes] at struck
      exact struck.symm
    have stage' := stage.step ⟨task,.update (.completion id proposal.toDbDict),choice,before,reply,s'⟩
      done spared (by rw [unchanged]) unwritten
    rw [answered,Bool.or_false] at stage'
    cases reply with
    | ok value =>
      have calm := (strike_ok (Option.some.inj done)).1
      rw [calm] at takes
      contradiction
    | error error => exact .inr stage'
  | true =>
    have after : s'.proposals = (StatusUpdate.completion id proposal.toDbDict).run before.proposals := by
      have struck := congrArg Prod.fst (Option.some.inj done)
      rw [strike_fst,takes,if_pos rfl] at struck
      rw [show s' = _ from struck.symm]
      rfl
    have found : before.proposals.get? id = some row := spared.trans stage.row
    have undispatched : row.dispatchId = none := by
      simp only [Proposals.claimable,Bool.decide_and,Bool.and_eq_true,decide_eq_true_eq] at claimable
      exact claimable.1
    have written : Written (τ := τ) id failed (s',s.2 ++
        [⟨task,.update (.completion id proposal.toDbDict),choice,before,reply,s'⟩]) := by
      refine ⟨⟨(StatusUpdate.completion id proposal.toDbDict).apply row,?_,?_,?_⟩,?_,⟨_,
        List.mem_append_right _ (List.mem_singleton.mpr rfl),takes⟩⟩
      · rw [after]
        simp [StatusUpdate.run,StatusUpdate.selects,found]
      · rw [StatusUpdate.apply_status]
        exact status
      · rw [StatusUpdate.apply_dispatchId,undispatched]
      · simp [List.mem_singleton,or_and_right,exists_or,stage.failed,answered]
    cases reply with
    | ok value => exact written
    | error error => exact .inl written

theorem Written.logs (written : Written id failed s) (entry : AuditEntry) :
    Amid exec (Spares id) task (logAction entry) s fun _ s' => Written id failed s' := by
  apply Amid.perform
  intro before choice s' reply spared done
  have kept := (kept_of_plain ⟨task,.logAction entry,choice,before,reply,s'⟩ done rfl).1
  obtain ⟨row,found,rest⟩ := written.row
  obtain ⟨tr,member,wrote⟩ := written.written
  refine ⟨⟨row,?_,rest⟩,?_,⟨tr,List.mem_append_left _ member,wrote⟩⟩
  · exact (congrArg (OrderedMap.get? · id) kept).trans (spared.trans found)
  · have answered : unanswered (τ := τ) ⟨task,.logAction entry,choice,before,reply,s'⟩ = false := rfl
    simp [List.mem_singleton,or_and_right,exists_or,written.failed,answered]

/-- Before the INSERT. -/
def Opening (id : String) (s : Recorded τ Outside State Act Act.Reply PyError) : Prop :=
  ∀ tr ∈ s.2, unanswered tr = false ∧ writes tr = false ∧ inserts id tr = false

theorem Opening.snoc (opening : Opening id s) (tr : Step τ) (answered : unanswered tr = false)
    (unwritten : writes tr = false) (uninserted : inserts id tr = false) :
    Opening id (tr.after,s.2 ++ [tr]) := by
  intro other member
  rcases List.mem_append.mp member with earlier | last
  · exact opening other earlier
  · obtain rfl := List.mem_singleton.mp last
    exact ⟨answered,unwritten,uninserted⟩

theorem Opening.clock (opening : Opening id s) :
    Amid exec (Spares id) task Proposals.clock s fun result s' =>
      result.isOk = true ∧ Opening id s' := by
  apply Amid.perform
  intro before choice s' reply _ done
  obtain ⟨rfl,rfl⟩ := Prod.mk.inj (Option.some.inj done)
  exact ⟨rfl,opening.snoc _ rfl rfl rfl⟩

/-- The INSERT either brings the row or leaves nothing to judge. -/
theorem Opening.insert (opening : Opening id s) (row : ProposalRow) :
    Amid exec (Spares id) task (insertProposal id row) s fun
      | .ok _,s' => Stage id row false s'
      | .error _,s' => Stage id row false s' ∨ ¬∃ tr ∈ s'.2, inserts id tr = true := by
  apply Amid.perform
  intro before choice s' reply _ done
  have uninserted : inserts (τ := τ) id ⟨task,.insertProposal id row,choice,before,reply,s'⟩ = false →
      ¬∃ tr ∈ s.2 ++ [⟨task,.insertProposal id row,choice,before,reply,s'⟩], inserts id tr = true := by
    rintro missed ⟨tr,member,inserted⟩
    rw [(opening.snoc ⟨task,.insertProposal id row,choice,before,reply,s'⟩ rfl rfl missed tr
      member).2.2] at inserted
    contradiction
  have struck := Option.some.inj done
  have unchanged : s' = before → Stage (τ := τ) id row false (s',s.2 ++
      [⟨task,.insertProposal id row,choice,before,reply,s'⟩]) ∨ ¬∃ tr ∈ s.2 ++
        [⟨task,.insertProposal id row,choice,before,reply,s'⟩], inserts id tr = true := by
    intro same
    refine .inr (uninserted ?_)
    rw [same]
    simp only [inserts]
    cases before.proposals.get? id <;> rfl
  cases known : before.proposals.get? id with
  | some old =>
    have refused : effect before choice (.insertProposal id row) =
        (before,.error (.integrityError "UNIQUE constraint failed: action_proposals.id")) := by
      simp only [effect,known]
    rw [refused] at struck
    cases reply with
    | ok value => exact absurd (strike_ok struck).2 (by simp)
    | error error => exact unchanged ((congrArg Prod.fst struck).symm.trans (strike_fixed rfl))
  | none =>
    have stored : effect before choice (.insertProposal id row) =
        ({before with proposals := before.proposals.set id row},.ok ()) := by
      simp only [effect,known]
    rw [stored] at struck
    cases takes : choice.fault.takesEffect with
    | false =>
      have state := congrArg Prod.fst struck
      rw [strike_fst,takes] at state
      cases reply with
      | ok value =>
        rw [(strike_ok struck).1] at takes
        contradiction
      | error error => exact unchanged state.symm
    | true =>
      have state := congrArg Prod.fst struck
      rw [strike_fst,takes,if_pos rfl] at state
      have found : s'.proposals.get? id = some row := by
        rw [show s' = _ from state.symm]
        exact OrderedMap.get?_set_self
      have stage : Stage (τ := τ) id row false
          (s',s.2 ++ [⟨task,.insertProposal id row,choice,before,reply,s'⟩]) := by
        refine ⟨found,?_,?_⟩
        · simp only [Bool.false_eq_true,iff_false]
          rintro ⟨tr,member,failed⟩
          rcases List.mem_append.mp member with earlier | last
          · rw [(opening tr earlier).1] at failed
            contradiction
          · obtain rfl := List.mem_singleton.mp last
            contradiction
        · intro tr member
          rcases List.mem_append.mp member with earlier | last
          · exact (opening tr earlier).2.1
          · obtain rfl := List.mem_singleton.mp last
            rfl
      cases reply with
      | ok value => exact stage
      | error error => exact .inl stage

/-- The id of the proposal is drawn first, and the row judged that the INSERT brings. -/
def Owed (id : String) (result : Except PyError Fields)
    (s : Recorded τ Outside State Act Act.Reply PyError) : Prop :=
  (s.2.head?.map fun tr => tr.choice.fresh) = some id →
    (∃ tr ∈ s.2, inserts id tr = true) → Judged id result s

theorem autoProfilingIntent_owes (nodeId action : String) (params : Fields) (timeout : ℚ) (s₀ : State) :
    Amid exec (Spares id) task (autoProfilingIntent py nodeId action params timeout) (s₀,[])
      (Owed id) := by
  have draws : Amid exec (Spares id) task Proposals.uuid (s₀,[]) fun result s =>
      ∃ tr, s.2 = [tr] ∧ result = .ok tr.choice.fresh ∧ Opening id s := by
    apply Amid.perform
    intro before choice s' reply _ done
    obtain ⟨rfl,rfl⟩ := Prod.mk.inj (Option.some.inj done)
    refine ⟨_,rfl,rfl,?_⟩
    intro tr member
    obtain rfl := List.mem_singleton.mp member
    exact ⟨rfl,rfl,rfl⟩
  apply Amid.bind draws
  · rintro drawn s₁ ⟨tr,only,named,opening⟩
    by_cases own : tr.choice.fresh = id
    · obtain rfl : drawn = id := (Except.ok.inj named).trans own
      apply Amid.bind (Opening.clock opening)
      · rintro createdAt s₂ ⟨_,opening₂⟩
        apply Amid.bind (Opening.clock opening₂)
        · rintro updatedAt s₃ ⟨_,opening₃⟩
          apply Amid.bind (Opening.insert opening₃ _)
          · intro _ s₄ stage
            apply Amid.bind (Stage.queried stage timeout rfl)
            · rintro ⟨proposal,result⟩ s₅ ⟨failed,stage₅,status,unsuccessful⟩
              apply Amid.bind (stage₅.completion rfl status)
              · intro _ s₆ written
                apply Amid.bind (Written.logs written _)
                · intro _ s₇ written₇ _ _
                  apply written₇.judged
                  rintro answer ⟨⟩
                  exact unsuccessful
                · intro error s₇ written₇ _ _
                  exact written₇.judged (by simp)
              · rintro error s₆ (written | stage₆) _ _
                · exact written.judged (by simp)
                · exact stage₆.judged rfl _
            · intro error s₅ stage₅ _ _
              exact Stage.judged stage₅ rfl _
          · rintro error s₄ (stage | nothing) _ inserted
            · exact stage.judged rfl _
            · exact absurd inserted nothing
        · rintro _ _ ⟨impossible,_⟩
          contradiction
      · rintro _ _ ⟨impossible,_⟩
        contradiction
    · apply (Amid.extends _ s₁).mono
      intro result s later named
      rw [only] at later
      obtain ⟨rest,whole⟩ := later
      rw [← whole] at named
      exact absurd (Option.some.inj named) own
  · rintro _ _ ⟨_,_,impossible,_⟩
    contradiction

theorem accounted_of_spares {s s' : State} (spared : Spares id s s') {result : Except PyError Fields} :
    Accounted id result s' ↔ Accounted id result s := by
  unfold Accounted
  rw [show s'.proposals.get? id = _ from spared]

theorem redispatchable_of_spares {s s' : State} (spared : Spares id s s') :
    Redispatchable id s' ↔ Redispatchable id s := by
  unfold Redispatchable
  rw [show s'.proposals.get? id = _ from spared]

/-- Among any other tasks that leave its row alone, the run accounts for the proposal it
inserted if and only if its query fails with a RuntimeError or a TimeoutError and its UPDATE
has an effect. Otherwise the row is one the startup reconciliation dispatches. -/
theorem autoProfilingIntent_accounted_iff [DecidableEq τ] (py : Builtins) (task : τ)
    (cfg : Config τ State Act Act.Reply PyError Fields) (schedule : List (τ × Outside))
    (nodeId action : String) (params : Fields) (timeout : ℚ) (id : String)
    (result : Except PyError Fields)
    (own : cfg.tasks task = autoProfilingIntent py nodeId action params timeout)
    (others : ∀ tr ∈ (run exec schedule cfg).2, tr.task ≠ task →
      tr.after.proposals.get? id = tr.before.proposals.get? id)
    (returned : ((run exec schedule cfg).1.tasks task).outcome = some result)
    (named : ((ownSteps task (run exec schedule cfg).2).head?.map fun tr => tr.choice.fresh) = some id)
    (inserted : ∃ tr ∈ ownSteps task (run exec schedule cfg).2, inserts id tr = true) :
    (Accounted id result (run exec schedule cfg).1.shared ↔
      (∃ tr ∈ ownSteps task (run exec schedule cfg).2, unanswered tr = true) ∧
        ∃ tr ∈ ownSteps task (run exec schedule cfg).2, writes tr = true) ∧
    (Accounted id result (run exec schedule cfg).1.shared ∨
      Redispatchable id (run exec schedule cfg).1.shared) := by
  have owes : Amid exec (Spares id) task (cfg.tasks task) (cfg.shared,[]) (Owed id) := by
    rw [own]
    exact autoProfilingIntent_owes nodeId action params timeout cfg.shared
  have refl : ∀ s, Spares id s s := fun _ => rfl
  have trans : ∀ a b c, Spares id a b → Spares id b c → Spares id a c :=
    fun _ _ _ first second => Eq.trans second first
  obtain ⟨s₁,spared,left⟩ := run_amid refl trans schedule cfg cfg.shared [] owes (refl _) others
  rw [List.nil_append] at left
  have judged : Judged id result (s₁,ownSteps task (run exec schedule cfg).2) :=
    left.ended returned named inserted
  rw [accounted_of_spares spared,redispatchable_of_spares spared]
  exact judged

/-! A worker that answers, and a node that is not connected -/

def profiledNode : NodeManager := (NodeManager.started 30 300).registerConnection "n1" 0 0 "10.0.0.1"

/-- The query, and the session of the worker that answers it. -/
def profiling : Config Bool State Act Act.Reply PyError Fields :=
  ⟨⟨.empty,profiledNode,[]⟩,fun
    | true => autoProfilingIntent plainBuiltins "n1" "LIST_SERVICES" [] 8
    | false => do
      nm (.resolveIntent "i1" [("success",.bool true)])
      return []⟩

def answeredProfiling : Config Bool State Act Act.Reply PyError Fields × List (Step Bool) :=
  run exec ((true,fresh "p1") :: List.replicate 4 (true,calm) ++
    (true,fresh "i1") :: List.replicate 3 (true,calm) ++
    (false,calm) :: List.replicate 4 (true,calm)) profiling

def workersAnswer : Except PyError Fields := .ok [("success",.bool true)]

theorem answeredProfiling_ends : (answeredProfiling.1.tasks true).outcome = some workersAnswer := by
  rfl

theorem answeredProfiling_inserts :
    ∃ tr ∈ ownSteps true answeredProfiling.2, inserts "p1" tr = true := by
  decide +kernel

theorem answeredProfiling_spares : ∀ tr ∈ answeredProfiling.2, tr.task ≠ true →
    tr.after.proposals.get? "p1" = tr.before.proposals.get? "p1" := by
  have plain : ∀ tr ∈ answeredProfiling.2, tr.task ≠ true → tr.action.plain = true := by decide +kernel
  intro tr member other
  rw [(kept_of_plain tr (run_taken _ _ tr member) (plain tr member other)).1]

/-- The worker has answered with success, and the proposal is still APPROVED. -/
theorem answeredProfiling_unaccounted : ¬∀ (py : Builtins) (task : Bool)
    (cfg : Config Bool State Act Act.Reply PyError Fields) (schedule : List (Bool × Outside))
    (nodeId action : String) (params : Fields) (timeout : ℚ) (id : String)
    (result : Except PyError Fields),
    cfg.tasks task = autoProfilingIntent py nodeId action params timeout →
    (∀ tr ∈ (run exec schedule cfg).2, tr.task ≠ task →
      tr.after.proposals.get? id = tr.before.proposals.get? id) →
    ((run exec schedule cfg).1.tasks task).outcome = some result →
    ((ownSteps task (run exec schedule cfg).2).head?.map fun tr => tr.choice.fresh) = some id →
    (∃ tr ∈ ownSteps task (run exec schedule cfg).2, inserts id tr = true) →
      Accounted id result (run exec schedule cfg).1.shared := by
  intro always
  have accounted : Accounted "p1" workersAnswer answeredProfiling.1.shared :=
    always plainBuiltins true profiling _ "n1" "LIST_SERVICES" [] 8 "p1" workersAnswer rfl
      answeredProfiling_spares answeredProfiling_ends (by decide +kernel) answeredProfiling_inserts
  have approved : statusOf answeredProfiling.1.shared.proposals "p1" = some .approved := by
    decide +kernel
  unfold statusOf at approved
  obtain ⟨row,found,status⟩ := Option.map_eq_some_iff.mp approved
  exact not_accounted_of_approved found status accounted

theorem answeredProfiling_accounted_iff :
    (Accounted "p1" workersAnswer answeredProfiling.1.shared ↔
      (∃ tr ∈ ownSteps true answeredProfiling.2, unanswered tr = true) ∧
        ∃ tr ∈ ownSteps true answeredProfiling.2, writes tr = true) ∧
    (Accounted "p1" workersAnswer answeredProfiling.1.shared ∨
      Redispatchable "p1" answeredProfiling.1.shared) :=
  autoProfilingIntent_accounted_iff plainBuiltins true profiling _ "n1" "LIST_SERVICES" [] 8 "p1"
    workersAnswer rfl answeredProfiling_spares answeredProfiling_ends (by decide +kernel)
    answeredProfiling_inserts

end Vigile.Proposals
