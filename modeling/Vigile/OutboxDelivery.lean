import Vigile.OutboxHistory

/-! No entry of the outbox is lost in a run in which no sweep leaves its claim behind. -/
namespace Vigile.Outbox

open Interleaving Python

variable {η τ : Type}

section
variable [DecidableEq τ] (registry : Registry η)

def Unaborted (tr : Step τ η) : Prop :=
  match tr.action,tr.reply with
  | .claim _ entry,.error _ => Effective tr = true → (tr.before.rows.get? entry.id).any (·.stage = .pending) = false
  | .handle _ handler _,.error error => error.isException = true ∧ (registry.name handler).isSome = true
  | .readRetryCount _ _,.error _ => False
  | .markProcessed _ _,_ | .deadLetter _ _ _ _,_ | .markRetry _ _ _ _,_ => Effective tr = true
  | .restart,_ => Effective tr = true ∨ ∀ row ∈ tr.before.rows.values, row.stage ≠ .claimed
  | _,_ => True

instance (tr : Step τ η) : Decidable (Unaborted registry tr) :=
  match tr with
  | ⟨_,.claim _ _,_,_,.error _,_⟩ => inferInstanceAs (Decidable (_ → _))
  | ⟨_,.handle _ _ _,_,_,.error _,_⟩ => inferInstanceAs (Decidable (_ ∧ _))
  | ⟨_,.readRetryCount _ _,_,_,.error _,_⟩ => .isFalse id
  | ⟨_,.markProcessed _ _,_,_,_,_⟩ | ⟨_,.deadLetter _ _ _ _,_,_,_,_⟩ | ⟨_,.markRetry _ _ _ _,_,_,_,_⟩ =>
    inferInstanceAs (Decidable (_ = _))
  | ⟨_,.restart,_,_,_,_⟩ => inferInstanceAs (Decidable (_ ∨ _))
  | ⟨_,.claim _ _,_,_,.ok _,_⟩ | ⟨_,.handle _ _ _,_,_,.ok _,_⟩ | ⟨_,.readRetryCount _ _,_,_,.ok _,_⟩ => .isTrue trivial
  | ⟨_,.select _ _,_,_,_,_⟩ | ⟨_,.publish _ _ _ _ _,_,_,_,_⟩ | ⟨_,.cleanup _ _,_,_,_,_⟩ => .isTrue trivial

/-- What the outbox promises of each report and of the clean-up. -/
structure Faithful (past : List (Step τ η)) (tr : Step τ η) : Prop where
  /-- An entry is processed when all handlers for its event have succeeded. -/
  delivered : ∀ epoch id, tr.action = .markProcessed epoch id → ∀ row, tr.before.rows.get? id = some row →
    attempt past tr.task = (registry.handlersFor row.eventType,false)
  /-- Only an attempt in which a handler raised counts as failed. -/
  failed : ∀ epoch id retry error, tr.action = .deadLetter epoch id retry error ∨ tr.action = .markRetry epoch id retry error →
    (attempt past tr.task).2 = true
  /-- An entry is dead-lettered with the attempt that reaches the cap. -/
  capped : ∀ epoch id retry error, tr.action = .deadLetter epoch id retry error →
    (failures past id : Int) + 1 = registry.maxRetries ∧ (retry : Int) = registry.maxRetries
  /-- Clean-up removes what is done with. -/
  cleaned : ∀ id row, tr.before.rows.get? id = some row → tr.after.rows.get? id = none → row.stage = .processed

/-- An entry of the table at some point of a run. -/
structure Standing (reached : Config τ Store (Action η) Reply PyError Unit) (past : List (Step τ η)) (id : Nat)
    (row : Row) : Prop where
  bounded : (row.retryCount : Int) ≤ registry.maxRetries
  counted : row.retryCount = failures past id
  pending : row.stage = .pending → (row.retryCount : Int) < registry.maxRetries
  /-- One sweep that still runs has it. -/
  claimed : row.stage = .claimed → ∃ task, claimant past task = some id ∧ (reached.tasks task).finished = false ∧
    ∀ other, claimant past other = some id → other = task
  processed : row.stage = .processed → settled past id = true

end

section
variable {registry : Registry η} {past : List (Step τ η)} {tr : Step τ η} {modes : τ → Mode η}
  {m : Mode η}

theorem claimedAt_claim (s : Store) (id key : Nat) (present : (s.rows.get? id).isSome = true) :
    (s.update id fun row => {row with stage := .claimed}).claimedAt key = true ↔ s.claimedAt key = true ∨ key = id := by
  unfold Store.claimedAt
  rw [get?_update]
  by_cases same : key = id
  · subst same
    obtain ⟨row,found⟩ := Option.isSome_iff_exists.mp present
    simp [found]
  · cases s.rows.get? key <;> simp [same]

/-- A report takes the claim off. -/
theorem claimedAt_report (s : Store) (id key : Nat) (change : Row → Row) (stages : ∀ row, (change row).stage ≠ .claimed) :
    (s.update id change).claimedAt key = true ↔ s.claimedAt key = true ∧ key ≠ id := by
  unfold Store.claimedAt
  rw [get?_update]
  cases s.rows.get? key with
  | none => simp
  | some row =>
    simp only [Option.map_some,Option.any_some,decide_eq_true_eq]
    split
    · rename_i same
      simp [same,stages]
    · rename_i other
      simp [other]

theorem unclaimed_of_pending {s : Store} {id : Nat} (pending : (s.rows.get? id).any (·.stage = .pending) = true) :
    s.claimedAt id = false := by
  unfold Store.claimedAt
  cases found : s.rows.get? id with
  | none => rfl
  | some row =>
    rw [found] at pending
    have stage : row.stage = .pending := of_decide_eq_true pending
    simp [stage]

theorem expired_processed {before : ℚ} {row : Row} (gone : expired before row = true) : row.stage = .processed := by
  have both := of_decide_eq_true gone
  exact both.1

theorem released_unclaimed (row : Row) : (released row).stage ≠ .claimed := by
  unfold released
  split
  · simp
  · assumption

theorem restart_rows {task : τ} {choice : Choice} {before after : Store} {reply : Except PyError Nat}
    (taken : Taken exec (⟨task,.restart,choice,before,reply,after⟩ : Step τ η)) : after.rows =
      if Effective (⟨task,.restart,choice,before,reply,after⟩ : Step τ η) = true then
        before.rows.modify fun _ row => released row
      else before.rows := by
  obtain ⟨base,struck,⟨_,own⟩ | ⟨rfl,_⟩⟩ := strike_of_taken taken
  · contradiction
  · have rows := congrArg (fun done => done.1.rows) struck
    simp only [strike_fst] at rows
    rw [rows]
    unfold Effective
    split <;> rfl

/-- A failed attempt is reported. -/
theorem Table.failed (kept : Table registry past tr.before) (retry : Nat) {id : Nat} {change : Row → Row} {row : Row}
    (updated : tr.after = tr.before.update id change) (once : ∀ key, failures [tr] key = if key = id then 1 else 0)
    (found : tr.before.rows.get? id = some row) (next : retry = row.retryCount + 1)
    (counted : ∀ row, (change row).retryCount = retry) (bounded : (retry : Int) ≤ registry.maxRetries)
    (stages : (∀ row, (change row).stage = .processed) ∧ reports tr = some (id,true) ∨
      (∀ row, (change row).stage ≠ .processed) ∧ (retry : Int) < registry.maxRetries) :
    Table registry (past ++ [tr]) tr.after := by
  refine kept.changed (fun key row => if key = id then change row else row) ?_ ?_ ?_ ?_ ?_ ?_ ?_
  · intro key
    rw [updated,get?_update]
  · rw [updated,update_issued]
  · intro key new
    have old := kept.numbered id row found
    rw [once,if_neg (by omega)]
  · intro key other here
    rw [once]
    split
    · rename_i same
      subst same
      rw [counted,next,Option.some.inj (here.symm.trans found)]
    · rfl
  · intro key other here
    split
    · rw [counted]
      exact bounded
    · exact kept.bounded key other here
  · intro key other here unprocessed
    split at unprocessed
    · rename_i same
      rw [if_pos same,counted]
      rcases stages with ⟨processed,_⟩ | ⟨_,below⟩
      · exact absurd (processed other) unprocessed
      · exact below
    · rename_i differ
      rw [if_neg differ]
      exact kept.below key other here unprocessed
  · intro key other here processed
    split at processed
    · rename_i same
      rcases stages with ⟨_,reported⟩ | ⟨unprocessed,_⟩
      · exact .inr (same ▸ reported)
      · exact absurd processed (unprocessed other)
    · exact .inl processed

theorem released_retryCount (row : Row) : (released row).retryCount = row.retryCount := by
  unfold released
  split <;> rfl

theorem released_processed (row : Row) : (released row).stage = .processed ↔ row.stage = .processed := by
  unfold released
  split
  · rename_i claimed
    simp [claimed]
  · exact Iff.rfl

/-- Only the clean-up takes rows away. -/
theorem cleaned_processed (taken : Taken exec tr) {id : Nat} {row : Row} (found : tr.before.rows.get? id = some row)
    (gone : tr.after.rows.get? id = none) : row.stage = .processed := by
  have updated : ∀ key (change : Row → Row), (tr.before.update key change).rows.get? id ≠ none := by
    intro key change
    simp [found]
  obtain ⟨task,action,choice,before,reply,after⟩ := tr
  simp only at found gone updated
  cases action with
  | restart =>
    have rows := restart_rows taken
    rw [rows] at gone
    split at gone <;> simp [found] at gone
  | select | handle | readRetryCount =>
    obtain ⟨_,same⟩ := after_of_taken taken rfl
    simp only [answer,ite_self] at same
    simp [same,found] at gone
  | claim own entry =>
    obtain ⟨_,same⟩ := after_of_taken taken rfl
    simp only [answer] at same
    rw [same] at gone
    split at gone
    · split at gone
      · exact absurd gone (updated _ _)
      · simp [found] at gone
    · simp [found] at gone
  | markProcessed | deadLetter | markRetry =>
    obtain ⟨_,same⟩ := after_of_taken taken rfl
    simp only [answer] at same
    rw [same] at gone
    split at gone
    · exact absurd gone (updated _ _)
    · simp [found] at gone
  | publish own eventType aggregateId aggregateType payloadJson =>
    obtain ⟨_,same⟩ := after_of_taken taken rfl
    simp only [answer] at same
    rw [same] at gone
    split at gone
    · by_cases new : id = before.issued
      · subst new
        simp [OrderedMap.get?_set_self] at gone
      · simp [OrderedMap.get?_set_of_ne new,found] at gone
    · simp [found] at gone
  | cleanup own limit =>
    obtain ⟨_,same⟩ := after_of_taken taken rfl
    simp only [answer] at same
    rw [same] at gone
    split at gone
    · simp only [OrderedMap.get?_filter,found,Option.filter_some] at gone
      split at gone
      · contradiction
      · rename_i dropped
        exact expired_processed (by simpa using dropped)
    · simp [found] at gone

variable [DecidableEq τ]

theorem Claims.row (kept : Claims past modes tr.before) (task : τ) (id : Nat)
    (live : (modes task).live tr.before.epoch = some id) :
    ∃ row, tr.before.rows.get? id = some row ∧ row.stage = .claimed := by
  have claimed := kept.held task id live
  unfold Store.claimedAt at claimed
  obtain ⟨row,found,stage⟩ := (Option.any_eq_true _ _).mp claimed
  exact ⟨row,found,of_decide_eq_true stage⟩

structure Sound (registry : Registry η) (past : List (Step τ η)) (modes : τ → Mode η) (s : Store) : Prop where
  table : Table registry past s
  claims : Claims past modes s
  informed : Informed modes s
  attempts : Attempts registry past modes

theorem Sound.initial : Sound registry ([] : List (Step τ η)) (fun _ => .idle) ⟨.empty,0,0⟩ := by
  refine ⟨⟨?_,?_,?_,?_,?_,?_,?_⟩,⟨⟨?_,?_,?_⟩,?_,?_⟩,⟨?_,?_⟩,fun _ => trivial⟩
  · intro _ _ found
    contradiction
  · intro _ drawn
    exact absurd drawn (Nat.not_lt_zero _)
  · exact fun _ _ => rfl
  · intro _ _ found
    contradiction
  · intro _ _ found
    contradiction
  · intro _ _ found
    contradiction
  · intro _ _ found
    contradiction
  · intro _ _ live
    contradiction
  · intro _ _ _ live
    contradiction
  · intro _ _ known
    contradiction
  · intro _ claimed
    contradiction
  · exact fun _ => rfl
  · intro _ _ member
    contradiction
  · intro _ _ _ _ reporting
    contradiction

variable [DecidableEq η]

theorem Claims.next (kept : Claims past modes tr.before)
    (numbered : ∀ id row, tr.before.rows.get? id = some row → id < tr.before.issued) (taken : Taken exec tr)
    (allowed : rule registry tr.action tr.reply (modes tr.task) = some m) (unaborted : Unaborted registry tr) :
    Claims (past ++ [tr]) (Function.update modes tr.task m) tr.after := by
  cases restarts : isRestart tr with
  | true =>
    obtain ⟨task,action,choice,before,reply,after⟩ := tr
    cases action with
    | restart =>
      refine kept.restart (idle_allowed (.inl rfl) allowed).2 (epoch_raised taken restarts) ?_ restarts
      intro id
      have rows := restart_rows taken
      unfold Store.claimedAt
      rw [rows]
      cases effective : Effective (⟨task,.restart,choice,before,reply,after⟩ : Step τ η) with
      | true =>
        rw [if_pos rfl,OrderedMap.get?_modify,Option.any_map,Option.any_eq_false]
        intro row _
        simpa using released_unclaimed row
      | false =>
        rw [if_neg Bool.false_ne_true,Option.any_eq_false]
        rcases unaborted with reached | unclaimed
        · rw [effective] at reached
          contradiction
        · intro row found
          simpa using unclaimed row (OrderedMap.mem_values.mpr ⟨id,found⟩)
    | _ => contradiction
  | false =>
  have epoch := epoch_kept taken restarts
  cases reported : reports tr with
  | some report =>
    obtain ⟨id,finished⟩ := report
    obtain ⟨live,free,epochs⟩ := report_allowed taken allowed reported
    refine kept.report live free (fun own known => Nat.le_of_eq (epochs own known)) epoch ?_ restarts (by rw [reported]; rfl)
    intro other
    obtain ⟨task,action,choice,before,reply,after⟩ := tr
    cases action with
    | markProcessed own key | deadLetter own key retry error | markRetry own key retry error =>
      obtain ⟨effective,named⟩ := Option.ite_none_right_eq_some.mp reported
      obtain ⟨rfl,_⟩ := Prod.mk.inj (Option.some.inj named)
      obtain ⟨_,same⟩ := after_of_taken taken rfl
      rw [if_pos effective] at same
      simp only [answer] at same ⊢
      rw [same]
      exact claimedAt_report _ _ _ _ fun row => by simp
    | _ => contradiction
  | none =>
    obtain ⟨task,action,choice,before,reply,after⟩ := tr
    cases action with
    | select own limit =>
      obtain ⟨current,same⟩ := after_of_taken taken rfl
      simp only [answer,ite_self] at same current
      obtain ⟨idle,next⟩ := select_allowed allowed
      refine kept.quiet ?_ ?_ epoch (fun id => congrArg (Store.claimedAt · id) same) restarts rfl reported
      · rw [idle]
        rcases next with rfl | ⟨_,_,rfl⟩ <;> rfl
      · intro e known
        rcases next with rfl | ⟨_,_,rfl⟩
        · contradiction
        · exact Nat.le_of_eq ((Option.some.inj known).symm.trans current)
    | claim own entry =>
      obtain ⟨current,same⟩ := after_of_taken taken rfl
      simp only [answer] at same current
      obtain ⟨rest,mode,next⟩ := claim_allowed allowed
      subst current
      have free : (modes task).live before.epoch = none := by rw [mode]; rfl
      have lost (quiet : m.holding = none) (known : ∀ e, m.epoch? = some e → e = before.epoch) (unclaimed : claims
          (⟨task,.claim before.epoch entry,choice,before,reply,after⟩ : Step τ η) = none) (unchanged : after = before) :
          Claims (past ++ [⟨task,.claim before.epoch entry,choice,before,reply,after⟩]) (Function.update modes task m)
            after := by
        refine kept.quiet ?_ (fun e own => Nat.le_of_eq (known e own)) epoch ?_ restarts unclaimed reported
        · exact (live_of_holding_none quiet _).trans free.symm
        · exact fun id => congrArg (Store.claimedAt · id) unchanged
      rcases next with ⟨rfl,rfl⟩ | ⟨rfl,rfl⟩ | ⟨⟨error,rfl⟩,rfl⟩
      · obtain ⟨effective,answered⟩ := reply_ok taken rfl
        simp only [answer] at answered
        rw [if_pos effective] at same
        split at answered
        · rename_i pending
          rw [if_pos pending] at same
          refine kept.claim free ?_ epoch ?_ ?_ restarts rfl reported
          · simp [Mode.live,Mode.holding]
          · exact unclaimed_of_pending pending
          · intro other
            simp only [same]
            exact claimedAt_claim _ _ _ (Option.isSome_of_any pending)
        · cases answered
      · obtain ⟨effective,answered⟩ := reply_ok taken rfl
        simp only [answer] at answered
        rw [if_pos effective] at same
        split at answered
        · cases answered
        · rename_i taken_before
          rw [if_neg taken_before] at same
          exact lost rfl (fun e own => (Option.some.inj own).symm) rfl same
      · refine lost rfl (fun e own => by contradiction) rfl ?_
        split at same
        · rename_i effective
          rw [if_neg (by rw [unaborted effective]; exact Bool.false_ne_true)] at same
          exact same
        · exact same
    | handle own handler entry =>
      obtain ⟨current,same⟩ := after_of_taken taken rfl
      simp only [answer,ite_self] at same current
      obtain ⟨left,failed,rest,mode,next⟩ := handle_allowed allowed
      have running : ∃ failed, m = .dispatching own entry left failed rest := by
        rcases next with ⟨_,rfl⟩ | ⟨error,rfl,rfl | ⟨unreported,_⟩⟩
        · exact ⟨failed,rfl⟩
        · exact ⟨true,rfl⟩
        · exact absurd unaborted unreported
      obtain ⟨now,rfl⟩ := running
      refine kept.quiet ?_ ?_ epoch (fun id => congrArg (Store.claimedAt · id) same) restarts rfl reported
      · simp only [mode]
        rfl
      · intro e known
        exact Nat.le_of_eq ((Option.some.inj known).symm.trans current)
    | readRetryCount own id =>
      obtain ⟨current,same⟩ := after_of_taken taken rfl
      simp only [answer,ite_self] at same current
      obtain ⟨head,rest,_,mode,⟨_,rfl,rfl⟩ | ⟨⟨_,rfl⟩,_⟩⟩ := readRetryCount_allowed allowed
      · refine kept.quiet ?_ ?_ epoch (fun id => congrArg (Store.claimedAt · id) same) restarts rfl reported
        · simp only [mode]
          rfl
        · intro e known
          exact Nat.le_of_eq ((Option.some.inj known).symm.trans current)
      · exact unaborted.elim
    | markProcessed | deadLetter | markRetry =>
      have reached := (if_pos unaborted).symm.trans reported
      contradiction
    | publish own eventType aggregateId aggregateType payloadJson =>
      obtain ⟨idle,rfl⟩ := idle_allowed (.inr (.inr ⟨_,_,_,_,_,rfl⟩)) allowed
      refine kept.quiet ?_ ?_ epoch ?_ restarts rfl reported
      · rw [idle]
      · intro e known
        contradiction
      · intro id
        obtain ⟨_,same⟩ := after_of_taken taken rfl
        simp only [answer] at same ⊢
        rw [same]
        split
        · unfold Store.claimedAt
          by_cases new : id = before.issued
          · subst new
            cases found : before.rows.get? before.issued with
            | none => rw [OrderedMap.get?_set_self]; rfl
            | some row => exact absurd (numbered _ row found) (Nat.lt_irrefl _)
          · rw [OrderedMap.get?_set_of_ne new]
        · rfl
    | cleanup own limit =>
      obtain ⟨idle,rfl⟩ := idle_allowed (.inr (.inl ⟨_,_,rfl⟩)) allowed
      refine kept.quiet ?_ ?_ epoch ?_ restarts rfl reported
      · rw [idle]
      · intro e known
        contradiction
      · intro id
        obtain ⟨_,same⟩ := after_of_taken taken rfl
        simp only [answer] at same ⊢
        rw [same]
        split
        · unfold Store.claimedAt
          rw [OrderedMap.get?_filter]
          cases before.rows.get? id with
          | none => rfl
          | some row =>
            cases gone : expired limit row with
            | true => simp [Option.filter,gone,expired_processed gone]
            | false => simp [Option.filter,gone]
        · rfl
    | restart => contradiction

theorem Table.next (kept : Table registry past tr.before) (claims : Claims past modes tr.before)
    (informed : Informed modes tr.before) (cap : 1 ≤ registry.maxRetries) (taken : Taken exec tr)
    (allowed : rule registry tr.action tr.reply (modes tr.task) = some m) (unaborted : Unaborted registry tr) :
    Table registry (past ++ [tr]) tr.after := by
  obtain ⟨task,action,choice,before,reply,after⟩ := tr
  cases action with
  | select | handle | readRetryCount =>
    obtain ⟨_,same⟩ := after_of_taken taken rfl
    simp only [answer,ite_self] at same
    exact kept.unchanged same fun _ => rfl
  | claim own entry =>
    obtain ⟨_,same⟩ := after_of_taken taken rfl
    simp only [answer] at same
    by_cases claimed : Effective (⟨task,.claim own entry,choice,before,reply,after⟩ : Step τ η) = true ∧
        (before.rows.get? entry.id).any (·.stage = .pending) = true
    · rw [if_pos claimed.1,if_pos claimed.2] at same
      refine kept.moved (fun id row => if id = entry.id then {row with stage := .claimed} else row) ?_ ?_ (fun _ => rfl) ?_ ?_
      · intro id
        rw [same,get?_update]
      · rw [same]
        rfl
      · intro id row _
        split <;> rfl
      · intro id row found
        split
        · rename_i here
          subst here
          rw [found] at claimed
          have pending : row.stage = .pending := of_decide_eq_true claimed.2
          simp [pending]
        · exact Iff.rfl
    · refine kept.unchanged ?_ fun _ => rfl
      rw [same]
      split
      · rename_i effective
        split
        · rename_i pending
          exact absurd ⟨effective,pending⟩ claimed
        · rfl
      · rfl
  | markProcessed own id =>
    obtain ⟨_,same⟩ := after_of_taken taken rfl
    simp only [answer] at same
    have effective : Effective (⟨task,.markProcessed own id,choice,before,reply,after⟩ : Step τ η) = true := unaborted
    rw [if_pos effective] at same
    refine kept.changed
      (fun key row => if key = id then {row with stage := .processed,processedAt := some choice.now} else row) ?_ ?_
      (fun _ _ => rfl) ?_ ?_ ?_ ?_
    · intro key
      rw [same,get?_update]
    · rw [same]
      rfl
    · intro key row _
      split <;> rfl
    · intro key row found
      have bounded := kept.bounded key row found
      split <;> exact bounded
    · intro key row found unprocessed
      split at unprocessed
      · exact absurd rfl unprocessed
      · rename_i other
        rw [if_neg other]
        exact kept.below key row found unprocessed
    · intro key row found processed
      split at processed
      · rename_i here
        exact .inr (here ▸ if_pos unaborted)
      · exact .inl processed
  | deadLetter own id retry error =>
    obtain ⟨current,same⟩ := after_of_taken taken rfl
    simp only [answer] at same current
    subst current
    have effective : Effective (⟨task,.deadLetter before.epoch id retry error,choice,before,reply,after⟩ : Step τ η) = true :=
      unaborted
    rw [if_pos effective] at same
    obtain ⟨head,known,rest,rfl,rfl,reached,mode,rfl⟩ := deadLetter_allowed allowed
    obtain ⟨row,found,claimed⟩ := claims.row task head.id (by simp [mode,Mode.live,Mode.holding])
    have counted := informed.counted task head known rest mode row found
    have below := kept.below head.id row found (by rw [claimed]; simp)
    refine kept.failed (known + 1) same ?_ found (by omega) ?_ (by omega) ?_
    · intro key
      simp [failures,effective,eq_comm]
    · exact fun _ => rfl
    · exact .inl ⟨fun _ => rfl,if_pos effective⟩
  | markRetry own id retry error =>
    obtain ⟨current,same⟩ := after_of_taken taken rfl
    simp only [answer] at same current
    subst current
    have effective : Effective (⟨task,.markRetry before.epoch id retry error,choice,before,reply,after⟩ : Step τ η) = true :=
      unaborted
    rw [if_pos effective] at same
    obtain ⟨head,known,rest,rfl,rfl,below,mode,rfl⟩ := markRetry_allowed allowed
    obtain ⟨row,found,claimed⟩ := claims.row task head.id (by simp [mode,Mode.live,Mode.holding])
    have counted := informed.counted task head known rest mode row found
    refine kept.failed (known + 1) same ?_ found (by omega) ?_ (by omega) ?_
    · intro key
      simp [failures,effective,eq_comm]
    · exact fun _ => rfl
    · exact .inr ⟨fun _ => by simp,by omega⟩
  | publish own eventType aggregateId aggregateType payloadJson =>
    obtain ⟨_,same⟩ := after_of_taken taken rfl
    simp only [answer] at same
    split at same
    · have rows : after.rows = before.rows.set before.issued
          (Outbox.published eventType aggregateId aggregateType payloadJson choice.now) := by rw [same]
      exact kept.published rows (by rw [same]) (fun _ => rfl) rfl rfl cap
    · exact kept.unchanged same fun _ => rfl
  | cleanup own limit =>
    obtain ⟨_,same⟩ := after_of_taken taken rfl
    simp only [answer] at same
    split at same
    · exact kept.cleaned (by rw [same]) (by rw [same]) fun _ => rfl
    · exact kept.unchanged same fun _ => rfl
  | restart =>
    have rows := restart_rows taken
    have issued : after.issued = before.issued := by
      obtain ⟨base,struck,⟨_,own⟩ | ⟨rfl,_⟩⟩ := strike_of_taken taken
      · contradiction
      · have issued := congrArg (fun done => done.1.issued) struck
        simp only [strike_fst] at issued
        rw [issued]
        split <;> rfl
    split at rows
    · refine kept.moved (fun _ row => released row) ?_ issued (fun _ => rfl) ?_ ?_
      · intro id
        simp [rows]
      · exact fun _ row _ => released_retryCount row
      · exact fun _ row _ => released_processed row
    · refine kept.moved (fun _ row => row) ?_ issued (fun _ => rfl) (fun _ _ _ => rfl) fun _ _ _ => Iff.rfl
      intro id
      simp only [rows,Option.map_id']

theorem Sound.next (kept : Sound registry past modes tr.before) (cap : 1 ≤ registry.maxRetries) (taken : Taken exec tr)
    (allowed : rule registry tr.action tr.reply (modes tr.task) = some m) (unaborted : Unaborted registry tr) :
    Sound registry (past ++ [tr]) (Function.update modes tr.task m) tr.after :=
  ⟨kept.table.next kept.claims kept.informed cap taken allowed unaborted,
    kept.claims.next kept.table.numbered taken allowed unaborted,
    kept.informed.next kept.claims.toOwned kept.table.numbered taken allowed,kept.attempts.next allowed⟩

theorem Sound.faithful (kept : Sound registry past modes tr.before) (taken : Taken exec tr)
    (allowed : rule registry tr.action tr.reply (modes tr.task) = some m) : Faithful registry past tr := by
  refine ⟨?_,?_,?_,fun id row found gone => cleaned_processed taken found gone⟩
  · intro epoch id action row found
    obtain ⟨task,action,choice,before,reply,after⟩ := tr
    subst action
    obtain ⟨head,rest,rfl,mode,_⟩ := markProcessed_allowed allowed
    have current : epoch = before.epoch := (after_of_taken taken rfl).1
    have told := kept.attempts task
    simp only at mode found ⊢
    rw [mode] at told
    have event := (kept.informed.known task head (by simp [mode,Mode.flight,current])).2 row found
    have named : row.eventType = head.row.eventType := congrArg Prod.fst event
    refine Prod.ext ?_ told.1
    rw [named,← told.2,List.append_nil]
  · intro epoch id retry error action
    obtain ⟨task,action,choice,before,reply,after⟩ := tr
    have told := kept.attempts task
    rcases action with action | action
    · subst action
      obtain ⟨head,known,rest,_,_,_,mode,_⟩ := deadLetter_allowed allowed
      simp only at mode ⊢
      rw [mode] at told
      exact told
    · subst action
      obtain ⟨head,known,rest,_,_,_,mode,_⟩ := markRetry_allowed allowed
      simp only at mode ⊢
      rw [mode] at told
      exact told
  · intro epoch id retry error action
    obtain ⟨task,action,choice,before,reply,after⟩ := tr
    subst action
    obtain ⟨head,known,rest,rfl,rfl,reached,mode,_⟩ := deadLetter_allowed allowed
    have current : epoch = before.epoch := (after_of_taken taken rfl).1
    subst current
    simp only at mode
    obtain ⟨row,found,claimed⟩ := kept.claims.row task head.id (by simp [mode,Mode.live,Mode.holding])
    have counted := kept.informed.counted task head known rest mode row found
    have below := kept.table.below head.id row found (by rw [claimed]; simp)
    have past_failures := kept.table.counted head.id row found
    omega

theorem Sound.standing {registry : Registry η} {reached : Config τ Store (Action η) Reply PyError Unit}
    (kept : Sound registry past modes reached.shared)
    (follows : ∀ task, (reached.tasks task).Follows (rule registry) (modes task) fun _ mode => mode.ended) {id : Nat}
    {row : Row} (found : reached.shared.rows.get? id = some row) : Standing registry reached past id row := by
  refine ⟨kept.table.bounded id row found,kept.table.counted id row found,?_,?_,kept.table.done id row found⟩
  · intro pending
    exact kept.table.below id row found (by rw [pending]; simp)
  · intro claimed
    have at_id : reached.shared.claimedAt id = true := by simp [Store.claimedAt,found,claimed]
    obtain ⟨task,live⟩ := kept.claims.taken id at_id
    refine ⟨task,(kept.claims.known task).trans live,?_,?_⟩
    · cases finished : (reached.tasks task).finished with
      | false => rfl
      | true =>
        obtain ⟨_,ended⟩ := Prog.Follows.ended (follows task) finished
        cases mode : modes task with
        | dispatching | reporting =>
          rw [mode] at ended
          exact ended.elim
        | idle | looping | aborted =>
          rw [mode] at live
          contradiction
    · intro other has
      rw [kept.claims.known] at has
      exact kept.claims.alone other task id has live

variable (registry)

/-- In a run whose steps all leave no claim behind, every published entry that was not cleaned
up is pending, claimed by the one sweep that still runs it, or done with. -/
theorem entries_kept (cap : 1 ≤ registry.maxRetries) (clients : τ → Client) (schedule : List (τ × Choice))
    (unaborted : Throughout (fun _ => Unaborted registry) [] (run exec schedule (start registry clients)).2) :
    (∀ id row, (run exec schedule (start registry clients)).1.shared.rows.get? id = some row →
      Standing registry (run exec schedule (start registry clients)).1 (run exec schedule (start registry clients)).2 id row) ∧
    (∀ id, id < (run exec schedule (start registry clients)).1.shared.issued →
      ((run exec schedule (start registry clients)).1.shared.rows.get? id).isSome = true ∨
        removed (run exec schedule (start registry clients)).2 id = true) ∧
    Throughout (Faithful registry) [] (run exec schedule (start registry clients)).2 := by
  have keeps : ∀ past modes (tr : Step τ η) m, Sound registry past modes tr.before → Taken exec tr →
      rule registry tr.action tr.reply (modes tr.task) = some m → Unaborted registry tr →
      Sound registry (past ++ [tr]) (Function.update modes tr.task m) tr.after :=
    fun _ _ _ _ kept taken allowed unaborted => kept.next cap taken allowed unaborted
  have follows : ∀ task, ((start registry clients).tasks task).Follows (rule registry) .idle fun _ mode => mode.ended :=
    fun task => client_follows (clients task)
  obtain ⟨modes,kept,reached⟩ := run_keeps keeps schedule (start registry clients) []
    (fun _ => Mode.idle) Sound.initial follows unaborted
  rw [List.nil_append] at kept
  exact ⟨fun id row found => kept.standing reached found,kept.table.present,
    run_transitions keeps (fun _ _ _ _ kept taken allowed _ => kept.faithful taken allowed) schedule _ []
      (fun _ => Mode.idle) Sound.initial follows unaborted⟩

end

/-! A sweep that is cancelled while a handler runs -/

def sample : Registry String := ⟨fun event => if event = "node.state_changed" then ["notify"] else [],some,3⟩

def publishAndSweep : Bool → Client
  | false => .publish 0 "node.state_changed" (some "n1") "node" "\x7b\x7d"
  | true => .sweep 0 100

def calm : Choice := ⟨.none,0⟩

def delivery : List (Bool × Choice) := [(false,calm),(true,calm),(true,calm),(true,calm),(true,calm)]

theorem entries_kept_delivery :
    (∀ id row, (run exec delivery (start sample publishAndSweep)).1.shared.rows.get? id = some row →
      Standing sample (run exec delivery (start sample publishAndSweep)).1 (run exec delivery (start sample publishAndSweep)).2
        id row) ∧
    (∀ id, id < (run exec delivery (start sample publishAndSweep)).1.shared.issued →
      ((run exec delivery (start sample publishAndSweep)).1.shared.rows.get? id).isSome = true ∨
        removed (run exec delivery (start sample publishAndSweep)).2 id = true) ∧
    Throughout (Faithful sample) [] (run exec delivery (start sample publishAndSweep)).2 :=
  entries_kept sample (by decide) publishAndSweep delivery (by decide +kernel)

def cancelled : List (Bool × Choice) := [(false,calm),(true,calm),(true,calm),(true,⟨.before .cancelledError,0⟩)]

/-- The entry stays claimed and no sweep runs. -/
theorem cancelled_sweep_keeps_claim : ¬∀ (registry : Registry String) (clients : Bool → Client)
    (schedule : List (Bool × Choice)), 1 ≤ registry.maxRetries → ∀ id row,
      (run exec schedule (start registry clients)).1.shared.rows.get? id = some row →
      Standing registry (run exec schedule (start registry clients)).1 (run exec schedule (start registry clients)).2 id row := by
  intro claim
  have ended : ∀ task, ((run exec cancelled (start sample publishAndSweep)).1.tasks task).finished = true := by decide +kernel
  have stuck : (run exec cancelled (start sample publishAndSweep)).1.shared.claimedAt 0 = true := by decide +kernel
  obtain ⟨row,found,stage⟩ := (Option.any_eq_true _ _).mp stuck
  obtain ⟨task,_,running,_⟩ := (claim sample publishAndSweep cancelled (by decide) 0 row found).claimed (of_decide_eq_true stage)
  rw [ended task] at running
  contradiction

end Vigile.Outbox
