import Vigile.ProposalProtocol

/-! The status column of the proposals moves along its transition table in exactly the
runs in which every UPDATE of it still finds the status it is made for. -/
namespace Vigile.Proposals

open Interleaving Python

variable {τ : Type}

abbrev Step (τ : Type) := Transition τ Outside State Act Act.Reply PyError

inductive TableStep (tr : Step τ) : Prop
  | same (quiet : ∀ update, tr.action = .update update → ∃ error, tr.choice.fault = .before error)
      (unchanged : tr.after.proposals = tr.before.proposals)
  | inserted (id : String) (data : ProposalRow) (action : tr.action = .insertProposal id data)
      (unused : tr.before.proposals.get? id = none)
      (after : tr.after.proposals = tr.before.proposals.set id data)
  | claimed (id dispatchId intentId : String) (expiresAt now : ℚ)
      (action : tr.action = .claim id dispatchId intentId expiresAt now) (row : ProposalRow)
      (found : tr.before.proposals.get? id = some row) (free : claimable row = true)
      (after : tr.after.proposals = claimRow tr.before.proposals id dispatchId intentId expiresAt now)
  | updated (update : StatusUpdate) (action : tr.action = .update update)
      (struck : ∀ error, tr.choice.fault ≠ .before error)
      (after : tr.after.proposals = update.run tr.before.proposals)

variable {tr : Step τ} {update : StatusUpdate} {hand next : Hand}

theorem tableStep_of_taken (taken : Taken exec tr) : TableStep tr := by
  obtain ⟨task,action,choice,before,reply,after⟩ := tr
  simp only [Taken] at taken
  cases action with
  | nm act =>
    obtain ⟨done,_,eq⟩ := Option.map_eq_some_iff.mp taken
    obtain ⟨rfl,_⟩ := Prod.mk.inj eq
    exact .same (by simp) rfl
  | clock | uuid | latestMetrics | release =>
    obtain ⟨rfl,_⟩ := Prod.mk.inj (Option.some.inj taken)
    exact .same (by simp) rfl
  | acquire dispatcher =>
    simp only [exec] at taken
    split at taken
    · obtain ⟨rfl,_⟩ := Prod.mk.inj (Option.some.inj taken)
      exact .same (by simp) rfl
    · split at taken
      · contradiction
      · obtain ⟨rfl,_⟩ := Prod.mk.inj (Option.some.inj taken)
        exact .same (by simp) rfl
  | logAction | selectProposal | selectPending | selectUndispatched | selectDispatched
    | selectCachedContainers | selectMetric =>
    have struck := congrArg Prod.fst (Option.some.inj taken)
    exact .same (by simp) (congrArg State.proposals (struck.symm.trans (strike_fixed rfl)))
  | insertProposal id data =>
    have struck := congrArg Prod.fst (Option.some.inj taken)
    simp only [effect] at struck
    split at struck
    · exact .same (by simp) (congrArg State.proposals (struck.symm.trans (strike_fixed rfl)))
    · rename_i unused
      rcases strike_state choice.fault before _ with eq | eq
      · exact .same (by simp) (congrArg State.proposals (struck.symm.trans eq))
      · exact .inserted id data rfl unused (congrArg State.proposals (struck.symm.trans eq))
  | claim id dispatchId intentId expiresAt now =>
    have struck := congrArg Prod.fst (Option.some.inj taken)
    simp only [effect] at struck
    split at struck
    · rename_i row found
      split at struck
      · rename_i free
        rcases strike_state choice.fault before _ with eq | eq
        · exact .same (by simp) (congrArg State.proposals (struck.symm.trans eq))
        · exact .claimed id dispatchId intentId expiresAt now rfl row found free
            (congrArg State.proposals (struck.symm.trans eq))
      · exact .same (by simp) (congrArg State.proposals (struck.symm.trans (strike_fixed rfl)))
    · exact .same (by simp) (congrArg State.proposals (struck.symm.trans (strike_fixed rfl)))
  | update update =>
    have struck := congrArg Prod.fst (Option.some.inj taken)
    cases fault : choice.fault with
    | before error =>
      rw [fault] at struck
      exact .same (fun _ _ => ⟨error,fault⟩) (congrArg State.proposals struck).symm
    | none | after error =>
      rw [fault] at struck
      exact .updated update rfl (by simp [fault]) (congrArg State.proposals struck).symm

def statusOf (table : OrderedMap String ProposalRow) (id : String) : Option ProposalStatus :=
  (table.get? id).map ProposalRow.status

/-- A status stays or moves along the table; a new row may have any. -/
def StatusMove : Option ProposalStatus → Option ProposalStatus → Prop
  | none,_ => True
  | some _,none => False
  | some old,some new => new = old ∨ new ∈ validStatusTransitions old

/-- No status but along the table: in particular none leaves REJECTED, EXECUTED or FAILED. -/
def Moves (tr : Step τ) : Prop :=
  ∀ id, StatusMove (statusOf tr.before.proposals id) (statusOf tr.after.proposals id)

/-- The status the write moves the proposal from: the one the operation has read, and after
a failed validation the one it has given the proposal in memory. -/
def StatusUpdate.expected : StatusUpdate → ProposalStatus
  | .approval _ _ | .rejection _ _ => .pending
  | .refusal _ _ | .completion _ _ | .resolution _ _ _ _ _ => .approved

/-- An UPDATE that takes effect finds its row in the status it is made for, or already
in the one it writes. -/
def Timely (tr : Step τ) : Prop :=
  ∀ update, tr.action = .update update → (∀ error, tr.choice.fault ≠ .before error) →
    ∀ id row, tr.before.proposals.get? id = some row → update.selects id row = true →
      row.status = update.expected ∨ row.status = update.status

/-- What the table allows an UPDATE to overwrite. -/
theorem move_iff_timely (wellFormed : update.WellFormed)
    (old : ProposalStatus) :
    update.status = old ∨ update.status ∈ validStatusTransitions old ↔
      old = update.expected ∨ old = update.status := by
  cases update with
  | approval id data | refusal id data | rejection id data =>
    have written : data.status = _ := wellFormed
    simp only [StatusUpdate.status,StatusUpdate.expected,written]
    cases old <;> decide
  | completion id data =>
    simp only [StatusUpdate.status,StatusUpdate.expected]
    rcases (wellFormed : data.status = .executed ∨ data.status = .failed) with written | written
    all_goals
      rw [written]
      cases old <;> decide
  | resolution intentId dispatchId status now result =>
    simp only [StatusUpdate.status,StatusUpdate.expected]
    rcases (wellFormed : status = .executed ∨ status = .failed) with rfl | rfl
    all_goals cases old <;> decide

theorem statusMove_refl (status : Option ProposalStatus) : StatusMove status status := by
  cases status with
  | none => trivial
  | some old => exact .inl rfl

theorem statusOf_claimRow (table : OrderedMap String ProposalRow)
    (id dispatchId intentId : String) (expiresAt now : ℚ) (key : String) :
    statusOf (claimRow table id dispatchId intentId expiresAt now) key = statusOf table key := by
  unfold statusOf claimRow
  rw [OrderedMap.get?_modify,Option.map_map]
  cases table.get? key with
  | none => rfl
  | some row =>
    simp only [Option.map_some,Function.comp_apply]
    split <;> rfl

/-- One UPDATE moves the statuses along the table if and only if it is timely. -/
theorem update_moves_iff {table : OrderedMap String ProposalRow}
    (wellFormed : update.WellFormed) :
    (∀ id, StatusMove (statusOf table id) (statusOf (update.run table) id)) ↔
      ∀ id row, table.get? id = some row → update.selects id row = true →
        row.status = update.expected ∨ row.status = update.status := by
  refine forall_congr' fun id => ?_
  unfold statusOf StatusUpdate.run
  rw [OrderedMap.get?_modify]
  cases table.get? id with
  | none => simp [StatusMove]
  | some row =>
    by_cases selected : update.selects id row = true
    · simp only [Option.map_some,selected,if_true,StatusUpdate.apply_status]
      simp [StatusMove,move_iff_timely wellFormed,selected]
    · simp [selected,StatusMove]

/-- The rule lets a task write only the statuses its operation is there to write. -/
theorem wellFormed_of_rule
    (allowed : rule tr.action tr.reply hand = some next) (action : tr.action = .update update) :
    update.WellFormed := by
  obtain ⟨task,act,choice,before,reply,after⟩ := tr
  subst action
  have completion : ∀ id, completes id update reply = some next → update.WellFormed := by
    intro id
    unfold completes
    split
    · split
      · rename_i wellFormed
        exact fun _ => wellFormed.2
      · simp
    · simp
  cases hand with
  | idle =>
    simp only [rule] at allowed
    split at allowed
    · rename_i wellFormed
      exact wellFormed.1
    · contradiction
  | claimed id | sent id => exact completion id allowed
  | settled | lost => simp [rule] at allowed

theorem moves_iff_timely (taken : Taken exec tr)
    (allowed : rule tr.action tr.reply hand = some next) : Moves tr ↔ Timely tr := by
  cases tableStep_of_taken taken with
  | same quiet unchanged =>
    refine ⟨fun _ update action struck => ?_,fun _ id => unchanged ▸ statusMove_refl _⟩
    obtain ⟨error,fault⟩ := quiet update action
    exact absurd fault (struck error)
  | inserted id data action unused after =>
    refine ⟨fun _ update other => ?_,fun _ key => ?_⟩
    · rw [action] at other
      contradiction
    · rw [after]
      by_cases same : key = id
      · simp [statusOf,same,unused,StatusMove]
      · simpa [statusOf,OrderedMap.get?_set_of_ne same] using statusMove_refl _
  | claimed id dispatchId intentId expiresAt now action row found free after =>
    refine ⟨fun _ update other => ?_,fun _ key => ?_⟩
    · rw [action] at other
      contradiction
    · rw [after,statusOf_claimRow]
      exact statusMove_refl _
  | updated update action struck after =>
    unfold Moves Timely
    rw [after,update_moves_iff (wellFormed_of_rule allowed action)]
    constructor
    · intro timely other isAction _
      obtain rfl : update = other := Act.update.inj (action.symm.trans isAction)
      exact timely
    · exact fun timely => timely update action struck

variable [DecidableEq τ]

/-- In every run, the statuses move along the table if and only if every UPDATE is timely. -/
theorem statuses_move_iff_updates_timely (py : Builtins) (proposals : OrderedMap String ProposalRow)
    (nm : NodeManager) (operations : τ → Operation) (schedule : List (τ × Outside)) :
    (∀ tr ∈ (run exec schedule (start py proposals nm operations)).2, Moves tr) ↔
      ∀ tr ∈ (run exec schedule (start py proposals nm operations)).2, Timely tr := by
  have step : ∀ (past : List (Step τ)) (hands : τ → Hand) (tr : Step τ) next, True → Taken exec tr →
      rule tr.action tr.reply (hands tr.task) = some next → True → (Moves tr ↔ Timely tr) :=
    fun _ _ _ _ _ taken allowed _ => moves_iff_timely taken allowed
  have each := run_transitions (J := fun _ _ _ => True) (P := fun _ tr => (Moves tr ↔ Timely tr))
    (fun _ _ _ _ _ _ _ _ => trivial) step schedule (start py proposals nm operations) []
    (fun _ => Hand.idle) trivial (start_follows proposals nm operations)
    (throughout_iff_forall.mpr fun _ _ => trivial)
  have agree := throughout_congr each
  rwa [throughout_iff_forall,throughout_iff_forall] at agree

/-! A rejection that read the proposal before an approval executed it -/

instance : ∀ before after, Decidable (StatusMove before after)
  | none,_ => .isTrue trivial
  | some _,none => .isFalse id
  | some _,some _ => inferInstanceAs (Decidable (_ ∨ _))

/-- Lower-case ASCII texts, no containers. -/
def plainBuiltins : Builtins := ⟨id,fun _ => "",fun _ => none,fun _ _ => .notFound,fun _ => []⟩

def pendingRow : ProposalRow :=
  ⟨"n1","RESTART_SERVICE",.object [("service",.str "nginx")],"","MEDIUM",.pending,"ai",none,none,none,
    0,0,none,.null,none,none,none⟩

def onePending : OrderedMap String ProposalRow := OrderedMap.empty.set "p1" pendingRow

def approveAndReject : Bool → Operation
  | false => .reject "p1" ⟨"u1",some "operator"⟩ ""
  | true => .approve "d1" "p1" ⟨"u2",some "operator"⟩

def staleRejection : List (Bool × Outside) :=
  [(false,calm),(false,calm)] ++ List.replicate 20 (true,calm) ++ [(false,calm)]

theorem stale_rejection_moves_failed : ¬∀ (py : Builtins) (proposals : OrderedMap String ProposalRow)
    (nm : NodeManager) (operations : Bool → Operation) (schedule : List (Bool × Outside)),
    ∀ tr ∈ (run exec schedule (start py proposals nm operations)).2, Moves tr := by
  intro moves
  have moved : ∃ tr ∈ (run exec staleRejection (start plainBuiltins onePending
      (NodeManager.started 30 300) approveAndReject)).2,
      ¬StatusMove (statusOf tr.before.proposals "p1") (statusOf tr.after.proposals "p1") := by
    decide +kernel
  obtain ⟨tr,member,bad⟩ := moved
  exact bad (moves _ _ _ _ _ tr member "p1")

end Vigile.Proposals
