import Vigile.ProposalStatus

/-! The dispatch of proposals: no intent is sent twice, and which dispatches leave their
proposal executed or failed. -/
namespace Vigile.Proposals

open Interleaving Python NodeManager

variable {τ : Type} {past : List (Step τ)} {tr : Step τ} {id : String}

def Dispatched (table : OrderedMap String ProposalRow) (id : String) : Prop :=
  ∃ row, table.get? id = some row ∧ row.dispatchId.isSome

theorem claimable_free {row : ProposalRow} (free : claimable row = true) : row.dispatchId = none := by
  simp only [claimable,decide_eq_true_eq] at free
  exact free.1

/-- No step takes a claim back. -/
theorem dispatched_after (taken : Taken exec tr) (before : Dispatched tr.before.proposals id) :
    Dispatched tr.after.proposals id := by
  obtain ⟨row,found,isClaimed⟩ := before
  cases tableStep_of_taken taken with
  | same _ unchanged => exact ⟨row,by rw [unchanged,found],isClaimed⟩
  | inserted key data _ unused after =>
    have differ : id ≠ key := by
      rintro rfl
      simp [found] at unused
    exact ⟨row,by rw [after,OrderedMap.get?_set_of_ne differ,found],isClaimed⟩
  | claimed key dispatchId intentId expiresAt now _ _ _ _ after =>
    refine ⟨_,by rw [after,claimRow,OrderedMap.get?_modify,found,Option.map_some],?_⟩
    split
    · rfl
    · exact isClaimed
  | updated update _ _ after =>
    refine ⟨_,by rw [after,StatusUpdate.run,OrderedMap.get?_modify,found,Option.map_some],?_⟩
    split
    · rw [StatusUpdate.apply_dispatchId]
      exact isClaimed
    · exact isClaimed

/-- Whoever wins a claim finds the proposal unclaimed and leaves it claimed. -/
theorem claim_won {dispatchId intentId : String} {expiresAt now : ℚ} (taken : Taken exec tr)
    (action : tr.action = .claim id dispatchId intentId expiresAt now)
    (won : answered tr.reply = true) :
    ¬Dispatched tr.before.proposals id ∧ Dispatched tr.after.proposals id := by
  obtain ⟨task,act,choice,before,reply,after⟩ := tr
  subst action
  cases reply with
  | error error => simp [answered] at won
  | ok value =>
    obtain ⟨_,done⟩ := strike_ok (Option.some.inj taken)
    simp only [effect] at done
    split at done
    · rename_i row found
      split at done
      · rename_i free
        obtain ⟨rfl,_⟩ := Prod.mk.inj done
        refine ⟨?_,_,by rw [claimRow,OrderedMap.get?_modify,found,Option.map_some],?_⟩
        · rintro ⟨row',found',isClaimed⟩
          obtain rfl := Option.some.inj (found.symm.trans found')
          simp [claimable_free free] at isClaimed
        · simp [free]
      · simp at done
    · simp at done

/-- The step tries to send the intent of the proposal. A send that raises counts: the
message may have left. -/
def carries (id : String) (tr : Step τ) : Bool :=
  match tr.action with
  | .nm (.sendIntent _ intent) => intent.proposal = some id
  | _ => false

def sends (id : String) (past : List (Step τ)) : Nat := past.countP (carries id)

theorem sends_concat (id : String) (past : List (Step τ)) (tr : Step τ) :
    sends id (past ++ [tr]) = sends id past + if carries id tr then 1 else 0 := by
  simp [sends,List.countP_append,List.countP_cons]

def errorOf {α : Type} : Except PyError α → Option PyError
  | .ok _ => none
  | .error error => some error

/-- The steps between a claim and the write of the result. -/
def inFlight : Act → Bool
  | .nm .defaultTimeout | .nm (.openIntent _ _ _) | .nm (.sendIntent _ _) | .nm (.awaitFuture _)
  | .nm (.closeIntent _) | .clock => true
  | _ => false

def isRelease : Act → Bool
  | .release _ => true
  | _ => false

inductive Move (tr : Step τ) : Hand → Hand → Prop
  | rests (silent : ∀ id, carries id tr = false)
      (noClaim : ∀ id d i e n, tr.action = .claim id d i e n → answered tr.reply = false)
      (noResult : ∀ id data, tr.action ≠ .update (.completion id data)) : Move tr .idle .idle
  | wins {id dispatchId intentId : String} {expiresAt now : ℚ}
      (action : tr.action = .claim id dispatchId intentId expiresAt now)
      (won : answered tr.reply = true) : Move tr .idle (.claimed id)
  | waits {id : String} (steps : inFlight tr.action = true)
      (silent : ∀ id, carries id tr = false) : Move tr (.claimed id) (.claimed id)
  | sends {id : String} (steps : inFlight tr.action = true)
      (only : ∀ other, carries other tr = true → other = id) : Move tr (.claimed id) (.sent id)
  | awaits {id : String} (steps : inFlight tr.action = true)
      (silent : ∀ id, carries id tr = false) : Move tr (.sent id) (.sent id)
  | loses {id : String} {hand : Hand} {error : PyError} (held : hand = .claimed id ∨ hand = .sent id)
      (steps : inFlight tr.action = true) (raised : errorOf tr.reply = some error)
      (uncaught : tr.action = .clock ∨ isCaught error = false)
      (only : ∀ other, carries other tr = true → hand = .claimed other) : Move tr hand (.lost id)
  | completes {id : String} {hand : Hand} {data : ProposalRow}
      (held : hand = .claimed id ∨ hand = .sent id)
      (action : tr.action = .update (.completion id data))
      (outcome : data.status = .executed ∨ data.status = .failed)
      (done : answered tr.reply = true) : Move tr hand (.settled id)
  | givesUp {id : String} {hand : Hand} {data : ProposalRow}
      (held : hand = .claimed id ∨ hand = .sent id)
      (action : tr.action = .update (.completion id data))
      (failed : answered tr.reply = false) : Move tr hand .idle
  | audits {id : String} {entry : AuditEntry} (action : tr.action = .logAction entry) :
      Move tr (.settled id) (.settled id)
  | closes {id : String} {next : Hand} {intentId : String}
      (action : tr.action = .nm (.closeIntent intentId)) (other : ∀ id, next ≠ .claimed id) :
      Move tr (.lost id) next
  | releases {id : String} {hand : Hand} {dispatcher : String}
      (held : hand = .settled id ∨ hand = .lost id) (action : tr.action = .release dispatcher) :
      Move tr hand .idle

variable {hand next : Hand}

theorem move_of_completes {update : StatusUpdate}
    (held : hand = .claimed id ∨ hand = .sent id) (action : tr.action = .update update)
    (allowed : completes id update tr.reply = some next) : Move tr hand next := by
  unfold completes at allowed
  split at allowed
  · rename_i own data
    split at allowed
    · rename_i same
      obtain ⟨rfl,outcome⟩ := same
      cases done : answered tr.reply with
      | true =>
        simp only [done,if_true,Option.some.injEq] at allowed
        exact allowed ▸ .completes held action outcome done
      | false =>
        simp only [done,Option.some.injEq] at allowed
        exact allowed ▸ .givesUp held action done
    · contradiction
  · contradiction

/-- A step in flight keeps the hand or loses it. -/
theorem move_of_unlessRaised {kept : Hand} (held : hand = .claimed id ∨ hand = .sent id)
    (steps : inFlight tr.action = true)
    (only : ∀ other, carries other tr = true → hand = .claimed other)
    (moves : Move tr hand kept) (allowed : unlessRaised tr.reply kept (.lost id) = next) :
    Move tr hand next := by
  unfold unlessRaised at allowed
  split at allowed
  · exact allowed ▸ moves
  · rename_i error raised
    split at allowed
    · exact allowed ▸ moves
    · rename_i uncaught
      refine allowed ▸ .loses held steps (by rw [raised]; rfl) (.inr (by simpa using uncaught)) only

/-- The time is read before the result is written; reading it cannot raise. -/
theorem move_of_clock (held : hand = .claimed id ∨ hand = .sent id)
    (action : tr.action = .clock) (stays : Move tr hand hand)
    (allowed : (if answered tr.reply then hand else .lost id) = next) : Move tr hand next := by
  cases reply : tr.reply with
  | ok value =>
    simp only [reply,answered,if_true] at allowed
    exact allowed ▸ stays
  | error error =>
    simp only [reply,answered] at allowed
    refine allowed ▸ .loses held (by rw [action]; rfl) (by rw [reply]; rfl) (.inl action) ?_
    intro other sent
    simp [carries,action] at sent

theorem move_of_idle (allowed : rule tr.action tr.reply .idle = some next) :
    Move tr .idle next := by
  obtain ⟨task,action,choice,before,reply,after⟩ := tr
  cases action with
  | claim id dispatchId intentId expiresAt now =>
    simp only [rule,Option.some.injEq] at allowed
    split at allowed
    · rename_i won
      exact allowed ▸ .wins rfl won
    · rename_i lost
      refine allowed ▸ .rests (fun _ => rfl) (fun _ _ _ _ _ _ => ?_) (by simp)
      simpa using lost
  | update update =>
    simp only [rule] at allowed
    split at allowed
    · rename_i other
      refine Option.some.inj allowed ▸ .rests (fun _ => rfl) (by simp) ?_
      rintro id data ⟨⟩
      simp [StatusUpdate.isCompletion] at other
    · contradiction
  | nm act =>
    cases act with
    | sendIntent websocket intent =>
      simp only [rule] at allowed
      split at allowed
      · rename_i query
        exact Option.some.inj allowed ▸ .rests (by simp [carries,query]) (by simp) (by simp)
      · contradiction
    | _ => exact Option.some.inj allowed ▸ .rests (fun _ => rfl) (by simp) (by simp)
  | _ => exact Option.some.inj allowed ▸ .rests (fun _ => rfl) (by simp) (by simp)

theorem move_of_claimed (allowed : rule tr.action tr.reply (.claimed id) = some next) :
    Move tr (.claimed id) next := by
  obtain ⟨task,action,choice,before,reply,after⟩ := tr
  cases action with
  | nm act =>
    cases act with
    | defaultTimeout | openIntent =>
      exact move_of_unlessRaised (.inl rfl) rfl (by simp [carries]) (.waits rfl fun _ => rfl)
        (Option.some.inj allowed)
    | sendIntent websocket intent =>
      simp only [rule] at allowed
      split at allowed
      · rename_i own
        have only : ∀ other, carries other (⟨task,.nm (.sendIntent websocket intent),choice,before,
            reply,after⟩ : Step τ) = true → other = id := by
          intro other sent
          simp only [carries,own,Option.some.injEq,decide_eq_true_eq] at sent
          exact sent.symm
        exact move_of_unlessRaised (.inl rfl) rfl (fun other sent => only other sent ▸ rfl)
          (.sends rfl only) (Option.some.inj allowed)
      · contradiction
    | _ => simp [rule] at allowed
  | clock =>
    exact move_of_clock (.inl rfl) rfl (.waits rfl fun _ => rfl) (Option.some.inj allowed)
  | update update => exact move_of_completes (.inl rfl) rfl allowed
  | _ => simp [rule] at allowed

theorem move_of_sent (allowed : rule tr.action tr.reply (.sent id) = some next) :
    Move tr (.sent id) next := by
  obtain ⟨task,action,choice,before,reply,after⟩ := tr
  cases action with
  | nm act =>
    cases act with
    | awaitFuture | closeIntent =>
      exact move_of_unlessRaised (.inr rfl) rfl (by simp [carries]) (.awaits rfl fun _ => rfl)
        (Option.some.inj allowed)
    | _ => simp [rule] at allowed
  | clock =>
    exact move_of_clock (.inr rfl) rfl (.awaits rfl fun _ => rfl) (Option.some.inj allowed)
  | update update => exact move_of_completes (.inr rfl) rfl allowed
  | _ => simp [rule] at allowed

theorem move_of_rule (allowed : rule tr.action tr.reply hand = some next) :
    Move tr hand next := by
  cases hand with
  | idle => exact move_of_idle allowed
  | claimed id => exact move_of_claimed allowed
  | sent id => exact move_of_sent allowed
  | settled id =>
    obtain ⟨task,action,choice,before,reply,after⟩ := tr
    cases action with
    | logAction => exact Option.some.inj allowed ▸ .audits rfl
    | release => exact Option.some.inj allowed ▸ .releases (.inl rfl) rfl
    | _ => simp [rule] at allowed
  | lost id =>
    obtain ⟨task,action,choice,before,reply,after⟩ := tr
    cases action with
    | nm act =>
      cases act with
      | closeIntent =>
        refine .closes rfl fun other isClaimed => ?_
        subst isClaimed
        cases reply with
        | ok value => simp [rule,answered] at allowed
        | error error =>
          simp only [rule,answered,unlessRaised,Bool.false_eq_true,if_false] at allowed
          split at allowed <;> simp at allowed
      | _ => simp [rule] at allowed
    | release => exact Option.some.inj allowed ▸ .releases (.inr rfl) rfl
    | _ => simp [rule] at allowed

/-- Only a task that holds the claim sends, and then it holds it no longer. -/
theorem Move.of_carries (move : Move tr hand next) (sent : carries id tr = true) :
    hand = .claimed id ∧ next ≠ .claimed id := by
  cases move with
  | rests silent | waits _ silent | awaits _ silent => simp [silent id] at sent
  | sends _ only => exact ⟨(only id sent).symm ▸ rfl,by simp⟩
  | loses _ _ _ _ only => exact ⟨only id sent,by simp⟩
  | wins action | completes _ action | givesUp _ action | audits action | closes action
    | releases _ action => simp [carries,action] at sent

/-- A task holds a claim because it held it before, or has just won it. -/
theorem Move.to_claimed (move : Move tr hand (.claimed id)) :
    hand = .claimed id ∨ answered tr.reply = true ∧
      ∃ dispatchId intentId expiresAt now, tr.action = .claim id dispatchId intentId expiresAt now := by
  cases move with
  | wins action won => exact .inr ⟨won,_,_,_,_,action⟩
  | waits => exact .inl rfl
  | closes _ other => exact absurd rfl (other id)

variable [DecidableEq τ]

structure ClaimInvariant (past : List (Step τ)) (hands : τ → Hand) (s : State) : Prop where
  claimed : ∀ task id, hands task = .claimed id → Dispatched s.proposals id ∧ sends id past = 0
  single : ∀ task other id, hands task = .claimed id → hands other = .claimed id → task = other
  dispatched : ∀ id, 0 < sends id past → Dispatched s.proposals id
  once : ∀ id, sends id past ≤ 1

variable {hands : τ → Hand} {next : Hand}

omit [DecidableEq τ] in
/-- A claim is held by one task, on a proposal whose intent is not sent. -/
theorem ClaimInvariant.claimed_after (inv : ClaimInvariant past hands tr.before) (taken : Taken exec tr)
    (move : Move tr (hands tr.task) (.claimed id)) :
    Dispatched tr.after.proposals id ∧ sends id (past ++ [tr]) = 0 ∧
      ∀ other, hands other = .claimed id → other = tr.task := by
  have silent : carries id tr = false := by
    by_contra sent
    exact (move.of_carries (by simpa using sent)).2 rfl
  rw [sends_concat,silent]
  rcases move.to_claimed with kept | ⟨won,d,i,e,n,action⟩
  · have before := inv.claimed tr.task id kept
    exact ⟨dispatched_after taken before.1,before.2,fun other held => inv.single other _ id held kept⟩
  · obtain ⟨free,after⟩ := claim_won taken action won
    refine ⟨after,?_,fun other held => absurd (inv.claimed other id held).1 free⟩
    by_contra sent
    exact free (inv.dispatched id (by simp at sent; omega))

theorem ClaimInvariant.step (inv : ClaimInvariant past hands tr.before) (taken : Taken exec tr)
    (allowed : rule tr.action tr.reply (hands tr.task) = some next) :
    ClaimInvariant (past ++ [tr]) (Function.update hands tr.task next) tr.after := by
  have move := move_of_rule allowed
  have mine : ∀ id, next = .claimed id → Dispatched tr.after.proposals id ∧
      sends id (past ++ [tr]) = 0 ∧ ∀ other, hands other = .claimed id → other = tr.task := by
    rintro id rfl
    exact inv.claimed_after taken move
  refine ⟨fun task id held => ?_,fun task other id held held' => ?_,fun id sent => ?_,fun id => ?_⟩
  · by_cases moved : task = tr.task
    · subst moved
      rw [Function.update_self] at held
      exact ⟨(mine id held).1,(mine id held).2.1⟩
    · rw [Function.update_of_ne moved] at held
      obtain ⟨before,unsent⟩ := inv.claimed task id held
      refine ⟨dispatched_after taken before,?_⟩
      rw [sends_concat,unsent]
      by_cases sent : carries id tr = true
      · exact absurd (inv.single task tr.task id held (move.of_carries sent).1) moved
      · simp [sent]
  · by_cases moved : task = tr.task
    · subst moved
      rw [Function.update_self] at held
      by_cases moved' : other = tr.task
      · exact moved'.symm
      · rw [Function.update_of_ne moved'] at held'
        exact ((mine id held).2.2 other held').symm
    · rw [Function.update_of_ne moved] at held
      by_cases moved' : other = tr.task
      · subst moved'
        rw [Function.update_self] at held'
        exact (mine id held').2.2 task held
      · rw [Function.update_of_ne moved'] at held'
        exact inv.single task other id held held'
  · rw [sends_concat] at sent
    by_cases carried : carries id tr = true
    · exact dispatched_after taken (inv.claimed tr.task id (move.of_carries carried).1).1
    · simp only [carried] at sent
      exact dispatched_after taken (inv.dispatched id (by simpa using sent))
  · rw [sends_concat]
    by_cases carried : carries id tr = true
    · have unsent := (inv.claimed tr.task id (move.of_carries carried).1).2
      simp [carried,unsent]
    · simpa [carried] using inv.once id

/-- In every run, at most one send of the intent of a proposal is ever tried. -/
theorem intent_sent_at_most_once (py : Builtins) (proposals : OrderedMap String ProposalRow)
    (nm : NodeManager) (operations : τ → Operation) (schedule : List (τ × Outside)) (id : String) :
    sends id (run exec schedule (start py proposals nm operations)).2 ≤ 1 := by
  have atStart : ClaimInvariant [] (fun _ : τ => .idle) (start py proposals nm operations).shared :=
    ⟨by simp,by simp,by simp [sends],by simp [sends]⟩
  have keeps : ∀ (past : List (Step τ)) hands (tr : Step τ) next,
      ClaimInvariant past hands tr.before → Taken exec tr →
      rule tr.action tr.reply (hands tr.task) = some next → True →
      ClaimInvariant (past ++ [tr]) (Function.update hands tr.task next) tr.after :=
    fun _ _ _ _ inv taken allowed _ => inv.step taken allowed
  obtain ⟨hands,inv,_⟩ := run_keeps keeps schedule _ [] _ atStart (start_follows proposals nm operations)
    (throughout_iff_forall.mpr fun _ _ => trivial)
  exact inv.once id

end Vigile.Proposals
