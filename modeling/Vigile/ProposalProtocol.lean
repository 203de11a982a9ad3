import Vigile.ProposalOperations

/-! The protocol every operation on proposals keeps to: which status it writes when, and
how a dispatch goes from its claim to its send and to the write of its result. -/
namespace Vigile.Proposals

open Interleaving Python NodeManager

/-- The statuses each UPDATE is ever given. -/
def StatusUpdate.WellFormed : StatusUpdate → Prop
  | .approval _ data => data.status = .approved
  | .refusal _ data => data.status = .failed
  | .rejection _ data => data.status = .rejected
  | .completion _ data => data.status = .executed ∨ data.status = .failed
  | .resolution _ _ status _ _ => status = .executed ∨ status = .failed

instance (update : StatusUpdate) : Decidable update.WellFormed := by
  cases update <;> unfold StatusUpdate.WellFormed <;> infer_instance

def StatusUpdate.isCompletion : StatusUpdate → Bool
  | .completion _ _ => true
  | _ => false

inductive Hand where
  | idle
  | claimed (id : String)
  | sent (id : String)
  | settled (id : String)
  | lost (id : String)
  deriving DecidableEq

def unlessRaised {α : Type} (reply : Except PyError α) (hand lost : Hand) : Hand :=
  match reply with
  | .ok _ => hand
  | .error error => if isCaught error then hand else lost

def answered {α : Type} : Except PyError α → Bool
  | .ok _ => true
  | .error _ => false

/-- The write of a result, which only the dispatcher of the proposal makes. -/
def completes {α : Type} (id : String) (update : StatusUpdate) (reply : Except PyError α) :
    Option Hand :=
  match update with
  | .completion own data =>
    if own = id ∧ (StatusUpdate.completion own data).WellFormed then
      some (if answered reply then .settled id else .idle)
    else none
  | _ => none

def rule (act : Act) (reply : Except PyError act.Reply) : Hand → Option Hand
  | .idle =>
    match act with
    | .claim id _ _ _ _ => some (if answered reply then .claimed id else .idle)
    | .update update => if update.WellFormed ∧ !update.isCompletion then some .idle else none
    | .nm (.sendIntent _ intent) => if intent.proposal = none then some .idle else none
    | _ => some .idle
  | .claimed id =>
    match act with
    | .nm .defaultTimeout | .nm (.openIntent _ _ _) =>
      some (unlessRaised reply (.claimed id) (.lost id))
    | .nm (.sendIntent _ intent) =>
      if intent.proposal = some id then some (unlessRaised reply (.sent id) (.lost id)) else none
    | .clock => some (if answered reply then .claimed id else .lost id)
    | .update update => completes id update reply
    | _ => none
  | .sent id =>
    match act with
    | .nm (.awaitFuture _) | .nm (.closeIntent _) =>
      some (unlessRaised reply (.sent id) (.lost id))
    | .clock => some (if answered reply then .sent id else .lost id)
    | .update update => completes id update reply
    | _ => none
  | .settled id =>
    match act with
    | .logAction _ => some (.settled id)
    | .release _ => some .idle
    | _ => none
  | .lost id =>
    match act with
    | .nm (.closeIntent _) =>
      some (if answered reply then .lost id else unlessRaised reply (.sent id) (.lost id))
    | .release _ => some .idle
    | _ => none

variable {py : Builtins}

abbrev Idle {α : Type} (program : Task α) : Prop := program.Stays rule .idle

theorem idle_update {update : StatusUpdate} (wellFormed : update.WellFormed)
    (other : update.isCompletion = false) : Idle (Proposals.update update) := by
  refine .perform fun reply => ?_
  simp [rule,wellFormed,other]

/-- A query is an intent that carries out no proposal. -/
theorem idle_query (floatText : ℚ → String) (nodeId : String) {intent : Intent}
    (timeout maxAge : Option ℚ) (query : intent.proposal = none) :
    Idle (sendIntent nm floatText nodeId intent timeout maxAge) := by
  refine .bind (.perform fun _ => rfl) fun default => ?_
  refine .bind (.perform fun _ => rfl) fun opened => ?_
  refine .bind (.perform fun _ => by simp [rule,query]) fun _ => ?_
  refine .ensure (.attempt (.perform fun _ => rfl) fun error => ?_) (.perform fun _ => rfl)
  cases error <;> exact .throw

theorem idle_getLiveContainers (nodeId : String) : Idle (getLiveContainers py nodeId) := by
  have query : Idle (queryContainers py nodeId (some 10)) := by
    refine .bind (.perform fun _ => rfl) fun connected => ?_
    cases connected with
    | false => exact .throw_bind
    | true => exact .bind (.perform fun _ => rfl) fun _ => idle_query _ _ _ _ rfl
  refine .bind (.attempt query fun error => ?_) fun result => ?_
  · split
    · exact .pure
    · exact .throw
  · split <;> exact .pure

theorem idle_resolveContainerTarget (nodeId target : String) :
    Idle (resolveContainerTarget py nodeId target) := by
  refine .bind (.perform fun _ => rfl) fun cached => ?_
  dsimp only
  split
  · refine .bind (idle_getLiveContainers nodeId) fun live => ?_
    cases live <;> exact .pure
  · exact .pure

structure Normalized (proposal : ActionProposal)
    (result : Except PyError (Except String ActionProposal)) (hand : Hand) : Prop where
  idle : hand = .idle
  status : ∀ normalized, result = .ok (.ok normalized) → normalized.status = proposal.status

theorem normalizeActionProposal_follows (proposal : ActionProposal) :
    (normalizeActionProposal py proposal).Follows rule .idle (Normalized proposal) := by
  unfold normalizeActionProposal
  split
  · exact Normalized.mk rfl (by rintro _ ⟨⟩; rfl)
  · dsimp only
    split
    · exact Normalized.mk rfl (by simp)
    · refine .bind (idle_resolveContainerTarget _ _) ?_ fun _ _ idle => ⟨idle,by simp⟩
      rintro resolved _ rfl
      cases resolved with
      | matched => exact Normalized.mk rfl (by rintro _ ⟨⟩; rfl)
      | ambiguous | notFound => exact Normalized.mk rfl (by simp)

theorem idle_checkApproval (claims : Claims) (proposal : ActionProposal) :
    Idle (checkApproval py claims proposal) := by
  unfold checkApproval
  dsimp only
  split
  · exact .bind (.perform fun _ => rfl) fun _ => .throw_bind
  · refine .bind .ofExcept fun service => ?_
    split
    · exact .bind (.perform fun _ => rfl) fun _ => .throw
    · exact .pure

theorem idle_metricResolved (metric nodeId : String) (latest : Option Fields) :
    Idle (metricResolved py metric nodeId latest) := by
  unfold metricResolved
  split
  · exact .pure
  · refine .bind (.perform fun _ => rfl) fun row => ?_
    cases row <;> exact .pure

theorem idle_checkMetricResolved (proposal : ActionProposal) :
    Idle (checkMetricResolved py proposal) := by
  unfold checkMetricResolved
  split
  · exact .pure
  · split
    · exact idle_metricResolved _ _ _
    · exact .bind (.perform fun _ => rfl) (idle_metricResolved _ _)

theorem idle_doCancel (proposal : ActionProposal) (reason : String) :
    Idle (doCancel proposal reason) := by
  refine .bind (.perform fun _ => rfl) fun now => ?_
  refine .bind (idle_update rfl rfl) fun _ => ?_
  split
  · exact .perform fun _ => rfl
  · exact .pure

theorem idle_expireRow (now : ℚ) (id : String) (row : ProposalRow) :
    Idle (expireRow py now id row) := by
  refine .bind .ofExcept fun proposal => ?_
  split
  · exact .bind (idle_doCancel _ _) fun _ => .pure
  · refine .bind (idle_checkMetricResolved _) fun reason => ?_
    split
    · exact .pure
    · exact .pure
    · exact .bind (idle_doCancel _ _) fun _ => .pure

theorem idle_expireRows (now : ℚ) (rows : List (String × ProposalRow)) :
    Idle (expireRows py now rows) := by
  induction rows with
  | nil => exact .pure
  | cons entry rest ih =>
    exact .bind (idle_expireRow _ _ _) fun _ => .bind ih fun _ => .pure

theorem idle_autoExpireProposals : Idle (autoExpireProposals py) :=
  .bind (.perform fun _ => rfl) fun now => .bind (.perform fun _ => rfl) fun _ => idle_expireRows now _

theorem idle_loadPending (id : String) : Idle (loadPending id) := by
  refine .bind (.perform fun _ => rfl) fun row => ?_
  cases row with
  | none => exact .throw
  | some row =>
    refine .bind .ofExcept fun proposal => ?_
    dsimp only
    split
    · exact .throw_bind
    · exact .pure

variable {now : ℚ} {proposal : ActionProposal} {hand : Hand} {id : String}

/-- Only a pending proposal is rejected. -/
theorem reject_status {rejected : ActionProposal} {userId reason : String}
    (done : proposal.reject userId reason now = .ok rejected) : rejected.status = .rejected := by
  unfold ActionProposal.reject at done
  split at done
  · contradiction
  · exact Except.ok.inj done ▸ rfl

theorem approve_status {approved : ActionProposal} {userId : String}
    (done : proposal.approve userId now = .ok approved) : approved.status = .approved := by
  unfold ActionProposal.approve at done
  split at done
  · contradiction
  · exact Except.ok.inj done ▸ rfl

theorem complete_status {completed : ActionProposal} {success : Bool} {result : Fields} (done : proposal.complete success result now = .ok completed) :
    completed.status = if success then .executed else .failed := by
  unfold ActionProposal.complete at done
  split at done
  · contradiction
  · exact Except.ok.inj done ▸ rfl

theorem outcome_status : ∀ success : Bool,
    (if success then ProposalStatus.executed else .failed) = .executed ∨
      (if success then ProposalStatus.executed else .failed) = .failed := by
  decide

/-- What goes on after a computation that may raise knows that it did not. -/
theorem idle_ofExcept_bind {α β : Type} {result : Except PyError α} {next : α → Task β}
    (goesOn : ∀ value, result = .ok value → Idle (next value)) :
    Idle (Prog.ofExcept result >>= next) := by
  cases result with
  | error error => exact .throw
  | ok value => exact goesOn value rfl

theorem idle_rejectProposal (id : String) (claims : Claims) (reason : String) :
    Idle (rejectProposal id claims reason) := by
  refine .bind (idle_loadPending id) fun proposal => ?_
  refine .bind (.perform fun _ => rfl) fun now => ?_
  refine idle_ofExcept_bind fun rejected done => ?_
  refine .bind (idle_update (reject_status done) rfl) fun _ => ?_
  exact .bind (.perform fun _ => rfl) fun _ => .pure

theorem idle_resolveIntentResult (intentId dispatchId nodeId : String) (result : Fields) :
    Idle (resolveIntentResult intentId dispatchId nodeId result) := by
  refine .bind (.perform fun _ => rfl) fun found => ?_
  rcases found with _ | ⟨id,row⟩
  · exact .throw
  · refine .bind (.perform fun _ => rfl) fun now => ?_
    exact .bind (idle_update (outcome_status _) rfl) fun _ => .perform fun _ => rfl

/-! A dispatch, from its claim to the write of its result -/

/-- What is in the hand while the intent of a proposal is sent and awaited. -/
def InFlight (id : String) (result : Except PyError Fields) (hand : Hand) : Prop :=
  match result with
  | .ok _ => hand = .claimed id ∨ hand = .sent id
  | .error error => if isCaught error then hand = .claimed id ∨ hand = .sent id else hand = .lost id

/-- What is in the hand after a step that keeps it unless it raises. -/
def Kept (kept lost : Hand) {α : Type} (result : Except PyError α) (hand : Hand) : Prop :=
  hand = unlessRaised result kept lost

theorem kept_follows {act : Act} {kept lost : Hand}
    (allowed : ∀ reply, rule act reply hand = some (unlessRaised reply kept lost)) :
    (Prog.perform act : Task act.Reply).Follows rule hand (Kept kept lost) :=
  .perform fun reply => ⟨_,allowed reply,rfl⟩

theorem Kept.inFlight {kept : Hand} {α : Type} {error : PyError}
    (ended : Kept kept (.lost id) (.error error : Except PyError α) hand)
    (held : kept = .claimed id ∨ kept = .sent id) : InFlight id (.error error) hand := by
  unfold Kept unlessRaised at ended
  unfold InFlight
  subst ended
  by_cases caught : isCaught error
  · simpa [caught] using held
  · simp [caught]

/-- Waiting for the answer only changes the text of a timeout. -/
theorem answer_follows {future : Nat} (text : String) :
    (do try
          nm (.awaitFuture future)
        catch error =>
          match error with
          | .timeoutError _ => throw (.timeoutError text)
          | error => throw error : Task Fields).Follows rule (.sent id) (Kept (.sent id) (.lost id)) := by
  refine .attempt (kept_follows fun _ => rfl) (fun _ _ ended => ended) fun error hand ended => ?_
  unfold Kept at ended ⊢
  cases error <;> exact ended

theorem closeIntent_follows {result : Except PyError Fields}
    (intentId : String) (ended : Kept (.sent id) (.lost id) result hand) :
    (nm (.closeIntent intentId)).Follows rule hand (Prog.afterCleanup (InFlight id) result) := by
  have fromHand : hand = .sent id ∧ InFlight id result hand ∨
      hand = .lost id ∧ InFlight id result hand := by
    cases result with
    | ok value => exact .inl ⟨ended,.inr ended⟩
    | error error =>
      have flight := ended.inFlight (.inr rfl)
      unfold Kept unlessRaised at ended
      by_cases caught : isCaught error
      · exact .inl ⟨by simpa [caught] using ended,flight⟩
      · exact .inr ⟨by simpa [caught] using ended,flight⟩
  rcases fromHand with ⟨rfl,flight⟩ | ⟨rfl,flight⟩
  · refine (kept_follows fun _ => rfl).mono ?_
    rintro (error | value) after same
    · exact same.inFlight (.inr rfl)
    · exact same ▸ flight
  · refine .perform fun reply => ⟨_,rfl,?_⟩
    cases reply with
    | ok value => exact flight
    | error error => exact Kept.inFlight (α := Unit) rfl (.inr rfl)

theorem sendIntent_follows (floatText : ℚ → String) (nodeId : String) {intent : Intent}
    (timeout maxAge : Option ℚ) (own : intent.proposal = some id) :
    (sendIntent nm floatText nodeId intent timeout maxAge).Follows rule (.claimed id)
      (InFlight id) := by
  have sends : ∀ (websocket : Socket) reply, rule (.nm (.sendIntent websocket intent)) reply
      (.claimed id) = some (unlessRaised reply (.sent id) (.lost id)) := by
    intro websocket reply
    simp [rule,own]
  refine .bind (kept_follows fun _ => rfl) ?_ fun _ _ same => same.inFlight (.inl rfl)
  rintro default _ rfl
  refine .bind (kept_follows fun _ => rfl) ?_ fun _ _ same => same.inFlight (.inl rfl)
  rintro ⟨websocket,future⟩ _ rfl
  refine .bind (kept_follows (sends websocket)) ?_ fun _ _ same => same.inFlight (.inr rfl)
  rintro _ _ rfl
  exact .ensure (answer_follows _) fun _ _ ended => closeIntent_follows _ ended

/-- The dispatcher goes on with the claim in its hand, or raises without it. -/
theorem sendApproved_follows (intentId : String) (timeout : Option ℚ) :
    (sendApproved py proposal intentId timeout).Follows rule (.claimed proposal.id)
      fun result hand =>
        match result with
        | .ok _ => hand = .claimed proposal.id ∨ hand = .sent proposal.id
        | .error _ => hand = .lost proposal.id := by
  refine .attempt (sendIntent_follows _ _ timeout none rfl) (fun _ _ flight => flight) ?_
  intro error hand flight
  by_cases caught : isCaught error
  · simp only [InFlight,caught,if_true] at flight ⊢
    exact flight
  · simp only [InFlight,caught] at flight ⊢
    exact flight

def Released (hand : Hand) : Prop := hand = .idle ∨ ∃ id, hand = .settled id ∨ hand = .lost id

structure Loaded (id : String) (result : Except PyError ActionProposal) (hand : Hand) : Prop where
  idle : hand = .idle
  approved : ∀ proposal, result = .ok proposal → proposal.id = id ∧ proposal.status = .approved

theorem fromDbRow_id {row : ProposalRow}
    (read : ActionProposal.fromDbRow id row = .ok proposal) : proposal.id = id := by
  unfold ActionProposal.fromDbRow at read
  split at read
  · exact Except.ok.inj read ▸ rfl
  · exact Except.ok.inj read ▸ rfl
  · contradiction

/-- A dispatch goes on with a proposal it has read as approved. -/
theorem loadApproved_follows (id : String) : (loadApproved id).Follows rule .idle (Loaded id) := by
  refine .bind (.perform (fun _ => rfl) : Idle (selectProposal id)) ?_ fun _ _ idle => ⟨idle,by simp⟩
  rintro row _ rfl
  cases row with
  | none => exact Loaded.mk rfl (by simp)
  | some row =>
    refine .bind .ofExcept ?_ fun _ _ ended => ⟨ended.2,by simp⟩
    rintro proposal _ ⟨read,rfl⟩
    dsimp only
    split
    · exact Loaded.mk rfl (by simp)
    · rename_i approved
      refine Loaded.mk rfl ?_
      rintro _ ⟨⟩
      exact ⟨fromDbRow_id read.symm,by simpa using approved⟩

/-- From the answer on: the time, the result, the audit. -/
theorem completes_follows (approved : proposal.status = .approved) (held : hand = .claimed proposal.id ∨ hand = .sent proposal.id)
    (result : Fields) (entry : ActionProposal → AuditEntry) :
    (do let completedAt ← clock
        let completed ← Prog.ofExcept (proposal.complete (succeeded result) result completedAt)
        update (.completion proposal.id completed.toDbDict)
        logAction (entry completed)
        return result : Task Fields).Follows rule hand fun _ after => Released after := by
  have clocks : clock.Follows rule hand fun reply after =>
      after = if answered reply then hand else .lost proposal.id := by
    refine .perform fun reply => ⟨_,?_,rfl⟩
    rcases held with rfl | rfl <;> rfl
  have updates : ∀ data : ProposalRow, data.status = .executed ∨ data.status = .failed →
      (Proposals.update (.completion proposal.id data)).Follows rule hand fun reply after =>
        after = if answered reply then .settled proposal.id else .idle := by
    intro data outcome
    refine .perform fun reply => ⟨_,?_,rfl⟩
    rcases held with rfl | rfl <;> exact if_pos ⟨rfl,outcome⟩
  refine .bind clocks ?_ fun _ _ lost => .inr ⟨_,.inr lost⟩
  rintro completedAt _ rfl
  cases completed : proposal.complete (succeeded result) result completedAt with
  | error error => simp [ActionProposal.complete,approved] at completed
  | ok completed' =>
    have outcome := outcome_status (succeeded result)
    rw [← complete_status completed] at outcome
    change Prog.Follows rule (update (.completion proposal.id completed'.toDbDict) >>= _) _ _
    refine .bind (updates _ outcome) ?_ fun _ _ => .inl
    rintro _ _ rfl
    refine .bind (.perform (fun _ => rfl) : Prog.Stays rule (.settled proposal.id) (logAction _)) ?_ ?_
    all_goals exact fun _ _ same => .inr ⟨_,.inl same⟩

theorem dispatchApprovedImpl_follows (id : String) (timeout : Option ℚ) :
    (dispatchApprovedImpl py id timeout).Follows rule .idle fun _ hand => Released hand := by
  refine .bind (loadApproved_follows id) ?_ fun _ _ ended => .inl ended.idle
  rintro proposal _ loaded
  obtain rfl := loaded.idle
  obtain ⟨rfl,approved⟩ := loaded.approved proposal rfl
  refine .bind (.perform (fun _ => rfl) : Idle uuid) ?_ fun _ _ => .inl
  rintro dispatchId _ rfl
  refine .bind (.perform (fun _ => rfl) : Idle uuid) ?_ fun _ _ => .inl
  rintro intentId _ rfl
  refine .bind (.perform (fun _ => rfl) : Idle clock) ?_ fun _ _ => .inl
  rintro now _ rfl
  have claims : (claim proposal.id dispatchId intentId (now+300) now).Follows rule .idle
      fun reply hand => hand = if answered reply then .claimed proposal.id else .idle :=
    .perform fun reply => ⟨_,rfl,rfl⟩
  refine .bind claims ?_ fun _ _ => .inl
  rintro _ _ rfl
  refine .bind (sendApproved_follows intentId timeout) ?_ fun _ _ lost => .inr ⟨_,.inr lost⟩
  intro result hand flight
  exact completes_follows approved flight result _

/-- A dispatch begins and ends with an idle hand, whatever happens to it. -/
theorem idle_dispatchApproved (dispatcher id : String) (timeout : Option ℚ) :
    Idle (dispatchApproved py dispatcher id timeout) := by
  refine .bind (.perform fun _ => rfl) fun _ => ?_
  refine Prog.Follows.ensure (dispatchApprovedImpl_follows id timeout) fun result hand released => ?_
  refine .perform fun reply => ⟨.idle,?_,?_⟩
  · rcases released with rfl | ⟨_,rfl | rfl⟩ <;> rfl
  · cases reply <;> rfl

theorem idle_catchException {program : Task Unit} (h : Idle program) :
    Idle (do
      try program
      catch error => if error.isException then pure () else throw error) := by
  refine .attempt h fun error => ?_
  split
  · exact .pure
  · exact .throw

theorem idle_reconcileRows (dispatcher : String) (rows : List (String × ProposalRow)) :
    Idle (reconcileRows py dispatcher rows) := by
  induction rows with
  | nil => exact .pure
  | cons entry rest ih =>
    exact .bind (idle_catchException (.bind (idle_dispatchApproved _ _ _) fun _ => .pure)) fun _ => ih

theorem idle_reconcileApproved (dispatcher : String) : Idle (reconcileApproved py dispatcher) :=
  idle_catchException (.bind (.perform fun _ => rfl) (idle_reconcileRows dispatcher))

theorem idle_dispatchAdminAction (dispatcher nodeId action : String) (params : Fields)
    (userId : String) (timeout : Option ℚ) (reasoning : Option String) (riskLevel : String) :
    Idle (dispatchAdminAction py dispatcher nodeId action params userId timeout reasoning riskLevel) :=
  .bind (.perform fun _ => rfl) fun _ => .bind (.perform fun _ => rfl) fun _ =>
    .bind (.perform fun _ => rfl) fun _ => .bind (.perform fun _ => rfl) fun _ =>
      idle_dispatchApproved _ _ _

/-- Every write of an approval is of the status it has reached in memory. -/
theorem idle_approveProposal (dispatcher id : String) (claims : Claims) :
    Idle (approveProposal py dispatcher id claims) := by
  refine .bind (idle_loadPending id) fun proposal => ?_
  refine .bind (idle_checkApproval _ _) fun _ => ?_
  refine .bind (.perform fun _ => rfl) fun approvedAt => ?_
  refine idle_ofExcept_bind fun approved done => ?_
  refine Prog.Follows.bind (normalizeActionProposal_follows approved) ?_ fun _ _ ended => ended.idle
  intro normalized hand ended
  obtain rfl := ended.idle
  cases normalized with
  | error validationError =>
    refine Prog.Stays.bind (.perform fun _ => rfl) fun failedAt => ?_
    refine idle_ofExcept_bind fun failed completed => ?_
    refine .bind (idle_update (complete_status completed) rfl) fun _ => ?_
    exact .bind (.perform fun _ => rfl) fun _ => .pure
  | ok normalized =>
    have approvedStatus := (ended.status normalized rfl).trans (approve_status done)
    refine Prog.Stays.bind (idle_update approvedStatus rfl) fun _ => ?_
    refine .bind (idle_dispatchApproved _ _ _) fun result => ?_
    refine .bind (.perform fun _ => rfl) fun _ => .bind (.perform fun _ => rfl) fun row => ?_
    cases row with
    | none => exact .throw
    | some row => exact .ofExcept

theorem operation_idle (operation : Operation) : Idle (operation.program py) := by
  cases operation with
  | approve => exact .bind (idle_approveProposal _ _ _) fun _ => .pure
  | reject => exact .bind (idle_rejectProposal _ _ _) fun _ => .pure
  | autoExpire => exact .bind idle_autoExpireProposals fun _ => .pure
  | dispatch => exact .bind (idle_dispatchApproved _ _ _) fun _ => .pure
  | reconcile => exact idle_reconcileApproved _
  | resolveResult => exact idle_resolveIntentResult _ _ _ _
  | adminAction => exact .bind (idle_dispatchAdminAction _ _ _ _ _ _ _ _) fun _ => .pure
  | persist | register | unregister | intentResult | cleanup => exact .perform fun _ => rfl
  | popConnection => exact .bind (.perform fun _ => rfl) fun _ => .pure

/-- Every task keeps to the protocol, from an idle hand to an idle hand. -/
theorem start_follows {τ : Type} (proposals : OrderedMap String ProposalRow) (nm : NodeManager)
    (operations : τ → Operation) (task : τ) :
    ((start py proposals nm operations).tasks task).Follows rule .idle fun _ hand => hand = .idle :=
  operation_idle (operations task)

end Vigile.Proposals
