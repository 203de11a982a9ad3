import Vigile.ProposalDispatch

/-! A dispatch that has claimed its proposal leaves it executed or failed, when sending
and awaiting the intent raise only what the dispatcher catches and no late decision
overwrites the outcome. -/
namespace Vigile.Proposals

open Interleaving Python NodeManager

variable {τ : Type} [DecidableEq τ]

/-- The proposal whose claim the task has won, up to the release of the dispatcher's lock.
A dispatch that fails to write its result is not followed further. -/
def wonBy (task : τ) (past : List (Step τ)) : Option String :=
  past.foldl (fun won tr =>
    if tr.task = task then
      match tr.action with
      | .claim id _ _ _ _ => if answered tr.reply then some id else won
      | .update (.completion _ _) => if answered tr.reply then won else none
      | .release _ => none
      | _ => won
    else won) none

/-- The proposals of the dispatches that have won a claim and have terminated. -/
def ended (past : List (Step τ)) : List (Step τ) → List String
  | [] => []
  | tr :: rest =>
    (if isRelease tr.action then (wonBy tr.task past).toList else []) ++ ended (past ++ [tr]) rest

def isOutcome (status : ProposalStatus) : Bool := status = .executed ∨ status = .failed

/-- Its status is EXECUTED or FAILED. -/
def Settled (table : OrderedMap String ProposalRow) (id : String) : Prop :=
  ∃ row, table.get? id = some row ∧ isOutcome row.status

/-- Opening, sending or awaiting an intent raises nothing but RuntimeError and TimeoutError:
the task is not cancelled, nor the future it waits for, and no send fails otherwise. -/
def Caught (tr : Step τ) : Prop :=
  match tr.action with
  | .nm (.openIntent _ _ _) | .nm (.sendIntent _ _) =>
    ∀ error, tr.choice.fault.error? = some error → isCaught error = true
  | .nm (.awaitFuture future) =>
    (∀ error, tr.choice.fault.error? = some error → isCaught error = true) ∧
      ∀ future', tr.before.nm.futures[future]? = some future' → future'.isCancelled = false
  | _ => True

/-- No UPDATE that takes effect writes APPROVED or REJECTED over the outcome of a dispatch. -/
def Spared (tr : Step τ) : Prop :=
  ∀ update, tr.action = .update update → (∀ error, tr.choice.fault ≠ .before error) →
    isOutcome update.status = false → ∀ id row, tr.before.proposals.get? id = some row →
      update.selects id row = true → ¬(row.dispatchId.isSome ∧ isOutcome row.status)

variable {past : List (Step τ)} {tr : Step τ} {id : String}

/-- The outcome of a dispatch. -/
def SettledRow (table : OrderedMap String ProposalRow) (id : String) : Prop :=
  ∃ row, table.get? id = some row ∧ row.dispatchId.isSome ∧ isOutcome row.status

omit [DecidableEq τ] in
/-- An outcome stays one. -/
theorem settledRow_after (taken : Taken exec tr) (spared : Spared tr)
    (before : SettledRow tr.before.proposals id) : SettledRow tr.after.proposals id := by
  obtain ⟨row,found,isClaimed,outcome⟩ := before
  cases tableStep_of_taken taken with
  | same _ unchanged => exact ⟨row,by rw [unchanged,found],isClaimed,outcome⟩
  | inserted key data _ unused after =>
    have differ : id ≠ key := by
      rintro rfl
      simp [found] at unused
    exact ⟨row,by rw [after,OrderedMap.get?_set_of_ne differ,found],isClaimed,outcome⟩
  | claimed key dispatchId intentId expiresAt now _ _ _ _ after =>
    refine ⟨_,by rw [after,claimRow,OrderedMap.get?_modify,found,Option.map_some],?_⟩
    split
    · exact ⟨rfl,outcome⟩
    · exact ⟨isClaimed,outcome⟩
  | updated update action struck after =>
    refine ⟨_,by rw [after,StatusUpdate.run,OrderedMap.get?_modify,found,Option.map_some],?_⟩
    split
    · rename_i selected
      rw [StatusUpdate.apply_dispatchId,StatusUpdate.apply_status]
      refine ⟨isClaimed,?_⟩
      by_contra other
      exact spared update action struck (by simpa using other) id row found selected
        ⟨isClaimed,outcome⟩
    · exact ⟨isClaimed,outcome⟩

omit [DecidableEq τ] in
/-- The write of a result that goes through settles a claimed proposal. -/
theorem settledRow_of_completion {data : ProposalRow} (taken : Taken exec tr)
    (action : tr.action = .update (.completion id data)) (done : answered tr.reply = true)
    (outcome : data.status = .executed ∨ data.status = .failed)
    (before : Dispatched tr.before.proposals id) : SettledRow tr.after.proposals id := by
  obtain ⟨row,found,isClaimed⟩ := before
  have wrote : tr.after.proposals = (StatusUpdate.completion id data).run tr.before.proposals := by
    obtain ⟨task,act,choice,before,reply,after⟩ := tr
    subst action
    cases reply with
    | error error => simp [answered] at done
    | ok value =>
      obtain ⟨_,wrote⟩ := strike_ok (Option.some.inj taken)
      exact (congrArg State.proposals (Prod.mk.inj wrote).1).symm
  refine ⟨_,by rw [wrote,StatusUpdate.run,OrderedMap.get?_modify,found,Option.map_some],?_⟩
  simpa [StatusUpdate.selects,StatusUpdate.apply,isClaimed,isOutcome] using outcome

variable {error : PyError} {after nm : NodeManager} {outside : NodeManager.Outside}

/-- A struck call raises the error of its fault, or its own. -/
theorem strike_error {σ α : Type} {fault : Fault} {s s' : σ} {done : σ × Except PyError α} (h : fault.strike s done = (s',.error error)) :
    fault.error? = some error ∨ done.2 = .error error := by
  cases fault with
  | none => exact .inr (congrArg Prod.snd h)
  | before e | after e => exact .inl (congrArg some (Except.error.inj (congrArg Prod.snd h)))

theorem caught_of_await {future : Nat} (raised : awaitFuture nm future outside = some (after,.error error))
    (faults : ∀ error, outside.fault.error? = some error → isCaught error = true)
    (live : ∀ future', nm.futures[future]? = some future' → future'.isCancelled = false) :
    isCaught error = true := by
  unfold awaitFuture at raised
  cases fault : outside.fault with
  | before e | after e =>
    rw [fault] at raised faults
    obtain rfl := Except.error.inj (congrArg Prod.snd (Option.some.inj raised))
    exact faults _ rfl
  | none =>
    rw [fault] at raised
    simp only at raised
    split at raised
    · contradiction
    · simp at raised
    · rename_i cancelled
      simpa [Future.isCancelled] using live _ cancelled
    · split at raised
      · obtain rfl := Except.error.inj (congrArg Prod.snd (Option.some.inj raised))
        rfl
      · contradiction

theorem caught_of_nm {act : NodeManager.Act} (steps : inFlight (.nm act) = true)
    (raised : NodeManager.exec act outside nm = some (after,.error error))
    (caught : match act with
      | .openIntent _ _ _ | .sendIntent _ _ =>
        ∀ error, outside.fault.error? = some error → isCaught error = true
      | .awaitFuture future =>
        (∀ error, outside.fault.error? = some error → isCaught error = true) ∧
          ∀ future', nm.futures[future]? = some future' → future'.isCancelled = false
      | _ => True) : isCaught error = true := by
  cases act with
  | defaultTimeout | closeIntent => simp [NodeManager.exec,Act.awaits,NodeManager.effect] at raised
  | openIntent nodeId intent maxAge =>
    rcases strike_error (Option.some.inj raised) with fault | own
    · exact caught _ fault
    · simp only [NodeManager.effect,NodeManager.openIntent] at own
      cases found : nm.connections.get? nodeId with
      | none =>
        simp only [found] at own
        exact Except.error.inj own ▸ rfl
      | some conn => simp [found] at own
  | sendIntent websocket intent =>
    rcases strike_error (Option.some.inj raised) with fault | own
    · exact caught _ fault
    · simp [NodeManager.effect] at own
  | awaitFuture future => exact caught_of_await raised caught.1 caught.2
  | _ => simp [inFlight] at steps

omit [DecidableEq τ] in
theorem caught_of_raised (taken : Taken exec tr)
    (steps : inFlight tr.action = true) (raised : errorOf tr.reply = some error)
    (caught : Caught tr) : tr.action ≠ .clock ∧ isCaught error = true := by
  obtain ⟨task,action,choice,before,reply,after⟩ := tr
  cases reply with
  | ok value => simp [errorOf] at raised
  | error error' =>
    obtain rfl := Option.some.inj raised
    cases action with
    | clock => simp [Taken,exec,effect] at taken
    | nm act =>
      refine ⟨by simp,?_⟩
      obtain ⟨⟨nm,reply⟩,done,eq⟩ := Option.map_eq_some_iff.mp taken
      obtain rfl : reply = .error error' := (Prod.mk.inj eq).2
      refine caught_of_nm steps done ?_
      cases act <;> exact caught
    | _ => simp [inFlight] at steps

def Hand.proposal? : Hand → Option String
  | .idle => none
  | .claimed id | .sent id | .settled id | .lost id => some id

structure DispatchInvariant (past : List (Step τ)) (hands : τ → Hand) (s : State) : Prop where
  won : ∀ task, wonBy task past = (hands task).proposal?
  kept : ∀ task id, hands task ≠ .lost id
  flying : ∀ task id, hands task = .claimed id ∨ hands task = .sent id → Dispatched s.proposals id
  settled : ∀ task id, hands task = .settled id → SettledRow s.proposals id
  ended : ∀ id ∈ ended [] past, SettledRow s.proposals id

theorem wonBy_concat (task : τ) (past : List (Step τ)) (tr : Step τ) :
    wonBy task (past ++ [tr]) =
      if tr.task = task then
        match tr.action with
        | .claim id _ _ _ _ => if answered tr.reply then some id else wonBy task past
        | .update (.completion _ _) => if answered tr.reply then wonBy task past else none
        | .release _ => none
        | _ => wonBy task past
      else wonBy task past := by
  simp [wonBy,List.foldl_append]

theorem ended_concat (before past : List (Step τ)) (tr : Step τ) :
    ended before (past ++ [tr]) = ended before past ++
      if isRelease tr.action then (wonBy tr.task (before ++ past)).toList else [] := by
  induction past generalizing before with
  | nil => simp [ended]
  | cons first rest ih => simp [ended,ih]

variable {hands : τ → Hand} {next : Hand}

theorem isRelease_of_inFlight {act : Act} (steps : inFlight act = true) : isRelease act = false := by
  cases act <;> simp_all [inFlight,isRelease]

/-- The steps in flight leave what a task has won alone. -/
theorem wonBy_inFlight (steps : inFlight tr.action = true) :
    wonBy tr.task (past ++ [tr]) = wonBy tr.task past := by
  rw [wonBy_concat,if_pos rfl]
  split
  · rename_i action
    simp [inFlight,action] at steps
  · rename_i action
    simp [inFlight,action] at steps
  · rename_i action
    simp [inFlight,action] at steps
  · rfl

/-- The hand and the history of a task agree about the claim it has won. -/
theorem won_after {hand : Hand} (move : Move tr hand next) (won : wonBy tr.task past = hand.proposal?)
    (kept : ∀ id, hand ≠ .lost id) : wonBy tr.task (past ++ [tr]) = next.proposal? := by
  cases move with
  | rests silent noClaim noResult =>
    rw [wonBy_concat,if_pos rfl]
    split
    · rename_i action
      rw [noClaim _ _ _ _ _ action]
      exact won
    · rename_i action
      exact absurd action (noResult _ _)
    · rfl
    · exact won
  | waits steps | sends steps | awaits steps => exact (wonBy_inFlight steps).trans won
  | loses held steps =>
    rw [wonBy_inFlight steps,won]
    rcases held with rfl | rfl <;> rfl
  | wins action isWon => simp [wonBy_concat,action,isWon,Hand.proposal?]
  | completes held action _ done =>
    have same : wonBy tr.task (past ++ [tr]) = wonBy tr.task past := by
      simp [wonBy_concat,action,done]
    rw [same,won]
    rcases held with rfl | rfl <;> rfl
  | givesUp held action failed => simp [wonBy_concat,action,failed,Hand.proposal?]
  | audits action => simp [wonBy_concat,action,won]
  | closes => exact absurd rfl (kept _)
  | releases _ action => simp [wonBy_concat,action,Hand.proposal?]

/-- A task that moves keeps its dispatch from being lost, and settles what it completes. -/
theorem DispatchInvariant.mover_after (inv : DispatchInvariant past hands tr.before)
    (taken : Taken exec tr) (move : Move tr (hands tr.task) next) (spared : Spared tr)
    (caught : wonBy tr.task past ≠ none → Caught tr) :
    (∀ id, next ≠ .lost id) ∧
      (∀ id, next = .claimed id ∨ next = .sent id → Dispatched tr.after.proposals id) ∧
      ∀ id, next = .settled id → SettledRow tr.after.proposals id := by
  have won := inv.won tr.task
  have flying := inv.flying tr.task
  have settled := inv.settled tr.task
  have kept := inv.kept tr.task
  generalize hands tr.task = hand at move won flying settled kept
  cases move with
  | rests | givesUp | releases => simp
  | wins action isWon =>
    refine ⟨by simp,fun id held => ?_,by simp⟩
    rcases held with held | held <;> cases held
    exact (claim_won taken action isWon).2
  | waits | awaits =>
    exact ⟨by simp,fun id held => dispatched_after taken (flying id held),by simp⟩
  | sends =>
    refine ⟨by simp,fun id held => ?_,by simp⟩
    rcases held with held | held <;> cases held
    exact dispatched_after taken (flying _ (.inl rfl))
  | loses held steps raised uncaught =>
    have mine : wonBy tr.task past ≠ none := by
      rw [won]
      rcases held with rfl | rfl <;> simp [Hand.proposal?]
    obtain ⟨notClock,isCaught'⟩ := caught_of_raised taken steps raised (caught mine)
    rcases uncaught with clock | other
    · exact absurd clock notClock
    · simp [isCaught'] at other
  | completes held action outcome done =>
    refine ⟨by simp,by simp,?_⟩
    rintro id ⟨⟩
    exact settledRow_of_completion taken action done outcome (flying _ held)
  | audits action =>
    refine ⟨by simp,by simp,?_⟩
    rintro id ⟨⟩
    exact settledRow_after taken spared (settled _ rfl)
  | closes => exact absurd rfl (kept _)

theorem DispatchInvariant.step (inv : DispatchInvariant past hands tr.before) (taken : Taken exec tr)
    (allowed : rule tr.action tr.reply (hands tr.task) = some next) (spared : Spared tr)
    (caught : wonBy tr.task past ≠ none → Caught tr) :
    DispatchInvariant (past ++ [tr]) (Function.update hands tr.task next) tr.after := by
  have move := move_of_rule allowed
  obtain ⟨keeps,flies,settles⟩ := inv.mover_after taken move spared caught
  refine ⟨fun task => ?_,fun task id => ?_,fun task id held => ?_,fun task id held => ?_,?_⟩
  · by_cases moved : task = tr.task
    · subst moved
      rw [Function.update_self]
      exact won_after move (inv.won _) (inv.kept _)
    · rw [Function.update_of_ne moved,wonBy_concat,if_neg (Ne.symm moved)]
      exact inv.won task
  · by_cases moved : task = tr.task
    · subst moved
      rw [Function.update_self]
      exact keeps id
    · rw [Function.update_of_ne moved]
      exact inv.kept task id
  · by_cases moved : task = tr.task
    · subst moved
      rw [Function.update_self] at held
      exact flies id held
    · rw [Function.update_of_ne moved] at held
      exact dispatched_after taken (inv.flying task id held)
  · by_cases moved : task = tr.task
    · subst moved
      rw [Function.update_self] at held
      exact settles id held
    · rw [Function.update_of_ne moved] at held
      exact settledRow_after taken spared (inv.settled task id held)
  · intro id member
    rw [ended_concat] at member
    rcases List.mem_append.mp member with before | now
    · exact settledRow_after taken spared (inv.ended id before)
    · split at now
      · rename_i release
        rw [List.nil_append,inv.won] at now
        have held := inv.settled tr.task id
        have kept := inv.kept tr.task id
        generalize hands tr.task = hand at move now held kept
        cases move with
        | rests => simp [Hand.proposal?] at now
        | releases isHeld =>
          rcases isHeld with rfl | rfl
          · obtain rfl : id = _ := by simpa [Hand.proposal?] using now
            exact settledRow_after taken spared (held rfl)
          · obtain rfl : id = _ := by simpa [Hand.proposal?] using now
            exact absurd rfl kept
        | waits steps | sends steps | awaits steps | loses _ steps =>
          simp [isRelease_of_inFlight steps] at release
        | wins action | completes _ action | givesUp _ action | audits action | closes action =>
          simp [isRelease,action] at release
      · contradiction

/-- In every run whose steps are spared and caught, a dispatch that wins its claim and
terminates leaves the proposal executed or failed, then and ever after. -/
theorem claimed_dispatch_settles (py : Builtins) (proposals : OrderedMap String ProposalRow)
    (nm : NodeManager) (operations : τ → Operation) (schedule : List (τ × Outside))
    (lawful : Throughout (fun past tr => Spared tr ∧ (wonBy tr.task past ≠ none → Caught tr)) []
      (run exec schedule (start py proposals nm operations)).2) :
    ∀ id ∈ ended [] (run exec schedule (start py proposals nm operations)).2,
      Settled (run exec schedule (start py proposals nm operations)).1.shared.proposals id := by
  have atStart : DispatchInvariant [] (fun _ : τ => .idle) (start py proposals nm operations).shared :=
    ⟨by simp [wonBy,Hand.proposal?],by simp,by simp,by simp,by simp [ended]⟩
  have keeps : ∀ (past : List (Step τ)) hands (tr : Step τ) next,
      DispatchInvariant past hands tr.before → Taken exec tr →
      rule tr.action tr.reply (hands tr.task) = some next →
      Spared tr ∧ (wonBy tr.task past ≠ none → Caught tr) →
      DispatchInvariant (past ++ [tr]) (Function.update hands tr.task next) tr.after :=
    fun _ _ _ _ inv taken allowed lawful => inv.step taken allowed lawful.1 lawful.2
  obtain ⟨hands,inv,_⟩ := run_keeps keeps schedule _ [] _ atStart (start_follows proposals nm operations)
    lawful
  intro id member
  obtain ⟨row,found,_,outcome⟩ := inv.ended id member
  exact ⟨row,found,outcome⟩

/-! One dispatch, and the disconnection of its worker -/

def approvedRow : ProposalRow := {pendingRow with status := .approved,approvedBy := some "u2"}

def oneApproved : OrderedMap String ProposalRow := OrderedMap.empty.set "p1" approvedRow

def dispatchAndWorker : Nat → Operation
  | 0 => .register "n1" 7 "10.0.0.1"
  | 1 => .dispatch "d1" "p1" none
  | 2 => .intentResult "i1" [("success",.bool true)]
  | _ => .unregister "n1"

def fresh (uuid : String) : Outside := {calm with fresh := uuid}

/-- The worker connects, the dispatch claims the proposal and sends the intent. -/
def sentToWorker : List (Nat × Outside) :=
  [(0,calm),(1,calm),(1,calm),(1,fresh "e1"),(1,fresh "i1"),(1,calm),(1,calm),(1,calm),(1,calm),
    (1,calm)]

def answeredByWorker : List (Nat × Outside) :=
  sentToWorker ++ (2,calm) :: List.replicate 6 (1,calm)

def disconnectedWorker : List (Nat × Outside) :=
  sentToWorker ++ (3,calm) :: List.replicate 6 (1,calm)

/-- An UPDATE, if the step is one, writes an outcome. -/
def writesOutcome : Act → Bool
  | .update update => isOutcome update.status
  | _ => true

/-- A step without fault, while no future is cancelled. -/
def Steady (tr : Step Nat) : Prop :=
  tr.choice.fault = .none ∧ (∀ future ∈ tr.before.nm.futures, future.isCancelled = false) ∧
    writesOutcome tr.action = true

instance (tr : Step Nat) : Decidable (Steady tr) := inferInstanceAs (Decidable (_ ∧ _))

theorem Steady.lawful {tr : Step Nat} (steady : Steady tr) : Spared tr ∧ Caught tr := by
  obtain ⟨undisturbed,live,outcome⟩ := steady
  refine ⟨fun update action _ other => ?_,?_⟩
  · rw [action,writesOutcome,other] at outcome
    contradiction
  · have faults : ∀ error, tr.choice.fault.error? = some error → isCaught error = true := by
      simp [undisturbed,Fault.error?]
    unfold Caught
    split
    · exact faults
    · exact faults
    · exact ⟨faults,fun future' found => live future' (List.mem_of_getElem? found)⟩
    · trivial

example : sends "p1" (run exec answeredByWorker
    (start plainBuiltins oneApproved (NodeManager.started 30 300) dispatchAndWorker)).2 = 1 := by
  decide +kernel

theorem claimed_dispatch_settles_answered : Settled (run exec answeredByWorker
    (start plainBuiltins oneApproved (NodeManager.started 30 300) dispatchAndWorker)).1.shared.proposals
      "p1" := by
  refine claimed_dispatch_settles plainBuiltins oneApproved (NodeManager.started 30 300)
    dispatchAndWorker answeredByWorker (Throughout.mono (P := fun _ tr => Steady tr) ?_ (by decide +kernel))
    "p1" (by decide +kernel)
  exact fun _ _ steady => ⟨steady.lawful.1,fun _ => steady.lawful.2⟩

/-- The cancelled future lets the dispatch end without a result: the proposal stays
APPROVED with its claim. -/
theorem disconnected_dispatch_stuck : ¬∀ (py : Builtins) (proposals : OrderedMap String ProposalRow)
    (nm : NodeManager) (operations : Nat → Operation) (schedule : List (Nat × Outside)),
    ∀ id ∈ ended [] (run exec schedule (start py proposals nm operations)).2,
      Settled (run exec schedule (start py proposals nm operations)).1.shared.proposals id := by
  intro settles
  have stuck : "p1" ∈ ended [] (run exec disconnectedWorker (start plainBuiltins oneApproved
      (NodeManager.started 30 300) dispatchAndWorker)).2 := by
    decide +kernel
  obtain ⟨row,found,outcome⟩ := settles _ _ _ _ _ "p1" stuck
  have status : statusOf (run exec disconnectedWorker (start plainBuiltins oneApproved
      (NodeManager.started 30 300) dispatchAndWorker)).1.shared.proposals "p1" = some .approved := by
    decide +kernel
  rw [statusOf,found,Option.map_some] at status
  rw [Option.some.inj status] at outcome
  contradiction

end Vigile.Proposals
