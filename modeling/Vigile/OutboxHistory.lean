import Vigile.OutboxProtocol

/-! What the history of a run says of the table, of the claims and of the attempts. -/
namespace Vigile.Outbox

open Interleaving Python

variable {η τ : Type}

/-- The statement reached the table. -/
def Effective (tr : Step τ η) : Bool := tr.choice.fault.takesEffect

def claims (tr : Step τ η) : Option Nat :=
  match tr.action,tr.reply with
  | .claim _ entry,.ok true => some entry.id
  | _,_ => none

/-- The entry whose attempt was reported, and whether it is done with. -/
def reports (tr : Step τ η) : Option (Nat × Bool) :=
  match tr.action with
  | .markProcessed _ id | .deadLetter _ id _ _ => if Effective tr then some (id,true) else none
  | .markRetry _ id _ _ => if Effective tr then some (id,false) else none
  | _ => none

def isRestart (tr : Step τ η) : Bool :=
  match tr.action with
  | .restart => true
  | _ => false

/-- The failed attempts that were reported. -/
def failures (past : List (Step τ η)) (id : Nat) : Nat :=
  past.countP fun tr =>
    match tr.action with
    | .deadLetter _ other _ _ | .markRetry _ other _ _ => decide (other = id) && Effective tr
    | _ => false

/-- The entry was processed or dead-lettered. -/
def settled (past : List (Step τ η)) (id : Nat) : Bool := past.any fun tr => decide (reports tr = some (id,true))

/-- The entry was cleaned up. -/
def removed (past : List (Step τ η)) (id : Nat) : Bool :=
  past.any fun tr => (tr.before.rows.get? id).isSome && (tr.after.rows.get? id).isNone

section
variable [DecidableEq τ]

/-- The entry that a task of the present run has claimed and not reported. -/
def claimant (past : List (Step τ η)) (task : τ) : Option Nat :=
  past.foldl (fun held tr =>
    if isRestart tr then none
    else if tr.task = task then
      if (reports tr).isSome then none
      else
        match claims tr with
        | some id => some id
        | none => held
    else held) none

/-- The handlers that succeeded since the task's last claim, and whether one raised. -/
def attempt (past : List (Step τ η)) (task : τ) : List η × Bool :=
  past.foldl (fun seen tr =>
    if tr.task = task then
      if (claims tr).isSome then ([],false)
      else
        match tr.action,tr.reply with
        | .handle _ handler _,.ok _ => (seen.1 ++ [handler],seen.2)
        | .handle _ _ _,.error _ => (seen.1,true)
        | _,_ => seen
    else seen) ([],false)

end

/-! What a step does to the table -/

section
variable {s : Store} {past : List (Step τ η)} {tr : Step τ η}

@[simp] theorem get?_update (id key : Nat) (change : Row → Row) : (s.update id change).rows.get? key =
    (s.rows.get? key).map fun row => if key = id then change row else row := by
  simp [Store.update]

@[simp] theorem update_issued (id : Nat) (change : Row → Row) : (s.update id change).issued = s.issued := rfl

theorem strike_of_taken (taken : Taken exec tr) :
    ∃ base, (tr.after,tr.reply) = tr.choice.fault.strike base (answer tr.before tr.choice.now tr.action) ∧
      (base = tr.before ∧ tr.action.epoch? = some tr.before.epoch ∨
        base = {tr.before with epoch := tr.before.epoch + 1} ∧ tr.action.epoch? = none) := by
  unfold Taken exec at taken
  split at taken
  · rename_i restart
    exact ⟨_,(Option.some.inj taken).symm,.inr ⟨rfl,restart⟩⟩
  · rename_i epoch known
    split at taken
    · rename_i own
      exact ⟨_,(Option.some.inj taken).symm,.inl ⟨rfl,own ▸ known⟩⟩
    · contradiction

/-- A step of the present run either reaches the table or leaves it. -/
theorem after_of_taken {epoch : Nat} (taken : Taken exec tr) (known : tr.action.epoch? = some epoch) :
    epoch = tr.before.epoch ∧
      tr.after = if Effective tr = true then (answer tr.before tr.choice.now tr.action).1 else tr.before := by
  obtain ⟨base,struck,⟨rfl,own⟩ | ⟨_,none⟩⟩ := strike_of_taken taken
  · refine ⟨Option.some.inj (known.symm.trans own),?_⟩
    have after := congrArg Prod.fst struck
    simp only at after
    rw [after,strike_fst]
    rfl
  · rw [known] at none
    contradiction

theorem reply_ok {reply : Reply tr.action} (taken : Taken exec tr) (ok : tr.reply = .ok reply) :
    Effective tr = true ∧ (answer tr.before tr.choice.now tr.action).2 = .ok reply := by
  obtain ⟨base,struck,_⟩ := strike_of_taken taken
  rw [ok] at struck
  obtain ⟨undisturbed,done⟩ := strike_ok struck.symm
  exact ⟨by simp [Effective,undisturbed,Fault.takesEffect],congrArg Prod.snd done⟩

end

def Store.claimedAt (s : Store) (id : Nat) : Bool := (s.rows.get? id).any (·.stage = .claimed)

/-- The entry a task of the given run has claimed. -/
def Mode.live (epoch : Nat) (mode : Mode η) : Option Nat :=
  mode.holding.bind fun held => if held.1 = epoch then some held.2.id else none

def Mode.epoch? : Mode η → Option Nat
  | .looping epoch _ | .dispatching epoch _ _ _ _ | .reporting epoch _ _ _ => some epoch
  | _ => none

theorem live_of_holding_none {mode : Mode η} (free : mode.holding = none) (epoch : Nat) : mode.live epoch = none := by
  simp [Mode.live,free]

theorem epoch_of_live {mode : Mode η} {epoch id : Nat} (live : mode.live epoch = some id) : mode.epoch? = some epoch := by
  cases mode with
  | dispatching own _ _ _ _ | reporting own _ _ _ =>
    simp only [Mode.live,Mode.holding,Option.bind_some] at live
    split at live
    · rename_i same
      exact congrArg some same
    · contradiction
  | idle | looping | aborted => contradiction

section
variable [DecidableEq τ] {past : List (Step τ η)} {tr : Step τ η} {modes : τ → Mode η} {m : Mode η} {s : Store}

theorem claimant_concat (past : List (Step τ η)) (tr : Step τ η) (task : τ) : claimant (past ++ [tr]) task =
    if isRestart tr then none
    else if tr.task = task then
      if (reports tr).isSome then none
      else
        match claims tr with
        | some id => some id
        | none => claimant past task
    else claimant past task := by
  simp [claimant]

theorem attempt_concat (past : List (Step τ η)) (tr : Step τ η) (task : τ) : attempt (past ++ [tr]) task =
    if tr.task = task then
      if (claims tr).isSome then ([],false)
      else
        match tr.action,tr.reply with
        | .handle _ handler _,.ok _ => ((attempt past task).1 ++ [handler],(attempt past task).2)
        | .handle _ _ _,.error _ => ((attempt past task).1,true)
        | _,_ => attempt past task
    else attempt past task := by
  simp [attempt]

structure Owned (modes : τ → Mode η) (s : Store) : Prop where
  held : ∀ task id, (modes task).live s.epoch = some id → s.claimedAt id = true
  alone : ∀ task other id, (modes task).live s.epoch = some id → (modes other).live s.epoch = some id → task = other
  epochs : ∀ task epoch, (modes task).epoch? = some epoch → epoch ≤ s.epoch

/-- No claim is left behind, and the history knows the tasks that have them. -/
structure Claims (past : List (Step τ η)) (modes : τ → Mode η) (s : Store) : Prop extends Owned modes s where
  taken : ∀ id, s.claimedAt id = true → ∃ task, (modes task).live s.epoch = some id
  known : ∀ task, claimant past task = (modes task).live s.epoch

theorem epochs_update (epochs : ∀ task epoch, (modes task).epoch? = some epoch → epoch ≤ s.epoch)
    (own : ∀ epoch, m.epoch? = some epoch → epoch ≤ s.epoch) (task other : τ) (epoch : Nat)
    (now : (Function.update modes task m other).epoch? = some epoch) : epoch ≤ s.epoch := by
  by_cases same : other = task
  · subst same
    rw [Function.update_self] at now
    exact own epoch now
  · rw [Function.update_of_ne same] at now
    exact epochs other epoch now

theorem live_others (epoch : tr.after.epoch = tr.before.epoch) (task : τ) (other : task ≠ tr.task) :
    (Function.update modes tr.task m task).live tr.after.epoch = (modes task).live tr.before.epoch := by
  rw [epoch,Function.update_of_ne other]

/-- Steps that neither claim nor report; a task may give up. -/
theorem Owned.quiet (kept : Owned modes tr.before)
    (live : ∀ id, m.live tr.before.epoch = some id → (modes tr.task).live tr.before.epoch = some id)
    (epochs : ∀ epoch, m.epoch? = some epoch → epoch ≤ tr.before.epoch) (epoch : tr.after.epoch = tr.before.epoch)
    (mono : ∀ id, tr.before.claimedAt id = true → tr.after.claimedAt id = true) :
    Owned (Function.update modes tr.task m) tr.after := by
  have lives : ∀ task id, (Function.update modes tr.task m task).live tr.after.epoch = some id →
      (modes task).live tr.before.epoch = some id := by
    intro task id now
    rw [epoch] at now
    by_cases own : task = tr.task
    · subst own
      rw [Function.update_self] at now
      exact live id now
    · rw [Function.update_of_ne own] at now
      exact now
  refine ⟨?_,?_,?_⟩
  · intro task id now
    exact mono id (kept.held task id (lives task id now))
  · intro task other id now also
    exact kept.alone task other id (lives task id now) (lives other id also)
  · rw [epoch]
    exact epochs_update kept.epochs epochs tr.task

theorem Claims.quiet (kept : Claims past modes tr.before) (live : m.live tr.before.epoch = (modes tr.task).live tr.before.epoch)
    (epochs : ∀ epoch, m.epoch? = some epoch → epoch ≤ tr.before.epoch) (epoch : tr.after.epoch = tr.before.epoch)
    (same : ∀ id, tr.after.claimedAt id = tr.before.claimedAt id) (restart : isRestart tr = false)
    (claim : claims tr = none) (report : reports tr = none) :
    Claims (past ++ [tr]) (Function.update modes tr.task m) tr.after := by
  have lives : ∀ task, (Function.update modes tr.task m task).live tr.after.epoch = (modes task).live tr.before.epoch := by
    intro task
    rw [epoch]
    by_cases own : task = tr.task
    · subst own
      rw [Function.update_self,live]
    · rw [Function.update_of_ne own]
  refine ⟨?_,?_,?_⟩
  · exact kept.toOwned.quiet (fun id now => live ▸ now) epochs epoch fun id before => (same id).trans before
  · intro id now
    rw [same] at now
    simpa only [lives] using kept.taken id now
  · intro task
    rw [lives,← kept.known,claimant_concat]
    simp [restart,claim,report]

variable {id : Nat}

theorem Owned.claim (kept : Owned modes tr.before) (live : m.live tr.before.epoch = some id)
    (epoch : tr.after.epoch = tr.before.epoch) (unclaimed : tr.before.claimedAt id = false)
    (now : ∀ other, tr.after.claimedAt other = true ↔ tr.before.claimedAt other = true ∨ other = id) :
    Owned (Function.update modes tr.task m) tr.after := by
  have own : (Function.update modes tr.task m tr.task).live tr.after.epoch = some id := by
    rw [Function.update_self,epoch,live]
  have foreign : ∀ task, task ≠ tr.task → (Function.update modes tr.task m task).live tr.after.epoch ≠ some id := by
    intro task other has
    rw [live_others epoch task other] at has
    rw [kept.held task id has] at unclaimed
    contradiction
  refine ⟨?_,?_,?_⟩
  · intro task other has
    by_cases same : task = tr.task
    · subst same
      rw [own] at has
      exact (now other).mpr (.inr (Option.some.inj has).symm)
    · rw [live_others epoch task same] at has
      exact (now other).mpr (.inl (kept.held task other has))
  · intro task other has here also
    by_cases same : task = tr.task <;> by_cases also_same : other = tr.task
    · rw [same,also_same]
    · subst same
      rw [own] at here
      exact absurd (here ▸ also) (foreign other also_same)
    · subst also_same
      rw [own] at also
      exact absurd (also ▸ here) (foreign task same)
    · rw [live_others epoch task same] at here
      rw [live_others epoch other also_same] at also
      exact kept.alone task other has here also
  · rw [epoch]
    refine epochs_update kept.epochs (fun e own => ?_) tr.task
    rw [epoch_of_live live] at own
    exact Nat.le_of_eq (Option.some.inj own).symm

theorem Claims.claim (kept : Claims past modes tr.before) (free : (modes tr.task).live tr.before.epoch = none)
    (live : m.live tr.before.epoch = some id) (epoch : tr.after.epoch = tr.before.epoch)
    (unclaimed : tr.before.claimedAt id = false)
    (now : ∀ other, tr.after.claimedAt other = true ↔ tr.before.claimedAt other = true ∨ other = id)
    (restart : isRestart tr = false) (claim : claims tr = some id) (report : reports tr = none) :
    Claims (past ++ [tr]) (Function.update modes tr.task m) tr.after := by
  have own : (Function.update modes tr.task m tr.task).live tr.after.epoch = some id := by
    rw [Function.update_self,epoch,live]
  refine ⟨kept.toOwned.claim live epoch unclaimed now,?_,?_⟩
  · intro other has
    rcases (now other).mp has with before | rfl
    · obtain ⟨task,had⟩ := kept.taken other before
      have ne : task ≠ tr.task := by
        rintro rfl
        rw [free] at had
        contradiction
      exact ⟨task,(live_others epoch task ne).trans had⟩
    · exact ⟨tr.task,own⟩
  · intro task
    rw [claimant_concat]
    by_cases same : task = tr.task
    · subst same
      rw [own]
      simp [restart,claim,report]
    · rw [live_others epoch task same,← kept.known]
      simp [restart,Ne.symm same]

theorem Owned.report (kept : Owned modes tr.before) (had : (modes tr.task).live tr.before.epoch = some id)
    (free : m.holding = none) (epochs : ∀ epoch, m.epoch? = some epoch → epoch ≤ tr.before.epoch)
    (epoch : tr.after.epoch = tr.before.epoch)
    (now : ∀ other, tr.after.claimedAt other = true ↔ tr.before.claimedAt other = true ∧ other ≠ id) :
    Owned (Function.update modes tr.task m) tr.after := by
  have own : (Function.update modes tr.task m tr.task).live tr.after.epoch = none := by
    rw [Function.update_self]
    exact live_of_holding_none free _
  refine ⟨?_,?_,?_⟩
  · intro task other has
    by_cases same : task = tr.task
    · subst same
      rw [own] at has
      contradiction
    · rw [live_others epoch task same] at has
      refine (now other).mpr ⟨kept.held task other has,?_⟩
      rintro rfl
      exact same (kept.alone task tr.task other has had)
  · intro task other has here also
    by_cases same : task = tr.task
    · subst same
      rw [own] at here
      contradiction
    · by_cases also_same : other = tr.task
      · subst also_same
        rw [own] at also
        contradiction
      · rw [live_others epoch task same] at here
        rw [live_others epoch other also_same] at also
        exact kept.alone task other has here also
  · rw [epoch]
    exact epochs_update kept.epochs epochs tr.task

theorem Claims.report (kept : Claims past modes tr.before) (had : (modes tr.task).live tr.before.epoch = some id)
    (free : m.holding = none) (epochs : ∀ epoch, m.epoch? = some epoch → epoch ≤ tr.before.epoch)
    (epoch : tr.after.epoch = tr.before.epoch)
    (now : ∀ other, tr.after.claimedAt other = true ↔ tr.before.claimedAt other = true ∧ other ≠ id)
    (restart : isRestart tr = false) (report : (reports tr).isSome = true) :
    Claims (past ++ [tr]) (Function.update modes tr.task m) tr.after := by
  have own : (Function.update modes tr.task m tr.task).live tr.after.epoch = none := by
    rw [Function.update_self]
    exact live_of_holding_none free _
  refine ⟨kept.toOwned.report had free epochs epoch now,?_,?_⟩
  · intro other has
    obtain ⟨before,differ⟩ := (now other).mp has
    obtain ⟨task,holds⟩ := kept.taken other before
    have ne : task ≠ tr.task := by
      rintro rfl
      exact differ (Option.some.inj (holds.symm.trans had))
    exact ⟨task,(live_others epoch task ne).trans holds⟩
  · intro task
    rw [claimant_concat]
    by_cases same : task = tr.task
    · subst same
      rw [own]
      simp [restart,report]
    · rw [live_others epoch task same,← kept.known]
      simp [restart,Ne.symm same]

theorem Owned.older (kept : Owned modes tr.before) (idle : m = .idle) (task : τ) (own : Nat)
    (now : (Function.update modes tr.task m task).epoch? = some own) : own ≤ tr.before.epoch := by
  subst idle
  exact epochs_update kept.epochs (by simp [Mode.epoch?]) tr.task task own now

/-- Nothing of an earlier run is live after a restart. -/
theorem Owned.dead (kept : Owned modes tr.before) (idle : m = .idle) (epoch : tr.after.epoch = tr.before.epoch + 1) (task : τ) :
    (Function.update modes tr.task m task).live tr.after.epoch = none := by
  cases live : (Function.update modes tr.task m task).live tr.after.epoch with
  | none => rfl
  | some id =>
    have before := kept.older idle task _ (epoch_of_live live)
    omega

theorem Owned.restart (kept : Owned modes tr.before) (idle : m = .idle) (epoch : tr.after.epoch = tr.before.epoch + 1) :
    Owned (Function.update modes tr.task m) tr.after := by
  refine ⟨?_,?_,?_⟩
  · intro task id now
    rw [kept.dead idle epoch] at now
    contradiction
  · intro task other id now
    rw [kept.dead idle epoch] at now
    contradiction
  · intro task own now
    have before := kept.older idle task own now
    omega

theorem Claims.restart (kept : Claims past modes tr.before) (idle : m = .idle) (epoch : tr.after.epoch = tr.before.epoch + 1)
    (released : ∀ id, tr.after.claimedAt id = false) (restart : isRestart tr = true) :
    Claims (past ++ [tr]) (Function.update modes tr.task m) tr.after := by
  refine ⟨kept.toOwned.restart idle epoch,?_,?_⟩
  · intro id now
    rw [released] at now
    contradiction
  · intro task
    rw [kept.dead idle epoch,claimant_concat]
    simp [restart]

end

/-- What is published with an entry. -/
def Row.event (row : Row) : String × Option String × String × String × ℚ :=
  (row.eventType,row.aggregateId,row.aggregateType,row.payloadJson,row.createdAt)

section
variable {past : List (Step τ η)} {tr : Step τ η} {s : Store}

theorem batch_found {limit : Nat} {entry : Entry} (found : entry ∈ s.batch limit) :
    s.rows.get? entry.id = some entry.row ∧ entry.row.stage = .pending := by
  have listed : entry ∈ s.pending := by
    have sorted := List.mem_of_mem_take found
    exact (List.mem_insertionSort Entry.notAfter).mp sorted
  obtain ⟨⟨id,row⟩,member,rfl⟩ := List.mem_map.mp listed
  have filtered := OrderedMap.mem_entries.mp member
  rw [OrderedMap.get?_filter] at filtered
  obtain ⟨here,kept⟩ := Option.filter_eq_some_iff.mp filtered
  exact ⟨here,by simpa using kept⟩

/-- A row of the table was there before, with the same event, unless it was just published.
Its retry count moves with a report only. -/
theorem origin (taken : Taken exec tr) {id : Nat} {row' : Row} (now : tr.after.rows.get? id = some row')
    (older : id ≠ tr.before.issued ∨ ∀ epoch eventType aggregateId aggregateType payloadJson,
      tr.action ≠ .publish epoch eventType aggregateId aggregateType payloadJson) :
    ∃ row, tr.before.rows.get? id = some row ∧ row'.event = row.event ∧
      (row'.retryCount = row.retryCount ∨ ∃ finished, reports tr = some (id,finished)) := by
  have struck : tr.after.rows = tr.before.rows ∨
      Effective tr = true ∧ tr.after.rows = (answer tr.before tr.choice.now tr.action).1.rows := by
    obtain ⟨base,struck,based⟩ := strike_of_taken taken
    have rows : base.rows = tr.before.rows := by rcases based with ⟨rfl,_⟩ | ⟨rfl,_⟩ <;> rfl
    have after := congrArg (fun done => done.1.rows) struck
    simp only [strike_fst] at after
    cases effective : tr.choice.fault.takesEffect with
    | true =>
      simp only [effective,if_true] at after
      exact .inr ⟨effective,after⟩
    | false =>
      simp only [effective,Bool.false_eq_true,if_false] at after
      exact .inl (after.trans rows)
  have updated : ∀ key (change : Row → Row), (∀ row, (change row).event = row.event) →
      ((∀ row, (change row).retryCount = row.retryCount) ∨ ∃ finished, reports tr = some (key,finished)) →
      (tr.before.update key change).rows.get? id = some row' → ∃ row, tr.before.rows.get? id = some row ∧
        row'.event = row.event ∧ (row'.retryCount = row.retryCount ∨ ∃ finished, reports tr = some (id,finished)) := by
    intro key change keeps counts here
    rw [get?_update] at here
    obtain ⟨row,found,rfl⟩ := Option.map_eq_some_iff.mp here
    refine ⟨row,found,?_⟩
    split
    · rename_i same
      subst same
      exact ⟨keeps row,counts.imp_left fun counts => counts row⟩
    · exact ⟨rfl,.inl rfl⟩
  rcases struck with same | ⟨effective,same⟩
  · rw [same] at now
    exact ⟨row',now,rfl,.inl rfl⟩
  rw [same] at now
  obtain ⟨task,action,choice,before,reply,after⟩ := tr
  simp only at now older updated ⊢
  cases action with
  | select epoch limit | handle epoch handler entry | readRetryCount epoch key => exact ⟨row',now,rfl,.inl rfl⟩
  | claim epoch entry =>
    simp only [answer] at now
    split at now
    · exact updated entry.id (fun row => {row with stage := .claimed}) (fun _ => rfl) (.inl fun _ => rfl) now
    · exact ⟨row',now,rfl,.inl rfl⟩
  | markProcessed epoch key =>
    refine updated _ _ ?_ (.inl ?_) now
    · exact fun _ => rfl
    · exact fun _ => rfl
  | deadLetter epoch key retry error | markRetry epoch key retry error =>
    refine updated _ _ ?_ (.inr ⟨_,if_pos effective⟩) now
    exact fun _ => rfl
  | publish epoch eventType aggregateId aggregateType payloadJson =>
    rcases older with older | other
    · simp only [answer] at now
      rw [OrderedMap.get?_set_of_ne older] at now
      exact ⟨row',now,rfl,.inl rfl⟩
    · exact absurd rfl (other _ _ _ _ _)
  | cleanup epoch before =>
    simp only [answer,OrderedMap.get?_filter] at now
    exact ⟨row',(Option.filter_eq_some_iff.mp now).1,rfl,.inl rfl⟩
  | restart =>
    simp only [answer,OrderedMap.get?_modify] at now
    obtain ⟨row,found,rfl⟩ := Option.map_eq_some_iff.mp now
    refine ⟨row,found,?_⟩
    unfold released
    split <;> exact ⟨rfl,.inl rfl⟩

theorem issued_le (taken : Taken exec tr) : tr.before.issued ≤ tr.after.issued := by
  obtain ⟨base,struck,based⟩ := strike_of_taken taken
  have issued : base.issued = tr.before.issued := by rcases based with ⟨rfl,_⟩ | ⟨rfl,_⟩ <;> rfl
  have answered : tr.before.issued ≤ (answer tr.before tr.choice.now tr.action).1.issued := by
    cases tr.action with
    | claim epoch entry =>
      simp only [answer]
      split <;> exact Nat.le_refl _
    | publish => exact Nat.le_succ _
    | _ => exact Nat.le_refl _
  have after := congrArg (fun done => done.1.issued) struck
  simp only at after
  rcases strike_state tr.choice.fault base (answer tr.before tr.choice.now tr.action) with same | same
  · rw [after,same,issued]
  · rw [after,same]
    exact answered

theorem epoch_kept (taken : Taken exec tr) (same : isRestart tr = false) : tr.after.epoch = tr.before.epoch := by
  obtain ⟨task,action,choice,before,reply,after⟩ := tr
  cases action with
  | restart => contradiction
  | claim epoch entry =>
    obtain ⟨_,after⟩ := after_of_taken taken rfl
    simp only at after
    rw [after]
    simp only [answer]
    split
    · split <;> rfl
    · rfl
  | select | handle | readRetryCount | markProcessed | deadLetter | markRetry | publish | cleanup =>
    obtain ⟨_,after⟩ := after_of_taken taken rfl
    simp only at after
    rw [after]
    split <;> rfl

theorem epoch_raised (taken : Taken exec tr) (restart : isRestart tr = true) : tr.after.epoch = tr.before.epoch + 1 := by
  obtain ⟨task,action,choice,before,reply,after⟩ := tr
  cases action with
  | restart =>
    obtain ⟨base,struck,⟨_,own⟩ | ⟨rfl,_⟩⟩ := strike_of_taken taken
    · contradiction
    · have same := congrArg (fun done => done.1.epoch) struck
      simp only [strike_fst] at same
      rw [same]
      split <;> rfl
  | _ => contradiction

theorem failures_concat (past : List (Step τ η)) (tr : Step τ η) (id : Nat) :
    failures (past ++ [tr]) id = failures past id + failures [tr] id := by
  simp [failures]

theorem settled_concat (past : List (Step τ η)) (tr : Step τ η) (id : Nat) :
    settled (past ++ [tr]) id = (settled past id || decide (reports tr = some (id,true))) := by
  simp [settled]

theorem removed_concat (past : List (Step τ η)) (tr : Step τ η) (id : Nat) : removed (past ++ [tr]) id =
    (removed past id || ((tr.before.rows.get? id).isSome && (tr.after.rows.get? id).isNone)) := by
  simp [removed]

structure Table (registry : Registry η) (past : List (Step τ η)) (s : Store) : Prop where
  numbered : ∀ id row, s.rows.get? id = some row → id < s.issued
  present : ∀ id, id < s.issued → (s.rows.get? id).isSome = true ∨ removed past id = true
  fresh : ∀ id, s.issued ≤ id → failures past id = 0
  counted : ∀ id row, s.rows.get? id = some row → row.retryCount = failures past id
  bounded : ∀ id row, s.rows.get? id = some row → (row.retryCount : Int) ≤ registry.maxRetries
  below : ∀ id row, s.rows.get? id = some row → row.stage ≠ .processed → (row.retryCount : Int) < registry.maxRetries
  done : ∀ id row, s.rows.get? id = some row → row.stage = .processed → settled past id = true

variable {registry : Registry η}

section
variable (kept : Table registry past tr.before) (change : Nat → Row → Row)
  (rows : ∀ id, tr.after.rows.get? id = (tr.before.rows.get? id).map (change id))
  (issued : tr.after.issued = tr.before.issued)
include kept change rows issued

/-- Steps that change rows in place. -/
theorem Table.changed
    (fresh : ∀ id, tr.before.issued ≤ id → failures [tr] id = 0)
    (counted : ∀ id row, tr.before.rows.get? id = some row → (change id row).retryCount = row.retryCount + failures [tr] id)
    (bounded : ∀ id row, tr.before.rows.get? id = some row → ((change id row).retryCount : Int) ≤ registry.maxRetries)
    (below : ∀ id row, tr.before.rows.get? id = some row → (change id row).stage ≠ .processed →
      ((change id row).retryCount : Int) < registry.maxRetries)
    (done : ∀ id row, tr.before.rows.get? id = some row → (change id row).stage = .processed →
      row.stage = .processed ∨ reports tr = some (id,true)) : Table registry (past ++ [tr]) tr.after := by
  have from_before : ∀ id row', tr.after.rows.get? id = some row' →
      ∃ row, tr.before.rows.get? id = some row ∧ row' = change id row := by
    intro id row' now
    rw [rows] at now
    obtain ⟨row,found,rfl⟩ := Option.map_eq_some_iff.mp now
    exact ⟨row,found,rfl⟩
  refine ⟨?_,?_,?_,?_,?_,?_,?_⟩
  · intro id row' now
    obtain ⟨row,found,_⟩ := from_before id row' now
    rw [issued]
    exact kept.numbered id row found
  · intro id old
    rw [issued] at old
    rw [rows,Option.isSome_map,removed_concat]
    rcases kept.present id old with here | gone
    · exact .inl here
    · exact .inr (by rw [gone,Bool.true_or])
  · intro id new
    rw [issued] at new
    rw [failures_concat,kept.fresh id new,fresh id new]
  · intro id row' now
    obtain ⟨row,found,rfl⟩ := from_before id row' now
    rw [counted id row found,kept.counted id row found,failures_concat]
  · intro id row' now
    obtain ⟨row,found,rfl⟩ := from_before id row' now
    exact bounded id row found
  · intro id row' now
    obtain ⟨row,found,rfl⟩ := from_before id row' now
    exact below id row found
  · intro id row' now processed
    obtain ⟨row,found,rfl⟩ := from_before id row' now
    rw [settled_concat,Bool.or_eq_true,decide_eq_true_eq]
    exact (done id row found processed).imp_left (kept.done id row found)

/-- Steps that report nothing and leave the retry counts. -/
theorem Table.moved (unfailed : ∀ id, failures [tr] id = 0)
    (counted : ∀ id row, tr.before.rows.get? id = some row → (change id row).retryCount = row.retryCount)
    (opened : ∀ id row, tr.before.rows.get? id = some row → ((change id row).stage = .processed ↔ row.stage = .processed)) :
    Table registry (past ++ [tr]) tr.after := by
  refine kept.changed change rows issued (fun id _ => unfailed id) ?_ ?_ ?_ ?_
  · intro id row found
    rw [counted id row found,unfailed,Nat.add_zero]
  · intro id row found
    rw [counted id row found]
    exact kept.bounded id row found
  · intro id row found unprocessed
    rw [counted id row found]
    exact kept.below id row found fun processed => unprocessed ((opened id row found).mpr processed)
  · intro id row found processed
    exact .inl ((opened id row found).mp processed)

end

theorem Table.unchanged (kept : Table registry past tr.before) (same : tr.after = tr.before)
    (unfailed : ∀ id, failures [tr] id = 0) : Table registry (past ++ [tr]) tr.after :=
  kept.moved (fun _ row => row) (by simp [same]) (by rw [same]) unfailed (fun _ _ _ => rfl) fun _ _ _ => Iff.rfl

/-- An entry is published. -/
theorem Table.published (kept : Table registry past tr.before) {row : Row}
    (rows : tr.after.rows = tr.before.rows.set tr.before.issued row) (issued : tr.after.issued = tr.before.issued + 1)
    (unfailed : ∀ id, failures [tr] id = 0) (zero : row.retryCount = 0) (pending : row.stage = .pending)
    (cap : 1 ≤ registry.maxRetries) : Table registry (past ++ [tr]) tr.after := by
  have new : tr.after.rows.get? tr.before.issued = some row := by rw [rows,OrderedMap.get?_set_self]
  have old : ∀ id, id ≠ tr.before.issued → tr.after.rows.get? id = tr.before.rows.get? id := by
    intro id other
    rw [rows,OrderedMap.get?_set_of_ne other]
  have split_on : ∀ id row', tr.after.rows.get? id = some row' →
      id = tr.before.issued ∧ row' = row ∨ tr.before.rows.get? id = some row' := by
    intro id row' now
    by_cases same : id = tr.before.issued
    · subst same
      exact .inl ⟨rfl,Option.some.inj (now.symm.trans new)⟩
    · exact .inr ((old id same).symm.trans now)
  refine ⟨?_,?_,?_,?_,?_,?_,?_⟩
  · intro id row' now
    rcases split_on id row' now with ⟨rfl,_⟩ | before
    · omega
    · have below := kept.numbered id row' before
      omega
  · intro id drawn
    by_cases same : id = tr.before.issued
    · subst same
      exact .inl (by rw [new]; rfl)
    · rw [old id same,removed_concat]
      rcases kept.present id (by omega) with here | gone
      · exact .inl here
      · exact .inr (by rw [gone,Bool.true_or])
  · intro id later
    rw [failures_concat,unfailed,kept.fresh id (by omega)]
  · intro id row' now
    rw [failures_concat,unfailed,Nat.add_zero]
    rcases split_on id row' now with ⟨rfl,rfl⟩ | before
    · rw [zero,kept.fresh _ (Nat.le_refl _)]
    · exact kept.counted id row' before
  · intro id row' now
    rcases split_on id row' now with ⟨_,rfl⟩ | before
    · omega
    · exact kept.bounded id row' before
  · intro id row' now unprocessed
    rcases split_on id row' now with ⟨_,rfl⟩ | before
    · omega
    · exact kept.below id row' before unprocessed
  · intro id row' now processed
    rcases split_on id row' now with ⟨_,rfl⟩ | before
    · rw [pending] at processed
      contradiction
    · rw [settled_concat,kept.done id row' before processed,Bool.true_or]

/-- Rows are cleaned up. -/
theorem Table.cleaned (kept : Table registry past tr.before) {keep : Nat → Row → Bool}
    (rows : tr.after.rows = tr.before.rows.filter keep) (issued : tr.after.issued = tr.before.issued)
    (unfailed : ∀ id, failures [tr] id = 0) : Table registry (past ++ [tr]) tr.after := by
  have from_before : ∀ id row, tr.after.rows.get? id = some row → tr.before.rows.get? id = some row := by
    intro id row now
    rw [rows,OrderedMap.get?_filter] at now
    exact (Option.filter_eq_some_iff.mp now).1
  refine ⟨?_,?_,?_,?_,?_,?_,?_⟩
  · intro id row now
    rw [issued]
    exact kept.numbered id row (from_before id row now)
  · intro id drawn
    rw [issued] at drawn
    rw [removed_concat]
    rcases kept.present id drawn with here | gone
    · rw [here]
      cases (tr.after.rows.get? id) <;> simp
    · exact .inr (by rw [gone,Bool.true_or])
  · intro id new
    rw [issued] at new
    rw [failures_concat,unfailed,kept.fresh id new]
  · intro id row now
    rw [failures_concat,unfailed,Nat.add_zero]
    exact kept.counted id row (from_before id row now)
  · intro id row now
    exact kept.bounded id row (from_before id row now)
  · intro id row now
    exact kept.below id row (from_before id row now)
  · intro id row now processed
    rw [settled_concat,kept.done id row (from_before id row now) processed,Bool.true_or]

end

/-! What the tasks know of the entries they have read -/

section
variable {past : List (Step τ η)} {tr : Step τ η} {modes : τ → Mode η} {m : Mode η} {s : Store} {registry : Registry η}

variable {entry : Entry} {epoch : Nat} {rest : List Entry}

theorem epoch_of_flight {mode : Mode η} (member : entry ∈ mode.flight epoch) :
    mode.epoch? = some epoch := by
  cases mode with
  | looping own rest | dispatching own _ _ _ rest | reporting own _ _ rest =>
    simp only [Mode.flight] at member
    split at member
    · rename_i same
      exact congrArg some same
    · contradiction
  | idle | aborted => contradiction

theorem reported_flight {own : Nat} {reply : Except PyError Unit}
    (member : entry ∈ (Mode.reported epoch rest reply : Mode η).flight own) : epoch = own ∧ entry ∈ rest := by
  cases reply with
  | ok _ =>
    simp only [Mode.reported,Mode.flight] at member
    split at member
    · exact ⟨‹_›,member⟩
    · contradiction
  | error _ => contradiction

/-- What the handlers did so far, against how far the task is. -/
def Mode.Told (registry : Registry η) (mode : Mode η) (seen : List η × Bool) : Prop :=
  match mode with
  | .dispatching _ entry left false _ => seen.2 = false ∧ seen.1 ++ left = registry.handlersFor entry.row.eventType
  | .dispatching _ _ _ true _ | .reporting _ _ _ _ => seen.2 = true
  | _ => True

theorem reported_told (epoch : Nat) (rest : List Entry) (reply : Except PyError Unit) (seen : List η × Bool) :
    (Mode.reported epoch rest reply).Told registry seen := by
  cases reply <;> trivial

variable [DecidableEq η]

/-- A sweep works on what it selected. -/
theorem flight_allowed (taken : Taken exec tr)
    (allowed : rule registry tr.action tr.reply (modes tr.task) = some m)
    (member : entry ∈ m.flight epoch) : entry ∈ (modes tr.task).flight epoch ∨
      tr.before.rows.get? entry.id = some entry.row ∧ entry.row.stage = .pending := by
  obtain ⟨task,action,choice,before,reply,after⟩ := tr
  simp only at allowed member ⊢
  cases action with
  | select own limit =>
    obtain ⟨_,rfl | ⟨entries,rfl,rfl⟩⟩ := select_allowed allowed
    · contradiction
    · obtain ⟨_,answered⟩ := reply_ok taken rfl
      have selected : before.batch limit = entries := Except.ok.inj answered
      simp only [Mode.flight] at member
      split at member
      · rw [← selected] at member
        exact .inr (batch_found member)
      · contradiction
  | claim own head =>
    obtain ⟨rest,mode,⟨_,rfl⟩ | ⟨_,rfl⟩ | ⟨_,rfl⟩⟩ := claim_allowed allowed
    · left
      rw [mode]
      exact member
    · left
      rw [mode]
      simp only [Mode.flight] at member ⊢
      split at member
      · rw [if_pos ‹_›]
        exact List.mem_cons_of_mem _ member
      · contradiction
    · contradiction
  | handle own handler head =>
    obtain ⟨left,failed,rest,mode,⟨_,rfl⟩ | ⟨_,_,rfl | ⟨_,rfl⟩⟩⟩ := handle_allowed allowed
    · exact .inl (mode ▸ member)
    · exact .inl (mode ▸ member)
    · contradiction
  | readRetryCount own id =>
    obtain ⟨head,rest,_,mode,⟨retry,_,rfl⟩ | ⟨_,rfl⟩⟩ := readRetryCount_allowed allowed
    · exact .inl (mode ▸ member)
    · contradiction
  | markProcessed own id =>
    obtain ⟨head,rest,_,mode,rfl⟩ := markProcessed_allowed allowed
    obtain ⟨same,inside⟩ := reported_flight member
    left
    rw [mode]
    simpa [Mode.flight,same] using Or.inr inside
  | deadLetter own id retry error =>
    obtain ⟨head,known,rest,_,_,_,mode,rfl⟩ := deadLetter_allowed allowed
    obtain ⟨same,inside⟩ := reported_flight member
    left
    rw [mode]
    simpa [Mode.flight,same] using Or.inr inside
  | markRetry own id retry error =>
    obtain ⟨head,known,rest,_,_,_,mode,rfl⟩ := markRetry_allowed allowed
    obtain ⟨same,inside⟩ := reported_flight member
    left
    rw [mode]
    simpa [Mode.flight,same] using Or.inr inside
  | publish | cleanup | restart =>
    obtain ⟨_,rfl⟩ := idle_allowed (by simp) allowed
    contradiction

omit [DecidableEq η] in
theorem reported_epoch {own : Nat} {reply : Except PyError Unit}
    (known : (Mode.reported own rest reply : Mode η).epoch? = some epoch) : epoch = own := by
  cases reply with
  | ok _ => exact (Option.some.inj known).symm
  | error _ => contradiction

/-- A report is about the entry that the task has claimed. -/
theorem report_allowed (taken : Taken exec tr) (allowed : rule registry tr.action tr.reply (modes tr.task) = some m)
    {id : Nat} {finished : Bool} (reported : reports tr = some (id,finished)) :
    (modes tr.task).live tr.before.epoch = some id ∧ m.holding = none ∧
      ∀ epoch, m.epoch? = some epoch → epoch = tr.before.epoch := by
  obtain ⟨task,action,choice,before,reply,after⟩ := tr
  simp only at allowed ⊢
  have concluded {own : Nat} {rest : List Entry} {result : Except PyError Unit}
      (live : (modes task).live own = some id) (current : own = before.epoch) :
      (modes task).live before.epoch = some id ∧ (Mode.reported own rest result : Mode η).holding = none ∧
        ∀ epoch, (Mode.reported own rest result : Mode η).epoch? = some epoch → epoch = before.epoch :=
    ⟨current ▸ live,reported_holding _ _ _,fun _ known => (reported_epoch known).trans current⟩
  cases action with
  | markProcessed own key =>
    obtain ⟨head,rest,rfl,mode,rfl⟩ := markProcessed_allowed allowed
    obtain ⟨_,named⟩ := Option.ite_none_right_eq_some.mp reported
    obtain ⟨rfl,_⟩ := Prod.mk.inj (Option.some.inj named)
    exact concluded (by simp [mode,Mode.live,Mode.holding]) (after_of_taken taken rfl).1
  | deadLetter own key retry error =>
    obtain ⟨head,_,rest,rfl,_,_,mode,rfl⟩ := deadLetter_allowed allowed
    obtain ⟨_,named⟩ := Option.ite_none_right_eq_some.mp reported
    obtain ⟨rfl,_⟩ := Prod.mk.inj (Option.some.inj named)
    exact concluded (by simp [mode,Mode.live,Mode.holding]) (after_of_taken taken rfl).1
  | markRetry own key retry error =>
    obtain ⟨head,_,rest,rfl,_,_,mode,rfl⟩ := markRetry_allowed allowed
    obtain ⟨_,named⟩ := Option.ite_none_right_eq_some.mp reported
    obtain ⟨rfl,_⟩ := Prod.mk.inj (Option.some.inj named)
    exact concluded (by simp [mode,Mode.live,Mode.holding]) (after_of_taken taken rfl).1
  | _ => contradiction

/-- A sweep reports what it has read. -/
theorem reporting_allowed {retry : Nat}
    (allowed : rule registry tr.action tr.reply (modes tr.task) = some (.reporting epoch entry retry rest)) :
    ∃ task choice before after, tr = ⟨task,.readRetryCount epoch entry.id,choice,before,.ok retry,after⟩ := by
  obtain ⟨task,action,choice,before,reply,after⟩ := tr
  simp only at allowed
  cases action with
  | readRetryCount own id =>
    obtain ⟨head,_,rfl,_,⟨_,rfl,same⟩ | ⟨_,same⟩⟩ := readRetryCount_allowed allowed
    · cases same
      exact ⟨task,choice,before,after,rfl⟩
    · cases same
  | select =>
    obtain ⟨_,same | ⟨_,_,same⟩⟩ := select_allowed allowed <;> cases same
  | claim =>
    obtain ⟨_,_,⟨_,same⟩ | ⟨_,same⟩ | ⟨_,same⟩⟩ := claim_allowed allowed <;> cases same
  | handle =>
    obtain ⟨_,_,_,_,⟨_,same⟩ | ⟨_,_,same | ⟨_,same⟩⟩⟩ := handle_allowed allowed <;> cases same
  | markProcessed =>
    obtain ⟨_,_,_,_,same⟩ := markProcessed_allowed allowed
    cases reply <;> cases same
  | deadLetter =>
    obtain ⟨_,_,_,_,_,_,_,same⟩ := deadLetter_allowed allowed
    cases reply <;> cases same
  | markRetry =>
    obtain ⟨_,_,_,_,_,_,_,same⟩ := markRetry_allowed allowed
    cases reply <;> cases same
  | publish | cleanup | restart =>
    obtain ⟨_,same⟩ := idle_allowed (by simp) allowed
    cases same

variable [DecidableEq τ]

structure Informed (modes : τ → Mode η) (s : Store) : Prop where
  known : ∀ task entry, entry ∈ (modes task).flight s.epoch →
    entry.id < s.issued ∧ ∀ row, s.rows.get? entry.id = some row → row.event = entry.row.event
  counted : ∀ task entry retry rest, modes task = .reporting s.epoch entry retry rest →
    ∀ row, s.rows.get? entry.id = some row → row.retryCount = retry

theorem Informed.next (kept : Informed modes tr.before) (owned : Owned modes tr.before)
    (numbered : ∀ id row, tr.before.rows.get? id = some row → id < tr.before.issued) (taken : Taken exec tr)
    (allowed : rule registry tr.action tr.reply (modes tr.task) = some m) :
    Informed (Function.update modes tr.task m) tr.after := by
  cases restart : isRestart tr with
  | true =>
    -- nobody has read anything in the new run
    have raised := epoch_raised taken restart
    have idle : m = .idle := by
      obtain ⟨task,action,choice,before,reply,after⟩ := tr
      cases action with
      | restart => exact (idle_allowed (.inl rfl) allowed).2
      | _ => contradiction
    have older := owned.older idle
    refine ⟨?_,?_⟩
    · intro task entry member
      have before := older task _ (epoch_of_flight member)
      omega
    · intro task entry retry rest reporting
      have before := older task tr.after.epoch (by rw [reporting]; rfl)
      omega
  | false =>
    have epoch := epoch_kept taken restart
    have issued := issued_le taken
    refine ⟨?_,?_⟩
    · intro task entry member
      rw [epoch] at member
      have read : entry ∈ (modes task).flight tr.before.epoch ∨ tr.before.rows.get? entry.id = some entry.row := by
        by_cases own : task = tr.task
        · subst own
          rw [Function.update_self] at member
          exact (flight_allowed taken allowed member).imp_right And.left
        · rw [Function.update_of_ne own] at member
          exact .inl member
      have told : entry.id < tr.before.issued ∧
          ∀ row, tr.before.rows.get? entry.id = some row → row.event = entry.row.event := by
        rcases read with flying | found
        · exact kept.known task entry flying
        · refine ⟨numbered _ _ found,fun row here => ?_⟩
          rw [Option.some.inj (here.symm.trans found)]
      refine ⟨by omega,fun row' now => ?_⟩
      obtain ⟨row,found,event,_⟩ := origin taken now (.inl (by omega))
      exact event.trans (told.2 row found)
    · intro task entry retry rest reporting row' now
      rw [epoch] at reporting
      by_cases own : task = tr.task
      · subst own
        rw [Function.update_self] at reporting
        subst reporting
        generalize tr.before.epoch = current at allowed
        obtain ⟨task,choice,before,after,rfl⟩ := reporting_allowed allowed
        obtain ⟨effective,answered⟩ := reply_ok taken rfl
        obtain ⟨_,same⟩ := after_of_taken taken rfl
        rw [if_pos effective] at same
        simp only [answer] at same answered now
        subst same
        rw [now] at answered
        exact Except.ok.inj answered
      · rw [Function.update_of_ne own] at reporting
        have mine : entry ∈ (modes task).flight tr.before.epoch := by simp [reporting,Mode.flight]
        obtain ⟨row,found,_,counts⟩ := origin taken now (.inl (Nat.ne_of_lt (kept.known task entry mine).1))
        have counted := kept.counted task entry retry rest reporting row found
        rcases counts with same | ⟨finished,reported⟩
        · exact same.trans counted
        · have claimed := (report_allowed taken allowed reported).1
          have live : (modes task).live tr.before.epoch = some entry.id := by simp [reporting,Mode.live,Mode.holding]
          exact absurd (owned.alone task tr.task entry.id live claimed) own

def Attempts (registry : Registry η) (past : List (Step τ η)) (modes : τ → Mode η) : Prop :=
  ∀ task, (modes task).Told registry (attempt past task)

theorem Attempts.next (kept : Attempts registry past modes)
    (allowed : rule registry tr.action tr.reply (modes tr.task) = some m) :
    Attempts registry (past ++ [tr]) (Function.update modes tr.task m) := by
  intro task
  by_cases other : tr.task = task
  swap
  · rw [Function.update_of_ne (Ne.symm other),attempt_concat,if_neg other]
    exact kept task
  subst other
  rw [Function.update_self,attempt_concat,if_pos rfl]
  have told := kept tr.task
  generalize attempt past tr.task = seen at told
  obtain ⟨task,action,choice,before,reply,after⟩ := tr
  simp only at allowed told ⊢
  cases action with
  | select =>
    obtain ⟨_,rfl | ⟨_,_,rfl⟩⟩ := select_allowed allowed <;> trivial
  | claim own entry =>
    obtain ⟨_,_,⟨rfl,rfl⟩ | ⟨rfl,rfl⟩ | ⟨_,rfl⟩⟩ := claim_allowed allowed
    · exact ⟨rfl,List.nil_append _⟩
    · trivial
    · trivial
  | handle own handler entry =>
    obtain ⟨left,failed,rest,mode,⟨rfl,rfl⟩ | ⟨_,rfl,rfl | ⟨_,rfl⟩⟩⟩ := handle_allowed allowed
    · rw [mode] at told
      cases failed with
      | false =>
        obtain ⟨unfailed,ran⟩ := told
        exact ⟨unfailed,(List.append_assoc _ _ _).trans ran⟩
      | true => exact told
    · exact rfl
    · trivial
  | readRetryCount =>
    obtain ⟨_,_,_,mode,⟨_,rfl,rfl⟩ | ⟨_,rfl⟩⟩ := readRetryCount_allowed allowed
    · rw [mode] at told
      exact told
    · trivial
  | markProcessed =>
    obtain ⟨_,_,_,_,rfl⟩ := markProcessed_allowed allowed
    exact reported_told _ _ _ _
  | deadLetter =>
    obtain ⟨_,_,_,_,_,_,_,rfl⟩ := deadLetter_allowed allowed
    exact reported_told _ _ _ _
  | markRetry =>
    obtain ⟨_,_,_,_,_,_,_,rfl⟩ := markRetry_allowed allowed
    exact reported_told _ _ _ _
  | publish | cleanup | restart =>
    obtain ⟨_,rfl⟩ := idle_allowed (by simp) allowed
    trivial

end

end Vigile.Outbox
