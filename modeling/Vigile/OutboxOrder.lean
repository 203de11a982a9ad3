import Vigile.OutboxDelivery

/-! Entries of one aggregate are delivered in the order of their publication, in a run in which
no sweep passes over an entry that is still open. -/
namespace Vigile.Outbox

open Interleaving Python

variable {η τ : Type}

/-- An entry without an aggregate is ordered with no other. -/
def Row.sameAggregate (first second : Row) : Bool :=
  first.aggregateId.isSome &&
    decide (first.aggregateId = second.aggregateId ∧ first.aggregateType = second.aggregateType)

/-- Published and neither processed nor dead-lettered. -/
def Row.isOpen (row : Row) : Bool := row.stage ≠ .processed

section
variable [DecidableEq τ]

def batchLeft (past : List (Step τ η)) (task : τ) : List Entry :=
  past.foldl (fun left tr =>
    if tr.task = task then
      match tr.action,tr.reply with
      | .select _ _,.ok entries => entries
      | .claim _ _,_ => left.tail
      | _,_ => left
    else left) []

/-- No handler runs for an entry while an earlier one of its aggregate is open. -/
def Ordered (tr : Step τ η) : Prop :=
  ∀ epoch handler entry, tr.action = .handle epoch handler entry → ∀ id row, tr.before.rows.get? id = some row →
    id < entry.id → row.sameAggregate entry.row = true → row.isOpen = false

/-- A step that passes over no open entry. -/
def Orderly (past : List (Step τ η)) (tr : Step τ η) : Prop :=
  match tr.action with
  -- the clock has moved since the open entries of the aggregate were published
  | .publish _ eventType aggregateId aggregateType payloadJson =>
    ∀ row ∈ tr.before.rows.values, row.isOpen = true →
      row.sameAggregate (published eventType aggregateId aggregateType payloadJson tr.choice.now) = true →
      row.createdAt < tr.choice.now
  -- no sweep has claimed an entry of an aggregate with pending entries
  | .select _ _ => ∀ claimed ∈ tr.before.rows.values, claimed.stage = .claimed →
      ∀ entry ∈ tr.before.pending, claimed.sameAggregate entry.row = false
  -- an entry that another sweep has claimed is the last one of its aggregate in the batch
  | .claim _ entry => tr.before.claimedAt entry.id = true →
      ∀ later ∈ (batchLeft past tr.task).tail, entry.row.sameAggregate later.row = false
  -- so is an entry that is to be retried
  | .markRetry _ id _ _ => ∀ row ∈ tr.before.rows.get? id,
      ∀ later ∈ batchLeft past tr.task, row.sameAggregate later.row = false
  | _ => True

theorem batchLeft_concat (past : List (Step τ η)) (tr : Step τ η) (task : τ) : batchLeft (past ++ [tr]) task =
    if tr.task = task then
      match tr.action,tr.reply with
      | .select _ _,.ok entries => entries
      | .claim _ _,_ => (batchLeft past task).tail
      | _,_ => batchLeft past task
    else batchLeft past task := by
  simp [batchLeft]

instance (past : List (Step τ η)) (tr : Step τ η) : Decidable (Orderly past tr) :=
  match tr with
  | ⟨_,.publish _ _ _ _ _,_,_,_,_⟩ => inferInstanceAs (Decidable (∀ row ∈ _,_ → _ → _))
  | ⟨_,.select _ _,_,_,_,_⟩ => inferInstanceAs (Decidable (∀ claimed ∈ _,_ → ∀ entry ∈ _,_))
  | ⟨_,.claim _ _,_,_,_,_⟩ => inferInstanceAs (Decidable (_ → ∀ later ∈ _,_))
  | ⟨_,.markRetry _ id _ _,_,before,_,_⟩ => inferInstanceAs (Decidable (∀ row ∈ before.rows.get? id,∀ later ∈ _,_))
  | ⟨_,.handle _ _ _,_,_,_,_⟩ | ⟨_,.readRetryCount _ _,_,_,_,_⟩ | ⟨_,.markProcessed _ _,_,_,_,_⟩
  | ⟨_,.deadLetter _ _ _ _,_,_,_,_⟩ | ⟨_,.cleanup _ _,_,_,_,_⟩ | ⟨_,.restart,_,_,_,_⟩ => .isTrue trivial

end

section
variable {past : List (Step τ η)} {tr : Step τ η}

/-- A row of the table was there before or has just been published. -/
theorem published_origin (taken : Taken exec tr) {id : Nat} {row' : Row} (now : tr.after.rows.get? id = some row') :
    (∃ row, tr.before.rows.get? id = some row ∧ row'.event = row.event) ∨
      id = tr.before.issued ∧ tr.after.issued = tr.before.issued + 1 ∧
        ∃ epoch eventType aggregateId aggregateType payloadJson,
          tr.action = .publish epoch eventType aggregateId aggregateType payloadJson ∧
            row' = published eventType aggregateId aggregateType payloadJson tr.choice.now := by
  by_cases publishes : ∃ epoch eventType aggregateId aggregateType payloadJson,
      tr.action = .publish epoch eventType aggregateId aggregateType payloadJson
  · by_cases older : id = tr.before.issued
    · obtain ⟨epoch,eventType,aggregateId,aggregateType,payloadJson,is⟩ := publishes
      obtain ⟨task,action,choice,before,reply,after⟩ := tr
      subst is older
      obtain ⟨_,same⟩ := after_of_taken taken rfl
      simp only [answer] at same now ⊢
      split at same
      · subst same
        rw [OrderedMap.get?_set_self] at now
        exact .inr ⟨by simp,by simp,_,_,_,_,_,rfl,(Option.some.inj now).symm⟩
      · subst same
        exact .inl ⟨row',now,rfl⟩
    · obtain ⟨row,found,event,_⟩ := origin taken now (.inl older)
      exact .inl ⟨row,found,event⟩
  · obtain ⟨row,found,event,_⟩ := origin taken now (.inr fun epoch eventType aggregateId aggregateType payloadJson is =>
      publishes ⟨epoch,eventType,aggregateId,aggregateType,payloadJson,is⟩)
    exact .inl ⟨row,found,event⟩

theorem numbered_next (numbered : ∀ id row, tr.before.rows.get? id = some row → id < tr.before.issued)
    (taken : Taken exec tr) (id : Nat) (row : Row) (now : tr.after.rows.get? id = some row) : id < tr.after.issued := by
  have issued := issued_le taken
  rcases published_origin taken now with ⟨before,found,_⟩ | ⟨rfl,more,_⟩
  · have old := numbered id before found
    omega
  · omega

theorem claimedAt_mono (taken : Taken exec tr) (restarts : isRestart tr = false) (unreported : reports tr = none)
    (numbered : ∀ id row, tr.before.rows.get? id = some row → id < tr.before.issued) (id : Nat)
    (had : tr.before.claimedAt id = true) : tr.after.claimedAt id = true := by
  obtain ⟨row,found,stage⟩ := (Option.any_eq_true _ _).mp had
  have claimed : row.stage = .claimed := of_decide_eq_true stage
  obtain ⟨task,action,choice,before,reply,after⟩ := tr
  simp only at found had ⊢
  cases action with
  | select | handle | readRetryCount =>
    obtain ⟨_,same⟩ := after_of_taken taken rfl
    simp only [answer,ite_self] at same
    rw [same]
    exact had
  | claim own entry =>
    obtain ⟨_,same⟩ := after_of_taken taken rfl
    simp only [answer] at same
    rw [same]
    split
    · split
      · rename_i pending
        exact (claimedAt_claim _ _ _ (Option.isSome_of_any pending)).mpr (.inl had)
      · exact had
    · exact had
  | markProcessed | deadLetter | markRetry =>
    obtain ⟨_,same⟩ := after_of_taken taken rfl
    simp only [answer] at same
    rw [same]
    split
    · rename_i effective
      have reached := (if_pos effective).symm.trans unreported
      contradiction
    · exact had
  | publish =>
    obtain ⟨_,same⟩ := after_of_taken taken rfl
    simp only [answer] at same
    rw [same]
    have old : id ≠ before.issued := Nat.ne_of_lt (numbered id row found)
    split
    · unfold Store.claimedAt
      rw [OrderedMap.get?_set_of_ne old]
      exact had
    · exact had
  | cleanup own limit =>
    obtain ⟨_,same⟩ := after_of_taken taken rfl
    simp only [answer] at same
    rw [same]
    split
    · have kept : expired limit row = false := by simp [expired,claimed]
      simp [Store.claimedAt,OrderedMap.get?_filter,found,Option.filter,kept,claimed]
    · exact had
  | restart => contradiction

end

section
variable {registry : Registry η} {past : List (Step τ η)} {tr : Step τ η} {modes : τ → Mode η} {m : Mode η}

variable {id epoch : Nat}

theorem claimedAt_reported (taken : Taken exec tr) {finished : Bool} (reported : reports tr = some (id,finished))
    (other : Nat) : tr.after.claimedAt other = true ↔ tr.before.claimedAt other = true ∧ other ≠ id := by
  obtain ⟨task,action,choice,before,reply,after⟩ := tr
  cases action with
  | markProcessed own key | deadLetter own key retry error | markRetry own key retry error =>
    obtain ⟨effective,named⟩ := Option.ite_none_right_eq_some.mp reported
    obtain ⟨rfl,_⟩ := Prod.mk.inj (Option.some.inj named)
    obtain ⟨_,same⟩ := after_of_taken taken rfl
    rw [if_pos effective] at same
    simp only [answer] at same ⊢
    rw [same]
    exact claimedAt_report _ _ _ _ fun row => by simp
  | _ => contradiction

variable [DecidableEq η]

/-- A task gets an entry by its claim alone. -/
theorem live_allowed (allowed : rule registry tr.action tr.reply (modes tr.task) = some m)
    (live : m.live epoch = some id) : (modes tr.task).live epoch = some id ∨
      ∃ task own entry choice before after, tr = ⟨task,.claim own entry,choice,before,.ok true,after⟩ ∧
        entry.id = id := by
  obtain ⟨task,action,choice,before,reply,after⟩ := tr
  simp only at allowed ⊢
  cases action with
  | select own limit =>
    obtain ⟨_,rfl | ⟨_,_,rfl⟩⟩ := select_allowed allowed <;> contradiction
  | claim own entry =>
    obtain ⟨rest,mode,⟨rfl,rfl⟩ | ⟨_,rfl⟩ | ⟨_,rfl⟩⟩ := claim_allowed allowed
    · right
      simp only [Mode.live,Mode.holding,Option.bind_some] at live
      split at live
      · exact ⟨_,_,_,_,_,_,rfl,Option.some.inj live⟩
      · contradiction
    · contradiction
    · contradiction
  | handle own handler entry =>
    obtain ⟨left,failed,rest,mode,⟨_,rfl⟩ | ⟨_,_,rfl | ⟨_,rfl⟩⟩⟩ := handle_allowed allowed
    · exact .inl (mode ▸ live)
    · exact .inl (mode ▸ live)
    · contradiction
  | readRetryCount own key =>
    obtain ⟨head,rest,_,mode,⟨_,_,rfl⟩ | ⟨_,rfl⟩⟩ := readRetryCount_allowed allowed
    · exact .inl (mode ▸ live)
    · contradiction
  | markProcessed own key =>
    obtain ⟨_,_,_,_,rfl⟩ := markProcessed_allowed allowed
    cases reply <;> contradiction
  | deadLetter own key retry error =>
    obtain ⟨_,_,_,_,_,_,_,rfl⟩ := deadLetter_allowed allowed
    cases reply <;> contradiction
  | markRetry own key retry error =>
    obtain ⟨_,_,_,_,_,_,_,rfl⟩ := markRetry_allowed allowed
    cases reply <;> contradiction
  | publish | cleanup | restart =>
    obtain ⟨_,rfl⟩ := idle_allowed (by simp) allowed
    contradiction

/-- A task works in the run of the master that is on. -/
theorem epoch_allowed (taken : Taken exec tr) (allowed : rule registry tr.action tr.reply (modes tr.task) = some m) (known : m.epoch? = some epoch) : epoch = tr.before.epoch := by
  have reported_epoch : ∀ (own : Nat) (rest : List Entry) (reply : Except PyError Unit),
      (Mode.reported own rest reply : Mode η).epoch? = some epoch → own = epoch := by
    intro own rest reply known
    cases reply with
    | ok _ => exact Option.some.inj known
    | error _ => contradiction
  obtain ⟨task,action,choice,before,reply,after⟩ := tr
  simp only at allowed ⊢
  cases action with
  | select own limit =>
    have current : own = before.epoch := (after_of_taken taken rfl).1
    obtain ⟨_,rfl | ⟨_,_,rfl⟩⟩ := select_allowed allowed
    · contradiction
    · exact (Option.some.inj known).symm.trans current
  | claim own entry =>
    have current : own = before.epoch := (after_of_taken taken rfl).1
    obtain ⟨rest,mode,⟨rfl,rfl⟩ | ⟨_,rfl⟩ | ⟨_,rfl⟩⟩ := claim_allowed allowed
    · exact (Option.some.inj known).symm.trans current
    · exact (Option.some.inj known).symm.trans current
    · contradiction
  | handle own handler entry =>
    have current : own = before.epoch := (after_of_taken taken rfl).1
    obtain ⟨left,failed,rest,mode,⟨_,rfl⟩ | ⟨_,_,rfl | ⟨_,rfl⟩⟩⟩ := handle_allowed allowed
    · exact (Option.some.inj known).symm.trans current
    · exact (Option.some.inj known).symm.trans current
    · contradiction
  | readRetryCount own key =>
    have current : own = before.epoch := (after_of_taken taken rfl).1
    obtain ⟨head,rest,_,mode,⟨_,_,rfl⟩ | ⟨_,rfl⟩⟩ := readRetryCount_allowed allowed
    · exact (Option.some.inj known).symm.trans current
    · contradiction
  | markProcessed own key =>
    have current : own = before.epoch := (after_of_taken taken rfl).1
    obtain ⟨_,_,_,_,rfl⟩ := markProcessed_allowed allowed
    exact (reported_epoch _ _ _ known).symm.trans current
  | deadLetter own key retry error =>
    have current : own = before.epoch := (after_of_taken taken rfl).1
    obtain ⟨_,_,_,_,_,_,_,rfl⟩ := deadLetter_allowed allowed
    exact (reported_epoch _ _ _ known).symm.trans current
  | markRetry own key retry error =>
    have current : own = before.epoch := (after_of_taken taken rfl).1
    obtain ⟨_,_,_,_,_,_,_,rfl⟩ := markRetry_allowed allowed
    exact (reported_epoch _ _ _ known).symm.trans current
  | publish | cleanup | restart =>
    obtain ⟨_,rfl⟩ := idle_allowed (by simp) allowed
    contradiction

theorem Owned.next (kept : Owned modes tr.before)
    (numbered : ∀ id row, tr.before.rows.get? id = some row → id < tr.before.issued) (taken : Taken exec tr)
    (allowed : rule registry tr.action tr.reply (modes tr.task) = some m) [DecidableEq τ] :
    Owned (Function.update modes tr.task m) tr.after := by
  cases restarts : isRestart tr with
  | true =>
    refine kept.restart ?_ (epoch_raised taken restarts)
    obtain ⟨task,action,choice,before,reply,after⟩ := tr
    cases action with
    | restart => exact (idle_allowed (.inl rfl) allowed).2
    | _ => contradiction
  | false =>
    have epoch := epoch_kept taken restarts
    have epochs : ∀ own, m.epoch? = some own → own ≤ tr.before.epoch :=
      fun own known => Nat.le_of_eq (epoch_allowed taken allowed known)
    cases reported : reports tr with
    | some report =>
      obtain ⟨id,finished⟩ := report
      obtain ⟨live,free,_⟩ := report_allowed taken allowed reported
      exact kept.report live free epochs epoch (claimedAt_reported taken reported)
    | none =>
      by_cases claimed : ∃ task own entry choice before after, tr = ⟨task,.claim own entry,choice,before,.ok true,after⟩
      · obtain ⟨task,own,entry,choice,before,after,rfl⟩ := claimed
        obtain ⟨effective,answered⟩ := reply_ok taken rfl
        obtain ⟨current,same⟩ := after_of_taken taken rfl
        simp only [answer] at answered same current
        subst current
        rw [if_pos effective] at same
        split at answered
        · rename_i pending
          rw [if_pos pending] at same
          obtain ⟨rest,mode,⟨_,rfl⟩ | ⟨other,_⟩ | ⟨⟨_,other⟩,_⟩⟩ := claim_allowed allowed
          · refine kept.claim (by simp [Mode.live,Mode.holding]) epoch (unclaimed_of_pending pending) ?_
            intro other
            simp only [same]
            exact claimedAt_claim _ _ _ (Option.isSome_of_any pending)
          · cases other
          · cases other
        · cases answered
      · refine kept.quiet ?_ epochs epoch (claimedAt_mono taken restarts reported numbered)
        intro id live
        rcases live_allowed allowed live with had | ⟨task,own,entry,choice,before,after,is,_⟩
        · exact had
        · exact absurd ⟨task,own,entry,choice,before,after,is⟩ claimed

end

section
variable {s : Store} {past : List (Step τ η)} {tr : Step τ η} {modes : τ → Mode η} {m : Mode η}

theorem sameAggregate_of_event {first first' second second' : Row} (event : first'.event = first.event)
    (other : second'.event = second.event) : first'.sameAggregate second' = first.sameAggregate second := by
  simp only [Row.event,Prod.mk.injEq] at event other
  simp [Row.sameAggregate,event.2.1,event.2.2.1,other.2.1,other.2.2.1]

/-- Each open entry that was published before one of the batch comes before it in the batch. -/
def Preceded (s : Store) (flight : List Entry) : Prop :=
  ∀ pre entry post, flight = pre ++ entry :: post → ∀ id row, s.rows.get? id = some row → id < entry.id →
    row.sameAggregate entry.row = true → row.isOpen = true → ∃ earlier ∈ pre, earlier.id = id

theorem preceded_nil : Preceded s [] := by
  intro pre entry post is
  simp at is

variable {rest : List Entry} {id : Nat} {row row' : Row}

/-- The first of the batch may be dropped when it is done with, or no later one is of its aggregate. -/
theorem Preceded.drop {head : Entry} (kept : Preceded s (head :: rest))
    (free : ∀ row, s.rows.get? head.id = some row → row.isOpen = true →
      ∀ later ∈ rest, row.sameAggregate later.row = false) : Preceded s rest := by
  intro pre entry post is id row found older same opened
  have whole : head :: rest = (head :: pre) ++ entry :: post := by simp [is]
  obtain ⟨earlier,member,here⟩ := kept (head :: pre) entry post whole id row found older same opened
  rcases List.mem_cons.mp member with rfl | member
  · subst here
    have differ := free row found opened entry (by simp [is])
    rw [differ] at same
    contradiction
  · exact ⟨earlier,member,here⟩

/-- Steps that open nothing keep the order of a batch. -/
theorem Preceded.mono {s' : Store} {flight : List Entry} (kept : Preceded s flight)
    (opened : ∀ entry ∈ flight, ∀ id row', s'.rows.get? id = some row' → id < entry.id → row'.isOpen = true →
      ∃ row, s.rows.get? id = some row ∧ row.isOpen = true ∧ row'.event = row.event) : Preceded s' flight := by
  intro pre entry post is id row' found older same open'
  obtain ⟨row,before,wasOpen,event⟩ := opened entry (by simp [is]) id row' found older open'
  exact kept pre entry post is id row before older ((sameAggregate_of_event event rfl).symm.trans same) wasOpen

/-- An entry of an aggregate was published before the next one of it, by the clock too. -/
def Clocked (s : Store) : Prop :=
  ∀ id row other later, s.rows.get? id = some row → s.rows.get? other = some later → id < other → row.isOpen = true →
    row.sameAggregate later = true → row.createdAt < later.createdAt

instance : Std.Total Entry.notAfter := ⟨fun _ _ => Rat.le_total⟩

instance : IsTrans Entry Entry.notAfter := ⟨fun _ _ _ first second => Rat.le_trans first second⟩

/-- A batch is in the order of publication. -/
theorem batch_preceded (clocked : Clocked s) (limit : Nat)
    (free : ∀ claimed ∈ s.rows.values, claimed.stage = .claimed → ∀ entry ∈ s.pending,
      claimed.sameAggregate entry.row = false) : Preceded s (s.batch limit) := by
  intro pre entry post is id row found older same opened
  have member : entry ∈ s.batch limit := by simp [is]
  obtain ⟨here,pending⟩ := batch_found member
  have listed : entry ∈ s.pending := (List.mem_insertionSort Entry.notAfter).mp (List.mem_of_mem_take member)
  have stage : row.stage = .pending := by
    cases stage : row.stage with
    | pending => rfl
    | processed => simp [Row.isOpen,stage] at opened
    | claimed =>
      have differ := free row (OrderedMap.mem_values.mpr ⟨id,found⟩) stage entry listed
      rw [differ] at same
      contradiction
  have sooner : row.createdAt < entry.row.createdAt := clocked id row entry.id entry.row found here older opened same
  have waiting : (⟨id,row⟩ : Entry) ∈ s.pending := by
    refine List.mem_map.mpr ⟨(id,row),OrderedMap.mem_entries.mpr ?_,rfl⟩
    rw [OrderedMap.get?_filter,found]
    simp [Option.filter,stage]
  have sorted := List.pairwise_insertionSort Entry.notAfter s.pending
  obtain ⟨rest,whole⟩ : ∃ rest, s.batch limit ++ rest = s.pending.insertionSort Entry.notAfter :=
    ⟨_,List.take_append_drop limit _⟩
  rw [← whole,is] at sorted
  have among : (⟨id,row⟩ : Entry) ∈ (pre ++ entry :: post) ++ rest := by
    rw [← is,whole]
    exact (List.mem_insertionSort Entry.notAfter).mpr waiting
  simp only [List.append_assoc,List.cons_append,List.mem_append,List.mem_cons] at among
  simp only [List.append_assoc,List.cons_append] at sorted
  have after : ∀ other ∈ post ++ rest, entry.notAfter other :=
    (List.pairwise_cons.mp (List.pairwise_append.mp sorted).2.1).1
  rcases among with before | self | later
  · exact ⟨_,before,rfl⟩
  · exact absurd (congrArg Entry.id self) (Nat.ne_of_lt older)
  · have wrong := after ⟨id,row⟩ (List.mem_append.mpr later)
    exact absurd wrong (Rat.not_le.mpr sooner)

theorem reported_preceded {own epoch : Nat} {s : Store} {reply : Except PyError Unit}
    (kept : (∃ value, reply = .ok value) → Preceded s rest) :
    Preceded s ((Mode.reported own rest reply : Mode η).flight epoch) := by
  cases reply with
  | error _ => exact preceded_nil
  | ok value =>
    simp only [Mode.reported,Mode.flight]
    split
    · exact kept ⟨value,rfl⟩
    · exact preceded_nil

variable [DecidableEq η] {registry : Registry η}

/-- What is done with stays so. -/
theorem processed_kept (owned : Owned modes tr.before) (taken : Taken exec tr)
    (allowed : rule registry tr.action tr.reply (modes tr.task) = some m)
    (found : tr.before.rows.get? id = some row) (processed : row.stage = .processed)
    (now : tr.after.rows.get? id = some row') (older : id ≠ tr.before.issued ∨
      ∀ epoch eventType aggregateId aggregateType payloadJson,
        tr.action ≠ .publish epoch eventType aggregateId aggregateType payloadJson) : row'.stage = .processed := by
  have unchanged : tr.after.rows.get? id = tr.before.rows.get? id → row'.stage = .processed := by
    intro same
    rw [now,found] at same
    rw [Option.some.inj same,processed]
  have unclaimed : tr.before.claimedAt id = false := by simp [Store.claimedAt,found,processed]
  have marked : ∀ key (change : Row → Row), tr.after = tr.before.update key change →
      (∀ row, (change row).stage = .processed) → row'.stage = .processed := by
    intro key change same stages
    rw [same,get?_update,found] at now
    have is := Option.some.inj now
    subst is
    split
    · exact stages row
    · exact processed
  obtain ⟨task,action,choice,before,reply,after⟩ := tr
  simp only at found now older unchanged unclaimed marked allowed
  cases action with
  | select | handle | readRetryCount =>
    obtain ⟨_,same⟩ := after_of_taken taken rfl
    simp only [answer,ite_self] at same
    exact unchanged (by rw [same])
  | claim own entry =>
    obtain ⟨_,same⟩ := after_of_taken taken rfl
    simp only [answer] at same
    split at same
    · split at same
      · rename_i pending
        apply unchanged
        rw [same,get?_update,found]
        have other : id ≠ entry.id := by
          rintro rfl
          simp [found,processed] at pending
        simp [other]
      · exact unchanged (by rw [same])
    · exact unchanged (by rw [same])
  | markProcessed | deadLetter =>
    obtain ⟨_,same⟩ := after_of_taken taken rfl
    simp only [answer] at same
    split at same
    · exact marked _ _ same fun _ => rfl
    · exact unchanged (by rw [same])
  | markRetry own key retry error =>
    have current : own = before.epoch := (after_of_taken taken rfl).1
    obtain ⟨_,same⟩ := after_of_taken taken rfl
    simp only [answer] at same
    split at same
    · obtain ⟨head,known,rest,rfl,_,_,mode,_⟩ := markRetry_allowed allowed
      have claimed := owned.held task head.id (by simp [mode,Mode.live,Mode.holding,current])
      apply unchanged
      rw [same,get?_update,found]
      have other : id ≠ head.id := by
        rintro rfl
        rw [unclaimed] at claimed
        contradiction
      simp [other]
    · exact unchanged (by rw [same])
  | publish =>
    obtain ⟨_,same⟩ := after_of_taken taken rfl
    simp only [answer] at same
    split at same
    · rcases older with older | other
      · exact unchanged (by rw [same,OrderedMap.get?_set_of_ne older])
      · exact absurd rfl (other _ _ _ _ _)
    · exact unchanged (by rw [same])
  | cleanup own limit =>
    obtain ⟨_,same⟩ := after_of_taken taken rfl
    simp only [answer] at same
    split at same
    · simp only [same,OrderedMap.get?_filter,found] at now
      have is := Option.some.inj (Option.filter_eq_some_iff.mp now).1
      subst is
      exact processed
    · exact unchanged (by rw [same])
  | restart =>
    have rows := restart_rows taken
    split at rows
    · rw [rows,OrderedMap.get?_modify,found] at now
      have is := Option.some.inj now
      subst is
      exact (released_processed row).mpr processed
    · exact unchanged (by rw [rows])

theorem open_origin (owned : Owned modes tr.before) (taken : Taken exec tr)
    (allowed : rule registry tr.action tr.reply (modes tr.task) = some m)
    (now : tr.after.rows.get? id = some row') (opened : row'.isOpen = true) (older : id ≠ tr.before.issued ∨
      ∀ epoch eventType aggregateId aggregateType payloadJson,
        tr.action ≠ .publish epoch eventType aggregateId aggregateType payloadJson) :
    ∃ row, tr.before.rows.get? id = some row ∧ row.isOpen = true ∧ row'.event = row.event := by
  obtain ⟨row,found,event,_⟩ := origin taken now older
  refine ⟨row,found,?_,event⟩
  rw [Row.isOpen,decide_eq_true_eq]
  intro processed
  have kept := processed_kept owned taken allowed found processed now older
  simp [Row.isOpen,kept] at opened

theorem createdAt_of_event (event : row'.event = row.event) : row'.createdAt = row.createdAt :=
  congrArg (fun event => event.2.2.2.2) event

/-- What is left of the batch of a task. -/
def Mode.rest? : Mode η → Option (List Entry)
  | .looping _ rest | .dispatching _ _ _ _ rest | .reporting _ _ _ rest => some rest
  | _ => none

variable [DecidableEq τ]

structure InOrder (past : List (Step τ η)) (modes : τ → Mode η) (s : Store) : Prop where
  numbered : ∀ id row, s.rows.get? id = some row → id < s.issued
  owned : Owned modes s
  informed : Informed modes s
  clocked : Clocked s
  preceded : ∀ task, Preceded s ((modes task).flight s.epoch)
  left : ∀ task rest, (modes task).rest? = some rest → batchLeft past task = rest

theorem left_next (kept : ∀ task rest, (modes task).rest? = some rest → batchLeft past task = rest)
    (allowed : rule registry tr.action tr.reply (modes tr.task) = some m) (task : τ) (rest : List Entry)
    (now : (Function.update modes tr.task m task).rest? = some rest) : batchLeft (past ++ [tr]) task = rest := by
  by_cases other : tr.task = task
  swap
  · rw [Function.update_of_ne (Ne.symm other)] at now
    rw [batchLeft_concat,if_neg other]
    exact kept task rest now
  subst other
  rw [Function.update_self] at now
  rw [batchLeft_concat,if_pos rfl]
  have before := kept tr.task
  have reported_rest : ∀ (own : Nat) (left : List Entry) (reply : Except PyError Unit),
      (Mode.reported own left reply : Mode η).rest? = some rest → left = rest := by
    intro own left reply known
    cases reply with
    | ok _ => exact Option.some.inj known
    | error _ => contradiction
  obtain ⟨task,action,choice,s,reply,after⟩ := tr
  simp only at allowed before ⊢
  cases action with
  | select own limit =>
    obtain ⟨_,rfl | ⟨_,rfl,rfl⟩⟩ := select_allowed allowed
    · contradiction
    · exact Option.some.inj now
  | claim own entry =>
    obtain ⟨left,mode,⟨_,rfl⟩ | ⟨_,rfl⟩ | ⟨_,rfl⟩⟩ := claim_allowed allowed
    · rw [before (entry :: left) (by rw [mode]; rfl)]
      exact Option.some.inj now
    · rw [before (entry :: left) (by rw [mode]; rfl)]
      exact Option.some.inj now
    · contradiction
  | handle own handler entry =>
    obtain ⟨_,_,left,mode,⟨_,rfl⟩ | ⟨_,_,rfl | ⟨_,rfl⟩⟩⟩ := handle_allowed allowed
    · exact before rest (by rw [mode]; exact now)
    · exact before rest (by rw [mode]; exact now)
    · contradiction
  | readRetryCount own key =>
    obtain ⟨_,left,_,mode,⟨_,_,rfl⟩ | ⟨_,rfl⟩⟩ := readRetryCount_allowed allowed
    · exact before rest (by rw [mode]; exact now)
    · contradiction
  | markProcessed own key =>
    obtain ⟨_,left,_,mode,rfl⟩ := markProcessed_allowed allowed
    exact before rest (by rw [mode]; exact congrArg some (reported_rest _ _ _ now))
  | deadLetter own key retry error =>
    obtain ⟨_,_,left,_,_,_,mode,rfl⟩ := deadLetter_allowed allowed
    exact before rest (by rw [mode]; exact congrArg some (reported_rest _ _ _ now))
  | markRetry own key retry error =>
    obtain ⟨_,_,left,_,_,_,mode,rfl⟩ := markRetry_allowed allowed
    exact before rest (by rw [mode]; exact congrArg some (reported_rest _ _ _ now))
  | publish | cleanup | restart =>
    obtain ⟨_,rfl⟩ := idle_allowed (by simp) allowed
    contradiction

section
variable (kept : InOrder past modes tr.before) (taken : Taken exec tr)
  (allowed : rule registry tr.action tr.reply (modes tr.task) = some m)
include kept taken allowed

theorem InOrder.clocked_next (orderly : Orderly past tr) : Clocked tr.after := by
  intro id row' other later' found next older opened same
  have bound : id < tr.before.issued := by
    rcases published_origin taken next with ⟨later,before,_⟩ | ⟨rfl,_⟩
    · have old := kept.numbered other later before
      omega
    · exact older
  obtain ⟨row,before,wasOpen,event⟩ := open_origin kept.owned taken allowed found opened (.inl (Nat.ne_of_lt bound))
  rw [createdAt_of_event event]
  rcases published_origin taken next with ⟨later,there,also⟩ | ⟨_,_,epoch,eventType,aggregateId,aggregateType,payloadJson,is,rfl⟩
  · rw [createdAt_of_event also]
    exact kept.clocked id row other later before there older wasOpen ((sameAggregate_of_event event also).symm.trans same)
  · obtain ⟨task,action,choice,s,reply,after⟩ := tr
    subst is
    exact orderly row (OrderedMap.mem_values.mpr ⟨id,before⟩) wasOpen ((sameAggregate_of_event event rfl).symm.trans same)

/-- The batches that the tasks had keep their order. -/
theorem InOrder.batches_kept (task : τ) :
    Preceded tr.after ((modes task).flight tr.before.epoch) := by
  refine (kept.preceded task).mono fun entry member id row' now older opened => ?_
  have drawn := (kept.informed.known task entry member).1
  exact open_origin kept.owned taken allowed now opened (.inl (by omega))

theorem InOrder.batch_next (orderly : Orderly past tr) :
    Preceded tr.after (m.flight tr.before.epoch) := by
  have same_batch := kept.batches_kept taken allowed tr.task
  have known := kept.informed.known tr.task
  have left := kept.left tr.task
  have closed : ∀ (head : Entry) (rest : List Entry) (change : Row → Row), tr.after = tr.before.update head.id change →
      (∀ row, (change row).stage = .processed) → (modes tr.task).flight tr.before.epoch = head :: rest →
      Preceded tr.after rest := by
    intro head rest change same stages flight
    rw [flight] at same_batch
    refine same_batch.drop fun row now opened => ?_
    rw [same,get?_update] at now
    obtain ⟨old,_,rfl⟩ := Option.map_eq_some_iff.mp now
    simp [Row.isOpen,stages] at opened
  obtain ⟨task,action,choice,before,reply,after⟩ := tr
  simp only at allowed same_batch known left closed ⊢
  cases action with
  | select own limit =>
    obtain ⟨current,same⟩ := after_of_taken taken rfl
    simp only [answer,ite_self] at same current
    obtain ⟨_,rfl | ⟨entries,rfl,rfl⟩⟩ := select_allowed allowed
    · exact preceded_nil
    · obtain ⟨_,answered⟩ := reply_ok taken rfl
      have selected : before.batch limit = entries := Except.ok.inj answered
      simp only [Mode.flight]
      rw [if_pos current,same,← selected]
      exact batch_preceded kept.clocked limit orderly
  | claim own entry =>
    obtain ⟨current,same⟩ := after_of_taken taken rfl
    simp only [answer] at same current
    subst current
    obtain ⟨rest,mode,⟨_,rfl⟩ | ⟨rfl,rfl⟩ | ⟨_,rfl⟩⟩ := claim_allowed allowed
    · rw [mode] at same_batch
      exact same_batch
    · obtain ⟨effective,answered⟩ := reply_ok taken rfl
      simp only [answer] at answered
      rw [if_pos effective] at same
      split at answered
      · cases answered
      rename_i unavailable
      rw [if_neg unavailable] at same
      rw [mode] at same_batch known left
      simp only [Mode.flight,if_true] at same_batch known ⊢
      refine same_batch.drop fun row now opened later member => ?_
      rw [same] at now
      have stage : row.stage = .claimed := by
        cases stage : row.stage with
        | claimed => rfl
        | processed => simp [Row.isOpen,stage] at opened
        | pending => simp [now,stage] at unavailable
      have event := (known entry (by simp)).2 row now
      rw [sameAggregate_of_event event rfl]
      have rest_left : batchLeft past task = entry :: rest := left (entry :: rest) rfl
      exact orderly (by simp [Store.claimedAt,now,stage]) later (by simpa [rest_left] using member)
    · exact preceded_nil
  | handle own handler entry =>
    obtain ⟨_,_,rest,mode,⟨_,rfl⟩ | ⟨_,_,rfl | ⟨_,rfl⟩⟩⟩ := handle_allowed allowed
    · rw [mode] at same_batch
      exact same_batch
    · rw [mode] at same_batch
      exact same_batch
    · exact preceded_nil
  | readRetryCount own key =>
    obtain ⟨_,rest,_,mode,⟨_,_,rfl⟩ | ⟨_,rfl⟩⟩ := readRetryCount_allowed allowed
    · rw [mode] at same_batch
      exact same_batch
    · exact preceded_nil
  | markProcessed own key =>
    obtain ⟨head,rest,rfl,mode,rfl⟩ := markProcessed_allowed allowed
    refine reported_preceded ?_
    rintro ⟨_,ok⟩
    obtain ⟨effective,_⟩ := reply_ok taken ok
    obtain ⟨current,same⟩ := after_of_taken taken rfl
    rw [if_pos effective] at same
    exact closed head rest _ same (fun _ => rfl) (by simpa [mode,Mode.flight] using current)
  | deadLetter own key retry error =>
    obtain ⟨head,known,rest,rfl,_,_,mode,rfl⟩ := deadLetter_allowed allowed
    refine reported_preceded ?_
    rintro ⟨_,ok⟩
    obtain ⟨effective,_⟩ := reply_ok taken ok
    obtain ⟨current,same⟩ := after_of_taken taken rfl
    rw [if_pos effective] at same
    exact closed head rest _ same (fun _ => rfl) (by simpa [mode,Mode.flight] using current)
  | markRetry own key retry error =>
    obtain ⟨head,_,rest,rfl,_,_,mode,rfl⟩ := markRetry_allowed allowed
    refine reported_preceded fun _ => ?_
    have current : own = before.epoch := (after_of_taken taken rfl).1
    subst current
    rw [mode] at same_batch left
    simp only [Mode.flight,if_true] at same_batch
    refine same_batch.drop fun row' now _ later member => ?_
    obtain ⟨row,found,event,_⟩ := origin taken now (.inr fun _ _ _ _ _ is => by cases is)
    rw [sameAggregate_of_event event rfl]
    have rest_left : batchLeft past task = rest := left rest rfl
    exact orderly row found later (by rw [rest_left]; exact member)
  | publish | cleanup | restart =>
    obtain ⟨_,rfl⟩ := idle_allowed (by simp) allowed
    exact preceded_nil

theorem InOrder.next (orderly : Orderly past tr) :
    InOrder (past ++ [tr]) (Function.update modes tr.task m) tr.after := by
  have owned := kept.owned.next kept.numbered taken allowed
  refine ⟨numbered_next kept.numbered taken,owned,kept.informed.next kept.owned kept.numbered taken allowed,
    kept.clocked_next taken allowed orderly,?_,left_next kept.left allowed⟩
  intro task
  cases restarts : isRestart tr with
  | true =>
    -- no batch of the new run yet
    have empty : (Function.update modes tr.task m task).flight tr.after.epoch = [] := by
      apply List.eq_nil_iff_forall_not_mem.mpr
      intro entry member
      have idle : m = .idle := by
        obtain ⟨task,action,choice,before,reply,after⟩ := tr
        cases action with
        | restart => exact (idle_allowed (.inl rfl) allowed).2
        | _ => contradiction
      have old := kept.owned.older idle task _ (epoch_of_flight member)
      have raised := epoch_raised taken restarts
      omega
    rw [empty]
    exact preceded_nil
  | false =>
    rw [epoch_kept taken restarts]
    by_cases own : task = tr.task
    · subst own
      rw [Function.update_self]
      exact kept.batch_next taken allowed orderly
    · rw [Function.update_of_ne own]
      exact kept.batches_kept taken allowed task

theorem InOrder.ordered : Ordered tr := by
  intro epoch handler entry is id row found older same
  obtain ⟨task,action,choice,before,reply,after⟩ := tr
  subst is
  have current : epoch = before.epoch := (after_of_taken taken rfl).1
  obtain ⟨_,_,rest,mode,_⟩ := handle_allowed allowed
  have flight : (modes task).flight before.epoch = entry :: rest := by
    simp only at mode
    rw [mode,← current]
    exact if_pos rfl
  cases opened : row.isOpen with
  | false => rfl
  | true =>
    obtain ⟨_,none,_⟩ := kept.preceded task [] entry rest flight id row found older same opened
    contradiction

end

end

/-- In a run whose steps pass over no open entry, no handler runs for an entry while an earlier
one of its aggregate is open. -/
theorem aggregates_ordered [DecidableEq η] [DecidableEq τ] (registry : Registry η) (clients : τ → Client)
    (schedule : List (τ × Choice)) (orderly : Throughout Orderly [] (run exec schedule (start registry clients)).2) :
    Throughout (fun _ => Ordered) [] (run exec schedule (start registry clients)).2 := by
  have initial : InOrder ([] : List (Step τ η)) (fun _ => .idle) ⟨.empty,0,0⟩ := by
    have sound : Sound registry ([] : List (Step τ η)) (fun _ => .idle) ⟨.empty,0,0⟩ := Sound.initial
    refine ⟨sound.table.numbered,sound.claims.toOwned,sound.informed,?_,fun _ => preceded_nil,?_⟩
    · intro _ _ _ _ found
      contradiction
    · intro _ _ known
      contradiction
  have keeps : ∀ past modes (tr : Step τ η) m, InOrder past modes tr.before → Taken exec tr →
      rule registry tr.action tr.reply (modes tr.task) = some m → Orderly past tr →
      InOrder (past ++ [tr]) (Function.update modes tr.task m) tr.after :=
    fun _ _ _ _ kept taken allowed orderly => kept.next taken allowed orderly
  have follows : ∀ task, ((start registry clients).tasks task).Follows (rule registry) .idle fun _ mode => mode.ended :=
    fun task => client_follows (clients task)
  exact run_transitions keeps (fun _ _ _ _ kept taken allowed _ => kept.ordered taken allowed)
    schedule (start registry clients) [] (fun _ => Mode.idle) initial follows orderly

def publishTwiceAndSweep : Nat → Client
  | 2 => .sweep 0 100
  | _ => .publish 0 "node.state_changed" (some "n1") "node" "\x7b\x7d"

def twice : List (Nat × Choice) := [(0,calm),(1,⟨.none,1⟩)] ++ List.replicate 7 (2,calm)

theorem aggregates_ordered_twice :
    Throughout (fun _ => Ordered) [] (run exec twice (start sample publishTwiceAndSweep)).2 :=
  aggregates_ordered sample publishTwiceAndSweep twice (by decide +kernel)

/-- The handler of the first entry fails once. -/
def overtaken : List (Nat × Choice) :=
  [(0,calm),(1,⟨.none,1⟩),(2,calm),(2,calm),(2,⟨.before (.runtimeError "unreachable"),2⟩)] ++ List.replicate 4 (2,calm)

def runsEarly (tr : Step Nat String) : Bool :=
  match tr.action with
  | .handle _ _ entry => entry.id = 1 ∧ (tr.before.rows.get? 0).any fun row => row.isOpen && row.sameAggregate entry.row
  | _ => false

/-- The second entry is delivered while the first one waits for its retry. -/
theorem retried_entry_overtaken : ¬∀ (registry : Registry String) (clients : Nat → Client) (schedule : List (Nat × Choice)),
    ∀ tr ∈ (run exec schedule (start registry clients)).2, Ordered tr := by
  intro claim
  have early : (run exec overtaken (start sample publishTwiceAndSweep)).2.any runsEarly = true := by decide +kernel
  obtain ⟨tr,member,runs⟩ := List.any_eq_true.mp early
  have ordered := claim sample publishTwiceAndSweep overtaken tr member
  unfold runsEarly at runs
  split at runs
  · rename_i epoch handler entry is
    obtain ⟨second,open_first⟩ := of_decide_eq_true runs
    obtain ⟨row,found,both⟩ := (Option.any_eq_true _ _).mp open_first
    rw [Bool.and_eq_true] at both
    have closed := ordered epoch handler entry is 0 row found (by omega) both.2
    rw [closed] at both
    exact Bool.false_ne_true both.1
  · contradiction

end Vigile.Outbox
