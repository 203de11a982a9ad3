import Vigile.AlertProtocol

/-! The alerts in memory are the firing rows of the table, in a run that loses no update. -/
namespace Vigile.Alerts

open Interleaving Python

variable {τ : Type}

structure Agree (s : State) : Prop where
  held : ∀ id row, s.alerts.get? id = some row → row.firing = true →
    ∃ active, s.memory.active.get? row.key = some active ∧ active.id = id
  backed : ∀ key active, s.memory.active.get? key = some active →
    ∃ row, s.alerts.get? active.id = some row ∧ row.firing = true ∧ row.key = key

theorem Agree.single {s : State} (agree : Agree s) {id other : Nat} {row row' : Row} (found : s.alerts.get? id = some row)
    (firing : row.firing = true) (found' : s.alerts.get? other = some row') (firing' : row'.firing = true)
    (same : row.key = row'.key) : id = other := by
  obtain ⟨active,here,rfl⟩ := agree.held id row found firing
  obtain ⟨active',there,rfl⟩ := agree.held other row' found' firing'
  rw [same,there] at here
  rw [Option.some.inj here]

def Effective (tr : Step τ) : Bool := tr.choice.fault.takesEffect

/-- The call failed after it took effect. -/
def Lost (tr : Step τ) : Bool := tr.choice.fault.takesEffect && tr.choice.fault ≠ .none

section
variable [DecidableEq τ]

/-- The alert that the task last failed to resolve, until it looks at the next one. -/
def unresolved (past : List (Step τ)) (task : τ) : Option Key :=
  past.foldl (fun last tr =>
    if tr.task = task then
      match tr.action,tr.reply with
      | .op _ (.look _),_ => none
      | .op _ (.resolve key),.error _ => some key
      | .op _ (.resolve _),.ok _ => none
      | _,_ => last
    else last) none

/-- A step that loses no update of either side. -/
def Lossless (past : List (Step τ)) (tr : Step τ) : Prop :=
  match tr.action with
  | .op _ (.insert key _ _ _) => Lost tr = false ∧ unresolved past tr.task ≠ some key
  | .op _ (.resolve _) => Lost tr = false
  | .op _ (.forget valid) => ∀ row ∈ tr.before.alerts.values, row.firing = true → row.node ∈ valid
  | .op _ (.acknowledge id) => Effective tr = true → (tr.before.alerts.get? id).any Row.firing = false
  | .op _ (.deleteNode node) => Effective tr = true → ∀ row ∈ tr.before.alerts.values, row.firing = true → row.node ≠ node
  | .restart => Effective tr = true ∨ ∀ row ∈ tr.before.alerts.values, row.firing = false
  | _ => True

instance (past : List (Step τ)) (tr : Step τ) : Decidable (Lossless past tr) := by
  unfold Lossless
  split <;> infer_instance

theorem unresolved_concat (past : List (Step τ)) (tr : Step τ) (task : τ) : unresolved (past ++ [tr]) task =
    if tr.task = task then
      match tr.action,tr.reply with
      | .op _ (.look _),_ => none
      | .op _ (.resolve key),.error _ => some key
      | .op _ (.resolve _),.ok _ => none
      | _,_ => unresolved past task
    else unresolved past task := by
  simp [unresolved]

end

section
variable {tr : Step τ} {s : State}

variable {after before : State} {choice : Choice} {op : Op} {task : τ}

/-- A step of the present run either takes effect or leaves everything as it was. -/
theorem after_of_taken {epoch : Nat}
    {reply : Except PyError (Reply (.op epoch op))} (taken : Taken exec (⟨task,.op epoch op,choice,before,reply,after⟩ : Step τ)) :
    epoch = before.epoch ∧ (after,reply) = choice.fault.strike before (answer epoch choice.now before op) ∧
      (op = .acquire → before.locked = false) := by
  replace taken : exec (.op epoch op) choice before = some (after,reply) := taken
  simp only [exec] at taken
  split at taken
  · rename_i current
    split at taken
    · split at taken
      · contradiction
      · rename_i free
        exact ⟨current,(Option.some.inj taken).symm,fun _ => by simpa using free⟩
    · rename_i other
      exact ⟨current,(Option.some.inj taken).symm,fun same => absurd same other⟩
  · contradiction

theorem restart_of_taken {reply : Except PyError Nat}
    (taken : Taken exec (⟨task,.restart,choice,before,reply,after⟩ : Step τ)) :
    after = if choice.fault.takesEffect then
      before.fresh.withMemory fun memory => {memory with active := restored before.alerts} else before.fresh := by
  replace taken : exec .restart choice before = some (after,reply) := taken
  have struck := congrArg Prod.fst (Option.some.inj taken)
  rw [strike_fst] at struck
  exact struck.symm

theorem answer_epoch (epoch : Nat) (now : ℚ) (s : State) (op : Op) : (answer epoch now s op).1.epoch = s.epoch := by
  cases op with
  | insert | underLimit | resolve key =>
    simp only [answer]
    split <;> rfl
  | _ => rfl

theorem answer_locked (epoch : Nat) (now : ℚ) (s : State) (op : Op) (acquires : op ≠ .acquire) (releases : op ≠ .release) :
    (answer epoch now s op).1.locked = s.locked := by
  cases op with
  | acquire | release => contradiction
  | insert | underLimit | resolve key =>
    simp only [answer]
    split <;> rfl
  | _ => rfl

/-- Operations on neither the rows nor the alerts in memory. -/
def Op.quiet : Op → Bool
  | .insert _ _ _ _ | .resolve _ | .forget _ | .deleteOrphans | .deleteOld | .acknowledge _ | .deleteNode _ => false
  | _ => true

theorem answer_quiet (epoch : Nat) (now : ℚ) (s : State) (quiet : op.quiet = true) :
    (answer epoch now s op).1.alerts = s.alerts ∧ (answer epoch now s op).1.memory.active = s.memory.active ∧
      (answer epoch now s op).1.issued = s.issued := by
  cases op with
  | insert | resolve | forget | deleteOrphans | deleteOld | acknowledge | deleteNode => contradiction
  | underLimit key =>
    simp only [answer]
    split <;> exact ⟨rfl,rfl,rfl⟩
  | _ => exact ⟨rfl,rfl,rfl⟩

end

structure Locked (modes : τ → Mode) (s : State) : Prop where
  locked : ∀ task, (modes task).epoch? = some s.epoch → s.locked = true
  alone : ∀ task other, (modes task).epoch? = some s.epoch → (modes other).epoch? = some s.epoch → task = other
  epochs : ∀ task epoch, (modes task).epoch? = some epoch → epoch ≤ s.epoch

section
variable [DecidableEq τ] {tr : Step τ} {modes : τ → Mode} {m : Mode}

/-- Steps that leave the lock. -/
theorem Locked.same (kept : Locked modes tr.before) (mode : m.epoch? = (modes tr.task).epoch?)
    (epoch : tr.after.epoch = tr.before.epoch)
    (lock : ∀ task, (modes task).epoch? = some tr.before.epoch → tr.before.locked = true → tr.after.locked = true) :
    Locked (Function.update modes tr.task m) tr.after := by
  have modes_same : ∀ task, (Function.update modes tr.task m task).epoch? = (modes task).epoch? := by
    intro task
    by_cases own : task = tr.task
    · subst own
      rw [Function.update_self,mode]
    · rw [Function.update_of_ne own]
  refine ⟨?_,?_,?_⟩
  · intro task has
    rw [modes_same,epoch] at has
    exact lock task has (kept.locked task has)
  · intro task other has also
    rw [modes_same,epoch] at has also
    exact kept.alone task other has also
  · intro task e has
    rw [modes_same] at has
    rw [epoch]
    exact kept.epochs task e has

theorem Locked.left (kept : Locked modes tr.before) (had : (modes tr.task).epoch? = some tr.before.epoch) (out : m = .outside)
    (epoch : tr.after.epoch = tr.before.epoch) : Locked (Function.update modes tr.task m) tr.after := by
  have nobody : ∀ task e, (Function.update modes tr.task m task).epoch? = some e →
      e ≤ tr.before.epoch ∧ e ≠ tr.before.epoch := by
    intro task e has
    by_cases own : task = tr.task
    · subst own out
      rw [Function.update_self] at has
      contradiction
    · rw [Function.update_of_ne own] at has
      refine ⟨kept.epochs task e has,?_⟩
      rintro rfl
      exact own (kept.alone task tr.task has had)
  refine ⟨?_,?_,?_⟩
  · intro task has
    exact absurd epoch (nobody task _ has).2
  · intro task other has
    exact absurd epoch (nobody task _ has).2
  · intro task e has
    rw [epoch]
    exact (nobody task e has).1

theorem Locked.entered (kept : Locked modes tr.before) (free : tr.before.locked = false) (inside : m = .inside tr.before.epoch)
    (locked : tr.after.locked = true) (epoch : tr.after.epoch = tr.before.epoch) :
    Locked (Function.update modes tr.task m) tr.after := by
  have nobody : ∀ task, (modes task).epoch? ≠ some tr.before.epoch := by
    intro task has
    rw [kept.locked task has] at free
    contradiction
  have only : ∀ task, (Function.update modes tr.task m task).epoch? = some tr.before.epoch → task = tr.task := by
    intro task has
    by_cases own : task = tr.task
    · exact own
    · rw [Function.update_of_ne own] at has
      exact absurd has (nobody task)
  refine ⟨fun _ _ => locked,?_,?_⟩
  · intro task other has also
    rw [epoch] at has also
    rw [only task has,only other also]
  · intro task e has
    rw [epoch]
    by_cases own : task = tr.task
    · subst own inside
      rw [Function.update_self] at has
      exact Nat.le_of_eq (Option.some.inj has).symm
    · rw [Function.update_of_ne own] at has
      exact kept.epochs task e has

theorem Locked.restarted (kept : Locked modes tr.before) (out : m = .outside) (epoch : tr.after.epoch = tr.before.epoch + 1) :
    Locked (Function.update modes tr.task m) tr.after := by
  have older : ∀ task e, (Function.update modes tr.task m task).epoch? = some e → e ≤ tr.before.epoch := by
    intro task e has
    by_cases own : task = tr.task
    · subst own out
      rw [Function.update_self] at has
      contradiction
    · rw [Function.update_of_ne own] at has
      exact kept.epochs task e has
  refine ⟨?_,?_,?_⟩
  · intro task has
    have before := older task _ has
    omega
  · intro task other has
    have before := older task _ has
    omega
  · intro task e has
    have before := older task e has
    omega

variable {mode : Mode}

/-- Every step of a critical section leaves its task inside, but the last one. -/
theorem inside_allowed {epoch : Nat} {op : Op} {reply : Except PyError (Reply (.op epoch op))}
    (allowed : rule (.op epoch op) reply mode = some m) :
    op = .acquire ∧ mode = .outside ∧ ((∃ value, reply = .ok value) ∧ m = .inside epoch ∨ m = .outside) ∨
      op = .release ∧ mode.epoch? = some epoch ∧ m = .outside ∨
      op ≠ .acquire ∧ op ≠ .release ∧ m.epoch? = mode.epoch? := by
  cases op with
  | acquire =>
    cases mode with
    | outside =>
      refine .inl ⟨rfl,rfl,?_⟩
      cases reply with
      | ok value => exact .inl ⟨⟨value,rfl⟩,(Option.some.inj allowed).symm⟩
      | error _ => exact .inr (Option.some.inj allowed).symm
    | inside | cleared | stuck => simp [rule] at allowed
  | release =>
    obtain ⟨within,left⟩ := Option.ite_none_right_eq_some.mp allowed
    exact .inr (.inl ⟨rfl,within,(Option.some.inj left).symm⟩)
  | look key =>
    obtain ⟨within,read⟩ := Option.ite_none_right_eq_some.mp allowed
    refine .inr (.inr ⟨by simp,by simp,?_⟩)
    rw [within]
    rcases reply with error | (_ | severity)
    all_goals exact (Option.some.inj read) ▸ rfl
  | resolve key =>
    obtain ⟨within,read⟩ := Option.ite_none_right_eq_some.mp allowed
    refine .inr (.inr ⟨by simp,by simp,?_⟩)
    rw [within]
    cases reply with
    | ok _ | error _ => exact (Option.some.inj read) ▸ rfl
  | insert key severity metricValue threshold =>
    obtain ⟨⟨within,_⟩,entered⟩ := Option.ite_none_right_eq_some.mp allowed
    refine .inr (.inr ⟨by simp,by simp,?_⟩)
    rw [within]
    exact (Option.some.inj entered) ▸ rfl
  | underLimit | previous | remember | recordIntent | reconnect | selectNodes | forget =>
    obtain ⟨_,same⟩ := Option.ite_none_right_eq_some.mp allowed
    exact .inr (.inr ⟨by simp,by simp,by rw [Option.some.inj same]⟩)
  | deleteOrphans | deleteOld | acknowledge | addNode | deleteNode =>
    cases mode with
    | outside => exact .inr (.inr ⟨by simp,by simp,(Option.some.inj allowed) ▸ rfl⟩)
    | inside | cleared | stuck => simp [rule] at allowed

theorem restart_allowed {reply : Except PyError Nat} (allowed : rule .restart reply mode = some m) :
    mode = .outside ∧ m = .outside := by
  cases mode with
  | outside => exact ⟨rfl,(Option.some.inj allowed).symm⟩
  | inside | cleared | stuck => simp [rule] at allowed

theorem Locked.next (kept : Locked modes tr.before) (taken : Taken exec tr)
    (allowed : rule tr.action tr.reply (modes tr.task) = some m) : Locked (Function.update modes tr.task m) tr.after := by
  obtain ⟨task,action,choice,before,reply,after⟩ := tr
  cases action with
  | restart =>
    refine kept.restarted (restart_allowed allowed).2 ?_
    have same := restart_of_taken taken
    simp only
    rw [same]
    split <;> rfl
  | op epoch op =>
    obtain ⟨rfl,struck,free⟩ := after_of_taken taken
    have state := strike_state choice.fault before (answer before.epoch choice.now before op)
    rw [← struck] at state
    simp only at state
    have same_epoch : after.epoch = before.epoch := by
      rcases state with same | same
      · rw [same]
      · rw [same,answer_epoch]
    rcases inside_allowed allowed with ⟨rfl,outside,⟨⟨value,rfl⟩,inside⟩ | out⟩ | ⟨rfl,had,out⟩ | ⟨acquires,releases,mode⟩
    · have locked : after.locked = true := by
        obtain ⟨_,done⟩ := strike_ok struck.symm
        have same : {before with locked := true} = after := congrArg Prod.fst done
        rw [← same]
      exact kept.entered (free rfl) inside locked same_epoch
    · refine kept.same ?_ same_epoch fun task has locked => ?_
      · simp only at outside ⊢
        rw [out,outside]
      · simp only at locked ⊢
        rw [free rfl] at locked
        contradiction
    · exact kept.left had out same_epoch
    · refine kept.same mode same_epoch fun task has locked => ?_
      simp only at locked ⊢
      rcases state with same | same
      · rw [same,locked]
      · rw [same,answer_locked _ _ _ _ acquires releases,locked]

end

section
variable {s s' : State}

theorem Agree.same (agree : Agree s) (alerts : ∀ id, s'.alerts.get? id = s.alerts.get? id)
    (active : s'.memory.active = s.memory.active) : Agree s' := by
  refine ⟨?_,?_⟩
  · intro id row found firing
    rw [alerts] at found
    rw [active]
    exact agree.held id row found firing
  · intro key entry found
    rw [active] at found
    simpa only [alerts] using agree.backed key entry found

variable {active : Active} {id : Nat} {row : Row} {key : Key}

theorem Agree.fired (agree : Agree s) (new : s.alerts.get? id = none)
    (inactive : s.memory.active.get? row.key = none) (firing : row.firing = true) (named : active.id = id)
    (alerts : s'.alerts = s.alerts.set id row) (memory : s'.memory.active = s.memory.active.set row.key active) : Agree s' := by
  refine ⟨?_,?_⟩
  · intro other row' found firing'
    rw [alerts] at found
    rw [memory]
    by_cases same : other = id
    · subst same
      rw [OrderedMap.get?_set_self] at found
      obtain rfl := Option.some.inj found
      exact ⟨active,OrderedMap.get?_set_self,named⟩
    · rw [OrderedMap.get?_set_of_ne same] at found
      obtain ⟨entry,here,is⟩ := agree.held other row' found firing'
      have differ : row'.key ≠ row.key := by
        intro same_key
        rw [same_key,inactive] at here
        contradiction
      exact ⟨entry,by rw [OrderedMap.get?_set_of_ne differ,here],is⟩
  · intro key entry found
    rw [memory] at found
    rw [alerts]
    by_cases same : key = row.key
    · subst same
      rw [OrderedMap.get?_set_self] at found
      obtain rfl := Option.some.inj found
      subst named
      exact ⟨row,OrderedMap.get?_set_self,firing,rfl⟩
    · rw [OrderedMap.get?_set_of_ne same] at found
      obtain ⟨row',there,firing',is⟩ := agree.backed key entry found
      have differ : entry.id ≠ id := by
        rintro rfl
        rw [new] at there
        contradiction
      exact ⟨row',by rw [OrderedMap.get?_set_of_ne differ,there],firing',is⟩

theorem get?_markResolved (s : State) (id key : Nat) (now : ℚ) : (s.markResolved id now).alerts.get? key =
    (s.alerts.get? key).map fun row =>
      if key = id ∧ row.firing = true then {row with firing := false,resolvedAt := some now} else row := by
  simp [State.markResolved]

/-- An active alert is resolved. -/
theorem Agree.resolved (agree : Agree s) {current : Active} (active : s.memory.active.get? key = some current)
    (now : ℚ) : Agree ((s.markResolved current.id now).withMemory fun memory =>
      {memory with active := memory.active.erase key}) := by
  obtain ⟨row,here,firing,named⟩ := agree.backed key current active
  refine ⟨?_,?_⟩
  · intro id row' found firing'
    simp only [State.withMemory] at found ⊢
    rw [get?_markResolved] at found
    obtain ⟨before,was,rfl⟩ := Option.map_eq_some_iff.mp found
    split at firing'
    · contradiction
    · rename_i other
      rw [if_neg other]
      have differ : id ≠ current.id := fun same => other ⟨same,firing'⟩
      obtain ⟨entry,there,is⟩ := agree.held id before was firing'
      have keys : before.key ≠ key := by
        intro same
        rw [same,active] at there
        exact differ (is.symm.trans (congrArg Active.id (Option.some.inj there)).symm)
      exact ⟨entry,(OrderedMap.get?_erase_of_ne keys).trans there,is⟩
  · intro other entry found
    simp only [State.withMemory] at found ⊢
    have differ : other ≠ key := by
      rintro rfl
      rw [State.markResolved,OrderedMap.get?_erase_self] at found
      contradiction
    rw [OrderedMap.get?_erase_of_ne differ] at found
    obtain ⟨row',there,firing',is⟩ := agree.backed other entry found
    have ids : entry.id ≠ current.id := by
      intro same
      rw [same,here] at there
      obtain rfl := Option.some.inj there
      exact differ (is.symm.trans named)
    refine ⟨row',?_,firing',is⟩
    rw [get?_markResolved,there,Option.map_some,if_neg fun both => ids both.1]

/-- Rows that do not fire are deleted. -/
theorem Agree.dropped (agree : Agree s) (keep : Nat → Row → Bool) (alerts : s'.alerts = s.alerts.filter keep)
    (active : s'.memory.active = s.memory.active)
    (fires : ∀ id row, s.alerts.get? id = some row → row.firing = true → keep id row = true) : Agree s' := by
  refine ⟨?_,?_⟩
  · intro id row found firing
    rw [alerts,OrderedMap.get?_filter] at found
    rw [active]
    exact agree.held id row (Option.filter_eq_some_iff.mp found).1 firing
  · intro key entry found
    rw [active] at found
    obtain ⟨row,here,firing,named⟩ := agree.backed key entry found
    refine ⟨row,?_,firing,named⟩
    rw [alerts,OrderedMap.get?_filter,here]
    exact Option.filter_eq_some_iff.mpr ⟨rfl,fires entry.id row here firing⟩

theorem Agree.forgotten (agree : Agree s) (keep : Key → Active → Bool) (alerts : s'.alerts = s.alerts)
    (memory : s'.memory.active = s.memory.active.filter keep)
    (fires : ∀ id row, s.alerts.get? id = some row → row.firing = true → ∀ entry, keep row.key entry = true) : Agree s' := by
  refine ⟨?_,?_⟩
  · intro id row found firing
    rw [alerts] at found
    obtain ⟨entry,here,is⟩ := agree.held id row found firing
    refine ⟨entry,?_,is⟩
    rw [memory,OrderedMap.get?_filter,here]
    exact Option.filter_eq_some_iff.mpr ⟨rfl,fires id row found firing entry⟩
  · intro key entry found
    rw [memory,OrderedMap.get?_filter] at found
    rw [alerts]
    exact agree.backed key entry (Option.filter_eq_some_iff.mp found).1

def restoreRow (active : OrderedMap Key Active) (entry : Nat × Row) : OrderedMap Key Active :=
  if entry.2.firing then active.set entry.2.key ⟨entry.1,entry.2.severity,entry.2.createdAt⟩ else active

theorem restored_backed (rows : List (Nat × Row))
    (found : (rows.foldl restoreRow .empty).get? key = some active) :
    ∃ row, (active.id,row) ∈ rows ∧ row.firing = true ∧ row.key = key := by
  induction rows using List.reverseRecOn with
  | nil => contradiction
  | append_singleton rows entry ih =>
    rw [List.foldl_append] at found
    simp only [List.foldl_cons,List.foldl_nil,restoreRow] at found
    have earlier : ((rows.foldl restoreRow .empty).get? key = some active) →
        ∃ row, (active.id,row) ∈ rows ++ [entry] ∧ row.firing = true ∧ row.key = key := by
      intro before
      obtain ⟨row,member,firing,named⟩ := ih before
      exact ⟨row,List.mem_append_left _ member,firing,named⟩
    split at found
    · rename_i firing
      by_cases same : key = entry.2.key
      · subst same
        rw [OrderedMap.get?_set_self] at found
        obtain rfl := Option.some.inj found
        exact ⟨entry.2,List.mem_append_right _ (List.mem_singleton.mpr rfl),firing,rfl⟩
      · rw [OrderedMap.get?_set_of_ne same] at found
        exact earlier found
    · exact earlier found

theorem restored_held (rows : List (Nat × Row)) (member : (id,row) ∈ rows) (firing : row.firing = true)
    (single : ∀ other ∈ rows, other.2.firing = true → other.2.key = row.key → other.1 = id) :
    ∃ active, (rows.foldl restoreRow .empty).get? row.key = some active ∧ active.id = id := by
  induction rows using List.reverseRecOn with
  | nil => contradiction
  | append_singleton rows entry ih =>
    rw [List.foldl_append]
    simp only [List.foldl_cons,List.foldl_nil,restoreRow]
    have among := List.mem_append.mp member
    by_cases last : entry.2.firing = true ∧ entry.2.key = row.key
    · have is := single entry (List.mem_append_right _ (List.mem_singleton.mpr rfl)) last.1 last.2
      rw [if_pos last.1,← last.2,OrderedMap.get?_set_self]
      exact ⟨_,rfl,is⟩
    · have earlier : (id,row) ∈ rows := by
        rcases among with earlier | here
        · exact earlier
        · obtain rfl := List.mem_singleton.mp here
          exact absurd ⟨firing,rfl⟩ last
      obtain ⟨active,found,is⟩ := ih earlier fun other member => single other (List.mem_append_left _ member)
      refine ⟨active,?_,is⟩
      split
      · rename_i fires
        rw [OrderedMap.get?_set_of_ne fun same => last ⟨fires,same.symm⟩,found]
      · exact found

/-- The alerts are read back at a start. -/
theorem Agree.restored (agree : Agree s) (alerts : s'.alerts = s.alerts) (active : s'.memory.active = Alerts.restored s.alerts) :
    Agree s' := by
  refine ⟨?_,?_⟩
  · intro id row found firing
    rw [alerts] at found
    rw [active]
    refine restored_held s.alerts.entries (OrderedMap.mem_entries.mpr found) firing fun other member fires same => ?_
    exact agree.single (OrderedMap.mem_entries.mp member) fires found firing same
  · intro key entry found
    rw [active] at found
    rw [alerts]
    obtain ⟨row,member,firing,named⟩ := restored_backed s.alerts.entries found
    exact ⟨row,OrderedMap.mem_entries.mp member,firing,named⟩

theorem agree_of_nothing (quiet : ∀ id row, s.alerts.get? id = some row → row.firing = false)
    (empty : s.memory.active = .empty) : Agree s := by
  refine ⟨?_,?_⟩
  · intro id row found firing
    rw [quiet id row found] at firing
    contradiction
  · intro key entry found
    rw [empty] at found
    contradiction

end

/-! What holds along a run -/

section
variable {s : State} {op : Op} {now : ℚ} {epoch : Nat}

/-- Every row has an issued id and belongs to a node of the table. -/
def Rooted (s : State) : Prop := ∀ id row, s.alerts.get? id = some row → id < s.issued ∧ row.node ∈ s.nodes

theorem rooted_markResolved (rooted : Rooted s) (id : Nat) (now : ℚ) : Rooted (s.markResolved id now) := by
  intro key row found
  rw [get?_markResolved] at found
  obtain ⟨before,was,rfl⟩ := Option.map_eq_some_iff.mp found
  have old := rooted key before was
  split <;> exact old

theorem rooted_filter (rooted : Rooted s) (keep : Nat → Row → Bool) : Rooted {s with alerts := s.alerts.filter keep} := by
  intro id row found
  simp only [OrderedMap.get?_filter] at found
  exact rooted id row (Option.filter_eq_some_iff.mp found).1

theorem answer_rooted (rooted : Rooted s) (op : Op) : Rooted (answer epoch now s op).1 := by
  cases op with
  | insert key severity metricValue threshold =>
    simp only [answer]
    split
    · rename_i present
      intro id row found
      simp only at found ⊢
      by_cases same : id = s.issued
      · subst same
        rw [OrderedMap.get?_set_self] at found
        obtain rfl := Option.some.inj found
        exact ⟨Nat.lt_succ_self _,present⟩
      · rw [OrderedMap.get?_set_of_ne same] at found
        have old := rooted id row found
        exact ⟨by omega,old.2⟩
    · exact rooted
  | resolve key =>
    simp only [answer]
    split
    · exact rooted
    · exact rooted_markResolved rooted _ now
  | underLimit key =>
    simp only [answer]
    split <;> exact rooted
  | deleteOrphans | deleteOld => exact rooted_filter rooted _
  | acknowledge id => exact rooted_markResolved rooted id now
  | addNode node =>
    intro id row found
    have old := rooted id row found
    exact ⟨old.1,List.mem_cons_of_mem _ old.2⟩
  | deleteNode node =>
    intro id row found
    simp only [answer,OrderedMap.get?_filter] at found ⊢
    obtain ⟨was,other⟩ := Option.filter_eq_some_iff.mp found
    have old := rooted id row was
    exact ⟨old.1,List.mem_filter.mpr ⟨old.2,by simpa using other⟩⟩
  | _ => exact rooted

/-- Only the firing of an alert makes it active. -/
theorem inactive_kept (key : Key) (inactive : s.memory.active.get? key = none)
    (other : ∀ severity metricValue threshold, op ≠ .insert key severity metricValue threshold) :
    (answer epoch now s op).1.memory.active.get? key = none := by
  cases op with
  | insert fired severity metricValue threshold =>
    simp only [answer]
    split
    · have differ : key ≠ fired := by
        rintro rfl
        exact other _ _ _ rfl
      exact (OrderedMap.get?_set_of_ne differ).trans inactive
    · exact inactive
  | resolve key' =>
    simp only [answer]
    split
    · exact inactive
    · simp only [State.withMemory,State.markResolved]
      rw [OrderedMap.get?_erase,inactive]
      simp
  | underLimit key' =>
    simp only [answer]
    split <;> exact inactive
  | forget valid =>
    simp only [answer,State.withMemory]
    rw [OrderedMap.get?_filter,inactive]
    rfl
  | _ => exact inactive

end

section
variable [DecidableEq τ]

structure Inv (past : List (Step τ)) (modes : τ → Mode) (s : State) : Prop where
  rooted : Rooted s
  agree : Agree s
  lock : Locked modes s
  cleared : ∀ task key, modes task = .cleared s.epoch key → s.memory.active.get? key = none
  stuck : ∀ task epoch key, modes task = .stuck epoch key → unresolved past task = some key

variable {past : List (Step τ)} {tr : Step τ} {modes : τ → Mode} {m : Mode}

/-- A step that is not lost after it took effect is what the operation does, or nothing. -/
theorem state_of_kept {fault : Fault} {before after : State} {α : Type} {reply : Except PyError α}
    {done : State × Except PyError α} (struck : (after,reply) = fault.strike before done)
    (kept : (fault.takesEffect && fault ≠ .none) = false) : (after = done.1 ∧ reply = done.2) ∨ after = before := by
  cases fault with
  | none =>
    obtain ⟨rfl,rfl⟩ := Prod.mk.inj struck
    exact .inl ⟨rfl,rfl⟩
  | before error => exact .inr (congrArg Prod.fst struck)
  | after error => simp [Fault.takesEffect] at kept

section
variable (kept : Inv past modes tr.before)
include kept

theorem Inv.agree_next (taken : Taken exec tr)
    (allowed : rule tr.action tr.reply (modes tr.task) = some m) (lossless : Lossless past tr) : Agree tr.after := by
  have agree := kept.agree
  obtain ⟨task,action,choice,before,reply,after⟩ := tr
  cases action with
  | restart =>
    have same := restart_of_taken taken
    simp only at same agree ⊢
    rw [same]
    rcases lossless with effective | quiet
    · have effect : choice.fault.takesEffect = true := effective
      rw [if_pos effect]
      exact agree.restored rfl rfl
    · split
      · exact agree.restored rfl rfl
      · exact agree_of_nothing (fun id row found => quiet row (OrderedMap.mem_values.mpr ⟨id,found⟩)) rfl
  | op epoch op =>
    obtain ⟨current,struck,_⟩ := after_of_taken taken
    have state : after = before ∨ Effective (⟨task,.op epoch op,choice,before,reply,after⟩ : Step τ) = true ∧
        after = (answer epoch choice.now before op).1 := by
      have fst := congrArg Prod.fst struck
      rw [strike_fst] at fst
      cases effect : choice.fault.takesEffect with
      | true => exact .inr ⟨effect,by simpa [effect] using fst⟩
      | false => exact .inl (by simpa [effect] using fst)
    simp only at agree ⊢
    rcases state with same | ⟨effective,same⟩
    · rw [same]
      exact agree
    cases quiet : op.quiet with
    | true =>
      obtain ⟨alerts,active,_⟩ := answer_quiet epoch choice.now before quiet
      rw [same]
      exact agree.same (fun id => by rw [alerts]) active
    | false =>
    cases op with
    | insert key severity metricValue threshold =>
      rcases state_of_kept struck lossless.1 with ⟨_,_⟩ | unchanged
      · rw [same]
        simp only [answer]
        split
        · obtain ⟨⟨within,target⟩,_⟩ := Option.ite_none_right_eq_some.mp allowed
          have inactive : before.memory.active.get? key = none := by
            cases mode : modes task with
            | outside | inside =>
              simp only at target
              rw [mode] at target
              contradiction
            | cleared own other =>
              simp only at within target
              rw [mode] at within target
              obtain rfl := Option.some.inj within
              obtain rfl := Option.some.inj target
              exact kept.cleared task other (current ▸ mode)
            | stuck own other =>
              simp only at target
              rw [mode] at target
              obtain rfl := Option.some.inj target
              exact absurd (kept.stuck task own other mode) lossless.2
          have new : before.alerts.get? before.issued = none := by
            cases found : before.alerts.get? before.issued with
            | none => rfl
            | some row => exact absurd (kept.rooted _ row found).1 (Nat.lt_irrefl _)
          have unnamed : before.memory.active.get?
              (Row.key ⟨key.1,key.2,severity,true,metricValue,threshold,choice.now,none⟩) = none := inactive
          exact agree.fired new unnamed rfl rfl rfl rfl
        · exact agree
      · rw [unchanged]
        exact agree
    | resolve key =>
      rw [same]
      simp only [answer]
      split
      · exact agree
      · rename_i current_alert active
        exact agree.resolved active choice.now
    | forget valid =>
      rw [same]
      refine agree.forgotten (fun key _ => decide (key.1 ∈ valid)) rfl rfl fun id row found firing entry => ?_
      exact decide_eq_true (lossless row (OrderedMap.mem_values.mpr ⟨id,found⟩) firing)
    | deleteOrphans =>
      rw [same]
      refine agree.dropped (fun _ row => !decide (row.node ∉ before.nodes)) rfl rfl fun id row found _ => ?_
      have present := (kept.rooted id row found).2
      simpa using present
    | deleteOld =>
      rw [same]
      refine agree.dropped (fun _ row => !(!row.firing && row.resolvedAt.any (· < choice.now - 604800))) rfl rfl fun id row found firing => ?_
      simp [firing]
    | acknowledge id =>
      rw [same]
      refine agree.same (fun key => ?_) rfl
      simp only [answer]
      rw [get?_markResolved]
      cases found : before.alerts.get? key with
      | none => rfl
      | some row =>
        rw [Option.map_some,if_neg]
        rintro ⟨rfl,firing⟩
        have quiet := lossless effective
        simp [found,firing] at quiet
    | deleteNode node =>
      rw [same]
      refine agree.dropped (fun _ row => decide (row.node ≠ node)) rfl rfl fun id row found firing => ?_
      have other := lossless effective row (OrderedMap.mem_values.mpr ⟨id,found⟩) firing
      simpa using other
    | acquire | release | look | underLimit | previous | remember | recordIntent | reconnect | selectNodes | addNode =>
      contradiction

theorem Inv.rooted_next (taken : Taken exec tr) : Rooted tr.after := by
  obtain ⟨task,action,choice,before,reply,after⟩ := tr
  cases action with
  | restart =>
    have same := restart_of_taken taken
    simp only
    rw [same]
    split <;> exact kept.rooted
  | op epoch op =>
    obtain ⟨_,struck,_⟩ := after_of_taken taken
    rcases strike_state choice.fault before (answer epoch choice.now before op) with same | same
    · rw [← struck] at same
      simp only at same ⊢
      rw [same]
      exact kept.rooted
    · rw [← struck] at same
      simp only at same ⊢
      rw [same]
      exact answer_rooted kept.rooted op

theorem Inv.cleared_next (taken : Taken exec tr)
    (allowed : rule tr.action tr.reply (modes tr.task) = some m) (task : τ) (key : Key)
    (now : Function.update modes tr.task m task = .cleared tr.after.epoch key) : tr.after.memory.active.get? key = none := by
  have epochs := (kept.lock.next taken allowed).epochs
  obtain ⟨own,action,choice,before,reply,after⟩ := tr
  cases action with
  | restart =>
    have same := restart_of_taken taken
    obtain ⟨_,rfl⟩ := restart_allowed allowed
    by_cases mine : task = own
    · subst mine
      rw [Function.update_self] at now
      contradiction
    · rw [Function.update_of_ne mine] at now
      have old := kept.lock.epochs task after.epoch (by rw [now]; rfl)
      have raised : after.epoch = before.epoch + 1 := by
        rw [same]
        split <;> rfl
      simp only at old
      omega
  | op epoch op =>
    obtain ⟨current,struck,_⟩ := after_of_taken taken
    have state := strike_state choice.fault before (answer epoch choice.now before op)
    rw [← struck] at state
    simp only at state now ⊢
    have same_epoch : after.epoch = before.epoch := by
      rcases state with same | same
      · rw [same]
      · rw [same,answer_epoch]
    have preserved : before.memory.active.get? key = none →
        (∀ severity metricValue threshold, op ≠ .insert key severity metricValue threshold) →
        after.memory.active.get? key = none := by
      intro inactive other
      rcases state with same | same
      · rw [same]
        exact inactive
      · rw [same]
        exact inactive_kept key inactive other
    rw [same_epoch] at now
    by_cases mine : task = own
    · subst mine
      rw [Function.update_self] at now
      subst now
      cases op with
      | look looked =>
        obtain ⟨_,read⟩ := Option.ite_none_right_eq_some.mp allowed
        rcases reply with error | (_ | severity)
        · have wrong : Mode.inside epoch = .cleared before.epoch key := Option.some.inj read
          contradiction
        · obtain ⟨_,rfl⟩ := Mode.cleared.inj (Option.some.inj read)
          obtain ⟨_,done⟩ := strike_ok struck.symm
          have answered := Except.ok.inj (congrArg Prod.snd done)
          have same : before = after := congrArg Prod.fst done
          rw [← same]
          simpa using answered
        · have wrong : Mode.inside epoch = .cleared before.epoch key := Option.some.inj read
          contradiction
      | resolve resolved =>
        obtain ⟨_,read⟩ := Option.ite_none_right_eq_some.mp allowed
        cases reply with
        | error _ =>
          have wrong : Mode.stuck epoch resolved = .cleared before.epoch key := Option.some.inj read
          contradiction
        | ok value =>
          obtain ⟨_,rfl⟩ := Mode.cleared.inj (Option.some.inj read)
          obtain ⟨_,done⟩ := strike_ok struck.symm
          have same := congrArg Prod.fst done
          simp only [answer] at same
          split at same
          · rename_i inactive
            rw [← same]
            exact inactive
          · rw [← same]
            exact OrderedMap.get?_erase_self
      | insert =>
        obtain ⟨_,entered⟩ := Option.ite_none_right_eq_some.mp allowed
        cases entered
      | release =>
        obtain ⟨_,left⟩ := Option.ite_none_right_eq_some.mp allowed
        cases left
      | underLimit | previous | remember | recordIntent | reconnect | selectNodes | forget =>
        obtain ⟨_,same⟩ := Option.ite_none_right_eq_some.mp allowed
        exact preserved (kept.cleared task key (Option.some.inj same)) (by simp)
      | acquire =>
        rcases inside_allowed allowed with ⟨_,_,⟨_,wrong⟩ | wrong⟩ | ⟨wrong,_⟩ | ⟨wrong,_⟩ <;> contradiction
      | deleteOrphans | deleteOld | acknowledge | addNode | deleteNode =>
        cases mode : modes task <;> simp only [mode] at allowed <;> simp [rule] at allowed
    · rw [Function.update_of_ne mine] at now
      refine preserved (kept.cleared task key now) fun severity metricValue threshold is => ?_
      subst is
      obtain ⟨⟨within,_⟩,_⟩ := Option.ite_none_right_eq_some.mp allowed
      exact mine (kept.lock.alone task own (by rw [now]; rfl) (current ▸ within))

theorem Inv.stuck_next
    (allowed : rule tr.action tr.reply (modes tr.task) = some m) (task : τ) (epoch : Nat) (key : Key)
    (now : Function.update modes tr.task m task = .stuck epoch key) : unresolved (past ++ [tr]) task = some key := by
  by_cases mine : tr.task = task
  swap
  · rw [Function.update_of_ne (Ne.symm mine)] at now
    rw [unresolved_concat,if_neg mine]
    exact kept.stuck task epoch key now
  subst mine
  rw [Function.update_self] at now
  subst now
  rw [unresolved_concat,if_pos rfl]
  have before := kept.stuck tr.task
  obtain ⟨task,action,choice,s,reply,after⟩ := tr
  simp only at allowed before ⊢
  cases action with
  | restart =>
    obtain ⟨_,wrong⟩ := restart_allowed allowed
    contradiction
  | op own op =>
    cases op with
    | look looked =>
      obtain ⟨_,read⟩ := Option.ite_none_right_eq_some.mp allowed
      have wrong : some (.stuck epoch key) = some (Mode.inside own) ∨ some (.stuck epoch key) = some (Mode.cleared own looked) := by
        rcases reply with error | (_ | severity)
        · exact .inl read.symm
        · exact .inr read.symm
        · exact .inl read.symm
      rcases wrong with wrong | wrong <;> cases wrong
    | resolve resolved =>
      obtain ⟨_,read⟩ := Option.ite_none_right_eq_some.mp allowed
      cases reply with
      | ok _ =>
        have wrong : Mode.cleared own resolved = .stuck epoch key := Option.some.inj read
        contradiction
      | error _ =>
        obtain ⟨_,rfl⟩ := Mode.stuck.inj (Option.some.inj read)
        rfl
    | insert =>
      obtain ⟨_,entered⟩ := Option.ite_none_right_eq_some.mp allowed
      cases entered
    | release =>
      obtain ⟨_,left⟩ := Option.ite_none_right_eq_some.mp allowed
      cases left
    | underLimit | previous | remember | recordIntent | reconnect | selectNodes | forget =>
      obtain ⟨_,same⟩ := Option.ite_none_right_eq_some.mp allowed
      exact before epoch key (Option.some.inj same)
    | acquire =>
      rcases inside_allowed allowed with ⟨_,_,⟨_,wrong⟩ | wrong⟩ | ⟨wrong,_⟩ | ⟨wrong,_⟩ <;> contradiction
    | deleteOrphans | deleteOld | acknowledge | addNode | deleteNode =>
      cases mode : modes task <;> rw [mode] at allowed <;> simp [rule] at allowed

theorem Inv.next (taken : Taken exec tr)
    (allowed : rule tr.action tr.reply (modes tr.task) = some m) (lossless : Lossless past tr) :
    Inv (past ++ [tr]) (Function.update modes tr.task m) tr.after :=
  ⟨kept.rooted_next taken,kept.agree_next taken allowed lossless,kept.lock.next taken allowed,
    kept.cleared_next taken allowed,kept.stuck_next allowed⟩

end

end

/-- In a run that loses no update, the alerts in memory are the firing rows of the table, and
no alert of a node has two of them. -/
theorem alerts_agree [DecidableEq τ] (thresholds : List AlertThreshold) (clients : τ → Client) (schedule : List (τ × Choice))
    (lossless : Throughout Lossless [] (run exec schedule (start thresholds clients)).2) :
    Agree (run exec schedule (start thresholds clients)).1.shared ∧
      ∀ id row other row', (run exec schedule (start thresholds clients)).1.shared.alerts.get? id = some row →
        (run exec schedule (start thresholds clients)).1.shared.alerts.get? other = some row' →
        row.firing = true → row'.firing = true → row.key = row'.key → id = other := by
  have keeps : ∀ past modes (tr : Step τ) m, Inv past modes tr.before → Taken exec tr →
      rule tr.action tr.reply (modes tr.task) = some m → Lossless past tr →
      Inv (past ++ [tr]) (Function.update modes tr.task m) tr.after :=
    fun _ _ _ _ kept taken allowed lossless => kept.next taken allowed lossless
  have initial : Inv ([] : List (Step τ)) (fun _ => Mode.outside) ⟨[],.empty,0,.empty,false,0⟩ := by
    refine ⟨?_,agree_of_nothing ?_ rfl,⟨?_,?_,?_⟩,?_,?_⟩
    · intro _ _ found
      contradiction
    · intro _ _ found
      contradiction
    · intro _ has
      contradiction
    · intro _ _ has
      contradiction
    · intro _ _ has
      contradiction
    · intro _ _ is
      contradiction
    · intro _ _ _ is
      contradiction
  have follows : ∀ task, ((start thresholds clients).tasks task).Follows rule .outside fun _ mode => mode = .outside :=
    fun task => client_follows thresholds (clients task)
  obtain ⟨modes,inv,_⟩ := run_keeps keeps schedule (start thresholds clients) [] (fun _ => Mode.outside) initial follows lossless
  exact ⟨inv.agree,fun id row other row' found found' firing firing' same =>
    inv.agree.single found firing found' firing' same⟩

def diskUsageHigh : AlertThreshold := ⟨"disk_usage_high","disk_percent",some 85,some 95,some 80,.gt⟩

def full : Snapshot := OrderedMap.empty.set "disk_percent" 90

def monitored : Nat → Client
  | 0 => .addNode 0 "n1"
  | 1 => .evaluateMetrics 0 "n1" full
  | _ => .acknowledgeAlert 0 0

def calm : Choice := ⟨.none,0⟩

def reported : List (Nat × Choice) := (0,calm) :: List.replicate 6 (1,calm)

theorem alerts_agree_reported : Agree (run exec reported (start [diskUsageHigh] monitored)).1.shared ∧
    ∀ id row other row', (run exec reported (start [diskUsageHigh] monitored)).1.shared.alerts.get? id = some row →
      (run exec reported (start [diskUsageHigh] monitored)).1.shared.alerts.get? other = some row' →
      row.firing = true → row'.firing = true → row.key = row'.key → id = other :=
  alerts_agree [diskUsageHigh] monitored reported (by decide +kernel)

/-- The engine keeps the alert that an operator has acknowledged. -/
theorem acknowledged_alert_stays : ¬∀ (thresholds : List AlertThreshold) (clients : Nat → Client)
    (schedule : List (Nat × Choice)), Agree (run exec schedule (start thresholds clients)).1.shared := by
  intro claim
  have agree := claim [diskUsageHigh] monitored (reported ++ [(2,calm)])
  have active : ((run exec (reported ++ [(2,calm)]) (start [diskUsageHigh] monitored)).1.shared.memory.active.get?
      ("n1","disk_usage_high")).isSome = true := by decide +kernel
  have quiet : (run exec (reported ++ [(2,calm)]) (start [diskUsageHigh] monitored)).1.shared.alerts.values.all
      (fun row => !row.firing) = true := by decide +kernel
  obtain ⟨entry,found⟩ := Option.isSome_iff_exists.mp active
  obtain ⟨row,there,firing,_⟩ := agree.backed _ entry found
  have resolved := List.all_eq_true.mp quiet row (OrderedMap.mem_values.mpr ⟨entry.id,there⟩)
  rw [firing] at resolved
  contradiction

end Vigile.Alerts
