import Vigile.AuditAppend
import Vigile.AuditTampering

/-! The committed audit log stays one chain in every run in which no ROLLBACK takes away
a head row between the moment a call read it and the moment the call inserts. -/
namespace Vigile.AuditLog

open DelimitedText HashChain Interleaving Python Sqlite

variable {γ τ : Type} {sha256 : String → String}

/-! Chains from the genesis hash, numbered from 1 -/

structure Sound (sha256 : String → String) (rows : List AuditRow) : Prop where
  linked : Linked AuditRow.previousHash AuditRow.entryHash genesisHash rows
  intact : ∀ row ∈ rows, row.computed sha256 = row.entryHash
  numbered : rows.map (·.sequence) = (List.range rows.length).map fun i : Nat => (i : Int) + 1

variable {rows : List AuditRow} {row : AuditRow}

theorem Sound.getElem_sequence (sound : Sound sha256 rows) (i : Nat)
    (bound : i < rows.length) : rows[i].sequence = (i : Int) + 1 := by
  have at_i := congrArg (fun l => l[i]?) sound.numbered
  simpa [bound] using at_i

theorem Sound.strict (sound : Sound sha256 rows) :
    rows.Pairwise fun a b => a.sequence < b.sequence := by
  refine List.pairwise_iff_getElem.mpr fun i j hi hj lt => ?_
  rw [sound.getElem_sequence i hi,sound.getElem_sequence j hj]
  omega

theorem Sound.inOrder_eq (sound : Sound sha256 rows) :
    inOrder AuditRow.sequence rows = rows := inOrder_of_strict sound.strict

/-- A sound table passes the verification. -/
theorem Sound.valid (sound : Sound sha256 rows) :
    (verifyChain sha256 rows none).valid = true := by
  have linked := linked_iff_isChain.mp sound.linked
  refine verifyChain_all_valid.mpr ⟨?_,?_,sound.intact⟩
  · rw [sound.inOrder_eq]
    exact linked.2
  · rw [sound.inOrder_eq]
    exact fun first isFirst _ => linked.1 first isFirst

/-- A row that names a row of the table and takes an unused number extends the chain. -/
theorem Sound.extend (sound : Sound sha256 rows) {before : AuditRow}
    (member : before ∈ rows) (next : row.sequence = before.sequence + 1)
    (named : row.previousHash = before.entryHash) (intact : row.computed sha256 = row.entryHash)
    (unused : row.sequence ∉ rows.map (·.sequence)) : Sound sha256 (rows ++ [row]) := by
  obtain ⟨i,bound,isBefore⟩ := List.getElem_of_mem member
  have number := sound.getElem_sequence i bound
  rw [isBefore] at number
  have last : i + 1 = rows.length := by
    by_contra short
    have inside : i + 1 < rows.length := by omega
    refine unused (List.mem_map.mpr ⟨rows[i+1],List.getElem_mem inside,?_⟩)
    rw [sound.getElem_sequence (i+1) inside,next,number]
    push_cast
    rfl
  have isLast : rows.getLast? = some before := by
    rw [List.getLast?_eq_getElem?,← last,Nat.add_sub_cancel,List.getElem?_eq_getElem bound,isBefore]
  refine ⟨?_,?_,?_⟩
  · rw [linked_concat,isLast]
    exact ⟨sound.linked,named⟩
  · intro r isRow
    rcases List.mem_append.mp isRow with old | new
    · exact sound.intact r old
    · rw [List.mem_singleton.mp new]
      exact intact
  · rw [List.map_append,sound.numbered,List.length_append,List.length_singleton,List.range_succ,
      List.map_append]
    simp only [List.map_cons,List.map_nil,next,number]
    rw [← last]
    push_cast
    rfl

theorem sound_genesis (entry : Entry) (timestamp : ℚ) (entryId : String) :
    Sound sha256 [entryRow sha256 entry timestamp entryId none] := by
  refine ⟨⟨rfl,trivial⟩,?_,rfl⟩
  rintro row isRow
  rw [List.mem_singleton.mp isRow]
  rfl

theorem tableOf_append (log more : List Change) : tableOf (log ++ more) = tableOf log ++ tableOf more :=
  List.filterMap_append

theorem mem_tableOf_of_grown {log longer : List Change} (grown : log <+: longer)
    (member : row ∈ tableOf log) : row ∈ tableOf longer := by
  obtain ⟨more,rfl⟩ := grown
  rw [tableOf_append]
  exact List.mem_append_left _ member

structure Seeded (db : Database γ Change) : Prop where
  genesis : ∃ row rest, db.committed = .auditRow row :: rest
  snapshots : ∀ c n, db.snapshots c = some n → 0 < n

structure Chained (sha256 : String → String) (db : Database γ Change) : Prop where
  committed : Sound sha256 (tableOf db.committed)
  changed : db.writer.isSome → Sound sha256 (tableOf (db.committed ++ db.changes))

variable {db : Database γ Change} {c : γ}

theorem Seeded.seen_pos (seeded : Seeded db) : 0 < db.seen c := by
  obtain ⟨row,rest,log⟩ := seeded.genesis
  unfold Database.seen
  cases snapshot : db.snapshots c with
  | none => simp [log]
  | some n => exact seeded.snapshots c n snapshot

variable [DecidableEq γ]

theorem Seeded.view_ne_nil (seeded : Seeded db) : tableOf (db.view c) ≠ [] := by
  obtain ⟨row,rest,log⟩ := seeded.genesis
  have positive := seeded.seen_pos (c := c)
  have first : ∃ more, db.view c = .auditRow row :: more := by
    unfold Database.view
    split
    · exact ⟨rest ++ db.changes,by rw [log,List.cons_append]⟩
    · obtain ⟨n,isSucc⟩ := Nat.exists_eq_succ_of_ne_zero (Nat.ne_of_gt positive)
      exact ⟨rest.take n,by rw [log,isSucc,List.take_succ_cons]⟩
  obtain ⟨more,isFirst⟩ := first
  simp [isFirst,tableOf,Change.row?]

theorem seeded_begin (seeded : Seeded db) : Seeded (db.beginImmediate c).1 := by
  unfold Database.beginImmediate
  split
  · exact seeded
  · split
    · exact seeded
    · exact ⟨seeded.genesis,seeded.snapshots⟩

theorem seeded_lock (seeded : Seeded db) : Seeded (db.lock c).1 := by
  unfold Database.lock
  split
  · exact seeded
  · split
    · refine ⟨seeded.genesis,fun d n found => ?_⟩
      by_cases same : d = c
      · simp [same] at found
      · simp only [Function.update_of_ne same] at found
        exact seeded.snapshots d n found
    · refine ⟨seeded.genesis,fun d n found => ?_⟩
      by_cases same : d = c
      · simp only [same,Function.update_self,Option.some.injEq] at found
        exact found ▸ seeded.seen_pos
      · simp only [Function.update_of_ne same] at found
        exact seeded.snapshots d n found

theorem seeded_leave (seeded : Seeded db) (log : List Change) :
    Seeded {db.leave c with committed := db.committed ++ log} := by
  obtain ⟨row,rest,first⟩ := seeded.genesis
  refine ⟨⟨row,rest ++ log,by rw [first,List.cons_append]⟩,fun d n found => ?_⟩
  by_cases same : d = c
  · simp [Database.leave,same] at found
  · simp only [Database.leave,Function.update_of_ne same] at found
    exact seeded.snapshots d n found

section
variable (chained : Chained sha256 db)
include chained

theorem chained_begin : Chained sha256 (db.beginImmediate c).1 := by
  unfold Database.beginImmediate
  split
  · exact chained
  · split
    · exact chained
    · exact ⟨chained.committed,fun _ => by simpa using chained.committed⟩

theorem chained_lock : Chained sha256 (db.lock c).1 := by
  unfold Database.lock
  split
  · exact chained
  · split
    · exact ⟨chained.committed,fun _ => by simpa using chained.committed⟩
    · exact ⟨chained.committed,chained.changed⟩

theorem chained_rollback : Chained sha256 (db.rollback c) := by
  refine ⟨chained.committed,fun open' => chained.changed ?_⟩
  simp only [Database.rollback_writer] at open'
  split at open'
  · simp at open'
  · exact open'

theorem chained_commit : Chained sha256 (db.commit c) := by
  by_cases holds : db.writer = some c
  · have all : db.pending c = db.changes := by simp [Database.pending,holds]
    refine ⟨?_,fun open' => ?_⟩
    · rw [Database.commit_committed,all]
      exact chained.changed (by simp [holds])
    · simp [holds] at open'
  · have none : db.pending c = [] := by simp [Database.pending,holds]
    refine ⟨?_,fun open' => ?_⟩
    · rw [Database.commit_committed,none,List.append_nil]
      exact chained.committed
    · rw [Database.commit_committed,none,List.append_nil]
      exact chained.changed (by simpa [holds] using open')

/-- What the writer's table sees is what its transaction will commit. -/
theorem Chained.view_writer (holds : db.writer = some c) :
    Sound sha256 (tableOf (db.view c)) := by
  simpa [Database.view,holds] using chained.changed (by simp [holds])

theorem chained_append (holds : db.writer = some c) {change : Change}
    (sound : Sound sha256 (tableOf (db.view c ++ [change]))) :
    Chained sha256 (db.append change) := by
  refine ⟨chained.committed,fun _ => ?_⟩
  simpa [Database.view,holds,Database.append] using sound

/-- A statement on other tables does not touch the chain. -/
theorem chained_execute (statement : String) :
    Chained sha256
      (db.execute c Transaction.refused (fun _ => .ok ()) (.other statement)).1 := by
  have locked := chained_lock (c := c) chained
  rcases Database.execute_after db c Transaction.refused (fun _ => .ok ()) (.other statement) with same | ⟨holds,_,more⟩
  · rw [same]
    exact locked
  · rw [more]
    refine chained_append locked holds ?_
    have same : tableOf ((db.lock c).1.view c ++ [.other statement]) = tableOf ((db.lock c).1.view c) := by
      rw [tableOf_append]
      exact List.append_nil _
    rw [same]
    exact locked.view_writer holds

end

def Continues (sha256 : String → String) (last : Option Head) (row : AuditRow) : Prop :=
  row.previousHash = previousHashAfter last ∧ row.sequence = sequenceAfter last ∧
    row.computed sha256 = row.entryHash

instance (last : Option Head) (row : AuditRow) : Decidable (Continues sha256 last row) :=
  inferInstanceAs (Decidable (_ ∧ _ ∧ _))

theorem entryRow_continues (entry : Entry) (timestamp : ℚ) (entryId : String)
    (last : Option Head) : Continues sha256 last (entryRow sha256 entry timestamp entryId last) :=
  ⟨rfl,rfl,rfl⟩

def Shows (head : Head) (rows : List AuditRow) : Prop :=
  ∃ row ∈ rows, row.sequence = head.1 ∧ row.entryHash = head.2

theorem Shows.mono {head : Head} {log longer : List Change} (shown : Shows head (tableOf log))
    (grown : log <+: longer) : Shows head (tableOf longer) := by
  obtain ⟨row,member,isHead⟩ := shown
  exact ⟨row,mem_tableOf_of_grown grown member,isHead⟩

theorem headOf_shows {rows : List AuditRow} (filled : rows ≠ []) :
    ∃ head, headOf rows = some head ∧ Shows head rows := by
  have ordered : inOrder AuditRow.sequence rows ≠ [] := by
    intro none
    have permuted := @inOrder_perm _ AuditRow.sequence rows
    rw [none] at permuted
    exact filled permuted.nil_eq.symm
  refine ⟨_,by rw [headOf,List.getLast?_eq_some_getLast ordered]; rfl,_,?_,rfl,rfl⟩
  exact mem_inOrder.mp (List.getLast_mem ordered)

/-- An INSERT whose head row is still seen extends the chain or changes nothing of it. -/
theorem chained_insert (chained : Chained sha256 db) {head : Head} {row : AuditRow}
    (shown : Shows head (tableOf (db.view c))) (continues : Continues sha256 (some head) row) :
    Chained sha256
      (db.execute c Transaction.refused (uniqueCheck row) (.auditRow row)).1 := by
  obtain ⟨before,member,sequence,hash⟩ := shown.mono (Database.view_lock (d := c))
  have locked := chained_lock (c := c) chained
  rcases Database.execute_after db c Transaction.refused (uniqueCheck row) (.auditRow row) with same | ⟨holds,accepted,more⟩
  · rw [same]
    exact locked
  · rw [more]
    have unused : row.sequence ∉ (tableOf ((db.lock c).1.view c)).map (·.sequence) := by
      intro used
      simp only [uniqueCheck,used,if_true] at accepted
      split at accepted <;> contradiction
    refine chained_append locked holds ?_
    rw [tableOf_append]
    exact (locked.view_writer holds).extend member
      (by rw [continues.2.1,sequence]; rfl) (by rw [continues.1,hash]; rfl) continues.2.2 unused

abbrev Step (τ γ : Type) := Transition τ Outside (State γ) (Act γ) Reply PyError

/-- The head a task has read and not used yet, with the connection it read it on. -/
def heldHead [DecidableEq τ] (task : τ) (past : List (Step τ γ)) : Option (γ × Head) :=
  past.foldl (fun held tr =>
    if tr.task = task then
      match tr.action,tr.reply with
      | .head c,.ok last => last.map fun head => (c,head)
      | .head _,.error _ => none
      | .insert _ _,_ => none
      | _,_ => held
    else held) none

/-- A ROLLBACK does not take away a head row that some call has read on its connection
and not used yet: every such row is committed. -/
def Undisturbed [DecidableEq τ] (past : List (Step τ γ)) (tr : Step τ γ) : Prop :=
  ∀ c, tr.action = .rollback c → (∀ error, tr.choice.fault ≠ .before error) →
    ∀ task head, heldHead task past = some (c,head) → Shows head (tableOf tr.before.db.committed)

/-- Between the head SELECT and the INSERT of a call, and outside that. -/
inductive Mode (γ : Type) where
  | free
  | holding (c : γ) (last : Option Head)

def rule (sha256 : String → String) : Prog.Protocol (Act γ) Reply PyError (Mode γ)
  | .head c,.ok last,_ => some (.holding c last)
  | .head _,.error _,_ => some .free
  | .insert c row,_,.holding d last =>
    if c = d ∧ Continues sha256 last row then some .free else none
  | .insert _ _,_,.free => none
  | _,_,mode => some mode

private theorem tryInsert_follows (c : γ) (entry : Entry) (timestamp : ℚ) (entryId : String)
    (inTrans : Bool) (last : Option Head) :
    (do insert c (entryRow sha256 entry timestamp entryId last)
        if !inTrans then commit c : Task γ Unit).Follows (rule sha256) (.holding c last)
      fun _ _ => True := by
  unfold Prog.Follows
  simp only [Prog.wp_bind,Prog.wp_perform]
  intro reply
  refine ⟨.free,by simp [rule,entryRow_continues],?_⟩
  cases reply with
  | error error => trivial
  | ok value =>
    simp only [Prog.continueWith_ok,Prog.wp_ite,Prog.wp_perform,Prog.wp_pure]
    exact ⟨fun _ reply => ⟨.free,by cases reply <;> rfl,trivial⟩,fun _ => trivial⟩

theorem insertEntry_follows (c : γ) (entry : Entry) (timestamp : ℚ) (entryId : String)
    (inTrans : Bool) (retries : Nat) (mode : Mode γ) :
    (insertEntry sha256 c entry timestamp entryId inTrans retries).Follows (rule sha256) mode
      fun _ _ => True := by
  induction retries generalizing mode with
  | zero =>
    unfold insertEntry Prog.Follows
    rw [Prog.wp_bind,Prog.wp_perform]
    intro reply
    cases reply with
    | error error => exact ⟨.free,rfl,trivial⟩
    | ok last => exact ⟨.holding c last,rfl,tryInsert_follows c entry timestamp entryId inTrans last⟩
  | succ retries ih =>
    unfold insertEntry Prog.Follows
    rw [Prog.wp_bind,Prog.wp_perform]
    intro reply
    cases reply with
    | error error => exact ⟨.free,rfl,trivial⟩
    | ok last =>
      refine ⟨.holding c last,rfl,?_⟩
      rw [Prog.continueWith_ok,Prog.wp_attempt]
      refine (tryInsert_follows c entry timestamp entryId inTrans last).mono ?_
      rintro (error | value) mode _
      · simp only [Prog.wp_ite,Prog.wp_bind,Prog.wp_perform,Prog.wp_throw]
        refine ⟨fun _ reply => ⟨mode,by cases reply <;> rfl,?_⟩,fun _ => trivial⟩
        cases reply with
        | error error => trivial
        | ok value => exact ih mode
      · trivial

/-- An action that is neither the head SELECT nor the INSERT leaves the mode alone. -/
private theorem keep_follows {α : Type} {act : Act γ} {mode : Mode γ} {next : Reply act → Task γ α}
    (keeps : ∀ reply, rule sha256 act reply mode = some mode)
    (rest : ∀ value, (next value).Follows (rule sha256) mode fun _ _ => True) :
    (Prog.perform act >>= next).Follows (rule sha256) mode fun _ _ => True := by
  unfold Prog.Follows
  rw [Prog.wp_bind,Prog.wp_perform]
  intro reply
  refine ⟨mode,keeps reply,?_⟩
  cases reply with
  | error error => trivial
  | ok value => exact rest value

theorem logAction_follows (c : γ) (entry : Entry) (mode : Mode γ) :
    (logAction sha256 c entry).Follows (rule sha256) mode fun _ _ => True := by
  refine keep_follows (fun reply => by cases reply <;> rfl) fun timestamp => ?_
  refine keep_follows (fun reply => by cases reply <;> rfl) fun entryId => ?_
  refine keep_follows (fun reply => by cases reply <;> rfl) fun inTrans => ?_
  refine keep_follows (fun reply => by cases reply <;> rfl) fun _ => ?_
  unfold Prog.Follows
  rw [Prog.wp_bind,Prog.wp_ensure]
  refine (insertEntry_follows c entry timestamp entryId inTrans 4 mode).mono ?_
  intro result mode _
  rw [Prog.wp_perform]
  intro reply
  refine ⟨mode,by cases reply <;> rfl,?_⟩
  cases reply <;> cases result <;> trivial

theorem operation_follows (operation : Operation γ) (mode : Mode γ) :
    (operation.program sha256).Follows (rule sha256) mode fun _ _ => True := by
  cases operation with
  | logAction c entry => exact logAction_follows c entry mode
  | begin | execute | commit | rollback =>
    exact keep_follows (fun reply => by cases reply <;> rfl) fun _ => trivial

structure Invariant [DecidableEq τ] (sha256 : String → String) (past : List (Step τ γ))
    (modes : τ → Mode γ) (s : State γ) : Prop where
  seeded : Seeded s.db
  chained : Chained sha256 s.db
  held : ∀ task c last, modes task = .holding c last →
    ∃ head, last = some head ∧ heldHead task past = some (c,head) ∧ Shows head (tableOf (s.db.view c))

def effect (db : Database γ Change) (act : Act γ) : Database γ Change :=
  match statement? db act with
  | some done => done.1
  | none => db

/-- A transition leaves the database alone, or its action goes through. -/
theorem taken_db {tr : Step τ γ} (taken : Taken exec tr) :
    tr.after.db = tr.before.db ∨
      tr.after.db = effect tr.before.db tr.action ∧ ∀ error, tr.choice.fault ≠ .before error := by
  obtain ⟨task,action,choice,before,reply,after⟩ := tr
  simp only [Taken,exec] at taken
  split at taken
  · rename_i done isStatement
    obtain ⟨rfl,_⟩ := Prod.mk.inj (Option.some.inj taken)
    cases fault : choice.fault with
    | before error => exact .inl rfl
    | none | after error => exact .inr ⟨by simp [effect,isStatement],by simp⟩
  · left
    cases action with
    | inTransaction | clock | uuid | release =>
      obtain ⟨rfl,_⟩ := Prod.mk.inj (Option.some.inj taken)
      rfl
    | sleep =>
      obtain ⟨rfl,_⟩ := Prod.mk.inj (Option.some.inj taken)
      cases choice.fault <;> rfl
    | acquire =>
      simp only at taken
      split at taken
      · obtain ⟨rfl,_⟩ := Prod.mk.inj (Option.some.inj taken)
        rfl
      · obtain ⟨rfl,_⟩ := Prod.mk.inj (Option.some.inj taken)
        rfl
      · contradiction
    | head | insert | begin | execute | commit | rollback => simp at taken

theorem effect_begin (db : Database γ Change) (c : γ) :
    effect db (.begin c) = (db.beginImmediate c).1 := by
  simp only [effect,statement?,beginOn]
  split <;> simp_all

variable {db : Database γ Change}

theorem seeded_execute {c : γ} {check : List Change → Except PyError Unit}
    {change : Change} (seeded : Seeded db) :
    Seeded (db.execute c Transaction.refused check change).1 := by
  have locked := seeded_lock (c := c) seeded
  rcases Database.execute_after db c Transaction.refused check change with same | ⟨_,_,more⟩
  · rw [same]
    exact locked
  · rw [more]
    exact ⟨locked.genesis,locked.snapshots⟩

/-- Every action keeps the genesis row in every view. -/
theorem seeded_effect (seeded : Seeded db) (act : Act γ) :
    Seeded (effect db act) := by
  cases act with
  | insert | execute => exact seeded_execute seeded
  | begin c => exact effect_begin db c ▸ seeded_begin seeded
  | commit => exact seeded_leave seeded _
  | rollback c =>
    have same : effect db (.rollback c) = {db.leave c with committed := db.committed ++ []} := by
      rw [List.append_nil]
      rfl
    exact same ▸ seeded_leave seeded []
  | head | inTransaction | acquire | release | clock | uuid | sleep => exact seeded

/-- Every action, a ROLLBACK of the connection apart, only adds to its view. -/
theorem view_effect {act : Act γ} {c : γ} (other : act ≠ .rollback c) :
    db.view c <+: (effect db act).view c := by
  cases act with
  | insert | execute => exact Database.view_execute _ _
  | begin d => exact effect_begin db d ▸ Database.view_beginImmediate
  | commit => exact Database.view_commit
  | rollback d => exact Database.view_rollback_other fun same => other (same ▸ rfl)
  | head | inTransaction | acquire | release | clock | uuid | sleep => exact List.prefix_refl _

variable [DecidableEq τ] {past : List (Step τ γ)} {modes : τ → Mode γ} {tr : Step τ γ} {next : Mode γ}

omit [DecidableEq γ] in
theorem heldHead_concat (task : τ) (past : List (Step τ γ)) (tr : Step τ γ) :
    heldHead task (past ++ [tr]) =
      if tr.task = task then
        match tr.action,tr.reply with
        | .head c,.ok last => last.map fun head => (c,head)
        | .head _,.error _ | .insert _ _,_ => none
        | _,_ => heldHead task past
      else heldHead task past := by
  simp [heldHead,List.foldl_append]

/-- What a waiting call has read stays in the view of its connection. -/
theorem shows_after (taken : Taken exec tr) (undisturbed : Undisturbed past tr) {task : τ} {c : γ}
    {head : Head} (held : heldHead task past = some (c,head))
    (shown : Shows head (tableOf (tr.before.db.view c))) :
    Shows head (tableOf (tr.after.db.view c)) := by
  rcases taken_db taken with same | ⟨same,struck⟩
  · rwa [same]
  · rw [same]
    by_cases rolledBack : tr.action = .rollback c
    · have kept := undisturbed c rolledBack struck task head held
      rw [rolledBack]
      exact (@Database.view_rollback_self _ _ _ tr.before.db c).symm ▸ kept
    · exact shown.mono (view_effect rolledBack)

section
variable (inv : Invariant sha256 past modes tr.before) (taken : Taken exec tr)
include inv taken

/-- Every action keeps the committed chain and the one under construction. -/
theorem chained_after
    (allowed : rule sha256 tr.action tr.reply (modes tr.task) = some next) :
    Chained sha256 tr.after.db := by
  rcases taken_db taken with same | ⟨same,_⟩
  · rw [same]
    exact inv.chained
  · rw [same]
    obtain ⟨task,action,choice,before,reply,after⟩ := tr
    cases action with
    | insert c row =>
      cases mode : modes task with
      | free => simp [rule,mode] at allowed
      | holding d last =>
        simp only [rule,mode] at allowed
        split at allowed
        · rename_i continues
          obtain ⟨rfl,continues⟩ := continues
          obtain ⟨head,rfl,_,shown⟩ := inv.held task c last mode
          exact chained_insert inv.chained shown continues
        · contradiction
    | execute c statement => exact chained_execute inv.chained statement
    | begin c => exact effect_begin before.db c ▸ chained_begin inv.chained
    | commit => exact chained_commit inv.chained
    | rollback => exact chained_rollback inv.chained
    | head | inTransaction | acquire | release | clock | uuid | sleep => exact inv.chained

/-- A call that goes on to hold a head has just read it, or held it before. -/
theorem held_after
    (undisturbed : Undisturbed past tr) {c : γ} {last : Option Head}
    (allowed : rule sha256 tr.action tr.reply (modes tr.task) = some (.holding c last)) :
    ∃ head, last = some head ∧ heldHead tr.task (past ++ [tr]) = some (c,head) ∧
      Shows head (tableOf (tr.after.db.view c)) := by
  have before := inv.held tr.task c last
  have kept := fun head => @shows_after _ _ _ _ past tr taken undisturbed tr.task c head
  have filled := inv.seeded.view_ne_nil (c := c)
  rw [heldHead_concat,if_pos rfl]
  obtain ⟨task,action,choice,s,reply,after⟩ := tr
  cases action with
  | head d =>
    cases reply with
    | error error => simp [rule] at allowed
    | ok read =>
      simp only [rule,Option.some.injEq,Mode.holding.injEq] at allowed
      obtain ⟨rfl,rfl⟩ := allowed
      obtain ⟨struck,done⟩ := strike_ok (Option.some.inj taken)
      obtain ⟨isAfter,answered⟩ := Prod.mk.inj done
      obtain rfl : s = after := isAfter
      obtain ⟨head,isHead,shown⟩ := headOf_shows filled
      have same : read = some head := Except.ok.inj (answered.symm.trans (congrArg _ isHead))
      exact ⟨head,same,by rw [same]; rfl,shown⟩
  | insert d row =>
    simp only [rule] at allowed
    split at allowed
    all_goals simp_all
  | begin | execute | commit | rollback | inTransaction | acquire | release | clock | uuid | sleep =>
    obtain ⟨head,isHead,held,shown⟩ := before (Option.some.inj allowed)
    exact ⟨head,isHead,held,kept head held shown⟩

/-- One action keeps the invariant, when no ROLLBACK takes away a head row in use. -/
theorem invariant_step
    (allowed : rule sha256 tr.action tr.reply (modes tr.task) = some next)
    (undisturbed : Undisturbed past tr) :
    Invariant sha256 (past ++ [tr]) (Function.update modes tr.task next) tr.after := by
  refine ⟨?_,chained_after inv taken allowed,fun task c last isHolding => ?_⟩
  · rcases taken_db taken with same | ⟨same,_⟩
    · exact same ▸ inv.seeded
    · exact same ▸ seeded_effect inv.seeded tr.action
  · by_cases moved : tr.task = task
    · subst moved
      rw [Function.update_self] at isHolding
      subst isHolding
      exact held_after inv taken undisturbed allowed
    · rw [Function.update_of_ne (Ne.symm moved)] at isHolding
      obtain ⟨head,isHead,held,shown⟩ := inv.held task c last isHolding
      exact ⟨head,isHead,by rw [heldHead_concat,if_neg moved,held],shows_after taken undisturbed held shown⟩

end

/-- From the genesis row on, the committed table passes the verification and is numbered
without gap or duplicate, whatever the calls and their transactions do. -/
theorem committed_chain_valid (sha256 : String → String) (entryId : String) (now : ℚ)
    (adminUserId : String) (operations : τ → Operation γ) (schedule : List (τ × Outside))
    (undisturbed : Throughout Undisturbed []
      (run exec schedule (start sha256 (seedGenesis sha256 entryId now adminUserId) operations)).2) :
    let final := (run exec schedule
      (start sha256 (seedGenesis sha256 entryId now adminUserId) operations)).1.shared
    let rows := tableOf final.db.committed
    (verifyChain sha256 rows none).valid = true ∧
      (inOrder AuditRow.sequence rows).map (·.sequence) =
        (List.range rows.length).map fun i : Nat => (i : Int) + 1 := by
  intro final rows
  have genesis : Sound sha256 [seedGenesis sha256 entryId now adminUserId] := sound_genesis _ _ _
  have atStart : Invariant sha256 [] (fun _ : τ => .free)
      (start sha256 (seedGenesis sha256 entryId now adminUserId) operations).shared :=
    ⟨⟨⟨_,[],rfl⟩,by simp [start,Database.opened]⟩,⟨genesis,by simp [start,Database.opened]⟩,by simp⟩
  have keeps : ∀ past modes (tr : Step τ γ) next, Invariant sha256 past modes tr.before →
      Taken exec tr → rule sha256 tr.action tr.reply (modes tr.task) = some next →
      Undisturbed past tr →
      Invariant sha256 (past ++ [tr]) (Function.update modes tr.task next) tr.after :=
    fun _ _ _ _ inv taken allowed undisturbed => invariant_step inv taken allowed undisturbed
  obtain ⟨modes,inv,_⟩ := run_keeps keeps schedule _ [] _ atStart
    (fun task => operation_follows (operations task) .free) undisturbed
  have sound : Sound sha256 rows := inv.chained.committed
  exact ⟨sound.valid,by rw [sound.inOrder_eq]; exact sound.numbered⟩

def resultEntry : Entry := ⟨"system","INTENT_RESULT",some "n1","\x7b\"output\":\"a|b\"\x7d"⟩

/-- Two calls, and a transaction around the first of them. -/
def sharedConnection : Nat → Operation Unit
  | 0 => .begin ()
  | 1 => .logAction () resultEntry
  | 2 => .rollback ()
  | 3 => .logAction () resultEntry
  | _ => .commit ()

def given (now : ℚ) (fresh : String) : Outside := ⟨.none,now,fresh⟩

/-- A call alone, from its clock to the release of the lock. -/
def oneCall : List (Nat × Outside) :=
  [(1,given 1700000001.5 ""),(1,given 0 "e2"),(1,calm),(1,calm),(1,calm),(1,calm),(1,calm),(1,calm)]

/-- The second call reads the uncommitted row of the first, which is then rolled back. -/
def rolledBackHead : List (Nat × Outside) :=
  [(0,calm),(1,given 1700000001.5 ""),(1,given 0 "e2"),(1,calm),(1,calm),(1,calm),(1,calm),(1,calm),
    (3,given 1700000002 ""),(3,given 0 "e3"),(3,calm),(3,calm),(3,calm),(2,calm),(3,calm),(3,calm),
    (4,calm)]

def isRollback : Act Unit → Bool
  | .rollback _ => true
  | _ => false

theorem committed_chain_valid_after_one_call :
    let rows := tableOf (run exec oneCall (start sampleSha256
      (seedGenesis sampleSha256 "e1" 1700000000 "u1") sharedConnection)).1.shared.db.committed
    (verifyChain sampleSha256 rows none).valid = true ∧
      (inOrder AuditRow.sequence rows).map (·.sequence) =
        (List.range rows.length).map fun i : Nat => (i : Int) + 1 := by
  refine committed_chain_valid sampleSha256 "e1" 1700000000 "u1" sharedConnection oneCall
    (Throughout.mono (P := fun _ tr => isRollback tr.action = false) ?_ (by decide +kernel))
  intro past tr other c rolledBack
  rw [rolledBack] at other
  contradiction

theorem rolled_back_head_breaks_chain : ¬∀ (sha256 : String → String) (entryId : String) (now : ℚ)
    (adminUserId : String) (operations : Nat → Operation Unit) (schedule : List (Nat × Outside)),
    let rows := tableOf (run exec schedule (start sha256
      (seedGenesis sha256 entryId now adminUserId) operations)).1.shared.db.committed
    (verifyChain sha256 rows none).valid = true ∧
      (inOrder AuditRow.sequence rows).map (·.sequence) =
        (List.range rows.length).map fun i : Nat => (i : Int) + 1 := by
  intro chained
  have valid := (chained sampleSha256 "e1" 1700000000 "u1" sharedConnection rolledBackHead).1
  have broken : (verifyChain sampleSha256 (tableOf (run exec rolledBackHead (start sampleSha256
      (seedGenesis sampleSha256 "e1" 1700000000 "u1") sharedConnection)).1.shared.db.committed)
      none).valid = false := by
    decide +kernel
  exact absurd (valid.symm.trans broken) (by decide)

end Vigile.AuditLog
