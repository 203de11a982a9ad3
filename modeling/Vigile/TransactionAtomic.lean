import Vigile.Transaction

/-! A `transaction(db)` block is atomic in every run in which the connection is used
exclusively while a transaction is open on it. -/
namespace Vigile.Transaction

open Interleaving Python Sqlite

variable {τ ω : Type}

theorem opener_concat (past : List (Step τ ω)) (tr : Step τ ω) :
    opener (past ++ [tr]) =
      if tr.after.inTransaction () then
        if tr.before.inTransaction () then opener past else some tr.task
      else none := by
  simp [opener,List.foldl_append]

/-- No statement of another connection ever keeps this one from writing. -/
def Solo (db : Connection τ ω) : Prop := db.snapshots () = none

variable {db : Connection τ ω}

theorem inTransaction_iff (solo : Solo db) :
    db.inTransaction () = true ↔ db.writer = some () := by
  simp [Database.inTransaction,show db.snapshots () = none from solo]

theorem pending_of_closed (solo : Solo db)
    (closed : db.inTransaction () = false) : db.pending () = [] := by
  have idle : db.writer ≠ some () := fun holds => by simp [(inTransaction_iff solo).mpr holds] at closed
  simp [Database.pending,idle]

/-- The connection is in a transaction with these changes, over this log. -/
structure Stands (db : Connection τ ω) (committed : List (τ × ω)) (inside : Bool)
    (pending : List (τ × ω)) : Prop where
  solo : Solo db
  committed : db.committed = committed
  inside : db.inTransaction () = inside
  pending : db.pending () = pending

theorem stands_self (solo : Solo db) :
    Stands db db.committed (db.inTransaction ()) (db.pending ()) := ⟨solo,rfl,rfl,rfl⟩

theorem begin_stands (solo : Solo db) :
    Stands (answer db .begin).1 db.committed true (db.pending ()) ∧
      ((answer db .begin).2 = .ok () ↔ db.inTransaction () = false) := by
  simp only [answer]
  cases inside : db.inTransaction () with
  | true =>
    have nested : db.beginImmediate () = (db,.error .nested) := by simp [Database.beginImmediate,inside]
    rw [nested]
    exact ⟨⟨solo,rfl,inside,rfl⟩,by simp⟩
  | false =>
    have idle : db.writer = none := by
      cases writer : db.writer with
      | none => rfl
      | some holder => simp [(inTransaction_iff solo).mpr writer] at inside
    have opened : db.beginImmediate () = ({db with writer := some (),changes := []},.ok ()) := by
      simp [Database.beginImmediate,inside,idle]
    rw [opened,pending_of_closed solo inside]
    refine ⟨⟨solo,rfl,?_,?_⟩,by simp⟩
    · simp [Database.inTransaction]
    · simp [Database.pending]

theorem execute_stands (solo : Solo db) (change : τ × ω) :
    Stands (answer db (.execute change)).1 db.committed true (db.pending () ++ [change]) ∧
      (answer db (.execute change)).2 = .ok () := by
  have free : db.writer = none ∨ db.writer = some () := by cases db.writer <;> simp
  have snapshot : db.snapshots () = none := solo
  rcases free with idle | holds
  · have granted : db.lock () = ({db with
        writer := some (),changes := [],snapshots := Function.update db.snapshots () none},.ok ()) := by
      simp [Database.lock,idle,Database.seen,snapshot]
    simp only [answer,Database.execute,granted]
    refine ⟨⟨?_,rfl,?_,?_⟩,trivial⟩
    · simp [Solo,Database.append]
    · simp [Database.inTransaction,Database.append]
    · simp [Database.pending,Database.append,idle]
  · have granted : db.lock () = (db,.ok ()) := by simp [Database.lock,holds]
    simp only [answer,Database.execute,granted]
    refine ⟨⟨solo,rfl,?_,?_⟩,trivial⟩
    · simp [Database.inTransaction,Database.append,holds]
    · simp [Database.pending,Database.append,holds]

theorem leave_stands (db : Connection τ ω) :
    Stands (answer db .rollback).1 db.committed false [] ∧
      Stands (answer db .commit).1 (db.committed ++ db.pending ()) false [] := by
  have gone : (db.leave ()).writer ≠ some () := by
    simp only [Database.leave]
    split
    · simp
    · assumption
  refine ⟨⟨?_,rfl,?_,?_⟩,⟨?_,rfl,?_,?_⟩⟩
  all_goals simp_all [answer,Solo,Database.commit,Database.rollback,Database.inTransaction,
    Database.pending,Database.leave]

/-- A statement is stopped before it reaches the connection, or the connection does it. -/
theorem taken_cases {tr : Step τ ω} (taken : Taken exec tr) :
    (∃ error, tr.choice = .before error ∧ tr.after = tr.before ∧ tr.reply = .error error) ∨
    ((∀ error, tr.choice = .before error → tr.action = .inTransaction) ∧
      tr.after = (answer tr.before tr.action).1 ∧
      (tr.reply = (answer tr.before tr.action).2 ∨
        ∃ error, tr.choice = .after error ∧ tr.reply = .error error)) := by
  obtain ⟨task,action,choice,before,reply,after⟩ := tr
  cases action
  case inTransaction =>
    obtain ⟨same,answered⟩ := Prod.mk.inj (Option.some.inj taken)
    exact .inr ⟨fun _ _ => rfl,same.symm,.inl answered.symm⟩
  all_goals
    obtain ⟨same,answered⟩ := Prod.mk.inj (Option.some.inj taken)
    cases choice with
    | none => exact .inr ⟨by simp,same.symm,.inl answered.symm⟩
    | before error => exact .inl ⟨error,rfl,same.symm,answered.symm⟩
    | after error => exact .inr ⟨by simp,same.symm,.inr ⟨error,rfl,answered.symm⟩⟩

section
variable [DecidableEq τ]

theorem performed_concat (task : τ) (past : List (Step τ ω)) (tr : Step τ ω) :
    performed task (past ++ [tr]) = performed task past ++ (change? task tr).toList := by
  simp only [performed,List.filterMap_append,List.append_cancel_left_eq]
  cases found : change? task tr <;> simp [found]

variable {task : τ} {tr : Step τ ω} {next : Phase}

theorem change?_of_ne (other : tr.task ≠ task) : change? task tr = none := by
  unfold change?
  split <;> simp [other]

inductive Effect (tr : Step τ ω) : Prop where
  | kept (silent : ∀ task, change? task tr = none)
      (stands : Stands tr.after tr.before.committed (tr.before.inTransaction ()) (tr.before.pending ()))
  | began (action : tr.action = .begin) (outside : tr.before.inTransaction () = false)
      (stands : Stands tr.after tr.before.committed true [])
  | executed (change : τ × ω) (action : tr.action = .execute change)
      (made : change? tr.task tr = some change)
      (stands : Stands tr.after tr.before.committed true (tr.before.pending () ++ [change]))
  | committed (action : tr.action = .commit)
      (stands : Stands tr.after (tr.before.committed ++ tr.before.pending ()) false [])
  | rolledBack (action : tr.action = .rollback)
      (stands : Stands tr.after tr.before.committed false [])

theorem effect_of_taken (solo : Solo tr.before) (taken : Taken exec tr) : Effect tr := by
  obtain ⟨task,action,choice,before,reply,after⟩ := tr
  rcases taken_cases taken with ⟨error,struck,same,_⟩ | ⟨reached,same,_⟩
  · simp only at struck same solo
    subst struck same
    exact .kept (fun _ => by cases action <;> rfl) (stands_self solo)
  · simp only at same solo
    subst same
    cases action with
    | inTransaction => exact .kept (fun _ => rfl) (stands_self solo)
    | begin =>
      have opened := (begin_stands solo).1
      cases inside : before.inTransaction () with
      | true => exact .kept (fun _ => rfl) (inside ▸ opened)
      | false => exact .began rfl inside (pending_of_closed solo inside ▸ opened)
    | execute change =>
      refine .executed change rfl ?_ (execute_stands solo change).1
      cases choice with
      | before error => simpa using reached error rfl
      | _ => simp [change?]
    | commit => exact .committed rfl (leave_stands before).2
    | rollback => exact .rolledBack rfl (leave_stands before).1

inductive Move (tr : Step τ ω) : Phase → Phase → Prop where
  | joins (same : tr.after = tr.before) (inside : tr.before.inTransaction () = true) :
      Move tr .fresh .joined
  | enters (silent : change? tr.task tr = none) (same : tr.after = tr.before)
      (outside : tr.before.inTransaction () = false) : Move tr .fresh .outside
  | opens (silent : change? tr.task tr = none)
      (stands : Stands tr.after tr.before.committed true []) : Move tr .outside .inside
  | refused (same : tr.after.committed = tr.before.committed) : Move tr .outside .dead
  | unwinds (silent : change? tr.task tr = none) (same : tr.after = tr.before) :
      Move tr .inside .rolling
  | gone (same : tr.after = tr.before) : Move tr .inside .dead
  | writes (phase : Phase) (live : phase = .inside ∨ phase = .joined ∨ phase = .plain)
      (change : τ × ω) (action : tr.action = .execute change) (own : change.1 = tr.task) :
      Move tr phase phase
  | commits (silent : change? tr.task tr = none)
      (stands : Stands tr.after (tr.before.committed ++ tr.before.pending ()) false []) :
      Move tr .inside .done
  | interrupted (silent : change? tr.task tr = none) (action : tr.action = .commit)
      (lost : tr.after = tr.before ∨ ∃ error, tr.choice = .after error) : Move tr .inside .inside
  | committed : Move tr .plain .plain
  | rollsBack (same : tr.after.committed = tr.before.committed) : Move tr .rolling .dead

theorem move_of_rule (solo : Solo tr.before) (taken : Taken exec tr)
    {phase : Phase} (allowed : rule tr.task tr.action tr.reply phase = some next) :
    Move tr phase next := by
  have reached := taken_cases taken
  obtain ⟨task,action,choice,before,reply,after⟩ := tr
  cases action with
  | inTransaction =>
    obtain ⟨same,answered⟩ := Prod.mk.inj (Option.some.inj taken)
    simp only at same answered allowed
    subst answered
    cases inside : before.inTransaction () with
    | true =>
      cases phase <;> simp [rule,inside] at allowed <;> subst allowed
      · exact .joins same.symm inside
      · exact .unwinds rfl same.symm
    | false =>
      cases phase <;> simp [rule,inside] at allowed <;> subst allowed
      · exact .enters rfl same.symm inside
      · exact .gone same.symm
  | begin =>
    have opened := begin_stands solo
    cases reply with
    | ok value =>
      cases phase <;> simp [rule] at allowed
      subst allowed
      rcases reached with ⟨_,_,_,struck⟩ | ⟨_,same,answered | ⟨_,_,struck⟩⟩
      · simp at struck
      · simp only at same answered opened solo
        have outside := opened.2.mp answered.symm
        subst same
        exact .opens rfl (pending_of_closed solo outside ▸ opened.1)
      · simp at struck
    | error error =>
      cases phase <;> simp [rule] at allowed
      subst allowed
      rcases reached with ⟨_,_,same,_⟩ | ⟨_,same,_⟩
      · exact .refused (congrArg _ same)
      · simp only at same
        subst same
        exact .refused opened.1.committed
  | execute change =>
    simp only [rule] at allowed
    split at allowed
    · rename_i own
      cases phase <;> simp at allowed <;> subst allowed
      · exact .writes _ (.inl rfl) change rfl own
      · exact .writes _ (.inr (.inl rfl)) change rfl own
      · exact .writes _ (.inr (.inr rfl)) change rfl own
    · simp at allowed
  | commit =>
    cases reply with
    | ok value =>
      cases phase <;> simp [rule] at allowed <;> subst allowed
      · rcases reached with ⟨_,_,_,struck⟩ | ⟨_,same,_⟩
        · simp at struck
        · simp only at same
          subst same
          exact .commits rfl (leave_stands before).2
      · exact .committed
    | error error =>
      cases phase <;> simp [rule] at allowed <;> subst allowed
      · rcases reached with ⟨_,_,same,_⟩ | ⟨_,_,answered | ⟨e,struck,_⟩⟩
        · exact .interrupted rfl rfl (.inl same)
        · simp [answer] at answered
        · exact .interrupted rfl rfl (.inr ⟨e,struck⟩)
      · exact .committed
  | rollback =>
    cases phase <;> simp [rule] at allowed
    subst allowed
    rcases reached with ⟨_,_,same,_⟩ | ⟨_,same,_⟩
    · exact .rollsBack (congrArg _ same)
    · simp only at same
      subst same
      exact .rollsBack (leave_stands before).1.committed

def PhaseOk (past : List (Step τ ω)) (db : Connection τ ω) (task : τ) : Phase → Prop
  | .fresh | .outside =>
    opener past ≠ some task ∧ performed task past = [] ∧ committedOf task db = []
  | .inside | .rolling =>
    opener past = some task ∧ committedOf task db = [] ∧ db.pending () = performed task past
  | .done => committedOf task db = performed task past
  | .dead => committedOf task db = []
  | .joined => False
  | .plain => True

structure Invariant (clients : τ → Client ω) (past : List (Step τ ω)) (phases : τ → Phase)
    (db : Connection τ ω) : Prop where
  solo : Solo db
  opener : (opener past).isSome = db.inTransaction ()
  owned : ∀ change ∈ db.pending (),Transaction.opener past = some change.1
  kind : ∀ task, phases task = .plain ∨ ∃ body, clients task = .block body
  phase : ∀ task, PhaseOk past db task (phases task)

variable {clients : τ → Client ω} {past : List (Step τ ω)} {phases : τ → Phase} {tr : Step τ ω}

section
variable (inv : Invariant clients past phases tr.before) (exclusive : Exclusive clients past tr)
include inv exclusive

/-- Under exclusive use the moving task owns everything that is pending. -/
theorem pending_own : ∀ change ∈ tr.before.pending (),change.1 = tr.task :=
  fun change member => (exclusive.1 change.1 (inv.owned change member)).symm

/-- A statement commits only changes of the task that issued it. -/
theorem committedOf_other (effect : Effect tr) (other : tr.task ≠ task) :
    committedOf task tr.after = committedOf task tr.before := by
  have foreign : (tr.before.pending ()).filter (·.1 = task) = [] := by
    refine List.filter_eq_nil_iff.mpr fun change member => ?_
    simpa [pending_own inv exclusive change member] using other
  unfold committedOf
  cases effect with
  | kept _ stands | began _ _ stands | executed _ _ _ stands | rolledBack _ stands =>
    rw [stands.committed]
  | committed _ stands => rw [stands.committed,List.filter_append,foreign,List.append_nil]

/-- Whatever transaction is open after a step is that of the task that moved. -/
theorem opener_moved :
    opener (past ++ [tr]) = if tr.after.inTransaction () then some tr.task else none := by
  rw [opener_concat]
  split
  · split
    · rename_i inside
      have held := inv.opener.trans inside
      obtain ⟨holder,isHolder⟩ := Option.isSome_iff_exists.mp held
      rw [isHolder,exclusive.1 holder isHolder]
    · rfl
  · rfl

/-- The tasks that did not move stand where they stood. -/
theorem phase_other (effect : Effect tr) (other : tr.task ≠ task) :
    PhaseOk (past ++ [tr]) tr.after task (phases task) := by
  have before := inv.phase task
  have committed := committedOf_other inv exclusive effect other
  have same : performed task (past ++ [tr]) = performed task past := by
    simp [performed_concat,change?_of_ne other]
  have holder : opener (past ++ [tr]) ≠ some task := by
    rw [opener_moved inv exclusive]
    split <;> simp [other]
  cases phase : phases task with
  | fresh | outside =>
    simp only [phase,PhaseOk] at before
    exact ⟨holder,same.trans before.2.1,committed.trans before.2.2⟩
  | inside | rolling =>
    simp only [phase,PhaseOk] at before
    exact absurd (exclusive.1 task before.1) other
  | done =>
    simp only [phase,PhaseOk] at before
    exact committed.trans (before.trans same.symm)
  | dead =>
    simp only [phase,PhaseOk] at before
    exact committed.trans before
  | joined => simp [phase,PhaseOk] at before
  | plain => trivial

/-- The task that moved stands where its protocol says. -/
theorem phase_self (taken : Taken exec tr)
    (allowed : rule tr.task tr.action tr.reply (phases tr.task) = some next) :
    PhaseOk (past ++ [tr]) tr.after tr.task next := by
  have before := inv.phase tr.task
  have holder := opener_moved inv exclusive
  have own := pending_own inv exclusive
  have grown := performed_concat tr.task past tr
  have inside : ∀ task, opener past = some task → tr.before.inTransaction () = true := by
    intro task isHolder
    rw [← inv.opener,isHolder]
    rfl
  have move := move_of_rule inv.solo taken allowed
  have kind := inv.kind tr.task
  generalize phases tr.task = phase at before move kind
  cases move with
  | joins same open' =>
    -- an open transaction has a holder, and that would be the task itself
    have held := inv.opener.trans open'
    obtain ⟨task,isHolder⟩ := Option.isSome_iff_exists.mp held
    exact absurd (isHolder.trans (congrArg some (exclusive.1 task isHolder).symm)) before.1
  | enters silent same outside =>
    rw [PhaseOk,grown,silent,same,holder,same,outside]
    exact ⟨by simp,by simpa using before.2.1,before.2.2⟩
  | opens silent stands =>
    rw [PhaseOk,grown,silent,holder,stands.inside,stands.pending,before.2.1]
    refine ⟨rfl,?_,rfl⟩
    rw [committedOf,stands.committed]
    exact before.2.2
  | refused same =>
    rw [PhaseOk,committedOf,same]
    exact before.2.2
  | unwinds silent same =>
    rw [PhaseOk,grown,silent,holder,same,inside _ before.1]
    exact ⟨rfl,before.2.1,by simpa using before.2.2⟩
  | gone same =>
    rw [PhaseOk,same]
    exact before.2.1
  | writes _ live change action own' =>
    rcases live with rfl | rfl | rfl
    · cases effect_of_taken inv.solo taken with
      | kept silent stands =>
        rw [PhaseOk,grown,silent,holder,stands.inside,stands.pending,inside _ before.1,committedOf,
          stands.committed]
        exact ⟨rfl,before.2.1,by simpa using before.2.2⟩
      | executed _ _ made stands =>
        rw [PhaseOk,grown,made,holder,stands.inside,stands.pending,before.2.2,committedOf,
          stands.committed]
        exact ⟨rfl,before.2.1,rfl⟩
      | began other | committed other | rolledBack other => simp [action] at other
    · exact before
    · trivial
  | commits silent stands =>
    have all : (tr.before.pending ()).filter (·.1 = tr.task) = tr.before.pending () :=
      List.filter_eq_self.mpr fun change member => by simpa using own change member
    rw [PhaseOk,grown,silent,committedOf,stands.committed,List.filter_append,all,before.2.2]
    simpa [committedOf] using before.2.1
  | interrupted silent action lost =>
    rcases lost with same | ⟨error,struck⟩
    · rw [PhaseOk,grown,silent,holder,same,inside _ before.1]
      exact ⟨rfl,before.2.1,by simpa using before.2.2⟩
    · obtain ⟨body,isBlock⟩ := kind.resolve_left (by simp)
      exact absurd struck (exclusive.2 body isBlock action error)
  | committed => trivial
  | rollsBack same =>
    rw [PhaseOk,committedOf,same]
    exact before.2.1

end

/-- A task writes under its own name. -/
theorem rule_execute {phase : Phase} {change : τ × ω}
    (allowed : rule tr.task tr.action tr.reply phase = some next)
    (action : tr.action = .execute change) : change.1 = tr.task := by
  obtain ⟨task,_,choice,before,reply,after⟩ := tr
  cases action
  simp only [rule] at allowed
  split at allowed
  · assumption
  · contradiction

/-- One statement under exclusive use keeps the invariant. -/
theorem invariant_step (inv : Invariant clients past phases tr.before) (taken : Taken exec tr) (allowed : rule tr.task tr.action tr.reply (phases tr.task) = some next)
    (exclusive : Exclusive clients past tr) :
    Invariant clients (past ++ [tr]) (Function.update phases tr.task next) tr.after := by
  have effect := effect_of_taken inv.solo taken
  have holder := opener_moved inv exclusive
  refine ⟨?_,?_,?_,fun task => ?_,fun task => ?_⟩
  · cases effect with
    | kept _ stands | began _ _ stands | executed _ _ _ stands | committed _ stands
      | rolledBack _ stands => exact stands.solo
  · rw [holder]
    split <;> simp_all
  · intro change member
    rw [holder]
    cases effect with
    | kept _ stands =>
      rw [stands.pending] at member
      have open' : tr.before.inTransaction () = true := by
        rw [← inv.opener,inv.owned change member]
        rfl
      rw [stands.inside,open',pending_own inv exclusive change member]
      rfl
    | executed added action _ stands =>
      rw [stands.pending] at member
      rw [stands.inside]
      rcases List.mem_append.mp member with old | new
      · rw [pending_own inv exclusive change old]
        rfl
      · rw [List.mem_singleton.mp new,rule_execute allowed action]
        rfl
    | began _ _ stands | committed _ stands | rolledBack _ stands =>
      rw [stands.pending] at member
      contradiction
  · by_cases same : task = tr.task
    · subst same
      rw [Function.update_self]
      rcases inv.kind tr.task with plain | isBlock
      · have move := move_of_rule inv.solo taken allowed
        rw [plain] at move
        cases move <;> exact .inl rfl
      · exact .inr isBlock
    · simpa only [Function.update_of_ne same] using inv.kind task
  · by_cases same : task = tr.task
    · subst same
      simpa only [Function.update_self] using phase_self inv exclusive taken allowed
    · simpa only [Function.update_of_ne same] using phase_other inv exclusive effect (Ne.symm same)

theorem invariant_start (clients : τ → Client ω) :
    Invariant clients [] (fun task => (clients task).initial) (start clients).shared := by
  refine ⟨rfl,rfl,fun _ member => by contradiction,fun task => ?_,fun task => ?_⟩
  · cases client : clients task with
    | block body => exact .inr ⟨body,rfl⟩
    | statements groups => exact .inl rfl
  · cases client : clients task with
    | block body => exact ⟨by simp [opener],rfl,rfl⟩
    | statements groups => trivial

/-- A block is atomic at every point of every run of exclusive use. -/
theorem block_atomic (clients : τ → Client ω) (schedule : List (τ × Fault))
    (exclusive : Throughout (Exclusive clients) [] (run exec schedule (start clients)).2) :
    Atomic clients (run exec schedule (start clients)).1 (run exec schedule (start clients)).2 := by
  have keeps : ∀ past phases (tr : Step τ ω) next, Invariant clients past phases tr.before →
      Taken exec tr → rule tr.task tr.action tr.reply (phases tr.task) = some next →
      Exclusive clients past tr →
      Invariant clients (past ++ [tr]) (Function.update phases tr.task next) tr.after :=
    fun _ _ _ _ inv taken allowed exclusive => invariant_step inv taken allowed exclusive
  obtain ⟨phases,inv,follows⟩ := run_keeps keeps schedule (start clients) [] _
    (invariant_start clients) (client_follows clients) exclusive
  rw [List.nil_append] at inv
  have owns := run_transitions
    (P := fun _ tr => ∀ change ∈ tr.before.pending (),change.1 = tr.task) keeps
    (fun _ _ _ _ inv _ _ exclusive => pending_own inv exclusive) schedule (start clients) [] _
    (invariant_start clients) (client_follows clients) exclusive
  refine ⟨fun task body value isBlock finished => ?_,fun task body error isBlock raised => ?_,
    fun tr member _ _ _ => throughout_iff_forall.mp owns tr member⟩
  · have ended := follows task
    rw [finished,isBlock] at ended
    have here := inv.phase task
    rcases (ended : _ ∨ _) with done | joined
    · rwa [done] at here
    · rw [joined] at here
      exact here.elim
  · have ended := follows task
    rw [raised,isBlock] at ended
    have here := inv.phase task
    rcases (ended : _ ∨ _) with dead | joined
    · rwa [dead] at here
    · rw [joined] at here
      exact here.elim

end

/-! Two tasks on one connection: a block, and a statement with its commit -/

def writer (change : String) (outcome : Body String) : Body String := .act change fun _ => outcome

def twoTasks (outcome : Body String) : Bool → Client String
  | false => .block (writer "block" outcome)
  | true => .statements [writer "statement" (.ret ())]

/-- Block first, then the other task. -/
def inTurn : List (Bool × Fault) :=
  [(false,.none),(false,.none),(false,.none),(false,.none),(true,.none),(true,.none)]

/-- The other task commits after the block wrote and before it raises. -/
def crossed : List (Bool × Fault) :=
  [(false,.none),(false,.none),(false,.none),(true,.none),(true,.none),(false,.none)]

theorem block_atomic_in_turn :
    Atomic (twoTasks (.ret ())) (run exec inTurn (start (twoTasks (.ret ())))).1
      (run exec inTurn (start (twoTasks (.ret ())))).2 := by
  refine block_atomic _ inTurn (Throughout.mono (P := fun past tr =>
    (opener past = none ∨ opener past = some tr.task) ∧ tr.choice = .none) ?_ (by decide))
  intro past tr ⟨turn,undisturbed⟩
  refine ⟨fun holder isHolder => ?_,fun _ _ _ error struck => ?_⟩
  · rcases turn with idle | mine
    · simp [idle] at isHolder
    · exact Option.some.inj (mine.symm.trans isHolder)
  · simp [undisturbed] at struck

/-- The commit of another task makes the writes of a block permanent that then raises. -/
theorem block_not_atomic : ¬∀ (clients : Bool → Client String) (schedule : List (Bool × Fault)),
    Atomic clients (run exec schedule (start clients)).1 (run exec schedule (start clients)).2 := by
  intro atomic
  have none := (atomic (twoTasks (.raise (.valueError "failed"))) crossed).discarded false
    (writer "block" (.raise (.valueError "failed"))) (.valueError "failed") rfl rfl
  exact absurd none (by decide)

end Vigile.Transaction
