import Mathlib.Data.Prod.Lex
import Vigile.PolicySigning
import Vigile.Transaction

/-! Policy bundles compiled by any number of tasks over any number of connections, while the grants
change. -/
namespace Vigile.PolicyCompilation

open PolicySigning Python Sqlite

structure GrantRow where
  nodeId : String
  grant : Grant
  revoked : Bool

/-- `policy_epoch` and `policy_version`, compared in this order. -/
abbrev Stamp := Int ×ₗ Int

structure Bundle where
  policyId : String
  nodeId : String
  masterKeyId : String
  stamp : Stamp
  issuedAt : ℚ
  expiresAt : ℚ
  rules : List Rule

inductive GrantChange where
  | insert (row : GrantRow)
  | revoke (grantId : String)

inductive Change where
  | grants (change : GrantChange)
  | policy (bundle : Bundle)

def GrantChange.apply (rows : List GrantRow) : GrantChange → List GrantRow
  | .insert row => rows ++ [row]
  | .revoke grantId => rows.map fun row => if row.grant.grantId = grantId then { row with revoked := true } else row

def Change.grantChange? : Change → Option GrantChange
  | .grants change => some change
  | .policy _ => none

def Change.policy? : Change → Option Bundle
  | .grants _ => none
  | .policy bundle => some bundle

def grantsOf (log : List Change) : List GrantRow := (log.filterMap Change.grantChange?).foldl GrantChange.apply []

def policiesOf (log : List Change) : List Bundle := log.filterMap Change.policy?

def getActiveGrants (log : List Change) (nodeId : String) : List Grant :=
  ((grantsOf log).filter fun row => row.nodeId = nodeId ∧ row.revoked = false).map GrantRow.grant

def latest (log : List Change) (nodeId : String) : Option Stamp :=
  (((policiesOf log).filter fun row => row.nodeId = nodeId).map Bundle.stamp).max?

def nextStamp (log : List Change) (nodeId : String) : Stamp :=
  match latest log nodeId with
  | some stamp => toLex ((ofLex stamp).1,(ofLex stamp).2 + 1)
  | none => toLex (1,1)

def rulesOf (grants : List Grant) : List Rule := if grants.isEmpty then bootstrapRules else grants.map Grant.rule

/-- The primary key of `policies`. -/
def uniqueCheck (bundle : Bundle) (log : List Change) : Except PyError Unit :=
  if bundle.policyId ∈ (policiesOf log).map Bundle.policyId then
    .error (.integrityError "UNIQUE constraint failed: policies.id")
  else .ok ()

def GrantChange.check (log : List Change) : GrantChange → Except PyError Unit
  | .insert row =>
    if row.grant.grantId ∈ (grantsOf log).map (fun row => row.grant.grantId) then
      .error (.integrityError "UNIQUE constraint failed: plugin_grants.id")
    else .ok ()
  | .revoke _ => .ok ()

/-- How far a call of `compile_policy_bundle` is. -/
inductive Stage (γ : Type) where
  | idle
  | granted (c : γ) (nodeId : String) (grants : List Grant)
  | versioned (c : γ) (nodeId : String) (grants : List Grant) (stamp : Stamp)
  | inserted (c : γ) (bundle : Bundle)

structure State (γ τ : Type) where
  db : Database γ Change
  stage : τ → Stage γ
  returned : List Bundle

inductive Act (γ τ : Type) where
  | readGrants (t : τ) (c : γ) (nodeId : String)
  | readVersion (t : τ)
  | insert (t : τ) (policyId masterKeyId : String) (now ttl : ℚ)
  | commit (t : τ)
  | begin (c : γ)
  | changeGrants (c : γ) (change : GrantChange)
  | commitChanges (c : γ)
  | rollback (c : γ)

variable {γ τ : Type} [DecidableEq γ] [DecidableEq τ]

def start : State γ τ := ⟨Database.opened [],fun _ => .idle,[]⟩

/-! What a call does, statement by statement; out of turn it does nothing -/

def readGrants (s : State γ τ) (t : τ) (c : γ) (nodeId : String) : State γ τ :=
  match s.stage t with
  | .idle => { s with stage := Function.update s.stage t (.granted c nodeId (getActiveGrants (s.db.view c) nodeId)) }
  | _ => s

def readVersion (s : State γ τ) (t : τ) : State γ τ :=
  match s.stage t with
  | .granted c nodeId grants =>
    { s with stage := Function.update s.stage t (.versioned c nodeId grants (nextStamp (s.db.view c) nodeId)) }
  | _ => s

/-- A statement that fails ends the call. -/
def insert (s : State γ τ) (t : τ) (policyId masterKeyId : String) (now ttl : ℚ) : State γ τ :=
  match s.stage t with
  | .versioned c nodeId grants stamp =>
    let bundle := ⟨policyId,nodeId,masterKeyId,stamp,now,now + ttl,rulesOf grants⟩
    match s.db.execute c Transaction.refused (uniqueCheck bundle) (.policy bundle) with
    | (db,.ok ()) => { s with db := db, stage := Function.update s.stage t (.inserted c bundle) }
    | (db,.error _) => { s with db := db, stage := Function.update s.stage t .idle }
  | _ => s

def commit (s : State γ τ) (t : τ) : State γ τ :=
  match s.stage t with
  | .inserted c bundle =>
    { db := s.db.commit c, stage := Function.update s.stage t .idle, returned := s.returned ++ [bundle] }
  | _ => s

def changeGrants (s : State γ τ) (c : γ) (change : GrantChange) : State γ τ :=
  { s with db := (s.db.execute c Transaction.refused (fun log => change.check log) (.grants change)).1 }

def step (s : State γ τ) : Act γ τ → State γ τ
  | .readGrants t c nodeId => readGrants s t c nodeId
  | .readVersion t => readVersion s t
  | .insert t policyId masterKeyId now ttl => insert s t policyId masterKeyId now ttl
  | .commit t => commit s t
  | .begin c => { s with db := (s.db.beginImmediate c).1 }
  | .changeGrants c change => changeGrants s c change
  | .commitChanges c => { s with db := s.db.commit c }
  | .rollback c => { s with db := s.db.rollback c }

def run (s : State γ τ) (acts : List (Act γ τ)) : State γ τ := acts.foldl step s

/-- Every version of a node is above those before it. -/
def Ordered (rows : List Bundle) : Prop :=
  rows.Pairwise fun first second => first.nodeId = second.nodeId → first.stamp < second.stamp

/-- The versions of each node rise in the order of the commits, and no two returned bundles of a node
have one version and different rules. -/
def Sound (s : State γ τ) : Prop :=
  Ordered (policiesOf s.db.committed) ∧
    ∀ first ∈ s.returned, ∀ second ∈ s.returned, first.nodeId = second.nodeId → first.stamp = second.stamp →
      first.rules = second.rules

/-- A bundle is inserted only while the version that was read is the newest, and no insert of a call is taken back. -/
def Current (s : State γ τ) : Act γ τ → Prop
  | .insert t _ _ _ _ => ∀ c nodeId grants stamp, s.stage t = .versioned c nodeId grants stamp →
      nextStamp s.db.written nodeId = stamp
  | .rollback c => ∀ t bundle, s.stage t ≠ .inserted c bundle
  | _ => True

def AllCurrent (s : State γ τ) : List (Act γ τ) → Prop
  | [] => True
  | act :: acts => Current s act ∧ AllCurrent (step s act) acts

structure Inv (s : State γ τ) : Prop where
  ordered : Ordered (policiesOf s.db.written)
  kept : ∀ bundle ∈ s.returned, bundle ∈ policiesOf s.db.committed
  inserted : ∀ t c bundle, s.stage t = .inserted c bundle → bundle ∈ policiesOf (s.db.committed ++ s.db.pending c)

variable {s : State γ τ} {db : Database γ Change} {c d : γ} {log more : List Change} {nodeId : String} {bundle : Bundle}

theorem policiesOf_append (log more : List Change) : policiesOf (log ++ more) = policiesOf log ++ policiesOf more :=
  List.filterMap_append

theorem policiesOf_sublist (earlier : log <+: more) : (policiesOf log).Sublist (policiesOf more) :=
  earlier.sublist.filterMap _

/-- The next version of a node is above all it has. -/
theorem lt_nextStamp (stored : bundle ∈ policiesOf log) : bundle.stamp < nextStamp log bundle.nodeId := by
  have listed : bundle.stamp ∈ ((policiesOf log).filter fun row => row.nodeId = bundle.nodeId).map Bundle.stamp :=
    List.mem_map_of_mem (List.mem_filter.mpr ⟨stored,by simp⟩)
  unfold nextStamp latest
  cases newest : (((policiesOf log).filter fun row => row.nodeId = bundle.nodeId).map Bundle.stamp).max? with
  | none =>
    rw [List.max?_eq_none_iff.mp newest] at listed
    contradiction
  | some stamp =>
    have below : bundle.stamp ≤ stamp := (List.max?_eq_some_iff.mp newest).2 _ listed
    refine below.trans_lt ?_
    exact Prod.Lex.toLex_lt_toLex.mpr (.inr ⟨rfl,lt_add_one _⟩)

/-- One bundle for one version. -/
theorem ordered_unique {rows : List Bundle} (ordered : Ordered rows) {first second : Bundle} (has : first ∈ rows)
    (has' : second ∈ rows) (node : first.nodeId = second.nodeId) (stamp : first.stamp = second.stamp) : first = second := by
  by_contra different
  obtain ⟨i,hi,rfl⟩ := List.getElem_of_mem has
  obtain ⟨j,hj,rfl⟩ := List.getElem_of_mem has'
  rcases lt_trichotomy i j with before | same | after
  · exact absurd stamp (List.pairwise_iff_getElem.mp ordered i j hi hj before node).ne
  · subst same
    exact different rfl
  · exact absurd stamp.symm (List.pairwise_iff_getElem.mp ordered j i hj hi after node.symm).ne

omit [DecidableEq γ] in
theorem committed_written (db : Database γ Change) : db.committed <+: db.written := by
  unfold Database.written
  split
  · exact List.prefix_append _ _
  · exact List.prefix_refl _

theorem written_beginImmediate : (db.beginImmediate c).1.written = db.written ∧
    (db.beginImmediate c).1.committed = db.committed := by
  unfold Database.beginImmediate
  split
  · exact ⟨rfl,rfl⟩
  · split
    · exact ⟨rfl,rfl⟩
    · rename_i free
      have idle : db.writer = none := by simpa using free
      exact ⟨by simp [Database.written,idle],rfl⟩

theorem written_rollback : (db.rollback c).written <+: db.written := by
  by_cases holds : db.writer = some c
  all_goals simp [Database.rollback,Database.leave,Database.written,holds]

variable {ε : Type} {change : Change} {next : Database γ Change} {stage : τ → Stage γ} {t : τ}

/-- A statement takes back nothing of what any connection has pending. -/
theorem pending_execute (refuse : Refusal → ε) (check : List Change → Except ε Unit) (change : Change) :
    db.pending c <+: (db.execute d refuse check change).1.pending c := by
  by_cases other : d = c
  · subst other
    have same : (db.lock d).1.pending d = db.pending d := Database.lock_self.2
    rcases Database.execute_after db d refuse check change with kept | ⟨holds,_,more⟩
    · rw [kept,same]
    · rw [more,← same]
      simp [Database.pending,Database.append,holds]
  · exact (Database.execute_other refuse check other).2 ▸ List.prefix_refl _

theorem written_lock : (db.lock c).1.written = db.written := by
  unfold Database.lock
  split
  · rfl
  · split
    · rename_i free
      simp [Database.written,free.1]
    · rfl

/-- A statement that fails writes nothing. -/
theorem written_execute_error {refuse : Refusal → ε} {check : List Change → Except ε Unit} {error : ε} (failed : db.execute c refuse check change = (next,.error error)) :
    next.written = db.written := by
  have same : (db.lock c).1.written = db.written := written_lock
  unfold Database.execute at failed
  split at failed
  · rename_i refused
    rw [refused] at same
    exact (Prod.mk.inj failed).1 ▸ same
  · rename_i granted
    rw [granted] at same
    split at failed
    · exact (Prod.mk.inj failed).1 ▸ same
    · simp at failed

theorem pending_beginImmediate : (db.beginImmediate d).1.pending c = db.pending c := by
  by_cases other : d = c
  · subst other
    exact Database.beginImmediate_self
  · exact (Database.beginImmediate_other other).2

theorem written_commit (db : Database γ Change) (c : γ) : (db.commit c).written = db.written := Database.commit_cases.1

/-- A commit moves what is pending. -/
theorem pending_commit : db.committed ++ db.pending c <+: (db.commit d).committed ++ (db.commit d).pending c := by
  by_cases other : d = c
  · subst other
    exact List.prefix_append _ _
  · have same : (db.commit d).pending c = db.pending c := (Database.leave_other other).2
    have idle : db.pending c = [] ∨ db.pending d = [] := by
      unfold Database.pending
      by_cases holds : db.writer = some c
      · right
        exact if_neg fun too => other (Option.some.inj (too.symm.trans holds))
      · exact .inl (if_neg holds)
    rw [same,Database.commit_committed]
    rcases idle with none | none <;> rw [none] <;> simp

omit [DecidableEq τ] in
/-- What every step but an insert keeps. -/
theorem inv_frame {next : State γ τ} (inv : Inv s) (returned : next.returned = s.returned)
    (stages : ∀ t c bundle, next.stage t = .inserted c bundle → s.stage t = .inserted c bundle)
    (written : (policiesOf next.db.written).Sublist (policiesOf s.db.written))
    (committed : s.db.committed <+: next.db.committed)
    (pending : ∀ t c bundle, s.stage t = .inserted c bundle →
      s.db.committed ++ s.db.pending c <+: next.db.committed ++ next.db.pending c) : Inv next where
  ordered := inv.ordered.sublist written
  kept bundle has := (policiesOf_sublist committed).subset (inv.kept bundle (returned ▸ has))
  inserted t c bundle stage :=
    (policiesOf_sublist (pending t c bundle (stages t c bundle stage))).subset
      (inv.inserted t c bundle (stages t c bundle stage))

omit [DecidableEq γ] in
/-- A stage that is no finished insert adds none. -/
theorem update_stages {new : Stage γ} (fresh : ∀ c bundle, new ≠ .inserted c bundle) :
    ∀ u c bundle, Function.update stage t new u = .inserted c bundle → stage u = .inserted c bundle := by
  intro u c bundle updated
  by_cases own : u = t
  · subst own
    rw [Function.update_self] at updated
    exact absurd updated (fresh c bundle)
  · rwa [Function.update_of_ne own] at updated

omit [DecidableEq τ] in
/-- A statement that adds no bundle. -/
theorem execute_inv (inv : Inv s) {check : List Change → Except PyError Unit}
    {reply : Except PyError Unit} (done : s.db.execute c Transaction.refused check change = (next,reply))
    (adds : reply = .ok () → change.policy? = none)
    (stages : ∀ t c bundle, stage t = .inserted c bundle → s.stage t = .inserted c bundle) :
    Inv { s with db := next, stage := stage } := by
  obtain ⟨committed,cases⟩ := Database.execute_cases done
  have same : policiesOf next.written = policiesOf s.db.written := by
    cases reply with
    | error error => rw [written_execute_error done]
    | ok =>
      rcases cases with ⟨same,_⟩ | ⟨grown,_⟩
      · rw [same]
      · rw [grown,policiesOf_append]
        simp [policiesOf,adds rfl]
  refine inv_frame inv rfl stages (same ▸ .refl _) (committed ▸ List.prefix_refl _) fun t d bundle _ => ?_
  have grown : s.db.pending d <+: (s.db.execute c Transaction.refused check change).1.pending d := pending_execute _ _ _
  rw [done] at grown
  rw [committed]
  exact (List.prefix_append_right_inj _).mpr grown

theorem insert_ok_inv (inv : Inv s)
    (done : s.db.execute c Transaction.refused (uniqueCheck bundle) (.policy bundle) = (next,.ok ()))
    (current : nextStamp s.db.written bundle.nodeId = bundle.stamp) :
    Inv { s with db := next, stage := Function.update s.stage t (.inserted c bundle) } := by
  obtain ⟨committed,⟨_,_,failed⟩ | ⟨grown,_,holds,_⟩⟩ := Database.execute_cases done
  · simp [Except.isOk,Except.toBool] at failed
  have written : policiesOf next.written = policiesOf s.db.written ++ [bundle] := by
    rw [grown,policiesOf_append]
    rfl
  constructor
  · change Ordered (policiesOf next.written)
    rw [written]
    refine List.pairwise_append.mpr ⟨inv.ordered,List.pairwise_singleton _ _,fun row has last same node => ?_⟩
    obtain rfl := List.mem_singleton.mp same
    rw [← current,← node]
    exact lt_nextStamp has
  · intro row has
    exact committed ▸ inv.kept row has
  · intro u d row stage
    change row ∈ policiesOf (next.committed ++ next.pending d)
    dsimp only at stage
    by_cases own : u = t
    · subst own
      rw [Function.update_self] at stage
      obtain ⟨rfl,rfl⟩ := Stage.inserted.inj stage
      have all : next.committed ++ next.pending c = next.written := by
        rw [Database.written_of_writer holds,Database.pending,if_pos holds]
      rw [all,written]
      simp
    · rw [Function.update_of_ne own] at stage
      have more : s.db.pending d <+: (s.db.execute c Transaction.refused (uniqueCheck bundle) (.policy bundle)).1.pending d :=
        pending_execute _ _ _
      rw [done] at more
      rw [committed]
      exact (policiesOf_sublist ((List.prefix_append_right_inj _).mpr more)).subset (inv.inserted u d row stage)

theorem readGrants_inv (inv : Inv s) (t : τ) (c : γ) (nodeId : String) : Inv (readGrants s t c nodeId) := by
  unfold readGrants
  split
  · exact inv_frame inv rfl (update_stages (by simp)) (.refl _) (List.prefix_refl _) fun _ _ _ _ => List.prefix_refl _
  · exact inv

theorem readVersion_inv (inv : Inv s) (t : τ) : Inv (readVersion s t) := by
  unfold readVersion
  split
  · exact inv_frame inv rfl (update_stages (by simp)) (.refl _) (List.prefix_refl _) fun _ _ _ _ => List.prefix_refl _
  · exact inv

theorem insert_inv (inv : Inv s) (t : τ) (policyId masterKeyId : String) (now ttl : ℚ)
    (current : ∀ c nodeId grants stamp, s.stage t = .versioned c nodeId grants stamp →
      nextStamp s.db.written nodeId = stamp) : Inv (insert s t policyId masterKeyId now ttl) := by
  unfold insert
  split
  · rename_i c nodeId grants stamp versioned
    dsimp only
    split
    · rename_i next done
      exact insert_ok_inv inv done (current c nodeId grants stamp versioned)
    · rename_i next error done
      exact execute_inv inv done (by simp) (update_stages (by simp))
  · exact inv

theorem commit_inv (inv : Inv s) (t : τ) : Inv (commit s t) := by
  unfold commit
  split
  · rename_i c bundle stage
    have frame : Inv { s with db := s.db.commit c, stage := Function.update s.stage t .idle } :=
      inv_frame inv rfl (update_stages (by simp)) (congrArg policiesOf (written_commit s.db c) ▸ .refl _)
        (List.prefix_append _ _) fun _ _ _ _ => pending_commit
    refine ⟨frame.ordered,fun row has => ?_,frame.inserted⟩
    rcases List.mem_append.mp has with earlier | new
    · exact frame.kept row earlier
    · obtain rfl := List.mem_singleton.mp new
      exact inv.inserted t c row stage
  · exact inv

omit [DecidableEq τ] in
theorem rollback_inv (inv : Inv s) (c : γ) (free : ∀ t bundle, s.stage t ≠ .inserted c bundle) :
    Inv { s with db := s.db.rollback c } := by
  refine inv_frame inv rfl (fun _ _ _ same => same) (policiesOf_sublist written_rollback) (List.prefix_refl _) ?_
  intro t d bundle stage
  have other : c ≠ d := by
    rintro rfl
    exact free t bundle stage
  exact (Database.leave_other other).2 ▸ List.prefix_refl _

theorem step_inv (inv : Inv s) (act : Act γ τ) (current : Current s act) : Inv (step s act) := by
  cases act with
  | readGrants t c nodeId => exact readGrants_inv inv t c nodeId
  | readVersion t => exact readVersion_inv inv t
  | insert t policyId masterKeyId now ttl => exact insert_inv inv t policyId masterKeyId now ttl current
  | commit t => exact commit_inv inv t
  | begin c =>
    obtain ⟨written,committed⟩ : (s.db.beginImmediate c).1.written = s.db.written ∧ _ := written_beginImmediate
    refine inv_frame inv rfl (fun _ _ _ same => same) (congrArg policiesOf written ▸ .refl _)
      (committed ▸ List.prefix_refl _) ?_
    intro t d bundle _
    change _ <+: (s.db.beginImmediate c).1.committed ++ (s.db.beginImmediate c).1.pending d
    rw [committed,pending_beginImmediate]
  | changeGrants c change =>
    have adds : (Change.grants change : Change).policy? = none := rfl
    have done : s.db.execute c Transaction.refused (fun log => change.check log) (.grants change) = (_,_) := rfl
    exact execute_inv inv done (fun _ => adds) fun _ _ _ same => same
  | commitChanges c =>
    refine inv_frame inv rfl (fun _ _ _ same => same) ?_ (List.prefix_append _ _) fun _ _ _ _ => pending_commit
    exact congrArg policiesOf (written_commit s.db c) ▸ .refl _
  | rollback c => exact rollback_inv inv c current

omit [DecidableEq τ] in
theorem sound_of_inv (inv : Inv s) : Sound s := by
  have ordered : Ordered (policiesOf s.db.committed) :=
    inv.ordered.sublist (policiesOf_sublist (committed_written s.db))
  refine ⟨ordered,fun first has second has' node stamp => ?_⟩
  rw [ordered_unique ordered (inv.kept first has) (inv.kept second has') node stamp]

omit [DecidableEq τ] in
theorem start_inv : Inv (start : State γ τ) where
  ordered := .nil
  kept := by simp [start]
  inserted := by simp [start]

theorem run_inv (inv : Inv s) (acts : List (Act γ τ)) (current : AllCurrent s acts) : Inv (run s acts) := by
  induction acts generalizing s with
  | nil => exact inv
  | cons act acts ih => exact ih (step_inv inv act current.1) current.2

/-- In a run in which every bundle is inserted while the version that was read is the newest, the versions rise and
no two bundles share one. -/
theorem versions_sound (acts : List (Act γ τ)) (current : AllCurrent start acts) : Sound (run start acts) :=
  sound_of_inv (run_inv start_inv acts current)

def grantRow : GrantRow := ⟨"n",⟨"g","p","LIST_SERVICES","systemd_service","*",[],by simp [JsonText.Value.Fits]⟩,false⟩

/-- Two calls one after the other, and a grant between them. -/
def oneByOne : List (Act Bool Bool) :=
  [.readGrants false false "n",.readVersion false,.insert false "first" "k" 0 1,.commit false,
    .changeGrants true (.insert grantRow),.commitChanges true,
    .readGrants true true "n",.readVersion true,.insert true "second" "k" 1 1,.commit true]

theorem versions_sound_oneByOne : AllCurrent start oneByOne ∧ (run start oneByOne).returned.length = 2 ∧
    Sound (run start oneByOne) := by
  have current : AllCurrent start oneByOne := by
    refine ⟨trivial,trivial,?_,trivial,trivial,trivial,trivial,trivial,?_,trivial,trivial⟩ <;>
      intro c nodeId grants stamp versioned
    · obtain ⟨rfl,rfl,rfl,rfl⟩ := Stage.versioned.inj versioned
      decide
    · obtain ⟨rfl,rfl,rfl,rfl⟩ := Stage.versioned.inj versioned
      decide
  exact ⟨current,by decide,versions_sound oneByOne current⟩

/-- A grant is added and compiled after another call has read the grants and the version. -/
def crossed : List (Act Bool Bool) :=
  [.readGrants false false "n",.readVersion false,.changeGrants true (.insert grantRow),.commitChanges true,
    .readGrants true true "n",.readVersion true,.insert true "second" "k" 1 1,.commit true,
    .insert false "first" "k" 0 1,.commit false]

/-- Both get version one, with different rules. -/
theorem crossed_unsound : ¬Sound (run start crossed) := by
  intro sound
  have same := sound.2 _ (List.getElem_mem (n := 0) (by decide)) _ (List.getElem_mem (n := 1) (by decide)) (by decide)
    (by decide)
  exact absurd (congrArg List.length same) (by decide)

end Vigile.PolicyCompilation
