import Vigile.PolicyBundle

/-! The worker's policy store over its restarts. The file holds a bundle or nothing; a write
may fail, and the process may die right after the file is renamed. -/
namespace PolicyStore

open Go PolicyBundle

structure Store (Key : Type) where
  file : Option Bundle
  masterPub : Option Key
  nodeID : String
  activeState : Option Bundle

inductive Written where
  | done
  | failed
  | died
  deriving DecidableEq

inductive Event where
  | update (now : Int) (bundle : Option Bundle) (written : Written)
  | load (now : Int) (readable : Bool)
  | restart

section
variable {Key : Type} (platform : Platform) (verify : Key → List Char → List UInt8 → Bool)

def verifyWith (masterPub : Option Key) (message : List Char) (signature : List UInt8) : Bool :=
  masterPub.any fun key => verify key message signature

def updatePolicy (now : Int) (bundle : Option Bundle) (written : Written) (s : Store Key) :
    Store Key × Except PolicyError Bundle :=
  match verifyPolicyBundle platform (verifyWith verify) now bundle s.activeState s.masterPub s.nodeID, bundle with
  | .error error,_ => (s,.error error)
  | .ok (),none => (s,.error .missing)
  | .ok (),some bundle =>
    match written with
    | .done => ({ s with file := some bundle, activeState := some bundle },.ok bundle)
    | .failed => (s,.error .unpersisted)
    | .died => ({ s with file := some bundle, activeState := none },.error .unpersisted)

def loadFromDisk (now : Int) (readable : Bool) (s : Store Key) : Store Key × Except PolicyError (Option Bundle) :=
  match s.file with
  | none => (s,.ok none)
  | some bundle =>
    if readable = false then (s,.error .unreadable)
    else if s.masterPub.isSome then
      match verifyPolicyBundle platform (verifyWith verify) now (some bundle) none s.masterPub s.nodeID with
      | .error error => (s,.error error)
      | .ok () => ({ s with activeState := some bundle },.ok (some bundle))
    else ({ s with activeState := some bundle },.ok (some bundle))

def step (s : Store Key) : Event → Store Key × Option Bundle
  | .update now bundle written =>
    ((updatePolicy platform verify now bundle written s).1,(updatePolicy platform verify now bundle written s).2.toOption)
  | .load now readable =>
    ((loadFromDisk platform verify now readable s).1,
      (loadFromDisk platform verify now readable s).2.toOption.join)
  | .restart => ({ s with activeState := none },none)

def start (masterPub : Option Key) (nodeID : String) : Store Key := ⟨none,masterPub,nodeID,none⟩

/-- A bundle that need not continue the versions before it: no policy is active, it is a
recovery bundle, or it belongs to the same epoch of another key. -/
def exceptional (active : Option Bundle) (bundle : Bundle) : Bool :=
  bundle.isRecovery || active.all fun current =>
    bundle.policyEpoch = current.policyEpoch && bundle.masterKeyID ≠ current.masterKeyID

def since (s : Store Key) (recent : List Bundle) (event : Event) : List Bundle :=
  match event with
  | .restart => recent
  | .load now readable =>
    match (loadFromDisk platform verify now readable s).2 with
    | .ok (some bundle) => recent ++ [bundle]
    | _ => recent
  | .update now bundle written =>
    match verifyPolicyBundle platform (verifyWith verify) now bundle s.activeState s.masterPub s.nodeID, bundle with
    | .ok (),some bundle =>
      match written with
      | .failed => recent
      | .done => if exceptional s.activeState bundle then [bundle] else recent ++ [bundle]
      | .died => if exceptional s.activeState bundle then [] else recent
    | _,_ => recent

def run : List Event → Store Key × List Bundle → Store Key × List Bundle
  | [],state => state
  | event :: rest,(s,recent) => run rest ((step platform verify s event).1,since platform verify s recent event)

end

/-- Lexicographic comparison of epoch and version. -/
def Newer (bundle other : Bundle) : Prop :=
  other.policyEpoch.toInt < bundle.policyEpoch.toInt ∨
    (other.policyEpoch = bundle.policyEpoch ∧ other.policyVersion.toInt < bundle.policyVersion.toInt)

def AtMost (bundle other : Bundle) : Prop :=
  bundle.policyEpoch.toInt < other.policyEpoch.toInt ∨
    (bundle.policyEpoch = other.policyEpoch ∧ bundle.policyVersion.toInt ≤ other.policyVersion.toInt)

theorem AtMost.newer {first second third : Bundle} (below : AtMost first second) (above : Newer third second) :
    Newer third first := by
  unfold AtMost Newer at *
  rcases below with less | ⟨same,less⟩ <;> rcases above with more | ⟨equal,more⟩
  · exact .inl (by omega)
  · exact .inl (by rw [← equal]; exact less)
  · exact .inl (by rw [same]; exact more)
  · exact .inr ⟨same.trans equal,by omega⟩

theorem Newer.atMost {bundle other : Bundle} (newer : Newer bundle other) : AtMost other bundle := by
  rcases newer with less | ⟨same,less⟩
  · exact .inl less
  · exact .inr ⟨same,by omega⟩

theorem AtMost.refl (bundle : Bundle) : AtMost bundle bundle := .inr ⟨rfl,Int.le_refl _⟩

/-- A bundle that passes the comparison is newer, unless it is an exception. -/
theorem newer_of_antiRollback {bundle current : Bundle} (passed : antiRollback bundle current = .ok ())
    (plain : exceptional (some current) bundle = false) : Newer bundle current := by
  simp only [exceptional,Option.all_some,Bool.or_eq_false_iff,Bool.and_eq_false_iff,decide_eq_false_iff_not,
    not_not] at plain
  obtain ⟨regular,keyed⟩ := plain
  unfold antiRollback at passed
  simp only [regular,Bool.false_eq_true,not_false_eq_true,and_true] at passed
  split at passed
  · rename_i same
    split at passed
    · contradiction
    · rename_i above
      rw [Int64.le_iff_toInt_le] at above
      exact .inr ⟨same.2.symm,by omega⟩
  · rename_i other
    split at passed
    · contradiction
    · rename_i above
      rw [Int64.lt_iff_toInt_lt] at above
      have differ : bundle.policyEpoch ≠ current.policyEpoch := by
        intro same
        rcases keyed with away | key
        · exact away same
        · exact other ⟨key,same⟩
      have apart : bundle.policyEpoch.toInt ≠ current.policyEpoch.toInt :=
        fun same => differ (Int64.toInt_inj.mp same)
      exact .inl (by omega)

section
variable {Key : Type} {platform : Platform} {verify : Key → List Char → List UInt8 → Bool}

theorem accepted_cases {now : Int} {bundle : Bundle} {current : Option Bundle} {masterPub : Option Key}
    {nodeID : String} (accepted : verifyPolicyBundle platform (verifyWith verify) now (some bundle) current masterPub
      nodeID = .ok ()) :
    (∀ policy, current = some policy → antiRollback bundle policy = .ok ()) ∧ recoveryChecks bundle = .ok () := by
  unfold verifyPolicyBundle at accepted
  dsimp only at accepted
  split at accepted
  · contradiction
  · split at accepted
    · contradiction
    · constructor
      · rintro policy rfl
        dsimp only at accepted
        cases passed : antiRollback bundle policy with
        | ok => rfl
        | error error =>
          rw [passed] at accepted
          contradiction
      · cases passed : recoveryChecks bundle with
        | ok => rfl
        | error error =>
          rw [passed] at accepted
          cases current with
          | none => contradiction
          | some policy =>
            dsimp only at accepted
            cases compared : antiRollback bundle policy with
            | error | ok => rw [compared] at accepted; contradiction

theorem recovery_approved {bundle : Bundle} (recovery : bundle.isRecovery = true)
    (passed : recoveryChecks bundle = .ok ()) :
    2 ≤ bundle.approvedByAdmins.length ∧ bundle.recoveryTicketID ≠ "" := by
  unfold recoveryChecks at passed
  rw [if_pos recovery] at passed
  split at passed
  · contradiction
  · split at passed
    · contradiction
    · exact ⟨by omega,‹_›⟩

/-- What an update does. -/
theorem updatePolicy_cases (now : Int) (bundle : Option Bundle) (written : Written) (s : Store Key) :
    (∃ given, bundle = some given ∧ written ≠ .failed ∧
      verifyPolicyBundle platform (verifyWith verify) now bundle s.activeState s.masterPub s.nodeID = .ok ()) ∨
    ((updatePolicy platform verify now bundle written s).1 = s ∧
      (updatePolicy platform verify now bundle written s).2.toOption = none ∧
      ∀ recent, since platform verify s recent (.update now bundle written) = recent) := by
  cases verdict : verifyPolicyBundle platform (verifyWith verify) now bundle s.activeState s.masterPub s.nodeID with
  | error error =>
    refine .inr ⟨?_,?_,?_⟩
    · simp only [updatePolicy,verdict]
    · simp only [updatePolicy,verdict]
      rfl
    · intro recent
      simp only [since,verdict]
  | ok =>
    cases bundle with
    | none => contradiction
    | some given =>
      cases written with
      | failed =>
        refine .inr ⟨?_,?_,?_⟩
        · simp only [updatePolicy,verdict]
        · simp only [updatePolicy,verdict]
          rfl
        · intro recent
          simp only [since,verdict]
      | done | died => exact .inl ⟨given,rfl,by decide,rfl⟩

theorem loadFromDisk_cases (now : Int) (readable : Bool) (s : Store Key) :
    (∃ bundle, s.file = some bundle ∧
      loadFromDisk platform verify now readable s = ({ s with activeState := some bundle },.ok (some bundle))) ∨
    ∃ result, loadFromDisk platform verify now readable s = (s,result) ∧ ∀ bundle, result ≠ .ok (some bundle) := by
  unfold loadFromDisk
  cases stored : s.file with
  | none => exact .inr ⟨.ok none,rfl,by simp⟩
  | some bundle =>
    dsimp only
    split
    · exact .inr ⟨.error .unreadable,rfl,by simp⟩
    · split
      · split
        · exact .inr ⟨_,rfl,by simp⟩
        · exact .inl ⟨bundle,rfl,rfl⟩
      · exact .inl ⟨bundle,rfl,rfl⟩

/-- An active policy is the stored one, and the stored one is at least as new as the policies
since the last exception. -/
structure Ordered (s : Store Key) (recent : List Bundle) : Prop where
  stored : ∀ policy, s.activeState = some policy → s.file = some policy
  newest : ∀ policy, s.file = some policy → ∀ earlier ∈ recent, AtMost earlier policy
  empty : s.file = none → recent = []

theorem ordered_start (masterPub : Option Key) (nodeID : String) : Ordered (start masterPub nodeID) [] := by
  constructor
  · intro policy active
    contradiction
  · intro policy stored
    contradiction
  · intro _
    rfl

def Progress (s : Store Key) (recent : List Bundle) (event : Event) (activated : Bundle) : Prop :=
  match event with
  | .update .. =>
    (exceptional s.activeState activated = false → ∀ earlier ∈ recent, Newer activated earlier) ∧
    (activated.isRecovery = true → 2 ≤ activated.approvedByAdmins.length ∧ activated.recoveryTicketID ≠ "")
  | .load .. => s.file = some activated ∧ ∀ earlier ∈ recent, AtMost earlier activated
  | .restart => False

theorem atMost_concat {recent : List Bundle} {policy : Bundle} (newest : ∀ earlier ∈ recent, AtMost earlier policy) :
    ∀ earlier ∈ recent ++ [policy], AtMost earlier policy := by
  intro earlier member
  rcases List.mem_append.mp member with old | same
  · exact newest earlier old
  · rw [List.mem_singleton.mp same]
    exact AtMost.refl policy

theorem Ordered.step {s : Store Key} {recent : List Bundle} (ordered : Ordered s recent) (event : Event) :
    Ordered (step platform verify s event).1 (since platform verify s recent event) ∧
    ∀ activated, (step platform verify s event).2 = some activated → Progress s recent event activated := by
  cases event with
  | restart =>
    refine ⟨⟨?_,ordered.newest,ordered.empty⟩,?_⟩
    · intro policy active
      contradiction
    · intro activated impossible
      contradiction
  | load now readable =>
    rcases @loadFromDisk_cases Key platform verify now readable s with ⟨bundle,stored,loaded⟩ | ⟨result,loaded,other⟩
    · simp only [PolicyStore.step,since,loaded]
      refine ⟨⟨?_,?_,?_⟩,?_⟩
      · rintro policy ⟨⟩
        exact stored
      · intro policy same
        obtain rfl := Option.some.inj (stored.symm.trans same)
        exact atMost_concat (ordered.newest bundle stored)
      · intro missing
        rw [stored] at missing
        contradiction
      · rintro activated ⟨⟩
        exact ⟨stored,ordered.newest bundle stored⟩
    · have same : since platform verify s recent (.load now readable) = recent := by
        simp only [since,loaded]
      have none : (PolicyStore.step platform verify s (.load now readable)).2 = none := by
        simp only [PolicyStore.step,loaded]
        cases result with
        | error => rfl
        | ok found =>
          cases found with
          | none => rfl
          | some bundle => exact absurd rfl (other bundle)
      rw [same,none]
      refine ⟨?_,by simp⟩
      simp only [PolicyStore.step,loaded]
      exact ordered
  | update now bundle written =>
    rcases @updatePolicy_cases Key platform verify now bundle written s with
      ⟨given,rfl,persisted,accepted⟩ | ⟨same,none,unchanged⟩
    · obtain ⟨compared,checked⟩ := accepted_cases accepted
      -- the bundle continues the versions before it unless it is an exception
      have continues : exceptional s.activeState given = false → ∀ earlier ∈ recent, Newer given earlier := by
        intro plain earlier member
        cases active : s.activeState with
        | none =>
          rw [active] at plain
          simp [exceptional] at plain
        | some policy =>
          rw [active] at plain
          have newer := newer_of_antiRollback (compared policy active) plain
          exact (ordered.newest policy (ordered.stored policy active) earlier member).newer newer
      cases written with
      | failed => contradiction
      | done =>
        simp only [PolicyStore.step,updatePolicy,since,accepted]
        refine ⟨⟨?_,?_,?_⟩,?_⟩
        · exact fun policy same => same
        · rintro policy ⟨⟩
          split
          · intro earlier member
            rw [List.mem_singleton.mp member]
            exact AtMost.refl _
          · apply atMost_concat
            exact fun earlier member => (continues (Bool.eq_false_iff.mpr ‹_›) earlier member).atMost
        · intro missing
          contradiction
        · rintro activated ⟨⟩
          exact ⟨continues,fun recovery => recovery_approved recovery checked⟩
      | died =>
        simp only [PolicyStore.step,updatePolicy,since,accepted]
        refine ⟨⟨?_,?_,?_⟩,?_⟩
        · intro policy active
          contradiction
        · rintro policy ⟨⟩
          split
          · simp
          · exact fun earlier member => (continues (Bool.eq_false_iff.mpr ‹_›) earlier member).atMost
        · intro missing
          contradiction
        · intro activated impossible
          contradiction
    · rw [unchanged]
      simp only [PolicyStore.step,same,none]
      exact ⟨ordered,by simp⟩

theorem ordered_run {state : Store Key × List Bundle} (ordered : Ordered state.1 state.2) (events : List Event) :
    Ordered (run platform verify events state).1 (run platform verify events state).2 := by
  induction events generalizing state with
  | nil => exact ordered
  | cons event events ih =>
    apply ih
    exact (ordered.step event).1

end

/-- A key that takes one signature for all bundles. -/
def oneSignature (_ : Unit) (_ : List Char) (signature : List UInt8) : Bool := signature = [105]

def version (number : Int64) : Bundle where
  policyID := "pol-100"
  nodeID := "node-100"
  masterKeyID := "key-1"
  policyEpoch := 1
  policyVersion := number
  issuedAt := ExecutionGrant.reload.approvedAt
  expiresAt := ExecutionGrant.reload.expiresAt
  isRecovery := false
  recoveryTicketID := ""
  approvedByAdmins := []
  rules := some []
  signature := "aQ"

def recovered (number : Int64) : Bundle :=
  { version number with isRecovery := true, recoveryTicketID := "T-1", approvedByAdmins := ["alice","bob"] }

def fresh : Store Unit := start (some ()) "node-100"

def holding (bundle : Bundle) : Store Unit := ⟨some bundle,some (),"node-100",some bundle⟩

theorem fifth_accepted : verifyPolicyBundle CanonicalJson.amd64 (verifyWith oneSignature) 1100 (some (version 5)) none
    (some ()) "node-100" = .ok () := by
  decide +kernel

theorem recovery_accepted : verifyPolicyBundle CanonicalJson.amd64 (verifyWith oneSignature) 1100 (some (recovered 1))
    (some (version 5)) (some ()) "node-100" = .ok () := by
  decide +kernel

theorem second_accepted : verifyPolicyBundle CanonicalJson.amd64 (verifyWith oneSignature) 1100 (some (version 2))
    (some (recovered 1)) (some ()) "node-100" = .ok () := by
  decide +kernel

theorem fifth_activated :
    step CanonicalJson.amd64 oneSignature fresh (.update 1100 (some (version 5)) .done) =
      (holding (version 5),some (version 5)) := by
  simp only [step,updatePolicy,fresh,start,fifth_accepted]
  rfl

theorem recovery_activated :
    step CanonicalJson.amd64 oneSignature (holding (version 5)) (.update 1100 (some (recovered 1)) .done) =
      (holding (recovered 1),some (recovered 1)) := by
  simp only [step,updatePolicy,holding,recovery_accepted]
  rfl

theorem second_activated :
    step CanonicalJson.amd64 oneSignature (holding (recovered 1)) (.update 1100 (some (version 2)) .done) =
      (holding (version 2),some (version 2)) := by
  simp only [step,updatePolicy,holding,second_accepted]
  rfl

def activations {Key : Type} (platform : Platform) (verify : Key → List Char → List UInt8 → Bool) :
    List Event → Store Key → List Bundle
  | [],_ => []
  | event :: rest,s => (step platform verify s event).2.toList ++
      activations platform verify rest (step platform verify s event).1

end PolicyStore
