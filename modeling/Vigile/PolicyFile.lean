import Vigile.PolicyDocument
import Vigile.PolicyStore

/-! The worker's policy store with its file: the write that replaces the file by a rename, and
what an update and a load do where one of their steps fails. -/
namespace PolicyFile

open JsonText Go CanonicalJson ExecutionGrant PolicyBundle PolicyDocument

abbrev Files := String → Option (List Char)

inductive WriteError where
  | mkdir
  | createTemp
  | write
  | sync
  | close
  | chmod
  | rename
  deriving DecidableEq

/-- What the system answers to the calls of a write: the name of the temporary file, how much
of the data a write that fails has written, and which of the other calls succeed. -/
structure Answers where
  mkdirAll : Bool
  createTemp : Option String
  failedWrite : Option Nat
  sync : Bool
  close : Bool
  chmod : Bool
  rename : Bool
  remove : Bool

/-- A temporary file has a random name, which is not that of the file to replace. -/
def Answers.Fresh (answers : Answers) (filename : String) : Prop := answers.createTemp ≠ some filename

/-- From the write on, with the temporary file open. A rename is done as a whole or not at all. -/
def replaceFrom (answers : Answers) (tmpName filename : String) (data : List Char) (files : Files) :
    Files × Except WriteError Unit :=
  match answers.failedWrite with
  | some written => (Function.update files tmpName (some (data.take written)),.error .write)
  | none =>
    let files := Function.update files tmpName (some data)
    if answers.sync = false then (files,.error .sync)
    else if answers.close = false then (files,.error .close)
    else if answers.chmod = false then (files,.error .chmod)
    else if answers.rename = false then (files,.error .rename)
    else (Function.update (Function.update files filename (files tmpName)) tmpName none,.ok ())

/-- In the end the temporary file is removed, if it is there and the system does so. -/
def writeFileAtomic (answers : Answers) (filename : String) (data : List Char) (files : Files) :
    Files × Except WriteError Unit :=
  if answers.mkdirAll = false then (files,.error .mkdir)
  else
    match answers.createTemp with
    | none => (files,.error .createTemp)
    | some tmpName =>
      let (files,result) := replaceFrom answers tmpName filename data (Function.update files tmpName (some []))
      (if answers.remove then Function.update files tmpName none else files,result)

variable {filename : String}

theorem replaceFrom_spec (answers : Answers) {tmpName : String} (other : filename ≠ tmpName) (data : List Char)
    (files : Files) :
    (replaceFrom answers tmpName filename data files).1 filename =
      if (replaceFrom answers tmpName filename data files).2.isOk then some data else files filename := by
  unfold replaceFrom
  cases answers.failedWrite with
  | some written => exact Function.update_of_ne other _ _
  | none =>
    have written : Function.update files tmpName (some data) filename = files filename :=
      Function.update_of_ne other _ _
    have renamed : Function.update (Function.update (Function.update files tmpName (some data)) filename
        (Function.update files tmpName (some data) tmpName)) tmpName none filename = some data := by
      rw [Function.update_of_ne other,Function.update_self,Function.update_self]
    dsimp only
    cases answers.sync with
    | false => exact written
    | true =>
      cases answers.close with
      | false => exact written
      | true =>
        cases answers.chmod with
        | false => exact written
        | true =>
          cases answers.rename with
          | false => exact written
          | true => exact renamed

/-- The file holds the data afterwards if the write succeeds, and what it held before if not. -/
theorem writeFileAtomic_spec {answers : Answers} (fresh : answers.Fresh filename) (data : List Char)
    (files : Files) :
    (writeFileAtomic answers filename data files).1 filename =
      if (writeFileAtomic answers filename data files).2.isOk then some data else files filename := by
  unfold writeFileAtomic
  split
  · rfl
  · cases named : answers.createTemp with
    | none => rfl
    | some tmpName =>
      have other : filename ≠ tmpName := fun same => fresh (named.trans (congrArg some same.symm))
      have replaced := replaceFrom_spec answers other data (Function.update files tmpName (some []))
      rw [Function.update_of_ne other] at replaced
      dsimp only
      rw [← replaced]
      split
      · exact Function.update_of_ne other _ _
      · rfl

structure ActivePolicyState (Key : Type) where
  bundle : Document
  bundleHash : String
  appliedAt : Int
  masterPub : Option Key

structure Store (Key : Type) where
  filePath : String
  masterPub : Option Key
  nodeID : String
  activeState : Option (ActivePolicyState Key)

inductive StoreError where
  | refused (error : PolicyError)
  | persist (error : WriteError)
  | read
  | unmarshal
  | verification (error : PolicyError)
  deriving DecidableEq

section
variable {Key : Type} (platform : Platform) (verify : Key → List Char → List UInt8 → Bool) (hash : List Char → String)

structure World (Key : Type) where
  files : Files
  store : Store Key

def current (s : Store Key) : Option Bundle := s.activeState.map fun state => state.bundle.bundle

/-- The decoded numbers are finite, so that every bundle can be marshalled. -/
def updatePolicy (now appliedAt : Int) (bundle : Option Document) (answers : Answers) (w : World Key) :
    World Key × Except StoreError (ActivePolicyState Key) :=
  match verifyPolicyBundle platform (PolicyStore.verifyWith verify) now (bundle.map Document.bundle) (current w.store)
    w.store.masterPub w.store.nodeID, bundle with
  | .error error,_ => (w,.error (.refused error))
  | .ok (),none => (w,.error (.refused .missing))
  | .ok (),some bundle =>
    let data := marshal bundle.value
    match writeFileAtomic answers w.store.filePath data w.files with
    | (files,.error error) => ({ w with files := files },.error (.persist error))
    | (files,.ok ()) =>
      let state : ActivePolicyState Key := ⟨bundle,hash data,appliedAt,w.store.masterPub⟩
      (⟨files,{ w.store with activeState := some state }⟩,.ok state)

def loadFromDisk (now appliedAt : Int) (readable : Bool) (w : World Key) : World Key × Except StoreError Unit :=
  if readable = false then (w,.error .read)
  else
    match w.files w.store.filePath with
    | none => (w,.ok ())
    | some data =>
      match unmarshal data with
      | none => (w,.error .unmarshal)
      | some bundle =>
        let verified := if w.store.masterPub.isSome then
            verifyPolicyBundle platform (PolicyStore.verifyWith verify) now (some bundle.bundle) none w.store.masterPub
              w.store.nodeID
          else .ok ()
        match verified with
        | .error error => (w,.error (.verification error))
        | .ok () =>
          let state : ActivePolicyState Key := ⟨bundle,hash data,appliedAt,w.store.masterPub⟩
          ({ w with store := { w.store with activeState := some state } },.ok ())

/-- The store takes up a bundle, keeps the one it has, or starts again without one. -/
inductive Event where
  | update (now appliedAt : Int) (bundle : Option Document) (answers : Answers)
  | load (now appliedAt : Int) (readable : Bool)
  | restart

def step (w : World Key) : Event → World Key × Except StoreError Unit
  | .update now appliedAt bundle answers =>
    let (w,result) := updatePolicy platform verify hash now appliedAt bundle answers w
    (w,result.map fun _ => ())
  | .load now appliedAt readable => loadFromDisk platform verify hash now appliedAt readable w
  | .restart => ({ w with store := { w.store with activeState := none } },.ok ())

def run : List Event → World Key → World Key
  | [],w => w
  | event :: rest,w => run rest (step platform verify hash w event).1

def Event.Fresh (filePath : String) : Event → Prop
  | .update _ _ _ answers => answers.Fresh filePath
  | .load .. => True
  | .restart => True

def Superseded : List Event → World Key → Prop
  | [],_ => False
  | event :: rest,w =>
    (∃ now appliedAt bundle answers, event = .update now appliedAt bundle answers ∧
      (step platform verify hash w event).2 = .ok ()) ∨ Superseded rest (step platform verify hash w event).1

def Expired (now : Int) (bundle : Bundle) : Prop := 0 < bundle.expiresAt.value ∧ after now bundle.expiresAt

structure Kept (doc : Document) (s : Store Key) (w : World Key) : Prop where
  stored : w.files s.filePath = some (marshal doc.value)
  filePath : w.store.filePath = s.filePath
  masterPub : w.store.masterPub = s.masterPub
  nodeID : w.store.nodeID = s.nodeID

end

/-! What each call leaves -/

section
variable {Key : Type} {platform : Platform} {verify : Key → List Char → List UInt8 → Bool} {hash : List Char → String}

/-- An update writes and activates a bundle that it verified, or it fails and changes neither. -/
theorem updatePolicy_cases (now appliedAt : Int) (bundle : Option Document) {answers : Answers} {w : World Key}
    (fresh : answers.Fresh w.store.filePath) :
    (∃ given files, bundle = some given ∧
      verifyPolicyBundle platform (PolicyStore.verifyWith verify) now (some given.bundle) (current w.store)
        w.store.masterPub w.store.nodeID = .ok () ∧
      files w.store.filePath = some (marshal given.value) ∧
      updatePolicy platform verify hash now appliedAt bundle answers w =
        (⟨files,{ w.store with activeState := some ⟨given,hash (marshal given.value),appliedAt,w.store.masterPub⟩ }⟩,
          .ok ⟨given,hash (marshal given.value),appliedAt,w.store.masterPub⟩)) ∨
    ∃ files error, files w.store.filePath = w.files w.store.filePath ∧
      updatePolicy platform verify hash now appliedAt bundle answers w = ({ w with files := files },.error error) := by
  unfold updatePolicy
  cases verdict : verifyPolicyBundle platform (PolicyStore.verifyWith verify) now (bundle.map Document.bundle)
    (current w.store) w.store.masterPub w.store.nodeID with
  | error error => exact .inr ⟨w.files,.refused error,rfl,rfl⟩
  | ok =>
    cases bundle with
    | none => exact .inr ⟨w.files,.refused .missing,rfl,rfl⟩
    | some given =>
      have left := writeFileAtomic_spec fresh (marshal given.value) w.files
      dsimp only
      rcases written : writeFileAtomic answers w.store.filePath (marshal given.value) w.files with ⟨files,error | ⟨⟩⟩
      · rw [written] at left
        exact .inr ⟨files,.persist error,left,rfl⟩
      · rw [written] at left
        exact .inl ⟨given,files,rfl,verdict,left,rfl⟩

/-- A load leaves the files, and it fails without a change of the store. -/
theorem loadFromDisk_cases (now appliedAt : Int) (readable : Bool) (w : World Key) :
    (loadFromDisk platform verify hash now appliedAt readable w).1.files = w.files ∧
    (loadFromDisk platform verify hash now appliedAt readable w).1.store.filePath = w.store.filePath ∧
    (loadFromDisk platform verify hash now appliedAt readable w).1.store.masterPub = w.store.masterPub ∧
    (loadFromDisk platform verify hash now appliedAt readable w).1.store.nodeID = w.store.nodeID ∧
    ∀ error, (loadFromDisk platform verify hash now appliedAt readable w).2 = .error error →
      (loadFromDisk platform verify hash now appliedAt readable w).1 = w := by
  unfold loadFromDisk
  split
  · exact ⟨rfl,rfl,rfl,rfl,fun _ _ => rfl⟩
  · split
    · exact ⟨rfl,rfl,rfl,rfl,fun _ _ => rfl⟩
    · split
      · exact ⟨rfl,rfl,rfl,rfl,fun _ _ => rfl⟩
      · dsimp only
        split
        · exact ⟨rfl,rfl,rfl,rfl,fun _ _ => rfl⟩
        · exact ⟨rfl,rfl,rfl,rfl,fun _ impossible => by contradiction⟩

variable {bundle : Bundle} {masterPub : Option Key} {nodeID : String} {doc : Document} {s : Store Key}

theorem signed_of_accepted {now : Int} {policy : Option Bundle} (accepted : verifyPolicyBundle platform (PolicyStore.verifyWith verify) now (some bundle) policy
      masterPub nodeID = .ok ()) :
    bundle.nodeID = nodeID ∧ signatureCheck platform (PolicyStore.verifyWith verify) bundle masterPub = .ok () := by
  obtain ⟨compared,checked⟩ := PolicyStore.accepted_cases accepted
  unfold verifyPolicyBundle at accepted
  dsimp only at accepted
  split at accepted
  · contradiction
  · rename_i ours
    refine ⟨not_not.mp ours,?_⟩
    split at accepted
    · contradiction
    · rw [checked] at accepted
      cases policy with
      | none => exact accepted
      | some current =>
        dsimp only at accepted
        rw [compared current rfl] at accepted
        exact accepted

/-- No signature is good without a key. -/
theorem keyed_of_signed
    (signed : signatureCheck platform (PolicyStore.verifyWith verify) bundle masterPub = .ok ()) : masterPub.isSome := by
  cases masterPub with
  | some key => rfl
  | none =>
    have unverified (message : List Char) (sigBytes : List UInt8) :
        PolicyStore.verifyWith verify none message sigBytes = false := rfl
    unfold signatureCheck at signed
    split at signed
    · cases signed
    · split at signed
      · cases signed
      · rw [unverified,if_neg Bool.false_ne_true] at signed
        cases signed

/-- What is accepted once is accepted without a current policy, until it expires. -/
theorem accepted_later {now later : Int} {policy : Option Bundle}
    (accepted : verifyPolicyBundle platform (PolicyStore.verifyWith verify) now (some bundle) policy masterPub nodeID =
      .ok ()) (unexpired : ¬Expired later bundle) :
    verifyPolicyBundle platform (PolicyStore.verifyWith verify) later (some bundle) none masterPub nodeID = .ok () := by
  obtain ⟨ours,signed⟩ := signed_of_accepted accepted
  have checked := (PolicyStore.accepted_cases accepted).2
  unfold Expired at unexpired
  unfold verifyPolicyBundle
  dsimp only
  rw [if_neg (not_not.mpr ours),if_neg unexpired,checked]
  exact signed

theorem Kept.load {w : World Key} (kept : Kept doc s w) {now later : Int}
    {policy : Option Bundle} (loadedAt : Int)
    (accepted : verifyPolicyBundle platform (PolicyStore.verifyWith verify) now (some doc.bundle) policy s.masterPub
      s.nodeID = .ok ()) (unexpired : ¬Expired later doc.bundle) :
    loadFromDisk platform verify hash later loadedAt true w =
      ({ w with store := { w.store with
          activeState := some ⟨doc,hash (marshal doc.value),loadedAt,w.store.masterPub⟩ } },.ok ()) := by
  have again := accepted_later accepted unexpired
  have keyed := keyed_of_signed (signed_of_accepted accepted).2
  rw [← kept.masterPub] at keyed
  rw [← kept.masterPub,← kept.nodeID] at again
  have stored := kept.stored
  rw [← kept.filePath] at stored
  simp [loadFromDisk,stored,unmarshal_marshal,keyed,again]

theorem Kept.step {w : World Key} (kept : Kept doc s w) {event : Event}
    (fresh : event.Fresh s.filePath)
    (current : ¬∃ now appliedAt bundle answers, event = .update now appliedAt bundle answers ∧
      (PolicyFile.step platform verify hash w event).2 = .ok ()) :
    Kept doc s (PolicyFile.step platform verify hash w event).1 := by
  obtain ⟨stored,filePath,masterPub,nodeID⟩ := kept
  cases event with
  | restart => exact ⟨stored,filePath,masterPub,nodeID⟩
  | load now appliedAt readable =>
    obtain ⟨files,path,key,node,_⟩ := @loadFromDisk_cases Key platform verify hash now appliedAt readable w
    exact ⟨(congrFun files _).trans stored,path.trans filePath,key.trans masterPub,node.trans nodeID⟩
  | update now appliedAt bundle answers =>
    have there : answers.Fresh w.store.filePath := filePath ▸ fresh
    rcases @updatePolicy_cases Key platform verify hash now appliedAt bundle answers w there with
      ⟨given,files,_,_,_,updated⟩ | ⟨files,error,same,updated⟩
    · refine absurd ⟨now,appliedAt,bundle,answers,rfl,?_⟩ current
      simp only [PolicyFile.step,updated]
      rfl
    · simp only [PolicyFile.step,updated]
      rw [filePath] at same
      exact ⟨same.trans stored,filePath,masterPub,nodeID⟩

theorem Kept.run {w : World Key} (kept : Kept doc s w) {events : List Event}
    (fresh : ∀ event ∈ events, event.Fresh s.filePath) (current : ¬Superseded platform verify hash events w) :
    Kept doc s (PolicyFile.run platform verify hash events w) := by
  induction events generalizing w with
  | nil => exact kept
  | cons event events ih =>
    obtain ⟨first,rest⟩ := not_or.mp current
    have next := kept.step (fresh event List.mem_cons_self) first
    exact ih next (fun other member => fresh other (List.mem_cons_of_mem _ member)) rest

end

/-- What an update has taken up, a later load activates again, whatever happened since unless
another update succeeded or the bundle has expired. A call that fails leaves the active policy
and the stored file. -/
theorem updated_policy_durable {Key : Type} (platform : Platform) (verify : Key → List Char → List UInt8 → Bool)
    (hash : List Char → String) (now appliedAt : Int) (bundle : Option Document) (answers : Answers) (w : World Key)
    (fresh : answers.Fresh w.store.filePath) :
    (∀ state, (updatePolicy platform verify hash now appliedAt bundle answers w).2 = .ok state →
      ∀ events, (∀ event ∈ events, event.Fresh w.store.filePath) →
      ¬Superseded platform verify hash events (updatePolicy platform verify hash now appliedAt bundle answers w).1 →
      ∀ later loadedAt, ¬Expired later state.bundle.bundle →
      ∃ active, bundle = some active.bundle ∧
        (loadFromDisk platform verify hash later loadedAt true (run platform verify hash events
          (updatePolicy platform verify hash now appliedAt bundle answers w).1)).2 = .ok () ∧
        (loadFromDisk platform verify hash later loadedAt true (run platform verify hash events
          (updatePolicy platform verify hash now appliedAt bundle answers w).1)).1.store.activeState = some active) ∧
    (∀ error, (updatePolicy platform verify hash now appliedAt bundle answers w).2 = .error error →
      (updatePolicy platform verify hash now appliedAt bundle answers w).1.store = w.store ∧
      (updatePolicy platform verify hash now appliedAt bundle answers w).1.files w.store.filePath =
        w.files w.store.filePath) ∧
    ∀ loadedAt readable error, (loadFromDisk platform verify hash now loadedAt readable w).2 = .error error →
      (loadFromDisk platform verify hash now loadedAt readable w).1 = w := by
  refine ⟨?_,?_,fun loadedAt readable => (loadFromDisk_cases now loadedAt readable w).2.2.2.2⟩
  · intro state succeeded events freshes current later loadedAt unexpired
    rcases @updatePolicy_cases Key platform verify hash now appliedAt bundle answers w fresh with
      ⟨given,files,rfl,accepted,stored,updated⟩ | ⟨files,error,_,updated⟩
    · rw [updated] at succeeded current
      obtain rfl := Except.ok.inj succeeded
      have kept : Kept given w.store ⟨files,{ w.store with
          activeState := some ⟨given,hash (marshal given.value),appliedAt,w.store.masterPub⟩ }⟩ :=
        ⟨stored,rfl,rfl,rfl⟩
      have loaded := @Kept.load Key platform verify hash _ _ _ (kept.run freshes current) _ later _ loadedAt accepted
        unexpired
      rw [updated,loaded]
      exact ⟨_,rfl,rfl,rfl⟩
    · rw [updated] at succeeded
      contradiction
  · intro error failed
    rcases @updatePolicy_cases Key platform verify hash now appliedAt bundle answers w fresh with
      ⟨given,files,_,_,_,updated⟩ | ⟨files,_,same,updated⟩
    · rw [updated] at failed
      contradiction
    · rw [updated]
      exact ⟨rfl,same⟩

def logRule : PolicyRule where
  ruleID := "rule-1"
  pluginID := "journal"
  action := "READ_LOGS"
  target := ⟨"log_source","*"⟩
  limits := [("max_lines",.number (formatInt 500))]
  requiresHumanApproval := true

theorem logLimits_decoded : DecodedLimits logRule.limits := by
  have decoded : PolicySigning.decodedNumber (formatInt 500) = some (formatInt 500) := by decide +kernel
  refine ⟨?_,by simp [logRule,Value.Fits]⟩
  simp only [logRule,Value.canonical,canonicalFields,decoded]
  rfl

def logPolicy : Document where
  bundle := { PolicyStore.version 5 with rules := some [logRule] }
  recoveryProof := ""
  decoded := by
    rintro _ ⟨⟩ rule member
    rw [List.mem_singleton.mp member]
    exact logLimits_decoded

def emptyDisk : World Unit := ⟨fun _ => none,⟨"/etc/vigile/policy.json",some (),"node-100",none⟩⟩

def willing : Answers := ⟨true,some "/etc/vigile/.tmp-1",none,true,true,true,true,true⟩

theorem logPolicy_accepted : verifyPolicyBundle amd64 (PolicyStore.verifyWith PolicyStore.oneSignature) 1100
    (some logPolicy.bundle) none (some ()) "node-100" = .ok () := by
  decide +kernel

/-- The SHA-256 of the text of `logPolicy`. -/
def logDigest (_ : List Char) : String := "520bf137593d017f5cd558627ff12a19d801261f6469613c4cbd904d9484e3eb"

theorem logPolicy_activated : (updatePolicy amd64 PolicyStore.oneSignature logDigest 1100 1100 (some logPolicy) willing
    emptyDisk).2 = .ok ⟨logPolicy,logDigest (marshal logPolicy.value),1100,some ()⟩ := by
  have accepted : verifyPolicyBundle amd64 (PolicyStore.verifyWith PolicyStore.oneSignature) 1100
      ((some logPolicy).map Document.bundle) (current emptyDisk.store) emptyDisk.store.masterPub
      emptyDisk.store.nodeID = .ok () := logPolicy_accepted
  unfold updatePolicy
  rw [accepted]
  rfl

theorem logPolicy_durable : ∃ active, some logPolicy = some active.bundle ∧
    (loadFromDisk amd64 PolicyStore.oneSignature logDigest 1200 1200 true (run amd64 PolicyStore.oneSignature logDigest
      [.restart] (updatePolicy amd64 PolicyStore.oneSignature logDigest 1100 1100 (some logPolicy) willing
        emptyDisk).1)).2 = .ok () ∧
    (loadFromDisk amd64 PolicyStore.oneSignature logDigest 1200 1200 true (run amd64 PolicyStore.oneSignature logDigest
      [.restart] (updatePolicy amd64 PolicyStore.oneSignature logDigest 1100 1100 (some logPolicy) willing
        emptyDisk).1)).1.store.activeState = some active := by
  have fresh : willing.Fresh emptyDisk.store.filePath := by
    simp [Answers.Fresh,willing,emptyDisk]
  have early : after 1200 logPolicy.bundle.expiresAt = false := by decide +kernel
  have unexpired : ¬Expired 1200 logPolicy.bundle := fun expired =>
    Bool.false_ne_true (early.symm.trans expired.2)
  refine (updated_policy_durable amd64 PolicyStore.oneSignature logDigest 1100 1100 (some logPolicy) willing emptyDisk
    fresh).1 _ logPolicy_activated [.restart] (by simp [Event.Fresh]) ?_ 1200 1200 unexpired
  rintro (⟨_,_,_,_,impossible,_⟩ | impossible)
  · contradiction
  · exact impossible

end PolicyFile
