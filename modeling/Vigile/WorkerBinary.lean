import Mathlib.Data.List.Dedup
import Mathlib.Algebra.Order.Ring.Rat
import Vigile.Python

/-! The distribution of worker binaries: the cached, the static and the freshly fetched
file, and the caches of the manifest and the revocation list. A request runs without
another in between; what it fetches and when is up to the outside. -/
namespace Vigile.WorkerBinary
open Python

def supported : List (String × List String) :=
  [("linux",["amd64","arm64","armv7"]),("darwin",["amd64","arm64"]),
    ("freebsd",["amd64","arm64","armv7"]),("windows",["amd64"])]

/-- `normalize_arch`, for a lower-case argument. -/
def normalizeArch (arch : String) : String :=
  if arch = "" then "amd64"
  else if arch = "x86_64" then "amd64"
  else if arch = "aarch64" then "arm64"
  else if arch = "armv7l" ∨ arch = "arm" then "armv7"
  else arch

def validateOsArch (os arch : String) : Except PyError String :=
  let normArch := normalizeArch arch
  match supported.find? (·.1 = os) with
  | none => .error (.httpException 400 ("Unsupported OS: " ++ os ++ ". Must be one of: " ++
      ", ".intercalate (supported.map Prod.fst)))
  | some (_,archs) =>
    if archs.contains normArch then .ok normArch
    else .error (.httpException 400 ("Unsupported arch '" ++ arch ++ "' for OS '" ++ os ++
      "'. Must be one of: " ++ ", ".intercalate archs))

structure Binary where
  version : String
  deriving DecidableEq

structure BinaryInfo where
  os : String
  arch : String
  url : String

structure Manifest where
  version : Option String
  binaries : Option (List BinaryInfo)

def Manifest.truthy (m : Manifest) : Bool := m.version.isSome || m.binaries.isSome

structure Revocations where
  revoked : Option (List String)
  revokedAt : Option (List (String × String))

def Revocations.truthy (r : Revocations) : Bool := r.revoked.isSome || r.revokedAt.isSome

def Revocations.revokes (r : Revocations) (version : String) : Bool :=
  let revoked := r.revoked.getD []
  revoked.contains "*" || revoked.contains version

structure Settings where
  offlineMode : Bool
  cacheDir : String
  localDir : String
  cacheTtlSeconds : ℚ
  revocationTtlSeconds : ℚ

structure Cache (α : Type) where
  data : Option α
  fetchedAt : ℚ

/-- `cache["data"]`, when it is truthy and younger than the time to live. -/
def Cache.fresh {α : Type} (c : Cache α) (truthy : α → Bool) (now ttl : ℚ) : Option α :=
  c.data.filter fun value => truthy value && decide (now - c.fetchedAt < ttl)

structure CachedFile where
  binary : Binary
  mtime : ℚ

structure State where
  manifest : Cache Manifest
  revocations : Cache Revocations
  cached : String → String → Option CachedFile
  /-- `static/releases/worker-{os}-{arch}` -/
  static : String → String → Option Binary
  /-- The local directory of the offline mode. -/
  offline : String → String → Option Binary
  /-- `manifest.json` beside the static releases, or the one synthesised from them. -/
  localManifest : Option Manifest

structure Visit (α : Type) where
  now : ℚ
  answer : Except PyError α

structure Outside where
  checkedAt : ℚ
  manifest : Visit Manifest
  manifestAgain : Visit Manifest
  revocations : Visit Revocations
  /-- The file of a URL, when it arrives with a matching digest and signature. -/
  download : String → Except PyError Binary
  writtenAt : ℚ

variable (cfg : Settings)

def fetchManifest (s : State) (visit : Visit Manifest) : State × Except PyError Manifest :=
  match s.manifest.fresh Manifest.truthy visit.now cfg.cacheTtlSeconds with
  | some manifest => (s,.ok manifest)
  | none =>
    match visit.answer, s.localManifest.filter Manifest.truthy with
    | .ok manifest, _ | .error _, some manifest =>
      ({ s with manifest := ⟨some manifest,visit.now⟩ },.ok manifest)
    | .error error, none => (s,.error error)

def failOpen : Revocations := ⟨some [],some []⟩

def fetchRevocations (s : State) (visit : Visit Revocations) : State × Revocations :=
  match s.revocations.fresh Revocations.truthy visit.now cfg.revocationTtlSeconds with
  | some list => (s,list)
  | none =>
    match visit.answer with
    | .ok parsed => ({ s with revocations := ⟨some parsed,visit.now⟩ },parsed)
    | .error _ => (s,(s.revocations.data.filter Revocations.truthy).getD failOpen)

/-- A file response, or an error. -/
abbrev Served := Except PyError (Binary × String)

def filename (os arch : String) : String :=
  "vigile-worker-" ++ os ++ "-" ++ arch ++ (if os = "windows" then ".exe" else "")

def gone (version : String) : PyError :=
  .httpException 410 ("Version " ++ version ++ " has been revoked. Upgrade required.")

/-- The check of the manifest's version that precedes two of the three responses; the
Boolean says that the version is revoked. -/
def checkVersion (s : State) (o : Outside) (visit : Visit Manifest) : State × Except PyError Bool :=
  match fetchManifest cfg s visit with
  | (s,.error error) => (s,.error error)
  | (s,.ok manifest) =>
    let version := manifest.version.getD ""
    if version = "" then (s,.ok false)
    else
      let fetched := fetchRevocations cfg s o.revocations
      (fetched.1,.ok (fetched.2.revokes version))

/-- The version that a request names in its refusal. -/
def consulted (s : State) (visit : Visit Manifest) : String :=
  match (fetchManifest cfg s visit).2 with
  | .ok manifest => manifest.version.getD ""
  | .error _ => ""

def notFound (os arch : String) (manifest : Manifest) : PyError :=
  let names := ((manifest.binaries.getD []).map fun b => b.os ++ "/" ++ b.arch).mergeSort
  let available := names.dedup
  .httpException 404 ("No binary found for " ++ os ++ "/" ++ arch ++
    " in manifest. Available architectures: " ++
    (if available.isEmpty then "none" else ", ".intercalate available) ++
    ". Rebuild with ./scripts/build_worker.sh and redeploy.")

def State.cache (s : State) (os arch : String) (file : Option CachedFile) : State :=
  { s with cached := fun os' arch' => if os' = os ∧ arch' = arch then file else s.cached os' arch' }

def fetchAndCache (s : State) (o : Outside) (os arch : String) : State × Except PyError Binary :=
  match fetchManifest cfg s o.manifest with
  | (s,.error error) => (s,.error error)
  | (s,.ok manifest) =>
    match (manifest.binaries.getD []).find? (fun b => b.os = os ∧ b.arch = arch) with
    | none => (s,.error (notFound os arch manifest))
    | some info =>
      match o.download info.url with
      | .error error => (s,.error error)
      | .ok binary => (s.cache os arch (some ⟨binary,o.writtenAt⟩),.ok binary)

def freshFile (s : State) (o : Outside) (os arch : String) : Option Binary :=
  ((s.cached os arch).filter fun file =>
    decide (o.checkedAt - file.mtime < cfg.cacheTtlSeconds)).map CachedFile.binary

/-- The static file; a cache directory with `cache_empty` in its name hides it. -/
def staticFile (s : State) (os arch : String) : Option Binary :=
  if contains "cache_empty" cfg.cacheDir then none else s.static os arch

/-- The response with the file, unless the check has found its version revoked. -/
def respond (s : State) (visit : Visit Manifest) (os arch : String) (binary : Binary)
    (checked : State × Except PyError Bool) : State × Served :=
  match checked with
  | (after,.error error) => (after,.error error)
  | (after,.ok true) => (after,.error (gone (consulted cfg s visit)))
  | (after,.ok false) => (after,.ok (binary,filename os arch))

/-- `get_worker_binary` for a validated platform. -/
def serveBinary (s : State) (o : Outside) (os arch : String) : State × Served :=
  if cfg.offlineMode then
    match s.offline os arch with
    | some binary => (s,.ok (binary,filename os arch))
    | none => (s,.error (.httpException 404 ("No local binary found for " ++ os ++ "/" ++ arch ++
        " in offline mode at " ++ cfg.localDir ++ "/" ++ os ++ "/" ++ arch)))
  else
    match freshFile cfg s o os arch, staticFile cfg s os arch with
    | some binary, _ => respond cfg s o.manifest os arch binary (checkVersion cfg s o o.manifest)
    | none, some binary => (s,.ok (binary,filename os arch))
    | none, none =>
      match fetchAndCache cfg s o os arch with
      | (s,.error error) => (s,.error error)
      | (s,.ok binary) =>
        match respond cfg s o.manifestAgain os arch binary (checkVersion cfg s o o.manifestAgain) with
        | (after,.error error) =>
          -- Only a revoked version removes the file again.
          if (checkVersion cfg s o o.manifestAgain).2 matches .ok true then
            (after.cache os arch none,.error error)
          else (after,.error error)
        | served => served

def getWorkerBinary (s : State) (o : Outside) (os arch : String) : State × Served :=
  match validateOsArch os arch with
  | .error error => (s,.error error)
  | .ok normArch => serveBinary cfg s o os normArch

def State.held (s : State) : Revocations := s.revocations.data.getD failOpen

/-- The list that decides is the one held afterwards; where none is, nothing is revoked. -/
theorem fetchRevocations_held (s : State) (visit : Visit Revocations) (version : String) :
    (fetchRevocations cfg s visit).1.held.revokes version =
      (fetchRevocations cfg s visit).2.revokes version := by
  unfold fetchRevocations
  split
  case h_1 list fresh =>
    have held : s.revocations.data = some list := (Option.filter_eq_some_iff.mp fresh).1
    simp [State.held,held]
  case h_2 =>
    split
    · rfl
    · cases data : s.revocations.data with
      | none => simp [State.held,data]
      | some list =>
        by_cases truthy : list.truthy = true
        · simp [State.held,data,Option.filter,truthy]
        · have nothing : list.revoked = none := by
            simp only [Revocations.truthy,Bool.or_eq_true,not_or] at truthy
            simpa using truthy.1
          simp [State.held,data,Option.filter,truthy,Revocations.revokes,nothing,failOpen]

/-- Whatever the list held afterwards revokes of the version, it revokes of the version
that the request asks about. -/
def Covers (held : Revocations) (asked version : String) : Prop :=
  held.revokes version = true → asked ≠ "" ∧ held.revokes asked = true

/-- The check passes exactly when the version it asks about is empty or not revoked by the
list held then. -/
theorem checkVersion_ok (s : State) (o : Outside) (visit : Visit Manifest) {revoked : Bool}
    {after : State} (checked : checkVersion cfg s o visit = (after,.ok revoked)) :
    revoked = true ↔ consulted cfg s visit ≠ "" ∧ after.held.revokes (consulted cfg s visit) = true := by
  unfold checkVersion at checked
  unfold consulted
  split at checked
  case h_1 => cases checked
  case h_2 mid manifest fetched =>
    rw [fetched]
    dsimp only
    by_cases empty : manifest.version.getD "" = ""
    · rw [if_pos empty] at checked
      obtain ⟨rfl,same⟩ := Prod.mk.inj checked
      have passes := Except.ok.inj same
      simp [empty,← passes]
    · rw [if_neg empty] at checked
      obtain ⟨rfl,same⟩ := Prod.mk.inj checked
      rw [fetchRevocations_held,← Except.ok.inj same]
      simp [empty]

/-- The file that a request answers with if nothing stands against it, the state in which
its version is checked and the manifest's fetch of the check; a static file is not checked. -/
def answeredBy (s : State) (o : Outside) (os arch : String) :
    Option (Binary × Option (State × Visit Manifest)) :=
  match freshFile cfg s o os arch, staticFile cfg s os arch with
  | some binary, _ => some (binary,some (s,o.manifest))
  | none, some binary => some (binary,none)
  | none, none =>
    match fetchAndCache cfg s o os arch with
    | (_,.error _) => none
    | (after,.ok binary) => some (binary,some (after,o.manifestAgain))

/-- The condition on a request: the list it ends with revokes neither a static file, nor a
checked file without the version that is asked about. -/
def Covered (s : State) (o : Outside) (os arch : String) : Prop :=
  match answeredBy cfg s o os arch with
  | none => True
  | some (binary,none) => s.held.revokes binary.version = false
  | some (binary,some (before,visit)) =>
    ∀ after revoked, checkVersion cfg before o visit = (after,.ok revoked) →
      Covers after.held (consulted cfg before visit) binary.version

/-- A request answers with no file that the list it leaves revokes. -/
def Safe (answer : State × Served) : Prop :=
  ∀ binary name, answer.2 = .ok (binary,name) → answer.1.held.revokes binary.version = false

theorem respond_safe (s before : State) (o : Outside) (visit : Visit Manifest) (os arch : String)
    (binary : Binary) :
    Safe (respond cfg s visit os arch binary (checkVersion cfg before o visit)) ↔
      ∀ after, checkVersion cfg before o visit = (after,.ok false) →
        after.held.revokes binary.version = false := by
  constructor
  · intro safe after checked
    rw [checked] at safe
    exact safe binary _ rfl
  · intro passes served name answered
    unfold respond at answered ⊢
    split at answered
    case h_1 => cases answered
    case h_2 => cases answered
    case h_3 after checked =>
      obtain ⟨rfl,_⟩ := Prod.mk.inj (Except.ok.inj answered)
      exact passes after checked

/-- With the check in front a file is safe exactly when it is covered. -/
theorem checked_safe (before : State) (o : Outside) (visit : Visit Manifest) (version : String) :
    (∀ after, checkVersion cfg before o visit = (after,.ok false) →
        after.held.revokes version = false) ↔
      ∀ after revoked, checkVersion cfg before o visit = (after,.ok revoked) →
        Covers after.held (consulted cfg before visit) version := by
  constructor
  · intro passes after revoked checked listed
    have verdict := checkVersion_ok cfg before o visit checked
    cases revoked with
    | true => exact verdict.mp rfl
    | false =>
      rw [passes after checked] at listed
      cases listed
  · intro covers after checked
    have verdict := checkVersion_ok cfg before o visit checked
    by_contra listed
    have revoked := covers after false checked (by simpa using listed)
    exact absurd (verdict.mpr revoked) (by simp)

theorem serveBinary_safe (s : State) (o : Outside) (os arch : String) (online : cfg.offlineMode = false) :
    Safe (serveBinary cfg s o os arch) ↔ Covered cfg s o os arch := by
  unfold serveBinary Covered answeredBy
  rw [online]
  simp only [Bool.false_eq_true,if_false]
  split
  case h_1 _ _ binary _ =>
    rw [respond_safe]
    exact checked_safe cfg s o o.manifest binary.version
  case h_2 _ _ binary _ _ =>
    constructor
    · intro safe
      exact safe binary _ rfl
    · intro covered served name answered
      obtain ⟨rfl,_⟩ := Prod.mk.inj (Except.ok.inj answered)
      exact covered
  case h_3 =>
    split
    case h_1 => simp [Safe]
    case h_2 after binary fetched =>
      dsimp only
      rw [← checked_safe,← respond_safe cfg after after o o.manifestAgain os arch binary]
      split
      case h_1 error refused =>
        rw [refused]
        split <;> simp [Safe]
      case h_2 => rfl

/-! Sequences of requests, in between which time passes and lists are published. -/

inductive Op where
  | request (os arch : String) (o : Outside)
  | refresh
  /-- The build script replaces a static release. -/
  | release (os arch : String) (file : Option Binary) (manifest : Option Manifest)

def apply (s : State) : Op → State
  | .request os arch o => (getWorkerBinary cfg s o os arch).1
  | .refresh => { s with manifest := ⟨none,0⟩, revocations := ⟨none,0⟩ }
  | .release os arch file manifest => { s with
      static := fun os' arch' => if os' = os ∧ arch' = arch then file else s.static os' arch'
      localManifest := manifest }

def requests (s : State) : List Op → List (State × Outside × String × String)
  | [] => []
  | .request os arch o :: rest => (s,o,os,arch) :: requests (apply cfg s (.request os arch o)) rest
  | op :: rest => requests (apply cfg s op) rest

/-- No request of the sequence is answered with a file that the list held then revokes. -/
def AllSafe (s : State) (ops : List Op) : Prop :=
  ∀ request ∈ requests cfg s ops,
    Safe (getWorkerBinary cfg request.1 request.2.1 request.2.2.1 request.2.2.2)

def AllCovered (s : State) (ops : List Op) : Prop :=
  ∀ request ∈ requests cfg s ops, ∀ normArch,
    validateOsArch request.2.2.1 request.2.2.2 = .ok normArch →
    Covered cfg request.1 request.2.1 request.2.2.1 normArch

theorem getWorkerBinary_safe (s : State) (o : Outside) (os arch : String)
    (online : cfg.offlineMode = false) : Safe (getWorkerBinary cfg s o os arch) ↔
      ∀ normArch, validateOsArch os arch = .ok normArch → Covered cfg s o os normArch := by
  unfold getWorkerBinary
  cases valid : validateOsArch os arch with
  | error error => simp [Safe]
  | ok normArch =>
    rw [serveBinary_safe cfg s o os normArch online]
    constructor
    · intro covered other same
      rw [← Except.ok.inj same]
      exact covered
    · exact fun covered => covered normArch rfl

/-- Online no sequence of requests serves a revoked file if and only if every one of its
requests is covered. -/
theorem revoked_never_served (online : cfg.offlineMode = false) (s : State) (ops : List Op) :
    AllSafe cfg s ops ↔ AllCovered cfg s ops := by
  refine forall₂_congr fun request _ => ?_
  exact getWorkerBinary_safe cfg request.1 request.2.1 request.2.2.1 request.2.2.2 online

/-- A file that carries the version asked about is covered, whatever the lists say. -/
theorem covers_same (held : Revocations) (version : String) (named : version ≠ "") :
    Covers held version version := fun revoked => ⟨named,revoked⟩

def online : Settings := ⟨false,"/var/lib/vigile/cache","/var/lib/vigile/local",3600,300⟩

/-- The registry's manifest of version 1.2.0, and a list that revokes it. -/
def revokedRelease : Outside where
  checkedAt := 0
  manifest := ⟨0,.ok ⟨some "1.2.0",some [⟨"linux","arm64","https://registry/worker"⟩]⟩⟩
  manifestAgain := ⟨0,.ok ⟨some "1.2.0",none⟩⟩
  revocations := ⟨0,.ok ⟨some ["1.2.0"],none⟩⟩
  download := fun _ => .ok ⟨"1.2.0"⟩
  writtenAt := 0

/-- The static release of one platform is of that version too. -/
def released : State where
  manifest := ⟨none,0⟩
  revocations := ⟨none,0⟩
  cached := fun _ _ => none
  static := fun os arch => if os = "linux" ∧ arch = "amd64" then some ⟨"1.2.0"⟩ else none
  offline := fun _ _ => none
  localManifest := none

def twoPlatforms : List Op :=
  [.request "linux" "arm64" revokedRelease,.request "linux" "amd64" revokedRelease]

/-- The request of the first platform is covered: the file fetched is the manifest's. -/
theorem revoked_never_served_first :
    AllSafe online released [.request "linux" "arm64" revokedRelease] := by
  refine (revoked_never_served online rfl released _).mpr ?_
  intro request member normArch valid
  obtain rfl := List.mem_singleton.mp member
  obtain rfl : "arm64" = normArch := Except.ok.inj valid
  intro after revoked _
  have asked : consulted online (fetchAndCache online released revokedRelease "linux" "arm64").1
      revokedRelease.manifestAgain = "1.2.0" := by
    decide +kernel
  show Covers after.held (consulted online
    (fetchAndCache online released revokedRelease "linux" "arm64").1 revokedRelease.manifestAgain) "1.2.0"
  rw [asked]
  exact covers_same after.held "1.2.0" (by decide)

/-- One platform is refused, and the other gets the revoked release. -/
theorem revoked_served : ¬ AllSafe online released twoPlatforms := by
  intro safe
  have second := safe _ (List.mem_cons_of_mem _ List.mem_cons_self) ⟨"1.2.0"⟩
    "vigile-worker-linux-amd64" (by decide +kernel)
  revert second
  decide +kernel

end Vigile.WorkerBinary
