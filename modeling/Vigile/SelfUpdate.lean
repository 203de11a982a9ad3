import Mathlib.Data.Rat.Defs
import Mathlib.Data.List.Basic

/-! The self-update of a worker: the pending marker, the promotion of a staged binary and the
automated rollback, on a disk whose every operation may fail or be the last of the process. -/
namespace Vigile.SelfUpdate

structure UpdatePendingState where
  updatedAt : ℚ
  confirmed : Bool
  attempts : Nat
  deriving DecidableEq

inductive Op where
  | mkdirAll (path : String)
  | remove (path : String)
  | rename (source target : String)
  | copyFile (source target : String)
  | chmod (path : String)
  | stat (path : String)
  | symlink (text path : String)
  | writePending (state : UpdatePendingState)
  | removePending
  deriving DecidableEq

/-- How an operation goes. A copy that fails, or that the process does not survive, may leave
something at its target. -/
inductive Outcome (β : Type) where
  | ok
  | fails (left : Option β)
  | dies (left : Option β)
  deriving DecidableEq

/-- Regular files and symbolic links by their paths, whether `/var/lib/vigile` is there, the marker
in it and the one in `/tmp`, and what the current call has done. -/
structure Disk (β : Type) where
  files : String → Option β
  links : String → Option String
  varDir : Bool
  pending : Bool → Option UpdatePendingState
  log : List Op

inductive Program where
  | ret (value : Bool)
  | op (operation : Op) (next : Bool → Program)
  | readlink (path : String) (next : Option String → Program)

section

def vigileDir : String := "/var/lib/vigile"
def releasesDir : String := "/var/lib/vigile/releases"
def currentLink : String := "/var/lib/vigile/worker.current"
def previousLink : String := "/var/lib/vigile/worker.previous"
def currentLinkTmp : String := "/var/lib/vigile/worker.current.tmp"
def stagingDir : String := "/var/lib/vigile/staging"
def fallbackStagingDir : String := "/tmp/vigile-staging"

def dir (path : String) : String :=
  match (path.toList.reverse.dropWhile (· ≠ '/')).tail.reverse with
  | [] => "/"
  | chars => String.ofList chars

def join (dir name : String) : String := if dir = "/" then "/" ++ name else dir ++ "/" ++ name

def backupPath (execPath : String) : String := execPath ++ ".previous"
def restorePath (execPath : String) : String := execPath ++ ".restore.tmp"

end

namespace Disk
variable {β : Type} [Inhabited β]

def setFile (d : Disk β) (path : String) (content : Option β) : Disk β :=
  {d with files := fun p => if p = path then content else d.files p}

def setLink (d : Disk β) (path : String) (text : Option String) : Disk β :=
  {d with links := fun p => if p = path then text else d.links p}

def marker (d : Disk β) : Option UpdatePendingState := d.pending d.varDir

def setMarker (d : Disk β) (state : Option UpdatePendingState) : Disk β :=
  {d with pending := fun place => if place = d.varDir then state else d.pending place}

/-- The operation where nothing goes wrong; what is not there cannot be moved, copied or removed, and a file copied
onto itself is empty, which is the default content. -/
def effect (d : Disk β) : Op → Disk β × Bool
  | .mkdirAll _ => ({d with varDir := true},true)
  | .remove path =>
    if d.files path = none ∧ d.links path = none then (d,false)
    else ((d.setFile path none).setLink path none,true)
  | .rename source target =>
    if d.files source = none ∧ d.links source = none then (d,false)
    else if source = target then (d,true)
    else ((((d.setFile target (d.files source)).setLink target (d.links source)).setFile source none).setLink source none,true)
  | .copyFile source target =>
    match d.files source with
    | some content => (d.setFile target (some (if source = target then default else content)),true)
    | none => (d,false)
  | .chmod _ => (d,true)
  | .stat path => (d,(d.files path).isSome)
  | .symlink text path =>
    if d.files path = none ∧ d.links path = none then (d.setLink path (some text),true) else (d,false)
  | .writePending state => (d.setMarker (some state),true)
  | .removePending => (d.setMarker none,d.marker.isSome)

def spoil (d : Disk β) (operation : Op) (left : Option β) : Disk β :=
  match operation,left with
  | .copyFile _ target, some content => d.setFile target (some content)
  | _, _ => d

/-- The operation, remembered where it has gone well. -/
def perform (d : Disk β) (operation : Op) : Disk β :=
  if (d.effect operation).2 then {(d.effect operation).1 with log := (d.effect operation).1.log ++ [operation]}
  else (d.effect operation).1

def run (outcome : Op → Outcome β) : Program → Disk β → Disk β × Option Bool
  | .ret value, d => (d,some value)
  | .readlink path next, d => run outcome (next (d.links path)) d
  | .op operation next, d =>
    match outcome operation with
    | .dies left => (d.spoil operation left,none)
    | .fails left => run outcome (next false) (d.spoil operation left)
    | .ok => run outcome (next (d.effect operation).2) (d.perform operation)

end Disk

def linkRelease (target : String) : Program :=
  .op (.remove previousLink) fun _ =>
  .readlink currentLink fun curTarget =>
  let promote : Program :=
    .op (.remove currentLinkTmp) fun _ =>
    .op (.symlink target currentLinkTmp) fun linked =>
    if linked then .op (.rename currentLinkTmp currentLink) fun _ => .ret true else .ret true
  match curTarget with
  | some text => .op (.symlink text previousLink) fun _ => promote
  | none => promote

def replaceExecutable (target execPath : String) : Program :=
  if execPath ≠ "" ∧ execPath ≠ currentLink then
    .op (.remove (backupPath execPath)) fun _ =>
    .op (.rename execPath (backupPath execPath)) fun _ =>
    .op (.copyFile target execPath) fun copied =>
    if copied then linkRelease target
    else .op (.rename (backupPath execPath) execPath) fun _ => .ret false
  else linkRelease target

/-- Whether it returns without an error. -/
def promoteStagedRelease (stagedPath version execPath : String) : Program :=
  .op (.mkdirAll releasesDir) fun made =>
  let target := join (if made then releasesDir else dir execPath) ("worker-" ++ version)
  .op (.remove target) fun _ =>
  .op (.rename stagedPath target) fun moved =>
  let rest : Program := .op (.chmod target) fun _ => replaceExecutable target execPath
  if moved then rest
  else
    .op (.copyFile stagedPath target) fun copied =>
    if copied then .op (.remove stagedPath) fun _ => rest else .ret false

def UpdatePendingState.next (state : UpdatePendingState) : UpdatePendingState :=
  {state with attempts := state.attempts + 1}

/-- Older than a minute, or at the fifth start. -/
def UpdatePendingState.due (state : UpdatePendingState) (now : ℚ) : Prop :=
  5 ≤ state.next.attempts ∨ 60 < now - state.updatedAt

instance (state : UpdatePendingState) (now : ℚ) : Decidable (state.due now) :=
  inferInstanceAs (Decidable (_ ∨ _))

def restoreLink : Program :=
  let removeMarker : Program := .op .removePending fun _ => .ret true
  .readlink previousLink fun prevTarget =>
  match prevTarget.filter (· ≠ "") with
  | some text =>
    .readlink currentLink fun current =>
    .op (.remove currentLink) fun removed =>
    if removed ∨ current = none then .op (.symlink text currentLink) fun _ => removeMarker else removeMarker
  | none => removeMarker

def restoreExecutable (execPath : String) : Program :=
  .op (.stat (backupPath execPath)) fun there =>
  if there ∧ execPath ≠ "" then
    .op (.copyFile (backupPath execPath) (restorePath execPath)) fun copied =>
    if copied then .op (.rename (restorePath execPath) execPath) fun _ => restoreLink else restoreLink
  else restoreLink

def checkAndRollbackIfFailed (execPath : String) (now : ℚ) : Option UpdatePendingState → Program
  | none => .ret false
  | some state =>
    if state.confirmed then .op .removePending fun _ => .ret false
    else
      .op (.writePending state.next) fun _ =>
      if state.due now then restoreExecutable execPath else .ret false

/-- A host with its worker process: the binary it runs, the updates it has staged and those past
their marker, by their staged paths, and what ran before the last promotion that nobody confirmed. -/
structure Host (β : Type) where
  disk : Disk β
  running : Option β
  staged : List String
  marked : List String
  unconfirmed : Option β

inductive Event (β : Type) where
  | stage (content : β) (made : Bool)
  | mark (path : String) (now : ℚ) (written : Bool)
  | promote (path : String) (outcome : Op → Outcome β)
  /-- An operational phase begins; whether `ConfirmUpdate` succeeds. -/
  | connect (confirmed : Bool)
  | stop
  | start (now : ℚ) (outcome : Op → Outcome β)

section
variable {β : Type} [Inhabited β] (execPath : String)

def stagedPath (made : Bool) : String := join (if made then stagingDir else fallbackStagingDir) "worker-latest.tmp"

def releasePaths : List String := [join releasesDir "worker-latest",join (dir execPath) "worker-latest"]

def promoted (path : String) (outcome : Op → Outcome β) (d : Disk β) : Disk β × Option Bool :=
  Disk.run outcome (promoteStagedRelease path "latest" execPath) {d with log := []}

def checked (now : ℚ) (outcome : Op → Outcome β) (d : Disk β) : Disk β × Option Bool :=
  Disk.run outcome (checkAndRollbackIfFailed execPath now d.marker) {d with log := []}

/-- A copy has put a release at the path of the executable. -/
def Disk.Promoted (d : Disk β) : Prop := ∃ release ∈ releasePaths execPath, .copyFile release execPath ∈ d.log

def Disk.Replaced (d : Disk β) : Prop := .rename (restorePath execPath) execPath ∈ d.log

instance (d : Disk β) : Decidable (d.Promoted execPath) := inferInstanceAs (Decidable (∃ release ∈ _, _))

instance (d : Disk β) : Decidable (d.Replaced execPath) := inferInstanceAs (Decidable (_ ∈ _))

def step (w : Host β) : Event β → Option (Host β)
  | .stage content made =>
    match w.running with
    | some _ => some {w with
        disk := {w.disk.setFile (stagedPath made) (some content) with varDir := w.disk.varDir || made}
        staged := w.staged ++ [stagedPath made]}
    | none => none
  | .mark path now written =>
    if path ∈ w.staged then
      some {w with
        disk := if written then w.disk.setMarker (some ⟨now,false,0⟩) else w.disk
        staged := w.staged.erase path
        marked := w.marked ++ [path]}
    else none
  | .promote path outcome =>
    if path ∈ w.marked then
      let (d,result) := promoted execPath path outcome w.disk
      let unconfirmed := if d.Promoted execPath then w.running else w.unconfirmed
      match result with
      | some _ => some {w with disk := d, marked := w.marked.erase path, unconfirmed}
      | none => some ⟨d,none,[],[],unconfirmed⟩
    else none
  | .connect confirmed =>
    match w.running with
    | some _ => if confirmed then some {w with disk := w.disk.setMarker none, unconfirmed := none} else some w
    | none => none
  | .stop => some {w with running := none, staged := [], marked := []}
  | .start now outcome =>
    match w.running,w.disk.files execPath with
    | none, some binary =>
      let (d,result) := checked execPath now outcome w.disk
      let unconfirmed := if d.Replaced execPath then none else w.unconfirmed
      match result with
      | some false => some {w with disk := d, running := some binary, unconfirmed}
      | _ => some {w with disk := d, unconfirmed}
    | _, _ => none

def installed (binary : β) : Host β :=
  ⟨⟨fun path => if path = execPath then some binary else none,fun _ => none,false,fun _ => none,[]⟩,none,[],[],none⟩

/-- Where the rollback replaces the executable, that is an update nobody has confirmed, and what ran
before it is back. -/
def LawfulRun (w : Host β) : List (Event β) → Prop
  | [] => True
  | event :: events =>
    ∀ w' ∈ step execPath w event,
      (∀ now outcome, event = .start now outcome → w'.disk.Replaced execPath →
        ∃ before, w.unconfirmed = some before ∧ w'.disk.files execPath = some before) ∧
      LawfulRun w' events

def linkPaths : List String := [previousLink,currentLink,currentLinkTmp]

def Op.OnLinks : Op → Prop
  | .remove path => path ∈ linkPaths
  | .symlink _ _ => True
  | .rename source target => source = currentLinkTmp ∧ target = currentLink
  | _ => False

/-- The promotion of this staged binary gets the release in place: nothing that this needs fails,
and the process lives until then. -/
structure GoesThrough (path : String) (outcome : Op → Outcome β) (w : Host β) : Prop where
  staged : (w.disk.files path).isSome
  unchanged : w.running.isSome ∧ w.disk.files execPath = w.running
  released : ∀ release ∈ releasePaths execPath,
    outcome (.rename path release) = .ok ∨ outcome (.copyFile path release) = .ok
  backedUp : outcome (.rename execPath (backupPath execPath)) = .ok
  copied : ∀ release ∈ releasePaths execPath, outcome (.copyFile release execPath) = .ok
  lives : ∀ operation left, outcome operation = .dies left → operation.OnLinks

structure Settles (outcome : Op → Outcome β) : Prop where
  removed : outcome .removePending = .ok
  lives : ∀ operation left, outcome operation ≠ .dies left

/-- What keeps a step from leaving a marker without its update. -/
def Event.Smooth (w : Host β) : Event β → Prop
  | .promote path outcome => w.disk.marker = none ∨ GoesThrough execPath path outcome w
  | .stop => w.disk.marker = none ∨ w.marked = []
  | .start now outcome => (∀ state ∈ w.disk.marker, state.due now → Settles outcome)
  | _ => True

def SmoothRun (w : Host β) : List (Event β) → Prop
  | [] => True
  | event :: events => event.Smooth execPath w ∧ ∀ w' ∈ step execPath w event, SmoothRun w' events

def stagedPaths : List String := [stagedPath true,stagedPath false]

structure Apart : Prop where
  present : execPath ≠ ""
  others : ∀ path ∈ stagedPaths ++ linkPaths ++ releasePaths execPath, path ≠ execPath ∧ path ≠ backupPath execPath
  releases : ∀ path ∈ releasePaths execPath, path ∉ stagedPaths ++ linkPaths

end

def Op.targets : Op → List String
  | .remove path => [path]
  | .rename source target => [source,target]
  | .copyFile _ target => [target]
  | _ => []

def Op.OnMarker : Op → Prop
  | .mkdirAll _ | .writePending _ | .removePending => True
  | _ => False

def Program.Only (allowed : Op → Prop) : Program → Prop
  | .ret _ => True
  | .op operation next => allowed operation ∧ ∀ went, (next went).Only allowed
  | .readlink _ next => ∀ text, (next text).Only allowed

namespace Disk
variable {β : Type} [Inhabited β] {outcome : Op → Outcome β} {d d' : Disk β} {operation : Op} {program : Program}
variable {next : Bool → Program} {Q : Disk β → Option Bool → Prop}

variable {path source target : String} {left : Option β}

theorem files_effect (other : path ∉ operation.targets) : (d.effect operation).1.files path = d.files path := by
  cases operation with
  | mkdirAll | chmod | stat | writePending | removePending => rfl
  | remove target =>
    have differ : path ≠ target := by simpa [Op.targets] using other
    simp only [effect]
    split
    · rfl
    · simp [setFile,setLink,differ]
  | rename source target =>
    obtain ⟨fromSource,fromTarget⟩ : path ≠ source ∧ path ≠ target := by simpa [Op.targets] using other
    simp only [effect]
    split
    · rfl
    · split
      · rfl
      · simp [setFile,setLink,fromSource,fromTarget]
  | copyFile source target =>
    have differ : path ≠ target := by simpa [Op.targets] using other
    simp only [effect]
    split
    · simp [setFile,differ]
    · rfl
  | symlink text target =>
    simp only [effect]
    split <;> rfl

omit [Inhabited β] in
theorem files_spoil (other : path ∉ operation.targets) :
    (d.spoil operation left).files path = d.files path := by
  unfold spoil
  split
  · rename_i target content
    have differ : path ≠ target := by simpa [Op.targets] using other
    simp [setFile,differ]
  · rfl

theorem marker_effect (other : ¬operation.OnMarker) :
    (d.effect operation).1.pending = d.pending ∧ (d.effect operation).1.varDir = d.varDir := by
  cases operation with
  | mkdirAll | writePending | removePending => exact absurd trivial other
  | chmod | stat => exact ⟨rfl,rfl⟩
  | remove | symlink | copyFile =>
    simp only [effect]
    split <;> exact ⟨rfl,rfl⟩
  | rename =>
    simp only [effect]
    split
    · exact ⟨rfl,rfl⟩
    · split <;> exact ⟨rfl,rfl⟩

omit [Inhabited β] in
theorem marker_spoil (d : Disk β) (operation : Op) (left : Option β) :
    (d.spoil operation left).pending = d.pending ∧ (d.spoil operation left).varDir = d.varDir := by
  unfold spoil
  split <;> exact ⟨rfl,rfl⟩

theorem log_effect : (d.effect operation).1.log = d.log := by
  cases operation with
  | mkdirAll | chmod | stat | writePending | removePending => rfl
  | remove | symlink | copyFile =>
    simp only [effect]
    split <;> rfl
  | rename =>
    simp only [effect]
    split
    · rfl
    · split <;> rfl

omit [Inhabited β] in
theorem log_spoil (left : Option β) : (d.spoil operation left).log = d.log := by
  unfold spoil
  split <;> rfl

/-- The log is all that a performed operation adds to its effect. -/
theorem perform_eq (d : Disk β) (operation : Op) : ∃ log, d.perform operation = {(d.effect operation).1 with log} ∧ d.log ⊆ log ∧
    ∀ other ≠ operation, other ∈ log ↔ other ∈ d.log := by
  unfold perform
  split
  · exact ⟨_,rfl,by rw [log_effect]; exact List.subset_append_left _ _,fun other differ => by simp [log_effect,differ]⟩
  · exact ⟨d.log,by rw [← log_effect],List.Subset.refl _,fun _ _ => Iff.rfl⟩

/-- What every allowed operation keeps, whether it succeeds or not, the program keeps. -/
theorem run_keeps {P : Disk β → Prop} {allowed : Op → Prop} (only : program.Only allowed)
    (effects : ∀ operation, allowed operation → ∀ d, P d → P (d.effect operation).1)
    (spoils : ∀ operation, allowed operation → ∀ d left, P d → P (d.spoil operation left))
    (logs : ∀ d : Disk β, ∀ log, d.log ⊆ log → P d → P {d with log}) (holds : P d) : P (run outcome program d).1 := by
  induction program generalizing d with
  | ret => exact holds
  | readlink path next ih => exact ih _ (only _) holds
  | op operation next ih =>
    unfold run
    cases outcome operation with
    | dies left => exact spoils _ only.1 _ _ holds
    | fails left => exact ih _ (only.2 _) (spoils _ only.1 _ _ holds)
    | ok =>
      obtain ⟨log,performed,more,-⟩ := perform_eq d operation
      refine ih _ (only.2 _) ?_
      rw [performed]
      exact logs _ _ (by rw [log_effect]; exact more) (effects _ only.1 _ holds)

def Ends (outcome : Op → Outcome β) (program : Program) (d : Disk β) (Q : Disk β → Option Bool → Prop) : Prop :=
  Q (run outcome program d).1 (run outcome program d).2

structure Touched (operation : Op) (d : Disk β) (went : Bool) (d' : Disk β) : Prop where
  files : ∀ path ∉ operation.targets, d'.files path = d.files path
  marker : ¬operation.OnMarker → d'.pending = d.pending ∧ d'.varDir = d.varDir
  log : ∀ other ≠ operation, other ∈ d'.log ↔ other ∈ d.log
  done : went = true → d'.files = (d.effect operation).1.files ∧ (d.effect operation).2 = true
  undone : went = false → d'.log = d.log

/-- An operation whose outcome does not matter, as long as the process lives. -/
theorem Ends.any (lives : ∀ left, outcome operation ≠ .dies left)
    (rest : ∀ d' went, Touched operation d went d' → Ends outcome (next went) d' Q) :
    Ends outcome (.op operation next) d Q := by
  unfold Ends run
  cases how : outcome operation with
  | dies left => exact absurd how (lives left)
  | fails left =>
    refine rest (d.spoil operation left) false ⟨fun _ => files_spoil,fun _ => marker_spoil d operation left,fun other _ => ?_,
      fun went => (by cases went),fun _ => log_spoil left⟩
    rw [log_spoil]
  | ok =>
    obtain ⟨log,performed,-,others⟩ := perform_eq d operation
    refine rest _ _ ⟨fun path other => ?_,fun other => ?_,fun other differ => ?_,fun went => ?_,fun not => ?_⟩
    · rw [performed]
      exact files_effect other
    · rw [performed]
      exact marker_effect other
    · rw [performed]
      exact others other differ
    · rw [performed]
      exact ⟨rfl,went⟩
    · unfold perform
      rw [if_neg (by rw [not]; exact Bool.false_ne_true),log_effect]

/-- An operation that succeeds. -/
theorem Ends.ok (fine : outcome operation = .ok) (went : (d.effect operation).2 = true)
    (rest : Ends outcome (next true) {(d.effect operation).1 with log := d.log ++ [operation]} Q) :
    Ends outcome (.op operation next) d Q := by
  have performed : d.perform operation = {(d.effect operation).1 with log := d.log ++ [operation]} := by
    unfold perform
    rw [if_pos went,log_effect]
  unfold Ends run
  rw [fine]
  dsimp only
  rw [went,performed]
  exact rest

theorem Ends.fails (failed : outcome operation = .fails left)
    (rest : Ends outcome (next false) (d.spoil operation left) Q) : Ends outcome (.op operation next) d Q := by
  unfold Ends run
  rw [failed]
  exact rest

theorem Ends.rename (fine : outcome (.rename source target) = .ok)
    (there : (d.files source).isSome) (differ : source ≠ target)
    (rest : ∀ d' : Disk β, d'.files target = d.files source → (∀ path ∉ [source,target], d'.files path = d.files path) →
      d'.log = d.log ++ [.rename source target] → d'.marker = d.marker → Ends outcome (next true) d' Q) :
    Ends outcome (.op (.rename source target) next) d Q := by
  obtain ⟨content,isContent⟩ := Option.isSome_iff_exists.mp there
  have moved : d.effect (.rename source target) =
      ((((d.setFile target (some content)).setLink target (d.links source)).setFile source none).setLink source none,true) := by
    simp [effect,isContent,differ]
  refine .ok fine (by rw [moved]) (rest _ ?_ (fun path other => files_effect other) rfl ?_)
  · rw [moved]
    simp [setFile,setLink,differ.symm,isContent]
  · rw [moved]
    rfl

theorem Ends.copyFile (fine : outcome (.copyFile source target) = .ok)
    (there : (d.files source).isSome) (differ : source ≠ target)
    (rest : ∀ d' : Disk β, d'.files target = d.files source → (∀ path ∉ [target], d'.files path = d.files path) →
      d'.log = d.log ++ [.copyFile source target] → d'.marker = d.marker → Ends outcome (next true) d' Q) :
    Ends outcome (.op (.copyFile source target) next) d Q := by
  obtain ⟨content,isContent⟩ := Option.isSome_iff_exists.mp there
  have copied : d.effect (.copyFile source target) = (d.setFile target (some content),true) := by
    simp only [effect,isContent,if_neg differ]
  refine .ok fine (by rw [copied]) (rest _ ?_ (fun path other => files_effect other) rfl ?_)
  · rw [copied]
    simp [setFile,isContent]
  · rw [copied]
    rfl

theorem Ends.readlink {next : Option String → Program}
    (rest : Ends outcome (next (d.links path)) d Q) : Ends outcome (.readlink path next) d Q := rest

end Disk

/-! What a promotion leaves -/

section
variable {β : Type} [Inhabited β] {outcome : Op → Outcome β} {d d' : Disk β} {execPath target path : String} {binary : β}

open Disk

theorem backup_ne : execPath ≠ backupPath execPath := by
  intro same
  have lengths := congrArg String.length same
  simp [backupPath] at lengths

theorem restore_ne : restorePath execPath ≠ execPath := by
  intro same
  have lengths := congrArg String.length same
  simp [restorePath] at lengths

theorem backup_ne_restore : backupPath execPath ≠ restorePath execPath := by
  intro same
  have lengths := congrArg String.length same
  simp only [backupPath,restorePath,String.length_append,Nat.add_left_cancel_iff] at lengths
  exact absurd lengths (by decide)

variable {operation : Op} {program : Program} {source : String}

theorem targets_onLinks (onLinks : operation.OnLinks) (member : path ∈ operation.targets) :
    path ∈ linkPaths := by
  cases operation with
  | remove target =>
    obtain rfl := List.mem_singleton.mp member
    exact onLinks
  | rename source target =>
    obtain ⟨rfl,rfl⟩ := onLinks
    rcases List.mem_pair.mp member with rfl | rfl <;> simp [linkPaths]
  | copyFile => exact absurd onLinks id
  | mkdirAll | chmod | stat | symlink | writePending | removePending => exact absurd member List.not_mem_nil

theorem Apart.link (apart : Apart execPath) (member : path ∈ linkPaths) :
    path ≠ execPath ∧ path ≠ backupPath execPath :=
  apart.others path (List.mem_append_left _ (List.mem_append_right _ member))

theorem Apart.currentLink (apart : Apart execPath) : currentLink ≠ execPath := (apart.link (by simp [linkPaths])).1

theorem Apart.release (apart : Apart execPath) (member : path ∈ releasePaths execPath) :
    path ≠ execPath ∧ path ≠ backupPath execPath :=
  apart.others path (List.mem_append_right _ member)

theorem Apart.staging (apart : Apart execPath) (member : path ∈ stagedPaths) :
    path ≠ execPath ∧ path ≠ backupPath execPath :=
  apart.others path (List.mem_append_left _ (List.mem_append_left _ member))

theorem staged_not_link : ∀ path ∈ stagedPaths, path ∉ linkPaths := by decide

theorem linkRelease_only : (linkRelease target).Only Op.OnLinks := by
  refine ⟨by simp [Op.OnLinks,linkPaths],fun _ text => ?_⟩
  have promote : Program.Only Op.OnLinks (.op (.remove currentLinkTmp) fun _ =>
      .op (.symlink target currentLinkTmp) fun linked =>
      if linked then .op (.rename currentLinkTmp currentLink) fun _ => .ret true else .ret true) := by
    refine ⟨by simp [Op.OnLinks,linkPaths],fun _ => ⟨trivial,fun linked => ?_⟩⟩
    dsimp only
    split
    · exact ⟨⟨rfl,rfl⟩,fun _ => trivial⟩
    · trivial
  cases text with
  | some text => exact ⟨trivial,fun _ => promote⟩
  | none => exact promote

/-- The links are none of the executable's business, even where the process dies over them. -/
theorem linkRelease_ends (apart : Apart execPath) (backed : d.files (backupPath execPath) = some binary)
    (logged : operation ∈ d.log) : Ends outcome (linkRelease target) d fun d' _ =>
      d'.files (backupPath execPath) = some binary ∧ operation ∈ d'.log := by
  refine run_keeps (P := fun d' => d'.files (backupPath execPath) = some binary ∧ operation ∈ d'.log) linkRelease_only
    ?_ ?_ ?_ ⟨backed,logged⟩
  · rintro link onLinks d ⟨backed,logged⟩
    rw [files_effect fun member => (apart.link (targets_onLinks onLinks member)).2 rfl,log_effect]
    exact ⟨backed,logged⟩
  · rintro link onLinks d left ⟨backed,logged⟩
    rw [files_spoil fun member => (apart.link (targets_onLinks onLinks member)).2 rfl,log_spoil]
    exact ⟨backed,logged⟩
  · exact fun d log more holds => ⟨holds.1,more holds.2⟩

/-- The executable goes to the backup, and the release to its place. -/
theorem replaceExecutable_ends (apart : Apart execPath) (release : target ∈ releasePaths execPath)
    (there : (d.files target).isSome) (running : d.files execPath = some binary)
    (backedUp : outcome (.rename execPath (backupPath execPath)) = .ok)
    (copied : outcome (.copyFile target execPath) = .ok)
    (lives : ∀ operation left, outcome operation = .dies left → operation.OnLinks) :
    Ends outcome (replaceExecutable target execPath) d fun d' _ =>
      d'.files (backupPath execPath) = some binary ∧ .copyFile target execPath ∈ d'.log := by
  have notLink : execPath ≠ currentLink := fun same => apart.currentLink same.symm
  obtain ⟨notExec,notBackup⟩ := apart.release release
  unfold replaceExecutable
  rw [if_pos ⟨apart.present,notLink⟩]
  refine .any (fun left dies => (apart.link (lives _ left dies)).2 rfl) fun d₁ _ removed => ?_
  have running₁ : d₁.files execPath = some binary := by
    rw [removed.files _ (by simpa [Op.targets] using backup_ne),running]
  have there₁ : (d₁.files target).isSome := by
    rwa [removed.files _ (by simpa [Op.targets] using notBackup)]
  refine .rename backedUp (by rw [running₁]; rfl) backup_ne fun d₂ backup others _ _ => ?_
  have there₂ : (d₂.files target).isSome := by
    rwa [others _ (by simp [notExec,notBackup])]
  refine .copyFile copied there₂ notExec fun d₃ _ others logged _ => ?_
  rw [if_pos rfl]
  refine linkRelease_ends apart ?_ (logged ▸ List.mem_append_right _ List.mem_cons_self)
  rw [others _ (by simpa using backup_ne.symm),backup,running₁]

theorem mem_releasePaths (execPath : String) (made : Bool) :
    join (if made then releasesDir else dir execPath) ("worker-" ++ "latest") ∈ releasePaths execPath := by
  have name : "worker-" ++ "latest" = "worker-latest" := rfl
  rw [name]
  cases made <;> simp [releasePaths]

/-- A promotion that goes through backs up what runs and puts a release in its place. -/
theorem promoted_goesThrough {w : Host β} (apart : Apart execPath) (isStaged : path ∈ stagedPaths)
    (through : GoesThrough execPath path outcome w) :
    (promoted execPath path outcome w.disk).1.files (backupPath execPath) = w.running ∧
      (promoted execPath path outcome w.disk).1.Promoted execPath := by
  obtain ⟨isSome,unchanged⟩ := through.unchanged
  obtain ⟨binary,isBinary⟩ := Option.isSome_iff_exists.mp isSome
  rw [isBinary] at unchanged ⊢
  suffices ends : Ends outcome (promoteStagedRelease path "latest" execPath) {w.disk with log := []} fun d' _ =>
      d'.files (backupPath execPath) = some binary ∧ d'.Promoted execPath from ends
  have lives {operation : Op} (other : ¬operation.OnLinks) (left : Option β) : outcome operation ≠ .dies left :=
    fun dies => other (through.lives _ left dies)
  obtain ⟨stagedExec,stagedBackup⟩ := apart.staging isStaged
  unfold promoteStagedRelease
  refine .any (lives id) fun d₁ made first => ?_
  dsimp only
  have release := mem_releasePaths execPath made
  generalize join (if made then releasesDir else dir execPath) ("worker-" ++ "latest") = target at release ⊢
  obtain ⟨notExec,notBackup⟩ := apart.release release
  have notStaged : path ≠ target :=
    fun same => apart.releases target release (List.mem_append_left _ (same ▸ isStaged))
  have notLink : target ∉ linkPaths := fun member => apart.releases target release (List.mem_append_right _ member)
  refine .any (lives notLink) fun d₂ _ removed => ?_
  have staged₂ : (d₂.files path).isSome := by
    rw [removed.files _ (by simpa [Op.targets] using notStaged),first.files _ List.not_mem_nil]
    exact through.staged
  have running₂ : d₂.files execPath = some binary := by
    rw [removed.files _ (by simpa [Op.targets] using notExec.symm),first.files _ List.not_mem_nil]
    exact unchanged
  -- however the release got to its place, the executable is still there
  have rest : ∀ d₃ : Disk β, (d₃.files target).isSome → d₃.files execPath = some binary →
      Ends outcome (.op (.chmod target) fun _ => replaceExecutable target execPath) d₃ fun d' _ =>
        d'.files (backupPath execPath) = some binary ∧ d'.Promoted execPath := by
    intro d₃ there₃ running₃
    refine .any (lives id) fun d₄ _ touched => ?_
    have ends := replaceExecutable_ends apart release (by rwa [touched.files _ List.not_mem_nil])
      (by rwa [touched.files _ List.not_mem_nil]) through.backedUp (through.copied target release) through.lives
    exact ⟨ends.1,target,release,ends.2⟩
  cases moved : outcome (.rename path target) with
  | ok =>
    refine .rename moved staged₂ notStaged fun d₃ atTarget others _ _ => ?_
    rw [if_pos rfl]
    exact rest d₃ (by rw [atTarget]; exact staged₂) (by rw [others _ (by simp [stagedExec.symm,notExec.symm]),running₂])
  | dies left =>
    have link : path = currentLinkTmp := (through.lives _ left moved).1
    exact absurd isStaged (by rw [link]; decide)
  | fails left =>
    have copied : outcome (.copyFile path target) = .ok :=
      (through.released target release).resolve_left fun fine => by rw [moved] at fine; contradiction
    refine .fails moved ?_
    rw [if_neg Bool.false_ne_true]
    refine .copyFile copied staged₂ notStaged fun d₃ atTarget others _ _ => ?_
    rw [if_pos rfl]
    refine .any (lives (staged_not_link path isStaged)) fun d₄ _ removed => ?_
    refine rest d₄ ?_ ?_
    · rw [removed.files _ (by simpa [Op.targets] using notStaged.symm),atTarget]
      exact staged₂
    · rw [removed.files _ (by simpa [Op.targets] using stagedExec.symm),others _ (by simpa using notExec.symm)]
      exact running₂

/-- Nothing but a check and the update itself write the marker. -/
def Op.Quiet : Op → Prop
  | .writePending _ | .removePending => False
  | _ => True

theorem Program.Only.mono {allowed wider : Op → Prop} (only : program.Only allowed)
    (more : ∀ operation, allowed operation → wider operation) : program.Only wider := by
  induction program with
  | ret => trivial
  | op operation next ih => exact ⟨more _ only.1,fun went => ih went (only.2 went)⟩
  | readlink path next ih => exact fun text => ih text (only text)

theorem Program.only_true (program : Program) : program.Only fun _ => True := by
  induction program with
  | ret => trivial
  | op operation next ih => exact ⟨trivial,ih⟩
  | readlink path next ih => exact ih

theorem linkRelease_quiet : (linkRelease target).Only Op.Quiet := by
  refine linkRelease_only.mono fun operation onLinks => ?_
  cases operation with
  | writePending | removePending => exact onLinks
  | mkdirAll | remove | rename | copyFile | chmod | stat | symlink => trivial

theorem replaceExecutable_quiet : (replaceExecutable target execPath).Only Op.Quiet := by
  unfold replaceExecutable
  split
  · refine ⟨trivial,fun _ => ⟨trivial,fun _ => ⟨trivial,fun copied => ?_⟩⟩⟩
    cases copied with
    | true => exact linkRelease_quiet
    | false => exact ⟨trivial,fun _ => trivial⟩
  · exact linkRelease_quiet

theorem promoteStagedRelease_quiet : (promoteStagedRelease path "latest" execPath).Only Op.Quiet := by
  refine ⟨trivial,fun made => ⟨trivial,fun _ => ⟨trivial,fun moved => ?_⟩⟩⟩
  have rest (target : String) : Program.Only Op.Quiet (.op (.chmod target) fun _ => replaceExecutable target execPath) :=
    ⟨trivial,fun _ => replaceExecutable_quiet⟩
  cases moved with
  | true => exact rest _
  | false =>
    refine ⟨trivial,fun copied => ?_⟩
    cases copied with
    | true => exact ⟨trivial,fun _ => rest _⟩
    | false => trivial

/-- No marker is in a directory that is not there. -/
def Disk.Hidden (d : Disk β) : Prop := d.varDir = false → d.pending true = none

theorem hidden_effect (hidden : d.Hidden) : (d.effect operation).1.Hidden := by
  by_cases onMarker : operation.OnMarker
  · cases operation with
    | mkdirAll => exact fun gone => by cases gone
    | writePending | removePending =>
      intro gone
      have away : d.varDir = false := gone
      simp [effect,setMarker,away,hidden away]
    | remove | rename | copyFile | chmod | stat | symlink => exact absurd onMarker id
  · obtain ⟨samePending,sameDir⟩ := marker_effect (d := d) onMarker
    unfold Disk.Hidden
    rw [samePending,sameDir]
    exact hidden

theorem hidden_run (hidden : d.Hidden) : (run outcome program d).1.Hidden := by
  refine run_keeps program.only_true (fun operation _ d hidden => hidden_effect hidden) (fun operation _ d left hidden => ?_)
    (fun d log _ hidden => hidden) hidden
  obtain ⟨samePending,sameDir⟩ := marker_spoil d operation left
  unfold Disk.Hidden
  rw [samePending,sameDir]
  exact hidden

/-- A promotion writes no marker, however it goes. -/
theorem promoted_marker (hidden : d.Hidden) (unmarked : d.marker = none) :
    (promoted execPath path outcome d).1.marker = none := by
  have started : ({d with log := []} : Disk β).Hidden ∧ ({d with log := []} : Disk β).marker = none := ⟨hidden,unmarked⟩
  refine (run_keeps (P := fun d => d.Hidden ∧ d.marker = none) promoteStagedRelease_quiet ?_ ?_
    (fun d log _ holds => holds) started).2
  · rintro operation quiet d ⟨hidden,unmarked⟩
    refine ⟨hidden_effect hidden,?_⟩
    by_cases onMarker : operation.OnMarker
    · cases operation with
      | mkdirAll =>
        cases there : d.varDir with
        | true => simpa [effect,marker,there] using unmarked
        | false => exact hidden there
      | writePending | removePending => exact absurd quiet id
      | remove | rename | copyFile | chmod | stat | symlink => exact absurd onMarker id
    · obtain ⟨samePending,sameDir⟩ := marker_effect (d := d) onMarker
      unfold marker
      rw [samePending,sameDir]
      exact unmarked
  · rintro operation - d left ⟨hidden,unmarked⟩
    obtain ⟨samePending,sameDir⟩ := marker_spoil d operation left
    unfold Disk.Hidden marker
    rw [samePending,sameDir]
    exact ⟨hidden,unmarked⟩

/-! What a check leaves -/

/-- One operation on the marker leaves the files alone. -/
theorem single_files (value : Bool) (outcome : Op → Outcome β) (onMarker : operation.targets = [])
    (notCopy : ∀ left, d.spoil operation left = d) :
    (run outcome (.op operation fun _ => .ret value) d).1.files = d.files ∧
      ∀ other ≠ operation, other ∈ (run outcome (.op operation fun _ => .ret value) d).1.log ↔ other ∈ d.log := by
  unfold run
  cases outcome operation with
  | dies left => simp [notCopy]
  | fails left => simp [notCopy,run]
  | ok =>
    obtain ⟨log,performed,-,others⟩ := perform_eq d operation
    simp only [run,performed]
    exact ⟨funext fun path => files_effect (by rw [onMarker]; exact List.not_mem_nil),others⟩

theorem copied_files (differ : source ≠ target) (went : (d.effect (.copyFile source target)).2 = true) :
    (d.effect (.copyFile source target)).1.files target = d.files source := by
  simp only [effect] at went ⊢
  split at went
  · rename_i content isContent
    simp [setFile,isContent,differ]
  · contradiction

theorem renamed_files (differ : source ≠ target)
    (went : (d.effect (.rename source target)).2 = true) :
    (d.effect (.rename source target)).1.files target = d.files source := by
  simp only [effect] at went ⊢
  split at went
  · contradiction
  · rename_i there
    rw [if_neg there,if_neg differ]
    simp [setFile,setLink,differ.symm]

/-- The last step of a rollback. -/
theorem removeMarker_ends (removed : outcome .removePending = .ok) :
    Ends outcome (.op .removePending fun _ => .ret true) d fun d' _ =>
      d'.marker = none ∧ d'.files = d.files ∧ ∀ other ≠ .removePending, other ∈ d'.log ↔ other ∈ d.log := by
  unfold Ends run
  rw [removed]
  obtain ⟨log,performed,-,others⟩ := perform_eq d .removePending
  simp only [run,performed]
  exact ⟨by simp [effect,setMarker,marker],rfl,others⟩

/-- The links are restored and the marker goes; the executable stays. -/
theorem restoreLink_ends (apart : Apart execPath) (settles : Settles outcome) :
    Ends outcome restoreLink d fun d' _ =>
      d'.marker = none ∧ d'.files execPath = d.files execPath ∧ (d'.Replaced execPath ↔ d.Replaced execPath) := by
  have last {d₁ : Disk β} (kept : d₁.files execPath = d.files execPath)
      (logged : d₁.Replaced execPath ↔ d.Replaced execPath) :
      Ends outcome (.op .removePending fun _ => .ret true) d₁ fun d' _ =>
        d'.marker = none ∧ d'.files execPath = d.files execPath ∧ (d'.Replaced execPath ↔ d.Replaced execPath) := by
    obtain ⟨gone,same,others⟩ := removeMarker_ends (d := d₁) settles.removed
    exact ⟨gone,by rw [same,kept],(others _ (by simp)).trans logged⟩
  unfold restoreLink
  refine .readlink ?_
  split
  · refine .readlink (.any (settles.lives _) fun d₁ _ removed => ?_)
    have notExec : execPath ∉ Op.targets (.remove currentLink) := by
      have differ := apart.currentLink
      simpa [Op.targets] using differ.symm
    have kept₁ : d₁.files execPath = d.files execPath := removed.files _ notExec
    have logged₁ : d₁.Replaced execPath ↔ d.Replaced execPath := removed.log _ (by simp)
    split
    · refine .any (settles.lives _) fun d₂ _ linked => ?_
      exact last ((linked.files _ List.not_mem_nil).trans kept₁) ((linked.log _ (by simp)).trans logged₁)
    · exact last kept₁ logged₁
  · exact last rfl Iff.rfl

theorem restoreExecutable_ends (apart : Apart execPath) (settles : Settles outcome) (fresh : ¬d.Replaced execPath) :
    Ends outcome (restoreExecutable execPath) d fun d' _ =>
      d'.marker = none ∧ (d'.Replaced execPath → d'.files execPath = d.files (backupPath execPath)) := by
  have unreplaced {d₁ : Disk β} (logged : ¬d₁.Replaced execPath) : Ends outcome restoreLink d₁ fun d' _ =>
      d'.marker = none ∧ (d'.Replaced execPath → d'.files execPath = d.files (backupPath execPath)) := by
    obtain ⟨gone,-,same⟩ := restoreLink_ends (d := d₁) apart settles
    exact ⟨gone,fun replaced => absurd (same.mp replaced) logged⟩
  unfold restoreExecutable
  refine .any (settles.lives _) fun d₁ there looked => ?_
  have logged₁ : ¬d₁.Replaced execPath := fun replaced => fresh ((looked.log _ (by simp)).mp replaced)
  split
  · refine .any (settles.lives _) fun d₂ copied copy => ?_
    have logged₂ : ¬d₂.Replaced execPath := fun replaced => logged₁ ((copy.log _ (by simp)).mp replaced)
    split
    · rename_i went
      refine .any (settles.lives _) fun d₃ moved move => ?_
      cases moved with
      | false => exact unreplaced (by unfold Disk.Replaced; rw [move.undone rfl]; exact logged₂)
      | true =>
        obtain ⟨gone,kept,-⟩ := restoreLink_ends (d := d₃) apart settles
        refine ⟨gone,fun _ => ?_⟩
        calc
          _ = d₃.files execPath := kept
          _ = d₂.files (restorePath execPath) := by
            rw [(move.done rfl).1,renamed_files restore_ne (move.done rfl).2]
          _ = d₁.files (backupPath execPath) := by
            rw [(copy.done went).1,copied_files backup_ne_restore (copy.done went).2]
          _ = d.files (backupPath execPath) := looked.files _ List.not_mem_nil
    · exact unreplaced logged₂
  · exact unreplaced logged₁

/-- A check replaces nothing, or settles the marker with the backup in place. -/
theorem checked_cases (apart : Apart execPath) (outcome : Op → Outcome β) {now : ℚ}
    (settles : ∀ state ∈ d.marker, state.due now → Settles outcome) :
    (¬(checked execPath now outcome d).1.Replaced execPath ∧ (checked execPath now outcome d).1.files = d.files) ∨
      (checked execPath now outcome d).1.marker = none ∧ ((checked execPath now outcome d).1.Replaced execPath →
        (checked execPath now outcome d).1.files execPath = d.files (backupPath execPath)) := by
  have single {operation : Op} (differ : .rename (restorePath execPath) execPath ≠ operation)
      (onMarker : operation.targets = []) (notCopy : ∀ left, Disk.spoil {d with log := []} operation left = {d with log := []}) :
      ¬(run outcome (.op operation fun _ => .ret false) {d with log := []}).1.Replaced execPath ∧
        (run outcome (.op operation fun _ => .ret false) {d with log := []}).1.files = d.files := by
    obtain ⟨same,others⟩ := single_files false outcome onMarker notCopy
    exact ⟨fun replaced => absurd ((others _ differ).mp replaced) List.not_mem_nil,same⟩
  unfold checked
  cases marked : d.marker with
  | none => exact .inl ⟨List.not_mem_nil,rfl⟩
  | some state =>
    simp only [checkAndRollbackIfFailed]
    split
    · exact .inl (single (by simp) rfl fun left => rfl)
    · by_cases due : state.due now
      · right
        simp only [if_pos due]
        have settled := settles state marked due
        suffices ends : Ends outcome (.op (.writePending state.next) fun _ => restoreExecutable execPath) {d with log := []}
            fun d' _ => d'.marker = none ∧ (d'.Replaced execPath → d'.files execPath = d.files (backupPath execPath)) from ends
        refine .any (settled.lives _) fun d₁ _ written => ?_
        have fresh : ¬d₁.Replaced execPath :=
          fun replaced => absurd ((written.log _ (by simp)).mp replaced) List.not_mem_nil
        have ends := restoreExecutable_ends apart settled fresh
        rwa [show d₁.files (backupPath execPath) = d.files (backupPath execPath) from
          written.files _ List.not_mem_nil] at ends
      · left
        simp only [if_neg due]
        exact single (by simp) rfl fun left => rfl

end

/-- The marker is of an update under way, or of one that nobody has confirmed and whose backup is
what ran before it. -/
structure Sound {β : Type} (execPath : String) (w : Host β) : Prop where
  hidden : w.disk.Hidden
  paths : ∀ path ∈ w.staged ++ w.marked, path ∈ stagedPaths
  stopped : w.running = none → w.staged = [] ∧ w.marked = []
  backed : w.disk.marker ≠ none → w.marked ≠ [] ∨
    ∃ before, w.unconfirmed = some before ∧ w.disk.files (backupPath execPath) = some before

section
variable {β : Type} [Inhabited β] {execPath path : String} {w w' : Host β} {outcome : Op → Outcome β} {now : ℚ}

omit [Inhabited β] in
theorem sound_installed (binary : β) : Sound execPath (installed execPath binary) where
  hidden := fun _ => rfl
  paths := fun _ member => absurd member List.not_mem_nil
  stopped := fun _ => ⟨rfl,rfl⟩
  backed := fun marked => absurd rfl marked

theorem mem_stagedPaths (made : Bool) : stagedPath made ∈ stagedPaths := by cases made <;> simp [stagedPaths]

theorem Sound.stage (apart : Apart execPath) (sound : Sound execPath w) {content : β} {made : Bool}
    (stepped : step execPath w (.stage content made) = some w') : Sound execPath w' := by
  simp only [step] at stepped
  split at stepped
  · rename_i binary runs
    obtain rfl := Option.some.inj stepped
    have same (there : w.disk.varDir = true ∨ made = false) : (w.disk.varDir || made) = w.disk.varDir := by
      rcases there with there | there <;> simp [there]
    constructor
    · intro gone
      exact sound.hidden (Bool.or_eq_false_iff.mp gone).1
    · intro path member
      rcases List.mem_append.mp member with isStaged | isMarked
      · rcases List.mem_append.mp isStaged with before | new
        · exact sound.paths path (List.mem_append_left _ before)
        · exact List.mem_singleton.mp new ▸ mem_stagedPaths made
      · exact sound.paths path (List.mem_append_right _ isMarked)
    · intro none_
      exact absurd (runs.symm.trans none_) (by simp)
    · intro marked
      have before : w.disk.marker ≠ none := by
        by_cases there : w.disk.varDir = true ∨ made = false
        · simpa only [Disk.marker,same there,Disk.setFile] using marked
        · -- the directory is new, and so there is no marker in it
          obtain ⟨gone,isMade⟩ : w.disk.varDir = false ∧ made = true := by simpa using there
          refine absurd ?_ marked
          have empty : w.disk.pending true = none := sound.hidden gone
          simpa [Disk.marker,Disk.setFile,isMade] using empty
      refine (sound.backed before).imp_right fun ⟨binary,unconfirmed,backup⟩ => ⟨binary,unconfirmed,?_⟩
      have differ := (apart.staging (mem_stagedPaths made)).2
      simpa [Disk.setFile,differ.symm] using backup
  · contradiction

omit [Inhabited β] in
theorem hidden_setMarker {d : Disk β} {state : Option UpdatePendingState} (hidden : d.Hidden) :
    (d.setMarker state).Hidden := by
  intro gone
  have away : d.varDir = false := gone
  simp [Disk.setMarker,away,hidden away]

theorem Sound.mark (sound : Sound execPath w) {written : Bool}
    (stepped : step execPath w (.mark path now written) = some w') : Sound execPath w' := by
  simp only [step] at stepped
  split at stepped
  · rename_i isStaged
    obtain rfl := Option.some.inj stepped
    constructor
    · dsimp only
      split
      · exact hidden_setMarker sound.hidden
      · exact sound.hidden
    · intro other member
      refine sound.paths other ?_
      simp only [List.mem_append,List.mem_singleton] at member ⊢
      rcases member with left | right | rfl
      · exact .inl (List.mem_of_mem_erase left)
      · exact .inr right
      · exact .inl isStaged
    · intro none_
      have empty := (sound.stopped none_).1
      rw [empty] at isStaged
      exact absurd isStaged List.not_mem_nil
    · exact fun _ => .inl (by simp)
  · contradiction

/-- A promotion without a marker leaves none, and one that goes through has its backup. -/
theorem Sound.promote (apart : Apart execPath) (sound : Sound execPath w)
    (smooth : (Event.promote path outcome).Smooth execPath w)
    (stepped : step execPath w (.promote path outcome) = some w') : Sound execPath w' := by
  simp only [step] at stepped
  split at stepped
  · rename_i isMarked
    have isStaged : path ∈ stagedPaths := sound.paths path (List.mem_append_right _ isMarked)
    have hidden : (promoted execPath path outcome w.disk).1.Hidden := hidden_run sound.hidden
    have backed : (promoted execPath path outcome w.disk).1.marker ≠ none → ∃ before,
        (if (promoted execPath path outcome w.disk).1.Promoted execPath then w.running else w.unconfirmed) = some before ∧
        (promoted execPath path outcome w.disk).1.files (backupPath execPath) = some before := by
      intro marked
      rcases smooth with unmarked | through
      · exact absurd (promoted_marker sound.hidden unmarked) marked
      · obtain ⟨backup,isPromoted⟩ := promoted_goesThrough apart isStaged through
        obtain ⟨binary,isBinary⟩ := Option.isSome_iff_exists.mp through.unchanged.1
        exact ⟨binary,by rw [if_pos isPromoted,isBinary],by rw [backup,isBinary]⟩
    rcases ended : promoted execPath path outcome w.disk with ⟨d,result⟩
    rw [ended] at stepped hidden backed
    cases result with
    | some value =>
      obtain rfl := Option.some.inj stepped
      refine ⟨hidden,fun other member => ?_,fun none_ => ?_,fun marked => .inr (backed marked)⟩
      · rcases List.mem_append.mp member with left | right
        · exact sound.paths other (List.mem_append_left _ left)
        · exact sound.paths other (List.mem_append_right _ (List.mem_of_mem_erase right))
      · have empty := (sound.stopped none_).2
        rw [empty] at isMarked
        exact absurd isMarked List.not_mem_nil
    | none =>
      obtain rfl := Option.some.inj stepped
      exact ⟨hidden,fun _ member => absurd member List.not_mem_nil,fun _ => ⟨rfl,rfl⟩,fun marked => .inr (backed marked)⟩
  · contradiction

theorem Sound.connect (sound : Sound execPath w) {confirmed : Bool}
    (stepped : step execPath w (.connect confirmed) = some w') : Sound execPath w' := by
  simp only [step] at stepped
  split at stepped
  · split at stepped
    · obtain rfl := Option.some.inj stepped
      exact ⟨hidden_setMarker sound.hidden,sound.paths,sound.stopped,
        fun marked => absurd (by simp [Disk.setMarker,Disk.marker]) marked⟩
    · obtain rfl := Option.some.inj stepped
      exact sound
  · contradiction

theorem Sound.stop (sound : Sound execPath w) (smooth : (Event.stop : Event β).Smooth execPath w)
    (stepped : step execPath w .stop = some w') : Sound execPath w' := by
  obtain rfl := Option.some.inj stepped
  refine ⟨sound.hidden,fun _ member => absurd member List.not_mem_nil,fun _ => ⟨rfl,rfl⟩,fun marked => .inr ?_⟩
  rcases smooth with unmarked | idle
  · exact absurd unmarked marked
  · exact (sound.backed marked).resolve_left fun busy => busy idle

theorem checked_unmarked {d : Disk β} (unmarked : d.marker = none) :
    checked execPath now outcome d = ({d with log := []},some false) := by
  unfold checked
  rw [unmarked]
  rfl

/-- A start is lawful, and what it leaves is sound. -/
theorem Sound.start (apart : Apart execPath) (sound : Sound execPath w)
    (smooth : (Event.start now outcome).Smooth execPath w) (stepped : step execPath w (.start now outcome) = some w') :
    Sound execPath w' ∧ (w'.disk.Replaced execPath →
      ∃ before, w.unconfirmed = some before ∧ w'.disk.files execPath = some before) := by
  simp only [step] at stepped
  split at stepped
  · rename_i binary none_ found
    obtain ⟨noneStaged,noneMarked⟩ := sound.stopped none_
    have hidden : (checked execPath now outcome w.disk).1.Hidden := hidden_run sound.hidden
    have cases_ := checked_cases apart outcome smooth
    have unmarked : w.disk.marker = none → (checked execPath now outcome w.disk).1.marker = none ∧
        ¬(checked execPath now outcome w.disk).1.Replaced execPath := by
      intro unmarked
      rw [checked_unmarked unmarked]
      exact ⟨unmarked,List.not_mem_nil⟩
    have before : w.disk.marker ≠ none →
        ∃ before, w.unconfirmed = some before ∧ w.disk.files (backupPath execPath) = some before :=
      fun marked => (sound.backed marked).resolve_left fun busy => busy noneMarked
    rcases ended : checked execPath now outcome w.disk with ⟨d,result⟩
    rw [ended] at stepped hidden cases_ unmarked
    have lawful : d.Replaced execPath → ∃ before, w.unconfirmed = some before ∧ d.files execPath = some before := by
      intro replaced
      have marked : w.disk.marker ≠ none := fun none_ => (unmarked none_).2 replaced
      obtain ⟨binary,unconfirmed,backup⟩ := before marked
      rcases cases_ with ⟨kept,-⟩ | ⟨-,restored⟩
      · exact absurd replaced kept
      · exact ⟨binary,unconfirmed,(restored replaced).trans backup⟩
    have backed : d.marker ≠ none → ∃ before,
        (if d.Replaced execPath then none else w.unconfirmed) = some before ∧
        d.files (backupPath execPath) = some before := by
      intro marked
      rcases cases_ with ⟨kept,same⟩ | ⟨gone,-⟩
      · rw [if_neg kept,same]
        exact before fun none_ => marked (unmarked none_).1
      · exact absurd gone marked
    have paths : ∀ path ∈ w.staged ++ w.marked, path ∈ stagedPaths := sound.paths
    cases result with
    | none =>
      obtain rfl := Option.some.inj stepped
      exact ⟨⟨hidden,paths,fun _ => ⟨noneStaged,noneMarked⟩,fun marked => .inr (backed marked)⟩,lawful⟩
    | some rolledBack =>
      cases rolledBack with
      | true | false =>
        obtain rfl := Option.some.inj stepped
        exact ⟨⟨hidden,paths,fun _ => ⟨noneStaged,noneMarked⟩,fun marked => .inr (backed marked)⟩,lawful⟩
  · contradiction

variable {event : Event β} {events : List (Event β)}

theorem Sound.step (apart : Apart execPath) (sound : Sound execPath w)
    (smooth : event.Smooth execPath w) (stepped : step execPath w event = some w') : Sound execPath w' := by
  cases event with
  | stage => exact sound.stage apart stepped
  | mark => exact sound.mark stepped
  | promote => exact sound.promote apart smooth stepped
  | connect => exact sound.connect stepped
  | stop => exact sound.stop smooth stepped
  | start => exact (sound.start apart smooth stepped).1

theorem ran_cons {w'' : Host β} (stepped : step execPath w event = some w')
    (ran : events.foldlM (step execPath) w' = some w'') : (event :: events).foldlM (step execPath) w = some w'' := by
  rw [List.foldlM_cons]
  exact Option.bind_eq_some_iff.mpr ⟨w',stepped,ran⟩

theorem lawful_sound (apart : Apart execPath) (sound : Sound execPath w)
    (smooth : SmoothRun execPath w events) : LawfulRun execPath w events := by
  induction events generalizing w with
  | nil => trivial
  | cons event events ih =>
    intro w' stepped
    refine ⟨?_,ih (sound.step apart smooth.1 stepped) (smooth.2 w' stepped)⟩
    rintro now outcome rfl replaced
    exact (sound.start apart smooth.1 stepped).2 replaced

end

/-- In every run in which a promotion with a marker gets its release in place, the process does not
end between the two, and a rollback gets rid of its marker, the executable is replaced only where
it is of an update that nobody has confirmed, and by what ran before it. -/
theorem rollback_lawful {β : Type} [Inhabited β] {execPath : String} (apart : Apart execPath) (binary : β) (events : List (Event β))
    (smooth : SmoothRun execPath (installed execPath binary) events) :
    LawfulRun execPath (installed execPath binary) events :=
  lawful_sound apart (sound_installed binary) smooth

def workerPath : String := "/usr/local/bin/vigile-worker"

theorem apart_workerPath : Apart workerPath where
  present := by decide
  others := by decide +kernel
  releases := by decide +kernel

/-- An update that never gets to its operational phase. -/
def brokenUpdate : List (Event String) :=
  [.start 0 fun _ => .ok,.stage "2.0" true,.mark (stagedPath true) 0 true,.promote (stagedPath true) fun _ => .ok,.stop,
    .start 100 fun _ => .ok]

theorem rollback_lawful_broken :
    SmoothRun workerPath (installed workerPath "1.0") brokenUpdate ∧
      LawfulRun workerPath (installed workerPath "1.0") brokenUpdate := by
  have fine : Settles (fun _ => .ok : Op → Outcome String) := ⟨rfl,fun _ _ dies => by cases dies⟩
  have marked : ((brokenUpdate.take 3).foldlM (step workerPath) (installed workerPath "1.0")).map
      (fun w => (w.disk.files (stagedPath true),w.running,w.disk.files workerPath)) =
      some (some "2.0",some "1.0",some "1.0") := by decide +kernel
  have promoted : ((brokenUpdate.take 4).foldlM (step workerPath) (installed workerPath "1.0")).map Host.marked =
      some [] := by decide +kernel
  have smooth : SmoothRun workerPath (installed workerPath "1.0") brokenUpdate := by
    refine ⟨fun _ _ _ => fine,fun w₁ stepped₁ => ⟨trivial,fun w₂ stepped₂ => ⟨trivial,fun w₃ stepped₃ => ⟨.inr ?_,
      fun w₄ stepped₄ => ⟨.inr ?_,fun w₅ stepped₅ => ⟨fun _ _ _ => fine,fun _ _ => trivial⟩⟩⟩⟩⟩⟩
    · have ran : (brokenUpdate.take 3).foldlM (step workerPath) (installed workerPath "1.0") = some w₃ :=
        ran_cons stepped₁ (ran_cons stepped₂ (ran_cons stepped₃ rfl))
      rw [ran,Option.map_some,Option.some.injEq,Prod.mk.injEq,Prod.mk.injEq] at marked
      obtain ⟨isStaged,runs,atPath⟩ := marked
      exact ⟨by rw [isStaged]; rfl,⟨by rw [runs]; rfl,by rw [runs,atPath]⟩,fun _ _ => .inl rfl,rfl,fun _ _ => rfl,
        fun _ _ dies => by cases dies⟩
    · have ran : (brokenUpdate.take 4).foldlM (step workerPath) (installed workerPath "1.0") = some w₄ :=
        ran_cons stepped₁ (ran_cons stepped₂ (ran_cons stepped₃ (ran_cons stepped₄ rfl)))
      rw [ran,Option.map_some,Option.some.injEq] at promoted
      exact promoted
  exact ⟨smooth,rollback_lawful apart_workerPath "1.0" brokenUpdate smooth⟩

/-- An update that works, and a later one whose release does not fit on the disk. -/
def fullDisk : List (Event String) :=
  [.start 0 fun _ => .ok,.stage "2.0" true,.mark (stagedPath true) 0 true,.promote (stagedPath true) fun _ => .ok,.stop,
    .start 5 fun _ => .ok,.connect true,.stage "3.0" true,.mark (stagedPath true) 1000 true,
    .promote (stagedPath true) fun operation =>
      match operation with
      | .rename _ _ | .copyFile _ _ => .fails none
      | _ => .ok,
    .stop]

theorem lawful_last {β : Type} [Inhabited β] {execPath : String} {events : List (Event β)} {now : ℚ} {outcome : Op → Outcome β}
    {w w' w'' : Host β} (lawful : LawfulRun execPath w (events ++ [.start now outcome]))
    (ran : events.foldlM (step execPath) w = some w') (stepped : step execPath w' (.start now outcome) = some w'')
    (replaced : w''.disk.Replaced execPath) : w'.unconfirmed ≠ none := by
  induction events generalizing w with
  | nil =>
    obtain rfl := Option.some.inj ran
    obtain ⟨before,isBefore,-⟩ := (lawful w'' stepped).1 now outcome rfl replaced
    rw [isBefore]
    exact Option.some_ne_none before
  | cons event events ih =>
    rw [List.foldlM_cons] at ran
    obtain ⟨middle,first,rest⟩ := Option.bind_eq_some_iff.mp ran
    exact ih (lawful middle first).2 rest

/-- The next start puts the first binary over the second, which works. -/
theorem full_disk_not_lawful :
    ¬LawfulRun workerPath (installed workerPath "1.0") (fullDisk ++ [.start 2000 fun _ => .ok]) := by
  have evaluated : ((fullDisk.foldlM (step workerPath) (installed workerPath "1.0")).bind fun w =>
      (step workerPath w (.start 2000 fun _ => .ok)).map fun w' =>
        (w.unconfirmed,w.disk.files workerPath,w'.disk.files workerPath,decide (w'.disk.Replaced workerPath))) =
      some (none,some "2.0",some "1.0",true) := by
    decide +kernel
  obtain ⟨w,ran,last⟩ := Option.bind_eq_some_iff.mp evaluated
  obtain ⟨w',stepped,state⟩ := Option.map_eq_some_iff.mp last
  simp only [Prod.mk.injEq,decide_eq_true_eq] at state
  exact fun lawful => lawful_last lawful ran stepped state.2.2.2 state.1

end Vigile.SelfUpdate
