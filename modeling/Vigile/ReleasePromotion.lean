import Vigile.SelfUpdate

/-! What a promotion leaves at the path of the executable and where the rollback looks for the binary before it, with
any one of its operations failing. -/
namespace Vigile.ReleasePromotion

open SelfUpdate SelfUpdate.Disk

def releasePath (version execPath : String) (made : Bool) : String :=
  join (if made then releasesDir else dir execPath) ("worker-" ++ version)

/-- A worker that runs the binary at its path, a staged binary, and how each operation goes. -/
structure Promotion (β : Type) [Inhabited β] where
  disk : Disk β
  stagedPath : String
  version : String
  execPath : String
  running : β
  staged : β
  outcome : Op → Outcome β
  present : disk.files execPath = some running
  isStaged : disk.files stagedPath = some staged
  /-- The process lives, and no two operations fail. -/
  lives : ∀ operation left, outcome operation ≠ .dies left
  single : ∀ a b, outcome a ≠ .ok → outcome b ≠ .ok → a = b
  named : execPath ≠ ""
  links : ∀ path ∈ linkPaths, path ≠ execPath ∧ path ≠ backupPath execPath
  stagedApart : stagedPath ≠ execPath ∧ stagedPath ≠ backupPath execPath
  /-- The executable is a file of its own, or the release file. -/
  located : (∀ made, releasePath version execPath made ∉ [execPath,backupPath execPath,stagedPath]) ∨
    ∀ made, releasePath version execPath made = execPath

namespace Promotion
variable {β : Type} [Inhabited β]

def result (p : Promotion β) : Disk β × Option Bool :=
  Disk.run p.outcome (promoteStagedRelease p.stagedPath p.version p.execPath) p.disk

/-- Success means the staged binary in place and the one before it in the backup, and an error that nothing has
changed. -/
def Lawful (p : Promotion β) : Prop :=
  (p.result.2 = some true → p.result.1.files p.execPath = some p.staged ∧
    p.result.1.files (backupPath p.execPath) = some p.running) ∧
  (p.result.2 ≠ some true → p.result.1.files p.execPath = some p.running)

def IsRelease (p : Promotion β) : Prop := ∀ made, releasePath p.version p.execPath made = p.execPath

instance (p : Promotion β) : Decidable p.IsRelease := inferInstanceAs (Decidable (∀ _ : Bool, _))

end Promotion

variable {β : Type} [Inhabited β] {outcome : Op → Outcome β} {d : Disk β} {execPath target path : String}
variable {Q : Disk β → Option Bool → Prop} {next : Bool → Program} {binary : β}

theorem Ends.removeFile (fine : outcome (.remove path) = .ok)
    (rest : ∀ d' : Disk β, ∀ went, d'.files path = none → (∀ other ≠ path, d'.files other = d.files other) →
      Ends outcome (next went) d' Q) : Ends outcome (.op (.remove path) next) d Q := by
  obtain ⟨log,performed,-,-⟩ := perform_eq d (.remove path)
  unfold Ends run
  rw [fine]
  refine rest _ _ ?_ fun other differ => ?_
  · rw [performed]
    simp only [effect]
    split
    · rename_i gone
      exact gone.1
    · simp [setFile,setLink]
  · rw [performed]
    exact files_effect (by simpa [Op.targets] using differ)

theorem Ends.renameFile {source target : String} (fine : outcome (.rename source target) = .ok)
    (there : (d.files source).isSome) (differ : source ≠ target)
    (rest : ∀ d' : Disk β, d'.files target = d.files source → d'.files source = none → Ends outcome (next true) d' Q) :
    Ends outcome (.op (.rename source target) next) d Q := by
  obtain ⟨content,isContent⟩ := Option.isSome_iff_exists.mp there
  have moved : d.effect (.rename source target) =
      ((((d.setFile target (some content)).setLink target (d.links source)).setFile source none).setLink source none,true) := by
    simp [effect,isContent,differ]
  refine Ends.ok fine (by rw [moved]) (rest _ ?_ ?_)
  · rw [moved]
    simp [setFile,setLink,differ.symm,isContent]
  · rw [moved]
    simp [setFile,setLink]

/-- What is not there is not copied. -/
theorem Ends.missing {source target : String} (fine : outcome (.copyFile source target) = .ok)
    (gone : d.files source = none) (rest : Ends outcome (next false) d Q) :
    Ends outcome (.op (.copyFile source target) next) d Q := by
  have nothing : d.effect (.copyFile source target) = (d,false) := by
    simp [effect,gone]
  unfold Ends run
  rw [fine]
  dsimp only
  unfold perform
  rw [nothing]
  exact rest

def Returns (value : Bool) : Program → Prop
  | .ret result => result = value
  | .op _ next => ∀ went, Returns value (next went)
  | .readlink _ next => ∀ text, Returns value (next text)

theorem run_returns {program : Program} {value : Bool} (returns : Returns value program)
    (lives : ∀ operation left, outcome operation ≠ .dies left) : (run outcome program d).2 = some value := by
  induction program generalizing d with
  | ret result => exact congrArg some returns
  | readlink path next ih => exact ih _ (returns _)
  | op operation next ih =>
    unfold run
    cases how : outcome operation with
    | dies left => exact absurd how (lives operation left)
    | fails left | ok => exact ih _ (returns _)

theorem linkRelease_returns (target : String) : Returns true (linkRelease target) := by
  have promote : Returns true (.op (.remove currentLinkTmp) fun _ =>
      .op (.symlink target currentLinkTmp) fun linked =>
      if linked then .op (.rename currentLinkTmp currentLink) fun _ => .ret true else .ret true) := by
    intro _ linked
    cases linked with
    | true => exact fun _ => rfl
    | false => rfl
  intro _ text
  cases text with
  | some text => exact fun _ => promote
  | none => exact promote

/-- The links are none of the executable's business, and it ends well whatever becomes of them. -/
theorem linkRelease_whole (target : String) (lives : ∀ operation left, outcome operation ≠ .dies left)
    (links : ∀ path ∈ linkPaths, path ≠ execPath ∧ path ≠ backupPath execPath) :
    Ends outcome (linkRelease target) d fun d' result => d'.files execPath = d.files execPath ∧
      d'.files (backupPath execPath) = d.files (backupPath execPath) ∧ result = some true := by
  let Kept : Disk β → Prop := fun d' => d'.files execPath = d.files execPath ∧
    d'.files (backupPath execPath) = d.files (backupPath execPath)
  have effects : ∀ link : Op, link.OnLinks → ∀ d', Kept d' → Kept (d'.effect link).1 := by
    rintro link onLinks d' ⟨exec,backup⟩
    exact ⟨(files_effect fun member => (links _ (targets_onLinks onLinks member)).1 rfl).trans exec,
      (files_effect fun member => (links _ (targets_onLinks onLinks member)).2 rfl).trans backup⟩
  have spoils : ∀ link : Op, link.OnLinks → ∀ d' left, Kept d' → Kept (d'.spoil link left) := by
    rintro link onLinks d' left ⟨exec,backup⟩
    exact ⟨(files_spoil fun member => (links _ (targets_onLinks onLinks member)).1 rfl).trans exec,
      (files_spoil fun member => (links _ (targets_onLinks onLinks member)).2 rfl).trans backup⟩
  have kept : Kept (run outcome (linkRelease target) d).1 :=
    run_keeps linkRelease_only effects spoils (fun _ _ _ holds => holds) ⟨rfl,rfl⟩
  exact ⟨kept.1,kept.2,run_returns (linkRelease_returns target) lives⟩

omit [Inhabited β] in
theorem outcome_fails (lives : ∀ operation left, outcome operation ≠ .dies left) {operation : Op}
    (failed : outcome operation ≠ .ok) : ∃ left, outcome operation = .fails left := by
  cases how : outcome operation with
  | ok => exact absurd how failed
  | fails left => exact ⟨left,rfl⟩
  | dies left => exact absurd how (lives operation left)

section
variable (links : ∀ path ∈ linkPaths, path ≠ execPath ∧ path ≠ backupPath execPath) (named : execPath ≠ "")
include links named

theorem replaces : replaceExecutable target execPath =
    .op (.remove (backupPath execPath)) fun _ =>
    .op (.rename execPath (backupPath execPath)) fun _ =>
    .op (.copyFile target execPath) fun copied =>
    if copied then linkRelease target
    else .op (.rename (backupPath execPath) execPath) fun _ => .ret false := by
  have other : execPath ≠ currentLink := fun same => (links currentLink (by simp [linkPaths])).1 same.symm
  unfold replaceExecutable
  rw [if_pos ⟨named,other⟩]

variable (lives : ∀ operation left, outcome operation ≠ .dies left)
variable (single : ∀ a b, outcome a ≠ .ok → outcome b ≠ .ok → a = b)
include lives single

/-- With the executable backed up, either all goes well or it is put back. -/
theorem replaceExecutable_backedUp (apart : target ≠ execPath ∧ target ≠ backupPath execPath)
    (there : (d.files target).isSome) (present : (d.files execPath).isSome)
    (backedUp : outcome (.rename execPath (backupPath execPath)) = .ok) :
    Ends outcome (replaceExecutable target execPath) d fun d' result =>
      (result = some true ∧ d'.files execPath = d.files target ∧ d'.files (backupPath execPath) = d.files execPath) ∨
        (result = some false ∧ d'.files execPath = d.files execPath) := by
  rw [replaces links named]
  refine Ends.any (lives _) fun d₁ _ removed => ?_
  have exec₁ : d₁.files execPath = d.files execPath := removed.files _ (by simpa [Op.targets] using backup_ne)
  have target₁ : d₁.files target = d.files target := removed.files _ (by simpa [Op.targets] using apart.2)
  refine Ends.rename backedUp (by rwa [exec₁]) backup_ne fun d₂ backup others _ _ => ?_
  have target₂ : d₂.files target = d.files target := (others _ (by simp [apart.1,apart.2])).trans target₁
  cases copied : outcome (.copyFile target execPath) with
  | ok =>
    refine Ends.copyFile copied (by rwa [target₂]) apart.1 fun d₃ exec others _ _ => ?_
    obtain ⟨exec₄,backup₄,ended⟩ := linkRelease_whole (d := d₃) target lives links
    exact .inl ⟨ended,exec₄.trans (exec.trans target₂),
      backup₄.trans ((others _ (by simpa using backup_ne.symm)).trans (backup.trans exec₁))⟩
  | dies left => exact absurd copied (lives _ left)
  | fails left =>
    have restored : outcome (.rename (backupPath execPath) execPath) = .ok := by
      by_contra failed
      have same := single _ (.copyFile target execPath) failed (by rw [copied]; simp)
      exact Op.noConfusion same
    have kept : (d₂.spoil (.copyFile target execPath) left).files (backupPath execPath) = d₂.files (backupPath execPath) :=
      files_spoil (by simpa [Op.targets] using backup_ne.symm)
    refine Ends.fails copied (Ends.rename restored ?_ backup_ne.symm fun d₃ exec _ _ _ => ?_)
    · rw [kept,backup,exec₁]
      exact present
    · exact .inr ⟨rfl,exec.trans (kept.trans (backup.trans exec₁))⟩

/-- Without a backup it is overwritten all the same. -/
theorem replaceExecutable_lost (there : (d.files target).isSome) (apart : target ≠ backupPath execPath)
    (failed : outcome (.rename execPath (backupPath execPath)) ≠ .ok) :
    Ends outcome (replaceExecutable target execPath) d fun d' result =>
      result = some true ∧ d'.files (backupPath execPath) = none := by
  have fine {operation : Op} (other : operation ≠ .rename execPath (backupPath execPath)) : outcome operation = .ok := by
    by_contra also
    exact other (single _ _ also failed)
  obtain ⟨left,failed⟩ := outcome_fails lives failed
  rw [replaces links named]
  refine Ends.removeFile (fine Op.noConfusion) fun d₁ _ gone others => Ends.fails failed ?_
  have target₁ : (d₁.files target).isSome := by rwa [others _ apart]
  obtain ⟨content,isContent⟩ := Option.isSome_iff_exists.mp target₁
  refine Ends.ok (fine Op.noConfusion) ?_ ?_
  · change (d₁.effect (.copyFile target execPath)).2 = true
    simp only [effect,isContent]
  · obtain ⟨_,backup,ended⟩ := linkRelease_whole
      (d := {(d₁.effect (.copyFile target execPath)).1 with log := d₁.log ++ [.copyFile target execPath]}) target lives links
    refine ⟨ended,backup.trans ?_⟩
    exact (files_effect (by simpa [Op.targets] using backup_ne.symm)).trans gone

/-- The release cannot be copied onto itself once it is the backup. -/
theorem replaceExecutable_itself (present : (d.files execPath).isSome)
    (backedUp : outcome (.rename execPath (backupPath execPath)) = .ok) :
    Ends outcome (replaceExecutable execPath execPath) d fun d' result => result = some false ∧
      (outcome (.rename (backupPath execPath) execPath) = .ok → d'.files execPath = d.files execPath) ∧
      (outcome (.rename (backupPath execPath) execPath) ≠ .ok → d'.files execPath = none) := by
  rw [replaces links named]
  refine Ends.any (lives _) fun d₁ _ removed => ?_
  have exec₁ : d₁.files execPath = d.files execPath := removed.files _ (by simpa [Op.targets] using backup_ne)
  refine Ends.renameFile backedUp (by rwa [exec₁]) backup_ne fun d₂ backup gone => ?_
  rw [exec₁] at backup
  cases copied : outcome (.copyFile execPath execPath) with
  | dies left => exact absurd copied (lives _ left)
  | fails left =>
    have restored : outcome (.rename (backupPath execPath) execPath) = .ok := by
      by_contra failed
      have same := single _ (.copyFile execPath execPath) failed (by rw [copied]; simp)
      exact Op.noConfusion same
    have kept : (d₂.spoil (.copyFile execPath execPath) left).files (backupPath execPath) = d₂.files (backupPath execPath) :=
      files_spoil (by simpa [Op.targets] using backup_ne.symm)
    refine Ends.fails copied (Ends.rename restored ?_ backup_ne.symm fun d₃ exec _ _ _ => ?_)
    · rw [kept,backup]
      exact present
    · exact ⟨rfl,fun _ => exec.trans (kept.trans backup),fun failed => absurd restored failed⟩
  | ok =>
    refine Ends.missing copied gone ?_
    cases restored : outcome (.rename (backupPath execPath) execPath) with
    | dies left => exact absurd restored (lives _ left)
    | ok =>
      refine Ends.rename restored (by rwa [backup]) backup_ne.symm fun d₃ exec _ _ _ => ?_
      exact ⟨rfl,fun _ => exec.trans backup,fun failed => absurd rfl failed⟩
    | fails left =>
      refine Ends.fails restored ⟨rfl,fun fine => ?_,fun _ => gone⟩
      cases fine

end

/-- What precedes the replacement brings the staged binary to its release path. -/
theorem promote_ends (p : Promotion β)
    (rest : ∀ made, ∀ d : Disk β, d.files (releasePath p.version p.execPath made) = some p.staged →
      (releasePath p.version p.execPath made ≠ p.execPath → d.files p.execPath = some p.running) →
      Ends p.outcome (replaceExecutable (releasePath p.version p.execPath made) p.execPath) d Q) :
    Ends p.outcome (promoteStagedRelease p.stagedPath p.version p.execPath) p.disk Q := by
  unfold promoteStagedRelease
  refine Ends.any (p.lives _) fun d₁ made first => ?_
  dsimp only
  have named : join (if made = true then releasesDir else dir p.execPath) ("worker-" ++ p.version) =
      releasePath p.version p.execPath made := rfl
  rw [named]
  have rest := rest made
  generalize target : releasePath p.version p.execPath made = path at rest
  have apart : p.stagedPath ≠ path := by
    rcases p.located with other | release
    · have outside := other made
      rw [target] at outside
      simp only [List.mem_cons,List.not_mem_nil,or_false,not_or] at outside
      exact fun same => outside.2.2 same.symm
    · exact fun same => p.stagedApart.1 (same.trans (target.symm.trans (release made)))
  refine Ends.any (p.lives _) fun d₂ _ removed => ?_
  have staged₂ : d₂.files p.stagedPath = some p.staged := by
    rw [removed.files _ (by simpa [Op.targets] using apart),first.files _ List.not_mem_nil,p.isStaged]
  have running₂ (other : path ≠ p.execPath) : d₂.files p.execPath = some p.running := by
    rw [removed.files _ (by simpa [Op.targets] using other.symm),first.files _ List.not_mem_nil,p.present]
  have finish (d₃ : Disk β) (placed : d₃.files path = some p.staged)
      (running : path ≠ p.execPath → d₃.files p.execPath = some p.running) :
      Ends p.outcome (.op (.chmod path) fun _ => replaceExecutable path p.execPath) d₃ Q :=
    Ends.any (p.lives _) fun d₄ _ touched => rest d₄ (by rw [touched.files _ List.not_mem_nil,placed])
      fun other => by rw [touched.files _ List.not_mem_nil,running other]
  cases moved : p.outcome (.rename p.stagedPath path) with
  | dies left => exact absurd moved (p.lives _ left)
  | ok =>
    refine Ends.rename moved (by rw [staged₂]; rfl) apart fun d₃ placed others _ _ => ?_
    rw [if_pos rfl]
    refine finish d₃ (placed.trans staged₂) fun other => ?_
    rw [others _ (by simp [p.stagedApart.1.symm,other.symm]),running₂ other]
  | fails left =>
    have copied : p.outcome (.copyFile p.stagedPath path) = .ok := by
      by_contra failed
      have same := p.single _ (.rename p.stagedPath path) failed (by rw [moved]; simp)
      exact Op.noConfusion same
    refine Ends.fails moved ?_
    rw [if_neg Bool.false_ne_true]
    refine Ends.copyFile copied (by change (d₂.files p.stagedPath).isSome; rw [staged₂]; rfl) apart
      fun d₃ placed others _ _ => ?_
    rw [if_pos rfl]
    refine Ends.any (p.lives _) fun d₄ _ gone => finish d₄ ?_ fun other => ?_
    · rw [gone.files _ (by simpa [Op.targets] using apart.symm),placed]
      exact staged₂
    · rw [gone.files _ (by simpa [Op.targets] using p.stagedApart.1.symm),others _ (by simpa using other.symm)]
      exact running₂ other

/-- A worker started from the release file, and an update with which nothing goes wrong. -/
def fromRelease : Promotion String where
  disk :=
    ⟨fun path =>
        if path = "/var/lib/vigile/releases/worker-latest" then some "1.0"
        else if path = "/var/lib/vigile/staging/worker-latest.tmp" then some "2.0" else none,
      fun path => if path = currentLink then some "/var/lib/vigile/releases/worker-latest" else none,true,fun _ => none,[]⟩
  stagedPath := "/var/lib/vigile/staging/worker-latest.tmp"
  version := "latest"
  execPath := "/var/lib/vigile/releases/worker-latest"
  running := "1.0"
  staged := "2.0"
  outcome _ := .ok
  present := rfl
  isStaged := by decide
  lives _ _ dies := by cases dies
  single _ _ failed := absurd rfl failed
  named := by decide
  links := by decide
  stagedApart := by decide
  located := .inr (by decide +kernel)

end Vigile.ReleasePromotion
