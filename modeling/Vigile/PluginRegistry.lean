import Vigile.PluginManifest

/-! The discovery of plugins by the manifests of their packages. -/
namespace Vigile.PluginRegistry

open Python PluginManifest

/-- A directory of a scan: no `manifest.json`, one that cannot be read as JSON, or its value. -/
structure Package where
  entry : String
  manifest : Option (Except String Json)

structure Registry where
  manifests : OrderedMap String Manifest
  manifestDirs : OrderedMap String String
  errors : OrderedMap String String
  v2Manifests : OrderedMap String ManifestV2

/-- What a scan relies on besides pydantic: the text of a validation error, and `str` of a JSON value. -/
structure Texts where
  pydantic : Pydantic
  error : Json → String
  str : Json → String

section
variable (py : Texts)

/-- `[str(d) for d in raw]`, for what can be iterated. -/
def strings : Json → Option (List String)
  | .array items => some (items.map py.str)
  | .object fields => some (fields.map Prod.fst)
  | .str text => some (text.toList.map fun c => String.ofList [c])
  | _ => none

def attachRawExtras (v2 : ManifestV2) (data : Fields) : Option ManifestV2 :=
  let raw_domains := data.get "external_auth_domains"
  if raw_domains.truthy ∧ v2.externalAuthDomains.getD [] = [] then
    (strings py raw_domains).map fun domains => {v2 with externalAuthDomains := some domains}
  else some v2

/-- Those attributes of a V2 manifest that the compatibility manifest reads. -/
def getAttr (v2 : ManifestV2) (name : String) : Except PyError Json :=
  if name = "id" then .ok (.str v2.id)
  else if name = "version" then .ok (.str v2.version)
  else if name = "external_auth_domains" then
    .ok (v2.externalAuthDomains.elim .null fun domains => .array (domains.map .str))
  else .error (.attributeError ("'PluginManifestV2' object has no attribute '" ++ name ++ "'"))

/-- The manifest of the first model that is built for a plugin of the second. -/
def compatManifest (v2 : ManifestV2) : Except PyError Manifest := do
  let id ← getAttr v2 "id"
  let name ← getAttr v2 "name"
  let version ← getAttr v2 "version"
  let author ← getAttr v2 "author"
  let description ← getAttr v2 "description"
  let icon ← getAttr v2 "icon"
  let category ← getAttr v2 "category"
  let trusted := (getAttr v2 "trusted").toOption.getD (.bool true)
  let domains ← getAttr v2 "external_auth_domains"
  match pluginManifest py.pydantic [("id",id),("name",name.or id),("version",version),("author",author),
      ("description",description),("icon",icon),("category",category),("trusted",trusted),
      ("external_auth_domains",domains)] with
  | some manifest => .ok manifest
  | none => .error (.valueError "validation error for PluginManifest")

/-- What the first model makes of the contents. -/
def readV1 : Json → Option Manifest := objectOf (pluginManifest py.pydantic)

/-- What the second model makes of them, with the raw extras. -/
def readV2 : Json → Option ManifestV2 := objectOf fun fields =>
  (loadAndValidateManifest py.pydantic fields).bind fun v2 => attachRawExtras py v2 fields

def scanPackageDir (scanDir : String) (r : Registry) (package : Package) : Registry :=
  match package.manifest with
  | none => r
  | some (.error error) => {r with errors := r.errors.set package.entry error}
  | some (.ok data) =>
    match readV1 py data with
    | some manifest =>
      let discovered := {r with
        manifests := r.manifests.set manifest.id manifest
        manifestDirs := r.manifestDirs.set manifest.id scanDir}
      match readV2 py data with
      | some v2 => {discovered with v2Manifests := discovered.v2Manifests.set manifest.id v2}
      | none => discovered
    | none =>
      match readV2 py data with
      | none => {r with errors := r.errors.set package.entry (py.error data)}
      | some v2 =>
        let shadowed := {r with
          v2Manifests := r.v2Manifests.set v2.id v2
          manifestDirs := r.manifestDirs.set v2.id scanDir}
        match compatManifest py v2 with
        | .ok compat => {shadowed with manifests := shadowed.manifests.set compat.id compat}
        | .error _ => shadowed

/-- The directories of a scan with their packages; each is listed in the order of its entries. -/
def scan (r : Registry) (dirs : List (String × List Package)) : Registry :=
  dirs.foldl (fun r dir => (dir.2.mergeSort fun a b => a.entry ≤ b.entry).foldl (scanPackageDir py dir.1) r)
    {r with manifests := .empty,errors := .empty}

/-! What discovery is for -/

def Package.v1 (package : Package) : Option Manifest :=
  match package.manifest with
  | some (.ok data) => readV1 py data
  | _ => none

def Package.v2 (package : Package) : Option ManifestV2 :=
  match package.manifest with
  | some (.ok data) => objectOf (loadAndValidateManifest py.pydantic) data
  | _ => none

def Package.id (package : Package) : Option String :=
  ((package.v1 py).map Manifest.id).or ((package.v2 py).map ManifestV2.id)

def packages (dirs : List (String × List Package)) : List Package := dirs.flatMap Prod.snd

/-- Each accepted manifest is found under its id, and each other one has an error. -/
structure Recorded (dirs : List (String × List Package)) (r : Registry) : Prop where
  found : ∀ package ∈ packages dirs, ∀ id, package.id py = some id → ∃ manifest, r.manifests.get? id = some manifest
  errors : ∀ package ∈ packages dirs, package.manifest ≠ none → package.id py = none →
    ∃ error, r.errors.get? package.entry = some error

/-- No two packages have manifests of one id. -/
def DistinctIds (dirs : List (String × List Package)) : Prop := ((packages dirs).filterMap (Package.id py)).Nodup

/-- No package has a manifest of the second model alone. -/
def NoV2Only (dirs : List (String × List Package)) : Prop :=
  ∀ package ∈ packages dirs, (package.v2 py).isSome = true → (package.v1 py).isSome = true

end

variable {py : Texts} {r : Registry} {package : Package} {scanDir : String}

/-- A V2 manifest has no name. -/
theorem compatManifest_error (v2 : ManifestV2) : ∃ error, compatManifest py v2 = .error error := ⟨_,rfl⟩

/-- The raw extras can always be attached to a validated manifest, which keeps its id. -/
theorem attachRawExtras_loaded {data : Fields} {v2 : ManifestV2} (loaded : loadAndValidateManifest py.pydantic data = some v2) :
    ∃ attached, attachRawExtras py v2 data = some attached ∧ attached.id = v2.id := by
  have domains : defaulted data "external_auth_domains" (nullable (listOf (trimmed py.pydantic))) none =
      some v2.externalAuthDomains := by
    unfold loadAndValidateManifest at loaded
    split at loaded
    · exact (pluginManifestV2_iff.mp loaded).externalAuthDomains
    · have read := (pluginManifestV2_iff.mp loaded).externalAuthDomains
      rwa [defaulted_copied (by decide)] at read
    · simp at loaded
  have iterable : (data.get "external_auth_domains").truthy → ∃ texts, strings py (data.get "external_auth_domains") = some texts := by
    unfold defaulted at domains
    unfold Fields.get
    cases found : data.lookup "external_auth_domains" with
    | none => simp [Json.truthy]
    | some value =>
      rw [found] at domains
      cases value with
      | null => simp [Json.truthy]
      | array items => exact fun _ => ⟨_,rfl⟩
      | _ => simp [nullable,listOf] at domains
  unfold attachRawExtras
  dsimp only
  split_ifs with missing
  · obtain ⟨texts,listed⟩ := iterable missing.1
    exact ⟨{v2 with externalAuthDomains := some texts},by rw [listed,Option.map_some],rfl⟩
  · exact ⟨v2,rfl,rfl⟩

theorem readV2_isSome (data : Json) :
    (readV2 py data).isSome = (objectOf (loadAndValidateManifest py.pydantic) data).isSome := by
  cases data with
  | object fields =>
    simp only [readV2,objectOf]
    cases loaded : loadAndValidateManifest py.pydantic fields with
    | none => rfl
    | some v2 =>
      obtain ⟨attached,extended,-⟩ := attachRawExtras_loaded loaded
      simp [extended]
  | _ => rfl

/-- A package adds the manifest that the first model reads, and nothing else is found. -/
theorem manifests_scanPackageDir : (scanPackageDir py scanDir r package).manifests =
    match package.v1 py with
    | some manifest => r.manifests.set manifest.id manifest
    | none => r.manifests := by
  unfold scanPackageDir Package.v1
  cases package.manifest with
  | none => rfl
  | some contents =>
    cases contents with
    | error error => rfl
    | ok data =>
      dsimp only
      cases readV1 py data with
      | some manifest => cases readV2 py data <;> rfl
      | none =>
        cases readV2 py data with
        | none => rfl
        | some v2 =>
          obtain ⟨error,failed⟩ : ∃ error, compatManifest py v2 = .error error := compatManifest_error v2
          simp only [failed]

/-- A package has an error where its manifest cannot be read or both models reject it. -/
theorem errors_scanPackageDir (entry : String) :
    ((scanPackageDir py scanDir r package).errors.get? entry).isSome = true ↔
      (package.entry = entry ∧ package.manifest ≠ none ∧ package.id py = none) ∨ (r.errors.get? entry).isSome = true := by
  have set_isSome (error : String) : ((r.errors.set package.entry error).get? entry).isSome = true ↔
      package.entry = entry ∨ (r.errors.get? entry).isSome = true := by
    by_cases same : entry = package.entry
    · simp [same]
    · rw [OrderedMap.get?_set_of_ne same]
      simp [Ne.symm same]
  unfold scanPackageDir Package.id Package.v1 Package.v2
  cases package.manifest with
  | none => simp
  | some contents =>
    cases contents with
    | error error => simpa using set_isSome error
    | ok data =>
      have second : (readV2 py data).isSome = (objectOf (loadAndValidateManifest py.pydantic) data).isSome :=
        readV2_isSome data
      dsimp only
      cases readV1 py data with
      | some manifest => cases readV2 py data <;> simp
      | none =>
        cases read : readV2 py data with
        | none =>
          rw [read] at second
          have rejected : objectOf (loadAndValidateManifest py.pydantic) data = none := by
            simpa using second.symm
          simpa [rejected] using set_isSome (py.error data)
        | some v2 =>
          rw [read] at second
          obtain ⟨loaded,accepted⟩ := Option.isSome_iff_exists.mp second.symm
          obtain ⟨error,failed⟩ : ∃ error, compatManifest py v2 = .error error := compatManifest_error v2
          simp [failed,accepted]

def visited (dirs : List (String × List Package)) : List (String × Package) :=
  dirs.flatMap fun dir => (dir.2.mergeSort fun a b => a.entry ≤ b.entry).map (dir.1,·)

def run (py : Texts) (r : Registry) (visits : List (String × Package)) : Registry :=
  visits.foldl (fun r visit => scanPackageDir py visit.1 r visit.2) r

theorem scan_eq_run (r : Registry) (dirs : List (String × List Package)) :
    scan py r dirs = run py {r with manifests := .empty,errors := .empty} (visited dirs) := by
  unfold scan visited run
  generalize ({r with manifests := .empty,errors := .empty} : Registry) = start
  induction dirs generalizing start with
  | nil => rfl
  | cons dir dirs ih =>
    rw [List.foldl_cons,List.flatMap_cons,List.foldl_append,List.foldl_map]
    exact ih _

theorem mem_packages {dirs : List (String × List Package)} :
    package ∈ packages dirs ↔ ∃ visit ∈ visited dirs, visit.2 = package := by
  unfold packages visited
  simp only [List.mem_flatMap,List.mem_map,List.mem_mergeSort]
  constructor
  · rintro ⟨dir,member,inside⟩
    exact ⟨(dir.1,package),⟨dir,member,package,inside,rfl⟩,rfl⟩
  · rintro ⟨visit,⟨dir,member,found,inside,rfl⟩,rfl⟩
    exact ⟨dir,member,inside⟩

/-- What is found is what the first model reads. -/
theorem manifests_run (start : Registry) (empty : ∀ id, start.manifests.get? id = none) (visits : List (String × Package))
    (id : String) : (∃ manifest, (run py start visits).manifests.get? id = some manifest) ↔
      ∃ visit ∈ visits, (visit.2.v1 py).map Manifest.id = some id := by
  induction visits using List.reverseRecOn with
  | nil => simp [run,empty]
  | append_singleton visits last ih =>
    have stepped : (run py start (visits ++ [last])).manifests =
        (scanPackageDir py last.1 (run py start visits) last.2).manifests := by simp [run]
    rw [stepped,manifests_scanPackageDir]
    cases read : last.2.v1 py with
    | none =>
      rw [ih]
      simp [or_and_right,exists_or,read]
    | some manifest =>
      by_cases same : id = manifest.id
      · subst same
        refine iff_of_true ⟨manifest,OrderedMap.get?_set_self⟩ ⟨last,by simp,by rw [read,Option.map_some]⟩
      · simp only [OrderedMap.get?_set_of_ne same,ih]
        simp [or_and_right,exists_or,read,Ne.symm same]

theorem errors_run (start : Registry) (empty : ∀ entry, start.errors.get? entry = none) (visits : List (String × Package))
    (entry : String) : ((run py start visits).errors.get? entry).isSome = true ↔
      ∃ visit ∈ visits, visit.2.entry = entry ∧ visit.2.manifest ≠ none ∧ visit.2.id py = none := by
  induction visits using List.reverseRecOn with
  | nil => simp [run,empty]
  | append_singleton visits last ih =>
    have stepped : (run py start (visits ++ [last])).errors =
        (scanPackageDir py last.1 (run py start visits) last.2).errors := by simp [run]
    rw [stepped,errors_scanPackageDir,ih]
    simp only [List.mem_append,List.mem_singleton,or_and_right,exists_or,exists_eq_left]
    exact or_comm

variable {dirs : List (String × List Package)}

theorem manifests_scan (id : String) : (∃ manifest, (scan py r dirs).manifests.get? id = some manifest) ↔
    ∃ package ∈ packages dirs, (package.v1 py).map Manifest.id = some id := by
  rw [scan_eq_run,manifests_run _ fun _ => rfl]
  constructor
  · rintro ⟨visit,inside,read⟩
    exact ⟨visit.2,mem_packages.mpr ⟨visit,inside,rfl⟩,read⟩
  · rintro ⟨package,member,read⟩
    obtain ⟨visit,inside,rfl⟩ := mem_packages.mp member
    exact ⟨visit,inside,read⟩

theorem errors_scan (member : package ∈ packages dirs) (present : package.manifest ≠ none) (rejected : package.id py = none) :
    ∃ error, (scan py r dirs).errors.get? package.entry = some error := by
  obtain ⟨visit,inside,rfl⟩ := mem_packages.mp member
  rw [scan_eq_run]
  exact Option.isSome_iff_exists.mp ((errors_run _ (fun _ => rfl) _ _).mpr ⟨visit,inside,rfl,present,rejected⟩)

theorem eq_of_nodup_filterMap {α β : Type} {f : α → Option β} {xs : List α} (distinct : (xs.filterMap f).Nodup)
    {x y : α} (inX : x ∈ xs) (inY : y ∈ xs) {b : β} (fX : f x = some b) (fY : f y = some b) : x = y := by
  induction xs with
  | nil => simp at inX
  | cons first rest ih =>
    rw [List.filterMap_cons] at distinct
    have tail : (rest.filterMap f).Nodup := by
      split at distinct
      · exact distinct
      · exact (List.nodup_cons.mp distinct).2
    have apart {other : α} (inside : other ∈ rest) (fFirst : f first = some b) (fOther : f other = some b) : False := by
      simp only [fFirst] at distinct
      exact (List.nodup_cons.mp distinct).1 (List.mem_filterMap.mpr ⟨other,inside,fOther⟩)
    rcases List.mem_cons.mp inX with rfl | restX
    · rcases List.mem_cons.mp inY with rfl | restY
      · rfl
      · exact (apart restY fX fY).elim
    · rcases List.mem_cons.mp inY with rfl | restY
      · exact (apart restX fY fX).elim
      · exact ih tail restX restY

/-- What is recorded under the id of a package of the second model alone would be another package's. -/
theorem noV2Only_of_recorded (distinct : DistinctIds py dirs) (recorded : Recorded py dirs (scan py r dirs)) :
    NoV2Only py dirs := by
  intro package member accepted
  by_contra rejected
  obtain ⟨v2,read⟩ := Option.isSome_iff_exists.mp accepted
  have none : package.v1 py = none := by simpa using rejected
  have id : package.id py = some v2.id := by simp [Package.id,none,read]
  obtain ⟨other,inside,same⟩ := (manifests_scan v2.id).mp (recorded.found package member v2.id id)
  have otherId : other.id py = some v2.id := by simp [Package.id,same]
  rw [eq_of_nodup_filterMap distinct inside member otherId id,none] at same
  simp at same

theorem recorded_of_noV2Only (both : NoV2Only py dirs) : Recorded py dirs (scan py r dirs) where
  found := by
    intro package member id accepted
    refine (manifests_scan id).mpr ⟨package,member,?_⟩
    unfold Package.id at accepted
    cases first : package.v1 py with
    | some manifest =>
      rw [first] at accepted
      exact accepted
    | none =>
      cases second : package.v2 py with
      | none => simp [first,second] at accepted
      | some v2 =>
        have known := both package member (by rw [second]; rfl)
        simp [first] at known
  errors := fun _ member present rejected => errors_scan member present rejected

def plainTexts : Texts := ⟨plainPydantic,fun _ => "validation error",fun _ => ""⟩

def emptyRegistry : Registry := ⟨.empty,.empty,.empty,.empty⟩

def v2Only : Package :=
  ⟨"demo",some (.ok (.object [("schema_version",.num 2),("id",.str "demo"),("version",.str "1.0.0")]))⟩

theorem not_recorded_v2Only :
    ¬∀ (py : Texts) (r : Registry) (dirs : List (String × List Package)), DistinctIds py dirs →
      Recorded py dirs (scan py r dirs) := by
  intro always
  have distinct : DistinctIds plainTexts [("plugins",[v2Only])] := by unfold DistinctIds; decide +kernel
  have both := noV2Only_of_recorded distinct (always plainTexts emptyRegistry [("plugins",[v2Only])] distinct)
  exact absurd (both v2Only (by simp [packages]) (by decide +kernel)) (by decide +kernel)

/-- A scan records every package where no manifest is accepted by the second model alone, and nowhere else. -/
theorem recorded_iff_noV2Only (py : Texts) (r : Registry) (dirs : List (String × List Package))
    (distinct : DistinctIds py dirs) : Recorded py dirs (scan py r dirs) ↔ NoV2Only py dirs :=
  ⟨noV2Only_of_recorded distinct,recorded_of_noV2Only⟩

theorem recorded_iff_noV2Only_broken :
    Recorded plainTexts [("plugins",[⟨"broken",some (.error "Expecting value")⟩])]
      (scan plainTexts emptyRegistry [("plugins",[⟨"broken",some (.error "Expecting value")⟩])]) :=
  (recorded_iff_noV2Only plainTexts emptyRegistry [("plugins",[⟨"broken",some (.error "Expecting value")⟩])]
    (by unfold DistinctIds; decide +kernel)).mpr fun package member accepted => by
      obtain rfl : package = ⟨"broken",some (.error "Expecting value")⟩ := by simpa [packages] using member
      simp [Package.v2] at accepted

end Vigile.PluginRegistry
