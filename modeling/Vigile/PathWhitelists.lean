import Vigile.LinkResolution

/-! The worker's whitelists of log files and of mounts, and what is opened by a path that they allow. -/
namespace Vigile.PathWhitelists

open FileTree LexicalPath

def cwdText (fs : FileSystem) : List Char := (⟨true,0,fs.cwd⟩ : Place).text

def abs (fs : FileSystem) (path : List Char) : List Char :=
  if isAbsolute path then clean path else join (cwdText fs) path

/-- `canonicalScanPath`, and the first half of `isAllowedLogPath`. -/
def canonicalPath (fs : FileSystem) (path : List Char) : List Char :=
  match evalSymlinks fs (abs fs (clean path)) with
  | .ok realPath => realPath
  | .error _ => abs fs (clean path)

/-- The path has this text in front, and a separator or nothing behind it. -/
def covers (absPath absPrefix : List Char) : Bool :=
  absPrefix.isPrefixOf absPath && (absPath.length = absPrefix.length || absPath[absPrefix.length]? = some '/')

def allowedLogPrefixes : List (List Char) :=
  ["/var/log/".toList,"/var/log/journal/".toList,"/var/lib/docker/containers/".toList]

def isAllowedLogPath (fs : FileSystem) (path : List Char) : Bool :=
  allowedLogPrefixes.any fun allowed => covers (canonicalPath fs path) (abs fs (clean allowed))

def isAllowedScanPath (fs : FileSystem) (path : List Char) (mounts : List (List Char)) : Bool :=
  mounts.length ≠ 0 && mounts.any fun mount =>
    canonicalPath fs mount = ['/'] || covers (canonicalPath fs path) (canonicalPath fs mount)

/-- Lstat finds a directory, which `walkDir` then reads. -/
def isRealDirectory (fs : FileSystem) (path : List Char) : Bool :=
  match resolve fs openLinks ⟨isAbsolute path,0,[]⟩ (components path).dropLast with
  | .ok p => ((fs.root.under (fs.location (p.enter ((components path).getLastD [])))).map Item.isDir).getD false
  | .error _ => false

def OpensLog (fs : FileSystem) (path : List Char) (location : List (List Char)) : Prop := opens fs path = .ok location

def OpensScan (fs : FileSystem) (path : List Char) (location : List (List Char)) : Prop :=
  isRealDirectory fs path = true ∧ opens fs path = .ok location

instance (fs : FileSystem) (path : List Char) (location : List (List Char)) : Decidable (OpensLog fs path location) :=
  inferInstanceAs (Decidable (_ = _))

instance (fs : FileSystem) (path : List Char) (location : List (List Char)) : Decidable (OpensScan fs path location) :=
  inferInstanceAs (Decidable (_ ∧ _))

def UnderLogs (location : List (List Char)) : Prop := ∃ allowed ∈ allowedLogPrefixes, (place allowed).names <:+ location

instance (location : List (List Char)) : Decidable (UnderLogs location) :=
  inferInstanceAs (Decidable (∃ allowed ∈ allowedLogPrefixes, _))

def UnderMounts (fs : FileSystem) (mounts : List (List Char)) (location : List (List Char)) : Prop :=
  ∃ mount ∈ mounts, ∃ root, resolvePath fs evalLinks (abs fs (clean mount)) = .ok root ∧ root.names <:+ location

/-- The location is where the cleaned path leads, which is what was checked, or below. -/
def LeadsInside (fs : FileSystem) (path : List Char) (location : List (List Char)) : Prop :=
  ∃ target, resolvePath fs evalLinks (abs fs (clean path)) = .ok target ∧ target.names <:+ location

/-- No two dots of the path come after a link. -/
def Straight (fs : FileSystem) (path : List Char) : Prop :=
  ∃ before after, components path = before ++ after ∧ ['.','.'] ∉ after ∧
    (resolve fs 0 ⟨isAbsolute path,0,[]⟩ before).isOk = true

variable {fs : FileSystem} {path mount : List Char} {mounts : List (List Char)} {location : List (List Char)}

theorem within_of_covers {absPath absPrefix : List Char} (covered : covers absPath absPrefix = true) :
    absPath = absPrefix ∨ absPrefix ++ ['/'] <+: absPath := by
  unfold covers at covered
  rw [Bool.and_eq_true,List.isPrefixOf_iff_prefix] at covered
  obtain ⟨⟨rest,rfl⟩,ends⟩ := covered
  cases rest with
  | nil => exact .inl (List.append_nil _)
  | cons c rest =>
    right
    have separator : c = '/' := by simpa using ends
    rw [separator]
    exact ⟨rest,by simp⟩

/-- The working directory is a place. -/
theorem cwd_proper (fs : FileSystem) : (⟨true,0,fs.cwd⟩ : Place).Proper :=
  ⟨fs.solid.ordinary,fs.separate,fun _ => rfl⟩

def origin (fs : FileSystem) (path : List Char) : Place := ⟨true,0,fs.location ⟨isAbsolute path,0,[]⟩⟩

theorem origin_proper (fs : FileSystem) (path : List Char) : (origin fs path).Proper ∧ Grounded fs (origin fs path) := by
  unfold origin
  cases isAbsolute path with
  | true => exact ⟨proper_start true,rfl,rfl,trivial⟩
  | false =>
    have located : fs.location ⟨false,0,[]⟩ = fs.cwd := rfl
    rw [located]
    exact ⟨cwd_proper fs,rfl,rfl,fs.solid⟩

/-- The place of the absolute path: from the working directory by the components of the path. -/
theorem abs_clean (fs : FileSystem) (path : List Char) :
    abs fs (clean path) = (walk (origin fs path) (components path)).text := by
  have same : isAbsolute (clean path) = isAbsolute path :=
    (isAbsolute_text (place_proper path)).trans (place_absolute path)
  unfold abs origin
  rw [same]
  cases absolute : isAbsolute path with
  | true =>
    rw [if_pos rfl]
    have start : place path = walk ⟨true,0,[]⟩ (components path) := by
      unfold place
      rw [absolute]
    exact (clean_text (place_proper path)).trans (congrArg Place.text start)
  | false =>
    have located : fs.location ⟨false,0,[]⟩ = fs.cwd := rfl
    have begins : isAbsolute (cwdText fs ++ '/' :: clean path) = true := by
      unfold cwdText Place.text
      rfl
    have home : walk ⟨true,0,[]⟩ (components (cwdText fs)) = ⟨true,0,fs.cwd⟩ := by
      have whole := place_text (cwd_proper fs)
      unfold place at whole
      rwa [isAbsolute_text (cwd_proper fs)] at whole
    have floating (text : List Char) (relative : isAbsolute text = false) :
        LexicalPath.relative (components text) = place text := by
      unfold place LexicalPath.relative
      rw [relative]
    have again : walk ⟨true,0,fs.cwd⟩ (components (clean path)) = walk ⟨true,0,fs.cwd⟩ (components path) := by
      rw [walk_eq,walk_eq _ (components path),floating (clean path) (same.trans absolute),floating path absolute]
      unfold clean
      rw [place_text (place_proper path)]
    rw [if_neg (by decide),located]
    unfold join
    have named : cwdText fs ≠ [] := text_ne_nil (cwd_proper fs)
    have written : clean path ≠ [] := text_ne_nil (place_proper path)
    rw [if_neg named,if_neg written]
    have joined : place (cwdText fs ++ '/' :: clean path) = walk ⟨true,0,fs.cwd⟩ (components (clean path)) := by
      unfold place
      rw [begins,walk_slash,home]
    exact congrArg Place.text (joined.trans again)

theorem walk_origin (fs : FileSystem) (path : List Char) : (walk (origin fs path) (components path)).Proper ∧
    (walk (origin fs path) (components path)).absolute = true :=
  ⟨walk_proper (origin_proper fs path).1 fun _ member => not_mem_components member,walk_absolute _ _⟩

/-- Without two dots, only what names an entry counts. -/
theorem drops_ordinary {parts : List (List Char)} (down : ['.','.'] ∉ parts) :
    Drops parts (parts.filter fun part => Ordinary part) ∧
      ∀ p : Place, walk p parts = walk p (parts.filter fun part => Ordinary part) := by
  induction parts with
  | nil => exact ⟨.nil,fun _ => rfl⟩
  | cons part parts ih =>
    rw [List.mem_cons,not_or] at down
    obtain ⟨drops,walks⟩ := ih down.2
    by_cases ordinary : Ordinary part
    · rw [List.filter_cons_of_pos (by simpa using ordinary)]
      exact ⟨.keep part drops,fun p => walks (p.enter part)⟩
    · have still : part = [] ∨ part = ['.'] := by
        by_contra other
        obtain ⟨filled,dot⟩ := not_or.mp other
        exact ordinary ⟨filled,dot,Ne.symm down.1⟩
      rw [List.filter_cons_of_neg (by simpa using ordinary)]
      refine ⟨.drop still drops,fun p => ?_⟩
      have stays : p.enter part = p := if_pos still
      have next : walk p (part :: parts) = walk (p.enter part) parts := rfl
      rw [next,stays,walks p]

/-- A straight path leads where its cleaned form leads. -/
theorem straight_opens (straight : Straight fs path) (opened : opens fs path = .ok location) :
    opens fs (abs fs (clean path)) = .ok location := by
  obtain ⟨before,after,split,down,direct⟩ := straight
  obtain ⟨m,direct⟩ : ∃ m, resolve fs 0 ⟨isAbsolute path,0,[]⟩ before = .ok m := by
    cases direct' : resolve fs 0 ⟨isAbsolute path,0,[]⟩ before with
    | error cause => simp [direct',Except.isOk,Except.toBool] at direct
    | ok m => exact ⟨m,rfl⟩
  obtain ⟨q,reached,rfl⟩ := opens_ok opened
  have whole := resolve_location reached
  have begins := resolve_location direct
  have passed := resolve_zero begins
  obtain ⟨proper,grounded⟩ := origin_proper fs path
  have separate : ∀ part ∈ before, '/' ∉ part := fun part member =>
    not_mem_components (split ▸ List.mem_append_left after member)
  have solid := resolve_invariant (grounded_invariant fs) grounded separate begins
  obtain ⟨drops,walks⟩ := drops_ordinary down
  have ordinary : ∀ part ∈ after.filter (fun part => Ordinary part), Ordinary part := by
    intro part member
    simpa using (List.mem_filter.mp member).2
  -- the place of the cleaned path lies below what comes before the last two dots
  have target : walk (origin fs path) (components path) =
      ⟨true,0,(after.filter fun part => Ordinary part).reverse ++ fs.location m⟩ := by
    unfold origin
    rw [split,walk_append,← passed,walks,walk_ordinary _ ordinary]
  have goes : resolve fs openLinks ⟨true,0,fs.location m⟩ (after.filter fun part => Ordinary part) =
      .ok ⟨true,0,fs.location q⟩ := by
    rw [split] at whole
    exact resolve_drops drops (descend_append begins whole)
  have goes' : descend fs (resolve fs 39) ⟨true,0,(fs.location m).reverse.reverse ++ []⟩
      (after.filter fun part => Ordinary part) = .ok ⟨true,0,fs.location q⟩ := by
    rw [List.reverse_reverse,List.append_nil]
    exact goes
  have through : resolve fs openLinks ⟨true,0,[]⟩ ((fs.location m).reverse ++ after.filter fun part => Ordinary part) =
      .ok ⟨true,0,fs.location q⟩ :=
    descend_through fs (resolve fs 39) (fs.location m).reverse [] (by simpa using solid.2.2) ordinary goes'
  obtain ⟨proper',absolute⟩ := walk_origin fs path
  rw [abs_clean]
  unfold opens resolvePath
  rw [if_neg (text_ne_nil proper'),isAbsolute_text proper',absolute,components_text proper' absolute]
  have first (rest : List (List Char)) :
      resolve fs openLinks ⟨true,0,[]⟩ ([] :: rest) = resolve fs openLinks ⟨true,0,[]⟩ rest := rfl
  rw [first,target]
  have parts : ((after.filter fun part => Ordinary part).reverse ++ fs.location m).reverse =
      (fs.location m).reverse ++ after.filter fun part => Ordinary part := by simp
  by_cases none : (after.filter fun part => Ordinary part).reverse ++ fs.location m = []
  · rw [if_pos none,first]
    rw [none] at parts
    rw [← parts] at through
    rw [show resolve fs openLinks ⟨true,0,[]⟩ [] = .ok ⟨true,0,fs.location q⟩ from through]
    rfl
  · rw [if_neg none,parts,through]
    rfl

theorem abs_rooted (fs : FileSystem) (path : List Char) : isAbsolute (abs fs (clean path)) = true := by
  rw [abs_clean,isAbsolute_text (walk_origin fs path).1]
  exact (walk_origin fs path).2

theorem canonicalPath_resolved {target : Place} (reached : resolvePath fs evalLinks (abs fs (clean path)) = .ok target) :
    target.Proper ∧ Grounded fs target ∧ canonicalPath fs path = target.text := by
  refine ⟨resolvePath_proper reached,resolvePath_grounded (abs_rooted fs path) reached,?_⟩
  unfold canonicalPath evalSymlinks
  rw [reached]
  rfl

theorem straight_leadsInside (straight : Straight fs path) (opened : opens fs path = .ok location) :
    LeadsInside fs path location := by
  obtain ⟨target,reached,rfl⟩ := opens_ok (straight_opens straight opened)
  have grounded := resolvePath_grounded (abs_rooted fs path) reached
  have located : fs.location target = target.names := if_pos grounded.1
  exact ⟨target,resolve_mono (by decide) reached,located ▸ List.suffix_refl _⟩

theorem UnderLogs.below {above : List (List Char)} (under : UnderLogs above) (suffix : above <:+ location) :
    UnderLogs location := by
  obtain ⟨allowed,listed,reaches⟩ := under
  exact ⟨allowed,listed,reaches.trans suffix⟩

theorem UnderMounts.below {above : List (List Char)} (under : UnderMounts fs mounts above) (suffix : above <:+ location) :
    UnderMounts fs mounts location := by
  obtain ⟨mount,listed,root,reached,reaches⟩ := under
  exact ⟨mount,listed,root,reached,reaches.trans suffix⟩

theorem underLogs_of_allowed (allowed : isAllowedLogPath fs path = true) (inside : LeadsInside fs path location) :
    UnderLogs location := by
  obtain ⟨target,reached,below⟩ := inside
  refine UnderLogs.below ?_ below
  obtain ⟨proper,grounded,canonical⟩ := canonicalPath_resolved reached
  obtain ⟨directory,listed,covered⟩ := List.any_eq_true.mp allowed
  have fixed : ∀ directory ∈ allowedLogPrefixes, isAbsolute (clean directory) = true ∧ clean directory ≠ ['/'] := by
    decide
  have text : abs fs (clean directory) = (place directory).text := by
    unfold abs
    rw [if_pos (fixed directory listed).1]
    exact clean_clean directory
  rw [canonical,text] at covered
  exact ⟨directory,listed,(names_suffix_of_text proper (place_proper directory) grounded.1 (within_of_covers covered)
    (fixed directory listed).2).2⟩

/-- A mount that covers what can be opened has a real location above it. -/
theorem mount_above {target : Place} (proper : target.Proper) (grounded : Grounded fs target)
    (covered : canonicalPath fs mount = ['/'] ∨ covers target.text (canonicalPath fs mount) = true) :
    ∃ root, resolvePath fs evalLinks (abs fs (clean mount)) = .ok root ∧ root.names <:+ target.names := by
  have above {root : Place} (proper' : root.Proper) (same : canonicalPath fs mount = root.text) :
      root.names <:+ target.names := by
    rw [same] at covered
    by_cases whole : root.text = ['/']
    · have slash : root = place ['/'] := by rw [← whole,place_text proper']
      rw [slash]
      exact List.nil_suffix
    · exact (names_suffix_of_text proper proper' grounded.1 (within_of_covers (covered.resolve_left whole)) whole).2
  cases evaluated : evalSymlinks fs (abs fs (clean mount)) with
  | ok real =>
    obtain ⟨root,reached,proper',rfl⟩ := evalSymlinks_ok evaluated
    refine ⟨root,reached,above proper' ?_⟩
    unfold canonicalPath
    rw [evaluated]
  | error cause =>
    -- a mount that cannot be resolved has nothing below it
    obtain ⟨proper',absolute⟩ := walk_origin fs mount
    have suffix := above proper' (by
      unfold canonicalPath
      rw [evaluated]
      exact abs_clean fs mount)
    obtain ⟨names,split⟩ := suffix
    have solid : Solid fs.root (walk (origin fs mount) (components mount)).names := (split ▸ grounded.2.2).above
    have found : resolvePath fs evalLinks (abs fs (clean mount)) = .ok (walk (origin fs mount) (components mount)) := by
      rw [abs_clean]
      exact resolvePath_text ⟨absolute,proper'.rooted absolute,solid⟩ proper'
    simp [evalSymlinks,found,Except.map] at evaluated

theorem underMounts_of_allowed (allowed : isAllowedScanPath fs path mounts = true)
    (inside : LeadsInside fs path location) : UnderMounts fs mounts location := by
  obtain ⟨target,reached,below⟩ := inside
  refine UnderMounts.below ?_ below
  obtain ⟨proper,grounded,canonical⟩ := canonicalPath_resolved reached
  unfold isAllowedScanPath at allowed
  obtain ⟨mount,listed,covered⟩ := List.any_eq_true.mp (Bool.and_eq_true_iff.mp allowed).2
  rw [canonical] at covered
  obtain ⟨root,reached,suffix⟩ := mount_above proper grounded (by simpa using covered)
  exact ⟨mount,listed,root,reached,suffix⟩

/-- What `handleReadLogs` opens lies under an allowed prefix. -/
def LogSafe (fs : FileSystem) (path : List Char) : Prop :=
  isAllowedLogPath fs path = true → ∀ location, OpensLog fs path location → UnderLogs location

/-- What `handleDiskScan` opens lies under a mount. -/
def ScanSafe (fs : FileSystem) (path : List Char) (mounts : List (List Char)) : Prop :=
  isAllowedScanPath fs path mounts = true → ∀ location, OpensScan fs path location → UnderMounts fs mounts location

theorem allowed_itself (fs : FileSystem) (path : List Char) : isAllowedScanPath fs path [path] = true := by
  have same (text : List Char) : covers text text = true := by
    unfold covers
    simp
  unfold isAllowedScanPath
  simp [same]

/-- With any mounts, a scan is safe exactly if the path as it is leads where its cleaned form leads, or below. -/
theorem scanSafe_iff (fs : FileSystem) (path : List Char) :
    (∀ mounts, ScanSafe fs path mounts) ↔ ∀ location, OpensScan fs path location → LeadsInside fs path location := by
  constructor
  · intro safe location opened
    obtain ⟨mount,listed,root,reached,below⟩ := safe [path] (allowed_itself fs path) location opened
    obtain rfl := List.mem_singleton.mp listed
    exact ⟨root,reached,below⟩
  · intro inside mounts allowed location opened
    exact underMounts_of_allowed allowed (inside location opened)

/-- The whitelists hold of a path that leads where its cleaned form leads, or below, and that of the mounts, whatever
they are, of no other; the logs are read from elsewhere only where the path still ends under an allowed prefix. No
path whose dots come before its links is another. -/
theorem whitelists_safe_iff (fs : FileSystem) (path : List Char) :
    ((∀ mounts, ScanSafe fs path mounts) ↔ ∀ location, OpensScan fs path location → LeadsInside fs path location) ∧
    (LogSafe fs path ↔ isAllowedLogPath fs path = false ∨
      ∀ location, OpensLog fs path location → LeadsInside fs path location ∨ UnderLogs location) ∧
    (Straight fs path → ∀ location, opens fs path = .ok location → LeadsInside fs path location) := by
  refine ⟨scanSafe_iff fs path,⟨fun safe => ?_,?_⟩,fun straight _ => straight_leadsInside straight⟩
  · cases allowed : isAllowedLogPath fs path with
    | false => exact .inl rfl
    | true => exact .inr fun location opened => .inr (safe allowed location opened)
  · rintro (rejected | inside) allowed location opened
    · rw [rejected] at allowed
      contradiction
    · exact (inside location opened).elim (underLogs_of_allowed allowed) id

/-- The tree of a worker whose logs of one program are kept on another disk. -/
def archived : FileSystem where
  root := .directory ⟨4096,none⟩
    (.cons "data".toList (.directory ⟨4096,none⟩ (.cons "app".toList (.directory ⟨4096,none⟩ .nil)
      (.cons "secret".toList (.file ⟨6,none⟩) .nil)))
    (.cons "var".toList (.directory ⟨4096,none⟩ (.cons "log".toList (.directory ⟨4096,none⟩
      (.cons "app".toList (.symlink ⟨9,none⟩ "/data/app".toList) .nil)) .nil)) .nil))
  cwd := []
  solid := trivial
  separate := separate_nil

/-- Two dots behind the link lead out of the logs, and out of the mounts. -/
theorem archived_unsafe : ¬LogSafe archived "/var/log/app/../secret".toList ∧
    ¬ScanSafe archived "/var/log/app/..".toList ["/var/log".toList] := by
  constructor
  · intro safe
    have opened : OpensLog archived "/var/log/app/../secret".toList ["secret".toList,"data".toList] := by
      decide +kernel
    exact absurd (safe (by decide +kernel) _ opened) (by decide +kernel)
  · intro safe
    have opened : OpensScan archived "/var/log/app/..".toList ["data".toList] := by
      decide +kernel
    obtain ⟨mount,listed,root,reached,suffix⟩ := safe (by decide +kernel) _ opened
    obtain rfl := List.mem_singleton.mp listed
    have real : resolvePath archived evalLinks (abs archived (clean "/var/log".toList)) =
        .ok ⟨true,0,["log".toList,"var".toList]⟩ := by
      decide +kernel
    obtain rfl := Except.ok.inj (real.symm.trans reached)
    exact absurd suffix (by decide +kernel)

end Vigile.PathWhitelists
