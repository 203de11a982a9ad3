import Vigile.FilePath
import Vigile.OrderedMap
import Vigile.Python

/-! The cache of disk scans: a table by node and path, and the column of the node's row that the
scan of the root is also written to. -/
namespace Vigile.DiskScanCache

open Python LexicalPath

structure Scan where
  scanJson : String
  scannedAt : ℚ
  deriving DecidableEq

/-- The columns of `nodes` that a scan of the root is also written to. -/
structure NodeRow where
  cachedDiskScanJson : Option String
  cachedDiskScanAt : Option ℚ
  deriving DecidableEq

structure Store where
  disk_scans_cache : OrderedMap (String × String) Scan
  nodes : OrderedMap String NodeRow

/-- What a reader gets: the text of a scan and its time. -/
abbrev Answer : Type := Option String × Option ℚ

def reply (scan : Option Scan) : Answer := (scan.map Scan.scanJson,scan.map Scan.scannedAt)

def twoSlashes : List Char → Bool
  | '/' :: '/' :: rest => rest.head? ≠ some '/'
  | _ => false

/-- `os.path.normpath`: two leading slashes stay, more are one. -/
def normpath (path : String) : String :=
  String.ofList (if twoSlashes path.toList then '/' :: clean path.toList else clean path.toList)

def cleanPath (path : String) : String := if path = "" then "/" else normpath (strip path)

def getCachedDiskScan (s : Store) (nodeId path : String) : Answer :=
  let clean_path := cleanPath path
  match s.disk_scans_cache.get? (nodeId,clean_path) with
  | some row => (some row.scanJson,some row.scannedAt)
  | none =>
    if clean_path = "/" then
      match s.nodes.get? nodeId with
      | some legacy =>
        if legacy.cachedDiskScanJson.getD "" ≠ "" then (legacy.cachedDiskScanJson,legacy.cachedDiskScanAt)
        else (none,none)
      | none => (none,none)
    else (none,none)

/-- The UPDATE of the columns of one node. -/
def Store.legacy (s : Store) (nodeId : String) (row : NodeRow) : Store :=
  {s with nodes := s.nodes.modify fun key old => if key = nodeId then row else old}

/-- The foreign key refuses a node that has no row. -/
def setCachedDiskScan (s : Store) (nodeId path : String) (scan : Scan) : Except PyError Store :=
  let clean_path := cleanPath path
  if nodeId ∉ s.nodes.keys then .error (.integrityError "FOREIGN KEY constraint failed")
  else
    let written := {s with disk_scans_cache := s.disk_scans_cache.set (nodeId,clean_path) scan}
    .ok (if clean_path = "/" then written.legacy nodeId ⟨some scan.scanJson,some scan.scannedAt⟩ else written)

def invalidateCachedDiskScan (s : Store) (nodeId : String) (path : Option String) : Store :=
  match path with
  | some path =>
    let clean_path := normpath (strip path)
    let deleted := {s with disk_scans_cache := s.disk_scans_cache.erase (nodeId,clean_path)}
    if clean_path = "/" then deleted.legacy nodeId ⟨none,none⟩ else deleted
  | none =>
    Store.legacy {s with disk_scans_cache := s.disk_scans_cache.filter fun key _ => key.1 ≠ nodeId} nodeId ⟨none,none⟩

inductive Operation where
  | set (nodeId path : String) (scan : Scan)
  | get (nodeId path : String)
  | invalidate (nodeId : String) (path : Option String)

/-- A refused write is rolled back. -/
def step (s : Store) : Operation → Store
  | .set nodeId path scan => (setCachedDiskScan s nodeId path scan).toOption.getD s
  | .get _ _ => s
  | .invalidate nodeId path => invalidateCachedDiskScan s nodeId path

def run (s : Store) (operations : List Operation) : Store := operations.foldl step s

/-! What the cache is for -/

/-- The directory a path names, its dots and slashes resolved; the empty path names the root. -/
def directory (path : String) : Place :=
  if strip path = "" then ⟨true,0,[]⟩ else place (strip path).toList

def Equivalent (p q : String) : Prop := directory p = directory q

instance (p q : String) : Decidable (Equivalent p q) := inferInstanceAs (Decidable (_ = _))

section
variable (known : List String) (nodeId path : String)

/-- Whether an operation writes or drops the scan of this node and directory; only known nodes have scans. -/
def Operation.Touches : Operation → Prop
  | .set node p _ => node = nodeId ∧ nodeId ∈ known ∧ Equivalent p path
  | .get _ _ => False
  | .invalidate node none => node = nodeId
  | .invalidate node (some p) => node = nodeId ∧ Equivalent p path

/-- The scan is the latest that was set for this node and directory, and it was not dropped since. -/
def Latest (operations : List Operation) (scan : Scan) : Prop :=
  nodeId ∈ known ∧ ∃ (before after : List Operation) (p : String),
    operations = before ++ .set nodeId p scan :: after ∧ Equivalent p path ∧
      ∀ operation ∈ after, ¬operation.Touches known nodeId path

end

structure Fresh (s : Store) : Prop where
  scans : ∀ key, s.disk_scans_cache.get? key = none
  columns : ∀ nodeId row, s.nodes.get? nodeId = some row → row = ⟨none,none⟩

/-- After these operations the cache answers with the scan that is the latest for the node and the path. -/
structure Answers (s : Store) (operations : List Operation) (nodeId path : String) : Prop where
  latest : ∀ scan, Latest s.nodes.keys nodeId path operations scan →
    getCachedDiskScan (run s operations) nodeId path = reply (some scan)
  nothing : (∀ scan, ¬Latest s.nodes.keys nodeId path operations scan) →
    getCachedDiskScan (run s operations) nodeId path = reply none

def Undisturbed (s : Store) (operations : List Operation) (operation : Operation) (nodeId path : String) : Prop :=
  ¬operation.Touches s.nodes.keys nodeId path →
    getCachedDiskScan (run s (operations ++ [operation])) nodeId path =
      getCachedDiskScan (run s operations) nodeId path

/-! One node, whose scan of the root outlives its invalidation under the empty path -/

def oneNode : Store := ⟨.empty,OrderedMap.empty.set "n" ⟨none,none⟩⟩

theorem fresh_oneNode : Fresh oneNode where
  scans := fun _ => rfl
  columns := by
    intro nodeId row found
    by_cases same : nodeId = "n"
    · subst same
      exact (Option.some.inj ((OrderedMap.get?_set_self).symm.trans found)).symm
    · have missing : oneNode.nodes.get? nodeId = none := OrderedMap.get?_set_of_ne same
      exact absurd (missing.symm.trans found) (by simp)

theorem not_answers_invalidated_empty :
    ¬∀ (s : Store) (operations : List Operation) (nodeId path : String), Fresh s → Answers s operations nodeId path := by
  intro always
  have nothing := (always oneNode [.set "n" "" ⟨"{}",1⟩,.invalidate "n" (some "")] "n" "" fresh_oneNode).nothing
  refine absurd (nothing ?_) (by decide +kernel)
  rintro scan ⟨-,before,after,p,shape,-,later⟩
  have dropped : Operation.invalidate "n" (some "") ∈ after := by
    match before, shape with
    | [],shape =>
      simp only [List.nil_append,List.cons.injEq] at shape
      simp [← shape.2]
    | [first],shape => simp at shape
    | first :: second :: rest,shape =>
      have lengths := congrArg List.length shape
      simp at lengths
  exact later _ dropped ⟨rfl,rfl⟩

/-- Not only blanks, and not with exactly two slashes in front. -/
def PlainPath (path : String) : Prop := (path = "" ∨ strip path ≠ "") ∧ twoSlashes (strip path).toList = false

instance (path : String) : Decidable (PlainPath path) := inferInstanceAs (Decidable (_ ∧ _))

def Operation.Plain : Operation → Prop
  | .set _ path _ => PlainPath path
  | .get _ _ => True
  | .invalidate _ none => True
  | .invalidate _ (some path) => path ≠ "" ∧ PlainPath path

theorem strip_empty : strip "" = "" := by decide

theorem root_text : "/" = String.ofList (Place.text ⟨true,0,[]⟩) := by decide

theorem directory_proper (path : String) : (directory path).Proper := by
  unfold directory
  split
  · exact proper_start true
  · exact place_proper _

theorem cleanPath_plain {path : String} (plain : PlainPath path) :
    cleanPath path = String.ofList (directory path).text := by
  unfold cleanPath directory
  by_cases empty : path = ""
  · rw [if_pos empty,empty,if_pos strip_empty]
    exact root_text
  · have filled := plain.1.resolve_left empty
    rw [if_neg empty,if_neg filled]
    simp [normpath,plain.2,clean]

theorem cleanPath_eq_iff {p q : String} (plain : PlainPath p) (plain' : PlainPath q) :
    cleanPath p = cleanPath q ↔ Equivalent p q := by
  rw [cleanPath_plain plain,cleanPath_plain plain',String.ofList_inj]
  constructor
  · intro same
    unfold Equivalent
    rw [← place_text (directory_proper p),same,place_text (directory_proper q)]
  · exact congrArg Place.text

theorem cleanPath_of_ne {path : String} (some : path ≠ "") : cleanPath path = normpath (strip path) := if_neg some

structure Mirrored (s : Store) : Prop where
  columns : ∀ nodeId row, s.nodes.get? nodeId = some row →
    (row.cachedDiskScanJson,row.cachedDiskScanAt) = reply (s.disk_scans_cache.get? (nodeId,"/"))
  known : ∀ nodeId key scan, s.disk_scans_cache.get? (nodeId,key) = some scan → nodeId ∈ s.nodes.keys

theorem mirrored_fresh {s : Store} (fresh : Fresh s) : Mirrored s where
  columns := by
    intro nodeId row found
    rw [fresh.columns nodeId row found,fresh.scans]
    rfl
  known := by
    intro nodeId key scan found
    rw [fresh.scans] at found
    simp at found

/-- The columns add nothing to the table. -/
theorem getCachedDiskScan_mirrored {s : Store} (mirrored : Mirrored s) (nodeId path : String) :
    getCachedDiskScan s nodeId path = reply (s.disk_scans_cache.get? (nodeId,cleanPath path)) := by
  unfold getCachedDiskScan
  cases found : s.disk_scans_cache.get? (nodeId,cleanPath path) with
  | some row => simp only [found,reply,Option.map_some]
  | none =>
    simp only [found]
    by_cases root : cleanPath path = "/"
    · rw [if_pos root]
      cases row : s.nodes.get? nodeId with
      | none => rfl
      | some legacy =>
        have columns := mirrored.columns nodeId legacy row
        rw [← root,found] at columns
        have empty : legacy.cachedDiskScanJson = none := congrArg Prod.fst columns
        simp [empty,reply]
    · rw [if_neg root]
      rfl

theorem keys_legacy (s : Store) (nodeId : String) (row : NodeRow) : (s.legacy nodeId row).nodes.keys = s.nodes.keys := by
  simp only [Store.legacy,OrderedMap.keys,OrderedMap.modify,List.map_map]
  rfl

/-- Writing the table under one key, and the columns where that is the root. -/
def Store.write (s : Store) (nodeId clean : String) (scans : OrderedMap (String × String) Scan) (row : NodeRow) : Store :=
  if clean = "/" then Store.legacy {s with disk_scans_cache := scans} nodeId row else {s with disk_scans_cache := scans}

variable {s : Store} {nodeId clean : String} {scans : OrderedMap (String × String) Scan} {row : NodeRow}

theorem scans_write : (s.write nodeId clean scans row).disk_scans_cache = scans := by
  unfold Store.write
  split <;> rfl

theorem keys_write : (s.write nodeId clean scans row).nodes.keys = s.nodes.keys := by
  unfold Store.write
  split
  · exact keys_legacy _ _ _
  · rfl

/-- The columns mirror the table again where all else stays and the row holds what is written. -/
theorem mirrored_write (mirrored : Mirrored s)
    (written : (row.cachedDiskScanJson,row.cachedDiskScanAt) = reply (scans.get? (nodeId,clean)))
    (others : ∀ key, key ≠ (nodeId,clean) → scans.get? key = s.disk_scans_cache.get? key)
    (known : ∀ scan, scans.get? (nodeId,clean) = some scan → nodeId ∈ s.nodes.keys) :
    Mirrored (s.write nodeId clean scans row) where
  columns := by
    intro other found row'
    rw [scans_write]
    unfold Store.write at row'
    split at row'
    · rename_i root
      subst root
      simp only [Store.legacy,OrderedMap.get?_modify,Option.map_eq_some_iff] at row'
      obtain ⟨old,was,now⟩ := row'
      by_cases same : other = nodeId
      · subst same
        rw [if_pos rfl] at now
        rw [← now,written]
      · rw [if_neg same] at now
        rw [← now,others _ (by simp [same]),mirrored.columns other old was]
    · rename_i notRoot
      rw [others _ (by simp [Ne.symm notRoot]),mirrored.columns other found row']
  known := by
    intro other key scan found
    rw [scans_write] at found
    rw [keys_write]
    by_cases same : (other,key) = (nodeId,clean)
    · obtain ⟨rfl,rfl⟩ := Prod.mk.inj same
      exact known scan found
    · rw [others _ same] at found
      exact mirrored.known other key scan found

theorem step_set (known : nodeId ∈ s.nodes.keys) (path : String) (scan : Scan) :
    step s (.set nodeId path scan) =
      s.write nodeId (cleanPath path) (s.disk_scans_cache.set (nodeId,cleanPath path) scan)
        ⟨some scan.scanJson,some scan.scannedAt⟩ := by
  simp only [step,setCachedDiskScan,if_neg (not_not.mpr known),Except.toOption,Option.getD_some]
  rfl

theorem step_set_unknown (unknown : nodeId ∉ s.nodes.keys) (path : String) (scan : Scan) :
    step s (.set nodeId path scan) = s := by
  simp [step,setCachedDiskScan,if_pos unknown,Except.toOption]

theorem step_invalidate (path : String) :
    step s (.invalidate nodeId (some path)) =
      s.write nodeId (normpath (strip path)) (s.disk_scans_cache.erase (nodeId,normpath (strip path))) ⟨none,none⟩ := rfl

theorem keys_step (s : Store) (operation : Operation) : (step s operation).nodes.keys = s.nodes.keys := by
  match operation with
  | .set nodeId path scan =>
    by_cases known : nodeId ∈ s.nodes.keys
    · rw [step_set known,keys_write]
    · rw [step_set_unknown known]
  | .get _ _ => rfl
  | .invalidate nodeId (some path) => rw [step_invalidate,keys_write]
  | .invalidate nodeId none => exact keys_legacy _ _ _

/-- Invalidating all of a node's scans empties its columns with them. -/
theorem mirrored_forget (mirrored : Mirrored s) : Mirrored (step s (.invalidate nodeId none)) where
  columns := by
    intro other row' found
    simp only [step,invalidateCachedDiskScan,Store.legacy,OrderedMap.get?_modify,Option.map_eq_some_iff] at found ⊢
    obtain ⟨old,was,now⟩ := found
    rw [OrderedMap.get?_filter]
    by_cases same : other = nodeId
    · rw [← now,if_pos same]
      simp [same,reply,Option.filter]
      cases s.disk_scans_cache.get? (nodeId,"/") <;> simp
    · rw [← now,if_neg same,mirrored.columns other old was]
      cases s.disk_scans_cache.get? (other,"/") <;> simp [same,Option.filter]
  known := by
    intro other key scan found
    rw [keys_step]
    simp only [step,invalidateCachedDiskScan,Store.legacy,OrderedMap.get?_filter,Option.filter_eq_some_iff] at found
    exact mirrored.known other key scan found.1

theorem mirrored_step (mirrored : Mirrored s) (operation : Operation) : Mirrored (step s operation) := by
  match operation with
  | .set nodeId path scan =>
    by_cases known : nodeId ∈ s.nodes.keys
    · rw [step_set known]
      refine mirrored_write mirrored ?_ (fun key differs => OrderedMap.get?_set_of_ne differs) fun _ _ => known
      rw [OrderedMap.get?_set_self]
      rfl
    · rwa [step_set_unknown known]
  | .get _ _ => exact mirrored
  | .invalidate nodeId (some path) =>
    rw [step_invalidate]
    refine mirrored_write mirrored ?_ (fun key differs => OrderedMap.get?_erase_of_ne differs) ?_
    · rw [OrderedMap.get?_erase_self]
      rfl
    · intro scan found
      rw [OrderedMap.get?_erase_self] at found
      simp at found
  | .invalidate nodeId none => exact mirrored_forget mirrored

variable {operation : Operation} {path : String}

/-- An operation on another node or directory leaves the scan in the table. -/
theorem scan_untouched (plain : operation.Plain) (asked : PlainPath path)
    (apart : ¬operation.Touches s.nodes.keys nodeId path) :
    (step s operation).disk_scans_cache.get? (nodeId,cleanPath path) =
      s.disk_scans_cache.get? (nodeId,cleanPath path) := by
  match operation with
  | .set node p scan =>
    by_cases known : node ∈ s.nodes.keys
    · rw [step_set known,scans_write]
      refine OrderedMap.get?_set_of_ne fun same => apart ?_
      obtain ⟨rfl,clean⟩ := Prod.mk.inj same
      exact ⟨rfl,known,(cleanPath_eq_iff plain asked).mp clean.symm⟩
    · rw [step_set_unknown known]
  | .get _ _ => rfl
  | .invalidate node (some p) =>
    rw [step_invalidate,scans_write,← cleanPath_of_ne plain.1]
    refine OrderedMap.get?_erase_of_ne fun same => apart ?_
    obtain ⟨rfl,clean⟩ := Prod.mk.inj same
    exact ⟨rfl,(cleanPath_eq_iff plain.2 asked).mp clean.symm⟩
  | .invalidate node none =>
    have other : nodeId ≠ node := fun same => apart same.symm
    simp only [step,invalidateCachedDiskScan,Store.legacy,OrderedMap.get?_filter]
    cases s.disk_scans_cache.get? (nodeId,cleanPath path) <;> simp [other,Option.filter]

/-- An operation that touches the node and the directory leaves the scan it writes, or none. -/
theorem scan_touched (plain : operation.Plain) (asked : PlainPath path)
    (touches : operation.Touches s.nodes.keys nodeId path) (scan : Scan) :
    (step s operation).disk_scans_cache.get? (nodeId,cleanPath path) = some scan ↔
      ∃ p, operation = .set nodeId p scan := by
  match operation with
  | .set node p written =>
    obtain ⟨rfl,known,equivalent⟩ := touches
    rw [step_set known,scans_write,(cleanPath_eq_iff plain asked).mpr equivalent,OrderedMap.get?_set_self]
    simp
  | .invalidate node (some p) =>
    obtain ⟨rfl,equivalent⟩ := touches
    rw [step_invalidate,scans_write,← cleanPath_of_ne plain.1,(cleanPath_eq_iff plain.2 asked).mpr equivalent,
      OrderedMap.get?_erase_self]
    simp
  | .invalidate node none =>
    obtain rfl : node = nodeId := touches
    simp only [step,invalidateCachedDiskScan,Store.legacy,OrderedMap.get?_filter]
    cases s.disk_scans_cache.get? (node,cleanPath path) <;> simp [Option.filter]

theorem run_snoc (s : Store) (operations : List Operation) (operation : Operation) :
    run s (operations ++ [operation]) = step (run s operations) operation := by simp [run]

theorem keys_run (s : Store) (operations : List Operation) : (run s operations).nodes.keys = s.nodes.keys := by
  induction operations using List.reverseRecOn with
  | nil => rfl
  | append_singleton operations operation ih => rw [run_snoc,keys_step,ih]

theorem mirrored_run (mirrored : Mirrored s) (operations : List Operation) : Mirrored (run s operations) := by
  induction operations using List.reverseRecOn with
  | nil => exact mirrored
  | append_singleton operations operation ih =>
    rw [run_snoc]
    exact mirrored_step ih operation

/-- The latest scan is the one of the last operation, or it was the latest before and is left alone. -/
theorem latest_snoc {known : List String} {operations : List Operation} {scan : Scan} :
    Latest known nodeId path (operations ++ [operation]) scan ↔
      (operation.Touches known nodeId path ∧ ∃ p, operation = .set nodeId p scan) ∨
      (¬operation.Touches known nodeId path ∧ Latest known nodeId path operations scan) := by
  constructor
  · rintro ⟨member,before,after,p,shape,equivalent,later⟩
    rcases List.eq_nil_or_concat after with rfl | ⟨after,last,rfl⟩
    · obtain ⟨-,same⟩ := List.append_inj' shape rfl
      obtain rfl := List.singleton_inj.mp same
      exact .inl ⟨⟨rfl,member,equivalent⟩,p,rfl⟩
    · rw [List.concat_eq_append,← List.cons_append,← List.append_assoc] at shape
      obtain ⟨front,same⟩ := List.append_inj' shape rfl
      obtain rfl := List.singleton_inj.mp same
      refine .inr ⟨later operation (by simp),member,before,after,p,front,equivalent,fun earlier inside => ?_⟩
      exact later earlier (by simp [inside])
  · rintro (⟨touches,p,rfl⟩ | ⟨apart,member,before,after,p,rfl,equivalent,later⟩)
    · exact ⟨touches.2.1,operations,[],p,rfl,touches.2.2,by simp⟩
    · refine ⟨member,before,after ++ [operation],p,by simp,equivalent,fun last inside => ?_⟩
      rcases List.mem_append.mp inside with inside | inside
      · exact later last inside
      · rwa [List.mem_singleton.mp inside]

/-- In a run on plain paths the table holds the latest scan. -/
theorem scan_run (fresh : Fresh s) {operations : List Operation} (plain : ∀ operation ∈ operations, operation.Plain)
    (asked : PlainPath path) (scan : Scan) :
    (run s operations).disk_scans_cache.get? (nodeId,cleanPath path) = some scan ↔
      Latest s.nodes.keys nodeId path operations scan := by
  induction operations using List.reverseRecOn with
  | nil =>
    have missing := fresh.scans (nodeId,cleanPath path)
    simp [run,missing,Latest]
  | append_singleton operations operation ih =>
    have earlier := ih fun op inside => plain op (List.mem_append_left _ inside)
    have last := plain operation (by simp)
    have keys := keys_run s operations
    rw [run_snoc,latest_snoc]
    by_cases touches : operation.Touches s.nodes.keys nodeId path
    · rw [scan_touched last asked (keys.symm ▸ touches)]
      simp [touches]
    · rw [scan_untouched last asked (keys.symm ▸ touches),earlier]
      simp [touches]

/-- In a run on plain paths a reader gets the latest scan of the node and the directory. -/
theorem answers_of_plain (s : Store) (fresh : Fresh s) (operations : List Operation)
    (plain : ∀ operation ∈ operations, operation.Plain) (nodeId path : String) (asked : PlainPath path) :
    Answers s operations nodeId path ∧
      ∀ operation : Operation, operation.Plain → Undisturbed s operations operation nodeId path := by
  have mirrored := mirrored_run (mirrored_fresh fresh) operations
  refine ⟨⟨?_,?_⟩,?_⟩
  · intro scan latest
    rw [getCachedDiskScan_mirrored mirrored,(scan_run fresh plain asked scan).mpr latest]
  · intro never
    rw [getCachedDiskScan_mirrored mirrored,Option.eq_none_iff_forall_ne_some.mpr fun scan found =>
      never scan ((scan_run fresh plain asked scan).mp found)]
  · intro operation last apart
    rw [getCachedDiskScan_mirrored mirrored,run_snoc,getCachedDiskScan_mirrored (mirrored_step mirrored operation),
      scan_untouched last asked ((keys_run s operations).symm ▸ apart)]

theorem answers_of_plain_mount :
    Answers oneNode [.set "n" " /mnt//data/ " ⟨"{}",1⟩,.invalidate "n" (some "/mnt")] "n" "/mnt/./data" :=
  (answers_of_plain oneNode fresh_oneNode _ (by
    intro operation member
    simp only [List.mem_cons,List.not_mem_nil,or_false] at member
    rcases member with rfl | rfl
    · exact (by decide +kernel : PlainPath " /mnt//data/ ")
    · exact (by decide +kernel : "/mnt" ≠ "" ∧ PlainPath "/mnt")) "n" "/mnt/./data" (by decide +kernel)).1

end Vigile.DiskScanCache
