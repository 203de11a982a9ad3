import Vigile.Authorization
import Vigile.FileTree

/-! The usage of a directory, walked until one of its budgets ends the walk. -/
namespace Vigile.DirectoryUsage

open FileTree

structure DirectoryUsageResult where
  rootPath : List Char
  totalSize : Int64
  fileCount : Nat
  dirCount : Nat
  depthReached : Int
  truncated : Bool

/-- The result so far, the entries that were counted, and the callbacks that were made. -/
structure Walk where
  result : DirectoryUsageResult
  totalEntries : Nat
  calls : Nat

structure Limits where
  budget : Authorization.BudgetLimits
  elapsed : Nat → Int

/-- The separators in the path of an entry so many levels below the root, relative to the root. -/
def depth (level : Nat) : Nat := level - 1

/-- The callback; it may skip the directory. -/
def visit (limits : Limits) (level : Nat) (item : Item) (walk : Walk) : Walk × Bool :=
  let result := walk.result
  let calls := walk.calls + 1
  if limits.budget.maxTimeout < limits.elapsed walk.calls then
    (⟨{ result with truncated := true },walk.totalEntries,calls⟩,true)
  else if limits.budget.maxDepth < depth level then (⟨result,walk.totalEntries,calls⟩,item.isDir)
  else
    let result := { result with depthReached := max result.depthReached (depth level) }
    let totalEntries := walk.totalEntries + 1
    if 0 < limits.budget.maxEntries ∧ limits.budget.maxEntries < totalEntries then
      (⟨{ result with truncated := true },totalEntries,calls⟩,true)
    else if item.isDir then (⟨{ result with dirCount := result.dirCount + 1 },totalEntries,calls⟩,false)
    else
      (⟨{ result with fileCount := result.fileCount + 1, totalSize := result.totalSize + item.info.size },
        totalEntries,calls⟩,false)

mutual

def walk (limits : Limits) (level : Nat) : Item → Walk → Walk × Bool
  | .file info, state => visit limits level (.file info) state
  | .symlink info target, state => visit limits level (.symlink info target) state
  | .directory info entries, state =>
    match visit limits level (.directory info entries) state with
    | (state,true) => (state,true)
    | (state,false) => walkEntries limits (level + 1) entries state

/-- A file that is skipped ends its directory, a directory only itself. -/
def walkEntries (limits : Limits) (level : Nat) : Entries → Walk → Walk × Bool
  | .nil, state => (state,false)
  | .cons _ item rest, state =>
    let (state,skip) := walk limits level item state
    if skip && !item.isDir then (state,true) else walkEntries limits level rest state

end

def start (sanitized : List Char) : Walk := ⟨⟨sanitized,0,0,0,0,false⟩,0,0⟩

/-- `HandleGetDirectoryUsage` for a path that was validated and what lies there. -/
def handleGetDirectoryUsage (limits : Limits) (sanitized : List Char) (root : Item) : DirectoryUsageResult :=
  (walk limits 0 root (start sanitized)).1.result

mutual

def entries (level : Nat) : Item → List (Nat × Item)
  | .file info => [(level,.file info)]
  | .symlink info target => [(level,.symlink info target)]
  | .directory info children => (level,.directory info children) :: entriesBelow (level + 1) children

def entriesBelow (level : Nat) : Entries → List (Nat × Item)
  | .nil => []
  | .cons _ item rest => entries level item ++ entriesBelow level rest

end

mutual

/-- The entries that a walk within the other budgets calls back: too deep a directory is not opened. -/
def reached (budget : Authorization.BudgetLimits) (level : Nat) : Item → List (Nat × Item)
  | .file info => [(level,.file info)]
  | .symlink info target => [(level,.symlink info target)]
  | .directory info children =>
    (level,.directory info children) ::
      if budget.maxDepth < depth level then [] else reachedBelow budget (level + 1) children

def reachedBelow (budget : Authorization.BudgetLimits) (level : Nat) : Entries → List (Nat × Item)
  | .nil => []
  | .cons _ item rest => reached budget level item ++ reachedBelow budget level rest

end

def files (nodes : List (Nat × Item)) : List Item := (nodes.map Prod.snd).filter fun item => !item.isDir

def directories (nodes : List (Nat × Item)) : List Item := (nodes.map Prod.snd).filter Item.isDir

/-- The entries that are not too deep to be counted. -/
def shallow (budget : Authorization.BudgetLimits) (nodes : List (Nat × Item)) : List (Nat × Item) :=
  nodes.filter fun entry => decide (depth entry.1 ≤ budget.maxDepth)

/-- The budgets hold, and a result that is not truncated is that of the whole tree. -/
structure Sound (limits : Limits) (root : Item) (result : DirectoryUsageResult) : Prop where
  counted : ((result.fileCount + result.dirCount : Nat) : Int) ≤ limits.budget.maxEntries
  reached : result.depthReached ≤ limits.budget.maxDepth
  whole : result.truncated = false →
    result.fileCount = (files (entries 0 root)).length ∧ result.dirCount = (directories (entries 0 root)).length ∧
      result.totalSize.toInt = ((files (entries 0 root)).map fun item => item.info.size.toInt).sum

def Cut (limits : Limits) (nodes : List (Nat × Item)) : Prop :=
  limits.budget.maxEntries < (shallow limits.budget nodes).length ∨
    ∃ call < nodes.length, limits.budget.maxTimeout < limits.elapsed call

variable {limits : Limits} {level : Nat} {state : Walk}

def Preserved (limits : Limits) (kept : Walk → Prop) : Prop :=
  ∀ level item state, kept state → kept (visit limits level item state).1

mutual

theorem walk_preserved {kept : Walk → Prop} (step : Preserved limits kept) (level : Nat) :
    ∀ (item : Item) (state : Walk), kept state → kept (walk limits level item state).1
  | .file info, state, holds => step level (.file info) state holds
  | .symlink info target, state, holds => step level (.symlink info target) state holds
  | .directory info children, state, holds => by
    have visited := step level (.directory info children) state holds
    unfold walk
    generalize visit limits level (.directory info children) state = after at visited
    obtain ⟨after,skip⟩ := after
    cases skip with
    | true => exact visited
    | false => exact walkEntries_preserved step (level + 1) children after visited

theorem walkEntries_preserved {kept : Walk → Prop} (step : Preserved limits kept) (level : Nat) :
    ∀ (children : Entries) (state : Walk), kept state → kept (walkEntries limits level children state).1
  | .nil, _, holds => holds
  | .cons _ item rest, state, holds => by
    have walked := walk_preserved step level item state holds
    unfold walkEntries
    dsimp only
    split
    · exact walked
    · exact walkEntries_preserved step level rest _ walked

end

/-- The four ways in which a callback ends. -/
theorem visit_cases (limits : Limits) (level : Nat) (item : Item) (state : Walk) :
    (limits.budget.maxTimeout < limits.elapsed state.calls ∧ visit limits level item state =
      (⟨{ state.result with truncated := true },state.totalEntries,state.calls + 1⟩,true)) ∨
    (¬limits.budget.maxTimeout < limits.elapsed state.calls ∧ limits.budget.maxDepth < depth level ∧
      visit limits level item state = (⟨state.result,state.totalEntries,state.calls + 1⟩,item.isDir)) ∨
    (¬limits.budget.maxTimeout < limits.elapsed state.calls ∧ (depth level : Int) ≤ limits.budget.maxDepth ∧
      (0 < limits.budget.maxEntries ∧ limits.budget.maxEntries < (state.totalEntries + 1 : Nat)) ∧
      visit limits level item state =
        (⟨{ state.result with depthReached := max state.result.depthReached (depth level), truncated := true },
          state.totalEntries + 1,state.calls + 1⟩,true)) ∨
    (¬limits.budget.maxTimeout < limits.elapsed state.calls ∧ (depth level : Int) ≤ limits.budget.maxDepth ∧
      ¬(0 < limits.budget.maxEntries ∧ limits.budget.maxEntries < (state.totalEntries + 1 : Nat)) ∧
      visit limits level item state =
        (⟨{ state.result with
            depthReached := max state.result.depthReached (depth level)
            dirCount := state.result.dirCount + (if item.isDir then 1 else 0)
            fileCount := state.result.fileCount + (if item.isDir then 0 else 1)
            totalSize := state.result.totalSize + (if item.isDir then 0 else item.info.size) },
          state.totalEntries + 1,state.calls + 1⟩,false)) := by
  unfold visit
  dsimp only
  by_cases late : limits.budget.maxTimeout < limits.elapsed state.calls
  · exact .inl ⟨late,if_pos late⟩
  by_cases deep : limits.budget.maxDepth < depth level
  · exact .inr (.inl ⟨late,deep,by rw [if_neg late,if_pos deep]⟩)
  by_cases full : 0 < limits.budget.maxEntries ∧ limits.budget.maxEntries < (state.totalEntries + 1 : Nat)
  · exact .inr (.inr (.inl ⟨late,not_lt.mp deep,full,by rw [if_neg late,if_neg deep,if_pos full]⟩))
  · refine .inr (.inr (.inr ⟨late,not_lt.mp deep,full,?_⟩))
    rw [if_neg late,if_neg deep,if_neg full]
    cases item.isDir <;> simp

theorem truncated_preserved : Preserved limits fun state => state.result.truncated = true := by
  intro level item state truncated
  obtain ⟨_,cut⟩ | ⟨_,_,cut⟩ | ⟨_,_,_,cut⟩ | ⟨_,_,_,cut⟩ := visit_cases limits level item state <;> rw [cut] <;> simp [truncated]

def Counted (limits : Limits) (state : Walk) : Prop :=
  state.result.fileCount + state.result.dirCount ≤ state.totalEntries ∧
    ((state.result.fileCount + state.result.dirCount : Nat) : Int) ≤ limits.budget.maxEntries

theorem counted_preserved (positive : 0 < limits.budget.maxEntries) : Preserved limits (Counted limits) := by
  intro level item state ⟨admitted,within⟩
  obtain ⟨_,cut⟩ | ⟨_,_,cut⟩ | ⟨_,_,_,cut⟩ | ⟨_,_,room,cut⟩ := visit_cases limits level item state <;>
    rw [cut] <;> unfold Counted <;> dsimp only
  · exact ⟨admitted,within⟩
  · exact ⟨admitted,within⟩
  · exact ⟨admitted.trans (Nat.le_succ _),within⟩
  · have one : state.result.fileCount + (if item.isDir then 0 else 1) +
        (state.result.dirCount + (if item.isDir then 1 else 0)) =
        state.result.fileCount + state.result.dirCount + 1 := by
      split <;> omega
    rw [one]
    omega

def WithinDepth (limits : Limits) (state : Walk) : Prop := state.result.depthReached ≤ limits.budget.maxDepth

theorem withinDepth_preserved (limits : Limits) : Preserved limits (WithinDepth limits) := by
  intro level item state within
  obtain ⟨_,cut⟩ | ⟨_,_,cut⟩ | ⟨_,shallow,_,cut⟩ | ⟨_,shallow,_,cut⟩ := visit_cases limits level item state <;>
    rw [cut]
  · exact within
  · exact within
  · exact max_le within shallow
  · exact max_le within shallow

/-- The callbacks alone, made for these entries. -/
def tally (limits : Limits) (nodes : List (Nat × Item)) (state : Walk) : Walk :=
  nodes.foldl (fun state entry => (visit limits entry.1 entry.2 state).1) state

theorem tally_preserved {kept : Walk → Prop} (step : Preserved limits kept) (nodes : List (Nat × Item)) (state : Walk)
    (holds : kept state) : kept (tally limits nodes state) := by
  induction nodes generalizing state with
  | nil => exact holds
  | cons entry nodes ih => exact ih _ (step entry.1 entry.2 state holds)

theorem tally_append (first second : List (Nat × Item)) (state : Walk) :
    tally limits (first ++ second) state = tally limits second (tally limits first state) := List.foldl_append

/-- A walk agrees with the callbacks on whether it was truncated, and with all they say where it was not. -/
def Agrees (walked : Walk) (called : Walk) : Prop :=
  walked.result.truncated = called.result.truncated ∧ (called.result.truncated = false → walked = called)

/-- A callback skips without truncating only where the entry is a directory that is too deep. -/
theorem visit_skips (level : Nat) {item : Item} (whole : (visit limits level item state).1.result.truncated = false)
    (skips : (visit limits level item state).2 = true) : limits.budget.maxDepth < depth level ∧ item.isDir = true := by
  obtain ⟨_,cut⟩ | ⟨_,deep,cut⟩ | ⟨_,_,_,cut⟩ | ⟨_,_,_,cut⟩ := visit_cases limits level item state
  · simp [cut] at whole
  · rw [cut] at skips
    exact ⟨deep,skips⟩
  · simp [cut] at whole
  · simp [cut] at skips

/-- A directory that is not skipped is opened, and nothing was cut. -/
theorem visit_opens (level : Nat) {item : Item} (directory : item.isDir = true) (fresh : state.result.truncated = false)
    (opens : (visit limits level item state).2 = false) :
    ¬limits.budget.maxDepth < depth level ∧ (visit limits level item state).1.result.truncated = false := by
  obtain ⟨_,cut⟩ | ⟨_,_,cut⟩ | ⟨_,_,_,cut⟩ | ⟨_,shallow,_,cut⟩ := visit_cases limits level item state
  · simp [cut] at opens
  · simp [cut,directory] at opens
  · simp [cut] at opens
  · exact ⟨not_lt.mpr shallow,by rw [cut]; exact fresh⟩

theorem agrees_of_truncated {walked called : Walk} (cut : walked.result.truncated = true)
    (cut' : called.result.truncated = true) : Agrees walked called :=
  ⟨cut.trans cut'.symm,fun whole => absurd (cut'.symm.trans whole) (by decide)⟩

mutual

theorem walk_tally (level : Nat) : ∀ (item : Item) (state : Walk), state.result.truncated = false →
    Agrees (walk limits level item state).1 (tally limits (reached limits.budget level item) state) ∧
      ((walk limits level item state).1.result.truncated = false → (walk limits level item state).2 = true →
        item.isDir = true)
  | .file _, _, _ | .symlink _ _, _, _ => ⟨⟨rfl,fun _ => rfl⟩,fun whole skips => (visit_skips _ whole skips).2⟩
  | .directory info children, state, fresh => by
    refine ⟨?_,fun _ _ => rfl⟩
    have skips : (visit limits level (.directory info children) state).1.result.truncated = false →
        (visit limits level (.directory info children) state).2 = true → _ := visit_skips level
    have opens : (visit limits level (.directory info children) state).2 = false → _ := visit_opens level rfl fresh
    unfold walk reached tally
    rw [List.foldl_cons]
    change Agrees _ (tally limits _ (visit limits level (.directory info children) state).1)
    generalize visit limits level (.directory info children) state = after at skips opens
    obtain ⟨after,skip⟩ := after
    cases skip with
    | true =>
      cases cut : after.result.truncated with
      | true => exact agrees_of_truncated cut (tally_preserved truncated_preserved _ after cut)
      | false =>
        rw [if_pos (skips cut rfl).1]
        exact ⟨rfl,fun _ => rfl⟩
    | false =>
      rw [if_neg (opens rfl).1]
      exact walkEntries_tally (level + 1) children after (opens rfl).2

theorem walkEntries_tally (level : Nat) : ∀ (children : Entries) (state : Walk), state.result.truncated = false →
    Agrees (walkEntries limits level children state).1 (tally limits (reachedBelow limits.budget level children) state)
  | .nil, _, _ => ⟨rfl,fun _ => rfl⟩
  | .cons _ item rest, state, fresh => by
    obtain ⟨⟨same,agrees⟩,skips⟩ := walk_tally level item state fresh
    unfold walkEntries reachedBelow
    rw [tally_append]
    dsimp only
    cases cut : (tally limits (reached limits.budget level item) state).result.truncated with
    | true =>
      refine agrees_of_truncated ?_ (tally_preserved truncated_preserved _ _ cut)
      split
      · exact same.trans cut
      · exact walkEntries_preserved truncated_preserved level rest _ (same.trans cut)
    | false =>
      have ignored : ¬((walk limits level item state).2 && !item.isDir) = true := by
        intro ends
        rw [Bool.and_eq_true] at ends
        have directory := skips (same.trans cut) ends.1
        simp [directory] at ends
      rw [if_neg ignored,agrees cut]
      exact walkEntries_tally level rest _ cut

end

theorem shallow_concat (budget : Authorization.BudgetLimits) (nodes : List (Nat × Item)) (entry : Nat × Item) :
    shallow budget (nodes ++ [entry]) =
      shallow budget nodes ++ if (depth entry.1 : Int) ≤ budget.maxDepth then [entry] else [] := by
  unfold shallow
  rw [List.filter_append]
  by_cases counted : (depth entry.1 : Int) ≤ budget.maxDepth <;> simp [counted]

theorem cut_concat (limits : Limits) (nodes : List (Nat × Item)) (entry : Nat × Item) :
    Cut limits (nodes ++ [entry]) ↔ Cut limits nodes ∨
      ((depth entry.1 : Int) ≤ limits.budget.maxDepth ∧
        limits.budget.maxEntries < ((shallow limits.budget nodes).length + 1 : Nat)) ∨
      limits.budget.maxTimeout < limits.elapsed nodes.length := by
  have times : (∃ call < (nodes ++ [entry]).length, limits.budget.maxTimeout < limits.elapsed call) ↔
      (∃ call < nodes.length, limits.budget.maxTimeout < limits.elapsed call) ∨
        limits.budget.maxTimeout < limits.elapsed nodes.length := by
    simp only [List.length_append,List.length_singleton,Nat.exists_lt_succ_right]
  have counts : limits.budget.maxEntries < (shallow limits.budget (nodes ++ [entry])).length ↔
      limits.budget.maxEntries < (shallow limits.budget nodes).length ∨ ((depth entry.1 : Int) ≤ limits.budget.maxDepth ∧
        limits.budget.maxEntries < ((shallow limits.budget nodes).length + 1 : Nat)) := by
    rw [shallow_concat]
    split
    case isTrue counted =>
      simp only [List.length_append,List.length_singleton,counted,true_and]
      omega
    case isFalse deep => simp [deep]
  unfold Cut
  rw [times,counts]
  exact or_or_or_comm

/-- What the callbacks leave behind: they were cut, or they counted every entry that is not too deep. -/
theorem tally_eq (positive : 0 < limits.budget.maxEntries) (sanitized : List Char) (nodes : List (Nat × Item)) :
    (Cut limits nodes → (tally limits nodes (start sanitized)).result.truncated = true) ∧
    (¬Cut limits nodes → ∃ depthReached, tally limits nodes (start sanitized) =
      ⟨⟨sanitized,((files (shallow limits.budget nodes)).map fun item => item.info.size).sum,
        (files (shallow limits.budget nodes)).length,(directories (shallow limits.budget nodes)).length,
        depthReached,false⟩,(shallow limits.budget nodes).length,nodes.length⟩) := by
  induction nodes using List.reverseRecOn with
  | nil =>
    refine ⟨fun cut => ?_,fun _ => ⟨0,rfl⟩⟩
    rcases cut with full | ⟨_,none,_⟩
    · simp [shallow] at full
      omega
    · simp at none
  | append_singleton nodes entry ih =>
    rw [tally_append,cut_concat]
    by_cases before : Cut limits nodes
    · exact ⟨fun _ => truncated_preserved _ _ _ (ih.1 before),fun within => absurd (.inl before) within⟩
    obtain ⟨reached,tallied⟩ := ih.2 before
    rw [tallied,shallow_concat]
    change (_ → (visit limits entry.1 entry.2 _).1.result.truncated = true) ∧
      (_ → ∃ _, (visit limits entry.1 entry.2 _).1 = _)
    obtain ⟨late,cut⟩ | ⟨early,deep,cut⟩ | ⟨_,counted,full,cut⟩ | ⟨early,counted,room,cut⟩ :=
      visit_cases limits entry.1 entry.2 ⟨⟨sanitized,((files (shallow limits.budget nodes)).map fun item => item.info.size).sum,
        (files (shallow limits.budget nodes)).length,(directories (shallow limits.budget nodes)).length,
        reached,false⟩,(shallow limits.budget nodes).length,nodes.length⟩ <;> rw [cut] <;> dsimp only at *
    · exact ⟨fun _ => rfl,fun within => absurd (.inr (.inr late)) within⟩
    · refine ⟨fun cut => ?_,fun _ => ⟨reached,?_⟩⟩
      · rcases cut with cut | cut | cut
        · exact absurd cut before
        · exact absurd cut.1 (not_le.mpr deep)
        · exact absurd cut early
      · rw [if_neg (not_le.mpr deep)]
        simp
    · exact ⟨fun _ => rfl,fun within => absurd (.inr (.inl ⟨counted,full.2⟩)) within⟩
    · refine ⟨fun cut => ?_,fun _ => ⟨max reached (depth entry.1),?_⟩⟩
      · rcases cut with cut | cut | cut
        · exact absurd cut before
        · exact absurd ⟨positive,cut.2⟩ room
        · exact absurd cut early
      · rw [if_pos counted]
        cases directory : entry.2.isDir <;> simp [files,directories,directory]

theorem handle_agrees (limits : Limits) (sanitized : List Char) (root : Item) :
    Agrees (walk limits 0 root (start sanitized)).1 (tally limits (reached limits.budget 0 root) (start sanitized)) :=
  (walk_tally 0 root (start sanitized) rfl).1

mutual

theorem entries_level (level : Nat) : ∀ (item : Item), ∀ entry ∈ entries level item, level ≤ entry.1
  | .file _, entry, member | .symlink _ _, entry, member => by
    rw [entries,List.mem_singleton] at member
    exact (congrArg Prod.fst member).ge
  | .directory _ children, entry, member => by
    rw [entries,List.mem_cons] at member
    rcases member with same | below
    · exact (congrArg Prod.fst same).ge
    · exact (Nat.le_succ level).trans (entriesBelow_level (level + 1) children entry below)

theorem entriesBelow_level (level : Nat) : ∀ (children : Entries), ∀ entry ∈ entriesBelow level children, level ≤ entry.1
  | .nil, _, member => by simp [entriesBelow] at member
  | .cons _ item rest, entry, member => by
    rw [entriesBelow,List.mem_append] at member
    rcases member with here | later
    · exact entries_level level item entry here
    · exact entriesBelow_level level rest entry later

end

mutual

/-- The entries that are not reached are too deep to be counted. -/
theorem shallow_reached (budget : Authorization.BudgetLimits) (level : Nat) :
    ∀ item : Item, shallow budget (reached budget level item) = shallow budget (entries level item)
  | .file _ | .symlink _ _ => rfl
  | .directory info children => by
    unfold reached entries
    split
    case isTrue deep =>
      have none : shallow budget (entriesBelow (level + 1) children) = [] := by
        refine List.filter_eq_nil_iff.mpr fun entry member => ?_
        have lower := entriesBelow_level (level + 1) children entry member
        have deeper : depth level ≤ depth entry.1 := by
          unfold depth
          omega
        simp only [decide_eq_true_eq]
        omega
      unfold shallow at none ⊢
      rw [List.filter_cons,List.filter_cons,none]
      rfl
    case isFalse =>
      have below := shallowBelow_reached budget (level + 1) children
      unfold shallow at below ⊢
      rw [List.filter_cons,List.filter_cons,below]

theorem shallowBelow_reached (budget : Authorization.BudgetLimits) (level : Nat) :
    ∀ children : Entries, shallow budget (reachedBelow budget level children) = shallow budget (entriesBelow level children)
  | .nil => rfl
  | .cons _ item rest => by
    have here := shallow_reached budget level item
    have later := shallowBelow_reached budget level rest
    unfold shallow at here later ⊢
    unfold reachedBelow entriesBelow
    rw [List.filter_append,List.filter_append,here,later]

end

/-- Whether a scan of a tree is cut: more entries than it may count are not too deep, or one of the callbacks
comes too late. -/
theorem cut_reached_iff (limits : Limits) (root : Item) : Cut limits (reached limits.budget 0 root) ↔
    limits.budget.maxEntries < (shallow limits.budget (entries 0 root)).length ∨
      ∃ call < (reached limits.budget 0 root).length, limits.budget.maxTimeout < limits.elapsed call := by
  unfold Cut
  rw [shallow_reached]

theorem files_directories (nodes : List (Nat × Item)) :
    (files nodes).length + (directories nodes).length = nodes.length := by
  unfold files directories
  rw [← List.length_append,← List.length_map Prod.snd]
  exact (List.perm_append_comm.trans (List.filter_append_perm Item.isDir _)).length_eq

/-- A sum of int64 numbers is their sum, wrapped. -/
theorem toInt_sum (sizes : List Int64) : sizes.sum.toInt = (sizes.map Int64.toInt).sum.bmod (2 ^ 64) := by
  induction sizes with
  | nil => rfl
  | cons size sizes ih => rw [List.sum_cons,List.map_cons,List.sum_cons,Int64.toInt_add,ih,Int.add_bmod_bmod]

theorem toInt_sum_iff (sizes : List Int64) : sizes.sum.toInt = (sizes.map Int64.toInt).sum ↔
    -2 ^ 63 ≤ (sizes.map Int64.toInt).sum ∧ (sizes.map Int64.toInt).sum < 2 ^ 63 := by
  constructor
  · intro exact
    rw [← exact]
    exact ⟨sizes.sum.le_toInt,sizes.sum.toInt_lt⟩
  · rintro ⟨lower,upper⟩
    rw [toInt_sum]
    exact Int.bmod_eq_of_le (by omega) (by omega)

def sizes (root : Item) : List Int64 := (files (entries 0 root)).map fun item => item.info.size

theorem depthReached_preserved (limits : Limits) : Preserved limits fun state => 0 ≤ state.result.depthReached := by
  intro level item state least
  obtain ⟨_,cut⟩ | ⟨_,_,cut⟩ | ⟨_,_,_,cut⟩ | ⟨_,_,_,cut⟩ := visit_cases limits level item state <;> rw [cut] <;> simp [least]

/-- The scan is sound exactly if its depth is no negative number and it is cut by its other budgets,
or nothing is too deep and the sizes sum to a number that int64 holds. -/
theorem usage_sound_iff (limits : Limits) (positive : 0 < limits.budget.maxEntries) (sanitized : List Char) (root : Item) :
    Sound limits root (handleGetDirectoryUsage limits sanitized root) ↔ 0 ≤ limits.budget.maxDepth ∧
      ((limits.budget.maxEntries < (shallow limits.budget (entries 0 root)).length ∨
        ∃ call < (reached limits.budget 0 root).length, limits.budget.maxTimeout < limits.elapsed call) ∨
      ((∀ entry ∈ entries 0 root, (depth entry.1 : Int) ≤ limits.budget.maxDepth) ∧
        -2 ^ 63 ≤ ((sizes root).map Int64.toInt).sum ∧ ((sizes root).map Int64.toInt).sum < 2 ^ 63)) := by
  obtain ⟨cutAgrees,agrees⟩ := handle_agrees limits sanitized root
  obtain ⟨cutTally,wholeTally⟩ := tally_eq positive sanitized (reached limits.budget 0 root)
  have least := walk_preserved (depthReached_preserved limits) 0 root (start sanitized) le_rfl
  rw [← cut_reached_iff]
  constructor
  · intro sound
    refine ⟨least.trans sound.reached,?_⟩
    by_cases cut : Cut limits (reached limits.budget 0 root)
    · exact .inl cut
    obtain ⟨levels,tallied⟩ := wholeTally cut
    have same := agrees (by rw [tallied])
    rw [tallied,shallow_reached] at same
    obtain ⟨fileCount,dirCount,totalSize⟩ := sound.whole (by unfold handleGetDirectoryUsage; rw [same])
    unfold handleGetDirectoryUsage at fileCount dirCount totalSize
    rw [same] at fileCount dirCount totalSize
    dsimp only at fileCount dirCount totalSize
    have all : (shallow limits.budget (entries 0 root)).length = (entries 0 root).length := by
      rw [← files_directories,← files_directories (entries 0 root),fileCount,dirCount]
    have every := List.length_filter_eq_length_iff.mp all
    have unfiltered : shallow limits.budget (entries 0 root) = entries 0 root := List.filter_eq_self.mpr every
    refine .inr ⟨fun entry member => of_decide_eq_true (every entry member),(toInt_sum_iff (sizes root)).mp ?_⟩
    rw [unfiltered] at totalSize
    unfold sizes
    rw [List.map_map]
    exact totalSize
  · rintro ⟨natural,cut⟩
    have counted := walk_preserved (counted_preserved positive) 0 root (start sanitized) ⟨le_rfl,positive.le⟩
    have within := walk_preserved (withinDepth_preserved limits) 0 root (start sanitized) natural
    refine ⟨counted.2,within,fun whole => ?_⟩
    by_cases cutoff : Cut limits (reached limits.budget 0 root)
    · have truncated := cutAgrees.trans (cutTally cutoff)
      exact absurd (whole.symm.trans truncated) (by decide)
    obtain ⟨every,range⟩ := cut.resolve_left cutoff
    have unfiltered : shallow limits.budget (entries 0 root) = entries 0 root :=
      List.filter_eq_self.mpr fun entry member => decide_eq_true (every entry member)
    obtain ⟨levels,tallied⟩ := wholeTally cutoff
    have same := agrees (by rw [tallied])
    rw [tallied,shallow_reached,unfiltered] at same
    unfold handleGetDirectoryUsage
    rw [same]
    refine ⟨rfl,rfl,?_⟩
    have total := (toInt_sum_iff (sizes root)).mpr range
    unfold sizes at total
    rw [List.map_map] at total
    exact total

/-- Half a second, a hundred entries, so many levels. -/
def limited (maxDepth : Int) : Limits := ⟨⟨maxDepth,100,0,0,500000000⟩,fun call => 1000 * call⟩

/-- A directory in which another one holds a third with a file of two bytes. -/
def nested : Item :=
  .directory ⟨4096,none⟩ (.cons ['a']
    (.directory ⟨4096,none⟩ (.cons ['b'] (.directory ⟨4096,none⟩ (.cons ['c'] (.file ⟨2,none⟩) .nil)) .nil)) .nil)

theorem usage_sound_nested : 0 < (limited 2).budget.maxEntries ∧
    Sound (limited 2) nested (handleGetDirectoryUsage (limited 2) ['/','d'] nested) :=
  ⟨by decide,(usage_sound_iff (limited 2) (by decide) ['/','d'] nested).mpr ⟨by decide,.inr ⟨by decide,by decide,by decide⟩⟩⟩

/-- One level less, and the file is missing from a result that is not truncated. -/
theorem usage_partial : 0 < (limited 1).budget.maxEntries ∧
    ¬Sound (limited 1) nested (handleGetDirectoryUsage (limited 1) ['/','d'] nested) := by
  refine ⟨by decide,fun sound => ?_⟩
  have counted := (sound.whole (by decide)).1
  exact absurd counted (by decide)

end Vigile.DirectoryUsage
