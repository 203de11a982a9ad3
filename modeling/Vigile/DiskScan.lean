import Mathlib.Data.List.Sort
import Vigile.FilePath
import Vigile.FileTree

/-! The worker's disk scan: a directory tree is measured, and every directory shows its largest
children and two summaries of the others. -/
namespace Vigile.DiskScan

open FileTree
open LexicalPath (base join)

def allocatedSize (info : FileInfo) : Int64 :=
  match info.blocks with
  | some blocks => blocks * 512
  | none => info.size

structure DiskNode where
  name : List Char
  path : List Char
  size : Int64
  isDir : Bool
  children : List DiskNode

structure WalkStats where
  walkedCount : Nat
  skippedPerm : Nat

def WalkStats.walk (stats : WalkStats) : WalkStats := { stats with walkedCount := stats.walkedCount + 1 }

def total (nodes : List DiskNode) : Int64 := (nodes.map DiskNode.size).sum

/-- sort.Slice by falling size; it promises nothing about the order of equal sizes. -/
structure SliceSort where
  run : List DiskNode → List DiskNode
  perm : ∀ nodes, (run nodes).Perm nodes
  falling : ∀ nodes, (run nodes).Pairwise fun first second => second.size ≤ first.size

structure Scan where
  sort : SliceSort
  maxDepth : Int
  minSizeBytes : Int64
  maxChildren : Int
  includeHidden : Bool

structure Aggregation where
  kept : List DiskNode
  smallSum : Int64
  smallCount : Nat
  extraSum : Int64
  extraCount : Nat

def Aggregation.add (scan : Scan) (sums : Aggregation) (child : DiskNode) : Aggregation :=
  if child.size < scan.minSizeBytes then
    { sums with smallSum := sums.smallSum + child.size, smallCount := sums.smallCount + 1 }
  else if (sums.kept.length : Int) < scan.maxChildren then { sums with kept := sums.kept ++ [child] }
  else { sums with extraSum := sums.extraSum + child.size, extraCount := sums.extraCount + 1 }

def aggregate (scan : Scan) (children : List DiskNode) : Aggregation :=
  children.foldl (Aggregation.add scan) ⟨[],0,0,0,0⟩

def smallName : List Char := "* (small)".toList
def othersName : List Char := "* (others)".toList

def aggregateChildren (scan : Scan) (children : List DiskNode) (parentPath : List Char) : List DiskNode :=
  if children.length = 0 then []
  else
    let sums := aggregate scan (scan.sort.run children)
    sums.kept ++ (if 0 < sums.smallCount then [⟨smallName,parentPath,sums.smallSum,false,[]⟩] else []) ++
      (if 0 < sums.extraCount then [⟨othersName,parentPath,sums.extraSum,false,[]⟩] else [])

mutual

/-- The walk of a tree without errors, by a context that never ends. -/
def walkDir (scan : Scan) (path : List Char) (depth : Nat) : Item → WalkStats → DiskNode × WalkStats
  | .directory info entries, stats =>
    if scan.maxDepth ≤ depth then (⟨base path,path,allocatedSize info,true,[]⟩,stats.walk)
    else
      let (children,stats) := walkEntries scan path depth entries stats.walk
      let dirSize := total children
      (⟨base path,path,if 0 < dirSize then dirSize else allocatedSize info,true,
        aggregateChildren scan children path⟩,stats)
  | .file info, stats => (⟨base path,path,allocatedSize info,false,[]⟩,stats.walk)
  | .symlink info _, stats => (⟨base path,path,allocatedSize info,false,[]⟩,stats.walk)

def walkEntries (scan : Scan) (path : List Char) (depth : Nat) : Entries → WalkStats → List DiskNode × WalkStats
  | .nil, stats => ([],stats)
  | .cons name item rest, stats =>
    if !scan.includeHidden && name.head? = some '.' then walkEntries scan path depth rest stats
    else
      match item with
      | .symlink _ _ => walkEntries scan path depth rest stats
      | .file info =>
        let (children,stats) := walkEntries scan path depth rest stats.walk
        (⟨name,join path name,allocatedSize info,false,[]⟩ :: children,stats)
      | .directory info entries =>
        if depth < scan.maxDepth then
          let (child,stats) := walkDir scan (join path name) (depth + 1) (.directory info entries) stats
          let (children,stats) := walkEntries scan path depth rest stats
          (child :: children,stats)
        else
          let (children,stats) := walkEntries scan path depth rest stats.walk
          (⟨name,join path name,allocatedSize info,true,[]⟩ :: children,stats)

end

def visible (scan : Scan) : Entries → List (List Char × Item)
  | .nil => []
  | .cons name item rest =>
    if !scan.includeHidden && name.head? = some '.' then visible scan rest
    else
      match item with
      | .symlink _ _ => visible scan rest
      | item => (name,item) :: visible scan rest

mutual

/-- The sizes at the leaves of the tree that is visited; a directory of which nothing is visited is
one of them. -/
def visitedLeaves (scan : Scan) (depth : Nat) : Item → List Int64
  | .directory info entries =>
    if scan.maxDepth ≤ depth ∨ (visible scan entries).length = 0 then [allocatedSize info]
    else entriesLeaves scan depth entries
  | .file info => [allocatedSize info]
  | .symlink info _ => [allocatedSize info]

def entriesLeaves (scan : Scan) (depth : Nat) : Entries → List Int64
  | .nil => []
  | .cons name item rest =>
    if !scan.includeHidden && name.head? = some '.' then entriesLeaves scan depth rest
    else
      match item with
      | .symlink _ _ => entriesLeaves scan depth rest
      | item => visitedLeaves scan (depth + 1) item ++ entriesLeaves scan depth rest

end

mutual

/-- The sizes that a scan adds up: where those in a directory come to nothing positive, the directory
counts with its own. -/
def measured (scan : Scan) (depth : Nat) : Item → List Int64
  | .directory info entries =>
    if scan.maxDepth ≤ depth then [allocatedSize info]
    else if 0 < (measuredEntries scan depth entries).sum then measuredEntries scan depth entries
    else [allocatedSize info]
  | .file info => [allocatedSize info]
  | .symlink info _ => [allocatedSize info]

def measuredEntries (scan : Scan) (depth : Nat) : Entries → List Int64
  | .nil => []
  | .cons name item rest =>
    if !scan.includeHidden && name.head? = some '.' then measuredEntries scan depth rest
    else
      match item with
      | .symlink _ _ => measuredEntries scan depth rest
      | item => measured scan (depth + 1) item ++ measuredEntries scan depth rest

end

def summary (name parentPath : List Char) (folded : List DiskNode) : List DiskNode :=
  if folded = [] then [] else [⟨name,parentPath,total folded,false,[]⟩]

/-- What a directory shows of the children that were visited: the largest of those that are large
enough, then the two summaries. -/
def Capped (scan : Scan) (parentPath : List Char) (visited children : List DiskNode) : Prop :=
  ∃ kept rest small : List DiskNode,
    children = kept ++ summary smallName parentPath small ++ summary othersName parentPath rest ∧
    (kept ++ rest).Perm (visited.filter fun node => scan.minSizeBytes ≤ node.size) ∧
    small.Perm (visited.filter fun node => node.size < scan.minSizeBytes) ∧
    (kept.length : Int) ≤ scan.maxChildren ∧ (rest ≠ [] → (kept.length : Int) = scan.maxChildren) ∧
    (kept.Pairwise fun first second => second.size ≤ first.size) ∧
    ∀ node ∈ kept, ∀ folded ∈ rest, folded.size ≤ node.size

inductive Shows (scan : Scan) : Nat → List Char → Item → DiskNode → Prop where
  | leaf {depth : Nat} {path item node} (cut : item.isDir = true → scan.maxDepth ≤ depth) (located : node.path = path)
      (sized : node.size = allocatedSize item.info) (bare : node.children = []) : Shows scan depth path item node
  | directory {depth : Nat} {path info entries node visited} (inside : depth < scan.maxDepth) (located : node.path = path)
      (all : visited.length = (visible scan entries).length)
      (each : ∀ pair ∈ (visible scan entries).zip visited,
        Shows scan (depth + 1) (join path pair.1.1) pair.1.2 pair.2)
      (capped : Capped scan path visited node.children) (conserved : total node.children = total visited)
      (sized : node.size = if 0 < total node.children then total node.children else allocatedSize info) :
      Shows scan depth path (.directory info entries) node

variable {scan : Scan} {path : List Char} {depth : Nat} {nodes : List DiskNode}

theorem total_append (first second : List DiskNode) : total (first ++ second) = total first + total second := by
  simp [total]

theorem total_perm {first second : List DiskNode} (same : first.Perm second) : total first = total second :=
  (same.map _).sum_eq

theorem total_summary (name parentPath : List Char) (folded : List DiskNode) :
    total (summary name parentPath folded) = total folded := by
  unfold summary
  split
  case isTrue none => rw [none]
  case isFalse => simp [total]

/-- Whether a node is large enough to be shown. -/
theorem large_iff (node : DiskNode) :
    decide (scan.minSizeBytes ≤ node.size) = !decide (node.size < scan.minSizeBytes) := by
  have either : scan.minSizeBytes ≤ node.size ↔ ¬node.size < scan.minSizeBytes := Int64.not_lt.symm
  rw [decide_eq_decide.mpr either,decide_not]

/-- The large and the small nodes are all the nodes. -/
theorem total_split (scan : Scan) (nodes : List DiskNode) :
    total (nodes.filter fun node => scan.minSizeBytes ≤ node.size) +
      total (nodes.filter fun node => node.size < scan.minSizeBytes) = total nodes := by
  rw [← total_append]
  refine total_perm ?_
  simp only [large_iff]
  exact List.perm_append_comm.trans (List.filter_append_perm _ nodes)

/-- What the loop of `aggregateChildren` has after these children. -/
theorem aggregate_eq (scan : Scan) (positive : 0 < scan.maxChildren) (nodes : List DiskNode) :
    let large := nodes.filter fun node => scan.minSizeBytes ≤ node.size
    let small := nodes.filter fun node => node.size < scan.minSizeBytes
    aggregate scan nodes = ⟨large.take scan.maxChildren.toNat,total small,small.length,
      total (large.drop scan.maxChildren.toNat),(large.drop scan.maxChildren.toNat).length⟩ := by
  induction nodes using List.reverseRecOn with
  | nil => simp [aggregate,total]
  | append_singleton nodes node ih =>
    dsimp only at ih ⊢
    have step : aggregate scan (nodes ++ [node]) = (aggregate scan nodes).add scan node := by simp [aggregate]
    rw [step,ih,List.filter_append,List.filter_append]
    unfold Aggregation.add
    by_cases little : node.size < scan.minSizeBytes
    · have large : ¬scan.minSizeBytes ≤ node.size := Int64.not_le.mpr little
      simp [little,large,total]
    · have large : scan.minSizeBytes ≤ node.size := Int64.not_lt.mp little
      simp only [List.filter_cons,List.filter_nil,little,large,decide_true,decide_false,if_true,if_false,
        Bool.false_eq_true,List.append_nil]
      generalize (nodes.filter fun node => scan.minSizeBytes ≤ node.size) = before
      by_cases room : before.length < scan.maxChildren.toNat
      · have fits : ((before.take scan.maxChildren.toNat).length : Int) < scan.maxChildren := by
          rw [List.length_take]
          omega
        have whole : (before ++ [node]).length ≤ scan.maxChildren.toNat := by
          rw [List.length_append,List.length_singleton]
          omega
        rw [if_pos fits,List.take_of_length_le room.le,List.take_of_length_le whole,List.drop_eq_nil_of_le room.le,
          List.drop_eq_nil_of_le whole]
      · have full : ¬((before.take scan.maxChildren.toNat).length : Int) < scan.maxChildren := by
          rw [List.length_take]
          omega
        have reached : scan.maxChildren.toNat ≤ before.length := by omega
        rw [if_neg full,List.take_append_of_le_length reached,List.drop_append_of_le_length reached]
        simp [total]

/-- What a directory shows is its capped children; nothing is lost from their total. -/
theorem aggregateChildren_capped (positive : 0 < scan.maxChildren) (visited : List DiskNode) (path : List Char) :
    Capped scan path visited (aggregateChildren scan visited path) ∧
      total (aggregateChildren scan visited path) = total visited := by
  unfold aggregateChildren
  by_cases none : visited.length = 0
  · rw [List.length_eq_zero_iff.mp none]
    exact ⟨⟨[],[],[],by simp [summary],by simp,by simp,by simpa using positive.le,by simp,by simp,by simp⟩,rfl⟩
  rw [if_neg none]
  have sums := aggregate_eq scan positive (scan.sort.run visited)
  dsimp only at sums ⊢
  rw [sums]
  have ordered := (scan.sort.falling visited).filter fun node => decide (scan.minSizeBytes ≤ node.size)
  have large := (scan.sort.perm visited).filter fun node => decide (scan.minSizeBytes ≤ node.size)
  have small := (scan.sort.perm visited).filter fun node => decide (node.size < scan.minSizeBytes)
  have whole := total_split scan visited
  generalize (scan.sort.run visited).filter (fun node => decide (scan.minSizeBytes ≤ node.size)) = sorted at *
  generalize (scan.sort.run visited).filter (fun node => decide (node.size < scan.minSizeBytes)) = folded at *
  have split := List.take_append_drop scan.maxChildren.toNat sorted
  have shown : ∀ (name : List Char) (nodes : List DiskNode),
      (if 0 < nodes.length then [(⟨name,path,total nodes,false,[]⟩ : DiskNode)] else []) = summary name path nodes := by
    intro name nodes
    cases nodes <;> rfl
  rw [shown,shown]
  rw [← split,List.pairwise_append] at ordered
  refine ⟨⟨_,_,_,rfl,?_,small,?_,?_,ordered.1,ordered.2.2⟩,?_⟩
  · rwa [split]
  · rw [List.length_take]
    omega
  · intro more
    have beyond := mt List.drop_eq_nil_of_le more
    rw [List.length_take]
    omega
  · calc total (sorted.take scan.maxChildren.toNat ++ summary smallName path folded ++
          summary othersName path (sorted.drop scan.maxChildren.toNat))
        = total (sorted.take scan.maxChildren.toNat ++ sorted.drop scan.maxChildren.toNat) + total folded := by
          simp only [total_append,total_summary]
          exact add_right_comm _ _ _
      _ = total visited := by rw [split,total_perm large,total_perm small,whole]

theorem total_cons (node : DiskNode) (nodes : List DiskNode) : total (node :: nodes) = node.size + total nodes := by
  simp [total]

theorem shows_cons {entry : List Char × Item} {entries : List (List Char × Item)} {node : DiskNode}
    (shown : Shows scan (depth + 1) (join path entry.1) entry.2 node)
    (others : nodes.length = entries.length ∧
      ∀ pair ∈ entries.zip nodes, Shows scan (depth + 1) (join path pair.1.1) pair.1.2 pair.2) :
    (node :: nodes).length = (entry :: entries).length ∧
      ∀ pair ∈ (entry :: entries).zip (node :: nodes), Shows scan (depth + 1) (join path pair.1.1) pair.1.2 pair.2 := by
  refine ⟨by simp [others.1],fun pair member => ?_⟩
  rw [List.zip_cons_cons,List.mem_cons] at member
  rcases member with rfl | later
  · exact shown
  · exact others.2 pair later

mutual

theorem walkDir_shows (positive : 0 < scan.maxChildren) (depth : Nat) (path : List Char) :
    ∀ (item : Item) (stats : WalkStats), Shows scan depth path item (walkDir scan path depth item stats).1
  | .file _, _ | .symlink _ _, _ => .leaf (by simp [Item.isDir]) rfl rfl rfl
  | .directory info entries, stats => by
    unfold walkDir
    by_cases cut : scan.maxDepth ≤ depth
    · rw [if_pos cut]
      exact .leaf (fun _ => cut) rfl rfl rfl
    · rw [if_neg cut]
      have visited := walkEntries_shows positive depth (not_le.mp cut) path entries stats.walk
      obtain ⟨capped,conserved⟩ :=
        aggregateChildren_capped positive (walkEntries scan path depth entries stats.walk).1 path
      refine .directory (not_le.mp cut) rfl visited.1 visited.2 capped conserved ?_
      dsimp only
      rw [conserved]

theorem walkEntries_shows (positive : 0 < scan.maxChildren) (depth : Nat) (inside : depth < scan.maxDepth)
    (path : List Char) : ∀ (entries : Entries) (stats : WalkStats),
      (walkEntries scan path depth entries stats).1.length = (visible scan entries).length ∧
        ∀ pair ∈ (visible scan entries).zip (walkEntries scan path depth entries stats).1,
          Shows scan (depth + 1) (join path pair.1.1) pair.1.2 pair.2
  | .nil, _ => by simp [walkEntries,visible]
  | .cons name item rest, stats => by
    unfold walkEntries visible
    by_cases hidden : (!scan.includeHidden && decide (name.head? = some '.')) = true
    · rw [if_pos hidden,if_pos hidden]
      exact walkEntries_shows positive depth inside path rest stats
    · rw [if_neg hidden,if_neg hidden]
      cases item with
      | symlink info target => exact walkEntries_shows positive depth inside path rest stats
      | file info =>
        have others := walkEntries_shows positive depth inside path rest stats.walk
        exact shows_cons (.leaf (by simp [Item.isDir]) rfl rfl rfl) others
      | directory info entries =>
        have child := walkDir_shows positive (depth + 1) (join path name) (.directory info entries) stats
        have others := walkEntries_shows positive depth inside path rest
          (walkDir scan (join path name) (depth + 1) (.directory info entries) stats).2
        dsimp only
        rw [if_pos inside]
        exact shows_cons child others

end

mutual

/-- The size of a node is what the scan has added up below it. -/
theorem walkDir_size (depth : Nat) (path : List Char) :
    ∀ (item : Item) (stats : WalkStats), (walkDir scan path depth item stats).1.size = (measured scan depth item).sum
  | .file _, _ | .symlink _ _, _ => by simp [walkDir,measured]
  | .directory info entries, stats => by
    unfold walkDir measured
    by_cases cut : scan.maxDepth ≤ depth
    · rw [if_pos cut,if_pos cut]
      simp
    · have sums := walkEntries_total depth (not_le.mp cut) path entries stats.walk
      rw [if_neg cut,if_neg cut]
      dsimp only
      rw [sums]
      split <;> simp

theorem walkEntries_total (depth : Nat) (inside : depth < scan.maxDepth)
    (path : List Char) : ∀ (entries : Entries) (stats : WalkStats),
      total (walkEntries scan path depth entries stats).1 = (measuredEntries scan depth entries).sum
  | .nil, _ => rfl
  | .cons name item rest, stats => by
    unfold walkEntries measuredEntries
    by_cases hidden : (!scan.includeHidden && decide (name.head? = some '.')) = true
    · rw [if_pos hidden,if_pos hidden]
      exact walkEntries_total depth inside path rest stats
    · rw [if_neg hidden,if_neg hidden]
      cases item with
      | symlink info target => exact walkEntries_total depth inside path rest stats
      | file info =>
        have others := walkEntries_total depth inside path rest stats.walk
        dsimp only
        rw [total_cons,others,List.sum_append]
        simp [measured]
      | directory info entries =>
        have child := walkDir_size (depth + 1) (join path name) (.directory info entries) stats
        have others := walkEntries_total depth inside path rest
          (walkDir scan (join path name) (depth + 1) (.directory info entries) stats).2
        dsimp only
        rw [if_pos inside]
        dsimp only
        rw [total_cons,others,child,List.sum_append]

end

/-- Every node shows its item with capped children whose sizes make its own, and the root has the size
that was measured. -/
theorem size_conserved (scan : Scan) (positive : 0 < scan.maxChildren) (path : List Char) (item : Item)
    (stats : WalkStats) :
    Shows scan 0 path item (walkDir scan path 0 item stats).1 ∧
      (walkDir scan path 0 item stats).1.size = (measured scan 0 item).sum :=
  ⟨walkDir_shows positive 0 path item stats,walkDir_size 0 path item stats⟩

/-- A sort that keeps the order of equal sizes. -/
def stableSort : SliceSort where
  run nodes := nodes.mergeSort fun first second => second.size ≤ first.size
  perm nodes := List.mergeSort_perm nodes _
  falling nodes := by
    have trans (a b c : DiskNode) (ab : decide (b.size ≤ a.size) = true) (bc : decide (c.size ≤ b.size) = true) :
        decide (c.size ≤ a.size) = true := by
      simp only [decide_eq_true_eq] at *
      exact Int64.le_trans bc ab
    have total (a b : DiskNode) : (decide (b.size ≤ a.size) || decide (a.size ≤ b.size)) = true := by
      simpa using Int64.le_total b.size a.size
    simpa using List.pairwise_mergeSort trans total nodes

def defaultScan : Scan := ⟨stableSort,4,1048576,50,false⟩

def emptyFile : Item := .directory ⟨4096,some 8⟩ (.cons ['a'] (.file ⟨0,some 0⟩) .nil)

theorem size_conserved_emptyFile :
    0 < defaultScan.maxChildren ∧ Shows defaultScan 0 ['/'] emptyFile (walkDir defaultScan ['/'] 0 emptyFile ⟨0,0⟩).1 ∧
      (walkDir defaultScan ['/'] 0 emptyFile ⟨0,0⟩).1.size = (measured defaultScan 0 emptyFile).sum :=
  ⟨by decide,size_conserved defaultScan (by decide) ['/'] emptyFile ⟨0,0⟩⟩

/-- The directory has a size though the only leaf below it has none. -/
theorem leaves_not_conserved : 0 < defaultScan.maxChildren ∧
    (walkDir defaultScan ['/'] 0 emptyFile ⟨0,0⟩).1.size = 4096 ∧ (visitedLeaves defaultScan 0 emptyFile).sum = 0 := by
  decide

end Vigile.DiskScan
