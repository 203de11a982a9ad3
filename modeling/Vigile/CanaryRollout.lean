import Mathlib.Data.List.TakeWhile
import Vigile.OrderedMap
import Vigile.Python

/-! `_process_worker_updates` with its canary: cycles of checks, dispatches and polls among nodes
that connect, report their version and disconnect at any time. -/
namespace Vigile.CanaryRollout

open Python

section
-- the decimal value of a character, from the Unicode tables
variable (decimal : Char → Option Nat)

/-- The most digits that `int` reads. -/
def maxStrDigits : Nat := 4300

def int (text : String) : Option Int :=
  let digits (chars : List Char) : Option Nat :=
    let groups := chars.splitOn '_'
    if [] ∈ groups ∨ maxStrDigits < groups.flatten.length then none
    else (groups.flatten.mapM decimal).map fun digits => digits.foldl (fun n digit => 10 * n + digit) 0
  match (strip text).toList with
  | '+' :: rest => (digits rest).map Int.ofNat
  | '-' :: rest => (digits rest).map fun n => -Int.ofNat n
  | chars => (digits chars).map Int.ofNat

/-- `str(v).strip().lstrip("v")` -/
def clean (version : String) : String := String.ofList ((strip version).toList.dropWhile (· = 'v'))

def semverOf (cleaned : String) : Int × Int × Int :=
  let parts := ((cleaned.toList.takeWhile (· ≠ '-')).splitOn '.').map fun part => (int decimal (String.ofList part)).getD 0
  (parts.getD 0 0,parts.getD 1 0,parts.getD 2 0)

def parseSemver (version : String) : Int × Int × Int :=
  if version = "" then (0,0,0) else semverOf decimal (clean version)

/-- The order of tuples. -/
def later (a b : Int × Int × Int) : Bool :=
  b.1 < a.1 || (a.1 = b.1 && (b.2.1 < a.2.1 || (a.2.1 = b.2.1 && b.2.2 < a.2.2)))

def isNewerVersion (newVersion currentVersion : String) : Bool :=
  newVersion ≠ "" && later (parseSemver decimal newVersion) (parseSemver decimal currentVersion)

end

/-- The columns of `nodes` that the update reads, and whether the manager has its connection. -/
structure Node where
  workerVersion : Option String
  version : Option String
  revoked : Bool
  connected : Bool
  deriving DecidableEq

def Node.reported (node : Node) : String :=
  match node.workerVersion.filter (· ≠ ""),node.version.filter (· ≠ "") with
  | some text, _ => text
  | none, some text => text
  | none, none => ""

inductive Cycle where
  | idle
  /-- The rows still to be looked at, with the version they had, and the outdated nodes. -/
  | checking (version : String) (rows : List (String × String)) (outdated : List String)
  | canary (version node : String) (remaining : List String)
  | waiting (version node : String) (remaining : List String)
  /-- The canary was connected; its row is being read. -/
  | reading (version node : String) (remaining : List String)
  | rollout (version : String) (remaining : List String)
  /-- A single node, or the canary is disabled. -/
  | plain (version : String) (outdated : List String)
  deriving DecidableEq

/-- The fleet with the intents sent, as versions and nodes, and the versions reported, cleaned. -/
structure Fleet where
  nodes : OrderedMap String Node
  cycle : Cycle
  sent : List (String × String)
  reported : List (String × String)

inductive Event where
  /-- A new row, from the enrollment of a node. -/
  | enroll (node version : String)
  | handshake (node version : String)
  | connect (node : String)
  | disconnect (node : String)
  | report (node version : String)
  | revoke (node : String)
  | delete (node : String)
  /-- A cycle has its manifest and the rows of these nodes. -/
  | begin_ (version : String) (nodes : List String)
  | check
  | decide
  /-- Whether the intent got out, and whether the node has accepted it. -/
  | dispatch (sent success : Bool)
  | look
  | read
  | timeout
  | abort
  deriving DecidableEq

def start : Fleet := ⟨.empty,.idle,[],[]⟩

def Fleet.reports (w : Fleet) (node version : String) : Fleet :=
  if version = "" then w else {w with reported := w.reported ++ [(node,clean version)]}

/-- `COALESCE(NULLIF(?, ''), column)` -/
def coalesce (version : String) (column : Option String) : Option String :=
  if version = "" then column else some version

def Fleet.change (w : Fleet) (node : String) (change : Node → Node) : Fleet :=
  {w with nodes := w.nodes.modify fun id row => if id = node then change row else row}

def Fleet.isConnected (w : Fleet) (node : String) : Bool := (w.nodes.get? node).any Node.connected

/-- The intent for the node, where the dispatch gets so far. -/
def Fleet.sends (w : Fleet) (version node : String) (sent : Bool) (next : Cycle) : Fleet :=
  {w with cycle := next, sent := if sent then w.sent ++ [(version,node)] else w.sent}

section
variable (decimal : Char → Option Nat) (autoUpdateCanary : Bool)

def step (w : Fleet) : Event → Option Fleet
  | .enroll node version =>
    match w.nodes.get? node with
    | some _ => none
    | none => some ({w with nodes := w.nodes.set node ⟨some version,some version,false,false⟩}.reports node version)
  | .handshake node version =>
    match w.nodes.get? node with
    | some _ => some ((w.change node fun row => {row with
        workerVersion := coalesce version row.workerVersion
        version := coalesce version row.version}).reports node version)
    | none => none
  | .connect node => some (w.change node fun row => {row with connected := true})
  | .disconnect node => some (w.change node fun row => {row with connected := false})
  | .report node version =>
    if w.isConnected node ∧ version ≠ "" then
      some ((w.change node fun row => {row with workerVersion := some version}).reports node version)
    else none
  | .revoke node => some (w.change node fun row => {row with revoked := true})
  | .delete node => some {w with nodes := w.nodes.erase node}
  | .begin_ version nodes =>
    match w.cycle with
    | .idle =>
      if version = "" then none
      else
        some {w with cycle := .checking version (nodes.filterMap fun id =>
          ((w.nodes.get? id).filter fun row => !row.revoked).map fun row => (id,row.reported)) []}
    | _ => none
  | .check =>
    match w.cycle with
    | .checking version ((node,current) :: rows) outdated =>
      if w.isConnected node ∧ isNewerVersion decimal version current then
        some {w with cycle := .checking version rows (outdated ++ [node])}
      else some {w with cycle := .checking version rows outdated}
    | _ => none
  | .decide =>
    match w.cycle with
    | .checking _ [] [] => some {w with cycle := .idle}
    | .checking version [] (node :: remaining) =>
      if autoUpdateCanary ∧ remaining ≠ [] then some {w with cycle := .canary version node remaining}
      else some {w with cycle := .plain version (node :: remaining)}
    | _ => none
  | .dispatch sent success =>
    match w.cycle with
    | .canary version node remaining =>
      if (success → sent) ∧ (sent → w.isConnected node) then
        some (w.sends version node sent (if success then .waiting version node remaining else .idle))
      else none
    | .rollout version (node :: remaining) =>
      if (success → sent) ∧ (sent → w.isConnected node) then
        some (w.sends version node sent (.rollout version remaining))
      else none
    | .plain version (node :: remaining) =>
      if (success → sent) ∧ (sent → w.isConnected node) then
        some (w.sends version node sent (.plain version remaining))
      else none
    | _ => none
  | .look =>
    match w.cycle with
    | .waiting version node remaining =>
      if w.isConnected node then some {w with cycle := .reading version node remaining} else some w
    | _ => none
  | .read =>
    match w.cycle with
    | .reading version node remaining =>
      match w.nodes.get? node with
      | some row =>
        if clean row.reported = clean version then some {w with cycle := .rollout version remaining}
        else some {w with cycle := .waiting version node remaining}
      | none => some {w with cycle := .waiting version node remaining}
    | _ => none
  | .timeout =>
    match w.cycle with
    | .waiting _ _ _ => some {w with cycle := .idle}
    | _ => none
  | .abort => some {w with cycle := .idle}

def Cycle.target : Cycle → Option (String × String)
  | .canary version node _ => some (version,node)
  | .rollout version (node :: _) => some (version,node)
  | .plain version (node :: _) => some (version,node)
  | _ => none

def Cycle.First : Cycle → Prop
  | .canary _ _ _ | .plain _ _ => True
  | _ => False

/-- No other node was sent the version, or one that was has reported it. -/
def Guarded (w : Fleet) (version node : String) : Prop :=
  (∃ other, (version,other) ∈ w.sent ∧ other ≠ node) →
    ∃ recipient, (version,recipient) ∈ w.sent ∧ (recipient,clean version) ∈ w.reported

/-- Every intent that gets out is guarded. -/
def LawfulRun : Fleet → List Event → Prop
  | _, [] => True
  | w, event :: events =>
    ∀ w' ∈ step decimal autoUpdateCanary w event,
      (∀ success, event = .dispatch true success → ∀ version node, w.cycle.target = some (version,node) →
        Guarded w version node) ∧ LawfulRun w' events

def FreshRun : Fleet → List Event → Prop
  | _, [] => True
  | w, event :: events =>
    ∀ w' ∈ step decimal autoUpdateCanary w event,
      (∀ success, event = .dispatch true success → w.cycle.First → ∀ version node,
        w.cycle.target = some (version,node) → Guarded w version node) ∧ FreshRun w' events

end

section
variable {decimal : Char → Option Nat} {version current text : String}

theorem mem_of_mem_modifyHead {x y : Char} {parts : List (List Char)} {part : List Char}
    (member : part ∈ parts.modifyHead (List.cons y)) (inside : x ∈ part) : x = y ∨ ∃ part ∈ parts, x ∈ part := by
  cases parts with
  | nil => simp at member
  | cons head tail =>
    rcases List.mem_cons.mp member with rfl | tailed
    · rcases List.mem_cons.mp inside with same | inner
      · exact .inl same
      · exact .inr ⟨head,List.mem_cons_self,inner⟩
    · exact .inr ⟨part,List.mem_cons_of_mem _ tailed,inside⟩

/-- The parts of a text are of its characters. -/
theorem mem_of_mem_splitOn {x separator : Char} {chars part : List Char} (member : part ∈ chars.splitOn separator)
    (inside : x ∈ part) : x ∈ chars := by
  induction chars generalizing part with
  | nil =>
    rw [List.splitOn_nil,List.mem_singleton] at member
    rwa [member] at inside
  | cons y rest ih =>
    rw [List.splitOn_cons_eq_if_modifyHead] at member
    split at member
    · rcases List.mem_cons.mp member with rfl | tailed
      · exact absurd inside List.not_mem_nil
      · exact List.mem_cons_of_mem _ (ih tailed inside)
    · rcases mem_of_mem_modifyHead member inside with rfl | ⟨part,member,inside⟩
      · exact List.mem_cons_self
      · exact List.mem_cons_of_mem _ (ih member inside)

/-- Without a minus no number is negative. -/
theorem int_nonneg {n : Int} (positive : '-' ∉ text.toList) (number : int decimal text = some n) : 0 ≤ n := by
  have bare : '-' ∉ (strip text).toList := fun inside => positive (mem_of_mem_strip inside)
  unfold int at number
  dsimp only at number
  split at number
  · obtain ⟨value,-,rfl⟩ := Option.map_eq_some_iff.mp number
    exact Int.natCast_nonneg value
  · rename_i rest shape
    exact absurd (shape ▸ List.mem_cons_self) bare
  · obtain ⟨value,-,rfl⟩ := Option.map_eq_some_iff.mp number
    exact Int.natCast_nonneg value

def NonNeg (parts : Int × Int × Int) : Prop := 0 ≤ parts.1 ∧ 0 ≤ parts.2.1 ∧ 0 ≤ parts.2.2

theorem semverOf_nonneg : NonNeg (semverOf decimal text) := by
  have each : ∀ n ∈ ((text.toList.takeWhile (· ≠ '-')).splitOn '.').map fun part =>
      (int decimal (String.ofList part)).getD 0, (0 : Int) ≤ n := by
    intro n member
    obtain ⟨part,isPart,rfl⟩ := List.mem_map.mp member
    have positive : '-' ∉ (String.ofList part).toList := by
      intro inside
      rw [String.toList_ofList] at inside
      simpa using List.mem_takeWhile_imp (mem_of_mem_splitOn isPart inside)
    cases number : int decimal (String.ofList part) with
    | none => simp
    | some n => exact int_nonneg positive number
  have at_ (i : Nat) : (0 : Int) ≤ (((text.toList.takeWhile (· ≠ '-')).splitOn '.').map fun part =>
      (int decimal (String.ofList part)).getD 0).getD i 0 := by
    rw [List.getD_eq_getElem?_getD]
    cases found : (((text.toList.takeWhile (· ≠ '-')).splitOn '.').map fun part =>
      (int decimal (String.ofList part)).getD 0)[i]? with
    | none => simp
    | some n => exact each n (List.mem_of_getElem? found)
  exact ⟨at_ 0,at_ 1,at_ 2⟩

theorem parseSemver_nonneg (decimal : Char → Option Nat) (version : String) : NonNeg (parseSemver decimal version) := by
  unfold parseSemver
  split
  · exact ⟨Int.le_refl 0,Int.le_refl 0,Int.le_refl 0⟩
  · exact semverOf_nonneg

theorem semverOf_empty : semverOf decimal "" = (0,0,0) := rfl

/-- No version is older than the one without digits. -/
theorem clean_of_newer (newer : isNewerVersion decimal version current = true) : clean version ≠ "" := by
  intro empty
  unfold isNewerVersion at newer
  have zero : parseSemver decimal version = (0,0,0) := by
    unfold parseSemver
    rw [empty,semverOf_empty,ite_self]
  obtain ⟨major,minor,patch⟩ := parseSemver_nonneg decimal current
  rw [zero] at newer
  simp [later] at newer
  omega

end

def Node.Known (reported : List (String × String)) (id : String) (row : Node) : Prop :=
  row.reported = "" ∨ (id,clean row.reported) ∈ reported

/-- Where a cycle is, the version is not empty, the canary was sent it, and the rest is only up after
a report. -/
def Cycle.Sound (sent reported : List (String × String)) : Cycle → Prop
  | .checking version _ outdated => outdated ≠ [] → clean version ≠ ""
  | .canary version _ _ => clean version ≠ ""
  | .waiting version node _ | .reading version node _ => clean version ≠ "" ∧ (version,node) ∈ sent
  | .rollout version _ => ∃ recipient, (version,recipient) ∈ sent ∧ (recipient,clean version) ∈ reported
  | _ => True

structure Sound (w : Fleet) : Prop where
  rows : ∀ id row, w.nodes.get? id = some row → row.Known w.reported id
  cycle : w.cycle.Sound w.sent w.reported

theorem sound_start : Sound start :=
  ⟨fun _ _ found => (by cases found),trivial⟩

section
variable {decimal : Char → Option Nat} {autoUpdateCanary : Bool} {w w' : Fleet} {node version : String}
variable {sent sent' reported reported' : List (String × String)} {row : Node} {id : String}

/-- The version of the worker comes first. -/
theorem reported_worker (said : version ≠ "") (column : Option String) (revoked connected : Bool) :
    Node.reported ⟨some version,column,revoked,connected⟩ = version := by
  have kept : (some version).filter (· ≠ "") = some version := by simp [said]
  simp only [Node.reported,kept]

theorem Node.Known.mono (known : row.Known reported id) (more : reported ⊆ reported') : row.Known reported' id :=
  known.imp_right fun member => more member

theorem Cycle.Sound.mono {cycle : Cycle} (sound : cycle.Sound sent reported) (sends : sent ⊆ sent')
    (reports : reported ⊆ reported') : cycle.Sound sent' reported' := by
  cases cycle with
  | idle | checking | canary | plain => exact sound
  | waiting | reading => exact ⟨sound.1,sends sound.2⟩
  | rollout =>
    obtain ⟨recipient,isSent,isReported⟩ := sound
    exact ⟨recipient,sends isSent,reports isReported⟩

theorem reports_subset : w.reported ⊆ (w.reports node version).reported := by
  unfold Fleet.reports
  split
  · exact List.Subset.refl _
  · exact List.subset_append_left _ _

theorem reports_rest (w : Fleet) (node version : String) : (w.reports node version).nodes = w.nodes ∧ (w.reports node version).cycle = w.cycle ∧
    (w.reports node version).sent = w.sent := by
  unfold Fleet.reports
  split <;> exact ⟨rfl,rfl,rfl⟩

theorem mem_reports (said : version ≠ "") : (node,clean version) ∈ (w.reports node version).reported := by
  unfold Fleet.reports
  rw [if_neg said]
  exact List.mem_append_right _ List.mem_cons_self

/-- A row that has the version just reported, or the one it had. -/
theorem Sound.reports (cycle : w.cycle.Sound w.sent w.reported)
    (rows : ∀ id row, w.nodes.get? id = some row →
      row.Known w.reported id ∨ id = node ∧ row.reported = version) : Sound (w.reports node version) := by
  obtain ⟨sameNodes,sameCycle,sameSent⟩ := reports_rest w node version
  constructor
  · intro id row found
    rw [sameNodes] at found
    rcases rows id row found with known | ⟨rfl,rfl⟩
    · exact known.mono reports_subset
    · by_cases empty : row.reported = ""
      · exact .inl empty
      · exact .inr (mem_reports empty)
  · rw [sameCycle,sameSent]
    exact cycle.mono (List.Subset.refl _) reports_subset

theorem Sound.change_reports (sound : Sound w) {change : Node → Node}
    (changed : ∀ row, (change row).reported = row.reported ∨ (change row).reported = version) :
    Sound ((w.change node change).reports node version) := by
  refine Sound.reports sound.cycle fun id row found => ?_
  simp only [Fleet.change,OrderedMap.get?_modify,Option.map_eq_some_iff] at found
  obtain ⟨old,isOld,rfl⟩ := found
  have before : old.Known w.reported id := sound.rows id old isOld
  split
  · rename_i same
    rcases changed old with kept | new
    · exact .inl (by unfold Node.Known at *; rw [kept]; exact before)
    · exact .inr ⟨same,new⟩
  · exact .inl before

theorem Sound.change (sound : Sound w) {change : Node → Node} (kept : ∀ row, (change row).reported = row.reported) :
    Sound (w.change node change) := by
  have changed : Sound ((w.change node change).reports node "") := sound.change_reports fun row => .inl (kept row)
  exact changed

theorem Sound.atCycle (sound : Sound w) {cycle : Cycle} (next : cycle.Sound w.sent w.reported) :
    Sound {w with cycle} :=
  ⟨sound.rows,next⟩

theorem Sound.sends (sound : Sound w) {isSent : Bool} {next : Cycle}
    (here : next.Sound (if isSent then w.sent ++ [(version,node)] else w.sent) w.reported) :
    Sound (w.sends version node isSent next) :=
  ⟨sound.rows,here⟩

theorem sends_subset {isSent : Bool} : w.sent ⊆ if isSent then w.sent ++ [(version,node)] else w.sent := by
  split
  · exact List.subset_append_left _ _
  · exact List.Subset.refl _

section
variable (sound : Sound w)
include sound

theorem Sound.enroll (stepped : step decimal autoUpdateCanary w (.enroll node version) = some w') :
    Sound w' := by
  delta step at stepped
  dsimp only at stepped
  split at stepped
  · contradiction
  · obtain rfl := Option.some.inj stepped
    refine Sound.reports sound.cycle fun id row found => ?_
    by_cases same : id = node
    · subst same
      rw [OrderedMap.get?_set_self,Option.some.injEq] at found
      subst found
      refine .inr ⟨rfl,?_⟩
      by_cases empty : version = ""
      · subst empty
        rfl
      · exact reported_worker empty _ _ _
    · rw [OrderedMap.get?_set_of_ne same] at found
      exact .inl (sound.rows id row found)

theorem Sound.handshake
    (stepped : step decimal autoUpdateCanary w (.handshake node version) = some w') : Sound w' := by
  delta step at stepped
  dsimp only at stepped
  split at stepped
  · obtain rfl := Option.some.inj stepped
    refine sound.change_reports fun row => ?_
    by_cases empty : version = ""
    · subst empty
      exact .inl rfl
    · simp only [coalesce,if_neg empty]
      exact .inr (reported_worker empty _ _ _)
  · contradiction

theorem Sound.report
    (stepped : step decimal autoUpdateCanary w (.report node version) = some w') : Sound w' := by
  delta step at stepped
  dsimp only at stepped
  split at stepped
  · rename_i allowed
    obtain rfl := Option.some.inj stepped
    exact sound.change_reports fun row => .inr (reported_worker allowed.2 _ _ _)
  · contradiction

theorem Sound.delete
    (stepped : step decimal autoUpdateCanary w (.delete node) = some w') : Sound w' := by
  obtain rfl := Option.some.inj stepped
  exact ⟨fun id row found => sound.rows id row (OrderedMap.get?_erase_some found).2,sound.cycle⟩

theorem Sound.begin_ {nodes : List String}
    (stepped : step decimal autoUpdateCanary w (.begin_ version nodes) = some w') : Sound w' := by
  delta step at stepped
  dsimp only at stepped
  split at stepped
  · split at stepped
    · contradiction
    · obtain rfl := Option.some.inj stepped
      exact sound.atCycle fun none => absurd rfl none
  · contradiction

theorem Sound.check (stepped : step decimal autoUpdateCanary w .check = some w') : Sound w' := by
  have here := sound.cycle
  delta step at stepped
  dsimp only at stepped
  split at stepped
  · rename_i at_
    rw [at_] at here
    split at stepped
    · rename_i outdated
      obtain rfl := Option.some.inj stepped
      exact sound.atCycle fun _ => clean_of_newer outdated.2
    · obtain rfl := Option.some.inj stepped
      exact sound.atCycle here
  · contradiction

theorem Sound.decide (stepped : step decimal autoUpdateCanary w .decide = some w') : Sound w' := by
  have here := sound.cycle
  delta step at stepped
  dsimp only at stepped
  split at stepped
  · obtain rfl := Option.some.inj stepped
    exact sound.atCycle trivial
  · rename_i at_
    rw [at_] at here
    split at stepped
    · obtain rfl := Option.some.inj stepped
      exact sound.atCycle (here (List.cons_ne_nil _ _))
    · obtain rfl := Option.some.inj stepped
      exact sound.atCycle trivial
  · contradiction

theorem Sound.dispatch {isSent success : Bool}
    (stepped : step decimal autoUpdateCanary w (.dispatch isSent success) = some w') : Sound w' := by
  have here := sound.cycle
  delta step at stepped
  dsimp only at stepped
  split at stepped
  · rename_i at_
    rw [at_] at here
    split at stepped
    · rename_i allowed
      obtain rfl := Option.some.inj stepped
      refine sound.sends ?_
      cases success with
      | false => exact trivial
      | true => exact ⟨here,by simp [allowed.1 rfl]⟩
    · cases stepped
  · rename_i at_
    rw [at_] at here
    split at stepped
    · obtain rfl := Option.some.inj stepped
      obtain ⟨recipient,hasSent,isReported⟩ := here
      exact sound.sends ⟨recipient,sends_subset hasSent,isReported⟩
    · contradiction
  · split at stepped
    · obtain rfl := Option.some.inj stepped
      exact sound.sends trivial
    · contradiction
  · contradiction

theorem Sound.look (stepped : step decimal autoUpdateCanary w .look = some w') : Sound w' := by
  have here := sound.cycle
  delta step at stepped
  dsimp only at stepped
  split at stepped
  · rename_i at_
    rw [at_] at here
    split at stepped
    · obtain rfl := Option.some.inj stepped
      exact sound.atCycle here
    · obtain rfl := Option.some.inj stepped
      exact sound
  · contradiction

/-- What the row of the canary says was reported, and it is not nothing. -/
theorem Sound.read (stepped : step decimal autoUpdateCanary w .read = some w') : Sound w' := by
  have here := sound.cycle
  delta step at stepped
  dsimp only at stepped
  split at stepped
  · rename_i version node remaining at_
    rw [at_] at here
    obtain ⟨said,isSent⟩ := here
    split at stepped
    · rename_i row found
      split at stepped
      · rename_i same
        obtain rfl := Option.some.inj stepped
        refine sound.atCycle ⟨node,isSent,?_⟩
        rcases sound.rows node row found with empty | isReported
        · rw [empty] at same
          exact absurd same.symm said
        · exact same ▸ isReported
      · obtain rfl := Option.some.inj stepped
        exact sound.atCycle ⟨said,isSent⟩
    · obtain rfl := Option.some.inj stepped
      exact sound.atCycle ⟨said,isSent⟩
  · contradiction

theorem Sound.timeout (stepped : step decimal autoUpdateCanary w .timeout = some w') : Sound w' := by
  delta step at stepped
  dsimp only at stepped
  split at stepped
  · obtain rfl := Option.some.inj stepped
    exact sound.atCycle trivial
  · contradiction

theorem Sound.step {event : Event} (stepped : step decimal autoUpdateCanary w event = some w') :
    Sound w' := by
  cases event with
  | enroll => exact sound.enroll stepped
  | handshake => exact sound.handshake stepped
  | connect | disconnect | revoke =>
    obtain rfl := Option.some.inj stepped
    exact sound.change fun row => rfl
  | report => exact sound.report stepped
  | delete => exact sound.delete stepped
  | begin_ => exact sound.begin_ stepped
  | check => exact sound.check stepped
  | decide => exact sound.decide stepped
  | dispatch => exact sound.dispatch stepped
  | look => exact sound.look stepped
  | read => exact sound.read stepped
  | timeout => exact sound.timeout stepped
  | abort =>
    obtain rfl := Option.some.inj stepped
    exact sound.atCycle trivial

/-- After the canary, every dispatch of a cycle is guarded. -/
theorem Sound.guarded (target : w.cycle.target = some (version,node)) (after : ¬w.cycle.First) :
    Guarded w version node := by
  intro _
  have here := sound.cycle
  cases at_ : w.cycle with
  | canary | plain =>
    rw [at_] at after
    exact absurd trivial after
  | idle | checking | waiting | reading =>
    rw [at_] at target
    cases target
  | rollout v remaining =>
    rw [at_] at target here
    cases remaining with
    | nil => cases target
    | cons head tail =>
      cases target
      exact here

end

end

def asciiDecimal (c : Char) : Option Nat := if c.isDigit then some (c.toNat - 48) else none

/-- A canary takes its update and is gone; the next cycle finds the other node alone. -/
def brokenRelease : List Event :=
  [.enroll "a" "1.0.0",.enroll "b" "1.0.0",.connect "a",.connect "b",
    .begin_ "1.1.0" ["a","b"],.check,.check,.decide,.dispatch true true,.disconnect "a",.look,.timeout,
    .begin_ "1.1.0" ["a","b"],.check,.check,.decide]

theorem lawful_last {decimal : Char → Option Nat} {autoUpdateCanary : Bool} {events : List Event} {last : Event}
    {w w' : Fleet} (lawful : LawfulRun decimal autoUpdateCanary w (events ++ [last]))
    (ran : events.foldlM (step decimal autoUpdateCanary) w = some w') : LawfulRun decimal autoUpdateCanary w' [last] := by
  induction events generalizing w with
  | nil =>
    obtain rfl := Option.some.inj ran
    exact lawful
  | cons event events ih =>
    rw [List.foldlM_cons] at ran
    obtain ⟨middle,stepped,rest⟩ := Option.bind_eq_some_iff.mp ran
    exact ih (lawful middle stepped).2 rest

end Vigile.CanaryRollout
