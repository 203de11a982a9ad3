import Mathlib.Data.List.Nodup
import Vigile.Python
import Vigile.Runs

/-! The frontend's node store: the list of nodes, and the selection kept beside it. -/
namespace Vigile.NodeStore

open Python

structure Node where
  id : String
  name : String
  state : String
  group : Option String
  disabled : Bool
  others : String → Json

/-- The fields of an answer, which spread over those of a node; the absent ones leave them. -/
structure NodeData where
  id : Option String
  name : Option String
  state : Option String
  group : Option (Option String)
  disabled : Option Bool
  others : String → Option Json

def Node.spread (n : Node) (data : NodeData) : Node where
  id := data.id.getD n.id
  name := data.name.getD n.name
  state := data.state.getD n.state
  group := data.group.getD n.group
  disabled := data.disabled.getD n.disabled
  others := fun key => (data.others key).getD (n.others key)

structure Store where
  nodes : List Node
  selectedNodeId : String
  selectedNode : Option Node

def initial : Store := ⟨[],"all",none⟩

def find (nodes : List Node) (nodeId : String) : Option Node := nodes.find? fun n => n.id = nodeId

def setNodes (s : Store) (nodes : List Node) : Store :=
  match nodes with
  | [only] => ⟨nodes,only.id,some only⟩
  | _ =>
    if s.selectedNodeId = "all" then ⟨nodes,"all",none⟩
    else
      match find nodes s.selectedNodeId with
      | some found => ⟨nodes,found.id,some found⟩
      | none => ⟨nodes,"all",none⟩

def selectNode (s : Store) (nodeId : Option String) : Store :=
  match nodeId with
  | none => {s with selectedNodeId := "all", selectedNode := none}
  | some nodeId =>
    if nodeId = "all" ∨ nodeId = "" then {s with selectedNodeId := "all", selectedNode := none}
    else
      let selected := find s.nodes nodeId
      {s with selectedNodeId := (selected.map (·.id)).getD "all", selectedNode := selected}

/-- What `fetchNodes` does with its answer; an error or an empty answer leaves the nodes. -/
def fetchNodes (s : Store) (data : Option (List Node)) : Store :=
  match data with
  | none => s
  | some nodes =>
    match nodes with
    | [only] => ⟨nodes,only.id,some only⟩
    | _ =>
      if s.selectedNodeId ≠ "all" ∧ s.selectedNodeId ≠ "" then
        match find nodes s.selectedNodeId with
        | some found => ⟨nodes,found.id,some found⟩
        | none => ⟨nodes,"all",none⟩
      else ⟨nodes,"all",none⟩

def mapNode (s : Store) (id : String) (change : Node → Node) : Store :=
  {s with nodes := s.nodes.map fun n => if n.id = id then change n else n}

def removeNode (s : Store) (id : String) : Store := {s with nodes := s.nodes.filter fun n => n.id ≠ id}

def applyEvent (s : Store) (nodeId newState : String) : Store :=
  if newState = "REVOKED" then removeNode s nodeId
  else mapNode s nodeId fun n => {n with state := newState}

def applyDeletedEvent (s : Store) (nodeId : String) : Store :=
  let remaining := s.nodes.filter fun n => n.id ≠ nodeId
  if s.selectedNodeId = nodeId then
    match remaining with
    | [only] => ⟨remaining,only.id,some only⟩
    | _ => ⟨remaining,"all",none⟩
  else {s with nodes := remaining}

def configureNode (s : Store) (nodeId : String) (data : Option NodeData) : Store :=
  match data with
  | none => s
  | some data => mapNode s nodeId fun n => n.spread data

def renameNode (s : Store) (id name : String) : Store := mapNode s id fun n => {n with name := name}

def setNodeGroup (s : Store) (id group : String) : Store := mapNode s id fun n => {n with group := some group}

def setNodeDisabled (s : Store) (id : String) (disabled : Bool) : Store := mapNode s id fun n => {n with disabled := disabled}

def deleteNode (s : Store) (id : String) : Store := removeNode s id

inductive Action where
  | setNodes (nodes : List Node)
  | selectNode (nodeId : Option String)
  | fetchNodes (data : Option (List Node))
  | applyEvent (nodeId newState : String)
  | applyDeletedEvent (nodeId : String)
  | configureNode (nodeId : String) (data : Option NodeData)
  | renameNode (id name : String)
  | setNodeGroup (id group : String)
  | setNodeDisabled (id : String) (disabled : Bool)
  | deleteNode (id : String)

def step (s : Store) : Action → Store
  | .setNodes nodes => NodeStore.setNodes s nodes
  | .selectNode nodeId => NodeStore.selectNode s nodeId
  | .fetchNodes data => NodeStore.fetchNodes s data
  | .applyEvent nodeId newState => NodeStore.applyEvent s nodeId newState
  | .applyDeletedEvent nodeId => NodeStore.applyDeletedEvent s nodeId
  | .configureNode nodeId data => NodeStore.configureNode s nodeId data
  | .renameNode id name => NodeStore.renameNode s id name
  | .setNodeGroup id group => NodeStore.setNodeGroup s id group
  | .setNodeDisabled id disabled => NodeStore.setNodeDisabled s id disabled
  | .deleteNode id => NodeStore.deleteNode s id

def Distinct (nodes : List Node) : Prop := (nodes.map (·.id)).Nodup

/-- The lists that are received have distinct ids. -/
def Action.Valid : Action → Prop
  | .setNodes nodes | .fetchNodes (some nodes) => Distinct nodes
  | _ => True

/-- Nothing is selected, or the one node that has the id is. -/
def Selected (s : Store) : Prop :=
  (s.selectedNodeId = "all" ∧ s.selectedNode = none) ∨
    ∃ selected, s.nodes.filter (fun n => n.id = s.selectedNodeId) = [selected] ∧ s.selectedNode = some selected

/-- What an action does to the node that is selected: nothing, or it deselects it. -/
def Spares (s : Store) (action : Action) : Prop :=
  ∀ selected, s.selectedNode = some selected →
    match action with
    | .applyEvent nodeId newState =>
      nodeId = selected.id → newState ≠ "REVOKED" ∧ {selected with state := newState} = selected
    | .configureNode nodeId (some data) => nodeId = selected.id → selected.spread data = selected
    | .renameNode id name => id = selected.id → {selected with name := name} = selected
    | .setNodeGroup id group => id = selected.id → {selected with group := some group} = selected
    | .setNodeDisabled id disabled => id = selected.id → {selected with disabled := disabled} = selected
    | .deleteNode id => id ≠ selected.id
    | _ => True

/-- An answer that gives a listed node another id gives it none of another node. -/
def KeepsIds (s : Store) : Action → Prop
  | .configureNode nodeId (some data) =>
    nodeId ∈ s.nodes.map (·.id) → ∀ id, data.id = some id → id = nodeId ∨ id ∉ s.nodes.map (·.id)
  | _ => True

variable {s : Store} {nodes : List Node} {id : String} {selected : Node} {change : Node → Node} {action : Action}

theorem eq_of_id (distinct : Distinct nodes) {a b : Node} (first : a ∈ nodes) (second : b ∈ nodes) (same : a.id = b.id) :
    a = b :=
  List.inj_on_of_nodup_map distinct first second same

theorem filter_id (distinct : Distinct nodes) : nodes.filter (fun n => n.id = id) = [selected] ↔
    selected ∈ nodes ∧ selected.id = id := by
  constructor
  · intro only
    have member : selected ∈ nodes.filter fun n => n.id = id := only ▸ List.mem_singleton_self _
    simpa using member
  · rintro ⟨member,same⟩
    have unique : (nodes.filter fun n => n.id = id).Nodup := (List.Nodup.of_map _ distinct).filter _
    refine List.perm_singleton.mp ((List.perm_ext_iff_of_nodup unique (List.nodup_singleton _)).mpr fun n => ?_)
    rw [List.mem_filter,decide_eq_true_iff,List.mem_singleton]
    constructor
    · rintro ⟨listed,equal⟩
      exact eq_of_id distinct listed member (equal.trans same.symm)
    · rintro rfl
      exact ⟨member,same⟩

theorem selected_some (distinct : Distinct s.nodes) (some_ : s.selectedNode = some selected) :
    Selected s ↔ selected ∈ s.nodes ∧ selected.id = s.selectedNodeId := by
  unfold Selected
  constructor
  · rintro (⟨-,none⟩ | ⟨other,only,same⟩)
    · rw [some_] at none
      cases none
    · rw [some_] at same
      obtain rfl := Option.some.inj same
      exact (filter_id distinct).mp only
  · exact fun listed => .inr ⟨selected,(filter_id distinct).mpr listed,some_⟩

theorem selected_none (none : s.selectedNode = none) : Selected s ↔ s.selectedNodeId = "all" := by
  simp [Selected,none]

theorem selected_found (distinct : Distinct nodes) (found : find nodes id = some selected) :
    Selected ⟨nodes,selected.id,some selected⟩ :=
  (selected_some distinct rfl).mpr ⟨List.mem_of_find?_eq_some found,rfl⟩

theorem selected_only (only : Node) : Selected ⟨[only],only.id,some only⟩ :=
  (selected_some (s := ⟨[only],only.id,some only⟩) (List.nodup_singleton only.id) rfl).mpr ⟨List.mem_singleton_self _,rfl⟩

theorem selected_all (nodes : List Node) : Selected ⟨nodes,"all",none⟩ := (selected_none rfl).mpr rfl

theorem selected_setNodes (distinct : Distinct nodes) : Selected (setNodes s nodes) := by
  unfold setNodes
  split
  · exact selected_only _
  · split
    · exact selected_all _
    · split
      · rename_i found
        exact selected_found distinct found
      · exact selected_all _

theorem selected_fetchNodes (distinct : Distinct nodes) : Selected (fetchNodes s (some nodes)) := by
  unfold fetchNodes
  simp only
  split
  · exact selected_only _
  · split
    · split
      · rename_i found
        exact selected_found distinct found
      · exact selected_all _
    · exact selected_all _

theorem nodes_setNodes : (setNodes s nodes).nodes = nodes := by
  unfold setNodes
  split
  · rfl
  · split
    · rfl
    · split <;> rfl

theorem nodes_fetchNodes : (fetchNodes s (some nodes)).nodes = nodes := by
  unfold fetchNodes
  simp only
  split
  · rfl
  · split
    · split <;> rfl
    · rfl

theorem selected_selectNode (distinct : Distinct s.nodes) (nodeId : Option String) : Selected (selectNode s nodeId) := by
  unfold selectNode
  split
  · exact selected_all _
  · split
    · exact selected_all _
    · rename_i nodeId _
      cases found : find s.nodes nodeId with
      | none => exact selected_all _
      | some selected => exact selected_found distinct found

def KeepsId (nodes : List Node) (id : String) (change : Node → Node) : Prop :=
  ∀ n ∈ nodes, n.id = id → (change n).id = id ∨ (change n).id ∉ nodes.map (·.id)

theorem distinct_mapNode (distinct : Distinct s.nodes) (keeps : KeepsId s.nodes id change) :
    Distinct (mapNode s id change).nodes := by
  have apart := List.pairwise_map.mp distinct
  unfold Distinct mapNode
  rw [List.map_map]
  refine List.pairwise_map.mpr (apart.imp_of_mem fun {a b} first second differ => ?_)
  have kept (n other : Node) (member : n ∈ s.nodes) (listed : other ∈ s.nodes) (same : n.id = id) (differ : n.id ≠ other.id) :
      (change n).id ≠ other.id := by
    rcases keeps n member same with kept | fresh
    · rwa [kept,← same]
    · exact fun equal => fresh (equal ▸ List.mem_map_of_mem listed)
  simp only [Function.comp_apply]
  by_cases here : a.id = id
  · have there : b.id ≠ id := fun same => differ (here.trans same.symm)
    rw [if_pos here,if_neg there]
    exact kept a b first second here differ
  · by_cases there : b.id = id
    · rw [if_neg here,if_pos there]
      exact (kept b a second first there differ.symm).symm
    · rwa [if_neg here,if_neg there]

theorem selected_mapNode (distinct : Distinct s.nodes) (was : Selected s) (keeps : KeepsId s.nodes id change) :
    Selected (mapNode s id change) ↔ ∀ selected, s.selectedNode = some selected → id = selected.id → change selected = selected := by
  cases selection : s.selectedNode with
  | none =>
    rw [selected_none (s := mapNode s id change) selection]
    exact iff_of_true ((selected_none selection).mp was) (by simp)
  | some selected =>
    obtain ⟨member,named⟩ := (selected_some distinct selection).mp was
    rw [selected_some (s := mapNode s id change) (distinct_mapNode distinct keeps) selection]
    simp only [Option.some.injEq,forall_eq']
    constructor
    · rintro ⟨listed,-⟩ rfl
      obtain ⟨n,inside,now⟩ := List.mem_map.mp listed
      split at now
      · rename_i same
        rwa [eq_of_id distinct inside member same] at now
      · rename_i other
        exact absurd (congrArg Node.id now) other
    · intro spared
      refine ⟨List.mem_map.mpr ⟨selected,member,?_⟩,named⟩
      split
      · rename_i same
        exact spared same.symm
      · rfl

theorem distinct_filter (distinct : Distinct s.nodes) (keep : Node → Bool) : Distinct (s.nodes.filter keep) :=
  distinct.sublist (List.filter_sublist.map _)

theorem selected_removeNode (distinct : Distinct s.nodes) (was : Selected s) :
    Selected (removeNode s id) ↔ ∀ selected, s.selectedNode = some selected → id ≠ selected.id := by
  cases selection : s.selectedNode with
  | none =>
    rw [selected_none (s := removeNode s id) selection]
    exact iff_of_true ((selected_none selection).mp was) (by simp)
  | some selected =>
    obtain ⟨member,named⟩ := (selected_some distinct selection).mp was
    rw [selected_some (s := removeNode s id) (distinct_filter distinct _) selection]
    simp only [Option.some.injEq,forall_eq',removeNode,List.mem_filter,decide_eq_true_eq]
    exact ⟨fun listed => listed.1.2.symm,fun other => ⟨⟨member,other.symm⟩,named⟩⟩

theorem nodes_applyDeletedEvent : (applyDeletedEvent s id).nodes = s.nodes.filter fun n => n.id ≠ id := by
  unfold applyDeletedEvent
  dsimp only
  split
  · split <;> rfl
  · rfl

theorem selected_applyDeletedEvent (distinct : Distinct s.nodes) (was : Selected s) : Selected (applyDeletedEvent s id) := by
  unfold applyDeletedEvent
  dsimp only
  split
  · split
    · rename_i only single
      rw [single]
      exact selected_only only
    · exact selected_all _
  · rename_i other
    refine (@selected_removeNode s id distinct was).mpr fun selected selection same => other ?_
    rw [← ((selected_some distinct selection).mp was).2,same]

theorem keepsId_of_eq (same : ∀ n, (change n).id = n.id) : KeepsId nodes id change := fun n _ named => .inl ((same n).trans named)

theorem keepsId_spread {data : NodeData} (keeps : KeepsIds s (.configureNode id (some data))) :
    KeepsId s.nodes id fun n => n.spread data := by
  intro n member named
  have listed : id ∈ s.nodes.map (·.id) := named ▸ List.mem_map_of_mem member
  cases given : data.id with
  | none => exact .inl (by simp [Node.spread,given,named])
  | some other =>
    have apart := keeps listed other given
    simpa [Node.spread,given] using apart

theorem distinct_selectNode (distinct : Distinct s.nodes) (nodeId : Option String) : Distinct (selectNode s nodeId).nodes := by
  unfold selectNode
  split
  · exact distinct
  · split <;> exact distinct

theorem step_distinct (distinct : Distinct s.nodes) (valid : action.Valid) (keeps : KeepsIds s action) :
    Distinct (step s action).nodes := by
  cases action with
  | setNodes nodes => exact nodes_setNodes (s := s) ▸ valid
  | selectNode nodeId => exact distinct_selectNode distinct nodeId
  | fetchNodes data =>
    cases data with
    | none => exact distinct
    | some nodes => exact nodes_fetchNodes (s := s) ▸ valid
  | applyEvent nodeId newState =>
    simp only [step,applyEvent]
    split
    · exact distinct_filter distinct _
    · exact distinct_mapNode distinct (keepsId_of_eq fun _ => rfl)
  | applyDeletedEvent nodeId =>
    simp only [step]
    rw [nodes_applyDeletedEvent]
    exact distinct_filter distinct _
  | configureNode nodeId data =>
    cases data with
    | none => exact distinct
    | some data => exact distinct_mapNode distinct (keepsId_spread keeps)
  | renameNode id name | setNodeGroup id group => exact distinct_mapNode distinct (keepsId_of_eq fun _ => rfl)
  | setNodeDisabled id disabled => exact distinct_mapNode distinct (keepsId_of_eq fun _ => rfl)
  | deleteNode id => exact distinct_filter distinct _

theorem step_selected (distinct : Distinct s.nodes) (was : Selected s) (valid : action.Valid) (keeps : KeepsIds s action) :
    Selected (step s action) ↔ Spares s action := by
  cases action with
  | setNodes nodes => exact iff_of_true (selected_setNodes valid) fun _ _ => trivial
  | selectNode nodeId => exact iff_of_true (selected_selectNode distinct nodeId) fun _ _ => trivial
  | fetchNodes data =>
    cases data with
    | none => exact iff_of_true was fun _ _ => trivial
    | some nodes => exact iff_of_true (selected_fetchNodes valid) fun _ _ => trivial
  | applyEvent nodeId newState =>
    simp only [step,applyEvent,Spares]
    split
    · rename_i revoked
      rw [selected_removeNode distinct was]
      simp [revoked]
    · rename_i lives
      have mapped := @selected_mapNode s nodeId (fun n => {n with state := newState}) distinct was (keepsId_of_eq fun _ => rfl)
      rw [mapped]
      simp [lives]
  | applyDeletedEvent nodeId => exact iff_of_true (selected_applyDeletedEvent distinct was) fun _ _ => trivial
  | configureNode nodeId data =>
    cases data with
    | none => exact iff_of_true was fun _ _ => trivial
    | some data => exact selected_mapNode distinct was (keepsId_spread keeps)
  | renameNode id name | setNodeGroup id group => exact selected_mapNode distinct was (keepsId_of_eq fun _ => rfl)
  | setNodeDisabled id disabled => exact selected_mapNode distinct was (keepsId_of_eq fun _ => rfl)
  | deleteNode id => exact selected_removeNode distinct was

theorem run_selected (actions : List Action) : ∀ {s : Store}, Distinct s.nodes → Selected s →
    (∀ action ∈ actions, action.Valid) → Runs.Along step KeepsIds s actions → (Runs.Throughout step Selected s actions ↔ Runs.Along step Spares s actions) := by
  induction actions with
  | nil => exact fun _ was _ _ => iff_of_true was trivial
  | cons action rest later =>
    intro s distinct was valid keeps
    have valids := List.forall_mem_cons.mp valid
    have first := step_selected distinct was valids.1 keeps.1
    have next := fun selected => later (step_distinct distinct valids.1 keeps.1) selected valids.2 keeps.2
    constructor
    · rintro ⟨-,throughout⟩
      have selected := throughout.start
      exact ⟨first.mp selected,(next selected).mp throughout⟩
    · rintro ⟨spares,along⟩
      exact ⟨was,(next (first.mpr spares)).mpr along⟩

/-- The selection keeps to the list exactly in the runs where every action on the selected node leaves it as it is. -/
theorem selected_iff {actions : List Action} (valid : ∀ action ∈ actions, action.Valid) (keeps : Runs.Along step KeepsIds initial actions) :
    Runs.Throughout step Selected initial actions ↔ Runs.Along step Spares initial actions :=
  run_selected actions List.nodup_nil (selected_all []) valid keeps

def node (id name : String) : Node := ⟨id,name,"ONLINE",none,false,fun _ => .null⟩

theorem selected_iff_delete : Runs.Throughout step Selected initial [.setNodes [node "a" "one"],.deleteNode "a"] ↔
    Runs.Along step Spares initial [.setNodes [node "a" "one"],.deleteNode "a"] :=
  selected_iff (by simp [Action.Valid,Distinct]) (by simp [Runs.Along,KeepsIds])

/-- A renamed node stays selected under its old name. -/
theorem not_selected_rename :
    ¬∀ actions : List Action, (∀ action ∈ actions, action.Valid) → Runs.Along step KeepsIds initial actions → Runs.Throughout step Selected initial actions := by
  intro throughout
  have renamed := throughout [.setNodes [node "a" "one"],.renameNode "a" "two"] (by simp [Action.Valid,Distinct])
    (by simp [Runs.Along,KeepsIds])
  have last := renamed.2.2
  simp [Runs.Throughout,Selected,step,setNodes,renameNode,mapNode,node] at last

end Vigile.NodeStore
