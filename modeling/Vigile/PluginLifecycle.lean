import Vigile.OrderedMap
import Vigile.Python

/-! The three state axes of a plugin, kept in memory and partly in the `plugins` table. One
call of the manager is one step; a block with its UPDATE is one action, and so is a SELECT. -/
namespace Vigile.PluginLifecycle

open Python

inductive DesiredState where
  | enabled
  | disabled
  deriving DecidableEq

inductive RuntimeState where
  | unloaded
  | loading
  | active
  | error
  | stopping
  deriving DecidableEq

inductive OperationState where
  | idle
  | installing
  | uninstalling
  | upgrading
  deriving DecidableEq

def DesiredState.value : DesiredState → String
  | .enabled => "ENABLED"
  | .disabled => "DISABLED"

def RuntimeState.value : RuntimeState → String
  | .unloaded => "UNLOADED"
  | .loading => "LOADING"
  | .active => "ACTIVE"
  | .error => "ERROR"
  | .stopping => "STOPPING"

def OperationState.value : OperationState → String
  | .idle => "IDLE"
  | .installing => "INSTALLING"
  | .uninstalling => "UNINSTALLING"
  | .upgrading => "UPGRADING"

def validRuntimeTransitions : RuntimeState → List RuntimeState
  | .unloaded => [.loading]
  | .loading => [.active,.error]
  | .active => [.stopping,.error]
  | .error => []
  | .stopping => [.unloaded,.error]

def validOperationTransitions : OperationState → List OperationState
  | .idle => [.installing,.uninstalling,.upgrading]
  | .installing => [.idle,.uninstalling]
  | .uninstalling => [.idle]
  | .upgrading => [.idle]

structure Axes where
  desired : DesiredState
  runtime : RuntimeState
  operation : OperationState
  deriving DecidableEq

/-- What `_ensure` gives a plugin that is not tracked yet. -/
def Axes.initial : Axes := ⟨.disabled,.unloaded,.idle⟩

structure Row where
  enabled : Bool
  status : String
  deriving DecidableEq

def Row.desired (row : Row) : DesiredState := if row.enabled then .enabled else .disabled

structure Manager where
  states : OrderedMap String Axes
  table : Option (OrderedMap String Row)

namespace Manager

def row (s : Manager) (plugin : String) : Option Row := s.table.bind fun rows => rows.get? plugin

def axes (s : Manager) (plugin : String) : Axes := (s.states.get? plugin).getD .initial

def setInMemory (s : Manager) (plugin : String) (axes : Axes) : Manager :=
  {s with states := s.states.set plugin axes}

def ensure (s : Manager) (plugin : String) : Manager := s.setInMemory plugin (s.axes plugin)

/-- `UPDATE plugins` on the rows with these ids. -/
def updateRows (s : Manager) (plugins : List String) (change : Row → Row) : Manager :=
  {s with table := s.table.map (·.modify fun plugin row => if plugin ∈ plugins then change row else row)}

/-- The block with its UPDATE, where there is a connection. -/
def persist (s : Manager) (plugins : List String) (change : Row → Row) (fault : Fault) :
    Manager × Except PyError Unit :=
  if s.table.isSome then fault.strike s (s.updateRows plugins change,.ok ()) else (s,.ok ())

/-- `get_desired_state`: a failed SELECT leaves the answer to memory. -/
def getDesiredState (s : Manager) (plugin : String) (fault : Fault) : Except PyError DesiredState :=
  match s.table,fault.error? with
  | some _,some error => if error.isException then .ok (s.axes plugin).desired else .error error
  | _,_ => .ok (((s.row plugin).map Row.desired).getD (s.axes plugin).desired)

end Manager

section
-- `str.upper` and `repr`
variable (upper repr : String → String)

def parseDesired (text : String) : Option DesiredState :=
  if text = "ENABLED" then some .enabled else if text = "DISABLED" then some .disabled else none

def validateDesiredTransition (plugin : String) (current : Axes) (newDesired : DesiredState) : Except PyError Unit :=
  if newDesired = current.desired then .ok ()
  else if current.operation ≠ .idle then
    .error (.valueError ("Plugin '" ++ plugin ++ "' operation is '" ++ current.operation.value ++
      "' (must be IDLE to change desired state)"))
  else if current.runtime = .stopping then
    .error (.valueError ("Plugin '" ++ plugin ++
      "' runtime is STOPPING (wait for completion before changing desired state)"))
  else if current.runtime = .error ∧ newDesired ≠ .enabled then
    .error (.valueError ("Plugin '" ++ plugin ++ "' is in ERROR state. " ++
      "Only explicit re-activation (ENABLED) is allowed. Cannot transition to '" ++ newDesired.value ++ "'."))
  else .ok ()

def intended (current : Axes) (newDesired : DesiredState) : Option (Axes × (Row → Row)) :=
  match newDesired,current.runtime with
  | .enabled,.error => some (⟨.enabled,.unloaded,.idle⟩,fun _ => ⟨true,"UNLOADED"⟩)
  | .enabled,.unloaded | .enabled,.loading =>
    some (⟨.enabled,.loading,current.operation⟩,fun _ => ⟨true,"LOADING"⟩)
  | .enabled,.active => some (⟨.enabled,.active,current.operation⟩,fun row => {row with enabled := true})
  | .disabled,.active | .disabled,.loading =>
    some (⟨.disabled,.stopping,current.operation⟩,fun _ => ⟨false,"STOPPING"⟩)
  | .disabled,.unloaded => some (⟨.disabled,.unloaded,current.operation⟩,fun _ => ⟨false,"DISABLED"⟩)
  | _,_ => none

def transition (s : Manager) (plugin desiredState : String) (read write : Fault) : Manager × Except PyError Bool :=
  let s := s.ensure plugin
  match s.getDesiredState plugin read with
  | .error error => (s,.error error)
  | .ok currDesired =>
    let current : Axes := {s.axes plugin with desired := currDesired}
    match parseDesired (upper desiredState) with
    | none => (s,.error (.valueError ("Invalid desired state: " ++ repr desiredState)))
    | some newDesired =>
      match validateDesiredTransition plugin current newDesired with
      | .error error => (s,.error error)
      | .ok () =>
        if newDesired = currDesired then (s,.ok true)
        else
          match intended current newDesired with
          | none =>
            (s,.error (.valueError ("Invalid transition for plugin '" ++ plugin ++ "': desired=" ++ currDesired.value ++
              "→" ++ newDesired.value ++ ", runtime=" ++ current.runtime.value ++ ", operation=" ++
              current.operation.value)))
          | some (axes,change) =>
            match (s.setInMemory plugin axes).persist [plugin] change write with
            | (s,.ok ()) => (s,.ok true)
            | (s,.error error) => (s,.error error)

end

/-- An update that is not allowed is ignored; one that is not persisted stays in memory. -/
def updateRuntimeState (s : Manager) (plugin runtimeState : String) (write : Fault) : Manager × Except PyError Unit :=
  let s := s.ensure plugin
  match (validRuntimeTransitions (s.axes plugin).runtime).find? (·.value = runtimeState) with
  | none => (s,.ok ())
  | some next =>
    match (s.setInMemory plugin {s.axes plugin with runtime := next}).persist [plugin]
        (fun row => {row with status := runtimeState}) write with
    | (s,.ok ()) => (s,.ok ())
    | (s,.error error) => (s,if error.isException then .ok () else .error error)

def updateOperationState (s : Manager) (plugin operationState : String) : Manager :=
  let s := s.ensure plugin
  match (validOperationTransitions (s.axes plugin).operation).find? (·.value = operationState) with
  | none => s
  | some next => s.setInMemory plugin {s.axes plugin with operation := next}

def setError (s : Manager) (plugin : String) (write : Fault) : Manager × Except PyError Unit :=
  (s.setInMemory plugin ⟨.disabled,.error,.idle⟩).persist [plugin] (fun _ => ⟨false,"ERROR"⟩) write

def RuntimeState.stuck (runtime : RuntimeState) : Bool := runtime = .loading ∨ runtime = .stopping

def Row.stuck (row : Row) : Bool := row.status = "LOADING" ∨ row.status = "STOPPING"

def resetStuck (states : OrderedMap String Axes) : OrderedMap String Axes :=
  states.modify fun _ axes => if axes.runtime.stuck then .initial else axes

def stuckRows (states : OrderedMap String Axes) (rows : OrderedMap String Row) : List String :=
  (rows.filter fun plugin row => row.stuck && (states.get? plugin).isNone).keys

/-- Every exception around the table is logged and forgotten. -/
def reconcileAfterCrash (s : Manager) (read write : Fault) : Manager × Except PyError (List String) :=
  let tracked := (s.states.filter fun _ axes => axes.runtime.stuck).keys
  let states := resetStuck s.states
  match s.table with
  | none => ({s with states := states},.ok tracked)
  | some rows =>
    match read.error? with
    | some error => ({s with states := states},if error.isException then .ok tracked else .error error)
    | none =>
      let found := stuckRows states rows
      let s : Manager := {s with states := found.foldl (fun states plugin => states.set plugin .initial) states}
      if tracked ++ found = [] then (s,.ok [])
      else
        match s.persist (tracked ++ found) (fun _ => ⟨false,"DISABLED"⟩) write with
        | (s,.ok ()) => (s,.ok (tracked ++ found))
        | (s,.error error) => (s,if error.isException then .ok (tracked ++ found) else .error error)

inductive Call where
  | transition (plugin desiredState : String) (read write : Fault)
  | updateRuntimeState (plugin runtimeState : String) (write : Fault)
  | updateOperationState (plugin operationState : String)
  | setError (plugin : String) (write : Fault)
  | reconcileAfterCrash (read write : Fault)
  | restart

section
variable (upper repr : String → String)

def step (s : Manager) : Call → Manager
  | .transition plugin desiredState read write => (PluginLifecycle.transition upper repr s plugin desiredState read write).1
  | .updateRuntimeState plugin runtimeState write => (PluginLifecycle.updateRuntimeState s plugin runtimeState write).1
  | .updateOperationState plugin operationState => PluginLifecycle.updateOperationState s plugin operationState
  | .setError plugin write => (PluginLifecycle.setError s plugin write).1
  | .reconcileAfterCrash read write => (PluginLifecycle.reconcileAfterCrash s read write).1
  | .restart => {s with states := .empty}

def start (table : Option (OrderedMap String Row)) : Manager := ⟨.empty,table⟩

def run (calls : List Call) (s : Manager) : Manager := calls.foldl (step upper repr) s

/-- `set_error` was called for the plugin, and it was not re-activated since. -/
def failed (calls : List Call) (plugin : String) : Bool :=
  calls.foldl (fun failed call =>
    match call with
    | .setError other _ => failed || decide (other = plugin)
    | .transition other desiredState _ _ => failed && !decide (other = plugin ∧ upper desiredState = "ENABLED")
    | _ => failed) false

/-- Every failed plugin is in ERROR and desired DISABLED, in memory and in the table. -/
def Sticky (calls : List Call) (s : Manager) : Prop :=
  ∀ plugin, failed upper calls plugin = true →
    (s.axes plugin).runtime = .error ∧ (s.axes plugin).desired = .disabled ∧
      ∀ row, s.row plugin = some row → row.desired = .disabled

/-- The desired state of a tracked plugin is the table's. -/
def Agree (s : Manager) : Prop :=
  ∀ plugin axes row, s.states.get? plugin = some axes → s.row plugin = some row → row.desired = axes.desired

/-- A plugin that is not tracked while the table has it enabled. -/
def Stale (s : Manager) (plugin : String) : Prop :=
  s.states.get? plugin = none ∧ ∃ row, s.row plugin = some row ∧ row.enabled = true

/-- The UPDATE takes effect wherever there is a row. -/
def Persists (s : Manager) (plugin : String) (write : Fault) : Prop :=
  write.takesEffect = true ∨ s.row plugin = none

def swallowed (fault : Fault) : Bool := fault.error?.any PyError.isException

/-- A plugin whose runtime is stuck, or that is not tracked and has a stuck row that could be
read. -/
def stuck (s : Manager) (read : Fault) (plugin : String) : Bool :=
  match s.states.get? plugin with
  | some axes => axes.runtime.stuck
  | none => decide (read = .none) && (s.row plugin).any Row.stuck

/-- What keeps memory and table together, and an error known. -/
def Lawful (calls : List Call) (s : Manager) : Call → Prop
  | .transition plugin desiredState read write =>
    (Stale s plugin → upper desiredState = "DISABLED" ∧ read = .none ∨
      upper desiredState = "ENABLED" ∧ swallowed read = true) ∧
    (Persists s plugin write ∨ Stale s plugin ∧ upper desiredState = "ENABLED")
  | .updateRuntimeState plugin _ _ | .updateOperationState plugin _ => ¬Stale s plugin
  | .setError plugin write => write.takesEffect = true ∨ ∀ row, s.row plugin = some row → row.enabled = false
  | .reconcileAfterCrash read write => ∀ plugin row, s.row plugin = some row → row.enabled = true →
    stuck s read plugin = true → read = .none ∧ write.takesEffect = true
  | .restart => ∀ plugin, failed upper calls plugin = false

def LawfulRun (past : List Call) (s : Manager) : List Call → Prop
  | [] => True
  | call :: rest => Lawful upper past s call ∧ LawfulRun (past ++ [call]) (step upper repr s call) rest

end

section
variable {s : Manager} {plugin other : String}

@[simp] theorem row_setInMemory (axes : Axes) : (s.setInMemory plugin axes).row other = s.row other := rfl

@[simp] theorem row_ensure : (s.ensure plugin).row other = s.row other := rfl

theorem get?_setInMemory (axes : Axes) : (s.setInMemory plugin axes).states.get? other =
    if other = plugin then some axes else s.states.get? other := by
  unfold Manager.setInMemory
  split
  · rename_i same
    rw [same,OrderedMap.get?_set_self]
  · rename_i differ
    exact OrderedMap.get?_set_of_ne differ

theorem get?_ensure : (s.ensure plugin).states.get? other =
    if other = plugin then some (s.axes plugin) else s.states.get? other := get?_setInMemory _

@[simp] theorem axes_ensure : (s.ensure plugin).axes plugin = s.axes plugin := by
  simp [Manager.axes,get?_ensure]

theorem row_updateRows (plugins : List String) (change : Row → Row) : (s.updateRows plugins change).row other =
    (s.row other).map fun row => if other ∈ plugins then change row else row := by
  unfold Manager.row Manager.updateRows
  cases s.table with
  | none => rfl
  | some rows => simp

@[simp] theorem persist_states (plugins : List String) (change : Row → Row) (fault : Fault) :
    (s.persist plugins change fault).1.states = s.states := by
  unfold Manager.persist
  split
  · cases fault <;> rfl
  · rfl

theorem persist_row (plugins : List String) (change : Row → Row) (fault : Fault) :
    (s.persist plugins change fault).1.row other =
      (s.row other).map fun row => if fault.takesEffect = true ∧ other ∈ plugins then change row else row := by
  unfold Manager.persist
  split
  · rw [strike_fst]
    cases effect : fault.takesEffect with
    | true => simpa [effect] using row_updateRows plugins change
    | false => simp
  · rename_i absent
    have none : s.row other = none := by
      have absent : s.table = none := by simpa using absent
      simp [Manager.row,absent]
    rw [none]
    rfl

end

variable {s : Manager}

theorem agree_of_rows {s' : Manager} (agree : Agree s)
    (states : ∀ plugin axes, s'.states.get? plugin = some axes →
      s.states.get? plugin = some axes ∧ s'.row plugin = s.row plugin ∨
        ∀ row, s'.row plugin = some row → row.desired = axes.desired) : Agree s' := by
  intro plugin axes row tracked found
  rcases states plugin axes tracked with ⟨before,same⟩ | now
  · exact agree plugin axes row before (same ▸ found)
  · exact now row found

variable {plugin : String} {change : Row → Row}

theorem agree_ensure (agree : Agree s) (fresh : ¬Stale s plugin) :
    Agree (s.ensure plugin) := by
  refine agree_of_rows agree fun other axes tracked => ?_
  rw [get?_ensure] at tracked
  split at tracked
  · rename_i same
    subst same
    obtain rfl := Option.some.inj tracked
    cases known : s.states.get? other with
    | some axes => exact .inl ⟨by simp [Manager.axes,known],rfl⟩
    | none =>
      refine .inr fun row found => ?_
      have disabled : row.enabled = false := by
        by_contra enabled
        exact fresh ⟨known,row,found,by simpa using enabled⟩
      simp [Manager.axes,known,Row.desired,disabled,Axes.initial]
  · exact .inl ⟨tracked,rfl⟩

/-- Memory and table receive the same desired state. -/
theorem intended_desired {current axes : Axes} {newDesired : DesiredState}
    (found : intended current newDesired = some (axes,change)) :
    axes.desired = newDesired ∧ ∀ row, (change row).desired = newDesired := by
  obtain ⟨desired,runtime,operation⟩ := current
  cases newDesired <;> cases runtime <;> simp only [intended,Option.some.injEq,Prod.mk.injEq,reduceCtorEq] at found
  all_goals
    obtain ⟨rfl,rfl⟩ := found
    exact ⟨rfl,fun _ => rfl⟩

def AgreeElsewhere (s : Manager) (plugin : String) : Prop :=
  ∀ other axes row, other ≠ plugin → s.states.get? other = some axes → s.row other = some row → row.desired = axes.desired

theorem agreeElsewhere_ensure (agree : Agree s) (plugin : String) :
    AgreeElsewhere (s.ensure plugin) plugin := by
  intro other axes row differ tracked found
  rw [get?_ensure,if_neg differ] at tracked
  exact agree other axes row tracked found

theorem agree_persist {axes : Axes} {write : Fault}
    (elsewhere : AgreeElsewhere s plugin) (desired : ∀ row, (change row).desired = axes.desired)
    (persists : write.takesEffect = true ∨ ∀ row, s.row plugin = some row → row.desired = axes.desired) :
    Agree ((s.setInMemory plugin axes).persist [plugin] change write).1 := by
  intro other axes' row tracked found
  rw [persist_states,get?_setInMemory] at tracked
  rw [persist_row,row_setInMemory] at found
  obtain ⟨before,known,rfl⟩ := Option.map_eq_some_iff.mp found
  by_cases same : other = plugin
  · subst same
    rw [if_pos rfl] at tracked
    obtain rfl := Option.some.inj tracked
    split
    · exact desired before
    · rename_i unwritten
      exact persists.resolve_left (fun effect => unwritten ⟨effect,by simp⟩) before known
  · rw [if_neg same] at tracked
    rw [if_neg (by simp [same])]
    exact elsewhere other axes' before same tracked known

section
variable (upper repr : String → String) {s : Manager} {plugin desiredState : String} {read : Fault} (write : Fault)

/-- A transition is refused or changes nothing, or writes one desired state on both sides. -/
theorem transition_cases (s : Manager) (plugin desiredState : String) (read : Fault) :
    (transition upper repr s plugin desiredState read write).1 = s.ensure plugin ∨
    ∃ currDesired newDesired axes change,
      (s.ensure plugin).getDesiredState plugin read = .ok currDesired ∧
      parseDesired (upper desiredState) = some newDesired ∧ newDesired ≠ currDesired ∧
      intended {s.axes plugin with desired := currDesired} newDesired = some (axes,change) ∧
      (transition upper repr s plugin desiredState read write).1 =
        (((s.ensure plugin).setInMemory plugin axes).persist [plugin] change write).1 := by
  unfold transition
  cases answered : (s.ensure plugin).getDesiredState plugin read with
  | error error => exact .inl (by simp only [answered])
  | ok currDesired =>
    simp only [answered,axes_ensure]
    cases parsed : parseDesired (upper desiredState) with
    | none => exact .inl rfl
    | some newDesired =>
      simp only
      split
      · exact .inl rfl
      · split
        · exact .inl rfl
        · rename_i differ
          cases found : intended {s.axes plugin with desired := currDesired} newDesired with
          | none => exact .inl rfl
          | some target =>
            refine .inr ⟨currDesired,newDesired,target.1,target.2,rfl,rfl,differ,found,?_⟩
            simp only
            split <;> rename_i done <;> rw [done]

theorem transition_initial {currDesired newDesired : DesiredState} (unknown : s.states.get? plugin = none)
    (answered : (s.ensure plugin).getDesiredState plugin read = .ok currDesired)
    (parsed : parseDesired (upper desiredState) = some newDesired) (differ : newDesired ≠ currDesired) :
    ∃ axes change, intended {Axes.initial with desired := currDesired} newDesired = some (axes,change) ∧
      (transition upper repr s plugin desiredState read write).1 =
        (((s.ensure plugin).setInMemory plugin axes).persist [plugin] change write).1 := by
  have initial : s.axes plugin = .initial := by simp [Manager.axes,unknown]
  have valid : validateDesiredTransition plugin {Axes.initial with desired := currDesired} newDesired = .ok () := by
    simp [validateDesiredTransition,differ,Axes.initial]
  obtain ⟨⟨axes,change⟩,found⟩ : ∃ target, intended {Axes.initial with desired := currDesired} newDesired = some target := by
    cases newDesired <;> exact ⟨_,rfl⟩
  refine ⟨axes,change,found,?_⟩
  unfold transition
  simp only [answered,axes_ensure,initial,parsed,valid,if_neg differ,found]
  split <;> rename_i done <;> rw [done]

variable {text : String} {row : Row}

theorem parseDesired_enabled : parseDesired text = some .enabled ↔ text = "ENABLED" := by
  unfold parseDesired
  split
  · simp_all
  · split <;> simp_all

theorem parseDesired_disabled : parseDesired text = some .disabled ↔ text = "DISABLED" := by
  unfold parseDesired
  split
  · rename_i same
    simp [same]
  · split <;> simp_all

/-- The answer of a SELECT that went through. -/
theorem getDesiredState_read (found : s.row plugin = some row) :
    s.getDesiredState plugin .none = .ok row.desired := by
  unfold Manager.getDesiredState
  cases s.table <;> simp [Fault.error?,found]

/-- The answer where the SELECT failed. -/
theorem getDesiredState_failed (found : s.row plugin = some row) (failed : swallowed read = true) :
    s.getDesiredState plugin read = .ok (s.axes plugin).desired := by
  unfold Manager.getDesiredState
  unfold swallowed at failed
  cases table : s.table with
  | none => simp [Manager.row,table] at found
  | some rows =>
    cases error : read.error? with
    | none => simp [error] at failed
    | some error' =>
      have exception : error'.isException = true := by simpa [error] using failed
      simp [exception]

theorem agree_transition (agree : Agree s) (calls : List Call)
    (lawful : Lawful upper calls s (.transition plugin desiredState read write)) :
    Agree (transition upper repr s plugin desiredState read write).1 := by
  obtain ⟨fresh,persists⟩ := lawful
  have elsewhere := agreeElsewhere_ensure agree plugin
  by_cases stale : Stale s plugin
  · obtain ⟨unknown,row,found,enabled⟩ := id stale
    have wanted : row.desired = .enabled := by simp [Row.desired,enabled]
    have here : (s.ensure plugin).row plugin = some row := found
    have written : write.takesEffect = true ∨ upper desiredState = "ENABLED" :=
      persists.imp (fun persists => persists.resolve_right (by simp [found])) And.right
    rcases fresh stale with ⟨text,rfl⟩ | ⟨text,failed⟩
    · have answered := getDesiredState_read here
      obtain ⟨axes,change,target,same⟩ := transition_initial upper repr write unknown answered
        (parseDesired_disabled.mpr text) (by simp [wanted])
      obtain ⟨desired,changed⟩ := intended_desired target
      rw [same]
      exact agree_persist elsewhere (fun row => (changed row).trans desired.symm)
        (.inl (written.resolve_right (by simp [text])))
    · have answered := getDesiredState_failed here failed
      have initial : (s.axes plugin).desired = .disabled := by simp [Manager.axes,unknown,Axes.initial]
      rw [axes_ensure,initial] at answered
      obtain ⟨axes,change,target,same⟩ := transition_initial upper repr write unknown answered
        (parseDesired_enabled.mpr text) (by simp)
      obtain ⟨desired,changed⟩ := intended_desired target
      rw [same]
      refine agree_persist elsewhere (fun row => (changed row).trans desired.symm) (.inr fun row' found' => ?_)
      obtain rfl := Option.some.inj (here.symm.trans found')
      exact wanted.trans desired.symm
  · have persisted : write.takesEffect = true ∨ s.row plugin = none :=
      persists.resolve_right fun corner => stale corner.1
    rcases transition_cases upper repr write s plugin desiredState read with same | accepted
    · rw [same]
      exact agree_ensure agree stale
    · obtain ⟨currDesired,newDesired,axes,change,_,_,_,target,same⟩ := accepted
      rw [same]
      obtain ⟨desired,changed⟩ := intended_desired target
      refine agree_persist elsewhere (fun row => (changed row).trans desired.symm) ?_
      refine persisted.imp id fun absent row found => ?_
      rw [row_ensure,absent] at found
      contradiction

end

variable {s : Manager} {plugin other : String} {write read : Fault} {rows : OrderedMap String Row}
  {states : OrderedMap String Axes}

variable {s' : Manager} {runtimeState operationState : String}

/-- Where nothing that is desired changes, the two sides go on agreeing. -/
theorem agree_same (agree : Agree s)
    (states : ∀ plugin axes', s'.states.get? plugin = some axes' →
      ∃ axes, s.states.get? plugin = some axes ∧ axes.desired = axes'.desired)
    (rows : ∀ plugin row', s'.row plugin = some row' → ∃ row, s.row plugin = some row ∧ row.desired = row'.desired) :
    Agree s' := by
  intro plugin axes' row' tracked found
  obtain ⟨axes,before,desired⟩ := states plugin axes' tracked
  obtain ⟨row,known,enabled⟩ := rows plugin row' found
  exact enabled.symm.trans ((agree plugin axes row before known).trans desired)

theorem states_of_axes {axes : Axes} (desired : axes.desired = (s.axes plugin).desired)
    (other : String) (axes' : Axes) (tracked : ((s.ensure plugin).setInMemory plugin axes).states.get? other = some axes') :
    ∃ axes, (s.ensure plugin).states.get? other = some axes ∧ axes.desired = axes'.desired := by
  rw [get?_setInMemory] at tracked
  split at tracked
  · rename_i same
    subst same
    obtain rfl := Option.some.inj tracked
    exact ⟨s.axes other,by rw [get?_ensure,if_pos rfl],desired.symm⟩
  · exact ⟨axes',tracked,rfl⟩

theorem updateRuntimeState_cases (s : Manager) (plugin runtimeState : String) (write : Fault) :
    (updateRuntimeState s plugin runtimeState write).1 = s.ensure plugin ∨
    ∃ next, next ∈ validRuntimeTransitions (s.axes plugin).runtime ∧
      (updateRuntimeState s plugin runtimeState write).1 =
        (((s.ensure plugin).setInMemory plugin {s.axes plugin with runtime := next}).persist [plugin]
          (fun row => {row with status := runtimeState}) write).1 := by
  unfold updateRuntimeState
  simp only [axes_ensure]
  cases found : (validRuntimeTransitions (s.axes plugin).runtime).find? (·.value = runtimeState) with
  | none => exact .inl rfl
  | some next =>
    refine .inr ⟨next,List.mem_of_find?_eq_some found,?_⟩
    simp only
    split <;> rename_i done <;> rw [done]

theorem updateOperationState_cases (s : Manager) (plugin operationState : String) :
    updateOperationState s plugin operationState = s.ensure plugin ∨
    ∃ next, updateOperationState s plugin operationState =
      (s.ensure plugin).setInMemory plugin {s.axes plugin with operation := next} := by
  unfold updateOperationState
  simp only [axes_ensure]
  split
  · exact .inl rfl
  · exact .inr ⟨_,rfl⟩

theorem agree_updateRuntimeState (agree : Agree s)
    (fresh : ¬Stale s plugin) : Agree (updateRuntimeState s plugin runtimeState write).1 := by
  have ensured := agree_ensure agree fresh
  rcases updateRuntimeState_cases s plugin runtimeState write with same | ⟨next,_,same⟩
  · rwa [same]
  · rw [same]
    refine agree_same ensured ?_ fun other row' found => ?_
    · simp only [persist_states]
      exact states_of_axes rfl
    · rw [persist_row] at found
      obtain ⟨row,known,rfl⟩ := Option.map_eq_some_iff.mp found
      refine ⟨row,known,?_⟩
      split <;> rfl

theorem agree_updateOperationState (agree : Agree s)
    (fresh : ¬Stale s plugin) : Agree (updateOperationState s plugin operationState) := by
  have ensured := agree_ensure agree fresh
  rcases updateOperationState_cases s plugin operationState with same | ⟨next,same⟩
  · rwa [same]
  · rw [same]
    exact agree_same ensured (states_of_axes rfl) fun _ row found => ⟨row,found,rfl⟩

theorem agree_setError (agree : Agree s)
    (persists : write.takesEffect = true ∨ ∀ row, s.row plugin = some row → row.enabled = false) :
    Agree (setError s plugin write).1 := by
  refine agree_persist (fun other axes row _ => agree other axes row) (fun _ => rfl) ?_
  refine persists.imp id fun disabled row found => ?_
  simp [Row.desired,disabled row found]

theorem get?_resetStuck (states : OrderedMap String Axes) (plugin : String) : (resetStuck states).get? plugin =
    (states.get? plugin).map fun axes => if axes.runtime.stuck then .initial else axes := by
  unfold resetStuck
  simp

theorem get?_setAll (states : OrderedMap String Axes) (plugins : List String) (axes : Axes) (plugin : String) :
    (plugins.foldl (fun states plugin => states.set plugin axes) states).get? plugin =
      if plugin ∈ plugins then some axes else states.get? plugin := by
  induction plugins generalizing states with
  | nil => simp
  | cons head rest ih =>
    rw [List.foldl_cons,ih]
    by_cases later : plugin ∈ rest
    · simp [later]
    · by_cases now : plugin = head
      · subst now
        simp [later]
      · simp [later,now,OrderedMap.get?_set_of_ne now]

theorem mem_stuckRows :
    plugin ∈ stuckRows states rows ↔
      states.get? plugin = none ∧ (rows.get? plugin).any Row.stuck = true := by
  unfold stuckRows
  rw [OrderedMap.mem_keys]
  simp only [OrderedMap.get?_filter,Option.filter_eq_some_iff]
  cases rows.get? plugin <;> simp [and_comm]

theorem mem_stuckStates :
    plugin ∈ (states.filter fun _ axes => axes.runtime.stuck).keys ↔
      (states.get? plugin).any (·.runtime.stuck) = true := by
  rw [OrderedMap.mem_keys]
  simp only [OrderedMap.get?_filter,Option.filter_eq_some_iff]
  cases states.get? plugin <;> simp

theorem get?_resetStuck_isNone :
    (resetStuck states).get? plugin = none ↔ states.get? plugin = none := by
  rw [get?_resetStuck]
  simp

/-- What a call with a readable table resets. -/
theorem mem_reconciled (connected : s.table = some rows) (plugin : String) :
    plugin ∈ (s.states.filter fun _ axes => axes.runtime.stuck).keys ++ stuckRows (resetStuck s.states) rows ↔
      stuck s .none plugin = true := by
  have same : s.row plugin = rows.get? plugin := by simp [Manager.row,connected]
  rw [List.mem_append,mem_stuckStates,mem_stuckRows,get?_resetStuck_isNone]
  unfold stuck
  rw [same]
  cases s.states.get? plugin <;> simp

/-- Without the table only what is tracked is reset. -/
theorem resetStuck_of_unread
    (unread : read ≠ .none ∨ s.row plugin = none) : (resetStuck s.states).get? plugin =
      if stuck s read plugin = true then some .initial else s.states.get? plugin := by
  rw [get?_resetStuck]
  unfold stuck
  cases tracked : s.states.get? plugin with
  | none => rcases unread with unread | absent <;> simp [*]
  | some axes => cases now : axes.runtime.stuck <;> simp [now]

/-- The call with a readable table writes what it reconciled, if anything. -/
theorem reconcileAfterCrash_read (connected : s.table = some rows)
    (write : Fault) (plugin : String) :
    (reconcileAfterCrash s .none write).1.states.get? plugin =
        (if plugin ∈ stuckRows (resetStuck s.states) rows then some .initial else (resetStuck s.states).get? plugin) ∧
      (reconcileAfterCrash s .none write).1.row plugin = (s.row plugin).map fun row =>
        if write.takesEffect = true ∧ plugin ∈ (s.states.filter fun _ axes => axes.runtime.stuck).keys ++
            stuckRows (resetStuck s.states) rows then ⟨false,"DISABLED"⟩ else row := by
  have same : s.row plugin = rows.get? plugin := by simp [Manager.row,connected]
  unfold reconcileAfterCrash
  simp only [connected,Fault.error?,same]
  rw [← get?_setAll]
  split
  · rename_i nothing
    rw [nothing]
    exact ⟨rfl,by simp [Manager.row]⟩
  · have written : ∀ s' : Manager, (s'.persist ((s.states.filter fun _ axes => axes.runtime.stuck).keys ++
        stuckRows (resetStuck s.states) rows) (fun _ => ⟨false,"DISABLED"⟩) write).1.row plugin = _ :=
      fun s' => persist_row _ _ write
    split
    all_goals
      rename_i done
      have row := written ⟨(stuckRows (resetStuck s.states) rows).foldl
        (fun states plugin => states.set plugin .initial) (resetStuck s.states),some rows⟩
      rw [done] at row
      refine ⟨?_,row⟩
      have states := congrArg (·.1.states) done
      simp only [persist_states] at states
      rw [states]

/-- Stuck plugins are reset in memory, and in the table where it is written. -/
theorem reconcileAfterCrash_spec (s : Manager) (read write : Fault) (plugin : String) :
    (reconcileAfterCrash s read write).1.states.get? plugin =
        (if stuck s read plugin = true then some .initial else s.states.get? plugin) ∧
      (reconcileAfterCrash s read write).1.row plugin = (s.row plugin).map fun row =>
        if stuck s read plugin = true ∧ read = .none ∧ write.takesEffect = true then ⟨false,"DISABLED"⟩ else row := by
  cases connected : s.table with
  | none =>
    have absent : s.row plugin = none := by simp [Manager.row,connected]
    rw [absent]
    unfold reconcileAfterCrash
    simp only [connected]
    exact ⟨resetStuck_of_unread (.inr absent),rfl⟩
  | some rows =>
    have same : s.row plugin = rows.get? plugin := by simp [Manager.row,connected]
    cases read with
    | before error | after error =>
      unfold reconcileAfterCrash
      simp only [connected,Fault.error?]
      refine ⟨resetStuck_of_unread (.inl (by simp)),?_⟩
      rw [same]
      simp [Manager.row]
    | none =>
      obtain ⟨states,written⟩ := reconcileAfterCrash_read connected write plugin
      have member := mem_reconciled connected plugin
      rw [states,written]
      constructor
      · simp only [get?_resetStuck,mem_stuckRows,Option.map_eq_none_iff]
        unfold stuck
        rw [same]
        cases s.states.get? plugin with
        | none => simp
        | some axes => cases now : axes.runtime.stuck <;> simp [now]
      · simp only [member,and_comm,true_and]

theorem agree_reconcileAfterCrash (agree : Agree s)
    (lawful : ∀ plugin row, s.row plugin = some row → row.enabled = true →
      stuck s read plugin = true → read = .none ∧ write.takesEffect = true) :
    Agree (reconcileAfterCrash s read write).1 := by
  intro plugin axes row tracked found
  obtain ⟨states,rows⟩ := reconcileAfterCrash_spec s read write plugin
  rw [states] at tracked
  rw [rows] at found
  obtain ⟨before,known,rfl⟩ := Option.map_eq_some_iff.mp found
  split at tracked
  · rename_i now
    obtain rfl := Option.some.inj tracked
    split
    · rfl
    · rename_i unwritten
      have disabled : before.enabled = false := by
        by_contra enabled
        exact unwritten ⟨now,lawful plugin before known (by simpa using enabled) now⟩
      simp [Row.desired,disabled,Axes.initial]
  · rename_i quiet
    rw [if_neg fun both => quiet both.1]
    exact agree plugin axes before tracked known

/-! What keeps a plugin in ERROR -/

structure Failed (s : Manager) (plugin : String) : Prop where
  tracked : ∃ operation, s.states.get? plugin = some ⟨.disabled,.error,operation⟩
  disabled : ∀ row, s.row plugin = some row → row.enabled = false

theorem Failed.transfer (failed : Failed s plugin)
    (states : s'.states.get? plugin = s.states.get? plugin) (row : s'.row plugin = s.row plugin) : Failed s' plugin :=
  ⟨states ▸ failed.tracked,row ▸ failed.disabled⟩

theorem Failed.axes (failed : Failed s plugin) :
    ∃ operation, s.axes plugin = ⟨.disabled,.error,operation⟩ := by
  obtain ⟨operation,tracked⟩ := failed.tracked
  exact ⟨operation,by simp [Manager.axes,tracked]⟩

theorem Failed.ensure (failed : Failed s plugin) : Failed (s.ensure other) plugin := by
  refine failed.transfer ?_ rfl
  rw [get?_ensure]
  split
  · rename_i same
    subst same
    obtain ⟨operation,tracked⟩ := failed.tracked
    simp [Manager.axes,tracked]
  · rfl

/-- Calls about another plugin do not concern it. -/
theorem Failed.elsewhere {axes : Axes} {change : Row → Row}
    (failed : Failed s plugin) (differ : plugin ≠ other) :
    Failed ((s.setInMemory other axes).persist [other] change write).1 plugin := by
  refine failed.transfer ?_ ?_
  · rw [persist_states,get?_setInMemory,if_neg differ]
  · rw [persist_row]
    simp [differ]

/-- Both sources have the plugin disabled. -/
theorem Failed.answers {desired : DesiredState} (failed : Failed s plugin)
    (answered : s.getDesiredState plugin read = .ok desired) : desired = .disabled := by
  obtain ⟨operation,axes⟩ := failed.axes
  unfold Manager.getDesiredState at answered
  split at answered
  · split at answered
    · rw [axes] at answered
      exact (Except.ok.inj answered).symm
    · contradiction
  · rw [axes] at answered
    cases known : s.row plugin with
    | none => simpa [known] using answered.symm
    | some row => simpa [known,Row.desired,failed.disabled row known] using answered.symm

theorem failed_transition (upper repr : String → String) {desiredState : String}
    (write : Fault) (failed : Failed s plugin) (refused : ¬(other = plugin ∧ upper desiredState = "ENABLED")) :
    Failed (transition upper repr s other desiredState read write).1 plugin := by
  rcases transition_cases upper repr write s other desiredState read with same | accepted
  · rw [same]
    exact failed.ensure
  · obtain ⟨currDesired,newDesired,axes,change,answered,parsed,differ,target,same⟩ := accepted
    rw [same]
    by_cases own : plugin = other
    · subst own
      have disabled := failed.ensure.answers answered
      have enabled : newDesired = .enabled := by
        cases newDesired with
        | enabled => rfl
        | disabled => exact absurd disabled.symm differ
      subst enabled
      exact absurd ⟨rfl,parseDesired_enabled.mp parsed⟩ refused
    · exact failed.ensure.elsewhere own

theorem failed_updateRuntimeState
    (failed : Failed s plugin) : Failed (updateRuntimeState s other runtimeState write).1 plugin := by
  rcases updateRuntimeState_cases s other runtimeState write with same | ⟨next,valid,same⟩
  · rw [same]
    exact failed.ensure
  · rw [same]
    by_cases own : plugin = other
    · subst own
      obtain ⟨operation,axes⟩ := failed.axes
      simp [axes,validRuntimeTransitions] at valid
    · exact failed.ensure.elsewhere own

theorem failed_updateOperationState (failed : Failed s plugin) :
    Failed (updateOperationState s other operationState) plugin := by
  rcases updateOperationState_cases s other operationState with same | ⟨next,same⟩
  · rw [same]
    exact failed.ensure
  · rw [same]
    by_cases own : plugin = other
    · subst own
      obtain ⟨operation,axes⟩ := failed.axes
      refine ⟨⟨next,?_⟩,failed.disabled⟩
      rw [get?_setInMemory,if_pos rfl,axes]
    · have ensured : Failed (s.ensure other) plugin := failed.ensure
      refine ensured.transfer ?_ rfl
      rw [get?_setInMemory,if_neg own]

theorem failed_setError
    (persists : write.takesEffect = true ∨ ∀ row, s.row plugin = some row → row.enabled = false) :
    Failed (setError s plugin write).1 plugin := by
  unfold setError
  refine ⟨⟨.idle,?_⟩,fun row found => ?_⟩
  · rw [persist_states,get?_setInMemory,if_pos rfl]
  · rw [persist_row] at found
    obtain ⟨before,known,rfl⟩ := Option.map_eq_some_iff.mp found
    split
    · rfl
    · rename_i unwritten
      exact persists.resolve_left (fun effect => unwritten ⟨effect,by simp⟩) before known

theorem failed_reconcileAfterCrash (failed : Failed s plugin) :
    Failed (reconcileAfterCrash s read write).1 plugin := by
  obtain ⟨operation,tracked⟩ := failed.tracked
  have quiet : stuck s read plugin = false := by simp [stuck,tracked,RuntimeState.stuck]
  obtain ⟨states,rows⟩ := reconcileAfterCrash_spec s read write plugin
  refine failed.transfer ?_ ?_
  · rw [states,quiet]
    rfl
  · rw [rows,quiet]
    simp

section
variable (upper repr : String → String)

/-- Memory and table agree, and what failed is known on both sides. -/
def Sound (calls : List Call) (s : Manager) : Prop :=
  Agree s ∧ ∀ plugin, failed upper calls plugin = true → Failed s plugin

theorem failed_concat (calls : List Call) (call : Call) (plugin : String) : failed upper (calls ++ [call]) plugin =
    match call with
    | .setError other _ => failed upper calls plugin || decide (other = plugin)
    | .transition other desiredState _ _ =>
      failed upper calls plugin && !decide (other = plugin ∧ upper desiredState = "ENABLED")
    | _ => failed upper calls plugin := by
  unfold failed
  rw [List.foldl_append]
  cases call <;> rfl

variable {s : Manager}

theorem sound_step {calls : List Call} {call : Call} (sound : Sound upper calls s)
    (lawful : Lawful upper calls s call) : Sound upper (calls ++ [call]) (step upper repr s call) := by
  obtain ⟨agree,known⟩ := sound
  cases call with
  | transition plugin desiredState read write =>
    refine ⟨agree_transition upper repr write agree calls lawful,fun other now => ?_⟩
    rw [failed_concat] at now
    simp only [Bool.and_eq_true,Bool.not_eq_true',decide_eq_false_iff_not] at now
    exact failed_transition upper repr write (known other now.1) now.2
  | updateRuntimeState plugin runtimeState write =>
    refine ⟨agree_updateRuntimeState agree lawful,fun other now => ?_⟩
    rw [failed_concat] at now
    exact failed_updateRuntimeState (known other now)
  | updateOperationState plugin operationState =>
    refine ⟨agree_updateOperationState agree lawful,fun other now => ?_⟩
    rw [failed_concat] at now
    exact failed_updateOperationState (known other now)
  | setError plugin write =>
    refine ⟨agree_setError agree lawful,fun other now => ?_⟩
    rw [failed_concat] at now
    simp only [Bool.or_eq_true,decide_eq_true_eq] at now
    by_cases own : plugin = other
    · subst own
      exact failed_setError lawful
    · exact (known other (now.resolve_right own)).elsewhere (Ne.symm own)
  | reconcileAfterCrash read write =>
    refine ⟨agree_reconcileAfterCrash agree lawful,fun other now => ?_⟩
    rw [failed_concat] at now
    exact failed_reconcileAfterCrash (known other now)
  | restart =>
    refine ⟨fun _ _ _ tracked => by simp [step] at tracked,fun other now => ?_⟩
    rw [failed_concat] at now
    simp [lawful other] at now

theorem sound_run {past : List Call} (calls : List Call) (sound : Sound upper past s)
    (lawful : LawfulRun upper repr past s calls) : Sound upper (past ++ calls) (run upper repr calls s) := by
  induction calls generalizing past s with
  | nil => simpa [run] using sound
  | cons call rest ih =>
    have next := ih (sound_step upper repr sound lawful.1) lawful.2
    simpa [run] using next

/-- In every lawful run an error stays, with the plugin desired DISABLED on both sides, until
an administrator re-activates it, and memory agrees with the table. -/
theorem error_is_sticky (table : Option (OrderedMap String Row)) (calls : List Call)
    (lawful : LawfulRun upper repr [] (start table) calls) :
    Sticky upper calls (run upper repr calls (start table)) ∧ Agree (run upper repr calls (start table)) := by
  have fresh : Sound upper [] (start table) := ⟨fun _ _ _ tracked => by simp [start] at tracked,by simp [failed]⟩
  obtain ⟨agree,known⟩ := sound_run upper repr calls fresh lawful
  refine ⟨fun plugin now => ?_,agree⟩
  obtain ⟨operation,axes⟩ := (known plugin now).axes
  rw [axes]
  exact ⟨rfl,rfl,fun row found => by simp [Row.desired,(known plugin now).disabled row found]⟩

end

def quoted (text : String) : String := "'" ++ text ++ "'"

def dockerTable : OrderedMap String Row := ⟨[("docker",⟨true,"ACTIVE"⟩)],by decide⟩

def reactivation : List Call :=
  [.setError "docker" .none,.updateRuntimeState "docker" "ACTIVE" .none,.transition "docker" "disabled" .none .none]

theorem reactivation_lawful : LawfulRun String.toUpper quoted [] (start (some dockerTable)) reactivation := by
  refine ⟨.inl rfl,?_,⟨?_,.inl (.inl rfl)⟩,trivial⟩
  all_goals
    rintro ⟨unknown,_⟩
    contradiction

theorem docker_error_is_sticky :
    Sticky String.toUpper reactivation (run String.toUpper quoted reactivation (start (some dockerTable))) ∧
      Agree (run String.toUpper quoted reactivation (start (some dockerTable))) :=
  error_is_sticky String.toUpper quoted (some dockerTable) reactivation reactivation_lawful

/-- A restart forgets the error. -/
theorem error_forgotten : ¬∀ (upper repr : String → String) (table : Option (OrderedMap String Row)) (calls : List Call),
    Sticky upper calls (run upper repr calls (start table)) ∧ Agree (run upper repr calls (start table)) := by
  intro claim
  obtain ⟨sticky,_⟩ := claim String.toUpper quoted (some dockerTable) [.setError "docker" .none,.restart]
  exact absurd (sticky "docker" rfl).1 (by decide)

end Vigile.PluginLifecycle
