import Vigile.Interleaving
import Vigile.OrderedMap
import Vigile.Python

/-! The plugin engine: loading, unloading and the kill switch. What runs between two suspension
points is one action; the manifests are those of the last scan. -/
namespace Vigile.PluginEngine

open Interleaving Python

def builtinFileToId : List (String × String) :=
  [("metrics_plugin","metrics"),("systemd_plugin","systemd"),("docker_plugin","docker")]

def canonicalPluginId (name : String) : String :=
  match builtinFileToId.find? fun entry => entry.1 == name with
  | some entry => entry.2
  | none =>
    if "_plugin".toList.isSuffixOf name.toList then String.ofList (name.toList.take (name.toList.length - 7)) else name

def pluginFileStem (pluginId : String) : String :=
  match builtinFileToId.find? fun entry => entry.2 == pluginId with
  | some entry => entry.1
  | none => pluginId

/-- The names under which the engine is asked for a plugin. -/
def forms (pluginId : String) : List String := [pluginId,canonicalPluginId pluginId,pluginFileStem pluginId]

inductive Loader where
  | classBased
  | legacy
  | sandbox
  deriving DecidableEq

structure Plugin where
  id : String
  loader : Loader
  hooks : List String
  scheduled : Bool
  routes : List String
  /-- Functions of the module that declare a route. -/
  moduleRoutes : List String
  pages : Bool
  database : Bool

inductive Status where
  | active
  | error
  deriving DecidableEq

structure State where
  manifests : List Plugin
  instances : OrderedMap String (List String)
  wrappers : List String
  pluginModules : OrderedMap String (List String)
  hooks : List (String × String)
  mounted : List String
  scheduled : List String
  pages : List String
  states : OrderedMap String Status
  allowlist : List (String × String)
  killSwitch : OrderedMap String Bool
  locked : List String

/-- `load_plugin`'s search for the manifest. -/
def State.resolve (s : State) (pluginId : String) : Option Plugin :=
  let getManifest name := s.manifests.find? fun plugin => plugin.id == name
  getManifest pluginId <|> getManifest (canonicalPluginId pluginId) <|> getManifest (pluginFileStem pluginId) <|>
    s.manifests.find? fun plugin => canonicalPluginId plugin.id == canonicalPluginId pluginId

inductive Registration where
  | instantiate
  | wrapper
  | hook (name : String)
  | schedule
  | mount
  | keepModule

/-- What a load registers, in its order. -/
def Plugin.registrations (plugin : Plugin) : List Registration :=
  match plugin.loader with
  | .classBased => [.instantiate] ++ plugin.hooks.map .hook ++ (if plugin.scheduled then [.schedule] else []) ++
      (if plugin.routes.isEmpty then [] else [.mount]) ++ [.keepModule]
  | .legacy => plugin.hooks.map .hook ++ [.keepModule]
  | .sandbox => [.wrapper] ++ plugin.hooks.map .hook ++ (if plugin.routes.isEmpty then [] else [.mount])

def State.registered (s : State) (plugin : Plugin) : Registration → State
  | .instantiate => {s with instances := s.instances.set plugin.id plugin.routes}
  | .wrapper => {s with wrappers := plugin.id :: s.wrappers}
  | .hook name => {s with hooks := s.hooks ++ [(name,plugin.id)]}
  | .schedule => {s with scheduled := plugin.id :: s.scheduled}
  | .mount => {s with mounted := plugin.id :: s.mounted}
  | .keepModule => {s with pluginModules := s.pluginModules.set plugin.id plugin.moduleRoutes}

/-- `_swap_rebuild_allowlist` -/
def State.commands (s : State) : List (String × String) :=
  (s.instances.entries ++ s.pluginModules.entries).flatMap fun source => source.2.map fun route => (source.1,route)

inductive Action where
  | resolve (pluginId : String)
  | isActive (pluginId : String)
  | lock (pluginId : String)
  | unlock (pluginId : String)
  /-- A suspension that changes nothing of the engine: the database, the event bus, a drain. -/
  | suspend
  | register (plugin : Plugin)
  | rollback (plugin : Plugin)
  | registerPages (plugin : Plugin)
  | swap
  | setState (pluginId : String) (status : Status)
  | wasServed (pluginId : String)
  | unregister (pluginId : String)
  | unmount (pluginId : String)
  | drop (pluginId : String)
  | kill (pluginId : String) (hard : Bool)
  | revive (pluginId : String)
  | disabled (pluginId : String)

abbrev Reply : Action → Type
  | .resolve _ => Option Plugin
  | .isActive _ | .register _ | .wasServed _ | .revive _ => Bool
  | _ => Unit

abbrev Task (α : Type) := Prog Action Reply PyError α

structure Choice where
  fault : Fault
  /-- The registration at which the code of the plugin fails, and whether the sweep rejects it. -/
  failsAt : Option Nat
  rejected : Bool

def answer (choice : Choice) (s : State) : (action : Action) → State × Except PyError (Reply action)
  | .resolve pluginId => (s,.ok (s.resolve pluginId))
  | .isActive pluginId => (s,.ok (s.states.get? pluginId = some .active))
  | .lock pluginId => ({s with locked := pluginId :: s.locked},.ok ())
  | .unlock pluginId => ({s with locked := s.locked.erase pluginId},.ok ())
  | .suspend => (s,.ok ())
  | .register plugin =>
    match choice.failsAt with
    | some done =>
      ((plugin.registrations.take done).foldl (fun s registration => s.registered plugin registration) s,
        .error (.otherException "plugin"))
    | none =>
      if choice.rejected = true ∧ plugin.loader ≠ .sandbox then
        -- the sweep comes before the module is kept, and the rollback begins at once
        let after := plugin.registrations.dropLast.foldl (fun s registration => s.registered plugin registration) s
        ({after with hooks := s.hooks,mounted := after.mounted.filter (· ≠ plugin.id)},.ok false)
      else (plugin.registrations.foldl (fun s registration => s.registered plugin registration) s,.ok true)
  | .rollback plugin =>
    ({s with
      scheduled := s.scheduled.filter (· ≠ plugin.id)
      instances := s.instances.erase plugin.id
      pluginModules := s.pluginModules.erase plugin.id},.ok ())
  | .registerPages plugin => ({s with pages := plugin.id :: s.pages},.ok ())
  | .swap => ({s with allowlist := s.commands},.ok ())
  | .setState pluginId status => ({s with states := s.states.set pluginId status},.ok ())
  | .wasServed pluginId =>
    (s,.ok ((s.instances.get? pluginId).isSome || pluginId ∈ s.wrappers || (s.pluginModules.get? pluginId).isSome))
  | .unregister pluginId => ({s with hooks := s.hooks.filter fun entry => entry.2 ≠ pluginId},.ok ())
  | .unmount pluginId =>
    ({s with
      scheduled := s.scheduled.filter (· ≠ pluginId)
      mounted := s.mounted.filter (· ≠ pluginId)
      pages := s.pages.filter (· ≠ pluginId)
      wrappers := s.wrappers.filter (· ≠ pluginId)},.ok ())
  | .drop pluginId =>
    ({s with
      instances := s.instances.erase pluginId
      states := s.states.filter fun key _ => key ∉ forms pluginId},.ok ())
  | .kill pluginId hard => ({s with killSwitch := s.killSwitch.set pluginId hard},.ok ())
  | .revive pluginId => ({s with killSwitch := s.killSwitch.erase pluginId},.ok (s.killSwitch.get? pluginId).isSome)
  | .disabled _ => (s,.ok ())

/-- A lock is waited for; the kill switch itself cannot fail. -/
def exec (action : Action) (choice : Choice) (s : State) : Option (State × Except PyError (Reply action)) :=
  match action with
  | .lock pluginId => if pluginId ∈ s.locked then none else some (choice.fault.strike s (answer choice s (.lock pluginId)))
  | .kill pluginId hard => some (answer choice s (.kill pluginId hard))
  | .revive pluginId => some (answer choice s (.revive pluginId))
  | .disabled pluginId => some (answer choice s (.disabled pluginId))
  | action => some (choice.fault.strike s (answer choice s action))

abbrev perform (action : Action) : Task (Reply action) := Prog.perform action

def swallow (program : Task Unit) : Task Unit :=
  tryCatch program fun error => if error.isException then pure () else throw error

def unloadPlugin (pluginId : String) (persist : Bool) : Task Unit := do
  let wasServed ← perform (.wasServed pluginId)
  perform .suspend
  perform (.unregister pluginId)
  -- the scheduler
  perform .suspend
  perform (.unmount pluginId)
  -- the wrapper's process
  perform .suspend
  perform (.drop pluginId)
  if wasServed then perform .swap
  if persist then perform .suspend

def load (plugin : Plugin) : Task Unit := do
  -- the configuration
  swallow (perform .suspend)
  if plugin.database then perform .suspend
  if plugin.loader = .sandbox then perform .suspend
  let accepted ← perform (.register plugin)
  if accepted then
    if plugin.pages then perform (.registerPages plugin)
    perform .swap
    perform (.setState plugin.id .active)
    perform .suspend
  else do
    perform (.rollback plugin)
    throw (.otherException "PluginNamespaceError")

def loadLocked (plugin : Plugin) : Task Bool := do
  if ← perform (.isActive plugin.id) then pure false
  else
    tryCatch (do
        load plugin
        perform .suspend
        pure true)
      fun error =>
        if error.isException then do
          perform (.setState plugin.id .error)
          swallow (unloadPlugin plugin.id true)
          swallow (perform .suspend)
          pure false
        else throw error

def loadPlugin (pluginId : String) : Task Bool := do
  match ← perform (.resolve pluginId) with
  | none => pure false
  | some plugin =>
    if ← perform (.isActive plugin.id) then pure false
    else do
      perform (.lock plugin.id)
      Prog.ensure (loadLocked plugin) (perform (.unlock plugin.id))

def disablePlugin (pluginId : String) (hard : Bool) : Task Unit := do
  perform (.kill pluginId hard)
  unloadPlugin pluginId true
  -- the row of the plugin, then the audit log
  perform .suspend
  perform .suspend
  perform .swap
  perform .suspend
  perform (.disabled pluginId)

def enablePlugin (pluginId : String) : Task Unit := do
  if ← perform (.revive pluginId) then do
    let _ ← loadPlugin (canonicalPluginId pluginId)
    perform .suspend

inductive Client where
  | load (pluginId : String)
  | unload (pluginId : String) (persist : Bool)
  | disable (pluginId : String) (hard : Bool)
  | enable (pluginId : String)

def Client.program : Client → Task Unit
  | .load pluginId => do
    let _ ← loadPlugin pluginId
    pure ()
  | .unload pluginId persist => unloadPlugin pluginId persist
  | .disable pluginId hard => disablePlugin pluginId hard
  | .enable pluginId => enablePlugin pluginId

def start {τ : Type} (manifests : List Plugin) (clients : τ → Client) : Config τ State Action Reply PyError Unit :=
  ⟨⟨manifests,.empty,[],.empty,[],[],[],[],.empty,[],.empty,[]⟩,fun task => (clients task).program⟩

abbrev Step (τ : Type) := Transition τ Choice State Action Reply PyError

end Vigile.PluginEngine
