import Mathlib.Data.List.Basic
import Vigile.PluginEngine

/-! A load that fails: what it has registered by then, what the sweep's rollback and the two
callers of `_load` take back, and which state they record. -/
namespace Vigile.PluginLoad

open PluginEngine (Status Loader forms)
open Function (update)

structure Subscription where
  hook : String
  pluginName : String
  fn : Nat
  deriving DecidableEq

structure Instance where
  run : Nat
  pluginId : String
  moduleName : String
  deriving DecidableEq

/-- The registries of an engine that has all its parts; a task is told from its predecessor by its
number. -/
structure Engine where
  hooks : List Subscription
  mounted : String → Option (List String)
  tasks : String → Option Nat
  pages : String → Option (List String)
  instances : String → Option Instance
  pluginModules : String → Bool
  wrappers : String → Bool
  states : String → Option Status

/-! The code of a plugin: what it declares, or the error that getting there raises -/

/-- An instance of the plugin class: the hooks with the method that is found for each, the names
of the scheduled tasks, and what mounting its routes gives. -/
structure Declared where
  hooks : List (Except String (String × Option Nat))
  scheduled : List (Except String String)
  routes : Option (Except String (List String))

structure PluginClass where
  pluginId : String
  moduleName : String
  instance_ : Except String Declared

/-- A module that was executed: the ids that its plugin classes claim, the class registered under
the plugin's id, and what `register(pm)` subscribes one after the other. -/
structure Module where
  claims : List String
  pluginClass : Option PluginClass
  register : Option (List (Except String Subscription))

structure Wrapper where
  hooks : List (String × Nat)
  routes : Option (Except String (List String))

/-- A manifest with the code behind it, and what the database makes of the load. -/
structure Plugin where
  id : String
  loader : Loader
  createTables : Except String Unit
  module : Except String Module
  wrapper : Except String Wrapper
  pages : Option (Except String (List String))
  swapRegistry : Except String Unit
  update_ : Except String Unit
  commit : Except String Unit

def taskKey (pluginId name : String) : String := pluginId ++ ":" ++ name

/-- The keys that `stop` selects. -/
def ofPlugin (pluginId key : String) : Bool := (pluginId ++ ":").toList.isPrefixOf key.toList

def Plugin.moduleName (p : Plugin) : String := "master.plugins." ++ p.id

/-! What a load registers -/

inductive Registration where
  | subscribe (subscription : Subscription)
  | construct (pluginId : String) (ofClass : PluginClass)
  | start (pluginId name : String)
  | mount (pluginId : String) (routes : List String)

def Engine.registered (e : Engine) : Registration → Engine
  | .subscribe subscription => {e with hooks := e.hooks ++ [subscription]}
  | .construct pluginId ofClass =>
    let run := (e.instances pluginId).elim 0 Instance.run + 1
    {e with instances := update e.instances pluginId (some ⟨run,ofClass.pluginId,ofClass.moduleName⟩)}
  | .start pluginId name =>
    let key := taskKey pluginId name
    {e with tasks := update e.tasks key (some ((e.tasks key).getD 0 + 1))}
  | .mount pluginId routes => {e with mounted := update e.mounted pluginId (some routes)}

def Engine.registeredAll (e : Engine) (done : List Registration) : Engine := done.foldl Engine.registered e

structure Run where
  done : List Registration
  ended : Except String Unit

def Run.raises (error : String) : Run := ⟨[],.error error⟩

def Run.each : List (Except String Registration) → Run
  | [] => ⟨[],.ok ()⟩
  | .error error :: _ => .raises error
  | .ok registration :: rest => ⟨registration :: (Run.each rest).done,(Run.each rest).ended⟩

def Run.andThen (first next : Run) : Run :=
  match first.ended with
  | .error _ => first
  | .ok _ => ⟨first.done ++ next.done,next.ended⟩

def Engine.mounts (e : Engine) (pluginId : String) (routes : Option (Except String (List String))) : Run :=
  match routes with
  | none => ⟨[],.ok ()⟩
  | some routes =>
    if (e.mounted pluginId).isSome then ⟨[],.ok ()⟩
    else
      match routes with
      | .error error => .raises error
      | .ok routes => ⟨[.mount pluginId routes],.ok ()⟩

/-- A hook without its method is passed over. -/
def hookItem (pluginId : String) : Except String (String × Option Nat) → Option (Except String Registration)
  | .error error => some (.error error)
  | .ok (verb,some fn) => some (.ok (.subscribe ⟨verb,pluginId,fn⟩))
  | .ok (_,none) => none

def taskItem (pluginId : String) : Except String String → Except String Registration
  | .error error => .error error
  | .ok name => .ok (.start pluginId name)

def subscribeItem : Except String Subscription → Except String Registration
  | .error error => .error error
  | .ok subscription => .ok (.subscribe subscription)

def Declared.registers (instance_ : Declared) (pluginId : String) (e : Engine) : Run :=
  (Run.each (instance_.hooks.filterMap (hookItem pluginId))).andThen
    ((Run.each (instance_.scheduled.map (taskItem pluginId))).andThen (e.mounts pluginId instance_.routes))

/-- What `_load_inprocess` registers, up to the sweep. -/
def Plugin.registers (p : Plugin) (e : Engine) : Run :=
  match p.module with
  | .error error => .raises error
  | .ok module =>
    match module.claims.find? fun claimed => claimed ≠ p.id with
    | some claimed => .raises ("claiming plugin_id '" ++ claimed ++ "'")
    | none =>
      match module.pluginClass with
      | some pluginClass =>
        if pluginClass.moduleName ≠ p.moduleName then
          .raises ("module '" ++ pluginClass.moduleName ++ "' (expected '" ++ p.moduleName ++ "')")
        else
          match pluginClass.instance_ with
          | .error error => .raises error
          | .ok instance_ =>
            ⟨.construct p.id pluginClass :: (instance_.registers p.id e).done,(instance_.registers p.id e).ended⟩
      | none =>
        match module.register with
        | some register => .each (register.map subscribeItem)
        | none => ⟨[],.ok ()⟩

/-- What `_load_sandbox` registers, once the wrapper is kept. -/
def Wrapper.registers (wrapper : Wrapper) (pluginId : String) (e : Engine) : Run :=
  Run.andThen ⟨wrapper.hooks.map fun hook => .subscribe ⟨hook.1,pluginId,hook.2⟩,.ok ()⟩
    (e.mounts pluginId wrapper.routes)

/-- `sweep_namespace_violations` finds one. A command is named after the plugin that is loaded, so
that none is out of its namespace. -/
def Plugin.violates (p : Plugin) (before after : Engine) : Bool :=
  (match after.instances p.id with
    | some instance_ => decide (instance_.pluginId ≠ p.id) || decide (instance_.moduleName ≠ p.moduleName)
    | none => false) ||
  after.hooks.any fun subscription => decide (subscription ∉ before.hooks ∧ subscription.pluginName ∉ forms p.id)

/-- `_rollback_inprocess_load` -/
def Plugin.rollback (p : Plugin) (before after : Engine) : Engine :=
  {after with
    hooks := after.hooks.filter fun subscription => subscription ∈ before.hooks
    mounted := update after.mounted p.id none
    tasks := fun key => if (after.instances p.id).isSome ∧ ofPlugin p.id key then none else after.tasks key
    instances := update after.instances p.id none
    pluginModules := update after.pluginModules p.id false}

/-- The end of `_load`: pages, swap, state, row. -/
def Plugin.publish (p : Plugin) (e : Engine) : Engine × Except String Unit :=
  match p.pages with
  | some (.error error) => (e,.error error)
  | some (.ok pages) =>
    let shown := {e with pages := update e.pages p.id (some pages)}
    match p.swapRegistry with
    | .error error => (shown,.error error)
    | .ok _ => ({shown with states := update shown.states p.id (some .active)},p.update_)
  | none =>
    match p.swapRegistry with
    | .error error => (e,.error error)
    | .ok _ => ({e with states := update e.states p.id (some .active)},p.update_)

def Plugin.loadSandbox (p : Plugin) (e : Engine) : Engine × Except String Unit :=
  match p.wrapper with
  | .error error => (e,.error error)
  | .ok wrapper =>
    let kept := {e with wrappers := update e.wrappers p.id true}
    (kept.registeredAll (wrapper.registers p.id e).done,(wrapper.registers p.id e).ended)

def Plugin.loadInprocess (p : Plugin) (e : Engine) : Engine × Except String Unit :=
  let after := e.registeredAll (p.registers e).done
  match (p.registers e).ended with
  | .error error => (after,.error error)
  | .ok _ =>
    if p.violates e after then (p.rollback e after,.error "rejected by the S1 namespace sweep")
    else ({after with pluginModules := update after.pluginModules p.id true},.ok ())

def Plugin.load (p : Plugin) (e : Engine) : Engine × Except String Unit :=
  match p.createTables with
  | .error error => (e,.error error)
  | .ok _ =>
    let registered := match p.loader with
      | .sandbox => p.loadSandbox e
      | .classBased | .legacy => p.loadInprocess e
    match registered.2 with
    | .error error => (registered.1,.error error)
    | .ok _ => p.publish registered.1

/-- `unload_plugin`, up to the swap; nothing before that raises. -/
def Plugin.unload (p : Plugin) (e : Engine) : Engine :=
  {e with
    hooks := e.hooks.filter fun subscription => subscription.pluginName ≠ p.id
    tasks := fun key => if ofPlugin p.id key then none else e.tasks key
    mounted := update e.mounted p.id none
    pages := update e.pages p.id none
    wrappers := update e.wrappers p.id false
    instances := update e.instances p.id none
    states := fun key => if key ∈ forms p.id then none else e.states key}

inductive Caller where
  | initializes
  | loadPlugin
  deriving DecidableEq

inductive Outcome where
  | alreadyLoaded
  | loaded
  | failed
  deriving DecidableEq

def Engine.setState (e : Engine) (pluginId : String) (status : Status) : Engine :=
  {e with states := update e.states pluginId (some status)}

def Caller.attempt (p : Plugin) (e : Engine) : Caller → Engine × Outcome
  | .initializes =>
    match p.load e with
    | (after,.ok _) => (after,.loaded)
    | (after,.error _) => (after.setState p.id .error,.failed)
  | .loadPlugin =>
    if e.states p.id = some .active then (e,.alreadyLoaded)
    else
      match p.load e with
      | (after,.ok _) =>
        match p.commit with
        | .ok _ => (after,.loaded)
        | .error _ => (p.unload (after.setState p.id .error),.failed)
      | (after,.error _) => (p.unload (after.setState p.id .error),.failed)

structure SameRegistries (before after : Engine) : Prop where
  hooks : after.hooks = before.hooks
  mounted : after.mounted = before.mounted
  tasks : after.tasks = before.tasks
  pages : after.pages = before.pages
  instances : after.instances = before.instances

def Restored (p : Plugin) (before after : Engine) : Prop :=
  SameRegistries before after ∧ after.states p.id = some .error

/-- The pages of the manifest, where they are registered, are those that are there. -/
def Plugin.PagesStay (p : Plugin) (e : Engine) : Prop :=
  ∀ pages, p.pages = some (.ok pages) → e.pages p.id = some pages

/-- The load in the process of the engine registers nothing. -/
def Plugin.Idle (p : Plugin) : Prop :=
  ∀ module, p.module = .ok module → (∀ claimed ∈ module.claims, claimed = p.id) →
    match module.pluginClass with
    | some pluginClass => pluginClass.moduleName = p.moduleName → ∃ error, pluginClass.instance_ = .error error
    | none => ∀ subscription rest, module.register ≠ some (.ok subscription :: rest)

def Wrapper.Idle (wrapper : Wrapper) (pluginId : String) (e : Engine) : Prop :=
  wrapper.hooks = [] ∧ ∀ routes, wrapper.routes = some (.ok routes) → (e.mounted pluginId).isSome

/-- The plugin comes to the sweep and is rejected there. -/
def Plugin.Swept (p : Plugin) (e : Engine) : Prop :=
  (p.registers e).ended = .ok () ∧ p.violates e (e.registeredAll (p.registers e).done) = true

structure Plugin.Undone (p : Plugin) (e : Engine) : Prop where
  mounted : e.mounted p.id = none
  instances : e.instances p.id = none
  hooks : ∀ subscription, .subscribe subscription ∈ (p.registers e).done → subscription ∉ e.hooks
  tasks : ∀ module, p.module = .ok module → module.pluginClass.isSome → ∀ key, ofPlugin p.id key → e.tasks key = none

/-- Nothing is registered before the failure, or the rollback leaves nothing of it. -/
def Plugin.LeavesNothing (p : Plugin) (e : Engine) : Prop :=
  p.createTables = .ok () →
    match p.loader with
    | .sandbox => ∀ wrapper, p.wrapper = .ok wrapper → wrapper.Idle p.id e ∧
        ((wrapper.registers p.id e).ended = .ok () → p.PagesStay e)
    | .classBased | .legacy =>
      (p.Swept e → p.Undone e) ∧ (¬p.Swept e → p.Idle ∧ ((p.registers e).ended = .ok () → p.PagesStay e))

variable {p : Plugin} {e before after : Engine} {done : List Registration} {registration other : Registration}

theorem SameRegistries.refl (e : Engine) : SameRegistries e e := ⟨rfl,rfl,rfl,rfl,rfl⟩

theorem SameRegistries.trans {third : Engine} (first : SameRegistries before after) (next : SameRegistries after third) :
    SameRegistries before third :=
  ⟨next.hooks.trans first.hooks,next.mounted.trans first.mounted,next.tasks.trans first.tasks,
    next.pages.trans first.pages,next.instances.trans first.instances⟩

theorem SameRegistries.symm (same : SameRegistries before after) : SameRegistries after before :=
  ⟨same.hooks.symm,same.mounted.symm,same.tasks.symm,same.pages.symm,same.instances.symm⟩

/-- Two engines with the same registries are as far from a third. -/
theorem SameRegistries.right (same : SameRegistries before after) : SameRegistries e after ↔ SameRegistries e before :=
  ⟨fun there => there.trans same.symm,fun there => there.trans same⟩

/-- How often what a registration sets has been set. -/
def Engine.count (e : Engine) : Registration → Nat
  | .subscribe _ => e.hooks.length
  | .construct pluginId _ => (e.instances pluginId).elim 0 Instance.run
  | .start pluginId name => (e.tasks (taskKey pluginId name)).getD 0
  | .mount pluginId _ => if (e.mounted pluginId).isSome then 1 else 0

theorem SameRegistries.count (same : SameRegistries before after) (registration : Registration) :
    after.count registration = before.count registration := by
  obtain ⟨hooks,mounted,tasks,-,instances⟩ := same
  unfold Engine.count
  rw [hooks,mounted,tasks,instances]

theorem count_le : e.count registration ≤ (e.registered other).count registration := by
  cases other with
  | subscribe subscription =>
    cases registration with
    | subscribe => simp [Engine.count,Engine.registered]
    | construct | start | mount => exact Nat.le_refl _
  | construct pluginId ofClass =>
    cases registration with
    | construct named =>
      by_cases same : named = pluginId
      · subst same
        simp [Engine.count,Engine.registered]
      · simp [Engine.count,Engine.registered,same]
    | subscribe | start | mount => exact Nat.le_refl _
  | start pluginId name =>
    cases registration with
    | start named task =>
      by_cases same : taskKey named task = taskKey pluginId name
      · simp [Engine.count,Engine.registered,same]
      · simp [Engine.count,Engine.registered,Function.update_of_ne same]
    | subscribe | construct | mount => exact Nat.le_refl _
  | mount pluginId routes =>
    cases registration with
    | mount named =>
      by_cases same : named = pluginId
      · subst same
        simp only [Engine.count,Engine.registered,Function.update_self,Option.isSome_some,if_true]
        split <;> omega
      · simp [Engine.count,Engine.registered,Function.update_of_ne same]
    | subscribe | construct | start => exact Nat.le_refl _

theorem count_all_le : e.count registration ≤ (e.registeredAll done).count registration := by
  induction done generalizing e with
  | nil => exact Nat.le_refl _
  | cons first rest ih => exact Nat.le_trans count_le (ih (e := e.registered first))

/-- A registration is new, where routes are mounted only once. -/
theorem count_lt (fresh : ∀ pluginId routes, registration = .mount pluginId routes → e.mounted pluginId = none) :
    e.count registration < (e.registered registration).count registration := by
  cases registration with
  | subscribe | construct | start => simp [Engine.count,Engine.registered]
  | mount pluginId routes => simp [Engine.count,Engine.registered,fresh pluginId routes rfl]

/-- Whatever is registered shows. -/
theorem registeredAll_same (fresh : ∀ pluginId routes, .mount pluginId routes ∈ done → e.mounted pluginId = none) :
    SameRegistries e (e.registeredAll done) ↔ done = [] := by
  constructor
  · intro same
    cases done with
    | nil => rfl
    | cons first rest =>
      have more : e.count first < ((e.registered first).registeredAll rest).count first :=
        Nat.lt_of_lt_of_le (count_lt fun pluginId routes isMount =>
          fresh pluginId routes (isMount ▸ List.mem_cons_self)) count_all_le
      exact absurd (same.count first) (Nat.ne_of_gt more)
  · rintro rfl
    exact .refl e

@[simp] theorem registered_pages : (e.registered registration).pages = e.pages := by
  cases registration <;> rfl

@[simp] theorem registeredAll_pages : (e.registeredAll done).pages = e.pages := by
  induction done generalizing e with
  | nil => rfl
  | cons first rest ih => exact (ih (e := e.registered first)).trans registered_pages

def Registration.subscription : Registration → Option Subscription
  | .subscribe subscription => some subscription
  | _ => none

theorem registeredAll_hooks :
    (e.registeredAll done).hooks = e.hooks ++ done.filterMap Registration.subscription := by
  induction done generalizing e with
  | nil => exact (List.append_nil _).symm
  | cons first rest ih =>
    refine (ih (e := e.registered first)).trans ?_
    cases first with
    | subscribe => simp [Engine.registered,Registration.subscription]
    | construct | start | mount => rfl

/-- It is made under the plugin's own name; the names of subscriptions are free. -/
def Registration.Own (pluginId : String) : Registration → Prop
  | .subscribe _ => True
  | .construct named _ | .start named _ | .mount named _ => named = pluginId

theorem ofPlugin_taskKey (pluginId name : String) : ofPlugin pluginId (taskKey pluginId name) = true := by
  have whole : (taskKey pluginId name).toList = (pluginId ++ ":").toList ++ name.toList := String.toList_append
  unfold ofPlugin
  rw [List.isPrefixOf_iff_prefix,whole]
  exact List.prefix_append _ _

variable {pluginId : String} {wrapper : Wrapper}

variable {named key : String} {items : List (Except String Subscription)}

theorem registered_foreign (own : registration.Own pluginId) (foreign : named ≠ pluginId) :
    (e.registered registration).mounted named = e.mounted named ∧
    (e.registered registration).instances named = e.instances named := by
  cases registration with
  | subscribe | start => exact ⟨rfl,rfl⟩
  | construct => exact ⟨rfl,Function.update_of_ne (own ▸ foreign) _ _⟩
  | mount => exact ⟨Function.update_of_ne (own ▸ foreign) _ _,rfl⟩

theorem registeredAll_foreign (own : ∀ registration ∈ done, registration.Own pluginId)
    (foreign : named ≠ pluginId) :
    (e.registeredAll done).mounted named = e.mounted named ∧
    (e.registeredAll done).instances named = e.instances named := by
  induction done generalizing e with
  | nil => exact ⟨rfl,rfl⟩
  | cons first rest ih =>
    obtain ⟨mounted,instances⟩ := registered_foreign (e := e) (own first List.mem_cons_self) foreign
    obtain ⟨thenMounted,thenInstances⟩ :=
      ih (e := e.registered first) fun registration member => own registration (List.mem_cons_of_mem _ member)
    exact ⟨thenMounted.trans mounted,thenInstances.trans instances⟩

theorem registered_task (own : registration.Own pluginId) (foreign : ¬ofPlugin pluginId key) :
    (e.registered registration).tasks key = e.tasks key := by
  cases registration with
  | subscribe | construct | mount => rfl
  | start named name =>
    refine Function.update_of_ne (fun same => foreign ?_) _ _
    rw [same,← own]
    exact ofPlugin_taskKey named name

theorem registeredAll_task (own : ∀ registration ∈ done, registration.Own pluginId)
    (foreign : ¬ofPlugin pluginId key) : (e.registeredAll done).tasks key = e.tasks key := by
  induction done generalizing e with
  | nil => rfl
  | cons first rest ih =>
    exact (ih (e := e.registered first) fun registration member => own registration (List.mem_cons_of_mem _ member)).trans
      (registered_task (own first List.mem_cons_self) foreign)

/-- Subscriptions touch nothing but the hooks. -/
theorem registeredAll_subscribe (only : ∀ registration ∈ done, ∃ subscription, registration = .subscribe subscription) :
    (e.registeredAll done).instances = e.instances ∧ (e.registeredAll done).tasks = e.tasks := by
  induction done generalizing e with
  | nil => exact ⟨rfl,rfl⟩
  | cons first rest ih =>
    obtain ⟨subscription,rfl⟩ := only first List.mem_cons_self
    exact ih (e := e.registered _) fun registration member => only registration (List.mem_cons_of_mem _ member)

theorem instances_isSome (has : (e.instances pluginId).isSome) :
    ((e.registeredAll done).instances pluginId).isSome := by
  induction done generalizing e with
  | nil => exact has
  | cons first rest ih =>
    refine ih (e := e.registered first) ?_
    cases first with
    | subscribe | start | mount => exact has
    | construct named =>
      by_cases same : pluginId = named
      · subst same
        simp [Engine.registered]
      · simpa [Engine.registered,same] using has

theorem mem_each {items : List (Except String Registration)} (member : registration ∈ (Run.each items).done) :
    .ok registration ∈ items := by
  induction items with
  | nil => cases member
  | cons item rest ih =>
    cases item with
    | error => cases member
    | ok first =>
      rcases List.mem_cons.mp member with rfl | later
      · exact List.mem_cons_self
      · exact List.mem_cons_of_mem _ (ih later)

theorem mem_andThen {first next : Run} (member : registration ∈ (first.andThen next).done) :
    registration ∈ first.done ∨ registration ∈ next.done := by
  unfold Run.andThen at member
  cases ended : first.ended with
  | error => exact .inl (by simpa [ended] using member)
  | ok => exact List.mem_append.mp (by simpa [ended] using member)

theorem mem_mounts {routes : Option (Except String (List String))}
    (member : registration ∈ (e.mounts pluginId routes).done) :
    ∃ paths, registration = .mount pluginId paths ∧ e.mounted pluginId = none := by
  unfold Engine.mounts at member
  cases routes with
  | none => cases member
  | some routes =>
    cases here : e.mounted pluginId with
    | some => simp [here] at member
    | none =>
      cases routes with
      | error => simp [here,Run.raises] at member
      | ok paths => exact ⟨paths,by simpa [here] using member,rfl⟩

theorem hookItem_own {item : Except String (String × Option Nat)}
    (made : hookItem pluginId item = some (.ok registration)) : ∃ subscription, registration = .subscribe subscription := by
  cases item with
  | error => cases made
  | ok hook =>
    obtain ⟨verb,fn⟩ := hook
    cases fn with
    | none => cases made
    | some fn =>
      cases made
      exact ⟨_,rfl⟩

theorem subscribeItem_ok {item : Except String Subscription} (made : subscribeItem item = .ok registration) :
    ∃ subscription, registration = .subscribe subscription := by
  cases item with
  | error => cases made
  | ok subscription =>
    cases made
    exact ⟨subscription,rfl⟩

theorem taskItem_ok {item : Except String String} (made : taskItem pluginId item = .ok registration) :
    ∃ name, registration = .start pluginId name := by
  cases item with
  | error => cases made
  | ok name =>
    cases made
    exact ⟨name,rfl⟩

/-- An instance registers under its plugin's name, and routes only where there are none. -/
theorem declared_registers {instance_ : Declared}
    (member : registration ∈ (instance_.registers pluginId e).done) :
    registration.Own pluginId ∧ ∀ named routes, registration = .mount named routes → e.mounted named = none := by
  rcases mem_andThen member with isHook | later
  · obtain ⟨item,-,made⟩ := List.mem_filterMap.mp (mem_each isHook)
    obtain ⟨subscription,rfl⟩ := hookItem_own made
    exact ⟨trivial,fun named routes isMount => by cases isMount⟩
  · rcases mem_andThen later with isTask | isMount
    · obtain ⟨item,-,made⟩ := List.mem_map.mp (mem_each isTask)
      obtain ⟨name,rfl⟩ := taskItem_ok made
      exact ⟨rfl,fun named routes isMount => by cases isMount⟩
    · obtain ⟨paths,rfl,unmounted⟩ := mem_mounts isMount
      exact ⟨rfl,fun named routes same => by cases same; exact unmounted⟩

theorem legacy_registers
    (member : registration ∈ (Run.each (items.map subscribeItem)).done) :
    ∃ subscription, registration = .subscribe subscription := by
  obtain ⟨item,-,made⟩ := List.mem_map.mp (mem_each member)
  exact subscribeItem_ok made

theorem legacy_idle :
    (Run.each (items.map subscribeItem)).done = [] ↔ ∀ subscription rest, items ≠ .ok subscription :: rest := by
  cases items with
  | nil => simp [Run.each]
  | cons item rest =>
    cases item with
    | error => simp [Run.each,subscribeItem,Run.raises]
    | ok subscription => simp [Run.each,subscribeItem]

/-- A load in the engine's process registers nothing, or starts with the instance of the plugin
class, or subscribes what `register(pm)` does. -/
theorem registers_cases (p : Plugin) (e : Engine) :
    (p.Idle ∧ ∃ error, p.registers e = .raises error) ∨
    (¬p.Idle ∧ ∃ module pluginClass, ∃ instance_ : Declared, p.module = .ok module ∧ module.pluginClass = some pluginClass ∧
      p.registers e = ⟨.construct p.id pluginClass :: (instance_.registers p.id e).done,
        (instance_.registers p.id e).ended⟩) ∨
    ∃ module, ∃ items : List (Except String Subscription), p.module = .ok module ∧ module.pluginClass = none ∧
      p.registers e = Run.each (items.map subscribeItem) ∧ (p.Idle ↔ (p.registers e).done = []) := by
  cases executed : p.module with
  | error error =>
    refine .inl ⟨fun module isOk => ?_,error,by unfold Plugin.registers; rw [executed]⟩
    rw [executed] at isOk
    cases isOk
  | ok module =>
    have only {other : Module} (isOk : p.module = .ok other) : other = module := by
      rw [executed] at isOk
      exact (Except.ok.inj isOk).symm
    cases foreign : module.claims.find? fun claimed => claimed ≠ p.id with
    | some claimed =>
      refine .inl ⟨fun module' isOk own => ?_,_,by unfold Plugin.registers; simp only [executed,foreign]; rfl⟩
      obtain rfl := only isOk
      have differs : claimed ≠ p.id := by simpa using List.find?_some foreign
      exact absurd (own claimed (List.mem_of_find?_eq_some foreign)) differs
    | none =>
      have own : ∀ claimed ∈ module.claims, claimed = p.id := by simpa using foreign
      cases has : module.pluginClass with
      | some pluginClass =>
        by_cases here : pluginClass.moduleName = p.moduleName
        · cases made : pluginClass.instance_ with
          | error error =>
            refine .inl ⟨fun module' isOk _ => ?_,error,?_⟩
            · obtain rfl := only isOk
              rw [has]
              exact fun _ => ⟨error,made⟩
            · unfold Plugin.registers
              simp only [executed,foreign,has,made,here,ne_eq,not_true_eq_false,if_false]
          | ok instance_ =>
            refine .inr (.inl ⟨fun idle => ?_,module,pluginClass,instance_,rfl,has,?_⟩)
            · have raised := idle module executed own
              rw [has] at raised
              obtain ⟨error,isError⟩ := raised here
              rw [made] at isError
              cases isError
            · unfold Plugin.registers
              simp only [executed,foreign,has,made,here,ne_eq,not_true_eq_false,if_false]
        · refine .inl ⟨fun module' isOk _ => ?_,_,by
            unfold Plugin.registers
            simp only [executed,foreign,has,ne_eq,here,not_false_eq_true,if_true]
            rfl⟩
          obtain rfl := only isOk
          rw [has]
          exact fun same => absurd same here
      | none =>
        have run : p.registers e = Run.each ((module.register.getD []).map subscribeItem) := by
          unfold Plugin.registers
          simp only [executed,foreign,has]
          cases module.register <;> rfl
        refine .inr (.inr ⟨module,_,rfl,has,run,?_⟩)
        rw [run,legacy_idle]
        constructor
        · intro idle subscription rest same
          have never := idle module executed own
          rw [has] at never
          refine never subscription rest ?_
          cases register : module.register with
          | none => simp [register] at same
          | some items => simpa [register] using same
        · intro never module' isOk _
          obtain rfl := only isOk
          rw [has]
          intro subscription rest same
          exact never subscription rest (by rw [same]; rfl)

theorem registers_idle : (p.registers e).done = [] ↔ p.Idle := by
  rcases registers_cases p e with ⟨idle,error,run⟩ | ⟨busy,module,pluginClass,instance_,-,-,run⟩ | ⟨module,items,-,-,-,idle⟩
  · simp [run,Run.raises,idle]
  · simp [run,busy]
  · exact idle.symm

theorem registers_own (p : Plugin) (e : Engine) : ∀ registration ∈ (p.registers e).done,
    registration.Own p.id ∧ ∀ named routes, registration = .mount named routes → e.mounted named = none := by
  intro registration member
  rcases registers_cases p e with ⟨-,error,run⟩ | ⟨-,module,pluginClass,instance_,-,-,run⟩ | ⟨module,items,-,-,run,-⟩
  · rw [run] at member
    cases member
  · rw [run] at member
    rcases List.mem_cons.mp member with rfl | later
    · exact ⟨rfl,fun named routes isMount => by cases isMount⟩
    · exact declared_registers later
  · rw [run] at member
    obtain ⟨subscription,rfl⟩ := legacy_registers member
    exact ⟨trivial,fun named routes isMount => by cases isMount⟩

theorem registers_same : SameRegistries e (e.registeredAll (p.registers e).done) ↔ p.Idle :=
  (registeredAll_same fun pluginId routes member => (registers_own p e _ member).2 pluginId routes rfl).trans registers_idle

theorem mem_subscriptions {subscription : Subscription} :
    subscription ∈ done.filterMap Registration.subscription ↔ .subscribe subscription ∈ done := by
  rw [List.mem_filterMap]
  constructor
  · rintro ⟨registration,member,isSubscription⟩
    cases registration with
    | subscribe =>
      cases isSubscription
      exact member
    | construct | start | mount => cases isSubscription
  · exact fun member => ⟨_,member,rfl⟩

/-- The rollback keeps the subscriptions from before, and those that equal one of them. -/
theorem rollback_hooks : (p.rollback e (e.registeredAll done)).hooks = e.hooks ↔
    ∀ subscription, .subscribe subscription ∈ done → subscription ∉ e.hooks := by
  have old : e.hooks.filter (fun subscription => decide (subscription ∈ e.hooks)) = e.hooks :=
    List.filter_eq_self.mpr fun subscription member => decide_eq_true member
  show (e.registeredAll done).hooks.filter (fun subscription => decide (subscription ∈ e.hooks)) = e.hooks ↔ _
  rw [registeredAll_hooks,List.filter_append,old,List.append_right_eq_self,List.filter_eq_nil_iff]
  constructor
  · intro none subscription member here
    exact none subscription (mem_subscriptions.mpr member) (decide_eq_true here)
  · intro none subscription member here
    exact none subscription (mem_subscriptions.mp member) (of_decide_eq_true here)

/-- After an instance was made, or with subscriptions alone, the tasks are those from before if
the plugin had none. -/
theorem rollback_tasks (swept : (p.registers e).ended = .ok ()) (noInstance : e.instances p.id = none) :
    (p.rollback e (e.registeredAll (p.registers e).done)).tasks = e.tasks ↔
      ∀ module, p.module = .ok module → module.pluginClass.isSome → ∀ key, ofPlugin p.id key → e.tasks key = none := by
  have own := fun registration member => (registers_own p e registration member).1
  rcases registers_cases p e with ⟨-,error,run⟩ | ⟨-,module,pluginClass,instance_,executed,has,run⟩ | ⟨module,items,executed,has,run,-⟩
  · rw [run] at swept
    cases swept
  · have made : ((e.registeredAll (p.registers e).done).instances p.id).isSome := by
      rw [run]
      exact instances_isSome (e := e.registered (.construct p.id pluginClass)) (by simp [Engine.registered])
    constructor
    · intro same module' isOk _ key mine
      rw [← congrFun same key]
      exact if_pos ⟨made,mine⟩
    · intro none
      funext key
      by_cases mine : ofPlugin p.id key
      · rw [none module executed (by rw [has]; rfl) key mine]
        exact if_pos ⟨made,mine⟩
      · exact (if_neg fun both => mine both.2).trans (registeredAll_task own mine)
  · have only : ∀ registration ∈ (p.registers e).done, ∃ subscription, registration = .subscribe subscription := by
      rw [run]
      exact fun registration member => legacy_registers member
    obtain ⟨instances,tasks⟩ := registeredAll_subscribe (e := e) only
    refine ⟨fun _ module' isOk isClass => ?_,fun _ => funext fun key => ?_⟩
    · rw [executed] at isOk
      cases isOk
      rw [has] at isClass
      cases isClass
    · refine (if_neg fun both => ?_).trans (congrFun tasks key)
      rw [instances,noInstance] at both
      cases both.1

theorem rollback_same (swept : (p.registers e).ended = .ok ()) :
    SameRegistries e (p.rollback e (e.registeredAll (p.registers e).done)) ↔ p.Undone e := by
  have own := fun registration member => (registers_own p e registration member).1
  constructor
  · intro same
    have noInstance : e.instances p.id = none := by
      rw [← same.instances]
      exact Function.update_self ..
    refine ⟨?_,noInstance,rollback_hooks.mp same.hooks,(rollback_tasks swept noInstance).mp same.tasks⟩
    rw [← same.mounted]
    exact Function.update_self ..
  · intro undone
    refine ⟨rollback_hooks.mpr undone.hooks,?_,(rollback_tasks swept undone.instances).mpr undone.tasks,
      registeredAll_pages,?_⟩
    · funext named
      by_cases mine : named = p.id
      · subst mine
        exact (Function.update_self ..).trans undone.mounted.symm
      · exact (Function.update_of_ne mine _ _).trans (registeredAll_foreign own mine).1
    · funext named
      by_cases mine : named = p.id
      · subst mine
        exact (Function.update_self ..).trans undone.instances.symm
      · exact (Function.update_of_ne mine _ _).trans (registeredAll_foreign own mine).2

theorem publish_same (after : Engine) (pages : after.pages = e.pages) :
    SameRegistries e (p.publish after).1 ↔ SameRegistries e after ∧ p.PagesStay e := by
  have shown (published : List String) :
      SameRegistries e {after with pages := update after.pages p.id (some published)} ↔
        SameRegistries e after ∧ e.pages p.id = some published := by
    constructor
    · rintro ⟨hooks,mounted,tasks,same,instances⟩
      exact ⟨⟨hooks,mounted,tasks,pages,instances⟩,by rw [← same]; exact Function.update_self ..⟩
    · rintro ⟨⟨hooks,mounted,tasks,-,instances⟩,stays⟩
      refine ⟨hooks,mounted,tasks,?_,instances⟩
      show update after.pages p.id (some published) = e.pages
      rw [pages,← stays]
      exact Function.update_eq_self ..
  have stated {engine : Engine} {states : String → Option Status} :
      SameRegistries e {engine with states := states} ↔ SameRegistries e engine :=
    SameRegistries.right ⟨rfl,rfl,rfl,rfl,rfl⟩
  unfold Plugin.publish Plugin.PagesStay
  cases manifest : p.pages with
  | none =>
    cases p.swapRegistry with
    | error => simp
    | ok => simpa using stated
  | some projected =>
    cases projected with
    | error => simp
    | ok published =>
      cases p.swapRegistry with
      | error => simpa using shown published
      | ok => simpa using stated.trans (shown published)

theorem wrapper_idle :
    (wrapper.registers pluginId e).done = [] ↔ wrapper.Idle pluginId e := by
  unfold Wrapper.registers Wrapper.Idle Run.andThen
  dsimp only
  rw [List.append_eq_nil_iff,List.map_eq_nil_iff]
  refine and_congr_right fun _ => ?_
  unfold Engine.mounts
  cases wrapper.routes with
  | none => simp
  | some routes =>
    cases e.mounted pluginId with
    | some => simp
    | none => cases routes <;> simp [Run.raises]

theorem wrapper_same : SameRegistries e
    ({e with wrappers := update e.wrappers p.id true}.registeredAll (wrapper.registers p.id e).done) ↔
      wrapper.Idle p.id e := by
  have fresh : ∀ pluginId routes, .mount pluginId routes ∈ (wrapper.registers p.id e).done →
      e.mounted pluginId = none := by
    intro pluginId routes member
    rcases mem_andThen member with isHook | isMount
    · obtain ⟨hook,-,made⟩ := List.mem_map.mp isHook
      cases made
    · obtain ⟨paths,isMount,unmounted⟩ := mem_mounts isMount
      cases isMount
      exact unmounted
  rw [← wrapper_idle,← registeredAll_same (e := {e with wrappers := update e.wrappers p.id true}) fresh]
  have kept : SameRegistries e {e with wrappers := update e.wrappers p.id true} := ⟨rfl,rfl,rfl,rfl,rfl⟩
  exact ⟨fun same => kept.symm.trans same,fun same => kept.trans same⟩

theorem loadSandbox_cases (started : p.wrapper = .ok wrapper) :
    p.loadSandbox e = ({e with wrappers := update e.wrappers p.id true}.registeredAll (wrapper.registers p.id e).done,
      (wrapper.registers p.id e).ended) := by
  unfold Plugin.loadSandbox
  rw [started]

/-- It fails before the sweep, or there, or goes on. -/
theorem loadInprocess_cases (p : Plugin) (e : Engine) :
    (∃ error, (p.registers e).ended = .error error ∧
      p.loadInprocess e = (e.registeredAll (p.registers e).done,.error error)) ∨
    (p.Swept e ∧ ∃ error, p.loadInprocess e = (p.rollback e (e.registeredAll (p.registers e).done),.error error)) ∨
    ¬p.Swept e ∧ (p.registers e).ended = .ok () ∧ ∃ pluginModules,
      p.loadInprocess e = ({e.registeredAll (p.registers e).done with pluginModules := pluginModules},.ok ()) := by
  unfold Plugin.loadInprocess
  cases ended : (p.registers e).ended with
  | error error => exact .inl ⟨error,rfl,rfl⟩
  | ok =>
    by_cases violates : p.violates e (e.registeredAll (p.registers e).done) = true
    · exact .inr (.inl ⟨⟨ended,violates⟩,_,if_pos violates⟩)
    · exact .inr (.inr ⟨fun swept => violates swept.2,rfl,_,if_neg violates⟩)

/-- The registries are the same after a load if and only if it leaves nothing. -/
theorem load_same : SameRegistries e (p.load e).1 ↔ p.LeavesNothing e := by
  unfold Plugin.load Plugin.LeavesNothing
  cases p.createTables with
  | error => simp [SameRegistries.refl]
  | ok =>
    simp only [forall_true_left]
    cases p.loader with
    | classBased | legacy =>
      rcases loadInprocess_cases p e with ⟨error,ended,loaded⟩ | ⟨swept,error,loaded⟩ | ⟨notSwept,ended,pluginModules,loaded⟩
      · have notSwept : ¬p.Swept e := fun swept => by cases ended.symm.trans swept.1
        simp only [loaded,ended,notSwept,registers_same]
        simp
      · simp only [loaded,swept,rollback_same swept.1]
        simp
      · have kept : SameRegistries (e.registeredAll (p.registers e).done)
            {e.registeredAll (p.registers e).done with pluginModules := pluginModules} := ⟨rfl,rfl,rfl,rfl,rfl⟩
        have same := (kept.right (e := e)).trans registers_same
        simp only [loaded,ended,notSwept,publish_same {e.registeredAll (p.registers e).done with
          pluginModules := pluginModules} registeredAll_pages,same]
        simp
    | sandbox =>
      cases started : p.wrapper with
      | error => simp [Plugin.loadSandbox,started,SameRegistries.refl]
      | ok wrapper =>
        simp only [loadSandbox_cases started]
        cases ended : (wrapper.registers p.id e).ended with
        | error => simp [wrapper_same,ended]
        | ok =>
          have published := publish_same (p := p) (e := e)
            ({e with wrappers := update e.wrappers p.id true}.registeredAll (wrapper.registers p.id e).done)
            registeredAll_pages
          simp [published,wrapper_same,ended]

theorem id_mem_forms (pluginId : String) : pluginId ∈ forms pluginId := List.mem_cons_self

/-- `unload_plugin` deletes the state that `load_plugin` has recorded. -/
theorem unload_states (p : Plugin) (e : Engine) : (p.unload e).states p.id = none := if_pos (id_mem_forms p.id)

/-- `load_plugin` answers every failure alike. -/
theorem loadPlugin_unloads (failed : (Caller.loadPlugin.attempt p e).2 = .failed) :
    (Caller.loadPlugin.attempt p e).1 = p.unload ((p.load e).1.setState p.id .error) := by
  cases result : p.load e with
  | mk after ended =>
    simp only [Caller.attempt,result] at failed ⊢
    by_cases active : e.states p.id = some .active
    · rw [if_pos active] at failed
      cases failed
    · rw [if_neg active] at failed ⊢
      cases ended with
      | error => rfl
      | ok =>
        cases committed : p.commit with
        | error => rfl
        | ok =>
          rw [committed] at failed
          cases failed

theorem loadPlugin_forgets (failed : (Caller.loadPlugin.attempt p e).2 = .failed) :
    (Caller.loadPlugin.attempt p e).1.states p.id = none := by
  rw [loadPlugin_unloads failed]
  exact unload_states p _

/-- Where the engine starts up, a failed load is recorded and its registrations stay. -/
theorem initializes_records (failed : (Caller.initializes.attempt p e).2 = .failed) :
    (Caller.initializes.attempt p e).1 = (p.load e).1.setState p.id .error := by
  cases result : p.load e with
  | mk after ended =>
    simp only [Caller.attempt,result] at failed ⊢
    cases ended with
    | ok => cases failed
    | error => rfl

/-- A failed load is undone, and stands as an error, if and only if it is one of `initialize` that
leaves nothing. -/
theorem restored_iff {caller : Caller} (failed : (caller.attempt p e).2 = .failed) :
    Restored p e (caller.attempt p e).1 ↔ caller = .initializes ∧ p.LeavesNothing e := by
  cases caller with
  | initializes =>
    have stated : SameRegistries e ((p.load e).1.setState p.id .error) ↔ SameRegistries e (p.load e).1 :=
      SameRegistries.right ⟨rfl,rfl,rfl,rfl,rfl⟩
    rw [initializes_records failed,← load_same]
    exact ⟨fun restored => ⟨rfl,stated.mp restored.1⟩,fun both => ⟨stated.mpr both.2,Function.update_self ..⟩⟩
  | loadPlugin =>
    refine ⟨fun restored => ?_,fun both => by cases both.1⟩
    have recorded := restored.2
    rw [loadPlugin_forgets failed] at recorded
    cases recorded

def Engine.start : Engine := ⟨[],fun _ => none,fun _ => none,fun _ => none,fun _ => none,fun _ => false,fun _ => false,fun _ => none⟩

/-- `register(pm)` subscribes under another name and raises. -/
def halfRegistered : Plugin where
  id := "disks"
  loader := .legacy
  createTables := .ok ()
  module := .ok ⟨[],none,some [.ok ⟨"on_status_report","metrics",0⟩,.error "unknown hook"]⟩
  wrapper := .error "not sandboxed"
  pages := none
  swapRegistry := .ok ()
  update_ := .ok ()
  commit := .ok ()

theorem restored_iff_half :
    Restored halfRegistered .start (Caller.initializes.attempt halfRegistered .start).1 ↔
      Caller.initializes = .initializes ∧ halfRegistered.LeavesNothing .start :=
  restored_iff rfl

/-- The subscription stays after both, and `load_plugin` forgets the error. -/
theorem half_not_restored :
    ((Caller.initializes.attempt halfRegistered .start).2 = .failed ∧
      ¬Restored halfRegistered .start (Caller.initializes.attempt halfRegistered .start).1) ∧
    (Caller.loadPlugin.attempt halfRegistered .start).2 = .failed ∧
      ¬Restored halfRegistered .start (Caller.loadPlugin.attempt halfRegistered .start).1 :=
  ⟨⟨rfl,fun restored => absurd restored.1.hooks (List.cons_ne_nil _ _)⟩,rfl,
    fun restored => absurd restored.1.hooks (by decide)⟩

end Vigile.PluginLoad
