import Vigile.DBAuto
import Vigile.RouteRegistrar

/-! The application's route table: what mounting a plugin adds to it and what unmounting it takes away. -/
namespace Vigile.RouteTable

open Python RouteRegistrar

variable {ρ ε : Type}

/-- An element of `app.router.routes`; not all of them have a path. -/
structure Entry (ε : Type) where
  path : Option String
  name : String
  isMount : Bool
  endpoint : ε
  deriving DecidableEq

/-- The files that are served where no route matches. -/
def Entry.isStatic (entry : Entry ε) : Bool := entry.name = "static" || (entry.isMount && entry.path = some "/")

def staticLast (routes : List (Entry ε)) : List (Entry ε) :=
  routes.filter (fun entry => !entry.isStatic) ++ routes.filter Entry.isStatic

structure Registrar (ε : Type) where
  app : Option (List (Entry ε))
  mountedRoutes : OrderedMap String (List (String × String))

/-- Under which name FastAPI registers a route and with which endpoint, or why it does not. -/
abbrev Register (ρ ε : Type) : Type := Route ρ → Except PyError (String × ε)

def entryOf (register : Register ρ ε) (route : Route ρ) : Except PyError (Entry ε) :=
  (register route).map fun registered => ⟨some route.path,registered.1,false,registered.2⟩

/-- An error of a registration leaves before the router is included. -/
def mount (register : Register ρ ε) (r : Registrar ε) (pluginId : String) (specs : List Spec)
    (instance' : String → Option (Handler ρ)) (domains : List String) : Registrar ε :=
  match r.app with
  | none => r
  | some routes =>
    if pluginId ∈ r.mountedRoutes.keys then r
    else
      let mounted := specs.filterMap (mountSpec pluginId instance' domains)
      match mounted.mapM (entryOf register) with
      | .error _ => r
      | .ok router =>
        ⟨some (staticLast (routes ++ router)),
          r.mountedRoutes.set pluginId (mounted.map fun route => (route.path,route.method))⟩

def without (paths : List String) (routes : List (Entry ε)) : List (Entry ε) :=
  routes.filter fun entry => entry.path.all fun path => path ∉ paths

def unmount (r : Registrar ε) (pluginId : String) : Registrar ε :=
  match r.app with
  | none => r
  | some routes =>
    let mounted := (r.mountedRoutes.get? pluginId).getD []
    let remaining := if mounted = [] then routes else without (mounted.map Prod.fst) routes
    ⟨some remaining,r.mountedRoutes.erase pluginId⟩

/-- The same routes in the same order, but for the static files, which are last. -/
def Restored (before after : Registrar ε) : Prop := after.app.map staticLast = before.app.map staticLast

def declaredPaths (pluginId : String) (specs : List Spec) (instance' : String → Option (Handler ρ)) : List String :=
  (specs.filter fun spec => (instance' spec.handler).isSome &&
    ["GET","POST","PUT","DELETE","PATCH"].contains (upper spec.method)).map fun spec =>
      "/api/plugins/" ++ pluginId ++ spec.path

def Unused (routes : List (Entry ε)) (paths : List String) : Prop :=
  ∀ entry ∈ routes, ∀ path ∈ entry.path, path ∉ paths

/-- No route of the table has a path that is recorded for the plugin, where it is mounted already, or that it
declares, where FastAPI registers all that it declares. -/
def Undisputed (register : Register ρ ε) (r : Registrar ε) (pluginId : String) (specs : List Spec)
    (instance' : String → Option (Handler ρ)) (domains : List String) : Prop :=
  ∀ routes ∈ r.app,
    match r.mountedRoutes.get? pluginId with
    | some mounted => Unused routes (mounted.map Prod.fst)
    | none =>
      (∀ spec ∈ specs, ∀ route ∈ mountSpec pluginId instance' domains spec, (register route).isOk = true) →
        Unused routes (declaredPaths pluginId specs instance')

variable {routes router : List (Entry ε)} {paths : List String} {pluginId : String} {specs : List Spec}
  {instance' : String → Option (Handler ρ)} {domains : List String} {register : Register ρ ε} {r : Registrar ε}

theorem staticLast_filter (keep : Entry ε → Bool) (routes : List (Entry ε)) :
    staticLast (routes.filter keep) = (staticLast routes).filter keep := by
  unfold staticLast
  rw [List.filter_append,List.filter_comm,List.filter_comm Entry.isStatic]

theorem mem_staticLast {entry : Entry ε} : entry ∈ staticLast routes ↔ entry ∈ routes := by
  unfold staticLast
  cases isStatic : entry.isStatic <;> simp [isStatic]

theorem staticLast_staticLast (routes : List (Entry ε)) : staticLast (staticLast routes) = staticLast routes := by
  have regular : (staticLast routes).filter (fun entry => !entry.isStatic) =
      routes.filter fun entry => !entry.isStatic := by
    simp [staticLast,List.filter_append,List.filter_filter]
  have static : (staticLast routes).filter Entry.isStatic = routes.filter Entry.isStatic := by
    simp [staticLast,List.filter_append,List.filter_filter]
  rw [staticLast,regular,static]
  rfl

theorem without_nil (routes : List (Entry ε)) : without [] routes = routes := by
  refine List.filter_eq_self.mpr fun entry _ => ?_
  cases entry.path <;> simp

/-- A filter by paths leaves the routes as they are when none has such a path. -/
theorem without_eq_self_iff : without paths routes = routes ↔ Unused routes paths := by
  unfold without Unused
  rw [List.filter_eq_self]
  refine forall₂_congr fun entry _ => ?_
  cases entry.path <;> simp

theorem unused_staticLast : Unused (staticLast routes) paths ↔ Unused routes paths :=
  forall_congr' fun _ => imp_congr_left mem_staticLast

theorem staticLast_without_iff :
    staticLast (without paths routes) = staticLast routes ↔ Unused routes paths := by
  unfold without
  rw [staticLast_filter]
  exact without_eq_self_iff.trans unused_staticLast

/-- The routes that the loop adds have the declared paths. -/
theorem paths_mounted : ((specs.filterMap (mountSpec pluginId instance' domains)).map Route.path) =
    declaredPaths pluginId specs instance' := by
  unfold declaredPaths
  induction specs with
  | nil => rfl
  | cons spec rest ih =>
    have added : (mountSpec pluginId instance' domains spec).map Route.path =
        if (instance' spec.handler).isSome && ["GET","POST","PUT","DELETE","PATCH"].contains (upper spec.method) then
          some ("/api/plugins/" ++ pluginId ++ spec.path) else none := by
      unfold mountSpec
      cases instance' spec.handler with
      | none => rfl
      | some handler =>
        simp only [Option.bind_eq_bind,Option.bind_some,Option.isSome_some,Bool.true_and]
        unfold endpointFor
        split
        case h_6 get post put delete patch =>
          have unsupported : upper spec.method ∉ ["GET","POST","PUT","DELETE","PATCH"] := by
            simp only [List.mem_cons,List.not_mem_nil,or_false,not_or]
            exact ⟨get,post,put,delete,patch⟩
          rw [List.contains_eq_mem,decide_eq_false unsupported]
          rfl
        all_goals simp_all
    rw [List.filterMap_cons,List.filter_cons]
    cases mounted : mountSpec pluginId instance' domains spec with
    | none =>
      rw [mounted] at added
      split at added
      · simp at added
      · rename_i skipped
        rw [if_neg skipped]
        exact ih
    | some route =>
      rw [mounted] at added
      split at added
      · rename_i taken
        rw [if_pos taken,List.map_cons,List.map_cons,ih]
        exact congrArg (· :: _) (Option.some.inj added)
      · simp at added

/-- The entries of the registered routes have the routes' paths. -/
theorem paths_registered {mounted : List (Route ρ)} (registered : mounted.mapM (entryOf register) = .ok router) :
    router.map Entry.path = mounted.map fun route => some route.path := by
  induction mounted generalizing router with
  | nil =>
    obtain rfl := Except.ok.inj registered
    rfl
  | cons route rest ih =>
    rw [List.mapM_cons] at registered
    cases first : register route with
    | error error => simp [entryOf,first,Except.map,Bind.bind,Except.bind] at registered
    | ok pair =>
      cases others : rest.mapM (entryOf register) with
      | error error => simp [entryOf,first,others,Except.map,Bind.bind,Except.bind] at registered
      | ok later =>
        simp only [entryOf,first,others,Except.map,Bind.bind,Except.bind,pure,Except.pure,Except.ok.injEq] at registered
        rw [← registered,List.map_cons,List.map_cons,ih others]

theorem registered_iff {mounted : List (Route ρ)} :
    (∃ router, mounted.mapM (entryOf register) = .ok router) ↔ ∀ route ∈ mounted, (register route).isOk = true := by
  induction mounted with
  | nil => simp [pure,Except.pure]
  | cons route rest ih =>
    rw [List.mapM_cons]
    cases first : register route with
    | error error => simp [entryOf,first,Except.map,Bind.bind,Except.bind,Except.isOk,Except.toBool]
    | ok pair =>
      rw [List.forall_mem_cons,← ih]
      cases others : rest.mapM (entryOf register) with
      | error error => simp [entryOf,first,Except.map,Bind.bind,Except.bind]
      | ok later =>
        simp [entryOf,first,Except.map,Bind.bind,Except.bind,pure,Except.pure,Except.isOk,Except.toBool]

theorem app_unmount (routes : List (Entry ε)) (recorded : OrderedMap String (List (String × String))) (pluginId : String) :
    (unmount ⟨some routes,recorded⟩ pluginId).app =
      some (without (((recorded.get? pluginId).getD []).map Prod.fst) routes) := by
  dsimp only [unmount]
  split_ifs with empty
  · rw [empty,List.map_nil,without_nil]
  · rfl

/-- Nothing is mounted where there is no application or FastAPI refuses a route; a plugin that is mounted already
stays as it is. -/
theorem mount_refused (refused : ∀ routes ∈ r.app, r.mountedRoutes.get? pluginId = none →
      ∃ error, (specs.filterMap (mountSpec pluginId instance' domains)).mapM (entryOf register) = .error error) :
    mount register r pluginId specs instance' domains = r := by
  unfold mount
  cases present : r.app with
  | none => rfl
  | some routes =>
    dsimp only
    split_ifs with known
    · rfl
    · have unknown : r.mountedRoutes.get? pluginId = none :=
        Option.eq_none_iff_forall_ne_some.mpr fun value found => known (OrderedMap.mem_keys.mpr ⟨value,found⟩)
      obtain ⟨error,failed⟩ := refused routes present unknown
      rw [failed]

theorem mount_accepted (present : r.app = some routes) (unknown : r.mountedRoutes.get? pluginId = none)
    (accepted : (specs.filterMap (mountSpec pluginId instance' domains)).mapM (entryOf register) = .ok router) :
    mount register r pluginId specs instance' domains =
      ⟨some (staticLast (routes ++ router)),r.mountedRoutes.set pluginId
        ((specs.filterMap (mountSpec pluginId instance' domains)).map fun route => (route.path,route.method))⟩ := by
  have absent : pluginId ∉ r.mountedRoutes.keys := fun known => by
    obtain ⟨value,found⟩ := OrderedMap.mem_keys.mp known
    rw [unknown] at found
    simp at found
  unfold mount
  simp only [present,if_neg absent,accepted]

/-- The added routes go again, whatever goes with them. -/
theorem without_added (added : ∀ entry ∈ router, ∃ path ∈ paths, entry.path = some path) :
    staticLast (without paths (staticLast (routes ++ router))) = staticLast (without paths routes) := by
  have gone : without paths router = [] := by
    refine List.filter_eq_nil_iff.mpr fun entry member => ?_
    obtain ⟨path,claimed,named⟩ := added entry member
    simp [named,claimed]
  calc staticLast (without paths (staticLast (routes ++ router)))
      = staticLast (without paths (routes ++ router)) := by
        unfold without
        rw [staticLast_filter,staticLast_staticLast,staticLast_filter]
    _ = staticLast (without paths routes ++ without paths router) := by
        unfold without
        rw [List.filter_append]
    _ = staticLast (without paths routes) := by rw [gone,List.append_nil]

theorem restores_iff (present : r.app = some routes) (after : Registrar ε)
    (left : after.app.map staticLast = some (staticLast (without paths routes))) :
    Restored r after ↔ Unused routes paths := by
  unfold Restored
  rw [left,present,Option.map_some,Option.some_inj]
  exact staticLast_without_iff

/-- The unmounting after a mount that did nothing takes what was recorded before. -/
theorem restored_recorded (present : r.app = some routes) {mounted : List (String × String)}
    (recorded : r.mountedRoutes.get? pluginId = some mounted) :
    Restored r (unmount (mount register r pluginId specs instance' domains) pluginId) ↔
      Unused routes (mounted.map Prod.fst) := by
  rw [mount_refused fun _ _ unknown => absurd (recorded.symm.trans unknown) (by simp)]
  refine restores_iff present _ ?_
  have shape : r = ⟨some routes,r.mountedRoutes⟩ := by rw [← present]
  rw [shape,app_unmount,recorded]
  rfl

theorem restored_refused (present : r.app = some routes) (unknown : r.mountedRoutes.get? pluginId = none) {error : PyError}
    (refused : (specs.filterMap (mountSpec pluginId instance' domains)).mapM (entryOf register) = .error error) :
    Restored r (unmount (mount register r pluginId specs instance' domains) pluginId) := by
  rw [mount_refused fun _ _ _ => ⟨error,refused⟩]
  have nothing : Unused routes [] := fun _ _ _ _ => List.not_mem_nil
  refine (restores_iff present _ ?_).mpr nothing
  have shape : r = ⟨some routes,r.mountedRoutes⟩ := by rw [← present]
  rw [shape,app_unmount,unknown]
  rfl

theorem restored_mounted (present : r.app = some routes) (unknown : r.mountedRoutes.get? pluginId = none)
    (accepted : (specs.filterMap (mountSpec pluginId instance' domains)).mapM (entryOf register) = .ok router) :
    Restored r (unmount (mount register r pluginId specs instance' domains) pluginId) ↔
      Unused routes (declaredPaths pluginId specs instance') := by
  have paths : (specs.filterMap (mountSpec pluginId instance' domains)).map Route.path =
      declaredPaths pluginId specs instance' := paths_mounted
  have added : ∀ entry ∈ router, ∃ path ∈ declaredPaths pluginId specs instance', entry.path = some path := by
    intro entry member
    have named : entry.path ∈ router.map Entry.path := List.mem_map_of_mem member
    rw [paths_registered accepted] at named
    obtain ⟨route,inside,same⟩ := List.mem_map.mp named
    exact ⟨route.path,paths ▸ List.mem_map_of_mem inside,same.symm⟩
  rw [mount_accepted present unknown accepted]
  refine restores_iff present _ ?_
  rw [app_unmount,OrderedMap.get?_set_self,Option.getD_some,List.map_map]
  have recordedPaths : List.map (Prod.fst ∘ fun route : Route ρ => (route.path,route.method))
      (specs.filterMap (mountSpec pluginId instance' domains)) = declaredPaths pluginId specs instance' := paths
  rw [recordedPaths,Option.map_some,without_added added]

/-- FastAPI registers all that a plugin declares, or the loop ends with its error. -/
theorem registered_or_refused :
    (∃ router, (specs.filterMap (mountSpec pluginId instance' domains)).mapM (entryOf register) = .ok router) ↔
      ∀ spec ∈ specs, ∀ route ∈ mountSpec pluginId instance' domains spec, (register route).isOk = true := by
  rw [registered_iff]
  constructor
  · exact fun accepts spec inside route found => accepts route (List.mem_filterMap.mpr ⟨spec,inside,found⟩)
  · intro accepts route member
    obtain ⟨spec,inside,found⟩ := List.mem_filterMap.mp member
    exact accepts spec inside route found

/-- Mounting and then unmounting a plugin restores the table where no route of the table has a path that goes with
the plugin, and nowhere else. -/
theorem restored_iff_undisputed (register : Register ρ ε) (r : Registrar ε) (pluginId : String) (specs : List Spec)
    (instance' : String → Option (Handler ρ)) (domains : List String) :
    Restored r (unmount (mount register r pluginId specs instance' domains) pluginId) ↔
      Undisputed register r pluginId specs instance' domains := by
  unfold Undisputed
  cases present : r.app with
  | none =>
    rw [mount_refused fun routes found => absurd (present.symm.trans found) (by simp)]
    simp [Restored,unmount,present]
  | some routes =>
    simp only [Option.mem_some_iff,forall_eq']
    cases recorded : r.mountedRoutes.get? pluginId with
    | some mounted => exact restored_recorded present recorded
    | none =>
      dsimp only
      rw [← registered_or_refused]
      cases registered : (specs.filterMap (mountSpec pluginId instance' domains)).mapM (entryOf register) with
      | error error => exact iff_of_true (restored_refused present recorded registered) (by simp)
      | ok router =>
        rw [restored_mounted present recorded registered]
        exact ⟨fun unused _ => unused,fun unused => unused ⟨router,rfl⟩⟩

/-! The stream of the plugins' events goes with a plugin of that name -/

def eventStream : Entry Unit := ⟨some "/api/plugins/events/stream","stream",false,()⟩

theorem not_restored_events :
    ¬∀ (register : Register Unit Unit) (r : Registrar Unit) (pluginId : String) (specs : List Spec)
      (instance' : String → Option (Handler Unit)) (domains : List String), DBAuto.isManifestId pluginId = true →
        Restored r (unmount (mount register r pluginId specs instance' domains) pluginId) := by
  intro always
  have restored := always (fun _ => .ok ("_since_aware_get",())) ⟨some [eventStream],.empty⟩ "events"
    [⟨"/stream","GET",[],"stream"⟩] (fun _ => some ⟨[],fun _ => .ok ()⟩) [] (by decide)
  exact absurd restored (by unfold Restored; decide +kernel)

end Vigile.RouteTable
