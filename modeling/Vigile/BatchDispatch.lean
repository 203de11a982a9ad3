import Vigile.PluginRateLimiter
import Vigile.RouteRegistrar

/-! The batch endpoint: read-only commands of the loaded plugins, one after the other. -/
namespace Vigile.BatchDispatch

open Python
open PluginRateLimiter (PluginBudget)
open RouteRegistrar (Claims upper requiredLevel userLevel rolesHierarchy rolesHierarchy_bounds)

/-- What `@route` stamps on a handler; without roles the default ones count. -/
structure RouteMeta where
  path : String
  method : String
  roles : Option (List String)

structure CommandEntry where
  pluginId : String
  name : String
  method : String
  pathTemplate : String
  mutation : Bool
  roles : List String
  resourceContract : String
  deriving DecidableEq

def mutatingMethods : List String := ["POST","PUT","PATCH","DELETE"]

def defaultRoles : List String := ["viewer"]

def entryFromMeta (pluginId handlerName : String) (meta_ : RouteMeta) : CommandEntry where
  pluginId := pluginId
  name := pluginId ++ "." ++ handlerName
  method := upper meta_.method
  pathTemplate := meta_.path
  mutation := mutatingMethods.contains (upper meta_.method)
  roles := meta_.roles.getD defaultRoles
  resourceContract := pluginId

section
variable {η : Type}

/-- The stamped handlers that the scan meets in a loaded plugin, each under its name. -/
abbrev Plugin (η : Type) : Type := List (String × RouteMeta × η)

/-- The first entry of a plugin, path and method counts. -/
def addEntry (entries : List CommandEntry) (entry : CommandEntry) : List CommandEntry :=
  if entries.any fun other => other.pluginId = entry.pluginId ∧ other.pathTemplate = entry.pathTemplate ∧
      other.method = entry.method then entries
  else entries ++ [entry]

def before (a b : CommandEntry) : Bool :=
  a.pluginId < b.pluginId || (a.pluginId = b.pluginId && (a.pathTemplate < b.pathTemplate ||
    (a.pathTemplate = b.pathTemplate && a.method ≤ b.method)))

def scanAllRoutes (plugins : List (String × Plugin η)) : List CommandEntry :=
  let found := plugins.flatMap fun plugin => plugin.2.map fun handler => entryFromMeta plugin.1 handler.1 handler.2.1
  (found.foldl addEntry []).mergeSort before

def afterDot (name : String) : String := String.ofList (name.toList.dropWhile (· ≠ '.')).tail

def routeSuffix : List Char := ['_','r','o','u','t','e']

abbrev DispatchMap (η : Type) : Type := OrderedMap String (CommandEntry × η)

/-- A command under its name, and under the name without `_route` where that is free. -/
def addCommand (dispatch : DispatchMap η) (entry : CommandEntry) (handler : η) : DispatchMap η :=
  let named := dispatch.set entry.name (entry,handler)
  if routeSuffix.isSuffixOf entry.name.toList then
    let alias_ := String.ofList (entry.name.toList.take (entry.name.length - 6))
    if alias_ ∈ named.keys then named else named.set alias_ (entry,handler)
  else named

def buildDispatchMap (plugins : List (String × Plugin η)) : DispatchMap η :=
  (scanAllRoutes plugins).foldl (fun dispatch entry =>
    match (plugins.lookup entry.pluginId).bind fun plugin => plugin.lookup (afterDot entry.name) with
    | some (_,handler) => addCommand dispatch entry handler
    | none => dispatch) .empty

end

structure PermissionSpec where
  id : String
  resourceContract : String
  mutation : Bool
  minRole : String

def permissionCatalog : List PermissionSpec :=
  [⟨"node_read","metrics",false,"viewer"⟩,⟨"service_read","systemd",false,"viewer"⟩,
    ⟨"restart_service","systemd",true,"operator"⟩,⟨"container_read","docker",false,"viewer"⟩,
    ⟨"restart_container","docker",true,"operator"⟩,⟨"read_logs","systemd",false,"viewer"⟩,
    ⟨"disk_scan","disk_analysis",false,"viewer"⟩,⟨"plex_read","plex",false,"viewer"⟩,⟨"plex_auth","plex",true,"operator"⟩]

def roleLevel (role : String) : Nat := if role = "operator" then 1 else if role = "admin" then 2 else 0

/-- The entries of the catalogue that are declared and are about the command. -/
def applicable (names : List String) (entry : CommandEntry) : List PermissionSpec :=
  (names.filterMap fun name => permissionCatalog.find? (·.id = name)).filter fun spec =>
    spec.resourceContract = entry.resourceContract && spec.mutation = entry.mutation

/-- `check_permission_intersection`: the reason is empty where the command is allowed. -/
def checkPermissionIntersection (role : String) (entry : CommandEntry) (manifestPermissions : Option (List String)) :
    Bool × String :=
  match manifestPermissions with
  | none => (true,"")
  | some [] => (false,"aucune permission déclarée (liste vide)")
  | some names =>
    let specs := applicable names entry
    if specs.any fun spec => roleLevel spec.minRole ≤ roleLevel role then (true,"")
    else
      match specs.map (·.minRole) with
      | [] => (false,"permission non déclarée")
      | first :: rest =>
        (false,"rôle insuffisant (min: " ++
          rest.foldl (fun least role => if roleLevel role < roleLevel least then role else least) first ++ ")")

/-- The least level that the declared roles ask for; `min` of an empty list raises. -/
def checkSubrequestRoles (claims : Claims) (entry : CommandEntry) : Except PyError Bool :=
  match requiredLevel entry.roles with
  | none => .error (.valueError "min() arg is an empty sequence")
  | some level => .ok (level ≤ userLevel claims)

structure SubRequest where
  command : String
  params : Option Fields

inductive Payload (ρ : Type) where
  | error (message : String)
  | data (value : ρ)

structure Result (ρ : Type) where
  command : String
  status : Nat
  payload : Payload ρ

/-- What the endpoint finds around it, in the state that a step begins in. -/
structure Surroundings (σ η ρ : Type) where
  isKillSwitched : σ → String → Bool
  /-- The names of the permissions of a V2 manifest that declares any. -/
  manifestPermissions : σ → String → Option (List String)
  /-- Whether `get_node` finds the node. -/
  getNode : String → σ → σ × Except PyError Bool
  /-- Whom the plugin's budget of reads is counted for, what the budget is, and whether a slot of it is free. -/
  userId : String
  budget : σ → String → Except PyError PluginBudget
  acquire : String → String → PluginBudget → σ → σ × Except PyError Bool
  urlencode : Fields → String
  /-- FastAPI's reading of a handler's signature. -/
  getDependant : η → Except PyError Unit
  /-- FastAPI's solver: the errors of the parameters, or the handler with its values. -/
  solveDependencies : η → String → σ → σ × Except PyError (Except String (σ → σ × Except PyError ρ))
  /-- The end of what the dependencies have opened. -/
  aclose : σ → σ × Except PyError Unit
  /-- `str` of a JSON value that is no text. -/
  str : Json → String
  renders : ρ → Bool
  sinceMatches : σ → String → Bool
  /-- The engine's boot and counter, where it has any. -/
  revision : σ → Option (String × Int)

section
variable {σ η ρ : Type} (w : Surroundings σ η ρ) (claims : Claims)

def checkNodeScope (params : Option Fields) (s : σ) : σ × Except PyError Bool :=
  match (params.getD []).get "node_id" with
  | .str text => if text = "" then (s,.ok true) else w.getNode text s
  | value => if value.truthy then w.getNode (w.str value) s else (s,.ok true)

def chargeBatchRates (entry : CommandEntry) (s : σ) : σ × Except PyError Unit :=
  match w.budget s entry.pluginId with
  | .error error => (s,.error error)
  | .ok budget =>
    let acquired := w.acquire entry.pluginId w.userId budget s
    match acquired.2 with
    | .error error => (acquired.1,.error error)
    | .ok true => (acquired.1,.ok ())
    | .ok false =>
      (acquired.1,.error (.httpException 429 ("Plugin '" ++ entry.pluginId ++ "' reads budget exceeded for user '" ++
        w.userId ++ "'. Try again later.")))

/-- The parameters that are not `None`. -/
def cleanParams (params : Option Fields) : Fields :=
  (params.getD []).filter fun field =>
    match field.2 with
    | .null => false
    | _ => true

/-- The part of `_invoke_plugin_handler` within its `try`. -/
def solveAndCall (handler : η) (params : Option Fields) (s : σ) : σ × Except PyError ρ :=
  let solved := w.solveDependencies handler (w.urlencode (cleanParams params)) s
  match solved.2 with
  | .error error => (solved.1,.error error)
  | .ok (.error errors) => (solved.1,.error (.httpException 400 ("invalid parameters: " ++ errors)))
  | .ok (.ok call) => call solved.1

def invokePluginHandler (handler : η) (params : Option Fields) (s : σ) : σ × Except PyError ρ :=
  match w.getDependant handler with
  | .error error => (s,.error error)
  | .ok _ =>
    let ended := solveAndCall w handler params s
    let closed := w.aclose ended.1
    -- What `finally` raises takes the place of what was raised or returned.
    match closed.2 with
    | .error error => (closed.1,.error error)
    | .ok _ => (closed.1,ended.2)

/-- A step of the batch: the state after it, the command that was run, and its result or what it raises. -/
structure Step (σ ρ : Type) where
  after : σ
  ran : Option CommandEntry
  outcome : Except PyError (Result ρ)

def refuse (s : σ) (sub : SubRequest) (status : Nat) (message : String) : Step σ ρ :=
  ⟨s,none,.ok ⟨sub.command,status,.error message⟩⟩

/-- The handler, whose exceptions are results, but for those that are no `Exception`. -/
def runHandler (s : σ) (sub : SubRequest) (entry : CommandEntry) (handler : η) : Step σ ρ :=
  let invoked := invokePluginHandler w handler sub.params s
  match invoked.2 with
  | .error (.httpException status detail) => ⟨invoked.1,some entry,.ok ⟨sub.command,status,.error detail⟩⟩
  | .error error =>
    ⟨invoked.1,some entry,
      if error.isException then .ok ⟨sub.command,500,.error ("handler error: " ++ error.text)⟩ else .error error⟩
  | .ok value => ⟨invoked.1,some entry,.ok ⟨sub.command,200,.data value⟩⟩

/-- The charge, of which only an `HTTPException` is caught, and then the handler. -/
def chargeAndRun (s : σ) (sub : SubRequest) (entry : CommandEntry) (handler : η) : Step σ ρ :=
  let charged := chargeBatchRates w entry s
  match charged.2 with
  | .error (.httpException status detail) => refuse charged.1 sub status detail
  | .error error => ⟨charged.1,none,.error error⟩
  | .ok _ => runHandler w charged.1 sub entry handler

/-- The node's scope, outside every `try`. -/
def scopeAndRun (s : σ) (sub : SubRequest) (entry : CommandEntry) (handler : η) : Step σ ρ :=
  let node := checkNodeScope w sub.params s
  match node.2 with
  | .error error => ⟨node.1,none,.error error⟩
  | .ok false => refuse node.1 sub 403 ("node access denied for command: " ++ sub.command)
  | .ok true => chargeAndRun w node.1 sub entry handler

def dispatchOne (dispatch : DispatchMap η) (s : σ) (sub : SubRequest) : Step σ ρ :=
  match dispatch.get? sub.command with
  | none => refuse s sub 404 ("unknown command: " ++ sub.command)
  | some (entry,handler) =>
    if w.isKillSwitched s entry.pluginId then
      refuse s sub 403 ("plugin '" ++ entry.pluginId ++ "' is disabled via kill switch")
    else if entry.mutation then refuse s sub 403 "mutation commands are not allowed via /batch"
    else
      match checkSubrequestRoles claims entry with
      | .error error => ⟨s,none,.error error⟩
      | .ok false => refuse s sub 403 ("insufficient role for command: " ++ sub.command)
      | .ok true =>
        let permitted := checkPermissionIntersection (claims.role.getD "viewer") entry (w.manifestPermissions s entry.pluginId)
        if permitted.1 then scopeAndRun w s sub entry handler
        else refuse s sub 403 ("permission denied for command: " ++ sub.command ++ " (" ++ permitted.2 ++ ")")

/-- A whole batch: the state after it, the commands that were run, and the results or what was raised. -/
structure Run (σ ρ : Type) where
  after : σ
  ran : List CommandEntry
  outcome : Except PyError (List (Result ρ))

def dispatchAll (dispatch : DispatchMap η) : σ → List SubRequest → Run σ ρ
  | s,[] => ⟨s,[],.ok []⟩
  | s,sub :: rest =>
    let step := dispatchOne w claims dispatch s sub
    match step.outcome with
    | .error error => ⟨step.after,step.ran.toList,.error error⟩
    | .ok result =>
      let others := dispatchAll dispatch step.after rest
      ⟨others.after,step.ran.toList ++ others.ran,others.outcome.map (result :: ·)⟩

inductive Reply (ρ : Type) where
  | unchanged
  | results (results : List (Result ρ)) (revision : Option (String × Int))

def Result.renders (result : Result ρ) : Bool :=
  match result.payload with
  | .error _ => true
  | .data value => w.renders value

/-- `batch_execute`: the commands that were run, and the reply, which is rendered as a whole. -/
def batchExecute (plugins : List (String × Plugin η)) (s : σ) (since : Option String) (requests : List SubRequest) :
    List CommandEntry × Except PyError (Reply ρ) :=
  if since.any (w.sinceMatches s) then ([],.ok .unchanged)
  else
    let dispatched := dispatchAll w claims (buildDispatchMap plugins) s requests
    (dispatched.ran,dispatched.outcome.bind fun results =>
      if results.all (Result.renders w) then .ok (.results results (w.revision dispatched.after))
      else .error (.otherException "Object is not JSON serializable"))

def Caught {α : Type} (caught : PyError → Bool) (outcome : Except PyError α) : Prop :=
  ∀ error, outcome = .error error → caught error = true

def isHttp : PyError → Bool
  | .httpException _ _ => true
  | _ => false

/-- Nothing but an `Exception` is raised, and what is returned can be rendered. -/
def Rendered (outcome : Except PyError ρ) : Prop :=
  Caught PyError.isException outcome ∧ ∀ value, outcome = .ok value → w.renders value = true

/-- Neither the reading of the handler's signature nor the end of its dependencies raises anything but an `Exception`,
and where they raise nothing the dependencies and the handler do not either, and what it returns can be rendered. -/
def TameHandler (s : σ) (sub : SubRequest) (handler : η) : Prop :=
  Caught PyError.isException (w.getDependant handler) ∧ (w.getDependant handler = .ok () →
    let ended := solveAndCall w handler sub.params s
    Caught PyError.isException (w.aclose ended.1).2 ∧ ((w.aclose ended.1).2 = .ok () → Rendered w ended.2))

/-- The charge raises nothing but an `HTTPException`, and the handler is tame where a slot was free. -/
def TameCharge (s : σ) (sub : SubRequest) (entry : CommandEntry) (handler : η) : Prop :=
  Caught isHttp (w.budget s entry.pluginId) ∧ ∀ budget, w.budget s entry.pluginId = .ok budget →
    let acquired := w.acquire entry.pluginId w.userId budget s
    Caught isHttp acquired.2 ∧ (acquired.2 = .ok true → TameHandler w acquired.1 sub handler)

/-- The look-up of the node raises nothing, and the charge is tame where the node is found. -/
def TameScope (s : σ) (sub : SubRequest) (entry : CommandEntry) (handler : η) : Prop :=
  Caught (fun _ => false) (checkNodeScope w sub.params s).2 ∧
    ((checkNodeScope w sub.params s).2 = .ok true → TameCharge w (checkNodeScope w sub.params s).1 sub entry handler)

/-- In the state that a sub-request begins in: if it names a read command of a plugin that is not disabled, the command
declares a role, and everything after the checks of the roles and of the permissions is tame. -/
def Tame (dispatch : DispatchMap η) (s : σ) (sub : SubRequest) : Prop :=
  ∀ entry handler, dispatch.get? sub.command = some (entry,handler) → w.isKillSwitched s entry.pluginId = false →
    entry.mutation = false →
      entry.roles ≠ [] ∧ (checkSubrequestRoles claims entry = .ok true →
        (checkPermissionIntersection (claims.role.getD "viewer") entry (w.manifestPermissions s entry.pluginId)).1 = true →
          TameScope w s sub entry handler)

def Orderly (dispatch : DispatchMap η) : σ → List SubRequest → Prop
  | _,[] => True
  | s,sub :: rest => Tame w claims dispatch s sub ∧ Orderly dispatch (dispatchOne w claims dispatch s sub).after rest

/-- A read command, and the user's level is at least that of one of its known roles, if it declares any role. -/
def Permitted (entry : CommandEntry) : Prop :=
  entry.mutation = false ∧
    (entry.roles = [] ∨ ∃ role ∈ entry.roles, ∃ level, rolesHierarchy role = some level ∧ level ≤ userLevel claims)

/-- One result for each sub-request in their order, and only permitted commands were run. -/
def Isolated (requests : List SubRequest) (outcome : List CommandEntry × Except PyError (Reply ρ)) : Prop :=
  (∃ results revision, outcome.2 = .ok (.results results revision) ∧
    results.map (fun result => result.command) = requests.map fun sub => sub.command) ∧
      ∀ entry ∈ outcome.1, Permitted claims entry

end

theorem userLevel_le (claims : Claims) : userLevel claims ≤ 3 := by
  unfold userLevel
  cases known : rolesHierarchy (claims.role.getD "viewer") with
  | none => simp
  | some level => simpa using (rolesHierarchy_bounds known).2

theorem requiredLevel_attained {roles : List String} {level : Nat} (least : requiredLevel roles = some level) :
    ∃ role ∈ roles, (rolesHierarchy role).getD 99 = level := by
  induction roles generalizing level with
  | nil => simp [requiredLevel] at least
  | cons role rest ih =>
    simp only [requiredLevel,Option.some.injEq] at least
    cases found : requiredLevel rest with
    | none =>
      rw [found] at least
      exact ⟨role,by simp,least⟩
    | some other =>
      rw [found] at least
      simp only [Option.elim_some] at least
      rcases Nat.le_total ((rolesHierarchy role).getD 99) other with first | second
      · rw [Nat.min_eq_left first] at least
        exact ⟨role,by simp,least⟩
      · rw [Nat.min_eq_right second] at least
        obtain ⟨attained,member,equal⟩ := ih found
        exact ⟨attained,by simp [member],equal.trans least⟩

variable {claims : Claims} {entry : CommandEntry}

/-- Unknown roles count for more than any user has. -/
theorem known_of_checkSubrequestRoles
    (allowed : checkSubrequestRoles claims entry = .ok true) :
    ∃ role ∈ entry.roles, ∃ level, rolesHierarchy role = some level ∧ level ≤ userLevel claims := by
  unfold checkSubrequestRoles at allowed
  cases least : requiredLevel entry.roles with
  | none => simp [least] at allowed
  | some level =>
    simp only [least,Except.ok.injEq,decide_eq_true_eq] at allowed
    obtain ⟨role,member,attained⟩ := requiredLevel_attained least
    have bound := userLevel_le claims
    cases known : rolesHierarchy role with
    | none =>
      simp only [known,Option.getD_none] at attained
      omega
    | some found =>
      simp only [known,Option.getD_some] at attained
      exact ⟨role,member,found,known,by omega⟩

/-- The check of the roles raises on a command that declares none, and on no other. -/
theorem checkSubrequestRoles_raises :
    (∃ error, checkSubrequestRoles claims entry = .error error) ↔ entry.roles = [] := by
  unfold checkSubrequestRoles
  cases roles_of : entry.roles with
  | nil | cons role rest => simp [requiredLevel]

section
variable {σ η ρ : Type} {w : Surroundings σ η ρ} {claims : Claims} {dispatch : DispatchMap η}
  {s : σ} {sub : SubRequest} {entry : CommandEntry} {handler : η}

/-- The step ends in a result that can be rendered. -/
def Step.Answers (w : Surroundings σ η ρ) (step : Step σ ρ) : Prop :=
  ∃ result, step.outcome = .ok result ∧ result.renders w = true

variable {result : Result ρ}

variable {ran : Option CommandEntry}

@[simp] theorem answers_ok :
    Step.Answers w ⟨s,ran,.ok result⟩ ↔ result.renders w = true := by
  simp [Step.Answers]

@[simp] theorem not_answers_error {error : PyError} :
    ¬Step.Answers w ⟨s,ran,.error error⟩ := by
  simp [Step.Answers]

@[simp] theorem refuse_answers (status : Nat) (message : String) : (refuse s sub status message).Answers w :=
  ⟨_,rfl,rfl⟩

theorem invokePluginHandler_rendered :
    Rendered w (invokePluginHandler w handler sub.params s).2 ↔ TameHandler w s sub handler := by
  unfold invokePluginHandler TameHandler
  rcases signature : w.getDependant handler with error | done
  · simp [Rendered,Caught]
  · rcases closed : (w.aclose (solveAndCall w handler sub.params s).1).2 with error | done
    · simp [closed,Rendered,Caught]
    · simp [closed,Caught]

theorem runHandler_answers : (runHandler w s sub entry handler).Answers w ↔ TameHandler w s sub handler := by
  rw [← invokePluginHandler_rendered]
  unfold runHandler Rendered Caught
  rcases outcome : (invokePluginHandler w handler sub.params s).2 with error | value
  · cases error <;> simp [outcome,PyError.isException,Result.renders]
  · simp [outcome,Result.renders]

theorem chargeAndRun_answers : (chargeAndRun w s sub entry handler).Answers w ↔ TameCharge w s sub entry handler := by
  unfold chargeAndRun chargeBatchRates TameCharge Caught
  rcases allotted : w.budget s entry.pluginId with error | budget
  · cases error <;> simp [isHttp]
  · rcases acquired : (w.acquire entry.pluginId w.userId budget s).2 with error | free
    · cases error <;> simp [acquired,isHttp]
    · cases free
      · simp [acquired]
      · simp [acquired,runHandler_answers]

theorem scopeAndRun_answers : (scopeAndRun w s sub entry handler).Answers w ↔ TameScope w s sub entry handler := by
  unfold scopeAndRun TameScope Caught
  rcases looked : (checkNodeScope w sub.params s).2 with error | found
  · simp [looked]
  · cases found
    · simp [looked]
    · simp [looked,chargeAndRun_answers]

/-- A step ends in a result exactly where its sub-request is tame. -/
theorem dispatchOne_answers : (dispatchOne w claims dispatch s sub).Answers w ↔ Tame w claims dispatch s sub := by
  unfold dispatchOne Tame
  cases command_of : dispatch.get? sub.command with
  | none => simp
  | some found =>
    obtain ⟨entry,handler⟩ := found
    simp only [Option.some.injEq,Prod.mk.injEq]
    constructor
    · rintro answers _ _ ⟨rfl,rfl⟩ enabled read
      simp only [enabled,read,Bool.false_eq_true,if_false] at answers
      cases allowed : checkSubrequestRoles claims entry with
      | error error => simp [allowed] at answers
      | ok sufficient =>
        have declared : entry.roles ≠ [] := fun none_declared => by
          obtain ⟨error,raised⟩ := checkSubrequestRoles_raises.mpr none_declared
          rw [allowed] at raised
          cases raised
        refine ⟨declared,fun sufficient_true permitted => ?_⟩
        cases sufficient_true
        simp only [allowed,permitted,if_true] at answers
        exact scopeAndRun_answers.mp answers
    · intro tame
      by_cases switched : w.isKillSwitched s entry.pluginId = true
      · simp [switched]
      by_cases mutating : entry.mutation = true
      · simp [switched,mutating]
      obtain ⟨declared,tame_scope⟩ := tame entry handler ⟨rfl,rfl⟩ (by simpa using switched) (by simpa using mutating)
      simp only [switched,mutating,Bool.false_eq_true,if_false]
      cases allowed : checkSubrequestRoles claims entry with
      | error error => exact absurd (checkSubrequestRoles_raises.mp ⟨error,allowed⟩) declared
      | ok sufficient =>
        cases sufficient
        · simp
        · simp only
          split
          · rename_i permitted
            exact scopeAndRun_answers.mpr (tame_scope allowed permitted)
          · simp

theorem runHandler_command (answered : (runHandler w s sub entry handler).outcome = .ok result) :
    result.command = sub.command := by
  unfold runHandler at answered
  rcases outcome : (invokePluginHandler w handler sub.params s).2 with error | value
  · cases error <;> simp [outcome,PyError.isException] at answered <;> rw [← answered]
  · simp only [outcome,Except.ok.injEq] at answered
    rw [← answered]

theorem runHandler_ran : (runHandler w s sub entry handler).ran = some entry := by
  unfold runHandler
  rcases outcome : (invokePluginHandler w handler sub.params s).2 with error | value
  · cases error <;> simp [outcome]
  · simp [outcome]

/-- What holds of a refusal and of the run of a permitted command holds of the step. -/
theorem dispatchOne_cases {motive : Step σ ρ → Prop}
    (refused : ∀ s status message, motive (refuse s sub status message))
    (raised : ∀ s error, motive ⟨s,none,.error error⟩)
    (ran : ∀ s entry handler, Permitted claims entry → motive (runHandler w s sub entry handler)) :
    motive (dispatchOne w claims dispatch s sub) := by
  unfold dispatchOne
  split
  · exact refused _ _ _
  rename_i entry handler found
  split
  · exact refused _ _ _
  split
  · exact refused _ _ _
  rename_i enabled read
  split
  · exact raised _ _
  · exact refused _ _ _
  rename_i allowed
  have permitted : Permitted claims entry := ⟨by simpa using read,.inr (known_of_checkSubrequestRoles allowed)⟩
  simp only
  split
  · unfold scopeAndRun
    simp only
    split
    · exact raised _ _
    · exact refused _ _ _
    · unfold chargeAndRun
      simp only
      split
      · exact refused _ _ _
      · exact raised _ _
      · exact ran _ _ _ permitted
  · exact refused _ _ _

/-- A result bears its sub-request's command. -/
theorem dispatchOne_command (answered : (dispatchOne w claims dispatch s sub).outcome = .ok result) :
    result.command = sub.command := by
  revert answered
  apply dispatchOne_cases (w := w) (motive := fun step => step.outcome = .ok result → result.command = sub.command)
  · intro s status message refused
    cases refused
    rfl
  · intro s error raised
    cases raised
  · intro s entry handler _ answered
    exact runHandler_command answered

/-- What a step runs is permitted, whatever it ends in. -/
theorem dispatchOne_ran : ∀ ran ∈ (dispatchOne w claims dispatch s sub).ran, Permitted claims ran := by
  apply dispatchOne_cases (w := w) (motive := fun step => ∀ ran ∈ step.ran, Permitted claims ran)
  · intro s status message ran member
    cases member
  · intro s error ran member
    cases member
  · intro s entry handler permitted ran member
    rw [runHandler_ran,Option.mem_some_iff] at member
    rw [← member]
    exact permitted

end

section
variable {σ η ρ : Type} {w : Surroundings σ η ρ} {claims : Claims} {dispatch : DispatchMap η}

variable {s : σ} {requests : List SubRequest}

variable {rest : List SubRequest} {sub : SubRequest}

theorem dispatchAll_cons {result : Result ρ} {others : Run σ ρ}
    (answered : (dispatchOne w claims dispatch s sub).outcome = .ok result)
    (later : dispatchAll w claims dispatch (dispatchOne w claims dispatch s sub).after rest = others) :
    dispatchAll w claims dispatch s (sub :: rest) =
      ⟨others.after,(dispatchOne w claims dispatch s sub).ran.toList ++ others.ran,others.outcome.map (result :: ·)⟩ := by
  simp only [dispatchAll,answered,later]

theorem dispatchAll_raised {error : PyError}
    (raised : (dispatchOne w claims dispatch s sub).outcome = .error error) :
    dispatchAll w claims dispatch s (sub :: rest) =
      ⟨(dispatchOne w claims dispatch s sub).after,(dispatchOne w claims dispatch s sub).ran.toList,.error error⟩ := by
  simp only [dispatchAll,raised]

/-- The induction is on the sub-requests, over the states that those before leave. -/
theorem dispatchAll_answers :
    (∃ results, (dispatchAll w claims dispatch s requests).outcome = .ok results ∧ results.all (Result.renders w) = true) ↔
      Orderly w claims dispatch s requests := by
  induction requests generalizing s with
  | nil => simp [dispatchAll,Orderly]
  | cons sub rest ih =>
    rw [Orderly,← dispatchOne_answers,← ih]
    cases outcome : (dispatchOne w claims dispatch s sub).outcome with
    | error error =>
      rw [dispatchAll_raised outcome]
      simp [Step.Answers,outcome]
    | ok result =>
      rw [dispatchAll_cons outcome rfl]
      simp only [Step.Answers,outcome,Except.ok.injEq,exists_eq_left']
      constructor
      · rintro ⟨results,mapped,rendered⟩
        cases others : (dispatchAll w claims dispatch (dispatchOne w claims dispatch s sub).after rest).outcome with
        | error error =>
          rw [others] at mapped
          cases mapped
        | ok later =>
          rw [others] at mapped
          cases mapped
          simp only [List.all_cons,Bool.and_eq_true] at rendered
          exact ⟨rendered.1,later,rfl,rendered.2⟩
      · rintro ⟨rendered,later,others,all_rendered⟩
        exact ⟨result :: later,by rw [others]; rfl,by simp [rendered,all_rendered]⟩

/-- The results bear the commands of the sub-requests in their order. -/
theorem dispatchAll_commands {results : List (Result ρ)}
    (answered : (dispatchAll w claims dispatch s requests).outcome = .ok results) :
    results.map (fun result => result.command) = requests.map fun sub => sub.command := by
  induction requests generalizing s results with
  | nil =>
    cases answered
    rfl
  | cons sub rest ih =>
    cases outcome : (dispatchOne w claims dispatch s sub).outcome with
    | error error =>
      rw [dispatchAll_raised outcome] at answered
      cases answered
    | ok result =>
      rw [dispatchAll_cons outcome rfl] at answered
      cases others : (dispatchAll w claims dispatch (dispatchOne w claims dispatch s sub).after rest).outcome with
      | error error =>
        rw [others] at answered
        cases answered
      | ok later =>
        rw [others] at answered
        cases answered
        rw [List.map_cons,List.map_cons,dispatchOne_command outcome,ih others]

/-- Also a batch that raises has run permitted commands only. -/
theorem dispatchAll_ran :
    ∀ ran ∈ (dispatchAll w claims dispatch s requests).ran, Permitted claims ran := by
  induction requests generalizing s with
  | nil => simp [dispatchAll]
  | cons sub rest ih =>
    intro ran member
    cases outcome : (dispatchOne w claims dispatch s sub).outcome with
    | error error =>
      rw [dispatchAll_raised outcome] at member
      exact dispatchOne_ran ran (Option.mem_toList.mp member)
    | ok result =>
      rw [dispatchAll_cons outcome rfl] at member
      rcases List.mem_append.mp member with first | later
      · exact dispatchOne_ran ran (Option.mem_toList.mp first)
      · exact ih ran later

end

section
variable {η : Type} {plugins : List (String × Plugin η)} {entry : CommandEntry} {handler : η}

def Stamped (plugins : List (String × Plugin η)) (entry : CommandEntry) (handler : η) : Prop :=
  ∃ plugin ∈ plugins, ∃ stamped ∈ plugin.2, entry = entryFromMeta plugin.1 stamped.1 stamped.2.1 ∧ handler = stamped.2.2

/-- Ids are keys of a dictionary and have no dot, and a plugin has one handler of a name. -/
structure Named (plugins : List (String × Plugin η)) : Prop where
  ids : (plugins.map Prod.fst).Nodup
  undotted : ∀ plugin ∈ plugins, '.' ∉ plugin.1.toList
  handlers : ∀ plugin ∈ plugins, (plugin.2.map Prod.fst).Nodup

variable {added : CommandEntry} {entries : List CommandEntry}

theorem mem_of_mem_addEntry (member : entry ∈ addEntry entries added) :
    entry ∈ entries ∨ entry = added := by
  unfold addEntry at member
  split at member
  · exact .inl member
  · simpa using member

theorem mem_of_mem_foldl_addEntry {found : List CommandEntry} (member : entry ∈ found.foldl addEntry entries) :
    entry ∈ entries ∨ entry ∈ found := by
  induction found generalizing entries with
  | nil => exact .inl member
  | cons added rest ih =>
    rcases ih member with early | later
    · rcases mem_of_mem_addEntry early with present | same
      · exact .inl present
      · exact .inr (by simp [same])
    · exact .inr (by simp [later])

theorem mem_of_lookup {α β : Type} [BEq α] [LawfulBEq α] {l : List (α × β)} {a : α} {b : β} (found : l.lookup a = some b) :
    (a,b) ∈ l := by
  obtain ⟨front,behind,rfl,_⟩ := List.lookup_eq_some_iff.mp found
  simp

theorem afterDot_name {pluginId : String} (undotted : '.' ∉ pluginId.toList) (name : String) :
    afterDot (pluginId ++ "." ++ name) = name := by
  unfold afterDot
  rw [String.toList_append,String.toList_append,List.append_assoc,List.dropWhile_append_of_pos fun c member => by
    simpa using fun same : c = '.' => undotted (same ▸ member)]
  simp

theorem scanned_entry (member : entry ∈ scanAllRoutes plugins) :
    ∃ plugin ∈ plugins, ∃ stamped ∈ plugin.2, entry = entryFromMeta plugin.1 stamped.1 stamped.2.1 := by
  rcases mem_of_mem_foldl_addEntry (List.mem_mergeSort.mp member) with impossible | found
  · cases impossible
  · obtain ⟨plugin,loaded,mapped⟩ := List.mem_flatMap.mp found
    obtain ⟨stamped,present,same⟩ := List.mem_map.mp mapped
    exact ⟨plugin,loaded,stamped,present,same.symm⟩

/-- A scanned entry, with what is looked up under its name. -/
def Scanned (plugins : List (String × Plugin η)) (entry : CommandEntry) (handler : η) : Prop :=
  entry ∈ scanAllRoutes plugins ∧ ∃ m : RouteMeta,
    ((plugins.lookup entry.pluginId).bind fun plugin => plugin.lookup (afterDot entry.name)) = some (m,handler)

theorem Scanned.stamped (scanned : Scanned plugins entry handler) (named : Named plugins) : Stamped plugins entry handler := by
  obtain ⟨member,m,looked⟩ := scanned
  obtain ⟨plugin,loaded,stamped,present,rfl⟩ := scanned_entry member
  obtain ⟨routes,listed,there⟩ := Option.bind_eq_some_iff.mp looked
  have same := List.inj_on_of_nodup_map named.ids (mem_of_lookup listed) loaded rfl
  obtain rfl : routes = plugin.2 := congrArg Prod.snd same
  have own := mem_of_lookup there
  rw [entryFromMeta,afterDot_name (named.undotted plugin loaded)] at own
  have one := List.inj_on_of_nodup_map (named.handlers plugin loaded) own present rfl
  exact ⟨plugin,loaded,stamped,present,rfl,congrArg (·.2.2) one⟩

variable {command : String}

theorem get?_addCommand {dispatch : DispatchMap η} {addedHandler : η}
    (found : (addCommand dispatch added addedHandler).get? command = some (entry,handler)) :
    dispatch.get? command = some (entry,handler) ∨ entry = added ∧ handler = addedHandler := by
  have of_set : ∀ {map : DispatchMap η} {key : String}, (map.set key (added,addedHandler)).get? command =
      some (entry,handler) → map.get? command = some (entry,handler) ∨ entry = added ∧ handler = addedHandler := by
    intro map key looked
    by_cases same : command = key
    · rw [same,OrderedMap.get?_set_self] at looked
      cases looked
      exact .inr ⟨rfl,rfl⟩
    · rw [OrderedMap.get?_set_of_ne same] at looked
      exact .inl looked
  unfold addCommand at found
  simp only at found
  split at found
  · split at found
    · exact of_set found
    · exact (of_set found).elim of_set .inr
  · exact of_set found

theorem buildDispatchMap_scanned (found : (buildDispatchMap plugins).get? command = some (entry,handler)) :
    Scanned plugins entry handler := by
  revert command entry handler
  unfold buildDispatchMap
  refine List.foldlRecOn (motive := fun dispatch : DispatchMap η => ∀ {entry handler command},
    dispatch.get? command = some (entry,handler) → Scanned plugins entry handler) _ _ ?_ ?_
  · intro entry handler command impossible
    cases impossible
  · intro dispatch held added member entry handler command looked
    split at looked
    · rename_i there
      rcases get?_addCommand looked with early | ⟨rfl,rfl⟩
      · exact held early
      · exact ⟨member,_,there⟩
    · exact held looked

/-- A handler is dispatched, under its own name or its alias, by the method, the mutation flag and the roles of its route. -/
theorem dispatched_own_route (named : Named plugins)
    (found : (buildDispatchMap plugins).get? command = some (entry,handler)) : Stamped plugins entry handler :=
  (buildDispatchMap_scanned found).stamped named

/-- A command declares no role only where a route was given an empty list. -/
theorem roles_declared (declared : ∀ plugin ∈ plugins, ∀ stamped ∈ plugin.2, stamped.2.1.roles ≠ some [])
    (found : (buildDispatchMap plugins).get? command = some (entry,handler)) : entry.roles ≠ [] := by
  obtain ⟨plugin,loaded,stamped,present,rfl⟩ := scanned_entry (buildDispatchMap_scanned found).1
  have some_role := declared plugin loaded stamped present
  simp only [entryFromMeta]
  cases roles_of : stamped.2.1.roles with
  | none => simp [defaultRoles]
  | some roles =>
    intro none_declared
    exact some_role (by rw [roles_of]; exact congrArg some none_declared)

end

variable {σ η ρ : Type}

/-- What surrounds the endpoint raises in no state anything that is not caught. -/
structure Gentle (w : Surroundings σ η ρ) : Prop where
  looks : ∀ params s, Caught (fun _ => false) (checkNodeScope w params s).2
  allots : ∀ pluginId s, Caught isHttp (w.budget s pluginId)
  charges : ∀ pluginId budget s, Caught isHttp (w.acquire pluginId w.userId budget s).2
  handles : ∀ sub s handler, TameHandler w s sub handler

/-- Where every route declares a role, such surroundings make every batch orderly. -/
theorem orderly_of_declared {w : Surroundings σ η ρ} {claims : Claims} {plugins : List (String × Plugin η)}
    (declared : ∀ plugin ∈ plugins, ∀ stamped ∈ plugin.2, stamped.2.1.roles ≠ some []) (gentle : Gentle w)
    (s : σ) (requests : List SubRequest) : Orderly w claims (buildDispatchMap plugins) s requests := by
  induction requests generalizing s with
  | nil => trivial
  | cons sub rest ih =>
    refine ⟨fun entry handler found _ _ => ⟨roles_declared declared found,fun _ _ => ?_⟩,ih _⟩
    exact ⟨gentle.looks _ _,fun _ => ⟨gentle.allots _ _,fun _ _ =>
      ⟨gentle.charges _ _ _,fun _ => gentle.handles _ _ _⟩⟩⟩

/-- The reply bears one result for each sub-request exactly if it is no "unchanged" and every sub-request is tame where it
is begun; the commands that are run are permitted anyhow. -/
theorem isolated_iff_orderly (w : Surroundings σ η ρ) (claims : Claims) (plugins : List (String × Plugin η)) (s : σ)
    (since : Option String) (requests : List SubRequest) :
    Isolated claims requests (batchExecute w claims plugins s since requests) ↔
      since.any (w.sinceMatches s) = false ∧ Orderly w claims (buildDispatchMap plugins) s requests := by
  cases matched : since.any (w.sinceMatches s) with
  | true => simp [Isolated,batchExecute,matched]
  | false =>
    rw [← dispatchAll_answers]
    simp only [Isolated,batchExecute,matched,Bool.false_eq_true,if_false,true_and]
    constructor
    · rintro ⟨⟨results,revision,replied,_⟩,_⟩
      cases dispatched : (dispatchAll w claims (buildDispatchMap plugins) s requests).outcome with
      | error error =>
        rw [dispatched] at replied
        cases replied
      | ok found =>
        rw [dispatched] at replied
        simp only [Except.bind] at replied
        split at replied
        · rename_i rendered
          exact ⟨found,rfl,rendered⟩
        · cases replied
    · rintro ⟨results,dispatched,rendered⟩
      refine ⟨⟨results,w.revision (dispatchAll w claims (buildDispatchMap plugins) s requests).after,?_,
        dispatchAll_commands dispatched⟩,dispatchAll_ran⟩
      simp only [dispatched,Except.bind,rendered,if_true]

def quiet : Surroundings Unit String String where
  isKillSwitched _ _ := false
  manifestPermissions _ _ := none
  getNode _ s := (s,.ok true)
  userId := "ana"
  budget _ _ := .ok {}
  acquire _ _ _ s := (s,.ok true)
  urlencode _ := ""
  getDependant _ := .ok ()
  solveDependencies name _ s := (s,.ok (.ok fun s => (s,.ok name)))
  aclose s := (s,.ok ())
  str _ := ""
  renders _ := true
  sinceMatches _ _ := false
  revision _ := none

def viewer : Claims := ⟨"1",some "ana",some "viewer",some "access"⟩

/-- A plugin whose one route is open to everyone. -/
def statusPlugin : List (String × Plugin String) := [("status",[("ping",⟨"/ping","GET",some []⟩,"pong")])]

theorem status_command : (buildDispatchMap statusPlugin).get? "status.ping" =
    some (⟨"status","status.ping","GET","/ping",false,[],"status"⟩,"pong") := by
  have scanned : scanAllRoutes statusPlugin = [⟨"status","status.ping","GET","/ping",false,[],"status"⟩] := by
    simp only [scanAllRoutes,statusPlugin,List.flatMap_cons,List.flatMap_nil,List.map_cons,List.map_nil,List.append_nil,
      List.foldl_cons,List.foldl_nil,addEntry,List.any_nil,Bool.false_eq_true,if_false,List.nil_append,
      List.mergeSort_singleton]
    decide
  rw [buildDispatchMap,scanned]
  decide

theorem dispatched_own_route_status : Stamped statusPlugin ⟨"status","status.ping","GET","/ping",false,[],"status"⟩ "pong" :=
  dispatched_own_route ⟨by decide,by decide,by decide⟩ status_command

/-- The command of the open route takes the other's answer with it. -/
theorem not_isolated_open :
    ¬Isolated viewer [⟨"status.ping",none⟩,⟨"status.pong",none⟩]
      (batchExecute quiet viewer statusPlugin () none [⟨"status.ping",none⟩,⟨"status.pong",none⟩]) := by
  rintro ⟨⟨results,revision,replied,_⟩,_⟩
  simp only [batchExecute,Option.any_none,Bool.false_eq_true,if_false] at replied
  have raised : (dispatchOne quiet viewer (buildDispatchMap statusPlugin) () ⟨"status.ping",none⟩).outcome =
      .error (.valueError "min() arg is an empty sequence") := by
    simp [dispatchOne,status_command,quiet,checkSubrequestRoles,requiredLevel]
  rw [dispatchAll_raised raised] at replied
  cases replied

end Vigile.BatchDispatch
