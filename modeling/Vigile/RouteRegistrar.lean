import Vigile.Python

/-! `RouteRegistrar.mount` and what stands between a request and the handler of a plugin's
route: the wrappers and the handler's own dependencies. -/
namespace Vigile.RouteRegistrar
open Python

structure HttpError where
  status : Nat
  detail : Json

structure Request where
  method : String
  path : String
  /-- The bearer token and the access cookie. -/
  credentials : Option String
  cookie : Option String
  since : Option String

structure Claims where
  sub : String
  username : Option String
  role : Option String
  type : Option String

inductive Decoded where
  | expired
  | invalid
  | claims (claims : Claims)

structure UserRow where
  isActive : Bool
  mustChangePassword : Bool

structure World where
  decode : String → Decoded
  users : String → Option UserRow
  auditCompromised : Bool
  /-- Whether a dependency that looks at no credentials is resolved. -/
  resolves : String → Request → Bool
  /-- `_since_matches`: the query names the current revision. -/
  sinceMatches : String → Bool

def rolesHierarchy (role : String) : Option Nat :=
  if role = "viewer" then some 1
  else if role = "operator" then some 2
  else if role = "admin" then some 3
  else none

def notAuthenticated : HttpError := ⟨401,.str "Not authenticated"⟩

/-- `verify_access_token`; the detail tells an expired token from any other. -/
def verifyAccessToken (world : World) (token : String) : Except HttpError Claims :=
  match world.decode token with
  | .expired => .error ⟨401,.str "Token has expired"⟩
  | .invalid => .error ⟨401,.str "Invalid or expired token"⟩
  | .claims claims =>
    if claims.type = some "access" ∧ ((claims.role.bind rolesHierarchy).isSome = true) then .ok claims
    else .error ⟨401,.str "Invalid or expired token"⟩

def rstripSlash (path : String) : String :=
  String.ofList (path.toList.reverse.dropWhile (· = '/')).reverse

/-- The account's part of `get_current_user`. -/
def checkAccount (world : World) (request : Request) (claims : Claims) : Except HttpError Claims :=
  let row :=
    if claims.sub = "demo-user" ∨ claims.username = some "guest" then some ⟨true,false⟩
    else world.users claims.sub
  match row with
  | none => .error ⟨401,.str "User not found or deactivated"⟩
  | some row =>
    if !row.isActive then .error ⟨401,.str "User not found or deactivated"⟩
    else if row.mustChangePassword && !(["/api/auth/change-password","/api/auth/logout",
        "/api/auth/login"].contains (rstripSlash request.path)) then
      .error ⟨403,.object [("detail",.str "Password change required"),
        ("code",.str "MUST_CHANGE_PASSWORD")]⟩
    else .ok claims

/-- What a compromised audit chain locks: operators, and every write. -/
def locked (world : World) (request : Request) (claims : Claims) : Bool :=
  world.auditCompromised && (["operator","admin"].contains (claims.role.getD "viewer") ||
    ["POST","PUT","DELETE","PATCH"].contains request.method)

def getCurrentUser (world : World) (request : Request) : Except HttpError Claims :=
  match request.credentials <|> request.cookie with
  | none => .error notAuthenticated
  | some token => do
    let claims ← verifyAccessToken world token
    if locked world request claims then .error ⟨503,.str "System Locked: Security Compromised"⟩
    else checkAccount world request claims

def userLevel (claims : Claims) : Nat := (rolesHierarchy (claims.role.getD "viewer")).getD 0

/-- `min(ROLES_HIERARCHY.get(r, 99) for r in roles)`; it raises when there is none. -/
def requiredLevel : List String → Option Nat
  | [] => none
  | role :: rest =>
    let level := (rolesHierarchy role).getD 99
    some ((requiredLevel rest).elim level (min level))

def reprRoles (roles : List String) : String :=
  let quoted := roles.map fun role => "'" ++ role ++ "'"
  "(" ++ ", ".intercalate quoted ++ (if roles.length = 1 then "," else "") ++ ")"

def requireRole (roles : List String) (world : World) (request : Request) :
    Except HttpError Claims := do
  let currentUser ← getCurrentUser world request
  match requiredLevel roles with
  | none => .error ⟨500,.null⟩
  | some level =>
    if userLevel currentUser < level then
      .error ⟨403,.str ("Insufficient permissions. Required: " ++ reprRoles roles)⟩
    else .ok currentUser

def checkSubrequestRoles (claims : Claims) (roles : List String) : Bool :=
  (requiredLevel roles).any (· ≤ userLevel claims)

/-- A parameter of a handler: a user, or anything that looks at no credentials. -/
inductive Dependency where
  | provider (name : String)
  | currentUser
  | requireRole (roles : List String)

def Dependency.solve (world : World) (request : Request) : Dependency → Except HttpError Unit
  | .provider name => if world.resolves name request then .ok () else .error ⟨500,.null⟩
  | .currentUser => (getCurrentUser world request).map fun _ => ()
  | .requireRole roles => (RouteRegistrar.requireRole roles world request).map fun _ => ()

def solveDependencies (world : World) (request : Request) : List Dependency → Except HttpError Unit
  | [] => .ok ()
  | dependency :: rest => do
    dependency.solve world request
    solveDependencies world request rest

/-- A bound method of a plugin with what its signature depends on; `ρ` is what it returns. -/
structure Handler (ρ : Type) where
  dependencies : List Dependency
  call : Request → Except HttpError ρ

/-- What a request comes to: an answer without the handler, or the handler's run. -/
inductive Served (ρ : Type) where
  | unchanged
  | refused (error : HttpError)
  | ran (result : Except HttpError ρ)

def Served.handlerRan {ρ : Type} : Served ρ → Bool
  | .ran _ => true
  | _ => false

/-- `_invoke_handler`, and what FastAPI does with a handler registered as it is. -/
def invokeHandler {ρ : Type} (world : World) (request : Request) (handler : Handler ρ) : Served ρ :=
  match solveDependencies world request handler.dependencies with
  | .error error => .refused error
  | .ok _ => .ran (handler.call request)

inductive Endpoint (ρ : Type) where
  | direct (handler : Handler ρ)
  | sinceWrapped (handler : Handler ρ)
  | authUrlGuarded (handler : Handler ρ) (domains : List String)

variable {ρ : Type}

def sinceAwareGet (world : World) (request : Request) (handler : Handler ρ) : Served ρ :=
  if request.since.any world.sinceMatches then .unchanged
  else invokeHandler world request handler

/-- `_guarded`: the result is checked after the run, by `check` for the declared domains. -/
def guarded (check : List String → ρ → Option HttpError) (world : World) (request : Request)
    (handler : Handler ρ) (domains : List String) : Served ρ :=
  match invokeHandler world request handler with
  | .ran (.ok result) => .ran ((check domains result).elim (.ok result) .error)
  | served => served

def serve (check : List String → ρ → Option HttpError) (world : World) (request : Request) :
    Endpoint ρ → Served ρ
  | .direct handler => invokeHandler world request handler
  | .sinceWrapped handler => sinceAwareGet world request handler
  | .authUrlGuarded handler domains => guarded check world request handler domains

/-- The metadata `@route` stamps on a method. -/
structure Spec where
  path : String
  method : String
  roles : List String
  handler : String

def route (path method : String) (roles : Option (List String)) (handler : String) : Spec :=
  ⟨path,method,roles.getD ["viewer"],handler⟩

structure Route (ρ : Type) where
  path : String
  method : String
  endpoint : Endpoint ρ

def upper (method : String) : String := String.ofList (method.toList.map Char.toUpper)

def endpointFor (method : String) (handler : Handler ρ) (domains : List String) :
    Option (Endpoint ρ) :=
  match method with
  | "GET" => some (.sinceWrapped handler)
  | "POST" => some (if domains.isEmpty then .direct handler else .authUrlGuarded handler domains)
  | "PUT" | "DELETE" | "PATCH" => some (.direct handler)
  | _ => none

/-- One turn of the loop of `mount`: no route without handler or for another method. -/
def mountSpec (pluginId : String) (instance' : String → Option (Handler ρ)) (domains : List String)
    (spec : Spec) : Option (Route ρ) := do
  let handler ← instance' spec.handler
  let endpoint ← endpointFor (upper spec.method) handler domains
  some ⟨"/api/plugins/" ++ pluginId ++ spec.path,(upper spec.method),endpoint⟩

structure App (ρ : Type) where
  regular : List (Route ρ)
  static : List String

structure Registrar (ρ : Type) where
  app : Option (App ρ)
  mountedRoutes : List (String × List (String × String))

def Registrar.mount (r : Registrar ρ) (pluginId : String) (specs : List Spec)
    (instance' : String → Option (Handler ρ)) (domains : List String) : Registrar ρ :=
  match r.app with
  | none => r
  | some app =>
    if r.mountedRoutes.any (·.1 = pluginId) then r
    else
      let added := specs.filterMap (mountSpec pluginId instance' domains)
      { app := some { app with regular := app.regular ++ added }
        mountedRoutes := r.mountedRoutes ++ [(pluginId,added.map fun route => (route.path,route.method))] }

def Endpoint.handler : Endpoint ρ → Handler ρ
  | .direct handler | .sinceWrapped handler | .authUrlGuarded handler _ => handler

theorem endpointFor_handler {method : String} {handler : Handler ρ} {domains : List String}
    {endpoint : Endpoint ρ} (found : endpointFor method handler domains = some endpoint) :
    endpoint.handler = handler := by
  unfold endpointFor at found
  split at found
  case h_2 =>
    obtain rfl := Option.some.inj found
    split <;> rfl
  case h_6 => cases found
  all_goals
    obtain rfl := Option.some.inj found
    rfl

theorem mountSpec_handler {pluginId : String} {instance' : String → Option (Handler ρ)}
    {domains : List String} {spec : Spec} {route : Route ρ}
    (added : mountSpec pluginId instance' domains spec = some route) :
    instance' spec.handler = some route.endpoint.handler := by
  obtain ⟨handler,named,rest⟩ := Option.bind_eq_some_iff.mp added
  obtain ⟨endpoint,found,same⟩ := Option.bind_eq_some_iff.mp rest
  obtain rfl := Option.some.inj same
  rw [named,endpointFor_handler found]

theorem invokeHandler_ran (world : World) (request : Request) (handler : Handler ρ) :
    (invokeHandler world request handler).handlerRan = true ↔
      solveDependencies world request handler.dependencies = .ok () := by
  unfold invokeHandler
  split
  case h_1 error failed => simp [Served.handlerRan,failed]
  case h_2 solved => simp [Served.handlerRan,solved]

/-- Through whichever wrapper, the handler runs when its own dependencies are solved,
unless the answer is that nothing changed. -/
theorem serve_ran (check : List String → ρ → Option HttpError) (world : World) (request : Request)
    (endpoint : Endpoint ρ) :
    ((serve check world request endpoint).handlerRan = true →
        solveDependencies world request endpoint.handler.dependencies = .ok ()) ∧
      (request.since = none →
        solveDependencies world request endpoint.handler.dependencies = .ok () →
        (serve check world request endpoint).handlerRan = true) := by
  have invoked := invokeHandler_ran world request endpoint.handler
  cases endpoint with
  | direct handler => exact ⟨invoked.mp,fun _ => invoked.mpr⟩
  | sinceWrapped handler =>
    constructor
    · intro ran
      simp only [serve,sinceAwareGet] at ran
      split at ran
      · cases ran
      · exact invoked.mp ran
    · intro plain solved
      have wrapped : serve check world request (.sinceWrapped handler) =
          invokeHandler world request handler := by simp [serve,sinceAwareGet,plain]
      rw [wrapped]
      exact invoked.mpr solved
  | authUrlGuarded handler domains =>
    have same : (serve check world request (.authUrlGuarded handler domains)).handlerRan =
        (invokeHandler world request handler).handlerRan := by
      simp only [serve,guarded]
      split
      case h_1 result ran => simp [ran,Served.handlerRan]
      case h_2 => rfl
    rw [same]
    exact ⟨invoked.mp,fun _ => invoked.mpr⟩

theorem solveDependencies_ok (world : World) (request : Request) (dependencies : List Dependency) :
    solveDependencies world request dependencies = .ok () ↔
      ∀ dependency ∈ dependencies, dependency.solve world request = .ok () := by
  induction dependencies with
  | nil => simp [solveDependencies]
  | cons dependency rest ih =>
    cases solved : dependency.solve world request with
    | error error => simp [solveDependencies,solved,Bind.bind,Except.bind]
    | ok => simpa [solveDependencies,solved,Bind.bind,Except.bind] using ih

theorem rolesHierarchy_bounds {role : String} {level : Nat} (known : rolesHierarchy role = some level) :
    1 ≤ level ∧ level ≤ 3 := by
  unfold rolesHierarchy at known
  split at known
  · cases known
    omega
  split at known
  · cases known
    omega
  split at known
  · cases known
    omega
  · cases known

variable {request : Request} {world : World} {roles : List String}

theorem getCurrentUser_level {claims : Claims}
    (authenticated : getCurrentUser world request = .ok claims) : 1 ≤ userLevel claims := by
  unfold getCurrentUser at authenticated
  split at authenticated
  · cases authenticated
  case h_2 token _ =>
    cases verified : verifyAccessToken world token with
    | error error =>
      rw [verified] at authenticated
      cases authenticated
    | ok verifiedClaims =>
      have same : verifiedClaims = claims := by
        rw [verified] at authenticated
        simp only [Bind.bind,Except.bind,checkAccount] at authenticated
        split at authenticated
        · cases authenticated
        split at authenticated
        · cases authenticated
        split at authenticated
        · cases authenticated
        split at authenticated
        · cases authenticated
        · exact Except.ok.inj authenticated
      subst same
      have known : (verifiedClaims.role.bind rolesHierarchy).isSome = true := by
        unfold verifyAccessToken at verified
        split at verified
        · cases verified
        · cases verified
        split at verified
        case isTrue sound =>
          obtain rfl := Except.ok.inj verified
          exact sound.2
        case isFalse => cases verified
      obtain ⟨level,found⟩ := Option.isSome_iff_exists.mp known
      obtain ⟨role,holds,level_of⟩ := Option.bind_eq_some_iff.mp found
      have bounds := rolesHierarchy_bounds level_of
      simp only [userLevel,holds,Option.getD_some,level_of]
      omega

/-- Every known role has a level, so its least one is between a viewer's and an
administrator's. -/
def KnownRoles (roles : List String) : Prop :=
  roles ≠ [] ∧ ∀ role ∈ roles, (rolesHierarchy role).isSome = true

theorem requiredLevel_some (nonempty : roles ≠ []) :
    ∃ level, requiredLevel roles = some level ∧ 1 ≤ level := by
  induction roles with
  | nil => exact absurd rfl nonempty
  | cons role rest ih =>
    have positive : 1 ≤ (rolesHierarchy role).getD 99 := by
      cases known : rolesHierarchy role with
      | none => simp
      | some level => exact (rolesHierarchy_bounds known).1
    refine ⟨_,rfl,?_⟩
    cases rest with
    | nil => exact positive
    | cons next others =>
      obtain ⟨level,least,bound⟩ := ih (by simp)
      rw [least]
      exact le_min positive bound

theorem requiredLevel_known (known : KnownRoles roles) :
    ∃ level, requiredLevel roles = some level ∧ 1 ≤ level ∧ level ≤ 3 := by
  obtain ⟨level,least,positive⟩ := requiredLevel_some known.1
  refine ⟨level,least,positive,?_⟩
  cases roles with
  | nil => exact absurd rfl known.1
  | cons role rest =>
    obtain ⟨own,found⟩ := Option.isSome_iff_exists.mp (known.2 role List.mem_cons_self)
    have bounds := rolesHierarchy_bounds found
    simp only [requiredLevel,found,Option.getD_some,Option.some.injEq] at least
    cases rest' : requiredLevel rest with
    | none =>
      rw [rest'] at least
      simp only [Option.elim_none] at least
      omega
    | some other =>
      rw [rest'] at least
      simp only [Option.elim_some] at least
      omega

/-- Whether a dependency of the handler's own asks at least what the roles ask: a user,
when they ask for a viewer, or roles whose least level is no lower. No user has a role
out of no roles. -/
def Dependency.Enforces (roles : List String) : Dependency → Prop
  | .provider _ => False
  | .currentUser => requiredLevel roles = some 1
  | .requireRole own => own = [] ∨
      ∃ declared required, requiredLevel roles = some declared ∧
        requiredLevel own = some required ∧ declared ≤ required

theorem solve_currentUser
    (solved : Dependency.currentUser.solve world request = .ok ()) :
    ∃ claims, getCurrentUser world request = .ok claims := by
  cases user : getCurrentUser world request with
  | ok claims => exact ⟨claims,rfl⟩
  | error error => simp [Dependency.solve,user,Except.map] at solved

theorem solve_requireRole {own : List String}
    (solved : (Dependency.requireRole own).solve world request = .ok ()) :
    ∃ claims level, getCurrentUser world request = .ok claims ∧ requiredLevel own = some level ∧
      level ≤ userLevel claims := by
  simp only [Dependency.solve,requireRole] at solved
  cases user : getCurrentUser world request with
  | error error => simp [user,Bind.bind,Except.bind,Except.map] at solved
  | ok claims =>
    cases least : requiredLevel own with
    | none => simp [user,least,Bind.bind,Except.bind,Except.map] at solved
    | some level =>
      refine ⟨claims,level,rfl,rfl,?_⟩
      by_contra low
      simp [user,least,Bind.bind,Except.bind,Except.map,Nat.lt_of_not_le low] at solved

/-- A dependency that enforces the roles lets nobody pass whom the batch check refuses. -/
theorem enforces_sound
    {dependency : Dependency} (enforces : dependency.Enforces roles)
    (solved : dependency.solve world request = .ok ()) :
    ∃ claims, getCurrentUser world request = .ok claims ∧ checkSubrequestRoles claims roles = true := by
  cases dependency with
  | provider name => exact enforces.elim
  | currentUser =>
    obtain ⟨claims,user⟩ := solve_currentUser solved
    have level := getCurrentUser_level user
    refine ⟨claims,user,?_⟩
    rw [checkSubrequestRoles,enforces]
    simpa using level
  | requireRole own =>
    obtain ⟨claims,level,user,least,reached⟩ := solve_requireRole solved
    obtain rfl | ⟨declared,required,asked,same,bound⟩ := enforces
    · cases least
    · refine ⟨claims,user,?_⟩
      obtain rfl := Option.some.inj (least.symm.trans same)
      rw [checkSubrequestRoles,asked]
      simpa using bound.trans reached

/-! A request that passes every dependency without enforcement. -/

def anonymous (method : String) : Request := ⟨method,"/",none,none,none⟩

def bearer (method : String) : Request := ⟨method,"/",some "token",none,none⟩

def worldOf (role : String) : World where
  decode := fun _ => .claims ⟨"u1",some "alice",some role,some "access"⟩
  users := fun _ => some ⟨true,false⟩
  auditCompromised := false
  resolves := fun _ _ => true
  sinceMatches := fun _ => false

theorem worldOf_user (role : String) (known : (rolesHierarchy role).isSome = true) (method : String) :
    getCurrentUser (worldOf role) (bearer method) =
      .ok ⟨"u1",some "alice",some role,some "access"⟩ := by
  have verified : verifyAccessToken (worldOf role) "token" =
      .ok ⟨"u1",some "alice",some role,some "access"⟩ := if_pos ⟨rfl,known⟩
  have user : getCurrentUser (worldOf role) (bearer method) =
      (verifyAccessToken (worldOf role) "token").bind fun claims =>
        if locked (worldOf role) (bearer method) claims then
          .error ⟨503,.str "System Locked: Security Compromised"⟩
        else checkAccount (worldOf role) (bearer method) claims := rfl
  rw [user,verified]
  rfl

/-- The user one level below the declared roles passes every dependency that does not
enforce them. -/
theorem below_passes {declared : Nat} {role : String}
    (asked : requiredLevel roles = some declared) (above : rolesHierarchy role = some (declared - 1))
    (higher : 1 < declared) (dependencies : List Dependency) (method : String)
    (unenforced : ∀ dependency ∈ dependencies, ¬ dependency.Enforces roles) :
    solveDependencies (worldOf role) (bearer method) dependencies = .ok () := by
  have user := worldOf_user role (by rw [above]; rfl) method
  apply (solveDependencies_ok _ _ _).mpr
  intro dependency member
  cases dependency with
  | provider name => rfl
  | currentUser => simp [Dependency.solve,user,Except.map]
  | requireRole own =>
    have weak := unenforced _ member
    have nonempty : own ≠ [] := fun empty => weak (.inl empty)
    obtain ⟨required,least,_⟩ := requiredLevel_some nonempty
    have lower : ¬ declared ≤ required := fun bound =>
      weak (.inr ⟨declared,required,asked,least,bound⟩)
    have passes : ¬ (rolesHierarchy role).getD 0 < required := by
      rw [above,Option.getD_some]
      omega
    simp [Dependency.solve,requireRole,user,least,userLevel,passes,Bind.bind,Except.bind,Except.map]

/-- When a viewer is enough, a dependency that does not enforce it looks at no user. -/
theorem viewer_passes (asked : requiredLevel roles = some 1)
    (dependencies : List Dependency) (method : String)
    (unenforced : ∀ dependency ∈ dependencies, ¬ dependency.Enforces roles) :
    solveDependencies (worldOf "viewer") (anonymous method) dependencies = .ok () := by
  apply (solveDependencies_ok _ _ _).mpr
  intro dependency member
  have weak := unenforced _ member
  cases dependency with
  | provider name => rfl
  | currentUser => exact absurd asked weak
  | requireRole own =>
    refine absurd ?_ weak
    by_cases empty : own = []
    · exact .inl empty
    · obtain ⟨required,least,positive⟩ := requiredLevel_some empty
      exact .inr ⟨1,required,asked,least,positive⟩

theorem level_role (level : Nat) (lower : 1 ≤ level) (upper : level ≤ 2) :
    ∃ role, rolesHierarchy role = some level := by
  obtain rfl | rfl : level = 1 ∨ level = 2 := by omega
  · exact ⟨"viewer",rfl⟩
  · exact ⟨"operator",rfl⟩

theorem mount_adds (r : Registrar ρ) (pluginId : String) (specs : List Spec)
    (instance' : String → Option (Handler ρ)) (domains : List String) (app : App ρ)
    (set : r.app = some app) (first : r.mountedRoutes.any (·.1 = pluginId) = false) :
    (r.mount pluginId specs instance' domains).app = some { app with
      regular := app.regular ++ specs.filterMap (mountSpec pluginId instance' domains) } := by
  simp [Registrar.mount,set,first]

/-- Only whom the declared roles admit gets to the handler, for every request and whatever
it finds, if and only if a dependency of the handler enforces them. -/
theorem mountSpec_guarded (check : List String → ρ → Option HttpError) (pluginId : String)
    (instance' : String → Option (Handler ρ)) (domains : List String) (spec : Spec) (route : Route ρ)
    (known : KnownRoles spec.roles)
    (added : mountSpec pluginId instance' domains spec = some route) :
    (∀ world request, request.method = route.method →
        (serve check world request route.endpoint).handlerRan = true →
        ∃ claims, getCurrentUser world request = .ok claims ∧
          checkSubrequestRoles claims spec.roles = true) ↔
      ∃ handler, instance' spec.handler = some handler ∧
        ∃ dependency ∈ handler.dependencies, dependency.Enforces spec.roles := by
  have named := mountSpec_handler added
  constructor
  · intro guarded
    by_contra unguarded
    have unenforced : ∀ dependency ∈ route.endpoint.handler.dependencies,
        ¬ dependency.Enforces spec.roles := fun dependency member enforces =>
      unguarded ⟨_,named,dependency,member,enforces⟩
    obtain ⟨declared,asked,lower,upper⟩ := requiredLevel_known known
    by_cases viewer : declared = 1
    · subst viewer
      have solved := viewer_passes asked _ route.method unenforced
      have ran := (serve_ran check (worldOf "viewer") (anonymous route.method) route.endpoint).2 rfl solved
      obtain ⟨claims,user,_⟩ := guarded _ _ rfl ran
      cases user
    · obtain ⟨role,below⟩ := level_role (declared - 1) (by omega) (by omega)
      have solved := below_passes asked below (by omega) _ route.method unenforced
      have ran := (serve_ran check (worldOf role) (bearer route.method) route.endpoint).2 rfl solved
      obtain ⟨claims,user,allowed⟩ := guarded _ _ rfl ran
      rw [worldOf_user role (by rw [below]; rfl)] at user
      obtain rfl := Except.ok.inj user
      rw [checkSubrequestRoles,asked] at allowed
      simp only [userLevel,Option.getD_some,below,Option.any_some,decide_eq_true_eq] at allowed
      omega
  · rintro ⟨handler,same,dependency,member,enforces⟩ world request _ ran
    obtain rfl := Option.some.inj (named.symm.trans same)
    have solved := (serve_ran check world request route.endpoint).1 ran
    exact enforces_sound enforces ((solveDependencies_ok _ _ _).mp solved dependency member)

/-- Every route that `mount` adds for known roles admits only whom they admit if and only
if a dependency of its handler enforces them; `mount` itself reads no roles. -/
theorem mounted_route_guarded (check : List String → ρ → Option HttpError) (r : Registrar ρ)
    (app : App ρ) (pluginId : String) (specs : List Spec) (instance' : String → Option (Handler ρ))
    (domains : List String) (set : r.app = some app)
    (first : r.mountedRoutes.any (·.1 = pluginId) = false) :
    ∃ added, (r.mount pluginId specs instance' domains).app =
        some { app with regular := app.regular ++ added } ∧
      (∀ route ∈ added, ∃ spec ∈ specs, mountSpec pluginId instance' domains spec = some route) ∧
      ∀ spec ∈ specs, ∀ route, mountSpec pluginId instance' domains spec = some route →
        KnownRoles spec.roles →
        ((∀ world request, request.method = route.method →
            (serve check world request route.endpoint).handlerRan = true →
            ∃ claims, getCurrentUser world request = .ok claims ∧
              checkSubrequestRoles claims spec.roles = true) ↔
          ∃ handler, instance' spec.handler = some handler ∧
            ∃ dependency ∈ handler.dependencies, dependency.Enforces spec.roles) := by
  refine ⟨_,mount_adds r pluginId specs instance' domains app set first,fun route member => ?_,
    fun spec _ route added known =>
      mountSpec_guarded check pluginId instance' domains spec route known added⟩
  exact List.mem_filterMap.mp member

def listServicesRoute : Spec :=
  route "/services" "GET" (some ["admin","operator"]) "list_services_route"

def systemd (services : Request → Except HttpError Json) : String → Option (Handler Json)
  | "list_services_route" => some ⟨[.provider "node_id",.provider "force_refresh",
      .provider "get_node_manager",.provider "get_worker_query_port",.provider "get_db"],services⟩
  | _ => none

theorem mounted_route_guarded_systemd :
    ∃ route : Route Json, ¬ ∀ world request, request.method = route.method →
      (serve (fun _ _ => none) world request route.endpoint).handlerRan = true →
      ∃ claims, getCurrentUser world request = .ok claims ∧
        checkSubrequestRoles claims listServicesRoute.roles = true := by
  obtain ⟨_,_,_,guarded⟩ := mounted_route_guarded (fun _ _ => none) ⟨some ⟨[],[]⟩,[]⟩ ⟨[],[]⟩
    "systemd" [listServicesRoute] (systemd fun _ => .ok .null) [] rfl rfl
  have known : KnownRoles listServicesRoute.roles := ⟨by decide,by decide⟩
  obtain ⟨route,added⟩ : ∃ route, mountSpec "systemd" (systemd fun _ => .ok .null) []
      listServicesRoute = some route := ⟨_,rfl⟩
  refine ⟨route,fun admits => ?_⟩
  obtain ⟨handler,named,dependency,member,enforces⟩ :=
    (guarded listServicesRoute List.mem_cons_self route added known).mp admits
  obtain rfl := Option.some.inj named
  simp only [List.mem_cons,List.not_mem_nil,or_false] at member
  obtain rfl | rfl | rfl | rfl | rfl := member <;> exact enforces

/-- Nobody in particular reads the services of a node. -/
theorem list_services_open :
    ¬ ∀ (route : Route Json) (world : World) (request : Request),
      mountSpec "systemd" (systemd fun _ => .ok .null) [] listServicesRoute = some route →
      request.method = route.method →
      (serve (fun _ _ => none) world request route.endpoint).handlerRan = true →
      ∃ claims, getCurrentUser world request = .ok claims ∧
        checkSubrequestRoles claims listServicesRoute.roles = true := by
  intro every
  obtain ⟨claims,user,_⟩ := every _ (worldOf "viewer") (anonymous "GET") rfl rfl rfl
  cases user

end Vigile.RouteRegistrar
