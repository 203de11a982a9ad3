import Mathlib.Data.List.Induction
import Vigile.DBAuto

/-! The two models of a plugin's manifest, the migration of a manifest from the first to the second, and the
discovery of plugins by their manifests. -/
namespace Vigile.PluginManifest

open Python

/-- What pydantic makes of texts: stripped, read as an integer or a truth value, and the digits of a pattern. -/
structure Pydantic where
  trim : String → String
  intText : String → Option Int
  boolText : String → Option Bool
  isDigit : Char → Bool

def required {α : Type} (fields : Fields) (key : String) (validate : Json → Option α) : Option α :=
  (fields.lookup key).bind validate

def defaulted {α : Type} (fields : Fields) (key : String) (validate : Json → Option α) (default : α) : Option α :=
  match fields.lookup key with
  | none => some default
  | some value => validate value

/-- `extra="forbid"` -/
def onlyKeys (keys : List String) (fields : Fields) : Bool := fields.all fun field => keys.contains field.1

def nullable {α : Type} (validate : Json → Option α) : Json → Option (Option α)
  | .null => some none
  | value => (validate value).map some

def listOf {α : Type} (validate : Json → Option α) : Json → Option (List α)
  | .array items => items.mapM validate
  | _ => none

def objectOf {α : Type} (validate : Fields → Option α) : Json → Option α
  | .object fields => validate fields
  | _ => none

def text : Json → Option String
  | .str value => some value
  | _ => none

def filled (value : String) : Option String := if value = "" then none else some value

section
variable (py : Pydantic)

def trimmed (value : Json) : Option String := (text value).map py.trim

def laxInt : Json → Option Int
  | .num value => if value.den = 1 then some value.num else none
  | .bool value => some (if value then 1 else 0)
  | .str value => py.intText value
  | _ => none

def laxBool : Json → Option Bool
  | .bool value => some value
  | .num value => if value = 0 then some false else if value = 1 then some true else none
  | .str value => py.boolText value
  | _ => none

/-- Of keys that are equal once stripped the later value counts, in the place of the first. -/
def setKey {α : Type} (entries : List (String × α)) (key : String) (value : α) : List (String × α) :=
  if entries.any (·.1 = key) then entries.map fun entry => if entry.1 = key then (key,value) else entry
  else entries ++ [(key,value)]

def strippedKeys {α : Type} (entries : List (String × α)) : List (String × α) :=
  entries.foldl (fun done entry => setKey done (py.trim entry.1) entry.2) []

def dictOf {α : Type} (validate : Json → Option α) : Json → Option (List (String × α))
  | .object fields => (fields.mapM fun field => (validate field.2).map (field.1,·)).map (strippedKeys py)
  | _ => none

def manifestId (value : Json) : Option String :=
  (trimmed py value).bind fun id => if DBAuto.isManifestId id then some id else none

/-- `^\d+\.\d+\.\d+$` -/
def isVersion (version : String) : Bool :=
  let numbers := version.toList.splitOn '.'
  numbers.length = 3 && numbers.all fun number => number ≠ [] && number.all py.isDigit

def versionText (value : Json) : Option String :=
  (trimmed py value).bind fun version => if isVersion py version then some version else none

structure Route where
  path : String
  method : String
  handler : String
  roles : List String
  deriving DecidableEq

structure Page where
  id : String
  title : String
  component : String
  sidebar : Bool
  params : List String
  roles : List String
  deriving DecidableEq

structure Schedule where
  name : String
  intervalSecs : Int
  handler : String

def routeKeys : List String := ["path","method","handler","roles"]

/-- `RouteSpec`, which ignores other keys. -/
def routeSpec (fields : Fields) : Option Route := do
  let path ← required fields "path" text
  let method ← required fields "method" text
  let handler ← required fields "handler" text
  let roles ← defaulted fields "roles" (listOf text) []
  some ⟨path,method,handler,roles⟩

def routeV2 (fields : Fields) : Option Route := if onlyKeys routeKeys fields then routeSpec fields else none

/-- `_PAGE_V2_FIELDS` -/
def pageKeys : List String := ["id","title","component","sidebar","params","roles"]

def manifestPage (fields : Fields) : Option Page := do
  let id ← required fields "id" text
  let title ← required fields "title" fun value => (text value).bind filled
  let component ← required fields "component" text
  let sidebar ← defaulted fields "sidebar" (laxBool py) false
  let params ← defaulted fields "params" (listOf text) []
  let roles ← defaulted fields "roles" (listOf text) []
  some ⟨id,title,component,sidebar,params,roles⟩

def pageV2 (fields : Fields) : Option Page := if onlyKeys pageKeys fields then manifestPage py fields else none

def columnSpec (fields : Fields) : Option DBAuto.Column := do
  let name ← required fields "name" text
  let type ← required fields "type" text
  let pk ← defaulted fields "pk" (laxBool py) false
  let notNull ← defaulted fields "not_null" (laxBool py) false
  some ⟨name,type,pk,notNull,fields.get "default"⟩

def scheduleSpec (fields : Fields) : Option Schedule := do
  let name ← required fields "name" text
  let intervalSecs ← required fields "interval_secs" fun value =>
    (laxInt py value).bind fun seconds => if 1 ≤ seconds then some seconds else none
  let handler ← required fields "handler" text
  some ⟨name,intervalSecs,handler⟩

structure Manifest where
  schemaVersion : Option Int
  id : String
  name : String
  version : String
  author : Option String
  description : Option String
  descriptionShort : Option String
  icon : Option String
  loader : Option String
  category : Option String
  routes : List Route
  hooks : List String
  database : List (String × List DBAuto.Column)
  scheduler : List Schedule
  pages : List Page
  copilotActions : List (String × Fields)
  configSchema : Fields
  minMasterVersion : Option String
  trusted : Bool
  externalAuthDomains : Option (List String)

def manifestKeys : List String :=
  ["schema_version","id","name","version","author","description","description_short","icon","loader","category",
    "routes","hooks","database","scheduler","pages","copilot_actions","config_schema","min_master_version","trusted",
    "external_auth_domains"]

def anyValue (value : Json) : Option Json := some value

def pluginManifest (raw : Fields) : Option Manifest := do
  guard (onlyKeys manifestKeys raw = true)
  let schemaVersion ← defaulted raw "schema_version" (nullable (laxInt py)) none
  let id ← required raw "id" (manifestId py)
  let name ← required raw "name" fun value => (trimmed py value).bind filled
  let version ← required raw "version" (versionText py)
  let author ← defaulted raw "author" (nullable (trimmed py)) none
  let description ← defaulted raw "description" (nullable (trimmed py)) none
  let descriptionShort ← defaulted raw "description_short" (nullable (trimmed py)) none
  let icon ← defaulted raw "icon" (nullable (trimmed py)) none
  let loader ← defaulted raw "loader" (nullable (trimmed py)) none
  let category ← defaulted raw "category" (nullable (trimmed py)) none
  let routes ← defaulted raw "routes" (listOf (objectOf routeSpec)) []
  let hooks ← defaulted raw "hooks" (listOf (trimmed py)) []
  let database ← defaulted raw "database" (dictOf py (listOf (objectOf (columnSpec py)))) []
  let scheduler ← defaulted raw "scheduler" (listOf (objectOf (scheduleSpec py))) []
  let pages ← defaulted raw "pages" (listOf (objectOf (manifestPage py))) []
  let copilotActions ← defaulted raw "copilot_actions" (dictOf py (dictOf py anyValue)) []
  let configSchema ← defaulted raw "config_schema" (dictOf py anyValue) []
  let minMasterVersion ← defaulted raw "min_master_version" (nullable (trimmed py)) none
  let trusted ← defaulted raw "trusted" (laxBool py) false
  let externalAuthDomains ← defaulted raw "external_auth_domains" (nullable (listOf (trimmed py))) none
  some ⟨schemaVersion,id,name,version,author,description,descriptionShort,icon,loader,category,routes,hooks,database,
    scheduler,pages,copilotActions,configSchema,minMasterVersion,trusted,externalAuthDomains⟩

structure Permission where
  name : String
  description : Option String

structure ManifestV2 where
  schemaVersion : Int
  id : String
  version : String
  hooks : List String
  pages : List Page
  routes : List Route
  configSchema : Option Fields
  permissions : Option (List Permission)
  externalAuthDomains : Option (List String)

def permissionV2 (fields : Fields) : Option Permission :=
  if onlyKeys ["name","description"] fields then do
    let name ← required fields "name" text
    let description ← defaulted fields "description" (nullable text) none
    some ⟨name,description⟩
  else none

def manifestV2Keys : List String :=
  ["schema_version","id","version","hooks","pages","routes","config_schema","permissions","external_auth_domains"]

/-- `PluginManifestV2.model_validate`; the keys of `dict` are any and stay as they are. -/
def pluginManifestV2 (raw : Fields) : Option ManifestV2 := do
  guard (onlyKeys manifestV2Keys raw = true)
  let schemaVersion ← defaulted raw "schema_version" (laxInt py) 2
  let id ← required raw "id" (manifestId py)
  let version ← required raw "version" (versionText py)
  let hooks ← defaulted raw "hooks" (listOf (trimmed py)) []
  let pages ← defaulted raw "pages" (listOf (objectOf (pageV2 py))) []
  let routes ← defaulted raw "routes" (listOf (objectOf routeV2)) []
  let configSchema ← defaulted raw "config_schema" (nullable (objectOf some)) none
  let permissions ← defaulted raw "permissions" (nullable (listOf (objectOf permissionV2))) none
  let externalAuthDomains ← defaulted raw "external_auth_domains" (nullable (listOf (trimmed py))) none
  some ⟨schemaVersion,id,version,hooks,pages,routes,configSchema,permissions,externalAuthDomains⟩

def pick (keys : List String) (fields : Fields) : Fields := keys.filterMap fun key => (fields.lookup key).map (key,·)

def migrateV1Page : Json → Json
  | .object fields => .object (pick pageKeys fields)
  | other => other

def migratedPages : Json → Json
  | .array pages => .array (pages.map migrateV1Page)
  | other => other

def copiedKeys : List String := ["id","version","hooks","routes","config_schema","permissions","external_auth_domains"]

def migrateV1ToV2 (data : Fields) : Fields :=
  ("schema_version",.num 2) :: (pick copiedKeys data ++ (pick ["pages"] data).map fun field => (field.1,migratedPages field.2))

/-- The version is 1 where there is none, and has to be an integer. -/
def schemaVersion (raw : Fields) : Option Int :=
  match raw.lookup "schema_version" with
  | none => some 1
  | some (.num version) => if version.den = 1 then some version.num else none
  | some _ => none

def loadAndValidateManifest (raw : Fields) : Option ManifestV2 :=
  match schemaVersion raw with
  | some 2 => pluginManifestV2 py raw
  | some 1 => pluginManifestV2 py (migrateV1ToV2 raw)
  | _ => none

/-- The fields that both models have say the same; a schema that is absent is empty. -/
structure Agrees (v1 : Manifest) (v2 : ManifestV2) : Prop where
  id : v2.id = v1.id
  version : v2.version = v1.version
  hooks : v2.hooks = v1.hooks
  routes : v2.routes = v1.routes
  pages : v2.pages = v1.pages
  configSchema : strippedKeys py (v2.configSchema.getD []) = v1.configSchema
  externalAuthDomains : v2.externalAuthDomains = v1.externalAuthDomains

/-- The keys of a dict, without blanks around them. -/
def CleanKeys (entries : Fields) : Prop :=
  (∀ entry ∈ entries, py.trim entry.1 = entry.1) ∧ (entries.map Prod.fst).Nodup

def OnlyRouteKeys (raw : Fields) : Prop :=
  ∀ items, raw.lookup "routes" = some (.array items) → ∀ fields, .object fields ∈ items → onlyKeys routeKeys fields = true

end

variable {py : Pydantic} {raw fields : Fields} {v1 : Manifest} {v2 : ManifestV2} {items : List Json}

/-- The fields of the first model that the second has too. -/
structure Read (py : Pydantic) (raw : Fields) (v1 : Manifest) : Prop where
  keys : onlyKeys manifestKeys raw = true
  id : required raw "id" (manifestId py) = some v1.id
  version : required raw "version" (versionText py) = some v1.version
  routes : defaulted raw "routes" (listOf (objectOf routeSpec)) [] = some v1.routes
  hooks : defaulted raw "hooks" (listOf (trimmed py)) [] = some v1.hooks
  pages : defaulted raw "pages" (listOf (objectOf (manifestPage py))) [] = some v1.pages
  configSchema : defaulted raw "config_schema" (dictOf py anyValue) [] = some v1.configSchema
  externalAuthDomains :
    defaulted raw "external_auth_domains" (nullable (listOf (trimmed py))) none = some v1.externalAuthDomains

variable {α : Type} {routes : List Route} {key : String}

theorem guard_bind {condition : Prop} [Decidable condition] {next : Option α} {result : α} :
    (guard condition >>= fun _ => next) = some result ↔ condition ∧ next = some result := by
  by_cases holds : condition <;> simp [guard,holds]

theorem read_of_pluginManifest (accepted : pluginManifest py raw = some v1) : Read py raw v1 := by
  unfold pluginManifest at accepted
  rw [guard_bind] at accepted
  obtain ⟨keys,accepted⟩ := accepted
  obtain ⟨schemaVersion,-,accepted⟩ := Option.bind_eq_some_iff.mp accepted
  obtain ⟨id,idRead,accepted⟩ := Option.bind_eq_some_iff.mp accepted
  obtain ⟨name,-,accepted⟩ := Option.bind_eq_some_iff.mp accepted
  obtain ⟨version,versionRead,accepted⟩ := Option.bind_eq_some_iff.mp accepted
  obtain ⟨author,-,accepted⟩ := Option.bind_eq_some_iff.mp accepted
  obtain ⟨description,-,accepted⟩ := Option.bind_eq_some_iff.mp accepted
  obtain ⟨descriptionShort,-,accepted⟩ := Option.bind_eq_some_iff.mp accepted
  obtain ⟨icon,-,accepted⟩ := Option.bind_eq_some_iff.mp accepted
  obtain ⟨loader,-,accepted⟩ := Option.bind_eq_some_iff.mp accepted
  obtain ⟨category,-,accepted⟩ := Option.bind_eq_some_iff.mp accepted
  obtain ⟨routes,routesRead,accepted⟩ := Option.bind_eq_some_iff.mp accepted
  obtain ⟨hooks,hooksRead,accepted⟩ := Option.bind_eq_some_iff.mp accepted
  obtain ⟨database,-,accepted⟩ := Option.bind_eq_some_iff.mp accepted
  obtain ⟨scheduler,-,accepted⟩ := Option.bind_eq_some_iff.mp accepted
  obtain ⟨pages,pagesRead,accepted⟩ := Option.bind_eq_some_iff.mp accepted
  obtain ⟨copilotActions,-,accepted⟩ := Option.bind_eq_some_iff.mp accepted
  obtain ⟨configSchema,configRead,accepted⟩ := Option.bind_eq_some_iff.mp accepted
  obtain ⟨minMasterVersion,-,accepted⟩ := Option.bind_eq_some_iff.mp accepted
  obtain ⟨trusted,-,accepted⟩ := Option.bind_eq_some_iff.mp accepted
  obtain ⟨domains,domainsRead,accepted⟩ := Option.bind_eq_some_iff.mp accepted
  obtain rfl := Option.some.inj accepted
  exact ⟨keys,idRead,versionRead,routesRead,hooksRead,pagesRead,configRead,domainsRead⟩

structure ReadV2 (py : Pydantic) (raw : Fields) (v2 : ManifestV2) : Prop where
  keys : onlyKeys manifestV2Keys raw = true
  schemaVersion : defaulted raw "schema_version" (laxInt py) 2 = some v2.schemaVersion
  id : required raw "id" (manifestId py) = some v2.id
  version : required raw "version" (versionText py) = some v2.version
  hooks : defaulted raw "hooks" (listOf (trimmed py)) [] = some v2.hooks
  pages : defaulted raw "pages" (listOf (objectOf (pageV2 py))) [] = some v2.pages
  routes : defaulted raw "routes" (listOf (objectOf routeV2)) [] = some v2.routes
  configSchema : defaulted raw "config_schema" (nullable (objectOf some)) none = some v2.configSchema
  permissions : defaulted raw "permissions" (nullable (listOf (objectOf permissionV2))) none = some v2.permissions
  externalAuthDomains :
    defaulted raw "external_auth_domains" (nullable (listOf (trimmed py))) none = some v2.externalAuthDomains

theorem pluginManifestV2_iff : pluginManifestV2 py raw = some v2 ↔ ReadV2 py raw v2 := by
  unfold pluginManifestV2
  rw [guard_bind]
  simp only [Option.bind_eq_bind,Option.bind_eq_some_iff]
  constructor
  · rintro ⟨keys,schemaVersion,versionRead,id,idRead,version,textRead,hooks,hooksRead,pages,pagesRead,routes,routesRead,
      configSchema,configRead,permissions,permissionsRead,domains,domainsRead,built⟩
    obtain rfl := Option.some.inj built
    exact ⟨keys,versionRead,idRead,textRead,hooksRead,pagesRead,routesRead,configRead,permissionsRead,domainsRead⟩
  · rintro ⟨keys,schemaVersion,id,version,hooks,pages,routes,configSchema,permissions,domains⟩
    exact ⟨keys,_,schemaVersion,_,id,_,version,_,hooks,_,pages,_,routes,_,configSchema,_,permissions,_,domains,rfl⟩

theorem mapM_routeV2 (only : ∀ fields, .object fields ∈ items → onlyKeys routeKeys fields = true) :
    items.mapM (objectOf routeV2) = items.mapM (objectOf routeSpec) := by
  induction items with
  | nil => rfl
  | cons item rest ih =>
    have same : objectOf routeV2 item = objectOf routeSpec item := by
      cases item with
      | object fields => simp only [objectOf,routeV2,only fields List.mem_cons_self,if_true]
      | _ => rfl
    rw [List.mapM_cons,List.mapM_cons,same,ih fun fields member => only fields (List.mem_cons_of_mem _ member)]

theorem onlyKeys_of_routeV2 (accepted : items.mapM (objectOf routeV2) = some routes) :
    ∀ fields, .object fields ∈ items → onlyKeys routeKeys fields = true := by
  induction items generalizing routes with
  | nil => simp
  | cons item rest ih =>
    rw [List.mapM_cons] at accepted
    simp only [Option.bind_eq_bind,Option.bind_eq_some_iff] at accepted
    obtain ⟨route,first,others,later,-⟩ := accepted
    intro fields member
    rcases List.mem_cons.mp member with rfl | member
    · by_contra extra
      simp [objectOf,routeV2,extra] at first
    · exact ih later fields member

theorem lookup_pick (keys : List String) (fields : Fields) (key : String) :
    (pick keys fields).lookup key = if key ∈ keys then fields.lookup key else none := by
  induction keys with
  | nil => rfl
  | cons first keys ih =>
    unfold pick at ih ⊢
    by_cases same : key = first
    · subst same
      cases found : fields.lookup key with
      | none => simp [found,ih]
      | some value => simp [found]
    · have differs : (key == first) = false := by simpa using same
      cases found : fields.lookup first with
      | none => simp [found,ih,same]
      | some value => simp [found,List.lookup_cons,differs,ih,same]

theorem onlyKeys_pick (keys : List String) (fields : Fields) : onlyKeys keys (pick keys fields) = true := by
  simp only [onlyKeys,List.all_eq_true,List.contains_iff_mem]
  intro field member
  obtain ⟨key,inside,found⟩ := List.mem_filterMap.mp member
  obtain ⟨value,-,rfl⟩ := Option.map_eq_some_iff.mp found
  exact inside

/-- A page of the first model is one of the second once its other keys are dropped. -/
theorem pageV2_pick (fields : Fields) : pageV2 py (pick pageKeys fields) = manifestPage py fields := by
  have kept (key : String) (inside : key ∈ pageKeys) : (pick pageKeys fields).lookup key = fields.lookup key := by
    rw [lookup_pick,if_pos inside]
  unfold pageV2 manifestPage
  rw [if_pos (onlyKeys_pick _ _)]
  unfold required defaulted
  rw [kept "id" (by decide),kept "title" (by decide),kept "component" (by decide),kept "sidebar" (by decide),
    kept "params" (by decide),kept "roles" (by decide)]

theorem mapM_pageV2 : (items.map migrateV1Page).mapM (objectOf (pageV2 py)) = items.mapM (objectOf (manifestPage py)) := by
  induction items with
  | nil => rfl
  | cons item rest ih =>
    have same : objectOf (pageV2 py) (migrateV1Page item) = objectOf (manifestPage py) item := by
      cases item with
      | object fields => exact pageV2_pick fields
      | _ => rfl
    rw [List.map_cons,List.mapM_cons,List.mapM_cons,same,ih]

theorem lookup_copied (copied : key ∈ copiedKeys) : (migrateV1ToV2 raw).lookup key = raw.lookup key := by
  have differs : (key == "schema_version") = false := by
    simp only [copiedKeys,List.mem_cons,List.not_mem_nil,or_false] at copied
    rcases copied with rfl | rfl | rfl | rfl | rfl | rfl | rfl <;> decide
  have notPages : key ≠ "pages" := by
    rintro rfl
    exact absurd copied (by decide)
  have noPages : ((pick ["pages"] raw).map fun field => (field.1,migratedPages field.2)).lookup key = none := by
    simp only [pick,List.filterMap_cons,List.filterMap_nil]
    cases raw.lookup "pages" <;> simp [notPages]
  unfold migrateV1ToV2
  rw [List.lookup_cons,differs]
  simp [List.lookup_append,lookup_pick,if_pos copied,noPages]

theorem lookup_pages : (migrateV1ToV2 raw).lookup "pages" = (raw.lookup "pages").map migratedPages := by
  have notCopied : (pick copiedKeys raw).lookup "pages" = none := by rw [lookup_pick,if_neg (by decide)]
  have differs : ("pages" == "schema_version") = false := by decide
  unfold migrateV1ToV2
  rw [List.lookup_cons,differs]
  dsimp only
  rw [List.lookup_append,notCopied,Option.none_or]
  simp only [pick,List.filterMap_cons,List.filterMap_nil]
  cases raw.lookup "pages" <;> simp

theorem onlyKeys_migrated : onlyKeys manifestV2Keys (migrateV1ToV2 raw) = true := by
  simp only [onlyKeys,List.all_eq_true,List.contains_iff_mem,migrateV1ToV2]
  intro field member
  rcases List.mem_cons.mp member with rfl | member
  · exact (by decide : "schema_version" ∈ manifestV2Keys)
  rcases List.mem_append.mp member with member | member
  · obtain ⟨key,inside,found⟩ := List.mem_filterMap.mp member
    obtain ⟨value,-,rfl⟩ := Option.map_eq_some_iff.mp found
    exact (by decide : ∀ key ∈ copiedKeys, key ∈ manifestV2Keys) key inside
  · obtain ⟨page,inside,rfl⟩ := List.mem_map.mp member
    obtain ⟨key,pages,found⟩ := List.mem_filterMap.mp inside
    obtain ⟨value,-,rfl⟩ := Option.map_eq_some_iff.mp found
    exact (by decide : ∀ key ∈ ["pages"], key ∈ manifestV2Keys) key pages

theorem required_copied (copied : key ∈ copiedKeys) (validate : Json → Option α) :
    required (migrateV1ToV2 raw) key validate = required raw key validate := by
  unfold required
  rw [lookup_copied copied]

theorem defaulted_copied (copied : key ∈ copiedKeys) (validate : Json → Option α) (default : α) :
    defaulted (migrateV1ToV2 raw) key validate default = defaulted raw key validate default := by
  unfold defaulted
  rw [lookup_copied copied]

theorem defaulted_pages : defaulted (migrateV1ToV2 raw) "pages" (listOf (objectOf (pageV2 py))) [] =
    defaulted raw "pages" (listOf (objectOf (manifestPage py))) [] := by
  unfold defaulted
  rw [lookup_pages]
  cases raw.lookup "pages" with
  | none => rfl
  | some value =>
    cases value with
    | array items => exact mapM_pageV2
    | _ => rfl

/-- The routes of the first model are those of the second where none has another key. -/
theorem defaulted_routes (only : OnlyRouteKeys raw) :
    defaulted raw "routes" (listOf (objectOf routeV2)) [] = defaulted raw "routes" (listOf (objectOf routeSpec)) [] := by
  unfold defaulted
  cases found : raw.lookup "routes" with
  | none => rfl
  | some value =>
    cases value with
    | array items => exact mapM_routeV2 (only items found)
    | _ => rfl

theorem onlyRouteKeys_of_defaulted
    (accepted : defaulted raw "routes" (listOf (objectOf routeV2)) [] = some routes) : OnlyRouteKeys raw := by
  intro items found
  unfold defaulted at accepted
  rw [found] at accepted
  exact onlyKeys_of_routeV2 accepted

/-- The schema of the first model is that of the second, its keys stripped. -/
theorem defaulted_configSchema {schema : Fields} (accepted : defaulted raw "config_schema" (dictOf py anyValue) [] = some schema) :
    ∃ found, defaulted raw "config_schema" (nullable (objectOf some)) none = some found ∧
      strippedKeys py (found.getD []) = schema := by
  unfold defaulted at accepted ⊢
  cases present : raw.lookup "config_schema" with
  | none =>
    rw [present] at accepted
    exact ⟨none,rfl,Option.some.inj accepted⟩
  | some value =>
    rw [present] at accepted
    cases value with
    | object fields =>
      have all (fields : Fields) : (fields.mapM fun field => (anyValue field.2).map (field.1,·)) = some fields := by
        induction fields with
        | nil => rfl
        | cons field rest ih =>
          rw [List.mapM_cons,ih]
          rfl
      simp only [dictOf,all,Option.map_some] at accepted
      exact ⟨some fields,rfl,Option.some.inj accepted⟩
    | _ => simp [dictOf] at accepted

/-- Keys without blanks around them stay as they are. -/
theorem strippedKeys_clean {entries : Fields} (clean : ∀ entry ∈ entries, py.trim entry.1 = entry.1)
    (unique : (entries.map Prod.fst).Nodup) : strippedKeys py entries = entries := by
  induction entries using List.reverseRecOn with
  | nil => rfl
  | append_singleton entries last ih =>
    rw [List.map_append,List.nodup_append] at unique
    obtain ⟨front,-,apart⟩ := unique
    have earlier := ih (fun entry member => clean entry (List.mem_append_left _ member)) front
    unfold strippedKeys at earlier ⊢
    rw [List.foldl_append,earlier,List.foldl_cons,List.foldl_nil,clean last (by simp),setKey,if_neg]
    intro known
    obtain ⟨entry,inside,same⟩ := List.any_eq_true.mp known
    exact apart entry.1 (List.mem_map_of_mem inside) last.1 (by simp) (of_decide_eq_true same)

theorem no_permissions (keys : onlyKeys manifestKeys raw = true) : raw.lookup "permissions" = none := by
  cases found : raw.lookup "permissions" with
  | none => rfl
  | some value =>
    obtain ⟨front,back,rfl,-⟩ := List.lookup_eq_some_iff.mp found
    have known := List.all_eq_true.mp keys ("permissions",value) (by simp)
    have unknown : ¬manifestKeys.contains "permissions" = true := by decide
    exact absurd known unknown

theorem agrees_of_read (read : Read py raw v1) (accepted : ReadV2 py (migrateV1ToV2 raw) v2) :
    Agrees py v1 v2 ∧ OnlyRouteKeys raw := by
  have routes := accepted.routes
  have config := accepted.configSchema
  rw [defaulted_copied (by decide)] at routes config
  have only := onlyRouteKeys_of_defaulted routes
  rw [defaulted_routes only,read.routes] at routes
  obtain ⟨found,sameFound,stripped⟩ := defaulted_configSchema read.configSchema
  rw [sameFound] at config
  refine ⟨⟨?_,?_,?_,(Option.some.inj routes).symm,?_,?_,?_⟩,only⟩
  · have id := accepted.id
    rw [required_copied (by decide),read.id] at id
    exact (Option.some.inj id).symm
  · have version := accepted.version
    rw [required_copied (by decide),read.version] at version
    exact (Option.some.inj version).symm
  · have hooks := accepted.hooks
    rw [defaulted_copied (by decide),read.hooks] at hooks
    exact (Option.some.inj hooks).symm
  · have pages := accepted.pages
    rw [defaulted_pages,read.pages] at pages
    exact (Option.some.inj pages).symm
  · rw [← Option.some.inj config]
    exact stripped
  · have domains := accepted.externalAuthDomains
    rw [defaulted_copied (by decide),read.externalAuthDomains] at domains
    exact (Option.some.inj domains).symm

theorem readV2_of_read (read : Read py raw v1) (only : OnlyRouteKeys raw) :
    ∃ v2, ReadV2 py (migrateV1ToV2 raw) v2 := by
  obtain ⟨found,config,-⟩ := defaulted_configSchema read.configSchema
  refine ⟨⟨2,v1.id,v1.version,v1.hooks,v1.pages,v1.routes,found,none,v1.externalAuthDomains⟩,onlyKeys_migrated,rfl,?_,?_,?_,
    ?_,?_,?_,?_,?_⟩
  · rw [required_copied (by decide)]
    exact read.id
  · rw [required_copied (by decide)]
    exact read.version
  · rw [defaulted_copied (by decide)]
    exact read.hooks
  · rw [defaulted_pages]
    exact read.pages
  · rw [defaulted_copied (by decide),defaulted_routes only]
    exact read.routes
  · rw [defaulted_copied (by decide)]
    exact config
  · rw [defaulted_copied (by decide)]
    unfold defaulted
    rw [no_permissions read.keys]
  · rw [defaulted_copied (by decide)]
    exact read.externalAuthDomains

theorem load_first (version : raw.lookup "schema_version" = none ∨ raw.lookup "schema_version" = some (.num 1)) :
    loadAndValidateManifest py raw = pluginManifestV2 py (migrateV1ToV2 raw) := by
  have first : schemaVersion raw = some 1 := by
    unfold schemaVersion
    rcases version with absent | one
    · rw [absent]
    · rw [one]
      rfl
  unfold loadAndValidateManifest
  rw [first]
  rfl

def plainPydantic : Pydantic := ⟨id,fun _ => none,fun _ => none,Char.isDigit⟩

def nullVersion : Fields := [("schema_version",.null),("id",.str "demo"),("name",.str "Demo"),("version",.str "1.0.0")]

theorem not_migrated_null :
    ¬∀ (py : Pydantic) (raw : Fields) (v1 : Manifest), pluginManifest py raw = some v1 →
      (raw.lookup "schema_version" = none ∨ raw.lookup "schema_version" = some .null ∨
        raw.lookup "schema_version" = some (.num 1)) →
      ∃ v2, loadAndValidateManifest py raw = some v2 ∧ Agrees py v1 v2 := by
  intro always
  have accepted : (pluginManifest plainPydantic nullVersion).isSome = true := by decide +kernel
  obtain ⟨v1,read⟩ := Option.isSome_iff_exists.mp accepted
  obtain ⟨v2,loaded,-⟩ := always plainPydantic nullVersion v1 read (.inr (.inl rfl))
  have refused : (loadAndValidateManifest plainPydantic nullVersion).isNone = true := by decide +kernel
  rw [loaded] at refused
  simp at refused

/-- Of a manifest that the first model validates, with no version or the first, the migrated one is validated where no
route has another key than those of a route, and then the two say the same. -/
theorem migrated_agrees (py : Pydantic) (raw : Fields) (v1 : Manifest) (accepted : pluginManifest py raw = some v1)
    (version : raw.lookup "schema_version" = none ∨ raw.lookup "schema_version" = some (.num 1)) :
    (∀ v2, loadAndValidateManifest py raw = some v2 → Agrees py v1 v2 ∧
      (CleanKeys py (v2.configSchema.getD []) → v2.configSchema.getD [] = v1.configSchema)) ∧
    ((∃ v2, loadAndValidateManifest py raw = some v2) ↔ OnlyRouteKeys raw) := by
  have read := read_of_pluginManifest accepted
  rw [load_first version]
  simp only [pluginManifestV2_iff]
  refine ⟨fun v2 loaded => ?_,fun ⟨v2,loaded⟩ => (agrees_of_read read loaded).2,readV2_of_read read⟩
  have agrees := (agrees_of_read read loaded).1
  refine ⟨agrees,fun clean => ?_⟩
  rw [← agrees.configSchema,strippedKeys_clean clean.1 clean.2]

theorem migrated_agrees_demo :
    ∃ v2, loadAndValidateManifest plainPydantic nullVersion.tail = some v2 := by
  have accepted : (pluginManifest plainPydantic nullVersion.tail).isSome = true := by decide +kernel
  obtain ⟨v1,read⟩ := Option.isSome_iff_exists.mp accepted
  exact (migrated_agrees plainPydantic nullVersion.tail v1 read (.inl rfl)).2.mpr fun items found => by
    simp [nullVersion,List.lookup_cons] at found

end Vigile.PluginManifest
