import Vigile.LexicalPath
import Vigile.PolicyBundle

/-! What an active policy lets a request do. Limits and params are decoded JSON, a duration
is in nanoseconds and int has 64 bits. -/
namespace Authorization

open JsonText Go ExecutionGrant PolicyBundle LexicalPath

inductive RiskTier where
  | passivePush
  | targetedRead
  | globalRead
  | mutating
  deriving DecidableEq

structure PrimitiveMeta where
  risk : RiskTier
  targetKind : String
  requiresGrant : Bool
  requiresPolicy : Bool
  isMutating : Bool

def passivePush (targetKind : String) : PrimitiveMeta := ⟨.passivePush,targetKind,false,false,false⟩

def targetedRead (targetKind : String) : PrimitiveMeta := ⟨.targetedRead,targetKind,false,true,false⟩

def globalRead : PrimitiveMeta := ⟨.globalRead,"",false,true,false⟩

def mutating (targetKind : String) : PrimitiveMeta := ⟨.mutating,targetKind,true,true,true⟩

def Registry : List (String × PrimitiveMeta) :=
  [("METRICS_SNAPSHOT",passivePush ""),
   ("INVENTORY_SNAPSHOT",passivePush ""),
   ("GET_FILESYSTEM_USAGE",passivePush "mount"),
   ("GET_SERVICE_STATUS",targetedRead "systemd_service"),
   ("GET_CONTAINER_STATUS",targetedRead "docker_container"),
   ("READ_LOG_SOURCE",targetedRead "log_source"),
   ("GET_DIRECTORY_USAGE",targetedRead "directory"),
   ("FIND_LARGE_FILES",targetedRead "directory"),
   ("GET_DOCKER_DISK_USAGE",targetedRead "docker_host"),
   ("GET_LOG_RETENTION_SUMMARY",targetedRead "log_scope"),
   ("LIST_SERVICES",globalRead),
   ("LIST_CONTAINERS",globalRead),
   ("LIST_LOG_SOURCES",globalRead),
   ("RELOAD_SERVICE",mutating "systemd_service"),
   ("RESTART_SERVICE",mutating "systemd_service"),
   ("RESTART_CONTAINER",mutating "docker_container")]

structure BudgetLimits where
  maxDepth : Int
  maxEntries : Int
  maxLines : Int
  maxBytes : Int
  maxTimeout : Int
  deriving DecidableEq

def second : Int := 1000000000

def DefaultPrimitiveBudgets : List (String × BudgetLimits) :=
  [("GET_FILESYSTEM_USAGE",⟨0,0,0,0,5 * second⟩),
   ("GET_DIRECTORY_USAGE",⟨6,50000,0,262144,20 * second⟩),
   ("FIND_LARGE_FILES",⟨8,100,0,262144,15 * second⟩),
   ("GET_DOCKER_DISK_USAGE",⟨0,0,0,524288,10 * second⟩),
   ("GET_LOG_RETENTION_SUMMARY",⟨0,0,0,262144,10 * second⟩),
   ("READ_LOG_SOURCE",⟨0,0,1000,1048576,15 * second⟩),
   ("GET_SERVICE_STATUS",⟨0,0,0,0,5 * second⟩),
   ("GET_CONTAINER_STATUS",⟨0,0,0,0,5 * second⟩),
   ("RELOAD_SERVICE",⟨0,0,0,0,30 * second⟩),
   ("RESTART_SERVICE",⟨0,0,0,0,30 * second⟩),
   ("RESTART_CONTAINER",⟨0,0,0,0,45 * second⟩),
   ("LIST_SERVICES",⟨0,0,0,0,10 * second⟩),
   ("LIST_CONTAINERS",⟨0,0,0,0,10 * second⟩),
   ("LIST_LOG_SOURCES",⟨0,0,0,0,10 * second⟩)]

/-- A number out of a decoded map is a float64, converted as the machine does. -/
def getInt (platform : Platform) (val : Option Value) : Option Int :=
  match val with
  | some (.number literal) => literal.binary64.map (int64 platform)
  | _ => none

def restrict (compiled : Int) (requested : Option Int) : Int :=
  match requested with
  | some limit => if 0 < limit ∧ limit < compiled then limit else compiled
  | none => compiled

def restrictTimeout (compiled : Int) (requested : Option Int) : Int :=
  match requested with
  | some timeoutSec =>
    if 0 < timeoutSec ∧ (timeoutSec * second).bmod (2 ^ 64) < compiled then (timeoutSec * second).bmod (2 ^ 64)
    else compiled
  | none => compiled

def EffectiveBudget (platform : Platform) (primitive : String) (requestedLimits : List (String × Value)) :
    BudgetLimits :=
  match DefaultPrimitiveBudgets.lookup primitive with
  | none => ⟨0,0,0,0,5 * second⟩
  | some compiled =>
    { maxDepth := restrict compiled.maxDepth (getInt platform (requestedLimits.lookup "max_depth"))
      maxEntries := restrict compiled.maxEntries (getInt platform (requestedLimits.lookup "max_entries"))
      maxLines := restrict compiled.maxLines (getInt platform (requestedLimits.lookup "max_lines"))
      maxBytes := restrict compiled.maxBytes (getInt platform (requestedLimits.lookup "max_bytes"))
      maxTimeout := restrictTimeout compiled.maxTimeout (getInt platform (requestedLimits.lookup "timeout_seconds")) }

def mergeLimits (ruleLimits params : List (String × Value)) : List (String × Value) :=
  ruleLimits ++ params.filter fun param => (ruleLimits.lookup param.1).isNone

def trimRight (path : List Char) : List Char := path.rdropWhile (· = '/')

def matchTarget (kind ruleTargetID requestTargetID : String) : Bool :=
  if ruleTargetID = "*" ∨ ruleTargetID = requestTargetID then true
  else if kind = "directory" ∨ kind = "mount" then
    trimRight requestTargetID.toList = trimRight ruleTargetID.toList ∨
      trimRight ruleTargetID.toList ++ ['/'] <+: trimRight requestTargetID.toList
  else false

inductive Reason where
  | unsupported (action : String)
  | passive
  | noPolicy
  | expired (policyID : String) (expiresAt : Binary64)
  | authorized (ruleID : String)
  | noRule (action : String) (target : CanonicalTarget)

structure AuthorizationResult where
  authorized : Bool
  reason : Reason
  matchedRule : Option PolicyRule
  effectiveBudget : BudgetLimits

def noBudget : BudgetLimits := ⟨0,0,0,0,0⟩

def refuse (reason : Reason) : AuthorizationResult := ⟨false,reason,none,noBudget⟩

def ruleMatches (primitive : PrimitiveMeta) (action : String) (target : CanonicalTarget) (rule : PolicyRule) : Bool :=
  rule.action = action ∧ (primitive.targetKind = "" ∨ rule.target.kind = primitive.targetKind) ∧
    matchTarget primitive.targetKind rule.target.id target.id

/-- `now` is the Unix time in whole seconds; the active state is none when there is no bundle. -/
def AuthorizeAction (platform : Platform) (now : Int) (activeState : Option Bundle) (action : String)
    (target : CanonicalTarget) (params : List (String × Value)) : AuthorizationResult :=
  match Registry.lookup action with
  | none => refuse (.unsupported action)
  | some primitive =>
    if primitive.risk = .passivePush then ⟨true,.passive,none,EffectiveBudget platform action params⟩
    else
      match activeState with
      | none => refuse .noPolicy
      | some bundle =>
        if 0 < bundle.expiresAt.value ∧ after now bundle.expiresAt then refuse (.expired bundle.policyID bundle.expiresAt)
        else
          match (bundle.rules.getD []).find? (ruleMatches primitive action target) with
          | some rule =>
            ⟨true,.authorized rule.ruleID,some rule,EffectiveBudget platform action (mergeLimits rule.limits params)⟩
          | none => refuse (.noRule action target)

def remainder (ruleTargetID requestTargetID : String) : List Char :=
  (trimRight requestTargetID.toList).drop (trimRight ruleTargetID.toList).length

/-- The two paths start at the same place, and the request's remainder leads back into the
rule's directory whenever it leads out of it. -/
def StaysInside (ruleTargetID requestTargetID : String) : Prop :=
  isAbsolute ruleTargetID.toList = isAbsolute requestTargetID.toList ∧
    Returns (place ruleTargetID.toList) (components (remainder ruleTargetID requestTargetID))

theorem place_absolute (path : List Char) : (place path).absolute = isAbsolute path := walk_absolute _ _

theorem place_trimmed (path : List Char) : place path = walk ⟨isAbsolute path,0,[]⟩ (components (trimRight path)) :=
  (walk_trailing _ path).symm

/-- A matched path is the rule's path, up to trailing slashes, with nothing or a slash
after it. -/
theorem match_remainder {kind rule request : String} (matched : matchTarget kind rule request)
    (directory : kind = "directory" ∨ kind = "mount") (specific : rule ≠ "*") :
    trimRight request.toList = trimRight rule.toList ++ remainder rule request ∧
      (remainder rule request = [] ∨ ∃ below, remainder rule request = '/' :: below) := by
  unfold matchTarget at matched
  by_cases same : rule = request
  · subst same
    simp [remainder]
  · rw [if_neg (by simp [specific,same]),if_pos directory] at matched
    rcases of_decide_eq_true matched with equal | ⟨below,further⟩
    · simp [remainder,equal]
    · have rest : remainder rule request = '/' :: below := by
        unfold remainder
        rw [← further,List.append_assoc,List.drop_left]
        rfl
      refine ⟨?_,.inr ⟨below,rest⟩⟩
      rw [rest,← further,List.append_assoc]
      rfl

/-- From the rule's directory the request walks along its remainder. -/
theorem place_request {rule request : String} (extends_ : trimRight request.toList = trimRight rule.toList ++ remainder rule request)
    (boundary : remainder rule request = [] ∨ ∃ below, remainder rule request = '/' :: below)
    (start : isAbsolute rule.toList = isAbsolute request.toList) :
    place request.toList = walk (place rule.toList) (components (remainder rule request)) := by
  rw [place_trimmed,place_trimmed,← start,extends_]
  rcases boundary with none | ⟨below,rest⟩
  · rw [none,List.append_nil]
    rfl
  · rw [rest,walk_slash]
    rfl

theorem matched_below_iff {kind rule request : String} (matched : matchTarget kind rule request)
    (directory : kind = "directory" ∨ kind = "mount") (specific : rule ≠ "*") :
    Below (place rule.toList) (place request.toList) ↔ StaysInside rule request := by
  obtain ⟨extends_,boundary⟩ := match_remainder matched directory specific
  constructor
  · intro below
    have start : isAbsolute rule.toList = isAbsolute request.toList :=
      calc isAbsolute rule.toList = (place rule.toList).absolute := (place_absolute _).symm
        _ = (place request.toList).absolute := below.1.symm
        _ = isAbsolute request.toList := place_absolute _
    rw [place_request extends_ boundary start] at below
    exact ⟨start,(below_walk_iff _ _).mp below⟩
  · rintro ⟨start,back⟩
    rw [place_request extends_ boundary start]
    exact (below_walk_iff _ _).mpr back

/-- A rule is reported only when its loop iteration matched. -/
theorem authorized_rule {platform : Platform} {now : Int} {activeState : Option Bundle} {action : String}
    {target : CanonicalTarget} {params : List (String × Value)} {rule : PolicyRule}
    (matched : (AuthorizeAction platform now activeState action target params).matchedRule = some rule) :
    ∃ primitive bundle, Registry.lookup action = some primitive ∧ activeState = some bundle ∧
      rule ∈ bundle.rules.getD [] ∧ ruleMatches primitive action target rule := by
  unfold AuthorizeAction at matched
  cases registered : Registry.lookup action with
  | none => simp [registered,refuse] at matched
  | some primitive =>
    cases activeState with
    | none =>
      simp only [registered] at matched
      split at matched <;> simp [refuse] at matched
    | some bundle =>
      simp only [registered] at matched
      split at matched
      · simp at matched
      · split at matched
        · simp [refuse] at matched
        · cases found : (bundle.rules.getD []).find? (ruleMatches primitive action target) with
          | none => simp [found,refuse] at matched
          | some first =>
            simp only [found,Option.some.injEq] at matched
            subst matched
            exact ⟨primitive,bundle,rfl,rfl,List.mem_of_find?_eq_some found,List.find?_some found⟩

/-- An action on a directory or a mount, authorized by a rule for a specific path, stays below
the rule's directory exactly when the request's remainder leads back into it. -/
theorem authorized_below_iff (platform : Platform) (now : Int) (activeState : Option Bundle) (action : String)
    (target : CanonicalTarget) (params : List (String × Value)) (primitive : PrimitiveMeta) (rule : PolicyRule)
    (registered : Registry.lookup action = some primitive)
    (directory : primitive.targetKind = "directory" ∨ primitive.targetKind = "mount")
    (authorized : (AuthorizeAction platform now activeState action target params).authorized = true ∧
      (AuthorizeAction platform now activeState action target params).matchedRule = some rule)
    (specific : rule.target.id ≠ "*") :
    Below (place rule.target.id.toList) (place target.id.toList) ↔ StaysInside rule.target.id target.id := by
  obtain ⟨_,_,same,_,_,matched⟩ := authorized_rule authorized.2
  cases registered.symm.trans same
  have target_matched := of_decide_eq_true matched
  exact matched_below_iff target_matched.2.2 directory specific

def logsRule : PolicyRule := ⟨"rule-1","disk","GET_DIRECTORY_USAGE",⟨"directory","/var/log/"⟩,[],false⟩

def logsPolicy : Bundle :=
  ⟨"pol-1","node-1","key-1",1,1,reload.approvedAt,reload.expiresAt,false,"",[],some [logsRule],"aQ"⟩

theorem logs_authorized (path : String) (matched : matchTarget "directory" "/var/log/" path = true) :
    (AuthorizeAction CanonicalJson.amd64 1100 (some logsPolicy) "GET_DIRECTORY_USAGE" ⟨"directory",path⟩ []).authorized =
        true ∧
      (AuthorizeAction CanonicalJson.amd64 1100 (some logsPolicy) "GET_DIRECTORY_USAGE" ⟨"directory",path⟩ []).matchedRule =
        some logsRule := by
  have current : ¬(0 < logsPolicy.expiresAt.value ∧ after 1100 logsPolicy.expiresAt) := by decide +kernel
  have registered : Registry.lookup "GET_DIRECTORY_USAGE" = some (targetedRead "directory") := rfl
  have found : (logsPolicy.rules.getD []).find? (ruleMatches (targetedRead "directory") "GET_DIRECTORY_USAGE"
      ⟨"directory",path⟩) = some logsRule := by
    simp [logsPolicy,logsRule,ruleMatches,targetedRead,matched]
  unfold AuthorizeAction
  simp only [registered,if_neg current,found]
  exact ⟨rfl,rfl⟩

theorem nginx_logs_below : Below (place "/var/log/".toList) (place "/var/log/nginx".toList) ↔
    StaysInside "/var/log/" "/var/log/nginx" :=
  authorized_below_iff CanonicalJson.amd64 1100 (some logsPolicy) "GET_DIRECTORY_USAGE" ⟨"directory","/var/log/nginx"⟩ []
    (targetedRead "directory") logsRule rfl (.inl rfl) (logs_authorized _ (by decide +kernel)) (by decide)

/-- A rule for one directory authorizes a path that climbs out of it. -/
theorem authorized_path_climbs_out : ¬∀ (platform : Platform) (now : Int) (activeState : Option Bundle) (action : String)
    (target : CanonicalTarget) (params : List (String × Value)) (primitive : PrimitiveMeta) (rule : PolicyRule),
    Registry.lookup action = some primitive →
    primitive.targetKind = "directory" ∨ primitive.targetKind = "mount" →
    (AuthorizeAction platform now activeState action target params).authorized = true ∧
      (AuthorizeAction platform now activeState action target params).matchedRule = some rule →
    rule.target.id ≠ "*" →
    Below (place rule.target.id.toList) (place target.id.toList) := by
  intro claim
  have below : Below (place "/var/log/".toList) (place "/var/log/../../etc".toList) :=
    claim CanonicalJson.amd64 1100 (some logsPolicy) "GET_DIRECTORY_USAGE" ⟨"directory","/var/log/../../etc"⟩ []
      (targetedRead "directory") logsRule rfl (.inl rfl) (logs_authorized _ (by decide +kernel)) (by decide)
  exact absurd below (by decide +kernel)

end Authorization
