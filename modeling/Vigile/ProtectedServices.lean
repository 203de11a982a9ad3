import Vigile.CopilotTools
import Vigile.GoText

/-! The services that nobody may stop: how the master and the worker recognise them, and which
units the worker's handlers hand to systemctl. -/
namespace Vigile.Services

open Python Proposals Copilot

def lowered (text : String) : List Char := text.toList.map Char.toLower

def Ascii (text : String) : Prop := ∀ c ∈ text.toList, c.toNat < 128

def ProtectedUnit (unit : String) : Prop :=
  ∃ name ∈ protectedServices, ∃ suffix ∈ "" :: unitExtensions, lowered unit = name.toList ++ suffix.toList

namespace Worker

def protectedServices : List String :=
  ["ssh","sshd","docker","dockerd","containerd","networking","systemd-networkd","networkmanager",
    "systemd-resolved","systemd-journald","systemd-logind","dbus","vigile","vigile-worker"]

def unitExtensions : List String := [".service",".socket",".target",".timer",".slice"]

inductive Refusal where
  | required
  | format (service : String)
  | isProtected (service : String)
  deriving DecidableEq

section
variable (toLower : List Char → List Char)

def canonicalServiceName (service : String) : List Char :=
  let clean := toLower (Go.trimSpace service.toList)
  match unitExtensions.find? fun ext => ext.toList.isSuffixOf clean with
  | none => clean
  | some ext => clean.take (clean.length - ext.length)

def isProtectedService (service : String) : Bool :=
  (protectedServices.map String.toList).contains (canonicalServiceName toLower service)

/-- The parameter, where it has the form of a unit. -/
def serviceParam (params : Fields) : Except Refusal String :=
  let service := getParamString params "service" ""
  if service = "" then .error .required
  else if isServiceTarget service then .ok service
  else .error (.format service)

/-- The unit that is handed to `systemctl restart`. -/
def handleRestartService (params : Fields) : Except Refusal String := serviceParam params

/-- The unit that is handed to `systemctl stop`. -/
def handleStopService (params : Fields) : Except Refusal String :=
  match serviceParam params with
  | .error refusal => .error refusal
  | .ok service => if isProtectedService toLower service then .error (.isProtected service) else .ok service

end

end Worker

theorem range_of_target {c : Char} (target : isTargetChar c = true) : 45 ≤ c.toNat ∧ c.toNat < 128 := by
  simp only [isTargetChar,Bool.or_eq_true,Bool.and_eq_true,decide_eq_true_eq] at target
  rcases target with (((((target | target) | target) | rfl) | rfl) | rfl) | rfl
  · exact ⟨Nat.le_trans (by decide) target.1,Nat.lt_of_le_of_lt target.2 (by decide)⟩
  · exact ⟨Nat.le_trans (by decide) target.1,Nat.lt_of_le_of_lt target.2 (by decide)⟩
  · exact ⟨Nat.le_trans (by decide) target.1,Nat.lt_of_le_of_lt target.2 (by decide)⟩
  all_goals decide

variable {service : String}

theorem target_of_isServiceTarget (valid : isServiceTarget service = true) :
    ∀ c ∈ service.toList, isTargetChar c = true := by
  simp only [isServiceTarget,Bool.and_eq_true,List.all_eq_true] at valid
  exact valid.2

theorem ascii_of_isServiceTarget (valid : isServiceTarget service = true) : Ascii service :=
  fun c member => (range_of_target (target_of_isServiceTarget valid c member)).2

theorem trimmed {p : Char → Bool} {cs : List Char} (spaceless : ∀ c ∈ cs, p c = false) :
    ((cs.dropWhile p).reverse.dropWhile p).reverse = cs := by
  have front : cs.dropWhile p = cs := by
    cases cs with
    | nil => rfl
    | cons c rest => exact List.dropWhile_cons_of_neg (by simp [spaceless])
  have back : cs.reverse.dropWhile p = cs.reverse := by
    cases reversed : cs.reverse with
    | nil => rfl
    | cons c rest =>
      have member : c ∈ cs := by
        rw [← List.mem_reverse,reversed]
        exact List.mem_cons_self
      exact List.dropWhile_cons_of_neg (by simp [spaceless c member])
  rw [front,back,List.reverse_reverse]

theorem strip_of_target (valid : isServiceTarget service = true) : strip service = service := by
  unfold strip
  rw [trimmed,String.ofList_toList]
  intro c member
  have range := range_of_target (target_of_isServiceTarget valid c member)
  simp only [isSpace]
  simp
  omega

theorem trimSpace_of_target (valid : isServiceTarget service = true) :
    Go.trimSpace service.toList = service.toList := by
  unfold Go.trimSpace
  rw [trimmed]
  intro c member
  have range := range_of_target (target_of_isServiceTarget valid c member)
  simp only [Go.isSpace]
  simp
  omega

def withoutExtension (clean : List Char) : List Char :=
  match unitExtensions.find? fun ext => ext.toList.isSuffixOf clean with
  | none => clean
  | some ext => clean.take (clean.length - ext.length)

/-- What is cut off is the suffix that is found. -/
theorem withoutExtension_split (clean : List Char) :
    ∃ suffix ∈ "" :: unitExtensions, clean = withoutExtension clean ++ suffix.toList := by
  unfold withoutExtension
  cases found : unitExtensions.find? fun ext => ext.toList.isSuffixOf clean with
  | none => exact ⟨"",List.mem_cons_self,by simp⟩
  | some ext =>
    have isSuffix : ext.toList <:+ clean := by simpa using List.find?_some found
    obtain ⟨front,rfl⟩ := isSuffix
    refine ⟨ext,List.mem_cons_of_mem _ (List.mem_of_find?_eq_some found),?_⟩
    simp [← String.length_toList,List.take_left]

/-- Of a protected service with a suffix nothing but the suffix is cut off. -/
theorem withoutExtension_protected {name suffix : String} (listed : name ∈ protectedServices)
    (extended : suffix ∈ "" :: unitExtensions) : withoutExtension (name.toList ++ suffix.toList) = name.toList := by
  have all : ∀ name ∈ protectedServices, ∀ suffix ∈ "" :: unitExtensions,
      withoutExtension (name.toList ++ suffix.toList) = name.toList := by
    decide +kernel
  exact all name listed suffix extended

theorem protectedUnit_iff (unit : String) :
    ProtectedUnit unit ↔ withoutExtension (lowered unit) ∈ protectedServices.map String.toList := by
  constructor
  · rintro ⟨name,listed,suffix,extended,same⟩
    rw [same,withoutExtension_protected listed extended]
    exact List.mem_map_of_mem listed
  · intro member
    obtain ⟨name,listed,same⟩ := List.mem_map.mp member
    obtain ⟨suffix,extended,split⟩ := withoutExtension_split (lowered unit)
    exact ⟨name,listed,suffix,extended,by rw [split,same]⟩

section
variable {py : Builtins} {toLower : List Char → List Char}

variable {service unit : String} {params : Fields}

theorem isProtectedService_iff (pyLower : ∀ text, Ascii text → (py.lower text).toList = lowered text) (valid : isServiceTarget service = true) :
    isProtectedService py service = true ↔ ProtectedUnit service := by
  have canonical : (canonicalServiceName py service).toList = withoutExtension (lowered service) := by
    have same := pyLower service (ascii_of_isServiceTarget valid)
    unfold canonicalServiceName
    rw [strip_of_target valid]
    dsimp only
    rw [← String.length_toList,same]
    unfold withoutExtension
    cases unitExtensions.find? fun ext => ext.toList.isSuffixOf (lowered service) with
    | none => exact same
    | some ext => exact String.toList_ofList
  rw [protectedUnit_iff,← canonical,List.mem_map_of_injective fun left right => String.toList_inj.mp]
  exact decide_eq_true_iff

theorem worker_isProtectedService_iff (goLower : ∀ text, Ascii text → toLower text.toList = lowered text) (valid : isServiceTarget service = true) :
    Worker.isProtectedService toLower service = true ↔ ProtectedUnit service := by
  have canonical : Worker.canonicalServiceName toLower service = withoutExtension (lowered service) := by
    unfold Worker.canonicalServiceName
    rw [trimSpace_of_target valid,goLower service (ascii_of_isServiceTarget valid)]
    rfl
  rw [protectedUnit_iff,← canonical]
  exact List.contains_iff_mem

theorem handed_of_serviceParam (handed : Worker.serviceParam params = .ok unit) :
    getParamString params "service" "" = unit ∧ unit ≠ "" ∧ isServiceTarget unit = true := by
  unfold Worker.serviceParam at handed
  dsimp only at handed
  split at handed
  · simp at handed
  · rename_i nonempty
    split at handed
    · rename_i valid
      obtain rfl := Except.ok.inj handed
      exact ⟨rfl,nonempty,valid⟩
    · simp at handed

theorem handed_of_stop (handed : Worker.handleStopService toLower params = .ok unit) :
    Worker.serviceParam params = .ok unit ∧ Worker.isProtectedService toLower unit = false := by
  unfold Worker.handleStopService at handed
  split at handed
  · simp at handed
  · rename_i service param
    split at handed
    · simp at handed
    · rename_i unprotected
      obtain rfl := Except.ok.inj handed
      exact ⟨param,by simpa using unprotected⟩

/-- The master has checked the parameter that the worker reads. -/
theorem unprotected_of_approved {claims : Claims} {resolve : String → Resolution} {proposal : ActionProposal}
    {action : String} (approved : approvedIntent py claims resolve proposal = some (action,params))
    (handed : Worker.serviceParam params = .ok unit) : isProtectedService py unit = false := by
  obtain ⟨param,nonempty,-⟩ := handed_of_serviceParam handed
  have read : params.lookup "service" = some (.str unit) := by
    unfold getParamString at param
    split at param
    · rename_i text found
      rw [found,param]
    · exact absurd param.symm nonempty
  unfold approvedIntent at approved
  split at approved
  · simp at approved
  split at approved
  · rename_i service target
    split at approved
    · simp at approved
    rename_i unprotected
    split at approved
    · rename_i sent normal
      obtain ⟨-,rfl⟩ : sent.action = action ∧ sent.params = params := by simpa using approved
      unfold normalized at normal
      split at normal
      · obtain rfl := Except.ok.inj normal
        have same : targetService proposal = .str unit := by
          simp [targetService,Fields.get,read,Json.or,Json.truthy,nonempty]
        rw [same] at target
        obtain rfl := Json.str.inj target
        simpa using unprotected
      -- The parameters of a container's restart name no service.
      · dsimp only at normal
        split at normal
        · simp at normal
        · split at normal
          · obtain rfl := Except.ok.inj normal
            simp [List.lookup_cons] at read
          · simp at normal
    · simp at approved
  · simp at approved

end

/-- No handler hands a unit of a protected service to systemctl, and the two checks of a service are one. -/
theorem protected_service_never_handed (py : Builtins) (toLower : List Char → List Char)
    (pyLower : ∀ text, Ascii text → (py.lower text).toList = lowered text)
    (goLower : ∀ text, Ascii text → toLower text.toList = lowered text) :
    (∀ (claims : Claims) (resolve : String → Resolution) (proposal : ActionProposal) (action : String)
      (params : Fields) (unit : String), approvedIntent py claims resolve proposal = some (action,params) →
        Worker.handleRestartService params = .ok unit ∨ Worker.handleStopService toLower params = .ok unit →
          ¬ProtectedUnit unit) ∧
    (∀ (params : Fields) (unit : String), Worker.handleStopService toLower params = .ok unit → ¬ProtectedUnit unit) ∧
    ∀ service : String, isServiceTarget service = true →
      isProtectedService py service = Worker.isProtectedService toLower service := by
  refine ⟨?_,?_,?_⟩
  · intro claims resolve proposal action params unit approved handed
    have param : Worker.serviceParam params = .ok unit := handed.elim id fun stopped => (handed_of_stop stopped).1
    have unprotected := unprotected_of_approved approved param
    rw [← isProtectedService_iff pyLower (handed_of_serviceParam param).2.2,unprotected]
    exact Bool.false_ne_true
  · intro params unit handed
    obtain ⟨param,unprotected⟩ := handed_of_stop handed
    rw [← worker_isProtectedService_iff goLower (handed_of_serviceParam param).2.2,unprotected]
    exact Bool.false_ne_true
  · intro service valid
    rw [Bool.eq_iff_iff,isProtectedService_iff pyLower valid,worker_isProtectedService_iff goLower valid]

/-- A lower case that knows the letters of ASCII. -/
def asciiBuiltins : Builtins :=
  ⟨fun text => String.ofList (lowered text),fun _ => "",fun _ => none,fun _ _ => .notFound,fun _ => []⟩

theorem protected_service_never_handed_nginx :
    ¬ProtectedUnit "nginx.service" ∧
      isProtectedService asciiBuiltins "SSH.socket" = Worker.isProtectedService (List.map Char.toLower) "SSH.socket" := by
  have never := protected_service_never_handed asciiBuiltins (List.map Char.toLower) (fun _ _ => String.toList_ofList)
    fun _ _ => rfl
  exact ⟨never.2.1 [("service",.str "nginx.service")] "nginx.service" (by decide +kernel),
    never.2.2 "SSH.socket" (by decide +kernel)⟩

end Vigile.Services
