import Vigile.CopilotTools
import Vigile.JoinTokenCodec
import Vigile.JournalLogs

/-! Inventories: the containers and services that the worker lists, and what the master makes of its output. -/
namespace Vigile.Inventory

open Go JsonText JournalLogs
open Copilot (isTargetChar)
open JoinTokenCodec (loads)

structure IntentResult where
  success : Bool
  output : List Char

structure ContainerSummary where
  id : String
  name : String
  image : String
  state : String
  status : String
  ports : List String

def strings (texts : List String) : Value := .array (texts.map Value.string)

/-- An empty list of ports is omitted. -/
def ContainerSummary.value (summary : ContainerSummary) : Value :=
  .object ([("id",.string summary.id),("name",.string summary.name),("image",.string summary.image),
    ("state",.string summary.state),("status",.string summary.status)] ++
    if summary.ports = [] then [] else [("ports",strings summary.ports)])

/-- The first bytes of a text, as they are marshalled: every byte of a character that is cut becomes U+FFFD. -/
def slice : Nat → List Char → List Char
  | _,[] => []
  | n,c :: rest => if c.utf8Size ≤ n then c :: slice (n - c.utf8Size) rest else List.replicate n replacement

/-- `id[:12]`, if it is longer. -/
def shortId (id : String) : List Char := if 12 < id.utf8ByteSize then slice 12 id.toList else id.toList

def stringOr (c : Fields) (key : String) : String := (stringField (some c) key).getD ""

def trimSlash (name : String) : String :=
  match name.toList with
  | '/' :: rest => String.ofList rest
  | _ => name

def containerName (c : Fields) : String :=
  match c.lookup "Names" with
  | some (.array (.string name :: _)) => trimSlash name
  | _ => ""

section

-- fmt.Sprintf of the private port, with the IP and the public port if there is one
variable (sprintf : Option (String × Value) → Literal → String)

def containerPort : Value → Option String
  | .object pm =>
    match pm.lookup "PrivatePort" with
    | some (.number privatePort) => some (sprintf ((pm.lookup "PublicPort").map fun publicPort => (stringOr pm "IP",publicPort)) privatePort)
    | _ => none
  | _ => none

def containerPorts (c : Fields) : List String :=
  match c.lookup "Ports" with
  | some (.array ports) => ports.filterMap (containerPort sprintf)
  | _ => []

def summarize (c : Fields) : Option ContainerSummary :=
  (stringField (some c) "Id").map fun id =>
    ⟨String.ofList (shortId id),containerName c,stringOr c "Image",stringOr c "State",stringOr c "Status",containerPorts sprintf c⟩

def containersOf : List Value → Option (List Fields)
  | [] => some []
  | .object fields :: rest => (containersOf rest).map (fields :: ·)
  | .null :: rest => (containersOf rest).map ([] :: ·)
  | _ => none

def unmarshalList (data : List Char) : Option (List Fields) :=
  match valueWithin 10000 data with
  | some (.array items) => if NumbersFit data then containersOf items else none
  | some .null => some []
  | _ => none

/-- A slice that nothing was appended to is nil, and marshalled as null. -/
def marshalSlice (items : List Value) : List Char := if items = [] then marshal .null else marshal (.array items)

def handleListContainers (data : List Char) : IntentResult :=
  match unmarshalList data with
  | none => ⟨false,[]⟩
  | some containers => ⟨true,marshalSlice ((containers.filterMap (summarize sprintf)).map ContainerSummary.value)⟩

end

structure ServiceInfo where
  name : String
  state : String
  status : String

def ServiceInfo.value (service : ServiceInfo) : Value :=
  .object [("name",.string service.name),("state",.string service.state),("status",.string service.status)]

def fields (line : List Char) : List (List Char) := (line.splitOnP Go.isSpace).filter (· ≠ [])

def suffix_ : List Char := ['.','s','e','r','v','i','c','e']

def isServiceName (name : List Char) : Bool := suffix_.isSuffixOf name && suffix_.length < name.length && name.all isTargetChar

def parseLine (line : List Char) : Option ServiceInfo :=
  if trimSpace line = [] then none
  else
    let read (words : List (List Char)) : Option ServiceInfo :=
      match words with
      | name :: _ :: active :: sub :: _ =>
        if isServiceName name then some ⟨String.ofList name,String.ofList active,String.ofList sub⟩ else none
      | _ => none
    match fields line with
    | ['●'] :: words => read words
    | words => read words

def collect : List (List Char) → List ServiceInfo → List ServiceInfo
  | [],services => services
  | line :: rest,services =>
    match parseLine line with
    | none => collect rest services
    | some service => if 500 ≤ services.length + 1 then services ++ [service] else collect rest (services ++ [service])

def parseServicesOutput (out : List Char) : List ServiceInfo := collect (out.splitOn '\n') []

/-- The slice is never nil. -/
def handleListServices (out : List Char) : IntentResult :=
  ⟨true,marshal (.array ((parseServicesOutput out).map ServiceInfo.value))⟩

def strOf (item : Fields) (key : String) : Option String :=
  match item.lookup key with
  | some (.string text) => some text
  | _ => none

def textsOf : List Value → Option (List String)
  | [] => some []
  | .string text :: rest => (textsOf rest).map (text :: ·)
  | _ => none

def portsOf (item : Fields) : Option (List String) :=
  match item.lookup "ports" with
  | none => some []
  | some (.array items) => textsOf items
  | some _ => none

structure Container where
  id : String
  name : String
  image : String
  state : String
  ports : List String

def Container.validate (item : Fields) : Option Container := do
  return ⟨← strOf item "id",← strOf item "name",← strOf item "image",← strOf item "state",← portsOf item⟩

def ServiceInfo.validate (item : Fields) : Option ServiceInfo := do
  return ⟨← strOf item "name",← strOf item "state",← strOf item "status"⟩

def validated {α : Type} (model : Fields → Option α) : List Value → Option (List α)
  | [] => some []
  | .object item :: rest => do
    let first ← model item
    let others ← validated model rest
    return first :: others
  | _ => none

def parseWorkerList {α : Type} (model : Fields → Option α) (output : List Char) : Option (List α) :=
  match loads output with
  | some (.array items) => validated model items
  | _ => none

def parseContainerList (output : List Char) : Option (List Container) := parseWorkerList Container.validate output

def parseServiceList (output : List Char) : Option (List ServiceInfo) := parseWorkerList ServiceInfo.validate output

/-! What is promised -/

structure Entry where
  id : String
  name : String
  image : String
  state : String

def Container.entry (container : Container) : Entry := ⟨container.id,container.name,container.image,container.state⟩

/-- A container with an Id, by its first twelve characters. -/
def entryOf (c : Fields) : Option Entry :=
  (stringField (some c) "Id").map fun id =>
    ⟨String.ofList (id.toList.take 12),containerName c,stringOr c "Image",stringOr c "State"⟩

def ContainersTold (sprintf : Option (String × Value) → Literal → String) (data : List Char) (containers : List Fields) : Prop :=
  (parseContainerList (handleListContainers sprintf data).output).map (List.map Container.entry) = some (containers.filterMap entryOf)

/-- The response is decoded, a container is listed, and the bytes that are kept of an Id are those of its first
twelve characters. -/
structure Listed (data : List Char) (containers : List Fields) : Prop where
  decoded : (valueWithin 10000 data).isSome = true ∧ NumbersFit data
  some_ : ∃ c ∈ containers, (stringField (some c) "Id").isSome = true
  ids : ∀ c ∈ containers, ∀ id, stringField (some c) "Id" = some id → shortId id = id.toList.take 12

def isUnitChar (c : Char) : Bool := isTargetChar c || c = ':' || c = '\\'

/-- A line of `systemctl list-units --type=service`, with the words it is made of. -/
structure ServiceLine where
  text : List Char
  bullet : Bool
  unit : List Char
  load : List Char
  active : List Char
  sub : List Char
  description : List (List Char)
  single : '\n' ∉ text
  words : fields text = (if bullet then [['●']] else []) ++ unit :: load :: active :: sub :: description
  unitChars : unit.all isUnitChar = true
  named : ∃ stem, stem ≠ [] ∧ unit = stem ++ suffix_

def ServiceLine.service (line : ServiceLine) : ServiceInfo :=
  ⟨String.ofList line.unit,String.ofList line.active,String.ofList line.sub⟩

def ServicesTold (lines : List ServiceLine) : Prop :=
  parseServiceList (handleListServices (unlines (lines.map ServiceLine.text))).output = some (lines.map ServiceLine.service)

/-- Its unit name has no character that `serviceNameRegex` lacks. -/
def ServiceLine.Plain (line : ServiceLine) : Prop := ':' ∉ line.unit ∧ '\\' ∉ line.unit

variable {sprintf : Option (String × Value) → Literal → String} {data : List Char} {containers : List Fields} {lines : List ServiceLine}

theorem loads_marshal {value : Value} (fits : value.Fits 1000) : loads (marshal value) = some value := by
  have read := readValue_text reads_marshalEscape 1000 value fits [] closed_nil
  rw [List.append_nil] at read
  unfold loads marshal
  rw [read]
  rfl

theorem textsOf_strings (texts : List String) : textsOf (texts.map Value.string) = some texts := by
  induction texts with
  | nil => rfl
  | cons text rest ih => rw [List.map_cons,textsOf,ih,Option.map_some]

def ContainerSummary.container (summary : ContainerSummary) : Container :=
  ⟨summary.id,summary.name,summary.image,summary.state,summary.ports⟩

theorem validated_summaries (summaries : List ContainerSummary) :
    validated Container.validate (summaries.map ContainerSummary.value) = some (summaries.map ContainerSummary.container) := by
  induction summaries with
  | nil => rfl
  | cons summary rest ih =>
    rw [List.map_cons,ContainerSummary.value,validated,ih]
    by_cases none_ : summary.ports = []
    · rw [if_pos none_]
      simp [Container.validate,strOf,portsOf,List.lookup_cons,ContainerSummary.container,none_]
    · rw [if_neg none_]
      simp [Container.validate,strOf,portsOf,List.lookup_cons,ContainerSummary.container,strings,textsOf_strings]

theorem validated_services (services : List ServiceInfo) :
    validated ServiceInfo.validate (services.map ServiceInfo.value) = some services := by
  induction services with
  | nil => rfl
  | cons service rest ih =>
    rw [List.map_cons,ServiceInfo.value,validated,ih]
    simp [ServiceInfo.validate,strOf,List.lookup_cons]

theorem fits_summary (summary : ContainerSummary) : summary.value.Fits 999 := by
  unfold ContainerSummary.value
  by_cases none_ : summary.ports = []
  · rw [if_pos none_]
    refine ⟨by simp,?_⟩
    simp only [List.append_nil,List.forall_mem_cons]
    exact ⟨trivial,trivial,trivial,trivial,trivial,fun _ member => by cases member⟩
  · rw [if_neg none_]
    refine ⟨by simp,?_⟩
    simp only [List.cons_append,List.nil_append,List.forall_mem_cons]
    refine ⟨trivial,trivial,trivial,trivial,trivial,?_,fun _ member => by cases member⟩
    intro item member
    obtain ⟨text,-,rfl⟩ := List.mem_map.mp member
    trivial

theorem fits_service (service : ServiceInfo) : service.value.Fits 999 := by
  refine ⟨by simp,?_⟩
  simp only [List.forall_mem_cons]
  exact ⟨trivial,trivial,trivial,fun _ member => by cases member⟩

/-- An empty list of containers is none for the master. -/
theorem parse_summaries (summaries : List ContainerSummary) :
    parseContainerList (marshalSlice (summaries.map ContainerSummary.value)) =
      if summaries = [] then none else some (summaries.map ContainerSummary.container) := by
  unfold parseContainerList parseWorkerList marshalSlice
  by_cases none_ : summaries = []
  · have nothing : loads (marshal .null) = some .null := loads_marshal trivial
    rw [none_,List.map_nil,if_pos rfl,if_pos rfl,nothing]
  · have fits : (Value.array (summaries.map ContainerSummary.value)).Fits 1000 := by
      intro item member
      obtain ⟨summary,-,rfl⟩ := List.mem_map.mp member
      exact fits_summary summary
    rw [if_neg (by simpa using none_),if_neg none_,loads_marshal fits]
    exact validated_summaries summaries

theorem parse_services (services : List ServiceInfo) :
    parseServiceList (marshal (.array (services.map ServiceInfo.value))) = some services := by
  have fits : (Value.array (services.map ServiceInfo.value)).Fits 1000 := by
    intro item member
    obtain ⟨service,-,rfl⟩ := List.mem_map.mp member
    exact fits_service service
  unfold parseServiceList parseWorkerList
  rw [loads_marshal fits]
  exact validated_services services

theorem containersOf_objects (containers : List Fields) : containersOf (containers.map Value.object) = some containers := by
  induction containers with
  | nil => rfl
  | cons c rest ih => rw [List.map_cons,containersOf,ih,Option.map_some]

/-- Two ways to choose the same elements. -/
theorem filterMap_eq_iff {α β : Type} {f g : α → Option β} (same : ∀ a, (f a).isSome = (g a).isSome) (items : List α) :
    items.filterMap f = items.filterMap g ↔ ∀ a ∈ items, f a = g a := by
  induction items with
  | nil => simp
  | cons a rest ih =>
    have both := same a
    cases left : f a with
    | none =>
      rw [left] at both
      have right : g a = none := by simpa using both.symm
      simp [left,right,ih]
    | some b =>
      rw [left] at both
      obtain ⟨c,right⟩ := Option.isSome_iff_exists.mp both.symm
      simp [left,right,ih]

theorem valueWithin_unique {depth : Nat} {value other : Value} (first : valueWithin depth data = some value)
    (second : valueWithin 10000 data = some other) : other = value := by
  obtain ⟨found,read,shown⟩ := Option.bind_eq_some_iff.mp first
  obtain ⟨found',read',shown'⟩ := Option.bind_eq_some_iff.mp second
  have same : found = found' := by
    rcases Nat.le_total depth 10000 with low | high
    · exact Option.some.inj ((readValue_mono low read).symm.trans read')
    · exact Option.some.inj (read.symm.trans (readValue_mono high read'))
  subst same
  exact Option.some.inj (shown'.symm.trans shown)

/-- What the master keeps of a summary. -/
def shownOf (c : Fields) : Option Entry :=
  (stringField (some c) "Id").map fun id => ⟨String.ofList (shortId id),containerName c,stringOr c "Image",stringOr c "State"⟩

theorem summarize_shown (containers : List Fields) :
    ((containers.filterMap (summarize sprintf)).map ContainerSummary.container).map Container.entry = containers.filterMap shownOf := by
  rw [List.map_filterMap,List.map_filterMap]
  congr 1
  funext c
  unfold summarize shownOf
  cases stringField (some c) "Id" <;> rfl

theorem shown_expected (c : Fields) : shownOf c = entryOf c ↔
    ∀ id, stringField (some c) "Id" = some id → shortId id = id.toList.take 12 := by
  unfold shownOf entryOf
  cases found : stringField (some c) "Id" with
  | none => simp
  | some id =>
    simp only [Option.map_some,Option.some.injEq,Entry.mk.injEq,and_true,forall_eq']
    exact ⟨fun same => by simpa using congrArg String.toList same,congrArg String.ofList⟩

theorem parse_listed (decoded : unmarshalList data = some containers) :
    (parseContainerList (handleListContainers sprintf data).output).map (List.map Container.entry) =
      if containers.filterMap (summarize sprintf) = [] then none else some (containers.filterMap shownOf) := by
  unfold handleListContainers
  rw [decoded]
  dsimp only
  rw [parse_summaries]
  split
  · rfl
  · rw [Option.map_some,summarize_shown]

theorem summarize_isSome (c : Fields) : (summarize sprintf c).isSome = (stringField (some c) "Id").isSome := by
  unfold summarize
  rw [Option.isSome_map]

theorem containersTold_iff {depth : Nat} (response : valueWithin depth data = some (.array (containers.map Value.object))) :
    ContainersTold sprintf data containers ↔ Listed data containers := by
  unfold ContainersTold
  by_cases decodes : (valueWithin 10000 data).isSome = true ∧ NumbersFit data
  · obtain ⟨value,read⟩ := Option.isSome_iff_exists.mp decodes.1
    have decoded : unmarshalList data = some containers := by
      rw [unmarshalList,read,valueWithin_unique response read]
      exact (if_pos decodes.2).trans (containersOf_objects containers)
    have nonempty : containers.filterMap (summarize sprintf) = [] ↔ ¬∃ c ∈ containers, (stringField (some c) "Id").isSome = true := by
      rw [List.filterMap_eq_nil_iff]
      simp [← @summarize_isSome sprintf,Option.not_isSome_iff_eq_none]
    rw [parse_listed decoded]
    by_cases none_ : containers.filterMap (summarize sprintf) = []
    · rw [if_pos none_]
      exact iff_of_false (by simp) fun listed => nonempty.mp none_ listed.some_
    · rw [if_neg none_,Option.some.injEq,filterMap_eq_iff fun c => by simp [shownOf,entryOf]]
      constructor
      · exact fun same => ⟨decodes,not_not.mp fun empty => none_ (nonempty.mpr empty),fun c member => (shown_expected c).mp (same c member)⟩
      · exact fun listed c member => (shown_expected c).mpr (listed.ids c member)
  · have refused : unmarshalList data = none := by
      unfold unmarshalList
      cases read : valueWithin 10000 data with
      | none => rfl
      | some value =>
        rw [valueWithin_unique response read]
        exact if_neg fun fits => decodes ⟨by rw [read]; rfl,fits⟩
    have nothing : parseContainerList (handleListContainers sprintf data).output = none := by
      unfold handleListContainers
      rw [refused]
      rfl
    rw [nothing]
    exact iff_of_false (by simp) fun listed => decodes listed.decoded

theorem fields_spaces {line : List Char} (spaces : ∀ c ∈ line, Go.isSpace c = true) : fields line = [] := by
  unfold fields
  induction line with
  | nil => simp
  | cons c rest ih =>
    have later := ih fun d member => spaces d (List.mem_cons_of_mem _ member)
    rw [List.splitOnP_cons_eq_if_modifyHead,if_pos (spaces c List.mem_cons_self)]
    simpa using later

theorem unit_bullet (line : ServiceLine) : line.unit ≠ ['●'] := by
  obtain ⟨stem,filled,named⟩ := line.named
  intro same
  have length := congrArg List.length (named.symm.trans same)
  rw [List.length_append] at length
  have eight : suffix_.length = 8 := rfl
  have one : ['●'].length = 1 := rfl
  omega

theorem isServiceName_iff (line : ServiceLine) : isServiceName line.unit = true ↔ line.Plain := by
  obtain ⟨stem,filled,named⟩ := line.named
  have suffix : suffix_.isSuffixOf line.unit = true := by
    rw [List.isSuffixOf_iff_suffix,named]
    exact List.suffix_append stem suffix_
  have longer : suffix_.length < line.unit.length := by
    rw [named,List.length_append]
    have some_ := List.length_pos_iff.mpr filled
    omega
  unfold isServiceName
  rw [suffix,decide_eq_true longer,Bool.and_self,Bool.true_and,List.all_eq_true]
  have either := List.all_eq_true.mp line.unitChars
  constructor
  · intro target
    constructor
    · intro member
      exact absurd (target ':' member) (by decide)
    · intro member
      exact absurd (target '\\' member) (by decide)
  · intro plain c member
    have cases := either c member
    unfold isUnitChar at cases
    rcases Bool.or_eq_true_iff.mp cases with first | slash
    · rcases Bool.or_eq_true_iff.mp first with target | colon
      · exact target
      · exact absurd (of_decide_eq_true colon ▸ member) plain.1
    · exact absurd (of_decide_eq_true slash ▸ member) plain.2

theorem parseLine_service (line : ServiceLine) :
    parseLine line.text = if isServiceName line.unit then some line.service else none := by
  have words := line.words
  have shown : ¬trimSpace line.text = [] := by
    intro blank
    rw [fields_spaces (trimSpace_eq_nil.mp blank)] at words
    cases bullet : line.bullet <;> simp [bullet] at words
  unfold parseLine
  rw [if_neg shown,words]
  cases line.bullet with
  | true => rfl
  | false =>
    simp only [Bool.false_eq_true,if_false,List.nil_append]
    split
    · rename_i same
      exact absurd (List.cons.inj same).1 (unit_bullet line)
    · rfl

theorem collect_few (texts : List (List Char)) (services : List ServiceInfo) (few : services.length + (texts.filterMap parseLine).length ≤ 500) :
    collect texts services = services ++ texts.filterMap parseLine := by
  induction texts generalizing services with
  | nil => simp [collect]
  | cons text rest ih =>
    rw [collect]
    cases parsed : parseLine text with
    | none =>
      simp only [List.filterMap_cons,parsed] at few ⊢
      exact ih services few
    | some service =>
      simp only [List.filterMap_cons,parsed,List.length_cons] at few ⊢
      split
      · have last : rest.filterMap parseLine = [] := List.length_eq_zero_iff.mp (by omega)
        rw [last]
      · rw [ih (services ++ [service]) (by simp; omega),List.append_assoc]
        rfl

theorem filterMap_services (lines : List ServiceLine) : (lines.map ServiceLine.text ++ [[]]).filterMap parseLine =
    (lines.filter fun line => isServiceName line.unit).map ServiceLine.service := by
  have blank : parseLine [] = none := rfl
  rw [List.filterMap_append,List.filterMap_cons,blank]
  simp only [List.filterMap_nil,List.append_nil]
  induction lines with
  | nil => rfl
  | cons line rest ih =>
    rw [List.map_cons,List.filterMap_cons,parseLine_service,List.filter_cons]
    split <;> simp_all

theorem servicesTold_iff (few : lines.length ≤ 500) : ServicesTold lines ↔ ∀ line ∈ lines, line.Plain := by
  have single : ∀ text ∈ lines.map ServiceLine.text, '\n' ∉ text := by
    intro text member
    obtain ⟨line,-,rfl⟩ := List.mem_map.mp member
    exact line.single
  have shorter := List.length_filter_le (fun line => isServiceName line.unit) lines
  have parsed : parseServicesOutput (unlines (lines.map ServiceLine.text)) =
      (lines.filter fun line => isServiceName line.unit).map ServiceLine.service := by
    rw [parseServicesOutput,splitOn_unlines single,collect_few,filterMap_services,List.nil_append]
    rw [filterMap_services,List.length_map,List.length_nil]
    omega
  unfold ServicesTold handleListServices
  rw [parse_services,parsed,Option.some.injEq]
  constructor
  · intro same line member
    have length := congrArg List.length same
    rw [List.length_map,List.length_map] at length
    exact (isServiceName_iff line).mp (List.length_filter_eq_length_iff.mp length line member)
  · intro plain
    rw [List.filter_eq_self.mpr fun line member => (isServiceName_iff line).mpr (plain line member)]

/-- The master has the containers of a response exactly when it is decoded, lists one and cuts no Id inside a
character, and the services of an output exactly when no unit name has a colon or a backslash. -/
theorem inventory_iff (sprintf : Option (String × Value) → Literal → String) {depth : Nat} {data : List Char} {containers : List Fields}
    (response : valueWithin depth data = some (.array (containers.map Value.object))) {lines : List ServiceLine} (few : lines.length ≤ 500) :
    (ContainersTold sprintf data containers ↔ Listed data containers) ∧ (ServicesTold lines ↔ ∀ line ∈ lines, line.Plain) :=
  ⟨containersTold_iff response,servicesTold_iff few⟩

theorem inventory_iff_empty : (ContainersTold (fun _ _ => "80") ['[',']'] [] ↔ Listed ['[',']'] []) ∧
    (ServicesTold [] ↔ ∀ line ∈ ([] : List ServiceLine), line.Plain) :=
  @inventory_iff (fun _ _ => "80") 1 ['[',']'] [] rfl [] (Nat.zero_le 500)

/-- No container is no list for the master. -/
theorem not_told_empty : ¬∀ sprintf depth data containers lines, valueWithin depth data = some (.array (containers.map Value.object)) →
    lines.length ≤ 500 → ContainersTold sprintf data containers ∧ ServicesTold lines := by
  intro told
  have empty := (told (fun _ _ => "80") 1 ['[',']'] [] [] rfl (Nat.zero_le 500)).1
  cases empty

end Vigile.Inventory
