import Mathlib.Data.List.Infix
import Mathlib.Data.List.Nodup
import Mathlib.Data.List.TakeWhile
import Vigile.Python

/-! Which node a text names: by its id, by a name or hostname, or by a part of one. -/
namespace Vigile.NodeResolution

open Python

structure Node where
  id : String
  name : String
  hostname : Option String
  deriving DecidableEq

namespace Sqlite

/-- A text up to its first NUL, which is what `LOWER` and `LIKE` see of it. -/
def cString (text : List Char) : List Char := text.takeWhile (· ≠ '\x00')

/-- Only the letters of ASCII are put in lower case. -/
def fold (text : List Char) : List Char := text.map Char.toLower

/-- `text LIKE pattern` without an escape character. -/
def like : List Char → List Char → Bool
  | [],text => text.isEmpty
  | '%' :: pattern,text => text.tails.any (like pattern)
  | '_' :: pattern,text =>
    match text with
    | [] => false
    | _ :: rest => like pattern rest
  | c :: pattern,text =>
    match text with
    | [] => false
    | d :: rest => c.toLower = d.toLower && like pattern rest

/-- SQLITE_MAX_LIKE_PATTERN_LENGTH -/
def maxPatternLength : Nat := 50000

end Sqlite

open Sqlite

section
variable (lower : String → String)

def Node.names (node : Node) : List String := node.name :: node.hostname.toList

def exactMatch (text : String) (node : Node) : Bool :=
  node.names.any fun name => fold (cString name.toList) = (lower text).toList

def partialMatch (text : String) (node : Node) : Bool :=
  node.names.any fun name => like (cString ('%' :: (text.toList ++ ['%']))) (cString name.toList)

def ambiguousNode (text : String) (rows : List Node) : PyError :=
  let names := ", ".intercalate (rows.map fun row =>
    "'" ++ row.name ++ "' (" ++ String.ofList (row.id.toList.take 8) ++ ")")
  .valueError ("Le nom de nœud '" ++ text ++ "' est ambigu. Correspondances trouvées : " ++ names ++
    ". Veuillez spécifier l'ID ou le nom exact.")

def unknownNode (text : String) : PyError := .valueError ("Aucun nœud trouvé avec le nom ou l'ID '" ++ text ++ "'.")

/-- The rows of the third query; a pattern that is too long is refused where there is a row to compare. -/
def selectPartial (nodes : List Node) (text : String) : Except PyError (List Node) :=
  if nodes ≠ [] ∧ maxPatternLength < ("%" ++ text ++ "%").utf8ByteSize then
    .error (.operationalError "LIKE or GLOB pattern too complex")
  else .ok (nodes.filter (partialMatch text))

def resolveNode (nodes : List Node) (text : String) : Except PyError Node :=
  match nodes.find? fun node => node.id = text with
  | some node => .ok node
  | none =>
    match nodes.filter (exactMatch lower text) with
    | [node] => .ok node
    | [] =>
      match selectPartial nodes text with
      | .error error => .error error
      | .ok [node] => .ok node
      | .ok [] => .error (unknownNode text)
      | .ok rows => .error (ambiguousNode text rows)
    | rows => .error (ambiguousNode text rows)

/-- A name or hostname is the text, whatever the case. -/
def Equals (text : String) (node : Node) : Prop := ∃ name ∈ node.names, lower name = lower text

def Contains (text : String) (node : Node) : Prop := ∃ name ∈ node.names, (lower text).toList <:+: (lower name).toList

def Only (p : Node → Prop) (nodes : List Node) (node : Node) : Prop :=
  node ∈ nodes ∧ p node ∧ ∀ other ∈ nodes, p other → other = node

def Named (nodes : List Node) (text : String) (node : Node) : Prop :=
  (node ∈ nodes ∧ node.id = text) ∨
    (∀ other ∈ nodes, other.id ≠ text) ∧
      (Only (Equals lower text) nodes node ∨
        (∀ other ∈ nodes, ¬Equals lower text other) ∧ Only (Contains lower text) nodes node)

def Resolves (nodes : List Node) (text : String) : Prop :=
  ∀ node, resolveNode lower nodes text = .ok node ↔ Named lower nodes text node

/-- No wildcard and no NUL, and not too long for a pattern. -/
def PlainText (text : String) : Prop :=
  '%' ∉ text.toList ∧ '_' ∉ text.toList ∧ '\x00' ∉ text.toList ∧ ("%" ++ text ++ "%").utf8ByteSize ≤ maxPatternLength

/-- Whether a name is the text, or contains it, does not depend on the case of letters beyond ASCII. -/
def FoldsAlike (text name : String) : Prop :=
  '\x00' ∉ name.toList ∧ (fold name.toList = (lower text).toList ↔ lower name = lower text) ∧
    (fold text.toList <:+: fold name.toList ↔ (lower text).toList <:+: (lower name).toList)

end

def DistinctIds (nodes : List Node) : Prop := (nodes.map Node.id).Nodup

namespace Sqlite

variable {pattern text : List Char}

theorem like_cons {c : Char} (notAny : c ≠ '%') (notOne : c ≠ '_') :
    like (c :: pattern) text = true ↔ ∃ d rest, text = d :: rest ∧ c.toLower = d.toLower ∧ like pattern rest = true := by
  cases text with
  | nil | cons d rest => simp [like]

theorem like_any :
    like ('%' :: pattern) text = true ↔ ∃ rest, rest <:+ text ∧ like pattern rest = true := by
  simp [like]

/-- A text without wildcards matches where it begins the other one, up to the case of ASCII. -/
theorem like_beginning (noAny : '%' ∉ pattern) (noOne : '_' ∉ pattern) :
    like (pattern ++ ['%']) text = true ↔ fold pattern <+: fold text := by
  induction pattern generalizing text with
  | nil =>
    refine iff_of_true (like_any.mpr ⟨[],List.nil_suffix,rfl⟩) ?_
    exact List.nil_prefix
  | cons c pattern ih =>
    rw [List.mem_cons,not_or] at noAny noOne
    rw [List.cons_append,like_cons (Ne.symm noAny.1) (Ne.symm noOne.1)]
    cases text with
    | nil => simp [fold]
    | cons d text =>
      have later : like (pattern ++ ['%']) text = true ↔ fold pattern <+: fold text := ih noAny.2 noOne.2
      unfold fold at later ⊢
      rw [List.map_cons,List.map_cons,List.cons_prefix_cons,← later]
      simp

theorem like_within (noAny : '%' ∉ pattern) (noOne : '_' ∉ pattern) :
    like ('%' :: (pattern ++ ['%'])) text = true ↔ fold pattern <:+: fold text := by
  rw [like_any,List.infix_iff_prefix_suffix]
  constructor
  · rintro ⟨rest,suffix,matched⟩
    exact ⟨fold rest,(like_beginning noAny noOne).mp matched,suffix.map Char.toLower⟩
  · rintro ⟨folded,leads,suffix⟩
    obtain ⟨rest,inside,rfl⟩ := List.suffix_map_iff.mp suffix
    exact ⟨rest,inside,(like_beginning noAny noOne).mpr leads⟩

theorem cString_eq (nulless : '\x00' ∉ text) : cString text = text :=
  List.takeWhile_eq_self_iff.mpr fun c member => by
    simpa using fun same : c = '\x00' => nulless (same ▸ member)

end Sqlite

variable {lower : String → String} {nodes : List Node} {node : Node} {text : String}

theorem exactMatch_iff (alike : ∀ name ∈ node.names, FoldsAlike lower text name) :
    exactMatch lower text node = true ↔ Equals lower text node := by
  unfold exactMatch Equals
  rw [List.any_eq_true]
  refine exists_congr fun name => and_congr_right fun member => ?_
  obtain ⟨nulless,equals,-⟩ := alike name member
  rw [decide_eq_true_iff,cString_eq nulless,equals]

theorem partialMatch_iff (plain : PlainText text) (alike : ∀ name ∈ node.names, FoldsAlike lower text name) :
    partialMatch text node = true ↔ Contains lower text node := by
  obtain ⟨noAny,noOne,nulless,-⟩ := plain
  have pattern : cString ('%' :: (text.toList ++ ['%'])) = '%' :: (text.toList ++ ['%']) :=
    cString_eq (by simp [nulless])
  unfold partialMatch Contains
  rw [List.any_eq_true]
  refine exists_congr fun name => and_congr_right fun member => ?_
  obtain ⟨nullessName,-,contains⟩ := alike name member
  rw [pattern,cString_eq nullessName,like_within noAny noOne,contains]

theorem filter_eq_singleton {p : Node → Bool} {q : Node → Prop} (distinct : nodes.Nodup)
    (same : ∀ node ∈ nodes, (p node = true ↔ q node)) : nodes.filter p = [node] ↔ Only q nodes node := by
  have rows (other : Node) : other ∈ nodes.filter p ↔ other ∈ nodes ∧ q other := by
    rw [List.mem_filter]
    exact and_congr_right (same other)
  constructor
  · intro single
    have member := (rows node).mp (by simp [single])
    refine ⟨member.1,member.2,fun other inside holds => ?_⟩
    have listed := (rows other).mpr ⟨inside,holds⟩
    simpa [single] using listed
  · rintro ⟨inside,holds,alone⟩
    have all : ∀ other ∈ nodes.filter p, other = node := fun other member =>
      alone other ((rows other).mp member).1 ((rows other).mp member).2
    have unique := distinct.filter p
    match filtered : nodes.filter p with
    | [] =>
      have listed := (rows node).mpr ⟨inside,holds⟩
      simp [filtered] at listed
    | [single] => rw [all single (by simp [filtered])]
    | first :: second :: rest =>
      rw [filtered] at unique
      have equal := (all first (by simp [filtered])).trans (all second (by simp [filtered])).symm
      simp [equal] at unique

theorem filter_eq_nil {p : Node → Bool} {q : Node → Prop} (same : ∀ node ∈ nodes, (p node = true ↔ q node)) :
    nodes.filter p = [] ↔ ∀ node ∈ nodes, ¬q node := by
  rw [List.filter_eq_nil_iff]
  exact forall₂_congr fun other member => not_congr (same other member)

theorem resolveNode_id (distinct : DistinctIds nodes) {found : Node} (first : nodes.find? (fun node => node.id = text) = some found) :
    resolveNode lower nodes text = .ok node ↔ Named lower nodes text node := by
  have member := List.mem_of_find?_eq_some first
  have id : found.id = text := by simpa using List.find?_some first
  have resolved : resolveNode lower nodes text = .ok found := by
    unfold resolveNode
    rw [first]
  rw [resolved,Except.ok.injEq]
  constructor
  · rintro rfl
    exact .inl ⟨member,id⟩
  · rintro (⟨inside,same⟩ | ⟨others,-⟩)
    · exact List.inj_on_of_nodup_map distinct member inside (id.trans same.symm)
    · exact absurd id (others found member)

theorem resolveNode_names (distinct : DistinctIds nodes) (plain : PlainText text)
    (alike : ∀ node ∈ nodes, ∀ name ∈ node.names, FoldsAlike lower text name)
    (missed : nodes.find? (fun node => node.id = text) = none) :
    resolveNode lower nodes text = .ok node ↔ Named lower nodes text node := by
  have unique : nodes.Nodup := List.Nodup.of_map Node.id distinct
  have noId : ∀ other ∈ nodes, other.id ≠ text := by simpa using missed
  have exactly : ∀ node ∈ nodes, (exactMatch lower text node = true ↔ Equals lower text node) :=
    fun node member => exactMatch_iff (alike node member)
  have partly : ∀ node ∈ nodes, (partialMatch text node = true ↔ Contains lower text node) :=
    fun node member => partialMatch_iff plain (alike node member)
  have selected : selectPartial nodes text = .ok (nodes.filter (partialMatch text)) :=
    if_neg fun long => absurd plain.2.2.2 (not_le.mpr long.2)
  have named : Named lower nodes text node ↔ nodes.filter (exactMatch lower text) = [node] ∨
      nodes.filter (exactMatch lower text) = [] ∧ nodes.filter (partialMatch text) = [node] := by
    rw [filter_eq_singleton unique exactly,filter_eq_singleton unique partly,filter_eq_nil exactly]
    unfold Named
    constructor
    · rintro (⟨member,id⟩ | ⟨-,tiers⟩)
      · exact absurd id (noId node member)
      · exact tiers
    · exact fun tiers => .inr ⟨noId,tiers⟩
  rw [named]
  unfold resolveNode
  rw [missed]
  match nodes.filter (exactMatch lower text) with
  | [single] | first :: second :: rest => simp
  | [] =>
    rw [selected]
    match nodes.filter (partialMatch text) with
    | [] | [single] | first :: second :: rest => simp

theorem resolves_of_plain (distinct : DistinctIds nodes) (plain : PlainText text)
    (alike : ∀ node ∈ nodes, ∀ name ∈ node.names, FoldsAlike lower text name) : Resolves lower nodes text := by
  intro node
  cases first : nodes.find? fun node => node.id = text with
  | some found => exact resolveNode_id distinct first
  | none => exact resolveNode_names distinct plain alike first

/-- Another character in the place of each wildcard. -/
def otherwise (c : Char) : Char := if c = '%' ∨ c = '_' then 'x' else c

theorem like_otherwise (pattern : List Char) : like (pattern ++ ['%']) (pattern.map otherwise) = true := by
  induction pattern with
  | nil => rfl
  | cons c pattern ih =>
    rw [List.cons_append,List.map_cons]
    by_cases any : c = '%'
    · subst any
      exact like_any.mpr ⟨pattern.map otherwise,List.suffix_cons _ _,ih⟩
    · by_cases one : c = '_'
      · subst one
        exact ih
      · exact (like_cons any one).mpr ⟨c,pattern.map otherwise,by simp [otherwise,any,one],rfl,ih⟩

/-- The two are different where the text has a wildcard. -/
theorem fold_otherwise {pattern : List Char} (wildcard : '%' ∈ pattern ∨ '_' ∈ pattern) :
    fold (pattern.map otherwise) ≠ fold pattern := by
  intro same
  unfold fold at same
  rw [List.map_map,List.map_inj_left] at same
  rcases wildcard with member | member
  all_goals exact absurd (same _ member) (by decide)

theorem nulless_otherwise {cs : List Char} (nulless : '\x00' ∉ cs) : '\x00' ∉ cs.map otherwise := by
  intro member
  obtain ⟨c,inside,same⟩ := List.mem_map.mp member
  unfold otherwise at same
  split at same
  · exact absurd same (by decide)
  · exact nulless (same ▸ inside)

variable {name : String}

/-- The one node with this name is returned for the text. -/
theorem resolveNode_otherwise (named : name.toList = text.toList.map otherwise) (nonempty : "" ≠ text)
    (nulless : '\x00' ∉ text.toList) (fits : ("%" ++ text ++ "%").utf8ByteSize ≤ maxPatternLength)
    (lowerText : (lower text).toList = fold text.toList) (differs : fold name.toList ≠ fold text.toList) :
    resolveNode lower [⟨"",name,none⟩] text = .ok ⟨"",name,none⟩ := by
  have nullessName : '\x00' ∉ name.toList := named ▸ nulless_otherwise nulless
  have missed : ([⟨"",name,none⟩] : List Node).find? (fun node => node.id = text) = none := by
    simp [nonempty]
  have unequal : exactMatch lower text ⟨"",name,none⟩ = false := by
    simp [exactMatch,Node.names,cString_eq nullessName,lowerText,differs]
  have contained : partialMatch text ⟨"",name,none⟩ = true := by
    have pattern : cString ('%' :: (text.toList ++ ['%'])) = '%' :: (text.toList ++ ['%']) :=
      cString_eq (by simp [nulless])
    have matched : like ('%' :: (text.toList ++ ['%'])) name.toList = true :=
      like_any.mpr ⟨name.toList,List.suffix_refl _,named ▸ like_otherwise _⟩
    simp [partialMatch,Node.names,pattern,cString_eq nullessName,matched]
  have selected : selectPartial [⟨"",name,none⟩] text = .ok [⟨"",name,none⟩] := by
    unfold selectPartial
    rw [if_neg fun long => absurd fits (not_le.mpr long.2)]
    simp [contained]
  unfold resolveNode
  rw [missed]
  simp [unequal,selected]

/-- It is returned though its name neither is the text nor contains it. -/
theorem not_resolves_otherwise (named : name.toList = text.toList.map otherwise)
    (wildcard : '%' ∈ text.toList ∨ '_' ∈ text.toList) (nulless : '\x00' ∉ text.toList)
    (fits : ("%" ++ text ++ "%").utf8ByteSize ≤ maxPatternLength) (lowerText : (lower text).toList = fold text.toList)
    (lowerName : (lower name).toList = fold name.toList) : ¬Resolves lower [⟨"",name,none⟩] text := by
  have nonempty : "" ≠ text := by
    rintro rfl
    simp at wildcard
  have differs : fold name.toList ≠ fold text.toList := named ▸ fold_otherwise wildcard
  have resolved := resolveNode_otherwise named nonempty nulless fits lowerText differs
  have apart : ¬(lower text).toList <:+: (lower name).toList := by
    rw [lowerText,lowerName]
    intro inside
    refine differs (inside.eq_of_length ?_).symm
    simp [fold,named]
  intro resolves
  rcases (resolves _).mp resolved with ⟨-,id⟩ | ⟨-,only | ⟨-,only⟩⟩
  · exact nonempty id
  · obtain ⟨found,member,same⟩ := only.2.1
    obtain rfl : found = name := by simpa [Node.names] using member
    exact apart (by rw [same])
  · obtain ⟨found,member,inside⟩ := only.2.1
    obtain rfl : found = name := by simpa [Node.names] using member
    exact apart inside

/-- `str.lower` on the texts of ASCII. -/
def LowersAscii (lower : String → String) : Prop :=
  ∀ text : String, (∀ c ∈ text.toList, c.toNat < 128) → (lower text).toList = fold text.toList

def Ascii (text : String) : Prop := ∀ c ∈ text.toList, c.toNat < 128

theorem foldsAlike_ascii (lowers : LowersAscii lower) (asciiText : Ascii text) (asciiName : Ascii name)
    (nulless : '\x00' ∉ name.toList) : FoldsAlike lower text name := by
  have lowerText := lowers text asciiText
  have lowerName := lowers name asciiName
  refine ⟨nulless,?_,?_⟩
  · rw [← lowerName,String.toList_inj]
  · rw [lowerText,lowerName]

theorem otherwise_ascii (asciiText : Ascii text) (nulless : '\x00' ∉ text.toList) :
    ∀ c ∈ text.toList.map otherwise, c.toNat < 128 ∧ c ≠ '\x00' := by
  intro c member
  obtain ⟨d,inside,rfl⟩ := List.mem_map.mp member
  unfold otherwise
  split
  · exact by decide
  · exact ⟨asciiText d inside,fun same => nulless (same ▸ inside)⟩

theorem exists_not_resolves (lowers : LowersAscii lower) (asciiText : Ascii text) (nulless : '\x00' ∉ text.toList)
    (fits : ("%" ++ text ++ "%").utf8ByteSize ≤ maxPatternLength) (wildcard : '%' ∈ text.toList ∨ '_' ∈ text.toList) :
    ∃ nodes, DistinctIds nodes ∧ (∀ node ∈ nodes, ∀ name ∈ node.names, FoldsAlike lower text name) ∧
      ¬Resolves lower nodes text := by
  have named : (String.ofList (text.toList.map otherwise)).toList = text.toList.map otherwise := String.toList_ofList
  have chars := otherwise_ascii asciiText nulless
  have asciiName : Ascii (String.ofList (text.toList.map otherwise)) := by
    unfold Ascii
    rw [named]
    exact fun c member => (chars c member).1
  have nullessName : '\x00' ∉ (String.ofList (text.toList.map otherwise)).toList := by
    rw [named]
    exact fun member => (chars _ member).2 rfl
  refine ⟨[⟨"",String.ofList (text.toList.map otherwise),none⟩],List.nodup_singleton _,?_,
    not_resolves_otherwise named wildcard nulless fits (lowers _ asciiText) (lowers _ asciiName)⟩
  intro node member name inside
  obtain rfl := List.mem_singleton.mp member
  obtain rfl : name = String.ofList (text.toList.map otherwise) := by simpa [Node.names] using inside
  exact foldsAlike_ascii lowers asciiText asciiName nullessName

def asciiLower (text : String) : String := String.ofList (fold text.toList)

end Vigile.NodeResolution
