import Vigile.ActionProposal
import Vigile.Binary64

/-! Which container of a list a target names: exactly, by a part of its name, or by a similar text. -/
namespace Vigile.ContainerMatch

open Python Proposals

/-- What the matching relies on: `str.lower`, `str` of a value that is no string, and
`SequenceMatcher(None, a, b).ratio()`. -/
structure Texts where
  lower : String → String
  str : Json → String
  ratio : String → String → ℚ

section
variable (py : Texts)

def lstripSlash (value : String) : String := String.ofList (value.toList.dropWhile (· = '/'))

def normalizeMatchText (value : String) : String := lstripSlash (py.lower (strip value))

def strOf : Json → String
  | .str text => text
  | other => py.str other

def containerId (container : Fields) : String := strip (strOf py ((container.get "id").or (.str "")))

def fullName (container : Fields) : String :=
  lstripSlash (strip (strOf py ((container.get "name").or (.str ""))))

/-- The name between hyphens, underscores and dots. -/
def nameParts (name : String) : List String :=
  ((name.toList.map fun c => if c = '_' ∨ c = '.' then '-' else c).splitOn '-').map String.ofList

/-- The texts that are compared, each with what is sent to Docker. -/
def containerMatchVariants (container : Fields) : List (String × String) :=
  let container_id := containerId py container
  let name := fullName py container
  let preferred_name := if name ≠ "" then name else container_id
  let named : List (String × String) :=
    if name ≠ "" then
      (normalizeMatchText py name,preferred_name) ::
        ((nameParts name).map fun part => (normalizeMatchText py part,preferred_name)).filter fun v => v.1 ≠ ""
    else []
  let identified : List (String × String) :=
    if container_id ≠ "" then [(normalizeMatchText py container_id,container_id)] else []
  ((named ++ identified).filter fun variant => variant.1 ≠ "").eraseDups

def exactValue (normalized_target : String) (container : Fields) : Option String :=
  ((containerMatchVariants py container).find? fun variant => normalized_target = variant.1).map Prod.snd

def bestScore (normalized_target : String) (container : Fields) : Option (ℚ × String) :=
  let best := (containerMatchVariants py container).foldl (fun best variant =>
    let score := py.ratio normalized_target variant.1
    if best.1 < score then (score,variant.2) else best) (0,"")
  if best.2 ≠ "" then some best else none

def fuzzyContainerThreshold : ℚ := 3 / 4

/-- The float nearest to 0.08. -/
def fuzzyContainerAmbiguityMargin : ℚ := 5764607523034235 / 72057594037927936

def difference (a b : ℚ) : ℚ := ((Binary64.round (a < b) |a - b|).map Binary64.value).getD 0

/-- Too good to be left out beside the best. -/
def rival (top_score score : ℚ) : Bool :=
  fuzzyContainerThreshold ≤ score && difference top_score score ≤ fuzzyContainerAmbiguityMargin

/-- The best of the scored containers, unless it is too bad or another is nearly as good. -/
def fuzzyMatch (scored : List (ℚ × String)) : Resolution :=
  match scored.mergeSort fun a b => b.1 ≤ a.1 with
  | [] => .notFound
  | top :: rest =>
    if top.1 < fuzzyContainerThreshold then .notFound
    else
      let ambiguous := (rest.filter fun other => rival top.1 other.1).map Prod.snd
      if ambiguous = [] then .matched top.2 else .ambiguous (top.2 :: ambiguous)

def matchContainer (target : String) (containers : List Fields) : Resolution :=
  let normalized_target := normalizeMatchText py target
  if normalized_target = "" then .notFound
  else
    match containers.filterMap (exactValue py normalized_target) with
    | [value] => .matched value
    | [] => fuzzyMatch (containers.filterMap (bestScore py normalized_target))
    | candidates => .ambiguous candidates

/-- `_resolve_container_target`: the cached containers are asked first, the live ones where these do not resolve the target. -/
def resolveContainerTarget (cached live : List Fields) (target : String) : Resolution :=
  match matchContainer py target cached with
  | .notFound => matchContainer py target live
  | found => found

/-- The target is the full name or the full id, compared as the matching compares texts. -/
def Names (target : String) (container : Fields) : Prop :=
  normalizeMatchText py target ≠ "" ∧
    (normalizeMatchText py target = normalizeMatchText py (fullName py container) ∧ fullName py container ≠ "" ∨
      normalizeMatchText py target = normalizeMatchText py (containerId py container) ∧ containerId py container ≠ "")

def Designates (value : String) (container : Fields) : Prop :=
  value = fullName py container ∨ value = containerId py container

inductive Meets (container : Fields) : Resolution → Prop
  | matched (value : String) (designates : Designates py value container) : Meets container (.matched value)
  | ambiguous (candidates : List String) : Meets container (.ambiguous candidates)

/-- The two entries are one container to the matching. -/
def SameContainer (entry container : Fields) : Prop :=
  fullName py entry = fullName py container ∧ containerId py entry = containerId py container

end

variable {py : Texts} {target value : String} {container entry : Fields} {containers cached live : List Fields}

theorem matchContainer_single (some : normalizeMatchText py target ≠ "")
    (single : containers.filterMap (exactValue py (normalizeMatchText py target)) = [value]) :
    matchContainer py target containers = .matched value := by
  simp only [matchContainer,if_neg some,single]

theorem matchContainer_several (some : normalizeMatchText py target ≠ "") {first second : String} {rest : List String}
    (several : containers.filterMap (exactValue py (normalizeMatchText py target)) = first :: second :: rest) :
    matchContainer py target containers = .ambiguous (first :: second :: rest) := by
  simp only [matchContainer,if_neg some,several]

theorem resolveContainerTarget_cached (resolved : matchContainer py target cached ≠ .notFound) :
    resolveContainerTarget py cached live target = matchContainer py target cached := by
  unfold resolveContainerTarget
  split
  · rename_i missed
    exact absurd missed resolved
  · rfl

theorem resolveContainerTarget_live (missed : matchContainer py target cached = .notFound) :
    resolveContainerTarget py cached live target = matchContainer py target live := by
  unfold resolveContainerTarget
  rw [missed]

/-! A cached list that no longer holds the container -/

/-- Texts without capitals, and no two similar. -/
def plainTexts : Texts := ⟨id,fun _ => "",fun _ _ => 0⟩

theorem not_meets_stale :
    ¬∀ (py : Texts) (cached live : List Fields) (target : String) (container : Fields), container ∈ live →
      target = fullName py container ∨ target = containerId py container →
        Meets py container (resolveContainerTarget py cached live target) := by
  intro always
  have meets := always plainTexts [[("id",.str "2"),("name",.str "web-old")]] [[("id",.str "1"),("name",.str "web")]] "web"
    [("id",.str "1"),("name",.str "web")] List.mem_cons_self (.inl (by decide +kernel))
  have cached : matchContainer plainTexts "web" [[("id",.str "2"),("name",.str "web-old")]] = .matched "web-old" :=
    matchContainer_single (by decide +kernel) (by decide +kernel)
  rw [resolveContainerTarget_cached (by simp [cached]),cached] at meets
  obtain ⟨_,named | identified⟩ := meets
  · exact absurd named (by decide +kernel)
  · exact absurd identified (by decide +kernel)

/-! What an exact match says -/

theorem designates_of_variant {variant : String × String} (member : variant ∈ containerMatchVariants py container) :
    Designates py variant.2 container := by
  unfold containerMatchVariants at member
  simp only [List.mem_eraseDups,List.mem_filter,List.mem_append] at member
  obtain ⟨named | identified,-⟩ := member
  · split at named
    · rcases List.mem_cons.mp named with rfl | part
      · exact .inl rfl
      · obtain ⟨inside,-⟩ := List.mem_filter.mp part
        obtain ⟨text,-,rfl⟩ := List.mem_map.mp inside
        exact .inl rfl
    · simp at named
  · split at identified
    · obtain rfl := List.mem_singleton.mp identified
      exact .inr rfl
    · simp at identified

theorem designates_of_exactValue {normalized : String} (found : exactValue py normalized container = some value) :
    Designates py value container := by
  obtain ⟨variant,matched,rfl⟩ := Option.map_eq_some_iff.mp found
  exact designates_of_variant (List.mem_of_find?_eq_some matched)

theorem exactValue_of_names (names : Names py target container) :
    ∃ value, exactValue py (normalizeMatchText py target) container = some value := by
  have listed : ∃ variant ∈ containerMatchVariants py container, normalizeMatchText py target = variant.1 := by
    obtain ⟨some,⟨same,named⟩ | ⟨same,identified⟩⟩ := names
    · refine ⟨(normalizeMatchText py (fullName py container),fullName py container),?_,same⟩
      simp [containerMatchVariants,List.mem_eraseDups,named,← same,some]
    · refine ⟨(normalizeMatchText py (containerId py container),containerId py container),?_,same⟩
      simp [containerMatchVariants,List.mem_eraseDups,identified,← same,some]
  obtain ⟨variant,member,same⟩ := listed
  cases found : (containerMatchVariants py container).find? fun variant => normalizeMatchText py target = variant.1 with
  | none => exact absurd (List.find?_eq_none.mp found variant member) (by simpa using same)
  | some first => exact ⟨first.2,by simp only [exactValue,found,Option.map_some]⟩

theorem matchContainer_nil : matchContainer py target [] = .notFound := by
  simp [matchContainer,fuzzyMatch]

/-- A list that holds the container matches it, or several. -/
theorem meets_of_mem (names : Names py target container) (member : container ∈ containers) :
    Meets py container (matchContainer py target containers) := by
  obtain ⟨value,found⟩ := exactValue_of_names names
  have listed : value ∈ containers.filterMap (exactValue py (normalizeMatchText py target)) :=
    List.mem_filterMap.mpr ⟨container,member,found⟩
  match exact : containers.filterMap (exactValue py (normalizeMatchText py target)) with
  | [] => simp [exact] at listed
  | [single] =>
    rw [matchContainer_single names.1 exact]
    rw [exact,List.mem_singleton] at listed
    exact .matched _ (listed ▸ designates_of_exactValue found)
  | first :: second :: rest =>
    rw [matchContainer_several names.1 exact]
    exact .ambiguous _

theorem names_same (same : SameContainer py entry container) (names : Names py target container) :
    Names py target entry := by
  unfold Names at names ⊢
  rwa [same.1,same.2]

theorem meets_same (same : SameContainer py entry container) {resolution : Resolution}
    (meets : Meets py entry resolution) : Meets py container resolution := by
  cases meets with
  | matched value designates =>
    refine .matched value ?_
    unfold Designates at designates ⊢
    rwa [same.1,same.2] at designates
  | ambiguous candidates => exact .ambiguous candidates

theorem difference_self (score : ℚ) : difference score score = 0 := by
  have zero : Binary64.round false 0 = some ⟨false,0,-1074,by decide⟩ := by
    simp [Binary64.round,Binary64.scale,Binary64.nearest,Binary64.ofParts]
  simp only [difference,lt_self_iff_false,decide_false,sub_self,abs_zero,zero]
  simp [Binary64.value,Binary64.magnitude]

/-- One score is good enough and leaves no rival and no better one. -/
def Dominant (scored : List (ℚ × String)) (value : String) : Prop :=
  ∃ (score : ℚ) (rest : List (ℚ × String)), scored.Perm ((score,value) :: rest) ∧ fuzzyContainerThreshold ≤ score ∧
    ∀ other ∈ rest, other.1 ≤ score ∧ rival score other.1 = false

theorem rival_self {score : ℚ} (enough : fuzzyContainerThreshold ≤ score) : rival score score = true := by
  simp only [rival,difference_self,enough,decide_true,Bool.true_and,decide_eq_true_eq]
  norm_num [fuzzyContainerAmbiguityMargin]

theorem ranked_descends (scored : List (ℚ × String)) :
    (scored.mergeSort fun a b => b.1 ≤ a.1).Pairwise fun a b => b.1 ≤ a.1 := by
  have descends (a b c : ℚ × String) (first : decide (b.1 ≤ a.1) = true) (second : decide (c.1 ≤ b.1) = true) :
      decide (c.1 ≤ a.1) = true :=
    decide_eq_true (le_trans (of_decide_eq_true second) (of_decide_eq_true first))
  have compares (a b : ℚ × String) : (decide (b.1 ≤ a.1) || decide (a.1 ≤ b.1)) = true := by
    rw [Bool.or_eq_true,decide_eq_true_eq,decide_eq_true_eq]
    exact le_total b.1 a.1
  exact (List.pairwise_mergeSort descends compares scored).imp of_decide_eq_true

theorem fuzzyMatch_iff (scored : List (ℚ × String)) (value : String) :
    fuzzyMatch scored = .matched value ↔ Dominant scored value := by
  have permuted : (scored.mergeSort fun a b => b.1 ≤ a.1).Perm scored := List.mergeSort_perm _ _
  have sorted := ranked_descends scored
  unfold fuzzyMatch
  generalize (scored.mergeSort fun a b => b.1 ≤ a.1) = ranked at permuted sorted
  cases ranked with
  | nil =>
    refine iff_of_false (by simp) ?_
    rintro ⟨score,rest,same,-⟩
    have empty := (permuted.trans same).length_eq
    simp at empty
  | cons top rest =>
    have below : ∀ other ∈ rest, other.1 ≤ top.1 := (List.pairwise_cons.mp sorted).1
    constructor
    · intro matched
      dsimp only at matched
      split_ifs at matched with bad unrivalled
      obtain rfl := Resolution.matched.inj matched
      refine ⟨top.1,rest,permuted.symm,not_lt.mp bad,fun other member => ⟨below other member,?_⟩⟩
      rw [List.map_eq_nil_iff,List.filter_eq_nil_iff] at unrivalled
      simpa using unrivalled other member
    · rintro ⟨score,others,same,enough,alone⟩
      have reordered : (top :: rest).Perm ((score,value) :: others) := permuted.trans same
      by_cases first : top = (score,value)
      · subst first
        have tail := (List.perm_cons _).mp reordered
        have unrivalled : (rest.filter fun other => rival score other.1) = [] := by
          refine List.filter_eq_nil_iff.mpr fun other member => ?_
          simp [(alone other (tail.subset member)).2]
        simp [not_lt.mpr enough,unrivalled]
      -- Another score is ranked first, so it is the same one and a rival.
      · have second : top ∈ others :=
          (List.mem_cons.mp (reordered.subset List.mem_cons_self)).resolve_left first
        have later : (score,value) ∈ rest :=
          (List.mem_cons.mp (reordered.symm.subset List.mem_cons_self)).resolve_left fun same => first same.symm
        obtain ⟨notAbove,noRival⟩ := alone top second
        rw [le_antisymm notAbove (below _ later),rival_self enough] at noRival
        simp at noRival

theorem dominant_perm {scored reordered : List (ℚ × String)} (same : scored.Perm reordered) :
    Dominant scored value ↔ Dominant reordered value :=
  ⟨fun ⟨score,rest,ranked,enough⟩ => ⟨score,rest,same.symm.trans ranked,enough⟩,
    fun ⟨score,rest,ranked,enough⟩ => ⟨score,rest,same.trans ranked,enough⟩⟩

theorem matchContainer_perm {reordered : List Fields} (same : containers.Perm reordered)
    (matched : matchContainer py target containers = .matched value) :
    matchContainer py target reordered = .matched value := by
  have empty : normalizeMatchText py target ≠ "" := fun empty => by simp [matchContainer,empty] at matched
  have exacts := same.filterMap (exactValue py (normalizeMatchText py target))
  have scores := same.filterMap (bestScore py (normalizeMatchText py target))
  match exact : containers.filterMap (exactValue py (normalizeMatchText py target)) with
  | [single] =>
    rw [matchContainer_single empty exact] at matched
    rw [exact] at exacts
    rw [matchContainer_single empty (List.singleton_perm.mp exacts).symm,matched]
  | first :: second :: rest =>
    rw [matchContainer_several empty exact] at matched
    simp at matched
  | [] =>
    rw [exact] at exacts
    have none := List.nil_perm.mp exacts
    simp only [matchContainer,if_neg empty,exact] at matched
    simp only [matchContainer,if_neg empty,none]
    rw [fuzzyMatch_iff] at matched ⊢
    exact (dominant_perm scores).mp matched

/-- The container that is exactly named is the one that is matched, where the cached list does not resolve the target
without it; and what a list matches does not depend on its order. -/
theorem named_container_meets (py : Texts) :
    (∀ (cached live : List Fields) (target : String) (container : Fields), container ∈ live →
      Names py target container →
        matchContainer py target cached = .notFound ∨ (∃ entry ∈ cached, SameContainer py entry container) →
          Meets py container (resolveContainerTarget py cached live target)) ∧
    ∀ (containers reordered : List Fields) (target value : String), containers.Perm reordered →
      (matchContainer py target containers = .matched value ↔ matchContainer py target reordered = .matched value) := by
  constructor
  · intro cached live target container member names fresh
    by_cases missed : matchContainer py target cached = .notFound
    · rw [resolveContainerTarget_live missed]
      exact meets_of_mem names member
    · obtain ⟨entry,listed,same⟩ := fresh.resolve_left missed
      rw [resolveContainerTarget_cached missed]
      exact meets_same same (meets_of_mem (names_same same names) listed)
  · intro containers reordered target value same
    exact ⟨matchContainer_perm same,matchContainer_perm same.symm⟩

theorem named_container_meets_web :
    Meets plainTexts [("id",.str "1"),("name",.str "web")]
      (resolveContainerTarget plainTexts [] [[("id",.str "1"),("name",.str "web")]] "web") :=
  (named_container_meets plainTexts).1 [] [[("id",.str "1"),("name",.str "web")]] "web" _ List.mem_cons_self
    ⟨by decide +kernel,.inl ⟨by decide +kernel,by decide +kernel⟩⟩ (.inl matchContainer_nil)

end Vigile.ContainerMatch
