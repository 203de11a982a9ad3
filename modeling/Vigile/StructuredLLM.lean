import Mathlib.Data.List.Basic
import Vigile.Python

/-! The reasoning blocks that are stripped from a model's answer before it is validated. -/
namespace Vigile.StructuredLLM

open Python

def openTag : List Char := ['<','t','h','i','n','k','>']

def closeTag : List Char := ['<','/','t','h','i','n','k','>']

def afterClose : List Char → Option (List Char)
  | [] => none
  | c :: rest => if closeTag <+: c :: rest then some ((c :: rest).drop closeTag.length) else afterClose rest

/-- What follows the match of `<think>.*?</think>` that begins here. -/
def matchHere (text : List Char) : Option (List Char) :=
  if openTag <+: text then afterClose (text.drop openTag.length) else none

def search : List Char → Bool
  | [] => false
  | c :: rest => (matchHere (c :: rest)).isSome || search rest

variable {rest text : List Char}

theorem afterClose_length (found : afterClose text = some rest) : rest.length < text.length := by
  induction text with
  | nil => simp [afterClose] at found
  | cons c tail ih =>
    unfold afterClose at found
    split at found
    · obtain rfl := Option.some.inj found
      have shorter : 0 < closeTag.length := by decide
      rw [List.length_drop,List.length_cons]
      omega
    · exact Nat.lt_succ_of_lt (ih found)

theorem matchHere_length (found : matchHere text = some rest) : rest.length < text.length := by
  unfold matchHere at found
  split at found
  · exact Nat.lt_of_lt_of_le (afterClose_length found) (by simp)
  · simp at found

/-- `re.sub` by the empty text: the matches are found from left to right, each after the one before. -/
def sub : List Char → List Char
  | [] => []
  | c :: rest =>
    match _found : matchHere (c :: rest) with
    | some after => sub after
    | none => c :: sub rest
termination_by text => text.length
decreasing_by
  · exact matchHere_length ‹_›
  · simp

theorem sub_match {after : List Char} (found : matchHere text = some after) : sub text = sub after := by
  cases text with
  | nil => simp [matchHere,openTag] at found
  | cons c rest =>
    rw [sub]
    split
    · rename_i other same
      rw [found] at same
      rw [Option.some.inj same]
    · rename_i none
      rw [found] at none
      simp at none

theorem sub_skip {c : Char} (missed : matchHere (c :: rest) = none) : sub (c :: rest) = c :: sub rest := by
  rw [sub]
  split
  · rename_i after found
    rw [missed] at found
    simp at found
  · rfl

theorem sub_length (text : List Char) : (sub text).length ≤ text.length := by
  induction length : text.length using Nat.strong_induction_on generalizing text with
  | _ n ih =>
    subst length
    cases text with
    | nil => simp [sub]
    | cons c rest =>
      cases found : matchHere (c :: rest) with
      | some after =>
        rw [sub_match found]
        have shorter := matchHere_length found
        exact Nat.le_of_lt (Nat.lt_of_le_of_lt (ih _ shorter after rfl) shorter)
      | none =>
        rw [sub_skip found]
        exact Nat.succ_le_succ (ih _ (by simp) rest rfl)

/-- A match makes the text shorter. -/
theorem sub_shorter (found : search text = true) : (sub text).length < text.length := by
  induction text with
  | nil => simp [search] at found
  | cons c rest ih =>
    cases here : matchHere (c :: rest) with
    | some after =>
      rw [sub_match here]
      exact Nat.lt_of_le_of_lt (sub_length after) (matchHere_length here)
    | none =>
      rw [sub_skip here]
      simp only [search,here,Option.isSome_none,Bool.false_or] at found
      exact Nat.succ_lt_succ (ih found)

theorem sub_of_search (missed : search text = false) : sub text = text := by
  induction text with
  | nil => simp [sub]
  | cons c rest ih =>
    simp only [search,Bool.or_eq_false_iff,Option.isSome_eq_false_iff,Option.isNone_iff_eq_none] at missed
    rw [sub_skip missed.1,ih missed.2]

/-- The loop of `create`; every turn shortens the text. -/
def stripThink (text : List Char) : List Char := if search text then stripThink (sub text) else text
termination_by text.length
decreasing_by exact sub_shorter ‹_›

def cleaned (raw : String) : String := strip (String.ofList (stripThink raw.toList))

/-- A text with blocks of reasoning, each of which is such a text between two tags. -/
inductive Balanced where
  | nil
  | char (c : Char) (rest : Balanced)
  | block (body rest : Balanced)

namespace Balanced

def render : Balanced → List Char
  | nil => []
  | char c rest => c :: rest.render
  | block body rest => openTag ++ (body.render ++ (closeTag ++ rest.render))

def base : Balanced → List Char
  | nil => []
  | char c rest => c :: rest.base
  | block _ rest => rest.base

end Balanced

def TagFree (text : List Char) : Prop := ¬openTag <:+: text ∧ ¬closeTag <:+: text

instance (text : List Char) : Decidable (TagFree text) := inferInstanceAs (Decidable (_ ∧ _))

namespace Balanced

/-- The text inside each block has no tags but those of its own blocks. -/
def Bodies : Balanced → Prop
  | nil => True
  | char _ rest => rest.Bodies
  | block body rest => TagFree body.base ∧ body.Bodies ∧ rest.Bodies

/-- The text outside the blocks has no tags, and so it is in each block. -/
def WellFormed (t : Balanced) : Prop := TagFree t.base ∧ t.Bodies

def hasBlock : Balanced → Bool
  | nil => false
  | char _ rest => rest.hasBlock
  | block _ _ => true

def Flat : Balanced → Prop
  | nil => True
  | char _ rest => rest.Flat
  | block body rest => body.hasBlock = false ∧ rest.Flat

/-- No character of the text, in or outside the blocks, begins a tag. -/
def Plain : Balanced → Prop
  | nil => True
  | char c rest => c ≠ '<' ∧ rest.Plain
  | block body rest => body.Plain ∧ rest.Plain

/-- The text outside the blocks is what is validated, up to surrounding white space. -/
def Recovered (t : Balanced) : Prop := cleaned (String.ofList t.render) = strip (String.ofList t.base)

end Balanced

variable {text rest : List Char} {c : Char}

/-- A prefix without an opening angle ends before the next one. -/
theorem prefix_before {word front back : List Char} (angleless : '<' ∉ word) (leads : word <+: front ++ '<' :: back) :
    word <+: front := by
  induction word generalizing front with
  | nil => exact List.nil_prefix
  | cons w word ih =>
    cases front with
    | nil =>
      obtain ⟨same,-⟩ := List.cons_prefix_cons.mp leads
      exact absurd (same ▸ List.mem_cons_self) angleless
    | cons f front =>
      obtain ⟨same,later⟩ := List.cons_prefix_cons.mp leads
      exact List.cons_prefix_cons.mpr ⟨same,ih (fun inside => angleless (List.mem_cons_of_mem _ inside)) later⟩

theorem afterClose_close (rest : List Char) : afterClose (closeTag ++ rest) = some rest := by
  have leads : closeTag <+: '<' :: (closeTag.tail ++ rest) := List.prefix_append closeTag rest
  have here : afterClose ('<' :: (closeTag.tail ++ rest)) = some rest := by
    rw [afterClose,if_pos leads]
    rfl
  exact here

theorem matchHere_block (text : List Char) : matchHere (openTag ++ text) = afterClose text := by
  unfold matchHere
  rw [if_pos (List.prefix_append _ _),List.drop_left]

/-- Text without a closing tag of its own is skipped up to the tag that follows it. -/
theorem afterClose_append (closeless : ¬closeTag <:+: text) (rest : List Char) :
    afterClose (text ++ (closeTag ++ rest)) = some rest := by
  induction text with
  | nil => exact afterClose_close rest
  | cons c text ih =>
    have missed : ¬closeTag <+: c :: (text ++ (closeTag ++ rest)) := by
      intro leads
      obtain ⟨same,later⟩ := List.cons_prefix_cons.mp leads
      refine closeless (List.IsPrefix.isInfix ?_)
      exact List.cons_prefix_cons.mpr ⟨same,prefix_before (by decide) later⟩
    rw [List.cons_append,afterClose,if_neg missed]
    exact ih fun inside => closeless (List.infix_cons inside)

theorem matchHere_of_ne (notAngle : c ≠ '<') : matchHere (c :: rest) = none := by
  have missed : ¬openTag <+: c :: rest := fun leads => notAngle (List.cons_prefix_cons.mp leads).1.symm
  unfold matchHere
  rw [if_neg missed]

theorem search_of_openless (openless : ¬openTag <:+: text) : search text = false := by
  induction text with
  | nil => rfl
  | cons c text ih =>
    have missed : ¬openTag <+: c :: text := fun leads => openless leads.isInfix
    have later := ih fun inside => openless (List.infix_cons inside)
    simp [search,matchHere,if_neg missed,later]

namespace Balanced

variable {t : Balanced}

theorem render_of_blockless (blockless : t.hasBlock = false) : t.render = t.base := by
  induction t with
  | nil => rfl
  | char c rest ih => exact congrArg (c :: ·) (ih blockless)
  | block body rest => simp [hasBlock] at blockless

/-- A prefix without an opening angle is before the first block. -/
theorem prefix_base {word : List Char} (angleless : '<' ∉ word) (leads : word <+: t.render) :
    word <+: t.base := by
  induction t generalizing word with
  | nil => exact leads
  | char c rest ih =>
    cases word with
    | nil => exact List.nil_prefix
    | cons w word =>
      obtain ⟨same,later⟩ := List.cons_prefix_cons.mp leads
      exact List.cons_prefix_cons.mpr ⟨same,ih (fun inside => angleless (List.mem_cons_of_mem _ inside)) later⟩
  | block body rest =>
    have ahead : word <+: [] ++ '<' :: (block body rest).render.tail := leads
    rw [List.prefix_nil.mp (prefix_before angleless ahead)]
    exact List.nil_prefix

/-- One pass over blocks that contain no others leaves the text outside them. -/
theorem sub_flat (flat : t.Flat) (openless : ¬openTag <:+: t.base) (bodies : t.Bodies) :
    sub t.render = t.base := by
  induction t with
  | nil => simp [render,base,sub]
  | char c rest ih =>
    have missed : matchHere (c :: rest.render) = none := by
      unfold matchHere
      refine if_neg fun leads => openless (List.IsPrefix.isInfix ?_)
      obtain ⟨same,later⟩ := List.cons_prefix_cons.mp leads
      exact List.cons_prefix_cons.mpr ⟨same,prefix_base (by decide) later⟩
    simp only [render,base]
    rw [sub_skip missed,ih flat (fun inside => openless (List.infix_cons inside)) bodies]
  | block body rest _ ih =>
    obtain ⟨bodyFree,-,restBodies⟩ := bodies
    have found : matchHere (block body rest).render = some rest.render := by
      rw [render,matchHere_block,render_of_blockless flat.1]
      exact afterClose_append bodyFree.2 _
    rw [sub_match found,ih flat.2 openless restBodies]
    rfl

theorem stripThink_flat (flat : t.Flat) (wellFormed : t.WellFormed) : stripThink t.render = t.base := by
  have once := sub_flat flat wellFormed.1.1 wellFormed.2
  rw [stripThink]
  cases found : search t.render with
  | true => rw [if_pos rfl,once,stripThink,search_of_openless wellFormed.1.1,if_neg Bool.false_ne_true]
  | false => rw [if_neg Bool.false_ne_true,← once,sub_of_search found]

/-- What a pass leaves that begins inside a match or outside: a match ends at the first closing tag, so of a block
that contains another its own closing tag is left, and what stands between that and the first one. -/
def left (inside : Bool) : Balanced → List Char
  | nil => []
  | char c rest => if inside then rest.left true else c :: rest.left false
  | block body rest =>
    if body.hasBlock then body.left true ++ (closeTag ++ rest.left false) else rest.left false

def remains : Balanced → List Char
  | nil => []
  | char _ rest => rest.remains
  | block body rest => if body.hasBlock then body.remains ++ (closeTag ++ rest.render) else rest.render

theorem angleless_base (plain : t.Plain) : '<' ∉ t.base := by
  induction t with
  | nil => exact List.not_mem_nil
  | char c rest ih => simp [base,Ne.symm plain.1,ih plain.2]
  | block body rest _ ih => exact ih plain.2

theorem closeless_of_angleless (angleless : '<' ∉ text) : ¬closeTag <:+: text :=
  fun inside => angleless (inside.subset (by simp [closeTag]))

theorem afterClose_open (text : List Char) : afterClose (openTag ++ text) = afterClose text := by
  have step (c : Char) (rest : List Char) (other : ¬closeTag <+: c :: rest) : afterClose (c :: rest) = afterClose rest := by
    rw [afterClose,if_neg other]
  simp only [openTag,List.cons_append,List.nil_append]
  iterate 7 rw [step _ _ (by simp [closeTag])]

theorem afterClose_render (plain : t.Plain) (nested : t.hasBlock = true) (rest : List Char) :
    afterClose (t.render ++ rest) = some (t.remains ++ rest) := by
  induction t generalizing rest with
  | nil => simp [hasBlock] at nested
  | char c tail ih =>
    have other : ¬closeTag <+: c :: (tail.render ++ rest) := fun leads => plain.1 (List.cons_prefix_cons.mp leads).1.symm
    rw [render,List.cons_append,afterClose,if_neg other]
    exact ih plain.2 nested rest
  | block body tail ihBody _ =>
    rw [render,remains,List.append_assoc,List.append_assoc,List.append_assoc,afterClose_open]
    cases inner : body.hasBlock with
    | true =>
      rw [if_pos rfl,ihBody plain.1 inner]
      simp only [List.append_assoc]
    | false =>
      rw [if_neg Bool.false_ne_true,render_of_blockless inner]
      exact afterClose_append (closeless_of_angleless (angleless_base plain.1)) _

theorem matchHere_close (rest : List Char) : matchHere (closeTag ++ rest) = none := by
  have other : ¬openTag <+: closeTag ++ rest := by simp [openTag,closeTag]
  unfold matchHere
  rw [if_neg other]

/-- A closing tag with no opening tag before it stays. -/
theorem sub_close (rest : List Char) : sub (closeTag ++ rest) = closeTag ++ sub rest := by
  have first := matchHere_close rest
  simp only [closeTag,List.cons_append,List.nil_append] at first ⊢
  rw [sub_skip first]
  iterate 7 rw [sub_skip (matchHere_of_ne (by decide))]

theorem search_close (rest : List Char) : search (closeTag ++ rest) = search rest := by
  have first := matchHere_close rest
  simp only [closeTag,List.cons_append,List.nil_append] at first ⊢
  simp [search,first,matchHere_of_ne (show '/' ≠ '<' by decide),matchHere_of_ne (show 't' ≠ '<' by decide),
    matchHere_of_ne (show 'h' ≠ '<' by decide),matchHere_of_ne (show 'i' ≠ '<' by decide),
    matchHere_of_ne (show 'n' ≠ '<' by decide),matchHere_of_ne (show 'k' ≠ '<' by decide),
    matchHere_of_ne (show '>' ≠ '<' by decide)]

/-- The pass over a text, and over what follows its first closing tag. -/
theorem sub_append (plain : t.Plain) (rest : List Char) :
    sub (t.render ++ rest) = t.left false ++ sub rest ∧
      (t.hasBlock = true → sub (t.remains ++ rest) = t.left true ++ sub rest) := by
  induction t generalizing rest with
  | nil => exact ⟨rfl,fun nested => by simp [hasBlock] at nested⟩
  | char c tail ih =>
    refine ⟨?_,fun nested => (ih plain.2 rest).2 nested⟩
    rw [render,List.cons_append,sub_skip (matchHere_of_ne plain.1),(ih plain.2 rest).1]
    rfl
  | block body tail ihBody ihTail =>
    have later := (ihTail plain.2 rest).1
    cases inner : body.hasBlock with
    | true =>
      have inside := (ihBody plain.1 (closeTag ++ (tail.render ++ rest))).2 inner
      rw [sub_close,later] at inside
      constructor
      · have found : matchHere ((block body tail).render ++ rest) = some (body.remains ++ (closeTag ++ (tail.render ++ rest))) := by
          rw [render,List.append_assoc,matchHere_block,List.append_assoc,List.append_assoc]
          exact afterClose_render plain.1 inner _
        rw [sub_match found,inside]
        simp [left,inner]
      · intro _
        rw [remains,inner,if_pos rfl,List.append_assoc,List.append_assoc,inside]
        simp [left,inner]
    | false =>
      constructor
      · have found : matchHere ((block body tail).render ++ rest) = some (tail.render ++ rest) := by
          rw [render,List.append_assoc,matchHere_block,List.append_assoc,List.append_assoc,render_of_blockless inner]
          exact afterClose_append (closeless_of_angleless (angleless_base plain.1)) _
        rw [sub_match found,later]
        simp [left,inner]
      · intro _
        rw [remains,inner,if_neg Bool.false_ne_true,later]
        simp [left,inner]

theorem search_left (plain : t.Plain) (inside : Bool) (rest : List Char) :
    search (t.left inside ++ rest) = search rest := by
  induction t generalizing inside rest with
  | nil => rfl
  | char c tail ih =>
    cases inside with
    | true => exact ih plain.2 true rest
    | false =>
      simp only [left,Bool.false_eq_true,if_false,List.cons_append,search,matchHere_of_ne plain.1,Option.isSome_none,
        Bool.false_or]
      exact ih plain.2 false rest
  | block body tail ihBody ihTail =>
    simp only [left]
    split
    · rw [List.append_assoc,List.append_assoc,ihBody plain.1,search_close,ihTail plain.2]
    · exact ihTail plain.2 false rest

/-- A closing tag is left where a block contains another. -/
theorem angle_mem_left (plain : t.Plain) : '<' ∈ t.left false ↔ ¬t.Flat := by
  induction t with
  | nil => simp [left,Flat]
  | char c tail ih => simp [left,Flat,ih plain.2,Ne.symm plain.1]
  | block body tail _ ih =>
    cases inner : body.hasBlock with
    | true => simp [left,Flat,inner,closeTag]
    | false => simp [left,Flat,inner,ih plain.2]

theorem stripThink_plain (plain : t.Plain) : stripThink t.render = t.left false := by
  have once : sub t.render = t.left false := by
    have pass := (sub_append plain []).1
    rwa [List.append_nil,sub,List.append_nil] at pass
  have done : search (t.left false) = false := by
    have searched := search_left plain false []
    rwa [List.append_nil] at searched
  rw [stripThink]
  cases found : search t.render with
  | true => rw [if_pos rfl,once,stripThink,done,if_neg Bool.false_ne_true]
  | false => rw [if_neg Bool.false_ne_true,← once,sub_of_search found]

theorem recovered_of_flat (flat : t.Flat) (wellFormed : t.WellFormed) : t.Recovered := by
  unfold Recovered cleaned
  rw [String.toList_ofList,stripThink_flat flat wellFormed]

theorem flat_of_recovered (plain : t.Plain) (recovered : t.Recovered) : t.Flat := by
  by_contra nested
  unfold Recovered cleaned at recovered
  rw [String.toList_ofList,stripThink_plain plain] at recovered
  have angled : '<' ∈ (String.ofList (t.left false)).toList := by
    rw [String.toList_ofList]
    exact (angle_mem_left plain).mpr nested
  have kept := (mem_strip (by decide)).mpr angled
  rw [recovered,mem_strip (by decide),String.toList_ofList] at kept
  exact angleless_base plain kept

def thoughtInThought : Balanced := block (char 'a' (block (char 'b' nil) (char 'c' nil))) (char '{' (char '}' nil))

theorem not_recovered_nested : ¬∀ t : Balanced, t.WellFormed → t.Recovered := by
  intro always
  have wellFormed : thoughtInThought.WellFormed := by simp only [thoughtInThought,WellFormed,Bodies,base]; decide
  have plain : thoughtInThought.Plain := by simp [thoughtInThought,Plain]
  have flat := flat_of_recovered plain (always thoughtInThought wellFormed)
  simp [thoughtInThought,Flat,hasBlock] at flat

/-- Where no block contains another the text outside the blocks is recovered, and of a text without other angles it is
recovered only there. -/
theorem recovered_iff_flat (t : Balanced) (wellFormed : t.WellFormed) :
    (t.Flat → t.Recovered) ∧ (t.Plain → (t.Recovered ↔ t.Flat)) :=
  ⟨fun flat => recovered_of_flat flat wellFormed,
    fun plain => ⟨flat_of_recovered plain,fun flat => recovered_of_flat flat wellFormed⟩⟩

theorem recovered_iff_flat_beside : (block (char 'a' nil) (char '{' (block nil (char '}' nil)))).Recovered :=
  (recovered_iff_flat (block (char 'a' nil) (char '{' (block nil (char '}' nil))))
    (by simp only [WellFormed,Bodies,base]; decide)).1 (by simp [Flat,hasBlock])

end Balanced

end Vigile.StructuredLLM
