import Vigile.JsonOrdered
import Vigile.JsonQuotes

/-! The keys of the block cache: the name of a command and its params in one text, which tells commands apart. -/
namespace Vigile.BlockData

open JsonText

/-- The escape sequences of `JSON.stringify`. -/
def jsonEscape : Char → List Char := escapeWith fun c => 0x20 ≤ c.toNat

def codeUnits (text : String) : List Nat :=
  text.toList.flatMap fun c =>
    if c.toNat < 0x10000 then [c.toNat]
    else [0xD800 + (c.toNat - 0x10000) / 0x400,0xDC00 + (c.toNat - 0x10000) % 0x400]

/-- The order of `sort()`. -/
def Before (first second : String) : Prop := codeUnits first ≤ codeUnits second

instance : DecidableRel Before := fun first second => inferInstanceAs (Decidable (codeUnits first ≤ codeUnits second))

mutual
/-- JSON.stringify with the keys of every object sorted. A number is the text JSON.stringify writes for it. -/
def stableStringify : Value → List Char
  | .array items => '[' :: separated (stableItems items) ++ [']']
  | .object fields =>
    '{' :: separated ((sortedBy Before (stableFields fields)).map fun field => quoted jsonEscape field.1 ++ ':' :: field.2) ++ ['}']
  | value => value.text jsonEscape

def stableItems : List Value → List (List Char)
  | [] => []
  | value :: rest => stableStringify value :: stableItems rest

def stableFields : List (String × Value) → List (String × List Char)
  | [] => []
  | (key,value) :: rest => (key,stableStringify value) :: stableFields rest
end

structure Params where
  fields : List (String × Value)
  lawful : ∃ depth, (Value.object fields).Fits depth

def Params.empty : Params := ⟨[],1,List.nodup_nil,fun _ member => by cases member⟩

def Params.single (key : String) (value : Value) (scalar : value.isScalar = true) : Params :=
  ⟨[(key,value)],1,List.nodup_singleton key,fun _ member => List.mem_singleton.mp member ▸ fits_of_scalar scalar 0⟩

def Params.json (params : Params) : Datum := (Value.object params.fields).datum

/-- What the params denote, `force_refresh` aside. -/
def Params.plain (params : Params) : Datum :=
  (Value.object (params.fields.filter fun field => field.1 ≠ "force_refresh")).datum

structure Command where
  command : String
  params : Option Params

def Command.given (command : Command) : Params := command.params.getD .empty

def stableCacheKey (command : Command) : List Char :=
  command.command.toList ++ '|' :: stableStringify (.object command.given.fields)

theorem stableItems_eq (items : List Value) : stableItems items = items.map stableStringify := by
  induction items with
  | nil => rfl
  | cons item items ih => simp only [stableItems,List.map_cons,ih]

theorem stableFields_eq (fields : List (String × Value)) :
    stableFields fields = fields.map fun field => (field.1,stableStringify field.2) := by
  induction fields with
  | nil => rfl
  | cons field fields ih => simp only [stableFields,List.map_cons,ih]

/-- What is written is the compact text of the value with its keys in order. -/
theorem stableStringify_eq (value : Value) : stableStringify value = (value.ordered Before).text jsonEscape := by
  induction value using Value.induction with
  | scalar value scalar =>
    cases value with
    | array | object => contradiction
    | null | bool | number | string => rfl
  | array items ih =>
    have each : items.map stableStringify = (items.map (Value.ordered Before)).map (Value.text jsonEscape) := by
      rw [List.map_map]
      exact List.map_congr_left ih
    simp only [stableStringify,Value.ordered,Value.text,stableItems_eq,orderedItems_eq,itemTexts_eq,each]
  | object fields ih =>
    have each : fields.map (fun field => (field.1,stableStringify field.2)) =
        (orderedFields Before fields).map fun field => (field.1,field.2.text jsonEscape) := by
      rw [orderedFields_eq,List.map_map]
      exact List.map_congr_left fun field member => Prod.ext rfl (ih field member)
    have keyed : ∀ field : String × Value, (field.1,field.2.text jsonEscape).1 = field.1 := fun _ => rfl
    simp only [stableStringify,Value.ordered,Value.text,stableFields_eq,fieldTexts_eq,each,sortedBy_map Before _ keyed,
      List.map_map]
    rfl

theorem separates_bar : Separates '|' := ⟨rfl,by decide,by decide⟩

theorem balanced_stableStringify (value : Value) : Balanced (stableStringify value) := by
  rw [stableStringify_eq]
  exact balanced_text (quotable_escapeWith _) _

theorem reads_jsonEscape : Reads jsonEscape := reads_escapeWith fun _ shown => of_decide_eq_true shown

/-- The keys tell values apart by what they denote. -/
theorem datum_of_stableStringify {first second : Value} {depth deeper : Nat} (fits : first.Fits depth)
    (others : second.Fits deeper) (same : stableStringify first = stableStringify second) : first.datum = second.datum := by
  have left := fits_mono fits (Nat.le_max_left depth deeper)
  have right := fits_mono others (Nat.le_max_right depth deeper)
  rw [stableStringify_eq,stableStringify_eq] at same
  have equal := text_injective reads_jsonEscape (fits_ordered Before left) (fits_ordered Before right) same
  rw [← datum_ordered Before left,equal,datum_ordered Before right]

/-- Commands with the same key have the same name and the same params. -/
theorem stableCacheKey_unique {first second : Command} (same : stableCacheKey first = stableCacheKey second) :
    first.command = second.command ∧ first.given.json = second.given.json := by
  obtain ⟨names,params⟩ := cut_unique separates_bar (balanced_stableStringify _) (balanced_stableStringify _) same
  obtain ⟨depth,fits⟩ := first.given.lawful
  obtain ⟨deeper,others⟩ := second.given.lawful
  exact ⟨String.ext names,datum_of_stableStringify fits others params⟩

theorem lawful_spread (params extra : Params) :
    ∃ depth, (Value.object (extra.fields.foldl assign params.fields)).Fits depth := by
  obtain ⟨depth,fits⟩ := params.lawful
  obtain ⟨deeper,others⟩ := extra.lawful
  have left := fits_mono fits (Nat.le_max_left depth deeper)
  have right := fits_mono others (Nat.le_max_right depth deeper)
  refine ⟨max depth deeper,?_⟩
  cases here : max depth deeper with
  | zero =>
    rw [here] at left
    exact absurd left id
  | succ =>
    rw [here] at left right
    exact ⟨nodup_foldl_assign _ _ left.1,fun field member => (mem_foldl_assign member).elim (left.2 field) (right.2 field)⟩

def Params.spread (params extra : Params) : Params := ⟨extra.fields.foldl assign params.fields,lawful_spread params extra⟩

theorem plain_of_json {params others : Params} (same : params.json = others.json) : params.plain = others.plain := by
  have unique (params : Params) : (params.fields.map Prod.fst).Nodup := by
    obtain ⟨depth,fits⟩ := params.lawful
    cases depth with
    | zero => exact absurd fits id
    | succ => exact fits.1
  have keys (fields : List (String × Value)) : (fieldData fields).map Prod.fst = fields.map Prod.fst := by
    rw [fieldData_eq,List.map_map]
    rfl
  have data : (fieldData params.fields).Perm (fieldData others.fields) :=
    (keySorted_eq_iff (by rw [keys]; exact unique params)).mp (Datum.object.inj same)
  have filtered (fields : List (String × Value)) : fieldData (fields.filter fun field => field.1 ≠ "force_refresh") =
      (fieldData fields).filter fun entry => entry.1 ≠ "force_refresh" := by
    rw [fieldData_eq,fieldData_eq,List.filter_map]
    rfl
  simp only [Params.plain,Value.datum,filtered]
  refine congrArg Datum.object ((keySorted_eq_iff ?_).mpr (data.filter _))
  exact (keys params.fields ▸ unique params).sublist (List.filter_sublist.map Prod.fst)

theorem filter_assign {fields : List (String × Value)} {field : String × Value} (keep : String → Bool)
    (out : keep field.1 = false) :
    (assign fields field).filter (fun other => keep other.1) = fields.filter fun other => keep other.1 := by
  have replaced (old : String × Value) :
      keep (if old.1 = field.1 then field else old).1 = keep old.1 := by
    split
    · rename_i same
      rw [same]
    · rfl
  unfold assign
  split
  · rw [List.filter_map]
    simp only [Function.comp_def,replaced]
    refine (List.map_congr_left fun old member => if_neg fun same => ?_).trans (List.map_id _)
    rw [List.mem_filter,same,out] at member
    exact Bool.noConfusion member.2
  · rw [List.filter_append,List.filter_singleton,out]
    exact List.append_nil _

/-- A forced refresh asks for the same params, `force_refresh` aside. -/
theorem plain_forced (params extra : Params) (forced : ∀ field ∈ extra.fields, field.1 = "force_refresh") :
    (params.spread extra).plain = params.plain := by
  have same (extra fields : List (String × Value)) (forced : ∀ field ∈ extra, field.1 = "force_refresh") :
      (extra.foldl assign fields).filter (fun field => field.1 ≠ "force_refresh") =
        fields.filter fun field => field.1 ≠ "force_refresh" := by
    induction extra generalizing fields with
    | nil => rfl
    | cons field extra ih =>
      have here := forced field List.mem_cons_self
      rw [List.foldl_cons,ih _ fun other member => forced other (List.mem_cons_of_mem _ member)]
      exact filter_assign (fun key => key ≠ "force_refresh") (decide_eq_false (not_not_intro here))
  simp only [Params.plain,Params.spread,same extra.fields params.fields forced]

end Vigile.BlockData
