import Mathlib.Tactic.NormNum
import Vigile.Authorization

/-! What a policy rule and the params of a request make of the compiled budgets. -/
namespace Authorization

open JsonText Go

inductive Limit where
  | depth
  | entries
  | lines
  | bytes
  | timeout
  deriving DecidableEq

namespace Limit

def key : Limit → String
  | .depth => "max_depth"
  | .entries => "max_entries"
  | .lines => "max_lines"
  | .bytes => "max_bytes"
  | .timeout => "timeout_seconds"

def of : Limit → BudgetLimits → Int
  | .depth => BudgetLimits.maxDepth
  | .entries => BudgetLimits.maxEntries
  | .lines => BudgetLimits.maxLines
  | .bytes => BudgetLimits.maxBytes
  | .timeout => BudgetLimits.maxTimeout

def unit : Limit → Int
  | .timeout => second
  | _ => 1

def granted : Limit → Int → Option Int → Int
  | .timeout => restrictTimeout
  | _ => restrict

end Limit

def Sets (limits : List (String × Value)) (key : String) (value : ℚ) : Prop :=
  ∃ literal f, limits.lookup key = some (.number literal) ∧ literal.binary64 = some f ∧ f.value = value

def Restrictive (platform : Platform) (primitive : String) (compiled : BudgetLimits)
    (ruleLimits params : List (String × Value)) : Prop :=
  ∀ limit : Limit,
    let effective := limit.of (EffectiveBudget platform primitive (mergeLimits ruleLimits params))
    effective ≤ limit.of compiled ∧ (0 < limit.of compiled → 0 < effective) ∧
      (∀ value, Sets ruleLimits limit.key value → 0 < value → (effective : ℚ) ≤ value * limit.unit) ∧
      effective ≤ limit.of (EffectiveBudget platform primitive (mergeLimits ruleLimits []))

variable {platform : Platform} {primitive key : String} {compiled : BudgetLimits} {limit : Limit}
  {ruleLimits params : List (String × Value)} {cap : Int} {requested : Option Int} {f : Binary64}

theorem of_effectiveBudget (known : DefaultPrimitiveBudgets.lookup primitive = some compiled)
    (limits : List (String × Value)) (limit : Limit) :
    limit.of (EffectiveBudget platform primitive limits) =
      limit.granted (limit.of compiled) (getInt platform (limits.lookup limit.key)) := by
  unfold EffectiveBudget
  rw [known]
  cases limit <;> rfl

/-- A param counts where the rule has no such key. -/
theorem lookup_mergeLimits (ruleLimits params : List (String × Value)) (key : String) :
    (mergeLimits ruleLimits params).lookup key = (ruleLimits.lookup key).or (params.lookup key) := by
  unfold mergeLimits
  rw [List.lookup_append]
  cases found : ruleLimits.lookup key with
  | some value => rfl
  | none =>
    rw [Option.none_or,Option.none_or]
    induction params with
    | nil => rfl
    | cons param rest ih =>
      by_cases same : key = param.1
      · subst same
        rw [List.filter_cons_of_pos (by rw [found]; rfl),List.lookup_cons,List.lookup_cons,beq_self_eq_true]
      · have differ : (key == param.1) = false := beq_false_of_ne same
        rw [List.lookup_cons,differ]
        by_cases kept : (ruleLimits.lookup param.1).isNone = true
        · rw [List.filter_cons,if_pos kept,List.lookup_cons,differ]
          exact ih
        · rw [List.filter_cons,if_neg kept]
          exact ih

theorem restrict_le : restrict cap requested ≤ cap := by
  unfold restrict
  split
  · split <;> omega
  · exact Int.le_refl _

theorem restrict_pos (positive : 0 < cap) : 0 < restrict cap requested := by
  unfold restrict
  split
  · split <;> omega
  · exact positive

theorem restrictTimeout_le : restrictTimeout cap requested ≤ cap := by
  unfold restrictTimeout
  split
  · split <;> omega
  · exact Int.le_refl _

/-- A timeout stays positive unless its nanoseconds wrap to none or fewer. -/
theorem restrictTimeout_pos (positive : 0 < cap) : 0 < restrictTimeout cap requested ↔
    ∀ seconds, requested = some seconds → 0 < seconds → 0 < (seconds * second).bmod (2 ^ 64) := by
  unfold restrictTimeout
  cases requested with
  | none => simpa using positive
  | some seconds =>
    simp only [Option.some.injEq,forall_eq']
    by_cases asked : 0 < seconds
    · by_cases smaller : (seconds * second).bmod (2 ^ 64) < cap
      · rw [if_pos ⟨asked,smaller⟩]
        simp [asked]
      · rw [if_neg fun both => smaller both.2]
        exact ⟨fun _ _ => by omega,fun _ => positive⟩
    · rw [if_neg fun both => asked both.1]
      exact ⟨fun _ given => absurd given asked,fun _ => positive⟩

/-- A positive number is converted to its whole part, where int64 holds that. -/
theorem int64_positive (platform : Platform) (positive : 0 < f.value) :
    int64 platform f = (⌊f.value⌋₊ : Int) ∧ ⌊f.value⌋₊ < 2 ^ 63 ∨ (2 : ℚ) ^ 63 ≤ f.value := by
  have plain : f.negative = false := by
    by_contra negative
    have isNegative : f.negative = true := by simpa using negative
    have below := f.magnitude_nonneg
    simp only [Binary64.value,isNegative,if_true] at positive
    linarith
  have whole : truncated f = (⌊f.value⌋₊ : Int) := by
    unfold truncated Binary64.value
    simp [plain]
  rcases Nat.lt_or_ge ⌊f.value⌋₊ (2 ^ 63) with fits | large
  · refine .inl ⟨?_,fits⟩
    unfold int64
    rw [whole]
    exact if_pos ⟨by omega,by exact_mod_cast fits⟩
  · right
    have below : ((⌊f.value⌋₊ : Nat) : ℚ) ≤ f.value := Nat.floor_le positive.le
    have above : ((2 ^ 63 : Nat) : ℚ) ≤ (⌊f.value⌋₊ : Nat) := by exact_mod_cast large
    push_cast at above
    linarith

/-- A limit below one is lost, and the cap stands in its place. -/
theorem restrict_value (platform : Platform) (positive : 0 < f.value) (low : 0 ≤ cap) (high : cap ≤ 2 ^ 63) :
    (restrict cap (some (int64 platform f)) : ℚ) ≤ f.value ↔ cap = 0 ∨ 1 ≤ f.value := by
  have below : ((⌊f.value⌋₊ : Nat) : ℚ) ≤ f.value := Nat.floor_le positive.le
  have capped : (cap : ℚ) ≤ 2 ^ 63 := by exact_mod_cast high
  rcases int64_positive platform positive with ⟨whole,fits⟩ | large
  · by_cases one : 1 ≤ f.value
    · refine iff_of_true ?_ (.inr one)
      have some_ : 0 < ⌊f.value⌋₊ := Nat.floor_pos.mpr one
      unfold restrict
      simp only [whole]
      split
      · exact_mod_cast below
      · rename_i notBelow
        have atMost : cap ≤ (⌊f.value⌋₊ : Int) := by omega
        have same : (cap : ℚ) ≤ ((⌊f.value⌋₊ : Nat) : ℚ) := by exact_mod_cast atMost
        linarith
    · have zero : ⌊f.value⌋₊ = 0 := Nat.floor_eq_zero.mpr (not_le.mp one)
      have stands : restrict cap (some (int64 platform f)) = cap := by
        unfold restrict
        simp [whole,zero]
      rw [stands]
      constructor
      · intro fitsIn
        left
        by_contra other
        have least : (1 : ℚ) ≤ cap := by exact_mod_cast (by omega : (1 : Int) ≤ cap)
        linarith
      · rintro (rfl | given)
        · exact_mod_cast positive.le
        · exact absurd given one
  · refine iff_of_true ?_ (.inr (by linarith [show (1 : ℚ) ≤ 2 ^ 63 by norm_num]))
    have bound : (restrict cap (some (int64 platform f)) : ℚ) ≤ cap := by exact_mod_cast restrict_le
    linarith

theorem restrictTimeout_value (positive : 0 < f.value) (low : second ≤ cap) (high : cap ≤ 2 ^ 63) :
    (restrictTimeout cap (some (int64 platform f)) : ℚ) ≤ f.value * second ↔ 1 ≤ f.value := by
  have below : ((⌊f.value⌋₊ : Nat) : ℚ) ≤ f.value := Nat.floor_le positive.le
  have capped : (cap : ℚ) ≤ 2 ^ 63 := by exact_mod_cast high
  have unit : ((second : Int) : ℚ) = 1000000000 := by norm_num [second]
  rw [unit]
  rcases int64_positive platform positive with ⟨whole,fits⟩ | large
  · by_cases one : 1 ≤ f.value
    · refine iff_of_true ?_ one
      have wraps : ((⌊f.value⌋₊ : Int) * second).bmod (2 ^ 64) ≤ (⌊f.value⌋₊ : Int) * second := by
        unfold second
        rw [Int.bmod_def]
        push_cast
        split <;> omega
      have scaled : (((⌊f.value⌋₊ : Int) * second : Int) : ℚ) ≤ f.value * 1000000000 := by
        push_cast
        rw [unit]
        linarith
      have some_ : 0 < ⌊f.value⌋₊ := Nat.floor_pos.mpr one
      unfold restrictTimeout
      simp only [whole]
      split
      · exact le_trans (by exact_mod_cast wraps) scaled
      · rename_i notBelow
        have atMost : cap ≤ (⌊f.value⌋₊ : Int) * second := by omega
        exact le_trans (by exact_mod_cast atMost) scaled
    · have zero : ⌊f.value⌋₊ = 0 := Nat.floor_eq_zero.mpr (not_le.mp one)
      have stands : restrictTimeout cap (some (int64 platform f)) = cap := by
        unfold restrictTimeout
        simp [whole,zero]
      rw [stands]
      refine iff_of_false (fun fitsIn => ?_) one
      have least : ((second : Int) : ℚ) ≤ cap := by exact_mod_cast low
      rw [unit] at least
      linarith
  · refine iff_of_true ?_ (by linarith [show (1 : ℚ) ≤ 2 ^ 63 by norm_num])
    have bound : (restrictTimeout cap (some (int64 platform f)) : ℚ) ≤ cap := by exact_mod_cast restrictTimeout_le
    linarith

/-- Every cap fits in an int64, and every primitive has a timeout of a second or more. -/
theorem caps (known : DefaultPrimitiveBudgets.lookup primitive = some compiled) (limit : Limit) :
    0 ≤ limit.of compiled ∧ limit.of compiled ≤ 2 ^ 63 ∧ (limit = .timeout → second ≤ limit.of compiled) := by
  have all : ∀ entry ∈ DefaultPrimitiveBudgets,
      (0 ≤ entry.2.maxDepth ∧ 0 ≤ entry.2.maxEntries ∧ 0 ≤ entry.2.maxLines ∧ 0 ≤ entry.2.maxBytes ∧
        second ≤ entry.2.maxTimeout) ∧
      entry.2.maxDepth ≤ 2 ^ 63 ∧ entry.2.maxEntries ≤ 2 ^ 63 ∧ entry.2.maxLines ≤ 2 ^ 63 ∧
        entry.2.maxBytes ≤ 2 ^ 63 ∧ entry.2.maxTimeout ≤ 2 ^ 63 := by decide
  obtain ⟨before,after,split,-⟩ := List.lookup_eq_some_iff.mp known
  obtain ⟨⟨depth,entries,lines,bytes,timeout⟩,depth',entries',lines',bytes',timeout'⟩ :=
    all (primitive,compiled) (split ▸ List.mem_append_right _ List.mem_cons_self)
  cases limit with
  | depth => exact ⟨depth,depth',by simp⟩
  | entries => exact ⟨entries,entries',by simp⟩
  | lines => exact ⟨lines,lines',by simp⟩
  | bytes => exact ⟨bytes,bytes',by simp⟩
  | timeout => exact ⟨by unfold second at timeout; exact le_trans (by decide) timeout,timeout',fun _ => timeout⟩

theorem granted_le (limit : Limit) : limit.granted cap requested ≤ cap := by
  cases limit with
  | timeout => exact restrictTimeout_le
  | depth | entries | lines | bytes => exact restrict_le

/-- Empty params leave the cap where the rule says nothing. -/
theorem granted_params (known : DefaultPrimitiveBudgets.lookup primitive = some compiled) (limit : Limit) :
    limit.of (EffectiveBudget platform primitive (mergeLimits ruleLimits params)) ≤
      limit.of (EffectiveBudget platform primitive (mergeLimits ruleLimits [])) := by
  rw [of_effectiveBudget known,of_effectiveBudget known,lookup_mergeLimits,lookup_mergeLimits]
  cases ruleLimits.lookup limit.key with
  | some value => exact Int.le_refl _
  | none =>
    have stands : limit.granted (limit.of compiled) (getInt platform none) = limit.of compiled := by
      cases limit <;> rfl
    rw [Option.none_or,Option.none_or,List.lookup_nil,stands]
    exact granted_le limit

/-- What a number of the rule is worth once it is granted. -/
theorem granted_value (known : DefaultPrimitiveBudgets.lookup primitive = some compiled) (limit : Limit)
    (positive : 0 < f.value) :
    (limit.granted (limit.of compiled) (some (int64 platform f)) : ℚ) ≤ f.value * limit.unit ↔
      limit.of compiled = 0 ∨ 1 ≤ f.value := by
  obtain ⟨low,high,least⟩ := caps known limit
  cases limit with
  | timeout =>
    have filled : ¬Limit.timeout.of compiled = 0 := by
      have := least rfl
      unfold second at this
      omega
    exact (restrictTimeout_value positive (least rfl) high).trans (by simp [filled])
  | depth | entries | lines | bytes =>
    have one : f.value * ((1 : Int) : ℚ) = f.value := by simp
    exact (iff_of_eq (congrArg _ one)).trans (restrict_value platform positive low high)

/-- The budget is as restrictive as it should be if and only if the rule sets no limit below one
that is capped, and the seconds that are asked for do not wrap to a time that is over. -/
theorem restrictive_iff (platform : Platform) (known : DefaultPrimitiveBudgets.lookup primitive = some compiled)
    (ruleLimits params : List (String × Value)) :
    Restrictive platform primitive compiled ruleLimits params ↔
      (∀ limit : Limit, 0 < limit.of compiled → ∀ value, Sets ruleLimits limit.key value → 0 < value → 1 ≤ value) ∧
      ∀ seconds, getInt platform ((mergeLimits ruleLimits params).lookup "timeout_seconds") = some seconds →
        0 < seconds → 0 < (seconds * second).bmod (2 ^ 64) := by
  have sets {limit : Limit} {value : ℚ} (given : Sets ruleLimits limit.key value) : ∃ f : Binary64, f.value = value ∧
      getInt platform ((mergeLimits ruleLimits params).lookup limit.key) = some (int64 platform f) := by
    obtain ⟨literal,f,found,parsed,worth⟩ := given
    refine ⟨f,worth,?_⟩
    rw [lookup_mergeLimits,found,Option.some_or]
    simp [getInt,parsed]
  have timed : 0 < Limit.timeout.of compiled := by
    have := (caps known .timeout).2.2 rfl
    unfold second at this
    omega
  constructor
  · intro restrictive
    refine ⟨fun limit capped value given positive => ?_,?_⟩
    · obtain ⟨f,rfl,asked⟩ := sets given
      have fitsIn := (restrictive limit).2.2.1 f.value given positive
      rw [of_effectiveBudget known,asked] at fitsIn
      exact ((granted_value known limit positive).mp fitsIn).resolve_left (by omega)
    · have kept := (restrictive .timeout).2.1 timed
      rw [of_effectiveBudget known] at kept
      exact (restrictTimeout_pos timed).mp kept
  · rintro ⟨whole,inTime⟩ limit
    refine ⟨?_,fun capped => ?_,fun value given positive => ?_,granted_params known limit⟩
    · rw [of_effectiveBudget known]
      exact granted_le limit
    · rw [of_effectiveBudget known]
      cases limit with
      | timeout => exact (restrictTimeout_pos capped).mpr inTime
      | depth | entries | lines | bytes => exact restrict_pos capped
    · obtain ⟨f,rfl,asked⟩ := sets given
      rw [of_effectiveBudget known,asked]
      refine (granted_value known limit positive).mpr ?_
      rcases (caps known limit).1.eq_or_lt with none | capped
      · exact .inl none.symm
      · exact .inr (whole limit capped f.value given positive)

def logBudget : BudgetLimits := ⟨0,0,1000,1048576,15 * second⟩

/-- A request that asks for three centuries. -/
def ages : List (String × Value) := [("timeout_seconds",.number ⟨false,9223372037,[],none⟩)]

theorem restrictive_iff_plain : Restrictive CanonicalJson.amd64 "READ_LOG_SOURCE" logBudget [] [] ↔
    (∀ limit : Limit, 0 < limit.of logBudget → ∀ value, Sets [] limit.key value → 0 < value → 1 ≤ value) ∧
    ∀ seconds, getInt CanonicalJson.amd64 ((mergeLimits [] []).lookup "timeout_seconds") = some seconds →
      0 < seconds → 0 < (seconds * second).bmod (2 ^ 64) :=
  restrictive_iff CanonicalJson.amd64 rfl [] []

/-- The nanoseconds wrap, and the timeout is over before it begins. -/
theorem ages_not_restrictive : DefaultPrimitiveBudgets.lookup "READ_LOG_SOURCE" = some logBudget ∧
    ¬Restrictive CanonicalJson.amd64 "READ_LOG_SOURCE" logBudget [] ages := by
  refine ⟨rfl,fun restrictive => ?_⟩
  have kept := (restrictive .timeout).2.1 (by decide)
  have zero : ¬0 < Limit.timeout.of (EffectiveBudget CanonicalJson.amd64 "READ_LOG_SOURCE" (mergeLimits [] ages)) := by
    decide +kernel
  exact zero kept

end Authorization
