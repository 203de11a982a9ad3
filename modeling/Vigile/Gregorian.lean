import Mathlib.Data.List.Basic
import Mathlib.Order.Lattice
import Mathlib.Tactic.Linarith

/-! The proleptic Gregorian calendar, and the days numbered from the first day of year one. -/
namespace Gregorian

def isLeap (year : Nat) : Bool := year % 4 = 0 ∧ (year % 100 ≠ 0 ∨ year % 400 = 0)

def daysInMonth (leap : Bool) : Nat → Nat
  | 2 => if leap then 29 else 28
  | 4 | 6 | 9 | 11 => 30
  | _ => 31

def daysBeforeMonth (leap : Bool) (month : Nat) : Nat := ((List.range' 1 (month - 1)).map (daysInMonth leap)).sum

def daysBeforeYear (year : Nat) : Nat := (year - 1) * 365 + (year - 1) / 4 - (year - 1) / 100 + (year - 1) / 400

@[ext] structure Date where
  year : Nat
  month : Nat
  day : Nat
  valid : 1 ≤ year ∧ (1 ≤ month ∧ month ≤ 12) ∧ 1 ≤ day ∧ day ≤ daysInMonth (isLeap year) month
  deriving DecidableEq

def dayOfYear (leap : Bool) (month day : Nat) : Nat := daysBeforeMonth leap month + (day - 1)

/-- The first day of year one is day one. -/
def Date.toOrdinal (date : Date) : Nat :=
  daysBeforeYear date.year + dayOfYear (isLeap date.year) date.month date.day + 1

def monthDay (leap : Bool) (n : Nat) : Nat × Nat :=
  let month := (n + 50) / 32
  if n < daysBeforeMonth leap month then (month - 1,n - daysBeforeMonth leap (month - 1) + 1)
  else (month,n - daysBeforeMonth leap month + 1)

def fromOrdinal (ordinal : Nat) : Nat × Nat × Nat :=
  let n := ordinal - 1
  let n400 := n / 146097
  let n100 := n % 146097 / 36524
  let n4 := n % 146097 % 36524 / 1461
  let n1 := n % 146097 % 36524 % 1461 / 365
  let year := 400 * n400 + 100 * n100 + 4 * n4 + n1 + 1
  if n1 = 4 ∨ n100 = 4 then (year - 1,12,31)
  else (year,monthDay (n1 = 3 ∧ (n4 ≠ 24 ∨ n100 = 3)) (n % 146097 % 36524 % 1461 % 365))

theorem monthDay_dayOfYear : ∀ leap : Bool, ∀ n < if leap then 366 else 365,
    (1 ≤ (monthDay leap n).1 ∧ (monthDay leap n).1 ≤ 12) ∧ 1 ≤ (monthDay leap n).2 ∧
      (monthDay leap n).2 ≤ daysInMonth leap (monthDay leap n).1 ∧
      dayOfYear leap (monthDay leap n).1 (monthDay leap n).2 = n := by
  decide +kernel

theorem dayOfYear_monthDay : ∀ leap : Bool, ∀ month < 13, ∀ day < daysInMonth leap month + 1, 1 ≤ month → 1 ≤ day →
    dayOfYear leap month day < (if leap then 366 else 365) ∧ monthDay leap (dayOfYear leap month day) = (month,day) := by
  decide +kernel

theorem isLeap_iff (year : Nat) : isLeap year = true ↔ year % 4 = 0 ∧ (year % 100 ≠ 0 ∨ year % 400 = 0) := by
  unfold isLeap
  exact decide_eq_true_iff

theorem daysBeforeYear_succ {year : Nat} (first : 1 ≤ year) :
    daysBeforeYear (year + 1) = daysBeforeYear year + if isLeap year then 366 else 365 := by
  obtain ⟨y,rfl⟩ : ∃ y, year = y + 1 := ⟨year - 1,by omega⟩
  have leap := isLeap_iff (y + 1)
  have quarter : (y + 1) / 4 = y / 4 + if (y + 1) % 4 = 0 then 1 else 0 := by split <;> omega
  have century : (y + 1) / 100 = y / 100 + if (y + 1) % 100 = 0 then 1 else 0 := by split <;> omega
  have fourth : (y + 1) / 400 = y / 400 + if (y + 1) % 400 = 0 then 1 else 0 := by split <;> omega
  unfold daysBeforeYear
  rw [Nat.add_sub_cancel,Nat.add_sub_cancel,quarter,century,fourth]
  by_cases long : isLeap (y + 1) = true
  · obtain ⟨every,same⟩ := leap.mp long
    have regular : (if (y + 1) % 100 = 0 then 1 else 0) = if (y + 1) % 400 = 0 then 1 else 0 := by
      split_ifs <;> omega
    rw [if_pos long,if_pos every,regular]
    omega
  · have days := mt leap.mpr long
    have skipped : (if (y + 1) % 4 = 0 then 1 else 0) + (if (y + 1) % 400 = 0 then 1 else 0) =
        if (y + 1) % 100 = 0 then 1 else 0 := by
      split_ifs <;> omega
    rw [if_neg long]
    omega

theorem daysBeforeYear_mono {first second : Nat} (start : 1 ≤ first) (before : first ≤ second) :
    daysBeforeYear first ≤ daysBeforeYear second := by
  induction second, before using Nat.le_induction with
  | base => exact le_rfl
  | succ year past ih =>
    rw [daysBeforeYear_succ (start.trans past)]
    exact ih.trans (Nat.le_add_right _ _)

theorem daysBeforeYear_cycle (a : Nat) {b c d : Nat} (centuries : b ≤ 3) (fours : c ≤ 24) (years : d ≤ 3) :
    daysBeforeYear (400 * a + 100 * b + 4 * c + d + 1) = a * 146097 + b * 36524 + c * 1461 + d * 365 := by
  have quarter : (400 * a + 100 * b + 4 * c + d) / 4 = 100 * a + 25 * b + c := by omega
  have century : (400 * a + 100 * b + 4 * c + d) / 100 = 4 * a + b := by omega
  have fourth : (400 * a + 100 * b + 4 * c + d) / 400 = a := by omega
  unfold daysBeforeYear
  rw [Nat.add_sub_cancel,quarter,century,fourth]
  omega

theorem fromOrdinal_spec (ordinal : Nat) (positive : 1 ≤ ordinal) :
    ∃ date : Date, fromOrdinal ordinal = (date.year,date.month,date.day) ∧ date.toOrdinal = ordinal := by
  obtain ⟨n,rfl⟩ : ∃ n, ordinal = n + 1 := ⟨ordinal - 1,by omega⟩
  have far : n % 146097 / 36524 ≤ 4 := by omega
  have days : n = n / 146097 * 146097 + n % 146097 / 36524 * 36524 + n % 146097 % 36524 / 1461 * 1461 +
      n % 146097 % 36524 % 1461 / 365 * 365 + n % 146097 % 36524 % 1461 % 365 := by omega
  have centuries : n % 146097 / 36524 = 4 → n % 146097 % 36524 / 1461 = 0 ∧ n % 146097 % 36524 % 1461 / 365 = 0 ∧
      n % 146097 % 36524 % 1461 % 365 = 0 := by omega
  have fours : n % 146097 % 36524 / 1461 ≤ 24 := by omega
  have years : n % 146097 % 36524 % 1461 / 365 = 4 → n % 146097 % 36524 % 1461 % 365 = 0 := by omega
  have cycle : n % 146097 % 36524 / 1461 = 24 → n % 146097 % 36524 % 1461 / 365 ≤ 3 := by omega
  have last : n % 146097 % 36524 % 1461 / 365 ≤ 4 := by omega
  have rest : n % 146097 % 36524 % 1461 % 365 < 365 := by omega
  unfold fromOrdinal
  simp only [Nat.add_sub_cancel]
  generalize n % 146097 % 36524 % 1461 % 365 = r at *
  generalize n % 146097 % 36524 % 1461 / 365 = d at *
  generalize n % 146097 % 36524 / 1461 = c at *
  generalize n % 146097 / 36524 = b at *
  generalize n / 146097 = a at *
  split
  case isTrue final =>
    -- the last day of four years, or of four hundred
    obtain ⟨b',c',small,small',year,ordinal⟩ : ∃ b' c', b' ≤ 3 ∧ c' ≤ 24 ∧
        400 * a + 100 * b + 4 * c + d = 400 * a + 100 * b' + 4 * c' + 3 + 1 ∧ (c' = 24 → b' = 3) ∧
        n = a * 146097 + b' * 36524 + c' * 1461 + 1460 := by
      rcases final with rfl | hundreds
      · have zero := years rfl
        exact ⟨b,c,by omega,fours,by omega,fun full => absurd (cycle full) (by decide),by rw [days,zero]⟩
      · obtain ⟨noFour,noYear,noDay⟩ := centuries hundreds
        refine ⟨3,24,le_rfl,le_rfl,by omega,fun _ => rfl,?_⟩
        rw [hundreds,noFour,noYear,noDay] at days
        linarith
    have leap : isLeap (400 * a + 100 * b' + 4 * c' + 3 + 1) = true := by
      rw [isLeap_iff]
      omega
    have within : dayOfYear true 12 31 = 365 := by decide
    rw [year]
    refine ⟨⟨_,12,31,Nat.succ_le_succ (Nat.zero_le _),by decide,by decide,by simp [daysInMonth]⟩,rfl,?_⟩
    unfold Date.toOrdinal
    dsimp only
    rw [daysBeforeYear_cycle a small small' le_rfl,leap,within]
    omega
  case isFalse regular =>
    have leap : isLeap (400 * a + 100 * b + 4 * c + d + 1) = decide (d = 3 ∧ (c ≠ 24 ∨ b = 3)) := by
      rw [Bool.eq_iff_iff,isLeap_iff,decide_eq_true_iff]
      omega
    obtain ⟨month,first,bound,within⟩ := monthDay_dayOfYear (decide (d = 3 ∧ (c ≠ 24 ∨ b = 3))) r (by split <;> omega)
    refine ⟨⟨_,_,_,Nat.succ_le_succ (Nat.zero_le _),month,first,leap ▸ bound⟩,rfl,?_⟩
    unfold Date.toOrdinal
    dsimp only
    rw [daysBeforeYear_cycle a (by omega) fours (by omega),leap,within]
    omega

theorem Date.dayOfYear_lt (date : Date) :
    dayOfYear (isLeap date.year) date.month date.day < (if isLeap date.year then 366 else 365) ∧
      monthDay (isLeap date.year) (dayOfYear (isLeap date.year) date.month date.day) = (date.month,date.day) :=
  dayOfYear_monthDay _ _ (Nat.lt_succ_of_le date.valid.2.1.2) _ (Nat.lt_succ_of_le date.valid.2.2.2) date.valid.2.1.1
    date.valid.2.2.1

theorem Date.year_le {first second : Date} (same : first.toOrdinal = second.toOrdinal) : first.year ≤ second.year := by
  by_contra later
  have within := second.dayOfYear_lt.1
  have next := daysBeforeYear_succ second.valid.1
  have before : daysBeforeYear (second.year + 1) ≤ daysBeforeYear first.year :=
    daysBeforeYear_mono (Nat.succ_le_succ (Nat.zero_le _)) (not_le.mp later)
  unfold Date.toOrdinal at same
  omega

theorem Date.toOrdinal_injective : Function.Injective Date.toOrdinal := by
  intro first second same
  have year := le_antisymm (year_le same) (year_le same.symm)
  have first' := first.dayOfYear_lt.2
  have second' := second.dayOfYear_lt.2
  unfold Date.toOrdinal at same
  rw [year] at same first'
  have position : dayOfYear (isLeap second.year) first.month first.day = dayOfYear (isLeap second.year) second.month second.day := by
    omega
  rw [position] at first'
  obtain ⟨month,day⟩ := Prod.mk.inj (first'.symm.trans second')
  exact Date.ext year month day

theorem fromOrdinal_toOrdinal (date : Date) : fromOrdinal date.toOrdinal = (date.year,date.month,date.day) := by
  obtain ⟨same,found,ordinal⟩ := fromOrdinal_spec date.toOrdinal (Nat.succ_le_succ (Nat.zero_le _))
  rw [found,Date.toOrdinal_injective ordinal]

end Gregorian
