import Vigile.Binary64

/-! Rounding to binary64 where the magnitude is bounded: there is a number, and it is near. -/
namespace Binary64

variable {k : Int} {q : ℚ} {n : Nat}

theorem scale_le (nonneg : 0 ≤ q) (small : q < 2 ^ k) (least : -1021 ≤ k) : scale q ≤ k - 53 := by
  unfold scale
  split
  · omega
  · rename_i nonzero
    have positive : 0 < q := lt_of_le_of_ne nonneg (Ne.symm nonzero)
    have log := (Int.lt_zpow_iff_log_lt (b := 2) (by norm_num) positive).mp (by exact_mod_cast small)
    omega

theorem nearest_le (below : q < n) : nearest q ≤ n := by
  rcases lt_or_ge q 0 with negative | nonneg
  · have floor : ⌊q⌋₊ = 0 := Nat.floor_of_nonpos negative.le
    rcases nearest_cases q with ⟨same,_⟩ | ⟨_,up⟩
    · omega
    · rw [floor] at up
      norm_num at up
      linarith
  · have floor := (Nat.floor_lt nonneg).mpr below
    rcases nearest_cases q with ⟨same,_⟩ | ⟨same,_⟩ <;> omega

theorem le_nearest (above : n ≤ q) : n ≤ nearest q := by
  have floor := Nat.le_floor above
  rcases nearest_cases q with ⟨same,_⟩ | ⟨same,_⟩ <;> omega

/-- A magnitude that is not too large is rounded to some number. -/
theorem round_some (negative : Bool) (nonneg : 0 ≤ q) (small : scale q ≤ 970) : ∃ f, round negative q = some f := by
  have least := scale_ge q
  have below : nearest (q / 2 ^ scale q) ≤ 2 ^ 53 := nearest_le (by exact_mod_cast div_scale_lt q)
  have above : 2 ^ 52 ≤ nearest (q / 2 ^ scale q) ∨ scale q = -1074 := by
    by_cases bottom : scale q = -1074
    · exact .inr bottom
    · have positive : 0 < q := by
        refine lt_of_le_of_ne nonneg fun zero => bottom ?_
        rw [← zero]
        exact if_pos rfl
      exact .inl (le_nearest (by exact_mod_cast le_div_scale positive bottom))
  unfold round
  split
  · unfold ofParts
    rw [dif_pos ⟨by norm_num,by omega,by omega,.inl le_rfl⟩]
    exact ⟨_,rfl⟩
  · unfold ofParts
    rw [dif_pos ⟨by omega,by omega,by omega,above⟩]
    exact ⟨_,rfl⟩

/-- Below a power of two, a number is found within half a step of that power. -/
theorem round_near (negative : Bool) (nonneg : 0 ≤ q) (small : q < 2 ^ k) (least : -1021 ≤ k)
    (bound : k ≤ 1023) : ∃ f, round negative q = some f ∧ f.negative = negative ∧ |f.magnitude - q| ≤ 2 ^ (k - 53) / 2 := by
  have scaled := scale_le nonneg small least
  obtain ⟨f,rounded⟩ := round_some negative nonneg (by omega)
  obtain ⟨sign,near⟩ := round_error nonneg rounded
  refine ⟨f,rounded,sign,near.trans ?_⟩
  have steps : (2 : ℚ) ^ scale q ≤ 2 ^ (k - 53) := zpow_le_zpow_right₀ (by norm_num) scaled
  linarith

end Binary64
