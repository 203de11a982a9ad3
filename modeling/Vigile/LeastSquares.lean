import Mathlib.Algebra.BigOperators.Ring.List
import Mathlib.Algebra.Order.BigOperators.Group.List
import Mathlib.Tactic.Linarith
import Mathlib.Tactic.Ring

/-! Straight lines through points by least squares: the sums, and what they are for points of a line. -/
namespace LeastSquares

variable {K : Type} [Field K]

/-- How far points spread, times the square of their number. -/
def spread (xs : List K) : K := xs.length * (xs.map fun x => x * x).sum - xs.sum * xs.sum

def cross (xs ys : List K) : K := xs.length * (List.zipWith (· * ·) xs ys).sum - xs.sum * ys.sum

/-- Points of a line, over these places. -/
def line (offset slope : K) (xs : List K) : List K := xs.map fun x => offset + slope * x

theorem sum_line (offset slope : K) (xs : List K) : (line offset slope xs).sum = xs.length * offset + slope * xs.sum := by
  induction xs with
  | nil => simp [line]
  | cons x xs ih =>
    unfold line at ih ⊢
    rw [List.map_cons,List.sum_cons,ih,List.sum_cons,List.length_cons]
    push_cast
    ring

theorem sum_products (offset slope : K) (xs : List K) :
    (List.zipWith (· * ·) xs (line offset slope xs)).sum = offset * xs.sum + slope * (xs.map fun x => x * x).sum := by
  induction xs with
  | nil => simp [line]
  | cons x xs ih =>
    unfold line at ih ⊢
    rw [List.map_cons,List.zipWith_cons_cons,List.sum_cons,ih,List.sum_cons,List.map_cons,List.sum_cons]
    ring

/-- The offset has no part in it. -/
theorem cross_line (offset slope : K) (xs : List K) : cross xs (line offset slope xs) = slope * spread xs := by
  unfold cross spread
  rw [sum_line,sum_products]
  ring

/-- Points of a line leave no residue. -/
theorem residues_line (offset slope : K) {xs : List K} (filled : (xs.length : K) ≠ 0) :
    (List.zipWith (fun x y => (y - (slope * x + ((line offset slope xs).sum - slope * xs.sum) / xs.length)) ^ 2) xs
      (line offset slope xs)).sum = 0 := by
  have mean : ((line offset slope xs).sum - slope * xs.sum) / xs.length = offset := by
    rw [sum_line,add_sub_cancel_right,mul_div_cancel_left₀ _ filled]
  rw [mean,line,List.zipWith_map_right,List.zipWith_self]
  refine List.sum_eq_zero fun residue member => ?_
  obtain ⟨x,_,rfl⟩ := List.mem_map.mp member
  ring

theorem sum_squares (x : K) (xs : List K) : (xs.map fun y => (x - y) * (x - y)).sum =
    xs.length * (x * x) - 2 * x * xs.sum + (xs.map fun y => y * y).sum := by
  induction xs with
  | nil => simp
  | cons y xs ih =>
    rw [List.map_cons,List.sum_cons,ih,List.sum_cons,List.map_cons,List.sum_cons,List.length_cons]
    push_cast
    ring

/-- One more point adds its distances to the others. -/
theorem spread_cons (x : K) (xs : List K) :
    spread (x :: xs) = spread xs + (xs.map fun y => (x - y) * (x - y)).sum := by
  unfold spread
  rw [sum_squares,List.map_cons,List.sum_cons,List.sum_cons,List.length_cons]
  push_cast
  ring

section
variable [LinearOrder K] [IsStrictOrderedRing K]

theorem distances_nonneg (x : K) (xs : List K) : 0 ≤ (xs.map fun y => (x - y) * (x - y)).sum := by
  refine List.sum_nonneg fun d member => ?_
  obtain ⟨y,_,rfl⟩ := List.mem_map.mp member
  exact mul_self_nonneg _

theorem spread_nonneg (xs : List K) : 0 ≤ spread xs := by
  induction xs with
  | nil => simp [spread]
  | cons x xs ih =>
    rw [spread_cons]
    exact add_nonneg ih (distances_nonneg x xs)

/-- Two points spread by their distance at least. -/
theorem distance_le_spread {x y : K} {xs : List K} (member : y ∈ xs) : (x - y) * (x - y) ≤ spread (x :: xs) := by
  have among : (x - y) * (x - y) ≤ (xs.map fun y => (x - y) * (x - y)).sum :=
    List.single_le_sum (fun d listed => by
      obtain ⟨z,_,rfl⟩ := List.mem_map.mp listed
      exact mul_self_nonneg _) _ (List.mem_map_of_mem member)
  rw [spread_cons]
  exact among.trans (le_add_of_nonneg_left (spread_nonneg xs))

/-- Around any mean, points vary by half the square of a distance at least. -/
theorem distance_le_variation {x y : K} {xs : List K} (mean : K) (member : y ∈ xs) :
    (x - y) ^ 2 / 2 ≤ ((x :: xs).map fun y => (y - mean) ^ 2).sum := by
  have among : (y - mean) ^ 2 ≤ (xs.map fun y => (y - mean) ^ 2).sum :=
    List.single_le_sum (fun d listed => by
      obtain ⟨z,_,rfl⟩ := List.mem_map.mp listed
      exact sq_nonneg _) _ (List.mem_map_of_mem member)
  rw [List.map_cons,List.sum_cons]
  nlinarith [sq_nonneg (x + y - 2 * mean)]

end

end LeastSquares
