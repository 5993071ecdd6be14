/-
# `Lib.WeightedMean` — the weighted mean of a list

    mean = (s₁·w₁ + … + sₙ·wₙ) / (w₁ + … + wₙ)

With positive weights the mean lies among the values, grows with them, and depends on
the weights up to a common factor, and on the list up to its order.
-/
import Mathlib.Algebra.Order.BigOperators.Group.List
import Mathlib.Algebra.BigOperators.Ring.List
import Mathlib.Data.Rat.Cast.Order
import Mathlib.Tactic.FieldSimp
import Mathlib.Tactic.Positivity
import Mathlib.Tactic.Ring

namespace WeightedMean

variable {α : Type} {w w' s s' : α → Int} {l l' : List α}

/-- The weighted sum. -/
def total (w s : α → Int) (l : List α) : Int := (l.map fun x => s x * w x).sum

/-- The weighted mean. -/
def mean (w s : α → Int) (l : List α) : ℚ := total w s l / (l.map w).sum

theorem weights_pos (hne : l ≠ []) (hw : ∀ x ∈ l, 0 < w x) : 0 < (l.map w).sum := by
  refine List.sum_pos _ ?_ (by simpa using hne)
  intro n hn
  obtain ⟨x, hx, rfl⟩ := List.mem_map.mp hn
  exact hw x hx

theorem total_mono (hw : ∀ x ∈ l, 0 < w x) (h : ∀ x ∈ l, s x ≤ s' x) :
    total w s l ≤ total w s' l :=
  List.sum_le_sum fun x hx => mul_le_mul_of_nonneg_right (h x hx) (hw x hx).le

theorem total_const (w : α → Int) (c : Int) (l : List α) :
    total w (fun _ => c) l = c * (l.map w).sum := by
  rw [total, List.sum_map_mul_left]

theorem mean_mono (hne : l ≠ []) (hw : ∀ x ∈ l, 0 < w x) (h : ∀ x ∈ l, s x ≤ s' x) :
    mean w s l ≤ mean w s' l := by
  have hpos : (0 : ℚ) < (l.map w).sum := by exact_mod_cast weights_pos hne hw
  rw [mean, mean, div_le_div_iff_of_pos_right hpos]
  exact_mod_cast total_mono hw h

theorem mean_const (hne : l ≠ []) (hw : ∀ x ∈ l, 0 < w x) (c : Int) :
    mean w (fun _ => c) l = c := by
  have hpos : (0 : ℚ) < (l.map w).sum := by exact_mod_cast weights_pos hne hw
  rw [mean, total_const, Int.cast_mul, mul_div_assoc, div_self hpos.ne', mul_one]

/-- The mean is not above what no value is above. -/
theorem mean_le (hne : l ≠ []) (hw : ∀ x ∈ l, 0 < w x) {c : Int} (h : ∀ x ∈ l, s x ≤ c) :
    mean w s l ≤ c :=
  (mean_mono hne hw h).trans_eq (mean_const hne hw c)

theorem le_mean (hne : l ≠ []) (hw : ∀ x ∈ l, 0 < w x) {c : Int} (h : ∀ x ∈ l, c ≤ s x) :
    c ≤ mean w s l :=
  (mean_const hne hw c).symm.trans_le (mean_mono hne hw h)

theorem mean_perm (h : l.Perm l') : mean w s l = mean w s l' := by
  rw [mean, mean, total, total, (h.map w).sum_eq, (h.map fun x => s x * w x).sum_eq]

/-- A common factor `a / b` of the weights makes no difference. -/
theorem mean_scale (hne : l ≠ []) (hw : ∀ x ∈ l, 0 < w x) (hw' : ∀ x ∈ l, 0 < w' x) {a b : Int}
    (hb : 0 < b) (h : ∀ x ∈ l, w' x * b = w x * a) : mean w' s l = mean w s l := by
  have hpos : (0 : ℚ) < (l.map w).sum := by exact_mod_cast weights_pos hne hw
  have hpos' : (0 : ℚ) < (l.map w').sum := by exact_mod_cast weights_pos hne hw'
  have hb' : (0 : ℚ) < b := by exact_mod_cast hb
  have hweights : (l.map w').sum * b = (l.map w).sum * a := by
    rw [← List.sum_map_mul_right, ← List.sum_map_mul_right]
    exact congrArg List.sum (List.map_congr_left h)
  have htotal : total w' s l * b = total w s l * a := by
    rw [total, total, ← List.sum_map_mul_right, ← List.sum_map_mul_right]
    refine congrArg List.sum (List.map_congr_left fun x hx => ?_)
    rw [mul_assoc, h x hx, mul_assoc]
  have hweights : ((l.map w').sum : ℚ) * b = (l.map w).sum * a := by exact_mod_cast hweights
  have htotal : (total w' s l : ℚ) * b = total w s l * a := by exact_mod_cast htotal
  rw [mean, mean, div_eq_div_iff hpos'.ne' hpos.ne']
  refine mul_right_cancel₀ hb'.ne' ?_
  calc (total w' s l : ℚ) * (l.map w).sum * b = total w' s l * b * (l.map w).sum := by ring
    _ = total w s l * ((l.map w).sum * a) := by rw [htotal]; ring
    _ = total w s l * (l.map w').sum * b := by rw [← hweights]; ring

end WeightedMean
