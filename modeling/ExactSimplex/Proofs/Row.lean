import ExactSimplex.Tableau.Row
import Mathlib.Algebra.BigOperators.Field
import Mathlib.Algebra.Order.BigOperators.Group.Finset
import Mathlib.Algebra.Order.Field.Rat
import Mathlib.Tactic.Linarith
import Mathlib.Tactic.Ring

/-! Rows as linear forms.  `lhs` is the left-hand side of a row at a point, which gives a number to
every column, and `residual` is how far the point is from solving the row.  The row operations act
on entries and on residuals alike: `divide` divides them, and `addMultiple` and `clear` combine them
linearly. -/

namespace ExactSimplex

theorem dot_eq_sum (a x : List Rat) :
    dot a x = ∑ j ∈ Finset.range a.length, a.getD j 0 * x.getD j 0 := by
  induction a generalizing x with
  | nil => simp [dot]
  | cons v a ih =>
    cases x with
    | nil => simp [dot]
    | cons w x =>
      rw [dot, ih, List.length_cons, Finset.sum_range_succ']
      simp [add_comm]

theorem dot_neg (a x : List Rat) : dot (a.map (-·)) x = -dot a x := by
  induction a generalizing x with
  | nil => simp [dot]
  | cons v a ih =>
    cases x with
    | nil => simp [dot]
    | cons w x => simp [dot, ih, add_comm]

theorem dot_range_map (a : List Rat) (n : Nat) (h : a.length = n) (x : Nat → Rat) :
    dot a ((List.range n).map x) = ∑ j ∈ Finset.range n, a.getD j 0 * x j := by
  rw [dot_eq_sum, h]
  refine Finset.sum_congr rfl fun j hj => ?_
  have hj := Finset.mem_range.mp hj
  simp [List.getD, hj]

theorem getD_map_neg (a : List Rat) (j : Nat) : (a.map (-·)).getD j 0 = -a.getD j 0 := by
  simp only [List.getD, List.getElem?_map]
  cases a[j]? <;> simp

namespace Row

/-- The left-hand side at the point `x`. -/
def lhs (r : Row) (x : Nat → Rat) : Rat :=
  ∑ j ∈ Finset.range r.coefficients.length, r.entry j * x j

/-- The left-hand side at the point `x`, less the right-hand side. -/
def residual (r : Row) (x : Nat → Rat) : Rat := r.lhs x - r.rhs

theorem entry_of_lt {r : Row} {j : Nat} (h : j < r.coefficients.length) :
    r.entry j = r.coefficients.getD j 0 := by
  simp [entry, entries, List.getD, List.getElem?_append_left h]

theorem lhs_congr {r : Row} {x y : Nat → Rat} (h : ∀ j < r.coefficients.length, x j = y j) :
    r.lhs x = r.lhs y :=
  Finset.sum_congr rfl fun j hj => by rw [h j (Finset.mem_range.mp hj)]

theorem lhs_add_mul (r : Row) (x d : Nat → Rat) (s : Rat) :
    r.lhs (fun j => x j + s * d j) = r.lhs x + s * r.lhs d := by
  simp only [lhs, Finset.mul_sum, ← Finset.sum_add_distrib]
  exact Finset.sum_congr rfl fun j _ => by ring

theorem residual_add_mul (r : Row) (x d : Nat → Rat) (s : Rat) :
    r.residual (fun j => x j + s * d j) = r.residual x + s * r.lhs d := by
  simp only [residual, lhs_add_mul]
  ring

/-! ### Row operations -/

@[simp] theorem length_divide (r : Row) (k : Rat) :
    (r.divide k).coefficients.length = r.coefficients.length := by
  simp [divide]

@[simp] theorem entry_divide (r : Row) (k : Rat) (j : Nat) :
    (r.divide k).entry j = r.entry j / k := by
  have h : (r.divide k).entries = r.entries.map (· / k) := by simp [divide, entries]
  simp only [entry, h, List.getD, List.getElem?_map]
  cases r.entries[j]? <;> simp

@[simp] theorem rhs_divide (r : Row) (k : Rat) : (r.divide k).rhs = r.rhs / k := rfl

theorem residual_divide (r : Row) (k : Rat) (x : Nat → Rat) :
    (r.divide k).residual x = r.residual x / k := by
  simp only [residual, lhs, length_divide, entry_divide, rhs_divide, sub_div, Finset.sum_div]
  congr 1
  exact Finset.sum_congr rfl fun j _ => by ring

section Combine

variable {r p : Row}

@[simp] theorem rhs_addMultiple (r p : Row) (k : Rat) :
    (r.addMultiple k p).rhs = r.rhs + k * p.rhs := rfl

theorem length_addMultiple (h : p.coefficients.length = r.coefficients.length) (k : Rat) :
    (r.addMultiple k p).coefficients.length = r.coefficients.length := by
  simp [addMultiple, h]

theorem entry_addMultiple (h : p.coefficients.length = r.coefficients.length) (k : Rat) (j : Nat) :
    (r.addMultiple k p).entry j = r.entry j + k * p.entry j := by
  have hentries : (r.addMultiple k p).entries =
      List.zipWith (fun v w => v + k * w) r.entries p.entries := by
    simp [addMultiple, entries, List.zipWith_append h.symm]
  have hlength : p.entries.length = r.entries.length := by simp [entries, h]
  simp only [entry, hentries, List.getD, List.getElem?_zipWith]
  by_cases hj : j < r.entries.length
  · simp [List.getElem?_eq_getElem hj, List.getElem?_eq_getElem (hlength ▸ hj)]
  · simp [List.getElem?_eq_none (Nat.le_of_not_lt hj),
      List.getElem?_eq_none (Nat.le_of_not_lt (hlength ▸ hj))]

theorem residual_addMultiple (h : p.coefficients.length = r.coefficients.length) (k : Rat)
    (x : Nat → Rat) : (r.addMultiple k p).residual x = r.residual x + k * p.residual x := by
  simp only [residual, lhs, length_addMultiple h, entry_addMultiple h, rhs_addMultiple, h, add_mul,
    Finset.sum_add_distrib, mul_assoc, ← Finset.mul_sum]
  ring

theorem addMultiple_zero (h : p.coefficients.length = r.coefficients.length) :
    r.addMultiple 0 p = r := by
  obtain ⟨as, a⟩ := r
  obtain ⟨bs, b⟩ := p
  simp only [addMultiple, zero_mul, add_zero, mk.injEq, and_true]
  have hlength : bs.length = as.length := h
  exact List.ext_getElem (by simp [hlength]) fun i _ _ => by simp

/-- A row is cleared by adding a multiple, even where there is nothing to clear. -/
theorem clear_eq_addMultiple (h : p.coefficients.length = r.coefficients.length) (j : Nat) :
    r.clear j p = r.addMultiple (-r.entry j) p := by
  unfold clear
  split
  · rename_i hzero
    rw [hzero, neg_zero, addMultiple_zero h]
  · rfl

theorem length_clear (h : p.coefficients.length = r.coefficients.length) (j : Nat) :
    (r.clear j p).coefficients.length = r.coefficients.length := by
  rw [clear_eq_addMultiple h, length_addMultiple h]

theorem entry_clear (h : p.coefficients.length = r.coefficients.length) (j c : Nat) :
    (r.clear j p).entry c = r.entry c - r.entry j * p.entry c := by
  rw [clear_eq_addMultiple h, entry_addMultiple h]
  ring

theorem rhs_clear (h : p.coefficients.length = r.coefficients.length) (j : Nat) :
    (r.clear j p).rhs = r.rhs - r.entry j * p.rhs := by
  rw [clear_eq_addMultiple h, rhs_addMultiple]
  ring

theorem residual_clear (h : p.coefficients.length = r.coefficients.length) (j : Nat)
    (x : Nat → Rat) : (r.clear j p).residual x = r.residual x - r.entry j * p.residual x := by
  rw [clear_eq_addMultiple h, residual_addMultiple h]
  ring

end Combine

end Row

end ExactSimplex
