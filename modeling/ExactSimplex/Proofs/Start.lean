import ExactSimplex.Proofs.Auxiliary
import ExactSimplex.Proofs.Objective
import Mathlib.Algebra.BigOperators.Intervals

/-! The first tableau of a program.  It is in canonical form, its objective row measures the sum of
the artificial variables, and its solutions without a negative coordinate and without artificial
part are the feasible points of the program. -/

namespace ExactSimplex

namespace Tableau

variable {n i j : Nat} {cs : List Constraint} {c : Constraint} {columns : List Auxiliary}

theorem length_initialRow (hc : c.coefficients.length = n) :
    (initialRow columns c i).coefficients.length = n + columns.length := by
  simp [initialRow, hc]

theorem entry_initialRow_of_lt (hc : c.coefficients.length = n) (hj : j < n) :
    (initialRow columns c i).entry j = c.coefficients.getD j 0 := by
  rw [Row.entry_of_lt (by rw [length_initialRow hc]; omega), initialRow, List.getD,
    List.getElem?_append_left (hc ▸ hj)]
  rfl

theorem entry_initialRow_add (hc : c.coefficients.length = n) (hj : j < columns.length) :
    (initialRow columns c i).entry (n + j) = (columns.map (·.coefficient i)).getD j 0 := by
  rw [Row.entry_of_lt (by rw [length_initialRow hc]; omega), initialRow, List.getD,
    List.getElem?_append_right (hc ▸ Nat.le_add_right n j), hc, Nat.add_sub_cancel_left]
  rfl

theorem lhs_initialRow (hc : c.coefficients.length = n) (x : Nat → Rat) :
    (initialRow columns c i).lhs x =
      dot c.coefficients ((List.range n).map x) +
        Auxiliary.total columns i fun k => x (n + k) := by
  rw [Row.lhs, length_initialRow hc, Finset.sum_range_add, dot_range_map _ n hc, Auxiliary.total]
  congr 1
  · exact Finset.sum_congr rfl fun j hj => by
      rw [entry_initialRow_of_lt hc (Finset.mem_range.mp hj)]
  · exact Finset.sum_congr rfl fun j hj => by
      rw [entry_initialRow_add hc (Finset.mem_range.mp hj)]

theorem getElem?_rows_ofConstraints :
    (ofConstraints n cs).rows[i]? = cs[i]?.map fun c => initialRow (Auxiliary.all cs) c i :=
  List.getElem?_mapIdx

theorem getElem?_basis_ofConstraints : (ofConstraints n cs).basis[i]? =
    cs[i]?.map fun c => n + (Auxiliary.all cs).idxOf (Auxiliary.basic c i) :=
  List.getElem?_mapIdx

/-! ### The objective row of the first phase -/

/-- The indicator of the `count` columns from `first` on. -/
def artificialRow (first count : Nat) : Row :=
  ⟨List.replicate first 0 ++ List.replicate count 1, 0⟩

theorem length_artificialRow (first count : Nat) :
    (artificialRow first count).coefficients.length = first + count := by
  simp [artificialRow]

theorem entry_artificialRow {first count : Nat} (hj : j < first + count) :
    (artificialRow first count).entry j = if first ≤ j then 1 else 0 := by
  rw [Row.entry_of_lt (by rwa [length_artificialRow]), artificialRow, List.getD]
  by_cases hfirst : first ≤ j
  · rw [if_pos hfirst, List.getElem?_append_right (by simpa using hfirst), List.length_replicate,
      List.getElem?_replicate_of_lt (by omega)]
    rfl
  · rw [if_neg hfirst, List.getElem?_append_left (by simpa using hfirst),
      List.getElem?_replicate_of_lt (by omega)]
    rfl

theorem residual_artificialRow (first count : Nat) (x : Nat → Rat) :
    (artificialRow first count).residual x = ∑ j ∈ Finset.Ico first (first + count), x j := by
  have hzero : ∑ j ∈ Finset.range first, (artificialRow first count).entry j * x j = 0 :=
    Finset.sum_eq_zero fun j hj => by
      have hj := Finset.mem_range.mp hj
      rw [entry_artificialRow (by omega), if_neg (by omega), zero_mul]
  have hrhs : (artificialRow first count).rhs = 0 := rfl
  rw [Row.residual, Row.lhs, length_artificialRow, hrhs, sub_zero,
    ← Finset.sum_range_add_sum_Ico _ (Nat.le_add_right first count), hzero, zero_add]
  refine Finset.sum_congr rfl fun j hj => ?_
  obtain ⟨hlow, hhigh⟩ := Finset.mem_Ico.mp hj
  rw [entry_artificialRow hhigh, if_pos hlow, one_mul]

section Artificial

variable {t : Tableau} {first count : Nat}

section Fold

variable {basis : List Nat} {rows : List Row}
  (h : ∀ p ∈ basis.zip rows,
    p.2.coefficients.length = (artificialRow first count).coefficients.length)
include h

/-- Every row in which an artificial variable is basic counts with minus one. -/
theorem artificialObjective_eq : artificialObjective first count basis rows =
    weighted (fun b => if first ≤ b then -1 else 0) (artificialRow first count)
      (basis.zip rows) :=
  foldl_ite_addMultiple (fun b => first ≤ b) (fun _ => -1) h

theorem length_artificialObjective :
    (artificialObjective first count basis rows).coefficients.length = first + count := by
  rw [artificialObjective_eq h, length_weighted _ h, length_artificialRow]

end Fold

variable (hw : t.width = first + count)
include hw

theorem Rectangular.length_of_mem_zip_artificial (h : t.Rectangular) : ∀ p ∈ t.basis.zip t.rows,
    p.2.coefficients.length = (artificialRow first count).coefficients.length :=
  h.length_of_mem_zip ((length_artificialRow first count).trans hw.symm)

/-- The row of a basic artificial variable clears its column. -/
theorem UnitBasis.entry_artificialObjective_basic (h : t.UnitBasis) {b : Nat}
    (hb : b ∈ t.basis) : (artificialObjective first count t.basis t.rows).entry b = 0 := by
  rw [artificialObjective_eq (h.length_of_mem_zip_artificial hw),
    h.entry_weighted_basic _ ((length_artificialRow _ _).trans hw.symm) hb,
    entry_artificialRow (hw ▸ h.basic_lt b hb)]
  split <;> norm_num

/-- On the solutions of the rows it is the sum of the artificial variables. -/
theorem Rectangular.residual_artificialObjective (h : t.Rectangular) {x : Nat → Rat}
    (hx : t.Solves x) : (artificialObjective first count t.basis t.rows).residual x =
      ∑ j ∈ Finset.Ico first t.width, x j := by
  rw [artificialObjective_eq (h.length_of_mem_zip_artificial hw),
    residual_weighted _ (h.length_of_mem_zip_artificial hw) hx.of_mem_zip, residual_artificialRow,
    hw]

end Artificial

/-! ### The first tableau -/

theorem length_all (cs : List Constraint) : (Auxiliary.all cs).length =
    (Auxiliary.differences cs).length + (Auxiliary.artificials cs).length :=
  List.length_append

section Shaped

variable (h : ∀ c ∈ cs, c.coefficients.length = n)
include h

theorem length_of_mem_rows_ofConstraints :
    ∀ r ∈ (ofConstraints n cs).rows,
      r.coefficients.length = n + (Auxiliary.all cs).length := fun r hr => by
  obtain ⟨i, hi⟩ := List.mem_iff_getElem?.mp hr
  rw [getElem?_rows_ofConstraints, Option.map_eq_some_iff] at hi
  obtain ⟨c, hc, rfl⟩ := hi
  exact length_initialRow (h c (List.mem_of_getElem? hc))

theorem width_ofConstraints : (ofConstraints n cs).width = n + (Auxiliary.all cs).length := by
  have hrows : ∀ p ∈ (ofConstraints n cs).basis.zip (ofConstraints n cs).rows,
      p.2.coefficients.length = (artificialRow (n + (Auxiliary.differences cs).length)
        (Auxiliary.artificials cs).length).coefficients.length := by
    intro p hp
    rw [length_of_mem_rows_ofConstraints h p.2 (List.of_mem_zip (a := p.1) (b := p.2) hp).2,
      length_artificialRow, length_all, Nat.add_assoc]
  have hlength := length_artificialObjective hrows
  rw [Nat.add_assoc, ← length_all] at hlength
  exact hlength

theorem width_ofConstraints_eq_add : (ofConstraints n cs).width =
    n + (Auxiliary.differences cs).length + (Auxiliary.artificials cs).length := by
  rw [width_ofConstraints h, length_all, Nat.add_assoc]

/-- Each slack or artificial variable that is basic at first stands in its own row alone. -/
theorem unitBasis_ofConstraints : (ofConstraints n cs).UnitBasis where
  length_row r hr := by rw [length_of_mem_rows_ofConstraints h r hr, width_ofConstraints h]
  length_basis := by simp [ofConstraints]
  length_names := by
    rw [width_ofConstraints h]
    simp [ofConstraints]
  basic_lt b hb := by
    obtain ⟨k, hk⟩ := List.mem_iff_getElem?.mp hb
    rw [getElem?_basis_ofConstraints, Option.map_eq_some_iff] at hk
    obtain ⟨c, hc, rfl⟩ := hk
    rw [width_ofConstraints h]
    exact Nat.add_lt_add_left (List.idxOf_lt_length_of_mem (Auxiliary.basic_mem_all hc)) n
  unit {i k r b} hr hb := by
    rw [getElem?_rows_ofConstraints, Option.map_eq_some_iff] at hr
    rw [getElem?_basis_ofConstraints, Option.map_eq_some_iff] at hb
    obtain ⟨c, hc, rfl⟩ := hr
    obtain ⟨d, hd, rfl⟩ := hb
    have hlt := List.idxOf_lt_length_of_mem (Auxiliary.basic_mem_all hd)
    have hget := List.getElem?_eq_getElem hlt
    rw [List.getElem_idxOf] at hget
    rw [entry_initialRow_add (h c (List.mem_of_getElem? hc)) hlt,
      Auxiliary.getD_map_coefficient hget]
    unfold Auxiliary.basic
    split <;> simp [Auxiliary.coefficient, eq_comm]

theorem canonical_ofConstraints (hrhs : ∀ c ∈ cs, 0 ≤ c.rhs) :
    (ofConstraints n cs).Canonical where
  toUnitBasis := unitBasis_ofConstraints h
  objective_basic _ hb :=
    (unitBasis_ofConstraints h).entry_artificialObjective_basic (width_ofConstraints_eq_add h) hb
  rhs_nonneg r hr := by
    obtain ⟨i, hi⟩ := List.mem_iff_getElem?.mp hr
    rw [getElem?_rows_ofConstraints, Option.map_eq_some_iff] at hi
    obtain ⟨c, hc, rfl⟩ := hi
    exact hrhs c (List.mem_of_getElem? hc)

/-- On the solutions of the rows the objective row is the sum of the artificial variables. -/
theorem residual_objective_ofConstraints {x : Nat → Rat} (hx : (ofConstraints n cs).Solves x) :
    (ofConstraints n cs).objective.residual x =
      ∑ j ∈ Finset.Ico (n + (Auxiliary.differences cs).length) (ofConstraints n cs).width,
        x j :=
  (unitBasis_ofConstraints h).residual_artificialObjective (width_ofConstraints_eq_add h) hx

theorem solves_ofConstraints_iff (x : Nat → Rat) : (ofConstraints n cs).Solves x ↔
    ∀ i c, cs[i]? = some c → dot c.coefficients ((List.range n).map x) +
      (Auxiliary.total (Auxiliary.all cs) i fun k => x (n + k)) = c.rhs := by
  constructor
  · intro hx i c hc
    have hmem : initialRow (Auxiliary.all cs) c i ∈ (ofConstraints n cs).rows :=
      List.mem_of_getElem? (i := i) (by rw [getElem?_rows_ofConstraints, hc]; rfl)
    have hzero := hx _ hmem
    rw [Row.residual, lhs_initialRow (h c (List.mem_of_getElem? hc))] at hzero
    exact sub_eq_zero.mp hzero
  · intro hx r hr
    obtain ⟨i, hi⟩ := List.mem_iff_getElem?.mp hr
    rw [getElem?_rows_ofConstraints, Option.map_eq_some_iff] at hi
    obtain ⟨c, hc, rfl⟩ := hi
    rw [Row.residual, lhs_initialRow (h c (List.mem_of_getElem? hc))]
    exact sub_eq_zero.mpr (hx i c hc)

end Shaped

end Tableau

end ExactSimplex
