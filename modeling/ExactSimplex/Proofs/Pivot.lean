import ExactSimplex.Proofs.Row
import ExactSimplex.Tableau.Basic

/-! The elimination step on tableaux whose rows all have one width.  It keeps that shape, it keeps
the points that solve the rows, and at such a point it keeps the residual of the objective row. -/

namespace ExactSimplex.Tableau

/-- All rows are as wide as the objective row, and each has a basic column. -/
structure Aligned (t : Tableau) : Prop where
  length_row : ∀ r ∈ t.rows, r.coefficients.length = t.width
  length_basis : t.basis.length = t.rows.length

/-- All rows are as wide as the objective row, each has a basic column, and the columns before the
right-hand side have names. -/
structure Rectangular (t : Tableau) : Prop where
  length_row : ∀ r ∈ t.rows, r.coefficients.length = t.width
  length_basis : t.basis.length = t.rows.length
  length_names : t.names.length = t.width

theorem Rectangular.aligned {t : Tableau} (h : t.Rectangular) : t.Aligned :=
  ⟨h.length_row, h.length_basis⟩

/-- The point `x` solves the equations of all rows. -/
def Solves (t : Tableau) (x : Nat → Rat) : Prop := ∀ r ∈ t.rows, r.residual x = 0

/-- Along a direction in which no row changes the rows stay solved. -/
theorem Solves.add_mul {t : Tableau} {x d : Nat → Rat} (h : t.Solves x)
    (hd : ∀ r ∈ t.rows, r.lhs d = 0) (s : Rat) : t.Solves fun j => x j + s * d j := fun r hr => by
  rw [Row.residual_add_mul, h r hr, hd r hr, mul_zero, add_zero]

/-- The row that takes the place of the leaving row `r`. -/
def pivotRow (r : Row) (j : Nat) : Row := r.divide (r.entry j)

theorem length_pivotRow (r : Row) (j : Nat) :
    (pivotRow r j).coefficients.length = r.coefficients.length :=
  r.length_divide _

theorem entry_pivotRow (r : Row) (j c : Nat) : (pivotRow r j).entry c = r.entry c / r.entry j :=
  r.entry_divide _ c

theorem residual_pivotRow (r : Row) (j : Nat) (x : Nat → Rat) :
    (pivotRow r j).residual x = r.residual x / r.entry j :=
  r.residual_divide _ x

section Eliminate

variable {t : Tableau} {i j : Nat} {r : Row}

theorem eliminate_eq (hr : t.rows[i]? = some r) : t.eliminate i j =
    { t with
      rows := t.rows.mapIdx fun k q => if k = i then pivotRow r j else q.clear j (pivotRow r j)
      objective := t.objective.clear j (pivotRow r j)
      basis := t.basis.set i j } := by
  rw [eliminate, hr]
  rfl

theorem getElem?_rows_eliminate (hr : t.rows[i]? = some r) (k : Nat) :
    (t.eliminate i j).rows[k]? =
      t.rows[k]?.map fun q => if k = i then pivotRow r j else q.clear j (pivotRow r j) := by
  rw [eliminate_eq hr]
  exact List.getElem?_mapIdx

theorem getElem?_rows_eliminate_self (hr : t.rows[i]? = some r) :
    (t.eliminate i j).rows[i]? = some (pivotRow r j) := by
  rw [getElem?_rows_eliminate hr, hr, Option.map_some, if_pos rfl]

theorem getElem?_rows_eliminate_ne (hr : t.rows[i]? = some r) {k : Nat} {q : Row} (hki : k ≠ i)
    (hq : t.rows[k]? = some q) :
    (t.eliminate i j).rows[k]? = some (q.clear j (pivotRow r j)) := by
  rw [getElem?_rows_eliminate hr, hq, Option.map_some, if_neg hki]

theorem objective_eliminate (hr : t.rows[i]? = some r) :
    (t.eliminate i j).objective = t.objective.clear j (pivotRow r j) := by
  rw [eliminate_eq hr]

theorem basis_eliminate (hr : t.rows[i]? = some r) :
    (t.eliminate i j).basis = t.basis.set i j := by
  rw [eliminate_eq hr]

theorem names_eliminate (hr : t.rows[i]? = some r) : (t.eliminate i j).names = t.names := by
  rw [eliminate_eq hr]

theorem length_rows_eliminate (hr : t.rows[i]? = some r) :
    (t.eliminate i j).rows.length = t.rows.length := by
  rw [eliminate_eq hr]
  exact List.length_mapIdx

theorem mem_rows_eliminate (hr : t.rows[i]? = some r) {q : Row}
    (hq : q ∈ (t.eliminate i j).rows) :
    q = pivotRow r j ∨ ∃ q' ∈ t.rows, q = q'.clear j (pivotRow r j) := by
  obtain ⟨k, hk⟩ := List.mem_iff_getElem?.mp hq
  rw [getElem?_rows_eliminate hr, Option.map_eq_some_iff] at hk
  obtain ⟨q', hq', rfl⟩ := hk
  split
  · exact .inl rfl
  · exact .inr ⟨q', List.mem_of_getElem? hq', rfl⟩

section Aligned

variable (h : t.Aligned) (hr : t.rows[i]? = some r)
include h hr

theorem Aligned.length_pivotRow : (pivotRow r j).coefficients.length = t.width := by
  rw [Tableau.length_pivotRow]
  exact h.length_row r (List.mem_of_getElem? hr)

theorem Aligned.width_eliminate : (t.eliminate i j).width = t.width := by
  rw [width, objective_eliminate hr, Row.length_clear (h.length_pivotRow hr)]
  rfl

theorem Aligned.eliminate : (t.eliminate i j).Aligned where
  length_row q hq := by
    rw [h.width_eliminate hr]
    rcases mem_rows_eliminate hr hq with rfl | ⟨q', hq', rfl⟩
    · exact h.length_pivotRow hr
    · rw [Row.length_clear ((h.length_pivotRow hr).trans (h.length_row q' hq').symm)]
      exact h.length_row q' hq'
  length_basis := by
    rw [basis_eliminate hr, List.length_set, length_rows_eliminate hr, h.length_basis]

theorem Aligned.entry_clear {q : Row} (hq : q ∈ t.rows) (c : Nat) :
    (q.clear j (pivotRow r j)).entry c = q.entry c - q.entry j * (r.entry c / r.entry j) := by
  rw [Row.entry_clear ((h.length_pivotRow hr).trans (h.length_row q hq).symm), entry_pivotRow]

theorem Aligned.residual_clear {q : Row} (hq : q ∈ t.rows) (x : Nat → Rat) :
    (q.clear j (pivotRow r j)).residual x =
      q.residual x - q.entry j * (r.residual x / r.entry j) := by
  rw [Row.residual_clear ((h.length_pivotRow hr).trans (h.length_row q hq).symm),
    residual_pivotRow]

theorem Aligned.entry_objective_eliminate (c : Nat) :
    (t.eliminate i j).objective.entry c =
      t.objective.entry c - t.objective.entry j * (r.entry c / r.entry j) := by
  rw [objective_eliminate hr, Row.entry_clear (h.length_pivotRow hr), entry_pivotRow]

/-- The new basic column becomes the unit column of its row. -/
theorem Aligned.entry_eliminate_self (hj : r.entry j ≠ 0) {k : Nat} {q : Row}
    (hq : (t.eliminate i j).rows[k]? = some q) : q.entry j = if k = i then 1 else 0 := by
  rw [getElem?_rows_eliminate hr, Option.map_eq_some_iff] at hq
  obtain ⟨q, hq, rfl⟩ := hq
  split
  · rw [entry_pivotRow, div_self hj]
  · rw [h.entry_clear hr (List.mem_of_getElem? hq), div_self hj, mul_one, sub_self]

theorem Aligned.entry_objective_eliminate_self (hj : r.entry j ≠ 0) :
    (t.eliminate i j).objective.entry j = 0 := by
  rw [h.entry_objective_eliminate hr, div_self hj, mul_one, sub_self]

/-- A column with a zero in the leaving row keeps its entries. -/
theorem Aligned.entry_eliminate_of_eq_zero {c : Nat} (hc : r.entry c = 0) {k : Nat} {q q' : Row}
    (hq : t.rows[k]? = some q) (hq' : (t.eliminate i j).rows[k]? = some q') :
    q'.entry c = q.entry c := by
  by_cases hki : k = i
  · subst hki
    rw [getElem?_rows_eliminate_self hr] at hq'
    rw [hr] at hq
    rw [← Option.some.inj hq', ← Option.some.inj hq, entry_pivotRow, hc, zero_div]
  · rw [getElem?_rows_eliminate_ne hr hki hq] at hq'
    rw [← Option.some.inj hq', h.entry_clear hr (List.mem_of_getElem? hq), hc, zero_div, mul_zero,
      sub_zero]

theorem Aligned.entry_objective_eliminate_of_eq_zero {c : Nat} (hc : r.entry c = 0) :
    (t.eliminate i j).objective.entry c = t.objective.entry c := by
  rw [h.entry_objective_eliminate hr, hc, zero_div, mul_zero, sub_zero]

/-- At a point that solves the leaving row the objective row keeps its residual. -/
theorem Aligned.residual_objective_eliminate {x : Nat → Rat} (hx : r.residual x = 0) :
    (t.eliminate i j).objective.residual x = t.objective.residual x := by
  rw [objective_eliminate hr, Row.residual_clear (h.length_pivotRow hr), residual_pivotRow, hx]
  ring

theorem Aligned.solves_eliminate_iff (hj : r.entry j ≠ 0) (x : Nat → Rat) :
    (t.eliminate i j).Solves x ↔ t.Solves x := by
  constructor
  · intro hx
    have hpivot : r.residual x = 0 := by
      have := hx (pivotRow r j) (List.mem_of_getElem? (getElem?_rows_eliminate_self hr))
      rw [residual_pivotRow] at this
      exact (div_eq_zero_iff.mp this).resolve_right hj
    intro q hq
    obtain ⟨k, hk⟩ := List.mem_iff_getElem?.mp hq
    by_cases hki : k = i
    · subst hki
      rw [hk] at hr
      rw [Option.some.inj hr, hpivot]
    · have := hx (q.clear j (pivotRow r j))
        (List.mem_of_getElem? (getElem?_rows_eliminate_ne hr hki hk))
      rw [h.residual_clear hr hq, hpivot] at this
      simpa using this
  · intro hx q hq
    have hpivot := hx r (List.mem_of_getElem? hr)
    rcases mem_rows_eliminate hr hq with rfl | ⟨q', hq', rfl⟩
    · rw [residual_pivotRow, hpivot, zero_div]
    · rw [h.residual_clear hr hq', hpivot, hx q' hq']
      ring

end Aligned

theorem Rectangular.eliminate (h : t.Rectangular) (hr : t.rows[i]? = some r) :
    (t.eliminate i j).Rectangular where
  length_row := (h.aligned.eliminate hr).length_row
  length_basis := (h.aligned.eliminate hr).length_basis
  length_names := by rw [names_eliminate hr, h.aligned.width_eliminate hr, h.length_names]

end Eliminate

end ExactSimplex.Tableau
