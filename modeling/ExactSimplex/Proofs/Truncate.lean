import ExactSimplex.Proofs.Objective

/-! Tableaux without their last columns.  To cut columns off commutes with an elimination in a
column that stays and with a new objective row, and it changes neither the basic point nor the
value.  So a tableau with dropped columns is followed together with the one that still has them. -/

namespace ExactSimplex

namespace Row

/-- The row with its first `m` coefficients. -/
def cut (m : Nat) (r : Row) : Row := ⟨r.coefficients.take m, r.rhs⟩

variable {r p : Row} {m : Nat}

theorem front_eq_cut (h : m ≤ r.coefficients.length) : r.front m = r.cut m := by
  have hm : (0 : Int) ≤ m := Int.natCast_nonneg m
  rw [front, ExactSimplex.front, if_pos hm, Int.toNat_natCast, entries,
    List.take_append_of_le_length h]
  rfl

theorem length_cut (h : m ≤ r.coefficients.length) : (r.cut m).coefficients.length = m := by
  simp [cut, h]

theorem cut_self (h : r.coefficients.length = m) : r.cut m = r := by
  rw [cut, List.take_of_length_le h.le]

theorem entry_cut (h : m ≤ r.coefficients.length) {j : Nat} (hj : j < m) :
    (r.cut m).entry j = r.entry j := by
  rw [entry_of_lt (by rwa [length_cut h]), entry_of_lt (by omega), cut, List.getD, List.getD,
    List.getElem?_take_of_lt hj]

theorem cut_divide (r : Row) (m : Nat) (k : Rat) : (r.divide k).cut m = (r.cut m).divide k := by
  simp only [cut, divide, List.map_take]

theorem cut_addMultiple (r p : Row) (m : Nat) (k : Rat) :
    (r.addMultiple k p).cut m = (r.cut m).addMultiple k (p.cut m) := by
  simp only [cut, addMultiple, List.take_zipWith]

theorem cut_clear (h : m ≤ r.coefficients.length) {j : Nat} (hj : j < m) (p : Row) :
    (r.clear j p).cut m = (r.cut m).clear j (p.cut m) := by
  unfold clear
  rw [entry_cut h hj]
  split
  · rfl
  · exact cut_addMultiple r p m _

/-- The coefficients that are cut off do not count at a point that is zero there. -/
theorem lhs_cut (h : m ≤ r.coefficients.length) {x : Nat → Rat}
    (hx : ∀ j, m ≤ j → j < r.coefficients.length → x j = 0) : (r.cut m).lhs x = r.lhs x := by
  rw [lhs, length_cut h, lhs]
  have hsubset : Finset.range m ⊆ Finset.range r.coefficients.length := Finset.range_mono h
  rw [← Finset.sum_subset hsubset]
  · exact Finset.sum_congr rfl fun j hj => by rw [entry_cut h (Finset.mem_range.mp hj)]
  · intro j hj hjm
    rw [hx j (not_lt.mp fun hlt => hjm (Finset.mem_range.mpr hlt)) (Finset.mem_range.mp hj),
      mul_zero]

end Row

namespace Tableau

/-- The tableau with its first `m` columns. -/
def truncate (t : Tableau) (m : Nat) : Tableau :=
  { t with
    rows := t.rows.map (Row.cut m)
    objective := t.objective.cut m
    names := t.names.take m }

variable {t : Tableau} {m : Nat} {lp : LinearProgram}

theorem dropColumns_eq_truncate (h : t.Rectangular) {count : Nat} (hw : t.width = m + count) :
    t.dropColumns count = t.truncate m := by
  have hkept : (t.width : Int) - count = m := by omega
  have hrows : t.rows.map (Row.front · m) = t.rows.map (Row.cut m) :=
    List.map_congr_left fun r hr => Row.front_eq_cut (by rw [h.length_row r hr]; omega)
  have hobjective : t.objective.front m = t.objective.cut m :=
    Row.front_eq_cut (show m ≤ t.width by omega)
  have hm : (0 : Int) ≤ m := Int.natCast_nonneg m
  simp only [dropColumns, hkept]
  rw [hrows, hobjective, front, if_pos hm, Int.toNat_natCast]
  rfl

theorem truncate_width (h : t.Rectangular) : t.truncate t.width = t := by
  have hrows : t.rows.map (Row.cut t.width) = t.rows := by
    conv_rhs => rw [← List.map_id t.rows]
    exact List.map_congr_left fun r hr => Row.cut_self (h.length_row r hr)
  rw [truncate, hrows, Row.cut_self (r := t.objective) (m := t.width) rfl,
    List.take_of_length_le h.length_names.le]

theorem width_truncate (h : m ≤ t.width) : (t.truncate m).width = m := Row.length_cut h

theorem getElem?_rows_truncate (t : Tableau) (m i : Nat) :
    (t.truncate m).rows[i]? = t.rows[i]?.map (Row.cut m) :=
  List.getElem?_map

theorem valueOf_truncate (t : Tableau) (m : Nat) : (t.truncate m).valueOf = t.valueOf := by
  funext j
  show ((t.basis.zip (t.rows.map (Row.cut m))).foldl _ 0 : Rat) = _
  rw [List.zip_map_right, List.foldl_map]
  rfl

/-- Columns in which a point is zero can be cut off. -/
theorem solves_truncate_iff (h : t.Rectangular) (hm : m ≤ t.width) {x : Nat → Rat}
    (hx : ∀ j, m ≤ j → x j = 0) : (t.truncate m).Solves x ↔ t.Solves x := by
  have hresidual : ∀ r ∈ t.rows, (r.cut m).residual x = r.residual x := fun r hr => by
    rw [Row.residual, Row.lhs_cut (by rwa [h.length_row r hr]) fun j hj _ => hx j hj]
    rfl
  rw [Solves, truncate, List.forall_mem_map]
  exact forall₂_congr fun r hr => by rw [hresidual r hr]

theorem truncate_eliminate (h : t.Rectangular) (hm : m ≤ t.width) {i j : Nat} (hj : j < m)
    {r : Row} (hr : t.rows[i]? = some r) :
    (t.eliminate i j).truncate m = (t.truncate m).eliminate i j := by
  have hlength (q : Row) (hq : q ∈ t.rows) : m ≤ q.coefficients.length := by
    rwa [h.length_row q hq]
  have hpivot : (pivotRow r j).cut m = pivotRow (r.cut m) j := by
    rw [pivotRow, Row.cut_divide, pivotRow, Row.entry_cut (hlength r (List.mem_of_getElem? hr)) hj]
  have hr' : (t.truncate m).rows[i]? = some (r.cut m) := by
    rw [getElem?_rows_truncate, hr, Option.map_some]
  have hrows : (t.eliminate i j).rows.map (Row.cut m) =
      ((t.truncate m).eliminate i j).rows := by
    refine List.ext_getElem? fun k => ?_
    rw [List.getElem?_map, getElem?_rows_eliminate hr, getElem?_rows_eliminate hr',
      getElem?_rows_truncate]
    cases hq : t.rows[k]? with
    | none => rfl
    | some q =>
      simp only [Option.map_some, Option.some.injEq]
      split
      · exact hpivot
      · rw [Row.cut_clear (hlength q (List.mem_of_getElem? hq)) hj, hpivot]
  have hobjective : (t.eliminate i j).objective.cut m =
      ((t.truncate m).eliminate i j).objective := by
    rw [objective_eliminate hr, objective_eliminate hr', Row.cut_clear hm hj, hpivot]
    rfl
  rw [truncate, hrows, hobjective, eliminate_eq hr']
  rw [eliminate_eq hr]
  rfl

theorem cut_weighted (w : Nat → Rat) (z : Row) (ps : List (Nat × Row)) (m : Nat) :
    (weighted w z ps).cut m = weighted w (z.cut m) (ps.map (Prod.map id (Row.cut m))) := by
  induction ps generalizing z with
  | nil => rfl
  | cons p ps ih =>
    have htail := ih (z.addMultiple (w p.1) p.2)
    rw [Row.cut_addMultiple] at htail
    exact htail

theorem Rectangular.truncate (h : t.Rectangular) (hm : m ≤ t.width) :
    (t.truncate m).Rectangular where
  length_row r hr := by
    obtain ⟨q, hq, rfl⟩ := List.mem_map.mp hr
    rw [width_truncate hm, Row.length_cut (by rwa [h.length_row q hq])]
  length_basis := h.length_basis.trans (List.length_map _).symm
  length_names := by
    rw [width_truncate hm]
    simp [Tableau.truncate, h.length_names, hm]

theorem truncate_reset (h : t.Rectangular) (hm : m ≤ t.width) (hn : lp.numVars ≤ m) :
    (t.reset lp).truncate m = (t.truncate m).reset lp := by
  have hplain : (t.plainObjective lp).cut m = (t.truncate m).plainObjective lp := by
    rw [plainObjective_eq (hn.trans hm), plainObjective_eq (by rwa [width_truncate hm]),
      width_truncate hm, Row.cut]
    simp only [Row.mk.injEq, and_true]
    rw [List.take_append, List.take_of_length_le
      (by rw [List.length_map, lp.length_maxObjective]; exact hn), List.length_map,
      lp.length_maxObjective, List.take_replicate]
    congr 2
    omega
  have hobjective : (t.reducedObjective lp).cut m = (t.truncate m).reducedObjective lp := by
    rw [reducedObjective_eq h (hn.trans hm), cut_weighted, hplain, ← List.zip_map_right,
      reducedObjective_eq (h.truncate hm) (by rwa [width_truncate hm])]
    rfl
  show { t.truncate m with objective := (t.reducedObjective lp).cut m } = (t.truncate m).reset lp
  rw [hobjective]
  rfl

/-- A choice without the last columns is a choice with them. -/
theorem Leaves.of_truncate (h : t.Rectangular) (hm : m ≤ t.width) {i j : Nat} (hj : j < m)
    {q : Row} (hl : (t.truncate m).Leaves i j q) : ∃ r, t.Leaves i j r ∧ q = r.cut m := by
  obtain ⟨hrow, hpos, hleast⟩ := hl
  have hentry (r : Row) (hr : r ∈ t.rows) : (r.cut m).entry j = r.entry j :=
    Row.entry_cut (by rwa [h.length_row r hr]) hj
  rw [getElem?_rows_truncate, Option.map_eq_some_iff] at hrow
  obtain ⟨r, hr, rfl⟩ := hrow
  have hmem := List.mem_of_getElem? hr
  rw [hentry r hmem] at hpos hleast
  refine ⟨r, ⟨hr, hpos, fun p hp hppos => ?_⟩, rfl⟩
  have hle := hleast (p.cut m) (List.mem_map_of_mem hp) (by rwa [hentry p hp])
  rwa [hentry p hp] at hle

/-- What is chosen without the last columns is chosen with them, and the pivots agree. -/
theorem leaves_of_truncate (h : t.Rectangular) (hm : m ≤ t.width) {i j : Nat}
    (hj : (t.truncate m).entering = some j) (hi : (t.truncate m).leaving j = some i) :
    ∃ r, t.Leaves i j r ∧ j < m ∧ (t.eliminate i j).truncate m = (t.truncate m).eliminate i j := by
  have hlt : j < m := width_truncate hm ▸ (entering_spec hj).1
  obtain ⟨q, hl⟩ := leaving_spec hi
  obtain ⟨r, hl, -⟩ := hl.of_truncate h hm hlt
  exact ⟨r, hl, hlt, truncate_eliminate h hm hlt hl.row⟩

/-! ### Rows whose basic column is cut off -/

/-- The value `f` is zero in every row whose basic column is not there any more. -/
def ZeroOnDropped (t : Tableau) (f : Row → Rat) : Prop :=
  ∀ p ∈ t.basis.zip t.rows, t.width ≤ p.1 → f p.2 = 0

instance (t : Tableau) (f : Row → Rat) : Decidable (t.ZeroOnDropped f) :=
  inferInstanceAs (Decidable (∀ p ∈ t.basis.zip t.rows, _))

theorem zeroOnDropped_truncate_iff (h : t.UnitBasis) (hm : m ≤ t.width) {f : Row → Rat}
    (hf : ∀ r ∈ t.rows, f (r.cut m) = f r) :
    (t.truncate m).ZeroOnDropped f ↔ ∀ j, m ≤ j → t.readOff f j = 0 := by
  constructor
  · intro hzero j hj
    by_cases hbasic : j ∈ t.basis
    · obtain ⟨k, hk⟩ := List.mem_iff_getElem?.mp hbasic
      obtain ⟨r, hr⟩ := h.exists_row hk
      rw [h.readOff_of_basic f hk hr, ← hf r (List.mem_of_getElem? hr)]
      refine hzero (j, r.cut m) (mem_basis_zip.mpr ⟨k, hk, ?_⟩) (by rwa [width_truncate hm])
      rw [getElem?_rows_truncate, hr, Option.map_some]
    · exact h.readOff_of_not_basic f hbasic
  · rintro hzero ⟨b, q⟩ hp hb
    obtain ⟨k, hk, hq⟩ := mem_basis_zip.mp hp
    rw [getElem?_rows_truncate, Option.map_eq_some_iff] at hq
    obtain ⟨r, hr, rfl⟩ := hq
    rw [width_truncate hm] at hb
    rw [hf r (List.mem_of_getElem? hr), ← h.readOff_of_basic f hk hr]
    exact hzero b hb

end Tableau

end ExactSimplex
