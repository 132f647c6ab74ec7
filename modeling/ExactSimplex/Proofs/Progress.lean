import ExactSimplex.Proofs.Form

/-! Progress.  A pivot raises the value by the least ratio times what the entering column gains for
each unit, so the value never falls and stays where it is only if the leaving row has the right-hand
side zero.  The column that leaves has a positive reduced cost then, so it does not come back at
once.  The value of the first phase is never above zero. -/

namespace ExactSimplex

namespace Tableau

variable {t u : Tableau} {i j b : Nat} {r : Row}

section Pivot

variable (h : t.Rectangular)
include h

theorem value_eliminate (hr : t.rows[i]? = some r) :
    (t.eliminate i j).value = t.value - t.objective.entry j * (r.rhs / r.entry j) := by
  rw [value, objective_eliminate hr, Row.rhs_clear (h.aligned.length_pivotRow hr)]
  rfl

theorem value_le_eliminate (hn : ∀ q ∈ t.rows, 0 ≤ q.rhs) (hj : t.entering = some j)
    (hl : t.Leaves i j r) : t.value ≤ (t.eliminate i j).value := by
  have hratio : 0 ≤ r.rhs / r.entry j :=
    div_nonneg (hn r (List.mem_of_getElem? hl.row)) hl.pos.le
  have hgain := mul_nonpos_of_nonpos_of_nonneg (entering_spec hj).2.le hratio
  rw [value_eliminate h hl.row]
  linarith

theorem value_eliminate_eq_iff (hj : t.entering = some j) (hl : t.Leaves i j r) :
    (t.eliminate i j).value = t.value ↔ r.rhs = 0 := by
  rw [value_eliminate h hl.row, sub_eq_self]
  constructor
  · intro hzero
    have hratio := (mul_eq_zero.mp hzero).resolve_left (entering_spec hj).2.ne
    exact (div_eq_zero_iff.mp hratio).resolve_right hl.pos.ne'
  · intro hzero
    rw [hzero, zero_div, mul_zero]

/-- A column that was the unit column of the leaving row has a positive reduced cost behind it. -/
theorem entry_leaving_pos (hj : t.entering = some j) (hl : t.Leaves i j r)
    (hone : r.entry b = 1) (hzero : t.objective.entry b = 0) :
    0 < (t.eliminate i j).objective.entry b := by
  have hcost : 0 < -t.objective.entry j := neg_pos.mpr (entering_spec hj).2
  have hshare := mul_pos hcost (one_div_pos.mpr hl.pos)
  rw [h.aligned.entry_objective_eliminate hl.row, hone, hzero]
  linarith

end Pivot

theorem ne_entering_of_entry_nonneg (h : 0 ≤ t.objective.entry b) : t.entering ≠ some b := by
  intro hb
  exact not_le.mpr (entering_spec hb).2 h

theorem ne_entering_of_width_le (h : t.width ≤ b) : t.entering ≠ some b := by
  intro hb
  exact not_le.mpr (entering_spec hb).1 h

/-- What the pivot from `t` to `u` does to the value, where column `j` enters and row `r` leaves,
in which column `b` was basic. -/
structure Gains (t u : Tableau) (j b : Nat) (r : Row) : Prop where
  value_le : t.value ≤ u.value
  value_eq : u.value = t.value + -t.objective.entry j * (r.rhs / r.entry j)
  /-- The ratio in it is the least one. -/
  least : ∀ q ∈ t.rows, 0 < q.entry j → r.rhs / r.entry j ≤ q.rhs / q.entry j
  value_eq_iff : u.value = t.value ↔ r.rhs = 0
  /-- The column that left has a positive reduced cost, if it is there. -/
  cost_pos : b < u.width → 0 < u.objective.entry b
  not_entering : u.entering ≠ some b

namespace InPhase

variable {lp : LinearProgram} {phase : Phase} {full : Tableau}

/-- Within a phase the value never falls. -/
theorem value_le_after (hw : lp.WellShaped) (h : InPhase lp phase full t) {k : Nat}
    (hu : t.after k = some u) : t.value ≤ u.value := by
  have hinvariant : t.value ≤ u.value ∧ ∃ full, InPhase lp phase full u :=
    after_spec (P := fun u => t.value ≤ u.value ∧ ∃ full, InPhase lp phase full u)
      (fun _ ⟨hle, full, h⟩ => ⟨hle, full.counted, h.counted⟩)
      (fun u i j ⟨hle, full, h⟩ hj hi => by
        obtain ⟨r, hl⟩ := leaving_spec hi
        have hform := h.toCutFrom.inForm hw
        exact ⟨hle.trans (value_le_eliminate hform.rectangular hform.rhs_nonneg hj hl),
          full.eliminate i j, h.eliminate hw hj hi⟩)
      ⟨le_rfl, full, h⟩ hu
  exact hinvariant.1

/-- The value of the first phase is minus the sum of the artificial variables. -/
theorem value_nonpos (hw : lp.WellShaped) (h : InPhase lp .first full t) : t.value ≤ 0 := by
  obtain rfl := h.eq_of_first hw
  rw [h.represents.value_eq h.measures, neg_nonpos]
  exact LinearProgram.artificialSum_nonneg h.represents.valueOf_nonneg

theorem gains_eliminate (hw : lp.WellShaped) (h : InPhase lp phase full t)
    (hj : t.entering = some j) (hl : t.Leaves i j r) (hb : t.basis[i]? = some b) :
    Gains t (t.eliminate i j) j b r := by
  have hform := h.toCutFrom.inForm hw
  have hrectangular := hform.rectangular
  have hcost (hlt : b < t.width) : 0 < (t.eliminate i j).objective.entry b := by
    refine entry_leaving_pos hrectangular hj hl ?_ ?_
    · rw [hform.unit hl.row hb hlt, if_pos rfl]
    · exact hform.objective_basic b (List.mem_of_getElem? hb) hlt
  have hwidth : (t.eliminate i j).width = t.width := hrectangular.aligned.width_eliminate hl.row
  exact
    { value_le := value_le_eliminate hrectangular hform.rhs_nonneg hj hl
      value_eq := by
        rw [value_eliminate hrectangular hl.row]
        ring
      least := hl.least
      value_eq_iff := value_eliminate_eq_iff hrectangular hj hl
      cost_pos := fun hlt => hcost (hwidth ▸ hlt)
      not_entering := by
        by_cases hlt : b < t.width
        · exact ne_entering_of_entry_nonneg (hcost hlt).le
        · exact ne_entering_of_width_le (hwidth ▸ not_lt.mp hlt) }

end InPhase

end Tableau

namespace LinearProgram

variable {lp : LinearProgram} {limit : Int} {phase : Phase} {s t u : Tableau} {k : Nat}

/-- Every pivot of a phase makes progress: it raises the value by the gain of the entering column
times the least ratio, and the column that leaves does not enter next.  In the first phase the value
stays at zero or below. -/
theorem pivot_gains (hs : lp.Begins limit phase s) (ht : s.after k = some t)
    (hstep : t.counted.step = .ok (.pivoted u)) :
    ∃ i j b r, t.entering = some j ∧ t.leaving j = some i ∧ t.basis[i]? = some b ∧
      t.rows[i]? = some r ∧ Tableau.Gains t u j b r ∧
      (phase = .first → t.value ≤ 0 ∧ u.value ≤ 0) := by
  have hw := hs.wellShaped
  obtain ⟨full, hphase⟩ := hs.inPhase_after ht
  obtain ⟨i, j, hj, hi, rfl⟩ := Tableau.step_eq_pivoted hstep
  obtain ⟨r, hl⟩ := Tableau.leaving_spec hi
  have hrectangular := (hphase.toCutFrom.inForm hw).rectangular
  obtain ⟨b, hb⟩ := hrectangular.exists_basic hl.row
  have hgains := hphase.counted.gains_eliminate hw hj hl hb
  have hnext := hphase.counted.eliminate hw hj hi
  refine ⟨i, j, b, r, hj, hi, hb, hl.row, ⟨hgains.value_le, hgains.value_eq, hgains.least,
    hgains.value_eq_iff, hgains.cost_pos, hgains.not_entering⟩, ?_⟩
  rintro rfl
  exact ⟨hphase.value_nonpos hw, hnext.value_nonpos hw⟩

/-- The first pivot takes the artificial variable from four to zero. -/
def seesaw : LinearProgram := ⟨[1, 3], true, [⟨[2, 1], .equal, 4⟩]⟩

theorem pivot_gains_seesaw : ∃ s u, seesaw.Begins 200 .first s ∧ s.after 0 = some s ∧
    s.counted.step = .ok (.pivoted u) ∧ s.value = -4 ∧ u.value = -4 + 2 * (4 / 2) ∧
      0 < u.objective.entry 2 ∧ u.entering ≠ some 2 := by
  have hw : seesaw.WellShaped := by decide
  have hs : seesaw.Begins 200 .first seesaw.start := .first (initialTableau_eq hw) (by decide)
  have hj : seesaw.start.entering = some 0 := by decide +kernel
  have hi : seesaw.start.leaving 0 = some 0 := by decide +kernel
  have hstep : seesaw.start.counted.step =
      .ok (.pivoted (seesaw.start.counted.eliminate 0 0)) :=
    Tableau.step_of_leaving_eq_some hj hi
  have hafter : seesaw.start.after 0 = some seesaw.start := rfl
  obtain ⟨i, j, b, r, hj', hi', hb, hr, hgains, -⟩ := pivot_gains hs hafter hstep
  cases hj.symm.trans hj'
  cases hi.symm.trans hi'
  have hbasic : seesaw.start.basis[0]? = some 2 := by decide +kernel
  have hrow : seesaw.start.rows[0]? = some ⟨[2, 1, 1], 4⟩ := by decide +kernel
  have hcost : seesaw.start.objective = ⟨[-2, -1, 0], -4⟩ := by decide +kernel
  cases hbasic.symm.trans hb
  cases hrow.symm.trans hr
  refine ⟨seesaw.start, _, hs, hafter, hstep, by rw [Tableau.value, hcost], ?_,
    hgains.cost_pos (by decide +kernel), hgains.not_entering⟩
  rw [hgains.value_eq, Tableau.value, hcost]
  decide +kernel

end LinearProgram

end ExactSimplex
