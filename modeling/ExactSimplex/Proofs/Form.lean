import ExactSimplex.Proofs.Reached

/-! The form of every tableau of a run.  It is canonical as far as its columns go: a basic column
that is there is a unit column.  In the second phase a basic column may be gone, and it is then one
of the artificial columns, so that no variable of the program is read off from two rows. -/

namespace ExactSimplex

/-- Canonical form in a phase, whose tableaux may lack columns that are basic. -/
structure Tableau.InForm (lp : LinearProgram) (phase : Phase) (t : Tableau) : Prop where
  rectangular : t.Rectangular
  width_eq : t.width = lp.columns phase
  length_rows : t.rows.length = lp.numConstraints
  basis_nodup : t.basis.Nodup
  rhs_nonneg : ∀ r ∈ t.rows, 0 ≤ r.rhs
  unit : ∀ {i k : Nat} {r : Row} {b : Nat}, t.rows[i]? = some r → t.basis[k]? = some b →
    b < t.width → r.entry b = if i = k then 1 else 0
  objective_basic : ∀ b ∈ t.basis, b < t.width → t.objective.entry b = 0
  basic_first : phase = .first → ∀ b ∈ t.basis, b < t.width
  basic_second : phase = .second → ∀ b ∈ t.basis, t.width ≤ b →
    lp.firstArtificial ≤ b ∧ b < lp.firstArtificial + lp.artificialCount
  /-- The coordinate of a basic variable is the right-hand side of its row, the only one it has. -/
  point_eq : ∀ {k : Nat} {r : Row} {b : Nat}, t.rows[k]? = some r → t.basis[k]? = some b →
    b < lp.numVars → (t.point lp)[b]? = some r.rhs

namespace Tableau.CutFrom

variable {lp : LinearProgram} {phase : Phase} {full t : Tableau}

theorem basic_lt (h : CutFrom lp phase full t) (hw : lp.WellShaped) {b : Nat} (hb : b ∈ t.basis) :
    b < lp.firstArtificial + lp.artificialCount := by
  rw [← LinearProgram.width_start hw, ← h.represents.width_eq]
  exact h.represents.basic_lt b (h.basis_eq ▸ hb)

theorem inForm (h : CutFrom lp phase full t) (hw : lp.WellShaped) : t.InForm lp phase where
  rectangular := by
    rw [h.eq_truncate]
    exact h.represents.toRectangular.truncate (h.represents.columns_le hw phase)
  width_eq := h.width_eq hw
  length_rows := by
    rw [h.eq_truncate]
    exact (List.length_map _).trans h.length_rows
  basis_nodup := h.basis_eq ▸ h.represents.basis_nodup
  rhs_nonneg q hq := by
    obtain ⟨i, hi⟩ := List.mem_iff_getElem?.mp hq
    obtain ⟨r, hr, rfl⟩ := h.exists_row hi
    exact h.represents.rhs_nonneg r (List.mem_of_getElem? hr)
  unit {i k q b} hq hb hlt := by
    obtain ⟨r, hr, rfl⟩ := h.exists_row hq
    rw [h.width_eq hw] at hlt
    rw [Row.entry_cut _ hlt]
    · exact h.represents.unit hr (h.basis_eq ▸ hb)
    · rw [h.represents.length_row r (List.mem_of_getElem? hr)]
      exact h.represents.columns_le hw phase
  objective_basic b hb hlt := by
    rw [h.width_eq hw] at hlt
    have hentry := Row.entry_cut (r := full.objective) (h.represents.columns_le hw phase) hlt
    rw [h.represents.objective_basic b (h.basis_eq ▸ hb)] at hentry
    rw [h.eq_truncate]
    exact hentry
  basic_first hphase b hb := by
    rw [h.width_eq hw, hphase]
    exact h.basic_lt hw hb
  basic_second hphase b hb hle := by
    rw [h.width_eq hw, hphase] at hle
    exact ⟨hle, h.basic_lt hw hb⟩
  point_eq hq hb hlt := by
    rw [point, List.getElem?_map, List.getElem?_range hlt, Option.map_some,
      h.valueOf_of_basic hq hb]

end Tableau.CutFrom

namespace LinearProgram

variable {lp : LinearProgram} {limit : Int} {phase : Phase} {t : Tableau}

/-- Every tableau that a run passes through is in canonical form, within any limit. -/
theorem inForm_of_reached (h : lp.Reached limit phase t) : t.InForm lp phase := by
  obtain ⟨full, hcut⟩ := h.cutFrom
  exact hcut.inForm h.wellShaped

theorem inForm_of_reached_displaced : ∃ t, displaced.Reached 200 .second t ∧
    t.basis = [3, 0] ∧ t.InForm displaced .second ∧ t.width = 3 := by
  obtain ⟨t, h, -, hbasis, -⟩ := exists_reached_displaced
  have hform := inForm_of_reached h
  exact ⟨t, h, hbasis, hform, hform.width_eq.trans (by decide)⟩

end LinearProgram

end ExactSimplex
