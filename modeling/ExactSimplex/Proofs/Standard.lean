import ExactSimplex.Proofs.Reached

/-! The program behind every tableau of a run.  With the artificial variables at zero its rows have
the same solutions as the constraints in normal form, written as equations with slacks and
surpluses.  At its basic point these equations hold as well, with the artificial variables added,
and a dropped artificial variable counts with the right-hand side of the row that it is basic in. -/

namespace ExactSimplex

/-- The constraints in normal form, as equations at the values `x` of the variables, slacks and
surpluses, where `a i` is added to each row that has an artificial variable. -/
def LinearProgram.Balanced (lp : LinearProgram) (x a : Nat → Rat) : Prop :=
  ∀ (i : Nat) (c : Constraint), lp.normalized.constraints[i]? = some c →
    match c.relation with
    | .atMost => dot c.coefficients (lp.point x) + x (lp.place (.slack i)) = c.rhs
    | .atLeast => dot c.coefficients (lp.point x) - x (lp.place (.surplus i)) + a i = c.rhs
    | .equal => dot c.coefficients (lp.point x) + a i = c.rhs

/-- The point at which every basic column has the right-hand side of its row, also one that was
dropped, and every other column is zero. -/
structure Tableau.BasicPoint (t : Tableau) (x : Nat → Rat) : Prop where
  basic : ∀ {k : Nat} {r : Row} {b : Nat}, t.rows[k]? = some r → t.basis[k]? = some b →
    x b = r.rhs
  eq_zero : ∀ j ∉ t.basis, x j = 0

namespace LinearProgram

variable {lp : LinearProgram} {x a : Nat → Rat}

/-- The artificial variables enter the first tableau by their values alone. -/
theorem solves_start_iff_balanced (hw : lp.WellShaped)
    (ha : ∀ i, lp.place (.artificial i) < lp.start.width → a i = x (lp.place (.artificial i))) :
    lp.start.Solves x ↔ lp.Balanced x a := by
  rw [solves_start_iff hw]
  refine forall₃_congr fun i c hc => ?_
  have hvalue (hrel : c.relation ≠ .atMost) : a i = x (lp.place (.artificial i)) :=
    ha i (place_lt_width hw ((Auxiliary.artificial_mem_all_iff hc).mpr hrel))
  cases hrel : c.relation with
  | atMost => rfl
  | atLeast =>
    simp only [supplement, hvalue (by rw [hrel]; decide)]
    rw [← add_sub_assoc, sub_add_eq_add_sub]
  | equal => simp only [supplement, hvalue (by rw [hrel]; decide)]

end LinearProgram

namespace Tableau.CutFrom

variable {lp : LinearProgram} {phase : Phase} {full t : Tableau} {x : Nat → Rat}

theorem solves_iff (h : CutFrom lp phase full t) (hw : lp.WellShaped)
    (hx : ∀ j, lp.firstArtificial ≤ j → x j = 0) : t.Solves x ↔ lp.start.Solves x := by
  rw [h.eq_truncate, solves_truncate_iff h.represents.toRectangular
    (h.represents.columns_le hw phase)
    fun j hj => hx j ((lp.firstArtificial_le_columns phase).trans hj)]
  exact h.represents.solves_iff x

theorem basicPoint (h : CutFrom lp phase full t) : t.BasicPoint t.valueOf where
  basic hq hb := h.valueOf_of_basic hq hb
  eq_zero j hj := by
    rw [h.valueOf_eq]
    exact h.represents.readOff_of_not_basic Row.rhs (h.basis_eq ▸ hj)

theorem solves_start_valueOf (h : CutFrom lp phase full t) : lp.start.Solves t.valueOf := by
  rw [h.valueOf_eq, ← h.represents.solves_iff]
  exact h.represents.solves_valueOf

end Tableau.CutFrom

namespace LinearProgram

variable {lp : LinearProgram} {limit : Int} {phase : Phase} {t : Tableau}

/-- Every tableau that a run passes through stands for the program, within any limit: for its
solutions without artificial part, hence for its feasible points, and at its basic point. -/
theorem standard_of_reached (h : lp.Reached limit phase t) :
    (∀ x, (∀ j, lp.firstArtificial ≤ j → x j = 0) → (t.Solves x ↔ lp.Balanced x fun _ => 0)) ∧
    (∀ y, lp.Feasible y ↔ ∃ x, (∀ j, 0 ≤ x j) ∧ (∀ j, lp.firstArtificial ≤ j → x j = 0) ∧
      t.Solves x ∧ lp.point x = y) ∧
    t.BasicPoint t.valueOf ∧
    lp.Balanced t.valueOf fun i => t.valueOf (lp.place (.artificial i)) := by
  have hw := h.wellShaped
  obtain ⟨full, hcut⟩ := h.cutFrom
  refine ⟨fun x hx => ?_, fun y => ?_, hcut.basicPoint, ?_⟩
  · rw [hcut.solves_iff hw hx]
    exact solves_start_iff_balanced hw fun i _ => (hx _ (firstArtificial_le_place i)).symm
  · rw [feasible_iff_completed hw]
    constructor
    · rintro ⟨x, ⟨hnonneg, hsolves, hzero⟩, hy⟩
      exact ⟨x, hnonneg, hzero, (hcut.solves_iff hw hzero).mpr hsolves, hy⟩
    · rintro ⟨x, hnonneg, hzero, hsolves, hy⟩
      exact ⟨x, ⟨hnonneg, (hcut.solves_iff hw hzero).mp hsolves, hzero⟩, hy⟩
  · exact (solves_start_iff_balanced hw fun _ _ => rfl).mp hcut.solves_start_valueOf

/-- The point that is read off is `(5, 0)`, which is not feasible: the equation holds there with the
value five of its artificial variable only. -/
theorem standard_of_reached_displaced : ∃ t, displaced.Reached 200 .second t ∧
    t.basis = [3, 0] ∧ t.point displaced = [5, 0] ∧
    (displaced.Balanced t.valueOf fun i => t.valueOf (displaced.place (.artificial i))) ∧
    ¬∃ x, (∀ j, 0 ≤ x j) ∧ (∀ j, displaced.firstArtificial ≤ j → x j = 0) ∧ t.Solves x ∧
      displaced.point x = [5, 0] := by
  obtain ⟨t, h, -, hbasis, hpoint⟩ := exists_reached_displaced
  obtain ⟨-, hfeasible, -, hbalanced⟩ := standard_of_reached h
  exact ⟨t, h, hbasis, hpoint, hbalanced, (hfeasible _).not.mp fun hf =>
    absurd (hf.2.2 ⟨[-1, -1], .equal, 0⟩ List.mem_cons_self) (by decide +kernel)⟩

end LinearProgram

end ExactSimplex
