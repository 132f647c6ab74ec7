import ExactSimplex.Proofs.Phases

/-! Constraints and their mirror images, in which both sides have the opposite signs.  The two are
satisfied by the same points, and have one normal form unless the right-hand side is zero.  Solving
looks at a program through the normal form of its constraints only, so it gives the same run, with
the same tableaux on the way, whichever of them are mirrored. -/

namespace ExactSimplex

theorem Constraint.normalized_negated {c : Constraint} (h : c.rhs ≠ 0) :
    c.negated.normalized = c.normalized := by
  have hrhs : c.negated.rhs = -c.rhs := rfl
  rcases lt_or_gt_of_ne h with hneg | hpos
  · rw [normalized, if_pos (by rw [hrhs]; linarith), normalized, if_neg (not_le.mpr hneg)]
  · rw [normalized, if_neg (by rw [hrhs]; linarith), normalized, if_pos hpos.le, negated_negated]

namespace LinearProgram

/-- The program with the constraints in the given places replaced by their mirror images. -/
def mirrored (lp : LinearProgram) (places : Finset Nat) : LinearProgram :=
  { lp with constraints := lp.constraints.mapIdx fun i c => if i ∈ places then c.negated else c }

variable {lp : LinearProgram} {places : Finset Nat}

theorem normalized_normalized (lp : LinearProgram) : lp.normalized.normalized = lp.normalized := by
  simp only [normalized, List.map_map, Function.comp_def, Constraint.normalized_normalized]

theorem normalized_mirrored (h : ∀ i ∈ places, ∀ c ∈ lp.constraints[i]?, c.rhs ≠ 0) :
    (lp.mirrored places).normalized = lp.normalized := by
  have hconstraints : ((lp.mirrored places).constraints).map Constraint.normalized =
      lp.constraints.map Constraint.normalized := by
    refine List.ext_getElem? fun i => ?_
    rw [mirrored, List.getElem?_map, List.getElem?_mapIdx, List.getElem?_map, Option.map_map]
    refine Option.map_congr fun c hc => ?_
    by_cases hi : i ∈ places
    · rw [Function.comp_apply, if_pos hi, Constraint.normalized_negated (h i hi c hc)]
    · rw [Function.comp_apply, if_neg hi]
  rw [normalized, hconstraints]
  rfl

/-! ### Solving a program in normal form -/

theorem artificialCount_normalized (lp : LinearProgram) :
    lp.normalized.artificialCount = lp.artificialCount := by
  rw [artificialCount, normalized_normalized, artificialCount]

theorem initialTableau_normalized (lp : LinearProgram) :
    lp.normalized.initialTableau = lp.initialTableau := by
  rw [initialTableau, normalized_normalized, initialTableau]
  rfl

/-- A program is solved like its normal form, from which it differs in the constraints only. -/
theorem solve_normalized (lp : LinearProgram) (limit : Int) :
    lp.normalized.solve limit = lp.solve limit := by
  have hsecond : lp.normalized.secondPhase = lp.secondPhase := rfl
  simp only [solve, initialTableau_normalized, artificialCount_normalized, hsecond]

/-- The normal form of a constraint is a constraint in normal form for the same points.  To mirror
constraints whose right-hand side is not zero changes neither the first tableau nor the run. -/
theorem solve_mirrored :
    (∀ c : Constraint, 0 ≤ c.normalized.rhs ∧ (∀ x, c.normalized.Holds x ↔ c.Holds x) ∧
      c.normalized.normalized = c.normalized) ∧
    ∀ (lp : LinearProgram) (places : Finset Nat), lp.WellShaped →
      (∀ i ∈ places, ∀ c ∈ lp.constraints[i]?, c.rhs ≠ 0) →
      (∃ start, lp.initialTableau = .ok start ∧ (lp.mirrored places).initialTableau = .ok start) ∧
      (lp.mirrored places).artificialCount = lp.artificialCount ∧
      ∀ limit, ∃ run, lp.solve limit = .ok run ∧ (lp.mirrored places).solve limit = .ok run := by
  constructor
  · intro c
    exact ⟨c.rhs_normalized_nonneg, c.holds_normalized_iff, c.normalized_normalized⟩
  · intro lp places hw hrhs
    have hform := normalized_mirrored hrhs
    refine ⟨⟨lp.start, initialTableau_eq hw, ?_⟩, ?_, fun limit => ?_⟩
    · rw [← initialTableau_normalized, hform, initialTableau_normalized, initialTableau_eq hw]
    · rw [← artificialCount_normalized, hform, artificialCount_normalized]
    · obtain ⟨run, hrun, -⟩ := solve_spec hw limit
      refine ⟨run, hrun, ?_⟩
      rw [← solve_normalized, hform, solve_normalized, hrun]

/-- Relations of all kinds, and right-hand sides of all signs. -/
def slanted : LinearProgram :=
  ⟨[1, 2], true, [⟨[1, 1], .atMost, 4⟩, ⟨[1, -2], .atLeast, -3⟩, ⟨[1, -1], .equal, 0⟩,
    ⟨[-2, 0], .equal, -2⟩]⟩

theorem solve_mirrored_slanted : (slanted.mirrored {0, 1, 3}).constraints =
      [⟨[-1, -1], .atLeast, -4⟩, ⟨[-1, 2], .atMost, 3⟩, ⟨[1, -1], .equal, 0⟩,
        ⟨[2, 0], .equal, 2⟩] ∧
    (slanted.mirrored {0, 1, 3}).artificialCount = 2 ∧
    ∃ run, slanted.solve 200 = .ok run ∧ (slanted.mirrored {0, 1, 3}).solve 200 = .ok run ∧
      run.outcome = .optimal [1, 1] 3 := by
  obtain ⟨-, hcount, hrun⟩ := solve_mirrored.2 slanted {0, 1, 3} (by decide) (by decide)
  obtain ⟨run, hsolve, hmirrored⟩ := hrun 200
  obtain ⟨run', hsolve', ho⟩ : ∃ run, slanted.solve 200 = .ok run ∧
      run.outcome = .optimal [1, 1] 3 := exists_run_of_map (by decide +kernel)
  cases hsolve.symm.trans hsolve'
  exact ⟨by decide, hcount.trans (by decide), run, hsolve, hmirrored, ho⟩

end LinearProgram

end ExactSimplex
