import ExactSimplex.Proofs.Phases

/-! What the verdicts of a run say about all feasible points.  Every feasible point is completed to
a solution of the last tableau, and where no column enters, the objective row is not negative there.
In a second phase it measures the objective, so the reported value is the best one; in a first phase
it measures the sum of the artificial variables, which is zero at a completed point, so a value
other than zero leaves no feasible point. -/

namespace ExactSimplex

namespace Tableau

variable {full t : Tableau} {lp : LinearProgram} {x : Nat → Rat}

/-- A first phase that ends with a value has no feasible point to find. -/
theorem Represents.not_feasible (h : t.Represents lp) (hw : lp.WellShaped)
    (hg : t.Measures lp.artificialSum) (he : t.entering = none) (hv : t.value ≠ 0) :
    ¬∃ y, lp.Feasible y := by
  rintro ⟨y, hy⟩
  obtain ⟨x, hx, -⟩ := (LinearProgram.feasible_iff_completed hw).mp hy
  have hmeasure : t.objective.lhs x - t.value = 0 := by
    rw [← hx.artificialSum_eq_zero]
    exact hg x ((h.solves_iff x).mpr hx.solves)
  have hlower := lhs_objective_nonneg he hx.nonneg
  have hupper : t.value ≤ 0 := by
    rw [h.value_eq hg]
    exact neg_nonpos.mpr (LinearProgram.artificialSum_nonneg h.valueOf_nonneg)
  exact hv (by linarith)

namespace SecondPhase

variable (h : SecondPhase lp full t)
include h

theorem objectiveValue_eq : t.objectiveValue lp = lp.valueAt (t.point lp) := by
  have hgain : lp.gain t.valueOf = t.value := by
    rw [h.valueOf_eq, h.value_eq, h.represents.value_eq h.measures, neg_neg]
  rw [objectiveValue, point, lp.valueAt_range_map, hgain]

theorem gain_le (hw : lp.WellShaped) (he : t.entering = none) (hx : lp.Completed x) :
    lp.gain x ≤ t.value := by
  rw [h.gain_eq hw hx]
  exact sub_le_self _ (lhs_objective_nonneg he hx.nonneg)

end SecondPhase

end Tableau

namespace LinearProgram

variable {lp : LinearProgram} {limit : Int} {run : Run}

theorem Concludes.not_feasible (h : lp.Concludes limit run) (hw : lp.WellShaped)
    (ho : run.outcome = .infeasible) : ¬∃ y, lp.Feasible y := by
  cases h with
  | timedOut outcome => simp [outcome] at ho
  | infeasible _ represents measures entering value =>
    exact represents.not_feasible hw measures entering value
  | optimal outcome => simp [outcome] at ho
  | unbounded outcome => simp [outcome] at ho

/-- A reported optimum is exact: its value is the objective at its point, and no feasible point has
a better one. -/
theorem optimal_value_best {x : List Rat} {v : Rat} (h : lp.solve limit = .ok run)
    (ho : run.outcome = .optimal x v) : v = lp.valueAt x ∧
      ∀ y, lp.Feasible y → if lp.maximize then lp.valueAt y ≤ v else v ≤ lp.valueAt y := by
  have hw := wellShaped_of_solve_eq_ok h
  obtain ⟨full, last, rfl, rfl, phase, entering, -⟩ := spec_of_optimal h ho
  refine ⟨phase.objectiveValue_eq, fun y hy => ?_⟩
  obtain ⟨x, hx, rfl⟩ := (feasible_iff_completed hw).mp hy
  have hle := phase.gain_le hw entering hx
  rw [point, lp.valueAt_range_map, Tableau.objectiveValue]
  split
  · exact hle
  · exact neg_le_neg hle

/-- The least value of `2 x₁ + 3 x₂` where `x₁ + x₂ ≥ 4`. -/
def cheapest : LinearProgram := ⟨[2, 3], false, [⟨[1, 1], .atLeast, 4⟩]⟩

theorem optimal_value_best_cheapest : ∃ run, cheapest.solve 200 = .ok run ∧
    run.outcome = .optimal [4, 0] 8 ∧ 8 = cheapest.valueAt [4, 0] ∧
      ∀ y, cheapest.Feasible y → 8 ≤ cheapest.valueAt y := by
  obtain ⟨run, h, ho⟩ : ∃ run, cheapest.solve 200 = .ok run ∧ run.outcome = .optimal [4, 0] 8 :=
    exists_run_of_map (by decide +kernel)
  obtain ⟨hvalue, hbest⟩ := optimal_value_best h ho
  exact ⟨run, h, ho, hvalue, hbest⟩

theorem artificialCount_eq_zero (h : ∀ c ∈ lp.normalized.constraints, c.relation = .atMost) :
    lp.artificialCount = 0 := by
  rw [artificialCount, List.length_eq_zero_iff, Auxiliary.artificials, List.filterMap_eq_nil_iff]
  rintro ⟨c, i⟩ hp
  simp only [h c (List.mem_of_getElem? (List.mem_zipIdx_iff_getElem?.mp hp))]

/-- A program of the right shape is solved, and unless the limit of steps ends the run, it is
reported infeasible if and only if it has no feasible point.  That is never reported of constraints
that are all of the form `≤` in normal form. -/
theorem solve_infeasible_iff (hw : lp.WellShaped) (limit : Int) :
    ∃ run, lp.solve limit = .ok run ∧
      (run.outcome ≠ .timedOut → (run.outcome = .infeasible ↔ ¬∃ y, lp.Feasible y)) ∧
      ((∀ c ∈ lp.normalized.constraints, c.relation = .atMost) → run.outcome ≠ .infeasible) := by
  obtain ⟨run, h, hconcludes⟩ := solve_spec hw limit
  refine ⟨run, h, fun htime => ⟨hconcludes.not_feasible hw, fun hnone => ?_⟩, fun hall ho => ?_⟩
  · cases hconcludes with
    | timedOut outcome => exact absurd outcome htime
    | infeasible outcome => exact outcome
    | optimal _ feasible => exact absurd feasible hnone
    | unbounded _ feasible => exact absurd feasible hnone
  · exact hconcludes.not_feasible hw ho
      (exists_feasible_of_count_eq_zero hw (artificialCount_eq_zero hall))

/-- No point has `x₁ ≤ 1` and `x₁ ≥ 2`. -/
def contradictory : LinearProgram := ⟨[1], true, [⟨[1], .atMost, 1⟩, ⟨[1], .atLeast, 2⟩]⟩

theorem solve_infeasible_iff_contradictory : contradictory.WellShaped ∧
    ∃ run, contradictory.solve 200 = .ok run ∧ run.outcome = .infeasible ∧
      ¬∃ y, contradictory.Feasible y := by
  have hw : contradictory.WellShaped := by decide
  obtain ⟨run, h, hiff, -⟩ := solve_infeasible_iff hw 200
  obtain ⟨run', h', ho⟩ :
      ∃ run, contradictory.solve 200 = .ok run ∧ run.outcome = .infeasible :=
    exists_run_of_map (by decide +kernel)
  rw [h] at h'
  cases h'
  exact ⟨hw, run, h, ho, (hiff (by rw [ho]; decide)).mp ho⟩

end LinearProgram

end ExactSimplex
