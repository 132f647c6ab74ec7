import ExactSimplex.Proofs.Turns

/-! The first phase never gets stuck.  Its value is bounded by zero, so a column that enters has a
positive entry in some row.  A first phase that is not finished has therefore come to the limit, and
a run that reports no bound has found it in its second phase. -/

namespace ExactSimplex.LinearProgram

variable {lp : LinearProgram} {limit : Int} {s t last : Tableau} {run : Run} {j : Nat}

/-- Some row can leave for the column that enters. -/
theorem Reached.exists_leaving (h : lp.Reached limit .first t) (hj : t.entering = some j) :
    ∃ i, t.leaving j = some i := by
  have hphase := h.inPhase_first
  exact Option.ne_none_iff_exists'.mp (hphase.represents.leaving_ne_none hphase.measures hj)

theorem limit_le_of_not_finished (hw : lp.WellShaped)
    (hrun : lp.start.optimize limit = .ok (false, last)) : limit ≤ last.steps := by
  obtain ⟨finished, last', hrun', -, -, hends⟩ := Tableau.firstPhase_spec hw limit
  cases hrun.symm.trans hrun'
  rcases hends with ⟨hfinished, -⟩ | ⟨-, hsteps⟩
  · cases hfinished
  · exact hsteps

theorem Begins.solve_first (h : lp.Begins limit .first s)
    (hrun : s.optimize limit = .ok (false, last)) : limit ≤ last.steps ∧
      ∃ run, lp.solve limit = .ok run ∧ run.outcome = .timedOut ∧ run.steps = last.steps := by
  have hw := h.wellShaped
  cases h with
  | first initial count =>
    obtain rfl := eq_start_of_initialTableau initial
    have hsteps := limit_le_of_not_finished hw hrun
    exact ⟨hsteps, _, solve_of_count_ne_zero hw count hrun, if_pos hsteps, rfl⟩

/-- Without a second phase a run does not report that there is no bound. -/
theorem outcome_ne_unbounded_of_first (hw : lp.WellShaped) (hcount : lp.artificialCount ≠ 0)
    {finished : Bool} (hrun : lp.start.optimize limit = .ok (finished, last))
    (hends : finished = false ∨ last.isFeasible = false) (hsolve : lp.solve limit = .ok run) :
    run.outcome ≠ .unbounded := by
  rw [solve_of_count_ne_zero hw hcount hrun] at hsolve
  cases finished with
  | false =>
    cases hsolve
    have htimedOut : failure limit last = .timedOut := if_pos (limit_le_of_not_finished hw hrun)
    simp [htimedOut]
  | true =>
    rw [hends.resolve_left nofun] at hsolve
    cases hsolve
    nofun

/-- The second phase of a run that reports no bound ends, below the limit, with a column for which
no row can leave. -/
theorem Begins.exists_stuck (h : lp.Begins limit .second s) (hsolve : lp.solve limit = .ok run)
    (ho : run.outcome = .unbounded) : ∃ last j, s.optimize limit = .ok (false, last) ∧
      last.entering = some j ∧ last.leaving j = none ∧ last.steps < limit ∧
      run.steps = last.steps := by
  obtain ⟨finished, last, hrun, -, hends⟩ := Tableau.optimize_spec (P := fun _ => True)
    (fun _ _ => trivial) (fun _ _ _ _ _ _ => trivial) limit (t := s) trivial
  obtain ⟨run', hsolve', ho', hsteps⟩ := h.solve_second hrun
  cases hsolve.symm.trans hsolve'
  rw [ho] at ho'
  cases hends with
  | optimal => cases ho'
  | stopped hle =>
    have htimedOut : failure limit last = .timedOut := if_pos hle
    rw [if_neg nofun, htimedOut] at ho'
    cases ho'
  | unbounded hj hi =>
    refine ⟨last, _, hrun, hj, hi, ?_, hsteps⟩
    by_contra hle
    have htimedOut : failure limit last = .timedOut := if_pos (not_lt.mp hle)
    rw [if_neg nofun, htimedOut] at ho'
    cases ho'

/-- In the first phase some row can leave whenever a column enters.  So a first phase that is not
finished makes the run time out, and only the second phase can find that there is no bound. -/
theorem first_phase_not_stuck (hw : lp.WellShaped) (limit : Int) :
    (∀ t j, lp.Reached limit .first t → t.entering = some j → ∃ i, t.leaving j = some i) ∧
    (∀ s last, lp.Begins limit .first s → s.optimize limit = .ok (false, last) →
      limit ≤ last.steps ∧
        ∃ run, lp.solve limit = .ok run ∧ run.outcome = .timedOut ∧ run.steps = last.steps) ∧
    ∀ run, lp.solve limit = .ok run → run.outcome = .unbounded →
      ∃ s last j, lp.Begins limit .second s ∧ s.optimize limit = .ok (false, last) ∧
        last.entering = some j ∧ last.leaving j = none ∧ last.steps < limit ∧
        run.steps = last.steps := by
  refine ⟨fun t j h hj => h.exists_leaving hj, fun s last hs hrun => hs.solve_first hrun, ?_⟩
  intro run hsolve ho
  rcases second_or_first hw limit with ⟨s, hs⟩ | ⟨hcount, finished, last, hrun, hends⟩
  · obtain ⟨last, j, hrun, hends⟩ := hs.exists_stuck hsolve ho
    exact ⟨s, last, j, hs, hrun, hends⟩
  · exact absurd ho (outcome_ne_unbounded_of_first hw hcount hrun hends hsolve)

/-- One turn is too little for the first phase; four are enough to see that there is no bound. -/
theorem first_phase_not_stuck_wedge : wedge.WellShaped ∧ (∃ i, wedge.start.leaving 0 = some i) ∧
    (∃ run, wedge.solve 1 = .ok run ∧ run.outcome = .timedOut) ∧
    ∃ s last j, wedge.Begins 4 .second s ∧ s.optimize 4 = .ok (false, last) ∧
      last.entering = some j ∧ last.leaving j = none ∧ last.steps = 3 := by
  have hw : wedge.WellShaped := by decide
  have hinitial := initialTableau_eq hw
  obtain ⟨hleaving, -, hsecond⟩ := first_phase_not_stuck hw 4
  obtain ⟨-, hfirst, -⟩ := first_phase_not_stuck hw 1
  obtain ⟨last, hrun⟩ : ∃ last, wedge.start.optimize 1 = .ok (false, last) := by
    obtain ⟨finished, last, hrun, -, -, hends⟩ := Tableau.firstPhase_spec hw 1
    have hfinished : (wedge.start.optimize 1).toOption.map Prod.fst = some false := by
      decide +kernel
    rw [hrun] at hfinished
    cases hfinished
    exact ⟨last, hrun⟩
  obtain ⟨-, timedOut, hsolve, ho, -⟩ := hfirst _ last (.first hinitial (by decide)) hrun
  obtain ⟨run, hunbounded, hr⟩ : ∃ run, wedge.solve 4 = .ok run ∧
      (run.outcome, run.steps) = (.unbounded, 3) := exists_run_of_map (by decide +kernel)
  obtain ⟨houtcome, hthree⟩ := Prod.mk.inj hr
  obtain ⟨s, last', j, hs, hrun', hj, hi, -, hsteps⟩ := hsecond run hunbounded houtcome
  exact ⟨hw, hleaving _ 0 (.initial hinitial) (by decide +kernel), ⟨timedOut, hsolve, ho⟩,
    s, last', j, hs, hrun', hj, hi, hsteps.symm.trans hthree⟩

end ExactSimplex.LinearProgram
