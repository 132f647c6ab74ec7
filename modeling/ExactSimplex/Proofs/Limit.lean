import ExactSimplex.Proofs.Phases

/-! The same program under two limits.  A limit only cuts a run off: a phase that ends by itself
ends in the same way within every larger limit, and so does a run that is not timed out. -/

namespace ExactSimplex

namespace Tableau

variable {t last : Tableau} {finished : Bool}

/-- A run that is finished, or gets stuck with turns left, does not change with more turns. -/
theorem run_of_le {turns more : Nat} (h : run turns t = .ok (finished, last))
    (hends : finished = true ∨ last.steps < t.steps + turns) (hle : turns ≤ more) :
    run more t = .ok (finished, last) := by
  induction turns generalizing t more with
  | zero =>
    cases h
    simp at hends
  | succ turns ih =>
    obtain ⟨more, rfl⟩ : ∃ n, more = n + 1 := ⟨more - 1, by omega⟩
    cases hj : t.entering with
    | none =>
      rw [run_succ_of_entering_eq_none hj] at h ⊢
      exact h
    | some j =>
      cases hi : t.leaving j with
      | none =>
        rw [run_succ_of_leaving_eq_none hj hi] at h ⊢
        exact h
      | some i =>
        rw [run_succ_of_leaving_eq_some hj hi] at h ⊢
        refine ih h (hends.imp_right fun hsteps => ?_) (Nat.le_of_succ_le_succ hle)
        rw [steps_eliminate]
        simp only [counted]
        omega

theorem optimize_of_le {limit larger : Int} (h : t.optimize limit = .ok (finished, last))
    (hends : finished = true ∨ last.steps < limit) (hle : limit ≤ larger) :
    t.optimize larger = .ok (finished, last) := by
  refine run_of_le h (hends.imp_right fun hsteps => ?_) ?_
  · rw [turnsLeft]
    omega
  · rw [turnsLeft, turnsLeft]
    omega

end Tableau

namespace LinearProgram

variable {lp : LinearProgram} {limit larger : Int} {run : Run} {t : Tableau}

theorem failure_of_lt (h : t.steps < limit) : failure limit t = .unbounded :=
  if_neg (not_le.mpr h)

theorem lt_of_failure_ne_timedOut (h : failure limit t ≠ .timedOut) : t.steps < limit :=
  not_le.mp fun hle => h (if_pos hle)

theorem secondPhase_of_le {shown : List Snapshot} (h : lp.secondPhase limit t shown = .ok run)
    (ho : run.outcome ≠ .timedOut) (hle : limit ≤ larger) :
    lp.secondPhase larger t shown = .ok run := by
  obtain ⟨start, finished, last, hstart, hrun, rfl⟩ := secondPhase_eq_ok_iff.mp h
  cases finished with
  | true =>
    exact secondPhase_eq_ok_iff.mpr
      ⟨start, true, last, hstart, Tableau.optimize_of_le hrun (.inl rfl) hle, rfl⟩
  | false =>
    have hlt : last.steps < limit := lt_of_failure_ne_timedOut ho
    refine secondPhase_eq_ok_iff.mpr
      ⟨start, false, last, hstart, Tableau.optimize_of_le hrun (.inr hlt) hle, ?_⟩
    simp only [failure_of_lt hlt, failure_of_lt (hlt.trans_le hle)]

/-- A run that is not timed out is the run within every larger limit. -/
theorem solve_of_le (h : lp.solve limit = .ok run) (ho : run.outcome ≠ .timedOut)
    (hle : limit ≤ larger) : lp.solve larger = .ok run := by
  have hw := wellShaped_of_solve_eq_ok h
  by_cases hcount : lp.artificialCount = 0
  · rw [solve_of_count_eq_zero hw hcount] at h ⊢
    exact secondPhase_of_le h ho hle
  · obtain ⟨finished, last, hrun, -, -, hends⟩ := Tableau.firstPhase_spec hw limit
    rw [solve_of_count_ne_zero hw hcount hrun] at h
    rcases hends with ⟨rfl, -⟩ | ⟨rfl, hsteps⟩
    · rw [solve_of_count_ne_zero hw hcount (Tableau.optimize_of_le hrun (.inl rfl) hle)]
      cases hfeasible : last.isFeasible with
      | true =>
        rw [hfeasible] at h
        exact secondPhase_of_le h ho hle
      | false =>
        rw [hfeasible] at h
        exact h
    · cases h
      exact absurd (if_pos hsteps) ho

/-- A limit only cuts runs off: a run that is not timed out is the same within every larger limit,
and a run that is timed out is so within every smaller one. -/
theorem limit_truncates (hw : lp.WellShaped) (hle : limit ≤ larger) :
    ∃ short long, lp.solve limit = .ok short ∧ lp.solve larger = .ok long ∧
      (short.outcome ≠ .timedOut → long = short) ∧
      (long.outcome = .timedOut → short.outcome = .timedOut) := by
  obtain ⟨short, hshort, -⟩ := solve_spec hw limit
  obtain ⟨long, hlong, -⟩ := solve_spec hw larger
  have heq (ho : short.outcome ≠ .timedOut) : long = short := by
    have h := solve_of_le hshort ho hle
    rw [hlong] at h
    exact Except.ok.inj h
  refine ⟨short, long, hshort, hlong, heq, fun ho => ?_⟩
  by_contra hne
  exact hne (heq hne ▸ ho)

/-- Both variables can grow together as soon as the first one is at least one. -/
def wedge : LinearProgram := ⟨[1, 1], true, [⟨[1, -1], .atLeast, 1⟩]⟩

/-- The third step finds that no row can leave, which is too late within the limit three. -/
theorem limit_truncates_wedge : wedge.WellShaped ∧ (4 : Int) ≤ 1000000000 ∧
    ∃ run, wedge.solve 4 = .ok run ∧ run.outcome = .unbounded ∧ run.steps = 3 ∧
      wedge.solve 1000000000 = .ok run := by
  have hw : wedge.WellShaped := by decide
  have hle : (4 : Int) ≤ 1000000000 := by decide
  obtain ⟨short, long, hshort, hlong, heq, -⟩ := limit_truncates hw hle
  obtain ⟨run, h, hrun⟩ : ∃ run, wedge.solve 4 = .ok run ∧
      (run.outcome, run.steps) = (.unbounded, 3) := exists_run_of_map (by decide +kernel)
  obtain ⟨ho, hsteps⟩ := Prod.mk.inj hrun
  rw [hshort] at h
  cases h
  rw [heq (by rw [ho]; decide)] at hlong
  exact ⟨hw, hle, short, hshort, ho, hsteps, hlong⟩

end LinearProgram

end ExactSimplex
