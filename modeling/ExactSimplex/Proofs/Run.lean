import ExactSimplex.Proofs.Choice

/-! Runs of the method.  No step fails, so a run within any number of turns ends.  What counting and
the chosen pivots keep holds in its last tableau, where no column enters, or no row can leave, or
all turns are taken. -/

namespace ExactSimplex.Tableau

variable {t : Tableau}

/-! ### Single steps -/

theorem step_of_entering_eq_none (h : t.entering = none) : t.step = .ok .optimal := by
  rw [step, h]

theorem step_of_leaving_eq_none {j : Nat} (hj : t.entering = some j) (hi : t.leaving j = none) :
    t.step = .ok .unbounded := by
  simp only [step, hj, hi]

/-- The pivot of a step never fails, since its entry is positive. -/
theorem step_of_leaving_eq_some {i j : Nat} (hj : t.entering = some j)
    (hi : t.leaving j = some i) : t.step = .ok (.pivoted (t.eliminate i j)) := by
  obtain ⟨r, hl⟩ := leaving_spec hi
  have hentry : t.entry i j = r.entry j := by rw [entry, hl.row, Option.map_some, Option.getD_some]
  simp only [step, hj, hi, pivot]
  rw [if_neg (by rw [hentry]; exact hl.pos.ne')]
  rfl

/-- A step pivots in the entering column and the leaving row. -/
theorem step_eq_pivoted {next : Tableau} (h : t.step = .ok (.pivoted next)) :
    ∃ i j, t.entering = some j ∧ t.leaving j = some i ∧ next = t.eliminate i j := by
  cases hj : t.entering with
  | none =>
    rw [step_of_entering_eq_none hj] at h
    cases h
  | some j =>
    cases hi : t.leaving j with
    | none =>
      rw [step_of_leaving_eq_none hj hi] at h
      cases h
    | some i =>
      rw [step_of_leaving_eq_some hj hi] at h
      cases h
      exact ⟨i, j, rfl, hi, rfl⟩

theorem run_succ_of_entering_eq_none (h : t.entering = none) (turns : Nat) :
    run (turns + 1) t = .ok (true, t.counted) := by
  rw [run, step_of_entering_eq_none (t := t.counted) h]
  rfl

theorem run_succ_of_leaving_eq_none {j : Nat} (hj : t.entering = some j) (hi : t.leaving j = none)
    (turns : Nat) : run (turns + 1) t = .ok (false, t.counted) := by
  rw [run, step_of_leaving_eq_none (t := t.counted) hj hi]
  rfl

theorem run_succ_of_leaving_eq_some {i j : Nat} (hj : t.entering = some j)
    (hi : t.leaving j = some i) (turns : Nat) :
    run (turns + 1) t = run turns (t.counted.eliminate i j) := by
  rw [run, step_of_leaving_eq_some (t := t.counted) hj hi]
  rfl

theorem steps_eliminate (t : Tableau) (i j : Nat) : (t.eliminate i j).steps = t.steps := by
  unfold eliminate
  split <;> rfl

/-! ### Whole runs -/

/-- How a run ends, where `P` holds of its last tableau if all turns were taken. -/
inductive Ends (P : Tableau → Prop) : Bool → Tableau → Prop where
  | optimal {last : Tableau} : last.entering = none → Ends P true last
  | unbounded {last : Tableau} {j : Nat} :
    last.entering = some j → last.leaving j = none → Ends P false last
  | stopped {last : Tableau} : P last → Ends P false last

theorem Ends.imp {P Q : Tableau → Prop} {finished : Bool} {last : Tableau}
    (hPQ : P last → Q last) : Ends P finished last → Ends Q finished last
  | optimal h => .optimal h
  | unbounded hj hi => .unbounded hj hi
  | stopped h => .stopped (hPQ h)

section Invariant

variable {P : Tableau → Prop} (hcount : ∀ t, P t → P t.counted)
  (hpivot : ∀ t i j, P t → t.entering = some j → t.leaving j = some i → P (t.eliminate i j))
include hcount hpivot

/-- A run ends, and what counting and the chosen pivots keep holds at its end. -/
theorem run_spec (turns : Nat) {t : Tableau} (ht : P t) :
    ∃ finished last, run turns t = .ok (finished, last) ∧ P last ∧
      Ends (fun last => last.steps = t.steps + turns) finished last := by
  induction turns generalizing t with
  | zero => exact ⟨false, t, rfl, ht, .stopped rfl⟩
  | succ turns ih =>
    cases hj : t.entering with
    | none =>
      exact ⟨true, t.counted, run_succ_of_entering_eq_none hj turns, hcount t ht, .optimal hj⟩
    | some j =>
      cases hi : t.leaving j with
      | none =>
        exact ⟨false, t.counted, run_succ_of_leaving_eq_none hj hi turns, hcount t ht,
          .unbounded hj hi⟩
      | some i =>
        obtain ⟨finished, last, hrun, hlast, hends⟩ :=
          ih (t := t.counted.eliminate i j) (hpivot t.counted i j (hcount t ht) hj hi)
        refine ⟨finished, last, (run_succ_of_leaving_eq_some hj hi turns).trans hrun, hlast,
          hends.imp fun hsteps => ?_⟩
        rw [hsteps, steps_eliminate]
        simp only [counted]
        omega

/-- The turns within a limit of steps are taken when the limit is reached. -/
theorem optimize_spec (limit : Int) {t : Tableau} (ht : P t) :
    ∃ finished last, t.optimize limit = .ok (finished, last) ∧ P last ∧
      Ends (fun last => limit ≤ last.steps) finished last := by
  obtain ⟨finished, last, hrun, hlast, hends⟩ :=
    run_spec hcount hpivot (turnsLeft limit t.steps) ht
  refine ⟨finished, last, hrun, hlast, hends.imp fun hsteps => ?_⟩
  rw [hsteps, turnsLeft]
  omega

end Invariant

end ExactSimplex.Tableau
