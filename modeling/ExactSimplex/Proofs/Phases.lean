import ExactSimplex.Proofs.Feasible
import ExactSimplex.Proofs.Run
import ExactSimplex.Proofs.Truncate
import ExactSimplex.Solver

/-! The two phases of a run.  Every tableau of the first phase represents the program and measures
the sum of the artificial variables, so that phase never gets stuck.  A tableau of the second phase
lacks the artificial columns of one that represents the program and measures its objective.
`solve_spec` says how a run of `solve` concludes. -/

namespace ExactSimplex

/-- The tableau is in canonical form, with the columns and the solutions of the first tableau. -/
structure Tableau.Represents (t : Tableau) (lp : LinearProgram) : Prop extends t.Canonical where
  width_eq : t.width = lp.start.width
  solves_iff : ∀ x, t.Solves x ↔ lp.start.Solves x

/-- The residual of the objective row is `g` on the solutions of the rows. -/
def Tableau.Measures (t : Tableau) (g : (Nat → Rat) → Rat) : Prop :=
  ∀ x, t.Solves x → t.objective.residual x = g x

namespace Tableau

variable {t : Tableau} {lp : LinearProgram} {g : (Nat → Rat) → Rat} {x : Nat → Rat} {i j : Nat}
  {r : Row}

theorem Represents.counted (h : t.Represents lp) : t.counted.Represents lp :=
  { h with }

theorem Represents.eliminate (h : t.Represents lp) (hl : t.Leaves i j r) (hj : j < t.width) :
    (t.eliminate i j).Represents lp where
  toCanonical := h.toCanonical.eliminate hl hj
  width_eq := (h.aligned.width_eliminate hl.row).trans h.width_eq
  solves_iff x := (h.aligned.solves_eliminate_iff hl.row hl.pos.ne' x).trans (h.solves_iff x)

theorem Measures.eliminate (hg : t.Measures g) (h : t.Rectangular) (hl : t.Leaves i j r) :
    (t.eliminate i j).Measures g := fun x hx => by
  have hx := (h.aligned.solves_eliminate_iff hl.row hl.pos.ne' x).mp hx
  rw [h.aligned.residual_objective_eliminate hl.row (hx r (List.mem_of_getElem? hl.row)), hg x hx]

theorem Canonical.value_eq (h : t.Canonical) (hg : t.Measures g) : t.value = -g t.valueOf := by
  rw [← hg _ h.solves_valueOf, h.residual_objective_valueOf, neg_neg]

/-- A column with a negative entry in the objective row lowers the measure without bound. -/
theorem Canonical.measure_ray (h : t.Canonical) (hg : t.Measures g) (hj : j < t.width) (s : Rat) :
    g (fun c => t.valueOf c + s * t.direction j c) = -t.value + s * t.objective.entry j := by
  rw [← hg _ (h.solves_ray hj s), Row.residual_add_mul, h.residual_objective_valueOf,
    h.lhs_direction_objective hj]

theorem lhs_objective_nonneg (h : t.entering = none) (hx : ∀ j, 0 ≤ x j) :
    0 ≤ t.objective.lhs x :=
  Finset.sum_nonneg fun j hj =>
    mul_nonneg (entering_eq_none_iff.mp h j (Finset.mem_range.mp hj)) (hx j)

/-! ### The first phase -/

theorem Represents.start (h : lp.WellShaped) : lp.start.Represents lp where
  toCanonical := LinearProgram.canonical_start h
  width_eq := rfl
  solves_iff _ := Iff.rfl

/-- While the artificial variables are minimised, some row can always leave: the sum of the
artificial variables cannot fall below zero along the ray of the entering column. -/
theorem Represents.leaving_ne_none (h : t.Represents lp) (hg : t.Measures lp.artificialSum)
    (hj : t.entering = some j) : t.leaving j ≠ none := by
  intro hi
  obtain ⟨hlt, hneg⟩ := entering_spec hj
  have hdirection := h.direction_nonneg (leaving_eq_none_iff.mp hi)
  have hvalue : 0 ≤ -t.value := by
    rw [h.value_eq hg, neg_neg]
    exact LinearProgram.artificialSum_nonneg h.valueOf_nonneg
  have hs : 0 ≤ (1 - t.value) / -t.objective.entry j :=
    div_nonneg (by linarith) (by linarith)
  have hray := h.measure_ray hg hlt ((1 - t.value) / -t.objective.entry j)
  have hnonneg : 0 ≤ lp.artificialSum fun c =>
      t.valueOf c + (1 - t.value) / -t.objective.entry j * t.direction j c :=
    LinearProgram.artificialSum_nonneg fun c =>
      add_nonneg (h.valueOf_nonneg c) (mul_nonneg hs (hdirection c))
  rw [hray, div_mul_eq_mul_div, div_neg, mul_div_cancel_right₀ _ hneg.ne] at hnonneg
  linarith

theorem firstPhase_spec (h : lp.WellShaped) (limit : Int) :
    ∃ finished last, lp.start.optimize limit = .ok (finished, last) ∧
      last.Represents lp ∧ last.Measures lp.artificialSum ∧
      (finished = true ∧ last.entering = none ∨ finished = false ∧ limit ≤ last.steps) := by
  obtain ⟨finished, last, hrun, ⟨hlast, hmeasures⟩, hends⟩ :=
    optimize_spec (P := fun t => t.Represents lp ∧ t.Measures lp.artificialSum)
      (fun t ht => ⟨ht.1.counted, ht.2⟩)
      (fun t i j ht hj hi => by
        obtain ⟨r, hl⟩ := leaving_spec hi
        exact ⟨ht.1.eliminate hl (entering_spec hj).1, ht.2.eliminate ht.1.toRectangular hl⟩)
      limit ⟨Represents.start h, fun x hx => LinearProgram.residual_objective_start h hx⟩
  refine ⟨finished, last, hrun, hlast, hmeasures, ?_⟩
  cases hends with
  | optimal hj => exact .inl ⟨rfl, hj⟩
  | unbounded hj hi => exact absurd hi (hlast.leaving_ne_none hmeasures hj)
  | stopped hsteps => exact .inr ⟨rfl, hsteps⟩

/-! ### The second phase -/

/-- The tableau `t` is `full` without the artificial columns, and `full` represents the program and
measures its objective. -/
structure SecondPhase (lp : LinearProgram) (full t : Tableau) : Prop where
  represents : full.Represents lp
  measures : full.Measures fun x => -lp.gain x
  eq_truncate : t = full.truncate lp.firstArtificial

theorem Represents.firstArtificial_le (h : t.Represents lp) (hw : lp.WellShaped) :
    lp.firstArtificial ≤ t.width := by
  rw [h.width_eq, LinearProgram.width_start hw]
  exact Nat.le_add_right _ _

theorem Represents.numVars_le (h : t.Represents lp) (hw : lp.WellShaped) : lp.numVars ≤ t.width :=
  (Nat.le_add_right _ _).trans (h.firstArtificial_le hw)

theorem Represents.feasible_point (h : t.Represents lp) (hw : lp.WellShaped)
    (hsum : lp.artificialSum t.valueOf = 0) : lp.Feasible (lp.point t.valueOf) :=
  LinearProgram.feasible_of_solves hw h.valueOf_nonneg ((h.solves_iff _).mp h.solves_valueOf) hsum

namespace SecondPhase

variable {full : Tableau} (hw : lp.WellShaped) (h : SecondPhase lp full t)
include hw h

theorem width_eq : t.width = lp.firstArtificial := by
  rw [h.eq_truncate, width_truncate (h.represents.firstArtificial_le hw)]

omit hw in
theorem valueOf_eq : t.valueOf = full.valueOf := by rw [h.eq_truncate, valueOf_truncate]

omit hw in
theorem value_eq : t.value = full.value := by
  rw [h.eq_truncate]
  rfl

theorem lhs_objective (hx : ∀ j, lp.firstArtificial ≤ j → x j = 0) :
    t.objective.lhs x = full.objective.lhs x := by
  rw [h.eq_truncate]
  exact Row.lhs_cut (h.represents.firstArtificial_le hw) fun j hj _ => hx j hj

theorem gain_eq (hx : lp.Completed x) : lp.gain x = t.value - t.objective.lhs x := by
  have hmeasure := h.measures x ((h.represents.solves_iff x).mpr hx.solves)
  rw [Row.residual, show full.objective.rhs = full.value from rfl] at hmeasure
  rw [h.lhs_objective hw hx.eq_zero, h.value_eq]
  linarith

/-- A pivot without the artificial columns is one with them. -/
theorem eliminate (hj : t.entering = some j) (hi : t.leaving j = some i) :
    SecondPhase lp (full.eliminate i j) (t.eliminate i j) := by
  have hle := h.represents.firstArtificial_le hw
  rw [h.eq_truncate] at hj hi ⊢
  obtain ⟨r, hl, hlt, heq⟩ := leaves_of_truncate h.represents.toRectangular hle hj hi
  exact ⟨h.represents.eliminate hl (hlt.trans_le hle),
    h.measures.eliminate h.represents.toRectangular hl, heq.symm⟩

end SecondPhase

theorem Represents.dropColumns_eq (h : t.Represents lp) (hw : lp.WellShaped) :
    t.dropColumns lp.artificialCount = t.truncate lp.firstArtificial :=
  dropColumns_eq_truncate h.toRectangular (h.width_eq.trans (LinearProgram.width_start hw))

theorem Represents.reset (h : t.Represents lp) (hw : lp.WellShaped) :
    SecondPhase lp (t.reset lp) ((t.truncate lp.firstArtificial).reset lp) where
  represents :=
    { h.toCanonical.reset (h.numVars_le hw) with
      width_eq := (width_reset h.toRectangular (h.numVars_le hw)).trans h.width_eq
      solves_iff := h.solves_iff }
  measures _ hx := residual_reset h.toRectangular (h.numVars_le hw) hx
  eq_truncate :=
    (truncate_reset h.toRectangular (h.firstArtificial_le hw) (Nat.le_add_right _ _)).symm

end Tableau

/-! ### Runs of `solve` -/

namespace LinearProgram

variable {lp : LinearProgram} {limit : Int} {run : Run}

/-- How a run concludes.  The last tableau of a second phase is shown under the title
`After Phase II`. -/
inductive Concludes (lp : LinearProgram) (limit : Int) (run : Run) : Prop where
  | timedOut (outcome : run.outcome = .timedOut)
  | infeasible {last : Tableau} (outcome : run.outcome = .infeasible)
    (represents : last.Represents lp) (measures : last.Measures lp.artificialSum)
    (entering : last.entering = none) (value : last.value ≠ 0)
  | optimal {full last : Tableau} (outcome : run.outcome =
      .optimal (last.point lp) (last.objectiveValue lp))
    (feasible : ∃ y, lp.Feasible y) (phase : Tableau.SecondPhase lp full last)
    (entering : last.entering = none)
    (shown : run.snapshots.getLast? = some ⟨"After Phase II", last⟩)
  | unbounded {full last : Tableau} {j : Nat} (outcome : run.outcome = .unbounded)
    (feasible : ∃ y, lp.Feasible y) (phase : Tableau.SecondPhase lp full last)
    (entering : last.entering = some j) (leaving : last.leaving j = none)
    (shown : run.snapshots.getLast? = some ⟨"After Phase II", last⟩)

theorem checkLengths_eq_ok_iff {n : Nat} {cs : List Constraint} :
    Tableau.checkLengths n cs = .ok () ↔ ∀ c ∈ cs, c.coefficients.length = n := by
  have hnone : (cs.zipIdx.find? fun p => p.1.coefficients.length ≠ n) = none ↔
      ∀ c ∈ cs, c.coefficients.length = n := by
    rw [List.find?_eq_none]
    constructor
    · intro h c hc
      obtain ⟨i, hi⟩ := List.mem_iff_getElem?.mp hc
      simpa using h (c, i) (List.mem_zipIdx_iff_getElem?.mpr hi)
    · rintro h ⟨c, i⟩ hp
      simpa using h c (List.mem_of_getElem? (List.mem_zipIdx_iff_getElem?.mp hp))
  rw [← hnone]
  unfold Tableau.checkLengths
  cases hfind : cs.zipIdx.find? fun p => p.1.coefficients.length ≠ n with
  | none => simp
  | some p => simp

theorem initialTableau_eq (h : lp.WellShaped) : lp.initialTableau = .ok lp.start := by
  rw [initialTableau, checkLengths_eq_ok_iff.mpr (length_of_mem_normalized h)]
  rfl

theorem wellShaped_of_initialTableau_eq_ok {start : Tableau} (h : lp.initialTableau = .ok start) :
    lp.WellShaped := by
  cases hcheck : Tableau.checkLengths lp.numVars lp.normalized.constraints with
  | error e =>
    rw [initialTableau, hcheck] at h
    cases h
  | ok u =>
    intro c hc
    have hlength := checkLengths_eq_ok_iff.mp hcheck c.normalized (List.mem_map_of_mem hc)
    rwa [c.length_normalized] at hlength

theorem eq_start_of_initialTableau {start : Tableau} (h : lp.initialTableau = .ok start) :
    start = lp.start := by
  rw [initialTableau_eq (wellShaped_of_initialTableau_eq_ok h)] at h
  exact (Except.ok.inj h).symm

theorem wellShaped_of_solve_eq_ok (h : lp.solve limit = .ok run) : lp.WellShaped := by
  cases hstart : lp.initialTableau with
  | error e =>
    rw [solve, hstart] at h
    cases h
  | ok start => exact wellShaped_of_initialTableau_eq_ok hstart

theorem bind_eq_ok {ε α β : Type} {x : Except ε α} {f : α → Except ε β} {b : β} :
    (x >>= f) = .ok b ↔ ∃ a, x = .ok a ∧ f a = .ok b := by
  cases x <;> simp [bind, Except.bind]

theorem eq_ok_of_toOption {ε α : Type} {x : Except ε α} {a : α} (h : x.toOption = some a) :
    x = .ok a := by
  cases x with
  | error e => cases h
  | ok b => rw [Option.some.inj h]

/-- A second phase gives the outcome by its last tableau, and shows its first and its last one. -/
theorem secondPhase_eq_ok_iff {t : Tableau} {shown : List Snapshot} :
    lp.secondPhase limit t shown = .ok run ↔ ∃ start finished last,
      t.withObjective lp = .ok start ∧ start.optimize limit = .ok (finished, last) ∧
        run = ⟨if finished then .optimal (last.point lp) (last.objectiveValue lp)
          else failure limit last, last.steps,
          shown ++ [⟨"Before Phase II", start⟩, ⟨"After Phase II", last⟩]⟩ := by
  simp only [secondPhase, bind_eq_ok, Prod.exists, pure, Except.pure, Except.ok.injEq,
    exists_and_left, eq_comm (a := run)]

theorem secondPhase_spec (hw : lp.WellShaped) {t : Tableau} (ht : t.Represents lp)
    (hf : ∃ y, lp.Feasible y) (limit : Int) (shown : List Snapshot) :
    ∃ run, lp.secondPhase limit (t.truncate lp.firstArtificial) shown = .ok run ∧
      lp.Concludes limit run := by
  obtain ⟨finished, last, hrun, ⟨full, hphase⟩, hends⟩ :=
    Tableau.optimize_spec (P := fun t => ∃ full, Tableau.SecondPhase lp full t)
      (fun t ⟨full, h⟩ => ⟨full.counted, h.represents.counted, h.measures, by
        rw [h.eq_truncate]
        rfl⟩)
      (fun t i j ⟨full, h⟩ hj hi => ⟨full.eliminate i j, h.eliminate hw hj hi⟩)
      limit ⟨_, ht.reset hw⟩
  have hwidth : lp.numVars ≤ (t.truncate lp.firstArtificial).width := by
    rw [Tableau.width_truncate (ht.firstArtificial_le hw)]
    exact Nat.le_add_right _ _
  refine ⟨_, secondPhase_eq_ok_iff.mpr ⟨_, _, _, Tableau.withObjective_eq hwidth, hrun, rfl⟩, ?_⟩
  cases hends with
  | optimal hj => exact .optimal rfl hf hphase hj (by simp)
  | unbounded hj hi =>
    by_cases hlimit : limit ≤ last.steps
    · exact .timedOut (if_pos hlimit)
    · exact .unbounded (if_neg hlimit) hf hphase hj hi (by simp)
  | stopped hsteps => exact .timedOut (if_pos hsteps)

def afterFirst (lp : LinearProgram) (last : Tableau) : List Snapshot :=
  [⟨"Initial Tableau", lp.start⟩, ⟨"After Phase I", last⟩]

theorem solve_of_count_eq_zero (hw : lp.WellShaped) (h : lp.artificialCount = 0) (limit : Int) :
    lp.solve limit = lp.secondPhase limit lp.start [⟨"Initial Tableau", lp.start⟩] := by
  rw [solve, initialTableau_eq hw]
  exact if_pos h

theorem solve_of_count_ne_zero (hw : lp.WellShaped) (h : lp.artificialCount ≠ 0) {limit : Int}
    {finished : Bool} {last : Tableau} (hrun : lp.start.optimize limit = .ok (finished, last)) :
    lp.solve limit =
      if !finished then .ok ⟨failure limit last, last.steps, afterFirst lp last⟩
      else if !last.isFeasible then .ok ⟨.infeasible, last.steps, afterFirst lp last⟩
      else lp.secondPhase limit (last.dropColumns lp.artificialCount) (afterFirst lp last) := by
  rw [solve, initialTableau_eq hw]
  refine (if_neg h).trans ?_
  rw [hrun]
  rfl

theorem truncate_start (hw : lp.WellShaped) (h : lp.artificialCount = 0) :
    lp.start.truncate lp.firstArtificial = lp.start := by
  conv_rhs => rw [← Tableau.truncate_width (Tableau.Represents.start hw).toRectangular,
    width_start hw, h, add_zero]

theorem exists_feasible_of_count_eq_zero (hw : lp.WellShaped) (h : lp.artificialCount = 0) :
    ∃ y, lp.Feasible y := by
  have hsum : lp.artificialSum lp.start.valueOf = 0 := by
    rw [artificialSum, width_start hw, h, add_zero, Finset.Ico_self, Finset.sum_empty]
  exact ⟨_, (Tableau.Represents.start hw).feasible_point hw hsum⟩

/-- Every program of the right shape is solved, and its run concludes in one of these ways. -/
theorem solve_spec (hw : lp.WellShaped) (limit : Int) :
    ∃ run, lp.solve limit = .ok run ∧ lp.Concludes limit run := by
  have hstart := Tableau.Represents.start hw
  by_cases hcount : lp.artificialCount = 0
  · rw [solve_of_count_eq_zero hw hcount]
    have hsecond := secondPhase_spec hw hstart (exists_feasible_of_count_eq_zero hw hcount) limit
      [⟨"Initial Tableau", lp.start⟩]
    rwa [truncate_start hw hcount] at hsecond
  · obtain ⟨finished, last, hrun, hlast, hmeasures, hends⟩ := Tableau.firstPhase_spec hw limit
    rw [solve_of_count_ne_zero hw hcount hrun]
    rcases hends with ⟨rfl, hentering⟩ | ⟨rfl, hsteps⟩
    · by_cases hvalue : last.value = 0
      · have hsum : lp.artificialSum last.valueOf = 0 := by
          rw [← neg_eq_zero, ← hlast.value_eq hmeasures, hvalue]
        have hdrop := hlast.dropColumns_eq hw
        have hfeasible : last.isFeasible = true := by simp [Tableau.isFeasible, hvalue]
        rw [hfeasible, hdrop]
        exact secondPhase_spec hw hlast ⟨_, hlast.feasible_point hw hsum⟩ limit _
      · have hfeasible : last.isFeasible = false := by simp [Tableau.isFeasible, hvalue]
        rw [hfeasible]
        exact ⟨_, rfl, .infeasible rfl hlast hmeasures hentering hvalue⟩
    · exact ⟨_, rfl, .timedOut (if_pos hsteps)⟩

theorem concludes_of_solve (h : lp.solve limit = .ok run) : lp.Concludes limit run := by
  obtain ⟨run', hrun, hconcludes⟩ := solve_spec (wellShaped_of_solve_eq_ok h) limit
  rw [h] at hrun
  cases hrun
  exact hconcludes

theorem spec_of_optimal {x : List Rat} {v : Rat} (h : lp.solve limit = .ok run)
    (ho : run.outcome = .optimal x v) : ∃ full last : Tableau,
      x = last.point lp ∧ v = last.objectiveValue lp ∧ Tableau.SecondPhase lp full last ∧
        last.entering = none ∧ run.snapshots.getLast? = some ⟨"After Phase II", last⟩ := by
  cases concludes_of_solve h with
  | timedOut outcome => simp [outcome] at ho
  | infeasible outcome => simp [outcome] at ho
  | unbounded outcome => simp [outcome] at ho
  | optimal outcome _ phase entering shown =>
    rw [outcome, Outcome.optimal.injEq] at ho
    exact ⟨_, _, ho.1.symm, ho.2.symm, phase, entering, shown⟩

theorem spec_of_unbounded (h : lp.solve limit = .ok run) (ho : run.outcome = .unbounded) :
    (∃ y, lp.Feasible y) ∧ ∃ (full last : Tableau) (j : Nat), Tableau.SecondPhase lp full last ∧
      last.entering = some j ∧ last.leaving j = none ∧
        run.snapshots.getLast? = some ⟨"After Phase II", last⟩ := by
  cases concludes_of_solve h with
  | timedOut outcome => simp [outcome] at ho
  | infeasible outcome => simp [outcome] at ho
  | optimal outcome => simp [outcome] at ho
  | unbounded _ feasible phase entering leaving shown =>
    exact ⟨feasible, _, _, _, phase, entering, leaving, shown⟩

/-- A solver hands on a run and remembers its steps. -/
theorem solver_of_solve_eq_ok (h : lp.solve limit = .ok run) (before : Nat) :
    Solver.solve ⟨.steps limit, before⟩ lp = (.ok run, ⟨.steps limit, run.steps⟩) := by
  simp only [Solver.solve, StepLimit.count, h, StepLimit.judge]

theorem exists_run_of_map {α : Type} {f : Run → α} {a : α}
    (h : (lp.solve limit).toOption.map f = some a) :
    ∃ run, lp.solve limit = .ok run ∧ f run = a := by
  obtain ⟨run, hrun, rfl⟩ := Option.map_eq_some_iff.mp h
  exact ⟨run, eq_ok_of_toOption hrun, rfl⟩

end LinearProgram

end ExactSimplex
