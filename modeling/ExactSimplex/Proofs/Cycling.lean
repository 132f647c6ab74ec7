import ExactSimplex.Proofs.Basis
import ExactSimplex.Proofs.Endless
import ExactSimplex.Proofs.Progress

/-! Cycling.  A pivot that keeps the value is degenerate: it changes no right-hand side.  A run that
is timed out within every limit has an endless phase, which comes back to a basis, hence to the same
rows and the same value, by degenerate pivots only. -/

namespace ExactSimplex

namespace Tableau

variable {t u : Tableau} {i j : Nat} {r : Row}

theorem map_rhs_eliminate (h : t.Rectangular) (hr : t.rows[i]? = some r) (hzero : r.rhs = 0) :
    (t.eliminate i j).rows.map Row.rhs = t.rows.map Row.rhs := by
  have hpivot : (pivotRow r j).rhs = 0 := by
    rw [pivotRow, Row.rhs_divide, hzero, zero_div]
  refine List.ext_getElem? fun k => ?_
  rw [List.getElem?_map, getElem?_rows_eliminate hr, List.getElem?_map, Option.map_map]
  cases hq : t.rows[k]? with
  | none => rfl
  | some q =>
    simp only [Option.map_some, Function.comp_apply, Option.some.injEq]
    split
    · rename_i hki
      rw [hki, hr] at hq
      rw [hpivot, ← Option.some.inj hq, hzero]
    · rw [Row.rhs_clear ((h.aligned.length_pivotRow hr).trans
        (h.length_row q (List.mem_of_getElem? hq)).symm), hpivot, mul_zero, sub_zero]

/-- The pivot of the method from `t` to `u` is degenerate: the leaving row has the right-hand side
zero, and no right-hand side changes, the value included. -/
structure Degenerate (t u : Tableau) : Prop where
  leaving_zero : ∃ i j r, t.entering = some j ∧ t.leaving j = some i ∧ t.rows[i]? = some r ∧
    r.rhs = 0
  map_rhs_eq : u.rows.map Row.rhs = t.rows.map Row.rhs
  value_eq : u.value = t.value

namespace InPhase

variable {lp : LinearProgram} {phase : Phase} {full : Tableau}

theorem degenerate (hw : lp.WellShaped) (h : InPhase lp phase full t) (hu : t.after 1 = some u)
    (hv : u.value = t.value) : Degenerate t u := by
  obtain ⟨i, j, hj, hi, hu⟩ := after_succ_eq_some hu
  cases Option.some.inj hu
  obtain ⟨r, hl⟩ := leaving_spec hi
  have hrectangular := (h.counted.toCutFrom.inForm hw).rectangular
  have hl' : t.counted.Leaves i j r := ⟨hl.row, hl.pos, hl.least⟩
  have hzero := (value_eliminate_eq_iff hrectangular hj hl').mp hv
  exact ⟨⟨i, j, r, hj, hi, hl.row, hzero⟩, map_rhs_eliminate hrectangular hl'.row hzero, hv⟩

end InPhase

end Tableau

namespace LinearProgram

variable {lp : LinearProgram} {limit larger : Int} {phase : Phase} {s t u : Tableau} {k l : Nat}

/-- A phase begins with the same tableau within every larger limit. -/
theorem Begins.of_le (h : lp.Begins limit phase s) (hle : limit ≤ larger) :
    lp.Begins larger phase s := by
  cases h with
  | first initial count => exact .first initial count
  | direct initial count objective => exact .direct initial count objective
  | resumed initial count finished feasible objective =>
    exact .resumed initial count (Tableau.optimize_of_le finished (.inl rfl) hle) feasible objective

theorem Begins.eq_of_same_limit (h : lp.Begins limit phase s) (h' : lp.Begins limit phase t) :
    s = t := by
  cases h with
  | first initial =>
    cases h' with
    | first initial' => exact Except.ok.inj (initial.symm.trans initial')
  | direct initial count objective =>
    cases h' with
    | direct initial' _ objective' =>
      cases initial.symm.trans initial'
      exact Except.ok.inj (objective.symm.trans objective')
    | resumed _ count' => exact absurd count count'
  | resumed initial count finished feasible objective =>
    cases h' with
    | direct _ count' => exact absurd count' count
    | resumed initial' _ finished' _ objective' =>
      cases initial.symm.trans initial'
      cases finished.symm.trans finished'
      exact Except.ok.inj (objective.symm.trans objective')

/-- A phase begins with one tableau, whatever the limit. -/
theorem Begins.unique (h : lp.Begins limit phase s) (h' : lp.Begins larger phase t) : s = t :=
  (h.of_le (le_max_left limit larger)).eq_of_same_limit (h'.of_le (le_max_right limit larger))

/-- In the run without a limit `t` is the tableau after `k` pivots of the phase.  The phase begins
there as it does within the limits that let the run come so far. -/
def Moment (lp : LinearProgram) (phase : Phase) (k : Nat) (t : Tableau) : Prop :=
  ∃ (limit : Int) (s : Tableau), lp.Begins limit phase s ∧ s.after k = some t

theorem Moment.after (h : lp.Moment phase k t) (hs : lp.Begins limit phase s) :
    s.after k = some t := by
  obtain ⟨_, _, hs', ht⟩ := h
  rwa [hs.unique hs']

theorem Moment.inPhase (h : lp.Moment phase k t) : ∃ full, Tableau.InPhase lp phase full t := by
  obtain ⟨limit, s, hs, ht⟩ := h
  exact hs.inPhase_after ht

theorem Moment.wellShaped (h : lp.Moment phase k t) : lp.WellShaped := by
  obtain ⟨limit, s, hs, -⟩ := h
  exact hs.wellShaped

/-- The pivots from one moment of a phase to a later one. -/
theorem Moment.after_sub (h : lp.Moment phase k t) (h' : lp.Moment phase l u) (hkl : k ≤ l) :
    t.after (l - k) = some u := by
  obtain ⟨limit, s, hs, ht⟩ := h
  rw [← Tableau.after_add_of_eq_some ht, Nat.add_sub_cancel' hkl]
  exact h'.after hs

theorem Moment.value_le (h : lp.Moment phase k t) (h' : lp.Moment phase l u) (hkl : k ≤ l) :
    t.value ≤ u.value := by
  obtain ⟨full, hphase⟩ := h.inPhase
  exact hphase.value_le_after h.wellShaped (h.after_sub h' hkl)

theorem Moment.eq_of_basis_eq (h : lp.Moment phase k t) (h' : lp.Moment phase l u)
    (hb : t.basis = u.basis) : t.rows = u.rows ∧ t.objective = u.objective := by
  obtain ⟨full, hphase⟩ := h.inPhase
  obtain ⟨full', hphase'⟩ := h'.inPhase
  exact hphase.eq_of_basis_eq hphase' hb

/-- Between two moments with one basis all pivots are degenerate. -/
theorem Moment.degenerate (h : lp.Moment phase k t) (h' : lp.Moment phase l u)
    (hb : t.basis = u.basis) {n : Nat} {before next : Tableau} (hkn : k ≤ n) (hnl : n < l)
    (hbefore : lp.Moment phase n before) (hnext : lp.Moment phase (n + 1) next) :
    Tableau.Degenerate before next := by
  have hvalue : t.value = u.value := congrArg Row.rhs (h.eq_of_basis_eq h' hb).2
  have hlow := h.value_le hbefore hkn
  have hhigh := hnext.value_le h' hnl
  have hup := hbefore.value_le hnext (Nat.le_succ n)
  obtain ⟨full, hphase⟩ := hbefore.inPhase
  have hone : before.after 1 = some next := by
    have hafter := hbefore.after_sub hnext (Nat.le_succ n)
    rwa [Nat.add_sub_cancel_left] at hafter
  exact hphase.degenerate h.wellShaped hone (by linarith)

/-! ### Runs within every limit -/

/-- From some limit on, a run concludes with one outcome after one number of steps. -/
def Halts (lp : LinearProgram) : Prop :=
  ∃ (limit : Int) (outcome : Outcome) (steps : Nat), outcome ≠ .timedOut ∧
    ∀ larger, limit ≤ larger → ∃ run, lp.solve larger = .ok run ∧ run.outcome = outcome ∧
      run.steps = steps

/-- Every run is timed out, and without a limit some phase would come back to a basis.  A basis
comes back with the same rows, objective row included, and by degenerate pivots only. -/
structure Cycles (lp : LinearProgram) : Prop where
  timedOut : ∀ limit, ∃ run, lp.solve limit = .ok run ∧ run.outcome = .timedOut
  comes_back : ∃ (phase : Phase) (k l : Nat) (t u : Tableau), k < l ∧ lp.Moment phase k t ∧
    lp.Moment phase l u ∧ t.basis = u.basis
  same : ∀ {phase : Phase} {k l : Nat} {t u : Tableau}, k < l → lp.Moment phase k t →
    lp.Moment phase l u → t.basis = u.basis → t.rows = u.rows ∧ t.objective = u.objective ∧
      ∀ {n : Nat} {before next : Tableau}, k ≤ n → n < l → lp.Moment phase n before →
        lp.Moment phase (n + 1) next → Tableau.Degenerate before next

theorem Begins.solve_second {finished : Bool} {last : Tableau} (h : lp.Begins limit .second s)
    (hrun : s.optimize limit = .ok (finished, last)) : ∃ run, lp.solve limit = .ok run ∧
      (run.outcome = if finished then .optimal (last.point lp) (last.objectiveValue lp)
        else failure limit last) ∧ run.steps = last.steps := by
  have hw := h.wellShaped
  cases h with
  | direct initial count objective =>
    obtain rfl := eq_start_of_initialTableau initial
    refine ⟨_, (solve_of_count_eq_zero hw count limit).trans
      (secondPhase_eq_ok_iff.mpr ⟨s, finished, last, objective, hrun, rfl⟩), rfl, rfl⟩
  | resumed initial count done feasible objective =>
    obtain rfl := eq_start_of_initialTableau initial
    have hsolve := solve_of_count_ne_zero hw count done
    rw [feasible] at hsolve
    exact ⟨_, hsolve.trans
      (secondPhase_eq_ok_iff.mpr ⟨s, finished, last, objective, hrun, rfl⟩), rfl, rfl⟩

/-- With an endless phase a run is timed out, within every limit. -/
theorem Begins.timedOut_of_endless (h : lp.Begins limit phase s) (he : s.Endless) (other : Int) :
    ∃ run, lp.solve other = .ok run ∧ run.outcome = .timedOut := by
  have hw := h.wellShaped
  -- within the larger one of the limits the phase begins
  obtain ⟨late, hlate, ho⟩ : ∃ run, lp.solve (max limit other) = .ok run ∧
      run.outcome = .timedOut := by
    have hbegins := h.of_le (le_max_left limit other)
    obtain ⟨last, hrun, hsteps⟩ := he.optimize (max limit other)
    cases phase with
    | first =>
      cases hbegins with
      | first initial count =>
        obtain rfl := eq_start_of_initialTableau initial
        exact ⟨_, solve_of_count_ne_zero hw count hrun, if_pos hsteps⟩
    | second =>
      obtain ⟨run, hsolve, ho, -⟩ := hbegins.solve_second hrun
      exact ⟨run, hsolve, ho.trans (if_pos hsteps)⟩
  obtain ⟨run, hsolve, -⟩ := solve_spec hw other
  refine ⟨run, hsolve, ?_⟩
  by_contra hne
  cases (solve_of_le hsolve hne (le_max_right limit other)).symm.trans hlate
  exact hne ho

/-- A second phase that ends by itself gives an outcome before some limit. -/
theorem Begins.exists_outcome (h : lp.Begins limit .second s) (he : ¬s.Endless) :
    ∃ larger run, lp.solve larger = .ok run ∧ run.outcome ≠ .timedOut := by
  obtain ⟨enough, finished, last, hrun⟩ := Tableau.exists_optimize_of_not_endless he
  obtain ⟨hrun, hlt⟩ := hrun _ (le_max_right limit enough)
  obtain ⟨run, hsolve, ho, -⟩ := (h.of_le (le_max_left limit enough)).solve_second hrun
  refine ⟨_, run, hsolve, ?_⟩
  cases finished with
  | true => simp [ho]
  | false => simp [ho, failure_of_lt hlt]

/-- A run that is timed out within every limit has an endless phase. -/
theorem exists_endless (hw : lp.WellShaped)
    (h : ∀ limit run, lp.solve limit = .ok run → run.outcome = .timedOut) :
    ∃ limit phase s, lp.Begins limit phase s ∧ s.Endless := by
  by_contra hnone
  have hsecond {limit : Int} {s : Tableau} (hs : lp.Begins limit .second s) : False := by
    obtain ⟨larger, run, hsolve, ho⟩ := hs.exists_outcome fun he => hnone ⟨_, _, _, hs, he⟩
    exact ho (h larger run hsolve)
  have hinitial := initialTableau_eq hw
  have hstart := Tableau.InPhase.start hw
  by_cases hcount : lp.artificialCount = 0
  · have hbegins : lp.Begins 0 .second (lp.start.reset lp) :=
      .direct hinitial hcount (Tableau.withObjective_eq (hstart.represents.numVars_le hw))
    exact hsecond hbegins
  · have hends : ¬lp.start.Endless := fun he =>
      hnone ⟨0, _, _, .first hinitial hcount, he⟩
    obtain ⟨limit, finished, last, hrun⟩ := Tableau.exists_optimize_of_not_endless hends
    obtain ⟨hrun, hlt⟩ := hrun limit le_rfl
    have hsolve := solve_of_count_ne_zero hw hcount hrun
    cases finished with
    | false =>
      have ho := h limit _ hsolve
      simp [failure_of_lt hlt] at ho
    | true =>
      cases hfeasible : last.isFeasible with
      | false =>
        rw [hfeasible] at hsolve
        have ho := h limit _ hsolve
        simp at ho
      | true =>
        have hobjective := (inPhase_of_finished hw hrun).withObjective_dropColumns hw
        exact hsecond (.resumed hinitial hcount hrun hfeasible hobjective)

theorem cycles_of_basis_eq (hkl : k < l) (ht : lp.Moment phase k t) (hu : lp.Moment phase l u)
    (hb : t.basis = u.basis) : lp.Cycles where
  timedOut limit := by
    obtain ⟨first, s, hs, ht'⟩ := ht
    obtain ⟨hrows, hobjective⟩ := Moment.eq_of_basis_eq ⟨first, s, hs, ht'⟩ hu hb
    exact hs.timedOut_of_endless
      (Tableau.endless_of_rows_eq hkl ht' (hu.after hs) hrows hobjective) limit
  comes_back := ⟨phase, k, l, t, u, hkl, ht, hu, hb⟩
  same _ ht hu hb := by
    obtain ⟨hrows, hobjective⟩ := ht.eq_of_basis_eq hu hb
    exact ⟨hrows, hobjective, fun hkn hnl hbefore hnext =>
      ht.degenerate hu hb hkn hnl hbefore hnext⟩

/-- A program halts or cycles, and not both. -/
theorem halts_xor_cycles (hw : lp.WellShaped) : Xor lp.Halts lp.Cycles := by
  rw [xor_iff_iff_not]
  constructor
  · rintro ⟨limit, outcome, steps, hne, hhalts⟩ hcycles
    obtain ⟨run, hsolve, rfl, -⟩ := hhalts limit le_rfl
    obtain ⟨run', hsolve', ho⟩ := hcycles.timedOut limit
    cases hsolve.symm.trans hsolve'
    exact hne ho
  · intro hcycles
    by_contra hhalts
    -- every outcome but a time-out would last
    have htime (limit : Int) (run : Run) (hsolve : lp.solve limit = .ok run) :
        run.outcome = .timedOut := by
      by_contra hne
      exact hhalts ⟨limit, run.outcome, run.steps, hne, fun larger hle =>
        ⟨run, solve_of_le hsolve hne hle, rfl, rfl⟩⟩
    obtain ⟨limit, phase, s, hs, he⟩ := exists_endless hw htime
    have hbasis (k : Nat) (u : Tableau) (hu : s.after k = some u) :
        u.basis.length = lp.numConstraints ∧
          ∀ b ∈ u.basis, b < lp.firstArtificial + lp.artificialCount := by
      obtain ⟨full, hphase⟩ := Moment.inPhase ⟨limit, s, hs, hu⟩
      have hform := hphase.toCutFrom.inForm hw
      exact ⟨hform.rectangular.length_basis.trans hform.length_rows,
        fun b hb => hphase.toCutFrom.basic_lt hw hb⟩
    obtain ⟨k, l, u, v, hkl, hu, hv, heq⟩ := he.exists_basis_eq hbasis
    exact hcycles (cycles_of_basis_eq hkl ⟨limit, s, hs, hu⟩ ⟨limit, s, hs, hv⟩ heq)

/-- The greatest value of the objective is one, but the method turns in a circle of six pivots at
the value zero. -/
def circling : LinearProgram :=
  ⟨[10, -57, -9, -24], true,
    [⟨[1 / 2, -11 / 2, -5 / 2, 9], .atMost, 0⟩, ⟨[1 / 2, -3 / 2, -1 / 2, 1], .atMost, 0⟩,
      ⟨[1, 0, 0, 0], .atMost, 1⟩]⟩

theorem halts_xor_cycles_circling : circling.WellShaped ∧ circling.Cycles ∧ ¬circling.Halts := by
  have hw : circling.WellShaped := by decide
  have hcircle : (do
      let start ← circling.initialTableau
      let s ← start.withObjective circling
      return decide ((s.after 6).map (·.basis) = some s.basis) : Except Error Bool).toOption =
      some true := by decide +kernel
  have hcircle := eq_ok_of_toOption hcircle
  simp only [bind_eq_ok, pure, Except.pure, Except.ok.injEq, decide_eq_true_eq,
    Option.map_eq_some_iff] at hcircle
  obtain ⟨start, hinitial, s, hs, t, ht, hbasis⟩ := hcircle
  have hbegins : circling.Begins 0 .second s := .direct hinitial (by decide) hs
  have hcycles : circling.Cycles := cycles_of_basis_eq (show 0 < 6 by decide)
    ⟨0, s, hbegins, rfl⟩ ⟨0, s, hbegins, ht⟩ hbasis.symm
  exact ⟨hw, hcycles, fun hhalts =>
    (xor_iff_iff_not.mp (halts_xor_cycles hw)).mp hhalts hcycles⟩

end LinearProgram

end ExactSimplex
