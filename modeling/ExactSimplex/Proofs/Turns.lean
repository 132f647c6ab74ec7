import ExactSimplex.Proofs.Cycling

/-! What a run counts.  A phase is a loop: every turn counts one step and then pivots, or finds no
entering column, or finds no leaving row; the limit is looked at after a pivot only.  So a phase
takes one turn at least, its steps are its turns, and only a first phase that ends at its very last
turn leaves a step beyond the limit to the second one. -/

namespace ExactSimplex

/-- What a turn of a phase does. -/
inductive Turn where
  | pivot
  /-- No column enters. -/
  | optimal
  /-- A column enters and no row can leave. -/
  | stuck
deriving DecidableEq, Repr

namespace Turn

/-- How many turns pivot. -/
def pivots (turns : List Turn) : Nat := turns.countP (· = pivot)

/-- How many turns find no entering column or no leaving row. -/
def fruitless (turns : List Turn) : Nat := turns.countP (· ≠ pivot)

theorem pivots_add_fruitless (turns : List Turn) :
    pivots turns + fruitless turns = turns.length := by
  rw [List.length_eq_countP_add_countP (· = pivot), pivots, fruitless]
  simp only [decide_eq_true_eq, ne_eq]

theorem pivots_append (first second : List Turn) :
    pivots (first ++ second) = pivots first + pivots second :=
  List.countP_append

theorem pivots_cons_pivot (turns : List Turn) : pivots (pivot :: turns) = pivots turns + 1 :=
  List.countP_cons_of_pos (by decide)

theorem pivots_le_length (turns : List Turn) : pivots turns ≤ turns.length :=
  List.countP_le_length

end Turn

namespace Tableau

/-- The loop of a phase: its turns, whether the last one found that no column enters, and the last
tableau. -/
inductive Loop (limit : Int) : Tableau → List Turn → Bool → Tableau → Prop where
  | optimal {t : Tableau} (step : t.counted.step = .ok .optimal) :
    Loop limit t [.optimal] true t.counted
  | stuck {t : Tableau} (step : t.counted.step = .ok .unbounded) :
    Loop limit t [.stuck] false t.counted
  | stopped {t next : Tableau} (step : t.counted.step = .ok (.pivoted next))
    (reached : limit ≤ next.steps) : Loop limit t [.pivot] false next
  | again {t next last : Tableau} {turns : List Turn} {finished : Bool}
    (step : t.counted.step = .ok (.pivoted next)) (below : next.steps < limit)
    (rest : Loop limit next turns finished last) : Loop limit t (.pivot :: turns) finished last

variable {t next last : Tableau} {limit : Int} {turns : List Turn} {finished : Bool}

/-- A step of the method never fails. -/
theorem step_cases (t : Tableau) : t.step = .ok .optimal ∨ t.step = .ok .unbounded ∨
    ∃ next, t.step = .ok (.pivoted next) ∧ next.steps = t.steps := by
  cases hj : t.entering with
  | none => exact .inl (step_of_entering_eq_none hj)
  | some j =>
    cases hi : t.leaving j with
    | none => exact .inr (.inl (step_of_leaving_eq_none hj hi))
    | some i =>
      exact .inr (.inr ⟨_, step_of_leaving_eq_some hj hi, steps_eliminate t i j⟩)

theorem steps_of_pivoted (h : t.counted.step = .ok (.pivoted next)) :
    next.steps = t.steps + 1 := by
  obtain ⟨i, j, -, -, rfl⟩ := step_eq_pivoted h
  exact steps_eliminate t.counted i j

/-- Within every limit the loop of a phase comes to its end. -/
theorem exists_loop (limit : Int) (t : Tableau) : ∃ turns finished last,
    t.optimize limit = .ok (finished, last) ∧ Loop limit t turns finished last := by
  obtain ⟨n, hn⟩ : ∃ n, turnsLeft limit t.steps = n + 1 :=
    Nat.exists_eq_add_of_le' (Nat.le_max_left 1 _)
  induction n generalizing t with
  | zero =>
    rw [optimize, hn, run]
    rcases t.counted.step_cases with h | h | ⟨next, h, hsteps⟩ <;> rw [h]
    · exact ⟨_, _, _, rfl, .optimal h⟩
    · exact ⟨_, _, _, rfl, .stuck h⟩
    · refine ⟨_, _, _, rfl, .stopped h ?_⟩
      have hnext := steps_of_pivoted h
      rw [turnsLeft] at hn
      omega
  | succ n ih =>
    rw [optimize, hn, run]
    rcases t.counted.step_cases with h | h | ⟨next, h, hsteps⟩ <;> rw [h]
    · exact ⟨_, _, _, rfl, .optimal h⟩
    · exact ⟨_, _, _, rfl, .stuck h⟩
    · -- one turn less is left, and the limit is not reached
      have hnext := steps_of_pivoted h
      have hleft : turnsLeft limit next.steps = n + 1 := by
        rw [turnsLeft] at hn ⊢
        omega
      obtain ⟨turns, finished, last, hrun, hloop⟩ := ih next hleft
      rw [optimize, hleft] at hrun
      refine ⟨_, _, _, hrun, .again h ?_ hloop⟩
      rw [turnsLeft] at hn
      omega

namespace Loop

theorem steps_eq (h : Loop limit t turns finished last) :
    last.steps = t.steps + turns.length := by
  induction h with
  | optimal => rfl
  | stuck => rfl
  | stopped step => exact steps_of_pivoted step
  | again step below rest ih =>
    rw [ih, steps_of_pivoted step, List.length_cons]
    omega

theorem length_pos (h : Loop limit t turns finished last) : 0 < turns.length := by
  cases h <;> exact Nat.succ_pos _

/-- One turn is always taken, and the others only below the limit. -/
theorem steps_le (h : Loop limit t turns finished last) :
    (last.steps : Int) ≤ max ((t.steps : Int) + 1) limit := by
  induction h with
  | optimal => exact le_max_left _ _
  | stuck => exact le_max_left _ _
  | stopped step =>
    have hnext := steps_of_pivoted step
    omega
  | again step below rest ih =>
    have hnext := steps_of_pivoted step
    omega

/-- All turns but the last one of a finished phase are pivots. -/
theorem of_finished (h : Loop limit t turns true last) :
    turns.getLast? = some .optimal ∧ Turn.pivots turns + 1 = turns.length := by
  generalize hfinished : true = finished at h
  induction h with
  | optimal => exact ⟨rfl, rfl⟩
  | stuck => cases hfinished
  | stopped => cases hfinished
  | again step below rest ih =>
    obtain ⟨hlast, hpivots⟩ := ih hfinished
    rw [List.getLast?_cons, hlast, Turn.pivots_cons_pivot, hpivots, List.length_cons]
    exact ⟨rfl, rfl⟩

end Loop

theorem steps_of_withObjective {lp : LinearProgram} {s : Tableau}
    (h : t.withObjective lp = .ok s) : s.steps = t.steps := by
  unfold withObjective at h
  split at h
  · cases h
    rfl
  · cases h

/-! ### Limits that allow one turn only -/

theorem optimize_eq_of_le_one {other : Int} (hl : limit ≤ 1) (ho : other ≤ 1) :
    t.optimize limit = t.optimize other := by
  have hturns : turnsLeft limit t.steps = turnsLeft other t.steps := by
    rw [turnsLeft, turnsLeft]
    omega
  rw [optimize, optimize, hturns]

theorem steps_pos_of_optimize (h : t.optimize limit = .ok (finished, last)) : 0 < last.steps := by
  obtain ⟨turns, finished', last', hrun, hloop⟩ := exists_loop limit t
  cases h.symm.trans hrun
  rw [hloop.steps_eq]
  exact Nat.add_pos_right _ hloop.length_pos

end Tableau

namespace LinearProgram

variable {lp : LinearProgram} {limit other : Int} {phase : Phase} {run : Run}

/-- The turns of a phase of the run within `limit`: none, if the run does not come to that phase. -/
inductive Takes (lp : LinearProgram) (limit : Int) (phase : Phase) : List Turn → Prop where
  | turns {s last : Tableau} {turns : List Turn} {finished : Bool}
    (begins : lp.Begins limit phase s) (loop : s.Loop limit turns finished last) :
    Takes lp limit phase turns
  | absent (never : ∀ s, ¬lp.Begins limit phase s) : Takes lp limit phase []

/-- How the steps of the run within `limit` come from the turns of its two phases. -/
structure Counts (lp : LinearProgram) (limit : Int) (run : Run) (first second : List Turn) :
    Prop where
  takes_first : lp.Takes limit .first first
  takes_second : lp.Takes limit .second second
  steps_eq : run.steps = Turn.pivots (first ++ second) + Turn.fruitless (first ++ second)
  pivots_le : (Turn.pivots (first ++ second) : Int) ≤ max 1 limit
  /-- One more step than the limit allows is counted after a first phase that needs them all. -/
  steps_le : (run.steps : Int) ≤ max 1 limit ∨ (run.steps : Int) = max 1 limit + 1 ∧
    (first.length : Int) = max 1 limit ∧ first.getLast? = some .optimal
  unbounded : run.outcome = .unbounded → run.steps < limit
  timedOut : run.outcome = .timedOut → limit ≤ run.steps

/-- A run has a second phase, or its first phase is not finished or ends above zero. -/
theorem second_or_first (hw : lp.WellShaped) (limit : Int) :
    (∃ s, lp.Begins limit .second s) ∨ lp.artificialCount ≠ 0 ∧ ∃ finished last,
      lp.start.optimize limit = .ok (finished, last) ∧
        (finished = false ∨ last.isFeasible = false) := by
  have hinitial := initialTableau_eq hw
  have hstart := Tableau.InPhase.start hw
  by_cases hcount : lp.artificialCount = 0
  · exact .inl ⟨_, .direct hinitial hcount
      (Tableau.withObjective_eq (hstart.represents.numVars_le hw))⟩
  · obtain ⟨finished, last, hrun, -⟩ := Tableau.firstPhase_spec hw limit
    cases finished with
    | false => exact .inr ⟨hcount, _, _, hrun, .inl rfl⟩
    | true =>
      cases hfeasible : last.isFeasible with
      | false => exact .inr ⟨hcount, _, _, hrun, .inr hfeasible⟩
      | true => exact .inl ⟨_, .resumed hinitial hcount hrun hfeasible
          ((inPhase_of_finished hw hrun).withObjective_dropColumns hw)⟩

theorem steps_of_outcome {last : Tableau} (hsteps : run.steps = last.steps)
    (ho : run.outcome = failure limit last ∨ run.outcome ≠ .unbounded ∧ run.outcome ≠ .timedOut) :
    (run.outcome = .unbounded → run.steps < limit) ∧
      (run.outcome = .timedOut → limit ≤ run.steps) := by
  rcases ho with ho | ⟨hunbounded, htimedOut⟩
  · rw [ho, hsteps, failure]
    by_cases hle : limit ≤ last.steps
    · rw [if_pos hle]
      exact ⟨nofun, fun _ => hle⟩
    · rw [if_neg hle]
      exact ⟨fun _ => not_le.mp hle, nofun⟩
  · exact ⟨fun h => absurd h hunbounded, fun h => absurd h htimedOut⟩

/-- Without a second phase the steps of a run are the turns of the first one. -/
theorem counts_of_first (hw : lp.WellShaped) (hcount : lp.artificialCount ≠ 0) {finished : Bool}
    {last : Tableau} (hrun : lp.start.optimize limit = .ok (finished, last))
    (hends : finished = false ∨ last.isFeasible = false) :
    ∃ run first second, lp.solve limit = .ok run ∧ lp.Counts limit run first second := by
  have hinitial := initialTableau_eq hw
  obtain ⟨run, hsolve, hlast, ho⟩ : ∃ run, lp.solve limit = .ok run ∧ run.steps = last.steps ∧
      (run.outcome = failure limit last ∨ run.outcome ≠ .unbounded ∧ run.outcome ≠ .timedOut) := by
    rw [solve_of_count_ne_zero hw hcount hrun]
    cases finished with
    | false => exact ⟨_, rfl, rfl, .inl rfl⟩
    | true =>
      rw [hends.resolve_left nofun]
      exact ⟨_, rfl, rfl, .inr ⟨nofun, nofun⟩⟩
  have hnever (s : Tableau) : ¬lp.Begins limit .second s := by
    intro hs
    cases hs with
    | direct _ hzero => exact hcount hzero
    | resumed initial _ done feasible =>
      cases hinitial.symm.trans initial
      cases hrun.symm.trans done
      exact hends.elim nofun (by rw [feasible]; nofun)
  obtain ⟨turns, finished', last', hrun', hloop⟩ := Tableau.exists_loop limit lp.start
  cases hrun.symm.trans hrun'
  have hsteps := hloop.steps_eq
  have hle := hloop.steps_le
  rw [show lp.start.steps = 0 from rfl] at hsteps hle
  have hpivots := Turn.pivots_le_length turns
  obtain ⟨hunbounded, htimedOut⟩ := steps_of_outcome hlast ho
  exact ⟨run, turns, [], hsolve,
    { takes_first := .turns (.first hinitial hcount) hloop
      takes_second := .absent hnever
      steps_eq := by rw [Turn.pivots_add_fruitless, List.append_nil, hlast, hsteps, Nat.zero_add]
      pivots_le := by
        rw [List.append_nil]
        omega
      steps_le := by omega
      unbounded := hunbounded
      timedOut := htimedOut }⟩

theorem Begins.steps_second {s : Tableau} (hs : lp.Begins limit .second s) :
    ∃ first, lp.Takes limit .first first ∧ s.steps = first.length ∧
      (first = [] ∨ first.getLast? = some .optimal ∧ Turn.pivots first + 1 = first.length ∧
        (first.length : Int) ≤ max 1 limit) := by
  have hw := hs.wellShaped
  cases hs with
  | direct initial count objective =>
    obtain rfl := eq_start_of_initialTableau initial
    have hzero := Tableau.steps_of_withObjective objective
    exact ⟨[], .absent fun s hs => by cases hs with | first _ hne => exact hne count, hzero,
      .inl rfl⟩
  | resumed initial count done feasible objective =>
    obtain rfl := eq_start_of_initialTableau initial
    obtain ⟨turns, finished, last, hrun, hloop⟩ := Tableau.exists_loop limit lp.start
    cases done.symm.trans hrun
    have hsteps := hloop.steps_eq
    have hle := hloop.steps_le
    rw [show lp.start.steps = 0 from rfl] at hsteps hle
    obtain ⟨hlast, hpivots⟩ := hloop.of_finished
    refine ⟨turns, .turns (.first initial count) hloop, ?_, .inr ⟨hlast, hpivots, by omega⟩⟩
    rw [Tableau.steps_of_withObjective objective, ← Nat.zero_add turns.length, ← hsteps]
    rfl

/-- The turns of a second phase are counted on top of those of the first one. -/
theorem Begins.counts {s : Tableau} (hs : lp.Begins limit .second s) :
    ∃ run first second, lp.solve limit = .ok run ∧ lp.Counts limit run first second := by
  obtain ⟨first, hfirst, hstart, hends⟩ := hs.steps_second
  obtain ⟨turns, finished, last, hrun, hloop⟩ := Tableau.exists_loop limit s
  obtain ⟨run, hsolve, ho, hlast⟩ := hs.solve_second hrun
  have hsteps := hloop.steps_eq
  have hle := hloop.steps_le
  rw [hstart] at hsteps hle
  have hpivots := Turn.pivots_le_length turns
  have ho' : run.outcome = failure limit last ∨
      run.outcome ≠ .unbounded ∧ run.outcome ≠ .timedOut := by
    rw [ho]
    cases finished with
    | false => exact .inl rfl
    | true => exact .inr ⟨nofun, nofun⟩
  obtain ⟨hunbounded, htimedOut⟩ := steps_of_outcome hlast ho'
  have hpos := hloop.length_pos
  refine ⟨run, first, turns, hsolve,
    { takes_first := hfirst
      takes_second := .turns hs hloop
      steps_eq := by rw [Turn.pivots_add_fruitless, List.length_append, hlast, hsteps]
      pivots_le := ?_
      steps_le := ?_
      unbounded := hunbounded
      timedOut := htimedOut }⟩
  · rw [Turn.pivots_append]
    rcases hends with rfl | ⟨-, hfewer, hbound⟩
    · rw [List.length_nil] at hle hsteps
      simp only [Turn.pivots, List.countP_nil] at *
      omega
    · omega
  · rcases hends with rfl | ⟨hoptimal, -, hbound⟩
    · rw [List.length_nil] at hle hsteps
      omega
    · by_cases hwithin : (run.steps : Int) ≤ max 1 limit
      · exact .inl hwithin
      · exact .inr ⟨by omega, by omega, hoptimal⟩

theorem failure_of_le_one {last : Tableau} (hpos : 0 < last.steps) (hl : limit ≤ 1) :
    failure limit last = .timedOut :=
  if_pos (by omega)

theorem secondPhase_of_le_one {t : Tableau} {shown : List Snapshot}
    (h : lp.secondPhase limit t shown = .ok run) (hl : limit ≤ 1) (ho : other ≤ 1) :
    lp.secondPhase other t shown = .ok run := by
  obtain ⟨start, finished, last, hstart, hrun, rfl⟩ := secondPhase_eq_ok_iff.mp h
  have hpos := Tableau.steps_pos_of_optimize hrun
  rw [Tableau.optimize_eq_of_le_one hl ho] at hrun
  refine secondPhase_eq_ok_iff.mpr ⟨start, finished, last, hstart, hrun, ?_⟩
  rw [failure_of_le_one hpos hl, failure_of_le_one hpos ho]

/-- All limits up to one give the same run. -/
theorem solve_of_le_one (h : lp.solve limit = .ok run) (hl : limit ≤ 1) (ho : other ≤ 1) :
    lp.solve other = .ok run := by
  have hw := wellShaped_of_solve_eq_ok h
  by_cases hcount : lp.artificialCount = 0
  · rw [solve_of_count_eq_zero hw hcount] at h ⊢
    exact secondPhase_of_le_one h hl ho
  · obtain ⟨finished, last, hrun, -⟩ := Tableau.firstPhase_spec hw limit
    have hpos := Tableau.steps_pos_of_optimize hrun
    rw [solve_of_count_ne_zero hw hcount hrun, failure_of_le_one hpos hl] at h
    rw [Tableau.optimize_eq_of_le_one hl ho] at hrun
    rw [solve_of_count_ne_zero hw hcount hrun, failure_of_le_one hpos ho]
    cases finished with
    | false => exact h
    | true =>
      cases hfeasible : last.isFeasible with
      | false =>
        rw [hfeasible] at h
        exact h
      | true =>
        rw [hfeasible] at h
        exact secondPhase_of_le_one h hl ho

/-- Every run ends, and a solver remembers its steps: the pivots and the fruitless turns of both
phases.  The run is the same within all limits up to one. -/
theorem solve_counts (hw : lp.WellShaped) (limit : Int) (before : Nat) :
    ∃ run first second, lp.solve limit = .ok run ∧
      Solver.solve ⟨.steps limit, before⟩ lp = (.ok run, ⟨.steps limit, run.steps⟩) ∧
      lp.Counts limit run first second ∧
      (limit ≤ 1 → ∀ other ≤ 1, lp.solve other = .ok run) := by
  obtain ⟨run, first, second, hsolve, hcounts⟩ : ∃ run first second,
      lp.solve limit = .ok run ∧ lp.Counts limit run first second := by
    rcases second_or_first hw limit with ⟨s, hs⟩ | ⟨hcount, finished, last, hrun, hends⟩
    · exact hs.counts
    · exact counts_of_first hw hcount hrun hends
  exact ⟨run, first, second, hsolve, solver_of_solve_eq_ok hsolve before, hcounts,
    fun hl other ho => solve_of_le_one hsolve hl ho⟩

/-- The only turn that the limit allows shows that the first phase is at its optimum, and one more
turn is taken for the second phase. -/
theorem solve_counts_displaced : displaced.WellShaped ∧ ∃ run first second,
    displaced.solve (-3) = .ok run ∧ run.steps = 2 ∧ run.outcome = .timedOut ∧
      Solver.solve ⟨.steps (-3), 7⟩ displaced = (.ok run, ⟨.steps (-3), 2⟩) ∧
      displaced.Counts (-3) run first second ∧ displaced.solve 1 = .ok run := by
  have hw : displaced.WellShaped := by decide
  obtain ⟨run, first, second, hsolve, hsolver, hcounts, hone⟩ := solve_counts hw (-3) 7
  obtain ⟨run', hsolve', hrun⟩ : ∃ run, displaced.solve (-3) = .ok run ∧
      (run.steps, run.outcome) = (2, .timedOut) := exists_run_of_map (by decide +kernel)
  cases hsolve.symm.trans hsolve'
  obtain ⟨hsteps, ho⟩ := Prod.mk.inj hrun
  rw [hsteps] at hsolver
  exact ⟨hw, run, first, second, hsolve, hsteps, ho, hsolver, hcounts, hone (by decide) 1 le_rfl⟩

end LinearProgram

end ExactSimplex
