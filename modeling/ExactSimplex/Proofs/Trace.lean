import ExactSimplex.Proofs.Raises
import ExactSimplex.Proofs.Table

/-! What a run shows.  Its tableaux stand in blocks, each under a title that says how far the run
has come, and showing them changes neither the outcome nor the steps, unless a number is longer than
the host allows: then the run ends before the block in which it stands.  From the text of a block
its tableau can be read back. -/

namespace ExactSimplex

namespace Tableau

variable {t u : Tableau} {lp : LinearProgram} {limit : Int}

/-! ### Names along a run -/

theorem names_of_withObjective (h : t.withObjective lp = .ok u) : u.names = t.names := by
  rw [withObjective] at h
  split at h
  · cases h
    rfl
  · cases h

theorem names_dropColumns_take (t : Tableau) (count : Int) :
    (t.dropColumns count).names <+: t.names := by
  rw [dropColumns]
  simp only [front]
  split <;> exact List.take_prefix _ _

theorem Named.after {k : Nat} (h : Named t.names) (ht : t.after k = some u) : Named u.names :=
  after_spec (P := fun t => Named t.names) (fun _ h => h)
    (fun t i j h _ hi => by
      obtain ⟨r, hl⟩ := leaving_spec hi
      rwa [names_eliminate hl.row])
    h ht

theorem Named.optimize {finished : Bool} (h : Named t.names)
    (hrun : t.optimize limit = .ok (finished, u)) : Named u.names := by
  obtain ⟨k, -, v, hv, hlast⟩ := exists_after_of_run hrun
  have hnamed := h.after hv
  obtain rfl | rfl := hlast
  · exact hnamed
  · exact hnamed

/-- Pivoting within the limit ends at an optimum with the value zero. -/
def EndsAtZero (t : Tableau) (limit : Int) : Prop :=
  ∃ last, t.optimize limit = .ok (true, last) ∧ last.value = 0

instance (t : Tableau) (limit : Int) : Decidable (t.EndsAtZero limit) :=
  match h : t.optimize limit with
  | .ok (true, last) => decidable_of_iff (last.value = 0) (by simp [EndsAtZero, h])
  | .ok (false, _) | .error _ => .isFalse (by simp [EndsAtZero, h])

end Tableau

namespace LinearProgram

variable {lp : LinearProgram} {limit : Int} {phase : Phase} {t : Tableau}

open Tableau

theorem named_of_initialTableau (h : lp.initialTableau = .ok t) : Named t.names := by
  obtain rfl := eq_start_of_initialTableau h
  exact named_ofConstraints _ _

theorem Begins.named (h : lp.Begins limit phase t) : Named t.names := by
  cases h with
  | first initial => exact named_of_initialTableau initial
  | direct initial count objective =>
    rw [names_of_withObjective objective]
    exact named_of_initialTableau initial
  | resumed initial count finished feasible objective =>
    rw [names_of_withObjective objective]
    exact ((named_of_initialTableau initial).optimize finished).of_front
      (names_dropColumns_take _ _)

theorem Reached.named (h : lp.Reached limit phase t) : Named t.names := by
  cases h with
  | initial initial => exact named_of_initialTableau initial
  | dropped initial count finished feasible =>
    exact ((named_of_initialTableau initial).optimize finished).of_front
      (names_dropColumns_take _ _)
  | pivoted begins turns after => exact begins.named.after after

theorem Passes.named (h : lp.Passes limit t) : Named t.names := by
  obtain ⟨phase, u, hu, rfl | rfl⟩ := h
  · exact hu.named
  · exact hu.named

/-! ### Blocks -/

/-- The tableau that belongs under a title. -/
inductive Block (lp : LinearProgram) (limit : Int) : Snapshot → Prop where
  | initial {t : Tableau} (initial : lp.initialTableau = .ok t) :
    Block lp limit ⟨"Initial Tableau", t⟩
  | afterFirst {s t : Tableau} {finished : Bool} (begins : lp.Begins limit .first s)
    (ends : s.optimize limit = .ok (finished, t)) : Block lp limit ⟨"After Phase I", t⟩
  | beforeSecond {t : Tableau} (begins : lp.Begins limit .second t) :
    Block lp limit ⟨"Before Phase II", t⟩
  | afterSecond {s t : Tableau} {finished : Bool} (begins : lp.Begins limit .second s)
    (ends : s.optimize limit = .ok (finished, t)) : Block lp limit ⟨"After Phase II", t⟩

/-- Some row in normal form is not of the form `≤`. -/
def NeedsFirstPhase (lp : LinearProgram) : Prop :=
  ∃ c ∈ lp.normalized.constraints, c.relation = .atLeast ∨ c.relation = .equal

instance (lp : LinearProgram) : Decidable lp.NeedsFirstPhase :=
  inferInstanceAs (Decidable (∃ c ∈ lp.normalized.constraints, _))

/-- The first phase is left out, or ends at an optimum with the value zero. -/
def EntersSecondPhase (lp : LinearProgram) (limit : Int) : Prop :=
  ¬lp.NeedsFirstPhase ∨ lp.start.EndsAtZero limit

instance (lp : LinearProgram) (limit : Int) : Decidable (lp.EntersSecondPhase limit) :=
  inferInstanceAs (Decidable (_ ∨ _))

/-- The titles of the blocks. -/
def titles (lp : LinearProgram) (limit : Int) : List String :=
  ["Initial Tableau"] ++ (if lp.NeedsFirstPhase then ["After Phase I"] else []) ++
    (if lp.EntersSecondPhase limit then ["Before Phase II", "After Phase II"] else [])

theorem needsFirstPhase_iff : lp.NeedsFirstPhase ↔ lp.artificialCount ≠ 0 := by
  rw [artificialCount, Auxiliary.length_artificials, ← Nat.pos_iff_ne_zero, List.countP_pos_iff]
  simp only [NeedsFirstPhase, decide_eq_true_eq]

theorem endsAtZero_iff {finished : Bool} (hrun : lp.start.optimize limit = .ok (finished, t)) :
    lp.start.EndsAtZero limit ↔ finished = true ∧ t.isFeasible = true := by
  rw [EndsAtZero, hrun]
  constructor
  · rintro ⟨last, hlast, hzero⟩
    cases hlast
    exact ⟨rfl, decide_eq_true hzero⟩
  · rintro ⟨rfl, hfeasible⟩
    exact ⟨_, rfl, of_decide_eq_true hfeasible⟩

/-- The second phase adds two blocks. -/
theorem blocks_of_secondPhase {run : Run} {shown : List Snapshot}
    (h : lp.secondPhase limit t shown = .ok run)
    (hbegins : ∀ s, t.withObjective lp = .ok s → lp.Begins limit .second s)
    (hshown : ∀ s ∈ shown, lp.Block limit s) :
    run.snapshots.map (·.title) =
        shown.map (·.title) ++ ["Before Phase II", "After Phase II"] ∧
      ∀ s ∈ run.snapshots, lp.Block limit s := by
  obtain ⟨start, finished, last, hstart, hrun, rfl⟩ := secondPhase_eq_ok_iff.mp h
  have hsecond := hbegins start hstart
  refine ⟨by rw [List.map_append]; rfl, ?_⟩
  simp only [List.forall_mem_append, List.forall_mem_cons]
  exact ⟨hshown, .beforeSecond hsecond, .afterSecond hsecond hrun, nofun⟩

/-- What is said of a run and of what it shows. -/
structure Traced (lp : LinearProgram) (limit : Int) (run : Run) : Prop where
  solve_eq : lp.solve limit = .ok run
  /-- The outcome and the steps are the same whether the blocks are printed or not, which all are
  where the host sets no bound on digits. -/
  printed : ∀ debug before,
    Grid.solve .off debug lp limit = .ok (run.outcome, run.steps,
      if debug then Run.displayed run.snapshots else "") ∧
    Solver.answer .off debug ⟨.steps limit, before⟩ lp =
      ⟨if debug then Run.displayed run.snapshots else "", .ok run, ⟨.steps limit, run.steps⟩⟩
  /-- A bound on digits makes no difference to a run of which nothing is printed, or everything can
  be. -/
  printed_within : ∀ digits debug before, (debug = true → run.Showable digits) →
    Grid.solve digits debug lp limit = Grid.solve .off debug lp limit ∧
    Solver.answer digits debug ⟨.steps limit, before⟩ lp =
      Solver.answer .off debug ⟨.steps limit, before⟩ lp
  /-- Otherwise the run fails, and the blocks before the first that cannot be written are shown. -/
  cut_short : ∀ digits before, ¬run.Showable digits →
    Grid.solve digits true lp limit = .error .tooManyDigits ∧
    Solver.answer digits true ⟨.steps limit, before⟩ lp =
      ⟨Run.displayed (run.writtenBlocks digits), .error .tooManyDigits,
        ⟨.steps limit, run.stepsShown digits⟩⟩
  titles_eq : run.snapshots.map (·.title) = lp.titles limit
  blocks : ∀ s ∈ run.snapshots, lp.Block limit s
  passes : ∀ s ∈ run.snapshots, lp.Passes limit s.tableau

/-- The blocks of a run with a first phase. -/
theorem blocks_of_needsFirstPhase (hw : lp.WellShaped) (hneeds : lp.NeedsFirstPhase) {run : Run}
    (h : lp.solve limit = .ok run) : run.snapshots.map (·.title) = lp.titles limit ∧
      ∀ s ∈ run.snapshots, lp.Block limit s := by
  have hinitial := initialTableau_eq hw
  have hcount := needsFirstPhase_iff.mp hneeds
  obtain ⟨finished, last, hfirst, -⟩ := Tableau.firstPhase_spec hw limit
  have hshown : ∀ s ∈ lp.afterFirst last, lp.Block limit s :=
    List.forall_mem_cons.mpr ⟨.initial hinitial,
      List.forall_mem_singleton.mpr (.afterFirst (.first hinitial hcount) hfirst)⟩
  have henters : lp.EntersSecondPhase limit ↔ finished = true ∧ last.isFeasible = true :=
    (or_iff_right (not_not.mpr hneeds)).trans (endsAtZero_iff hfirst)
  rw [solve_of_count_ne_zero hw hcount hfirst] at h
  rw [titles, if_pos hneeds]
  cases finished with
  | false =>
    cases h
    rw [if_neg (by simp [henters])]
    exact ⟨rfl, hshown⟩
  | true =>
    cases hfeasible : last.isFeasible with
    | false =>
      rw [hfeasible] at h
      cases h
      rw [if_neg (by simp [henters, hfeasible])]
      exact ⟨rfl, hshown⟩
    | true =>
      rw [hfeasible] at h
      rw [if_pos (henters.mpr ⟨rfl, hfeasible⟩)]
      exact blocks_of_secondPhase h
        (fun s hs => .resumed hinitial hcount hfirst hfeasible hs) hshown

/-- The blocks of a run. -/
theorem blocks_of_solve (hw : lp.WellShaped) {run : Run} (h : lp.solve limit = .ok run) :
    run.snapshots.map (·.title) = lp.titles limit ∧ ∀ s ∈ run.snapshots, lp.Block limit s := by
  by_cases hneeds : lp.NeedsFirstPhase
  · exact blocks_of_needsFirstPhase hw hneeds h
  · have hinitial := initialTableau_eq hw
    have hcount := not_not.mp (needsFirstPhase_iff.not.mp hneeds)
    rw [solve_of_count_eq_zero hw hcount] at h
    rw [titles, if_neg hneeds, if_pos (.inl hneeds)]
    exact blocks_of_secondPhase h (fun s hs => .direct hinitial hcount hs)
      (List.forall_mem_singleton.mpr (.initial hinitial))

theorem exists_traced (hw : lp.WellShaped) (limit : Int) : ∃ run, lp.Traced limit run := by
  obtain ⟨run, hrun, -⟩ := solve_spec hw limit
  obtain ⟨htitles, hblocks⟩ := blocks_of_solve hw hrun
  have hoff (debug : Bool) : debug = true → run.Showable .off := fun _ => run.showable_off
  exact ⟨run,
    { solve_eq := hrun
      printed := fun debug before =>
        ⟨solve_grid_of_showable hrun (hoff debug), answer_of_showable hrun (hoff debug) before⟩
      printed_within := fun digits debug before hshow =>
        ⟨(solve_grid_of_showable hrun hshow).trans (solve_grid_of_showable hrun (hoff debug)).symm,
          (answer_of_showable hrun hshow before).trans
            (answer_of_showable hrun (hoff debug) before).symm⟩
      cut_short := fun digits before hnot =>
        ⟨solve_grid_of_not_showable hrun hnot, answer_of_not_showable hrun hnot before⟩
      titles_eq := htitles
      blocks := hblocks
      passes := passes_of_mem_snapshots hrun }⟩

end LinearProgram

end ExactSimplex
