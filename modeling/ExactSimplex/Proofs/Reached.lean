import ExactSimplex.Proofs.Phases

/-! The tableaux that a run of `solve` passes through: the first one, the one without the artificial
columns, the one with which a phase begins, and the ones after its pivots.  Each has the first
columns of a tableau that represents the program, all of them in the first phase, and in the second
the ones that are not artificial. -/

namespace ExactSimplex

/-- The two phases of the method. -/
inductive Phase where
  | first
  | second
deriving DecidableEq, Repr

namespace Tableau

variable {t u : Tableau} {i j k : Nat}

/-- The tableau after `k` pivots, if the method goes on for so long. -/
def after (t : Tableau) : Nat → Option Tableau
  | 0 => some t
  | k + 1 =>
    match t.counted.step with
    | .ok (.pivoted next) => next.after k
    | _ => none

theorem after_succ_of_entering_eq_none (h : t.entering = none) : t.after (k + 1) = none := by
  rw [after, step_of_entering_eq_none (t := t.counted) h]

theorem after_succ_of_leaving_eq_none (hj : t.entering = some j) (hi : t.leaving j = none) :
    t.after (k + 1) = none := by
  rw [after, step_of_leaving_eq_none (t := t.counted) hj hi]

theorem after_succ_of_leaving_eq_some (hj : t.entering = some j) (hi : t.leaving j = some i) :
    t.after (k + 1) = (t.counted.eliminate i j).after k := by
  rw [after, step_of_leaving_eq_some (t := t.counted) hj hi]

theorem after_succ_eq_some (h : t.after (k + 1) = some u) : ∃ i j, t.entering = some j ∧
    t.leaving j = some i ∧ (t.counted.eliminate i j).after k = some u := by
  cases hj : t.entering with
  | none =>
    rw [after_succ_of_entering_eq_none hj] at h
    cases h
  | some j =>
    cases hi : t.leaving j with
    | none =>
      rw [after_succ_of_leaving_eq_none hj hi] at h
      cases h
    | some i => exact ⟨i, j, rfl, hi, after_succ_of_leaving_eq_some hj hi ▸ h⟩

/-- What counting and the chosen pivots keep holds after any number of pivots. -/
theorem after_spec {P : Tableau → Prop} (hcount : ∀ t, P t → P t.counted)
    (hpivot : ∀ t i j, P t → t.entering = some j → t.leaving j = some i → P (t.eliminate i j))
    (ht : P t) (h : t.after k = some u) : P u := by
  induction k generalizing t with
  | zero => exact Option.some.inj h ▸ ht
  | succ k ih =>
    obtain ⟨i, j, hj, hi, h⟩ := after_succ_eq_some h
    exact ih (hpivot t.counted i j (hcount t ht) hj hi) h

theorem steps_after (h : t.after k = some u) : u.steps = t.steps + k := by
  induction k generalizing t with
  | zero => rw [← Option.some.inj h, Nat.add_zero]
  | succ k ih =>
    obtain ⟨i, j, -, -, h⟩ := after_succ_eq_some h
    rw [ih h, steps_eliminate]
    simp only [counted]
    omega

/-- A run passes through the tableaux after its pivots. -/
theorem run_add_of_after (h : t.after k = some u) (turns : Nat) :
    run (k + turns) t = run turns u := by
  induction k generalizing t with
  | zero => rw [Option.some.inj h, Nat.zero_add]
  | succ k ih =>
    obtain ⟨i, j, hj, hi, h⟩ := after_succ_eq_some h
    rw [Nat.succ_add, run_succ_of_leaving_eq_some hj hi, ih h]

/-- A run ends in a tableau that it passes through, apart from the count of its last turn. -/
theorem exists_after_of_run {turns : Nat} {finished : Bool} {last : Tableau}
    (h : run turns t = .ok (finished, last)) :
    ∃ k ≤ turns, ∃ u, t.after k = some u ∧ (last = u ∨ last = u.counted) := by
  induction turns generalizing t with
  | zero =>
    cases h
    exact ⟨0, le_rfl, _, rfl, .inl rfl⟩
  | succ turns ih =>
    cases hj : t.entering with
    | none =>
      rw [run_succ_of_entering_eq_none hj] at h
      cases h
      exact ⟨0, Nat.zero_le _, t, rfl, .inr rfl⟩
    | some j =>
      cases hi : t.leaving j with
      | none =>
        rw [run_succ_of_leaving_eq_none hj hi] at h
        cases h
        exact ⟨0, Nat.zero_le _, t, rfl, .inr rfl⟩
      | some i =>
        rw [run_succ_of_leaving_eq_some hj hi] at h
        obtain ⟨k, hk, u, hu, hlast⟩ := ih h
        exact ⟨k + 1, Nat.succ_le_succ hk, u, (after_succ_of_leaving_eq_some hj hi).trans hu, hlast⟩

end Tableau

namespace LinearProgram

/-- The tableau with which a phase of the run within `limit` begins.  There is no first phase
without artificial variables, and the second phase follows on a first one that reaches zero. -/
inductive Begins (lp : LinearProgram) (limit : Int) : Phase → Tableau → Prop where
  | first {start : Tableau} (initial : lp.initialTableau = .ok start)
    (count : lp.artificialCount ≠ 0) : Begins lp limit .first start
  | direct {start t : Tableau} (initial : lp.initialTableau = .ok start)
    (count : lp.artificialCount = 0) (objective : start.withObjective lp = .ok t) :
    Begins lp limit .second t
  | resumed {start last t : Tableau} (initial : lp.initialTableau = .ok start)
    (count : lp.artificialCount ≠ 0) (finished : start.optimize limit = .ok (true, last))
    (feasible : last.isFeasible = true)
    (objective : (last.dropColumns lp.artificialCount).withObjective lp = .ok t) :
    Begins lp limit .second t

/-- The tableaux that the run within `limit` passes through, by the phase that has their columns. -/
inductive Reached (lp : LinearProgram) (limit : Int) : Phase → Tableau → Prop where
  | initial {start : Tableau} (initial : lp.initialTableau = .ok start) :
    Reached lp limit .first start
  | dropped {start last : Tableau} (initial : lp.initialTableau = .ok start)
    (count : lp.artificialCount ≠ 0) (finished : start.optimize limit = .ok (true, last))
    (feasible : last.isFeasible = true) :
    Reached lp limit .second (last.dropColumns lp.artificialCount)
  | pivoted {phase : Phase} {s t : Tableau} {k : Nat} (begins : lp.Begins limit phase s)
    (turns : k ≤ Tableau.turnsLeft limit s.steps) (after : s.after k = some t) :
    Reached lp limit phase t

/-- How many columns stand before the right-hand side in a phase. -/
def columns (lp : LinearProgram) : Phase → Nat
  | .first => lp.firstArtificial + lp.artificialCount
  | .second => lp.firstArtificial

theorem firstArtificial_le_columns (lp : LinearProgram) (phase : Phase) :
    lp.firstArtificial ≤ lp.columns phase := by
  cases phase with
  | first => exact Nat.le_add_right _ _
  | second => exact le_rfl

/-- What the objective row of a phase stands for. -/
def measure (lp : LinearProgram) : Phase → (Nat → Rat) → Rat
  | .first => lp.artificialSum
  | .second => fun x => -lp.gain x

end LinearProgram

/-- The tableau `t` has the columns of a phase in `full`, which represents the program. -/
structure Tableau.CutFrom (lp : LinearProgram) (phase : Phase) (full t : Tableau) : Prop where
  represents : full.Represents lp
  length_rows : full.rows.length = lp.numConstraints
  eq_truncate : t = full.truncate (lp.columns phase)

/-- The tableau `t` lies within a phase: it is cut from `full`, whose objective row measures what
the phase is about. -/
structure Tableau.InPhase (lp : LinearProgram) (phase : Phase) (full t : Tableau) : Prop extends
    Tableau.CutFrom lp phase full t where
  measures : full.Measures (lp.measure phase)

namespace Tableau

variable {lp : LinearProgram} {phase : Phase} {full t : Tableau} {i j : Nat}

theorem Represents.columns_le (h : t.Represents lp) (hw : lp.WellShaped) (phase : Phase) :
    lp.columns phase ≤ t.width := by
  rw [h.width_eq, LinearProgram.width_start hw]
  cases phase with
  | first => exact le_rfl
  | second => exact Nat.le_add_right _ _

theorem Represents.truncate_columns_first (h : t.Represents lp) (hw : lp.WellShaped) :
    t.truncate (lp.columns .first) = t := by
  rw [LinearProgram.columns, ← LinearProgram.width_start hw, ← h.width_eq,
    truncate_width h.toRectangular]

namespace CutFrom

theorem width_eq (h : CutFrom lp phase full t) (hw : lp.WellShaped) :
    t.width = lp.columns phase := by
  rw [h.eq_truncate, width_truncate (h.represents.columns_le hw phase)]

theorem basis_eq (h : CutFrom lp phase full t) : t.basis = full.basis := by
  rw [h.eq_truncate]
  rfl

theorem valueOf_eq (h : CutFrom lp phase full t) : t.valueOf = full.valueOf := by
  rw [h.eq_truncate, valueOf_truncate]

theorem exists_row (h : CutFrom lp phase full t) {i : Nat} {q : Row} (hq : t.rows[i]? = some q) :
    ∃ r, full.rows[i]? = some r ∧ q = r.cut (lp.columns phase) := by
  rw [h.eq_truncate, getElem?_rows_truncate, Option.map_eq_some_iff] at hq
  obtain ⟨r, hr, rfl⟩ := hq
  exact ⟨r, hr, rfl⟩

theorem valueOf_of_basic (h : CutFrom lp phase full t) {k b : Nat} {q : Row}
    (hq : t.rows[k]? = some q) (hb : t.basis[k]? = some b) : t.valueOf b = q.rhs := by
  obtain ⟨r, hr, rfl⟩ := h.exists_row hq
  rw [h.valueOf_eq, valueOf_eq_readOff, h.represents.readOff_of_basic _ (h.basis_eq ▸ hb) hr]
  rfl

/-- The artificial columns are dropped, and the objective row is reset. -/
theorem reset (hw : lp.WellShaped) (h : CutFrom lp phase full t) :
    InPhase lp .second (full.reset lp) ((full.truncate lp.firstArtificial).reset lp) :=
  have hphase := h.represents.reset hw
  { represents := hphase.represents
    length_rows := h.length_rows
    eq_truncate := hphase.eq_truncate
    measures := hphase.measures }

end CutFrom

namespace InPhase

theorem start (hw : lp.WellShaped) : InPhase lp .first lp.start lp.start where
  represents := Represents.start hw
  length_rows := by
    simp [LinearProgram.start, ofConstraints, LinearProgram.normalized,
      LinearProgram.numConstraints]
  eq_truncate := ((Represents.start hw).truncate_columns_first hw).symm
  measures _ hx := LinearProgram.residual_objective_start hw hx

theorem counted (h : InPhase lp phase full t) : InPhase lp phase full.counted t.counted where
  represents := h.represents.counted
  length_rows := h.length_rows
  eq_truncate := by
    rw [h.eq_truncate]
    rfl
  measures := h.measures

/-- A pivot of the method stays within the phase. -/
theorem eliminate (hw : lp.WellShaped) (h : InPhase lp phase full t) (hj : t.entering = some j)
    (hi : t.leaving j = some i) : InPhase lp phase (full.eliminate i j) (t.eliminate i j) := by
  have hle := h.represents.columns_le hw phase
  rw [h.eq_truncate] at hj hi ⊢
  obtain ⟨r, hl, hlt, heq⟩ := leaves_of_truncate h.represents.toRectangular hle hj hi
  exact
    { represents := h.represents.eliminate hl (hlt.trans_le hle)
      length_rows := (length_rows_eliminate hl.row).trans h.length_rows
      eq_truncate := heq.symm
      measures := h.measures.eliminate h.represents.toRectangular hl }

theorem after (hw : lp.WellShaped) (h : InPhase lp phase full t) {k : Nat} {u : Tableau}
    (hu : t.after k = some u) : ∃ full, InPhase lp phase full u :=
  after_spec (P := fun u => ∃ full, InPhase lp phase full u)
    (fun _ ⟨full, h⟩ => ⟨full.counted, h.counted⟩)
    (fun _ i j ⟨full, h⟩ hj hi => ⟨full.eliminate i j, h.eliminate hw hj hi⟩) ⟨full, h⟩ hu

theorem eq_of_first (hw : lp.WellShaped) (h : InPhase lp .first full t) : t = full := by
  rw [h.eq_truncate, h.represents.truncate_columns_first hw]

theorem withObjective_truncate (hw : lp.WellShaped) (h : InPhase lp .first t t) :
    (t.truncate lp.firstArtificial).withObjective lp =
      .ok ((t.truncate lp.firstArtificial).reset lp) := by
  refine withObjective_eq ?_
  rw [width_truncate (h.represents.firstArtificial_le hw)]
  exact Nat.le_add_right _ _

theorem withObjective_dropColumns (hw : lp.WellShaped) (h : InPhase lp .first t t) :
    (t.dropColumns lp.artificialCount).withObjective lp =
      .ok ((t.truncate lp.firstArtificial).reset lp) := by
  rw [h.represents.dropColumns_eq hw, h.withObjective_truncate hw]

end InPhase

end Tableau

namespace LinearProgram

variable {lp : LinearProgram} {limit : Int} {phase : Phase} {t last : Tableau}

/-- A first phase that is finished ends in a tableau of that phase. -/
theorem inPhase_of_finished (hw : lp.WellShaped) {finished : Bool}
    (h : lp.start.optimize limit = .ok (finished, last)) :
    Tableau.InPhase lp .first last last := by
  obtain ⟨k, -, u, hu, hlast⟩ := Tableau.exists_after_of_run h
  obtain ⟨full, hphase⟩ := (Tableau.InPhase.start hw).after hw hu
  rw [← hphase.eq_of_first hw] at hphase
  rcases hlast with rfl | rfl
  · exact hphase
  · exact hphase.counted

theorem Begins.wellShaped (h : lp.Begins limit phase t) : lp.WellShaped := by
  cases h with
  | first initial => exact wellShaped_of_initialTableau_eq_ok initial
  | direct initial => exact wellShaped_of_initialTableau_eq_ok initial
  | resumed initial => exact wellShaped_of_initialTableau_eq_ok initial

theorem Begins.inPhase (h : lp.Begins limit phase t) : ∃ full, Tableau.InPhase lp phase full t := by
  have hw := h.wellShaped
  cases h with
  | first initial =>
    obtain rfl := eq_start_of_initialTableau initial
    exact ⟨_, .start hw⟩
  | direct initial count objective =>
    obtain rfl := eq_start_of_initialTableau initial
    have hphase := Tableau.InPhase.start hw
    rw [← truncate_start hw count, hphase.withObjective_truncate hw] at objective
    cases objective
    exact ⟨_, hphase.reset hw⟩
  | resumed initial count finished feasible objective =>
    obtain rfl := eq_start_of_initialTableau initial
    have hphase := inPhase_of_finished hw finished
    rw [hphase.withObjective_dropColumns hw] at objective
    cases objective
    exact ⟨_, hphase.reset hw⟩

/-- A phase is not left by its pivots. -/
theorem Begins.inPhase_after {s : Tableau} {k : Nat} (h : lp.Begins limit phase s)
    (ht : s.after k = some t) : ∃ full, Tableau.InPhase lp phase full t := by
  obtain ⟨full, hphase⟩ := h.inPhase
  exact hphase.after h.wellShaped ht

theorem Reached.wellShaped (h : lp.Reached limit phase t) : lp.WellShaped := by
  cases h with
  | initial initial => exact wellShaped_of_initialTableau_eq_ok initial
  | dropped initial => exact wellShaped_of_initialTableau_eq_ok initial
  | pivoted begins => exact begins.wellShaped

/-- Every tableau of a run is cut from one that represents the program. -/
theorem Reached.cutFrom (h : lp.Reached limit phase t) :
    ∃ full, Tableau.CutFrom lp phase full t := by
  have hw := h.wellShaped
  cases h with
  | initial initial =>
    obtain rfl := eq_start_of_initialTableau initial
    exact ⟨_, (Tableau.InPhase.start hw).toCutFrom⟩
  | dropped initial count finished feasible =>
    obtain rfl := eq_start_of_initialTableau initial
    have hphase := inPhase_of_finished hw finished
    exact ⟨_, hphase.represents, hphase.length_rows, hphase.represents.dropColumns_eq hw⟩
  | pivoted begins turns after =>
    obtain ⟨full, hphase⟩ := begins.inPhase_after after
    exact ⟨full, hphase.toCutFrom⟩

theorem Reached.inPhase_first (h : lp.Reached limit .first t) :
    Tableau.InPhase lp .first t t := by
  have hw := h.wellShaped
  cases h with
  | initial initial =>
    obtain rfl := eq_start_of_initialTableau initial
    exact .start hw
  | pivoted begins turns after =>
    obtain ⟨full, hphase⟩ := begins.inPhase_after after
    rwa [← hphase.eq_of_first hw] at hphase

theorem Begins.exists_reached {finished : Bool} (h : lp.Begins limit phase t)
    (hrun : t.optimize limit = .ok (finished, last)) :
    ∃ u, lp.Reached limit phase u ∧ (last = u ∨ last = u.counted) := by
  obtain ⟨k, hk, u, hu, hlast⟩ := Tableau.exists_after_of_run hrun
  exact ⟨u, .pivoted h hk hu, hlast⟩

/-- The run passes through the tableau, apart from the count of the last turn. -/
def Passes (lp : LinearProgram) (limit : Int) (t : Tableau) : Prop :=
  ∃ phase u, lp.Reached limit phase u ∧ (t = u ∨ t = u.counted)

theorem passes_of_mem_secondPhase {run : Run} {shown : List Snapshot}
    (h : lp.secondPhase limit t shown = .ok run)
    (hbegins : ∀ s, t.withObjective lp = .ok s → lp.Begins limit .second s)
    (hshown : ∀ s ∈ shown, lp.Passes limit s.tableau) :
    ∀ s ∈ run.snapshots, lp.Passes limit s.tableau := by
  obtain ⟨start, finished, last, hstart, hrun, rfl⟩ := secondPhase_eq_ok_iff.mp h
  have hsecond := hbegins start hstart
  obtain ⟨u, hu, hlast⟩ := hsecond.exists_reached hrun
  have hfirst : lp.Reached limit .second start := .pivoted hsecond (Nat.zero_le _) rfl
  simp only [List.forall_mem_append, List.forall_mem_cons]
  exact ⟨hshown, ⟨_, _, hfirst, .inl rfl⟩, ⟨_, _, hu, hlast⟩, by simp⟩

/-- A run passes through all tableaux that it shows. -/
theorem passes_of_mem_snapshots {run : Run} (h : lp.solve limit = .ok run) :
    ∀ s ∈ run.snapshots, lp.Passes limit s.tableau := by
  have hw := wellShaped_of_solve_eq_ok h
  have hinitial := initialTableau_eq hw
  have hstart : lp.Passes limit lp.start := ⟨_, _, .initial hinitial, .inl rfl⟩
  by_cases hcount : lp.artificialCount = 0
  · rw [solve_of_count_eq_zero hw hcount] at h
    exact passes_of_mem_secondPhase h (fun s hs => .direct hinitial hcount hs)
      (List.forall_mem_singleton.mpr hstart)
  · obtain ⟨finished, last, hrun, -⟩ := Tableau.firstPhase_spec hw limit
    have hbegins : lp.Begins limit .first lp.start := .first hinitial hcount
    obtain ⟨u, hu, hlast⟩ := hbegins.exists_reached hrun
    have hshown : ∀ s ∈ lp.afterFirst last, lp.Passes limit s.tableau := by
      simp only [afterFirst, List.forall_mem_cons]
      exact ⟨hstart, ⟨_, _, hu, hlast⟩, by simp⟩
    rw [solve_of_count_ne_zero hw hcount hrun] at h
    cases finished with
    | false =>
      cases h
      exact hshown
    | true =>
      cases hfeasible : last.isFeasible with
      | false =>
        rw [hfeasible] at h
        cases h
        exact hshown
      | true =>
        rw [hfeasible] at h
        exact passes_of_mem_secondPhase h
          (fun s hs => .resumed hinitial hcount hrun hfeasible hs) hshown

/-- The first phase leaves the artificial variable of the equation basic at zero, and the only pivot
of the second phase gives it the value five. -/
def displaced : LinearProgram :=
  ⟨[1, 0], true, [⟨[-1, -1], .equal, 0⟩, ⟨[1, 1], .atMost, 5⟩]⟩

/-- The dropped column keeps the number three, which is now the one of the right-hand side. -/
theorem exists_after_displaced : ∃ s t, displaced.Begins 200 .second s ∧ s.steps = 1 ∧
    s.after 1 = some t ∧ t.rows = [⟨[0, 0, 1], 5⟩, ⟨[1, 1, 1], 5⟩] ∧ t.basis = [3, 0] ∧
      t.point displaced = [5, 0] := by
  have hrun : (do
      let start ← displaced.initialTableau
      let p ← start.optimize 200
      let s ← (p.2.dropColumns displaced.artificialCount).withObjective displaced
      return decide (p.1 = true ∧ p.2.isFeasible = true ∧ s.steps = 1 ∧
        (s.after 1).map (fun t => (t.rows, t.basis, t.point displaced)) =
          some ([⟨[0, 0, 1], 5⟩, ⟨[1, 1, 1], 5⟩], [3, 0], [5, 0])) : Except Error Bool).toOption =
      some true := by decide +kernel
  have hrun := eq_ok_of_toOption hrun
  simp only [bind_eq_ok, Prod.exists, pure, Except.pure, Except.ok.injEq, decide_eq_true_eq,
    Option.map_eq_some_iff, Prod.mk.injEq] at hrun
  obtain ⟨start, hinitial, _, last, hfinished, s, hs, rfl, hfeasible, hsteps, t, ht, hrows⟩ := hrun
  exact ⟨s, t, .resumed hinitial (by decide) hfinished hfeasible hs, hsteps, ht, hrows⟩

theorem exists_reached_displaced : ∃ t, displaced.Reached 200 .second t ∧
    t.rows = [⟨[0, 0, 1], 5⟩, ⟨[1, 1, 1], 5⟩] ∧ t.basis = [3, 0] ∧
      t.point displaced = [5, 0] := by
  obtain ⟨s, t, hbegins, hsteps, ht, hrows⟩ := exists_after_displaced
  exact ⟨t, .pivoted hbegins (by rw [hsteps]; decide) ht, hrows⟩

end LinearProgram

end ExactSimplex
