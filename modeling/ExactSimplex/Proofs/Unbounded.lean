import ExactSimplex.Proofs.Phases
import ExactSimplex.Proofs.Ray

/-! When a program that is reported unbounded is unbounded.  It has a feasible point in any case,
and its objective is unbounded exactly if the tableau that is shown last has a ray.  The entering
column gives one unless some row whose basic column was dropped has an entry there: the direction of
the column would then change an artificial variable, which must stay at zero. -/

namespace ExactSimplex

namespace LinearProgram

/-- The objective passes every bound at feasible points. -/
def UnboundedObjective (lp : LinearProgram) : Prop :=
  ∀ M : Rat, ∃ y, lp.Feasible y ∧ if lp.maximize then M < lp.valueAt y else lp.valueAt y < M

variable {lp : LinearProgram}

theorem better_iff_lt_gain (x : Nat → Rat) (M : Rat) :
    (if lp.maximize then M < lp.valueAt (lp.point x) else lp.valueAt (lp.point x) < M) ↔
      (if lp.maximize then M else -M) < lp.gain x := by
  rw [point, lp.valueAt_range_map]
  split
  · exact Iff.rfl
  · exact neg_lt

theorem unboundedObjective_iff_gain (hw : lp.WellShaped) :
    lp.UnboundedObjective ↔ ∀ M, ∃ x, lp.Completed x ∧ M < lp.gain x := by
  constructor
  · intro h M
    obtain ⟨y, hy, hbetter⟩ := h (if lp.maximize then M else -M)
    obtain ⟨x, hx, rfl⟩ := (feasible_iff_completed hw).mp hy
    have hgain := (better_iff_lt_gain x _).mp hbetter
    refine ⟨x, hx, ?_⟩
    split at hgain
    · exact hgain
    · rwa [neg_neg] at hgain
  · intro h M
    obtain ⟨x, hx, hgain⟩ := h (if lp.maximize then M else -M)
    exact ⟨lp.point x, (feasible_iff_completed hw).mpr ⟨x, hx, rfl⟩,
      (better_iff_lt_gain x M).mpr hgain⟩

end LinearProgram

namespace Tableau

/-- No row whose basic column was dropped has an entry in column `j`. -/
def Spares (t : Tableau) (j : Nat) : Prop := t.ZeroOnDropped (·.entry j)

instance (t : Tableau) (j : Nat) : Decidable (t.Spares j) :=
  inferInstanceAs (Decidable (t.ZeroOnDropped _))

namespace SecondPhase

variable {full t : Tableau} {lp : LinearProgram} {x : Nat → Rat} {j : Nat} (hw : lp.WellShaped)
  (h : SecondPhase lp full t)
include hw h

theorem rectangular : t.Rectangular := by
  rw [h.eq_truncate]
  exact h.represents.toRectangular.truncate (h.represents.firstArtificial_le hw)

/-- The completed points are the solutions of a second phase without a negative coordinate. -/
theorem completed_iff_within :
    lp.Completed x ↔ t.Within (Finset.range lp.firstArtificial) x := by
  have hsolves (hzero : ∀ j, lp.firstArtificial ≤ j → x j = 0) :
      lp.start.Solves x ↔ t.Solves x := by
    rw [← h.represents.solves_iff, h.eq_truncate]
    exact (solves_truncate_iff h.represents.toRectangular (h.represents.firstArtificial_le hw)
      hzero).symm
  constructor
  · intro hx
    exact ⟨hx.nonneg, (hsolves hx.eq_zero).mp hx.solves,
      fun j hj => hx.eq_zero j (not_lt.mp fun hlt => hj (Finset.mem_range.mpr hlt))⟩
  · intro hx
    have hzero : ∀ j, lp.firstArtificial ≤ j → x j = 0 := fun j hj =>
      hx.eq_zero j fun hlt => not_lt.mpr hj (Finset.mem_range.mp hlt)
    exact ⟨hx.nonneg, (hsolves hzero).mpr hx.solves, hzero⟩

/-- Far enough along a ray the gain passes every bound. -/
theorem exists_lt_gain (hf : ∃ y, lp.Feasible y) {d : Nat → Rat} (hd : t.Ray d) (M : Rat) :
    ∃ x, lp.Completed x ∧ M < lp.gain x := by
  obtain ⟨y, hy⟩ := hf
  obtain ⟨x, hx, -⟩ := (LinearProgram.feasible_iff_completed hw).mp hy
  have hd := hd.cut (h.rectangular hw)
  set d' : Nat → Rat := fun j => if j < t.width then d j else 0
  have hzero : ∀ j ∉ Finset.range lp.firstArtificial, d' j = 0 := fun j hj =>
    if_neg (by rwa [h.width_eq hw, ← Finset.mem_range])
  have hs : 0 ≤ (|M - lp.gain x| + 1) / -t.objective.lhs d' :=
    div_nonneg (by positivity) (neg_pos.mpr hd.falls).le
  have hmoved := (h.completed_iff_within hw).mpr
    (((h.completed_iff_within hw).mp hx).add_ray hd hzero hs)
  refine ⟨_, hmoved, ?_⟩
  have hgain := h.gain_eq hw hx
  rw [h.gain_eq hw hmoved, Row.lhs_add_mul, div_neg, neg_mul, div_mul_cancel₀ _ hd.falls.ne]
  linarith [le_abs_self (M - lp.gain x)]

theorem exists_ray (hunbounded : ∀ M, ∃ x, lp.Completed x ∧ M < lp.gain x) : ∃ d, t.Ray d := by
  by_contra hray
  obtain ⟨M, hM⟩ := exists_bound (not_exists.mp hray) (Finset.range lp.firstArtificial)
  obtain ⟨x, hx, hgain⟩ := hunbounded (t.value + M)
  have hbound := hM x ((h.completed_iff_within hw).mp hx)
  rw [h.gain_eq hw hx] at hgain
  linarith

theorem unboundedObjective_iff (hf : ∃ y, lp.Feasible y) :
    lp.UnboundedObjective ↔ ∃ d, t.Ray d := by
  rw [LinearProgram.unboundedObjective_iff_gain hw]
  exact ⟨h.exists_ray hw, fun ⟨_, hd⟩ => h.exists_lt_gain hw hf hd⟩

/-- A column that enters without a row to leave gives a ray, if it spares the rows whose basic
columns were dropped. -/
theorem ray_of_spares (hj : t.entering = some j) (hi : t.leaving j = none) (hs : t.Spares j) :
    t.Ray (full.direction j) := by
  have hle := h.represents.firstArtificial_le hw
  obtain ⟨hlt, hneg⟩ := entering_spec hj
  rw [h.width_eq hw] at hlt
  have hentry : ∀ r ∈ full.rows, (r.cut lp.firstArtificial).entry j = r.entry j := fun r hr =>
    Row.entry_cut (by rwa [h.represents.length_row r hr]) hlt
  have hread : ∀ c, lp.firstArtificial ≤ c → full.readOff (·.entry j) c = 0 := by
    rw [Spares, h.eq_truncate] at hs
    exact (zeroOnDropped_truncate_iff h.represents.toUnitBasis hle hentry).mp hs
  have hzero : ∀ c, lp.firstArtificial ≤ c → full.direction j c = 0 := fun c hc => by
    rw [direction, hread c hc, if_neg (by omega), sub_zero]
  refine ⟨h.represents.direction_nonneg fun r hr => ?_, fun q hq => ?_, ?_⟩
  · rw [← hentry r hr]
    refine leaving_eq_none_iff.mp hi _ ?_
    rw [h.eq_truncate]
    exact List.mem_map_of_mem hr
  · rw [h.eq_truncate] at hq
    obtain ⟨r, hr, rfl⟩ := List.mem_map.mp hq
    rw [Row.lhs_cut (by rwa [h.represents.length_row r hr]) fun c hc _ => hzero c hc]
    exact h.represents.lhs_direction_row (hlt.trans_le hle) hr
  · rw [h.lhs_objective hw hzero, h.represents.lhs_direction_objective (hlt.trans_le hle)]
    rw [h.eq_truncate] at hneg
    rwa [show (full.truncate lp.firstArtificial).objective = full.objective.cut lp.firstArtificial
      from rfl, Row.entry_cut hle hlt] at hneg

end SecondPhase

end Tableau

namespace LinearProgram

variable {lp : LinearProgram} {limit : Int} {run : Run}

/-- A program that is reported unbounded has a feasible point, and its objective is unbounded
exactly if the tableau that is shown last has a ray; it has one if its entering column spares the
rows whose basic columns were dropped. -/
theorem unbounded_iff_ray (h : lp.solve limit = .ok run) (ho : run.outcome = .unbounded) :
    (∃ y, lp.Feasible y) ∧ ∃ last j, run.snapshots.getLast? = some ⟨"After Phase II", last⟩ ∧
      last.entering = some j ∧ (lp.UnboundedObjective ↔ ∃ d, last.Ray d) ∧
        (last.Spares j → lp.UnboundedObjective) := by
  have hw := wellShaped_of_solve_eq_ok h
  obtain ⟨feasible, full, last, j, phase, entering, leaving, shown⟩ := spec_of_unbounded h ho
  have hiff := phase.unboundedObjective_iff hw feasible
  exact ⟨feasible, last, j, shown, entering, hiff, fun hs =>
    hiff.mpr ⟨_, phase.ray_of_spares hw entering leaving hs⟩⟩

/-- Both variables can grow together.  The equation is given twice, so an artificial variable is
still basic when the columns of its kind are dropped. -/
def diagonal : LinearProgram := ⟨[1, 0], true, [⟨[1, -1], .equal, 0⟩, ⟨[1, -1], .equal, 0⟩]⟩

/-- The basic column of a row was dropped, and the entering column spares this row. -/
theorem unbounded_iff_ray_diagonal : ∃ run last, diagonal.solve 200 = .ok run ∧
    run.outcome = .unbounded ∧ run.snapshots.getLast? = some ⟨"After Phase II", last⟩ ∧
    (∃ c ∈ last.basis, last.width ≤ c) ∧ (∃ y, diagonal.Feasible y) ∧
    diagonal.UnboundedObjective := by
  have hrun : (diagonal.solve 200).toOption.map (fun run => (run.outcome, decide
      (∀ s ∈ run.snapshots.getLast?, (∃ c ∈ s.tableau.basis, s.tableau.width ≤ c) ∧
        ∀ j ∈ s.tableau.entering, s.tableau.Spares j))) = some (.unbounded, true) := by
    decide +kernel
  obtain ⟨run, h, hf⟩ := exists_run_of_map hrun
  have ho : run.outcome = .unbounded := congrArg Prod.fst hf
  obtain ⟨hfeasible, last, j, hlast, hj, -, hspares⟩ := unbounded_iff_ray h ho
  obtain ⟨hdropped, hspared⟩ := of_decide_eq_true (congrArg Prod.snd hf) _ hlast
  exact ⟨run, last, h, ho, hlast, hdropped, hfeasible, hspares (hspared j hj)⟩

/-- Only the origin is feasible, and yet no row can leave when the first variable enters. -/
def pinned : LinearProgram := ⟨[1, 0], true, [⟨[-1, -1], .equal, 0⟩]⟩

theorem unbounded_of_one_point : ¬∀ (lp : LinearProgram) (limit : Int) (run : Run),
    lp.WellShaped → lp.solve limit = .ok run → run.outcome = .unbounded →
      (∃ y, lp.Feasible y) ∧ lp.UnboundedObjective := by
  intro hclaim
  obtain ⟨run, h, ho⟩ : ∃ run, pinned.solve 200 = .ok run ∧ run.outcome = .unbounded :=
    exists_run_of_map (by decide +kernel)
  obtain ⟨y, ⟨hlength, hnonneg, hholds⟩, hpos⟩ :=
    (hclaim pinned 200 run (by decide) h ho).2 0
  obtain ⟨a, b, rfl⟩ := List.length_eq_two.mp hlength
  have ha := hnonneg a (by simp)
  have hb := hnonneg b (by simp)
  have hequation : dot [-1, -1] [a, b] = 0 := hholds ⟨[-1, -1], .equal, 0⟩ (List.mem_cons_self)
  have hvalue : 0 < dot [1, 0] [a, b] := hpos
  simp only [dot] at hequation hvalue
  linarith

end LinearProgram

end ExactSimplex
