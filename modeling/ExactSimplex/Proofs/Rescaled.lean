import ExactSimplex.Proofs.Phases
import Mathlib.Algebra.Order.Ring.Abs

/-! Objectives that are multiplied by a number.  A positive factor of the objective row changes
neither the column that enters nor the row that leaves, so it goes along unchanged from the first
pivot to the last.  A program whose objective is multiplied by a number, with the other sense if the
number is negative, is therefore solved by the same pivots: only the value is multiplied. -/

namespace ExactSimplex

/-! ### Rows -/

namespace Row

def scaled (k : Rat) (r : Row) : Row := ⟨r.coefficients.map (k * ·), k * r.rhs⟩

variable {k : Rat}

theorem scaled_one (r : Row) : r.scaled 1 = r := by
  simp only [scaled, one_mul, List.map_id']

theorem entry_scaled (k : Rat) (r : Row) (j : Nat) : (r.scaled k).entry j = k * r.entry j := by
  have hentries : (r.scaled k).entries = r.entries.map (k * ·) := by
    rw [entries, entries, List.map_append]
    rfl
  rw [entry, hentries, entry, List.getD, List.getD, List.getElem?_map]
  cases r.entries[j]? with
  | none => exact (mul_zero k).symm
  | some v => rfl

theorem scaled_ofEntries (k : Rat) (es : List Rat) :
    (ofEntries es).scaled k = ofEntries (es.map (k * ·)) := by
  rw [ofEntries, ofEntries, scaled, List.map_dropLast, List.getLast?_map]
  cases es.getLast? with
  | none => rw [Option.map_none, Option.getD_none, mul_zero]
  | some v => rfl

theorem scaled_addMultiple (k c : Rat) (r p : Row) :
    (r.addMultiple c p).scaled k = (r.scaled k).addMultiple (k * c) p := by
  simp only [scaled, addMultiple, List.map_zipWith, List.zipWith_map_left, mul_add, mul_assoc]

/-- Scaling a row makes no entry zero, so the same rows are cleared. -/
theorem scaled_clear (hk : k ≠ 0) (r : Row) (j : Nat) (p : Row) :
    (r.clear j p).scaled k = (r.scaled k).clear j p := by
  rw [clear, clear, entry_scaled]
  by_cases hzero : r.entry j = 0
  · rw [if_pos hzero, if_pos (by rw [hzero, mul_zero])]
  · rw [if_neg hzero, if_neg (mul_ne_zero hk hzero), scaled_addMultiple, mul_neg]

end Row

namespace Tableau

/-- The tableau with its objective row multiplied by `k`. -/
def scaled (k : Rat) (t : Tableau) : Tableau := { t with objective := t.objective.scaled k }

variable {t : Tableau} {k : Rat} {i j : Nat}

theorem scaled_one (t : Tableau) : t.scaled 1 = t := by rw [scaled, Row.scaled_one]

@[simp] theorem value_scaled (t : Tableau) (k : Rat) : (t.scaled k).value = k * t.value := rfl

/-! ### Steps -/

/-- A first least number stays one when an increasing function is applied to all numbers. -/
theorem firstLeast_map {f : Rat → Rat} (hf : StrictMono f) (l : List (Nat × Rat)) :
    firstLeast (l.map (Prod.map id f)) = firstLeast l := by
  cases l with
  | nil => rfl
  | cons first others =>
    have hfold : (others.map (Prod.map id f)).foldl
        (fun best next => if next.2 < best.2 then next else best) (Prod.map id f first) =
          Prod.map id f (others.foldl
            (fun best next => if next.2 < best.2 then next else best) first) := by
      rw [List.foldl_map]
      refine List.foldl_hom _ fun best next => ?_
      simp only [Prod.map_snd, hf.lt_iff_lt, apply_ite (Prod.map id f)]
    rw [List.map_cons, firstLeast, hfold]
    rfl

theorem improving_scaled (hk : 0 < k) :
    (t.scaled k).improving = t.improving.map (Prod.map id (k * ·)) := by
  rw [improving, scaled, Row.scaled, List.zipIdx_map, List.filterMap_map, improving,
    List.map_filterMap]
  refine List.filterMap_congr fun p _ => ?_
  have hneg : k * p.1 < 0 ↔ p.1 < 0 :=
    ⟨fun h => neg_of_mul_neg_right h hk.le, mul_neg_of_pos_of_neg hk⟩
  simp only [Function.comp_apply, Prod.map, id, hneg]
  split
  · rfl
  · rfl

theorem entering_scaled (hk : 0 < k) : (t.scaled k).entering = t.entering := by
  rw [entering, improving_scaled hk, firstLeast_map (strictMono_mul_left_of_pos hk), entering]

theorem leaving_scaled (t : Tableau) (k : Rat) (j : Nat) : (t.scaled k).leaving j = t.leaving j :=
  rfl

theorem eliminate_scaled (hk : k ≠ 0) :
    (t.scaled k).eliminate i j = (t.eliminate i j).scaled k := by
  cases hr : t.rows[i]? with
  | none => simp only [eliminate, scaled, hr]
  | some r => simp only [eliminate, scaled, hr, Row.scaled_clear hk]

/-! ### Runs -/

/-- A positive factor of the objective row goes along through a whole run. -/
theorem run_scaled (hk : 0 < k) (turns : Nat) (t : Tableau) :
    run turns (t.scaled k) = (run turns t).map (Prod.map id (scaled k)) := by
  induction turns generalizing t with
  | zero => rfl
  | succ turns ih =>
    have hsame := entering_scaled (t := t) hk
    cases hj : t.entering with
    | none =>
      rw [hj] at hsame
      rw [run_succ_of_entering_eq_none hsame, run_succ_of_entering_eq_none hj]
      rfl
    | some j =>
      rw [hj] at hsame
      cases hi : t.leaving j with
      | none =>
        rw [run_succ_of_leaving_eq_none hsame (leaving_scaled t k j ▸ hi),
          run_succ_of_leaving_eq_none hj hi]
        rfl
      | some i =>
        rw [run_succ_of_leaving_eq_some hsame (leaving_scaled t k j ▸ hi),
          run_succ_of_leaving_eq_some hj hi, ← ih]
        exact congrArg (run turns) (eliminate_scaled (t := t.counted) hk.ne')

theorem optimize_scaled (hk : 0 < k) (t : Tableau) (limit : Int) :
    (t.scaled k).optimize limit = (t.optimize limit).map (Prod.map id (scaled k)) :=
  run_scaled hk _ t

end Tableau

/-! ### Programs -/

namespace LinearProgram

/-- The program with the objective multiplied by `k`, to be optimised in the other sense if `k` is
not positive. -/
def rescaled (lp : LinearProgram) (k : Rat) : LinearProgram :=
  { lp with
    objective := lp.objective.map (k * ·)
    maximize := if 0 < k then lp.maximize else !lp.maximize }

/-- The program with the negated objective and the other sense. -/
def opposite (lp : LinearProgram) : LinearProgram :=
  { lp with objective := lp.objective.map (-·), maximize := !lp.maximize }

theorem opposite_eq_rescaled (lp : LinearProgram) : lp.opposite = lp.rescaled (-1) := by
  simp only [opposite, rescaled, neg_one_mul, if_neg (show ¬(0 : Rat) < -1 by norm_num)]

theorem numVars_rescaled (lp : LinearProgram) (k : Rat) : (lp.rescaled k).numVars = lp.numVars :=
  List.length_map _

/-- The sign of the factor and the sense of the program make up for each other. -/
theorem maxObjective_rescaled (lp : LinearProgram) {k : Rat} (hk : k ≠ 0) :
    (lp.rescaled k).maxObjective = lp.maxObjective.map (|k| * ·) := by
  rcases lt_or_gt_of_ne hk with hneg | hpos
  · cases hm : lp.maximize <;>
      simp [maxObjective, rescaled, hm, not_lt.mpr hneg.le, abs_of_neg hneg]
  · cases hm : lp.maximize <;> simp [maxObjective, rescaled, hm, hpos, abs_of_pos hpos]

end LinearProgram

namespace Tableau

variable {t : Tableau} {lp : LinearProgram} {k : Rat}

theorem plainObjective_rescaled (hk : k ≠ 0) :
    t.plainObjective (lp.rescaled k) = (t.plainObjective lp).scaled |k| := by
  simp only [plainObjective, Row.scaled_ofEntries, lp.maxObjective_rescaled hk,
    lp.numVars_rescaled, List.map_append, List.map_map, List.map_replicate, mul_zero,
    Function.comp_def, mul_neg]

theorem getD_maxObjective_rescaled (hk : k ≠ 0) (b : Nat) :
    (lp.rescaled k).maxObjective.getD b 0 = |k| * lp.maxObjective.getD b 0 := by
  rw [lp.maxObjective_rescaled hk, List.getD, List.getElem?_map, List.getD]
  cases lp.maxObjective[b]? with
  | none => exact (mul_zero _).symm
  | some v => rfl

theorem reducedObjective_rescaled (hk : k ≠ 0) :
    t.reducedObjective (lp.rescaled k) = (t.reducedObjective lp).scaled |k| := by
  rw [reducedObjective, plainObjective_rescaled hk, reducedObjective]
  refine List.foldl_hom _ fun z p => ?_
  simp only [getD_maxObjective_rescaled hk, lp.numVars_rescaled, ne_eq, mul_eq_zero,
    abs_eq_zero, hk, false_or]
  split
  · exact (Row.scaled_addMultiple _ _ _ _).symm
  · rfl

theorem withObjective_rescaled (hk : k ≠ 0) (t : Tableau) (lp : LinearProgram) :
    t.withObjective (lp.rescaled k) = (t.withObjective lp).map (scaled |k|) := by
  rw [withObjective, withObjective, lp.numVars_rescaled, reducedObjective_rescaled hk]
  split
  · rfl
  · rfl

theorem point_rescaled (t : Tableau) (lp : LinearProgram) (k : Rat) :
    (t.scaled |k|).point (lp.rescaled k) = t.point lp := by
  rw [point, lp.numVars_rescaled]
  rfl

/-- The value is flipped back according to the sense, so it has the sign of the factor again. -/
theorem objectiveValue_rescaled (hk : k ≠ 0) (t : Tableau) (lp : LinearProgram) :
    (t.scaled |k|).objectiveValue (lp.rescaled k) = k * t.objectiveValue lp := by
  rcases lt_or_gt_of_ne hk with hneg | hpos
  · cases hm : lp.maximize <;>
      simp [objectiveValue, LinearProgram.rescaled, hm, not_lt.mpr hneg.le, abs_of_neg hneg]
  · cases hm : lp.maximize <;>
      simp [objectiveValue, LinearProgram.rescaled, hm, hpos, abs_of_pos hpos]

end Tableau

/-! ### Solving -/

/-- The outcome for an objective that is `k` times as large. -/
def Outcome.scaled (k : Rat) : Outcome → Outcome
  | optimal solution value => optimal solution (k * value)
  | infeasible => infeasible
  | unbounded => unbounded
  | timedOut => timedOut

/-- Only the tableaux of the second phase know the objective. -/
def Snapshot.scaled (k : Rat) (s : Snapshot) : Snapshot :=
  if s.title = "Initial Tableau" ∨ s.title = "After Phase I" then s
  else { s with tableau := s.tableau.scaled k }

/-- The run for an objective that is `k` times as large: the steps and the solution are the same. -/
def Run.scaled (k : Rat) (run : Run) : Run :=
  ⟨run.outcome.scaled k, run.steps, run.snapshots.map (Snapshot.scaled |k|)⟩

theorem Snapshot.scaled_one (s : Snapshot) : s.scaled 1 = s := by
  rw [scaled, Tableau.scaled_one]
  split
  · rfl
  · rfl

theorem Run.scaled_neg_one (run : Run) :
    run.scaled (-1) = { run with outcome := run.outcome.scaled (-1) } := by
  have hid : Snapshot.scaled |-1| = id := by
    rw [abs_neg, abs_one]
    exact funext Snapshot.scaled_one
  rw [scaled, hid, List.map_id]

namespace LinearProgram

variable {lp : LinearProgram} {k : Rat}

theorem failure_scaled (k : Rat) (limit : Int) (t : Tableau) :
    (failure limit t).scaled k = failure limit t := by
  unfold failure
  split
  · rfl
  · rfl

theorem secondPhase_rescaled (hk : k ≠ 0) (lp : LinearProgram) (limit : Int) (t : Tableau)
    {shown : List Snapshot} (hshown : shown.map (Snapshot.scaled |k|) = shown) :
    (lp.rescaled k).secondPhase limit t shown =
      (lp.secondPhase limit t shown).map (Run.scaled k) := by
  rw [secondPhase, Tableau.withObjective_rescaled hk, secondPhase]
  cases t.withObjective lp with
  | error e => rfl
  | ok start =>
    show ((start.scaled |k|).optimize limit >>= _) = Except.map _ (start.optimize limit >>= _)
    rw [Tableau.optimize_scaled (abs_pos.mpr hk)]
    cases start.optimize limit with
    | error e => rfl
    | ok result =>
      obtain ⟨finished, last⟩ := result
      refine congrArg Except.ok (congr (congrArg₂ Run.mk ?_ rfl) ?_)
      · cases finished with
        | false => exact (failure_scaled k limit last).symm
        | true =>
          exact congrArg₂ Outcome.optimal (Tableau.point_rescaled last lp k)
            (Tableau.objectiveValue_rescaled hk last lp)
      · rw [List.map_append, hshown]
        rfl

/-- The first phase does not know the objective, and the second one goes along with the factor. -/
theorem solve_map_scaled (hk : k ≠ 0) (lp : LinearProgram) (limit : Int) :
    (lp.rescaled k).solve limit = (lp.solve limit).map (Run.scaled k) := by
  have hinitial : (lp.rescaled k).initialTableau = lp.initialTableau := by
    rw [initialTableau, numVars_rescaled, initialTableau]
    rfl
  have hcount : (lp.rescaled k).artificialCount = lp.artificialCount := rfl
  rw [solve, hinitial, hcount, solve]
  cases lp.initialTableau with
  | error e => rfl
  | ok start =>
    show (if lp.artificialCount = 0 then _ else start.optimize limit >>= _) =
      Except.map _ (if lp.artificialCount = 0 then _ else start.optimize limit >>= _)
    by_cases hzero : lp.artificialCount = 0
    · rw [if_pos hzero, if_pos hzero]
      exact secondPhase_rescaled hk lp limit start rfl
    · rw [if_neg hzero, if_neg hzero]
      cases start.optimize limit with
      | error e => rfl
      | ok result =>
        obtain ⟨finished, last⟩ := result
        cases finished with
        | false =>
          show Except.ok (Run.mk _ _ _) = .ok (Run.mk ((failure limit last).scaled k) _ _)
          rw [failure_scaled]
          rfl
        | true =>
          show (if !last.isFeasible then _ else _) =
            Except.map _ (if !last.isFeasible then _ else _)
          cases last.isFeasible with
          | false => rfl
          | true => exact secondPhase_rescaled hk lp limit _ rfl

/-- Multiplying the objective by a number other than zero, and changing the sense if the number is
negative, multiplies the value and changes nothing else of a run.  So to minimise an objective and
to maximise the opposite one is the same run, with opposite values. -/
theorem solve_rescaled (hw : lp.WellShaped) (limit : Int) : ∃ run, lp.solve limit = .ok run ∧
    (∀ k ≠ 0, (lp.rescaled k).solve limit = .ok (run.scaled k)) ∧
    lp.opposite.solve limit = .ok { run with outcome := run.outcome.scaled (-1) } := by
  obtain ⟨run, hrun, -⟩ := solve_spec hw limit
  have hscaled (k : Rat) (hk : k ≠ 0) : (lp.rescaled k).solve limit = .ok (run.scaled k) := by
    rw [solve_map_scaled hk, hrun]
    rfl
  refine ⟨run, hrun, hscaled, ?_⟩
  rw [opposite_eq_rescaled, hscaled (-1) (by decide), Run.scaled_neg_one]

/-- A program that is minimised in two phases. -/
def diet : LinearProgram := ⟨[2, 3], false, [⟨[1, 1], .atLeast, 4⟩, ⟨[1, 0], .atMost, 3⟩]⟩

theorem solve_rescaled_diet : diet.WellShaped ∧ (-2 / 3 : Rat) ≠ 0 ∧
    diet.rescaled (-2 / 3) = ⟨[-4 / 3, -2], true, diet.constraints⟩ ∧
    ∃ run run' run'', diet.solve 200 = .ok run ∧ (diet.rescaled (-2 / 3)).solve 200 = .ok run' ∧
      diet.opposite.solve 200 = .ok run'' ∧ run.outcome = .optimal [3, 1] 9 ∧
      run'.outcome = .optimal [3, 1] (-6) ∧ run''.outcome = .optimal [3, 1] (-9) ∧
      run'.steps = run.steps ∧ run''.steps = run.steps ∧ run''.snapshots = run.snapshots := by
  have hw : diet.WellShaped := by decide
  have hk : (-2 / 3 : Rat) ≠ 0 := by decide +kernel
  obtain ⟨run, hsolve, hscaled, hopposite⟩ := solve_rescaled hw 200
  obtain ⟨run', hsolve', ho⟩ : ∃ run, diet.solve 200 = .ok run ∧
      run.outcome = .optimal [3, 1] 9 := exists_run_of_map (by decide +kernel)
  cases hsolve.symm.trans hsolve'
  have hvalues : (Outcome.optimal [3, 1] 9).scaled (-2 / 3) = .optimal [3, 1] (-6) ∧
      (Outcome.optimal [3, 1] 9).scaled (-1) = .optimal [3, 1] (-9) := by decide +kernel
  refine ⟨hw, hk, by decide +kernel, run, _, _, hsolve, hscaled _ hk, hopposite, ho, ?_, ?_, rfl,
    rfl, rfl⟩
  · exact (congrArg (Outcome.scaled _) ho).trans hvalues.1
  · exact (congrArg (Outcome.scaled _) ho).trans hvalues.2

end LinearProgram

end ExactSimplex
