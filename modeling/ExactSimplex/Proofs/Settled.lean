import ExactSimplex.Proofs.Phases

/-! When a reported point is feasible.  The first phase may leave artificial variables basic at
zero.  Their columns are dropped, but not their rows, and where such a row has a negative entry in
an entering column, the pivot gives the artificial variable a value again.  A final tableau is
settled if this did not happen, and its point is feasible exactly then: at a feasible point an
artificial variable could only stand against the surplus of its row, and the two are never basic
together, since their columns are opposite. -/

namespace ExactSimplex

namespace LinearProgram

variable {lp : LinearProgram} {x : Nat → Rat} {i : Nat} {c : Constraint}

theorem place_inj {a b : Auxiliary} (ha : a ∈ Auxiliary.all lp.normalized.constraints) :
    lp.place a = lp.place b ↔ a = b := by
  rw [place, place, Nat.add_left_cancel_iff, List.idxOf_inj ha]

/-- The direction in which the artificial variable and the surplus of row `i` grow together. -/
def opposed (lp : LinearProgram) (i j : Nat) : Rat :=
  if j = lp.place (.artificial i) ∨ j = lp.place (.surplus i) then 1 else 0

theorem opposed_place {a : Auxiliary} (ha : a ∈ Auxiliary.all lp.normalized.constraints) :
    lp.opposed i (lp.place a) = if a = .artificial i ∨ a = .surplus i then 1 else 0 := by
  simp only [opposed, place_inj ha]

theorem opposed_of_lt {j : Nat} (hj : j < lp.numVars) : lp.opposed i j = 0 := by
  have hne (a : Auxiliary) : j ≠ lp.place a := (hj.trans_le (Nat.le_add_right _ _)).ne
  rw [opposed, if_neg (not_or.mpr ⟨hne _, hne _⟩)]

/-- Along it every equation stays solved. -/
theorem solves_opposed (hw : lp.WellShaped) (hc : lp.normalized.constraints[i]? = some c)
    (hrel : c.relation = .atLeast) (hx : lp.start.Solves x) (s : Rat) :
    lp.start.Solves fun j => x j + s * lp.opposed i j := by
  rw [solves_start_iff hw] at hx ⊢
  intro k d hd
  have hpoint : lp.point (fun j => x j + s * lp.opposed i j) = lp.point x :=
    List.map_congr_left fun j hj => by
      rw [opposed_of_lt (List.mem_range.mp hj), mul_zero, add_zero]
  rw [hpoint, ← hx k d hd, add_right_inj]
  cases hcases : d.relation with
  | atMost =>
    rw [supplement, supplement, opposed_place ((Auxiliary.slack_mem_all_iff hd).mpr hcases)]
    simp
  | atLeast =>
    rw [supplement, supplement, opposed_place ((Auxiliary.surplus_mem_all_iff hd).mpr hcases),
      opposed_place ((Auxiliary.artificial_mem_all_iff hd).mpr (by rw [hcases]; decide))]
    simp
  | equal =>
    have hki : k ≠ i := by
      rintro rfl
      rw [hc, Option.some.injEq] at hd
      rw [← hd, hrel] at hcases
      cases hcases
    rw [supplement, supplement,
      opposed_place ((Auxiliary.artificial_mem_all_iff hd).mpr (by rw [hcases]; decide))]
    simp [hki]

end LinearProgram

namespace Tableau

/-- No dropped column that is still basic has a value. -/
def Settled (t : Tableau) : Prop := t.ZeroOnDropped Row.rhs

instance (t : Tableau) : Decidable t.Settled := inferInstanceAs (Decidable (t.ZeroOnDropped _))

variable {full t : Tableau} {lp : LinearProgram} {i : Nat} {c : Constraint}

/-- The artificial variable and the surplus of a row are never basic together. -/
theorem Represents.surplus_not_basic (h : t.Represents lp) (hw : lp.WellShaped)
    (hc : lp.normalized.constraints[i]? = some c) (hrel : c.relation = .atLeast)
    (hbasic : lp.place (.artificial i) ∈ t.basis) : lp.place (.surplus i) ∉ t.basis := by
  intro hsurplus
  obtain ⟨k, hk⟩ := List.mem_iff_getElem?.mp hbasic
  obtain ⟨r, hr⟩ := h.exists_row hk
  have hzero : ∀ j ∉ t.basis, lp.opposed i j = 0 := fun j hj => by
    have hne (a : Auxiliary) (ha : lp.place a ∈ t.basis) : j ≠ lp.place a :=
      fun heq => hj (heq ▸ ha)
    rw [LinearProgram.opposed, if_neg (not_or.mpr ⟨hne _ hbasic, hne _ hsurplus⟩)]
  have hone : r.lhs (lp.opposed i) = 1 := by
    rw [h.lhs_of_basic hzero hk hr, LinearProgram.opposed, if_pos (.inl rfl)]
  have hsolves := (h.solves_iff _).mpr
    (LinearProgram.solves_opposed hw hc hrel ((h.solves_iff _).mp h.solves_valueOf) 1)
  have hresidual := hsolves r (List.mem_of_getElem? hr)
  rw [Row.residual_add_mul, h.solves_valueOf r (List.mem_of_getElem? hr), hone] at hresidual
  norm_num at hresidual

/-- At a feasible basic point no artificial variable has a value. -/
theorem Represents.artificialSum_eq_zero (h : t.Represents lp) (hw : lp.WellShaped)
    (hf : lp.Feasible (lp.point t.valueOf)) : lp.artificialSum t.valueOf = 0 := by
  rw [LinearProgram.artificialSum_eq_zero_iff h.valueOf_nonneg]
  intro j hlow hj
  by_cases hbasic : j ∈ t.basis
  · obtain ⟨i, c, hc, hrel, rfl⟩ := LinearProgram.exists_place_eq hw hlow hj
    have hle := LinearProgram.artificial_le_surplus hw ((h.solves_iff _).mp h.solves_valueOf) hf
      hc hrel
    refine le_antisymm (hle.trans ?_) (h.valueOf_nonneg _)
    split
    · rename_i hatLeast
      exact (h.readOff_of_not_basic Row.rhs (h.surplus_not_basic hw hc hatLeast hbasic)).le
    · exact le_rfl
  · exact h.readOff_of_not_basic Row.rhs hbasic

namespace SecondPhase

variable (hw : lp.WellShaped) (h : SecondPhase lp full t)
include hw h

theorem settled_iff : t.Settled ↔ lp.artificialSum full.valueOf = 0 := by
  rw [Settled, h.eq_truncate, zeroOnDropped_truncate_iff h.represents.toUnitBasis
    (h.represents.firstArtificial_le hw) fun _ _ => rfl, ← valueOf_eq_readOff,
    LinearProgram.artificialSum_eq_zero_iff h.represents.valueOf_nonneg]
  constructor
  · exact fun hzero j hlow _ => hzero j hlow
  · intro hzero j hlow
    by_cases hj : j < lp.start.width
    · exact hzero j hlow hj
    · refine h.represents.readOff_of_not_basic Row.rhs fun hbasic => hj ?_
      exact h.represents.width_eq ▸ h.represents.basic_lt j hbasic

theorem feasible_iff_settled : lp.Feasible (t.point lp) ↔ t.Settled := by
  rw [h.settled_iff hw, point, h.valueOf_eq]
  exact ⟨h.represents.artificialSum_eq_zero hw, h.represents.feasible_point hw⟩

end SecondPhase

end Tableau

namespace LinearProgram

variable {lp : LinearProgram} {limit : Int} {run : Run} {x : List Rat} {v : Rat}

/-- A reported point has a coordinate for each variable and none of them is negative, and it
satisfies the constraints exactly if the tableau that is shown last is settled. -/
theorem optimal_feasible_iff (h : lp.solve limit = .ok run) (ho : run.outcome = .optimal x v) :
    ∃ last, run.snapshots.getLast? = some ⟨"After Phase II", last⟩ ∧
      x.length = lp.numVars ∧ (∀ q ∈ x, 0 ≤ q) ∧ (lp.Feasible x ↔ last.Settled) := by
  have hw := wellShaped_of_solve_eq_ok h
  obtain ⟨full, last, rfl, -, phase, -, shown⟩ := spec_of_optimal h ho
  refine ⟨last, shown, by simp [Tableau.point], fun q hq => ?_, phase.feasible_iff_settled hw⟩
  obtain ⟨j, -, rfl⟩ := List.mem_map.mp hq
  rw [phase.valueOf_eq]
  exact phase.represents.valueOf_nonneg j

/-- The same equation twice, so that an artificial variable stays basic at zero. -/
def redundant : LinearProgram :=
  ⟨[1, 0], true, [⟨[1, 1], .equal, 2⟩, ⟨[2, 2], .equal, 4⟩]⟩

theorem optimal_feasible_iff_redundant : ∃ run last, redundant.solve 200 = .ok run ∧
    run.outcome = .optimal [2, 0] 2 ∧ run.snapshots.getLast? = some ⟨"After Phase II", last⟩ ∧
      last.Settled ∧ redundant.Feasible [2, 0] := by
  obtain ⟨run, h, ho, hs⟩ : ∃ run, redundant.solve 200 = .ok run ∧
      run.outcome = .optimal [2, 0] 2 ∧ ∀ s ∈ run.snapshots.getLast?, s.tableau.Settled := by
    have hrun : (redundant.solve 200).toOption.map (fun run =>
        (run.outcome, decide (∀ s ∈ run.snapshots.getLast?, s.tableau.Settled))) =
          some (.optimal [2, 0] 2, true) := by decide +kernel
    obtain ⟨run, h, hf⟩ := exists_run_of_map hrun
    exact ⟨run, h, congrArg Prod.fst hf, of_decide_eq_true (congrArg Prod.snd hf)⟩
  obtain ⟨last, hlast, -, -, hiff⟩ := optimal_feasible_iff h ho
  have hsettled := hs _ hlast
  exact ⟨run, last, h, ho, hlast, hsettled, hiff.mpr hsettled⟩

/-- Here the artificial variable of the equation grows when the first variable enters: the only
feasible point is the origin. -/
def regrown : LinearProgram :=
  ⟨[1, 0], true, [⟨[-1, -1], .equal, 0⟩, ⟨[1, 0], .atMost, 5⟩]⟩

theorem optimal_not_feasible : ¬∀ (lp : LinearProgram) (limit : Int) (run : Run) (x : List Rat)
    (v : Rat), lp.WellShaped → lp.solve limit = .ok run → run.outcome = .optimal x v →
      lp.Feasible x := by
  intro hclaim
  obtain ⟨run, h, ho⟩ : ∃ run, regrown.solve 200 = .ok run ∧ run.outcome = .optimal [5, 0] 5 :=
    exists_run_of_map (by decide +kernel)
  have hfeasible := hclaim regrown 200 run [5, 0] 5 (by decide) h ho
  have hequation : dot [-1, -1] [5, 0] = 0 :=
    hfeasible.2.2 ⟨[-1, -1], .equal, 0⟩ (List.mem_cons_self)
  exact absurd hequation (by decide +kernel)

end LinearProgram

end ExactSimplex
