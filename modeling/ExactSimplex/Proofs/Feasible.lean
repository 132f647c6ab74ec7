import ExactSimplex.Proofs.Start
import Mathlib.Data.List.GetD

/-! Feasible points and the first tableau.  A solution of the first tableau without a negative
coordinate and without artificial part starts with a feasible point, and every feasible point is the
start of one: its slacks and surpluses are what the constraints leave. -/

namespace ExactSimplex

theorem Constraint.holds_normalized_iff (c : Constraint) (x : List Rat) :
    c.normalized.Holds x ↔ c.Holds x := by
  unfold normalized
  split
  · rfl
  · obtain ⟨coefficients, relation, rhs⟩ := c
    simp only [Holds, negated, dot_neg]
    cases relation
    · exact neg_le_neg_iff
    · exact neg_le_neg_iff
    · exact neg_inj

theorem Constraint.length_normalized (c : Constraint) :
    c.normalized.coefficients.length = c.coefficients.length := by
  unfold normalized
  split
  · rfl
  · exact List.length_map _

/-- The value that a point leaves for a column, so that the constraint of its row holds exactly. -/
def Auxiliary.amount (cs : List Constraint) (y : List Rat) : Auxiliary → Rat
  | slack i => (cs[i]?).elim 0 fun c => c.rhs - dot c.coefficients y
  | surplus i => (cs[i]?).elim 0 fun c => dot c.coefficients y - c.rhs
  | artificial _ => 0

theorem Auxiliary.amount_nonneg {cs : List Constraint} {y : List Rat}
    (hy : ∀ c ∈ cs, c.Holds y) {a : Auxiliary} (ha : a ∈ all cs) : 0 ≤ amount cs y a := by
  cases a with
  | slack i =>
    cases hc : cs[i]? with
    | none => simp [amount, hc]
    | some c =>
      have hholds := hy c (List.mem_of_getElem? hc)
      rw [Constraint.Holds, (slack_mem_all_iff hc).mp ha] at hholds
      simp only [amount, hc, Option.elim_some]
      exact sub_nonneg.mpr hholds
  | surplus i =>
    cases hc : cs[i]? with
    | none => simp [amount, hc]
    | some c =>
      have hholds := hy c (List.mem_of_getElem? hc)
      rw [Constraint.Holds, (surplus_mem_all_iff hc).mp ha] at hholds
      simp only [amount, hc, Option.elim_some]
      exact sub_nonneg.mpr hholds
  | artificial i => exact le_rfl

namespace LinearProgram

theorem WellShaped.addConstraint {lp extended : LinearProgram} {c : Constraint} (h : lp.WellShaped)
    (hadd : lp.addConstraint c = .ok extended) : extended.WellShaped := by
  unfold LinearProgram.addConstraint at hadd
  split at hadd
  · rename_i hlength
    cases hadd
    exact List.forall_mem_append.mpr ⟨h, List.forall_mem_singleton.mpr hlength⟩
  · cases hadd

theorem length_of_mem_normalized {lp : LinearProgram} (h : lp.WellShaped) :
    ∀ c ∈ lp.normalized.constraints, c.coefficients.length = lp.numVars := fun c hc => by
  obtain ⟨d, hd, rfl⟩ := List.mem_map.mp hc
  rw [d.length_normalized]
  exact h d hd

theorem rhs_nonneg_of_mem_normalized (lp : LinearProgram) :
    ∀ c ∈ lp.normalized.constraints, 0 ≤ c.rhs := fun c hc => by
  obtain ⟨d, -, rfl⟩ := List.mem_map.mp hc
  exact d.rhs_normalized_nonneg

theorem holds_normalized_iff (lp : LinearProgram) (y : List Rat) :
    (∀ c ∈ lp.normalized.constraints, c.Holds y) ↔ ∀ c ∈ lp.constraints, c.Holds y := by
  simp only [normalized, List.forall_mem_map, Constraint.holds_normalized_iff]

/-- The tableau that a program starts from when no constraint has the wrong length. -/
def start (lp : LinearProgram) : Tableau :=
  Tableau.ofConstraints lp.numVars lp.normalized.constraints

/-- The column of the first artificial variable. -/
def firstArtificial (lp : LinearProgram) : Nat :=
  lp.numVars + (Auxiliary.differences lp.normalized.constraints).length

/-- The place of a column behind the variables. -/
def place (lp : LinearProgram) (a : Auxiliary) : Nat :=
  lp.numVars + (Auxiliary.all lp.normalized.constraints).idxOf a

/-- The sum of the artificial coordinates of a point. -/
def artificialSum (lp : LinearProgram) (x : Nat → Rat) : Rat :=
  ∑ j ∈ Finset.Ico lp.firstArtificial lp.start.width, x j

/-- The first coordinates of a point, one for each variable. -/
def point (lp : LinearProgram) (x : Nat → Rat) : List Rat := (List.range lp.numVars).map x

variable {lp : LinearProgram} {y : List Rat} {x : Nat → Rat}

theorem width_start (h : lp.WellShaped) :
    lp.start.width = lp.firstArtificial + lp.artificialCount :=
  Tableau.width_ofConstraints_eq_add (length_of_mem_normalized h)

theorem canonical_start (h : lp.WellShaped) : lp.start.Canonical :=
  Tableau.canonical_ofConstraints (length_of_mem_normalized h) lp.rhs_nonneg_of_mem_normalized

theorem residual_objective_start (h : lp.WellShaped) (hx : lp.start.Solves x) :
    lp.start.objective.residual x = lp.artificialSum x :=
  Tableau.residual_objective_ofConstraints (length_of_mem_normalized h) hx

theorem firstArtificial_le_place (i : Nat) : lp.firstArtificial ≤ lp.place (.artificial i) :=
  Nat.add_le_add_left (Auxiliary.le_idxOf_artificial _ i) _

theorem place_lt_width (h : lp.WellShaped) {a : Auxiliary}
    (ha : a ∈ Auxiliary.all lp.normalized.constraints) : lp.place a < lp.start.width := by
  rw [start, Tableau.width_ofConstraints (length_of_mem_normalized h)]
  exact Nat.add_lt_add_left (List.idxOf_lt_length_of_mem ha) _

theorem exists_place_eq (h : lp.WellShaped) {j : Nat} (hlow : lp.firstArtificial ≤ j)
    (hj : j < lp.start.width) : ∃ i c, lp.normalized.constraints[i]? = some c ∧
      c.relation ≠ .atMost ∧ j = lp.place (.artificial i) := by
  rw [start, Tableau.width_ofConstraints (length_of_mem_normalized h)] at hj
  unfold firstArtificial at hlow
  have hlt : j - lp.numVars < (Auxiliary.all lp.normalized.constraints).length := by omega
  obtain ⟨i, c, hc, hrel, -, hplace⟩ :=
    Auxiliary.exists_artificial (by omega) (List.getElem?_eq_getElem hlt)
  exact ⟨i, c, hc, hrel, by unfold place; omega⟩

theorem artificialSum_nonneg (hx : ∀ j, 0 ≤ x j) : 0 ≤ lp.artificialSum x :=
  Finset.sum_nonneg fun j _ => hx j

theorem artificialSum_eq_zero_iff (hx : ∀ j, 0 ≤ x j) : lp.artificialSum x = 0 ↔
    ∀ j, lp.firstArtificial ≤ j → j < lp.start.width → x j = 0 := by
  rw [artificialSum, Finset.sum_eq_zero_iff_of_nonneg fun j _ => hx j]
  simp only [Finset.mem_Ico, and_imp]

/-! ### From a solution to a feasible point -/

/-- What the columns behind the variables add to the equation of row `i`, by its relation. -/
def supplement (lp : LinearProgram) (x : Nat → Rat) (i : Nat) : Relation → Rat
  | .atMost => x (lp.place (.slack i))
  | .atLeast => x (lp.place (.artificial i)) - x (lp.place (.surplus i))
  | .equal => x (lp.place (.artificial i))

theorem solves_start_iff (h : lp.WellShaped) : lp.start.Solves x ↔
    ∀ (i : Nat) (c : Constraint), lp.normalized.constraints[i]? = some c →
      dot c.coefficients (lp.point x) + lp.supplement x i c.relation = c.rhs := by
  rw [start, Tableau.solves_ofConstraints_iff (length_of_mem_normalized h)]
  refine forall₃_congr fun i c hc => ?_
  cases hrel : c.relation
  · rw [Auxiliary.total_atMost hc hrel]
    rfl
  · rw [Auxiliary.total_atLeast hc hrel]
    rfl
  · rw [Auxiliary.total_equal hc hrel]
    rfl

theorem feasible_of_solves (h : lp.WellShaped) (hx : ∀ j, 0 ≤ x j) (hs : lp.start.Solves x)
    (ha : lp.artificialSum x = 0) : lp.Feasible (lp.point x) := by
  rw [artificialSum_eq_zero_iff hx] at ha
  refine ⟨by simp [point], fun v hv => ?_, (lp.holds_normalized_iff _).mp fun c hc => ?_⟩
  · obtain ⟨j, -, rfl⟩ := List.mem_map.mp hv
    exact hx j
  · obtain ⟨i, hi⟩ := List.mem_iff_getElem?.mp hc
    have hequation := (solves_start_iff h).mp hs i c hi
    have hartificial (hrel : c.relation ≠ .atMost) : x (lp.place (.artificial i)) = 0 :=
      ha _ (firstArtificial_le_place i)
        (place_lt_width h ((Auxiliary.artificial_mem_all_iff hi).mpr hrel))
    unfold Constraint.Holds
    cases hrel : c.relation <;> simp only [hrel, supplement] at hequation
    · have hslack := hx (lp.place (.slack i))
      show dot c.coefficients (lp.point x) ≤ c.rhs
      linarith
    · have hsurplus := hx (lp.place (.surplus i))
      have hzero := hartificial (by rw [hrel]; decide)
      show c.rhs ≤ dot c.coefficients (lp.point x)
      linarith
    · have hzero := hartificial (by rw [hrel]; decide)
      show dot c.coefficients (lp.point x) = c.rhs
      linarith

/-- At a feasible point an artificial variable can only stand against a surplus. -/
theorem artificial_le_surplus (h : lp.WellShaped) (hs : lp.start.Solves x)
    (hf : lp.Feasible (lp.point x)) {i : Nat} {c : Constraint}
    (hc : lp.normalized.constraints[i]? = some c) (hrel : c.relation ≠ .atMost) :
    x (lp.place (.artificial i)) ≤
      if c.relation = .atLeast then x (lp.place (.surplus i)) else 0 := by
  have hequation := (solves_start_iff h).mp hs i c hc
  have hholds := (lp.holds_normalized_iff _).mpr hf.2.2 c (List.mem_of_getElem? hc)
  unfold Constraint.Holds at hholds
  cases hcases : c.relation <;> simp only [hcases, supplement] at hequation hholds
  · exact absurd hcases hrel
  · have hle : c.rhs ≤ dot c.coefficients (lp.point x) := hholds
    rw [if_pos rfl]
    linarith
  · have heq : dot c.coefficients (lp.point x) = c.rhs := hholds
    rw [if_neg (by decide)]
    linarith

/-! ### From a feasible point to a solution -/

/-- The coordinates of a point, and behind them what it leaves for the columns. -/
def completion (lp : LinearProgram) (y : List Rat) (j : Nat) : Rat :=
  if j < lp.numVars then y.getD j 0
  else ((Auxiliary.all lp.normalized.constraints)[j - lp.numVars]?).elim 0
    (Auxiliary.amount lp.normalized.constraints y)

theorem completion_place {a : Auxiliary} (ha : a ∈ Auxiliary.all lp.normalized.constraints) :
    lp.completion y (lp.place a) = Auxiliary.amount lp.normalized.constraints y a := by
  have hlt := List.idxOf_lt_length_of_mem ha
  rw [completion, place, if_neg (by omega), Nat.add_sub_cancel_left, List.getElem?_eq_getElem hlt,
    List.getElem_idxOf]
  rfl

theorem point_completion (hy : y.length = lp.numVars) : lp.point (lp.completion y) = y := by
  refine List.ext_getElem (by simp [point, hy]) fun j h₁ h₂ => ?_
  simp only [point, List.getElem_map, List.getElem_range, completion]
  rw [if_pos (hy ▸ h₂), List.getD_eq_getElem _ _ h₂]

theorem completion_nonneg (hy : lp.Feasible y) (j : Nat) : 0 ≤ lp.completion y j := by
  unfold completion
  split
  · rename_i hj
    rw [List.getD_eq_getElem _ _ (hy.1.symm ▸ hj)]
    exact hy.2.1 _ (List.getElem_mem _)
  · cases ha : (Auxiliary.all lp.normalized.constraints)[j - lp.numVars]? with
    | none => exact le_rfl
    | some a =>
      show 0 ≤ Auxiliary.amount lp.normalized.constraints y a
      exact Auxiliary.amount_nonneg ((lp.holds_normalized_iff y).mpr hy.2.2)
        (List.mem_of_getElem? ha)

theorem completion_of_le {j : Nat} (hj : lp.firstArtificial ≤ j) : lp.completion y j = 0 := by
  unfold firstArtificial at hj
  rw [completion, if_neg (by omega)]
  cases ha : (Auxiliary.all lp.normalized.constraints)[j - lp.numVars]? with
  | none => rfl
  | some a =>
    obtain ⟨i, c, -, -, rfl, -⟩ := Auxiliary.exists_artificial (by omega) ha
    rfl

theorem solves_completion (h : lp.WellShaped) (hy : lp.Feasible y) :
    lp.start.Solves (lp.completion y) := (solves_start_iff h).mpr fun i c hc => by
  have hholds := (lp.holds_normalized_iff y).mpr hy.2.2 c (List.mem_of_getElem? hc)
  unfold Constraint.Holds at hholds
  rw [point_completion hy.1]
  cases hrel : c.relation <;> simp only [hrel, supplement] at hholds ⊢
  · rw [completion_place ((Auxiliary.slack_mem_all_iff hc).mpr hrel), Auxiliary.amount, hc,
      Option.elim_some]
    ring
  · rw [completion_place ((Auxiliary.surplus_mem_all_iff hc).mpr hrel),
      completion_place ((Auxiliary.artificial_mem_all_iff hc).mpr (by rw [hrel]; decide)),
      Auxiliary.amount, Auxiliary.amount, hc, Option.elim_some]
    ring
  · have heq : dot c.coefficients y = c.rhs := hholds
    rw [completion_place ((Auxiliary.artificial_mem_all_iff hc).mpr (by rw [hrel]; decide)),
      Auxiliary.amount, heq, add_zero]

/-- A solution of the first tableau that stands for a feasible point. -/
structure Completed (lp : LinearProgram) (x : Nat → Rat) : Prop where
  nonneg : ∀ j, 0 ≤ x j
  solves : lp.start.Solves x
  eq_zero : ∀ j, lp.firstArtificial ≤ j → x j = 0

theorem Completed.artificialSum_eq_zero (h : lp.Completed x) : lp.artificialSum x = 0 :=
  Finset.sum_eq_zero fun j hj => h.eq_zero j (Finset.mem_Ico.mp hj).1

/-- The feasible points are the starts of completed ones. -/
theorem feasible_iff_completed (h : lp.WellShaped) :
    lp.Feasible y ↔ ∃ x, lp.Completed x ∧ lp.point x = y := by
  constructor
  · intro hy
    exact ⟨lp.completion y, ⟨completion_nonneg hy, solves_completion h hy,
      fun _ => completion_of_le⟩, point_completion hy.1⟩
  · rintro ⟨x, hx, rfl⟩
    exact feasible_of_solves h hx.nonneg hx.solves hx.artificialSum_eq_zero

end LinearProgram

end ExactSimplex
