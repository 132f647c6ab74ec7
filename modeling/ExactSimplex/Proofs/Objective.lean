import ExactSimplex.Proofs.Canonical

/-! Objective rows that are reduced against a basis.  `weighted` adds to a row the rows of a
tableau, each times a weight that depends on its basic column.  On a basis of unit columns this adds
to the entry of a basic column its own weight alone, so weights opposite to the entries clear the
basic columns; and no weights change the residual at a point that solves the rows. -/

namespace ExactSimplex

namespace Tableau

/-- The row `z` plus the rows of the list, each times the weight of its column. -/
def weighted (w : Nat → Rat) (z : Row) (ps : List (Nat × Row)) : Row :=
  ps.foldl (fun z p => z.addMultiple (w p.1) p.2) z

theorem length_weighted (w : Nat → Rat) {z : Row} {ps : List (Nat × Row)}
    (h : ∀ p ∈ ps, p.2.coefficients.length = z.coefficients.length) :
    (weighted w z ps).coefficients.length = z.coefficients.length := by
  induction ps generalizing z with
  | nil => rfl
  | cons p ps ih =>
    have hp := Row.length_addMultiple (h p List.mem_cons_self) (w p.1)
    have htail := ih (z := z.addMultiple (w p.1) p.2) fun q hq =>
      (h q (List.mem_cons_of_mem _ hq)).trans hp.symm
    exact htail.trans hp

theorem entry_weighted (w : Nat → Rat) {z : Row} {ps : List (Nat × Row)}
    (h : ∀ p ∈ ps, p.2.coefficients.length = z.coefficients.length) (c : Nat) :
    (weighted w z ps).entry c = z.entry c + (ps.map fun p => w p.1 * p.2.entry c).sum := by
  induction ps generalizing z with
  | nil => simp [weighted]
  | cons p ps ih =>
    have hp := Row.length_addMultiple (h p List.mem_cons_self) (w p.1)
    have htail := ih (z := z.addMultiple (w p.1) p.2) fun q hq =>
      (h q (List.mem_cons_of_mem _ hq)).trans hp.symm
    rw [Row.entry_addMultiple (h p List.mem_cons_self)] at htail
    rw [List.map_cons, List.sum_cons, ← add_assoc]
    exact htail

theorem rhs_weighted (w : Nat → Rat) (z : Row) (ps : List (Nat × Row)) :
    (weighted w z ps).rhs = z.rhs + (ps.map fun p => w p.1 * p.2.rhs).sum := by
  induction ps generalizing z with
  | nil => simp [weighted]
  | cons p ps ih =>
    have htail := ih (z.addMultiple (w p.1) p.2)
    rw [Row.rhs_addMultiple] at htail
    rw [List.map_cons, List.sum_cons, ← add_assoc]
    exact htail

/-- Rows that a point solves do not count at that point. -/
theorem residual_weighted (w : Nat → Rat) {z : Row} {ps : List (Nat × Row)}
    (h : ∀ p ∈ ps, p.2.coefficients.length = z.coefficients.length) {x : Nat → Rat}
    (hx : ∀ p ∈ ps, p.2.residual x = 0) : (weighted w z ps).residual x = z.residual x := by
  induction ps generalizing z with
  | nil => rfl
  | cons p ps ih =>
    have hp := Row.length_addMultiple (h p List.mem_cons_self) (w p.1)
    have htail := ih (z := z.addMultiple (w p.1) p.2)
      (fun q hq => (h q (List.mem_cons_of_mem _ hq)).trans hp.symm)
      fun q hq => hx q (List.mem_cons_of_mem _ hq)
    rw [Row.residual_addMultiple (h p List.mem_cons_self), hx p List.mem_cons_self, mul_zero,
      add_zero] at htail
    exact htail

/-- To leave rows out is to give them no weight. -/
theorem foldl_ite_addMultiple (P : Nat → Prop) [DecidablePred P] (w : Nat → Rat) {z : Row}
    {ps : List (Nat × Row)}
    (h : ∀ p ∈ ps, p.2.coefficients.length = z.coefficients.length) :
    ps.foldl (fun z p => if P p.1 then z.addMultiple (w p.1) p.2 else z) z =
      weighted (fun b => if P b then w b else 0) z ps := by
  induction ps generalizing z with
  | nil => rfl
  | cons p ps ih =>
    have hhead := h p List.mem_cons_self
    have hstep : (if P p.1 then z.addMultiple (w p.1) p.2 else z) =
        z.addMultiple (if P p.1 then w p.1 else 0) p.2 := by
      split
      · rfl
      · rw [Row.addMultiple_zero hhead]
    rw [List.foldl_cons, hstep]
    exact ih fun q hq => (h q (List.mem_cons_of_mem _ hq)).trans
      (Row.length_addMultiple hhead _).symm

variable {t : Tableau}

theorem Rectangular.length_of_mem_zip (h : t.Rectangular) {z : Row}
    (hz : z.coefficients.length = t.width) :
    ∀ p ∈ t.basis.zip t.rows, p.2.coefficients.length = z.coefficients.length :=
  fun p hp => (h.length_row p.2 (List.of_mem_zip (a := p.1) (b := p.2) hp).2).trans hz.symm

theorem Solves.of_mem_zip {x : Nat → Rat} (hx : t.Solves x) :
    ∀ p ∈ t.basis.zip t.rows, p.2.residual x = 0 :=
  fun p hp => hx p.2 (List.of_mem_zip (a := p.1) (b := p.2) hp).2

/-- Of the rows only its own has an entry in a basic column. -/
theorem UnitBasis.sum_weights (h : t.UnitBasis) (w : Nat → Rat) {b : Nat} (hb : b ∈ t.basis) :
    ((t.basis.zip t.rows).map fun p => w p.1 * p.2.entry b).sum = w b := by
  obtain ⟨k, hk⟩ := List.mem_iff_getElem?.mp hb
  obtain ⟨r, hr⟩ := h.exists_row hk
  have hmem : (b, r) ∈ t.basis.zip t.rows := mem_basis_zip.mpr ⟨k, hk, hr⟩
  have hnodup : (t.basis.zip t.rows).Nodup :=
    List.Nodup.of_map Prod.fst (by rw [h.map_fst_zip]; exact h.basis_nodup)
  have hothers : ∀ p ≠ (b, r), p ∈ t.basis.zip t.rows → w p.1 * p.2.entry b = 0 := by
    rintro ⟨b', q⟩ hne hp
    obtain ⟨i, hi, hq⟩ := mem_basis_zip.mp hp
    have hik : i ≠ k := by
      rintro rfl
      exact hne (by rw [Option.some.inj (hi.symm.trans hk), Option.some.inj (hq.symm.trans hr)])
    rw [h.unit hq hk, if_neg hik, mul_zero]
  rw [List.sum_map_eq_nsmul_single (b, r) _ hothers,
    @List.count_eq_one_of_mem _ instBEqOfDecidableEq _ _ _ hnodup hmem, one_nsmul,
    h.unit hr hk, if_pos rfl, mul_one]

theorem UnitBasis.entry_weighted_basic (h : t.UnitBasis) (w : Nat → Rat) {z : Row}
    (hz : z.coefficients.length = t.width) {b : Nat} (hb : b ∈ t.basis) :
    (weighted w z (t.basis.zip t.rows)).entry b = z.entry b + w b := by
  rw [entry_weighted w (h.length_of_mem_zip hz), h.sum_weights w hb]

end Tableau

/-! ### The objective of a program -/

/-- The objective to maximise at the point `x`. -/
def LinearProgram.gain (lp : LinearProgram) (x : Nat → Rat) : Rat :=
  ∑ j ∈ Finset.range lp.numVars, lp.maxObjective.getD j 0 * x j

theorem LinearProgram.length_maxObjective (lp : LinearProgram) :
    lp.maxObjective.length = lp.numVars := by
  unfold maxObjective
  split
  · rfl
  · exact List.length_map _

theorem LinearProgram.getD_maxObjective_of_le (lp : LinearProgram) {j : Nat}
    (h : lp.numVars ≤ j) : lp.maxObjective.getD j 0 = 0 := by
  rw [List.getD, List.getElem?_eq_none (lp.length_maxObjective.le.trans h), Option.getD_none]

theorem LinearProgram.valueAt_range_map (lp : LinearProgram) (x : Nat → Rat) :
    lp.valueAt ((List.range lp.numVars).map x) = if lp.maximize then lp.gain x else -lp.gain x := by
  rw [valueAt, dot_range_map _ lp.numVars rfl, gain, maxObjective]
  split
  · rfl
  · simp only [getD_map_neg, neg_mul, Finset.sum_neg_distrib, neg_neg]

namespace Tableau

variable {t : Tableau} {lp : LinearProgram}

theorem plainObjective_eq (hn : lp.numVars ≤ t.width) : t.plainObjective lp =
    ⟨lp.maxObjective.map (-·) ++ List.replicate (t.width - lp.numVars) 0, 0⟩ := by
  rw [plainObjective, show t.width + 1 - lp.numVars = t.width - lp.numVars + 1 by omega,
    List.replicate_succ', ← List.append_assoc, Row.ofEntries]
  simp

theorem length_plainObjective (hn : lp.numVars ≤ t.width) :
    (t.plainObjective lp).coefficients.length = t.width := by
  rw [plainObjective_eq hn]
  simp [lp.length_maxObjective, hn]

theorem entry_plainObjective (hn : lp.numVars ≤ t.width) (j : Nat) :
    (t.plainObjective lp).entry j = -lp.maxObjective.getD j 0 := by
  rw [plainObjective_eq hn, Row.entry, Row.entries, List.append_assoc, ← List.replicate_succ',
    List.getD, List.getElem?_append, List.length_map, lp.length_maxObjective]
  split
  · exact getD_map_neg _ _
  · rename_i hj
    rw [lp.getD_maxObjective_of_le (not_lt.mp hj), List.getElem?_replicate]
    split <;> rfl

theorem rhs_plainObjective (hn : lp.numVars ≤ t.width) : (t.plainObjective lp).rhs = 0 := by
  rw [plainObjective_eq hn]

theorem residual_plainObjective (hn : lp.numVars ≤ t.width) (x : Nat → Rat) :
    (t.plainObjective lp).residual x = -lp.gain x := by
  rw [Row.residual, rhs_plainObjective hn, sub_zero, Row.lhs, length_plainObjective hn,
    LinearProgram.gain, ← Finset.sum_neg_distrib]
  have hsubset : Finset.range lp.numVars ⊆ Finset.range t.width := Finset.range_mono hn
  rw [← Finset.sum_subset hsubset]
  · exact Finset.sum_congr rfl fun j _ => by rw [entry_plainObjective hn, neg_mul]
  · intro j _ hj
    rw [entry_plainObjective hn,
      lp.getD_maxObjective_of_le (not_lt.mp fun h => hj (Finset.mem_range.mpr h)), neg_zero,
      zero_mul]

/-- Every row counts with the objective of its basic column. -/
theorem reducedObjective_eq (h : t.Rectangular) (hn : lp.numVars ≤ t.width) :
    t.reducedObjective lp =
      weighted (fun b => lp.maxObjective.getD b 0) (t.plainObjective lp) (t.basis.zip t.rows) := by
  have hweights : (fun b => lp.maxObjective.getD b 0) = fun b =>
      if b < lp.numVars ∧ lp.maxObjective.getD b 0 ≠ 0 then lp.maxObjective.getD b 0 else 0 := by
    funext b
    split
    · rfl
    · rename_i hb
      by_cases hlt : b < lp.numVars
      · exact not_not.mp fun hne => hb ⟨hlt, hne⟩
      · exact lp.getD_maxObjective_of_le (not_lt.mp hlt)
  rw [hweights, ← foldl_ite_addMultiple (fun b => b < lp.numVars ∧ lp.maxObjective.getD b 0 ≠ 0)
    (fun b => lp.maxObjective.getD b 0) (h.length_of_mem_zip (length_plainObjective hn))]
  rfl

theorem length_reducedObjective (h : t.Rectangular) (hn : lp.numVars ≤ t.width) :
    (t.reducedObjective lp).coefficients.length = t.width := by
  rw [reducedObjective_eq h hn,
    length_weighted _ (h.length_of_mem_zip (length_plainObjective hn)), length_plainObjective hn]

/-- The tableau with the reduced objective row of a program. -/
def reset (t : Tableau) (lp : LinearProgram) : Tableau :=
  { t with objective := t.reducedObjective lp }

theorem withObjective_eq (hn : lp.numVars ≤ t.width) : t.withObjective lp = .ok (t.reset lp) := by
  rw [withObjective, if_pos (Nat.le_succ_of_le hn)]
  rfl

theorem width_reset (h : t.Rectangular) (hn : lp.numVars ≤ t.width) :
    (t.reset lp).width = t.width :=
  length_reducedObjective h hn

theorem Canonical.reset (h : t.Canonical) (hn : lp.numVars ≤ t.width) :
    (t.reset lp).Canonical where
  length_row r hr := (h.length_row r hr).trans (width_reset h.toRectangular hn).symm
  length_basis := h.length_basis
  length_names := h.length_names.trans (width_reset h.toRectangular hn).symm
  basic_lt b hb := (h.basic_lt b hb).trans_eq (width_reset h.toRectangular hn).symm
  unit hr hb := h.unit hr hb
  objective_basic b hb := by
    show (t.reducedObjective lp).entry b = 0
    rw [reducedObjective_eq h.toRectangular hn,
      h.entry_weighted_basic _ (length_plainObjective hn) hb, entry_plainObjective hn]
    ring
  rhs_nonneg := h.rhs_nonneg

/-- On the solutions of the rows the new objective row stands for the objective of the program. -/
theorem residual_reset (h : t.Rectangular) (hn : lp.numVars ≤ t.width) {x : Nat → Rat}
    (hx : t.Solves x) : (t.reset lp).objective.residual x = -lp.gain x := by
  show (t.reducedObjective lp).residual x = _
  rw [reducedObjective_eq h hn,
    residual_weighted _ (h.length_of_mem_zip (length_plainObjective hn)) hx.of_mem_zip,
    residual_plainObjective hn]

end Tableau

end ExactSimplex
