import ExactSimplex.Proofs.Basis
import ExactSimplex.Proofs.Form

/-! Objective rows computed afresh.  The pivots update the objective row, and it stays the row that
the present basis and rows would give if it were computed from the beginning: both are zero in the
basic columns and measure the same, and only one row does.  A row of the second phase whose basic
column was dropped counts in neither. -/

namespace ExactSimplex

namespace Tableau

variable {t full : Tableau} {lp : LinearProgram} {i b : Nat}

/-- The rows in which an artificial variable is basic. -/
def artificialRows (t : Tableau) (lp : LinearProgram) : List Row :=
  ((t.basis.zip t.rows).filter fun p => lp.firstArtificial ≤ p.1).map Prod.snd

/-- The rows in which a variable of the program is basic, each with that variable. -/
def variableRows (t : Tableau) (lp : LinearProgram) : List (Nat × Row) :=
  (t.basis.zip t.rows).filter fun p => p.1 < lp.numVars

/-- The tableau with the objective row of the first phase computed afresh. -/
def restart (t : Tableau) (lp : LinearProgram) : Tableau :=
  { t with objective := artificialObjective lp.firstArtificial lp.artificialCount t.basis t.rows }

/-- The objective row is the indicator of the artificial columns less the rows in which one of them
is basic. -/
structure ArtificialForm (lp : LinearProgram) (t : Tableau) : Prop where
  objective_eq : t.objective =
    artificialObjective lp.firstArtificial lp.artificialCount t.basis t.rows
  entry_eq : ∀ j < t.width, t.objective.entry j =
    (if lp.firstArtificial ≤ j then 1 else 0) - ((t.artificialRows lp).map (·.entry j)).sum
  value_eq : t.value = -((t.artificialRows lp).map Row.rhs).sum

/-- The objective row is the negated objective of the program plus the rows in which one of its
variables is basic, each as often as the objective says. -/
structure ReducedForm (lp : LinearProgram) (t : Tableau) : Prop where
  objective_eq : t.objective = t.reducedObjective lp
  /-- To compute the objective row once more changes nothing. -/
  withObjective_eq : t.withObjective lp = .ok t
  entry_eq : ∀ j, t.objective.entry j = -lp.maxObjective.getD j 0 +
    ((t.variableRows lp).map fun p => lp.maxObjective.getD p.1 0 * p.2.entry j).sum
  value_eq : t.value =
    ((t.variableRows lp).map fun p => lp.maxObjective.getD p.1 0 * p.2.rhs).sum
  /-- A row whose basic column was dropped never counts: any row may stand in its place. -/
  dropped : ∀ {i b : Nat}, t.basis[i]? = some b → t.width ≤ b → ∀ q,
    { t with rows := t.rows.set i q }.reducedObjective lp = t.objective

/-- A sum in which only some items have a weight. -/
theorem sum_map_ite_mul {α : Type} (P : α → Prop) [DecidablePred P] (w f : α → Rat)
    (ps : List α) : (ps.map fun p => (if P p then w p else 0) * f p).sum =
      ((ps.filter P).map fun p => w p * f p).sum := by
  simp only [ite_mul, zero_mul, List.sum_map_ite, List.sum_map_zero, add_zero]

theorem sum_artificialRows (t : Tableau) (lp : LinearProgram) (f : Row → Rat) :
    ((t.basis.zip t.rows).map fun p => (if lp.firstArtificial ≤ p.1 then -1 else 0) * f p.2).sum =
      -((t.artificialRows lp).map f).sum := by
  rw [sum_map_ite_mul (fun p : Nat × Row => lp.firstArtificial ≤ p.1) (fun _ => -1)
    (fun p => f p.2), List.sum_map_mul_left, neg_one_mul, artificialRows, List.map_map]
  rfl

theorem sum_variableRows (t : Tableau) (lp : LinearProgram) (f : Row → Rat) :
    ((t.basis.zip t.rows).map fun p => lp.maxObjective.getD p.1 0 * f p.2).sum =
      ((t.variableRows lp).map fun p => lp.maxObjective.getD p.1 0 * f p.2).sum := by
  rw [variableRows, ← sum_map_ite_mul (fun p : Nat × Row => p.1 < lp.numVars)
    (fun p => lp.maxObjective.getD p.1 0) (fun p => f p.2)]
  refine congrArg List.sum (List.map_congr_left fun p _ => ?_)
  split
  · rfl
  · rename_i hp
    rw [lp.getD_maxObjective_of_le (not_lt.mp hp)]

/-! ### The first phase -/

section First

variable (hw : t.width = lp.firstArtificial + lp.artificialCount)
include hw

theorem width_restart (h : t.Rectangular) : (t.restart lp).width = t.width :=
  (length_artificialObjective (h.length_of_mem_zip_artificial hw)).trans hw.symm

theorem Canonical.restart (h : t.Canonical) : (t.restart lp).Canonical where
  length_row r hr := (h.length_row r hr).trans (width_restart hw h.toRectangular).symm
  length_basis := h.length_basis
  length_names := h.length_names.trans (width_restart hw h.toRectangular).symm
  basic_lt b hb := (h.basic_lt b hb).trans_eq (width_restart hw h.toRectangular).symm
  unit hr hb := h.unit hr hb
  objective_basic _ hb := h.entry_artificialObjective_basic hw hb
  rhs_nonneg := h.rhs_nonneg

theorem Rectangular.artificialForm (h : t.Rectangular)
    (ho : t.objective = artificialObjective lp.firstArtificial lp.artificialCount t.basis t.rows) :
    t.ArtificialForm lp where
  objective_eq := ho
  entry_eq j hj := by
    rw [ho, artificialObjective_eq (h.length_of_mem_zip_artificial hw),
      entry_weighted _ (h.length_of_mem_zip_artificial hw), entry_artificialRow (hw ▸ hj),
      t.sum_artificialRows lp (·.entry j), sub_eq_add_neg]
  value_eq := by
    rw [value, ho, artificialObjective_eq (h.length_of_mem_zip_artificial hw), rhs_weighted,
      t.sum_artificialRows lp Row.rhs]
    exact zero_add _

end First

/-- The row computed afresh measures the sum of the artificial variables as well. -/
theorem InPhase.restart (hw : lp.WellShaped) (h : InPhase lp .first t t) :
    InPhase lp .first (t.restart lp) (t.restart lp) := by
  have hwidth := h.width_eq hw
  have hrectangular := h.represents.toRectangular
  have hrepresents : (t.restart lp).Represents lp :=
    { h.represents.toCanonical.restart hwidth with
      width_eq := (width_restart hwidth hrectangular).trans h.represents.width_eq
      solves_iff := h.represents.solves_iff }
  refine ⟨⟨hrepresents, h.length_rows, (hrepresents.truncate_columns_first hw).symm⟩, ?_⟩
  intro x hx
  have hresidual := hrectangular.residual_artificialObjective hwidth hx
  rw [h.represents.width_eq] at hresidual
  exact hresidual

theorem InPhase.artificialForm (hw : lp.WellShaped) (h : InPhase lp .first t t) :
    t.ArtificialForm lp :=
  h.represents.toRectangular.artificialForm (h.width_eq hw)
    (h.eq_of_basis_eq (h.restart hw) rfl).2

/-! ### The second phase -/

theorem foldl_zip_set {α β γ : Type} {f : γ → α × β → γ} {as : List α} {bs : List β} {a : α}
    (ha : as[i]? = some a) (hf : ∀ c b, f c (a, b) = c) (b : β) (c : γ) :
    (as.zip (bs.set i b)).foldl f c = (as.zip bs).foldl f c := by
  induction as generalizing bs i c with
  | nil => cases ha
  | cons a' as ih =>
    cases bs with
    | nil => rfl
    | cons b' bs =>
      cases i with
      | zero =>
        cases ha
        rw [List.set_cons_zero, List.zip_cons_cons, List.zip_cons_cons, List.foldl_cons,
          List.foldl_cons, hf, hf]
      | succ i =>
        rw [List.set_cons_succ, List.zip_cons_cons, List.zip_cons_cons, List.foldl_cons,
          List.foldl_cons]
        exact ih ha _

/-- The rows in which no variable of the program is basic do not count. -/
theorem reducedObjective_set (hb : t.basis[i]? = some b) (hle : lp.numVars ≤ b) (q : Row) :
    { t with rows := t.rows.set i q }.reducedObjective lp = t.reducedObjective lp := by
  refine foldl_zip_set hb (fun z r => if_neg ?_) q _
  rintro ⟨hlt, -⟩
  exact not_le.mpr hlt hle

theorem Rectangular.reducedForm (h : t.Rectangular) (hn : lp.numVars ≤ t.width)
    (ho : t.objective = t.reducedObjective lp) : t.ReducedForm lp where
  objective_eq := ho
  withObjective_eq := by
    rw [withObjective_eq hn, Tableau.reset, ← ho]
  entry_eq j := by
    rw [ho, reducedObjective_eq h hn,
      entry_weighted _ (h.length_of_mem_zip (length_plainObjective hn)), entry_plainObjective hn,
      t.sum_variableRows lp (·.entry j)]
  value_eq := by
    rw [value, ho, reducedObjective_eq h hn, rhs_weighted, rhs_plainObjective hn, zero_add,
      t.sum_variableRows lp Row.rhs]
  dropped hb hle q := (reducedObjective_set hb (hn.trans hle) q).trans ho.symm

theorem InPhase.reducedForm (hw : lp.WellShaped) (h : InPhase lp .second full t) :
    t.ReducedForm lp := by
  have hn : lp.numVars ≤ t.width := by
    rw [h.width_eq hw]
    exact Nat.le_add_right _ _
  have hreset : InPhase lp .second (full.reset lp) (t.reset lp) := by
    rw [h.eq_truncate]
    exact h.toCutFrom.reset hw
  exact (h.toCutFrom.inForm hw).rectangular.reducedForm hn (h.eq_of_basis_eq hreset rfl).2

end Tableau

namespace LinearProgram

variable {lp : LinearProgram} {limit : Int} {phase : Phase} {s t : Tableau} {k : Nat}

/-- After any pivots of a phase the objective row is the one computed afresh, and it is a sum over
the rows in which an artificial variable is basic, in the first phase, or a variable of the program,
in the second. -/
theorem objective_afresh (hs : lp.Begins limit phase s) (ht : s.after k = some t) :
    (phase = .first → t.ArtificialForm lp) ∧ (phase = .second → t.ReducedForm lp) := by
  have hw := hs.wellShaped
  obtain ⟨full, hphase⟩ := hs.inPhase_after ht
  constructor
  · rintro rfl
    obtain rfl := hphase.eq_of_first hw
    exact hphase.artificialForm hw
  · rintro rfl
    exact hphase.reducedForm hw

/-- The row that keeps the dropped column three has no part in the objective row. -/
theorem objective_afresh_displaced : ∃ s t, displaced.Begins 200 .second s ∧
    s.after 1 = some t ∧ t.basis = [3, 0] ∧ t.width = 3 ∧ t.withObjective displaced = .ok t ∧
      t.objective.entry 1 = -0 + 1 * 1 ∧
      ∀ q, { t with rows := t.rows.set 0 q }.reducedObjective displaced = t.objective := by
  obtain ⟨s, t, hs, -, ht, hrows, hbasis, -⟩ := exists_after_displaced
  have hform := (objective_afresh hs ht).2 rfl
  obtain ⟨full, hphase⟩ := hs.inPhase_after ht
  have hwidth : t.width = 3 := (hphase.width_eq hs.wellShaped).trans (by decide)
  have hthree : t.basis[0]? = some 3 := by rw [hbasis]; rfl
  refine ⟨s, t, hs, ht, hbasis, hwidth, hform.withObjective_eq, ?_, hform.dropped hthree hwidth.le⟩
  rw [hform.entry_eq, Tableau.variableRows, hbasis, hrows]
  decide +kernel

end LinearProgram

end ExactSimplex
