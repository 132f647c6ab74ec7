import ExactSimplex.Model.Record
import ExactSimplex.Proofs.Literal
import ExactSimplex.Proofs.Phases
import ExactSimplex.Proofs.Reports

/-! Programs and the records that describe them.  A program can be written as a record if none of
its numbers is longer than the host allows.  If it has the right shape it is read back from that
record; so the record of a program that was read is a canonical form: it stays as it is when it is
read and written again, and it tells different programs apart. -/

namespace ExactSimplex

theorem Value.mapM_toRational_texts {digits : DigitLimit} {qs : List Rat}
    (h : ∀ q ∈ qs, Rational.Fits digits q) :
    (qs.map fun q => Value.text (Rational.text q)).mapM (Value.toRational digits) = .ok qs := by
  rw [List.mapM_map]
  exact (Checked.mapM_eq_ok fun q hq => Rational.parse_text_of_fits (h q hq)).trans
    (congrArg _ (List.map_id _))

theorem Relation.parse_sign (r : Relation) : parse r.sign = .ok r := by
  cases r <;> rfl

namespace LinearProgram

variable {digits : DigitLimit}

/-! ### Records that can be written -/

/-- The numbers of a program. -/
def entries (lp : LinearProgram) : List Rat :=
  lp.objective ++ (lp.constraints.flatMap (·.coefficients) ++ lp.constraints.map (·.rhs))

/-- No number of the program is longer than the host allows. -/
def Writable (digits : DigitLimit) (lp : LinearProgram) : Prop :=
  ∀ q ∈ lp.entries, Rational.Fits digits q

instance (digits : DigitLimit) (lp : LinearProgram) : Decidable (lp.Writable digits) :=
  inferInstanceAs (Decidable (∀ q ∈ lp.entries, _))

/-- Without a bound every program can be written. -/
theorem writable_off (lp : LinearProgram) : lp.Writable .off := fun q _ => Rational.fits_off q

theorem writable_iff {lp : LinearProgram} : lp.Writable digits ↔
    (∀ q ∈ lp.objective, Rational.Fits digits q) ∧
    (∀ c ∈ lp.constraints, ∀ q ∈ c.coefficients, Rational.Fits digits q) ∧
    ∀ c ∈ lp.constraints, Rational.Fits digits c.rhs := by
  simp only [Writable, entries, List.forall_mem_append, List.forall_mem_flatMap,
    List.forall_mem_map]

/-- Numbers as a list of their texts. -/
def textsOf (qs : List Rat) : Value := .list (qs.map fun q => .text (Rational.text q))

theorem numberTexts_of_fits {qs : List Rat} (h : ∀ q ∈ qs, Rational.Fits digits q) :
    numberTexts digits qs = .ok (textsOf qs) := by
  rw [numberTexts, Rational.mapM_write_of_fits h, textsOf]
  simp only [Checked.ok_bind, List.map_map, Function.comp_def]
  rfl

theorem reports_numberTexts (digits : DigitLimit) (qs : List Rat) :
    Reports (numberTexts digits qs) (digits.overlong (qs.flatMap Rational.parts)) :=
  (Rational.reports_mapM_write digits qs).map _

/-- The record of a program. -/
def record (lp : LinearProgram) : Value :=
  .record
    [("c", textsOf lp.objective), ("A", .list (lp.constraints.map fun c => textsOf c.coefficients)),
      ("b", textsOf (lp.constraints.map (·.rhs))),
      ("senses", .list (lp.constraints.map fun c => .text c.relation.sign)),
      ("maximize", .bool lp.maximize)]

theorem Writable.toValue_eq {lp : LinearProgram} (h : lp.Writable digits) :
    lp.toValue digits = .ok lp.record := by
  obtain ⟨hobjective, hrows, hrhs⟩ := writable_iff.mp h
  have hmapM : lp.constraints.mapM (fun c => numberTexts digits c.coefficients) =
      .ok (lp.constraints.map fun c => textsOf c.coefficients) :=
    Checked.mapM_eq_ok fun c hc => numberTexts_of_fits (hrows c hc)
  rw [toValue, numberTexts_of_fits hobjective, Checked.ok_bind, hmapM, Checked.ok_bind,
    numberTexts_of_fits (List.forall_mem_map.mpr hrhs), Checked.ok_bind]
  rfl

/-- Only the length of a number stands in the way of writing a program. -/
theorem reports_toValue (digits : DigitLimit) (lp : LinearProgram) :
    Reports (lp.toValue digits) (digits.overlong (lp.entries.flatMap Rational.parts)) := by
  simp only [entries, List.flatMap_append, DigitLimit.overlong_append]
  refine (reports_numberTexts digits _).bind fun _ _ => ?_
  rw [List.flatMap_assoc, DigitLimit.overlong_flatMap]
  refine (Reports.mapM (fun c : Constraint => reports_numberTexts digits c.coefficients) _).bind
    fun _ _ => ?_
  exact (reports_numberTexts digits _).map _

theorem toValue_of_not_writable {lp : LinearProgram} (h : ¬lp.Writable digits) :
    lp.toValue digits = .error .tooManyDigits :=
  (reports_toValue digits lp).error_iff_not_fits.mpr
    ⟨rfl, fun hall => h (Rational.forall_parts_flatMap_iff.mp hall)⟩

/-! ### Records that are read -/

theorem rationals_textsOf {qs : List Rat} (h : ∀ q ∈ qs, Rational.Fits digits q) :
    (textsOf qs).rationals digits = .ok qs :=
  Value.mapM_toRational_texts h

theorem ofValues_texts {c : Constraint} (hrow : ∀ q ∈ c.coefficients, Rational.Fits digits q)
    (hrhs : Rational.Fits digits c.rhs) : Constraint.ofValues digits (textsOf c.coefficients)
      (.text c.relation.sign) (.text (Rational.text c.rhs)) = .ok c := by
  simp only [Constraint.ofValues, rationals_textsOf hrow, Relation.ofValue, Relation.parse_sign,
    Value.toRational, Rational.parse_text_of_fits hrhs]
  rfl

theorem requireFields_record (lp : LinearProgram) :
    requireFields lp.record ["c", "A", "b", "senses"] = .ok () := by
  rfl

theorem addRows_texts (objective : List Rat) (maximize : Bool) (done cs : List Constraint)
    (h : ∀ c ∈ cs, c.coefficients.length = objective.length)
    (hrows : ∀ c ∈ cs, ∀ q ∈ c.coefficients, Rational.Fits digits q)
    (hrhs : ∀ c ∈ cs, Rational.Fits digits c.rhs) :
    addRows digits ⟨objective, maximize, done⟩ (cs.map fun c => textsOf c.coefficients)
      ((cs.map (·.rhs)).map fun q => .text (Rational.text q))
      (cs.map fun c => .text c.relation.sign) = .ok ⟨objective, maximize, done ++ cs⟩ := by
  induction cs generalizing done with
  | nil => rw [List.append_nil]; rfl
  | cons c cs ih =>
    have hadd : addConstraint ⟨objective, maximize, done⟩ c =
        .ok ⟨objective, maximize, done ++ [c]⟩ := if_pos (h c List.mem_cons_self)
    have hread := ofValues_texts (hrows c List.mem_cons_self) (hrhs c List.mem_cons_self)
    simp only [List.map_cons, addRows, hread]
    show (addConstraint ⟨objective, maximize, done⟩ c).bind _ = _
    rw [hadd]
    show addRows _ _ _ _ _ = _
    rw [ih _ (fun d hd => h d (List.mem_cons_of_mem c hd))
      (fun d hd => hrows d (List.mem_cons_of_mem c hd))
      (fun d hd => hrhs d (List.mem_cons_of_mem c hd)), List.append_assoc]
    rfl

theorem refuse_eq_ok {ε α β : Type} {p : Prop} [Decidable p] {e : ε} {f : β → Except ε α}
    {x : Except ε α} {a : α} : (if p then throw e >>= f else x) = .ok a ↔ ¬p ∧ x = .ok a := by
  by_cases hp : p
  · rw [if_pos hp]
    exact ⟨nofun, fun h => absurd hp h.1⟩
  · rw [if_neg hp]
    exact ⟨fun h => ⟨hp, h⟩, And.right⟩

theorem ofValue_eq_ok_iff {model : Value} {lp : LinearProgram} : ofValue digits model = .ok lp ↔
    requireFields model ["c", "A", "b", "senses"] = .ok () ∧ ∃ a rows b rhss s senses c objective,
      model.get "A" = .ok a ∧ a.items = .ok rows ∧ model.get "b" = .ok b ∧ b.items = .ok rhss ∧
      rows.length = rhss.length ∧ model.get "senses" = .ok s ∧ s.items = .ok senses ∧
      rhss.length = senses.length ∧ model.get "c" = .ok c ∧ c.rationals digits = .ok objective ∧
      addRows digits ⟨objective, senseOf model, []⟩ rows rhss senses = .ok lp := by
  simp only [ofValue, bind_eq_ok, refuse_eq_ok, ne_eq, not_not, exists_and_left, Unique.exists_iff,
    PUnit.default_eq_unit]

/-- A program of the right shape is read back from its record. -/
theorem ofValue_record {lp : LinearProgram} (hw : lp.WellShaped) (h : lp.Writable digits) :
    ofValue digits lp.record = .ok lp := by
  obtain ⟨hobjective, hcoefficients, hrhs⟩ := writable_iff.mp h
  have hrows := addRows_texts lp.objective lp.maximize [] lp.constraints hw hcoefficients hrhs
  exact ofValue_eq_ok_iff.mpr ⟨requireFields_record lp, _, _, _, _, _, _, _, _, rfl, rfl, rfl, rfl,
    by simp, rfl, rfl, by simp, rfl, rationals_textsOf hobjective, hrows⟩

theorem WellShaped.addRows {lp result : LinearProgram} (hw : lp.WellShaped)
    {rows rhss senses : List Value} (h : lp.addRows digits rows rhss senses = .ok result) :
    result.WellShaped := by
  fun_induction LinearProgram.addRows digits lp rows rhss senses with
  | case1 lp row rows rhs rhss sense senses ih =>
    simp only [bind_eq_ok] at h
    obtain ⟨c, -, extended, hadd, h⟩ := h
    exact ih extended (hw.addConstraint hadd) h
  | case2 =>
    cases h
    exact hw

theorem wellShaped_of_ofValue {model : Value} {lp : LinearProgram}
    (h : ofValue digits model = .ok lp) : lp.WellShaped := by
  obtain ⟨-, _, _, _, _, _, _, _, objective, -, -, -, -, -, -, -, -, -, -, hrows⟩ :=
    ofValue_eq_ok_iff.mp h
  have hempty : WellShaped ⟨objective, senseOf model, []⟩ := fun c hc => absurd hc List.not_mem_nil
  exact hempty.addRows hrows

/-! ### Canonical records -/

theorem toValue_inj {lp lp' : LinearProgram} (hw : lp.WellShaped) (hw' : lp'.WellShaped)
    (h : lp.Writable digits) : lp.toValue digits = lp'.toValue digits ↔ lp = lp' := by
  refine ⟨fun heq => ?_, congrArg _⟩
  rw [h.toValue_eq] at heq
  by_cases h' : lp'.Writable digits
  · rw [h'.toValue_eq, Except.ok.injEq] at heq
    have hback := ofValue_record hw h
    rw [heq, ofValue_record hw' h'] at hback
    exact (Except.ok.inj hback).symm
  · rw [toValue_of_not_writable h'] at heq
    cases heq

/-- A record in another order, with blanks, words, a number that is not reduced and a sense that is
no truth value. -/
def worded : Value :=
  .record
    [("b", .list [.text " -3 / -6 "]), ("A", .list [.list [.int 1, .text "0/-5"]]),
      ("c", .list [.text "+6/4", .bool true]), ("senses", .list [.text " Ge"]),
      ("maximize", .int 0)]

/-- A program with a number of 4301 digits. -/
def long : LinearProgram := ⟨[(Nat.pow 10 4300 : Nat)], true, []⟩

end LinearProgram

end ExactSimplex
