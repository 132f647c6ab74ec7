import ExactSimplex.Proofs.RoundTrip
import ExactSimplex.Proofs.Words

/-! Models as sheets: a record that holds the objective, the rows, the right-hand sides and the
relations as lists, with any values for entries.  All that can be wrong with a sheet is listed in
one order: missing fields, numbers of rows, entries of the objective, and then row by row the
coefficients, the relation, the right-hand side and the length of the row.  A sheet with which
nothing is wrong is read as the program that it shows; for any other, the error is the first of the
list. -/

namespace ExactSimplex

open LinearProgram (bind_eq_ok)

variable {digits : DigitLimit}

/-! ### Entries -/

/-- The results of a pass stand entry by entry beside what they were computed from. -/
theorem mapM_eq_ok_iff_forall₂ {α β : Type} {f : α → Except Error β} {l : List α} {m : List β} :
    l.mapM f = .ok m ↔ List.Forall₂ (fun a b => f a = .ok b) l m := by
  induction l generalizing m with
  | nil => simp [Pure.pure, Except.pure, eq_comm]
  | cons a l ih =>
    simp only [List.mapM_cons, bind_eq_ok, ih, List.forall₂_cons_left_iff, Pure.pure, Except.pure,
      Except.ok.injEq]
    constructor
    · rintro ⟨b, hb, bs, hbs, rfl⟩
      exact ⟨b, bs, hb, hbs, rfl⟩
    · rintro ⟨b, bs, hb, hbs, rfl⟩
      exact ⟨b, hb, bs, hbs, rfl⟩

namespace Value

/-- A value stands for a number that can be read. -/
def Accepted (digits : DigitLimit) (v : Value) : Prop := ∃ q, v.toRational digits = .ok q

/-- The errors of a value as a number: none or one. -/
def refusals (digits : DigitLimit) (v : Value) : List Error :=
  match v.toRational digits with
  | .ok _ => []
  | .error e => [e]

theorem reports_toRational (v : Value) : Reports (v.toRational digits) (v.refusals digits) := by
  rw [refusals]
  cases v.toRational digits with
  | ok q => rfl
  | error e => rfl

theorem refusals_eq_nil_iff {v : Value} : v.refusals digits = [] ↔ v.Accepted digits :=
  v.reports_toRational.exists_ok_iff.symm

variable {fields : List (Text × Value)} {key : Text}

theorem has_record : has key (.record fields) = .ok (fields.lookup key).isSome := by
  rw [has]
  induction fields with
  | nil => rfl
  | cons field fields ih =>
    rw [Except.ok.injEq] at ih ⊢
    rw [List.any_cons, List.lookup_cons, ih]
    by_cases hkey : key = field.1
    · simp [hkey]
    · simp [Ne.symm hkey, beq_eq_false_iff_ne.mpr hkey]

theorem get_record {v : Value} (h : fields.lookup key = some v) :
    get key (.record fields) = .ok v := by
  rw [get, h]

end Value

/-! ### Sheets -/

/-- A model as its record shows it.  Each of the fields may be missing. -/
structure Sheet where
  objective : Option (List Value)
  rows : Option (List (List Value))
  rhs : Option (List Value)
  senses : Option (List Value)
  maximize : Option Value

/-- The constraint that a row, a relation and a right-hand side show. -/
structure Constraint.ReadFrom (digits : DigitLimit) (c : Constraint) (row : List Value)
    (sense rhs : Value) : Prop where
  coefficients : List.Forall₂ (fun v q => v.toRational digits = .ok q) row c.coefficients
  relation : Relation.Names sense c.relation
  rhs : rhs.toRational digits = .ok c.rhs

namespace Sheet

/-- A record holds a sheet in its fields, whatever else it holds. -/
structure LaidOut (s : Sheet) (fields : List (Text × Value)) : Prop where
  objective : fields.lookup (Text.ofString "c") = s.objective.map .list
  rows : fields.lookup (Text.ofString "A") = s.rows.map fun rows => .list (rows.map .list)
  rhs : fields.lookup (Text.ofString "b") = s.rhs.map .list
  senses : fields.lookup (Text.ofString "senses") = s.senses.map .list
  maximize : fields.lookup (Text.ofString "maximize") = s.maximize

/-- Nothing is wrong with a sheet. -/
def Acceptable (digits : DigitLimit) (s : Sheet) : Prop :=
  ∃ objective rows rhs senses, s.objective = some objective ∧ s.rows = some rows ∧
    s.rhs = some rhs ∧ s.senses = some senses ∧
    rows.length = rhs.length ∧ rhs.length = senses.length ∧
    (∀ v ∈ objective, v.Accepted digits) ∧ (∀ row ∈ rows, ∀ v ∈ row, v.Accepted digits) ∧
    (∀ v ∈ rhs, v.Accepted digits) ∧ (∀ v ∈ senses, ∃ r, Relation.Names v r) ∧
    ∀ row ∈ rows, row.length = objective.length

/-- The program that a sheet shows, its constraints in the order of the rows. -/
structure Shows (digits : DigitLimit) (s : Sheet) (lp : LinearProgram) : Prop where
  objective : ∃ objective, s.objective = some objective ∧
    List.Forall₂ (fun v q => v.toRational digits = .ok q) objective lp.objective
  maximize : lp.maximize = (s.maximize.map Value.isTruthy).getD true
  maxObjective : lp.maxObjective = if lp.maximize then lp.objective else lp.objective.map (-·)
  constraints : ∃ rows rhs senses, s.rows = some rows ∧ s.rhs = some rhs ∧ s.senses = some senses ∧
    lp.constraints.length = rows.length ∧
    ∀ (i : Nat) row sense b, rows[i]? = some row → senses[i]? = some sense → rhs[i]? = some b →
      ∃ c : Constraint, lp.constraints[i]? = some c ∧ c.ReadFrom digits row sense b ∧
        c.coefficients.length = lp.numVars

/-! ### What can be wrong with a sheet -/

/-- The error for a field that is missing. -/
def absent {α : Type} (name : String) (field : Option α) : List Error :=
  if field.isSome then [] else [.missingField name]

/-- The fields that are missing, in the order in which they are looked for. -/
def missing (s : Sheet) : List Error :=
  absent "c" s.objective ++ (absent "A" s.rows ++ (absent "b" s.rhs ++ absent "senses" s.senses))

/-- The rows with their relations and right-hand sides, as far as there are all three. -/
def lines (s : Sheet) : List (List Value × Value × Value) :=
  (s.rows.getD []).zip ((s.senses.getD []).zip (s.rhs.getD []))

/-- The error for rows, relations and right-hand sides that are not equally many. -/
def uneven (s : Sheet) : List Error :=
  if (s.rows.getD []).length = (s.rhs.getD []).length ∧
    (s.rhs.getD []).length = (s.senses.getD []).length then [] else [.unequalLengths]

/-- What is wrong with a row of a program in `n` variables: its coefficients, its relation, its
right-hand side, its length. -/
def lineViolations (digits : DigitLimit) (n : Nat) (line : List Value × Value × Value) :
    List Error :=
  line.1.flatMap (Value.refusals digits) ++ (Relation.refusals digits line.2.1 ++
    (line.2.2.refusals digits ++ if line.1.length = n then [] else [.rowLength line.1.length n]))

/-- All that is wrong with a sheet, in the order in which it is looked for. -/
def violations (digits : DigitLimit) (s : Sheet) : List Error :=
  s.missing ++ (s.uneven ++ ((s.objective.getD []).flatMap (Value.refusals digits) ++
    s.lines.flatMap (lineViolations digits (s.objective.getD []).length)))

end Sheet

/-! ### The reader -/

namespace LinearProgram

open Sheet

theorem reports_ofValues (digits : DigitLimit) (row : List Value) (sense rhs : Value) :
    Reports (Constraint.ofValues digits (.list row) sense rhs)
      (row.flatMap (Value.refusals digits) ++
        (Relation.refusals digits sense ++ rhs.refusals digits)) := by
  refine (Reports.mapM Value.reports_toRational row).bind fun coefficients _ => ?_
  refine (Relation.reports_ofValue digits sense).bind fun relation _ => ?_
  rw [← List.append_nil (rhs.refusals digits)]
  exact rhs.reports_toRational.bind fun q _ => rfl

theorem ofValues_eq_ok_iff {row : List Value} {sense rhs : Value} {c : Constraint} :
    Constraint.ofValues digits (.list row) sense rhs = .ok c ↔ c.ReadFrom digits row sense rhs := by
  obtain ⟨coefficients, relation, q⟩ := c
  show (row.mapM (Value.toRational digits) >>= fun _ => _) = _ ↔ _
  simp only [bind_eq_ok, mapM_eq_ok_iff_forall₂, Relation.ofValue_eq_ok_iff, pure, Except.pure,
    Except.ok.injEq, Constraint.mk.injEq]
  constructor
  · rintro ⟨_, hcoefficients, _, hrelation, _, hrhs, rfl, rfl, rfl⟩
    exact ⟨hcoefficients, hrelation, hrhs⟩
  · rintro ⟨hcoefficients, hrelation, hrhs⟩
    exact ⟨_, hcoefficients, _, hrelation, _, hrhs, rfl, rfl, rfl⟩

theorem reports_addConstraint (lp : LinearProgram) (c : Constraint) :
    Reports (lp.addConstraint c) (if c.coefficients.length = lp.numVars then []
      else [.rowLength c.coefficients.length lp.numVars]) := by
  rw [addConstraint]
  split <;> rfl

theorem addConstraint_eq_ok_iff {lp next : LinearProgram} {c : Constraint} :
    lp.addConstraint c = .ok next ↔ c.coefficients.length = lp.numVars ∧
      next = { lp with constraints := lp.constraints ++ [c] } := by
  by_cases hlength : c.coefficients.length = lp.numVars
  · rw [addConstraint, if_pos hlength, Except.ok.injEq]
    exact ⟨fun h => ⟨hlength, h.symm⟩, fun h => h.2.symm⟩
  · rw [addConstraint, if_neg hlength]
    exact ⟨nofun, fun h => absurd h.1 hlength⟩

theorem reports_addRows (digits : DigitLimit) (lp : LinearProgram) (rows : List (List Value))
    (rhs senses : List Value) : Reports (lp.addRows digits (rows.map .list) rhs senses)
      ((rows.zip (senses.zip rhs)).flatMap (lineViolations digits lp.numVars)) := by
  induction rows generalizing lp rhs senses with
  | nil => rfl
  | cons row rows ih =>
    cases rhs with
    | nil =>
      rw [List.zip_nil_right, List.zip_nil_right]
      rfl
    | cons b rhs =>
      cases senses with
      | nil => rfl
      | cons sense senses =>
        have hline : Reports
            (lp.addRows digits ((row :: rows).map .list) (b :: rhs) (sense :: senses))
            ((row.flatMap (Value.refusals digits) ++
              (Relation.refusals digits sense ++ b.refusals digits)) ++
              ((if row.length = lp.numVars then [] else [.rowLength row.length lp.numVars]) ++
                (rows.zip (senses.zip rhs)).flatMap (lineViolations digits lp.numVars))) := by
          refine (reports_ofValues digits row sense b).bind fun c hc => ?_
          have hlength := (ofValues_eq_ok_iff.mp hc).coefficients.length_eq
          rw [hlength]
          refine (reports_addConstraint lp c).bind fun next hnext => ?_
          obtain ⟨-, rfl⟩ := addConstraint_eq_ok_iff.mp hnext
          exact ih { lp with constraints := lp.constraints ++ [c] } rhs senses
        simpa only [List.zip_cons_cons, List.flatMap_cons, lineViolations, List.append_assoc]
          using hline

/-- The constraints that are added are those of the rows, in their order. -/
theorem addRows_spec {lp result : LinearProgram} {rows : List (List Value)}
    {rhs senses : List Value} (hrhs : rows.length = rhs.length)
    (hsenses : rhs.length = senses.length)
    (h : lp.addRows digits (rows.map .list) rhs senses = .ok result) :
    ∃ cs, result = { lp with constraints := lp.constraints ++ cs } ∧
      List.Forall₂ (fun line c => Constraint.ReadFrom digits c line.1 line.2.1 line.2.2 ∧
        c.coefficients.length = lp.numVars) (rows.zip (senses.zip rhs)) cs := by
  induction rows generalizing lp rhs senses with
  | nil =>
    cases h
    exact ⟨[], by rw [List.append_nil], .nil⟩
  | cons row rows ih =>
    obtain ⟨b, rhs, rfl⟩ := List.exists_cons_of_length_eq_add_one hrhs.symm
    obtain ⟨sense, senses, rfl⟩ := List.exists_cons_of_length_eq_add_one hsenses.symm
    rw [List.map_cons, addRows, bind_eq_ok] at h
    obtain ⟨c, hc, h⟩ := h
    rw [bind_eq_ok] at h
    obtain ⟨next, hnext, h⟩ := h
    obtain ⟨hlength, rfl⟩ := addConstraint_eq_ok_iff.mp hnext
    obtain ⟨cs, rfl, hcs⟩ := ih (Nat.succ.inj hrhs) (Nat.succ.inj hsenses) h
    refine ⟨c :: cs, by rw [List.append_assoc]; rfl, ?_⟩
    exact .cons ⟨ofValues_eq_ok_iff.mp hc, hlength⟩ hcs

theorem reports_requireFields (fields : List (Text × Value)) (names : List String) :
    Reports (requireFields (.record fields) names)
      (names.flatMap fun name => absent name (fields.lookup (Text.ofString name))) := by
  induction names with
  | nil => rfl
  | cons name names ih =>
    rw [requireFields, Value.has_record, List.flatMap_cons, absent]
    show Reports (if (fields.lookup (Text.ofString name)).isSome = true then _ else _) _
    split
    · exact ih
    · rfl

end LinearProgram

namespace Sheet

variable {s : Sheet} {fields : List (Text × Value)} {lp : LinearProgram}

theorem absent_eq_nil_iff {α : Type} {name : String} {field : Option α} :
    absent name field = [] ↔ ∃ a, field = some a := by
  cases field with
  | none => exact ⟨nofun, nofun⟩
  | some a => exact ⟨fun _ => ⟨a, rfl⟩, fun _ => rfl⟩

theorem absent_map {α β : Type} (name : String) (field : Option α) (f : α → β) :
    absent name (field.map f) = absent name field := by
  cases field <;> rfl

/-- With no field missing a sheet has all four. -/
theorem missing_eq_nil_iff : s.missing = [] ↔ ∃ objective rows rhs senses,
    s.objective = some objective ∧ s.rows = some rows ∧ s.rhs = some rhs ∧
      s.senses = some senses := by
  simp only [missing, List.append_eq_nil_iff, absent_eq_nil_iff]
  constructor
  · rintro ⟨⟨objective, ho⟩, ⟨rows, hr⟩, ⟨rhs, hb⟩, senses, hs⟩
    exact ⟨objective, rows, rhs, senses, ho, hr, hb, hs⟩
  · rintro ⟨objective, rows, rhs, senses, ho, hr, hb, hs⟩
    exact ⟨⟨objective, ho⟩, ⟨rows, hr⟩, ⟨rhs, hb⟩, senses, hs⟩

theorem LaidOut.reports_missing (h : s.LaidOut fields) :
    Reports (LinearProgram.requireFields (.record fields) ["c", "A", "b", "senses"]) s.missing := by
  have hreport := LinearProgram.reports_requireFields fields ["c", "A", "b", "senses"]
  simpa only [missing, List.flatMap_cons, List.flatMap_nil, List.append_nil, h.objective, h.rows,
    h.rhs, h.senses, absent_map] using hreport

theorem LaidOut.senseOf (h : s.LaidOut fields) : LinearProgram.senseOf (.record fields) =
    (s.maximize.map Value.isTruthy).getD true := by
  rw [LinearProgram.senseOf, Value.get]
  rw [h.maximize]
  cases s.maximize <;> rfl

/-- The reader, once no field is missing. -/
theorem LaidOut.ofValue_eq (h : s.LaidOut fields)
    (hpresent : LinearProgram.requireFields (.record fields) ["c", "A", "b", "senses"] = .ok ())
    {objective : List Value} {rows : List (List Value)} {rhs senses : List Value}
    (ho : s.objective = some objective) (hr : s.rows = some rows) (hb : s.rhs = some rhs)
    (hs : s.senses = some senses) : LinearProgram.ofValue digits (.record fields) =
      if rows.length = rhs.length ∧ rhs.length = senses.length then
        objective.mapM (Value.toRational digits) >>= fun objective =>
          LinearProgram.addRows digits ⟨objective, (s.maximize.map Value.isTruthy).getD true, []⟩
            (rows.map .list) rhs senses
      else .error .unequalLengths := by
  have hgetc := Value.get_record (h.objective.trans (congrArg (Option.map Value.list) ho))
  have hgetA := Value.get_record (h.rows.trans (congrArg (Option.map _) hr))
  have hgetb := Value.get_record (h.rhs.trans (congrArg (Option.map Value.list) hb))
  have hgets := Value.get_record (h.senses.trans (congrArg (Option.map Value.list) hs))
  rw [LinearProgram.ofValue, hpresent]
  simp only [hgetc, hgetA, hgetb, hgets, h.senseOf, Value.items, Checked.ok_bind, List.length_map]
  by_cases hrows : rows.length = rhs.length
  · by_cases hsenses : rhs.length = senses.length
    · rw [if_neg (not_not.mpr hrows), if_neg (not_not.mpr hsenses), if_pos ⟨hrows, hsenses⟩]
      rfl
    · rw [if_neg (not_not.mpr hrows), if_pos hsenses, if_neg fun hboth => hsenses hboth.2]
      rfl
  · have hnot : ¬(rows.length = rhs.length ∧ rhs.length = senses.length) := fun h => hrows h.1
    rw [if_pos hrows, if_neg hnot]
    rfl

/-- The reader reports what is wrong with a sheet. -/
theorem LaidOut.reports_ofValue (h : s.LaidOut fields) :
    Reports (LinearProgram.ofValue digits (.record fields)) (s.violations digits) := by
  cases hpresent : LinearProgram.requireFields (.record fields) ["c", "A", "b", "senses"] with
  | error e =>
    have hhead := h.reports_missing.error_iff.mp hpresent
    rw [LinearProgram.ofValue, hpresent]
    exact List.mem_head?_append_of_mem_head? hhead
  | ok =>
    have hmissing : s.missing = [] := h.reports_missing.exists_ok_iff.mp ⟨(), hpresent⟩
    obtain ⟨objective, rows, rhs, senses, ho, hr, hb, hs⟩ := missing_eq_nil_iff.mp hmissing
    rw [h.ofValue_eq hpresent ho hr hb hs, violations, hmissing, uneven, lines]
    simp only [ho, hr, hb, hs, Option.getD_some, List.nil_append]
    split
    · refine (Reports.mapM Value.reports_toRational objective).bind fun coefficients hc => ?_
      rw [(mapM_eq_ok_iff_forall₂.mp hc).length_eq]
      exact LinearProgram.reports_addRows digits ⟨coefficients, _, []⟩ rows rhs senses
    · rfl

theorem lineViolations_eq_nil_iff {n : Nat} {line : List Value × Value × Value} :
    lineViolations digits n line = [] ↔ ((∀ v ∈ line.1, v.Accepted digits) ∧ line.1.length = n) ∧
      (∃ r, Relation.Names line.2.1 r) ∧ line.2.2.Accepted digits := by
  have hlength : (if line.1.length = n then [] else [Error.rowLength line.1.length n]) = [] ↔
      line.1.length = n := by
    rw [ite_eq_left_iff]
    exact ⟨fun h => by_contra fun hne => List.cons_ne_nil _ _ (h hne), fun h hne => absurd h hne⟩
  simp only [lineViolations, List.append_eq_nil_iff, List.flatMap_eq_nil_iff,
    Value.refusals_eq_nil_iff, Relation.refusals_eq_nil_iff, hlength]
  tauto

/-- What holds of all lines holds of all rows, relations and right-hand sides, when there are
equally many. -/
theorem forall_lines_iff {rows : List (List Value)} {rhs senses : List Value}
    (hrhs : rows.length = rhs.length) (hsenses : rhs.length = senses.length)
    {P : List Value → Prop} {Q R : Value → Prop} :
    (∀ line ∈ rows.zip (senses.zip rhs), P line.1 ∧ Q line.2.1 ∧ R line.2.2) ↔
      (∀ row ∈ rows, P row) ∧ (∀ v ∈ senses, Q v) ∧ ∀ v ∈ rhs, R v := by
  have hinner : (senses.zip rhs).length = rhs.length := by rw [List.length_zip]; omega
  have hr : (rows.zip (senses.zip rhs)).map (·.1) = rows := List.map_fst_zip (by omega)
  have hpairs : (rows.zip (senses.zip rhs)).map (·.2) = senses.zip rhs :=
    List.map_snd_zip (by omega)
  have hs : (senses.zip rhs).map (·.1) = senses := List.map_fst_zip (by omega)
  have hb : (senses.zip rhs).map (·.2) = rhs := List.map_snd_zip (by omega)
  generalize rows.zip (senses.zip rhs) = lines at hr hpairs ⊢
  rw [← hpairs, List.map_map] at hs hb
  subst hr hs hb
  simp only [List.forall_mem_map, Function.comp_apply, forall_and]

/-- A sheet of which nothing wrong is listed is one with which nothing is wrong. -/
theorem violations_eq_nil_iff : s.violations digits = [] ↔ s.Acceptable digits := by
  have hpresent : s.Acceptable digits → s.missing = [] := fun ⟨_, _, _, _, ho, hr, hb, hs, _⟩ =>
    missing_eq_nil_iff.mpr ⟨_, _, _, _, ho, hr, hb, hs⟩
  by_cases hmissing : s.missing = []
  · obtain ⟨objective, rows, rhs, senses, ho, hr, hb, hs⟩ := missing_eq_nil_iff.mp hmissing
    simp only [violations, uneven, lines, Acceptable, hmissing, ho, hr, hb, hs, Option.getD_some,
      Option.some.injEq, List.nil_append, List.append_eq_nil_iff, List.flatMap_eq_nil_iff,
      Value.refusals_eq_nil_iff, lineViolations_eq_nil_iff, exists_and_left, exists_eq_left']
    by_cases hlengths : rows.length = rhs.length ∧ rhs.length = senses.length
    · have hlines := forall_lines_iff hlengths.1 hlengths.2
        (P := fun row => (∀ v ∈ row, v.Accepted digits) ∧ row.length = objective.length)
        (Q := fun v => ∃ r, Relation.Names v r) (R := Value.Accepted digits)
      rw [if_pos hlengths, hlines]
      simp only [forall_and]
      tauto
    · rw [if_neg hlengths]
      exact ⟨nofun, fun h => absurd ⟨h.1, h.2.1⟩ hlengths⟩
  · refine ⟨fun h => ?_, fun h => absurd (hpresent h) hmissing⟩
    rw [violations, List.append_eq_nil_iff] at h
    exact absurd h.1 hmissing

/-- A sheet that is read is read as the program that it shows. -/
theorem LaidOut.shows (h : s.LaidOut fields)
    (hread : LinearProgram.ofValue digits (.record fields) = .ok lp) : s.Shows digits lp := by
  have hnone := h.reports_ofValue.exists_ok_iff.mp ⟨lp, hread⟩
  obtain ⟨objective, rows, rhs, senses, ho, hr, hb, hs, hrhs, hsenses, -⟩ :=
    violations_eq_nil_iff.mp hnone
  have hpresent : LinearProgram.requireFields (.record fields) ["c", "A", "b", "senses"] = .ok () :=
    (LinearProgram.ofValue_eq_ok_iff.mp hread).1
  rw [h.ofValue_eq hpresent ho hr hb hs, if_pos ⟨hrhs, hsenses⟩, bind_eq_ok] at hread
  obtain ⟨coefficients, hc, hrows⟩ := hread
  obtain ⟨cs, rfl, hcs⟩ := LinearProgram.addRows_spec hrhs hsenses hrows
  refine ⟨⟨objective, ho, mapM_eq_ok_iff_forall₂.mp hc⟩, rfl, rfl,
    rows, rhs, senses, hr, hb, hs, ?_, fun i row sense b hrow hsense hb => ?_⟩
  · rw [List.nil_append, ← hcs.length_eq, List.length_zip, List.length_zip]
    omega
  · have hline : (rows.zip (senses.zip rhs))[i]? = some (row, sense, b) :=
      List.getElem?_zip_eq_some.mpr ⟨hrow, List.getElem?_zip_eq_some.mpr ⟨hsense, hb⟩⟩
    obtain ⟨hi, hitem⟩ := List.getElem?_eq_some_iff.mp hline
    obtain ⟨hlength, hall⟩ := List.forall₂_iff_get.mp hcs
    have hi' : i < cs.length := hlength ▸ hi
    have hreads := hall i hi hi'
    simp only [List.get_eq_getElem, hitem] at hreads
    exact ⟨cs[i], List.getElem?_eq_getElem hi', hreads⟩

/-- What is said of reading a sheet. -/
structure Read (digits : DigitLimit) (s : Sheet) (result : Except Error LinearProgram) : Prop where
  accepted_iff : (∃ lp, result = .ok lp) ↔ s.Acceptable digits
  shows : ∀ lp, result = .ok lp → s.Shows digits lp
  refused_iff : ∀ e, result = .error e ↔ (s.violations digits).head? = some e

/-- A sheet is read exactly when nothing is wrong with it, and then as the program that it shows;
otherwise the error is the first of what is wrong.  A relation may be given as one or by a word for
it; anything else is refused, and a bound on digits matters only to which error a long number among
the relations gives, and to the numbers of literals. -/
theorem reading_reports_first_violation (digits : DigitLimit) (s : Sheet)
    (fields : List (Text × Value)) (h : s.LaidOut fields) :
    s.Read digits (LinearProgram.ofValue digits (.record fields)) where
  accepted_iff := h.reports_ofValue.exists_ok_iff.trans violations_eq_nil_iff
  shows _ := h.shows
  refused_iff _ := h.reports_ofValue.error_iff

/-- A sheet with too short a row, a coefficient that is no number, a number for a relation and a
right-hand side that is missing. -/
def crooked : Sheet where
  objective := some [.int 1, .text "1/2"]
  rows := some [[.int 1], [.text "a", .bool true], []]
  rhs := some [.int 3, .null, .int 0]
  senses := some [.text " Le", .int (Nat.pow 10 4300 : Nat), .relation .equal]
  maximize := some .null

def crookedFields : List (Text × Value) :=
  [("b", .list [.int 3, .null, .int 0]),
    ("senses", .list [.text " Le", .int (Nat.pow 10 4300 : Nat), .relation .equal]),
    ("c", .list [.int 1, .text "1/2"]), ("maximize", .null),
    ("A", .list [.list [.int 1], .list [.text "a", .bool true], .list []])]

/-- Of six errors the one in the first row is reported. -/
theorem crooked_reports_first_row : crooked.LaidOut crookedFields ∧
    crooked.violations .standard = [.rowLength 1 2, .malformedLiteral "a", .tooManyDigits,
      .unknownRelation, .notNumeric "NoneType", .rowLength 0 2] ∧
    LinearProgram.ofValue .standard (.record crookedFields) = .error (.rowLength 1 2) := by
  have hlaid : crooked.LaidOut crookedFields := ⟨rfl, rfl, rfl, rfl, rfl⟩
  have hviolations : crooked.violations .standard = [.rowLength 1 2, .malformedLiteral "a",
      .tooManyDigits, .unknownRelation, .notNumeric "NoneType", .rowLength 0 2] := by
    decide +kernel
  refine ⟨hlaid, hviolations, ?_⟩
  apply (reading_reports_first_violation .standard crooked crookedFields hlaid).refused_iff _ |>.mpr
  rw [hviolations]
  rfl

/-- The fields of a program with one constraint in one variable, whose relation is given. -/
def fieldsWith (sense : Value) : List (Text × Value) :=
  [("c", .list [.int 1]), ("A", .list [.list [.int 1]]), ("b", .list [.int 1]),
    ("senses", .list [sense])]

/-- A relation is accepted for itself, although it is no text, and a word behind a separator is
accepted, although it is no word once the white space is gone. -/
theorem senses_beyond_words :
    LinearProgram.ofValue .off (.record (fieldsWith (.relation .atMost))) =
      .ok ⟨[1], true, [⟨[1], .atMost, 1⟩]⟩ ∧
    (∀ t, Value.relation .atMost ≠ .text t) ∧
    LinearProgram.ofValue .off (.record (fieldsWith (.text "\x1c<="))) =
      .ok ⟨[1], true, [⟨[1], .atMost, 1⟩]⟩ ∧
    ∀ r, ¬Relation.Wording Text.WhiteSpace "\x1c<=" r := by
  have hseparator : Text.Separator '\x1c' := ⟨by decide, by decide⟩
  refine ⟨by decide +kernel, nofun, by decide +kernel, ?_⟩
  exact Relation.not_wording_of_mem List.mem_cons_self (by decide +kernel) hseparator.not_whiteSpace

end Sheet

end ExactSimplex
