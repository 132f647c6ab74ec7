import ExactSimplex.Printing
import ExactSimplex.Proofs.Checked
import ExactSimplex.Proofs.Printed
import ExactSimplex.Value.Shown

/-! Errors in their order.  What can go wrong in a computation is listed, and the computation fails
with the first of the list.  The lists follow the computations: one computation behind another has
their lists one behind the other.  What can go wrong in writing a text is that a number in it is
longer than the host allows, so a text is written exactly when none is. -/

namespace ExactSimplex

/-- A computation reports a list of errors if it succeeds when the list is empty and otherwise fails
with the first of them. -/
def Reports {α : Type} (x : Except Error α) (errors : List Error) : Prop :=
  match x with
  | .ok _ => errors = []
  | .error e => errors.head? = some e

namespace Reports

variable {α β : Type} {x : Except Error α} {f : α → Except Error β} {es fs : List Error} {e : Error}

theorem exists_ok_iff (h : Reports x es) : (∃ a, x = .ok a) ↔ es = [] := by
  cases x with
  | ok a => exact ⟨fun _ => h, fun _ => ⟨a, rfl⟩⟩
  | error e =>
    have hhead : es.head? = some e := h
    constructor
    · rintro ⟨a, ha⟩
      cases ha
    · rintro rfl
      cases hhead

theorem error_iff (h : Reports x es) : x = .error e ↔ es.head? = some e := by
  cases x with
  | ok a =>
    have hnil : es = [] := h
    rw [hnil]
    exact ⟨nofun, nofun⟩
  | error e' =>
    have hhead : es.head? = some e' := h
    rw [hhead, Except.error.injEq, Option.some.injEq]

/-- The errors of a first computation come before those of the one that goes on with its result. -/
theorem bind (hx : Reports x es) (hf : ∀ a, x = .ok a → Reports (f a) fs) :
    Reports (x >>= f) (es ++ fs) := by
  cases x with
  | ok a =>
    have hnil : es = [] := hx
    rw [hnil]
    exact hf a rfl
  | error e => exact List.mem_head?_append_of_mem_head? hx

/-- What is made of a result adds no error. -/
theorem map (h : Reports x es) (g : α → β) : Reports (x.map g) es := by
  cases x <;> exact h

theorem mapM {f : α → Except Error β} {g : α → List Error} (h : ∀ a, Reports (f a) (g a))
    (l : List α) : Reports (l.mapM f) (l.flatMap g) := by
  induction l with
  | nil => rfl
  | cons a l ih =>
    rw [List.mapM_cons, List.flatMap_cons]
    refine (h a).bind fun b _ => ?_
    rw [← List.append_nil (l.flatMap g)]
    exact ih.bind fun bs _ => rfl

end Reports

/-! ### Numbers that are too long -/

namespace DigitLimit

variable {digits : DigitLimit} {ns : List Int} {e : Error}

/-- An error for each number that is longer than the host allows. -/
def overlong (digits : DigitLimit) (ns : List Int) : List Error :=
  (ns.filter fun n => ¬digits.Fits n).map fun _ => .tooManyDigits

theorem overlong_append (ns ms : List Int) :
    digits.overlong (ns ++ ms) = digits.overlong ns ++ digits.overlong ms := by
  rw [overlong, List.filter_append, List.map_append]
  rfl

theorem overlong_flatMap {α : Type} (l : List α) (f : α → List Int) :
    digits.overlong (l.flatMap f) = l.flatMap fun a => digits.overlong (f a) := by
  induction l with
  | nil => rfl
  | cons a l ih => rw [List.flatMap_cons, overlong_append, ih, List.flatMap_cons]

theorem overlong_eq_nil_iff : digits.overlong ns = [] ↔ ∀ n ∈ ns, digits.Fits n := by
  simp only [overlong, List.map_eq_nil_iff, List.filter_eq_nil_iff, decide_eq_true_eq, not_not]

theorem head?_overlong_eq_some_iff : (digits.overlong ns).head? = some e ↔
    e = .tooManyDigits ∧ ¬∀ n ∈ ns, digits.Fits n := by
  rw [← overlong_eq_nil_iff, overlong, List.map_eq_nil_iff]
  cases ns.filter fun n => ¬digits.Fits n with
  | nil => exact ⟨nofun, fun h => absurd rfl h.2⟩
  | cons n rest =>
    rw [List.map_cons, List.head?_cons, Option.some.injEq, eq_comm]
    exact (and_iff_left (List.cons_ne_nil _ _)).symm

theorem reports_write (digits : DigitLimit) (n : Int) :
    Reports (digits.write n) (digits.overlong [n]) := by
  rw [write]
  split
  · rename_i h
    exact overlong_eq_nil_iff.mpr (List.forall_mem_singleton.mpr h)
  · rename_i h
    exact head?_overlong_eq_some_iff.mpr ⟨rfl, fun hall => h (hall n List.mem_cons_self)⟩

/-- A text that is made of two numbers, one written after the other. -/
theorem reports_pair (digits : DigitLimit) (m n : Int) (shape : String → String → String) :
    Reports (digits.write m >>= fun first => (digits.write n).map (shape first))
      (digits.overlong [m, n]) := by
  rw [← List.singleton_append, overlong_append]
  exact (digits.reports_write m).bind fun first _ => (digits.reports_write n).map (shape first)

end DigitLimit

/-- A computation in which nothing can go wrong but that a number is too long. -/
theorem Reports.ok_iff_fits {α : Type} {x : Except Error α} {digits : DigitLimit} {ns : List Int}
    (h : Reports x (digits.overlong ns)) : (∃ a, x = .ok a) ↔ ∀ n ∈ ns, digits.Fits n :=
  h.exists_ok_iff.trans DigitLimit.overlong_eq_nil_iff

theorem Reports.error_iff_not_fits {α : Type} {x : Except Error α} {digits : DigitLimit}
    {ns : List Int} {e : Error} (h : Reports x (digits.overlong ns)) :
    x = .error e ↔ e = .tooManyDigits ∧ ¬∀ n ∈ ns, digits.Fits n :=
  h.error_iff.trans DigitLimit.head?_overlong_eq_some_iff

theorem Reports.map_const {α β : Type} {x : Except Error α} {digits : DigitLimit} {ns : List Int}
    (h : Reports x (digits.overlong ns)) (b : β) : (x.map fun _ => b) =
      if ∀ n ∈ ns, digits.Fits n then .ok b else .error .tooManyDigits := by
  split
  · rename_i hall
    obtain ⟨a, rfl⟩ := h.ok_iff_fits.mpr hall
    rfl
  · rename_i hnot
    rw [h.error_iff_not_fits.mpr ⟨rfl, hnot⟩]
    rfl

/-! ### Lines -/

namespace Printout

variable {es fs : List Error} {line : Except Error String} {lines : List (Except Error String)}

theorem reports_cons (h : Reports line es) (hs : Reports (ofLines lines).result fs) :
    Reports (ofLines (line :: lines)).result (es ++ fs) := by
  cases line with
  | ok s =>
    have hnil : es = [] := h
    rw [hnil]
    exact hs
  | error e => exact List.mem_head?_append_of_mem_head? h

theorem reports_singleton (h : Reports line es) : Reports (ofLines [line]).result es := by
  cases line with
  | ok s => exact h
  | error e => exact h

/-- Lines that can be made add no error in front of others. -/
theorem reports_ok_append (made : List String) (h : Reports (ofLines lines).result es) :
    Reports (ofLines (made.map .ok ++ lines)).result es := by
  induction made with
  | nil => exact h
  | cons s made ih => exact ih

end Printout

/-! ### Numbers and values -/

namespace Rational

/-- The two whole numbers in which a rational is written. -/
def parts (q : Rat) : List Int := [q.num, q.den]

theorem forall_parts_iff {digits : DigitLimit} {q : Rat} :
    (∀ n ∈ parts q, digits.Fits n) ↔ Fits digits q := by
  rw [parts, List.forall_mem_cons, List.forall_mem_singleton, Fits]

theorem reports_write (digits : DigitLimit) (q : Rat) :
    Reports (write digits q) (digits.overlong (parts q)) := by
  rw [write_eq]
  split
  · rename_i h
    exact DigitLimit.overlong_eq_nil_iff.mpr (forall_parts_iff.mpr h)
  · rename_i h
    exact DigitLimit.head?_overlong_eq_some_iff.mpr ⟨rfl, fun hall => h (forall_parts_iff.mp hall)⟩

variable {digits : DigitLimit} {qs : List Rat}

theorem forall_parts_flatMap_iff :
    (∀ n ∈ qs.flatMap parts, digits.Fits n) ↔ ∀ q ∈ qs, Fits digits q := by
  simp only [List.forall_mem_flatMap, forall_parts_iff]

theorem reports_mapM_write (digits : DigitLimit) (qs : List Rat) :
    Reports (qs.mapM (write digits)) (digits.overlong (qs.flatMap parts)) := by
  rw [DigitLimit.overlong_flatMap]
  exact Reports.mapM (reports_write digits) qs

theorem mapM_write_of_fits (h : ∀ q ∈ qs, Fits digits q) :
    qs.mapM (write digits) = .ok (qs.map text) :=
  Checked.mapM_eq_ok fun q hq => write_of_fits (h q hq)

end Rational

namespace Value

mutual

/-- The whole numbers that stand in a value. -/
def numbers : Value → List Int
  | int n => [n]
  | rational q => Rational.parts q
  | fraction q => Rational.parts q
  | list items => numbersIn items
  | record fields => numbersUnder fields
  | _ => []

/-- The whole numbers in the items of a list. -/
def numbersIn : List Value → List Int
  | [] => []
  | v :: vs => v.numbers ++ numbersIn vs

/-- The whole numbers in the fields of a record. -/
def numbersUnder : List (Text × Value) → List Int
  | [] => []
  | (_, v) :: fields => v.numbers ++ numbersUnder fields

end

mutual

/-- A value can be shown if no number in it is too long. -/
theorem reports_shown (digits : DigitLimit) : (v : Value) →
    Reports (v.shown digits) (digits.overlong v.numbers)
  | null | bool _ | text _ | decimal _ | double _ | relation _ | foreign _ => rfl
  | int n => digits.reports_write n
  | rational q => digits.reports_pair q.num q.den fun num den => s!"ExactRational({num}, {den})"
  | fraction q => digits.reports_pair q.num q.den fun num den => s!"Fraction({num}, {den})"
  | list items => (reports_shownItems digits items).map _
  | record fields => (reports_shownFields digits fields).map _

theorem reports_shownItems (digits : DigitLimit) : (items : List Value) →
    Reports (shownItems digits items) (digits.overlong (numbersIn items))
  | [] => rfl
  | v :: vs => by
    rw [numbersIn, DigitLimit.overlong_append]
    exact (reports_shown digits v).bind fun _ _ => (reports_shownItems digits vs).map _

theorem reports_shownFields (digits : DigitLimit) : (fields : List (Text × Value)) →
    Reports (shownFields digits fields) (digits.overlong (numbersUnder fields))
  | [] => rfl
  | (key, v) :: fields => by
    rw [numbersUnder, DigitLimit.overlong_append]
    exact (reports_shown digits v).bind fun _ _ => (reports_shownFields digits fields).map _

end

end Value

end ExactSimplex
