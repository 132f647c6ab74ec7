import ExactSimplex.Calculator
import ExactSimplex.Proofs.Fraction

/-! Calculations over fractions, instruction by instruction beside those over rationals.  A whole
number beside a fraction is first made into one; when it stands on the left, a comparison asks the
fraction with the reversed comparison, and an operation keeps its order.  Over fractions in lowest
terms each instruction gives what it gives over the rationals, again in lowest terms; so a whole
calculation does, and each of its results is the exact one. -/

namespace ExactSimplex.Calculator

/-- What an instruction gives over fractions: a fraction, or a result of another kind. -/
inductive Piece where
  | fraction (f : Fraction)
  | other (r : Result)

/-- A result with its number written as a fraction in lowest terms. -/
def Result.piece : Result → Piece
  | number q => .fraction (.ofRat q)
  | r => .other r

/-- A named operation of two fractions. -/
def Method.onFractions (m : Method) (a b : Fraction) : Except Error Piece :=
  match m with
  | add => (a.add b).map .fraction
  | subtract => (a.subtract b).map .fraction
  | multiply => (a.multiply b).map .fraction
  | divide => (a.divide b).map .fraction
  | compareTo => .ok (.other (.whole (a.compare b)))

/-- The operations of the operators are the named ones. -/
def Operator.onFractions (op : Operator) (a b : Fraction) : Except Error Piece :=
  match op with
  | add => Method.add.onFractions a b
  | sub => Method.subtract.onFractions a b
  | mul => Method.multiply.onFractions a b
  | div => Method.divide.onFractions a b
  | lt => .ok (.other (.truth (a.compare b < 0)))
  | le => .ok (.other (.truth (a.compare b ≤ 0)))
  | gt => .ok (.other (.truth (0 < a.compare b)))
  | ge => .ok (.other (.truth (0 ≤ a.compare b)))
  | eq => .ok (.other (.truth (a.num = b.num ∧ a.den = b.den)))
  | ne => .ok (.other (.truth (¬(a.num = b.num ∧ a.den = b.den))))
  | sameHash => .ok (.other (.truth (a.hash = b.hash)))

/-- The comparison that asks the same from the other side. -/
def Operator.reversed? : Operator → Option Operator
  | lt => some gt
  | le => some ge
  | gt => some lt
  | ge => some le
  | eq => some eq
  | ne => some ne
  | add | sub | mul | div | sameHash => none

/-- An operator on two operands, each a fraction or a whole number. -/
def Operator.onPieces (op : Operator) : Fraction ⊕ Int → Fraction ⊕ Int → Except Error Piece
  | .inl a, .inl b => op.onFractions a b
  | .inl a, .inr n => do op.onFractions a (← Fraction.make n 1)
  | .inr m, .inl b => do
    let a ← Fraction.make m 1
    match op.reversed? with
    | some asked => asked.onFractions b a
    | none => op.onFractions a b
  | .inr m, .inr n => (op.onWholes m n).map Result.piece

/-- The conversions to other kinds go by the number that the fraction stands for. -/
def Unary.onFraction (digits : DigitLimit) (op : Unary) (a : Fraction) : Except Error Piece :=
  match op with
  | minus | negate => a.negate.map .fraction
  | plus => .ok (.fraction a)
  | abs => a.abs.map .fraction
  | isTrue => .ok (.other (.truth (a.num ≠ 0)))
  | isZero => .ok (.other (.truth (a.num = 0)))
  | double | toDouble | toText | describe | toRatio | ofRatio =>
    (op.onRational digits a.value).map Result.piece

/-- The register or the whole number that an operand is. -/
def Operand.pick {α : Type} (registers : List α) : Operand → Option (α ⊕ Int)
  | register i =>
    (if 0 ≤ i then registers[i.toNat]? else registers.reverse[(-i - 1).toNat]?).map .inl
  | whole n => some (.inr n)

/-- An instruction on registers that hold fractions. -/
def Instruction.evalFractions (digits : DigitLimit) (registers : List Fraction) :
    Instruction → Except Error Piece
  | construct num den => (Fraction.make num den).map .fraction
  | unary op a =>
    match a.pick registers with
    | some (.inl x) => op.onFraction digits x
    | some (.inr n) => (op.onWhole digits (.int n) n).map Result.piece
    | none => .error .outOfRange
  | binary op a b =>
    match a.pick registers, b.pick registers with
    | some x, some y => op.onPieces x y
    | _, _ => .error .outOfRange
  | named m a b =>
    match a.pick registers, b.pick registers with
    | some (.inl x), some (.inl y) => m.onFractions x y
    | some _, some _ => .error .noSuchOperation
    | _, _ => .error .outOfRange

/-- A result that is a fraction goes into the next register. -/
def extendFractions (registers : List Fraction) : Except Error Piece → List Fraction
  | .ok (.fraction f) => registers ++ [f]
  | _ => registers

/-- The results of all instructions, in order. -/
def runFractions (digits : DigitLimit) (registers : List Fraction) :
    List Instruction → List (Except Error Piece)
  | [] => []
  | instruction :: rest =>
    let result := instruction.evalFractions digits registers
    result :: runFractions digits (extendFractions registers result) rest

/-! ### One instruction -/

variable {registers : List Rat} {digits : DigitLimit}

theorem hash_ofRat (q : Rat) : (Fraction.ofRat q).hash = Rational.hash q := by
  simp only [Fraction.hash, Fraction.ofRat, Rational.hash, Nat.cast_eq_one]

theorem num_den_iff {x y : Rat} : x.num = y.num ∧ x.den = y.den ↔ x = y :=
  ⟨fun h => Rat.ext h.1 h.2, fun h => h ▸ ⟨rfl, rfl⟩⟩

theorem compare_eq_ite (x y : Rat) :
    Rational.compare x y = if x < y then -1 else if y < x then 1 else 0 := by
  have h := Fraction.compare_eq (Fraction.lowest_ofRat x) (Fraction.lowest_ofRat y)
  rwa [Fraction.value_ofRat, Fraction.value_ofRat] at h

theorem divide_ofRat (x y : Rat) :
    ((Fraction.ofRat x).divide (.ofRat y)).map .fraction =
      ((Rational.divide x y).map .number).map Result.piece := by
  rw [Fraction.divide_eq (Fraction.lowest_ofRat x) (Fraction.lowest_ofRat y),
    Fraction.value_ofRat, Fraction.value_ofRat, Rational.divide]
  by_cases h : y = 0
  · rw [if_pos h, if_pos h]
    rfl
  · rw [if_neg h, if_neg h]
    rfl

theorem Method.onFractions_ofRat (m : Method) (x y : Rat) :
    m.onFractions (.ofRat x) (.ofRat y) = (m.onRationals x y).map Result.piece := by
  have hx := Fraction.lowest_ofRat x
  have hy := Fraction.lowest_ofRat y
  cases m with
  | add => simp only [onFractions, Fraction.add_eq hx hy, Fraction.value_ofRat]; rfl
  | subtract => simp only [onFractions, Fraction.subtract_eq hx hy, Fraction.value_ofRat]; rfl
  | multiply => simp only [onFractions, Fraction.multiply_eq hx hy, Fraction.value_ofRat]; rfl
  | divide => exact divide_ofRat x y
  | compareTo => rfl

theorem Operator.onFractions_ofRat (op : Operator) (x y : Rat) :
    op.onFractions (.ofRat x) (.ofRat y) = (op.onRationals x y).map Result.piece := by
  cases op with
  | add => exact Method.add.onFractions_ofRat x y
  | sub => exact Method.subtract.onFractions_ofRat x y
  | mul => exact Method.multiply.onFractions_ofRat x y
  | div => exact Method.divide.onFractions_ofRat x y
  | lt | le | gt | ge => rfl
  | eq | ne => simp only [onFractions, onRationals, Fraction.ofRat, Nat.cast_inj]; rfl
  | sameHash => simp only [onFractions, hash_ofRat]; rfl

theorem abs_eq_ite (x : Rat) : (if x < 0 then -x else x) = |x| := by
  by_cases h : x < 0
  · rw [if_pos h, abs_of_neg h]
  · rw [if_neg h, abs_of_nonneg (not_lt.mp h)]

theorem Unary.onFraction_ofRat (digits : DigitLimit) (op : Unary) (x : Rat) :
    op.onFraction digits (.ofRat x) = (op.onRational digits x).map Result.piece := by
  have hx := Fraction.lowest_ofRat x
  cases op with
  | minus | negate => simp only [onFraction, Fraction.negate_eq hx, Fraction.value_ofRat]; rfl
  | abs =>
    simp only [onFraction, onRational, Fraction.abs_eq hx, Fraction.value_ofRat, abs_eq_ite]; rfl
  | plus | isTrue | isZero => rfl
  | double | toDouble | toText | describe | toRatio | ofRatio =>
    simp only [onFraction, Fraction.value_ofRat]

/-! ### The order -/

theorem compare_neg_iff {x y : Rat} : Rational.compare x y < 0 ↔ x < y := by
  rw [compare_eq_ite]
  split_ifs with hlt hgt
  · exact iff_of_true (by decide) hlt
  · exact iff_of_false (by decide) hlt
  · exact iff_of_false (by decide) hlt

theorem compare_pos_iff {x y : Rat} : 0 < Rational.compare x y ↔ y < x := by
  rw [compare_eq_ite]
  split_ifs with hlt hgt
  · exact iff_of_false (by decide) hlt.not_gt
  · exact iff_of_true (by decide) hgt
  · exact iff_of_false (by decide) hgt

theorem compare_nonpos_iff {x y : Rat} : Rational.compare x y ≤ 0 ↔ x ≤ y := by
  rw [← not_lt, compare_pos_iff, not_lt]

theorem compare_nonneg_iff {x y : Rat} : 0 ≤ Rational.compare x y ↔ y ≤ x := by
  rw [← not_lt, compare_neg_iff, not_lt]

/-- What the field of rationals says of a named operation. -/
def Method.expected (m : Method) (x y : Rat) : Except Error Result :=
  match m with
  | add => .ok (.number (x + y))
  | subtract => .ok (.number (x - y))
  | multiply => .ok (.number (x * y))
  | divide => if y = 0 then .error .divisionByZero else .ok (.number (x / y))
  | compareTo => .ok (.whole (if x < y then -1 else if y < x then 1 else 0))

theorem divide_map (x y : Rat) : (Rational.divide x y).map Result.number =
    if y = 0 then .error .divisionByZero else .ok (.number (x / y)) := by
  rw [Rational.divide]
  split_ifs <;> rfl

theorem Method.onRationals_exact (m : Method) (x y : Rat) : m.onRationals x y = m.expected x y := by
  cases m with
  | add | subtract | multiply => rfl
  | divide => exact divide_map x y
  | compareTo => rw [onRationals, compare_eq_ite, expected]

/-- What the field of rationals says of an operator; of two hashes it says only that they are equal
where the numbers are. -/
def Operator.expected? (op : Operator) (x y : Rat) : Option (Except Error Result) :=
  match op with
  | add => some (Method.add.expected x y)
  | sub => some (Method.subtract.expected x y)
  | mul => some (Method.multiply.expected x y)
  | div => some (Method.divide.expected x y)
  | lt => some (.ok (.truth (x < y)))
  | le => some (.ok (.truth (x ≤ y)))
  | gt => some (.ok (.truth (y < x)))
  | ge => some (.ok (.truth (y ≤ x)))
  | eq => some (.ok (.truth (x = y)))
  | ne => some (.ok (.truth (x ≠ y)))
  | sameHash => if x = y then some (.ok (.truth true)) else none

theorem Operator.onRationals_exact {op : Operator} {x y : Rat} {expected : Except Error Result}
    (h : op.expected? x y = some expected) : op.onRationals x y = expected := by
  cases op with
  | add => exact (Method.add.onRationals_exact x y).trans (Option.some.inj h)
  | sub => exact (Method.subtract.onRationals_exact x y).trans (Option.some.inj h)
  | mul => exact (Method.multiply.onRationals_exact x y).trans (Option.some.inj h)
  | div => exact (Method.divide.onRationals_exact x y).trans (Option.some.inj h)
  | lt | le | gt | ge =>
    rw [← Option.some.inj h, onRationals]
    simp only [compare_neg_iff, compare_nonpos_iff, compare_pos_iff, compare_nonneg_iff]
  | eq | ne =>
    rw [← Option.some.inj h, onRationals]
    simp only [num_den_iff, ne_eq]
  | sameHash =>
    rw [expected?] at h
    split_ifs at h with heq
    rw [← Option.some.inj h, onRationals, heq, decide_eq_true rfl]

theorem Operator.onRationals_reversed {op asked : Operator} (h : op.reversed? = some asked)
    (x y : Rat) : asked.onRationals y x = op.onRationals x y := by
  cases op with
  | add | sub | mul | div | sameHash => cases h
  | lt | le | gt | ge =>
    cases h
    simp only [onRationals, compare_neg_iff, compare_nonpos_iff, compare_pos_iff,
      compare_nonneg_iff]
  | eq | ne =>
    cases h
    simp only [onRationals, num_den_iff, eq_comm]

/-! ### One instruction over fractions -/

/-- The value that an operand is. -/
def value : Rat ⊕ Int → Value := Sum.elim .rational .int

theorem Operand.value?_eq (registers : List Rat) (o : Operand) :
    o.value? registers = (o.pick registers).map value := by
  cases o with
  | whole n => rfl
  | register i =>
    rw [value?, pick]
    split_ifs <;> rw [Option.map_map] <;> rfl

theorem Operand.pick_map {α β : Type} (f : α → β) (registers : List α) (o : Operand) :
    o.pick (registers.map f) = (o.pick registers).map (Sum.map f id) := by
  cases o with
  | whole n => rfl
  | register i =>
    rw [pick, pick]
    split_ifs
    · rw [List.getElem?_map, Option.map_map, Option.map_map]
      rfl
    · rw [← List.map_reverse, List.getElem?_map, Option.map_map, Option.map_map]
      rfl

theorem Operator.onPieces_ofRat (op : Operator) (x y : Rat ⊕ Int) :
    op.onPieces (x.map .ofRat id) (y.map .ofRat id) =
      (op.apply (value x) (value y)).map Result.piece := by
  match x, y with
  | .inl a, .inl b => exact op.onFractions_ofRat a b
  | .inl a, .inr n =>
    show (Fraction.make n 1 >>= fun b => op.onFractions (.ofRat a) b) = _
    rw [Fraction.make_one]
    exact op.onFractions_ofRat a n
  | .inr m, .inl b =>
    show (Fraction.make m 1 >>= fun a => match op.reversed? with
      | some asked => asked.onFractions (.ofRat b) a
      | none => op.onFractions a (.ofRat b)) = _
    rw [Fraction.make_one]
    show (match op.reversed? with
      | some asked => asked.onFractions (.ofRat b) (.ofRat m)
      | none => op.onFractions (.ofRat m) (.ofRat b)) = (op.onRationals m b).map Result.piece
    cases h : op.reversed? with
    | none => exact op.onFractions_ofRat m b
    | some asked => exact (asked.onFractions_ofRat b m).trans (by rw [op.onRationals_reversed h])
  | .inr m, .inr n => rfl

theorem Instruction.evalFractions_ofRat (digits : DigitLimit) (instruction : Instruction)
    (registers : List Rat) :
    instruction.evalFractions digits (registers.map .ofRat) =
      (instruction.eval digits registers).map Result.piece := by
  cases instruction with
  | construct num den =>
    rw [evalFractions, eval, Rational.ofRatio]
    by_cases h : den = 0
    · rw [Fraction.make, if_pos h, if_pos h]
      rfl
    · rw [Fraction.make_eq h, if_neg h, ← Rat.divInt_eq_div]
      rfl
  | unary op a =>
    rw [evalFractions, eval, Operand.value?_eq, Operand.pick_map]
    match a.pick registers with
    | none => rfl
    | some (.inl x) => exact op.onFraction_ofRat digits x
    | some (.inr n) => rfl
  | binary op a b =>
    rw [evalFractions, eval, Operand.value?_eq, Operand.value?_eq, Operand.pick_map,
      Operand.pick_map]
    match a.pick registers, b.pick registers with
    | none, _ => rfl
    | some _, none => rfl
    | some x, some y => exact op.onPieces_ofRat x y
  | named m a b =>
    rw [evalFractions, eval, Operand.value?_eq, Operand.value?_eq, Operand.pick_map,
      Operand.pick_map]
    match a.pick registers, b.pick registers with
    | none, _ => rfl
    | some (.inl _), none => rfl
    | some (.inr _), none => rfl
    | some (.inl x), some (.inl y) => exact m.onFractions_ofRat x y
    | some (.inl _), some (.inr _) => rfl
    | some (.inr _), some (.inl _) => rfl
    | some (.inr _), some (.inr _) => rfl

/-! ### Whole calculations -/

/-- The number that an instruction leaves for the next ones. -/
def number? : Except Error Result → Option Rat
  | .ok (.number q) => some q
  | _ => none

def numbers (results : List (Except Error Result)) : List Rat := results.filterMap number?

def fraction? : Except Error Piece → Option Fraction
  | .ok (.fraction f) => some f
  | _ => none

def fractions (results : List (Except Error Piece)) : List Fraction := results.filterMap fraction?

theorem extend_eq (registers : List Rat) (result : Except Error Result) :
    extend registers result = registers ++ numbers [result] := by
  match result with
  | .ok (.number q) => rfl
  | .ok (.whole _) | .ok (.truth _) | .ok (.text _) | .ok (.double _) | .ok (.ratio _)
  | .error _ => exact (List.append_nil registers).symm

theorem fraction?_map (result : Except Error Result) :
    fraction? (result.map Result.piece) = (number? result).map .ofRat := by
  match result with
  | .ok (.number q) => rfl
  | .ok (.whole _) | .ok (.truth _) | .ok (.text _) | .ok (.double _) | .ok (.ratio _)
  | .error _ => rfl

theorem fractions_map (results : List (Except Error Result)) :
    fractions (results.map fun result => result.map Result.piece) =
      (numbers results).map .ofRat := by
  rw [fractions, numbers, List.filterMap_map, List.map_filterMap]
  exact List.filterMap_congr fun result _ => fraction?_map result

theorem extendFractions_ofRat (registers : List Rat) (result : Except Error Result) :
    extendFractions (registers.map .ofRat) (result.map Result.piece) =
      (extend registers result).map .ofRat := by
  match result with
  | .ok (.number q) =>
    show registers.map Fraction.ofRat ++ [Fraction.ofRat q] = (registers ++ [q]).map Fraction.ofRat
    rw [List.map_append, List.map_singleton]
  | .ok (.whole _) | .ok (.truth _) | .ok (.text _) | .ok (.double _) | .ok (.ratio _)
  | .error _ => rfl

theorem runFractions_ofRat (digits : DigitLimit) (registers : List Rat) (code : List Instruction) :
    runFractions digits (registers.map .ofRat) code =
      (run digits registers code).map fun result => result.map Result.piece := by
  induction code generalizing registers with
  | nil => rfl
  | cons instruction rest ih =>
    rw [runFractions, run, List.map_cons, instruction.evalFractions_ofRat, extendFractions_ofRat,
      ih]

/-- An instruction works on the registers that were there and the numbers given before it. -/
theorem getElem?_run {code : List Instruction} {k : Nat} {instruction : Instruction}
    (h : code[k]? = some instruction) (registers : List Rat) :
    (run digits registers code)[k]? = some (instruction.eval digits
      (registers ++ numbers ((run digits registers code).take k))) := by
  induction code generalizing registers k with
  | nil => cases h
  | cons first rest ih =>
    cases k with
    | zero =>
      cases h
      rw [List.take_zero, numbers, List.filterMap_nil, List.append_nil]
      rfl
    | succ k =>
      rw [run, List.getElem?_cons_succ, ih h, extend_eq, List.append_assoc, numbers, numbers,
        ← List.filterMap_append]
      rfl

/-! ### The exact results -/

/-- None for the conversions. -/
def Unary.expected? (op : Unary) (x : Rat) : Option (Except Error Result) :=
  match op with
  | minus | negate => some (.ok (.number (-x)))
  | plus => some (.ok (.number x))
  | abs => some (.ok (.number |x|))
  | isTrue => some (.ok (.truth (x ≠ 0)))
  | isZero => some (.ok (.truth (x = 0)))
  | double | toDouble | toText | describe | toRatio | ofRatio => none

/-- What the field of rationals says of an instruction with a rational among its operands. -/
def Instruction.expected? (registers : List Rat) : Instruction → Option (Except Error Result)
  | construct num den =>
    some (if den = 0 then .error .zeroDenominator else .ok (.number (num / den)))
  | unary op a =>
    match a.pick registers with
    | some (.inl x) => op.expected? x
    | _ => none
  | binary op a b =>
    match a.pick registers, b.pick registers with
    | some (.inl x), some (.inl y) => op.expected? x y
    | some (.inl x), some (.inr n) => op.expected? x n
    | some (.inr m), some (.inl y) => op.expected? m y
    | _, _ => none
  | named m a b =>
    match a.pick registers, b.pick registers with
    | some (.inl x), some (.inl y) => some (m.expected x y)
    | _, _ => none

theorem Unary.onRational_exact {op : Unary} {x : Rat} {expected : Except Error Result}
    (h : op.expected? x = some expected) : op.onRational digits x = expected := by
  cases op with
  | minus | negate | plus => exact Option.some.inj h
  | abs => rw [← Option.some.inj h, onRational, abs_eq_ite]
  | isTrue | isZero =>
    rw [← Option.some.inj h, onRational]
    simp only [ne_eq, Rat.num_eq_zero]
  | double | toDouble | toText | describe | toRatio | ofRatio => cases h

theorem Instruction.eval_exact {instruction : Instruction} {registers : List Rat}
    {expected : Except Error Result} (h : instruction.expected? registers = some expected) :
    instruction.eval digits registers = expected := by
  cases instruction with
  | construct num den =>
    rw [← Option.some.inj h, eval, Rational.ofRatio, Rat.divInt_eq_div]
    split_ifs <;> rfl
  | unary op a =>
    rw [expected?] at h
    rw [eval, Operand.value?_eq]
    split at h
    · rename_i x hx
      rw [hx]
      exact Unary.onRational_exact h
    · cases h
  | binary op a b =>
    rw [expected?] at h
    rw [eval, Operand.value?_eq, Operand.value?_eq]
    split at h
    · rename_i x y hx hy
      rw [hx, hy]
      exact Operator.onRationals_exact h
    · rename_i x n hx hy
      rw [hx, hy]
      exact Operator.onRationals_exact h
    · rename_i m y hx hy
      rw [hx, hy]
      exact Operator.onRationals_exact h
    · cases h
  | named m a b =>
    rw [expected?] at h
    rw [eval, Operand.value?_eq, Operand.value?_eq]
    split at h
    · rename_i x y hx hy
      rw [hx, hy]
      exact (m.onRationals_exact x y).trans (Option.some.inj h)
    · cases h

/-- The values of a calculation over fractions: those that were there and those that it gave. -/
def values (digits : DigitLimit) (registers : List Rat) (code : List Instruction) : List Fraction :=
  registers.map .ofRat ++ fractions (runFractions digits (registers.map .ofRat) code)

/-- What is said of a calculation, of any length and over numbers of any size. -/
structure Faithful (digits : DigitLimit) (registers : List Rat) (code : List Instruction) :
    Prop where
  /-- Every value is in lowest terms, and zero has denominator one. -/
  lowest : ∀ f ∈ values digits registers code,
    0 < f.den ∧ Int.gcd f.num f.den = 1 ∧ (f.num = 0 → f.den = 1)
  /-- Over fractions the calculation gives what it gives over rationals. -/
  agree : runFractions digits (registers.map .ofRat) code =
    (run digits registers code).map fun result => result.map Result.piece
  /-- Every result is the exact one for the numbers that the instruction works on. -/
  exact : ∀ (k : Nat) (instruction : Instruction), code[k]? = some instruction →
    ∃ result, (run digits registers code)[k]? = some result ∧
      ∀ expected, instruction.expected?
        (registers ++ numbers ((run digits registers code).take k)) = some expected →
        result = expected
  /-- Equal numbers have equal parts, and equal hashes. -/
  parts_iff : ∀ f ∈ values digits registers code, ∀ g ∈ values digits registers code,
    (f.num = g.num ∧ f.den = g.den ↔ f.value = g.value) ∧ (f.value = g.value → f.hash = g.hash)
  /-- A whole number hashes like the integer. -/
  hash_whole : ∀ f ∈ values digits registers code, ∀ n : Int, f.value = n →
    f.hash = Rational.hashInt n

theorem values_eq (digits : DigitLimit) (registers : List Rat) (code : List Instruction) :
    values digits registers code =
      (registers ++ numbers (run digits registers code)).map .ofRat := by
  rw [values, runFractions_ofRat, fractions_map, List.map_append]

theorem lowest_of_mem_values {registers : List Rat} {code : List Instruction} {f : Fraction}
    (h : f ∈ values digits registers code) : f.Lowest := by
  rw [values_eq] at h
  obtain ⟨q, -, rfl⟩ := List.mem_map.mp h
  exact Fraction.lowest_ofRat q

/-- Every calculation is exact and keeps its numbers in lowest terms. -/
theorem run_faithful (digits : DigitLimit) (registers : List Rat) (code : List Instruction) :
    Faithful digits registers code where
  lowest f hf := by
    have h := lowest_of_mem_values hf
    exact ⟨h.den_pos, h.coprime, h.den_eq_one⟩
  agree := runFractions_ofRat digits registers code
  exact k instruction h :=
    ⟨_, getElem?_run h registers, fun _ hexpected => Instruction.eval_exact hexpected⟩
  parts_iff f hf g hg := by
    have h := (lowest_of_mem_values hf).eq_iff (lowest_of_mem_values hg)
    exact ⟨Fraction.ext_iff.symm.trans h, fun hvalue => congrArg Fraction.hash (h.mpr hvalue)⟩
  hash_whole f hf n h := Fraction.hash_eq_hashInt (lowest_of_mem_values hf) h

/-- The sign moves into the numerator, two is on the left, and the last division fails. -/
def mixed : List Instruction :=
  [.construct 6 (-4), .binary .sub (.whole 2) (.register 0), .binary .div (.whole 7) (.register 0),
    .named .subtract (.register 0) (.register 0), .binary .lt (.whole (-2)) (.register 0),
    .binary .div (.register (-1)) (.register 3)]

theorem run_faithful_mixed :
    values .off [] mixed = [⟨-3, 2⟩, ⟨7, 2⟩, ⟨-14, 3⟩, ⟨0, 1⟩] ∧
      (run .off [] mixed)[4]? = some (.ok (.truth true)) ∧
      (run .off [] mixed)[5]? = some (.error .divisionByZero) := by
  have hnumbers : numbers ((run .off [] mixed).take 4) = [-3 / 2, 7 / 2, -14 / 3, 0] ∧
      numbers ((run .off [] mixed).take 5) = [-3 / 2, 7 / 2, -14 / 3, 0] := by decide +kernel
  obtain ⟨truth, htruth, hless⟩ := (run_faithful .off [] mixed).exact 4 _ rfl
  obtain ⟨failed, hfailed, hzero⟩ := (run_faithful .off [] mixed).exact 5 _ rfl
  rw [hnumbers.1] at hless
  rw [hnumbers.2] at hzero
  refine ⟨by decide +kernel, ?_, ?_⟩
  · have hlt : ((-2 : Int) : Rat) < -3 / 2 := by decide +kernel
    rw [htruth, hless _ rfl, decide_eq_true hlt]
  · rw [hfailed, hzero _ rfl]
    rfl

end ExactSimplex.Calculator
