import ExactSimplex.Value.Hash
import ExactSimplex.Value.Shown

/-! Calculations with rationals.  Operators take rationals and whole numbers on either side, and
give whole numbers where both sides are whole; named operations take rationals only.  A calculation
is a list of instructions over registers: each works on registers that are there or on whole
numbers, and a rational that it gives becomes the next register. -/

namespace ExactSimplex.Calculator

/-- What an instruction can give. -/
inductive Result where
  | number (q : Rat)
  | whole (n : Int)
  | truth (b : Bool)
  | text (s : String)
  | double (x : Float)
  /-- A ratio for use elsewhere. -/
  | ratio (q : Rat)

/-- The operators on two values. -/
inductive Operator where
  | add | sub | mul | div
  | lt | le | gt | ge
  | eq | ne
  | sameHash
deriving DecidableEq, Repr

/-- The named operations on two rationals. -/
inductive Method where
  | add | subtract | multiply | divide | compareTo
deriving DecidableEq, Repr

/-- Operations with one operand: operators, named operations, and the conversion from a ratio. -/
inductive Unary where
  | minus | plus | abs | isTrue | double | toText | describe
  | negate | isZero | toDouble | toRatio
  | ofRatio
deriving DecidableEq, Repr

/-- The rational that a value is as an operand. -/
def operand? : Value → Option Rat
  | .rational q => some q
  | v => v.toInt?.map fun n => n

/-- An operator on two rationals.  The comparisons go by cross-multiplication. -/
def Operator.onRationals (op : Operator) (a b : Rat) : Except Error Result :=
  match op with
  | add => .ok (.number (a + b))
  | sub => .ok (.number (a - b))
  | mul => .ok (.number (a * b))
  | div => (Rational.divide a b).map .number
  | lt => .ok (.truth (Rational.compare a b < 0))
  | le => .ok (.truth (Rational.compare a b ≤ 0))
  | gt => .ok (.truth (0 < Rational.compare a b))
  | ge => .ok (.truth (0 ≤ Rational.compare a b))
  | eq => .ok (.truth (a.num = b.num ∧ a.den = b.den))
  | ne => .ok (.truth (¬(a.num = b.num ∧ a.den = b.den)))
  | sameHash => .ok (.truth (Rational.hash a = Rational.hash b))

/-- The double nearest to a rational, if it is not too large. -/
def nearestDouble (q : Rat) : Except Error Result :=
  match Double.ofRat? q with
  | some x => .ok (.double x)
  | none => .error .tooLarge

/-- The double nearest to the quotient of two whole numbers; a zero has the sign of the divisor. -/
def quotient (m n : Int) : Except Error Result :=
  if n = 0 then .error .zeroDivisor
  else if m = 0 ∧ n < 0 then .ok (.double (-0.0))
  else nearestDouble (Rat.divInt m n)

/-- An operator on two whole numbers, which gives a whole number where it can. -/
def Operator.onWholes (op : Operator) (m n : Int) : Except Error Result :=
  match op with
  | add => .ok (.whole (m + n))
  | sub => .ok (.whole (m - n))
  | mul => .ok (.whole (m * n))
  | div => quotient m n
  | lt => .ok (.truth (m < n))
  | le => .ok (.truth (m ≤ n))
  | gt => .ok (.truth (n < m))
  | ge => .ok (.truth (n ≤ m))
  | eq => .ok (.truth (m = n))
  | ne => .ok (.truth (m ≠ n))
  | sameHash => .ok (.truth (Rational.hashInt m = Rational.hashInt n))

/-- An operator on two values.  What is no operand differs from everything and may have a hash; it
has no other operators. -/
def Operator.apply (op : Operator) (a b : Value) : Except Error Result :=
  match a.toInt?, b.toInt? with
  | some m, some n => op.onWholes m n
  | _, _ =>
    match operand? a, operand? b with
    | some x, some y => op.onRationals x y
    | _, _ =>
      match op with
      | eq => .ok (.truth false)
      | ne => .ok (.truth true)
      | sameHash => (a.sameHash b).map .truth
      | _ => .error .unsupported

/-- A named operation on two rationals. -/
def Method.onRationals (m : Method) (a b : Rat) : Except Error Result :=
  match m with
  | add => .ok (.number (a + b))
  | subtract => .ok (.number (a - b))
  | multiply => .ok (.number (a * b))
  | divide => (Rational.divide a b).map .number
  | compareTo => .ok (.whole (Rational.compare a b))

/-- A named operation on two values, which both have to be rationals. -/
def Method.apply (m : Method) : Value → Value → Except Error Result
  | .rational a, .rational b => m.onRationals a b
  | _, _ => .error .noSuchOperation

/-- An operation on one rational. -/
def Unary.onRational (digits : DigitLimit) (op : Unary) (a : Rat) : Except Error Result :=
  match op with
  | minus | negate => .ok (.number (-a))
  | plus => .ok (.number a)
  | abs => .ok (.number (if a < 0 then -a else a))
  | isTrue => .ok (.truth (a.num ≠ 0))
  | isZero => .ok (.truth (a.num = 0))
  | double | toDouble => nearestDouble a
  | toText => (Rational.write digits a).map .text
  | describe => (Rational.describe digits a).map .text
  | toRatio => .ok (.ratio a)
  | ofRatio => .ok (.number a)

/-- An operator on a whole number, which may be a truth value. -/
def Unary.onWhole (digits : DigitLimit) (op : Unary) (v : Value) (n : Int) :
    Except Error Result :=
  match op with
  | minus => .ok (.whole (-n))
  | plus => .ok (.whole n)
  | abs => .ok (.whole n.natAbs)
  | isTrue => .ok (.truth (n ≠ 0))
  | double => nearestDouble n
  | toText | describe => (v.shown digits).map .text
  | ofRatio => .ok (.number n)
  | negate | isZero | toDouble | toRatio => .error .noSuchOperation

/-- An operation on a value that is neither a rational nor a whole number.  Every value is true or
false, and a ratio from elsewhere has a numerator and a denominator. -/
def Unary.onOther (op : Unary) (v : Value) : Except Error Result :=
  match op, v with
  | isTrue, v => .ok (.truth v.isTruthy)
  | ofRatio, .fraction q => .ok (.number q)
  | minus, _ | plus, _ | abs, _ | double, _ | toText, _ | describe, _ => .error .unsupported
  | _, _ => .error .noSuchOperation

/-- An operation on one value. -/
def Unary.apply (digits : DigitLimit) (op : Unary) : Value → Except Error Result
  | .rational a => op.onRational digits a
  | v =>
    match v.toInt? with
    | some n => op.onWhole digits v n
    | none => op.onOther v

/-- What an instruction works on: a register, or a whole number that stands in it. -/
inductive Operand where
  /-- A register, counted from the last one backwards when the number is negative. -/
  | register (i : Int)
  | whole (n : Int)
deriving DecidableEq, Repr

/-- The value of an operand; none for a register that is not there. -/
def Operand.value? (registers : List Rat) : Operand → Option Value
  | register i =>
    if 0 ≤ i then registers[i.toNat]?.map .rational
    else registers.reverse[(-i - 1).toNat]?.map .rational
  | whole n => some (.int n)

/-- One step of a calculation. -/
inductive Instruction where
  | construct (num den : Int)
  | unary (op : Unary) (a : Operand)
  | binary (op : Operator) (a b : Operand)
  | named (m : Method) (a b : Operand)
deriving DecidableEq, Repr

/-- The result of an instruction over the registers that there are. -/
def Instruction.eval (digits : DigitLimit) (registers : List Rat) :
    Instruction → Except Error Result
  | construct num den => (Rational.ofRatio num den).map .number
  | unary op a =>
    match a.value? registers with
    | some x => op.apply digits x
    | none => .error .outOfRange
  | binary op a b =>
    match a.value? registers, b.value? registers with
    | some x, some y => op.apply x y
    | _, _ => .error .outOfRange
  | named m a b =>
    match a.value? registers, b.value? registers with
    | some x, some y => m.apply x y
    | _, _ => .error .outOfRange

/-- The registers after a result. -/
def extend (registers : List Rat) : Except Error Result → List Rat
  | .ok (.number q) => registers ++ [q]
  | _ => registers

/-- The results of a calculation, one for each instruction; an error does not end it. -/
def run (digits : DigitLimit) (registers : List Rat) : List Instruction → List (Except Error Result)
  | [] => []
  | instruction :: rest =>
    let result := instruction.eval digits registers
    result :: run digits (extend registers result) rest

/-- The figures of a collection of rationals. -/
structure Summary where
  sorted : List Rat
  least : Rat
  greatest : Rat
  distinct : Nat
  sum : Rat
  anyNonzero : Bool
  allNonzero : Bool
deriving DecidableEq, Repr

/-- The figures of a collection, which must not be empty. -/
def summarize : List Rat → Except Error Summary
  | [] => .error .emptyCollection
  | q :: qs =>
    let all := q :: qs
    .ok
      { sorted := all.mergeSort fun a b => a ≤ b
        least := qs.foldl (fun best next => if next < best then next else best) q
        greatest := qs.foldl (fun best next => if best < next then next else best) q
        distinct := all.eraseDups.length
        sum := all.foldl (· + ·) 0
        anyNonzero := all.any (· ≠ 0)
        allNonzero := all.all (· ≠ 0) }

end ExactSimplex.Calculator
