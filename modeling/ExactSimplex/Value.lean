import ExactSimplex.Model.Relation
import ExactSimplex.Number.Rational
import ExactSimplex.Number.Bounded
import ExactSimplex.Number.Decimal
import ExactSimplex.Number.Double

/-! The values that a model may be described with: what a JSON document holds, numbers of the other
kinds that a caller may supply, relations, and objects of kinds that are not known here.  A value
can be coerced to a rational, tested for truth, counted, run through, and searched for a key. -/

namespace ExactSimplex

/-- An object of a kind that is not known here, by what can be asked of any object.  It is no number
and cannot be run through. -/
structure Foreign where
  /-- The name of its kind. -/
  kind : String
  text : Text
  /-- How messages show it. -/
  shown : String
  isTrue : Bool
deriving DecidableEq, Repr

/-- A value as a caller hands it over. -/
inductive Value where
  | null
  | bool (b : Bool)
  | int (n : Int)
  | text (t : Text)
  | list (items : List Value)
  /-- Fields in the order in which they were first given. -/
  | record (fields : List (Text × Value))
  | rational (q : Rat)
  /-- A ratio from elsewhere: it can be coerced, but it is no operand. -/
  | fraction (q : Rat)
  | decimal (d : Decimal)
  | double (x : Float)
  | relation (r : Relation)
  | foreign (o : Foreign)

namespace Value

/-- The largest denominator that a double is coerced to. -/
def denominatorBound : Nat := 1000000000000

/-- The rational that a value stands for.  All kinds of numbers but the doubles are taken exactly; a
double gives the nearest rational with a bounded denominator, and a text is read as a literal. -/
def toRational (digits : DigitLimit) : Value → Except Error Rat
  | rational q => .ok q
  | bool b => .ok (if b then 1 else 0)
  | int n => .ok n
  | fraction q => .ok q
  | decimal d =>
    match d.toRat? with
    | some q => .ok q
    | none => .error (.notFinite d.text)
  | double x =>
    match Double.toRat? x with
    | some q => .ok (Rational.limitDenominator denominatorBound q)
    | none => .error (.notFinite (Double.specialText x))
  | text t => Rational.parse digits t
  | null => .error (.notNumeric "NoneType")
  | list _ => .error (.notNumeric "list")
  | record _ => .error (.notNumeric "dict")
  | relation _ => .error (.notNumeric "Relation")
  | foreign o => .error (.notNumeric o.kind)

/-- A number as results show it. -/
def formatted (digits : DigitLimit) (v : Value) : Except Error String := do
  Rational.write digits (← v.toRational digits)

/-- The whole number that a value is, where truth values count as zero and one. -/
def toInt? : Value → Option Int
  | bool b => some (if b then 1 else 0)
  | int n => some n
  | _ => none

/-- The rational with two whole numbers for its parts. -/
def ratio (num den : Value) : Except Error Rat :=
  match num.toInt?, den.toInt? with
  | some n, some d => Rational.ofRatio n d
  | _, _ => .error .notWhole

/-- The same for a ratio from elsewhere. -/
def outerRatio (num den : Value) : Except Error Rat :=
  match num.toInt?, den.toInt? with
  | some n, some d => if d = 0 then .error .zeroDivisor else .ok (Rat.divInt n d)
  | _, _ => .error .unsupported

/-- Zeros and empty values are false, all others true. -/
def isTruthy : Value → Bool
  | null => false
  | bool b => b
  | int n => n ≠ 0
  | text t => !t.isEmpty
  | list items => !items.isEmpty
  | record fields => !fields.isEmpty
  | rational q => q ≠ 0
  | fraction q => q ≠ 0
  | decimal d => !d.isZero
  | double x => Double.toRat? x ≠ some 0
  | relation _ => true
  | foreign o => o.isTrue

/-- What a value consists of: the items of a list, the places of a text, the keys of a record. -/
def items : Value → Except Error (List Value)
  | list items => .ok items
  | text t => .ok (t.places.map text)
  | record fields => .ok (fields.map fun field => text field.1)
  | _ => .error .unsupported

/-- Every item coerced, the first that cannot be deciding the error. -/
def rationals (digits : DigitLimit) (v : Value) : Except Error (List Rat) := do
  (← v.items).mapM (toRational digits)

/-- Whether one row of symbols stands somewhere in another. -/
def occursIn (part : List Symbol) : List Symbol → Bool
  | [] => part.isEmpty
  | s :: ss => part.isPrefixOf (s :: ss) || occursIn part ss

/-- Whether a value is this text. -/
def isText (t : Text) : Value → Bool
  | text u => t = u
  | _ => false

/-- Whether a record has a key, a list a text among its items, or a text a part. -/
def has (key : Text) : Value → Except Error Bool
  | record fields => .ok (fields.any (·.1 = key))
  | list items => .ok (items.any (isText key))
  | text t => .ok (occursIn key.symbols t.symbols)
  | _ => .error .unsupported

/-- The field of a record under a key. -/
def get (key : Text) : Value → Except Error Value
  | record fields =>
    match fields.lookup key with
    | some v => .ok v
    | none => .error .outOfRange
  | _ => .error .unsupported

/-- The fields with one of them given a value: where it stood before, otherwise at the end. -/
def setField (key : Text) (v : Value) : List (Text × Value) → List (Text × Value)
  | [] => [(key, v)]
  | field :: fields => if field.1 = key then (key, v) :: fields else field :: setField key v fields

/-- A record with one field given a value. -/
def set (model : Value) (key : Text) (v : Value) : Except Error Value :=
  match model with
  | record fields => .ok (record (setField key v fields))
  | _ => .error .unsupported

end Value

end ExactSimplex
