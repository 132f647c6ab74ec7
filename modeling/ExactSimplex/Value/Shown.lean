import ExactSimplex.Number.Shortest
import ExactSimplex.Value

/-! Values as messages show them: texts in quotes, lists in brackets, records in braces, and numbers
of the more special kinds and relations under the name of their kind. -/

namespace ExactSimplex.Value

mutual

/-- A value as messages show it, if the whole numbers in it can be written. -/
def shown (digits : DigitLimit) : Value → Except Error String
  | null => .ok "None"
  | bool b => .ok (if b then "True" else "False")
  | int n => digits.write n
  | text t => .ok t.quoted
  | list items => do return "[" ++ ", ".intercalate (← shownItems digits items) ++ "]"
  | record fields => do
    return "\x7b" ++ ", ".intercalate (← shownFields digits fields) ++ "\x7d"
  | rational q => Rational.describe digits q
  | fraction q => do
    let num ← digits.write q.num
    let den ← digits.write q.den
    return s!"Fraction({num}, {den})"
  | decimal d => .ok ("Decimal('" ++ d.text ++ "')")
  | double x => .ok (Shortest.text x)
  | relation r => .ok s!"<Relation.{r.name}: '{r.sign}'>"
  | foreign o => .ok o.shown

/-- The items of a list as messages show them. -/
def shownItems (digits : DigitLimit) : List Value → Except Error (List String)
  | [] => .ok []
  | v :: vs => do
    let first ← shown digits v
    return first :: (← shownItems digits vs)

/-- The fields of a record as messages show them. -/
def shownFields (digits : DigitLimit) : List (Text × Value) → Except Error (List String)
  | [] => .ok []
  | (key, v) :: fields => do
    let first ← shown digits v
    return (key.quoted ++ ": " ++ first) :: (← shownFields digits fields)

end

end ExactSimplex.Value
