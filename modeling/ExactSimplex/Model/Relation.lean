import ExactSimplex.Error
import ExactSimplex.Text.Blank

/-! The relation between the two sides of a constraint, and the words for it. -/

namespace ExactSimplex

/-- The relation between the left and the right side of a constraint. -/
inductive Relation where
  | atMost
  | atLeast
  | equal
deriving DecidableEq, Repr

namespace Relation

/-- How a relation is written in a model. -/
def sign : Relation → String
  | atMost => "<="
  | atLeast => ">="
  | equal => "="

/-- What a relation is called where it is a value of its own. -/
def name : Relation → String
  | atMost => "LE"
  | atLeast => "GE"
  | equal => "EQ"

/-- The relation with its sides exchanged, which is also the one between the negated sides. -/
def converse : Relation → Relation
  | atMost => atLeast
  | atLeast => atMost
  | equal => equal

theorem converse_converse (r : Relation) : r.converse.converse = r := by cases r <;> rfl

/-- The signs and words that name a relation, in lower case. -/
def names : List (String × Relation) :=
  [("<=", atMost), ("le", atMost), (">=", atLeast), ("ge", atLeast),
    ("=", equal), ("==", equal), ("eq", equal)]

/-- The relation that a text names, in any case and with blanks around.  Lowering the ASCII letters
is enough, since no other letter has a name's letter as its lower case. -/
def parse (text : Text) : Except Error Relation :=
  match text.chars?.bind fun cs =>
      names.lookup (String.ofList ((Text.trimBlanks cs).map Char.toLower)) with
  | some r => .ok r
  | none => .error .unknownRelation

/-- Two numbers stand in the relation. -/
def Holds (r : Relation) (left right : Rat) : Prop :=
  match r with
  | atMost => left ≤ right
  | atLeast => right ≤ left
  | equal => left = right

instance (r : Relation) (left right : Rat) : Decidable (r.Holds left right) := by
  cases r <;> unfold Holds <;> infer_instance

end Relation

end ExactSimplex
