import ExactSimplex.Model.Record

/-! Programs while they are being written.  A draft is a store of attributes, and everything that is
done to it gives some attribute a value.  Three of them, the objective, the sense and the objective
whose greatest value is sought, take no value any more once the last of the three has one; it gets
one when the draft is made.  Any other attribute takes any value, the constraints among them: an
empty value there stands for no constraints, but nothing can be added to it, and a value under the
name of an operation hides the operation.

Two attributes get past these rules.  The attributes as a whole may be replaced by the fields of a
record; what stands in the fixed places then is no longer computed with.  And the draft may be put
under another class, which knows no rules and has none of the operations. -/

namespace ExactSimplex

/-- What an attribute can hold. -/
inductive Attribute where
  | numbers (qs : List Rat)
  | truth (b : Bool)
  | constraints (cs : List Constraint)
  | value (v : Value)
  /-- A class that knows no rules about attributes. -/
  | bareClass

namespace Attribute

/-- How many items there are. -/
def count : Attribute → Except Error Nat
  | numbers qs => .ok qs.length
  | constraints cs => .ok cs.length
  | value v => v.items.map List.length
  | truth _ | bareClass => .error .unsupported

/-- The numbers that an objective was given with, coerced. -/
def rationals (digits : DigitLimit) : Attribute → Except Error (List Rat)
  | numbers qs => .ok qs
  | value v => v.rationals digits
  | truth _ | constraints _ | bareClass => .error .unsupported

/-- The numbers of an objective that was coerced. -/
def coerced : Attribute → Except Error (List Rat)
  | numbers qs => .ok qs
  | _ => .error .unsupported

/-- Whether an attribute counts as true. -/
def isTruthy : Attribute → Bool
  | truth b => b
  | numbers qs => !qs.isEmpty
  | constraints cs => !cs.isEmpty
  | value v => v.isTruthy
  | bareClass => true

/-- The constraints; a value holds none if it is empty, and is none if it is not. -/
def listed : Attribute → Except Error (List Constraint)
  | constraints cs => .ok cs
  | value v => do
    match ← v.items with
    | [] => return []
    | _ :: _ => throw .noSuchOperation
  | numbers _ | truth _ | bareClass => .error .unsupported

end Attribute

/-- A program while it is being written. -/
structure Draft where
  held : Text → Option Attribute
  /-- Whether the draft is under the rules, and has the operations, of its own class. -/
  ruled : Bool := true

/-- Work on a draft, which an error does not undo. -/
abbrev Change (α : Type) := ExceptT Error (StateM Draft) α

/-- The result of some work, and the draft afterwards. -/
def Change.on {α : Type} (x : Change α) (d : Draft) : Except Error α × Draft := x.run.run d

namespace Draft

/-- The draft with a value for an attribute. -/
def put (d : Draft) (name : Text) (a : Attribute) : Draft :=
  { d with held := fun other => if other = name then some a else d.held other }

/-- The draft with the fields of a record in the place of its attributes. -/
def renew (d : Draft) (fields : List (Text × Value)) : Draft :=
  { d with held := fun name => (fields.lookup name).map .value }

/-- The draft under a class without rules. -/
def recast (d : Draft) : Draft := { d with ruled := false }

/-- A draft without any attribute. -/
def blank : Draft := { held := fun _ => none }

/-- The attributes that take no value any more once a draft is made. -/
def fixedNames : List String := ["objective", "maximize", "max_objective"]

/-- The attributes that never take a value. -/
def derivedNames : List String := ["num_vars", "num_constraints", "__weakref__"]

/-- The fixed attributes, of which a class without rules has none. -/
def fixed (d : Draft) : List String := if d.ruled then fixedNames else []

/-- The attributes that never take a value under the class of the draft. -/
def derived (d : Draft) : List String := if d.ruled then derivedNames else ["__weakref__"]

/-- A result that may be an error, with nothing done to the draft. -/
def check {α : Type} (r : Except Error α) : Change α := ExceptT.mk (pure r)

/-- The value of an attribute. -/
def read (name : Text) : Change Attribute := do
  match (← get).held name with
  | some a => return a
  | none => throw .noSuchOperation

/-- Gives an attribute a value, without asking whether it takes one. -/
def store (name : Text) (a : Attribute) : Change Unit := modify fun d => d.put name a

/-- Gives an attribute a value if it takes one.  Two of them are more than places of the store: the
attributes as a whole, and the class. -/
def assign (name : Text) (a : Attribute) : Change Unit := do
  let d ← get
  match d.fixed.find? fun fixed => name = Text.ofString fixed with
  | some fixed =>
    if (d.held "max_objective").isSome then throw (.fixedAttribute fixed)
    else store name a
  | none =>
    if name ∈ d.derived.map Text.ofString then throw .derivedAttribute
    else if name = "__class__" then
      match a with
      | .bareClass => set d.recast
      | _ => throw .unsupported
    else if name = "__dict__" then
      match a with
      | .value (.record fields) => set (d.renew fields)
      | _ => throw .unsupported
    else store name a

/-- Refuses to go on unless the draft is under the rules. -/
def requireRules : Change Unit := do
  if (← get).ruled then return () else throw .noSuchOperation

/-- How many variables there are. -/
def numVars : Change Nat := do
  requireRules
  check (← read "objective").count

/-- How many constraints there are. -/
def numConstraints : Change Nat := do
  requireRules
  check (← read "constraints").count

/-- The objective whose greatest value is sought. -/
def maxObjective : Change (List Rat) := do
  check (← read "max_objective").coerced

/-- An operation under its name, which an attribute of this name hides. -/
def operation {α : Type} (name : Text) (x : Change α) : Change α := do
  if ((← get).held name).isSome then throw .unsupported
  else
    requireRules
    x

/-- Adds a constraint of any length. -/
def append (c : Constraint) : Change Unit := do
  match ← read "constraints" with
  | .constraints cs => assign "constraints" (.constraints (cs ++ [c]))
  | _ => throw .unsupported

/-- Adds a constraint that has as many coefficients as the objective. -/
def addConstraint (c : Constraint) : Change Unit := operation "add_constraint" do
  let expected ← numVars
  if c.coefficients.length = expected then append c
  else throw (.rowLength c.coefficients.length expected)

/-- Puts every constraint in normal form. -/
def normalize : Change Unit := do
  let cs ← check (← read "constraints").listed
  assign "constraints" (.constraints (cs.map Constraint.normalized))

/-- Stores what a draft is made with, then coerces it and adds the constraints one after the
other. -/
def make (digits : DigitLimit) (objective maximize : Value) (constraints : List Constraint) :
    Change Unit := do
  assign "objective" (.value objective)
  assign "maximize" (.value maximize)
  assign "constraints" (.constraints constraints)
  let qs ← check ((← read "objective").rationals digits)
  assign "objective" (.numbers qs)
  let sense := (← read "maximize").isTruthy
  assign "maximize" (.truth sense)
  -- from here on the fixed attributes take no value any more
  assign "max_objective" (.numbers (if sense then qs else qs.map (-·)))
  let given ← check (← read "constraints").listed
  assign "constraints" (.constraints [])
  given.forM addConstraint

/-- A draft that was made. -/
def create (digits : DigitLimit) (objective maximize : Value) (constraints : List Constraint) :
    Except Error Draft :=
  match (make digits objective maximize constraints).on blank with
  | (.ok (), d) => .ok d
  | (.error e, _) => .error e

/-- The program of a draft.  The sense is true when it is missing. -/
def program : Change LinearProgram := do
  requireRules
  let objective ← check (← read "objective").coerced
  let constraints ← check (← read "constraints").listed
  let maximize := ((← get).held "maximize").map Attribute.isTruthy
  return ⟨objective, maximize.getD true, constraints⟩

/-- The record of the program of a draft. -/
def toValue (digits : DigitLimit) : Change Value := operation "to_dict" do
  check ((← program).toValue digits)

end Draft

end ExactSimplex
