import ExactSimplex.Tableau.Basic

/-! A tableau as a table of text.  All columns have one width, two more than the longest cell and
six at least, and the objective row stands below a line.  A tableau with an entry that cannot be
written has no table. -/

namespace ExactSimplex

/-- A text with blanks in front that fill it up to a width. -/
def alignRight (width : Nat) (s : String) : String :=
  String.ofList (List.replicate (width - s.length) ' ') ++ s

/-- Names in single quotes, between brackets. -/
def bracketed (names : List String) : String :=
  "[" ++ ", ".intercalate (names.map fun name => "'" ++ name ++ "'") ++ "]"

namespace Tableau

/-- The name of a column, or its number if the column is gone. -/
def columnName (t : Tableau) (j : Nat) : String := t.names.getD j s!"#{j}"

/-- The names of the columns, the right-hand side last. -/
def headers (t : Tableau) : List String := t.names ++ ["RHS"]

/-- The texts of the entries, row by row. -/
def cells (digits : DigitLimit) (t : Tableau) : Except Error (List (List String)) :=
  (t.rows ++ [t.objective]).mapM fun r => r.entries.mapM (Rational.write digits)

/-- The width of the columns of a table with these cells. -/
def columnWidth (t : Tableau) (cells : List (List String)) : Nat :=
  max 6 (((t.headers ++ cells.flatten).map String.length).foldl max 0 + 2)

/-- The lines of a table with these cells. -/
def lines (t : Tableau) (title : String) (cells : List (List String)) : List String :=
  let width := t.columnWidth cells
  let line (cells : List String) := " ".intercalate (cells.map (alignRight width))
  let rule := String.ofList (List.replicate (t.headers.length * (width + 1)) '-')
  ["\n=== " ++ title ++ " ===", "Basis: " ++ bracketed (t.basis.map t.columnName),
    line t.headers, rule] ++
  (cells.dropLast.map line ++ rule :: (cells.getLast?.map line).toList)

/-- The table as one text without a line break at its end. -/
def format (digits : DigitLimit) (t : Tableau) (title : String) : Except Error String := do
  return "\n".intercalate (t.lines title (← t.cells digits))

end Tableau

end ExactSimplex
