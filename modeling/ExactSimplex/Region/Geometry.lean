import ExactSimplex.Model.Relation

/-! Half-planes in doubles: constraints of two variables as they are drawn.  Comparisons allow a
small error, and lines that are almost parallel do not meet. -/

namespace ExactSimplex.Region

/-- The error that a comparison allows. -/
def tolerance : Float := 1e-9

/-- What is smaller than this counts as zero in a determinant or a slope. -/
def negligible : Float := 1e-12

/-- Whether two numbers are related, up to the error allowed. -/
def satisfied (relation : Relation) (left right : Float) : Bool :=
  match relation with
  | .atMost => left ≤ right + tolerance
  | .atLeast => left ≥ right - tolerance
  | .equal => (left - right).abs ≤ tolerance

/-- The line `a * x + b * y = c`. -/
structure Line where
  a : Float
  b : Float
  c : Float

/-- The common point of two lines, unless they are almost parallel. -/
def Line.meet? (l m : Line) : Option (Float × Float) :=
  let det := l.a * m.b - l.b * m.a
  if det.abs < negligible then none
  else some ((l.c * m.b - l.b * m.c) / det, (l.a * m.c - l.c * m.a) / det)

/-- The common points of every two lines, in the order of the lines. -/
def meetings : List Line → List (Float × Float)
  | [] => []
  | l :: ls => ls.filterMap l.meet? ++ meetings ls

/-- The axes, as the lines on which a variable is zero. -/
def axes : List Line := [⟨1, 0, 0⟩, ⟨0, 1, 0⟩]

/-- Where the lines meet each other and the axes. -/
def cornerPoints (lines : List Line) : List (Float × Float) := meetings (lines ++ axes)

/-- A line with the side of it that is meant. -/
structure HalfPlane where
  line : Line
  relation : Relation

/-- Whether the point `(x, y)` lies in a half-plane. -/
def HalfPlane.contains (h : HalfPlane) (x y : Float) : Bool :=
  satisfied h.relation (h.line.a * x + h.line.b * y) h.line.c

/-- Whether a point lies in all half-planes and has no negative coordinate. -/
def inside (planes : List HalfPlane) (p : Float × Float) : Bool :=
  if p.1 < -tolerance || p.2 < -tolerance then false
  else planes.all fun h => h.contains p.1 p.2

/-- The first of the numbers unless a later one is greater. -/
def greatest (first : Float) (others : List Float) : Float :=
  others.foldl (fun best next => if next > best then next else best) first

end ExactSimplex.Region
