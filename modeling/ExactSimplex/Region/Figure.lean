import ExactSimplex.Number.General
import ExactSimplex.Region.Geometry
import ExactSimplex.Solver

/-! The picture of a program with two variables: its constraints as lines, the feasible region, the
corners, and for a solved program the best point with the line of its value.  The picture is a list
of drawing commands in the vocabulary of a plotting tool. -/

namespace ExactSimplex.Region

/-- What a drawing command is given. -/
inductive Argument where
  | int (n : Int)
  | text (s : String)
  | flag (b : Bool)
  | number (x : Float)
  | list (items : List Argument)
  | series (values : Array Float)
  /-- Values over the points of a lattice, row by row. -/
  | lattice (rows : Array (Array Float))
  /-- A choice of the points of a lattice, row by row. -/
  | mask (rows : Array (Array Bool))

/-- A drawing command, with arguments by place and by name. -/
structure Command where
  name : String
  arguments : List Argument
  options : List (String × Argument)

/-- The colours of the constraints, which are used again from the start. -/
def palette : Array String :=
  #["#1f77b4", "#ff7f0e", "#2ca02c", "#d62728", "#9467bd", "#8c564b", "#e377c2", "#7f7f7f",
    "#bcbd22", "#17becf"]

/-- The points `0`, `step`, ... up to `stop`, which is met exactly. -/
def samples (count : Nat) (stop : Float) : Array Float :=
  let step := stop / (count - 1).toFloat
  ((Array.range (count - 1)).map fun i => i.toFloat * step + 0).push stop

/-- The heights of a line above places on the first axis. -/
def Line.heights (l : Line) (xs : Array Float) : Array Float :=
  xs.map fun x => (l.c - l.a * x) / l.b

/-- A rational as a double, if it is not too large. -/
def toDouble (q : Rat) : Except Error Float :=
  match Double.ofRat? q with
  | some x => .ok x
  | none => .error .tooLarge

/-- Two coordinates, if there are two. -/
def pair? : List Float → Except Error (Float × Float)
  | [x, y] => .ok (x, y)
  | _ => .error .notPair

/-- The half-planes of a program: all coefficients are converted before the right-hand sides. -/
def halfPlanes (lp : LinearProgram) : Except Error (List HalfPlane) := do
  let rows ← lp.constraints.mapM fun c => c.coefficients.mapM toDouble
  let rhss ← lp.constraints.mapM fun c => toDouble c.rhs
  let sides ← rows.mapM pair?
  return (sides.zip (rhss.zip lp.constraints)).map fun (side, rhs, c) =>
    ⟨⟨side.1, side.2, rhs⟩, c.relation⟩

/-- The text of a constraint in the legend. -/
def HalfPlane.label (h : HalfPlane) (i : Nat) : String :=
  let a := General.text h.line.a
  let b := General.text h.line.b
  let c := General.text h.line.c
  s!"Constraint {i + 1}: {a}x1 + {b}x2 {h.relation.sign} {c}"

/-- The boundary of a half-plane, upright if the second coefficient is negligible; nothing if both
are. -/
def HalfPlane.draw (xs : Array Float) (h : HalfPlane) (i : Nat) : List Command :=
  let options :=
    [("color", .text (palette.getD (i % palette.size) "")), ("alpha", .number 0.7),
      ("label", .text (h.label i))]
  if h.line.b.abs < negligible then
    if h.line.a.abs > negligible then
      [⟨"axvline", [.number (h.line.c / h.line.a)], options⟩]
    else []
  else [⟨"plot", [.series xs, .series (h.line.heights xs)], options⟩]

/-- The points of a lattice that lie in all half-planes. -/
def shade (planes : List HalfPlane) (xmax ymax : Float) : Command :=
  let xs := samples 200 xmax
  let ys := samples 200 ymax
  let mask := ys.map fun y => xs.map fun x => planes.all fun h => h.contains x y
  ⟨"contourf",
    [.lattice (ys.map fun _ => xs), .lattice (ys.map fun y => xs.map fun _ => y), .mask mask],
    [("levels", .list [.number 0.5, .number 1.5]), ("colors", .list [.text "#e8f7ff"]),
      ("alpha", .number 0.5)]⟩

/-- The corners as dots. -/
def scatter (corners : List (Float × Float)) : Command :=
  ⟨"scatter",
    [.list (corners.map fun p => .number p.1), .list (corners.map fun p => .number p.2)],
    [("s", .int 25), ("color", .text "#444444"), ("alpha", .number 0.8), ("label", .text "BFS")]⟩

/-- The best point of a program in doubles, with its exact coordinates and the value there. -/
structure Optimum where
  point : Float × Float
  solution : List Rat
  value : Rat

/-- The first two coordinates of a point, which must be all. -/
def point? : List Float → Except Error (Float × Float)
  | [] | [_] => .error .outOfRange
  | coordinates => pair? coordinates

/-- The best point, if the program has one. -/
def optimum? : Option Outcome → Except Error (Option Optimum)
  | some (.optimal solution value) => do
    return some ⟨← point? (← solution.mapM toDouble), solution, value⟩
  | _ => .ok none

/-- The points at which the objective `l.a * x + l.b * y` has the value `l.c`. -/
def isoObjective (xs : Array Float) (l : Line) : List Command :=
  if l.b.abs > negligible then
    [⟨"plot", [.series xs, .series (l.heights xs), .text "r--"],
      [("label", .text "iso-objective")]⟩]
  else if l.a.abs > negligible then
    [⟨"axvline", [.number (l.c / l.a)],
      [("color", .text "red"), ("linestyle", .text "--"), ("label", .text "iso-objective")]⟩]
  else []

/-- The best point as a dot with its coordinates in the legend, and the value beside it. -/
def Optimum.mark (digits : DigitLimit) (o : Optimum) : Except Error (List Command) := do
  let coordinates := ", ".intercalate (← o.solution.mapM (Rational.write digits))
  let value ← Rational.write digits o.value
  let x : Argument := .number o.point.1
  let y : Argument := .number o.point.2
  return [⟨"plot", [.list [x], .list [y], .text "ro"],
      [("label", .text s!"optimal ({coordinates})")]⟩,
    ⟨"annotate", [.text ("Z* = " ++ value), .list [x, y]],
      [("textcoords", .text "offset points"), ("xytext", .list [.int 8, .int 8])]⟩]

/-- The line on which the objective has its best value, and the best point. -/
def Optimum.draw (digits : DigitLimit) (lp : LinearProgram) (xs : Array Float) (o : Optimum) :
    Except Error (List Command) := do
  let value ← toDouble o.value
  let (c1, c2) ← pair? (← lp.objective.mapM toDouble)
  return isoObjective xs ⟨c1, c2, value⟩ ++ (← o.mark digits)

/-- The limits, the labels and the legend. -/
def frame (xmax ymax : Float) : List Command :=
  [⟨"set_xlim", [.number 0, .number xmax], []⟩,
    ⟨"set_ylim", [.number 0, .number ymax], []⟩,
    ⟨"set_xlabel", [.text "x1"], []⟩,
    ⟨"set_ylabel", [.text "x2"], []⟩,
    ⟨"set_title", [.text "Constraints, Feasible Region, Iso-objective"], []⟩,
    ⟨"legend", [], [("loc", .text "best"), ("fontsize", .int 8)]⟩,
    ⟨"grid", [.flag true], [("alpha", .number 0.3)]⟩,
    ⟨"tight_layout", [], []⟩]

/-- The picture of a program with two variables and, if it is known, its outcome; none when there
are not two variables, or nothing to show. -/
def draw (digits : DigitLimit) (lp : LinearProgram) (outcome : Option Outcome) :
    Except Error (Option (List Command)) := do
  if lp.numVars ≠ 2 then return none
  let planes ← halfPlanes lp
  let best ← optimum? outcome
  let corners := (cornerPoints (planes.map (·.line))).filter (inside planes)
  match corners ++ (best.map (·.point)).toList with
  | [] => return none
  | first :: others =>
    let xmax := greatest 1 [greatest first.1 (others.map (·.1))] * 1.2
    let ymax := greatest 1 [greatest first.2 (others.map (·.2))] * 1.2
    let xs := samples 400 xmax
    let optimumCommands ← match best with
      | some o => o.draw digits lp xs
      | none => pure []
    return some <|
      (planes.mapIdx fun i h => h.draw xs i).flatten ++
        [shade planes xmax ymax, scatter (first :: others)] ++ optimumCommands ++ frame xmax ymax

end ExactSimplex.Region
