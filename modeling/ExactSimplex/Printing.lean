import ExactSimplex.Error

/-! Lines that are printed one after the other.  Each line is made when its turn comes; one that
cannot be made ends the printing with its error, and the lines before it stay printed. -/

namespace ExactSimplex

/-- What is printed, and whether an error ended the printing. -/
structure Printout where
  text : String
  result : Except Error Unit

namespace Printout

/-- The lines up to the first that cannot be made, each with a line break behind it. -/
def ofLines : List (Except Error String) → Printout
  | [] => ⟨"", .ok ()⟩
  | .ok line :: rest =>
    let after := ofLines rest
    ⟨line ++ "\n" ++ after.text, after.result⟩
  | .error e :: _ => ⟨"", .error e⟩

end Printout

end ExactSimplex
