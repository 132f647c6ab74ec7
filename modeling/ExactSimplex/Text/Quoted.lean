import ExactSimplex.Text.Basic
import ExactSimplex.Text.Printable

/-! Text in quotes, as messages show it.  Single quotes stand around it, double ones when the text
holds a single quote and no double one.  A backslash goes before the quote in use and before a
backslash; characters that are not shown, and halves of surrogate pairs, are written by their code
points. -/

namespace ExactSimplex.Text

/-- The lower-case hexadecimal digits of `n`, filled up with zeros to `width`. -/
def hexadecimal (width n : Nat) : List Char :=
  let digits := Nat.toDigits 16 n
  List.replicate (width - digits.length) '0' ++ digits

/-- A code point with as few digits as hold it. -/
def escape (codePoint : Nat) : List Char :=
  if codePoint < 0x100 then '\\' :: 'x' :: hexadecimal 2 codePoint
  else if codePoint < 0x10000 then '\\' :: 'u' :: hexadecimal 4 codePoint
  else '\\' :: 'U' :: hexadecimal 8 codePoint

/-- How a character stands in a text that `mark` surrounds. -/
def quotedChar (mark c : Char) : List Char :=
  if c = '\\' || c = mark then ['\\', c]
  else match c with
    | '\n' => ['\\', 'n']
    | '\r' => ['\\', 'r']
    | '\t' => ['\\', 't']
    | _ => if isPrintable c then [c] else escape c.toNat

/-- How a place stands in a text that `mark` surrounds. -/
def quotedSymbol (mark : Char) : Symbol → List Char
  | .char c => quotedChar mark c
  | .half offset => escape (Symbol.half offset).codePoint

/-- The quote that goes around a text. -/
def quoteMark (t : Text) : Char :=
  if t.symbols.contains (.char '\'') && !t.symbols.contains (.char '"') then '"' else '\''

/-- A text in quotes. -/
def quoted (t : Text) : String :=
  String.ofList
    (t.quoteMark :: t.symbols.flatMap (quotedSymbol t.quoteMark) ++ [t.quoteMark])

end ExactSimplex.Text
