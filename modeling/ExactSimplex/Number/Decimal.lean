import ExactSimplex.Number.Digits
import ExactSimplex.Text.Digit

/-! Decimal numbers: a sign, a coefficient and a power of ten, kept as they are written, besides the
infinities and the values that are no numbers.  Exponents are bounded. -/

namespace ExactSimplex

/-- A decimal as it is written; trailing zeros and a negative zero are kept. -/
inductive Decimal where
  | finite (negative : Bool) (coefficient : Nat) (exponent : Int)
  | infinite (negative : Bool)
  /-- A value that is no number, quiet or signalling, with a diagnostic number that may be zero. -/
  | notANumber (negative signalling : Bool) (diagnostic : Nat)
deriving DecidableEq, Repr

namespace Decimal

/-- The rational that a finite decimal denotes. -/
def toRat? : Decimal → Option Rat
  | finite negative coefficient exponent =>
    let size := mkRat (coefficient * Nat.pow 10 exponent.toNat : Nat) (Nat.pow 10 (-exponent).toNat)
    some (if negative then -size else size)
  | _ => none

/-- The greatest power of ten that a first digit may have. -/
def greatestExponent : Int := 999999999999999999

/-- The least power of ten that a last digit may have. -/
def leastExponent : Int := -1999999999999999997

/-- The power of ten of the first digit. -/
def leadingExponent (coefficient : Nat) (exponent : Int) : Int :=
  exponent + (Nat.toDigits 10 coefficient).length - 1

/-- A finite decimal, if its first and its last digit stay within the bounds. -/
def bounded? (negative : Bool) (coefficient : Nat) (exponent : Int) : Option Decimal :=
  if leadingExponent coefficient exponent ≤ greatestExponent ∧ leastExponent ≤ exponent then
    some (finite negative coefficient exponent)
  else none

/-- A value that is no number is not zero. -/
def isZero : Decimal → Bool
  | finite _ coefficient _ => coefficient = 0
  | _ => false

/-- A minus sign, or nothing. -/
def signText (negative : Bool) : String := if negative then "-" else ""

/-- The digits of a coefficient with a point where the exponent puts it, or in scientific form when
the number ends before its unit digit or starts more than six places behind the point. -/
def finiteText (coefficient : Nat) (exponent : Int) : List Char :=
  let digits := Nat.toDigits 10 coefficient
  let leading := leadingExponent coefficient exponent
  if 0 < exponent || leading < -6 then
    digits.take 1 ++ fractionText (digits.drop 1) ++
      'E' :: (if leading < 0 then '-' else '+') :: Nat.toDigits 10 leading.natAbs
  else if leading < 0 then
    ['0', '.'] ++ List.replicate (-leading - 1).toNat '0' ++ digits
  else
    let places := leading.toNat + 1
    digits.take places ++ fractionText (digits.drop places)

/-- A decimal in writing, which keeps the form that it has. -/
def text : Decimal → String
  | finite negative coefficient exponent =>
    signText negative ++ String.ofList (finiteText coefficient exponent)
  | infinite negative => signText negative ++ "Infinity"
  | notANumber negative signalling diagnostic =>
    signText negative ++ (if signalling then "sNaN" else "NaN") ++
      (if diagnostic = 0 then "" else toString diagnostic)

/-- The power of ten after the digits: nothing, or the letter and a whole number. -/
def readExponent : List Char → Option Int
  | [] => some 0
  | 'e' :: cs =>
    match Text.readInt cs with
    | some (exponent, []) => some exponent.value
    | _ => none
  | _ => none

/-- Reads a decimal without its sign; letters are in lower case. -/
def readUnsigned (negative : Bool) (cs : List Char) : Option Decimal :=
  let whole := cs.takeWhile Text.isDigit
  let rest := cs.dropWhile Text.isDigit
  let (fraction, tail) := match rest with
    | '.' :: after => (after.takeWhile Text.isDigit, after.dropWhile Text.isDigit)
    | _ => ([], rest)
  if whole.isEmpty && fraction.isEmpty then none
  else (readExponent tail).bind fun exponent =>
    bounded? negative (Text.digitsValue (whole ++ fraction)) (exponent - fraction.length)

/-- Reads the diagnostic number after the name of a value that is no number. -/
def readDiagnostic (negative signalling : Bool) (cs : List Char) : Option Decimal :=
  if cs.all Text.isDigit then some (notANumber negative signalling (Text.digitsValue cs)) else none

/-- Reads an infinity, a value that is no number, or a decimal, after the sign. -/
def readAfterSign (negative : Bool) (cs : List Char) : Option Decimal :=
  match cs with
  | ['i', 'n', 'f'] | ['i', 'n', 'f', 'i', 'n', 'i', 't', 'y'] => some (infinite negative)
  | 'n' :: 'a' :: 'n' :: rest => readDiagnostic negative false rest
  | 's' :: 'n' :: 'a' :: 'n' :: rest => readDiagnostic negative true rest
  | _ => readUnsigned negative cs

/-- Reads a decimal; the case of letters, underscores and blanks at the ends do not matter. -/
def parse? (text : String) : Option Decimal :=
  let body := (Text.trimBlanks text.toList).filterMap fun c =>
    if c = '_' then none else some c.toLower
  match body with
  | '-' :: cs => readAfterSign true cs
  | '+' :: cs => readAfterSign false cs
  | cs => readAfterSign false cs

end Decimal

end ExactSimplex
