import ExactSimplex.Text.Blank

/-! Decimal digits of every script, and the whole numbers written with them.  The digits of a
script are ten neighbours, from zero to nine, so a digit is told by the zero that it follows.
Digits of different scripts may stand in one number. -/

namespace ExactSimplex.Text

/-- The code point of the digit zero of every script that has decimal digits. -/
def zeros : List Nat :=
  [0x30, 0x660, 0x6F0, 0x7C0, 0x966, 0x9E6, 0xA66, 0xAE6, 0xB66, 0xBE6, 0xC66, 0xCE6, 0xD66, 0xDE6,
    0xE50, 0xED0, 0xF20, 0x1040, 0x1090, 0x17E0, 0x1810, 0x1946, 0x19D0, 0x1A80, 0x1A90, 0x1B50,
    0x1BB0, 0x1C40, 0x1C50, 0xA620, 0xA8D0, 0xA900, 0xA9D0, 0xA9F0, 0xAA50, 0xABF0, 0xFF10,
    0x104A0, 0x10D30, 0x11066, 0x110F0, 0x11136, 0x111D0, 0x112F0, 0x11450, 0x114D0, 0x11650,
    0x116C0, 0x11730, 0x118E0, 0x11950, 0x11C50, 0x11D50, 0x11DA0, 0x16A60, 0x16AC0, 0x16B50,
    0x1D7CE, 0x1D7D8, 0x1D7E2, 0x1D7EC, 0x1D7F6, 0x1E140, 0x1E2F0, 0x1E950, 0x1FBF0]

/-- The value of a decimal digit, `none` for any other character. -/
def digitValue? (c : Char) : Option Nat :=
  (zeros.find? fun z => z ≤ c.toNat && c.toNat < z + 10).map (c.toNat - ·)

/-- Whether a character is a decimal digit of some script. -/
def isDigit (c : Char) : Bool := (digitValue? c).isSome

theorem digitValue?_lt {c : Char} {d : Nat} (h : digitValue? c = some d) : d < 10 := by
  obtain ⟨z, hz, rfl⟩ := Option.map_eq_some_iff.1 h
  have := List.find?_some hz
  simp only [Bool.and_eq_true, decide_eq_true_eq] at this
  omega

/-- The number that digits stand for, the last of them in the unit place. -/
def digitsValue (cs : List Char) : Nat :=
  cs.foldl (fun n c => 10 * n + (digitValue? c).getD 0) 0

/-- A whole number as it stands in a text: its value, and how many digits it is written with. -/
structure Written where
  value : Int
  size : Nat
deriving DecidableEq, Repr

/-- The number that digits stand for, and its opposite with a sign in front. -/
def Written.ofDigits (negative : Bool) (digits : List Char) : Written :=
  ⟨if negative then -digitsValue digits else digitsValue digits, digits.length⟩

/-- The longest row of digits at the front, which has to hold at least one, and what follows it. -/
def readDigits (cs : List Char) : Option (List Char × List Char) :=
  let digits := cs.takeWhile isDigit
  if digits.isEmpty then none else some (digits, cs.dropWhile isDigit)

/-- Reads a whole number at the front: a sign that may be left out, and digits. -/
def readInt : List Char → Option (Written × List Char)
  | '-' :: cs => (readDigits cs).map fun (digits, rest) => (.ofDigits true digits, rest)
  | '+' :: cs => (readDigits cs).map fun (digits, rest) => (.ofDigits false digits, rest)
  | cs => (readDigits cs).map fun (digits, rest) => (.ofDigits false digits, rest)

/-- The blanks around a whole number on its own are those of `isBlank` but for the four separators
from U+001C to U+001F. -/
def isNumberBlank (c : Char) : Bool := isBlank c && !(0x1C ≤ c.toNat && c.toNat ≤ 0x1F)

/-- Digits in which a single underscore may stand between two of them: the digits alone. -/
def ungroup? : List Char → Option (List Char)
  | [] => none
  | [c] => if isDigit c then some [c] else none
  | c :: '_' :: cs => if isDigit c then (ungroup? cs).map (c :: ·) else none
  | c :: cs => if isDigit c then (ungroup? cs).map (c :: ·) else none

/-- Reads a text that is one whole number: blanks around it, a sign, and grouped digits. -/
def parseInt? (text : String) : Option Written :=
  let body := ((text.toList.dropWhile isNumberBlank).reverse.dropWhile isNumberBlank).reverse
  match body with
  | '-' :: cs => (ungroup? cs).map (.ofDigits true)
  | '+' :: cs => (ungroup? cs).map (.ofDigits false)
  | cs => (ungroup? cs).map (.ofDigits false)

end ExactSimplex.Text
