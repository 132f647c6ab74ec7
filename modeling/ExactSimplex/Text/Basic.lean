/-! Texts as they come from outside: rows of characters, in which half of a surrogate pair may stand
alone.  Such a half is no character, so it belongs to no class of characters and to no word, but a
text that holds one can be compared, taken apart and shown. -/

namespace ExactSimplex

/-- A place of a text. -/
inductive Symbol where
  | char (c : Char)
  /-- Half of a surrogate pair, by its distance from the first of them. -/
  | half (offset : Fin 0x800)
deriving DecidableEq, Repr

namespace Symbol

/-- The code point of the first half of a surrogate pair that there is. -/
def firstHalf : Nat := 0xD800

/-- The code point of a place. -/
def codePoint : Symbol → Nat
  | char c => c.toNat
  | half offset => firstHalf + offset

/-- The place with a given code point. -/
def ofUnit (unit : Nat) : Symbol :=
  if firstHalf ≤ unit && unit < firstHalf + 0x800 then half (Fin.ofNat 0x800 (unit - firstHalf))
  else char (Char.ofNat unit)

/-- The character that stands at a place, none for half of a pair. -/
def char? : Symbol → Option Char
  | char c => some c
  | half _ => none

end Symbol

/-- A text, place by place. -/
structure Text where
  symbols : List Symbol
deriving DecidableEq, Repr

namespace Text

/-- A string as a text; it holds no half of a pair. -/
def ofString (s : String) : Text := ⟨s.toList.map .char⟩

instance : Coe String Text := ⟨ofString⟩

/-- The characters of a text, none if half of a pair stands in it. -/
def chars? (t : Text) : Option (List Char) := t.symbols.mapM Symbol.char?

/-- Whether there is no place in a text. -/
def isEmpty (t : Text) : Bool := t.symbols.isEmpty

/-- The places of a text, each as a text. -/
def places (t : Text) : List Text := t.symbols.map fun s => ⟨[s]⟩

end Text

end ExactSimplex
