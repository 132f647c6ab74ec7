import ExactSimplex.Value

/-! JSON documents.  Numbers with a point or an exponent are read as exact decimals, the others as
integers; `NaN`, `Infinity` and `-Infinity` are read as doubles.  Of two fields of one name the
later counts, at the place of the earlier.  Two escapes for the halves of a surrogate pair make one
character; half of a pair that stands alone is kept.  Lists and records nest to a bounded depth. -/

namespace ExactSimplex.Json

/-- White space between the parts of a document. -/
def isSpace : Symbol → Bool
  | .char c => c = ' ' || c = '\t' || c = '\n' || c = '\r'
  | .half _ => false

/-- A document without the white space in front. -/
def skipSpace (ss : List Symbol) : List Symbol := ss.dropWhile isSpace

/-! ### Strings -/

/-- The value of a hexadecimal digit. -/
def hexDigit? (c : Char) : Option Nat :=
  if '0' ≤ c && c ≤ '9' then some (c.toNat - '0'.toNat)
  else if 'a' ≤ c && c ≤ 'f' then some (c.toNat - 'a'.toNat + 10)
  else if 'A' ≤ c && c ≤ 'F' then some (c.toNat - 'A'.toNat + 10)
  else none

/-- The code unit that four hexadecimal digits stand for. -/
def codeUnit? (a b c d : Char) : Option Nat := do
  return (((← hexDigit? a) * 16 + (← hexDigit? b)) * 16 + (← hexDigit? c)) * 16 + (← hexDigit? d)

/-- The character that a letter stands for behind a backslash. -/
def escaped? : Char → Option Char
  | '"' => some '"'
  | '\\' => some '\\'
  | '/' => some '/'
  | 'b' => some '\x08'
  | 'f' => some '\x0c'
  | 'n' => some '\n'
  | 'r' => some '\r'
  | 't' => some '\t'
  | _ => none

/-- A part of a string: what stands for itself, or a code unit written as an escape. -/
inductive Piece where
  | plain (s : Symbol)
  | unit (n : Nat)

/-- Reads the pieces of a string up to its closing quote; `pieces` holds those before, the last one
first. -/
def readPieces (pieces : List Piece) : List Symbol → Except Error (List Piece × List Symbol)
  | .char '"' :: rest => .ok (pieces.reverse, rest)
  | .char '\\' :: .char 'u' :: .char a :: .char b :: .char c :: .char d :: rest =>
    match codeUnit? a b c d with
    | some n => readPieces (.unit n :: pieces) rest
    | none => .error .malformedJson
  | .char '\\' :: .char letter :: rest =>
    match escaped? letter with
    | some c => readPieces (.plain (.char c) :: pieces) rest
    | none => .error .malformedJson
  | .char '\\' :: _ => .error .malformedJson
  | s :: rest =>
    if s.codePoint < 0x20 then .error .malformedJson else readPieces (.plain s :: pieces) rest
  | [] => .error .malformedJson

/-- The first half of a surrogate pair. -/
def isHighSurrogate (unit : Nat) : Bool := 0xD800 ≤ unit && unit < 0xDC00

/-- The second half of a surrogate pair. -/
def isLowSurrogate (unit : Nat) : Bool := 0xDC00 ≤ unit && unit < 0xE000

/-- The symbols of pieces, two surrogates in a row making one character. -/
def symbols : List Piece → List Symbol
  | .unit high :: .unit low :: rest =>
    if isHighSurrogate high && isLowSurrogate low then
      .char (Char.ofNat (0x10000 + (high - 0xD800) * 0x400 + (low - 0xDC00))) :: symbols rest
    else .ofUnit high :: symbols (.unit low :: rest)
  | .unit n :: rest => .ofUnit n :: symbols rest
  | .plain s :: rest => s :: symbols rest
  | [] => []

/-- Reads a string behind its opening quote. -/
def readString (ss : List Symbol) : Except Error (Text × List Symbol) :=
  (readPieces [] ss).map fun (pieces, rest) => (⟨symbols pieces⟩, rest)

/-! ### Numbers -/

/-- The digits that numbers are written with. -/
def isAsciiDigit (c : Char) : Bool := '0' ≤ c && c ≤ '9'

/-- The digits in front, and what comes after them. -/
def spanDigits : List Symbol → List Char × List Symbol
  | .char c :: rest =>
    if isAsciiDigit c then
      let (digits, after) := spanDigits rest
      (c :: digits, after)
    else ([], .char c :: rest)
  | rest => ([], rest)

/-- The digits of a whole part: a zero alone, or digits that do not start with zero. -/
def readWhole : List Symbol → Except Error (List Char × List Symbol)
  | .char '0' :: rest => .ok (['0'], rest)
  | ss => match spanDigits ss with
    | ([], _) => .error .malformedJson
    | (digits, rest) => .ok (digits, rest)

/-- The digits after a point, none when no digit follows it. -/
def readFraction : List Symbol → List Char × List Symbol
  | .char '.' :: rest => match spanDigits rest with
    | ([], _) => ([], .char '.' :: rest)
    | (digits, after) => (digits, after)
  | ss => ([], ss)

/-- Reads a power of ten, if one stands in front. -/
def readPower (ss : List Symbol) : Option (Int × List Symbol) :=
  match ss with
  | .char e :: rest =>
    if e = 'e' || e = 'E' then
      match rest with
      | .char '-' :: after => digits after fun n => -n
      | .char '+' :: after => digits after fun n => n
      | after => digits after fun n => n
    else none
  | _ => none
where
  digits (ss : List Symbol) (sign : Int → Int) : Option (Int × List Symbol) :=
    match spanDigits ss with
    | ([], _) => none
    | (ds, after) => some (sign (Text.digitsValue ds), after)

/-- A decimal as a value, unless its exponent is out of range. -/
def decimal (negative : Bool) (size : Nat) (exponent : Int) : Except Error Value :=
  match Decimal.bounded? negative size exponent with
  | some d => .ok (.decimal d)
  | none => .error .malformedDecimal

/-- Reads a number after its sign.  An integer is read at once, so it may have too many digits. -/
def readNumber (digits : DigitLimit) (negative : Bool) (ss : List Symbol) :
    Except Error (Value × List Symbol) := do
  let (whole, afterWhole) ← readWhole ss
  let (fraction, afterFraction) := readFraction afterWhole
  let size := Text.digitsValue (whole ++ fraction)
  match readPower afterFraction with
  | some (power, rest) => return (← decimal negative size (power - fraction.length), rest)
  | none =>
    if fraction.isEmpty then return (.int (← digits.read (.ofDigits negative whole)), afterFraction)
    else return (← decimal negative size (-fraction.length), afterFraction)

/-! ### Values -/

/-- The infinite doubles. -/
def infinity (negative : Bool) : Value :=
  .double (Float.ofBits (if negative then 0xFFF0000000000000 else 0x7FF0000000000000))

/-- The double that is no number. -/
def notANumber : Value := .double (Float.ofBits 0x7FF8000000000000)

/-- The words that stand for values. -/
def words : List (List Symbol × Value) :=
  [("null", Value.null), ("true", .bool true), ("false", .bool false), ("NaN", notANumber),
    ("Infinity", infinity false), ("-Infinity", infinity true)].map
      fun (word, v) => ((Text.ofString word).symbols, v)

/-- Reads a word or a number. -/
def readAtom (digits : DigitLimit) (ss : List Symbol) : Except Error (Value × List Symbol) :=
  match words.find? fun (word, _) => word.isPrefixOf ss with
  | some (word, v) => .ok (v, ss.drop word.length)
  | none =>
    match ss with
    | .char '-' :: rest => readNumber digits true rest
    | ss => readNumber digits false ss

/-- How deep lists and records may nest. -/
def depthLimit : Nat := 990

mutual

/-- Reads one value with at most `levels` levels; `fuel` bounds the depth of the calls. -/
def readValue (digits : DigitLimit) (fuel levels : Nat) (ss : List Symbol) :
    Except Error (Value × List Symbol) :=
  match fuel with
  | 0 => .error .malformedJson
  | fuel + 1 =>
    match ss with
    | .char '"' :: rest => (readString rest).map fun (t, after) => (.text t, after)
    | .char '[' :: rest =>
      match levels with
      | 0 => .error .tooDeep
      | levels + 1 =>
        match skipSpace rest with
        | .char ']' :: after => .ok (.list [], after)
        | inside =>
          (readItems digits fuel levels inside).map fun (items, after) => (.list items, after)
    | .char '{' :: rest =>
      match levels with
      | 0 => .error .tooDeep
      | levels + 1 =>
        match skipSpace rest with
        | .char '}' :: after => .ok (.record [], after)
        | inside =>
          (readFields digits fuel levels [] inside).map fun (fields, after) =>
            (.record fields, after)
    | ss => readAtom digits ss

/-- Reads the items of a list up to its closing bracket. -/
def readItems (digits : DigitLimit) (fuel levels : Nat) (ss : List Symbol) :
    Except Error (List Value × List Symbol) :=
  match fuel with
  | 0 => .error .malformedJson
  | fuel + 1 => do
    let (item, afterItem) ← readValue digits fuel levels ss
    match skipSpace afterItem with
    | .char ']' :: rest => return ([item], rest)
    | .char ',' :: rest =>
      let (items, after) ← readItems digits fuel levels (skipSpace rest)
      return (item :: items, after)
    | _ => throw .malformedJson

/-- Reads the fields of a record up to its closing brace, after those in `fields`. -/
def readFields (digits : DigitLimit) (fuel levels : Nat) (fields : List (Text × Value))
    (ss : List Symbol) :
    Except Error (List (Text × Value) × List Symbol) :=
  match fuel with
  | 0 => .error .malformedJson
  | fuel + 1 =>
    match ss with
    | .char '"' :: rest => do
      let (key, afterKey) ← readString rest
      match skipSpace afterKey with
      | .char ':' :: afterColon =>
        let (v, afterValue) ← readValue digits fuel levels (skipSpace afterColon)
        let fields := Value.setField key v fields
        match skipSpace afterValue with
        | .char '}' :: after => return (fields, after)
        | .char ',' :: after => readFields digits fuel levels fields (skipSpace after)
        | _ => throw .malformedJson
      | _ => throw .malformedJson
    | _ => .error .malformedJson

end

/-- The value of a document.  Every second call reads a symbol, which bounds the depth. -/
def parse (digits : DigitLimit) (document : Text) : Except Error Value := do
  let ss := document.symbols
  let (v, rest) ← readValue digits (2 * ss.length + 2) depthLimit (skipSpace ss)
  if (skipSpace rest).isEmpty then return v else throw .malformedJson

end ExactSimplex.Json
