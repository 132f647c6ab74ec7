import ExactSimplex.Number.Rational
import Mathlib.Data.List.Induction
import Mathlib.Data.List.TakeWhile
import Mathlib.Data.Rat.Defs

/-! The grammar of literals, and that the reader accepts what it derives and nothing else.  A
character is a blank or a digit by the tables of their code points, where no two scripts and no
blank overlap; a number is one or more digits, each in the next decimal place, after an optional
sign; a literal is a number, or two with a slash between, and blanks around each of them.  The
reader takes as many digits or blanks as there are, so a derivation leaves it no choice.  Whether a
literal has a value then depends on the host, which may bound the digits of its numbers, and on the
denominator. -/

namespace ExactSimplex

namespace Text

/-! ### The grammar -/

/-- A blank. -/
def Blank (c : Char) : Prop := ∃ run ∈ blankRuns, run.1 ≤ c.toNat ∧ c.toNat ≤ run.2

/-- The first and the last code point of every run of characters that Unicode calls white space. -/
def whiteSpaceRuns : List (Nat × Nat) :=
  [(0x09, 0x0D), (0x20, 0x20), (0x85, 0x85), (0xA0, 0xA0), (0x1680, 0x1680), (0x2000, 0x200A),
    (0x2028, 0x2029), (0x202F, 0x202F), (0x205F, 0x205F), (0x3000, 0x3000)]

/-- A character with the property `White_Space`. -/
def WhiteSpace (c : Char) : Prop := ∃ run ∈ whiteSpaceRuns, run.1 ≤ c.toNat ∧ c.toNat ≤ run.2

/-- One of the four controls that separate files, groups, records and units. -/
def Separator (c : Char) : Prop := 0x1C ≤ c.toNat ∧ c.toNat ≤ 0x1F

/-- The digit of value `d` in some script. -/
def Digit (c : Char) (d : Nat) : Prop := d < 10 ∧ ∃ first ∈ zeros, c.toNat = first + d

/-- A row of blanks. -/
def Blanks (cs : List Char) : Prop := ∀ c ∈ cs, Blank c

/-- One or more digits, and their value in decimal places. -/
inductive Digits : List Char → Nat → Prop
  | one {c : Char} {d : Nat} : Digit c d → Digits [c] d
  | more {cs : List Char} {c : Char} {n d : Nat} :
    Digits cs n → Digit c d → Digits (cs ++ [c]) (10 * n + d)

/-- Digits after an optional sign, with their value and their number. -/
inductive Signed : List Char → Written → Prop
  | plain {cs : List Char} {n : Nat} : Digits cs n → Signed cs ⟨n, cs.length⟩
  | plus {cs : List Char} {n : Nat} : Digits cs n → Signed ('+' :: cs) ⟨n, cs.length⟩
  | minus {cs : List Char} {n : Nat} : Digits cs n → Signed ('-' :: cs) ⟨-n, cs.length⟩

/-- A literal with its numerator and with its denominator where one is written. -/
inductive Literal : List Char → Written → Option Written → Prop
  | whole {before num after : List Char} {a : Written} :
    Blanks before → Signed num a → Blanks after → Literal (before ++ (num ++ after)) a none
  | ratio {before num between between' den after : List Char} {a b : Written} :
    Blanks before → Signed num a → Blanks between →
    Blanks between' → Signed den b → Blanks after →
    Literal (before ++ (num ++ (between ++ '/' :: (between' ++ (den ++ after))))) a (some b)

/-- A text that is a literal.  Half of a surrogate pair stands in none. -/
def Denotes (t : Text) (num : Written) (den : Option Written) : Prop :=
  ∃ cs, t.symbols = cs.map .char ∧ Literal cs num den

/-! ### Characters -/

variable {c : Char} {cs rest : List Char} {d n : Nat} {w : Written}

/-- The blanks are the white space of Unicode and the four separators. -/
theorem blank_iff : Blank c ↔ WhiteSpace c ∨ Separator c := by
  simp only [Blank, WhiteSpace, Separator, blankRuns, whiteSpaceRuns, List.mem_cons,
    List.not_mem_nil, or_false, exists_eq_or_imp, exists_eq_left]
  omega

theorem Separator.not_whiteSpace (h : Separator c) : ¬WhiteSpace c := by
  have hapart : ∀ run ∈ whiteSpaceRuns, run.2 < 0x1C ∨ 0x1F < run.1 := by decide
  obtain ⟨hfirst, hlast⟩ := h
  rintro ⟨run, hrun, hlow, hhigh⟩
  have hout := hapart run hrun
  omega

theorem isBlank_iff : isBlank c = true ↔ Blank c := by
  simp [isBlank, Blank, List.any_eq_true]

theorem digitValue?_eq_some_iff : digitValue? c = some d ↔ Digit c d := by
  have happart : ∀ a ∈ zeros, ∀ b ∈ zeros, a = b ∨ a + 10 ≤ b ∨ b + 10 ≤ a := by decide +kernel
  constructor
  · intro h
    have hlt := digitValue?_lt h
    obtain ⟨first, hfind, rfl⟩ := Option.map_eq_some_iff.mp h
    have hfits := List.find?_some hfind
    rw [Bool.and_eq_true, decide_eq_true_eq, decide_eq_true_eq] at hfits
    exact ⟨hlt, first, List.mem_of_find?_eq_some hfind, by omega⟩
  · rintro ⟨hlt, first, hmem, hc⟩
    cases hfind : zeros.find? fun a => a ≤ c.toNat && c.toNat < a + 10 with
    | none =>
      have hnot := List.find?_eq_none.mp hfind first hmem
      rw [Bool.and_eq_true, decide_eq_true_eq, decide_eq_true_eq] at hnot
      omega
    | some other =>
      have hfits := List.find?_some hfind
      rw [Bool.and_eq_true, decide_eq_true_eq, decide_eq_true_eq] at hfits
      -- the digit fits one script only
      have hsame := happart first hmem other (List.mem_of_find?_eq_some hfind)
      have hvalue : c.toNat - other = d := by omega
      rw [digitValue?, hfind, Option.map_some, hvalue]

theorem isDigit_iff : isDigit c = true ↔ ∃ d, Digit c d := by
  simp only [isDigit, Option.isSome_iff_exists, digitValue?_eq_some_iff]

theorem Digit.isBlank (h : Digit c d) : isBlank c = false := by
  have happart : ∀ run ∈ blankRuns, ∀ first ∈ zeros, run.2 < first ∨ first + 10 ≤ run.1 := by
    decide +kernel
  obtain ⟨hlt, first, hmem, hc⟩ := h
  rw [← Bool.not_eq_true, isBlank_iff]
  rintro ⟨run, hrun, hlow, hhigh⟩
  have hout := happart run hrun first hmem
  omega

theorem Blank.isDigit (h : Blank c) : isDigit c = false := by
  rw [← Bool.not_eq_true, isDigit_iff]
  rintro ⟨d, hd⟩
  have hblank := isBlank_iff.mpr h
  rw [hd.isBlank] at hblank
  cases hblank

/-! ### Runs of blanks and of digits -/

/-- The text does not go on with a character of the class. -/
def Stops (p : Char → Bool) (cs : List Char) : Prop := ∀ c ∈ cs.head?, p c = false

section Munch

variable {p : Char → Bool} {run : List Char} (hrun : ∀ c ∈ run, p c = true) (hstop : Stops p rest)
include hrun hstop

theorem takeWhile_append_of_stops : (run ++ rest).takeWhile p = run := by
  have hrest : rest.takeWhile p = [] := by
    cases rest with
    | nil => rfl
    | cons c rest => rw [List.takeWhile_cons_of_neg (by rw [hstop c rfl]; decide)]
  rw [List.takeWhile_append_of_pos hrun, hrest, List.append_nil]

theorem dropWhile_append_of_stops : (run ++ rest).dropWhile p = rest := by
  rw [List.dropWhile_append_of_pos hrun]
  cases rest with
  | nil => rfl
  | cons c rest => rw [List.dropWhile_cons_of_neg (by rw [hstop c rfl]; decide)]

end Munch

theorem stops_dropWhile (p : Char → Bool) (cs : List Char) : Stops p (cs.dropWhile p) := by
  intro c hc
  have hnot := List.head?_dropWhile_not p cs
  rw [Option.mem_def.mp hc] at hnot
  exact hnot

theorem blanks_nil : Blanks [] := nofun

theorem Blanks.isBlank (h : Blanks cs) : ∀ c ∈ cs, isBlank c = true := fun c hc =>
  isBlank_iff.mpr (h c hc)

theorem blanks_takeWhile (cs : List Char) : Blanks (cs.takeWhile isBlank) := fun _ hc =>
  isBlank_iff.mp (List.mem_takeWhile_imp hc)

theorem Digits.isDigit (h : Digits cs n) : ∀ c ∈ cs, isDigit c = true := by
  induction h with
  | one hd =>
    intro c hc
    rw [List.mem_singleton.mp hc]
    exact isDigit_iff.mpr ⟨_, hd⟩
  | more _ hd ih =>
    intro c hc
    rcases List.mem_append.mp hc with hc | hc
    · exact ih c hc
    · rw [List.mem_singleton.mp hc]
      exact isDigit_iff.mpr ⟨_, hd⟩

theorem digitsValue_append_singleton (cs : List Char) (h : Digit c d) :
    digitsValue (cs ++ [c]) = 10 * digitsValue cs + d := by
  rw [digitsValue, List.foldl_append, List.foldl_cons, List.foldl_nil,
    digitValue?_eq_some_iff.mpr h, Option.getD_some]
  rfl

theorem Digits.digitsValue (h : Digits cs n) : digitsValue cs = n := by
  induction h with
  | one hd => exact (digitsValue_append_singleton [] hd).trans (Nat.zero_add _)
  | more _ hd ih => rw [digitsValue_append_singleton _ hd, ih]

theorem Digits.ne_nil (h : Digits cs n) : cs ≠ [] := by
  cases h <;> simp

theorem digits_digitsValue (hne : cs ≠ []) (h : ∀ c ∈ cs, isDigit c = true) :
    Digits cs (Text.digitsValue cs) := by
  induction cs using List.reverseRecOn with
  | nil => exact absurd rfl hne
  | append_singleton cs c ih =>
    obtain ⟨d, hd⟩ := isDigit_iff.mp (h c (by simp))
    rw [digitsValue_append_singleton cs hd]
    by_cases hempty : cs = []
    · subst hempty
      have hvalue : 10 * Text.digitsValue [] + d = d := Nat.zero_add d
      rw [hvalue]
      exact .one hd
    · exact .more (ih hempty fun c hc => h c (List.mem_append_left _ hc)) hd

/-- The reader takes the longest row of digits. -/
theorem readDigits_eq_some_iff {digits : List Char} : readDigits cs = some (digits, rest) ↔
    cs = digits ++ rest ∧ Digits digits (Text.digitsValue digits) ∧ Stops isDigit rest := by
  constructor
  · intro h
    rw [readDigits] at h
    split at h
    · cases h
    · rename_i hne
      cases h
      refine ⟨List.takeWhile_append_dropWhile.symm, ?_, stops_dropWhile _ _⟩
      exact digits_digitsValue (by simpa using hne) fun c hc => List.mem_takeWhile_imp hc
  · rintro ⟨rfl, hdigits, hstop⟩
    rw [readDigits, takeWhile_append_of_stops hdigits.isDigit hstop,
      dropWhile_append_of_stops hdigits.isDigit hstop, if_neg]
    simpa using hdigits.ne_nil

/-! ### Numbers and literals -/

theorem Digits.readDigits_append (h : Digits cs n) (hstop : Stops Text.isDigit rest) :
    readDigits (cs ++ rest) = some (cs, rest) := by
  have hvalue := h.digitsValue
  subst hvalue
  exact readDigits_eq_some_iff.mpr ⟨rfl, h, hstop⟩

theorem Digits.ofDigits (h : Digits cs n) (negative : Bool) :
    Written.ofDigits negative cs = ⟨if negative then -n else n, cs.length⟩ := by
  rw [Written.ofDigits, h.digitsValue]

theorem readInt_of_isDigit (h : isDigit c = true) (cs : List Char) : readInt (c :: cs) =
    (readDigits (c :: cs)).map fun (digits, rest) => (.ofDigits false digits, rest) := by
  rw [readInt]
  · intro _ heq
    cases heq
    exact absurd h (by decide)
  · intro _ heq
    cases heq
    exact absurd h (by decide)

theorem Digits.exists_cons (h : Digits cs n) :
    ∃ c tail, cs = c :: tail ∧ Text.isDigit c = true := by
  obtain ⟨c, tail, rfl⟩ := List.exists_cons_of_ne_nil h.ne_nil
  exact ⟨c, tail, rfl, h.isDigit c List.mem_cons_self⟩

theorem readInt_append (h : Signed cs w) (hstop : Stops isDigit rest) :
    readInt (cs ++ rest) = some (w, rest) := by
  cases h with
  | plain hdigits =>
    have hread := hdigits.readDigits_append hstop
    have hwritten := hdigits.ofDigits false
    obtain ⟨c, tail, rfl, hc⟩ := hdigits.exists_cons
    rw [List.cons_append] at hread ⊢
    rw [readInt_of_isDigit hc, hread, Option.map_some]
    exact congrArg (fun w => some (w, rest)) hwritten
  | plus hdigits =>
    rw [List.cons_append, readInt, hdigits.readDigits_append hstop, Option.map_some]
    exact congrArg (fun w => some (w, rest)) (hdigits.ofDigits _)
  | minus hdigits =>
    rw [List.cons_append, readInt, hdigits.readDigits_append hstop, Option.map_some]
    exact congrArg (fun w => some (w, rest)) (hdigits.ofDigits _)

theorem exists_of_readInt (h : readInt cs = some (w, rest)) :
    ∃ num, cs = num ++ rest ∧ Signed num w ∧ Stops isDigit rest := by
  unfold readInt at h
  split at h
  all_goals
    obtain ⟨⟨digits, rest'⟩, hread, hsame⟩ := Option.map_eq_some_iff.mp h
    cases hsame
    obtain ⟨rfl, hdigits, hstop⟩ := readDigits_eq_some_iff.mp hread
  · exact ⟨_, rfl, .minus hdigits, hstop⟩
  · exact ⟨_, rfl, .plus hdigits, hstop⟩
  · exact ⟨_, rfl, .plain hdigits, hstop⟩

theorem Signed.stops_isBlank (h : Signed cs w) (rest : List Char) :
    Stops isBlank (cs ++ rest) := by
  intro c hc
  cases h with
  | plain hdigits =>
    obtain ⟨c, tail, rfl, hdigit⟩ := hdigits.exists_cons
    cases hc
    obtain ⟨d, hd⟩ := isDigit_iff.mp hdigit
    exact hd.isBlank
  | plus | minus =>
    cases hc
    decide

theorem Blanks.stops_isDigit (h : Blanks cs) (hrest : Stops isDigit rest) :
    Stops isDigit (cs ++ rest) := by
  cases cs with
  | nil => exact hrest
  | cons c cs =>
    intro c' hc'
    cases hc'
    exact (h c List.mem_cons_self).isDigit

theorem stops_nil (p : Char → Bool) : Stops p [] := nofun

theorem stops_slash (rest : List Char) :
    Stops isDigit ('/' :: rest) ∧ Stops isBlank ('/' :: rest) := by
  constructor <;>
  · intro c hc
    cases hc
    decide

end Text

namespace Rational

open Text

variable {cs : List Char} {a : Written} {b : Option Written}

theorem readLiteral_of_literal (h : Literal cs a b) : readLiteral cs = some (a, b) := by
  cases h with
  | whole hbefore hnum hafter =>
    have hafter' := hafter.stops_isDigit (stops_nil isDigit)
    have hrest := dropWhile_append_of_stops hafter.isBlank (stops_nil isBlank)
    rw [List.append_nil] at hafter' hrest
    rw [readLiteral, dropWhile_append_of_stops hbefore.isBlank (hnum.stops_isBlank _),
      readInt_append hnum hafter']
    simp only [hrest]
  | ratio hbefore hnum hbetween hbetween' hden hafter =>
    have hafter' := hafter.stops_isDigit (stops_nil isDigit)
    rw [List.append_nil] at hafter'
    rw [readLiteral, dropWhile_append_of_stops hbefore.isBlank (hnum.stops_isBlank _),
      readInt_append hnum (hbetween.stops_isDigit (stops_slash _).1)]
    simp only [dropWhile_append_of_stops hbetween.isBlank (stops_slash _).2,
      dropWhile_append_of_stops hbetween'.isBlank (hden.stops_isBlank _),
      readInt_append hden hafter', List.all_eq_true.mpr hafter.isBlank, if_true]

/-- A number that is read after blanks stands after blanks. -/
theorem exists_of_readInt_dropWhile {rest : List Char} {w : Written}
    (h : readInt (cs.dropWhile isBlank) = some (w, rest)) :
    ∃ before num, cs = before ++ (num ++ rest) ∧ Blanks before ∧ Signed num w := by
  obtain ⟨num, hnum, hsigned, -⟩ := exists_of_readInt h
  refine ⟨cs.takeWhile isBlank, num, ?_, blanks_takeWhile cs, hsigned⟩
  rw [← hnum, List.takeWhile_append_dropWhile]

theorem literal_of_readLiteral (h : readLiteral cs = some (a, b)) : Literal cs a b := by
  unfold readLiteral at h
  split at h
  · cases h
  rename_i num afterNum hnum
  obtain ⟨before, numeral, rfl, hbefore, hsigned⟩ := exists_of_readInt_dropWhile hnum
  have hblanks := blanks_takeWhile afterNum
  have hafter : afterNum.takeWhile isBlank ++ afterNum.dropWhile isBlank = afterNum :=
    List.takeWhile_append_dropWhile
  split at h
  · rename_i hend
    cases h
    rw [hend, List.append_nil] at hafter
    exact .whole hbefore hsigned (hafter ▸ hblanks)
  · rename_i tail hslash
    split at h
    · cases h
    rename_i den afterDen hden
    obtain ⟨between, denominator, rfl, hbetween, hsigned'⟩ := exists_of_readInt_dropWhile hden
    split at h
    · rename_i hall
      cases h
      rw [hslash] at hafter
      rw [← hafter]
      refine .ratio hbefore hsigned hblanks hbetween hsigned' fun c hc => ?_
      exact isBlank_iff.mp (List.all_eq_true.mp hall c hc)
    · cases h
  · cases h

/-- The reader accepts what the grammar derives, and nothing else. -/
theorem readLiteral_eq_some_iff : readLiteral cs = some (a, b) ↔ Literal cs a b :=
  ⟨literal_of_readLiteral, readLiteral_of_literal⟩

end Rational

/-! ### Texts -/

namespace Text

theorem chars?_eq_some_iff {t : Text} {cs : List Char} :
    t.chars? = some cs ↔ t.symbols = cs.map .char := by
  obtain ⟨symbols⟩ := t
  rw [chars?]
  induction symbols generalizing cs with
  | nil => simp [eq_comm]
  | cons s symbols ih =>
    cases s with
    | char c =>
      cases cs <;>
        simp [List.mapM_cons, Symbol.char?, Option.bind_eq_some_iff, ih, and_comm]
    | half offset => cases cs <;> simp [List.mapM_cons, Symbol.char?]

end Text

namespace Rational

open Text

variable {t : Text} {a : Written} {b : Option Written} {num den : Int} {digits : DigitLimit}

theorem read_eq_some_iff : t.chars?.bind readLiteral = some (a, b) ↔ t.Denotes a b := by
  simp only [Option.bind_eq_some_iff, chars?_eq_some_iff, readLiteral_eq_some_iff, Denotes]

/-- A text is a literal in one way only. -/
theorem denotes_unique {a' : Written} {b' : Option Written} (h : t.Denotes a b)
    (h' : t.Denotes a' b') : a' = a ∧ b' = b := by
  have hsame := (read_eq_some_iff.mpr h').symm.trans (read_eq_some_iff.mpr h)
  rwa [Option.some_inj, Prod.mk.injEq] at hsame

/-- The numbers of a literal have no more digits than the host allows. -/
def Readable (digits : DigitLimit) (a : Written) (b : Option Written) : Prop :=
  digits.Allows a.size ∧ ∀ w ∈ b, digits.Allows w.size

/-- The denominator of a literal, one where none is written. -/
def denominator (b : Option Written) : Int := (b.map Written.value).getD 1

theorem readable_off (a : Written) (b : Option Written) : Readable .off a b :=
  ⟨DigitLimit.allows_off _, fun w _ => DigitLimit.allows_off w.size⟩

instance (digits : DigitLimit) (a : Written) (b : Option Written) :
    Decidable (Readable digits a b) :=
  inferInstanceAs (Decidable (_ ∧ ∀ w ∈ b, _))

theorem parse_of_not_denotes (h : ¬∃ a b, t.Denotes a b) :
    parse digits t = .error (.malformedLiteral t) := by
  simp only [← read_eq_some_iff] at h
  cases hread : t.chars?.bind readLiteral with
  | none => rw [parse, hread]
  | some p => exact absurd ⟨p.1, p.2, hread⟩ h

/-- The outcome for a literal is that of the ratio, if its numbers may be read. -/
theorem parse_of_denotes (h : t.Denotes a b) : parse digits t =
    if Readable digits a b then ofRatio a.value (denominator b) else .error .tooManyDigits := by
  have hread (w : Written) : digits.read w =
      if digits.Allows w.size then .ok w.value else .error .tooManyDigits := rfl
  rw [parse, read_eq_some_iff.mpr h]
  by_cases ha : digits.Allows a.size
  · cases b with
    | none => simp [hread, Readable, ha, denominator, bind, Except.bind]
    | some w =>
      by_cases hw : digits.Allows w.size <;>
        simp [hread, Readable, ha, hw, denominator, bind, Except.bind]
  · simp [hread, Readable, ha, bind, Except.bind]

theorem ofRatio_eq_ok_iff {q : Rat} :
    ofRatio num den = .ok q ↔ den ≠ 0 ∧ q = (num : Rat) / den := by
  rw [ofRatio, Rat.divInt_eq_div]
  split
  · rename_i hb
    exact ⟨nofun, fun h => absurd hb h.1⟩
  · rename_i hb
    rw [Except.ok.injEq, eq_comm]
    exact (and_iff_right hb).symm

theorem ofRatio_eq_error_iff {e : Error} :
    ofRatio num den = .error e ↔ den = 0 ∧ e = .zeroDenominator := by
  rw [ofRatio]
  split
  · rename_i hb
    rw [Except.error.injEq, eq_comm]
    exact (and_iff_right hb).symm
  · rename_i hb
    exact ⟨nofun, fun h => absurd h.1 hb⟩

theorem parse_eq_ok_iff {q : Rat} : parse digits t = .ok q ↔ ∃ a b, t.Denotes a b ∧
    Readable digits a b ∧ denominator b ≠ 0 ∧ q = (a.value : Rat) / denominator b := by
  by_cases hliteral : ∃ a b, t.Denotes a b
  · obtain ⟨a, b, h⟩ := hliteral
    rw [parse_of_denotes h]
    constructor
    · split
      · rename_i hread
        exact fun hq => ⟨a, b, h, hread, ofRatio_eq_ok_iff.mp hq⟩
      · exact nofun
    · rintro ⟨a', b', h', hread, hq⟩
      obtain ⟨rfl, rfl⟩ := denotes_unique h h'
      rw [if_pos hread]
      exact ofRatio_eq_ok_iff.mpr hq
  · rw [parse_of_not_denotes hliteral]
    exact ⟨nofun, fun ⟨a, b, h, _⟩ => absurd ⟨a, b, h⟩ hliteral⟩

/-- The reasons for which a text is refused, each with its error. -/
inductive Refused (digits : DigitLimit) (t : Text) : Error → Prop
  | malformed : (¬∃ a b, t.Denotes a b) → Refused digits t (.malformedLiteral t)
  | tooLong {a : Written} {b : Option Written} :
    t.Denotes a b → ¬Readable digits a b → Refused digits t .tooManyDigits
  | zero {a : Written} {b : Option Written} :
    t.Denotes a b → Readable digits a b → denominator b = 0 → Refused digits t .zeroDenominator

theorem parse_eq_error_iff {e : Error} : parse digits t = .error e ↔ Refused digits t e := by
  by_cases hliteral : ∃ a b, t.Denotes a b
  · obtain ⟨a, b, h⟩ := hliteral
    rw [parse_of_denotes h]
    by_cases hread : Readable digits a b
    · rw [if_pos hread, ofRatio_eq_error_iff]
      constructor
      · rintro ⟨hzero, rfl⟩
        exact .zero h hread hzero
      · rintro (hnot | ⟨h', hnot⟩ | ⟨h', -, hzero⟩)
        · exact absurd ⟨a, b, h⟩ hnot
        · obtain ⟨rfl, rfl⟩ := denotes_unique h h'
          exact absurd hread hnot
        · obtain ⟨rfl, rfl⟩ := denotes_unique h h'
          exact ⟨hzero, rfl⟩
    · rw [if_neg hread, Except.error.injEq]
      constructor
      · rintro rfl
        exact .tooLong h hread
      · rintro (hnot | _ | ⟨h', hread', -⟩)
        · exact absurd ⟨a, b, h⟩ hnot
        · rfl
        · obtain ⟨rfl, rfl⟩ := denotes_unique h h'
          exact absurd hread' hread
  · rw [parse_of_not_denotes hliteral, Except.error.injEq]
    constructor
    · rintro rfl
      exact .malformed hliteral
    · rintro (_ | ⟨h', _⟩ | ⟨h', _, _⟩)
      · rfl
      · exact absurd ⟨_, _, h'⟩ hliteral
      · exact absurd ⟨_, _, h'⟩ hliteral

/-- A text is read if and only if it is in the grammar, its numbers have no more digits than the
host allows, and its denominator is not zero; it is refused for its form, for its length or for its
denominator, and for no other reason.  Where the host sets no bound the length is no reason.  Blanks
are the white space of Unicode and four controls besides. -/
theorem parse_follows_grammar (digits : DigitLimit) (t : Text) :
    (∀ q, parse digits t = .ok q ↔ ∃ a b, t.Denotes a b ∧ Readable digits a b ∧
      denominator b ≠ 0 ∧ q = (a.value : Rat) / denominator b) ∧
    (∀ e, parse digits t = .error e ↔ Refused digits t e) ∧
    (∀ a b, Readable .off a b) ∧ ∀ c, Blank c ↔ WhiteSpace c ∨ Separator c :=
  ⟨fun _ => parse_eq_ok_iff, fun _ => parse_eq_error_iff, readable_off, fun _ => blank_iff⟩

/-- Digits of several scripts, and blanks around both numbers. -/
example : parse .off " +1२ / -٤\n" = .ok (-3) := by decide +kernel

/-- No blank after a sign. -/
example : parse .standard "- 1" = .error (.malformedLiteral "- 1") := by decide +kernel

/-- A one, many times over. -/
def repunit (size : Nat) : List Char := List.replicate size '1'

theorem denotes_repunit {size : Nat} (h : size ≠ 0) :
    (Text.ofString (String.ofList (repunit size))).Denotes
      ⟨Text.digitsValue (repunit size), size⟩ none := by
  have hne : repunit size ≠ [] := by simpa [repunit] using h
  have hones : ∀ c ∈ repunit size, isDigit c = true := fun c hc => by
    rw [List.eq_of_mem_replicate hc]
    rfl
  have hwhole := Literal.whole blanks_nil (.plain (digits_digitsValue hne hones)) blanks_nil
  rw [List.nil_append, List.append_nil, repunit, List.length_replicate] at hwhole
  exact ⟨_, by rw [Text.ofString, String.toList_ofList, repunit], hwhole⟩

/-- A text is read that begins with no white space, no digit, no sign and no slash; and a text that
is in the grammar is refused for its length. -/
theorem literals_outside_and_too_long :
    parse .off "\x1c1" = .ok 1 ∧
    (¬WhiteSpace '\x1c' ∧ isDigit '\x1c' = false ∧ '\x1c' ∉ ['+', '-', '/']) ∧
    (Text.ofString (String.ofList (repunit 4301))).Denotes
      ⟨Text.digitsValue (repunit 4301), 4301⟩ none ∧
    parse .standard (String.ofList (repunit 4301)) = .error .tooManyDigits := by
  have hlong := denotes_repunit (by decide : 4301 ≠ 0)
  have hseparator : Separator '\x1c' := ⟨by decide, by decide⟩
  refine ⟨by decide +kernel, ⟨hseparator.not_whiteSpace, by decide +kernel, by decide⟩, hlong, ?_⟩
  have hnot : ¬Readable .standard ⟨Text.digitsValue (repunit 4301), 4301⟩ none := by
    rintro ⟨hsize, -⟩
    exact absurd (hsize 4300 rfl) (by decide)
  rw [parse_of_denotes hlong, if_neg hnot]

end Rational

end ExactSimplex
