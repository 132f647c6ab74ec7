import ExactSimplex.Proofs.Literal
import ExactSimplex.Proofs.Reached
import ExactSimplex.Proofs.Reports
import ExactSimplex.Tableau.Table

/-! The table of a tableau loses nothing.  Its lines can be told apart, since no cell holds a line
break, and the cells of a line, since none is empty or holds a blank.  The names of the columns are
distinct, and none looks like the number that stands for a column that is gone.  So the cells, the
names and the basic columns can be read back from the text.  A table can be made unless an entry is
longer than the host allows. -/

namespace ExactSimplex

namespace Text

/-! ### Words -/

/-- The characters of names and of numbers. -/
def isWordChar (c : Char) : Bool := c.isAlphanum || c = '#' || c = '-' || c = '/'

structure Word (w : List Char) : Prop where
  ne_nil : w ≠ []
  chars : ∀ c ∈ w, isWordChar c = true

/-- The words of a line, between all characters of other kinds. -/
def words (cs : List Char) : List (List Char) := (cs.splitOnP (!isWordChar ·)).filter (· ≠ [])

variable {c : Char} {w : List Char}

@[simp] theorem words_nil : words [] = [] := by
  rw [words, List.splitOnP_nil]
  rfl

theorem Word.words_eq (h : Word w) : words w = [w] := by
  have hchars : ∀ c ∈ w, (!isWordChar c) = false := fun c hc => by rw [h.chars c hc, Bool.not_true]
  rw [words, List.splitOnP_eq_singleton hchars]
  simpa using h.ne_nil

theorem words_append_cons (h : isWordChar c = false) (xs ys : List Char) :
    words (xs ++ c :: ys) = words xs ++ words ys := by
  have hsep : (!isWordChar c) = true := by rw [h, Bool.not_false]
  rw [words, List.splitOnP_append_cons xs ys hsep, List.filter_append, words, words]

theorem words_cons (h : isWordChar c = false) (ys : List Char) : words (c :: ys) = words ys := by
  have happend := words_append_cons h [] ys
  rwa [words_nil] at happend

/-- Characters of other kinds in front make no difference. -/
theorem words_append (xs ys : List Char) (h : ∀ c ∈ xs, isWordChar c = false) :
    words (xs ++ ys) = words ys := by
  induction xs with
  | nil => rfl
  | cons x xs ih =>
    obtain ⟨hx, hxs⟩ := List.forall_mem_cons.mp h
    rw [List.cons_append, words_cons hx, ih hxs]

/-- Parts with a blank or a comma and a blank between them keep their words. -/
theorem words_intercalate {c : Char} {sep : List Char} (h : ∀ d ∈ c :: sep, isWordChar d = false)
    (parts : List (List Char)) : words ((c :: sep).intercalate parts) = parts.flatMap words := by
  obtain ⟨hc, hsep⟩ := List.forall_mem_cons.mp h
  induction parts with
  | nil => exact words_nil
  | cons part parts ih =>
    cases parts with
    | nil => rw [List.intercalate_singleton, List.flatMap_singleton]
    | cons next parts =>
      rw [List.intercalate_cons_cons, List.append_assoc, List.cons_append, words_append_cons hc,
        words_append sep _ hsep, ih]
      exact List.flatMap_cons.symm

/-- The same for parts of one word each. -/
theorem words_intercalate_map {c : Char} {sep : List Char}
    (h : ∀ d ∈ c :: sep, isWordChar d = false) {cells : List String} {part : String → List Char}
    (hpart : ∀ s ∈ cells, words (part s) = [s.toList]) :
    words ((c :: sep).intercalate (cells.map part)) = cells.map String.toList := by
  rw [words_intercalate h, List.flatMap_map, List.flatMap_congr hpart, List.map_eq_flatMap]

theorem mem_intercalate {sep : List Char} {parts : List (List Char)}
    (h : c ∈ sep.intercalate parts) : c ∈ sep ∨ ∃ part ∈ parts, c ∈ part := by
  induction parts with
  | nil => cases h
  | cons part parts ih =>
    cases parts with
    | nil =>
      rw [List.intercalate_singleton] at h
      exact .inr ⟨part, List.mem_cons_self, h⟩
    | cons next parts =>
      rw [List.intercalate_cons_cons, List.append_assoc, List.mem_append, List.mem_append] at h
      obtain h | h | h := h
      · exact .inr ⟨part, List.mem_cons_self, h⟩
      · exact .inl h
      · exact (ih h).imp id fun ⟨p, hp, hc⟩ => ⟨p, List.mem_cons_of_mem _ hp, hc⟩

/-! ### Numbers as words -/

theorem isWordChar_of_isDigit (h : c.isDigit = true) : isWordChar c = true := by
  rw [isWordChar, Char.isAlphanum, h, Bool.or_true, Bool.true_or, Bool.true_or, Bool.true_or]

theorem Numeral.word {n : Nat} (h : Numeral w n) : Word w where
  ne_nil := h.digits.ne_nil
  chars c hc := isWordChar_of_isDigit (h.plain c hc)

theorem Word.cons (hc : isWordChar c = true) (h : Word w) : Word (c :: w) where
  ne_nil := List.cons_ne_nil _ _
  chars := List.forall_mem_cons.mpr ⟨hc, h.chars⟩

theorem Word.append {v : List Char} (h : Word v) (h' : Word w) : Word (v ++ w) where
  ne_nil := List.append_ne_nil_of_left_ne_nil h.ne_nil _
  chars := List.forall_mem_append.mpr ⟨h.chars, h'.chars⟩

theorem SignedNumeral.word {z : Int} (h : SignedNumeral w z) : Word w := by
  cases h with
  | natural hn => exact hn.word
  | negative hn _ => exact hn.word.cons rfl

theorem Plain.word {q : Rat} (h : Plain w q) : Word w := by
  cases h with
  | whole hnum => exact hnum.word
  | ratio hnum hden _ _ => exact hnum.word.append (hden.word.cons rfl)

end Text

open Text

theorem Rational.word_text (q : Rat) : Word (Rational.text q).toList := (plain_text q).word

/-! ### Names -/

theorem toList_numbered (s : String) (n : Nat) :
    (toString s ++ toString n).toList = s.toList ++ Nat.toDigits 10 n := by
  rw [String.toList_append, Nat.toString_eq_repr, Nat.toList_repr]
  rfl

theorem toDigits_inj {m n : Nat} : Nat.toDigits 10 m = Nat.toDigits 10 n ↔ m = n := by
  constructor
  · intro h
    have hvalue := congrArg (Nat.ofDigitChars 10 · 0) h
    rwa [Nat.ofDigitChars_ten_toDigits, Nat.ofDigitChars_ten_toDigits] at hvalue
  · exact congrArg _

theorem word_numbered {c : Char} (hc : isWordChar c = true) (n : Nat) :
    Word (c :: Nat.toDigits 10 n) := (numeral_toDigits n).word.cons hc

namespace Auxiliary

/-- The letter of a kind. -/
def letter : Auxiliary → Char
  | slack _ => 's'
  | surplus _ => 'e'
  | artificial _ => 'a'

def row : Auxiliary → Nat
  | slack row | surplus row | artificial row => row

theorem toList_name (a : Auxiliary) : a.name.toList = a.letter :: Nat.toDigits 10 (a.row + 1) := by
  cases a with
  | slack row => exact toList_numbered "s" (row + 1)
  | surplus row => exact toList_numbered "e" (row + 1)
  | artificial row => exact toList_numbered "a" (row + 1)

theorem name_injective : Function.Injective name := by
  intro a b h
  have hlist := congrArg String.toList h
  rw [toList_name, toList_name, List.cons.injEq, toDigits_inj] at hlist
  obtain ⟨hletter, hrow⟩ := hlist
  cases a <;> cases b <;> simp_all [letter, row]

end Auxiliary

namespace Tableau

variable {t t' : Tableau} {names : List String} {j k : Nat}

/-- The names of the columns are distinct words, none of which looks like the number of a column
that is gone. -/
structure Named (names : List String) : Prop where
  word : ∀ name ∈ names, Word name.toList
  nodup : names.Nodup
  unmarked : ∀ name ∈ names, name.toList.head? ≠ some '#'

theorem Named.of_front {front : List String} (h : Named names) (hp : front <+: names) :
    Named front where
  word name hn := h.word name (hp.subset hn)
  nodup := h.nodup.sublist hp.sublist
  unmarked name hn := h.unmarked name (hp.subset hn)

/-- The name of a variable. -/
def variableName (j : Nat) : String := s!"x{j + 1}"

theorem toList_variableName (j : Nat) : (variableName j).toList = 'x' :: Nat.toDigits 10 (j + 1) :=
  toList_numbered "x" (j + 1)

theorem variableName_injective : Function.Injective variableName := by
  intro j k h
  have hlist := congrArg String.toList h
  rw [toList_variableName, toList_variableName, List.cons.injEq, toDigits_inj] at hlist
  exact Nat.succ.inj hlist.2

theorem names_ofConstraints (n : Nat) (cs : List Constraint) : (ofConstraints n cs).names =
    (List.range n).map variableName ++ (Auxiliary.all cs).map Auxiliary.name := rfl

/-- The kinds of columns differ in the first letter, and columns of one kind in the number. -/
theorem named_ofConstraints (n : Nat) (cs : List Constraint) :
    Named (ofConstraints n cs).names := by
  have hletter (a : Auxiliary) : isWordChar a.letter = true ∧ a.letter ≠ '#' ∧ a.letter ≠ 'x' := by
    cases a <;> simp only [Auxiliary.letter] <;> decide
  rw [names_ofConstraints]
  refine ⟨?_, ?_, ?_⟩
  · simp only [List.forall_mem_append, List.forall_mem_map, toList_variableName,
      Auxiliary.toList_name]
    exact ⟨fun j _ => word_numbered rfl _, fun a _ => word_numbered (hletter a).1 _⟩
  · rw [List.nodup_append]
    refine ⟨List.nodup_range.map variableName_injective,
      (Auxiliary.nodup_all cs).map Auxiliary.name_injective, ?_⟩
    simp only [List.forall_mem_map]
    intro j _ a _ h
    have hlist := congrArg String.toList h
    rw [toList_variableName, Auxiliary.toList_name, List.cons.injEq] at hlist
    exact (hletter a).2.2 hlist.1.symm
  · simp only [List.forall_mem_append, List.forall_mem_map, toList_variableName,
      Auxiliary.toList_name, List.head?_cons]
    exact ⟨fun j _ => by decide, fun a _ h => (hletter a).2.1 (Option.some.inj h)⟩

/-! ### Basic columns -/

theorem columnName_of_lt (h : j < t.names.length) : t.columnName j = t.names[j] := by
  rw [columnName, List.getD_eq_getElem?_getD, List.getElem?_eq_getElem h, Option.getD_some]

theorem toList_columnName_of_le (h : t.names.length ≤ j) :
    (t.columnName j).toList = '#' :: Nat.toDigits 10 j := by
  rw [columnName, List.getD_eq_getElem?_getD, List.getElem?_eq_none h, Option.getD_none]
  exact toList_numbered "#" j

theorem Named.word_columnName (h : Named t.names) (j : Nat) : Word (t.columnName j).toList := by
  by_cases hj : j < t.names.length
  · rw [columnName_of_lt hj]
    exact h.word _ (List.getElem_mem hj)
  · rw [toList_columnName_of_le (not_lt.mp hj)]
    exact word_numbered rfl j

/-- A name does not look like the number of a column that is gone. -/
theorem Named.columnName_ne (h : Named t.names) (hj : j < t.names.length)
    (hk : t.names.length ≤ k) : t.columnName j ≠ t.columnName k := by
  intro heq
  have hhead := congrArg (·.toList.head?) heq
  rw [columnName_of_lt hj, toList_columnName_of_le hk, List.head?_cons] at hhead
  exact h.unmarked _ (List.getElem_mem hj) hhead

theorem Named.columnName_injective (h : Named t.names) : Function.Injective t.columnName := by
  intro j k heq
  rcases Nat.lt_or_ge j t.names.length with hj | hj
  · rcases Nat.lt_or_ge k t.names.length with hk | hk
    · rw [columnName_of_lt hj, columnName_of_lt hk] at heq
      exact h.nodup.getElem_inj_iff.mp heq
    · exact absurd heq (h.columnName_ne hj hk)
  · rcases Nat.lt_or_ge k t.names.length with hk | hk
    · exact absurd heq.symm (h.columnName_ne hk hj)
    · have hlist := congrArg String.toList heq
      rw [toList_columnName_of_le hj, toList_columnName_of_le hk, List.cons.injEq,
        toDigits_inj] at hlist
      exact hlist.2

/-! ### Lines -/

/-- Cells moved to the right, with a blank between them. -/
def line (width : Nat) (cells : List String) : String :=
  " ".intercalate (cells.map (alignRight width))

/-- The texts of the entries, of any length. -/
def texts (t : Tableau) : List (List String) :=
  (t.rows ++ [t.objective]).map fun r => r.entries.map Rational.text

/-- The table with these texts. -/
def display (t : Tableau) (title : String) : String := "\n".intercalate (t.lines title t.texts)

/-- The width of its columns. -/
def displayWidth (t : Tableau) : Nat := t.columnWidth t.texts

/-- The line of dashes between headers and rows. -/
def rule (t : Tableau) : String :=
  String.ofList (List.replicate (t.headers.length * (t.displayWidth + 1)) '-')

/-- The line of a row. -/
def rowLine (t : Tableau) (r : Row) : String := line t.displayWidth (r.entries.map Rational.text)

/-- The lines behind the title. -/
def body (t : Tableau) : List String :=
  ["Basis: " ++ bracketed (t.basis.map t.columnName), line t.displayWidth t.headers, t.rule] ++
    t.rows.map t.rowLine ++ [t.rule, t.rowLine t.objective]

theorem lines_eq (t : Tableau) (title : String) :
    t.lines title t.texts = ("\n=== " ++ title ++ " ===") :: t.body := by
  have hrows : t.texts.dropLast = t.rows.map fun r => r.entries.map Rational.text := by
    rw [texts, List.map_append, List.map_singleton, List.dropLast_concat]
  have hobjective : t.texts.getLast? = some (t.objective.entries.map Rational.text) := by
    rw [texts, List.map_append, List.map_singleton, List.getLast?_concat]
  rw [lines, hrows, hobjective, body, List.map_map, List.append_assoc]
  rfl

theorem toList_alignRight (width : Nat) (s : String) :
    (alignRight width s).toList = List.replicate (width - s.length) ' ' ++ s.toList := by
  rw [alignRight, String.toList_append, String.toList_ofList]

theorem toList_line (width : Nat) (cells : List String) : (line width cells).toList =
    [' '].intercalate (cells.map fun s => (alignRight width s).toList) := by
  rw [line, String.toList_intercalate, List.map_map]
  rfl

/-- The words of a line are its cells, whatever the width is. -/
theorem words_line {cells : List String} (h : ∀ s ∈ cells, Word s.toList) (width : Nat) :
    words (line width cells).toList = cells.map String.toList := by
  rw [toList_line]
  refine words_intercalate_map (List.forall_mem_singleton.mpr rfl) fun s hs => ?_
  rw [toList_alignRight, words_append, (h s hs).words_eq]
  intro c hc
  rw [List.eq_of_mem_replicate hc]
  rfl

theorem toList_bracketed (names : List String) : (bracketed names).toList =
    '[' :: ([',', ' '].intercalate (names.map fun s => '\'' :: (s.toList ++ ['\''])) ++ [']']) := by
  have hquoted (s : String) : ("'" ++ s ++ "'").toList = '\'' :: (s.toList ++ ['\'']) := by
    simp
  rw [bracketed, String.toList_append, String.toList_append, String.toList_intercalate,
    List.map_map, Function.comp_def]
  simp only [hquoted]
  rfl

/-- The words of a list of names are the names. -/
theorem words_bracketed {names : List String} (h : ∀ s ∈ names, Word s.toList) :
    words (bracketed names).toList = names.map String.toList := by
  rw [toList_bracketed, words_cons rfl, words_append_cons rfl, words_nil, List.append_nil]
  refine words_intercalate_map
    (List.forall_mem_cons.mpr ⟨rfl, List.forall_mem_singleton.mpr rfl⟩) fun s hs => ?_
  rw [words_cons rfl, words_append_cons rfl, (h s hs).words_eq, words_nil]
  rfl

/-! ### Line breaks -/

theorem break_not_mem_of_word {w : List Char} (h : Word w) : '\n' ∉ w := by
  intro hw
  have hbreak := h.chars _ hw
  revert hbreak
  decide

theorem break_not_mem_line {cells : List String} (h : ∀ s ∈ cells, Word s.toList) (width : Nat) :
    '\n' ∉ (line width cells).toList := by
  rw [toList_line]
  intro hbreak
  obtain hsep | ⟨part, hpart, hmem⟩ := mem_intercalate hbreak
  · exact absurd hsep (by decide)
  · obtain ⟨s, hs, rfl⟩ := List.mem_map.mp hpart
    rw [toList_alignRight, List.mem_append] at hmem
    obtain hpad | hcell := hmem
    · exact absurd (List.eq_of_mem_replicate hpad) (by decide)
    · exact break_not_mem_of_word (h s hs) hcell

theorem break_not_mem_bracketed {names : List String} (h : ∀ s ∈ names, Word s.toList) :
    '\n' ∉ (bracketed names).toList := by
  rw [toList_bracketed, List.mem_cons, List.mem_append]
  rintro (hbracket | hbreak | hbracket)
  · exact absurd hbracket (by decide)
  · obtain hsep | ⟨part, hpart, hmem⟩ := mem_intercalate hbreak
    · exact absurd hsep (by decide)
    · obtain ⟨s, hs, rfl⟩ := List.mem_map.mp hpart
      have hword := break_not_mem_of_word (h s hs)
      simp [hword] at hmem
  · exact absurd hbracket (by decide)

theorem break_not_mem_rule (t : Tableau) : '\n' ∉ t.rule.toList := by
  rw [rule, String.toList_ofList]
  intro hbreak
  exact absurd (List.eq_of_mem_replicate hbreak) (by decide)

theorem word_of_mem_entries (r : Row) : ∀ s ∈ r.entries.map Rational.text, Word s.toList :=
  List.forall_mem_map.mpr fun q _ => Rational.word_text q

theorem Named.word_headers (h : Named t.names) : ∀ s ∈ t.headers, Word s.toList :=
  List.forall_mem_append.mpr
    ⟨h.word, List.forall_mem_singleton.mpr ⟨by decide, List.all_eq_true.mp (by decide)⟩⟩

theorem Named.word_basis (h : Named t.names) : ∀ s ∈ t.basis.map t.columnName, Word s.toList :=
  List.forall_mem_map.mpr fun j _ => h.word_columnName j

theorem Named.break_not_mem_body (h : Named t.names) : ∀ s ∈ t.body, '\n' ∉ s.toList := by
  have hbasis : '\n' ∉ ("Basis: " ++ bracketed (t.basis.map t.columnName)).toList := by
    rw [String.toList_append, List.mem_append, not_or]
    exact ⟨by decide, break_not_mem_bracketed h.word_basis⟩
  have hrow (r : Row) : '\n' ∉ (t.rowLine r).toList :=
    break_not_mem_line (word_of_mem_entries r) _
  simp only [body, List.forall_mem_append, List.forall_mem_cons, List.forall_mem_map]
  exact ⟨⟨⟨hbasis, break_not_mem_line h.word_headers _, t.break_not_mem_rule, nofun⟩,
    fun r _ => hrow r⟩, t.break_not_mem_rule, hrow _, nofun⟩

/-! ### Making a table -/

/-- The numbers of a tableau. -/
def entries (t : Tableau) : List Rat := (t.rows ++ [t.objective]).flatMap Row.entries

/-- No number of the tableau is longer than the host allows. -/
def Writable (digits : DigitLimit) (t : Tableau) : Prop := ∀ q ∈ t.entries, Rational.Fits digits q

instance (digits : DigitLimit) (t : Tableau) : Decidable (t.Writable digits) :=
  inferInstanceAs (Decidable (∀ q ∈ t.entries, _))

theorem writable_off (t : Tableau) : t.Writable .off := fun q _ => Rational.fits_off q

variable {digits : DigitLimit}

theorem Writable.cells_eq (h : t.Writable digits) : t.cells digits = .ok t.texts :=
  Checked.mapM_eq_ok fun r hr => Rational.mapM_write_of_fits fun q hq =>
    h q (List.mem_flatMap.mpr ⟨r, hr, hq⟩)

theorem Writable.format_eq (h : t.Writable digits) (title : String) :
    t.format digits title = .ok (t.display title) := by
  rw [format, h.cells_eq]
  rfl

theorem reports_cells (digits : DigitLimit) (t : Tableau) :
    Reports (t.cells digits) (digits.overlong (t.entries.flatMap Rational.parts)) := by
  rw [entries, List.flatMap_assoc, DigitLimit.overlong_flatMap]
  exact Reports.mapM (fun r : Row => Rational.reports_mapM_write digits r.entries) _

theorem cells_of_not_writable (h : ¬t.Writable digits) : t.cells digits = .error .tooManyDigits :=
  (t.reports_cells digits).error_iff_not_fits.mpr
    ⟨rfl, fun hall => h (Rational.forall_parts_flatMap_iff.mp hall)⟩

/-- Only the length of a number stands in the way of a table. -/
theorem format_eq (digits : DigitLimit) (t : Tableau) (title : String) :
    t.format digits title =
      if t.Writable digits then .ok (t.display title) else .error .tooManyDigits := by
  split
  · rename_i h
    exact h.format_eq title
  · rename_i h
    rw [format, cells_of_not_writable h]
    rfl

theorem format_eq_ok_iff {title s : String} :
    t.format digits title = .ok s ↔ t.Writable digits ∧ s = t.display title := by
  rw [format_eq]
  split
  · rename_i h
    rw [Except.ok.injEq, eq_comm]
    exact (and_iff_right h).symm
  · rename_i h
    exact ⟨nofun, fun hs => absurd hs.1 h⟩

/-! ### Reading a table -/

theorem toList_display (t : Tableau) (title : String) : (t.display title).toList =
    ("\n=== " ++ title ++ " ===").toList ++
      '\n' :: ['\n'].intercalate (t.body.map String.toList) := by
  have hne : t.body ≠ [] := by simp [body]
  rw [display, lines_eq, String.toList_intercalate, List.map_cons,
    List.intercalate_cons_of_ne_nil (List.map_eq_nil_iff.not.mpr hne), List.append_assoc]
  rfl

/-- Tables with one title and one text have the same lines. -/
theorem body_eq_of_display_eq {title : String} (h : Named t.names) (h' : Named t'.names)
    (heq : t.display title = t'.display title) : t.body = t'.body := by
  have hsplit {u : Tableau} (hu : Named u.names) :
      (['\n'].intercalate (u.body.map String.toList)).splitOn '\n' = u.body.map String.toList :=
    List.splitOn_intercalate _ (List.forall_mem_map.mpr hu.break_not_mem_body) (by simp [body])
  have hlist := congrArg String.toList heq
  rw [toList_display, toList_display, List.append_cancel_left_eq, List.cons.injEq] at hlist
  have hlines := congrArg (·.splitOn '\n') hlist.2
  rw [hsplit h, hsplit h'] at hlines
  exact List.map_injective_iff.mpr (fun _ _ => String.toList_inj.mp) hlines

theorem toList_injective : Function.Injective String.toList := fun _ _ => String.toList_inj.mp

theorem entries_injective : Function.Injective Row.entries := by
  rintro ⟨coefficients, rhs⟩ ⟨coefficients', rhs'⟩ h
  obtain ⟨rfl, hrhs⟩ := List.append_inj' h rfl
  cases hrhs
  rfl

/-- The words of a row. -/
def rowWords (r : Row) : List (List Char) := (r.entries.map Rational.text).map String.toList

theorem rowWords_injective : Function.Injective rowWords := by
  intro r q h
  have htexts := List.map_injective_iff.mpr toList_injective h
  exact entries_injective (List.map_injective_iff.mpr (fun _ _ => Rational.text_inj.mp) htexts)

theorem words_rowLine (t : Tableau) (r : Row) : words (t.rowLine r).toList = rowWords r :=
  words_line (word_of_mem_entries r) _

theorem row_eq_of_rowLine {r q : Row} (hline : t.rowLine r = t'.rowLine q) : r = q := by
  have hwords := congrArg (fun s => words s.toList) hline
  rw [words_rowLine, words_rowLine] at hwords
  exact rowWords_injective hwords

theorem rows_eq_of_rowLine {rs qs : List Row} (hlines : rs.map t.rowLine = qs.map t'.rowLine) :
    rs = qs := by
  have hwords := congrArg (List.map fun s => words s.toList) hlines
  simp only [List.map_map, Function.comp_def, words_rowLine] at hwords
  exact List.map_injective_iff.mpr rowWords_injective hwords

/-- What a table shows. -/
structure Same (t t' : Tableau) : Prop where
  rows_eq : t.rows = t'.rows
  objective_eq : t.objective = t'.objective
  names_eq : t.names = t'.names
  basis_eq : t.basis = t'.basis

theorem Named.names_eq_of_headers (h : Named t.names) (h' : Named t'.names)
    (hline : line t.displayWidth t.headers = line t'.displayWidth t'.headers) :
    t.names = t'.names := by
  have hwords := congrArg (fun s => words s.toList) hline
  rw [words_line h.word_headers, words_line h'.word_headers] at hwords
  exact List.append_cancel_right (List.map_injective_iff.mpr toList_injective hwords)

theorem columnName_congr (h : t.names = t'.names) : t.columnName = t'.columnName := by
  funext j
  rw [columnName, columnName, h]

theorem Named.basis_eq_of_bracketed (h : Named t.names) (h' : Named t'.names)
    (hnames : t.names = t'.names)
    (hline : bracketed (t.basis.map t.columnName) = bracketed (t'.basis.map t'.columnName)) :
    t.basis = t'.basis := by
  have hwords := congrArg (fun s => words s.toList) hline
  rw [words_bracketed h.word_basis, words_bracketed h'.word_basis] at hwords
  have hlist := List.map_injective_iff.mpr toList_injective hwords
  rw [columnName_congr hnames] at hlist
  exact List.map_injective_iff.mpr h'.columnName_injective hlist

/-- Tables with one title and one text show the same. -/
theorem Named.same_of_display_eq {title : String} (h : Named t.names) (h' : Named t'.names)
    (heq : t.display title = t'.display title) : t.Same t' := by
  have hbody := body_eq_of_display_eq h h' heq
  rw [body, body] at hbody
  -- the widths of the cells need not be compared, as the words of a line do not depend on them
  obtain ⟨hfront, hback⟩ := List.append_inj' hbody (by simp only [List.length_cons])
  obtain ⟨hhead, hrows⟩ := List.append_inj hfront (by simp only [List.length_cons])
  simp only [List.cons.injEq, and_true, String.append_right_inj] at hhead hback
  obtain ⟨hbasis, hheaders, -⟩ := hhead
  have hnames := h.names_eq_of_headers h' hheaders
  exact
    { rows_eq := rows_eq_of_rowLine hrows
      objective_eq := row_eq_of_rowLine hback.2
      names_eq := hnames
      basis_eq := h.basis_eq_of_bracketed h' hnames hbasis }

end Tableau

end ExactSimplex
