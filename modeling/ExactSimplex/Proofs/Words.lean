import ExactSimplex.Model.Constraint
import ExactSimplex.Proofs.Reports

/-! The words for relations.  A value is read as a relation exactly when it is one, or its text is a
word with blanks around and the word is one of the names of the relation once its letters are
lowered. -/

namespace ExactSimplex

namespace Text

variable {before word after : List Char}

/-- A text is what is left of it by trimming, with blanks around. -/
theorem trimBlanks_split (cs : List Char) :
    ∃ before after, cs = before ++ (trimBlanks cs ++ after) ∧ Blanks before ∧ Blanks after := by
  let front := cs.dropWhile isBlank
  refine ⟨cs.takeWhile isBlank, (front.reverse.takeWhile isBlank).reverse, ?_,
    blanks_takeWhile cs, fun c hc => ?_⟩
  · have hback : trimBlanks cs ++ (front.reverse.takeWhile isBlank).reverse = front := by
      rw [trimBlanks, ← List.reverse_append, List.takeWhile_append_dropWhile, List.reverse_reverse]
    rw [hback, List.takeWhile_append_dropWhile]
  · exact blanks_takeWhile front.reverse c (List.mem_reverse.mp hc)

theorem trimBlanks_eq (hbefore : Blanks before) (hafter : Blanks after) (hne : word ≠ [])
    (hword : ∀ c ∈ word, isBlank c = false) : trimBlanks (before ++ (word ++ after)) = word := by
  have hfirst : Stops isBlank (word ++ after) := by
    intro c hc
    rw [List.head?_append_of_ne_nil _ hne] at hc
    exact hword c (List.mem_of_mem_head? hc)
  have hlast : Stops isBlank word.reverse := fun c hc =>
    hword c (List.mem_reverse.mp (List.mem_of_mem_head? hc))
  have hback : ∀ c ∈ after.reverse, isBlank c = true := fun c hc =>
    hafter.isBlank c (List.mem_reverse.mp hc)
  rw [trimBlanks, dropWhile_append_of_stops hbefore.isBlank hfirst, List.reverse_append,
    dropWhile_append_of_stops hback hlast, List.reverse_reverse]

/-- Blanks have no case. -/
theorem toLower_of_isBlank {c : Char} (h : isBlank c = true) : c.toLower = c := by
  have hruns : ∀ run ∈ blankRuns, run.2 < 'A'.toNat ∨ 'Z'.toNat < run.1 := by decide
  obtain ⟨run, hrun, hlow, hhigh⟩ := isBlank_iff.mp h
  refine dif_neg ?_
  rintro ⟨hfirst, hlast⟩
  have hA : 'A'.toNat ≤ c.toNat := hfirst
  have hZ : c.toNat ≤ 'Z'.toNat := hlast
  have hout := hruns run hrun
  omega

end Text

namespace Relation

/-- A text is a word for a relation if it is one of the names, once its letters are lowered, with
characters around that count as white space. -/
def Wording (white : Char → Prop) (t : Text) (r : Relation) : Prop :=
  ∃ before word after : List Char, t.symbols = (before ++ (word ++ after)).map .char ∧
    (∀ c ∈ before, white c) ∧ (∀ c ∈ after, white c) ∧
    (String.ofList (word.map Char.toLower), r) ∈ names

/-- A value that is a relation, or whose text is a word for it. -/
inductive Names : Value → Relation → Prop
  | member (r : Relation) : Names (.relation r) r
  | text {t : Text} {r : Relation} : Wording Text.Blank t r → Names (.text t) r
  | foreign {o : Foreign} {r : Relation} : Wording Text.Blank o.text r → Names (.foreign o) r

theorem lookup_names_iff {s : String} {r : Relation} :
    names.lookup s = some r ↔ (s, r) ∈ names := by
  constructor
  · intro h
    obtain ⟨before, after, hnames, -⟩ := List.lookup_eq_some_iff.mp h
    rw [hnames]
    exact List.mem_append_right before List.mem_cons_self
  · intro h
    have hall : ∀ p ∈ names, names.lookup p.1 = some p.2 := by decide
    exact hall (s, r) h

/-- No name is empty, and none holds a blank. -/
theorem not_isBlank_of_mem_names {s : String} {r : Relation} (h : (s, r) ∈ names) :
    s.toList ≠ [] ∧ ∀ c ∈ s.toList, Text.isBlank c = false := by
  have hall : ∀ p ∈ names, p.1.toList ≠ [] ∧ ∀ c ∈ p.1.toList, Text.isBlank c = false := by
    simp [names, Text.isBlank, Text.blankRuns]
  exact hall (s, r) h

theorem parse_eq_ok_iff {t : Text} {r : Relation} : parse t = .ok r ↔
    ∃ cs, t.symbols = cs.map .char ∧
      (String.ofList ((Text.trimBlanks cs).map Char.toLower), r) ∈ names := by
  simp only [← Text.chars?_eq_some_iff, ← lookup_names_iff, ← Option.bind_eq_some_iff]
  rw [parse]
  cases t.chars?.bind fun cs =>
      names.lookup (String.ofList ((Text.trimBlanks cs).map Char.toLower)) with
  | none => exact ⟨nofun, nofun⟩
  | some r' => rw [Except.ok.injEq, Option.some.injEq]

/-- No word for a relation holds a blank that does not count as white space. -/
theorem not_wording_of_mem {white : Char → Prop} {t : Text} {c : Char} (hmem : .char c ∈ t.symbols)
    (hblank : Text.isBlank c = true) (hwhite : ¬white c) (r : Relation) : ¬Wording white t r := by
  rintro ⟨before, word, after, ht, hbefore, hafter, hname⟩
  rw [ht, List.mem_map] at hmem
  obtain ⟨c', hmem, heq⟩ := hmem
  cases heq
  rcases List.mem_append.mp hmem with hmem | hmem
  · exact hwhite (hbefore c hmem)
  · rcases List.mem_append.mp hmem with hmem | hmem
    · have hletter := (not_isBlank_of_mem_names hname).2 c.toLower
      rw [String.toList_ofList, Text.toLower_of_isBlank hblank, hblank] at hletter
      exact absurd (hletter (Text.toLower_of_isBlank hblank ▸ List.mem_map_of_mem hmem)) (by decide)
    · exact hwhite (hafter c hmem)

theorem parse_eq_ok_iff_wording {t : Text} {r : Relation} :
    parse t = .ok r ↔ Wording Text.Blank t r := by
  rw [parse_eq_ok_iff]
  constructor
  · rintro ⟨cs, ht, hname⟩
    obtain ⟨before, after, hsplit, hbefore, hafter⟩ := Text.trimBlanks_split cs
    exact ⟨before, Text.trimBlanks cs, after, by rw [← hsplit, ht], hbefore, hafter, hname⟩
  · rintro ⟨before, word, after, ht, hbefore, hafter, hname⟩
    obtain ⟨hne, hletters⟩ := not_isBlank_of_mem_names hname
    rw [String.toList_ofList] at hne hletters
    have hword : ∀ c ∈ word, Text.isBlank c = false := by
      intro c hc
      by_contra hblank
      have hlower := hletters c.toLower (List.mem_map_of_mem hc)
      rw [Bool.not_eq_false] at hblank
      rw [Text.toLower_of_isBlank hblank, hblank] at hlower
      cases hlower
    refine ⟨_, ht, ?_⟩
    rwa [Text.trimBlanks_eq hbefore hafter (fun h => hne (List.map_eq_nil_iff.mpr h)) hword]

theorem parse_eq_error {t : Text} (h : ∀ r, ¬Wording Text.Blank t r) :
    parse t = .error .unknownRelation := by
  cases ht : parse t with
  | ok r => exact absurd (parse_eq_ok_iff_wording.mp ht) (h r)
  | error e =>
    rw [parse] at ht
    split at ht
    · cases ht
    · exact ht.symm

variable {digits : DigitLimit} {v : Value} {r : Relation}

theorem Names.ofValue_eq (h : Names v r) : ofValue digits v = .ok r := by
  cases h with
  | member => rfl
  | text h | foreign h => exact parse_eq_ok_iff_wording.mpr h

/-- A value that names no relation is refused, for the numbers that cannot be shown or in the end
for its text. -/
theorem reports_unnamed (digits : DigitLimit) (h : ∀ r, ¬Names v r) :
    Reports (ofValue digits v) (digits.overlong v.numbers ++ [.unknownRelation]) := by
  cases v with
  | relation r => exact absurd (.member r) (h r)
  | text t =>
    rw [ofValue, parse_eq_error fun r hr => h r (.text hr)]
    rfl
  | foreign o =>
    rw [ofValue, parse_eq_error fun r hr => h r (.foreign hr)]
    rfl
  | _ => exact (Value.reports_shown digits _).bind fun _ _ => rfl

theorem ofValue_eq_ok_iff : ofValue digits v = .ok r ↔ Names v r := by
  refine ⟨fun h => ?_, Names.ofValue_eq⟩
  by_cases hname : ∃ r, Names v r
  · obtain ⟨r', hr'⟩ := hname
    rw [hr'.ofValue_eq, Except.ok.injEq] at h
    exact h ▸ hr'
  · have hnone := (reports_unnamed digits fun r hr => hname ⟨r, hr⟩).exists_ok_iff.mp ⟨r, h⟩
    exact absurd hnone (by simp)

instance (v : Value) : Decidable (∃ r, Names v r) :=
  decidable_of_iff ((ofValue .off v).toOption.isSome = true) <| by
    simp only [← @ofValue_eq_ok_iff .off v]
    cases ofValue .off v with
    | ok r => exact ⟨fun _ => ⟨r, rfl⟩, fun _ => rfl⟩
    | error e => exact ⟨nofun, nofun⟩

/-- The errors of a value as a relation. -/
def refusals (digits : DigitLimit) (v : Value) : List Error :=
  if ∃ r, Names v r then [] else digits.overlong v.numbers ++ [.unknownRelation]

theorem refusals_eq_nil_iff : refusals digits v = [] ↔ ∃ r, Names v r := by
  rw [refusals, ite_eq_left_iff]
  exact ⟨fun h => by_contra fun hnone => absurd (h hnone) (by simp), fun h hnone => absurd h hnone⟩

theorem reports_ofValue (digits : DigitLimit) (v : Value) :
    Reports (ofValue digits v) (refusals digits v) := by
  by_cases hname : ∃ r, Names v r
  · obtain ⟨r, hr⟩ := hname
    rw [refusals, if_pos ⟨r, hr⟩, hr.ofValue_eq]
    rfl
  · rw [refusals, if_neg hname]
    exact reports_unnamed digits fun r hr => hname ⟨r, hr⟩

end Relation

end ExactSimplex
