import ExactSimplex.Proofs.Grammar
import Mathlib.Data.List.Basic
import Mathlib.Data.Rat.Lemmas

/-! The one text of a rational.  It has the digits from 0 to 9 only, none of them a zero in front, a
sign only before a negative number, and a denominator only if that is not one, in lowest terms.
Every rational has exactly one such text, the one in which it is written; so numbers that are
written alike are equal.  It is written unless one of its parts is longer than the host allows. -/

namespace ExactSimplex

namespace Text

/-- Plain digits with their value, the first of which is no zero unless it stands alone. -/
structure Numeral (cs : List Char) (n : Nat) : Prop where
  digits : Digits cs n
  plain : ∀ c ∈ cs, c.isDigit = true
  no_zero_in_front : cs.head? = some '0' → cs = ['0']

/-- A numeral after a sign that stands only before a negative number. -/
inductive SignedNumeral : List Char → Int → Prop
  | natural {cs : List Char} {n : Nat} : Numeral cs n → SignedNumeral cs n
  | negative {cs : List Char} {n : Nat} : Numeral cs n → n ≠ 0 → SignedNumeral ('-' :: cs) (-n)

/-- A rational in lowest terms, with a denominator only if that is not one. -/
inductive Plain : List Char → Rat → Prop
  | whole {num : List Char} {a : Int} : SignedNumeral num a → Plain num a
  | ratio {num den : List Char} {a : Int} {b : Nat} :
    SignedNumeral num a → Numeral den b → 1 < b → Int.gcd a b = 1 →
    Plain (num ++ '/' :: den) (a / b)

variable {cs : List Char} {n : Nat}

/-! ### Numerals -/

theorem digitValue?_of_isDigit {c : Char} (h : c.isDigit = true) :
    digitValue? c = some (c.toNat - '0'.toNat) := by
  obtain ⟨hlow, hhigh⟩ := Char.isDigit_iff_toNat.mp h
  have hlow : 0x30 ≤ c.toNat := hlow
  have hhigh : c.toNat ≤ 0x39 := hhigh
  have hzero : '0'.toNat = 0x30 := rfl
  rw [digitValue?_eq_some_iff]
  exact ⟨by omega, 0x30, List.mem_cons_self, by omega⟩

theorem isDigit_of_isDigit {c : Char} (h : c.isDigit = true) : isDigit c = true := by
  rw [isDigit, digitValue?_of_isDigit h]
  rfl

theorem digitsValue_eq_ofDigitChars (h : ∀ c ∈ cs, c.isDigit = true) :
    digitsValue cs = Nat.ofDigitChars 10 cs 0 := by
  rw [digitsValue, Nat.ofDigitChars_eq_foldl]
  refine List.foldl_ext _ _ _ fun n c hc => ?_
  rw [digitValue?_of_isDigit (h c hc), Option.getD_some]

theorem digits_toDigits (n : Nat) : Digits (Nat.toDigits 10 n) n := by
  have hdigits : ∀ c ∈ Nat.toDigits 10 n, c.isDigit = true := fun c hc =>
    Nat.isDigit_of_mem_toDigits (by decide) le_rfl hc
  have hread := digits_digitsValue Nat.toDigits_ne_nil fun c hc => isDigit_of_isDigit (hdigits c hc)
  rwa [digitsValue_eq_ofDigitChars hdigits, Nat.ofDigitChars_ten_toDigits] at hread

theorem Digit.eq_digitChar {c : Char} {d : Nat} (h : Digit c d) (hplain : c.isDigit = true) :
    c = Nat.digitChar d := by
  have hvalue := digitValue?_of_isDigit hplain
  rw [digitValue?_eq_some_iff.mpr h, Option.some_inj] at hvalue
  have hlow : '0'.toNat ≤ c.toNat := (Char.isDigit_iff_toNat.mp hplain).1
  apply Char.toNat_inj.mp
  rw [Nat.toNat_digitChar_of_lt_ten h.1, hvalue]
  have hzero : '0'.toNat = 48 := rfl
  omega

/-- Only the numeral of zero begins with a zero. -/
theorem toDigits_eq_of_head? (h : (Nat.toDigits 10 n).head? = some '0') :
    Nat.toDigits 10 n = ['0'] := by
  induction n using Nat.strong_induction_on with
  | _ n ih =>
    by_cases hlt : n < 10
    · rw [Nat.toDigits_of_lt_base hlt] at h ⊢
      rw [List.head?_singleton, Option.some_inj] at h
      rw [h]
    · rw [Nat.toDigits_of_base_le (by decide) (by omega),
        List.head?_append_of_ne_nil _ Nat.toDigits_ne_nil] at h
      have hfront := ih (n / 10) (by omega) h
      have hzero := congrArg (Nat.ofDigitChars 10 · 0) hfront
      rw [Nat.ofDigitChars_ten_toDigits] at hzero
      have : n / 10 = 0 := hzero
      omega

theorem numeral_toDigits (n : Nat) : Numeral (Nat.toDigits 10 n) n where
  digits := digits_toDigits n
  plain _ hc := Nat.isDigit_of_mem_toDigits (by decide) le_rfl hc
  no_zero_in_front := toDigits_eq_of_head?

theorem Numeral.eq_toDigits (h : Numeral cs n) : cs = Nat.toDigits 10 n := by
  obtain ⟨hdigits, hplain, hfront⟩ := h
  induction hdigits with
  | one hd =>
    rw [Nat.toDigits_of_lt_base hd.1, hd.eq_digitChar (hplain _ List.mem_cons_self)]
  | @more cs c n d hcs hd ih =>
    -- the digits before the last are a numeral, and not that of zero
    have hhead : cs.head? ≠ some '0' := by
      intro hzero
      have hsingle := hfront (by rw [List.head?_append_of_ne_nil _ hcs.ne_nil, hzero])
      have hlength := congrArg List.length hsingle
      have hpos := List.length_pos_of_ne_nil hcs.ne_nil
      simp only [List.length_append, List.length_cons, List.length_nil] at hlength
      omega
    have hbefore := ih (fun c hc => hplain c (List.mem_append_left _ hc))
      (fun hzero => absurd hzero hhead)
    have hpos : 0 < n := by
      apply Nat.pos_of_ne_zero
      rintro rfl
      rw [hbefore] at hhead
      exact hhead rfl
    have hlast := hd.eq_digitChar (hplain c (by simp))
    rw [← Nat.toDigits_append_toDigits (by decide) hpos hd.1, ← hbefore,
      Nat.toDigits_of_lt_base hd.1, hlast]

theorem signedNumeral_toString (z : Int) : SignedNumeral (toString z).toList z := by
  rw [Int.toString_eq_repr]
  cases z with
  | ofNat n =>
    rw [Int.repr, Nat.toList_repr]
    exact .natural (numeral_toDigits n)
  | negSucc n =>
    rw [Int.repr, String.toList_append, Nat.toList_repr]
    exact .negative (numeral_toDigits (n + 1)) (Nat.succ_ne_zero n)

theorem SignedNumeral.eq_toString {z : Int} (h : SignedNumeral cs z) :
    cs = (toString z).toList := by
  rw [Int.toString_eq_repr]
  cases h with
  | @natural cs n hn =>
    have hnat : (n : Int).repr = n.repr := rfl
    rw [hnat, Nat.toList_repr, hn.eq_toDigits]
  | @negative cs n hn hne =>
    obtain ⟨m, rfl⟩ := Nat.exists_eq_succ_of_ne_zero hne
    have hneg : -((m + 1 : Nat) : Int) = Int.negSucc m := rfl
    rw [hneg, Int.repr, String.toList_append, Nat.toList_repr, hn.eq_toDigits]
    rfl

end Text

namespace Rational

open Text

/-- A rational whose numerator and denominator have no more digits than the host allows. -/
def Fits (digits : DigitLimit) (q : Rat) : Prop := digits.Fits q.num ∧ digits.Fits q.den

instance (digits : DigitLimit) (q : Rat) : Decidable (Fits digits q) :=
  inferInstanceAs (Decidable (_ ∧ _))

theorem fits_off (q : Rat) : Fits .off q := ⟨DigitLimit.fits_off _, DigitLimit.fits_off _⟩

/-- What is written of a rational is its text, if both parts may be written. -/
theorem write_eq (digits : DigitLimit) (q : Rat) :
    write digits q = if Fits digits q then .ok (text q) else .error .tooManyDigits := by
  have hwrite (n : Int) : digits.write n =
      if digits.Fits n then .ok (toString n) else .error .tooManyDigits := rfl
  rw [write]
  by_cases hnum : digits.Fits q.num
  · by_cases hone : q.den = 1
    · have hfits : Fits digits q := ⟨hnum, by rw [hone]; exact digits.fits_one⟩
      simp [hwrite, hnum, hone, hfits, text, bind, Except.bind, pure, Except.pure]
    · by_cases hden : digits.Fits q.den
      · have hfits : Fits digits q := ⟨hnum, hden⟩
        rw [hwrite, if_pos hnum, hwrite, if_pos hden, if_pos hfits, text, if_neg hone]
        exact if_neg hone
      · simp [hwrite, hnum, hone, hden, Fits, bind, Except.bind]
  · simp [hwrite, hnum, Fits, bind, Except.bind]

theorem write_of_fits {digits : DigitLimit} {q : Rat} (h : Fits digits q) :
    write digits q = .ok (text q) := by
  rw [write_eq, if_pos h]

theorem text_of_den_eq_one {q : Rat} (h : q.den = 1) : text q = toString q.num := if_pos h

theorem toList_text_of_den_ne_one {q : Rat} (h : q.den ≠ 1) :
    (text q).toList = (toString q.num).toList ++ '/' :: Nat.toDigits 10 q.den := by
  rw [text, if_neg h, ← Nat.toList_repr, ← Nat.toString_eq_repr]
  simp only [String.toList_append, List.append_assoc]
  rfl

theorem plain_text (q : Rat) : Plain (text q).toList q := by
  have hnum := signedNumeral_toString q.num
  by_cases hden : q.den = 1
  · have hwhole := Plain.whole hnum
    rwa [Rat.den_eq_one_iff q |>.mp hden, ← text_of_den_eq_one hden] at hwhole
  · have hpos := q.den_pos
    have hratio := Plain.ratio hnum (numeral_toDigits q.den) (by omega) q.reduced
    rwa [Rat.num_div_den, ← toList_text_of_den_ne_one hden] at hratio

/-- The text of a rational is the only one of its form. -/
theorem plain_iff {cs : List Char} {q : Rat} : Plain cs q ↔ cs = (text q).toList := by
  constructor
  · intro h
    cases h with
    | whole hnum => rw [text_of_den_eq_one rfl, hnum.eq_toString, Rat.num_intCast]
    | @ratio num den a b hnum hden hone hgcd =>
      have hpos : (0 : Int) < b := by omega
      have hnumerator := Rat.num_div_eq_of_coprime hpos hgcd
      have hdenominator := Rat.den_div_eq_of_coprime hpos hgcd
      rw [Int.cast_natCast] at hnumerator hdenominator
      have hne : ((a : Rat) / b).den ≠ 1 := by omega
      rw [toList_text_of_den_ne_one hne, hnumerator, Int.natCast_inj.mp hdenominator,
        hnum.eq_toString, hden.eq_toDigits]
  · rintro rfl
    exact plain_text q

end Rational

end ExactSimplex
