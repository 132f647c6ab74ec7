import ExactSimplex.Proofs.Printed

/-! Rationals that are written are read again.  The digits in which a number is written belong to
one of the scripts that are read, each with the value that it was written for; so the text of a
rational, which is in lowest terms, is a literal of its numerator and its denominator.  A number may
be read from its text exactly when it may be written; and a rational that was read from a literal
may always be written, since lowest terms are no longer than others. -/

namespace ExactSimplex

namespace Text

/-- A whole number as it is written. -/
def Written.ofInt (z : Int) : Written := ⟨z, (Nat.toDigits 10 z.natAbs).length⟩

theorem SignedNumeral.signed {cs : List Char} {z : Int} (h : SignedNumeral cs z) :
    Signed cs (.ofInt z) := by
  cases h with
  | natural hn =>
    rw [Written.ofInt, Int.natAbs_natCast, ← hn.eq_toDigits]
    exact .plain hn.digits
  | negative hn _ =>
    rw [Written.ofInt, Int.natAbs_neg, Int.natAbs_natCast, ← hn.eq_toDigits]
    exact .minus hn.digits

end Text

/-- The text of a number is not too long to be read when it is not too long to be written. -/
theorem DigitLimit.allows_ofInt (digits : DigitLimit) (z : Int) :
    digits.Allows (Text.Written.ofInt z).size ↔ digits.Fits z := by
  refine forall₂_congr fun b hb => ?_
  have hpos : 0 < b := by
    have := digits.ample b hb
    omega
  exact Nat.length_toDigits_le_iff (by decide) hpos

/-! ### Numbers that were read -/

theorem Text.Digits.lt_pow {cs : List Char} {n : Nat} (h : Text.Digits cs n) :
    n < 10 ^ cs.length := by
  induction h with
  | one hd => exact hd.1
  | @more cs c n d _ hd ih =>
    have hlast := hd.1
    rw [List.length_append, List.length_singleton, pow_succ]
    omega

theorem Text.Signed.fits {cs : List Char} {w : Text.Written} {digits : DigitLimit}
    (h : Text.Signed cs w) (hsize : digits.Allows w.size) : digits.Fits w.value := by
  have hlt : w.value.natAbs < 10 ^ w.size := by
    cases h with
    | plain hd | plus hd => exact hd.lt_pow
    | minus hd =>
      rw [Int.natAbs_neg]
      exact hd.lt_pow
  exact fun b hb => hlt.trans_le (Nat.pow_le_pow_right (by decide) (hsize b hb))

theorem DigitLimit.Fits.of_dvd {digits : DigitLimit} {m n : Int} (h : digits.Fits n) (hne : n ≠ 0)
    (hd : m ∣ n) : digits.Fits m := fun b hb =>
  (Int.natAbs_le_of_dvd_ne_zero hd hne).trans_lt (h b hb)

namespace Rational

open Text

variable {digits : DigitLimit} {q : Rat}

theorem fits_of_literal {cs : List Char} {a : Written} {b : Option Written} (h : Literal cs a b)
    (hread : Readable digits a b) : digits.Fits a.value ∧ digits.Fits (denominator b) := by
  cases h with
  | whole _ ha _ => exact ⟨ha.fits hread.1, digits.fits_one⟩
  | ratio _ ha _ _ hb _ => exact ⟨ha.fits hread.1, hb.fits (hread.2 _ rfl)⟩

/-- A rational that is read from a literal can be written. -/
theorem fits_of_parse {t : Text} (h : parse digits t = .ok q) : Fits digits q := by
  obtain ⟨a, b, ⟨cs, -, hliteral⟩, hread, hne, rfl⟩ := parse_eq_ok_iff.mp h
  obtain ⟨hnum, hden⟩ := fits_of_literal hliteral hread
  rw [← Rat.divInt_eq_div]
  refine ⟨?_, hden.of_dvd hne (Rat.den_dvd _ _)⟩
  by_cases hzero : a.value = 0
  · rw [hzero, Rat.zero_divInt]
    rwa [hzero] at hnum
  · exact hnum.of_dvd hzero (Rat.num_dvd _ hne)

/-! ### Texts of rationals -/

/-- The denominator of a rational as it is written, if it is. -/
def writtenDen (q : Rat) : Option Written := if q.den = 1 then none else some (.ofInt q.den)

theorem denominator_writtenDen (q : Rat) : denominator (writtenDen q) = q.den := by
  rw [writtenDen]
  split
  · rename_i h
    rw [h]
    rfl
  · rfl

/-- A written rational is a literal of its numerator and its denominator. -/
theorem literal_text (q : Rat) : Literal (text q).toList (.ofInt q.num) (writtenDen q) := by
  have hnum := (signedNumeral_toString q.num).signed
  rw [writtenDen]
  split
  · rename_i hden
    have hwhole := Literal.whole blanks_nil hnum blanks_nil
    rwa [List.nil_append, List.append_nil, ← text_of_den_eq_one hden] at hwhole
  · rename_i hden
    have hratio := Literal.ratio blanks_nil hnum blanks_nil blanks_nil
      (.plain (digits_toDigits q.den)) blanks_nil
    rwa [List.nil_append, List.nil_append, List.nil_append, List.append_nil,
      ← toList_text_of_den_ne_one hden] at hratio

theorem denotes_text (q : Rat) :
    (Text.ofString (text q)).Denotes (.ofInt q.num) (writtenDen q) :=
  ⟨_, rfl, literal_text q⟩

theorem readable_text_iff : Readable digits (.ofInt q.num) (writtenDen q) ↔ Fits digits q := by
  rw [Readable, Fits, digits.allows_ofInt, writtenDen]
  refine and_congr_right fun _ => ?_
  split
  · rename_i hden
    rw [hden]
    exact iff_of_true (fun b hb => absurd hb (Option.not_mem_none b)) digits.fits_one
  · simp only [Option.mem_some_iff, forall_eq', digits.allows_ofInt]

/-- The text of a rational is read as this rational again, if it is not too long. -/
theorem parse_text (digits : DigitLimit) (q : Rat) :
    parse digits (text q) = if Fits digits q then .ok q else .error .tooManyDigits := by
  have hratio : ofRatio q.num q.den = .ok q :=
    ofRatio_eq_ok_iff.mpr ⟨Int.natCast_ne_zero.mpr q.den_nz, (Rat.num_div_den q).symm⟩
  rw [parse_of_denotes (denotes_text q)]
  simp only [readable_text_iff, denominator_writtenDen]
  exact congrArg (fun r => if Fits digits q then r else _) hratio

theorem parse_text_of_fits (h : Fits digits q) : parse digits (text q) = .ok q := by
  rw [parse_text, if_pos h]

theorem text_inj {p q : Rat} : text p = text q ↔ p = q := by
  constructor
  · intro h
    have hback := parse_text_of_fits (fits_off p)
    rw [h, parse_text_of_fits (fits_off q)] at hback
    exact (Except.ok.inj hback).symm
  · exact congrArg text

end Rational

end ExactSimplex
