import ExactSimplex.Number.Bounded
import Mathlib.Algebra.Order.Field.Rat
import Mathlib.Data.Rat.Lemmas
import Mathlib.Tactic.Linarith
import Mathlib.Tactic.LinearCombination
import Mathlib.Tactic.Ring

/-! The best approximation with a bounded denominator.  Neighbouring convergents have the
determinant one or minus one, and so have the last convergent within the bound and the furthest
mediant after it, between which the number lies.  The sum of their denominators is beyond the bound,
so no other fraction within it lies between them: one of the two is nearest. -/

namespace ExactSimplex.Rational

/-! ### Two fractions with determinant one -/

/-- No rational with a denominator within the bound lies between `x` and `y`. -/
def Apart (bound : Nat) (x y : Rat) : Prop := ∀ p : Rat, p.den ≤ bound → p ≤ x ∨ y ≤ p

section Determinant

variable {a c : Int} {b d bound : Nat} (hb : 0 < b) (hd : 0 < d) (hdet : c * b - a * d = 1)
include hb hd hdet

theorem apart_of_det (hsum : bound < b + d) : Apart bound (a / b) (c / d) := by
  intro p hp
  by_contra hbetween
  obtain ⟨hleft, hright⟩ := not_or.mp hbetween
  rw [not_le, ← Rat.num_div_den p, div_lt_div_iff₀ (by positivity) (by positivity)] at hleft hright
  have hleft : a * p.den + 1 ≤ p.num * b := by exact_mod_cast hleft
  have hright : p.num * d + 1 ≤ c * p.den := by exact_mod_cast hright
  -- the denominator of `p` is the sum of the two, each a positive number of times
  have hden : (p.den : Int) = b * (c * p.den - p.num * d) + d * (p.num * b - a * p.den) := by
    linear_combination (-(p.den : Int)) * hdet
  have hleft' : (d : Int) * 1 ≤ d * (p.num * b - a * p.den) :=
    mul_le_mul_of_nonneg_left (by omega) (by omega)
  have hright' : (b : Int) * 1 ≤ b * (c * p.den - p.num * d) :=
    mul_le_mul_of_nonneg_left (by omega) (by omega)
  omega

/-- A fraction whose parts are weighted sums of theirs lies between them. -/
theorem between_of_det {s t : Int} (hs : 0 ≤ s) (ht : 0 ≤ t) {q : Rat}
    (hnum : q.num = c * s + a * t) (hden : (q.den : Int) = d * s + b * t) :
    (a / b : Rat) ≤ q ∧ q ≤ c / d := by
  rw [← Rat.num_div_den q, div_le_div_iff₀ (by positivity) (by positivity),
    div_le_div_iff₀ (by positivity) (by positivity)]
  have hleft : q.num * b - a * q.den = s := by
    rw [hnum, hden]
    linear_combination s * hdet
  have hright : c * q.den - q.num * d = t := by
    rw [hnum, hden]
    linear_combination t * hdet
  constructor
  · exact_mod_cast (by omega : a * q.den ≤ q.num * b)
  · exact_mod_cast (by omega : q.num * d ≤ c * q.den)

end Determinant

/-- Of two numbers that stand apart, one is nearest to whatever lies between them. -/
theorem Apart.nearest {bound : Nat} {x y q : Rat} (h : Apart bound x y) (hq : x ≤ q ∧ q ≤ y)
    {p : Rat} (hp : p.den ≤ bound) : |q - x| ≤ |q - p| ∨ |q - y| ≤ |q - p| := by
  obtain ⟨hx, hy⟩ := hq
  rcases h p hp with hle | hle
  · left
    rw [abs_of_nonneg (by linarith), abs_of_nonneg (by linarith)]
    linarith
  · right
    rw [abs_of_nonpos (by linarith), abs_of_nonpos (by linarith)]
    linarith

/-! ### The continued fraction -/

namespace Convergents

variable {c : Convergents} {bound den : Nat} {num : Int} {q : Rat}

/-- The convergents lead to `q` when `num / den` is what is left of it. -/
structure Leads (bound : Nat) (q : Rat) (c : Convergents) (num : Int) (den : Nat) : Prop where
  num_eq : q.num = c.newerNum * num + c.olderNum * den
  den_eq : (q.den : Int) = c.newerDen * num + c.olderDen * den
  det : c.newerNum * c.olderDen - c.olderNum * c.newerDen = 1 ∨
    c.olderNum * c.newerDen - c.newerNum * c.olderDen = 1
  newerDen_pos : 0 < c.newerDen
  newerDen_le : c.newerDen ≤ bound
  olderDen_le : c.olderDen ≤ c.newerDen
  den_lt : (den : Int) < num

/-- What is left is divided, and its remainder is what is left next. -/
theorem emod_toNat (num : Int) (hden : den ≠ 0) :
    ((num % den).toNat : Int) = num - num / den * den ∧ ((num % den).toNat : Int) < den := by
  have hpos : (0 : Int) < den := by omega
  have hnonneg := Int.emod_nonneg num hpos.ne'
  have hlt := Int.emod_lt_of_pos num hpos
  have hdiv := Int.emod_add_mul_ediv num den
  rw [Int.toNat_of_nonneg hnonneg]
  exact ⟨by linarith, hlt⟩

/-- One more convergent, still within the bound. -/
theorem Leads.next (h : c.Leads bound q num den) (hden : den ≠ 0)
    (hwithin : (c.next (num / den)).newerDen ≤ bound) :
    (c.next (num / den)).Leads bound q den (num % den).toNat := by
  obtain ⟨hrest, hlt⟩ := emod_toNat num hden
  have hquotient : 1 ≤ num / den := by
    have := h.den_lt
    exact (Int.le_ediv_iff_mul_le (by omega)).mpr (by omega)
  have hcast : ((num / den).toNat : Int) = num / den := Int.toNat_of_nonneg (by omega)
  have hgrow : 1 * c.newerDen ≤ (num / den).toNat * c.newerDen :=
    Nat.mul_le_mul_right _ (by omega)
  have hpos := h.newerDen_pos
  have hnew : ((c.next (num / den)).newerDen : Int) =
      c.olderDen + num / den * c.newerDen := by
    show ((c.olderDen + (num / den).toNat * c.newerDen : Nat) : Int) = _
    push_cast
    rw [hcast]
  refine ⟨?_, ?_, ?_, ?_, hwithin, ?_, hlt⟩
  · rw [h.num_eq, hrest]
    show _ = (c.olderNum + num / den * c.newerNum) * den +
      c.newerNum * (num - num / den * den)
    ring
  · rw [h.den_eq, hrest, hnew]
    show _ = (c.olderDen + num / den * c.newerDen) * den +
      (c.newerDen : Int) * (num - num / den * den)
    ring
  · rw [hnew]
    show (c.olderNum + num / den * c.newerNum) * c.newerDen -
        c.newerNum * (c.olderDen + num / den * c.newerDen) = 1 ∨
      c.newerNum * (c.olderDen + num / den * c.newerDen) -
        (c.olderNum + num / den * c.newerNum) * c.newerDen = 1
    rcases h.det with hdet | hdet
    · right
      linear_combination hdet
    · left
      linear_combination hdet
  · show 0 < c.olderDen + (num / den).toNat * c.newerDen
    omega
  · show c.newerDen ≤ c.olderDen + (num / den).toNat * c.newerDen
    omega

/-- To follow the continued fraction ends at its end or at the bound. -/
theorem Leads.follow (h : c.Leads bound q num den) : ∃ num' den',
    (c.follow bound num den).Leads bound q num' den' ∧
      (den' ≠ 0 → bound < ((c.follow bound num den).next (num' / den')).newerDen) := by
  fun_induction Convergents.follow bound c num den with
  | case1 c num => exact ⟨num, 0, h, fun hne => absurd rfl hne⟩
  | case2 c num den hden quotient next hbeyond => exact ⟨num, den, h, fun _ => hbeyond⟩
  | case3 c num den hden quotient next hwithin ih => exact ih (h.next hden (not_lt.mp hwithin))

/-- The first convergent is the whole part. -/
theorem leads_first (hbound : 0 < bound) (q : Rat) :
    (start.next (q.num / q.den)).Leads bound q q.den (q.num % q.den).toNat := by
  obtain ⟨hrest, hlt⟩ := emod_toNat q.num q.den_nz
  refine ⟨?_, ?_, .inr ?_, Nat.one_pos, hbound, Nat.zero_le _, hlt⟩
  · rw [hrest]
    show q.num = (0 + q.num / q.den * 1) * q.den + 1 * (q.num - q.num / q.den * q.den)
    ring
  · show (q.den : Int) = (1 : Nat) * q.den + (0 : Nat) * _
    ring
  · show 1 * ((1 : Nat) : Int) - (0 + q.num / q.den * 1) * ((0 : Nat) : Int) = 1
    ring

theorem follow_start (hbound : 0 < bound) (q : Rat) : start.follow bound q.num q.den =
    (start.next (q.num / q.den)).follow bound q.den (q.num % q.den).toNat := by
  have hwithin : ¬bound < (start.next (q.num / q.den)).newerDen :=
    not_lt.mpr (show 1 + _ * 0 ≤ bound by omega)
  rw [Convergents.follow, dif_neg q.den_nz]
  exact if_neg hwithin

/-- A number whose own denominator is beyond the bound is not reached. -/
theorem leads_follow_start (hbound : 0 < bound) (hq : bound < q.den) : ∃ num den,
    (start.follow bound q.num q.den).Leads bound q num den ∧ 0 < den ∧
      bound < ((start.follow bound q.num q.den).next (num / den)).newerDen := by
  rw [follow_start hbound q]
  obtain ⟨num, den, hleads, hbeyond⟩ := (leads_first hbound q).follow
  have hden : den ≠ 0 := by
    rintro rfl
    -- a convergent equal to `q` has the denominator of `q`, as both are in lowest terms
    have hnum := hleads.num_eq
    have hdenominator := hleads.den_eq
    rw [Nat.cast_zero, mul_zero, add_zero] at hnum hdenominator
    have hdvd : num.natAbs ∣ q.num.natAbs.gcd q.den :=
      Nat.dvd_gcd (hnum ▸ (Int.natAbs_mul _ _).symm ▸ Nat.dvd_mul_left _ _)
        (Int.natCast_dvd_natCast.mp (Int.natAbs_dvd.mpr ⟨_, hdenominator.trans (mul_comm _ _)⟩))
    rw [q.reduced] at hdvd
    have hone : num = 1 := by
      have := hleads.den_lt
      have := Nat.dvd_one.mp hdvd
      omega
    rw [hone, mul_one] at hdenominator
    have := hleads.newerDen_le
    omega
  exact ⟨num, den, hleads, Nat.pos_of_ne_zero hden, hbeyond hden⟩

/-- The furthest mediant within the bound, and how far it goes: `k` times the newer convergent. -/
theorem Leads.mediant_spec (h : c.Leads bound q num den) (hden : 0 < den)
    (hbeyond : bound < (c.next (num / den)).newerDen) {k : Nat}
    (hk : k = (bound - c.olderDen) / c.newerDen) :
    c.olderDen + k * c.newerDen ≤ bound ∧ bound < c.olderDen + k * c.newerDen + c.newerDen ∧
      0 ≤ num - k * den := by
  have hpos := h.newerDen_pos
  have holder := h.olderDen_le.trans h.newerDen_le
  have hlow : k * c.newerDen ≤ bound - c.olderDen := hk ▸ Nat.div_mul_le_self _ _
  have hhigh : bound - c.olderDen < (k + 1) * c.newerDen :=
    (Nat.div_lt_iff_lt_mul hpos).mp (by omega)
  rw [Nat.add_mul, Nat.one_mul] at hhigh
  refine ⟨by omega, by omega, ?_⟩
  have hbeyond : bound - c.olderDen < (num / den).toNat * c.newerDen := by
    have : bound < c.olderDen + (num / den).toNat * c.newerDen := hbeyond
    omega
  have hless : k < (num / den).toNat := lt_of_mul_lt_mul_right (hlow.trans_lt hbeyond) (by omega)
  have hquotient : (k : Int) ≤ num / den := by omega
  have := (Int.le_ediv_iff_mul_le (by omega)).mp hquotient
  omega

/-- One of the two candidates is nearest. -/
theorem Leads.nearest (h : c.Leads bound q num den) (hden : 0 < den)
    (hbeyond : bound < (c.next (num / den)).newerDen) {k : Nat}
    (hk : k = (bound - c.olderDen) / c.newerDen) {p : Rat} (hp : p.den ≤ bound) :
    |q - mkRat c.newerNum c.newerDen| ≤ |q - p| ∨
      |q - mkRat (c.olderNum + k * c.newerNum) (c.olderDen + k * c.newerDen)| ≤ |q - p| := by
  obtain ⟨-, hsum, hrest⟩ := h.mediant_spec hden hbeyond hk
  have hpos := h.newerDen_pos
  have hmediant : 0 < c.olderDen + k * c.newerDen := by
    have := h.newerDen_le
    omega
  have hnum : q.num = c.newerNum * (num - k * den) + (c.olderNum + k * c.newerNum) * den := by
    rw [h.num_eq]
    ring
  have hdenominator : (q.den : Int) = c.newerDen * (num - k * den) +
      ((c.olderDen + k * c.newerDen : Nat) : Int) * den := by
    rw [h.den_eq]
    push_cast
    ring
  rw [Rat.mkRat_eq_div, Rat.mkRat_eq_div]
  rcases h.det with hdet | hdet
  · have hdet : c.newerNum * ((c.olderDen + k * c.newerDen : Nat) : Int) -
        (c.olderNum + k * c.newerNum) * c.newerDen = 1 := by
      push_cast
      linear_combination hdet
    have hapart := apart_of_det hmediant hpos hdet hsum
    have hbetween := between_of_det hmediant hpos hdet hrest (by omega) hnum hdenominator
    exact (hapart.nearest hbetween hp).symm
  · have hdet : (c.olderNum + k * c.newerNum) * (c.newerDen : Int) -
        c.newerNum * ((c.olderDen + k * c.newerDen : Nat) : Int) = 1 := by
      push_cast
      linear_combination hdet
    have hapart := apart_of_det hpos hmediant hdet (hsum.trans_eq (Nat.add_comm _ _))
    have hbetween := between_of_det hpos hmediant hdet (by omega) hrest
      (hnum.trans (add_comm _ _)) (hdenominator.trans (add_comm _ _))
    exact hapart.nearest hbetween hp

end Convergents

/-! ### The approximation -/

variable {bound : Nat} {q : Rat}

theorem distance_eq (a b : Rat) : distance a b = |b - a| := by
  rw [distance]
  split
  · rw [abs_of_pos (by linarith)]
  · rw [abs_of_nonpos (by linarith)]
    ring

theorem den_mkRat_le (n : Int) {d : Nat} (hd : 0 < d) : (mkRat n d).den ≤ d := by
  rw [Rat.den_mkRat, if_neg hd.ne']
  exact Nat.div_le_self _ _

theorem limitDenominator_of_den_le (h : q.den ≤ bound) : limitDenominator bound q = q := if_pos h

/-- The approximation keeps within the bound, and nothing within it is nearer. -/
theorem limitDenominator_spec (hbound : 0 < bound) (q : Rat) :
    (limitDenominator bound q).den ≤ bound ∧
      ∀ p : Rat, p.den ≤ bound → |q - limitDenominator bound q| ≤ |q - p| := by
  by_cases hq : q.den ≤ bound
  · rw [limitDenominator_of_den_le hq]
    refine ⟨hq, fun p _ => ?_⟩
    rw [sub_self, abs_zero]
    exact abs_nonneg _
  · obtain ⟨num, den, hleads, hden, hbeyond⟩ :=
      Convergents.leads_follow_start hbound (not_le.mp hq)
    rw [limitDenominator, if_neg hq]
    simp only [distance_eq]
    generalize Convergents.start.follow bound q.num q.den = c at hleads hbeyond ⊢
    obtain ⟨hwithin, hsum, -⟩ := hleads.mediant_spec hden hbeyond rfl
    have hnearest := fun p hp => hleads.nearest hden hbeyond rfl (p := p) hp
    have hnewer := hleads.newerDen_le
    split_ifs with hcloser
    · refine ⟨(den_mkRat_le _ hleads.newerDen_pos).trans hnewer, fun p hp => ?_⟩
      exact (hnearest p hp).elim id hcloser.trans
    · refine ⟨(den_mkRat_le _ (by omega)).trans hwithin, fun p hp => ?_⟩
      exact (hnearest p hp).elim (not_le.mp hcloser).le.trans id

/-- Whoever is as near to the greater of two numbers as to the less is at or above their middle. -/
theorem middle_le {a b x : Rat} (hlt : b < a) (h : |x - a| ≤ |x - b|) : a + b ≤ 2 * x := by
  by_contra hbelow
  have hnear : |x - b| < a - x := abs_lt.mpr ⟨by linarith, by linarith⟩
  have hfar := neg_le_abs (x - a)
  linarith

/-- Approximations are in the order of the numbers: otherwise both numbers would be on the wrong
side of the middle between the two. -/
theorem limitDenominator_mono (hbound : 0 < bound) {x y : Rat} (hlt : x < y) :
    limitDenominator bound x ≤ limitDenominator bound y := by
  obtain ⟨hx, hxbest⟩ := limitDenominator_spec hbound x
  obtain ⟨hy, hybest⟩ := limitDenominator_spec hbound y
  by_contra hcross
  have habove := middle_le (not_le.mp hcross) (hxbest _ hy)
  have hbelow := middle_le (neg_lt_neg (not_le.mp hcross)) (x := -y) (by
    rw [neg_sub_neg, neg_sub_neg, abs_sub_comm, abs_sub_comm _ y]
    exact hybest _ hx)
  linarith

end ExactSimplex.Rational
