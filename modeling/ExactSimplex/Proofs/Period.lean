import ExactSimplex.Proofs.Draws
import Mathlib.Algebra.Ring.Periodic
import Mathlib.Data.Int.ConditionallyCompleteOrder
import Mathlib.Data.Int.Interval
import Mathlib.NumberTheory.Multiplicity

/-! The words of a stream.  They are those of an affine recurrence on whole numbers, of which the
low 64 bits are kept and read with a sign.  Its multiplier is one modulo four and its increment is
odd, so `n` steps move a number by as many factors of two as `n` has; hence the low `k` bits return
after `2 ^ k` steps and not before, and `2 ^ 64` steps pass through every word once. -/

namespace ExactSimplex

/-! ### Iterates of an affine map on the whole numbers -/

namespace Affine

/-- `a * x + c`, of any size. -/
def step (a c x : Int) : Int := a * x + c

variable {a c : Int}

theorem iterate_sub_iterate (x y : Int) (n : Nat) :
    (step a c)^[n] x - (step a c)^[n] y = a ^ n * (x - y) := by
  induction n with
  | zero => rw [Function.iterate_zero_apply, Function.iterate_zero_apply, pow_zero, one_mul]
  | succ n ih =>
    rw [Function.iterate_succ_apply', Function.iterate_succ_apply', pow_succ', mul_assoc, ← ih]
    simp only [step]
    ring

/-- How far `n` steps go, times the excess of the multiplier over one. -/
theorem sub_one_mul_iterate_sub (x : Int) (n : Nat) :
    (a - 1) * ((step a c)^[n] x - x) = (a ^ n - 1) * ((a - 1) * x + c) := by
  induction n with
  | zero => simp
  | succ n ih =>
    have hnext : (step a c)^[n + 1] x - x = a * ((step a c)^[n] x - x) + ((a - 1) * x + c) := by
      rw [Function.iterate_succ_apply', step]
      ring
    rw [hnext, mul_add, mul_left_comm, ih]
    ring

section Odd

variable (ha : 4 ∣ a - 1)
include ha

theorem not_two_dvd : ¬2 ∣ a := by omega

/-- Steps neither bring two numbers together modulo a power of two nor take them apart. -/
theorem two_pow_dvd_iterate_sub_iterate_iff (k n : Nat) (x y : Int) :
    2 ^ k ∣ (step a c)^[n] x - (step a c)^[n] y ↔ 2 ^ k ∣ x - y := by
  have hodd : ¬2 ∣ a ^ n := fun h => not_two_dvd ha (Int.prime_two.dvd_of_dvd_pow h)
  rw [iterate_sub_iterate]
  exact ⟨Int.prime_two.pow_dvd_of_dvd_mul_left k hodd, fun h => Dvd.dvd.mul_left h _⟩

theorem emultiplicity_iterate_sub (hne : a ≠ 1) (hc : ¬2 ∣ c) (x : Int) (n : Nat) :
    emultiplicity 2 ((step a c)^[n] x - x) = emultiplicity (2 : Int) n := by
  have hfinite : emultiplicity 2 (a - 1) ≠ ⊤ := by
    apply finiteMultiplicity_iff_emultiplicity_ne_top.mp
    exact Int.finiteMultiplicity_iff.mpr ⟨by decide, sub_ne_zero.mpr hne⟩
  have hodd : emultiplicity 2 ((a - 1) * x + c) = 0 := by
    apply emultiplicity_eq_zero.mpr
    intro h
    have heven : 2 ∣ (a - 1) * x := Dvd.dvd.mul_right (by omega) x
    exact hc ((Int.dvd_add_right heven).mp h)
  have hpow := Int.two_pow_sub_pow' n ha (not_two_dvd ha)
  have hmoved := congrArg (emultiplicity 2) (sub_one_mul_iterate_sub (a := a) (c := c) x n)
  rw [one_pow] at hpow
  rw [emultiplicity_mul Int.prime_two, emultiplicity_mul Int.prime_two, hodd, add_zero, hpow]
    at hmoved
  exact (WithTop.add_left_inj hfinite).mp hmoved

/-- `n` steps lead back modulo `2 ^ k` exactly when `2 ^ k` divides `n`. -/
theorem two_pow_dvd_iterate_sub_iff (hne : a ≠ 1) (hc : ¬2 ∣ c) (k : Nat) (x : Int) (n : Nat) :
    2 ^ k ∣ (step a c)^[n] x - x ↔ 2 ^ k ∣ n := by
  rw [pow_dvd_iff_le_emultiplicity, emultiplicity_iterate_sub ha hne hc,
    ← pow_dvd_iff_le_emultiplicity]
  exact_mod_cast Iff.rfl

end Odd

end Affine

namespace Stream

/-! ### The words -/

/-- One step of the recurrence, on whole numbers of any size. -/
def recur (x : Int) : Int := Affine.step 3935559000370003845 0xFACED x

/-- The low 64 bits of a whole number, read with a sign. -/
def wrap (x : Int) : Int :=
  let low := x % 2 ^ 64
  if 2 ^ 63 - 1 < low then low - 2 ^ 64 else low

/-- The stream of a seed after some steps. -/
def after (seed : Int) (n : Nat) : Stream := Stream.next^[n] (ofSeed seed)

theorem wrap_eq_bmod (x : Int) : wrap x = x.bmod (2 ^ 64) := by
  rw [wrap, Int.bmod_def]
  norm_num
  split_ifs <;> omega

theorem wrap_emod (x : Int) : wrap x % 2 ^ 64 = x % 2 ^ 64 := by
  rw [wrap]
  split_ifs <;> omega

theorem wrap_modEq (x : Int) : wrap x ≡ x [ZMOD 2 ^ 64] := wrap_emod x

theorem wrap_eq_iff {x y : Int} : wrap x = wrap y ↔ x ≡ y [ZMOD 2 ^ 64] := by
  constructor
  · intro h
    exact (wrap_modEq x).symm.trans (h ▸ wrap_modEq y)
  · intro h
    rw [wrap, wrap, h.eq]

theorem word_ofSeed (seed : Int) : (ofSeed seed).word = wrap seed := by
  rw [wrap_eq_bmod]
  exact Int64.toInt_ofInt

theorem word_next (s : Stream) : s.next.word = wrap (recur s.word) := by
  have hmultiplier : multiplier.toInt = 3935559000370003845 := by decide
  have hincrement : increment.toInt = 0xFACED := by decide
  rw [wrap_eq_bmod, recur, Affine.step, word, next, Int64.toInt_add, Int64.toInt_mul, hmultiplier,
    hincrement, Int.bmod_add_bmod, word]

theorem word_ge (s : Stream) : -2 ^ 63 ≤ s.word := s.state.le_toInt

theorem word_lt (s : Stream) : s.word < 2 ^ 63 := s.state.toInt_lt

theorem after_succ (seed : Int) (n : Nat) : after seed (n + 1) = (after seed n).next :=
  Function.iterate_succ_apply' _ n _

/-- The words wrap, and otherwise follow the recurrence. -/
theorem word_after (seed : Int) (n : Nat) : (after seed n).word = wrap (recur^[n] seed) := by
  induction n with
  | zero => exact word_ofSeed seed
  | succ n ih =>
    rw [after_succ, word_next, ih, Function.iterate_succ_apply', wrap_eq_iff]
    exact ((wrap_modEq _).mul_left _).add_right _

variable {seed seed' : Int} {k m n : Nat}

theorem word_after_eq_iff : (after seed m).word = (after seed' n).word ↔
    2 ^ 64 ∣ recur^[m] seed - recur^[n] seed' := by
  rw [word_after, word_after, wrap_eq_iff]
  exact Int.modEq_comm.trans Int.modEq_iff_dvd

/-- The low bits of the words are those of the recurrence. -/
theorem word_after_emod (hk : k ≤ 64) (seed : Int) (n : Nat) :
    (after seed n).word ≡ recur^[n] seed [ZMOD 2 ^ k] := by
  rw [word_after]
  exact (wrap_modEq _).of_dvd (pow_dvd_pow 2 hk)

/-! ### Returns -/

theorem multiplier_sub_one : (4 : Int) ∣ 3935559000370003845 - 1 := by decide

theorem two_pow_dvd_recur_sub_iff (k : Nat) (x : Int) (n : Nat) :
    2 ^ k ∣ recur^[n] x - x ↔ 2 ^ k ∣ n :=
  Affine.two_pow_dvd_iterate_sub_iff multiplier_sub_one (by decide) (by decide) k x n

/-- The low `k` bits of the words return after the multiples of `2 ^ k` steps. -/
theorem word_add_emod_eq_iff (hk : k ≤ 64) (seed : Int) (n p : Nat) :
    (after seed (n + p)).word % 2 ^ k = (after seed n).word % 2 ^ k ↔ 2 ^ k ∣ p := by
  rw [word_after_emod hk, word_after_emod hk, Nat.add_comm, Function.iterate_add_apply,
    ← two_pow_dvd_recur_sub_iff k (recur^[n] seed)]
  exact Int.modEq_comm.trans Int.modEq_iff_dvd

/-- The least number of steps after which the low `k` bits always return. -/
theorem isLeast_period (hk : k ≤ 64) (seed : Int) :
    IsLeast {p | 0 < p ∧ Function.Periodic (fun n => (after seed n).word % 2 ^ k) p} (2 ^ k) := by
  constructor
  · refine ⟨Nat.two_pow_pos k, fun n => ?_⟩
    exact (word_add_emod_eq_iff hk seed n _).mpr dvd_rfl
  · rintro p ⟨hpos, hperiodic⟩
    have hdvd := (word_add_emod_eq_iff hk seed 0 p).mp (hperiodic 0)
    exact Nat.le_of_dvd hpos hdvd

/-- Words that stand less than `2 ^ 64` steps apart differ. -/
theorem eq_of_word_eq (hle : m ≤ n) (hlt : n < m + 2 ^ 64)
    (h : (after seed m).word = (after seed n).word) : m = n := by
  obtain ⟨p, rfl⟩ := Nat.exists_eq_add_of_le hle
  have hdvd := (word_add_emod_eq_iff le_rfl seed m p).mp (by rw [h])
  have hzero := Nat.eq_zero_of_dvd_of_lt hdvd (by omega)
  omega

theorem word_injOn (seed : Int) (start : Nat) :
    Set.InjOn (fun n => (after seed (start + n)).word) (Finset.range (2 ^ 64)) := by
  intro m hm n hn h
  rw [Finset.coe_range, Set.mem_Iio] at hm hn
  rcases Nat.le_total m n with hle | hle
  · have := eq_of_word_eq (Nat.add_le_add_left hle start) (by omega) h
    omega
  · have := eq_of_word_eq (Nat.add_le_add_left hle start) (by omega) h.symm
    omega

/-- Seeds that differ modulo `2 ^ 64` have different words at every step, all others the same. -/
theorem word_after_eq_after_iff (seed seed' : Int) (n : Nat) :
    (after seed n).word = (after seed' n).word ↔ seed ≡ seed' [ZMOD 2 ^ 64] := by
  rw [word_after_eq_iff, Int.modEq_comm, Int.modEq_iff_dvd]
  exact Affine.two_pow_dvd_iterate_sub_iterate_iff multiplier_sub_one 64 n seed seed'

/-! ### All words in one period -/

/-- A period passes through every word. -/
theorem image_word (seed : Int) (start : Nat) :
    (Finset.range (2 ^ 64)).image (fun n => (after seed (start + n)).word) =
      Finset.Ico (-2 ^ 63) (2 ^ 63) := by
  apply Finset.eq_of_subset_of_card_le
  · intro w hw
    obtain ⟨n, -, rfl⟩ := Finset.mem_image.mp hw
    exact Finset.mem_Ico.mpr ⟨word_ge _, word_lt _⟩
  · rw [Finset.card_image_of_injOn (word_injOn seed start), Finset.card_range, Int.card_Ico]
    decide

/-- A property of words holds as often in a period as there are words that have it. -/
theorem card_filter_word (seed : Int) (start : Nat) (p : Int → Prop) [DecidablePred p] :
    (Finset.filter (fun n => p (after seed (start + n)).word) (Finset.range (2 ^ 64))).card =
      (Finset.filter p (Finset.Ico (-2 ^ 63) (2 ^ 63))).card := by
  have hinj := (word_injOn seed start).mono
    (Finset.coe_subset.mpr (Finset.filter_subset (fun n => p (after seed (start + n)).word) _))
  rw [← image_word seed start, Finset.filter_image, Finset.card_image_of_injOn hinj]

theorem card_filter_offset {center v : Int} (hlow : center - 128 ≤ v) (hhigh : v ≤ center + 127) :
    (Finset.filter (fun w : Int => w / 0x100000000000000 + center = v)
      (Finset.Ico (-2 ^ 63) (2 ^ 63))).card = 2 ^ 56 := by
  have hwords : Finset.filter (fun w : Int => w / 0x100000000000000 + center = v)
      (Finset.Ico (-2 ^ 63) (2 ^ 63)) =
        Finset.Ico ((v - center) * 2 ^ 56) ((v - center) * 2 ^ 56 + 2 ^ 56) := by
    ext w
    rw [Finset.mem_filter, Finset.mem_Ico, Finset.mem_Ico]
    omega
  rw [hwords, Int.card_Ico, add_sub_cancel_left]
  rfl

theorem offset_bounds (s : Stream) (center : Int) :
    center - 128 ≤ s.offset center ∧ s.offset center ≤ center + 127 := by
  have hge := s.word_ge
  have hlt := s.word_lt
  rw [offset]
  omega

theorem exists_offset (s : Stream) (center : Int) :
    ∃ v : Int, center - 128 ≤ v ∧ v ≤ center + 127 ∧ (s.offset center : Rat) = v :=
  ⟨_, (offset_bounds s center).1, (offset_bounds s center).2, rfl⟩

theorem count_map_range {α : Type} [DecidableEq α] (f : Nat → α) (x : α) (n : Nat) :
    ((List.range n).map f).count x = (Finset.filter (fun k => f k = x) (Finset.range n)).card := by
  rw [List.count, List.countP_map, List.countP_eq_length_filter]
  rfl

theorem standing_after (center seed : Int) (start n : Nat) :
    (after seed start).standing (drawCoefficient center) n = after seed (start + n) := by
  rw [standing_drawCoefficient, after, after, ← Function.iterate_add_apply, Nat.add_comm]

/-- The coefficients that are drawn one after the other. -/
theorem drawMany_drawCoefficient (center seed : Int) (start count : Nat) :
    (drawMany (drawCoefficient center) count (after seed start)).1 =
      (List.range count).map fun n => ((after seed (start + 1 + n)).offset center : Rat) := by
  rw [drawMany_eq]
  refine List.map_congr_left fun n _ => ?_
  rw [standing_after, Nat.add_right_comm, after_succ]
  rfl

theorem count_drawMany {center v : Int} (hlow : center - 128 ≤ v) (hhigh : v ≤ center + 127)
    (seed : Int) (start : Nat) :
    (drawMany (drawCoefficient center) (2 ^ 64) (after seed start)).1.count (v : Rat) = 2 ^ 56 := by
  rw [drawMany_drawCoefficient, count_map_range, ← card_filter_offset hlow hhigh,
    ← card_filter_word seed (start + 1)]
  simp only [Int.cast_inj, offset]

theorem exists_of_mem_coefficients {center seed : Int} {start count : Nat} {q : Rat}
    (h : q ∈ (drawMany (drawCoefficient center) count (after seed start)).1) :
    ∃ v : Int, center - 128 ≤ v ∧ v ≤ center + 127 ∧ q = v := by
  obtain ⟨s, rfl⟩ := exists_of_mem_drawMany _ h
  exact exists_offset _ center

/-! ### The stream of a seed -/

/-- What is said of the stream of a seed. -/
structure FullPeriod (seed : Int) : Prop where
  /-- The words are computed on whole numbers and wrapped at the beginning and after each step. -/
  start : (after seed 0).word = wrap seed
  step : ∀ n, (after seed (n + 1)).word = wrap (recur (after seed n).word)
  bounds : ∀ n, -2 ^ 63 ≤ (after seed n).word ∧ (after seed n).word ≤ 2 ^ 63 - 1
  /-- Wrapping at every step loses nothing modulo `2 ^ 64`. -/
  modEq : ∀ n, (after seed n).word ≡ recur^[n] seed [ZMOD 2 ^ 64]
  distinct : Set.InjOn (fun n => (after seed n).word) (Finset.range (2 ^ 64))
  least_period : ∀ k ≤ 64,
    IsLeast {p | 0 < p ∧ Function.Periodic (fun n => (after seed n).word % 2 ^ k) p} (2 ^ k)
  /-- Not even a single word has the same low bits as another one within their period. -/
  returns : ∀ k ≤ 64, ∀ n p,
    (after seed (n + p)).word % 2 ^ k = (after seed n).word % 2 ^ k ↔ 2 ^ k ∣ p
  /-- In one period, wherever it begins, all coefficients around a center are equally frequent. -/
  count_eq : ∀ (center v : Int) (n : Nat), center - 128 ≤ v → v ≤ center + 127 →
    (drawMany (drawCoefficient center) (2 ^ 64) (after seed n)).1.count (v : Rat) = 2 ^ 56
  mem : ∀ (center : Int) (n : Nat),
    ∀ q ∈ (drawMany (drawCoefficient center) (2 ^ 64) (after seed n)).1,
      ∃ v : Int, center - 128 ≤ v ∧ v ≤ center + 127 ∧ q = v

theorem fullPeriod (seed : Int) : FullPeriod seed where
  start := word_ofSeed seed
  step n := by rw [after_succ, word_next]
  bounds n := ⟨word_ge _, Int.le_sub_one_of_lt (word_lt _)⟩
  modEq n := word_after_emod le_rfl seed n
  distinct := by simpa only [Nat.zero_add] using word_injOn seed 0
  least_period k hk := isLeast_period hk seed
  returns k hk n p := word_add_emod_eq_iff hk seed n p
  count_eq center v n hlow hhigh := count_drawMany hlow hhigh seed n
  mem center n q hq := exists_of_mem_coefficients hq

/-- The words wrap like signed words of 64 bits and pass through all of them.  The streams of two
seeds are the same if the seeds agree modulo `2 ^ 64`, and otherwise differ at every step. -/
theorem words_full_period :
    (∀ seed, FullPeriod seed) ∧
    ∀ seed seed' : Int,
      ((∀ n, (after seed (n + 1)).word = (after seed' (n + 1)).word) ↔
        seed ≡ seed' [ZMOD 2 ^ 64]) ∧
      (¬seed ≡ seed' [ZMOD 2 ^ 64] → ∀ n, (after seed n).word ≠ (after seed' n).word) := by
  refine ⟨fullPeriod, fun seed seed' => ⟨?_, ?_⟩⟩
  · constructor
    · intro h
      exact (word_after_eq_after_iff seed seed' 1).mp (h 0)
    · intro h n
      exact (word_after_eq_after_iff seed seed' (n + 1)).mpr h
  · intro h n heq
    exact h ((word_after_eq_after_iff seed seed' n).mp heq)

/-- Seeds on both sides of the range of words, and one coefficient of the stream of 42. -/
theorem words_full_period_fortyTwo :
    (after 42 1).word = -727218647844775745 ∧
    (∀ n, (after 42 (n + 1)).word = (after (42 - 2 ^ 64) (n + 1)).word) ∧
    (∀ n, (after 42 n).word ≠ (after (2 ^ 63 + 42) n).word) ∧
    (after 42 3).word % 2 ^ 3 = (after 42 11).word % 2 ^ 3 ∧
    (drawMany (drawCoefficient 128) (2 ^ 64) (after 42 0)).1.count ((237 : Int) : Rat) =
      2 ^ 56 := by
  have hperiod := words_full_period.1 42
  refine ⟨by decide, ?_, ?_, ?_, ?_⟩
  · exact (words_full_period.2 42 (42 - 2 ^ 64)).1.mpr (by norm_num [Int.ModEq])
  · exact (words_full_period.2 42 (2 ^ 63 + 42)).2 (by norm_num [Int.ModEq])
  · exact ((hperiod.returns 3 (by decide) 3 8).mpr (by decide)).symm
  · exact hperiod.count_eq 128 237 0 (by decide) (by decide)

end Stream

end ExactSimplex
