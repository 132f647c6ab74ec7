import ExactSimplex.Error
import ExactSimplex.Text.Digit

/-! How many digits whole numbers may have when they are written or read.  The host that a program
runs on may put a bound on them; then a longer number cannot be turned into text, and a longer text
is not turned into a number.  The bound is a setting of the host, so whatever writes or reads
numbers has it as an argument.  Numbers that count what is in hand (places, rows, steps, programs)
stay below every bound and are written without it. -/

namespace ExactSimplex

/-- A bound on digits, or none.  No host sets one below 640. -/
structure DigitLimit where
  bound : Option Nat
  ample : ∀ b ∈ bound, 640 ≤ b

namespace DigitLimit

/-- The setting without a bound. -/
def off : DigitLimit := ⟨none, nofun⟩

/-- The bound that a host has as long as nobody sets another. -/
def standard : DigitLimit := ⟨some 4300, by simp⟩

/-- A number with so many digits, zeros in front counted, may be read. -/
def Allows (limit : DigitLimit) (size : Nat) : Prop := ∀ b ∈ limit.bound, size ≤ b

instance (limit : DigitLimit) (size : Nat) : Decidable (limit.Allows size) :=
  inferInstanceAs (Decidable (∀ b ∈ limit.bound, size ≤ b))

/-- A number may be written: it has no more digits than the bound. -/
def Fits (limit : DigitLimit) (n : Int) : Prop := ∀ b ∈ limit.bound, n.natAbs < Nat.pow 10 b

instance (limit : DigitLimit) (n : Int) : Decidable (limit.Fits n) :=
  inferInstanceAs (Decidable (∀ b ∈ limit.bound, n.natAbs < Nat.pow 10 b))

/-- The decimal text of a number. -/
def write (limit : DigitLimit) (n : Int) : Except Error String :=
  if limit.Fits n then .ok (toString n) else .error .tooManyDigits

/-- The value of a number that stands in a text. -/
def read (limit : DigitLimit) (w : Text.Written) : Except Error Int :=
  if limit.Allows w.size then .ok w.value else .error .tooManyDigits

theorem allows_off (size : Nat) : off.Allows size := nofun

theorem fits_off (n : Int) : off.Fits n := nofun

/-- A denominator of one can always be written. -/
theorem fits_one (limit : DigitLimit) : limit.Fits 1 := fun b hb =>
  Nat.one_lt_pow (by have := limit.ample b hb; omega) (by decide)

end DigitLimit

end ExactSimplex
