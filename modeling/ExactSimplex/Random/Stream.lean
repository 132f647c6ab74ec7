/-! The stream of numbers behind random programs: a linear congruential generator on signed words of
64 bits, whose arithmetic wraps. -/

namespace ExactSimplex

/-- Where a stream stands. -/
structure Stream where
  state : Int64
deriving DecidableEq, Repr

namespace Stream

/-- The factor of a step. -/
def multiplier : Int64 := 3935559000370003845

/-- What a step adds. -/
def increment : Int64 := 0xFACED

/-- The stream of a seed, which counts modulo `2 ^ 64`. -/
def ofSeed (seed : Int) : Stream := ⟨Int64.ofInt seed⟩

/-- One step further. -/
def next (s : Stream) : Stream := ⟨multiplier * s.state + increment⟩

/-- The word that a stream stands at, as an integer. -/
def word (s : Stream) : Int := s.state.toInt

/-- The low 63 bits of the word over `2 ^ 63`: a double from zero to one. -/
def fraction (s : Stream) : Float :=
  (s.state.toUInt64 &&& 0x7FFFFFFFFFFFFFFF).toFloat / 9223372036854775808

/-- The high eight bits of the word, a number from -128 to 127, moved by `center`. -/
def offset (s : Stream) (center : Int) : Int := s.word / 0x100000000000000 + center

end Stream

end ExactSimplex
