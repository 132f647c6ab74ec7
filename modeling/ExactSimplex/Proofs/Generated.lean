import ExactSimplex.Proofs.Batch
import ExactSimplex.Proofs.Period

/-! Drawn programs and the stream that they are drawn from.  Every draw moves the stream by a number
of steps that depends on where the stream stands: an entry of a constraint takes two steps if the
first one falls below the chance, and one step otherwise.  A drawn program has integers within fixed
bounds, its constraints are in normal form, and the stream before it decides about it and about all
programs after it. -/

namespace ExactSimplex

namespace Stream

open Finset

variable {α : Type} {draw : Stream → α × Stream} {cost : Stream → Nat}

/-- A draw moves the stream by `cost s` steps from where it stands. -/
def Takes (draw : Stream → α × Stream) (cost : Stream → Nat) : Prop :=
  ∀ s, (draw s).2 = next^[cost s] s

theorem Takes.standing (h : Takes draw cost) (s : Stream) (n : Nat) :
    s.standing draw n = next^[∑ k ∈ range n, cost (s.standing draw k)] s := by
  induction n with
  | zero => simp only [Stream.standing, range_zero, sum_empty, Function.iterate_zero]
  | succ n ih =>
    rw [standing_succ, h, sum_range_succ, Nat.add_comm, Function.iterate_add_apply, ← ih]

/-! ### The steps of a program -/

variable (p : ProgramShape)

/-- Whether an entry that begins where the stream stands has its first draw below the chance. -/
def Hits (s : Stream) : Prop := s.next.fraction < p.nonzeroChance

instance : DecidablePred (Hits p) := fun s => s.next.fraction.decLt p.nonzeroChance

/-- The number of coefficients in the objective and in each constraint. -/
def columns : Nat := p.variableCount.toNat

/-- Where entry `j` of a constraint begins. -/
def entryAt (s : Stream) (j : Nat) : Stream := s.standing (drawSparse p) j

/-- Where constraint `i` of a program begins, behind the objective. -/
def constraintAt (s : Stream) (i : Nat) : Stream :=
  (next^[columns p] s).standing (drawConstraint p) i

/-- How many entries of a constraint hit. -/
def hitsOfConstraint (s : Stream) : Nat := #{j ∈ range (columns p) | Hits p (s.entryAt p j)}

/-- How many entries of a program hit. -/
def hitsOfProgram (s : Stream) : Nat :=
  ∑ i ∈ range p.constraintCount.toNat, hitsOfConstraint p (s.constraintAt p i)

theorem drawSparse_of_hits {p : ProgramShape} {s : Stream} (h : Hits p s) :
    drawSparse p s = ((s.next.next.offset 64 : Rat), s.next.next) := if_pos h

theorem drawSparse_of_not_hits {p : ProgramShape} {s : Stream} (h : ¬Hits p s) :
    drawSparse p s = (0, s.next) := if_neg h

theorem takes_drawSparse : Takes (drawSparse p) fun s => 1 + if Hits p s then 1 else 0 := by
  intro s
  by_cases h : Hits p s
  · rw [drawSparse_of_hits h]
    simp only [if_pos h]
    rfl
  · rw [drawSparse_of_not_hits h]
    simp only [if_neg h]
    rfl

/-- An entry begins behind the entries before it, each with one step, and the hits among them. -/
theorem entryAt_eq (s : Stream) (j : Nat) : s.entryAt p j =
    next^[j + #{k ∈ range j | Hits p (s.entryAt p k)}] s := by
  have hcost : ∑ k ∈ range j, (1 + if Hits p (s.entryAt p k) then 1 else 0) =
      j + #{k ∈ range j | Hits p (s.entryAt p k)} := by
    rw [sum_add_distrib, sum_const, card_range, smul_eq_mul, mul_one, ← card_filter]
  rw [← hcost]
  exact (takes_drawSparse p).standing s j

theorem takes_drawConstraint :
    Takes (drawConstraint p) fun s => columns p + 2 + hitsOfConstraint p s := by
  intro s
  -- behind the entries, the relation and the right-hand side take one step each
  have hend : (drawConstraint p s).2 = (drawMany (drawSparse p) (columns p) s).2.next.next := rfl
  have hrow : (drawMany (drawSparse p) (columns p) s).2 =
      next^[columns p + hitsOfConstraint p s] s := by
    rw [drawMany_eq]
    exact entryAt_eq p s (columns p)
  simp only [hend, hrow, Nat.add_right_comm _ 2, ← Function.iterate_succ_apply' next]

theorem constraintAt_eq (s : Stream) (i : Nat) : s.constraintAt p i =
    next^[columns p + i * (columns p + 2) + ∑ k ∈ range i, hitsOfConstraint p (s.constraintAt p k)]
      s := by
  have hcost : ∑ k ∈ range i, (columns p + 2 + hitsOfConstraint p (s.constraintAt p k)) =
      i * (columns p + 2) + ∑ k ∈ range i, hitsOfConstraint p (s.constraintAt p k) := by
    rw [sum_add_distrib, sum_const, card_range, smul_eq_mul]
  rw [Nat.add_assoc, Nat.add_comm, ← hcost, Function.iterate_add_apply]
  exact (takes_drawConstraint p).standing (next^[columns p] s) i

theorem takes_drawProgram : Takes (drawProgram p) fun s =>
    columns p + p.constraintCount.toNat * (columns p + 2) + hitsOfProgram p s := by
  intro s
  have hend : (drawProgram p s).2 = (drawMany (drawConstraint p) p.constraintCount.toNat
      (drawMany (drawCoefficient 0) (columns p) s).2).2 := rfl
  rw [hend, drawMany_eq _ (columns p), standing_drawCoefficient, drawMany_eq]
  exact constraintAt_eq p s p.constraintCount.toNat

theorem hitsOfProgram_le (s : Stream) :
    hitsOfProgram p s ≤ p.constraintCount.toNat * columns p := by
  have hrow (i : Nat) : hitsOfConstraint p (s.constraintAt p i) ≤ columns p :=
    (card_filter_le _ _).trans_eq (card_range _)
  calc hitsOfProgram p s ≤ ∑ _i ∈ range p.constraintCount.toNat, columns p :=
        sum_le_sum fun i _ => hrow i
    _ = p.constraintCount.toNat * columns p := by rw [sum_const, card_range, smul_eq_mul]

/-! ### The numbers of a program -/

theorem objective_drawProgram (s : Stream) : (drawProgram p s).1.objective =
    (List.range (columns p)).map fun j => ((next^[j] s).next.offset 0 : Rat) := by
  have hobjective : (drawProgram p s).1.objective =
      (drawMany (drawCoefficient 0) (columns p) s).1 := rfl
  rw [hobjective, drawMany_eq]
  refine List.map_congr_left fun j _ => ?_
  rw [standing_drawCoefficient]
  rfl

theorem constraints_drawProgram (s : Stream) : (drawProgram p s).1.constraints =
    (List.range p.constraintCount.toNat).map
      fun i => (drawConstraint p (s.constraintAt p i)).1 := by
  have hconstraints : (drawProgram p s).1.constraints = (drawMany (drawConstraint p)
      p.constraintCount.toNat (drawMany (drawCoefficient 0) (columns p) s).2).1 := rfl
  rw [hconstraints, drawMany_eq _ (columns p), standing_drawCoefficient, drawMany_eq]
  rfl

/-- The entry that begins where the stream stands. -/
def entry (s : Stream) : Rat := if Hits p s then s.next.next.offset 64 else 0

theorem drawSparse_fst (s : Stream) : (drawSparse p s).1 = s.entry p := by
  by_cases h : Hits p s
  · rw [drawSparse_of_hits h, entry, if_pos h]
  · rw [drawSparse_of_not_hits h, entry, if_neg h]

theorem coefficients_drawConstraint (s : Stream) : (drawConstraint p s).1.coefficients =
    (List.range (columns p)).map fun j => (s.entryAt p j).entry p := by
  have hcoefficients : (drawConstraint p s).1.coefficients =
      (drawMany (drawSparse p) (columns p) s).1 := rfl
  rw [hcoefficients, drawMany_eq]
  exact List.map_congr_left fun j _ => drawSparse_fst p (s.entryAt p j)

theorem eq_of_word_eq_word {s s' : Stream} (h : s.word = s'.word) : s = s' := by
  cases s
  cases s'
  exact congrArg _ (Int64.toInt_inj.mp h)

end Stream

namespace Benchmark

open ExactSimplex.Stream

variable (p : ProgramShape)

/-- What is said of a program that is drawn from the stream `s`, and of the stream `s'` that is
left. -/
structure Generated (s : Stream) (lp : LinearProgram) (s' : Stream) : Prop where
  maximize_eq : lp.maximize = true
  numVars_eq : (lp.numVars : Int) = max 0 p.variableCount
  numConstraints_eq : (lp.numConstraints : Int) = max 0 p.constraintCount
  wellShaped : lp.WellShaped
  /-- No constraint is refused when the program is built. -/
  create_eq : LinearProgram.create lp.objective lp.maximize lp.constraints = .ok lp
  objective_mem : ∀ q ∈ lp.objective, ∃ v : Int, -128 ≤ v ∧ v ≤ 127 ∧ q = v
  coefficients_mem : ∀ c ∈ lp.constraints, ∀ q ∈ c.coefficients,
    q = 0 ∨ ∃ v : Int, -64 ≤ v ∧ v ≤ 191 ∧ q = v
  rhs_mem : ∀ c ∈ lp.constraints, ∃ v : Int, 0 ≤ v ∧ v ≤ 255 ∧ c.rhs = v
  normalized_eq : ∀ c ∈ lp.constraints, c.normalized = c
  /-- An entry is drawn if its first draw falls below the chance, and zero otherwise. -/
  coefficients_eq : lp.constraints.map (·.coefficients) =
    (List.range lp.numConstraints).map fun i =>
      (List.range lp.numVars).map fun j => ((s.constraintAt p i).entryAt p j).entry p
  stream_eq : s' =
    next^[lp.numVars + lp.numConstraints * (lp.numVars + 2) + hitsOfProgram p s] s
  hits_le : hitsOfProgram p s ≤ lp.numConstraints * lp.numVars

theorem generated_drawProgram (s : Stream) :
    Generated p s (drawProgram p s).1 (drawProgram p s).2 := by
  have hnumVars : (drawProgram p s).1.numVars = columns p := by
    rw [LinearProgram.numVars, objective_drawProgram, List.length_map, List.length_range]
  have hnumConstraints : (drawProgram p s).1.numConstraints = p.constraintCount.toNat := by
    rw [LinearProgram.numConstraints, constraints_drawProgram, List.length_map, List.length_range]
  have hconstraint : ∀ c ∈ (drawProgram p s).1.constraints, ∃ t, c = (drawConstraint p t).1 := by
    intro c hc
    rw [constraints_drawProgram] at hc
    obtain ⟨i, -, rfl⟩ := List.mem_map.mp hc
    exact ⟨_, rfl⟩
  have hrhs : ∀ c ∈ (drawProgram p s).1.constraints, ∃ v : Int, 0 ≤ v ∧ v ≤ 255 ∧ c.rhs = v := by
    intro c hc
    obtain ⟨t, rfl⟩ := hconstraint c hc
    exact exists_offset _ 128
  exact
    { maximize_eq := rfl
      numVars_eq := by rw [hnumVars, columns, Int.toNat_eq_max, max_comm]
      numConstraints_eq := by rw [hnumConstraints, Int.toNat_eq_max, max_comm]
      wellShaped := wellShaped_drawProgram p s
      create_eq := LinearProgram.create_eq_ok (wellShaped_drawProgram p s)
      objective_mem := by
        intro q hq
        rw [objective_drawProgram] at hq
        obtain ⟨j, -, rfl⟩ := List.mem_map.mp hq
        exact exists_offset _ 0
      coefficients_mem := by
        intro c hc q hq
        obtain ⟨t, rfl⟩ := hconstraint c hc
        rw [coefficients_drawConstraint] at hq
        obtain ⟨j, -, rfl⟩ := List.mem_map.mp hq
        rw [entry]
        split
        · exact .inr (exists_offset _ 64)
        · exact .inl rfl
      rhs_mem := hrhs
      normalized_eq := by
        intro c hc
        obtain ⟨v, hv, -, heq⟩ := hrhs c hc
        rw [Constraint.normalized, if_pos]
        rw [heq]
        exact_mod_cast hv
      coefficients_eq := by
        rw [hnumVars, hnumConstraints, constraints_drawProgram, List.map_map]
        exact List.map_congr_left fun i _ => coefficients_drawConstraint p (s.constraintAt p i)
      stream_eq := by
        rw [hnumVars, hnumConstraints]
        exact takes_drawProgram p s
      hits_le := by
        rw [hnumVars, hnumConstraints]
        exact hitsOfProgram_le p s }

/-- The steps that a program takes from the stream `s`. -/
def stepsOf (s : Stream) : Nat :=
  columns p + p.constraintCount.toNat * (columns p + 2) + hitsOfProgram p s

theorem streamAt_add (seed : Int) (k n : Nat) :
    streamAt p seed (k + n) = (streamAt p seed k).standing (drawProgram p) n := by
  rw [streamAt, streamAt, standing, standing, standing, Nat.add_comm, Function.iterate_add_apply]

/-- The programs of one generator.  Each is well-formed and takes its steps from where the one
before it stopped, and the state before it decides about it and all that follow, whatever the seed
was and however many programs came before. -/
theorem programs_generated (seed : Int) (k : Nat) :
    Generated p (streamAt p seed k) (programAt p seed k) (streamAt p seed (k + 1)) ∧
    (∀ count, k < count →
      (programs p count (Stream.ofSeed seed))[k]? = some (programAt p seed k)) ∧
    streamAt p seed k = after seed (∑ i ∈ Finset.range k, stepsOf p (streamAt p seed i)) ∧
    ∀ seed' k', (streamAt p seed k).word = (streamAt p seed' k').word →
      ∀ n, programAt p seed (k + n) = programAt p seed' (k' + n) := by
  refine ⟨?_, fun count hk => ?_, (takes_drawProgram p).standing (Stream.ofSeed seed) k,
    fun seed' k' h n => ?_⟩
  · have hnext : streamAt p seed (k + 1) = (drawProgram p (streamAt p seed k)).2 :=
      standing_succ (drawProgram p) _ k
    rw [hnext]
    exact generated_drawProgram p (streamAt p seed k)
  · rw [programs_eq, List.getElem?_map, List.getElem?_range hk]
    rfl
  · rw [programAt, programAt, streamAt_add, streamAt_add, eq_of_word_eq_word h]

/-- Two constraints with three coefficients. -/
def smallShape : ProgramShape :=
  { variableCount := 3, constraintCount := 2, nonzeroChance := 0.5 }

/-- The second program of seed 1 begins after the sixteen steps of the first, three of whose entries
hit; the streams of two seeds that agree modulo `2 ^ 64` give the same programs. -/
theorem programs_generated_small :
    (programs smallShape 2 (Stream.ofSeed 1))[1]? =
      some ⟨[28, -26, -61], true, [⟨[0, 0, -59], .atMost, 212⟩, ⟨[0, 0, 0], .atMost, 40⟩]⟩ ∧
    streamAt smallShape 1 1 = after 1 16 ∧
    ∀ n, programAt smallShape 1 (1 + n) = programAt smallShape (1 + 2 ^ 64) (1 + n) := by
  obtain ⟨-, hprograms, hstream, hsame⟩ := programs_generated smallShape 1 1
  refine ⟨(hprograms 2 (by decide)).trans (by decide +kernel), hstream.trans ?_, ?_⟩
  · decide +kernel
  · exact hsame (1 + 2 ^ 64) 1 (by decide +kernel)

end Benchmark

end ExactSimplex
