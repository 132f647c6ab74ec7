import ExactSimplex.Proofs.Checked
import ExactSimplex.Proofs.Feasible
import ExactSimplex.Random.Programs

/-! Programs drawn from one stream.  Every draw begins where the one before it stopped, so the draw
with a given number depends on the beginning of the stream alone, and more draws only add to the
ones before.  All drawn programs have the right shape. -/

namespace ExactSimplex

namespace Stream

section Many

variable {α : Type} (draw : Stream → α × Stream)

/-- Where the stream stands before draw `k`. -/
def standing (s : Stream) (k : Nat) : Stream := (fun s => (draw s).2)^[k] s

theorem standing_succ (s : Stream) (k : Nat) :
    s.standing draw (k + 1) = (draw (s.standing draw k)).2 :=
  Function.iterate_succ_apply' _ k s

/-- The draws one after the other. -/
theorem drawMany_eq (count : Nat) (s : Stream) : drawMany draw count s =
    ((List.range count).map fun k => (draw (s.standing draw k)).1, s.standing draw count) := by
  induction count generalizing s with
  | zero => rfl
  | succ count ih =>
    have hshift (k : Nat) : (draw s).2.standing draw k = s.standing draw (k + 1) :=
      (Function.iterate_succ_apply _ k s).symm
    simp only [drawMany, ih, hshift, List.range_succ_eq_map, List.map_cons, List.map_map]
    rfl

theorem exists_of_mem_drawMany {count : Nat} {s : Stream} {x : α}
    (h : x ∈ (drawMany draw count s).1) : ∃ s', x = (draw s').1 := by
  rw [drawMany_eq] at h
  obtain ⟨k, -, rfl⟩ := List.mem_map.mp h
  exact ⟨_, rfl⟩

end Many

variable (p : ProgramShape) (s : Stream)

/-- Every coefficient takes one step. -/
theorem standing_drawCoefficient (center : Int) (n : Nat) :
    s.standing (drawCoefficient center) n = next^[n] s := rfl

theorem length_drawConstraint :
    (drawConstraint p s).1.coefficients.length = p.variableCount.toNat :=
  length_drawMany (drawSparse p) p.variableCount.toNat s

theorem wellShaped_drawProgram : (drawProgram p s).1.WellShaped := by
  intro c hc
  obtain ⟨s', rfl⟩ := exists_of_mem_drawMany (drawConstraint p) hc
  rw [length_drawConstraint]
  exact (length_drawMany (drawCoefficient 0) p.variableCount.toNat s).symm

end Stream

namespace LinearProgram

/-- A program of the right shape can be built constraint by constraint. -/
theorem create_eq_ok {lp : LinearProgram} (h : lp.WellShaped) :
    create lp.objective lp.maximize lp.constraints = .ok lp := by
  suffices hfold : ∀ cs before : List Constraint, (∀ c ∈ cs, c.coefficients.length = lp.numVars) →
      cs.foldlM addConstraint { lp with constraints := before } =
        .ok { lp with constraints := before ++ cs } from hfold lp.constraints [] h
  intro cs
  induction cs with
  | nil =>
    intro before _
    rw [List.append_nil]
    rfl
  | cons c cs ih =>
    intro before hlength
    obtain ⟨hc, hcs⟩ := List.forall_mem_cons.mp hlength
    have hadd : addConstraint { lp with constraints := before } c =
        .ok { lp with constraints := before ++ [c] } := if_pos hc
    rw [List.foldlM_cons, hadd, Checked.ok_bind, ih _ hcs, List.append_assoc]
    rfl

end LinearProgram

end ExactSimplex
