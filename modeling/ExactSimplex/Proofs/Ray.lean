import ExactSimplex.Proofs.Pivot
import Mathlib.Data.Finset.Max
import Mathlib.Data.Finset.Order

/-! Rays of a tableau: directions without a negative coordinate in which the rows stay solved and
the objective row falls.  Along a ray the objective row falls below every bound; `exists_bound` is
the converse, that without a ray it is bounded below on the solutions with no negative one. -/

namespace ExactSimplex.Tableau

/-- A direction without negative coordinates that keeps every row solved and along which the
objective row falls. -/
structure Ray (t : Tableau) (d : Nat → Rat) : Prop where
  nonneg : ∀ j, 0 ≤ d j
  kernel : ∀ r ∈ t.rows, r.lhs d = 0
  falls : t.objective.lhs d < 0

/-- The point `x` solves the rows, has no negative coordinate, and is zero outside of `S`. -/
structure Within (t : Tableau) (S : Finset Nat) (x : Nat → Rat) : Prop where
  nonneg : ∀ j, 0 ≤ x j
  solves : t.Solves x
  eq_zero : ∀ j ∉ S, x j = 0

variable {t : Tableau} {S : Finset Nat} {x d : Nat → Rat}

theorem Within.add_ray (h : t.Within S x) (hd : t.Ray d) (hzero : ∀ j ∉ S, d j = 0) {s : Rat}
    (hs : 0 ≤ s) : t.Within S fun j => x j + s * d j where
  nonneg j := add_nonneg (h.nonneg j) (mul_nonneg hs (hd.nonneg j))
  solves := h.solves.add_mul hd.kernel s
  eq_zero j hj := by rw [h.eq_zero j hj, hzero j hj, mul_zero, add_zero]

/-- The coordinates behind the columns do not matter. -/
theorem Ray.cut (h : t.Rectangular) (hd : t.Ray d) :
    t.Ray fun j => if j < t.width then d j else 0 where
  nonneg j := by
    split
    · exact hd.nonneg j
    · exact le_rfl
  kernel r hr := by
    rw [← hd.kernel r hr]
    exact Row.lhs_congr fun j hj => if_pos (h.length_row r hr ▸ hj)
  falls := by
    have hlhs : t.objective.lhs (fun j => if j < t.width then d j else 0) = t.objective.lhs d :=
      Row.lhs_congr fun j hj => if_pos hj
    rw [hlhs]
    exact hd.falls

/-- A point moves in a direction that has a negative coordinate until some coordinate is zero. -/
theorem exists_step (hx : ∀ j, 0 ≤ x j) (hd : ∀ j ∉ S, d j = 0) (hneg : ∃ j, d j < 0) :
    ∃ s, 0 ≤ s ∧ (∀ j, 0 ≤ x j + s * d j) ∧ ∃ j ∈ S, x j + s * d j = 0 := by
  have hmem : ∀ j, d j < 0 → j ∈ S.filter (d · < 0) := fun j hj => by
    refine Finset.mem_filter.mpr ⟨by_contra fun hS => ?_, hj⟩
    exact hj.ne (hd j hS)
  obtain ⟨k, hk⟩ := hneg
  obtain ⟨i, hi, hmin⟩ :=
    (S.filter (d · < 0)).exists_min_image (fun j => x j / -d j) ⟨k, hmem k hk⟩
  obtain ⟨hiS, hi⟩ := Finset.mem_filter.mp hi
  have hs : 0 ≤ x i / -d i := div_nonneg (hx i) (neg_pos.mpr hi).le
  refine ⟨x i / -d i, hs, fun j => ?_, i, hiS, ?_⟩
  · by_cases hj : d j < 0
    · have hle := (le_div_iff₀ (neg_pos.mpr hj)).mp (hmin j (hmem j hj))
      linarith
    · exact add_nonneg (hx j) (mul_nonneg hs (not_lt.mp hj))
  · rw [div_neg, neg_mul, div_mul_cancel₀ _ hi.ne, add_neg_cancel]

/-- Without a ray the objective row is bounded below on the solutions that are zero outside of `S`.
The induction is on `S`.  A direction in which the objective row does not grow and some coordinate
falls leads every solution to one that is zero in a further column; and where there is no such
direction, all solutions have the same value. -/
theorem exists_bound (hray : ∀ d, ¬t.Ray d) (S : Finset Nat) :
    ∃ M, ∀ x, t.Within S x → -t.objective.lhs x ≤ M := by
  induction S using Finset.strongInduction with
  | H S ih =>
    by_cases hmove : ∃ d : Nat → Rat, (∀ j ∉ S, d j = 0) ∧ (∀ r ∈ t.rows, r.lhs d = 0) ∧
        t.objective.lhs d ≤ 0 ∧ ∃ j, d j < 0
    · obtain ⟨d, hzero, hkernel, hle, hneg⟩ := hmove
      choose! bound hbound using fun j (hj : j ∈ S) => ih (S.erase j) (Finset.erase_ssubset hj)
      obtain ⟨M, hM⟩ := (S.image bound).exists_le
      refine ⟨M, fun x hx => ?_⟩
      obtain ⟨s, hs, hnonneg, j, hj, hjzero⟩ := exists_step hx.nonneg hzero hneg
      have hwithin : t.Within (S.erase j) fun i => x i + s * d i :=
        ⟨hnonneg, hx.solves.add_mul hkernel s, fun i hi => by
          by_cases hij : i = j
          · rw [hij, hjzero]
          · have hiS : i ∉ S := fun h => hi (Finset.mem_erase.mpr ⟨hij, h⟩)
            rw [hx.eq_zero i hiS, hzero i hiS, mul_zero, add_zero]⟩
      have hvalue := hbound j hj _ hwithin
      rw [Row.lhs_add_mul] at hvalue
      have hbest := hM _ (Finset.mem_image_of_mem bound hj)
      have hfall := mul_nonpos_of_nonneg_of_nonpos hs hle
      linarith
    · by_cases hsome : ∃ x, t.Within S x
      · obtain ⟨x, hx⟩ := hsome
        refine ⟨-t.objective.lhs x, fun y hy => not_lt.mp fun hlt => ?_⟩
        -- the difference of two solutions with different values would be a ray
        have hfalls : t.objective.lhs (fun j => y j + -1 * x j) < 0 := by
          rw [Row.lhs_add_mul]
          linarith
        have hkernel : ∀ r ∈ t.rows, r.lhs (fun j => y j + -1 * x j) = 0 := fun r hr => by
          have hxr := hx.solves r hr
          have hyr := hy.solves r hr
          rw [Row.residual] at hxr hyr
          rw [Row.lhs_add_mul]
          linarith
        refine hray _ ⟨fun j => not_lt.mp fun hj => ?_, hkernel, hfalls⟩
        exact hmove ⟨_, fun i hi => by rw [hx.eq_zero i hi, hy.eq_zero i hi, mul_zero, add_zero],
          hkernel, hfalls.le, j, hj⟩
      · exact ⟨0, fun x hx => absurd ⟨x, hx⟩ hsome⟩

end ExactSimplex.Tableau
