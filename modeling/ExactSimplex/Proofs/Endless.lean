import ExactSimplex.Proofs.Limit
import ExactSimplex.Proofs.Reached
import Mathlib.Data.Set.Finite.List

/-! Endless phases.  From its first tableau on a phase ends by itself, within every limit that is
large enough, or it takes all turns of every limit.  It is endless if a tableau comes back, and an
endless one comes back to a basis, since there are finitely many. -/

namespace ExactSimplex.Tableau

variable {t u v s : Tableau} {k l n : Nat}

theorem after_add (t : Tableau) (k l : Nat) :
    t.after (k + l) = (t.after k).bind fun u => u.after l := by
  induction k generalizing t with
  | zero =>
    rw [Nat.zero_add]
    rfl
  | succ k ih =>
    rw [Nat.succ_add]
    cases hj : t.entering with
    | none =>
      rw [after_succ_of_entering_eq_none hj, after_succ_of_entering_eq_none hj]
      rfl
    | some j =>
      cases hi : t.leaving j with
      | none =>
        rw [after_succ_of_leaving_eq_none hj hi, after_succ_of_leaving_eq_none hj hi]
        rfl
      | some i =>
        rw [after_succ_of_leaving_eq_some hj hi, after_succ_of_leaving_eq_some hj hi]
        exact ih _

theorem after_add_of_eq_some (h : t.after k = some u) (l : Nat) :
    t.after (k + l) = u.after l := by
  rw [after_add, h, Option.bind_some]

theorem exists_after_of_le (h : t.after k = some u) (hle : n ≤ k) : ∃ v, t.after n = some v := by
  obtain ⟨m, rfl⟩ := Nat.exists_eq_add_of_le hle
  rw [after_add, Option.bind_eq_some_iff] at h
  obtain ⟨v, hv, -⟩ := h
  exact ⟨v, hv⟩

/-- Pivots go on for ever. -/
def Endless (t : Tableau) : Prop := ∀ k, ∃ u, t.after k = some u

/-! ### Runs of a phase -/

theorem Endless.run (h : t.Endless) (turns : Nat) :
    ∃ last, run turns t = .ok (false, last) ∧ last.steps = t.steps + turns := by
  obtain ⟨last, hlast⟩ := h turns
  exact ⟨last, run_add_of_after hlast 0, steps_after hlast⟩

theorem Endless.optimize (h : t.Endless) (limit : Int) :
    ∃ last, t.optimize limit = .ok (false, last) ∧ limit ≤ last.steps := by
  obtain ⟨last, hlast, hsteps⟩ := h.run (turnsLeft limit t.steps)
  refine ⟨last, hlast, ?_⟩
  rw [hsteps, turnsLeft]
  omega

/-- Where there is no further tableau, one more turn ends the run. -/
theorem exists_run_of_after_eq_none (h : t.after k = none) :
    ∃ finished last, Tableau.run (k + 1) t = .ok (finished, last) ∧
      last.steps < t.steps + (k + 1) := by
  induction k generalizing t with
  | zero => cases h
  | succ k ih =>
    cases hj : t.entering with
    | none =>
      refine ⟨true, t.counted, run_succ_of_entering_eq_none hj _, ?_⟩
      simp only [counted]
      omega
    | some j =>
      cases hi : t.leaving j with
      | none =>
        refine ⟨false, t.counted, run_succ_of_leaving_eq_none hj hi _, ?_⟩
        simp only [counted]
        omega
      | some i =>
        rw [after_succ_of_leaving_eq_some hj hi] at h
        obtain ⟨finished, last, hlast, hsteps⟩ := ih h
        refine ⟨finished, last, (run_succ_of_leaving_eq_some hj hi _).trans hlast, ?_⟩
        rw [steps_eliminate] at hsteps
        simp only [counted] at hsteps
        omega

/-- A phase that is not endless ends in one way, before any limit that is large enough. -/
theorem exists_optimize_of_not_endless (h : ¬t.Endless) :
    ∃ (limit : Int) (finished : Bool) (last : Tableau), ∀ larger, limit ≤ larger →
      t.optimize larger = .ok (finished, last) ∧ last.steps < larger := by
  obtain ⟨k, hk⟩ := not_forall.mp h
  obtain ⟨finished, last, hrun, hsteps⟩ :=
    exists_run_of_after_eq_none (Option.eq_none_iff_forall_ne_some.mpr (not_exists.mp hk))
  refine ⟨t.steps + (k + 1), finished, last, fun larger hle => ⟨?_, by omega⟩⟩
  refine run_of_le hrun (.inr (by exact_mod_cast hsteps)) ?_
  rw [turnsLeft]
  omega

/-! ### Tableaux that come back -/

/-- The rows decide how long the pivots go on. -/
theorem exists_after_congr (hrows : t.rows = u.rows) (hobjective : t.objective = u.objective)
    (h : t.after k = some v) : ∃ w, u.after k = some w := by
  induction k generalizing t u with
  | zero => exact ⟨u, rfl⟩
  | succ k ih =>
    obtain ⟨i, j, hj, hi, hv⟩ := after_succ_eq_some h
    have hj' : u.entering = some j := by
      rw [← hj, entering, entering, improving, improving, hobjective]
    have hi' : u.leaving j = some i := by
      rw [← hi, leaving, leaving, ratios, ratios, hrows]
    obtain ⟨r, hl⟩ := leaving_spec hi
    have hr : t.counted.rows[i]? = some r := hl.row
    have hr' : u.counted.rows[i]? = some r := hrows ▸ hl.row
    rw [after_succ_of_leaving_eq_some hj' hi']
    refine ih ?_ ?_ hv
    · rw [eliminate_eq hr, eliminate_eq hr']
      simp only [counted, hrows]
    · rw [eliminate_eq hr, eliminate_eq hr']
      simp only [counted, hobjective]

/-- A tableau that comes back with the same rows comes back again and again. -/
theorem endless_of_rows_eq (hkl : k < l) (hu : s.after k = some u) (hv : s.after l = some v)
    (hrows : u.rows = v.rows) (hobjective : u.objective = v.objective) : s.Endless := by
  obtain ⟨d, rfl⟩ := Nat.exists_eq_add_of_lt hkl
  rw [Nat.add_assoc, after_add_of_eq_some hu] at hv
  -- the pivots from `u` on go on as long as the ones from `v` on, which start later
  have hloop : u.Endless := fun n => by
    induction n using Nat.strong_induction_on with
    | _ n ih =>
      by_cases hn : n ≤ d + 1
      · exact exists_after_of_le hv hn
      · obtain ⟨w, hw⟩ := ih (n - (d + 1)) (by omega)
        obtain ⟨w', hw'⟩ := exists_after_congr hrows hobjective hw
        refine ⟨w', ?_⟩
        rw [← hw', ← after_add_of_eq_some hv, Nat.add_sub_cancel' (by omega)]
  intro n
  by_cases hn : n ≤ k
  · exact exists_after_of_le hu hn
  · obtain ⟨w, hw⟩ := hloop (n - k)
    refine ⟨w, ?_⟩
    rw [← hw, ← after_add_of_eq_some hu, Nat.add_sub_cancel' (by omega)]

theorem finite_bases (count width : Nat) :
    {basis : List Nat | basis.length = count ∧ ∀ b ∈ basis, b < width}.Finite := by
  refine ((List.finite_length_eq (Fin width) count).image (List.map Fin.val)).subset ?_
  rintro basis ⟨hlength, hlt⟩
  lift basis to List (Fin width) using hlt
  exact ⟨basis, by simpa using hlength, rfl⟩

/-- An endless phase comes back to a basis. -/
theorem Endless.exists_basis_eq (h : s.Endless) {count width : Nat}
    (hbasis : ∀ k u, s.after k = some u → u.basis.length = count ∧ ∀ b ∈ u.basis, b < width) :
    ∃ k l u v, k < l ∧ s.after k = some u ∧ s.after l = some v ∧ u.basis = v.basis := by
  choose u hu using h
  have := (finite_bases count width).to_subtype
  obtain ⟨k, l, hkl, heq⟩ := Finite.exists_ne_map_eq_of_infinite
    fun k => (⟨(u k).basis, hbasis k (u k) (hu k)⟩ :
      {basis : List Nat | basis.length = count ∧ ∀ b ∈ basis, b < width})
  have heq : (u k).basis = (u l).basis := congrArg Subtype.val heq
  rcases Nat.lt_or_gt_of_ne hkl with hlt | hlt
  · exact ⟨k, l, u k, u l, hlt, hu k, hu l, heq⟩
  · exact ⟨l, k, u l, u k, hlt, hu l, hu k, heq.symm⟩

end ExactSimplex.Tableau
