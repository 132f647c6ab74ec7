import ExactSimplex.Proofs.Row
import ExactSimplex.Tableau.Basic
import Mathlib.Data.List.MinMax

/-! The choice of the entering column and of the leaving row.  Both take the first of the least:
a column with the most negative entry in the objective row, and a row with the least ratio of those
that have a positive entry in the column. -/

namespace ExactSimplex.Tableau

theorem foldl_argAux (others : List (Nat × Rat)) (first : Nat × Rat) :
    others.foldl (List.argAux fun b c => b.2 < c.2) (some first) =
      some (others.foldl (fun best next => if next.2 < best.2 then next else best) first) := by
  induction others generalizing first with
  | nil => rfl
  | cons next others ih =>
    simp only [List.foldl_cons, List.argAux]
    split <;> exact ih _

theorem firstLeast_eq_argmin (l : List (Nat × Rat)) :
    firstLeast l = (l.argmin Prod.snd).map Prod.fst := by
  cases l with
  | nil => rfl
  | cons first others =>
    have hcons : (first :: others).argmin Prod.snd =
        others.foldl (List.argAux fun b c => b.2 < c.2) (some first) := rfl
    rw [hcons, foldl_argAux]
    rfl

theorem firstLeast_eq_none_iff {l : List (Nat × Rat)} : firstLeast l = none ↔ l = [] := by
  rw [firstLeast_eq_argmin, Option.map_eq_none_iff, List.argmin_eq_none]

theorem firstLeast_spec {l : List (Nat × Rat)} {i : Nat} (h : firstLeast l = some i) :
    ∃ v, (i, v) ∈ l ∧ ∀ p ∈ l, v ≤ p.2 := by
  rw [firstLeast_eq_argmin, Option.map_eq_some_iff] at h
  obtain ⟨⟨_, v⟩, hmin, rfl⟩ := h
  exact ⟨v, List.argmin_mem hmin, fun p hp => List.le_of_mem_argmin hp hmin⟩

variable {t : Tableau}

theorem mem_improving {j : Nat} {v : Rat} :
    (j, v) ∈ t.improving ↔ j < t.width ∧ t.objective.entry j = v ∧ v < 0 := by
  simp only [improving, List.mem_filterMap, Prod.exists, List.mem_zipIdx_iff_getElem?]
  constructor
  · rintro ⟨w, k, hk, hw⟩
    split at hw
    · rename_i hneg
      obtain ⟨rfl, rfl⟩ := Prod.mk.injEq .. ▸ Option.some.inj hw
      have hlt : k < t.width := (List.getElem?_eq_some_iff.mp hk).1
      exact ⟨hlt, by rw [Row.entry_of_lt hlt, List.getD, hk, Option.getD_some], hneg⟩
    · cases hw
  · rintro ⟨hlt, rfl, hneg⟩
    refine ⟨t.objective.entry j, j, ?_, by rw [if_pos hneg]⟩
    rw [Row.entry_of_lt hlt, List.getD, List.getElem?_eq_getElem hlt, Option.getD_some]

theorem mem_ratios {i j : Nat} {v : Rat} :
    (i, v) ∈ t.ratios j ↔ ∃ r, t.rows[i]? = some r ∧ 0 < r.entry j ∧ v = r.rhs / r.entry j := by
  simp only [ratios, List.mem_filterMap, Prod.exists, List.mem_zipIdx_iff_getElem?]
  constructor
  · rintro ⟨r, k, hk, hr⟩
    split at hr
    · rename_i hpos
      obtain ⟨rfl, rfl⟩ := Prod.mk.injEq .. ▸ Option.some.inj hr
      exact ⟨r, hk, hpos, rfl⟩
    · cases hr
  · rintro ⟨r, hr, hpos, rfl⟩
    exact ⟨r, i, hr, by rw [if_pos hpos]⟩

theorem entering_eq_none_iff : t.entering = none ↔ ∀ j < t.width, 0 ≤ t.objective.entry j := by
  rw [entering, firstLeast_eq_none_iff, List.eq_nil_iff_forall_not_mem]
  constructor
  · intro h j hj
    by_contra hneg
    exact h (j, _) (mem_improving.mpr ⟨hj, rfl, not_le.mp hneg⟩)
  · rintro h ⟨j, v⟩ hmem
    obtain ⟨hj, rfl, hneg⟩ := mem_improving.mp hmem
    exact absurd (h j hj) (not_le.mpr hneg)

theorem entering_spec {j : Nat} (h : t.entering = some j) :
    j < t.width ∧ t.objective.entry j < 0 := by
  obtain ⟨v, hmem, -⟩ := firstLeast_spec h
  obtain ⟨hj, rfl, hneg⟩ := mem_improving.mp hmem
  exact ⟨hj, hneg⟩

theorem leaving_eq_none_iff {j : Nat} : t.leaving j = none ↔ ∀ r ∈ t.rows, r.entry j ≤ 0 := by
  rw [leaving, firstLeast_eq_none_iff, List.eq_nil_iff_forall_not_mem]
  constructor
  · intro h r hr
    by_contra hpos
    obtain ⟨i, hi⟩ := List.mem_iff_getElem?.mp hr
    exact h (i, _) (mem_ratios.mpr ⟨r, hi, not_le.mp hpos, rfl⟩)
  · rintro h ⟨i, v⟩ hmem
    obtain ⟨r, hr, hpos, -⟩ := mem_ratios.mp hmem
    exact absurd (h r (List.mem_of_getElem? hr)) (not_le.mpr hpos)

/-- Row `i` is `r`, and column `j` may grow there up to the least of all bounds. -/
structure Leaves (t : Tableau) (i j : Nat) (r : Row) : Prop where
  row : t.rows[i]? = some r
  pos : 0 < r.entry j
  least : ∀ q ∈ t.rows, 0 < q.entry j → r.rhs / r.entry j ≤ q.rhs / q.entry j

theorem leaving_spec {i j : Nat} (h : t.leaving j = some i) : ∃ r, t.Leaves i j r := by
  obtain ⟨v, hmem, hleast⟩ := firstLeast_spec h
  obtain ⟨r, hr, hpos, rfl⟩ := mem_ratios.mp hmem
  refine ⟨r, hr, hpos, fun q hq hqpos => ?_⟩
  obtain ⟨k, hk⟩ := List.mem_iff_getElem?.mp hq
  exact hleast (k, _) (mem_ratios.mpr ⟨q, hk, hqpos, rfl⟩)

end ExactSimplex.Tableau
