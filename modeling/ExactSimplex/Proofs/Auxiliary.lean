import ExactSimplex.Tableau.Initial
import Mathlib.Algebra.BigOperators.Ring.Finset
import Mathlib.Algebra.Order.Field.Rat
import Mathlib.Data.List.Nodup

/-! The columns behind the variables of a program.  None of them stands there twice, and which ones
belong to a row depends on its relation alone: a slack, or a surplus and an artificial variable, or
only the latter.  `total` is what they add to the left-hand side of a row. -/

namespace ExactSimplex.Auxiliary

variable {cs : List Constraint} {c : Constraint} {i : Nat} {a : Auxiliary}

theorem mem_differences : a ∈ differences cs ↔ ∃ i c, cs[i]? = some c ∧
    (c.relation = .atMost ∧ a = slack i ∨ c.relation = .atLeast ∧ a = surplus i) := by
  simp only [differences, List.mem_filterMap, Prod.exists, List.mem_zipIdx_iff_getElem?]
  constructor
  · rintro ⟨c, i, hc, ha⟩
    refine ⟨i, c, hc, ?_⟩
    cases hrel : c.relation <;> rw [hrel] at ha
    · exact .inl ⟨rfl, (Option.some.inj ha).symm⟩
    · exact .inr ⟨rfl, (Option.some.inj ha).symm⟩
    · cases ha
  · rintro ⟨i, c, hc, ⟨hrel, rfl⟩ | ⟨hrel, rfl⟩⟩ <;> exact ⟨c, i, hc, by rw [hrel]⟩

theorem mem_artificials : a ∈ artificials cs ↔ ∃ i c, cs[i]? = some c ∧
    c.relation ≠ .atMost ∧ a = artificial i := by
  simp only [artificials, List.mem_filterMap, Prod.exists, List.mem_zipIdx_iff_getElem?]
  constructor
  · rintro ⟨c, i, hc, ha⟩
    refine ⟨i, c, hc, ?_⟩
    cases hrel : c.relation <;> rw [hrel] at ha
    · cases ha
    · exact ⟨by decide, (Option.some.inj ha).symm⟩
    · exact ⟨by decide, (Option.some.inj ha).symm⟩
  · rintro ⟨i, c, hc, hrel, rfl⟩
    refine ⟨c, i, hc, ?_⟩
    cases h : c.relation
    · exact absurd h hrel
    · rfl
    · rfl

theorem slack_mem_all_iff (hc : cs[i]? = some c) : slack i ∈ all cs ↔ c.relation = .atMost := by
  simp [all, mem_differences, mem_artificials, hc]

theorem surplus_mem_all_iff (hc : cs[i]? = some c) :
    surplus i ∈ all cs ↔ c.relation = .atLeast := by
  simp [all, mem_differences, mem_artificials, hc]

theorem artificial_mem_all_iff (hc : cs[i]? = some c) :
    artificial i ∈ all cs ↔ c.relation ≠ .atMost := by
  simp [all, mem_differences, mem_artificials, hc]

theorem basic_mem_all (hc : cs[i]? = some c) : basic c i ∈ all cs := by
  unfold basic
  split
  · rename_i hrel
    exact (slack_mem_all_iff hc).mpr hrel
  · rename_i hrel
    exact (artificial_mem_all_iff hc).mpr hrel

/-! ### Places -/

theorem pairwise_zipIdx (cs : List Constraint) :
    cs.zipIdx.Pairwise fun p q => p.2 ≠ q.2 := by
  refine List.pairwise_iff_getElem.mpr fun i j hi hj hij => ?_
  simp only [List.getElem_zipIdx]
  omega

theorem nodup_differences (cs : List Constraint) : (differences cs).Nodup := by
  refine (pairwise_zipIdx cs).filterMap _ ?_
  rintro ⟨c, i⟩ ⟨d, j⟩ hij a ha b hb rfl
  cases hc : c.relation <;> cases hd : d.relation <;> grind

theorem nodup_artificials (cs : List Constraint) : (artificials cs).Nodup := by
  refine (pairwise_zipIdx cs).filterMap _ ?_
  rintro ⟨c, i⟩ ⟨d, j⟩ hij a ha b hb rfl
  cases hc : c.relation <;> cases hd : d.relation <;> grind

theorem artificial_not_mem_differences : artificial i ∉ differences cs := by
  simp [mem_differences]

theorem nodup_all (cs : List Constraint) : (all cs).Nodup := by
  refine List.nodup_append.mpr ⟨nodup_differences cs, nodup_artificials cs, ?_⟩
  rintro a ha b hb rfl
  obtain ⟨i, _, _, _, rfl⟩ := mem_artificials.mp hb
  exact artificial_not_mem_differences ha

theorem le_idxOf_artificial (cs : List Constraint) (i : Nat) :
    (differences cs).length ≤ (all cs).idxOf (artificial i) := by
  rw [all, List.idxOf_append_of_notMem artificial_not_mem_differences]
  exact Nat.le_add_right _ _

/-- Behind the slacks and surpluses stand artificial variables only. -/
theorem exists_artificial {k : Nat} (hlow : (differences cs).length ≤ k)
    (hk : (all cs)[k]? = some a) : ∃ i c, cs[i]? = some c ∧ c.relation ≠ .atMost ∧
      a = artificial i ∧ k = (all cs).idxOf (artificial i) := by
  have hmem : a ∈ artificials cs := by
    rw [all, List.getElem?_append_right hlow] at hk
    exact List.mem_of_getElem? hk
  obtain ⟨i, c, hc, hrel, rfl⟩ := mem_artificials.mp hmem
  obtain ⟨hlt, heq⟩ := List.getElem?_eq_some_iff.mp hk
  exact ⟨i, c, hc, hrel, rfl, by rw [← heq, (nodup_all cs).idxOf_getElem]⟩

/-! ### Coefficients -/

section Coefficients

variable (hc : cs[i]? = some c) (ha : a ∈ all cs)
include hc ha

theorem coefficient_atMost (hrel : c.relation = .atMost) :
    a.coefficient i = if a = slack i then 1 else 0 := by
  match a with
  | slack j => simp [coefficient]
  | surplus j =>
    have hij : j ≠ i := by
      rintro rfl
      rw [surplus_mem_all_iff hc, hrel] at ha
      cases ha
    simp [coefficient, hij]
  | artificial j =>
    have hij : j ≠ i := by
      rintro rfl
      exact (artificial_mem_all_iff hc).mp ha hrel
    simp [coefficient, hij]

theorem coefficient_equal (hrel : c.relation = .equal) :
    a.coefficient i = if a = artificial i then 1 else 0 := by
  match a with
  | slack j =>
    have hij : j ≠ i := by
      rintro rfl
      rw [slack_mem_all_iff hc, hrel] at ha
      cases ha
    simp [coefficient, hij]
  | surplus j =>
    have hij : j ≠ i := by
      rintro rfl
      rw [surplus_mem_all_iff hc, hrel] at ha
      cases ha
    simp [coefficient, hij]
  | artificial j => simp [coefficient]

theorem coefficient_atLeast (hrel : c.relation = .atLeast) :
    a.coefficient i = if a = artificial i then 1 else if a = surplus i then -1 else 0 := by
  match a with
  | slack j =>
    have hij : j ≠ i := by
      rintro rfl
      rw [slack_mem_all_iff hc, hrel] at ha
      cases ha
    simp [coefficient, hij]
  | surplus j => simp [coefficient]
  | artificial j => simp [coefficient]

end Coefficients

/-! ### Sums over the columns -/

/-- What the columns with the values `x` add to the left-hand side of row `i`. -/
def total (columns : List Auxiliary) (i : Nat) (x : Nat → Rat) : Rat :=
  ∑ k ∈ Finset.range columns.length, (columns.map (·.coefficient i)).getD k 0 * x k

theorem getD_map_coefficient {columns : List Auxiliary} {k : Nat} (hk : columns[k]? = some a)
    (i : Nat) : (columns.map (·.coefficient i)).getD k 0 = a.coefficient i := by
  rw [List.getD, List.getElem?_map, hk]
  rfl

theorem sum_indicator {columns : List Auxiliary} (hd : columns.Nodup) (ha : a ∈ columns)
    (x : Nat → Rat) :
    ∑ k ∈ Finset.range columns.length, (if columns[k]? = some a then 1 else 0) * x k =
      x (columns.idxOf a) := by
  have hlt := List.idxOf_lt_length_of_mem ha
  have hget : columns[columns.idxOf a]? = some a := by
    rw [List.getElem?_eq_getElem hlt, List.getElem_idxOf]
  rw [Finset.sum_eq_single_of_mem _ (Finset.mem_range.mpr hlt), hget, if_pos rfl, one_mul]
  intro k _ hk
  rw [if_neg, zero_mul]
  intro heq
  obtain ⟨hklt, rfl⟩ := List.getElem?_eq_some_iff.mp heq
  exact hk (hd.idxOf_getElem k hklt).symm

theorem total_congr {columns : List Auxiliary} {f : Auxiliary → Rat} (x : Nat → Rat)
    (hf : ∀ a ∈ columns, a.coefficient i = f a) :
    total columns i x =
      ∑ k ∈ Finset.range columns.length, ((columns[k]?).elim 0 f) * x k := by
  refine Finset.sum_congr rfl fun k hk => ?_
  have hget := List.getElem?_eq_getElem (Finset.mem_range.mp hk)
  rw [getD_map_coefficient hget, hget, hf _ (List.getElem_mem _)]
  rfl

theorem total_atMost (hc : cs[i]? = some c) (hrel : c.relation = .atMost) (x : Nat → Rat) :
    total (all cs) i x = x ((all cs).idxOf (slack i)) := by
  rw [← sum_indicator (nodup_all cs) ((slack_mem_all_iff hc).mpr hrel) x,
    total_congr x fun a ha => coefficient_atMost hc ha hrel]
  exact Finset.sum_congr rfl fun k hk => by
    rw [List.getElem?_eq_getElem (Finset.mem_range.mp hk)]
    simp

theorem total_equal (hc : cs[i]? = some c) (hrel : c.relation = .equal) (x : Nat → Rat) :
    total (all cs) i x = x ((all cs).idxOf (artificial i)) := by
  have hmem := (artificial_mem_all_iff hc).mpr (by rw [hrel]; decide)
  rw [← sum_indicator (nodup_all cs) hmem x,
    total_congr x fun a ha => coefficient_equal hc ha hrel]
  exact Finset.sum_congr rfl fun k hk => by
    rw [List.getElem?_eq_getElem (Finset.mem_range.mp hk)]
    simp

theorem total_atLeast (hc : cs[i]? = some c) (hrel : c.relation = .atLeast) (x : Nat → Rat) :
    total (all cs) i x =
      x ((all cs).idxOf (artificial i)) - x ((all cs).idxOf (surplus i)) := by
  have hmem := (artificial_mem_all_iff hc).mpr (by rw [hrel]; decide)
  rw [← sum_indicator (nodup_all cs) hmem x,
    ← sum_indicator (nodup_all cs) ((surplus_mem_all_iff hc).mpr hrel) x,
    ← Finset.sum_sub_distrib, total_congr x fun a ha => coefficient_atLeast hc ha hrel]
  refine Finset.sum_congr rfl fun k hk => ?_
  have hlt := Finset.mem_range.mp hk
  rw [List.getElem?_eq_getElem hlt, ← sub_mul]
  by_cases hart : (all cs)[k] = artificial i
  · simp [hart]
  · by_cases hsur : (all cs)[k] = surplus i <;> simp [hart, hsur]

end ExactSimplex.Auxiliary
