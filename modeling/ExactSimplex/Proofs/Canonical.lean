import ExactSimplex.Proofs.Choice
import ExactSimplex.Proofs.Pivot
import ExactSimplex.Tableau.Objective

/-! Canonical form: every basic column is the unit column of its row and no right-hand side is
negative.  A pivot that the method chooses keeps it.  In canonical form the basic point solves the
rows and has the value of the objective row, and every column gives a direction in which the rows
stay solved. -/

namespace ExactSimplex.Tableau

/-- The column that is basic in row `k` has a one there and zeros in the other rows. -/
structure UnitBasis (t : Tableau) : Prop extends t.Rectangular where
  basic_lt : ∀ b ∈ t.basis, b < t.width
  unit : ∀ {i k : Nat} {r : Row} {b : Nat}, t.rows[i]? = some r → t.basis[k]? = some b →
    r.entry b = if i = k then 1 else 0

/-- The basic columns are unit columns, with a zero in the objective row as well, and the basic
point is not negative. -/
structure Canonical (t : Tableau) : Prop extends t.UnitBasis where
  objective_basic : ∀ b ∈ t.basis, t.objective.entry b = 0
  rhs_nonneg : ∀ r ∈ t.rows, 0 ≤ r.rhs

variable {t : Tableau} {i j : Nat} {r : Row}

theorem getElem?_basis_eliminate (hr : t.rows[i]? = some r) {k b : Nat}
    (hb : (t.eliminate i j).basis[k]? = some b) :
    k = i ∧ b = j ∨ k ≠ i ∧ t.basis[k]? = some b := by
  rw [basis_eliminate hr, List.getElem?_set] at hb
  split at hb
  · rename_i hik
    split at hb
    · exact .inl ⟨hik.symm, (Option.some.inj hb).symm⟩
    · cases hb
  · rename_i hik
    exact .inr ⟨Ne.symm hik, hb⟩

/-- No right-hand side becomes negative, since the leaving row has the least ratio. -/
theorem Leaves.rhs_clear_nonneg (hl : t.Leaves i j r) (h : t.Rectangular)
    (hn : ∀ q ∈ t.rows, 0 ≤ q.rhs) {q : Row} (hq : q ∈ t.rows) :
    0 ≤ (q.clear j (pivotRow r j)).rhs := by
  have hlength := (h.aligned.length_pivotRow (j := j) hl.row).trans (h.length_row q hq).symm
  have hratio : 0 ≤ r.rhs / r.entry j :=
    div_nonneg (hn r (List.mem_of_getElem? hl.row)) hl.pos.le
  rw [Row.rhs_clear hlength, show (pivotRow r j).rhs = r.rhs / r.entry j from rfl]
  by_cases hpos : 0 < q.entry j
  · have hle := (le_div_iff₀ hpos).mp (hl.least q hq hpos)
    linarith
  · have hle := mul_nonpos_of_nonpos_of_nonneg (not_lt.mp hpos) hratio
    linarith [hn q hq]

theorem Canonical.eliminate (h : t.Canonical) (hl : t.Leaves i j r) (hj : j < t.width) :
    (t.eliminate i j).Canonical where
  toRectangular := h.toRectangular.eliminate hl.row
  basic_lt b hb := by
    rw [h.aligned.width_eliminate hl.row]
    obtain ⟨k, hk⟩ := List.mem_iff_getElem?.mp hb
    rcases getElem?_basis_eliminate hl.row hk with ⟨-, rfl⟩ | ⟨-, hk⟩
    · exact hj
    · exact h.basic_lt b (List.mem_of_getElem? hk)
  unit {a k q b} ha hb := by
    -- the entering column becomes the unit column of row `i`, and the basic columns of the other
    -- rows have a zero there
    rcases getElem?_basis_eliminate hl.row hb with ⟨rfl, rfl⟩ | ⟨hki, hb⟩
    · exact h.aligned.entry_eliminate_self hl.row hl.pos.ne' ha
    · have hzero : r.entry b = 0 := by rw [h.unit hl.row hb, if_neg (Ne.symm hki)]
      have hlt : a < t.rows.length :=
        length_rows_eliminate hl.row ▸ (List.getElem?_eq_some_iff.mp ha).1
      have hq := List.getElem?_eq_getElem hlt
      rw [h.aligned.entry_eliminate_of_eq_zero hl.row hzero hq ha, h.unit hq hb]
  objective_basic b hb := by
    obtain ⟨k, hk⟩ := List.mem_iff_getElem?.mp hb
    rcases getElem?_basis_eliminate hl.row hk with ⟨-, rfl⟩ | ⟨hki, hk⟩
    · exact h.aligned.entry_objective_eliminate_self hl.row hl.pos.ne'
    · have hzero : r.entry b = 0 := by rw [h.unit hl.row hk, if_neg (Ne.symm hki)]
      rw [h.aligned.entry_objective_eliminate_of_eq_zero hl.row hzero]
      exact h.objective_basic b (List.mem_of_getElem? hk)
  rhs_nonneg q hq := by
    rcases mem_rows_eliminate hl.row hq with rfl | ⟨q', hq', rfl⟩
    · exact div_nonneg (h.rhs_nonneg r (List.mem_of_getElem? hl.row)) hl.pos.le
    · exact hl.rhs_clear_nonneg h.toRectangular h.rhs_nonneg hq'

/-! ### Reading off the basic columns -/

/-- The value `f` of the last row in which column `j` is basic, zero if there is none. -/
def readOff (t : Tableau) (f : Row → Rat) (j : Nat) : Rat :=
  (t.basis.zip t.rows).foldl (fun v p => if p.1 = j then f p.2 else v) 0

theorem valueOf_eq_readOff (t : Tableau) : t.valueOf = t.readOff Row.rhs := rfl

theorem foldl_of_not_basic (f : Row → Rat) (ps : List (Nat × Row)) (v : Rat)
    (h : j ∉ ps.map Prod.fst) :
    ps.foldl (fun v p => if p.1 = j then f p.2 else v) v = v := by
  induction ps generalizing v with
  | nil => rfl
  | cons p ps ih =>
    simp only [List.map_cons, List.mem_cons, not_or] at h
    rw [List.foldl_cons, if_neg (Ne.symm h.1)]
    exact ih v h.2

theorem foldl_of_basic (f : Row → Rat) (ps : List (Nat × Row)) (v : Rat)
    (hd : (ps.map Prod.fst).Nodup) (hr : (j, r) ∈ ps) :
    ps.foldl (fun v p => if p.1 = j then f p.2 else v) v = f r := by
  induction ps generalizing v with
  | nil => cases hr
  | cons p ps ih =>
    rw [List.map_cons, List.nodup_cons] at hd
    rw [List.foldl_cons]
    rcases List.mem_cons.mp hr with rfl | hr
    · rw [if_pos rfl]
      exact foldl_of_not_basic f ps _ hd.1
    · exact ih _ hd.2 hr

theorem Rectangular.map_fst_zip (h : t.Rectangular) : (t.basis.zip t.rows).map Prod.fst = t.basis :=
  List.map_fst_zip h.length_basis.le

theorem mem_basis_zip {b : Nat} :
    (b, r) ∈ t.basis.zip t.rows ↔ ∃ k : Nat, t.basis[k]? = some b ∧ t.rows[k]? = some r := by
  simp only [List.mem_iff_getElem?, List.getElem?_zip_eq_some]

theorem Rectangular.readOff_of_not_basic (h : t.Rectangular) (f : Row → Rat) (hj : j ∉ t.basis) :
    t.readOff f j = 0 :=
  foldl_of_not_basic f _ 0 (by rwa [h.map_fst_zip])

theorem Rectangular.exists_row (h : t.Rectangular) {k b : Nat} (hb : t.basis[k]? = some b) :
    ∃ r, t.rows[k]? = some r := by
  have hk : k < t.rows.length := h.length_basis ▸ (List.getElem?_eq_some_iff.mp hb).1
  exact ⟨_, List.getElem?_eq_getElem hk⟩

theorem Rectangular.exists_basic (h : t.Rectangular) {k : Nat} (hr : t.rows[k]? = some r) :
    ∃ b, t.basis[k]? = some b := by
  have hk : k < t.basis.length := h.length_basis.symm ▸ (List.getElem?_eq_some_iff.mp hr).1
  exact ⟨_, List.getElem?_eq_getElem hk⟩

/-- The direction in which column `j` grows by one and the basic columns make up for it. -/
def direction (t : Tableau) (j c : Nat) : Rat :=
  (if c = j then 1 else 0) - t.readOff (·.entry j) c

theorem lhs_direction (t : Tableau) (hj : j < r.coefficients.length) :
    r.lhs (t.direction j) = r.entry j - r.lhs (t.readOff (·.entry j)) := by
  simp only [Row.lhs, direction, mul_sub, Finset.sum_sub_distrib, mul_ite, mul_one, mul_zero,
    Finset.sum_ite_eq', Finset.mem_range, hj, if_true]

namespace UnitBasis

variable (h : t.UnitBasis)
include h

theorem basis_nodup : t.basis.Nodup := by
  rw [List.nodup_iff_getElem?_ne_getElem?]
  intro k l hkl hl heq
  obtain ⟨b, hb⟩ : ∃ b, t.basis[l]? = some b := ⟨_, List.getElem?_eq_getElem hl⟩
  rw [hb] at heq
  obtain ⟨r, hr⟩ := h.exists_row heq
  have hone := h.unit hr heq
  rw [h.unit hr hb, if_neg hkl.ne, if_pos rfl] at hone
  exact zero_ne_one hone

theorem readOff_of_basic (f : Row → Rat) {k b : Nat} (hb : t.basis[k]? = some b)
    (hr : t.rows[k]? = some r) : t.readOff f b = f r :=
  foldl_of_basic f _ 0 (by rw [h.map_fst_zip]; exact h.basis_nodup)
    (mem_basis_zip.mpr ⟨k, hb, hr⟩)

theorem readOff_cases (f : Row → Rat) (j : Nat) :
    t.readOff f j = 0 ∨ ∃ r ∈ t.rows, t.readOff f j = f r := by
  by_cases hj : j ∈ t.basis
  · obtain ⟨k, hk⟩ := List.mem_iff_getElem?.mp hj
    obtain ⟨r, hr⟩ := h.exists_row hk
    exact .inr ⟨r, List.mem_of_getElem? hr, h.readOff_of_basic f hk hr⟩
  · exact .inl (h.readOff_of_not_basic f hj)

/-- Only the basic column of a row counts in the row, at a point that is zero in the others. -/
theorem lhs_of_basic {x : Nat → Rat} (hx : ∀ j ∉ t.basis, x j = 0) {k b : Nat}
    (hb : t.basis[k]? = some b) (hr : t.rows[k]? = some r) : r.lhs x = x b := by
  have hmem : b ∈ Finset.range r.coefficients.length := by
    rw [h.length_row r (List.mem_of_getElem? hr)]
    exact Finset.mem_range.mpr (h.basic_lt b (List.mem_of_getElem? hb))
  rw [Row.lhs, Finset.sum_eq_single_of_mem b hmem]
  · rw [h.unit hr hb, if_pos rfl, one_mul]
  · intro c _ hc
    by_cases hbasic : c ∈ t.basis
    · obtain ⟨l, hl⟩ := List.mem_iff_getElem?.mp hbasic
      have hkl : k ≠ l := by
        rintro rfl
        exact hc (Option.some.inj (hl.symm.trans hb))
      rw [h.unit hr hl, if_neg hkl, zero_mul]
    · rw [hx c hbasic, mul_zero]

theorem lhs_readOff (f : Row → Rat) (hr : r ∈ t.rows) : r.lhs (t.readOff f) = f r := by
  obtain ⟨k, hk⟩ := List.mem_iff_getElem?.mp hr
  obtain ⟨b, hb⟩ := h.exists_basic hk
  rw [h.lhs_of_basic (fun j hj => h.readOff_of_not_basic f hj) hb hk, h.readOff_of_basic f hb hk]

end UnitBasis

namespace Canonical

variable (h : t.Canonical)
include h

theorem lhs_objective_readOff (f : Row → Rat) : t.objective.lhs (t.readOff f) = 0 := by
  refine Finset.sum_eq_zero fun c _ => ?_
  by_cases hbasic : c ∈ t.basis
  · rw [h.objective_basic c hbasic, zero_mul]
  · rw [h.readOff_of_not_basic f hbasic, mul_zero]

/-! ### The basic point -/

theorem solves_valueOf : t.Solves t.valueOf := fun r hr => by
  rw [valueOf_eq_readOff, Row.residual, h.lhs_readOff Row.rhs hr, sub_self]

theorem residual_objective_valueOf : t.objective.residual t.valueOf = -t.value := by
  rw [valueOf_eq_readOff, Row.residual, h.lhs_objective_readOff, zero_sub]
  rfl

theorem valueOf_nonneg (j : Nat) : 0 ≤ t.valueOf j := by
  rcases h.readOff_cases Row.rhs j with hzero | ⟨r, hr, heq⟩
  · exact hzero.ge
  · rw [valueOf_eq_readOff, heq]
    exact h.rhs_nonneg r hr

/-! ### The direction of a column -/

theorem lhs_direction_row (hj : j < t.width) (hr : r ∈ t.rows) : r.lhs (t.direction j) = 0 := by
  rw [lhs_direction t ((h.length_row r hr).symm ▸ hj), h.lhs_readOff _ hr, sub_self]

theorem lhs_direction_objective (hj : j < t.width) :
    t.objective.lhs (t.direction j) = t.objective.entry j := by
  rw [lhs_direction t hj, h.lhs_objective_readOff, sub_zero]

/-- The direction of a column without positive entries never leaves the positive orthant. -/
theorem direction_nonneg (hj : ∀ r ∈ t.rows, r.entry j ≤ 0) (c : Nat) : 0 ≤ t.direction j c := by
  have hone : (0 : Rat) ≤ if c = j then 1 else 0 := by split <;> norm_num
  rcases h.readOff_cases (·.entry j) c with hzero | ⟨r, hr, heq⟩
  · rw [direction, hzero, sub_zero]
    exact hone
  · have := hj r hr
    rw [direction, heq]
    linarith

theorem solves_ray (hj : j < t.width) (s : Rat) :
    t.Solves fun c => t.valueOf c + s * t.direction j c :=
  h.solves_valueOf.add_mul (fun _ hr => h.lhs_direction_row hj hr) s

end Canonical

end ExactSimplex.Tableau
