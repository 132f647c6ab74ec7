import ExactSimplex.Proofs.Basis
import ExactSimplex.Proofs.InPlace

/-! A pivot as the exchange of one basic column for another.  It makes the new column the unit
column of its row, it keeps the solutions of the rows and every column that has a zero in the row,
and the pivot on the old basic column takes it back. -/

namespace ExactSimplex

namespace Row

theorem divide_divide (r : Row) (k l : Rat) : (r.divide k).divide l = r.divide (k * l) := by
  simp [divide, div_div]

theorem divide_one (r : Row) : r.divide 1 = r := by
  simp [divide]

theorem addMultiple_divide (q r : Row) (k l : Rat) :
    q.addMultiple k (r.divide l) = q.addMultiple (k / l) r := by
  have hscale (w : Rat) : k * (w / l) = k / l * w := by ring
  simp [addMultiple, divide, List.zipWith_map_right, hscale]

/-- A multiple that is added can be taken away again. -/
theorem addMultiple_cancel {q r : Row} (h : r.coefficients.length = q.coefficients.length)
    (k : Rat) : (q.addMultiple k r).addMultiple (-k) r = q := by
  have hlength := length_addMultiple h k
  have hlength' := (length_addMultiple (h.trans hlength.symm) (-k)).trans hlength
  refine ext_of_entry hlength' (fun c _ => ?_) ?_
  · rw [entry_addMultiple (h.trans hlength.symm), entry_addMultiple h]
    ring
  · rw [rhs_addMultiple, rhs_addMultiple]
    ring

end Row

attribute [ext] Tableau

namespace Tableau

variable {t u : Tableau} {i j b : Nat} {r : Row}

/-- Column `b` has a one in row `i` and zeros in all other rows, the objective row among them. -/
structure UnitColumn (t : Tableau) (i b : Nat) : Prop where
  entry : ∀ {k : Nat} {q : Row}, t.rows[k]? = some q → q.entry b = if k = i then 1 else 0
  objective : t.objective.entry b = 0

/-- The pivot turns `t` into `u`, and so does the work in place on its table. -/
structure PivotsTo (t : Tableau) (i j : Nat) (u : Tableau) : Prop where
  pivot_eq : t.pivot i j = .ok u
  on_grid : (Grid.pivotInPlace i j).on t.grid = (.ok (), u.grid)

/-- How the tableau `u` comes out of `t` when column `j` becomes basic in row `i`, which is `r`. -/
structure Exchanged (t u : Tableau) (i j : Nat) (r : Row) : Prop where
  aligned : u.Aligned
  width_eq : u.width = t.width
  length_rows : u.rows.length = t.rows.length
  unit : u.UnitColumn i j
  solves_iff : ∀ x, u.Solves x ↔ t.Solves x
  objective_eq : ∃ k, u.objective = t.objective.addMultiple k r
  /-- A column with a zero in the row keeps all its entries. -/
  kept : ∀ {c : Nat}, r.entry c = 0 →
    (∀ k, u.entry k c = t.entry k c) ∧ u.objective.entry c = t.objective.entry c
  basis_self : u.basis[i]? = some j
  basis_ne : ∀ {k : Nat}, k ≠ i → u.basis[k]? = t.basis[k]?
  names_eq : u.names = t.names
  steps_eq : u.steps = t.steps

theorem entry_eq (hr : t.rows[i]? = some r) (j : Nat) : t.entry i j = r.entry j := by
  rw [entry, hr, Option.map_some, Option.getD_some]

/-! ### The exchange and the way back -/

theorem clear_pivotRow {q : Row} (h : r.coefficients.length = q.coefficients.length) (j : Nat) :
    q.clear j (pivotRow r j) = q.addMultiple (-q.entry j / r.entry j) r := by
  rw [Row.clear_eq_addMultiple ((Tableau.length_pivotRow r j).trans h), pivotRow,
    Row.addMultiple_divide]

/-- The leaving row is divided by its entry, and then by the inverse of that. -/
theorem pivotRow_pivotRow (hne : r.entry j ≠ 0) (hone : r.entry b = 1) :
    pivotRow (pivotRow r j) b = r := by
  have hproduct : r.entry j * (r.entry b / r.entry j) = 1 := by
    rw [hone, mul_one_div_cancel hne]
  rw [pivotRow, entry_pivotRow, pivotRow, Row.divide_divide, hproduct, Row.divide_one]

/-- A row with a zero in the old basic column gets back the multiple it has lost. -/
theorem clear_clear {q : Row} (h : r.coefficients.length = q.coefficients.length)
    (hone : r.entry b = 1) (hzero : q.entry b = 0) : (q.clear j (pivotRow r j)).clear b r = q := by
  have hcleared := clear_pivotRow h j
  have hlength := Row.length_addMultiple h (-q.entry j / r.entry j)
  have hentry : (q.addMultiple (-q.entry j / r.entry j) r).entry b = -q.entry j / r.entry j := by
    rw [Row.entry_addMultiple h, hzero, hone, mul_one, zero_add]
  rw [hcleared, Row.clear_eq_addMultiple (h.trans hlength.symm), hentry, Row.addMultiple_cancel h]

section Exchange

variable (h : t.Aligned) (hr : t.rows[i]? = some r)
include h hr

theorem Aligned.pivotsTo (hj : j ≤ t.width) (hne : r.entry j ≠ 0) :
    t.PivotsTo i j (t.eliminate i j) where
  pivot_eq := by rw [pivot, if_neg (by rwa [entry_eq hr])]
  on_grid := h.pivotInPlace_of_ne_zero hr hj hne

theorem Aligned.exchanged (hne : r.entry j ≠ 0) : t.Exchanged (t.eliminate i j) i j r where
  aligned := h.eliminate hr
  width_eq := h.width_eliminate hr
  length_rows := length_rows_eliminate hr
  unit := ⟨h.entry_eliminate_self hr hne, h.entry_objective_eliminate_self hr hne⟩
  solves_iff := h.solves_eliminate_iff hr hne
  objective_eq := by
    rw [objective_eliminate hr, clear_pivotRow (h.length_row r (List.mem_of_getElem? hr))]
    exact ⟨_, rfl⟩
  kept hc := by
    refine ⟨fun k => ?_, h.entry_objective_eliminate_of_eq_zero hr hc⟩
    have hlength := length_rows_eliminate (j := j) hr
    by_cases hk : k < t.rows.length
    · have hq := List.getElem?_eq_getElem hk
      have hq' := List.getElem?_eq_getElem (hlength ▸ hk)
      rw [entry_eq hq', entry_eq hq, h.entry_eliminate_of_eq_zero hr hc hq hq']
    · rw [entry, entry, List.getElem?_eq_none (Nat.le_of_not_lt hk),
        List.getElem?_eq_none (hlength ▸ Nat.le_of_not_lt hk)]
  basis_self := by
    rw [basis_eliminate hr, List.getElem?_set_self]
    exact h.length_basis ▸ (List.getElem?_eq_some_iff.mp hr).1
  basis_ne hki := by rw [basis_eliminate hr, List.getElem?_set_ne (Ne.symm hki)]
  names_eq := names_eliminate hr
  steps_eq := steps_eliminate t i j

section Back

variable (hne : r.entry j ≠ 0) (hunit : t.UnitColumn i b)
include hne hunit

theorem Aligned.rows_eliminate_eliminate : ((t.eliminate i j).eliminate i b).rows = t.rows := by
  have hself : (t.eliminate i j).rows[i]? = some (pivotRow r j) := getElem?_rows_eliminate_self hr
  have hone : r.entry b = 1 := by rw [hunit.entry hr, if_pos rfl]
  refine List.ext_getElem? fun k => ?_
  rw [getElem?_rows_eliminate hself, pivotRow_pivotRow hne hone]
  cases hq : t.rows[k]? with
  | none => rw [getElem?_rows_eliminate hr, hq, Option.map_none, Option.map_none]
  | some q =>
    by_cases hki : k = i
    · subst hki
      rw [hself, Option.map_some, if_pos rfl, ← hr, hq]
    · have hzero : q.entry b = 0 := by rw [hunit.entry hq, if_neg hki]
      have hlength : r.coefficients.length = q.coefficients.length :=
        (h.length_row r (List.mem_of_getElem? hr)).trans
          (h.length_row q (List.mem_of_getElem? hq)).symm
      rw [getElem?_rows_eliminate_ne hr hki hq, Option.map_some, if_neg hki,
        clear_clear hlength hone hzero]

/-- The pivot on a unit column takes back the one before it in the same row. -/
theorem Aligned.eliminate_eliminate (hb : t.basis[i]? = some b) :
    (t.eliminate i j).eliminate i b = t := by
  have hself : (t.eliminate i j).rows[i]? = some (pivotRow r j) := getElem?_rows_eliminate_self hr
  have hone : r.entry b = 1 := by rw [hunit.entry hr, if_pos rfl]
  have hobjective : ((t.eliminate i j).eliminate i b).objective = t.objective := by
    rw [objective_eliminate hself, pivotRow_pivotRow hne hone, objective_eliminate hr,
      clear_clear (h.length_row r (List.mem_of_getElem? hr)) hone hunit.objective]
  have hbasis : ((t.eliminate i j).eliminate i b).basis = t.basis := by
    obtain ⟨hlt, rfl⟩ := List.getElem?_eq_some_iff.mp hb
    rw [basis_eliminate hself, basis_eliminate hr, List.set_set, List.set_getElem_self]
  have hnames : ((t.eliminate i j).eliminate i b).names = t.names := by
    rw [names_eliminate hself, names_eliminate hr]
  have hsteps : ((t.eliminate i j).eliminate i b).steps = t.steps := by
    rw [steps_eliminate, steps_eliminate]
  exact Tableau.ext (h.rows_eliminate_eliminate hr hne hunit) hobjective hbasis hnames hsteps

/-- The old basic column has a one in the row, so that it lies in the table. -/
theorem Aligned.pivotsTo_back (hb : t.basis[i]? = some b) :
    (t.eliminate i j).PivotsTo i b t := by
  have hself : (t.eliminate i j).rows[i]? = some (pivotRow r j) := getElem?_rows_eliminate_self hr
  have hone : r.entry b = 1 := by rw [hunit.entry hr, if_pos rfl]
  have hentry : (pivotRow r j).entry b ≠ 0 := by
    rw [entry_pivotRow, hone]
    exact one_div_ne_zero hne
  have hlt : b < r.entries.length := by
    by_contra hge
    rw [Row.entry, List.getD_eq_default _ _ (Nat.le_of_not_lt hge)] at hone
    exact zero_ne_one hone
  have hle : b ≤ (t.eliminate i j).width := by
    rw [h.width_eliminate hr, ← h.length_row r (List.mem_of_getElem? hr)]
    rwa [r.length_entries, Nat.lt_succ_iff] at hlt
  have hback := (h.eliminate hr).pivotsTo hself hle hentry
  rwa [h.eliminate_eliminate hr hne hunit hb] at hback

end Back

end Exchange

/-- A pivot whose entry is not zero exchanges the basic column of its row, and the pivot on the old
one, if that was a unit column, takes it back.  A pivot whose entry is zero is refused, and the
table stays as it was. -/
theorem pivot_exchanges (h : t.Aligned) (hi : i < t.rows.length) (hj : j < t.width) :
    (t.entry i j ≠ 0 → ∃ u r, t.PivotsTo i j u ∧ t.rows[i]? = some r ∧ t.Exchanged u i j r ∧
      ∀ b, t.basis[i]? = some b → t.UnitColumn i b → u.PivotsTo i b t) ∧
    (t.entry i j = 0 → t.pivot i j = .error .zeroPivot ∧
      (Grid.pivotInPlace i j).on t.grid = (.error .zeroPivot, t.grid)) := by
  have hr := List.getElem?_eq_getElem hi
  rw [entry_eq hr]
  constructor
  · intro hne
    exact ⟨t.eliminate i j, t.rows[i], h.pivotsTo hr hj.le hne, hr, h.exchanged hr hne,
      fun b hb hunit => h.pivotsTo_back hr hne hunit hb⟩
  · intro hzero
    exact ⟨by rw [pivot, if_pos (by rwa [entry_eq hr])],
      h.pivotInPlace_of_eq_zero hr hj.le hzero⟩

/-- Two constraints with their slacks as basic columns. -/
def slackBasis : Tableau where
  rows := [⟨[2, 1, 1, 0], 4⟩, ⟨[1, 3, 0, 1], 6⟩]
  objective := ⟨[-3, -2, 0, 0], 0⟩
  basis := [2, 3]
  names := ["x1", "x2", "s1", "s2"]
  steps := 0

/-- The first slack exchanged for the first variable. -/
def firstExchange : Tableau where
  rows := [⟨[1, 1 / 2, 1 / 2, 0], 2⟩, ⟨[0, 5 / 2, -1 / 2, 1], 4⟩]
  objective := ⟨[0, -1 / 2, 3 / 2, 0], 6⟩
  basis := [0, 3]
  names := ["x1", "x2", "s1", "s2"]
  steps := 0

theorem aligned_slackBasis : slackBasis.Aligned := ⟨by decide +kernel, rfl⟩

theorem unitColumn_slackBasis : slackBasis.UnitColumn 0 2 where
  entry {k q} hq := by
    match k, hq with
    | 0, hq =>
      cases hq
      decide +kernel
    | 1, hq =>
      cases hq
      decide +kernel
  objective := by decide +kernel

theorem pivot_exchanges_slackBasis :
    slackBasis.PivotsTo 0 0 firstExchange ∧ firstExchange.PivotsTo 0 2 slackBasis ∧
      (∃ r, slackBasis.Exchanged firstExchange 0 0 r) ∧
      slackBasis.pivot 0 3 = .error .zeroPivot ∧
      (Grid.pivotInPlace 0 3).on slackBasis.grid = (.error .zeroPivot, slackBasis.grid) := by
  have hrow : 0 < slackBasis.rows.length := by decide
  obtain ⟨hexchanges, -⟩ := pivot_exchanges (j := 0) aligned_slackBasis hrow (by decide)
  obtain ⟨-, hrefuses⟩ := pivot_exchanges (j := 3) aligned_slackBasis hrow (by decide)
  obtain ⟨u, r, hpivots, -, hexchanged, hback⟩ := hexchanges (by decide +kernel)
  have hnext : slackBasis.pivot 0 0 = .ok firstExchange := by decide +kernel
  obtain rfl := Except.ok.inj (hpivots.pivot_eq.symm.trans hnext)
  exact ⟨hpivots, hback 2 rfl unitColumn_slackBasis, ⟨r, hexchanged⟩,
    hrefuses (by decide +kernel)⟩

end Tableau

end ExactSimplex
