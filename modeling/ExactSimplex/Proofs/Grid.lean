import ExactSimplex.Proofs.Checked
import ExactSimplex.Proofs.Pivot
import ExactSimplex.Proofs.Run

/-! The simplex method on one table of entries, the objective row last, with its loops written out
and every step of them checked: a place that is not there, a division by zero, a pivot that is zero
and two rows of different lengths are errors.  On the table of a rectangular tableau none of them
occurs, and each operation gives the table that the tableau gives. -/

namespace ExactSimplex

open Checked

/-- A tableau as one table, the objective row last and the right-hand side last in every row. -/
structure Grid where
  table : List (List Rat)
  basis : List Nat
  names : List String
deriving DecidableEq, Repr

namespace Grid

/-- How many entries of the first row stand before its right-hand side. -/
def width (g : Grid) : Except Error Nat := do
  return (← item g.table 0).length - 1

/-- The last entry of the last row. -/
def value (g : Grid) : Except Error Rat := do
  last (← last g.table)

/-- An entry weighed against the least so far, which comes with its column. -/
def lower (objective : List Rat) (best : Option Nat × Rat) (j : Nat) :
    Except Error (Option Nat × Rat) := do
  let v ← item objective j
  return if v < best.2 then (some j, v) else best

/-- The column of the least entry below zero, from left to right. -/
def entering (g : Grid) : Except Error (Option Nat) := do
  let objective ← last g.table
  let best ← (List.range (← g.width)).foldlM (lower objective) (none, 0)
  return best.1

/-- A row weighed against the row of the least ratio so far, which comes with that ratio. -/
def weigh (j : Nat) (best : Option (Nat × Rat)) (p : List Rat × Nat) :
    Except Error (Option (Nat × Rat)) := do
  let a ← item p.1 j
  if 0 < a then
    let ratio ← Rational.divide (← last p.1) a
    match best with
    | none => return some (p.2, ratio)
    | some b => return if ratio < b.2 then some (p.2, ratio) else best
  else return best

/-- The row of the least ratio, from top to bottom. -/
def leaving (g : Grid) (j : Nat) : Except Error (Option Nat) := do
  let best ← g.table.dropLast.zipIdx.foldlM (weigh j) none
  return best.map (·.1)

/-- A row after a pivot on row `i`, whose entries have become `divided`. -/
def clear (i j : Nat) (divided : List Rat) (q : List Rat × Nat) : Except Error (List Rat) := do
  if q.2 = i then return divided
  else
    let a ← item q.1 j
    if a = 0 then return q.1 else combine (fun v w => v - a * w) q.1 divided

/-- The whole table after a pivot, row by row, if the entry is not zero. -/
def pivot (g : Grid) (i j : Nat) : Except Error Grid := do
  let row ← item g.table i
  let p ← item row j
  if p = 0 then throw .zeroPivot
  else
    let divided ← row.mapM (Rational.divide · p)
    let table ← g.table.zipIdx.mapM (clear i j divided)
    return { g with table, basis := ← assign g.basis i j }

/-- The steps are counted before a column is looked for, and the limit is looked at after a pivot.
Whether no column enters in the end, the steps, and the table then. -/
def optimize (limit : Int) (steps : Nat) (g : Grid) : Except Error (Bool × Nat × Grid) := do
  match ← g.entering with
  | none => return (true, steps + 1, g)
  | some j =>
    match ← g.leaving j with
    | none => return (false, steps + 1, g)
    | some i =>
      let next ← g.pivot i j
      if limit ≤ (steps + 1 : Nat) then return (false, steps + 1, next)
      else optimize limit (steps + 1) next
termination_by (limit - steps).toNat

end Grid

/-- A tableau as a table. -/
def Tableau.grid (t : Tableau) : Grid :=
  ⟨(t.rows ++ [t.objective]).map Row.entries, t.basis, t.names⟩

namespace Row

theorem length_entries (r : Row) : r.entries.length = r.coefficients.length + 1 := by
  rw [entries, List.length_append, List.length_singleton]

theorem item_entries {r : Row} {j : Nat} (h : j ≤ r.coefficients.length) :
    item r.entries j = .ok (r.entry j) := by
  have hlt : j < r.entries.length := by
    rw [length_entries]
    omega
  rw [entry, List.getD, List.getElem?_eq_getElem hlt]
  exact item_eq_ok (List.getElem?_eq_getElem hlt)

theorem last_entries (r : Row) : last r.entries = .ok r.rhs := last_append_singleton _ _

theorem entries_divide (r : Row) (k : Rat) : (r.divide k).entries = r.entries.map (· / k) := by
  rw [entries, entries, List.map_append]
  rfl

/-- Entries combined place by place give the row plus a multiple of another. -/
theorem combine_entries {f : Rat → Rat → Rat} {k : Rat} (hf : ∀ v w, f v w = v + k * w)
    {r p : Row} (h : r.coefficients.length = p.coefficients.length) :
    combine f r.entries p.entries = .ok (r.addMultiple k p).entries := by
  have hentries : r.entries.length = p.entries.length := by
    rw [r.length_entries, p.length_entries, h]
  have hf : f = fun v w => v + k * w := by
    funext v w
    exact hf v w
  rw [combine_eq_ok hentries, hf, entries, entries, List.zipWith_append h]
  rfl

end Row

namespace Tableau

variable {t : Tableau} {i j : Nat} {r : Row}

/-! ### Reading the table -/

theorem item_table (h : t.rows[i]? = some r) : item t.grid.table i = .ok r.entries := by
  have hlt := (List.getElem?_eq_some_iff.mp h).1
  refine item_eq_ok ?_
  rw [grid, List.getElem?_map, List.getElem?_append_left hlt, h]
  rfl

theorem last_table (t : Tableau) : last t.grid.table = .ok t.objective.entries := by
  rw [grid, List.map_append]
  exact last_append_singleton _ _

theorem dropLast_table (t : Tableau) : t.grid.table.dropLast = t.rows.map Row.entries := by
  rw [grid, List.map_append]
  exact List.dropLast_concat

theorem value_grid (t : Tableau) : t.grid.value = .ok t.value := by
  rw [Grid.value, last_table, ok_bind]
  exact t.objective.last_entries

section Level

variable (h : ∀ r ∈ t.rows, r.coefficients.length = t.width)
include h

theorem exists_first :
    ∃ r : Row, item t.grid.table 0 = .ok r.entries ∧ r.entries.length = t.width + 1 := by
  match hrows : t.rows with
  | [] =>
    refine ⟨t.objective, item_eq_ok ?_, t.objective.length_entries⟩
    rw [grid, hrows]
    rfl
  | r :: rows =>
    have hr : t.rows[0]? = some r := by rw [hrows, List.getElem?_cons_zero]
    refine ⟨r, item_table hr, ?_⟩
    rw [r.length_entries, h r (List.mem_of_getElem? hr)]

theorem width_grid : t.grid.width = .ok t.width := by
  obtain ⟨r, hr, hlength⟩ := exists_first h
  rw [Grid.width, hr, ok_bind, hlength]
  rfl

end Level

/-! ### The entering column -/

/-- Once an entry is below zero, the others count by being less. -/
theorem foldl_least_some (l : List (Nat × Rat)) {b : Nat × Rat} (hb : b.2 < 0) :
    l.foldl (fun (best : Option Nat × Rat) p => if p.2 < best.2 then (some p.1, p.2) else best)
      (some b.1, b.2) =
    let least := (l.filter (·.2 < 0)).foldl (fun best p => if p.2 < best.2 then p else best) b
    (some least.1, least.2) := by
  induction l generalizing b with
  | nil => rfl
  | cons p l ih =>
    by_cases hless : p.2 < b.2
    · have hp : p.2 < 0 := hless.trans hb
      rw [List.foldl_cons, if_pos hless, ih hp, List.filter_cons_of_pos (by simpa using hp),
        List.foldl_cons, if_pos hless]
    · rw [List.foldl_cons, if_neg hless, ih hb]
      by_cases hp : p.2 < 0
      · rw [List.filter_cons_of_pos (by simpa using hp), List.foldl_cons, if_neg hless]
      · rw [List.filter_cons_of_neg (by simpa using hp)]

/-- The least entry below zero is found by one pass that starts from zero. -/
theorem foldl_least (l : List (Nat × Rat)) :
    (l.foldl (fun (best : Option Nat × Rat) p => if p.2 < best.2 then (some p.1, p.2) else best)
      (none, 0)).1 = firstLeast (l.filter (·.2 < 0)) := by
  induction l with
  | nil => rfl
  | cons p l ih =>
    by_cases hp : p.2 < 0
    · rw [List.foldl_cons, if_pos hp, foldl_least_some l hp,
        List.filter_cons_of_pos (by simpa using hp)]
      rfl
    · rw [List.foldl_cons, if_neg hp, ih, List.filter_cons_of_neg (by simpa using hp)]

theorem improving_eq (t : Tableau) : t.improving =
    ((List.range t.width).map fun j => (j, t.objective.entry j)).filter (·.2 < 0) := by
  have hentries : t.objective.coefficients.zipIdx =
      (List.range t.width).map fun j => (t.objective.entry j, j) := by
    refine List.ext_getElem (by simp [width]) fun k hk hk' => ?_
    rw [List.length_zipIdx] at hk
    rw [List.getElem_zipIdx, List.getElem_map, List.getElem_range, Row.entry_of_lt hk, List.getD,
      List.getElem?_eq_getElem hk, Nat.zero_add]
    rfl
  rw [improving, hentries, List.filterMap_map, List.filter_map, ← List.filterMap_eq_map,
    ← List.filterMap_eq_filter, List.filterMap_filterMap]
  refine List.filterMap_congr fun j _ => ?_
  simp only [Function.comp_apply]
  by_cases hneg : t.objective.entry j < 0
  · simp [hneg, Option.guard]
  · simp [hneg, Option.guard]

theorem lower_entries (hj : j < r.coefficients.length) (best : Option Nat × Rat) :
    Grid.lower r.entries best j =
      .ok (if r.entry j < best.2 then (some j, r.entry j) else best) := by
  rw [Grid.lower, Row.item_entries hj.le]
  rfl

theorem entering_grid (h : ∀ r ∈ t.rows, r.coefficients.length = t.width) :
    t.grid.entering = .ok t.entering := by
  have hloop := foldlM_eq_ok' (l := List.range t.width)
    (fun best j hj => lower_entries (r := t.objective) (List.mem_range.mp hj) best) (none, 0)
  rw [Grid.entering, last_table, ok_bind, width_grid h, ok_bind, hloop, ok_bind, entering,
    improving_eq, ← foldl_least, List.foldl_map]
  rfl

/-! ### The leaving row -/

/-- The better of a first choice, if there is one, and a new one. -/
def better (best : Option (Nat × Rat)) (p : Nat × Rat) : Option (Nat × Rat) :=
  match best with
  | none => some p
  | some b => if p.2 < b.2 then some p else some b

theorem foldl_better_some (l : List (Nat × Rat)) (b : Nat × Rat) : l.foldl better (some b) =
    some (l.foldl (fun best p => if p.2 < best.2 then p else best) b) := by
  induction l generalizing b with
  | nil => rfl
  | cons p l ih =>
    rw [List.foldl_cons, List.foldl_cons, better]
    split_ifs
    · exact ih p
    · exact ih b

theorem firstLeast_eq_foldl (l : List (Nat × Rat)) :
    firstLeast l = (l.foldl better none).map (·.1) := by
  match l with
  | [] => rfl
  | p :: l =>
    rw [List.foldl_cons, better, foldl_better_some]
    rfl

theorem weigh_entries (hj : j ≤ r.coefficients.length) (best : Option (Nat × Rat)) (k : Nat) :
    Grid.weigh j best (r.entries, k) =
      .ok (if 0 < r.entry j then better best (k, r.rhs / r.entry j) else best) := by
  rw [Grid.weigh, Row.item_entries hj, ok_bind]
  by_cases hpos : 0 < r.entry j
  · rw [if_pos hpos, if_pos hpos, Row.last_entries, ok_bind, Rational.divide, if_neg hpos.ne',
      ok_bind]
    cases best <;> rfl
  · rw [if_neg hpos, if_neg hpos]
    rfl

theorem leaving_grid (h : ∀ r ∈ t.rows, r.coefficients.length = t.width) (hj : j ≤ t.width) :
    t.grid.leaving j = .ok (t.leaving j) := by
  have hloop := foldlM_eq_ok' (l := t.rows.zipIdx)
    (fun best p hp => weigh_entries (j := j)
      (hj.trans_eq (h p.1 (List.fst_mem_of_mem_zipIdx hp)).symm) best p.2) none
  have hbest : t.rows.zipIdx.foldl (fun best p =>
      if 0 < p.1.entry j then better best (p.2, p.1.rhs / p.1.entry j) else best) none =
        (t.ratios j).foldl better none := by
    rw [ratios, List.foldl_filterMap]
    congr 1
    funext best p
    by_cases hpos : 0 < p.1.entry j
    · simp only [if_pos hpos]
    · simp only [if_neg hpos]
  rw [Grid.leaving, dropLast_table, List.zipIdx_map, List.foldlM_map]
  refine (congrArg (· >>= fun best => pure (best.map (·.1))) hloop).trans ?_
  rw [hbest, leaving, firstLeast_eq_foldl]
  rfl

/-! ### The pivot -/

theorem entries_pivotRow (r : Row) (j : Nat) :
    (pivotRow r j).entries = r.entries.map (· / r.entry j) := r.entries_divide _

/-- A row after a pivot on row `i`, which has become `p`. -/
def cleared (i j : Nat) (p : Row) (k : Nat) (q : Row) : Row := if k = i then p else q.clear j p

theorem clear_entries {p q : Row} (hj : j ≤ q.coefficients.length)
    (h : q.coefficients.length = p.coefficients.length) (k : Nat) :
    Grid.clear i j p.entries (q.entries, k) = .ok (cleared i j p k q).entries := by
  rw [Grid.clear, cleared]
  by_cases hk : k = i
  · rw [if_pos hk, if_pos hk]
    rfl
  · rw [if_neg hk, if_neg hk, Row.item_entries hj, ok_bind, Row.clear]
    by_cases hzero : q.entry j = 0
    · rw [if_pos hzero, if_pos hzero]
      rfl
    · rw [if_neg hzero, if_neg hzero]
      exact Row.combine_entries (fun v w => by ring) h

/-- The objective row is cleared like the rows whose basic column stays. -/
theorem table_eliminate (hr : t.rows[i]? = some r) : (t.eliminate i j).grid.table =
    (t.rows ++ [t.objective]).zipIdx.map fun q => (cleared i j (pivotRow r j) q.2 q.1).entries := by
  have hi : t.rows.length ≠ i := ((List.getElem?_eq_some_iff.mp hr).1).ne'
  have hall : (t.rows ++ [t.objective]).mapIdx (cleared i j (pivotRow r j)) =
      (t.eliminate i j).rows ++ [(t.eliminate i j).objective] := by
    rw [List.mapIdx_concat, cleared, if_neg hi, eliminate_eq hr]
    rfl
  rw [grid, ← hall, List.mapIdx_eq_zipIdx_map, List.map_map]
  rfl

theorem Rectangular.pivot_grid (h : t.Rectangular) (hr : t.rows[i]? = some r) (hj : j < t.width)
    (hne : r.entry j ≠ 0) : t.grid.pivot i j = .ok (t.eliminate i j).grid := by
  have hlength := h.length_row r (List.mem_of_getElem? hr)
  have hpivot : (pivotRow r j).coefficients.length = t.width := h.aligned.length_pivotRow hr
  have hdivided : r.entries.mapM (Rational.divide · (r.entry j)) = .ok (pivotRow r j).entries := by
    rw [entries_pivotRow]
    exact mapM_eq_ok fun v _ => if_neg hne
  have hbasis : i < t.grid.basis.length :=
    h.length_basis ▸ (List.getElem?_eq_some_iff.mp hr).1
  have hrow : ∀ q ∈ t.rows ++ [t.objective], q.coefficients.length = t.width :=
    List.forall_mem_append.mpr ⟨h.length_row, List.forall_mem_singleton.mpr rfl⟩
  have htable : t.grid.table.zipIdx.mapM (Grid.clear i j (pivotRow r j).entries) =
      .ok (t.eliminate i j).grid.table := by
    rw [table_eliminate hr, grid, List.zipIdx_map, List.mapM_map]
    refine mapM_eq_ok fun q hq => ?_
    have hq := hrow q.1 (List.fst_mem_of_mem_zipIdx hq)
    exact clear_entries (hj.le.trans_eq hq.symm) (hq.trans hpivot.symm) q.2
  rw [Grid.pivot, item_table hr, ok_bind, Row.item_entries (hj.le.trans_eq hlength.symm), ok_bind,
    if_neg hne, hdivided, ok_bind, htable, ok_bind, assign_eq_ok hbasis, ok_bind, grid]
  rw [basis_eliminate hr, names_eliminate hr]
  rfl

/-! ### The loop -/

/-- After a pivot the tableau goes on with the limit as it is, unless the limit is reached. -/
theorem optimize_of_leaving_eq_some (hj : t.entering = some j) (hi : t.leaving j = some i)
    (limit : Int) : t.optimize limit =
      if limit ≤ (t.steps + 1 : Nat) then .ok (false, t.counted.eliminate i j)
      else (t.counted.eliminate i j).optimize limit := by
  obtain ⟨n, hn⟩ : ∃ n, turnsLeft limit t.steps = n + 1 :=
    Nat.exists_eq_add_of_le' (Nat.le_max_left 1 _)
  have hsteps : (t.counted.eliminate i j).steps = t.steps + 1 := steps_eliminate _ i j
  rw [optimize, hn, run_succ_of_leaving_eq_some hj hi, optimize, hsteps]
  rw [turnsLeft] at hn
  split_ifs with hlimit
  · rw [show n = 0 by omega]
    rfl
  · rw [turnsLeft, show max 1 (limit - (t.steps + 1 : Nat)).toNat = n by omega]

theorem Rectangular.optimize_grid (h : t.Rectangular) (limit : Int) :
    t.grid.optimize limit t.steps =
      (t.optimize limit).map fun p => (p.1, p.2.steps, p.2.grid) := by
  induction hleft : (limit - t.steps).toNat using Nat.strong_induction_on generalizing t with
  | _ left ih =>
    obtain ⟨n, hn⟩ : ∃ n, turnsLeft limit t.steps = n + 1 :=
      Nat.exists_eq_add_of_le' (Nat.le_max_left 1 _)
    rw [Grid.optimize, entering_grid h.length_row, ok_bind]
    cases hj : t.entering with
    | none =>
      rw [optimize, hn, run_succ_of_entering_eq_none hj]
      rfl
    | some j =>
      have hlt := (entering_spec hj).1
      show (t.grid.leaving j >>= _) = _
      rw [leaving_grid h.length_row hlt.le, ok_bind]
      cases hi : t.leaving j with
      | none =>
        rw [optimize, hn, run_succ_of_leaving_eq_none hj hi]
        rfl
      | some i =>
        obtain ⟨r, hl⟩ := leaving_spec hi
        have hnext : (t.counted.eliminate i j).grid = (t.eliminate i j).grid := by
          rw [grid, eliminate_eq (t := t.counted) hl.row, grid, eliminate_eq hl.row]
          rfl
        have hsteps : (t.counted.eliminate i j).steps = t.steps + 1 := steps_eliminate _ i j
        show (t.grid.pivot i j >>= _) = _
        rw [h.pivot_grid hl.row hlt hl.pos.ne', ok_bind, optimize_of_leaving_eq_some hj hi, ← hnext,
          ← hsteps]
        split_ifs with hlimit
        · rfl
        · have hrect : (t.counted.eliminate i j).Rectangular :=
            Rectangular.eliminate (t := t.counted) ⟨h.length_row, h.length_basis, h.length_names⟩
              hl.row
          exact ih _ (by omega) hrect rfl

end Tableau

end ExactSimplex
