import ExactSimplex.Proofs.Grid
import ExactSimplex.Proofs.Objective

/-! What is done to the table between the phases and in the end, under checks: the columns before
the right-hand side are dropped, the objective row is written anew, and the point is read off.  On
the table of a rectangular tableau with an entry for each variable no check fails. -/

namespace ExactSimplex

open Checked

namespace Grid

/-- The first entries of a row, and its right-hand side. -/
def shorten (kept : Int) (row : List Rat) : Except Error (List Rat) := do
  return front kept row ++ [← last row]

/-- Every row without the last `count` entries before the right-hand side. -/
def dropColumns (g : Grid) (count : Nat) : Except Error Grid := do
  let width ← g.width
  let table ← g.table.mapM (shorten (width - count))
  return { g with table, names := front (width - count : Int) g.names }

/-- The negated objective coefficient of a variable, written into its column. -/
def writeNegated (lp : LinearProgram) (z : List Rat) (j : Nat) : Except Error (List Rat) := do
  assign z j (-(← item lp.maxObjective j))

/-- A row of the table added as often as the objective coefficient of its basic column says. -/
def addBasic (g : Grid) (lp : LinearProgram) (z : List Rat) (p : Nat × Nat) :
    Except Error (List Rat) := do
  if p.1 < lp.numVars then
    let c ← item lp.maxObjective p.1
    if c = 0 then return z else combine (fun v w => v + c * w) z (← item g.table p.2)
  else return z

/-- The objective row of a program, written and then reduced in place. -/
def resetObjective (g : Grid) (lp : LinearProgram) : Except Error Grid := do
  let cols := (← item g.table 0).length
  let plain ← (List.range lp.numVars).foldlM (writeNegated lp) (List.replicate cols 0)
  let reduced ← g.basis.zipIdx.foldlM (g.addBasic lp) plain
  return { g with table := ← assign g.table (g.table.length - 1) reduced }

/-- The right-hand side of a row, written to the place of its basic column. -/
def writeBasic (g : Grid) (lp : LinearProgram) (values : List Rat) (p : Nat × Nat) :
    Except Error (List Rat) := do
  if p.1 < lp.numVars then assign values p.1 (← last (← item g.table p.2)) else return values

/-- The values of the variables, zero unless a row writes them. -/
def point (g : Grid) (lp : LinearProgram) : Except Error (List Rat) :=
  g.basis.zipIdx.foldlM (g.writeBasic lp) (List.replicate lp.numVars 0)

end Grid

namespace Tableau

variable {t : Tableau} {i : Nat} {r : Row} {lp : LinearProgram}

theorem Rectangular.dropColumns_grid (h : t.Rectangular) (count : Nat) :
    t.grid.dropColumns count = .ok (t.dropColumns count).grid := by
  have hrows : (t.dropColumns count).grid.table = (t.rows ++ [t.objective]).map fun r =>
      (r.front ((t.width : Int) - count)).entries := by
    rw [grid, List.map_append, List.map_append, dropColumns, List.map_map]
    rfl
  have htable : t.grid.table.mapM (Grid.shorten ((t.width : Int) - count)) =
      .ok (t.dropColumns count).grid.table := by
    rw [hrows, grid, List.mapM_map]
    refine mapM_eq_ok fun r _ => ?_
    rw [Function.comp_apply, Grid.shorten, r.last_entries]
    rfl
  rw [Grid.dropColumns, width_grid h.length_row, ok_bind, htable]
  rfl

/-! ### The objective row -/

theorem item_maxObjective {j : Nat} (h : j < lp.numVars) :
    item lp.maxObjective j = .ok (lp.maxObjective.getD j 0) := by
  have hlt : j < lp.maxObjective.length := lp.length_maxObjective ▸ h
  rw [List.getD, List.getElem?_eq_getElem hlt]
  exact item_eq_ok (List.getElem?_eq_getElem hlt)

theorem range_map_neg (lp : LinearProgram) :
    ((List.range lp.numVars).map fun j => -lp.maxObjective.getD j 0) =
      lp.maxObjective.map (-·) := by
  have hlength := lp.length_maxObjective
  refine List.ext_getElem (by simp [hlength]) fun k hk hk' => ?_
  have hlt : k < lp.maxObjective.length := by simpa using hk'
  simp only [List.getElem_map, List.getElem_range, List.getD, List.getElem?_eq_getElem hlt,
    Option.getD_some]

/-- The negated objective is written over the first of the zeros. -/
theorem writeNegated_loop (hn : lp.numVars ≤ t.width) :
    (List.range lp.numVars).foldlM (Grid.writeNegated lp) (List.replicate (t.width + 1) 0) =
      .ok (t.plainObjective lp).entries := by
  have hloop := foldlM_eq_ok (fun z : List Rat => z.length = t.width + 1) id
    (l := List.range lp.numVars) (f := Grid.writeNegated lp)
    (g := fun z j => z.set j (-lp.maxObjective.getD j 0))
    (fun z hz j hj => by
      have hj := List.mem_range.mp hj
      refine ⟨?_, by rw [List.length_set, hz]⟩
      rw [Grid.writeNegated, item_maxObjective hj]
      exact assign_eq_ok (by rw [id, hz]; omega) _)
    (s := List.replicate (t.width + 1) 0) List.length_replicate
  refine hloop.trans ?_
  have hrest : t.width + 1 - lp.numVars = t.width - lp.numVars + 1 := by omega
  rw [foldl_set _ (by rw [List.length_replicate]; omega), range_map_neg, List.drop_replicate,
    plainObjective_eq hn, Row.entries, hrest, List.replicate_succ', ← List.append_assoc]
  rfl

/-- Every row of the table stands for the basic column at its place. -/
theorem Rectangular.item_basis (h : t.Rectangular) {p : Nat × Nat} (hp : p ∈ t.basis.zipIdx)
    (d : Row) : item t.grid.table p.2 = .ok (t.rows.getD p.2 d).entries ∧
      (t.rows.getD p.2 d).coefficients.length = t.width := by
  have hlt : p.2 < t.rows.length := h.length_basis ▸ List.snd_lt_of_mem_zipIdx hp
  have hr : t.rows[p.2]? = some t.rows[p.2] := List.getElem?_eq_getElem hlt
  rw [List.getD, hr]
  exact ⟨item_table hr, h.length_row _ (List.getElem_mem hlt)⟩

theorem Rectangular.addBasic_loop (h : t.Rectangular) (hn : lp.numVars ≤ t.width) :
    t.basis.zipIdx.foldlM (t.grid.addBasic lp) (t.plainObjective lp).entries =
      .ok (t.reducedObjective lp).entries := by
  have hloop := foldlM_eq_ok (fun z : Row => z.coefficients.length = t.width) Row.entries
    (l := t.basis.zipIdx) (f := t.grid.addBasic lp)
    (g := fun z p =>
      if p.1 < lp.numVars ∧ lp.maxObjective.getD p.1 0 ≠ 0 then
        z.addMultiple (lp.maxObjective.getD p.1 0) (t.rows.getD p.2 ⟨[], 0⟩) else z)
    (fun z hz p hp => by
      obtain ⟨hitem, hlength⟩ := h.item_basis hp ⟨[], 0⟩
      rw [Grid.addBasic]
      by_cases hlt : p.1 < lp.numVars
      · rw [if_pos hlt, item_maxObjective hlt, ok_bind]
        by_cases hzero : lp.maxObjective.getD p.1 0 = 0
        · rw [if_pos hzero, if_neg fun hp => hp.2 hzero]
          exact ⟨rfl, hz⟩
        · have hwidth := hz.trans hlength.symm
          rw [if_neg hzero, if_pos ⟨hlt, hzero⟩, hitem, ok_bind,
            Row.combine_entries (fun _ _ => rfl) hwidth]
          exact ⟨rfl, (Row.length_addMultiple hwidth.symm _).trans hz⟩
      · rw [if_neg hlt, if_neg fun hp => hlt hp.1]
        exact ⟨rfl, hz⟩)
    (s := t.plainObjective lp) (length_plainObjective hn)
  rw [hloop, reducedObjective, ← zipIdx_map_getD h.length_basis ⟨[], 0⟩, List.foldl_map]

theorem Rectangular.resetObjective_grid (h : t.Rectangular) (hn : lp.numVars ≤ t.width) :
    t.grid.resetObjective lp = .ok (t.reset lp).grid := by
  obtain ⟨r, hr, hlength⟩ := exists_first h.length_row
  have htable : assign t.grid.table (t.grid.table.length - 1) (t.reducedObjective lp).entries =
      .ok (t.reset lp).grid.table := by
    have hlast : t.grid.table.length - 1 = (t.rows.map Row.entries).length := by simp [grid]
    rw [assign_eq_ok (by simp [grid]), hlast, grid, List.map_append,
      List.set_append_right _ _ le_rfl, Nat.sub_self, reset, grid, List.map_append]
    rfl
  rw [Grid.resetObjective, hr, ok_bind, hlength]
  show ((List.range lp.numVars).foldlM (Grid.writeNegated lp) (List.replicate (t.width + 1) 0) >>=
    fun plain => t.basis.zipIdx.foldlM (t.grid.addBasic lp) plain >>= _) = _
  rw [writeNegated_loop hn, ok_bind, h.addBasic_loop hn, ok_bind, htable]
  rfl

/-! ### The point -/

theorem Rectangular.point_grid (h : t.Rectangular) : t.grid.point lp = .ok (t.point lp) := by
  have hloop := foldlM_eq_ok (fun _ : Nat → Rat => True) (fun v => (List.range lp.numVars).map v)
    (l := t.basis.zipIdx) (f := t.grid.writeBasic lp)
    (g := fun v p j => if p.1 = j then (t.rows.getD p.2 ⟨[], 0⟩).rhs else v j)
    (fun v _ p hp => by
      refine ⟨?_, trivial⟩
      obtain ⟨hitem, -⟩ := h.item_basis hp ⟨[], 0⟩
      rw [Grid.writeBasic]
      by_cases hlt : p.1 < lp.numVars
      · rw [if_pos hlt, hitem, ok_bind, Row.last_entries, ok_bind, assign_eq_ok (by simpa),
          set_map_range]
      · rw [if_neg hlt]
        refine congrArg Except.ok (List.map_congr_left fun j hj => ?_)
        have hj := List.mem_range.mp hj
        rw [if_neg (by omega)])
    (s := fun _ => 0) trivial
  have hvalue (j : Nat) : t.basis.zipIdx.foldl
      (fun v p => if p.1 = j then (t.rows.getD p.2 ⟨[], 0⟩).rhs else v) 0 = t.valueOf j := by
    rw [valueOf, ← zipIdx_map_getD h.length_basis ⟨[], 0⟩, List.foldl_map]
  have hpoint := fun j => (foldl_apply
    (fun j v (p : Nat × Nat) => if p.1 = j then (t.rows.getD p.2 ⟨[], 0⟩).rhs else v)
    t.basis.zipIdx (fun _ => 0) j).trans (hvalue j)
  rw [List.map_const', List.length_range] at hloop
  refine hloop.trans (congrArg Except.ok (List.map_congr_left fun j _ => hpoint j))

end Tableau

end ExactSimplex
