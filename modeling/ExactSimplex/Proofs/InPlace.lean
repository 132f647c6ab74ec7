import ExactSimplex.Proofs.Grid
import Mathlib.Data.List.GetD

/-! The pivot as work on one table that is changed in its place.  The leaving row is overwritten
first, and then one row after the other is combined with what stands there now.  An error ends the
work and keeps what was done before it; a pivot that is zero is found before anything is done. -/

namespace ExactSimplex

open Checked

/-- Work on a table in its place, which an error does not undo. -/
abbrev Work (α : Type) := ExceptT Error (StateM Grid) α

namespace Work

variable {α β : Type} {x : Work α} {f : α → Work β} {g next : Grid} {a : α}

/-- The result of some work, and the table afterwards. -/
def on (x : Work α) (g : Grid) : Except Error α × Grid := x.run.run g

/-- A result that may be an error, with nothing done to the table. -/
def check (r : Except Error α) : Work α := ExceptT.mk (pure r)

theorem check_on (r : Except Error α) (g : Grid) : (check r).on g = (r, g) := rfl

theorem get_on (g : Grid) : Work.on get g = (.ok g, g) := rfl

theorem set_on (g next : Grid) : Work.on (set next) g = (.ok (), next) := rfl

theorem bind_on_ok (h : x.on g = (.ok a, next)) : (x >>= f).on g = (f a).on next := by
  show StateT.run (ExceptT.run (x >>= f)) g = _
  rw [ExceptT.run_bind, StateT.run_bind]
  rw [on] at h
  rw [h]
  rfl

end Work

namespace Grid

def readRow (k : Nat) : Work (List Rat) := do
  Work.check (item (← get).table k)

def writeRow (k : Nat) (row : List Rat) : Work Unit := do
  let g ← get
  set { g with table := ← Work.check (assign g.table k row) }

/-- Row `k` combined with row `i` as it stands now, whose entry in column `j` is one. -/
def clearRow (i j : Nat) (divided : List Rat) (k : Nat) : Work Unit := do
  let row ← readRow k
  writeRow k (← Work.check (clear i j divided (row, k)))

/-- A pivot that overwrites one row after the other. -/
def pivotInPlace (i j : Nat) : Work Unit := do
  let row ← readRow i
  let p ← Work.check (item row j)
  if p = 0 then throw .zeroPivot
  writeRow i (← Work.check (row.mapM (Rational.divide · p)))
  let divided ← readRow i
  forM (List.range (← get).table.length) (clearRow i j divided)
  let g ← get
  set { g with basis := ← Work.check (assign g.basis i j) }

variable {g : Grid} {k : Nat} {row : List Rat}

theorem readRow_on (h : g.table[k]? = some row) : (readRow k).on g = (.ok row, g) := by
  show (item g.table k, g) = _
  rw [item_eq_ok h]

theorem writeRow_on (h : k < g.table.length) (row : List Rat) :
    (writeRow k row).on g = (.ok (), { g with table := g.table.set k row }) := by
  have hassigned : (Work.check (assign g.table k row)).on g = (.ok (g.table.set k row), g) := by
    rw [Work.check_on, assign_eq_ok h]
  refine (Work.bind_on_ok (Work.get_on g)).trans ?_
  refine (Work.bind_on_ok hassigned).trans ?_
  rw [Work.set_on]

theorem clearRow_on {i j : Nat} {divided new : List Rat} (h : g.table[k]? = some row)
    (hnew : clear i j divided (row, k) = .ok new) :
    (clearRow i j divided k).on g = (.ok (), { g with table := g.table.set k new }) := by
  have hchecked : (Work.check (clear i j divided (row, k))).on g = (.ok new, g) := by
    rw [Work.check_on, hnew]
  refine (Work.bind_on_ok (readRow_on h)).trans ((Work.bind_on_ok hchecked).trans ?_)
  exact writeRow_on (List.getElem?_eq_some_iff.mp h).1 new

/-- The rows are overwritten from the first on, and each is read before it is. -/
theorem clearRow_loop {i j n : Nat} {divided : List Rat} {new : Nat → List Rat}
    (hn : n ≤ g.table.length)
    (h : ∀ k row, g.table[k]? = some row → clear i j divided (row, k) = .ok (new k)) :
    Work.on (forM (List.range n) (clearRow i j divided)) g =
      (.ok (), { g with table := (List.range n).map new ++ g.table.drop n }) := by
  induction n with
  | zero => rfl
  | succ n ih =>
    have hlt : n < g.table.length := by omega
    have hdone : ((List.range n).map new).length = n := by simp
    have hrest : g.table.drop n = g.table[n] :: g.table.drop (n + 1) :=
      List.drop_eq_getElem_cons hlt
    have hread : ((List.range n).map new ++ g.table.drop n)[n]? = some g.table[n] := by
      rw [List.getElem?_append_right hdone.le, hdone, Nat.sub_self, hrest, List.getElem?_cons_zero]
    have hwritten : ((List.range n).map new ++ g.table.drop n).set n (new n) =
        (List.range (n + 1)).map new ++ g.table.drop (n + 1) := by
      rw [List.set_append_right _ _ hdone.le, hdone, Nat.sub_self, hrest, List.set_cons_zero,
        List.range_succ, List.map_append, List.append_assoc, List.map_singleton,
        List.singleton_append]
    rw [List.range_succ, List.forM_append, List.forM_cons, List.forM_nil, ← List.range_succ,
      ← hwritten]
    refine (Work.bind_on_ok (ih (by omega))).trans ?_
    exact Work.bind_on_ok (clearRow_on hread (h n _ (List.getElem?_eq_getElem hlt)))

/-- When all rows are through, the table is the one whose rows they have become. -/
theorem clearRow_pass {i j : Nat} {divided : List Rat} {table : List (List Rat)}
    (hlength : table.length = g.table.length)
    (h : ∀ k row, g.table[k]? = some row →
      clear i j divided (row, k) = .ok (table.getD k [])) :
    Work.on (forM (List.range g.table.length) (clearRow i j divided)) g =
      (.ok (), { g with table }) := by
  have htable : (List.range g.table.length).map (table.getD · []) = table := by
    refine List.ext_getElem (by simp [hlength]) fun k hk hk' => ?_
    rw [List.getElem_map, List.getElem_range, List.getD_eq_getElem _ _ hk']
  rw [clearRow_loop le_rfl h, htable, List.drop_length, List.append_nil]

end Grid

/-! ### The pivot -/

namespace Tableau

theorem getElem?_table {t : Tableau} {k : Nat} {q : Row}
    (hq : (t.rows ++ [t.objective])[k]? = some q) : t.grid.table[k]? = some q.entries := by
  rw [grid, List.getElem?_map, hq, Option.map_some]

namespace Aligned

variable {t : Tableau} {i j : Nat} {r : Row} (h : t.Aligned) (hr : t.rows[i]? = some r)
  (hj : j ≤ t.width)

include hr in
theorem getElem?_pivot_table : t.grid.table[i]? = some r.entries :=
  getElem?_table (List.getElem?_append_left (List.getElem?_eq_some_iff.mp hr).1 ▸ hr)

include h in
theorem length_of_mem_table {q : Row} (hq : q ∈ t.rows ++ [t.objective]) :
    q.coefficients.length = t.width :=
  List.forall_mem_append.mpr ⟨h.length_row, List.forall_mem_singleton.mpr rfl⟩ q hq

include h hr hj

theorem check_pivot : (Work.check (item r.entries j)).on t.grid = (.ok (r.entry j), t.grid) := by
  have hlength := h.length_row r (List.mem_of_getElem? hr)
  rw [Work.check_on, Row.item_entries (hj.trans_eq hlength.symm)]

/-- A pivot that is zero is refused before a row is touched. -/
theorem pivotInPlace_of_eq_zero (hzero : r.entry j = 0) :
    (Grid.pivotInPlace i j).on t.grid = (.error .zeroPivot, t.grid) := by
  refine (Work.bind_on_ok (Grid.readRow_on (getElem?_pivot_table hr))).trans ?_
  refine (Work.bind_on_ok (h.check_pivot hr hj)).trans ?_
  rw [if_pos hzero]
  rfl

/-- After the leaving row is overwritten, every row becomes the one after the elimination. -/
theorem clear_overwritten {k : Nat} {row : List Rat}
    (hrow : (t.grid.table.set i (pivotRow r j).entries)[k]? = some row) :
    Grid.clear i j (pivotRow r j).entries (row, k) =
      .ok ((t.eliminate i j).grid.table.getD k []) := by
  have hlt : k < t.grid.table.length := by
    simpa using (List.getElem?_eq_some_iff.mp hrow).1
  have hk : k < (t.rows ++ [t.objective]).length := by simpa [grid] using hlt
  have hq := List.getElem?_eq_getElem hk
  have hnew : (t.eliminate i j).grid.table[k]? =
      some (cleared i j (pivotRow r j) k (t.rows ++ [t.objective])[k]).entries := by
    rw [table_eliminate hr, List.getElem?_map, List.getElem?_zipIdx, hq, Nat.zero_add]
    rfl
  rw [List.getD, hnew, Option.getD_some]
  by_cases hki : k = i
  · rw [Grid.clear, if_pos hki, cleared, if_pos hki]
    rfl
  · rw [List.getElem?_set_ne (Ne.symm hki), getElem?_table hq] at hrow
    have hwidth := h.length_of_mem_table (List.getElem_mem hk)
    have hpivot : (pivotRow r j).coefficients.length = t.width := h.length_pivotRow hr
    rw [← Option.some.inj hrow]
    exact clear_entries (hj.trans_eq hwidth.symm) (hwidth.trans hpivot.symm) k

/-- The work in place gives the table of the tableau after the elimination. -/
theorem pivotInPlace_of_ne_zero (hne : r.entry j ≠ 0) :
    (Grid.pivotInPlace i j).on t.grid = (.ok (), (t.eliminate i j).grid) := by
  have hi : i < t.grid.table.length :=
    (List.getElem?_eq_some_iff.mp (getElem?_pivot_table hr)).1
  have hbasis : i < t.basis.length := h.length_basis ▸ (List.getElem?_eq_some_iff.mp hr).1
  have hdivided : (Work.check (r.entries.mapM (Rational.divide · (r.entry j)))).on t.grid =
      (.ok (pivotRow r j).entries, t.grid) := by
    rw [Work.check_on, entries_pivotRow]
    exact congrArg (·, t.grid) (mapM_eq_ok fun v _ => if_neg hne)
  have hlength : (t.eliminate i j).grid.table.length =
      (t.grid.table.set i (pivotRow r j).entries).length := by
    simp [grid, length_rows_eliminate hr]
  have hassigned : (t.eliminate i j).grid =
      { t.grid with table := (t.eliminate i j).grid.table, basis := t.basis.set i j } := by
    rw [grid, basis_eliminate hr, names_eliminate hr]
    rfl
  refine (Work.bind_on_ok (Grid.readRow_on (getElem?_pivot_table hr))).trans ?_
  refine (Work.bind_on_ok (h.check_pivot hr hj)).trans ?_
  rw [if_neg hne]
  refine (Work.bind_on_ok hdivided).trans ?_
  refine (Work.bind_on_ok (Grid.writeRow_on hi _)).trans ?_
  refine (Work.bind_on_ok (Grid.readRow_on (List.getElem?_set_self hi))).trans ?_
  refine (Work.bind_on_ok (Work.get_on _)).trans ?_
  refine (Work.bind_on_ok
    (Grid.clearRow_pass hlength fun _ _ => h.clear_overwritten hr hj)).trans ?_
  refine (Work.bind_on_ok (Work.get_on _)).trans ?_
  refine (Work.bind_on_ok (a := t.basis.set i j) (congrArg (·, _) (assign_eq_ok hbasis j))).trans ?_
  rw [Work.set_on, hassigned]

end Aligned

end Tableau

end ExactSimplex
