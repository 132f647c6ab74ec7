import ExactSimplex.Proofs.Grid
import ExactSimplex.Proofs.Phases

/-! The first table, row after row, under checks.  Two counters go along: the next column for a
slack or a surplus and the next one for an artificial variable.  The entries of a row are written
into zeros, and the first row of the wrong length ends the filling with the error that names it.
What comes out is the table of the first tableau. -/

namespace ExactSimplex

open Checked

namespace Grid

/-- The entries of a row, whose auxiliary variables stand in the columns given. -/
def startRow (cols : Nat) (c : Constraint) (slack artificial : Nat) : Except Error (List Rat) := do
  let zeros := c.coefficients ++ List.replicate (cols - c.coefficients.length) 0
  match c.relation with
  | .atMost =>
    assign (← assign zeros slack 1) (cols - 1) c.rhs
  | .atLeast =>
    assign (← assign (← assign zeros slack (-1)) artificial 1) (cols - 1) c.rhs
  | .equal =>
    assign (← assign zeros artificial 1) (cols - 1) c.rhs

/-- What is known of a first table when its rows are filled. -/
structure Filling where
  rows : List (List Rat)
  basis : List Nat
  slackNames : List String
  artificialNames : List String

/-- The rows from the number `i` on, with the next columns for their auxiliary variables. -/
def fill (n cols : Nat) : List Constraint → Nat → Nat → Nat → Except Error Filling
  | [], _, _, _ => .ok ⟨[], [], [], []⟩
  | c :: cs, i, slack, artificial =>
    if c.coefficients.length ≠ n then .error (.rowLengthAt (i + 1) c.coefficients.length n)
    else do
      let row ← startRow cols c slack artificial
      match c.relation with
      | .atMost =>
        let rest ← fill n cols cs (i + 1) (slack + 1) artificial
        return ⟨row :: rest.rows, slack :: rest.basis, s!"s{i + 1}" :: rest.slackNames,
          rest.artificialNames⟩
      | .atLeast =>
        let rest ← fill n cols cs (i + 1) (slack + 1) (artificial + 1)
        return ⟨row :: rest.rows, artificial :: rest.basis, s!"e{i + 1}" :: rest.slackNames,
          s!"a{i + 1}" :: rest.artificialNames⟩
      | .equal =>
        let rest ← fill n cols cs (i + 1) slack (artificial + 1)
        return ⟨row :: rest.rows, artificial :: rest.basis, rest.slackNames,
          s!"a{i + 1}" :: rest.artificialNames⟩

/-- A row with an artificial variable taken from the objective row. -/
def takeArtificial (first : Nat) (rows : List (List Rat)) (z : List Rat) (p : Nat × Nat) :
    Except Error (List Rat) := do
  if first ≤ p.1 then combine (fun v w => v - w) z (← item rows p.2) else return z

/-- The filled rows with the objective row below them, which asks for the least sum of the
artificial variables. -/
def complete (n slacks artificials : Nat) (filled : Filling) : Except Error Grid := do
  let cols := n + slacks + artificials + 1
  let ones := (List.range cols).map fun j => if n + slacks ≤ j ∧ j < cols - 1 then 1 else 0
  let z ← filled.basis.zipIdx.foldlM (takeArtificial (n + slacks) filled.rows) ones
  let names := (List.range n).map (fun j => s!"x{j + 1}") ++ filled.slackNames ++
    filled.artificialNames
  return ⟨filled.rows ++ [z], filled.basis, names⟩

/-- The first table of a program, and how many artificial variables there are. -/
def start (lp : LinearProgram) : Except Error (Grid × Nat) := do
  let n := lp.numVars
  let cs := lp.normalized.constraints
  let slacks := cs.countP fun c => c.relation = .atMost ∨ c.relation = .atLeast
  let artificials := cs.countP fun c => c.relation = .atLeast ∨ c.relation = .equal
  let filled ← fill n (n + slacks + artificials + 1) cs 0 n (n + slacks)
  return (← complete n slacks artificials filled, artificials)

end Grid

namespace Auxiliary

variable {cs before : List Constraint} {c : Constraint} {i n : Nat} {a : Auxiliary}

/-! ### The columns of one row -/

/-- The slack or the surplus of a row. -/
def difference? (p : Constraint × Nat) : Option Auxiliary :=
  match p.1.relation with
  | .atMost => some (slack p.2)
  | .atLeast => some (surplus p.2)
  | .equal => none

def artificial? (p : Constraint × Nat) : Option Auxiliary :=
  match p.1.relation with
  | .atMost => none
  | .atLeast | .equal => some (artificial p.2)

theorem differences_eq (cs : List Constraint) :
    differences cs = cs.zipIdx.filterMap difference? := rfl

theorem artificials_eq (cs : List Constraint) :
    artificials cs = cs.zipIdx.filterMap artificial? := rfl

theorem differences_append (before cs : List Constraint) : differences (before ++ cs) =
    differences before ++ (cs.zipIdx before.length).filterMap difference? := by
  rw [differences_eq, differences_eq, List.zipIdx_append, List.filterMap_append, Nat.zero_add]

theorem artificials_append (before cs : List Constraint) : artificials (before ++ cs) =
    artificials before ++ (cs.zipIdx before.length).filterMap artificial? := by
  rw [artificials_eq, artificials_eq, List.zipIdx_append, List.filterMap_append, Nat.zero_add]

theorem length_differences_concat (before : List Constraint) (c : Constraint) :
    (differences (before ++ [c])).length =
      (differences before).length + (difference? (c, before.length)).toList.length := by
  rw [differences_append, List.length_append, List.zipIdx_singleton]
  cases h : difference? (c, before.length) <;> simp [h]

theorem length_artificials_concat (before : List Constraint) (c : Constraint) :
    (artificials (before ++ [c])).length =
      (artificials before).length + (artificial? (c, before.length)).toList.length := by
  rw [artificials_append, List.length_append, List.zipIdx_singleton]
  cases h : artificial? (c, before.length) <;> simp [h]

/-- The slack or surplus of a row stands behind those of the rows before. -/
theorem idxOf_difference (cs : List Constraint)
    (h : difference? (c, before.length) = some a) :
    (all (before ++ c :: cs)).idxOf a = (differences before).length := by
  have hall := nodup_all (before ++ c :: cs)
  rw [all, differences_append, List.zipIdx_cons, List.filterMap_cons_some h, List.append_assoc,
    List.cons_append] at hall ⊢
  have hnot : a ∉ differences before := fun ha =>
    (List.nodup_append.mp hall).2.2 a ha a List.mem_cons_self rfl
  rw [List.idxOf_append_of_notMem hnot, List.idxOf_cons_self, Nat.add_zero]

theorem idxOf_artificial (cs : List Constraint)
    (h : artificial? (c, before.length) = some a) :
    (all (before ++ c :: cs)).idxOf a =
      (differences (before ++ c :: cs)).length + (artificials before).length := by
  have hall := nodup_all (before ++ c :: cs)
  rw [all, artificials_append, List.zipIdx_cons, List.filterMap_cons_some h,
    ← List.append_assoc] at hall ⊢
  have hnot : a ∉ differences (before ++ c :: cs) ++ artificials before := fun ha =>
    (List.nodup_append.mp hall).2.2 a ha a List.mem_cons_self rfl
  rw [List.idxOf_append_of_notMem hnot, List.idxOf_cons_self, Nat.add_zero, List.length_append]

theorem length_differences (cs : List Constraint) : (differences cs).length =
    cs.countP fun c => c.relation = .atMost ∨ c.relation = .atLeast := by
  rw [differences_eq, List.length_filterMap_eq_countP]
  conv_rhs => rw [← List.zipIdx_map_fst 0 cs, List.countP_map]
  refine List.countP_congr fun p _ => ?_
  cases h : p.1.relation <;> simp [difference?, h]

theorem length_artificials (cs : List Constraint) : (artificials cs).length =
    cs.countP fun c => c.relation = .atLeast ∨ c.relation = .equal := by
  rw [artificials_eq, List.length_filterMap_eq_countP]
  conv_rhs => rw [← List.zipIdx_map_fst 0 cs, List.countP_map]
  refine List.countP_congr fun p _ => ?_
  cases h : p.1.relation <;> simp [artificial?, h]

/-- To change what is made of one item changes one place. -/
theorem map_ite_eq_set {columns : List Auxiliary} (hd : columns.Nodup)
    (f : Auxiliary → Rat) (v : Rat) :
    (columns.map fun b => if b = a then v else f b) =
      (columns.map f).set (columns.idxOf a) v := by
  refine List.ext_getElem (by simp) fun k hk hk' => ?_
  have hlt : k < columns.length := by simpa using hk
  have hplace : columns[k] = a ↔ columns.idxOf a = k := by
    constructor
    · rintro rfl
      exact hd.idxOf_getElem k hlt
    · rintro rfl
      exact List.getElem_idxOf hlt
  rw [List.getElem_map, List.getElem_set, List.getElem_map]
  simp only [hplace]

end Auxiliary

namespace Tableau

variable {cs before rest : List Constraint} {c : Constraint} {i n slack artificial : Nat}

/-! ### One row -/

variable {coefficients zeros : List Rat} {count k : Nat}

/-- An entry written behind the coefficients and before the right-hand side. -/
theorem assign_before (h : zeros.length = count) (hk : k < count) (x v : Rat) :
    assign (coefficients ++ (zeros ++ [x])) (coefficients.length + k) v =
      .ok (coefficients ++ (zeros.set k v ++ [x])) := by
  rw [assign_eq_ok (by simp; omega), List.set_append_right _ _ (Nat.le_add_right _ _),
    Nat.add_sub_cancel_left, List.set_append_left _ _ (h ▸ hk)]

theorem assign_rhs (h : zeros.length = count) (x v : Rat) :
    assign (coefficients ++ (zeros ++ [x])) (coefficients.length + count + 1 - 1) v =
      .ok (coefficients ++ (zeros ++ [v])) := by
  rw [Nat.add_sub_cancel, ← h, assign_eq_ok (by simp),
    List.set_append_right _ _ (Nat.le_add_right _ _), Nat.add_sub_cancel_left,
    List.set_append_right _ _ le_rfl, Nat.sub_self, List.set_cons_zero]

theorem zeros_eq (coefficients : List Rat) (count : Nat) :
    coefficients ++ List.replicate (coefficients.length + count + 1 - coefficients.length) 0 =
      coefficients ++ (List.replicate count (0 : Rat) ++ [0]) := by
  rw [← List.replicate_succ', Nat.add_assoc, Nat.add_sub_cancel_left]

theorem entries_initialRow (columns : List Auxiliary) (c : Constraint) (i : Nat) :
    (initialRow columns c i).entries =
      c.coefficients ++ (columns.map (·.coefficient i) ++ [c.rhs]) := by
  rw [Row.entries, initialRow, List.append_assoc]

/-- One entry written into the zeros makes the row of a constraint with one auxiliary variable. -/
theorem write_entry {a : Auxiliary} {v : Rat} (ha : a ∈ Auxiliary.all cs)
    (hcoefficient : ∀ b ∈ Auxiliary.all cs, b.coefficient i = if b = a then v else 0) :
    (assign (c.coefficients ++ (List.replicate (Auxiliary.all cs).length 0 ++ [0]))
      (c.coefficients.length + (Auxiliary.all cs).idxOf a) v >>= fun row =>
        assign row (c.coefficients.length + (Auxiliary.all cs).length + 1 - 1) c.rhs) =
      .ok (initialRow (Auxiliary.all cs) c i).entries := by
  have hcolumns : (Auxiliary.all cs).map (·.coefficient i) =
      (List.replicate (Auxiliary.all cs).length 0).set ((Auxiliary.all cs).idxOf a) v := by
    rw [← List.map_const', ← Auxiliary.map_ite_eq_set (Auxiliary.nodup_all cs)]
    exact List.map_congr_left hcoefficient
  rw [assign_before List.length_replicate (List.idxOf_lt_length_of_mem ha), ok_bind,
    entries_initialRow, hcolumns]
  exact assign_rhs (by rw [List.length_set, List.length_replicate]) 0 c.rhs

section StartRow

variable (hc : cs[i]? = some c)
include hc

theorem startRow_atMost (hrel : c.relation = .atMost)
    (hslack : slack = c.coefficients.length + (Auxiliary.all cs).idxOf (.slack i)) :
    Grid.startRow (c.coefficients.length + (Auxiliary.all cs).length + 1) c slack artificial =
      .ok (initialRow (Auxiliary.all cs) c i).entries := by
  rw [Grid.startRow, hrel, zeros_eq, hslack]
  exact write_entry ((Auxiliary.slack_mem_all_iff hc).mpr hrel) fun b hb =>
    Auxiliary.coefficient_atMost hc hb hrel

theorem startRow_equal (hrel : c.relation = .equal)
    (hart : artificial = c.coefficients.length + (Auxiliary.all cs).idxOf (.artificial i)) :
    Grid.startRow (c.coefficients.length + (Auxiliary.all cs).length + 1) c slack artificial =
      .ok (initialRow (Auxiliary.all cs) c i).entries := by
  have hmem := (Auxiliary.artificial_mem_all_iff hc).mpr (by rw [hrel]; decide)
  rw [Grid.startRow, hrel, zeros_eq, hart]
  exact write_entry hmem fun b hb => Auxiliary.coefficient_equal hc hb hrel

theorem startRow_atLeast (hrel : c.relation = .atLeast)
    (hslack : slack = c.coefficients.length + (Auxiliary.all cs).idxOf (.surplus i))
    (hart : artificial = c.coefficients.length + (Auxiliary.all cs).idxOf (.artificial i)) :
    Grid.startRow (c.coefficients.length + (Auxiliary.all cs).length + 1) c slack artificial =
      .ok (initialRow (Auxiliary.all cs) c i).entries := by
  have hmem := (Auxiliary.artificial_mem_all_iff hc).mpr (by rw [hrel]; decide)
  have hlt := List.idxOf_lt_length_of_mem hmem
  have hsurplus := List.idxOf_lt_length_of_mem ((Auxiliary.surplus_mem_all_iff hc).mpr hrel)
  have hcolumns : (Auxiliary.all cs).map (·.coefficient i) =
      ((List.replicate (Auxiliary.all cs).length 0).set
        ((Auxiliary.all cs).idxOf (.surplus i)) (-1)).set
          ((Auxiliary.all cs).idxOf (.artificial i)) 1 := by
    rw [← List.map_const', ← Auxiliary.map_ite_eq_set (Auxiliary.nodup_all cs),
      ← Auxiliary.map_ite_eq_set (Auxiliary.nodup_all cs)]
    exact List.map_congr_left fun a ha => Auxiliary.coefficient_atLeast hc ha hrel
  rw [Grid.startRow, hrel, entries_initialRow, zeros_eq, hslack, hart, hcolumns]
  show (assign _ _ _ >>= fun row => assign row _ _ >>= fun row => assign row _ _) = _
  rw [assign_before List.length_replicate hsurplus, ok_bind,
    assign_before (by rw [List.length_set, List.length_replicate]) hlt, ok_bind]
  exact assign_rhs (by rw [List.length_set, List.length_set, List.length_replicate]) 0 c.rhs

end StartRow

/-! ### All rows -/

/-- What the filling gives for the rows from the number `i` on. -/
def filling (n : Nat) (cs : List Constraint) (ps : List (Constraint × Nat)) : Grid.Filling :=
  ⟨ps.map fun p => (initialRow (Auxiliary.all cs) p.1 p.2).entries,
    ps.map fun p => n + (Auxiliary.all cs).idxOf (Auxiliary.basic p.1 p.2),
    (ps.filterMap Auxiliary.difference?).map Auxiliary.name,
    (ps.filterMap Auxiliary.artificial?).map Auxiliary.name⟩

/-- The error for the first of the rows that has not `n` coefficients, or what is filled in. -/
def fillResult (n : Nat) (cs : List Constraint) (ps : List (Constraint × Nat)) :
    Except Error Grid.Filling :=
  match ps.find? fun p => p.1.coefficients.length ≠ n with
  | some p => .error (.rowLengthAt (p.2 + 1) p.1.coefficients.length n)
  | none => .ok (filling n cs ps)

theorem fillResult_zipIdx (n : Nat) (cs : List Constraint) : fillResult n cs cs.zipIdx =
    (checkLengths n cs).map fun _ => filling n cs cs.zipIdx := by
  rw [fillResult, checkLengths]
  cases cs.zipIdx.find? fun p => p.1.coefficients.length ≠ n <;> rfl

theorem fillResult_cons (hc : c.coefficients.length = n) (i : Nat)
    (ps : List (Constraint × Nat)) : fillResult n cs ((c, i) :: ps) =
      fillResult n cs ps >>= fun rest => .ok
        ⟨(initialRow (Auxiliary.all cs) c i).entries :: rest.rows,
          (n + (Auxiliary.all cs).idxOf (Auxiliary.basic c i)) :: rest.basis,
          ((Auxiliary.difference? (c, i)).map Auxiliary.name).toList ++ rest.slackNames,
          ((Auxiliary.artificial? (c, i)).map Auxiliary.name).toList ++ rest.artificialNames⟩ := by
  rw [fillResult, List.find?_cons_of_neg (by simpa using hc), fillResult]
  cases ps.find? fun p => p.1.coefficients.length ≠ n with
  | some q => rfl
  | none =>
    rw [ok_bind]
    cases hd : Auxiliary.difference? (c, i) <;> cases ha : Auxiliary.artificial? (c, i) <;>
      simp [filling, hd, ha]

/-- The counters stand behind the auxiliary variables of the rows before. -/
theorem fill_eq (n : Nat) (before rest : List Constraint) (h : before ++ rest = cs) :
    Grid.fill n (n + (Auxiliary.all cs).length + 1) rest before.length
      (n + (Auxiliary.differences before).length)
      (n + ((Auxiliary.differences cs).length + (Auxiliary.artificials before).length)) =
        fillResult n cs (rest.zipIdx before.length) := by
  induction rest generalizing before with
  | nil => rfl
  | cons c rest ih =>
    have hc : cs[before.length]? = some c := by
      rw [← h, List.getElem?_append_right le_rfl, Nat.sub_self, List.getElem?_cons_zero]
    rw [Grid.fill, List.zipIdx_cons]
    by_cases hlength : c.coefficients.length = n
    · subst hlength
      have hnext := ih (before ++ [c]) (by rw [List.append_assoc]; exact h)
      rw [List.length_append, List.length_singleton, Auxiliary.length_differences_concat,
        Auxiliary.length_artificials_concat] at hnext
      rw [if_neg (not_not.mpr rfl), fillResult_cons rfl, ← hnext]
      cases hrel : c.relation with
      | atMost =>
        have hdif : Auxiliary.difference? (c, before.length) = some (.slack before.length) := by
          rw [Auxiliary.difference?, hrel]
        have hart : Auxiliary.artificial? (c, before.length) = none := by
          rw [Auxiliary.artificial?, hrel]
        have hslack := Auxiliary.idxOf_difference rest hdif
        rw [h] at hslack
        rw [startRow_atMost hc hrel (by rw [hslack]), ok_bind, hdif, hart, Auxiliary.basic,
          if_pos hrel, hslack]
        rfl
      | atLeast =>
        have hdif : Auxiliary.difference? (c, before.length) = some (.surplus before.length) := by
          rw [Auxiliary.difference?, hrel]
        have hart : Auxiliary.artificial? (c, before.length) =
            some (.artificial before.length) := by
          rw [Auxiliary.artificial?, hrel]
        have hsurplus := Auxiliary.idxOf_difference rest hdif
        have hartificial := Auxiliary.idxOf_artificial rest hart
        rw [h] at hsurplus hartificial
        rw [startRow_atLeast hc hrel (by rw [hsurplus]) (by rw [hartificial]), ok_bind, hdif, hart,
          Auxiliary.basic, if_neg (by rw [hrel]; decide), hartificial]
        rfl
      | equal =>
        have hdif : Auxiliary.difference? (c, before.length) = none := by
          rw [Auxiliary.difference?, hrel]
        have hart : Auxiliary.artificial? (c, before.length) =
            some (.artificial before.length) := by
          rw [Auxiliary.artificial?, hrel]
        have hartificial := Auxiliary.idxOf_artificial rest hart
        rw [h] at hartificial
        rw [startRow_equal hc hrel (by rw [hartificial]), ok_bind, hdif, hart, Auxiliary.basic,
          if_neg (by rw [hrel]; decide), hartificial]
        rfl
    · rw [if_pos hlength, fillResult, List.find?_cons_of_pos (by simpa using hlength)]

/-! ### The objective row -/

theorem ones_eq (first count : Nat) : ((List.range (first + count + 1)).map fun j =>
    if first ≤ j ∧ j < first + count + 1 - 1 then (1 : Rat) else 0) =
      (artificialRow first count).entries := by
  refine List.ext_getElem (by simp [artificialRow, Row.entries, Nat.add_assoc]) fun k hk hk' => ?_
  have hlt : k < first + count + 1 := by simpa using hk
  rw [List.getElem_map, List.getElem_range]
  by_cases hlast : k < first + count
  · have hentry := entry_artificialRow (j := k) hlast
    rw [Row.entry, List.getD, List.getElem?_eq_getElem hk', Option.getD_some] at hentry
    rw [hentry]
    simp only [Nat.add_sub_cancel, hlast, and_true]
  · have hk : k = (artificialRow first count).coefficients.length := by
      rw [length_artificialRow]
      omega
    subst hk
    simp [Row.entries, artificialRow]

theorem takeArtificial_loop (hcs : ∀ c ∈ cs, c.coefficients.length = n) :
    (ofConstraints n cs).basis.zipIdx.foldlM
      (Grid.takeArtificial (n + (Auxiliary.differences cs).length)
        ((ofConstraints n cs).rows.map Row.entries))
      (artificialRow (n + (Auxiliary.differences cs).length)
        (Auxiliary.artificials cs).length).entries =
      .ok (ofConstraints n cs).objective.entries := by
  have hlengths : (ofConstraints n cs).basis.length = (ofConstraints n cs).rows.length :=
    (unitBasis_ofConstraints hcs).length_basis
  have hloop := foldlM_eq_ok
    (fun z : Row => z.coefficients.length = n + (Auxiliary.all cs).length) Row.entries
    (l := (ofConstraints n cs).basis.zipIdx)
    (f := Grid.takeArtificial (n + (Auxiliary.differences cs).length)
      ((ofConstraints n cs).rows.map Row.entries))
    (g := fun z p => if n + (Auxiliary.differences cs).length ≤ p.1 then
      z.addMultiple (-1) ((ofConstraints n cs).rows.getD p.2 ⟨[], 0⟩) else z)
    (fun z hz p hp => by
      have hlt : p.2 < (ofConstraints n cs).rows.length :=
        hlengths ▸ List.snd_lt_of_mem_zipIdx hp
      rw [Grid.takeArtificial, List.getD, List.getElem?_eq_getElem hlt, Option.getD_some]
      by_cases hfirst : n + (Auxiliary.differences cs).length ≤ p.1
      · have hwidth : z.coefficients.length =
            (ofConstraints n cs).rows[p.2].coefficients.length :=
          hz.trans (length_of_mem_rows_ofConstraints hcs _ (List.getElem_mem hlt)).symm
        have hitem : item ((ofConstraints n cs).rows.map Row.entries) p.2 =
            .ok (ofConstraints n cs).rows[p.2].entries := by
          refine item_eq_ok ?_
          rw [List.getElem?_map, List.getElem?_eq_getElem hlt]
          rfl
        have hless (v w : Rat) : v - w = v + -1 * w := by ring
        rw [if_pos hfirst, if_pos hfirst, hitem, ok_bind, Row.combine_entries hless hwidth]
        exact ⟨rfl, (Row.length_addMultiple hwidth.symm _).trans hz⟩
      · rw [if_neg hfirst, if_neg hfirst]
        exact ⟨rfl, hz⟩)
    (s := artificialRow (n + (Auxiliary.differences cs).length) (Auxiliary.artificials cs).length)
    (by rw [length_artificialRow, length_all, Nat.add_assoc])
  rw [hloop]
  have hobjective : (ofConstraints n cs).objective = artificialObjective
      (n + (Auxiliary.differences cs).length) (Auxiliary.artificials cs).length
      (ofConstraints n cs).basis (ofConstraints n cs).rows := rfl
  rw [hobjective, artificialObjective, ← zipIdx_map_getD hlengths ⟨[], 0⟩, List.foldl_map]
  rfl

theorem complete_filling (hcs : ∀ c ∈ cs, c.coefficients.length = n) :
    Grid.complete n (Auxiliary.differences cs).length (Auxiliary.artificials cs).length
      (filling n cs cs.zipIdx) = .ok (ofConstraints n cs).grid := by
  have hrows : (filling n cs cs.zipIdx).rows = (ofConstraints n cs).rows.map Row.entries := by
    show _ = (cs.mapIdx fun i c => initialRow (Auxiliary.all cs) c i).map Row.entries
    rw [List.mapIdx_eq_zipIdx_map, List.map_map]
    rfl
  have hbasis : (filling n cs cs.zipIdx).basis = (ofConstraints n cs).basis := by
    show _ = cs.mapIdx _
    rw [List.mapIdx_eq_zipIdx_map]
    rfl
  rw [Grid.complete, hrows, hbasis]
  simp only [ones_eq, takeArtificial_loop hcs, ok_bind]
  rw [grid, List.map_append, ofConstraints, Auxiliary.all, List.map_append, ← List.append_assoc]
  rfl

end Tableau

namespace LinearProgram

/-- The first table is that of the first tableau, or the same error. -/
theorem start_grid (lp : LinearProgram) :
    Grid.start lp = lp.initialTableau.map fun t => (t.grid, lp.artificialCount) := by
  have hfill := Tableau.fill_eq lp.numVars [] lp.normalized.constraints (List.nil_append _)
  rw [Tableau.length_all, ← Nat.add_assoc, ← Nat.add_assoc] at hfill
  rw [List.length_nil, Tableau.fillResult_zipIdx] at hfill
  have hstart : Grid.start lp =
      ((Tableau.checkLengths lp.numVars lp.normalized.constraints).map fun _ =>
        Tableau.filling lp.numVars lp.normalized.constraints lp.normalized.constraints.zipIdx) >>=
        fun filled => do
          return (← Grid.complete lp.numVars
            (Auxiliary.differences lp.normalized.constraints).length
            lp.artificialCount filled, lp.artificialCount) := by
    rw [Grid.start, ← Auxiliary.length_differences, ← Auxiliary.length_artificials]
    exact congrArg (· >>= _) hfill
  rw [hstart, initialTableau]
  cases hcheck : Tableau.checkLengths lp.numVars lp.normalized.constraints with
  | error e => rfl
  | ok =>
    show (Grid.complete _ _ _ _ >>= fun g => pure (g, lp.artificialCount)) = _
    rw [artificialCount, Tableau.complete_filling (checkLengths_eq_ok_iff.mp hcheck)]
    rfl

end LinearProgram

end ExactSimplex
