import ExactSimplex.Proofs.Reached

/-! A tableau is a function of its basis.  Two tableaux in canonical form with the same basis and
the same solutions have equal rows: the rows of the one hold at the basic point of the other, and
along its directions, where they only read off their own basic column.  If their objective rows
measure the same, these are equal as well. -/

namespace ExactSimplex

/-- Rows with the same entries are equal. -/
theorem Row.ext_of_entry {r q : Row} (hlength : r.coefficients.length = q.coefficients.length)
    (hentry : ∀ j < r.coefficients.length, r.entry j = q.entry j) (hrhs : r.rhs = q.rhs) :
    r = q := by
  have hcoefficients : r.coefficients = q.coefficients := by
    refine List.ext_getElem hlength fun j hr hq => ?_
    have h := hentry j hr
    rw [Row.entry_of_lt hr, Row.entry_of_lt hq] at h
    rwa [List.getD_eq_getElem _ _ hr, List.getD_eq_getElem _ _ hq] at h
  cases r
  cases q
  exact congrArg₂ Row.mk hcoefficients hrhs

namespace Tableau

variable {t u : Tableau} {r q : Row} {k : Nat}

/-- A row reads off its own basic column in another tableau with the same basis. -/
theorem UnitBasis.lhs_readOff_of_basis_eq (hu : u.UnitBasis) (ht : t.UnitBasis)
    (hb : t.basis = u.basis) (hr : t.rows[k]? = some r) (hq : u.rows[k]? = some q)
    (f : Row → Rat) : q.lhs (t.readOff f) = f r := by
  obtain ⟨b, hbasic⟩ := ht.exists_basic hr
  have hzero : ∀ j ∉ u.basis, t.readOff f j = 0 := fun j hj =>
    ht.readOff_of_not_basic f (hb ▸ hj)
  rw [hu.lhs_of_basic hzero (hb ▸ hbasic) hq, ht.readOff_of_basic f hbasic hr]

section SameBasis

variable (ht : t.Canonical) (hu : u.Canonical) (hw : t.width = u.width)
  (hs : ∀ x, t.Solves x → u.Solves x) (hb : t.basis = u.basis)
include ht hu hw hs hb

theorem Canonical.row_eq_of_basis_eq (hr : t.rows[k]? = some r) (hq : u.rows[k]? = some q) :
    r = q := by
  have hmem := List.mem_of_getElem? hq
  have hlength : r.coefficients.length = t.width := ht.length_row r (List.mem_of_getElem? hr)
  have hpoint := hs _ ht.solves_valueOf q hmem
  refine Row.ext_of_entry (hlength.trans (hw.trans (hu.length_row q hmem).symm)) (fun j hj => ?_) ?_
  · -- the row does not change along the direction of column `j`
    rw [hlength] at hj
    have hray := hs _ (ht.solves_ray hj 1) q hmem
    rw [Row.residual_add_mul, hpoint, one_mul, zero_add,
      lhs_direction t (by rwa [hu.length_row q hmem, ← hw]),
      hu.lhs_readOff_of_basis_eq ht.toUnitBasis hb hr hq] at hray
    exact (sub_eq_zero.mp hray).symm
  · rw [valueOf_eq_readOff, Row.residual,
      hu.lhs_readOff_of_basis_eq ht.toUnitBasis hb hr hq] at hpoint
    exact sub_eq_zero.mp hpoint

theorem Canonical.rows_eq_of_basis_eq : t.rows = u.rows := by
  have hlength : t.rows.length = u.rows.length := by
    rw [← ht.length_basis, hb, hu.length_basis]
  exact List.ext_getElem hlength fun k hk hk' =>
    ht.row_eq_of_basis_eq hu hw hs hb (List.getElem?_eq_getElem hk) (List.getElem?_eq_getElem hk')

theorem Canonical.objective_eq_of_basis_eq {g : (Nat → Rat) → Rat} (hgt : t.Measures g)
    (hgu : u.Measures g) : t.objective = u.objective := by
  have hread : t.readOff = u.readOff := by
    funext f j
    rw [readOff, readOff, hb, ht.rows_eq_of_basis_eq hu hw hs hb]
  have hvalueOf : t.valueOf = u.valueOf := by rw [valueOf_eq_readOff, hread, valueOf_eq_readOff]
  have hvalue : t.value = u.value := by rw [ht.value_eq hgt, hu.value_eq hgu, hvalueOf]
  refine Row.ext_of_entry hw (fun j hj => ?_) hvalue
  have hdirection : t.direction j = u.direction j := by
    funext c
    rw [direction, direction, hread]
  have hray := ht.measure_ray hgt hj 1
  rw [hvalueOf, hdirection, hu.measure_ray hgu (hw ▸ hj) 1, hvalue] at hray
  linarith

end SameBasis

/-- Within a phase the basis determines all rows, the objective row included. -/
theorem InPhase.eq_of_basis_eq {lp : LinearProgram} {phase : Phase} {full full' : Tableau}
    (ht : InPhase lp phase full t) (hu : InPhase lp phase full' u) (hb : t.basis = u.basis) :
    t.rows = u.rows ∧ t.objective = u.objective := by
  have hw : full.width = full'.width := ht.represents.width_eq.trans hu.represents.width_eq.symm
  have hs (x : Nat → Rat) (hx : full.Solves x) : full'.Solves x :=
    (hu.represents.solves_iff x).mpr ((ht.represents.solves_iff x).mp hx)
  have hbasis : full.basis = full'.basis := by rw [← ht.basis_eq, hb, hu.basis_eq]
  have hrows := ht.represents.rows_eq_of_basis_eq hu.represents.toCanonical hw hs hbasis
  have hobjective := ht.represents.objective_eq_of_basis_eq hu.represents.toCanonical hw hs hbasis
    ht.measures hu.measures
  rw [ht.eq_truncate, hu.eq_truncate, truncate, truncate, hrows, hobjective]
  exact ⟨rfl, rfl⟩

end Tableau

end ExactSimplex
