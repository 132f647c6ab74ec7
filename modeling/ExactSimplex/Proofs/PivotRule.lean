import ExactSimplex.Proofs.Exchange
import ExactSimplex.Proofs.Rescaled

/-! The pivot rule.  The first column with the least entry of the objective row enters, if that
entry is negative; of the rows with a positive entry in the entering column, the first one with the
least ratio leaves.  Both choices are made by one pass that fails on no rectangular tableau, and a
positive factor of a row changes neither. -/

namespace ExactSimplex

/-- The first of the indices that `p` admits at which `f` is least. -/
structure FirstLeast (p : Nat → Prop) (f : Nat → Rat) (i : Nat) : Prop where
  admitted : p i
  least : ∀ k, p k → f i ≤ f k
  first : ∀ k, p k → f k = f i → i ≤ k

theorem FirstLeast.unique {p : Nat → Prop} {f : Nat → Rat} {i j : Nat} (hi : FirstLeast p f i)
    (hj : FirstLeast p f j) : i = j := by
  have heq : f i = f j := le_antisymm (hi.least j hj.admitted) (hj.least i hi.admitted)
  exact le_antisymm (hi.first j hj.admitted heq.symm) (hj.first i hi.admitted heq)

theorem FirstLeast.congr {p q : Nat → Prop} {f g : Nat → Rat} (hp : ∀ k, p k ↔ q k)
    (hf : ∀ k, p k → f k = g k) (i : Nat) : FirstLeast p f i ↔ FirstLeast q g i := by
  obtain rfl : p = q := funext fun k => propext (hp k)
  constructor
  · rintro ⟨hi, hleast, hfirst⟩
    refine ⟨hi, fun k hk => ?_, fun k hk heq => hfirst k hk ?_⟩
    · rw [← hf i hi, ← hf k hk]
      exact hleast k hk
    · rw [hf i hi, hf k hk, heq]
  · rintro ⟨hi, hleast, hfirst⟩
    refine ⟨hi, fun k hk => ?_, fun k hk heq => hfirst k hk ?_⟩
    · rw [hf i hi, hf k hk]
      exact hleast k hk
    · rw [← hf i hi, ← hf k hk, heq]

namespace Tableau

/-! ### The first of the least in a list -/

/-- Where indices grow along a list, an earlier place has a smaller index. -/
theorem le_of_idxOf_le {α : Type} [DecidableEq α] {index : α → Nat} {l : List α}
    (hl : l.Pairwise fun a b => index a < index b) {a b : α} (ha : a ∈ l) (hb : b ∈ l)
    (hle : l.idxOf a ≤ l.idxOf b) : index a ≤ index b := by
  have hlta := List.idxOf_lt_length_of_mem ha
  have hltb := List.idxOf_lt_length_of_mem hb
  rcases hle.lt_or_eq with hlt | heq
  · have hpair := List.pairwise_iff_getElem.mp hl _ _ hlta hltb hlt
    rw [List.getElem_idxOf hlta, List.getElem_idxOf hltb] at hpair
    exact hpair.le
  · rw [(List.idxOf_inj ha).mp heq]

/-- What `firstLeast` takes from a list in which an index comes with its value. -/
theorem firstLeast_of_eq_some {l : List (Nat × Rat)} (hl : l.Pairwise fun a b => a.1 < b.1)
    {p : Nat → Prop} {f : Nat → Rat} (hmem : ∀ k v, (k, v) ∈ l ↔ p k ∧ v = f k) {i : Nat}
    (h : firstLeast l = some i) : FirstLeast p f i := by
  rw [firstLeast_eq_argmin, Option.map_eq_some_iff] at h
  obtain ⟨⟨k, v⟩, hmin, rfl⟩ := h
  obtain ⟨hin, hleast, hfirst⟩ := List.mem_argmin_iff.mp hmin
  obtain ⟨hk, rfl⟩ := (hmem k v).mp hin
  refine ⟨hk, fun j hj => hleast (j, f j) ((hmem j _).mpr ⟨hj, rfl⟩), fun j hj heq => ?_⟩
  have hj := (hmem j (f j)).mpr ⟨hj, rfl⟩
  exact le_of_idxOf_le hl hin hj (hfirst _ hj heq.le)

theorem firstLeast_eq_some_iff {l : List (Nat × Rat)} (hl : l.Pairwise fun a b => a.1 < b.1)
    {p : Nat → Prop} {f : Nat → Rat} (hmem : ∀ k v, (k, v) ∈ l ↔ p k ∧ v = f k) {i : Nat} :
    firstLeast l = some i ↔ FirstLeast p f i := by
  refine ⟨firstLeast_of_eq_some hl hmem, fun h => ?_⟩
  cases hchoice : firstLeast l with
  | none =>
    have hin := (hmem i (f i)).mpr ⟨h.admitted, rfl⟩
    rw [firstLeast_eq_none_iff.mp hchoice] at hin
    cases hin
  | some j => rw [h.unique (firstLeast_of_eq_some hl hmem hchoice)]

/-! ### The two choices -/

variable {t : Tableau} {i j : Nat} {k : Rat}

theorem pairwise_improving (t : Tableau) : t.improving.Pairwise fun a b => a.1 < b.1 := by
  rw [improving_eq]
  have hcolumns : ((List.range t.width).map fun j => (j, t.objective.entry j)).Pairwise
      fun a b => a.1 < b.1 := List.pairwise_map.mpr List.pairwise_lt_range
  exact hcolumns.filter _

theorem pairwise_ratios (t : Tableau) (j : Nat) : (t.ratios j).Pairwise fun a b => a.1 < b.1 := by
  have hplaces : t.rows.zipIdx.Pairwise fun a b => a.2 < b.2 := by
    refine List.pairwise_iff_getElem.mpr fun a b ha hb hab => ?_
    simpa only [List.getElem_zipIdx, Nat.zero_add] using hab
  refine hplaces.filterMap _ ?_
  rintro ⟨r, a⟩ ⟨q, b⟩ hab x hx y hy
  simp only [Option.ite_none_right_eq_some, Option.some_inj] at hx hy
  obtain ⟨-, rfl⟩ := hx
  obtain ⟨-, rfl⟩ := hy
  exact hab

theorem entering_eq_some_iff : t.entering = some j ↔
    FirstLeast (· < t.width) t.objective.entry j ∧ t.objective.entry j < 0 := by
  have hmem (k : Nat) (v : Rat) : (k, v) ∈ t.improving ↔
      (k < t.width ∧ t.objective.entry k < 0) ∧ v = t.objective.entry k := by
    rw [mem_improving]
    constructor
    · rintro ⟨hk, rfl, hneg⟩
      exact ⟨⟨hk, hneg⟩, rfl⟩
    · rintro ⟨⟨hk, hneg⟩, rfl⟩
      exact ⟨hk, rfl, hneg⟩
  rw [entering, firstLeast_eq_some_iff t.pairwise_improving hmem]
  constructor
  · rintro ⟨⟨hj, hneg⟩, hleast, hfirst⟩
    refine ⟨⟨hj, fun k hk => ?_, fun k hk heq => hfirst k ⟨hk, heq ▸ hneg⟩ heq⟩, hneg⟩
    by_cases hk' : t.objective.entry k < 0
    · exact hleast k ⟨hk, hk'⟩
    · exact hneg.le.trans (not_lt.mp hk')
  · rintro ⟨⟨hj, hleast, hfirst⟩, hneg⟩
    exact ⟨⟨hj, hneg⟩, fun k hk => hleast k hk.1, fun k hk => hfirst k hk.1⟩

/-- The rows that may leave for column `j`. -/
def Admits (t : Tableau) (j i : Nat) : Prop := i < t.rows.length ∧ 0 < t.entry i j

/-- The right-hand side of row `i` over its entry in column `j`. -/
def ratio (t : Tableau) (j i : Nat) : Rat := t.entry i t.width / t.entry i j

section Level

variable (h : ∀ r ∈ t.rows, r.coefficients.length = t.width)
include h

theorem entry_width {r : Row} (hr : t.rows[i]? = some r) : t.entry i t.width = r.rhs := by
  rw [entry_eq hr, Row.entry, Row.entries, ← h r (List.mem_of_getElem? hr)]
  simp [List.getD]

theorem leaving_eq_some_iff :
    t.leaving j = some i ↔ FirstLeast (t.Admits j) (t.ratio j) i := by
  refine firstLeast_eq_some_iff (t.pairwise_ratios j) fun a v => ?_
  rw [mem_ratios, Admits]
  constructor
  · rintro ⟨r, hr, hpos, rfl⟩
    rw [ratio, entry_width h hr, entry_eq hr]
    exact ⟨⟨(List.getElem?_eq_some_iff.mp hr).1, hpos⟩, rfl⟩
  · rintro ⟨⟨hlt, hpos⟩, rfl⟩
    have hr := List.getElem?_eq_getElem hlt
    rw [entry_eq hr] at hpos
    rw [ratio, entry_width h hr, entry_eq hr]
    exact ⟨_, hr, hpos, rfl⟩

end Level

/-! ### Rows multiplied by a positive number -/

/-- The tableau with row `i` multiplied by `k`, the right-hand side included. -/
def rowScaled (i : Nat) (k : Rat) (t : Tableau) : Tableau :=
  { t with rows := t.rows.modify i (Row.scaled k) }

theorem entry_rowScaled (t : Tableau) (i a j : Nat) (k : Rat) :
    (t.rowScaled i k).entry a j = (if i = a then k else 1) * t.entry a j := by
  rw [entry, rowScaled, List.getElem?_modify, entry]
  cases t.rows[a]? with
  | none => exact (mul_zero _).symm
  | some r =>
    by_cases ha : i = a
    · simp [ha, Row.entry_scaled]
    · simp [ha]

theorem length_rowScaled (h : ∀ r ∈ t.rows, r.coefficients.length = t.width) (i : Nat) (k : Rat) :
    ∀ r ∈ (t.rowScaled i k).rows, r.coefficients.length = (t.rowScaled i k).width := by
  intro r hr
  obtain ⟨a, ha⟩ := List.mem_iff_getElem?.mp hr
  rw [rowScaled, List.getElem?_modify] at ha
  obtain ⟨q, hq, rfl⟩ := Option.map_eq_some_iff.mp ha
  have hlength := h q (List.mem_of_getElem? hq)
  split
  · rwa [Row.scaled, List.length_map]
  · exact hlength

theorem leaving_rowScaled (h : ∀ r ∈ t.rows, r.coefficients.length = t.width) (hk : 0 < k)
    (i j : Nat) : (t.rowScaled i k).leaving j = t.leaving j := by
  have hfactor (a : Nat) : 0 < if i = a then k else 1 := by
    split
    · exact hk
    · exact one_pos
  have hadmits (a : Nat) : (t.rowScaled i k).Admits j a ↔ t.Admits j a := by
    rw [Admits, Admits, entry_rowScaled, mul_pos_iff_of_pos_left (hfactor a), rowScaled,
      List.length_modify]
  have hratio (a : Nat) : (t.rowScaled i k).ratio j a = t.ratio j a := by
    rw [ratio, ratio, entry_rowScaled, entry_rowScaled]
    exact mul_div_mul_left _ _ (hfactor a).ne'
  refine Option.ext fun a => ?_
  rw [leaving_eq_some_iff h, leaving_eq_some_iff (length_rowScaled h i k)]
  exact FirstLeast.congr hadmits (fun a _ => hratio a) a

/-! ### The rule -/

/-- The rule that picks the entering column and, for any column, the leaving row. -/
structure FollowsRule (t : Tableau) : Prop where
  /-- The pass from left to right, which looks up every entry under a check, ends without an
  error. -/
  entering_grid : t.grid.entering = .ok t.entering
  entering_iff : ∀ j, t.entering = some j ↔
    FirstLeast (· < t.width) t.objective.entry j ∧ t.objective.entry j < 0
  entering_none_iff : t.entering = none ↔ ∀ j < t.width, 0 ≤ t.objective.entry j
  /-- The pass from top to bottom; column `t.width` is the right-hand side. -/
  leaving_grid : ∀ j ≤ t.width, t.grid.leaving j = .ok (t.leaving j)
  leaving_iff : ∀ j ≤ t.width, ∀ i, t.leaving j = some i ↔ FirstLeast (t.Admits j) (t.ratio j) i
  leaving_none_iff : ∀ j ≤ t.width, t.leaving j = none ↔ ∀ i < t.rows.length, t.entry i j ≤ 0

theorem followsRule (h : ∀ r ∈ t.rows, r.coefficients.length = t.width) : t.FollowsRule where
  entering_grid := entering_grid h
  entering_iff _ := entering_eq_some_iff
  entering_none_iff := entering_eq_none_iff
  leaving_grid _ hj := leaving_grid h hj
  leaving_iff _ _ _ := leaving_eq_some_iff h
  leaving_none_iff j _ := by
    rw [leaving_eq_none_iff]
    constructor
    · intro hrows i hi
      rw [entry_eq (List.getElem?_eq_getElem hi)]
      exact hrows _ (List.getElem_mem hi)
    · intro hentries r hr
      obtain ⟨i, hi⟩ := List.mem_iff_getElem?.mp hr
      rw [← entry_eq hi]
      exact hentries i (List.getElem?_eq_some_iff.mp hi).1

/-- Every rectangular tableau follows the rule, whatever its basis.  The choices stay as they are
when the objective row or another row is multiplied by a positive number. -/
theorem choices_follow_rule (h : ∀ r ∈ t.rows, r.coefficients.length = t.width) :
    t.FollowsRule ∧ ∀ k : Rat, 0 < k →
      ((t.scaled k).entering = t.entering ∧
        ∀ j ≤ t.width, (t.scaled k).leaving j = t.leaving j) ∧
      ∀ i < t.rows.length, (t.rowScaled i k).entering = t.entering ∧
        ∀ j ≤ t.width, (t.rowScaled i k).leaving j = t.leaving j := by
  refine ⟨followsRule h, fun k hk => ⟨⟨entering_scaled hk, fun j _ => t.leaving_scaled k j⟩, ?_⟩⟩
  intro i _
  exact ⟨rfl, fun j _ => leaving_rowScaled h hk i j⟩

/-- Two columns and two rows are equally good; the right-hand side of the objective row is less than
every other entry, and so is the ratio of the row with the negative entry. -/
def tied : Tableau where
  rows := [⟨[1, -1, 0], 3⟩, ⟨[2, 2, 1], 4⟩, ⟨[1, 1, 0], 2⟩]
  objective := ⟨[-1, -2, -2], -9⟩
  basis := []
  names := []
  steps := 0

theorem choices_follow_rule_tied : (∀ r ∈ tied.rows, r.coefficients.length = tied.width) ∧
    tied.grid.entering = .ok (some 1) ∧ tied.grid.leaving 1 = .ok (some 1) ∧
    (tied.rowScaled 1 (1 / 7)).leaving 1 = some 1 ∧ tied.leaving 3 = some 0 := by
  have hlevel : ∀ r ∈ tied.rows, r.coefficients.length = tied.width := by decide
  obtain ⟨hrule, hscaled⟩ := choices_follow_rule hlevel
  have henters : tied.entering = some 1 := by decide +kernel
  have hleaves : tied.leaving 1 = some 1 := by decide +kernel
  refine ⟨hlevel, by rw [hrule.entering_grid, henters], ?_, ?_, by decide +kernel⟩
  · rw [hrule.leaving_grid 1 (by decide), hleaves]
  · rw [((hscaled (1 / 7) (by norm_num)).2 1 (by decide)).2 1 (by decide), hleaves]

end Tableau

end ExactSimplex
