import ExactSimplex.Error
import Mathlib.Data.List.Basic

/-! Lists whose places are looked up under a check.  To look up or to set a place that is not there
is an error, and so is to combine two lists of different lengths.  A pass over a list in which no
step fails is the plain map or fold. -/

namespace ExactSimplex.Checked

variable {α β γ : Type}

def item (xs : List α) (i : Nat) : Except Error α :=
  match xs[i]? with
  | some a => .ok a
  | none => .error .outOfRange

def last (xs : List α) : Except Error α :=
  match xs.getLast? with
  | some a => .ok a
  | none => .error .outOfRange

def assign (xs : List α) (i : Nat) (a : α) : Except Error (List α) :=
  if i < xs.length then .ok (xs.set i a) else .error .outOfRange

def combine (f : α → β → γ) (xs : List α) (ys : List β) : Except Error (List γ) :=
  if xs.length = ys.length then .ok (List.zipWith f xs ys) else .error .unequalLengths

theorem item_eq_ok {xs : List α} {i : Nat} {a : α} (h : xs[i]? = some a) : item xs i = .ok a := by
  rw [item, h]

theorem last_append_singleton (xs : List α) (a : α) : last (xs ++ [a]) = .ok a := by
  rw [last, List.getLast?_concat]

theorem assign_eq_ok {xs : List α} {i : Nat} (h : i < xs.length) (a : α) :
    assign xs i a = .ok (xs.set i a) := if_pos h

theorem combine_eq_ok {xs : List α} {ys : List β} (h : xs.length = ys.length) (f : α → β → γ) :
    combine f xs ys = .ok (List.zipWith f xs ys) := if_pos h

/-! ### Passes in which no step fails -/

theorem ok_bind (a : α) (f : α → Except Error β) : (Except.ok a >>= f) = f a := rfl

theorem mapM_eq_ok {f : α → Except Error β} {g : α → β} {l : List α}
    (h : ∀ a ∈ l, f a = .ok (g a)) : l.mapM f = .ok (l.map g) := by
  induction l with
  | nil => rfl
  | cons a l ih =>
    rw [List.mapM_cons, h a List.mem_cons_self, ok_bind,
      ih fun b hb => h b (List.mem_cons_of_mem a hb)]
    rfl

/-- A fold whose steps do not fail on what `e` makes of the states that `P` admits, and stay
there. -/
theorem foldlM_eq_ok (P : γ → Prop) (e : γ → β) {f : β → α → Except Error β} {g : γ → α → γ}
    {l : List α} (h : ∀ s, P s → ∀ a ∈ l, f (e s) a = .ok (e (g s a)) ∧ P (g s a)) {s : γ}
    (hs : P s) : l.foldlM f (e s) = .ok (e (l.foldl g s)) := by
  induction l generalizing s with
  | nil => rfl
  | cons a l ih =>
    obtain ⟨hstep, hnext⟩ := h s hs a List.mem_cons_self
    rw [List.foldlM_cons, hstep, ok_bind]
    exact ih (fun s hs b hb => h s hs b (List.mem_cons_of_mem a hb)) hnext

/-- The same for steps that fail on no state. -/
theorem foldlM_eq_ok' {f : β → α → Except Error β} {g : β → α → β} {l : List α}
    (h : ∀ s, ∀ a ∈ l, f s a = .ok (g s a)) (s : β) : l.foldlM f s = .ok (l.foldl g s) :=
  foldlM_eq_ok (fun _ => True) id (fun s _ a ha => ⟨h s a ha, trivial⟩) trivial

/-- Setting one place after the other replaces the beginning of a list. -/
theorem foldl_set (f : Nat → α) {xs : List α} {n : Nat} (h : n ≤ xs.length) :
    (List.range n).foldl (fun ys j => ys.set j (f j)) xs = (List.range n).map f ++ xs.drop n := by
  induction n with
  | zero => rfl
  | succ n ih =>
    rw [List.range_succ, List.foldl_append, ih (by omega), List.foldl_cons, List.foldl_nil,
      List.set_append_right _ _ (by simp), List.length_map, List.length_range, Nat.sub_self,
      List.drop_eq_getElem_cons (by omega), List.set_cons_zero, List.map_append, List.append_assoc]
    rfl

theorem set_map_range (v : Nat → α) {n b : Nat} (x : α) :
    ((List.range n).map v).set b x = (List.range n).map fun j => if b = j then x else v j := by
  refine List.ext_getElem (by simp) fun k hk hk' => ?_
  simp only [List.getElem_set, List.getElem_map, List.getElem_range]

/-- A fold over functions whose step works place by place. -/
theorem foldl_apply (f : Nat → β → α → β) (l : List α) (v : Nat → β) (j : Nat) :
    l.foldl (fun v a j => f j (v j) a) v j = l.foldl (f j) (v j) := by
  induction l generalizing v with
  | nil => rfl
  | cons a l ih => exact ih _

/-- The items of one list, each with the item of another at its place. -/
theorem zipIdx_map_getD {xs : List α} {ys : List β} (h : xs.length = ys.length) (d : β) :
    (xs.zipIdx.map fun p => (p.1, ys.getD p.2 d)) = xs.zip ys := by
  refine List.ext_getElem (by simp [h]) fun i hi hi' => ?_
  have hlt : i < ys.length := by
    rw [List.length_zip] at hi'
    omega
  simp [List.getD, List.getElem?_eq_getElem hlt]

end ExactSimplex.Checked
