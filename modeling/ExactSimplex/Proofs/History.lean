import ExactSimplex.Session
import Mathlib.Data.List.Basic

/-! What a draft keeps over any session.  Each operation gives at most one attribute a value, and
does this last; so one that fails has done nothing.  Once a draft is made, the objective that is
sought has a value, and none of the three fixed attributes takes one any more.  Only a record in the
place of all attributes, or another class in the place of that of the draft, gets past this. -/

namespace ExactSimplex

namespace Change

variable {α β : Type} {x : Change α} {f : α → Change β}

theorem bind_on (x : Change α) (f : α → Change β) (d : Draft) : (x >>= f).on d =
    match x.on d with
    | (.ok a, next) => (f a).on next
    | (.error e, next) => (.error e, next) := by
  show StateT.run (ExceptT.run (x >>= f)) d = _
  rw [ExceptT.run_bind, StateT.run_bind, on]
  rcases x.run.run d with ⟨r, next⟩
  cases r <;> rfl

theorem get_on (d : Draft) : Change.on (MonadState.get : Change Draft) d = (.ok d, d) := rfl

theorem check_on (r : Except Error α) (d : Draft) : Change.on (Draft.check r) d = (r, d) := rfl

theorem bind_on_ok {d next : Draft} {a : α} (h : x.on d = (.ok a, next)) :
    (x >>= f).on d = (f a).on next := by
  rw [bind_on, h]

theorem bind_on_error {d next : Draft} {e : Error} (h : x.on d = (.error e, next)) :
    (x >>= f).on d = (.error e, next) := by
  rw [bind_on, h]

/-- The work only looks at the draft. -/
def Reads (x : Change α) : Prop := ∀ d, ∃ r, x.on d = (r, d)

theorem Reads.pure (a : α) : Reads (Pure.pure a : Change α) := fun _ => ⟨_, rfl⟩

theorem Reads.throw (e : Error) : Reads (MonadExcept.throw e : Change α) := fun _ => ⟨_, rfl⟩

theorem Reads.get : Reads (MonadState.get : Change Draft) := fun _ => ⟨_, rfl⟩

theorem Reads.check (r : Except Error α) : Reads (Draft.check r) := fun _ => ⟨_, rfl⟩

theorem Reads.bind (hx : Reads x) (hf : ∀ a, Reads (f a)) : Reads (x >>= f) := by
  intro d
  obtain ⟨r, hr⟩ := hx d
  rw [bind_on, hr]
  cases r with
  | ok a => exact hf a d
  | error e => exact ⟨_, rfl⟩

end Change

namespace Draft

open Change

variable {d : Draft} {name other : Text} {a : Attribute} {c : Constraint} {qs : List Rat}
  {sense : Bool} {cs : List Constraint} {digits : DigitLimit}

@[simp] theorem held_put_same (d : Draft) (name : Text) (a : Attribute) :
    (d.put name a).held name = some a := if_pos rfl

theorem held_put_ne (h : other ≠ name) (d : Draft) (a : Attribute) :
    (d.put name a).held other = d.held other := if_neg h

/-- Putting the fields of a record in the place of all attributes, or another class in the place of
the class of the draft. -/
def Renews (name : Text) (a : Attribute) : Prop :=
  (name = "__dict__" ∧ ∃ fields, a = .value (.record fields)) ∨
    name = "__class__" ∧ a = .bareClass

/-- What giving an attribute a value can do: nothing, store the value, or get past the rules. -/
inductive Assigned (d : Draft) (name : Text) (a : Attribute) : Except Error Unit × Draft → Prop
  | refused (e : Error) : Assigned d name a (.error e, d)
  | stored : (d.held "max_objective" = none ∨ name ∉ d.fixed.map Text.ofString) →
    Assigned d name a (.ok (), d.put name a)
  | renewed (next : Draft) : Renews name a → Assigned d name a (.ok (), next)

theorem assigned (d : Draft) (name : Text) (a : Attribute) :
    Assigned d name a ((assign name a).on d) := by
  rw [assign, bind_on_ok (get_on d)]
  split
  case h_1 =>
    split
    case isTrue => exact .refused _
    case isFalse hnone => exact .stored (.inl (Option.not_isSome_iff_eq_none.mp hnone))
  case h_2 hfree =>
    split
    case isTrue => exact .refused _
    split
    case isTrue hclass =>
      split
      case h_1 => exact .renewed _ (.inr ⟨hclass, rfl⟩)
      case h_2 => exact .refused _
    split
    case isTrue hdict =>
      split
      case h_1 fields => exact .renewed _ (.inl ⟨hdict, fields, rfl⟩)
      case h_2 => exact .refused _
    case isFalse =>
      refine .stored (.inr fun hname => ?_)
      obtain ⟨fixed, hmem, hfixed⟩ := List.mem_map.mp hname
      have hnot := List.find?_eq_none.mp hfree fixed hmem
      rw [decide_eq_true_eq] at hnot
      exact hnot hfixed.symm

/-! ### What an operation can do -/

/-- The operation replaces the attributes as a whole, or the class. -/
def Operation.Renews : Operation → Prop
  | .assign name v => Draft.Renews name (.value v)
  | .recast => True
  | .add _ | .append _ | .replace _ | .normalize | .solve _ => False

/-- What a step can end in: the draft as it was, perhaps with an error; one attribute with a value
that it could take; or, where `renews` allows it, another draft. -/
inductive Stepped {α : Type} (renews : Prop) (d : Draft) : Except Error α × Draft → Prop
  | kept (r : Except Error α) : Stepped renews d (r, d)
  | stored {name : Text} {b : α} (a : Attribute) :
    (d.held "max_objective" = none ∨ name ∉ d.fixed.map Text.ofString) →
    Stepped renews d (.ok b, d.put name a)
  | renewed {b : α} (next : Draft) : renews → Stepped renews d (.ok b, next)

/-- The work gives at most one attribute a value, and does this last. -/
def Steps {α : Type} (renews : Prop) (x : Change α) : Prop := ∀ d, Stepped renews d (x.on d)

section Steps

variable {α β : Type} {x : Change α} {f : α → Change β} {renews : Prop}

theorem Steps.of_reads (hx : Reads x) : Steps renews x := by
  intro d
  obtain ⟨r, hr⟩ := hx d
  rw [hr]
  exact .kept r

/-- Work that looks first is a step if what comes after is one. -/
theorem Steps.bind (hx : Reads x) (hf : ∀ a, Steps renews (f a)) : Steps renews (x >>= f) := by
  intro d
  obtain ⟨r, hr⟩ := hx d
  rw [bind_on, hr]
  cases r with
  | ok a => exact hf a d
  | error e => exact .kept _

/-- A step that then gives a result is a step. -/
theorem Steps.bind_pure (hx : Steps renews x) (b : β) :
    Steps renews (x >>= fun _ => pure b) := by
  intro d
  have hstep := hx d
  rw [bind_on]
  generalize x.on d = result at hstep ⊢
  cases hstep with
  | kept r =>
    cases r with
    | ok a => exact .kept _
    | error e => exact .kept _
  | stored a hfree => exact .stored a hfree
  | renewed next h => exact .renewed next h

theorem assign_steps (name : Text) (a : Attribute) (h : Renews name a → renews) :
    Steps renews (assign name a) := by
  intro d
  have hcases := assigned d name a
  generalize (assign name a).on d = result at hcases ⊢
  cases hcases with
  | refused e => exact .kept _
  | stored hfree => exact .stored a hfree
  | renewed next hrenews => exact .renewed next (h hrenews)

theorem assign_constraints_steps (cs : List Constraint) :
    Steps renews (assign "constraints" (.constraints cs)) := by
  refine assign_steps _ _ ?_
  rintro (⟨-, fields, ha⟩ | ⟨hname, -⟩)
  · cases ha
  · exact absurd hname (by decide)

theorem read_reads (name : Text) : Reads (read name) := by
  refine Reads.get.bind fun d => ?_
  split
  · exact Reads.pure _
  · exact Reads.throw _

theorem requireRules_reads : Reads requireRules := by
  refine Reads.get.bind fun d => ?_
  split
  · exact Reads.pure _
  · exact Reads.throw _

theorem numVars_reads : Reads numVars :=
  requireRules_reads.bind fun _ => (read_reads _).bind fun _ => Reads.check _

theorem program_reads : Reads program := by
  refine requireRules_reads.bind fun _ => ?_
  refine (read_reads _).bind fun _ => (Reads.check _).bind fun _ => ?_
  refine (read_reads _).bind fun _ => (Reads.check _).bind fun _ => ?_
  exact Reads.get.bind fun _ => Reads.pure _

theorem solve_reads (limit : StepLimit) : Reads (perform (.solve limit)) :=
  program_reads.bind fun _ => (Reads.check _).bind fun _ => Reads.pure _

theorem append_steps (c : Constraint) : Steps renews (append c) := by
  refine Steps.bind (read_reads _) fun constraints => ?_
  split
  · exact assign_constraints_steps _
  · exact Steps.of_reads (Reads.throw _)

theorem addConstraint_steps (c : Constraint) : Steps renews (addConstraint c) := by
  refine Steps.bind Reads.get fun d => ?_
  split
  · exact Steps.of_reads (Reads.throw _)
  refine Steps.bind requireRules_reads fun _ => Steps.bind numVars_reads fun n => ?_
  split
  · exact append_steps c
  · exact Steps.of_reads (Reads.throw _)

theorem normalize_steps : Steps renews normalize := by
  refine Steps.bind (read_reads _) fun _ => Steps.bind (Reads.check _) fun _ => ?_
  exact assign_constraints_steps _

theorem perform_steps (op : Operation) : Steps op.Renews (perform op) := by
  cases op with
  | add c => exact (addConstraint_steps c).bind_pure none
  | append c => exact (append_steps c).bind_pure none
  | assign name v => exact (assign_steps name _ id).bind_pure none
  | recast => exact (assign_steps "__class__" _ fun _ => trivial).bind_pure none
  | replace cs => exact (assign_constraints_steps cs).bind_pure none
  | normalize => exact normalize_steps.bind_pure none
  | solve limit => exact Steps.of_reads (solve_reads limit)

end Steps

/-- An operation that fails leaves the draft as it was. -/
theorem perform_error {op : Operation} {e : Error} {next : Draft}
    (h : (perform op).on d = (.error e, next)) : next = d := by
  have hstep := perform_steps op d
  rw [h] at hstep
  cases hstep
  rfl

/-- Solving leaves the draft as it was. -/
theorem perform_solve (limit : StepLimit) (d : Draft) : ((perform (.solve limit)).on d).2 = d := by
  obtain ⟨r, hr⟩ := solve_reads limit d
  rw [hr]

/-! ### The fixed attributes -/

/-- The draft is under the rules, and the three fixed attributes hold an objective, a sense, and the
objective of this sense. -/
structure Keeps (qs : List Rat) (sense : Bool) (d : Draft) : Prop where
  ruled : d.ruled = true
  objective : d.held "objective" = some (.numbers qs)
  maximize : d.held "maximize" = some (.truth sense)
  maxObjective : d.held "max_objective" = some (.numbers (if sense then qs else qs.map (-·)))

theorem Keeps.put (h : Keeps qs sense d) (hname : name ∉ fixedNames.map Text.ofString)
    (a : Attribute) : Keeps qs sense (d.put name a) := by
  have hheld : ∀ fixed ∈ fixedNames, (d.put name a).held fixed = d.held fixed := by
    intro fixed hfixed
    refine held_put_ne (fun heq => hname ?_) d a
    rw [← heq]
    exact List.mem_map_of_mem hfixed
  exact ⟨h.ruled, (hheld "objective" (by decide)).trans h.objective,
    (hheld "maximize" (by decide)).trans h.maximize,
    (hheld "max_objective" (by decide)).trans h.maxObjective⟩

theorem Keeps.perform {op : Operation} (hd : Keeps qs sense d) (h : ¬op.Renews) :
    Keeps qs sense ((perform op).on d).2 := by
  have hstep := perform_steps op d
  generalize (Draft.perform op).on d = result at hstep ⊢
  cases hstep with
  | kept => exact hd
  | stored a hfree =>
    rw [fixed, if_pos hd.ruled] at hfree
    refine hd.put (hfree.resolve_left fun hnone => ?_) a
    rw [hd.maxObjective] at hnone
    cases hnone
  | renewed next hrenews => exact absurd hrenews h

theorem Keeps.after {ops : List Operation} (hd : Keeps qs sense d)
    (h : ∀ op ∈ ops, ¬op.Renews) : Keeps qs sense (d.after ops) := by
  induction ops generalizing d with
  | nil => exact hd
  | cons op ops ih =>
    have hnext := hd.perform (h op List.mem_cons_self)
    exact ih hnext fun op hop => h op (List.mem_cons_of_mem _ hop)

/-! ### The constraints -/

theorem read_on (h : d.held name = some a) : (read name).on d = (.ok a, d) := by
  rw [read, bind_on_ok (get_on d), h]
  rfl

theorem requireRules_on (h : d.ruled = true) : requireRules.on d = (.ok (), d) := by
  rw [requireRules, bind_on_ok (get_on d), if_pos h]
  rfl

theorem numVars_on (hruled : d.ruled = true) (h : d.held "objective" = some (.numbers qs)) :
    numVars.on d = (.ok qs.length, d) := by
  rw [numVars, bind_on_ok (requireRules_on hruled), bind_on_ok (read_on h)]
  rfl

theorem assign_constraints_on (a : Attribute) (hruled : d.ruled = true) :
    (assign "constraints" a).on d = (.ok (), d.put "constraints" a) := by
  rw [assign, bind_on_ok (get_on d), fixed, if_pos hruled, derived, if_pos hruled]
  rfl

/-- A constraint that is added to constraints goes behind them if it has the right length. -/
theorem addConstraint_on (hruled : d.ruled = true)
    (hobjective : d.held "objective" = some (.numbers qs))
    (hconstraints : d.held "constraints" = some (.constraints cs))
    (hshown : d.held "add_constraint" = none) (c : Constraint) : (addConstraint c).on d =
      if c.coefficients.length = qs.length then
        (.ok (), d.put "constraints" (.constraints (cs ++ [c])))
      else (.error (.rowLength c.coefficients.length qs.length), d) := by
  show Change.on (if (d.held "add_constraint").isSome then _ else _) d = _
  rw [hshown, if_neg (by decide), bind_on_ok (requireRules_on hruled),
    bind_on_ok (numVars_on hruled hobjective)]
  show Change.on (if c.coefficients.length = qs.length then _ else _) d = _
  split
  · show (append c).on d = _
    rw [append, bind_on_ok (read_on hconstraints)]
    exact assign_constraints_on _ hruled
  · rfl

theorem addConstraint_hidden (hhidden : d.held "add_constraint" = some a) (c : Constraint) :
    (addConstraint c).on d = (.error .unsupported, d) := by
  show Change.on (if (d.held "add_constraint").isSome then _ else _) d = _
  rw [hhidden]
  rfl

/-- The operation leaves the constraints to those that add to them. -/
def Operation.LeavesConstraints : Operation → Prop
  | .add _ | .solve _ => True
  | .assign name v => name ≠ "constraints" ∧ ¬Draft.Renews name (.value v)
  | .append _ | .replace _ | .normalize | .recast => False

/-- The constraint that an operation added. -/
def taken (d : Draft) : Operation → List Constraint
  | .add c =>
    match ((perform (.add c)).on d).1 with
    | .ok _ => [c]
    | .error _ => []
  | _ => []

/-- The constraints that a session added, in its order. -/
def accepted (d : Draft) : List Operation → List Constraint
  | [] => []
  | op :: ops => taken d op ++ accepted ((perform op).on d).2 ops

/-- The constraints are these, and they have as many coefficients as the objective. -/
structure Lists (qs : List Rat) (cs : List Constraint) (d : Draft) : Prop where
  constraints : d.held "constraints" = some (.constraints cs)
  length : ∀ c ∈ cs, c.coefficients.length = qs.length

theorem Lists.put (hcs : Lists qs cs d) (hlength : c.coefficients.length = qs.length) :
    Lists qs (cs ++ [c]) (d.put "constraints" (.constraints (cs ++ [c]))) := by
  refine ⟨held_put_same _ _ _, fun b hb => ?_⟩
  rcases List.mem_append.mp hb with hb | hb
  · exact hcs.length b hb
  · rw [List.mem_singleton.mp hb, hlength]

theorem Lists.addConstraint (hcs : Lists qs cs d) (hd : Keeps qs sense d) (c : Constraint) :
    Lists qs (cs ++ taken d (.add c)) ((perform (.add c)).on d).2 := by
  rw [taken, perform, bind_on]
  cases hhidden : d.held "add_constraint" with
  | some a =>
    rw [addConstraint_hidden hhidden c]
    show Lists qs (cs ++ []) d
    rwa [List.append_nil]
  | none =>
    rw [addConstraint_on hd.ruled hd.objective hcs.constraints hhidden c]
    by_cases hlength : c.coefficients.length = qs.length
    · rw [if_pos hlength]
      exact hcs.put hlength
    · rw [if_neg hlength]
      show Lists qs (cs ++ []) d
      rwa [List.append_nil]

theorem Lists.assign (hcs : Lists qs cs d) {v : Value} (hname : name ≠ "constraints")
    (hrenews : ¬Draft.Renews name (.value v)) :
    Lists qs cs ((perform (.assign name v)).on d).2 := by
  have hcases := assigned d name (.value v)
  rw [perform, bind_on]
  generalize (Draft.assign name (.value v)).on d = result at hcases ⊢
  cases hcases with
  | refused e => exact hcs
  | stored => exact ⟨(held_put_ne hname.symm d _).trans hcs.constraints, hcs.length⟩
  | renewed next h => exact absurd h hrenews

theorem Lists.perform {op : Operation} (hcs : Lists qs cs d) (hd : Keeps qs sense d)
    (hop : op.LeavesConstraints) :
    Lists qs (cs ++ taken d op) ((perform op).on d).2 := by
  cases op with
  | add c => exact hcs.addConstraint hd c
  | assign name v =>
    rw [taken, List.append_nil]
    · exact hcs.assign hop.1 hop.2
    · rintro c ⟨⟩
  | solve limit =>
    rw [perform_solve, taken, List.append_nil]
    · exact hcs
    · rintro c ⟨⟩
  | append c | replace cs | normalize | recast => exact hop.elim

theorem Operation.LeavesConstraints.not_renews {op : Operation} (hop : op.LeavesConstraints) :
    ¬op.Renews := by
  cases op with
  | assign name v => exact hop.2
  | recast => exact hop.elim
  | _ => exact id

theorem Lists.after {ops : List Operation} (hcs : Lists qs cs d) (hd : Keeps qs sense d)
    (h : ∀ op ∈ ops, op.LeavesConstraints) : Lists qs (cs ++ d.accepted ops) (d.after ops) := by
  induction ops generalizing d cs with
  | nil =>
    rw [accepted, List.append_nil]
    exact hcs
  | cons op ops ih =>
    have hop := h op List.mem_cons_self
    have hnext := hd.perform hop.not_renews
    rw [accepted, ← List.append_assoc]
    exact ih (hcs.perform hd hop) hnext fun op hop => h op (List.mem_cons_of_mem _ hop)

/-! ### Drafts that are made -/

/-- The draft that holds what it is made with. -/
def stored (objective maximize : Value) (given : List Constraint) : Draft :=
  ((blank.put "objective" (.value objective)).put "maximize" (.value maximize)).put
    "constraints" (.constraints given)

/-- The draft in which this is coerced, and no constraint added. -/
def prepared (objective maximize : Value) (given : List Constraint) (qs : List Rat) : Draft :=
  let coerced := ((stored objective maximize given).put "objective" (.numbers qs)).put
    "maximize" (.truth maximize.isTruthy)
  let sought := if maximize.isTruthy then qs else qs.map (-·)
  (coerced.put "max_objective" (.numbers sought)).put "constraints" (.constraints [])

/-- The fixed attributes take values as long as there is no objective that is sought. -/
theorem assign_fixed_on {name : String} (hname : name ∈ fixedNames) (hruled : d.ruled = true)
    (hnone : d.held "max_objective" = none) (a : Attribute) :
    (assign name a).on d = (.ok (), d.put name a) := by
  rw [assign, bind_on_ok (get_on d), fixed, if_pos hruled]
  split
  case h_1 =>
    rw [hnone]
    rfl
  case h_2 hfree =>
    have hnot := List.find?_eq_none.mp hfree name hname
    rw [decide_eq_true_eq] at hnot
    exact absurd rfl hnot

theorem make_on (digits : DigitLimit) (objective maximize : Value) (given : List Constraint) :
    (make digits objective maximize given).on blank =
      match objective.rationals digits with
      | .ok qs => Change.on (given.forM addConstraint) (prepared objective maximize given qs)
      | .error e => (.error e, stored objective maximize given) := by
  refine (bind_on_ok (assign_fixed_on (by decide) rfl (by rfl) _)).trans ?_
  refine (bind_on_ok (assign_fixed_on (by decide) rfl (by rfl) _)).trans ?_
  refine (bind_on_ok (assign_constraints_on _ rfl)).trans ?_
  refine (bind_on_ok (read_on (by rfl))).trans ?_
  have hcheck : Change.on (check (Attribute.rationals digits (.value objective)))
      (stored objective maximize given) =
        (objective.rationals digits, stored objective maximize given) := check_on _ _
  cases hq : objective.rationals digits with
  | error e =>
    rw [hq] at hcheck
    exact bind_on_error hcheck
  | ok qs =>
    rw [hq] at hcheck
    refine (bind_on_ok hcheck).trans ?_
    refine (bind_on_ok (assign_fixed_on (by decide) rfl (by rfl) _)).trans ?_
    refine (bind_on_ok (read_on (by rfl))).trans ?_
    refine (bind_on_ok (assign_fixed_on (by decide) rfl (by rfl) _)).trans ?_
    refine (bind_on_ok (assign_fixed_on (by decide) rfl (by rfl) _)).trans ?_
    refine (bind_on_ok (read_on (by rfl))).trans ?_
    refine (bind_on_ok (by rfl)).trans ?_
    exact bind_on_ok (assign_constraints_on _ rfl)

/-- The constraints that a draft is made with were all added. -/
theorem forM_addConstraint {given : List Constraint} {next : Draft} (hd : Keeps qs sense d)
    (hcs : Lists qs cs d) (hshown : d.held "add_constraint" = none)
    (h : Change.on (given.forM addConstraint) d = (.ok (), next)) :
    Keeps qs sense next ∧ Lists qs (cs ++ given) next := by
  induction given generalizing d cs with
  | nil =>
    cases h
    rw [List.append_nil]
    exact ⟨hd, hcs⟩
  | cons c given ih =>
    have hstep := addConstraint_on hd.ruled hd.objective hcs.constraints hshown c
    change Change.on (addConstraint c >>= fun _ => given.forM addConstraint) d = _ at h
    by_cases hlength : c.coefficients.length = qs.length
    · rw [if_pos hlength] at hstep
      rw [bind_on_ok hstep] at h
      rw [List.append_cons]
      refine ih (hd.put (by decide) _) (hcs.put hlength) ?_ h
      exact (held_put_ne (by decide) d _).trans hshown
    · rw [if_neg hlength] at hstep
      rw [bind_on, hstep] at h
      cases h

/-- A draft that was made keeps its coerced objective and lists what it was made with. -/
theorem of_create {objective maximize : Value} {given : List Constraint}
    (h : create digits objective maximize given = .ok d) :
    ∃ qs, objective.rationals digits = .ok qs ∧ Keeps qs maximize.isTruthy d ∧
      Lists qs given d := by
  rw [create, make_on] at h
  cases hq : objective.rationals digits with
  | error e =>
    rw [hq] at h
    cases h
  | ok qs =>
    rw [hq] at h
    simp only at h
    rcases hrun : Change.on (given.forM addConstraint) (prepared objective maximize given qs) with
      ⟨r, next⟩
    rw [hrun] at h
    cases r with
    | error e => cases h
    | ok =>
      cases h
      have hd : Keeps qs maximize.isTruthy (prepared objective maximize given qs) :=
        ⟨rfl, rfl, rfl, rfl⟩
      have hcs : Lists qs [] (prepared objective maximize given qs) := ⟨rfl, nofun⟩
      exact ⟨qs, rfl, forM_addConstraint hd hcs rfl hrun⟩

/-- The program of a draft is made of its objective, its sense and its constraints. -/
theorem Keeps.program_on (hd : Keeps qs sense d) (hcs : Lists qs cs d) :
    program.on d = (.ok ⟨qs, sense, cs⟩, d) := by
  have hobjective := check_on (Attribute.numbers qs).coerced d
  have hrules := requireRules_on hd.ruled
  have hconstraints := check_on (Attribute.constraints cs).listed d
  rw [program, bind_on_ok hrules, bind_on_ok (read_on hd.objective), bind_on_ok hobjective,
    bind_on_ok (read_on hcs.constraints), bind_on_ok hconstraints, bind_on_ok (get_on d),
    hd.maximize]
  rfl

/-- What is said of a draft through all sessions. -/
structure Lasting (qs : List Rat) (sense : Bool) (given : List Constraint) (d : Draft) : Prop where
  keeps : ∀ ops, (∀ op ∈ ops, ¬op.Renews) → Keeps qs sense (d.after ops)
  failed : ∀ ops op e next, (perform op).on (d.after ops) = (.error e, next) → next = d.after ops
  solved : ∀ ops limit, ((perform (.solve limit)).on (d.after ops)).2 = d.after ops
  lists : ∀ ops, (∀ op ∈ ops, op.LeavesConstraints) →
    Lists qs (given ++ d.accepted ops) (d.after ops)
  /-- What is solved is the program that was made, with the constraints that were added. -/
  program : ∀ ops, (∀ op ∈ ops, op.LeavesConstraints) →
    Draft.program.on (d.after ops) = (.ok ⟨qs, sense, given ++ d.accepted ops⟩, d.after ops)
  /-- The length decides whether a constraint is added, unless a value hides the operation. -/
  taken_iff : ∀ ops c, (∀ op ∈ ops, op.LeavesConstraints) →
    (d.after ops).held "add_constraint" = none →
    ((d.after ops).taken (.add c) = [c] ↔ c.coefficients.length = qs.length)

theorem Keeps.taken_iff (hd : Keeps qs sense d) (hcs : Lists qs cs d)
    (hshown : d.held "add_constraint" = none) (c : Constraint) :
    d.taken (.add c) = [c] ↔ c.coefficients.length = qs.length := by
  rw [taken, Draft.perform, bind_on,
    addConstraint_on hd.ruled hd.objective hcs.constraints hshown c]
  by_cases hlength : c.coefficients.length = qs.length
  · rw [if_pos hlength]
    exact ⟨fun _ => hlength, fun _ => rfl⟩
  · rw [if_neg hlength]
    exact ⟨nofun, fun h => absurd h hlength⟩

/-- A draft that was made keeps its objective, its sense and the objective that is sought through
every session that replaces neither its attributes as a whole nor its class.  An operation that
fails and one that solves change nothing, and constraints that are only added to are those that were
accepted, in their order. -/
theorem made_draft_lasts (digits : DigitLimit) (objective maximize : Value)
    (given : List Constraint) (d : Draft) (h : create digits objective maximize given = .ok d) :
    ∃ qs, objective.rationals digits = .ok qs ∧ Lasting qs maximize.isTruthy given d := by
  obtain ⟨qs, hq, hd, hcs⟩ := of_create h
  have hkeeps : ∀ ops, (∀ op ∈ ops, op.LeavesConstraints) →
      Keeps qs maximize.isTruthy (d.after ops) := fun ops hops =>
    hd.after fun op hop => (hops op hop).not_renews
  exact ⟨qs, hq, {
    keeps := fun ops hops => hd.after hops
    failed := fun ops op e next => perform_error
    solved := fun ops limit => perform_solve limit (d.after ops)
    lists := fun ops hops => hcs.after hd hops
    program := fun ops hops => (hkeeps ops hops).program_on (hcs.after hd hops)
    taken_iff := fun ops c hops hshown =>
      (hkeeps ops hops).taken_iff (hcs.after hd hops) hshown c }⟩

/-- A minimised draft with one constraint. -/
def budget : Draft :=
  match create .off (.list [.int 1, .int 2]) (.bool false) [⟨[1, 1], .atMost, 4⟩] with
  | .ok d => d
  | .error _ => blank

/-- A session in which some operations fail: a constraint of the wrong length, and values for two of
the fixed attributes. -/
def strained : List Operation :=
  [.add ⟨[1], .atMost, 3⟩, .assign "objective" (.list []), .add ⟨[0, 1], .atLeast, 1⟩,
    .solve (.steps 200), .assign "max_objective" .null, .assign "note" (.int 5)]

/-- The objective of a minimised draft is negated once, whatever is tried, and the constraint of the
right length is added. -/
theorem made_draft_lasts_strained :
    create .off (.list [.int 1, .int 2]) (.bool false) [⟨[1, 1], .atMost, 4⟩] = .ok budget ∧
    (budget.after strained).held "max_objective" = some (.numbers [-1, -2]) ∧
    (budget.after strained).held "constraints" =
      some (.constraints [⟨[1, 1], .atMost, 4⟩, ⟨[0, 1], .atLeast, 1⟩]) := by
  have hmade : create .off (.list [.int 1, .int 2]) (.bool false) [⟨[1, 1], .atMost, 4⟩] =
    .ok budget := rfl
  have hq : (Value.list [.int 1, .int 2]).rationals .off = .ok [1, 2] := rfl
  obtain ⟨qs, hqs, hlasting⟩ := made_draft_lasts _ _ _ _ _ hmade
  cases hq.symm.trans hqs
  have hops : ∀ op ∈ strained, op.LeavesConstraints := by
    have hother : ∀ (name : Text) v, name ≠ "constraints" → name ≠ "__dict__" →
        (Operation.assign name v).LeavesConstraints := fun name v hname hdict =>
      ⟨hname, fun h => h.elim (fun h => hdict h.1) nofun⟩
    simp only [strained, List.forall_mem_cons]
    exact ⟨trivial, hother _ _ (by decide) (by decide), trivial, trivial,
      hother _ _ (by decide) (by decide), hother _ _ (by decide) (by decide), nofun⟩
  have hkeeps := hlasting.keeps strained fun op hop => (hops op hop).not_renews
  have hlists := hlasting.lists strained hops
  have haccepted : budget.accepted strained = [⟨[0, 1], .atLeast, 1⟩] := by
    decide
  refine ⟨hmade, hkeeps.maxObjective, ?_⟩
  rw [hlists.constraints, haccepted]
  rfl

/-- A record in the place of all attributes takes the objective away; and once another class is in
the place of that of the draft, the objective takes another value. -/
theorem renewed_draft_loses_objective : ∃ d, create .off (.list [.int 1]) (.bool true) [] = .ok d ∧
    Keeps [1] true d ∧
    (d.after [.assign "__dict__" (.record [])]).held "objective" = none ∧
    (d.after [.recast, .assign "objective" (.list [.int 5])]).held "objective" =
      some (.value (.list [.int 5])) :=
  ⟨_, rfl, ⟨rfl, rfl, rfl, rfl⟩, rfl, rfl⟩

end Draft

end ExactSimplex
