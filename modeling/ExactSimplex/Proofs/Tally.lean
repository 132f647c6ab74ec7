import ExactSimplex.Benchmark
import ExactSimplex.Proofs.Row
import Mathlib.Algebra.BigOperators.Group.List.Basic
import Mathlib.Data.List.Perm.Basic

/-! What a tally says about the outcomes that were recorded: how many there are of each kind, and
the sum of the optimal values.  Two outcomes can be recorded in either order, since rational sums
are exact, so only the collection of outcomes matters.  What is no outcome is refused, and the tally
stays as it is. -/

namespace ExactSimplex

/-- The optimal value, if there is one. -/
def Outcome.value? : Outcome → Option Rat
  | optimal _ value => some value
  | infeasible | unbounded | timedOut => none

namespace Benchmark

/-- The outcome that is handed over, if it is one. -/
def Entry.outcome? : Entry → Option Outcome
  | outcome o => some o
  | other _ => none

namespace Tally

variable {t : Tally} {os os' : List Outcome}

/-- The tally `t` after the outcomes `os`. -/
def recordAll (t : Tally) (os : List Outcome) : Tally := os.foldl record t

/-- Every counter is the number of outcomes of its kind, and the sum is the one of their values. -/
structure Counts (t : Tally) (os : List Outcome) : Prop where
  feasible_eq : t.feasible = (os.filterMap Outcome.value?).length
  infeasible_eq : t.infeasible = os.count .infeasible
  unbounded_eq : t.unbounded = os.count .unbounded
  timedOut_eq : t.timedOut = os.count .timedOut
  objectiveSum_eq : t.objectiveSum = (os.filterMap Outcome.value?).sum

/-! ### Recording outcomes -/

theorem counts_nil : Counts {} [] := ⟨rfl, rfl, rfl, rfl, rfl⟩

/-- One outcome more is one more of its kind. -/
theorem Counts.record (h : t.Counts os) (o : Outcome) : (t.record o).Counts (os ++ [o]) := by
  obtain ⟨hfeasible, hinfeasible, hunbounded, htimedOut, hsum⟩ := h
  cases o <;> constructor <;>
    simp [Tally.record, Outcome.value?, List.filterMap_cons, hfeasible, hinfeasible, hunbounded,
      htimedOut, hsum]

theorem Counts.recordAll (h : t.Counts os) (os' : List Outcome) :
    (t.recordAll os').Counts (os ++ os') := by
  induction os' generalizing t os with
  | nil =>
    rw [List.append_nil]
    exact h
  | cons o os' ih =>
    rw [List.append_cons]
    exact ih (h.record o)

theorem total_recordAll (t : Tally) (os : List Outcome) :
    (t.recordAll os).total = t.total + os.length := by
  induction os generalizing t with
  | nil => rfl
  | cons o os ih =>
    have hnext := ih (t.record o)
    rw [total_record] at hnext
    simp only [recordAll, List.foldl_cons, List.length_cons] at hnext ⊢
    omega

/-- Two outcomes can change places. -/
theorem record_right_comm (t : Tally) (o o' : Outcome) :
    (t.record o).record o' = (t.record o').record o := by
  cases o <;> cases o' <;> simp only [record, add_right_comm]

theorem recordAll_perm (t : Tally) (h : os.Perm os') : t.recordAll os = t.recordAll os' := by
  apply h.foldl_eq'
  intro o _ o' _ t
  exact record_right_comm t o o'

/-! ### Recording in place -/

/-- Recording in place, one assignment after the other. -/
def recordInPlace (digits : DigitLimit) : Entry → ExceptT Error (StateM Tally) Unit
  | .outcome (.optimal _ value) => do
    modify fun t => { t with feasible := t.feasible + 1 }
    modify fun t => { t with objectiveSum := t.objectiveSum + value }
  | .outcome .infeasible => modify fun t => { t with infeasible := t.infeasible + 1 }
  | .outcome .unbounded => modify fun t => { t with unbounded := t.unbounded + 1 }
  | .outcome .timedOut => modify fun t => { t with timedOut := t.timedOut + 1 }
  | .other v => throw (refusal digits v)

/-- What recording answers, and the tally behind it. -/
def recordedBy (digits : DigitLimit) (t : Tally) (e : Entry) : Except Error Unit × Tally :=
  (recordInPlace digits e).run.run t

/-- An outcome is recorded, and a refusal leaves the tally as it was. -/
theorem recordedBy_eq (digits : DigitLimit) (t : Tally) (e : Entry) : t.recordedBy digits e =
    match t.recordEntry digits e with
    | .ok next => (.ok (), next)
    | .error refusal => (.error refusal, t) := by
  cases e with
  | outcome o => cases o <;> rfl
  | other v => rfl

/-- The tally after all entries, which goes on behind those that are refused. -/
def recordEntries (digits : DigitLimit) (t : Tally) (es : List Entry) : Tally :=
  es.foldl (fun t e => (t.recordedBy digits e).2) t

/-- Only the outcomes among the entries count. -/
theorem recordEntries_eq (digits : DigitLimit) (t : Tally) (es : List Entry) :
    t.recordEntries digits es = t.recordAll (es.filterMap Entry.outcome?) := by
  induction es generalizing t with
  | nil => rfl
  | cons e es ih =>
    cases e with
    | outcome o =>
      have hrecorded : (t.recordedBy digits (.outcome o)).2 = t.record o := by
        rw [recordedBy_eq]
        rfl
      rw [recordEntries, List.foldl_cons, hrecorded]
      exact ih (t.record o)
    | other v => exact ih t

theorem recordEntries_perm (digits : DigitLimit) (t : Tally) {es es' : List Entry}
    (h : es.Perm es') : t.recordEntries digits es = t.recordEntries digits es' := by
  rw [recordEntries_eq, recordEntries_eq]
  exact recordAll_perm t (h.filterMap Entry.outcome?)

end Tally

end Benchmark

end ExactSimplex
