import Mathlib.Logic.Function.Basic
import Turnstile.Dispatcher.Poll

namespace Turnstile

/-- Polled before, and neither finished nor dropped. -/
def GranterState.isUnderWay : GranterState → Bool
  | locking | retiring | popping | draining _ => true
  | created | finished | dropped => false

def Submission.isUnderWay : Submission → Bool
  | entering _ | waiting _ | granted _ | running => true
  | created | ended _ => false

def Future.isUnderWay : Future → Bool
  | submission s => s.isUnderWay
  | granter _ s => s.isUnderWay

/-- The completion handle is with the submission, which has neither used nor dropped it. -/
def Submission.hasTurn : Submission → Bool
  | granted _ | running => true
  | _ => false

theorem update_eq_some {ι β : Type} [DecidableEq ι] {f : ι → Option β} {i j : ι} {a b : β} :
    Function.update f i (some a) j = some b ↔ j = i ∧ a = b ∨ j ≠ i ∧ f j = some b := by
  by_cases h : j = i <;> simp [h]

namespace Dispatcher

variable {ι : Type} [DecidableEq ι]

def granter? (d : Dispatcher ι) (i : ι) : Option (GranterKind × GranterState) :=
  match d.futures.get? i with
  | some (.granter k s) => some (k, s)
  | _ => none

theorem granter?_eq_some {d : Dispatcher ι} {i : ι} {k : GranterKind} {s : GranterState} :
    d.granter? i = some (k, s) ↔ d.futures.get? i = some (.granter k s) := by
  unfold granter?
  split <;> simp_all

theorem submission?_eq_some {d : Dispatcher ι} {i : ι} {s : Submission} :
    d.submission? i = some s ↔ d.futures.get? i = some (.submission s) := by
  unfold submission?
  split <;> simp_all

theorem submission?_of_granter? {d : Dispatcher ι} {i : ι} {g : GranterKind × GranterState}
    (h : d.granter? i = some g) : d.submission? i = none := by
  simp [submission?, granter?_eq_some.mp h]

theorem granter?_of_submission? {d : Dispatcher ι} {i : ι} {s : Submission}
    (h : d.submission? i = some s) : d.granter? i = none := by
  simp [granter?, submission?_eq_some.mp h]

theorem granter?_of_get? {d : Dispatcher ι} {i : ι} (h : d.futures.get? i = none) :
    d.granter? i = none := by
  simp [granter?, h]

theorem submission?_of_get? {d : Dispatcher ι} {i : ι} (h : d.futures.get? i = none) :
    d.submission? i = none := by
  simp [submission?, h]

theorem hasTurn_iff {d : Dispatcher ι} {i : ι} :
    d.hasTurn i = true ↔ ∃ s, d.submission? i = some s ∧ s.hasTurn = true := by
  unfold hasTurn
  cases d.submission? i with
  | none => simp
  | some s => cases s <;> simp [Submission.hasTurn]

theorem granter?_setGranter (d : Dispatcher ι) (i : ι) (k : GranterKind) (s : GranterState) :
    (d.setGranter i k s).granter? = Function.update d.granter? i (some (k, s)) := by
  funext j
  by_cases h : i = j
  · subst j
    simp [granter?, setGranter, Table.get?_put]
  · simp [granter?, setGranter, Table.get?_put, h, Ne.symm h]

theorem submission?_setSubmission (d : Dispatcher ι) (i : ι) (s : Submission) :
    (d.setSubmission i s).submission? = Function.update d.submission? i (some s) := by
  funext j
  by_cases h : i = j
  · subst j
    simp [submission?, setSubmission, Table.get?_put]
  · simp [submission?, setSubmission, Table.get?_put, h, Ne.symm h]

theorem submission?_setGranter {d : Dispatcher ι} {i : ι} (h : d.submission? i = none)
    (k : GranterKind) (s : GranterState) : (d.setGranter i k s).submission? = d.submission? := by
  funext j
  by_cases hj : i = j
  · subst j
    rw [h]
    simp [submission?, setGranter, Table.get?_put]
  · simp [submission?, setGranter, Table.get?_put, hj]

theorem granter?_setSubmission {d : Dispatcher ι} {i : ι} (h : d.granter? i = none)
    (s : Submission) : (d.setSubmission i s).granter? = d.granter? := by
  funext j
  by_cases hj : i = j
  · subst j
    rw [h]
    simp [granter?, setSubmission, Table.get?_put]
  · simp [granter?, setSubmission, Table.get?_put, hj]

end Dispatcher

end Turnstile
