import Mathlib.Logic.Function.Basic
import Turnstile.TimedLock.Threads

namespace Turnstile.TimedLock

def ThreadState.isParked : ThreadState → Bool
  | parked .. => true
  | _ => false

def ThreadState.isAwake : ThreadState → Bool
  | awake .. => true
  | _ => false

/-- One critical section of a thread, or what becomes of a thread between two of them. -/
inductive Action (ι : Type) where
  | call (t : ι) (c : Call)
  | tryLock (t : ι)
  | unlock (t : ι)
  | dropGuard (t : ι)
  | forgetGuard (t : ι)
  | notify (t : ι) (target : Option ι)
  | wake (t : ι) (why : Wake)
  | recheck (t : ι)
  | advance (ns : Nat)
deriving DecidableEq, Repr

namespace Threads

variable {ι : Type} [DecidableEq ι]

/-- A thread begins nothing new before it is through with what it does. Only a guard that is alive
can be dropped or forgotten, and a notification goes to a parked thread if there is any. -/
def allows (s : Threads ι) : Action ι → Bool
  | .call t _ | .tryLock t | .unlock t => s.state t = .idle
  | .dropGuard t | .forgetGuard t => s.state t = .idle && decide (0 < s.guards)
  | .notify t none => s.state t = .notifying && s.states.entries.all fun e => !e.2.isParked
  | .notify t (some u) => s.state t = .notifying && (s.state u).isParked
  | .wake t why => (s.state t).isParked && why ≠ .signalled
  | .recheck t => (s.state t).isAwake
  | .advance _ => true

def perform (s : Threads ι) : Action ι → Threads ι × Option Outcome
  | .call t c => ((s.call t c).1, some (s.call t c).2)
  | .tryLock _ => (s.tryLock.1, some s.tryLock.2)
  | .unlock t => ((s.unlock t).1, some (s.unlock t).2)
  | .dropGuard t => ((s.dropGuard t).1, some (s.dropGuard t).2)
  | .forgetGuard _ => (s.forgetGuard, none)
  | .notify t target => (s.notify t target, none)
  | .wake t why => (s.wake t why, none)
  | .recheck t => ((s.recheck t).1, some (s.recheck t).2)
  | .advance ns => ({ s with now := s.now + ns }, none)

def act (s : Threads ι) (a : Action ι) : Threads ι × Option Outcome :=
  if s.ended = false ∧ s.allows a = true then s.perform a else (s, none)

theorem state_set (s : Threads ι) (t : ι) (st : ThreadState) :
    (s.set t st).state = Function.update s.state t st := by
  funext u
  by_cases h : t = u
  · subst u
    simp [state, set, Table.get?_put]
  · simp [state, set, Table.get?_put, h, Ne.symm h]

theorem not_parked_of_all {s : Threads ι} (h : (s.states.entries.all fun e => !e.2.isParked) = true)
    (t : ι) : (s.state t).isParked = false := by
  unfold state Table.get?
  generalize s.states.entries = es at h
  induction es with
  | nil => rfl
  | cons e es ih =>
    simp only [List.all_cons, Bool.and_eq_true, Bool.not_eq_true'] at h
    by_cases he : e.1 = t
    · simp [Assoc.lookup_cons, he, h.1]
    · simpa [Assoc.lookup_cons, he] using ih h.2

inductive Effect (s : Threads ι) : Action ι → Threads ι × Option Outcome → Prop where
  | takes {a : Action ι} {s' : Threads ι} (hl : s.lock.locked = false)
      (hl' : s'.lock.locked = true) (hg : s'.guards = s.guards ∨ s'.guards = s.guards + 1) :
      Effect s a (s', some .acquired)
  | waits {a : Action ι} {s' : Threads ι} {o : Outcome} (hl : s.lock.locked = true)
      (hl' : s'.lock.locked = true) (hg : s'.guards = s.guards)
      (ho : o ≠ .acquired ∧ o ≠ .released ∧ o ≠ .panicked) : Effect s a (s', some o)
  | releases {a : Action ι} {s' : Threads ι} {t : ι} (hl : s.lock.locked = true)
      (hl' : s'.lock.locked = false) (hst : s'.state t = .notifying) (he : s'.ended = false)
      (ha : a = .unlock t ∧ s'.guards = s.guards ∨ a = .dropGuard t ∧ s'.guards + 1 = s.guards) :
      Effect s a (s', some .released)
  | fails {a : Action ι} {s' : Threads ι} {t : ι} (hl : s.lock.locked = false)
      (ha : a = .unlock t ∧ s' = s ∨ a = .dropGuard t ∧ 0 < s.guards ∧ s' = s.forgetGuard) :
      Effect s a (s', some .panicked)
  | moves {a : Action ι} {s' : Threads ι} (hl : s'.lock = s.lock) (hg : s'.guards ≤ s.guards)
      (he : s'.ended = s.ended) (hst : s'.state = s.state ∨ (∃ t, (s'.state t).isAwake = true) ∨
        ∀ t, (s'.state t).isParked = false) : Effect s a (s', none)

variable {s : Threads ι} {t : ι}

theorem effect_conclude {a : Action ι} {r : TimedLock × Attempt} (c : Call) (w : Window)
    (hr : s.lock.locked = false ∧ r = ({ s.lock with locked := true }, .acquired) ∨
      s.lock.locked = true ∧ r.1 = s.lock ∧ r.2 ≠ .acquired) :
    Effect s a ((s.conclude t c w r).1, some (s.conclude t c w r).2) := by
  obtain ⟨hl, rfl⟩ | ⟨hl, h₁, h₂⟩ := hr
  · refine .takes hl ?_ ?_
    · cases c <;> rfl
    · cases c with
      | guard => exact .inr rfl
      | lock | shared | lockWithin => exact .inl rfl
  · obtain ⟨l, att⟩ := r
    obtain rfl : l = s.lock := h₁
    cases att with
    | acquired => exact (h₂ rfl).elim
    | parked => exact .waits hl hl rfl (by simp [conclude])
    | timedOut e => cases c <;> exact .waits hl hl rfl (by simp [conclude])

theorem effect_call (a : Action ι) (t : ι) (c : Call) :
    Effect s a ((s.call t c).1, some (s.call t c).2) := by
  refine effect_conclude c _ ?_
  cases hl : s.lock.locked <;> simp [arrive, hl]

theorem effect_recheck (a : Action ι) (ht : (s.state t).isAwake = true) :
    Effect s a ((s.recheck t).1, some (s.recheck t).2) := by
  unfold recheck
  split
  · rename_i c w why _
    refine effect_conclude c w ?_
    cases hl : s.lock.locked
    · simp [TimedLock.recheck, hl]
    · by_cases hw : why = .timedOut ∧ w.bounded = true <;> simp [TimedLock.recheck, hl, hw]
  · cases hst : s.state t <;> simp_all [ThreadState.isAwake]

theorem effect_tryLock (a : Action ι) : Effect s a (s.tryLock.1, some s.tryLock.2) := by
  cases hl : s.lock.locked with
  | false =>
    simp only [tryLock, TimedLock.tryLock, hl, Bool.false_eq_true, ↓reduceIte]
    exact .takes hl rfl (.inl rfl)
  | true =>
    simp only [tryLock, TimedLock.tryLock, hl, ↓reduceIte]
    exact .waits hl hl rfl (by simp)

theorem unlock_cases (s : Threads ι) (t : ι) :
    s.lock.locked = true ∧
        s.unlock t =
          ({ s with lock := { s.lock with locked := false } }.set t .notifying, .released) ∨
      s.lock.locked = false ∧ s.unlock t = (s, .panicked) := by
  cases hl : s.lock.locked <;> simp [unlock, TimedLock.unlock, hl]

theorem effect_unlock (hn : s.ended = false) (t : ι) :
    Effect s (.unlock t) ((s.unlock t).1, some (s.unlock t).2) := by
  obtain ⟨hl, hu⟩ | ⟨hl, hu⟩ := s.unlock_cases t
  · rw [hu]
    exact .releases (t := t) hl rfl (by simp [state_set]) hn (.inl ⟨rfl, rfl⟩)
  · rw [hu]
    exact .fails hl (.inl ⟨rfl, rfl⟩)

theorem effect_dropGuard (hn : s.ended = false) (t : ι) (hg : 0 < s.guards) :
    Effect s (.dropGuard t) ((s.dropGuard t).1, some (s.dropGuard t).2) := by
  unfold dropGuard
  obtain ⟨hl, hu⟩ | ⟨hl, hu⟩ := s.forgetGuard.unlock_cases t
  · rw [hu]
    refine .releases (t := t) hl rfl (by simp [state_set]) hn (.inr ⟨rfl, ?_⟩)
    exact Nat.sub_add_cancel hg
  · rw [hu]
    exact .fails hl (.inr ⟨rfl, hg, rfl⟩)

theorem isAwake_wake (ht : (s.state t).isParked = true) (why : Wake) :
    ((s.wake t why).state t).isAwake = true := by
  unfold wake
  split
  · simp [state_set, ThreadState.isAwake]
  · cases hst : s.state t <;> simp_all [ThreadState.isParked]

theorem wake_same (s : Threads ι) (t : ι) (why : Wake) :
    (s.wake t why).lock = s.lock ∧ (s.wake t why).guards = s.guards ∧
      (s.wake t why).ended = s.ended := by
  unfold wake
  split <;> exact ⟨rfl, rfl, rfl⟩

theorem isParked_set {u : ι} (hu : (s.state u).isParked = true) (ht : s.state t = .notifying) :
    ((s.set t .idle).state u).isParked = true := by
  have hut : u ≠ t := by
    rintro rfl
    simp [ht, ThreadState.isParked] at hu
  rwa [state_set, Function.update_of_ne hut]

theorem effect_notify {target : Option ι} (ha : s.allows (.notify t target) = true) :
    Effect s (.notify t target) (s.notify t target, none) := by
  cases target with
  | none =>
    simp only [allows, Bool.and_eq_true, decide_eq_true_eq] at ha
    obtain ⟨ht, hall⟩ := ha
    have hn : s.notify t none = s.set t .idle := by simp [notify, ht]
    rw [hn]
    refine .moves rfl (Nat.le_refl _) rfl (.inr (.inr fun u => ?_))
    by_cases hu : u = t
    · subst u
      simp [state_set, ThreadState.isParked]
    · rw [state_set, Function.update_of_ne hu]
      exact not_parked_of_all hall u
  | some u =>
    simp only [allows, Bool.and_eq_true, decide_eq_true_eq] at ha
    obtain ⟨ht, hu⟩ := ha
    have hn : s.notify t (some u) = (s.set t .idle).wake u .signalled := by simp [notify, ht]
    obtain ⟨hl, hg, he⟩ := (s.set t .idle).wake_same u .signalled
    rw [hn]
    exact .moves hl (Nat.le_of_eq hg) he (.inr (.inl ⟨u, isAwake_wake (isParked_set hu ht) _⟩))

theorem effect (s : Threads ι) (a : Action ι) : Effect s a (s.act a) := by
  unfold act
  split
  · rename_i h
    obtain ⟨hn, ha⟩ := h
    cases a with
    | call t c => exact effect_call _ t c
    | tryLock t => exact effect_tryLock _
    | unlock t => exact effect_unlock hn t
    | dropGuard t =>
      simp only [allows, Bool.and_eq_true, decide_eq_true_eq] at ha
      exact effect_dropGuard hn t ha.2
    | forgetGuard t => exact .moves rfl (Nat.sub_le _ _) rfl (.inl rfl)
    | notify t target => exact effect_notify ha
    | wake t why =>
      simp only [allows, Bool.and_eq_true, decide_eq_true_eq] at ha
      obtain ⟨hl, hg, he⟩ := s.wake_same t why
      exact .moves hl (Nat.le_of_eq hg) he (.inr (.inl ⟨t, isAwake_wake ha.1 why⟩))
    | recheck t => exact effect_recheck _ ha
    | advance ns => exact .moves rfl (Nat.le_refl _) rfl (.inl rfl)
  · exact .moves rfl (Nat.le_refl _) rfl (.inl rfl)

end Threads

/-- A lock and its threads, with the acquisitions that have succeeded so far and the releases that
did not fail. -/
structure History (ι : Type) where
  threads : Threads ι
  acquired : Nat := 0
  released : Nat := 0
deriving DecidableEq

namespace History

variable {ι : Type} [DecidableEq ι]

def fresh (timeout : Duration) : History ι := { threads := { lock := { timeout := timeout } } }

def step (h : History ι) (a : Action ι) : History ι where
  threads := (h.threads.act a).1
  acquired := h.acquired + if (h.threads.act a).2 = some .acquired then 1 else 0
  released := h.released + if (h.threads.act a).2 = some .released then 1 else 0

def after (h : History ι) (as : List (Action ι)) : History ι := as.foldl step h

inductive Reachable : History ι → Prop where
  | fresh (timeout : Duration) : Reachable (fresh timeout)
  | step {h : History ι} (a : Action ι) : Reachable h → Reachable (h.step a)

theorem Reachable.after {h : History ι} (hr : Reachable h) (as : List (Action ι)) :
    Reachable (h.after as) := by
  induction as generalizing h with
  | nil => exact hr
  | cons a as ih => exact ih (hr.step a)

end History

end Turnstile.TimedLock
