import Turnstile.Queue.Consumers

namespace Turnstile

def Popped.values {α : Type} : Popped α → List α
  | value a => [a]
  | cancelled | pending => []

namespace Consumers

inductive Action (ι τ α : Type) where
  | push (a : α)
  | tryPop
  | create (i : ι) (token : Token τ)
  | poll (i : ι)
  | drop (i : ι)
  | cancel (t : τ)
deriving DecidableEq, Repr

variable {ι τ α : Type} [DecidableEq ι] [DecidableEq τ]

def act (c : Consumers ι τ α) : Action ι τ α → Consumers ι τ α
  | .push a => c.push a
  | .tryPop => c.tryPop.1
  | .create i token => if c.pops.contains i then c else c.create i token
  | .poll i => (c.poll i).1
  | .drop i => c.drop i
  | .cancel t => c.cancel t

def Action.pushes : Action ι τ α → List α
  | push a => [a]
  | _ => []

/-- What the action hands out of the queue. -/
def gives (c : Consumers ι τ α) : Action ι τ α → List α
  | .tryPop => c.tryPop.2.toList
  | .poll i => (c.poll i).2.elim [] Popped.values
  | _ => []

/-- A queue and its removals, with all that was pushed and all that was handed out so far. -/
structure History (ι τ α : Type) where
  consumers : Consumers ι τ α := {}
  pushed : List α := []
  given : List α := []

namespace History

def step (h : History ι τ α) (a : Action ι τ α) : History ι τ α where
  consumers := h.consumers.act a
  pushed := h.pushed ++ a.pushes
  given := h.given ++ h.consumers.gives a

def after (h : History ι τ α) (as : List (Action ι τ α)) : History ι τ α := as.foldl step h

inductive Reachable : History ι τ α → Prop where
  | fresh : Reachable {}
  | step {h : History ι τ α} (a : Action ι τ α) : Reachable h → Reachable (h.step a)

theorem Reachable.after {h : History ι τ α} (hr : Reachable h) (as : List (Action ι τ α)) :
    Reachable (h.after as) := by
  induction as generalizing h with
  | nil => exact hr
  | cons a as ih => exact ih (hr.step a)

end History

end Consumers

namespace Queue

variable {ι α : Type} [DecidableEq ι]

omit [DecidableEq ι] in
theorem elements_tryPop (q : Queue ι α) :
    q.tryPop.2.toList ++ q.tryPop.1.elements = q.elements := by
  unfold tryPop
  split
  · simp [*]
  · simp [*]

theorem elements_popOrRegister (q : Queue ι α) (i : ι) :
    (q.popOrRegister i).2.values ++ (q.popOrRegister i).1.elements = q.elements := by
  cases hq : q.elements <;> cases hs : q.signal.stored <;>
    simp [popOrRegister, Signal.attend, Popped.values, hq, hs]

theorem elements_pollFirst (q : Queue ι α) (i : ι) (cancelled : Bool) :
    (q.pollFirst i cancelled).2.values ++ (q.pollFirst i cancelled).1.elements = q.elements := by
  cases cancelled with
  | true => rfl
  | false => exact elements_popOrRegister q i

theorem elements_pollAgain (q : Queue ι α) (i : ι) (cancelled : Bool) :
    (q.pollAgain i cancelled).2.values ++ (q.pollAgain i cancelled).1.elements = q.elements := by
  cases cancelled with
  | true => rfl
  | false =>
    cases hm : q.signal.isMarked i with
    | true =>
      have h := elements_popOrRegister (q.stepOut i) i
      simpa [pollAgain, hm, stepOut] using h
    | false => simp [pollAgain, hm, Popped.values]

end Queue

namespace Consumers

variable {ι τ α : Type} [DecidableEq ι] [DecidableEq τ]

theorem elements_poll (c : Consumers ι τ α) (i : ι) :
    (c.poll i).2.elim [] Popped.values ++ (c.poll i).1.queue.elements = c.queue.elements := by
  unfold poll
  split
  · rfl
  · split
    · exact Queue.elements_pollFirst _ _ _
    · exact Queue.elements_pollAgain _ _ _
    · rfl

omit [DecidableEq τ] in
theorem elements_drop (c : Consumers ι τ α) (i : ι) :
    (c.drop i).queue.elements = c.queue.elements := by
  unfold drop
  split
  · rfl
  · split <;> rfl

theorem elements_act (c : Consumers ι τ α) (a : Action ι τ α) :
    c.gives a ++ (c.act a).queue.elements = c.queue.elements ++ a.pushes := by
  cases a with
  | push a => rfl
  | tryPop => simpa [gives, act, tryPop, Action.pushes] using c.queue.elements_tryPop
  | create i token =>
    by_cases hi : c.pops.contains i <;> simp [gives, act, create, Action.pushes, hi]
  | poll i => simpa [gives, act, Action.pushes] using c.elements_poll i
  | drop i => simpa [gives, act, Action.pushes] using c.elements_drop i
  | cancel t => simp [gives, act, cancel, Action.pushes]

namespace History

variable {h : History ι τ α}

theorem Reachable.given_append (hr : h.Reachable) :
    h.given ++ h.consumers.queue.elements = h.pushed := by
  induction hr with
  | fresh => rfl
  | @step h a _ ih =>
    calc h.given ++ h.consumers.gives a ++ (h.consumers.act a).queue.elements
        = h.given ++ (h.consumers.queue.elements ++ a.pushes) := by
          rw [List.append_assoc, elements_act]
      _ = h.pushed ++ a.pushes := by rw [← List.append_assoc, ih]

theorem step_of_gives {a : Action ι τ α} (hg : h.consumers.gives a = []) (hp : a.pushes = []) :
    (h.step a).given = h.given ∧
      (h.step a).consumers.queue.elements = h.consumers.queue.elements := by
  have he := h.consumers.elements_act a
  rw [hg, hp, List.nil_append, List.append_nil] at he
  exact ⟨by simp [step, hg], he⟩

end History

end Consumers

open Consumers History

variable {ι τ α : Type} [DecidableEq ι] [DecidableEq τ]

/-- What was handed out, and after it what is still queued, is what was pushed, in its order. A
removal that is polled in vain or cancelled, dropped, or not even polled hands out nothing, and the
queue keeps its elements. -/
theorem first_in_first_out {h : Consumers.History ι τ α} (hr : h.Reachable) :
    h.given ++ h.consumers.queue.elements = h.pushed ∧
    (∀ i, (∀ a, (h.consumers.poll i).2 ≠ some (.value a)) →
      (h.step (.poll i)).given = h.given ∧
        (h.step (.poll i)).consumers.queue.elements = h.consumers.queue.elements) ∧
    ∀ a, (∃ i token, a = .create i token) ∨ (∃ i, a = .drop i) ∨ (∃ t, a = .cancel t) →
      (h.step a).given = h.given ∧
        (h.step a).consumers.queue.elements = h.consumers.queue.elements := by
  refine ⟨hr.given_append, ?_, ?_⟩
  · intro i hi
    refine step_of_gives ?_ rfl
    cases hp : (h.consumers.poll i).2 with
    | none => simp [gives, hp]
    | some p =>
      cases p with
      | value a => exact (hi a hp).elim
      | cancelled | pending => simp [gives, hp, Popped.values]
  · rintro a (⟨i, token, rfl⟩ | ⟨i, rfl⟩ | ⟨t, rfl⟩) <;> exact step_of_gives rfl rfl

/-- The first removal is dropped after it was woken, and the second comes too late for the wake-up
that is handed on to it: a third has been faster. -/
theorem first_in_first_out_dropped :
    let h := ({} : Consumers.History Nat Nat String).after [.create 0 ⟨0, []⟩, .create 1 ⟨0, []⟩,
      .poll 0, .poll 1, .push "a", .drop 0, .create 2 ⟨0, []⟩, .poll 2, .poll 1, .push "b"]
    h.given = ["a"] ∧ h.consumers.queue.elements = ["b"] ∧ h.pushed = ["a", "b"] ∧
      h.given ++ h.consumers.queue.elements = h.pushed :=
  have hr := Reachable.fresh.after [.create 0 ⟨0, []⟩, .create 1 ⟨0, []⟩, .poll 0, .poll 1,
    .push "a", .drop 0, .create 2 ⟨0, []⟩, .poll 2, .poll 1, .push "b"]
  ⟨by decide, by decide, by decide, (first_in_first_out hr).1⟩

end Turnstile
