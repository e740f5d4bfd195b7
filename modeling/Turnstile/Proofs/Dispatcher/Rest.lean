import Mathlib.Data.Fintype.Basic
import Turnstile.Proofs.Dispatcher.Barrier

namespace Turnstile

namespace Dispatcher

variable {ι : Type} [DecidableEq ι] {d : Dispatcher ι} {i : ι} {k : GranterKind}
  {s : GranterState}

/-- No callback is being run, and no future that is under way gets any further by a poll. -/
def IsAtRest (d : Dispatcher ι) : Prop :=
  ∀ i, d.submission? i ≠ some .running ∧
    ∀ f ∈ d.futures.get? i, f.isUnderWay = true → d.poll i = (d, .pending)

instance [Fintype ι] (d : Dispatcher ι) : Decidable d.IsAtRest :=
  inferInstanceAs (Decidable (∀ i, d.submission? i ≠ some .running ∧
    ∀ f ∈ d.futures.get? i, f.isUnderWay = true → d.poll i = (d, .pending)))

theorem IsAtRest.poll_granter (hd : d.IsAtRest) (hi : d.granter? i = some (k, s))
    (hu : s.isUnderWay = true) : d.poll i = (d, .pending) :=
  (hd i).2 _ (granter?_eq_some.mp hi) hu

theorem Sound.exists_holder (hs : d.Sound) (hi : d.granter? i = some (k, s))
    (hu : s.isUnderWay = true) :
    ∃ j k' s', d.baton.holder = some j ∧ d.granter? j = some (k', s') ∧ s'.isUnderWay = true := by
  cases hh : d.baton.holder with
  | some j =>
    obtain ⟨k', s', hj, hu'⟩ := hs.baton.holder j hh
    exact ⟨j, k', s', rfl, hj, hu'⟩
  | none =>
    by_cases hl : s = .locking
    · subst s
      have hm : i ∈ d.baton.line := (hs.baton.line i).mpr ⟨⟨k, hi⟩, by simp [hh]⟩
      rw [hs.baton.free hh] at hm
      cases hm
    · have := hs.baton.holding i k s hi hu hl
      rw [hh] at this
      cases this

theorem IsAtRest.hasTurn_eq_false (hd : d.IsAtRest) (i : ι) : d.hasTurn i = false := by
  apply Bool.eq_false_iff.mpr
  intro ht
  obtain ⟨s, hi, hst⟩ := hasTurn_iff.mp ht
  cases s with
  | granted since =>
    have hp := (hd i).2 _ (submission?_eq_some.mp hi) rfl
    rw [poll_of_granted hi] at hp
    simp [startCallback] at hp
  | running => exact (hd i).1 hi
  | created | entering | waiting | ended => cases hst

/-- Of all the ways in which a granter comes to rest, only the wait in an empty queue lasts. -/
theorem Sound.holder_at_rest (hs : d.Sound) (hd : d.IsAtRest) (hh : d.baton.holder = some i)
    (hi : d.granter? i = some (k, s)) (hu : s.isUnderWay = true) :
    d.queue.elements = [] ∧ d.awaited = none ∧ d.closed = false := by
  have ho : Outcome i k (d, .pending) := by
    obtain ⟨-, ho | ⟨-, hn⟩⟩ := pollGranter_spec hs hi
    · rwa [← poll_of_granter hi, hd.poll_granter hi hu] at ho
    · exact (hn hu hh).elim
  cases ho with
  | blocked _ _ hr =>
    obtain ⟨j, -, hj⟩ := retireTurn_eq_none.mp hr
    rw [hd.hasTurn_eq_false j] at hj
    cases hj
  | waits hp hst hm =>
    obtain ⟨-, hn, m, hw, hq⟩ := hs.wait.popping i k hp
    have hm' : m = false := by simpa [Signal.isMarked, hw] using hm
    exact ⟨hq hm', hn, hs.phase.stopping ▸ hst⟩

end Dispatcher

open Dispatcher History

variable {ι : Type} [DecidableEq ι] {h : History ι}

/-- A dispatcher that is at rest while a granter is under way is open and has nothing left to do. A
closed one comes to rest only when all that it let in have ended, and all who granted turns. -/
theorem never_stalls (hr : h.Reachable) (hd : h.dispatcher.IsAtRest) :
    (∀ i k s, h.dispatcher.granter? i = some (k, s) → s.isUnderWay = true →
      h.dispatcher.queue.elements = [] ∧ h.dispatcher.awaited = none ∧
        (∀ j, h.dispatcher.hasTurn j = false) ∧ (∀ j ∈ h.accepted, h.IsOver j) ∧
        h.dispatcher.closed = false) ∧
    (h.dispatcher.closed = true →
      (∃ i k s, h.dispatcher.granter? i = some (k, s) ∧ s ≠ .created ∧ s ≠ .dropped) →
      (∀ i k s, h.dispatcher.granter? i = some (k, s) → s.isUnderWay = false) ∧
        ∀ j ∈ h.accepted, h.IsOver j) := by
  have hs := hr.sound
  have hrest : ∀ i k s, h.dispatcher.granter? i = some (k, s) → s.isUnderWay = true →
      h.dispatcher.queue.elements = [] ∧ h.dispatcher.awaited = none ∧
        h.dispatcher.closed = false := by
    intro i k s hi hu
    obtain ⟨j, k', s', hh, hj, hu'⟩ := hs.exists_holder hi hu
    exact hs.holder_at_rest hd hh hj hu'
  refine ⟨?_, ?_⟩
  · intro i k s hi hu
    obtain ⟨hq, hn, hc⟩ := hrest i k s hi hu
    have ht := hs.hasTurn_of_awaited hn
    exact ⟨hq, hn, ht, fun j hj => hr.isOver hj (by simp [hq]) (ht j), hc⟩
  · rintro hc ⟨i, k, s, hi, hcr, hdr⟩
    have hu : ∀ i k s, h.dispatcher.granter? i = some (k, s) → s.isUnderWay = false := by
      intro i k s hi
      apply Bool.eq_false_iff.mpr
      intro hu
      simp [(hrest i k s hi hu).2.2] at hc
    have hf : s = .finished := by
      have := hu i k s hi
      cases s <;> simp_all [GranterState.isUnderWay]
    subst s
    exact ⟨hu, fun j hj => hr.isOver_of_drained (hs.phase.finished i k hi) hj⟩

/-- A loop waits in the queue, and another that was before it was dropped with a turn out. -/
theorem never_stalls_second_loop :
    let h := (fresh {} : History (Fin 4)).after [.submit 0, .poll 0, .run 1, .poll 1, .run 2,
      .poll 2, .drop 1, .poll 2, .poll 0, .finish 0 false, .poll 2]
    h.dispatcher.IsAtRest ∧ h.dispatcher.granter? 2 = some (.loop, .popping) ∧
      h.dispatcher.queue.elements = [] ∧ h.dispatcher.closed = false :=
  have hr := (Reachable.fresh {}).after [.submit 0, .poll 0, .run 1, .poll 1, .run 2,
    .poll 2, .drop 1, .poll 2, .poll 0, .finish 0 false, .poll 2]
  have hd := by decide
  have hl := (never_stalls hr hd).1 2 .loop .popping (by decide) rfl
  ⟨hd, by decide, hl.1, hl.2.2.2.2⟩

end Turnstile
