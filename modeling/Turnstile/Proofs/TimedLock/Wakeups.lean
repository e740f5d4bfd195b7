import Turnstile.Proofs.TimedLock.History

namespace Turnstile

open TimedLock Threads History

namespace TimedLock

variable {ι : Type} [DecidableEq ι]

/-- Somebody will see to it that a thread which is parked on a free lock is woken: one that has
still to notify, or one that has left the condition variable and has still to look. -/
structure Threads.Sound (s : Threads ι) : Prop where
  tended : s.lock.locked = false → ∀ t, (s.state t).isParked = true →
    ∃ u, s.state u = .notifying ∨ (s.state u).isAwake = true
  ended : s.ended = true → s.lock.locked = true

theorem Threads.Sound.of_locked {s : Threads ι} (hl : s.lock.locked = true) : s.Sound where
  tended hf := by simp [hl] at hf
  ended _ := hl

theorem Threads.Sound.act {s : Threads ι} (hs : s.Sound) (a : Action ι) : (s.act a).1.Sound := by
  have he := effect s a
  generalize s.act a = r at he
  cases he with
  | takes _ hl' | waits _ hl' => exact .of_locked hl'
  | @releases s' t _ _ hst hn =>
    exact ⟨fun _ _ _ => ⟨t, .inl hst⟩, fun he => by simp [hn] at he⟩
  | @fails s' t hl ha =>
    obtain ⟨-, rfl⟩ | ⟨-, -, rfl⟩ := ha
    · exact hs
    · exact ⟨hs.tended, hs.ended⟩
  | @moves s' hl _ he hst =>
    refine ⟨fun hf t ht => ?_, fun hn => by rw [hl]; exact hs.ended (he ▸ hn)⟩
    obtain hst | ⟨u, hu⟩ | hall := hst
    · rw [hst] at ht ⊢
      exact hs.tended (hl ▸ hf) t ht
    · exact ⟨u, .inr hu⟩
    · simp [hall t] at ht

theorem History.Reachable.sound {h : History ι} (hr : h.Reachable) : h.threads.Sound := by
  induction hr with
  | fresh timeout => exact ⟨fun _ t ht => (nomatch ht), fun he => (nomatch he)⟩
  | step a _ ih => exact ih.act a

variable {s : Threads ι} {t u : ι}

theorem Threads.wakes_of_notify {target : Option ι} (hn : s.ended = false)
    (ht : (s.state t).isParked = true) (ha : s.allows (.notify u target) = true) :
    ∃ v, target = some v ∧ ((s.act (.notify u target)).1.state v).isAwake = true := by
  have hp : s.act (.notify u target) = (s.notify u target, none) := by simp [act, hn, ha, perform]
  cases target with
  | none =>
    simp only [allows, Bool.and_eq_true, decide_eq_true_eq] at ha
    simp [not_parked_of_all ha.2 t] at ht
  | some v =>
    simp only [allows, Bool.and_eq_true, decide_eq_true_eq] at ha
    obtain ⟨hu, hv⟩ := ha
    have hv' : s.notify u (some v) = (s.set u .idle).wake v .signalled := by simp [notify, hu]
    rw [hp, hv']
    exact ⟨v, rfl, isAwake_wake (isParked_set hv hu) _⟩

theorem Threads.acquires_of_recheck (hn : s.ended = false) (hl : s.lock.locked = false)
    (hu : (s.state u).isAwake = true) : (s.act (.recheck u)).2 = some .acquired := by
  have hp : s.act (.recheck u) = ((s.recheck u).1, some (s.recheck u).2) := by
    simp [act, hn, allows, hu, perform]
  rw [hp]
  cases hst : s.state u with
  | awake c w why => simp [recheck, hst, TimedLock.recheck, hl, conclude]
  | idle | parked | notifying => simp [hst, ThreadState.isAwake] at hu

end TimedLock

variable {ι : Type} [DecidableEq ι] {h : TimedLock.History ι} {t : ι}

/-- Where a thread is parked on a free lock, a release has still to notify, and will notify a
parked thread, or a thread has left the condition variable, and will get the lock if it looks now. -/
theorem release_reaches_waiter (hr : h.Reachable) (hl : h.threads.lock.locked = false)
    (ht : (h.threads.state t).isParked = true) :
    ∃ u, (h.threads.state u = .notifying ∧ h.threads.allows (.notify u (some t)) = true ∧
        ∀ target, h.threads.allows (.notify u target) = true → ∃ v, target = some v ∧
          ((h.threads.act (.notify u target)).1.state v).isAwake = true) ∨
      ((h.threads.state u).isAwake = true ∧ (h.threads.act (.recheck u)).2 = some .acquired) := by
  have hn : h.threads.ended = false := by
    cases he : h.threads.ended with
    | false => rfl
    | true => simp [hr.sound.ended he] at hl
  obtain ⟨u, hu | hu⟩ := hr.sound.tended hl t ht
  · exact ⟨u, .inl ⟨hu, by simp [allows, hu, ht], fun target ha => wakes_of_notify hn ht ha⟩⟩
  · exact ⟨u, .inr ⟨hu, acquires_of_recheck hn hl hu⟩⟩

/-- A thread that barges in takes the lock before the waiter that was notified looks at it. The
waiter parks again, and the release of the other will reach it. -/
theorem release_reaches_waiter_barged :
    let h := (fresh (.ofMillis 5) : TimedLock.History (Fin 3)).after [.call 0 .lock, .call 1 .guard,
      .unlock 0, .tryLock 2, .notify 0 (some 1), .recheck 1, .unlock 2]
    h.threads.lock.locked = false ∧ (h.threads.state 1).isParked = true ∧
      ∃ u, (h.threads.state u = .notifying ∧ h.threads.allows (.notify u (some 1)) = true ∧
          ∀ target, h.threads.allows (.notify u target) = true → ∃ v, target = some v ∧
            ((h.threads.act (.notify u target)).1.state v).isAwake = true) ∨
        ((h.threads.state u).isAwake = true ∧ (h.threads.act (.recheck u)).2 = some .acquired) :=
  have hr := (Reachable.fresh (.ofMillis 5)).after [.call 0 .lock, .call 1 .guard, .unlock 0,
    .tryLock 2, .notify 0 (some 1), .recheck 1, .unlock 2]
  ⟨by decide, by decide, release_reaches_waiter hr (by decide) (t := 1) (by decide)⟩

end Turnstile
