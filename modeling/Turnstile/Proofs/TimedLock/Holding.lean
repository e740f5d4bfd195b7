import Turnstile.Proofs.TimedLock.History

namespace Turnstile

open TimedLock Threads History

namespace TimedLock

variable {ι : Type} [DecidableEq ι]

theorem Threads.Effect.balance {s : Threads ι} {a : Action ι} {r : Threads ι × Option Outcome}
    (he : s.Effect a r) :
    (if s.lock.locked then 1 else 0) + (if r.2 = some .acquired then 1 else 0) =
      (if r.1.lock.locked then 1 else 0) + if r.2 = some .released then 1 else 0 := by
  cases he with
  | takes hl hl' => simp [hl, hl']
  | waits hl hl' _ ho => simp [hl, hl', ho.1, ho.2.1]
  | releases hl hl' => simp [hl, hl']
  | @fails s' t hl ha =>
    have hs : s'.lock = s.lock := by
      obtain ⟨-, rfl⟩ | ⟨-, -, rfl⟩ := ha <;> rfl
    simp [hs]
  | moves hl => simp [hl]

def History.Balanced (h : History ι) : Prop :=
  h.acquired = h.released + if h.threads.lock.locked then 1 else 0

theorem History.Balanced.step {h : History ι} (hb : h.Balanced) (a : Action ι) :
    (h.step a).Balanced := by
  have he := (effect h.threads a).balance
  unfold Balanced at hb ⊢
  calc h.acquired + (if (h.threads.act a).2 = some .acquired then 1 else 0)
      = h.released + ((if h.threads.lock.locked then 1 else 0) +
          if (h.threads.act a).2 = some .acquired then 1 else 0) := by rw [hb, Nat.add_assoc]
    _ = h.released + ((if (h.threads.act a).1.lock.locked then 1 else 0) +
          if (h.threads.act a).2 = some .released then 1 else 0) := by rw [he]
    _ = h.released + (if (h.threads.act a).2 = some .released then 1 else 0) +
          if (h.threads.act a).1.lock.locked then 1 else 0 := by omega

theorem History.Reachable.balanced {h : History ι} (hr : h.Reachable) : h.Balanced := by
  induction hr with
  | fresh timeout => rfl
  | step a _ ih => exact ih.step a

/-- A guard is alive only while the lock is held. -/
def Threads.Guarded (s : Threads ι) : Prop := s.guards ≤ if s.lock.locked then 1 else 0

theorem Threads.Guarded.act {s : Threads ι} (hg : s.Guarded) {a : Action ι}
    (ha : ∀ t, a ≠ .unlock t) : (s.act a).1.Guarded ∧ (s.act a).2 ≠ some .panicked := by
  have he := effect s a
  unfold Guarded at hg ⊢
  generalize s.act a = r at he
  cases he with
  | takes hl hl' hg' =>
    simp only [hl, hl', Bool.false_eq_true, ↓reduceIte] at hg ⊢
    exact ⟨by omega, by simp⟩
  | waits hl hl' hg' ho =>
    simp only [hl, hl', ↓reduceIte] at hg ⊢
    exact ⟨by omega, by simpa using ho.2.2⟩
  | @releases s' t hl hl' _ _ ha' =>
    obtain ⟨rfl, -⟩ | ⟨-, hg'⟩ := ha'
    · exact (ha t rfl).elim
    · simp only [hl, hl', ↓reduceIte, Bool.false_eq_true] at hg ⊢
      exact ⟨by omega, by simp⟩
  | @fails s' t hl ha' =>
    obtain ⟨rfl, -⟩ | ⟨-, hpos, -⟩ := ha'
    · exact (ha t rfl).elim
    · simp only [hl, Bool.false_eq_true, ↓reduceIte] at hg
      omega
  | @moves s' hl hg' =>
    have hlt : s'.guards ≤ if s.lock.locked then 1 else 0 := Nat.le_trans hg' hg
    exact ⟨by rwa [hl], by simp⟩

theorem History.guarded_after {h : History ι} (hg : h.threads.Guarded) {as : List (Action ι)}
    (has : ∀ a ∈ as, ∀ t, a ≠ .unlock t) : (h.after as).threads.Guarded := by
  induction as generalizing h with
  | nil => exact hg
  | cons a as ih =>
    exact ih (hg.act (has a List.mem_cons_self)).1 fun b hb => has b (List.mem_cons_of_mem a hb)

theorem History.step_unlock {h : History ι} {t : ι} (hn : h.threads.ended = false)
    (ht : h.threads.state t = .idle) :
    ((h.threads.act (.unlock t)).2 = some .panicked ↔ h.threads.lock.locked = false) ∧
      ((h.threads.act (.unlock t)).2 = some .panicked → h.step (.unlock t) = h) := by
  have hp : h.threads.act (.unlock t) = h.threads.perform (.unlock t) := by
    simp [act, allows, hn, ht]
  obtain ⟨hl, hu⟩ | ⟨hl, hu⟩ := h.threads.unlock_cases t
  · simp [hp, perform, hu, hl]
  · simp [History.step, hp, perform, hu, hl]

theorem History.step_dropGuard {h : History ι} {t : ι} (hn : h.threads.ended = false)
    (ht : h.threads.state t = .idle) (hg : 0 < h.threads.guards) :
    ((h.threads.act (.dropGuard t)).2 = some .panicked ↔ h.threads.lock.locked = false) ∧
      ((h.threads.act (.dropGuard t)).2 = some .panicked →
        h.step (.dropGuard t) = { h with threads := h.threads.forgetGuard }) := by
  have hp : h.threads.act (.dropGuard t) = h.threads.perform (.dropGuard t) := by
    simp [act, allows, hn, ht, hg]
  obtain ⟨hl, hu⟩ | ⟨hl, hu⟩ := h.threads.forgetGuard.unlock_cases t
  · have hl' : h.threads.lock.locked = true := hl
    simp [hp, perform, dropGuard, hu, hl']
  · have hl' : h.threads.lock.locked = false := hl
    simp [History.step, hp, perform, dropGuard, hu, hl']

end TimedLock

variable {ι : Type} [DecidableEq ι] {h : TimedLock.History ι}

/-- There is at most one acquisition that was not released yet, and the lock is held exactly if
there is one. A release fails exactly if there is none, and changes nothing then. Where nobody
releases but by dropping a guard, no release fails and no two guards are alive. -/
theorem lock_counts_to_one (hr : h.Reachable) :
    (h.acquired = h.released ∨ h.acquired = h.released + 1) ∧
    (h.threads.lock.locked = true ↔ h.acquired = h.released + 1) ∧
    (h.threads.ended = false → ∀ t, h.threads.state t = .idle →
      (((h.threads.act (.unlock t)).2 = some .panicked ↔ h.acquired = h.released) ∧
        ((h.threads.act (.unlock t)).2 = some .panicked → h.step (.unlock t) = h)) ∧
      (0 < h.threads.guards →
        ((h.threads.act (.dropGuard t)).2 = some .panicked ↔ h.acquired = h.released) ∧
        ((h.threads.act (.dropGuard t)).2 = some .panicked →
          h.step (.dropGuard t) = { h with threads := h.threads.forgetGuard }))) ∧
    ∀ timeout (as : List (TimedLock.Action ι)), (∀ a ∈ as, ∀ t, a ≠ .unlock t) →
      let h' := (TimedLock.History.fresh timeout).after as
      h'.threads.guards ≤ 1 ∧
        ∀ a, (∀ t, a ≠ .unlock t) → (h'.threads.act a).2 ≠ some .panicked := by
  have hb := hr.balanced
  unfold TimedLock.History.Balanced at hb
  have hl : h.threads.lock.locked = false ↔ h.acquired = h.released := by
    cases hl : h.threads.lock.locked <;> simp [hl] at hb ⊢ <;> omega
  refine ⟨?_, ?_, ?_, ?_⟩
  · split at hb <;> omega
  · cases hl : h.threads.lock.locked <;> simp [hl] at hb ⊢ <;> omega
  · intro hn t ht
    rw [← hl]
    exact ⟨step_unlock hn ht, step_dropGuard hn ht⟩
  · intro timeout as has
    have hg : ((TimedLock.History.fresh timeout).after as).threads.Guarded :=
      guarded_after (h := TimedLock.History.fresh timeout) (Nat.zero_le _) has
    refine ⟨?_, fun a ha => (hg.act ha).2⟩
    unfold Guarded at hg
    split at hg <;> omega

/-- A guard that was dropped after the lock had been released otherwise: the release fails, though
the guard is one that was alive. -/
theorem lock_counts_to_one_released_twice :
    let h := (fresh (.ofMillis 5) : TimedLock.History (Fin 2)).after
      [.call 0 .guard, .call 1 .lock, .unlock 0, .notify 0 (some 1), .dropGuard 0]
    h.acquired = 1 ∧ h.released = 1 ∧ h.threads.guards = 0 ∧ h.threads.lock.locked = false ∧
      (h.threads.act (.unlock 0)).2 = some .panicked :=
  have hr := (Reachable.fresh (.ofMillis 5)).after
    [.call 0 .guard, .call 1 .lock, .unlock 0, .notify 0 (some 1), .dropGuard 0]
  ⟨by decide, by decide, by decide, by decide,
    ((lock_counts_to_one hr).2.2.1 (by decide) 0 (by decide)).1.1.mpr (by decide)⟩

end Turnstile
