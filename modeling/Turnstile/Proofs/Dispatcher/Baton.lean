import Turnstile.Proofs.Dispatcher.Futures

namespace Turnstile

variable {ι : Type} [DecidableEq ι]

/-- How the baton `l` and the states `g` of the granters belong together: whoever is past the line
holds the baton, and those that ask for it stand in line, each once. -/
structure BatonSound (l : FairLock ι) (g : ι → Option (GranterKind × GranterState)) : Prop where
  holder : ∀ i, l.holder = some i → ∃ k s, g i = some (k, s) ∧ s.isUnderWay = true
  holding : ∀ i k s, g i = some (k, s) → s.isUnderWay = true → s ≠ .locking → l.holder = some i
  line : ∀ i, i ∈ l.line ↔ (∃ k, g i = some (k, .locking)) ∧ l.holder ≠ some i
  nodup : l.line.Nodup
  free : l.holder = none → l.line = []

namespace BatonSound

variable {l : FairLock ι} {g : ι → Option (GranterKind × GranterState)} {i : ι}
  {k : GranterKind} {s : GranterState}

theorem of_update {j : ι} {k' : GranterKind} {s' : GranterState}
    (hs : s.isUnderWay = true → s = .locking)
    (hj : Function.update g i (some (k, s)) j = some (k', s')) (hu : s'.isUnderWay = true)
    (hn : s' ≠ .locking) : j ≠ i ∧ g j = some (k', s') := by
  obtain ⟨rfl, ⟨⟩⟩ | h := update_eq_some.mp hj
  · exact (hn (hs hu)).elim
  · exact h

theorem advance (h : BatonSound l g) (hi : l.holder = some i) (hs : s.isUnderWay = true) :
    BatonSound l (Function.update g i (some (k, s))) where
  holder j hj := by
    have hij : i = j := Option.some.inj (hi.symm.trans hj)
    subst j
    exact ⟨k, s, by simp, hs⟩
  holding j k' s' hj hs' hn := by
    by_cases hij : j = i
    · rw [hij, hi]
    · rw [Function.update_of_ne hij] at hj
      exact h.holding j k' s' hj hs' hn
  line j := by
    by_cases hij : j = i
    · subst j
      simp [h.line, hi]
    · rw [Function.update_of_ne hij, h.line]
  nodup := h.nodup
  free := h.free

theorem aside (h : BatonSound l g) (hi : ∀ k s, g i = some (k, s) → s.isUnderWay = false)
    (hs : s.isUnderWay = false) : BatonSound l (Function.update g i (some (k, s))) := by
  have hh : l.holder ≠ some i := by
    intro he
    obtain ⟨k', s', hg, hu⟩ := h.holder i he
    simp [hi k' s' hg] at hu
  refine ⟨?_, ?_, ?_, h.nodup, h.free⟩
  · intro j hj
    have hij : j ≠ i := fun he => hh (he ▸ hj)
    rw [Function.update_of_ne hij]
    exact h.holder j hj
  · intro j k' s' hj hu hn
    obtain ⟨-, hg⟩ := of_update (by simp [hs]) hj hu hn
    exact h.holding j k' s' hg hu hn
  · intro j
    by_cases hij : j = i
    · subst j
      have hl : s ≠ .locking := by rintro rfl; cases hs
      have hg : ∀ k', g i ≠ some (k', .locking) := by
        intro k' he
        have := hi k' _ he
        simp [GranterState.isUnderWay] at this
      simp [h.line, hl, hg]
    · rw [Function.update_of_ne hij, h.line]

theorem request (h : BatonSound l g) (hi : g i = some (k, .created)) :
    BatonSound (l.request i) (Function.update g i (some (k, .locking))) := by
  cases hl : l.holder with
  | none =>
    -- a free lock has nobody in line, so `i` is the only one to hold it or wait for it
    have hr : l.request i = { l with holder := some i } := by simp [FairLock.request, hl]
    rw [hr]
    have hnone : ∀ j k s, g j = some (k, s) → s.isUnderWay = true → s ≠ .locking → False := by
      intro j k s hj hs hn
      have := h.holding j k s hj hs hn
      simp [hl] at this
    refine ⟨?_, ?_, ?_, h.nodup, ?_⟩
    · intro j hj
      cases hj
      exact ⟨k, .locking, by simp, rfl⟩
    · intro j k' s' hj hu hn
      obtain ⟨-, hg⟩ := of_update (fun _ => rfl) hj hu hn
      exact (hnone j k' s' hg hu hn).elim
    · intro j
      have hline := h.line j
      rw [h.free hl] at hline ⊢
      by_cases hij : j = i
      · subst j; simp
      · simpa [hl, hij, Ne.symm hij] using hline
    · simp
  | some m =>
    have hr : l.request i = { l with line := l.line ++ [i] } := by simp [FairLock.request, hl]
    have hmi : m ≠ i := by
      rintro rfl
      obtain ⟨k', s', hg, hu⟩ := h.holder m hl
      rw [hi] at hg
      cases hg
      cases hu
    have hni : i ∉ l.line := by simp [h.line, hi]
    rw [hr]
    refine ⟨?_, ?_, ?_, ?_, ?_⟩
    · intro j hj
      have hij : j ≠ i := by
        rintro rfl
        exact hmi (Option.some.inj (hl.symm.trans hj))
      rw [Function.update_of_ne hij]
      exact h.holder j hj
    · intro j k' s' hj hu hn
      obtain ⟨-, hg⟩ := of_update (fun _ => rfl) hj hu hn
      exact h.holding j k' s' hg hu hn
    · intro j
      by_cases hij : j = i
      · subst j
        simp [hl, hmi]
      · simp [h.line, hij]
    · exact List.nodup_append.mpr ⟨h.nodup, by simp, by
        intro a ha b hb
        simp only [List.mem_singleton] at hb
        subst b
        exact fun he => hni (he ▸ ha)⟩
    · simp [hl]

theorem release (h : BatonSound l g) (hi : l.holder = some i) (hs : s.isUnderWay = false) :
    BatonSound l.release (Function.update g i (some (k, s))) := by
  -- the holder does not stand in line itself, so the next holder is another
  have hni : i ∉ l.line := by simp [h.line, hi]
  refine ⟨?_, ?_, ?_, ?_, ?_⟩
  · intro j hj
    have hm : j ∈ l.line := List.mem_of_mem_head? hj
    obtain ⟨⟨k', hg⟩, -⟩ := (h.line j).mp hm
    have hij : j ≠ i := fun he => hni (he ▸ hm)
    exact ⟨k', .locking, by rw [Function.update_of_ne hij, hg], rfl⟩
  · intro j k' s' hj hu hn
    obtain ⟨hij, hg⟩ := of_update (by simp [hs]) hj hu hn
    have := h.holding j k' s' hg hu hn
    exact (hij (Option.some.inj (this.symm.trans hi))).elim
  · intro j
    have hline := h.line j
    by_cases hij : j = i
    · subst j
      have hl : s ≠ .locking := by rintro rfl; cases hs
      have ht : i ∉ l.line.tail := fun hm => hni (List.mem_of_mem_tail hm)
      simp [FairLock.release, hl, ht]
    · have hne : l.holder ≠ some j := by
        rw [hi]
        exact fun he => hij (Option.some.inj he).symm
      rw [Function.update_of_ne hij]
      have hd := h.nodup
      simp only [FairLock.release]
      cases hl : l.line with
      | nil =>
        simp [hl, hne] at hline
        simp [hline]
      | cons a rest =>
        rw [hl] at hd hline
        simp only [hne, ne_eq, not_false_eq_true, and_true, List.mem_cons] at hline
        rw [← hline]
        have ha : a ∉ rest := (List.nodup_cons.mp hd).1
        simp only [List.tail_cons, List.head?_cons, ne_eq, Option.some.injEq]
        constructor
        · intro hm
          exact ⟨.inr hm, fun he => ha (he ▸ hm)⟩
        · rintro ⟨rfl | hm, hn⟩
          · exact (hn rfl).elim
          · exact hm
  · exact h.nodup.sublist (List.tail_sublist _)
  · intro hn
    rw [FairLock.release, List.head?_eq_none_iff] at hn
    simp [FairLock.release, hn]

theorem leave (h : BatonSound l g) (k : GranterKind) :
    BatonSound (l.leave i) (Function.update g i (some (k, .dropped))) := by
  by_cases hh : l.holder = some i
  · rw [FairLock.leave, if_pos hh]
    exact h.release hh rfl
  · rw [FairLock.leave, if_neg hh]
    refine ⟨?_, ?_, ?_, h.nodup.filter _, ?_⟩
    · intro j hj
      have hij : j ≠ i := fun he => hh (he ▸ hj)
      rw [Function.update_of_ne hij]
      exact h.holder j hj
    · intro j k' s' hj hu' hn
      obtain ⟨-, hg⟩ := of_update (by simp [GranterState.isUnderWay]) hj hu' hn
      exact h.holding j k' s' hg hu' hn
    · intro j
      by_cases hij : j = i
      · subst j; simp
      · simp [h.line, hij]
    · intro hn
      simp [h.free hn]

end BatonSound

end Turnstile
