import Turnstile.Dispatcher.Basic
import Turnstile.Proofs.Dispatcher.Delivery

namespace Turnstile

def LogEntry.isSummary (e : LogEntry) : Bool := e.message = "dispatcher closed"

theorem Notice.isSummary_entry (name : String) :
    LogEntry.isSummary ∘ Notice.entry name = Notice.isClosing := by
  funext n
  cases n <;> simp [LogEntry.isSummary, Notice.entry, Notice.isClosing]

namespace Dispatcher

variable {ι : Type} [DecidableEq ι] {d d' d'' : Dispatcher ι} {i : ι} {k : GranterKind}
  {s : GranterState}

def log (d : Dispatcher ι) : List LogEntry := d.notices.map (Notice.entry d.settings.name)

/-- What is closed or drained stays so, and what was reported stays reported. -/
structure Grows (d d' : Dispatcher ι) : Prop where
  settings : d'.settings = d.settings
  closed : d.closed = true → d'.closed = true
  drained : d.drained = true → d'.drained = true
  notices : d.notices <+: d'.notices

namespace Grows

omit [DecidableEq ι]

theorem refl (d : Dispatcher ι) : Grows d d := ⟨rfl, id, id, List.prefix_rfl⟩

theorem trans (h : Grows d d') (h' : Grows d' d'') : Grows d d'' :=
  ⟨h'.settings.trans h.settings, h'.closed ∘ h.closed, h'.drained ∘ h.drained,
    h.notices.trans h'.notices⟩

theorem of_eq (hs : d'.settings = d.settings) (hc : d'.closed = d.closed)
    (hd : d'.drained = d.drained) (hn : d'.notices = d.notices) : Grows d d' :=
  ⟨hs, fun h => hc ▸ h, fun h => hd ▸ h, hn ▸ List.prefix_rfl⟩

theorem of_note {n : Notice} (hs : d'.settings = d.settings) (hc : d'.closed = d.closed)
    (hd : d'.drained = d.drained) (hn : d'.notices = d.notices ++ [n]) : Grows d d' :=
  ⟨hs, fun h => hc ▸ h, fun h => hd ▸ h, hn ▸ List.prefix_append _ _⟩

end Grows

theorem grant_grows (d : Dispatcher ι) (j : ι) : Grows d (d.grant j).1 := by
  obtain ⟨since, -, h⟩ | ⟨-, h⟩ := grant_cases d j
  · rw [h]
    exact .of_note rfl rfl rfl rfl
  · rw [h]
    exact .of_note rfl rfl rfl rfl

theorem Move.grows (m : Move d d') : Grows d d' := by
  cases m with
  | shutDoor k =>
    obtain ⟨h, -⟩ | h := d.shutDoor_cases k
    · rw [h]
      exact .refl d
    · rw [h]
      exact ⟨rfl, fun _ => rfl, id, List.prefix_rfl⟩
  | start => exact .of_note rfl rfl rfl rfl
  | retire h =>
    obtain ⟨-, rfl⟩ | ⟨j, -, -, rfl⟩ := retireTurn_eq_some h
    · exact .refl d'
    · exact .of_note rfl rfl rfl rfl
  | @hand _ j _ rest =>
    have h : Grows d (d.setElements rest) := .of_eq rfl rfl rfl rfl
    exact h.trans (grant_grows _ j)
  | completeDrain n _ _ hq _ =>
    rw [completeDrain_eq hq]
    split
    · exact .refl d
    · exact ⟨rfl, id, fun _ => rfl, List.prefix_append _ _⟩
  | @endGranter i k =>
    cases k with
    | loop => exact .of_note rfl rfl rfl rfl
    | closer => exact .of_eq rfl rfl rfl rfl
  | requestBaton | useSignal | rest | register | stepOut | breakOff => exact .of_eq rfl rfl rfl rfl

theorem Chain.grows (c : Chain d d') : Grows d d' := by
  induction c with
  | refl => exact .refl d
  | tail _ m ih => exact ih.trans m.grows

theorem Sound.act_grows (hs : d.Sound) (a : Action ι) : Grows d (d.act a) := by
  cases effect hs a with
  | still h =>
    rw [h]
    exact .refl d
  | advances ns => exact .of_eq rfl rfl rfl rfl
  | creates _ _ h =>
    rw [h]
    exact .of_eq rfl rfl rfl rfl
  | rejects _ _ hp =>
    simp only [Dispatcher.act, hp]
    exact .of_note rfl rfl rfl rfl
  | admits _ _ hp =>
    simp only [Dispatcher.act, hp]
    exact .of_eq rfl rfl rfl rfl
  | @starts i since _ hp =>
    simp only [Dispatcher.act, hp]
    obtain h | ⟨ms, h⟩ := startCallback_fst d i since
    · rw [h]
      exact .of_eq rfl rfl rfl rfl
    · rw [h]
      exact .of_note rfl rfl rfl rfl
  | finishes _ h =>
    rw [h]
    exact .of_eq rfl rfl rfl rfl
  | withdraws _ _ h =>
    rw [h]
    exact .of_eq rfl rfl rfl rfl
  | polls _ hc _ => exact hc.grows
  | @drops i k s _ h =>
    rw [h]
    cases s <;> exact .of_eq rfl rfl rfl rfl

theorem Sound.drained_of_ready (hs : d.Sound) (hi : d.granter? i = some (k, s))
    (hp : (d.poll i).2 = .ready) : (d.poll i).1.drained = true := by
  obtain ⟨hc, ho⟩ := pollGranter_spec hs hi
  rw [← poll_of_granter hi] at hc ho
  rcases ho with ho | ⟨hn, -⟩
  · have hs' := hc.sound hs
    generalize d.poll i = r at hp ho hs'
    cases ho with
    | blocked | waits => cases hp
    | ended hf => exact hs'.phase.finished i k hf
  · rw [hn] at hp
    cases hp

theorem Sound.hasTurn_of_awaited (hs : d.Sound) (hn : d.awaited = none) (i : ι) :
    d.hasTurn i = false := by
  apply Bool.eq_false_iff.mpr
  intro ht
  have ha := hs.awaited_of_hasTurn ht
  rw [hn] at ha
  cases ha

theorem Sound.starts_of_awaited (hs : d.Sound) (hn : d.awaited = none) (a : Action ι) :
    d.starts a = [] := by
  cases a with
  | poll i =>
    apply starts_eq_nil
    intro w hw
    obtain ⟨since, hi, -⟩ := called_eq_granted hs hw
    have ht := hs.hasTurn_of_awaited hn i
    rw [hasTurn_iff.mpr ⟨_, hi, rfl⟩] at ht
    cases ht
  | _ => rfl

end Dispatcher

open Dispatcher

namespace History

variable {ι : Type} [DecidableEq ι] {h : History ι} {i : ι}

theorem Reachable.after_grows (hr : h.Reachable) (as : List (Action ι)) :
    Grows h.dispatcher (h.after as).dispatcher := by
  induction as generalizing h with
  | nil => exact .refl _
  | cons a as ih => exact (hr.sound.act_grows a).trans (ih (hr.step a))

theorem Reachable.started_after (hr : h.Reachable) (hd : h.dispatcher.drained = true)
    (as : List (Action ι)) : (h.after as).started = h.started := by
  induction as generalizing h with
  | nil => rfl
  | cons a as ih =>
    have hn := (hr.sound.turn.drained hd).2
    have hst : (h.step a).started = h.started := by
      simp [History.step, hr.sound.starts_of_awaited hn a]
    rw [← hst]
    exact ih (hr.step a) ((hr.sound.act_grows a).drained hd)

theorem Reachable.isOver_of_drained (hr : h.Reachable) (hd : h.dispatcher.drained = true)
    (hi : i ∈ h.accepted) : h.IsOver i := by
  obtain ⟨hq, hn⟩ := hr.sound.turn.drained hd
  exact hr.isOver hi (by simp [hq]) (hr.sound.hasTurn_of_awaited hn i)

theorem Reachable.countP_log (hr : h.Reachable) :
    h.dispatcher.log.countP LogEntry.isSummary = if h.dispatcher.drained then 1 else 0 := by
  rw [Dispatcher.log, List.countP_map, Notice.isSummary_entry, hr.sound.log.closings]

/-- The summary is logged in the step in which the drain is over, and in no other. -/
theorem Reachable.log_step (hr : h.Reachable) (a : Action ι) :
    ∃ new, (h.step a).dispatcher.log = h.dispatcher.log ++ new ∧
      new.countP LogEntry.isSummary =
        if h.dispatcher.drained = false ∧ (h.step a).dispatcher.drained = true then 1 else 0 := by
  have hg : Grows h.dispatcher (h.step a).dispatcher := hr.sound.act_grows a
  obtain ⟨new, hnew⟩ := hg.notices
  have hlog : (h.step a).dispatcher.log =
      h.dispatcher.log ++ new.map (Notice.entry h.dispatcher.settings.name) := by
    rw [Dispatcher.log, hg.settings, ← hnew, List.map_append, Dispatcher.log]
  have hc := (hr.step a).countP_log
  rw [hlog, List.countP_append, hr.countP_log] at hc
  refine ⟨_, hlog, ?_⟩
  cases hd : h.dispatcher.drained with
  | false => simpa [hd] using hc
  | true => simpa [hd, hg.drained hd] using hc

end History

open History

variable {ι : Type} [DecidableEq ι] {h : History ι}

/-- Once a loop or a closer completes, all that was accepted is over and nothing starts any more.
What is closed or drained stays so, and the summary is logged once, when the drain is over. -/
theorem close_is_a_barrier (hr : h.Reachable) :
    (∀ i g, h.dispatcher.granter? i = some g → (h.dispatcher.poll i).2 = .ready →
      let h' := h.step (.poll i)
      h'.dispatcher.queue.elements = [] ∧ h'.dispatcher.awaited = none ∧
        (∀ j, h'.dispatcher.hasTurn j = false) ∧ h'.dispatcher.drained = true ∧
        (∀ j ∈ h'.accepted, h'.IsOver j) ∧
        ∀ as, (h'.after as).started = h.started ∧ (h'.after as).dispatcher.pending = 0) ∧
    h.dispatcher.stopping = h.dispatcher.closed ∧
    (h.dispatcher.drained = true → h.dispatcher.closed = true) ∧
    (∀ as, (h.dispatcher.closed = true → (h.after as).dispatcher.closed = true) ∧
      (h.dispatcher.drained = true → (h.after as).dispatcher.drained = true)) ∧
    h.dispatcher.log.countP LogEntry.isSummary ≤ 1 ∧
    ∀ a, ∃ new, (h.step a).dispatcher.log = h.dispatcher.log ++ new ∧
      new.countP LogEntry.isSummary =
        if h.dispatcher.drained = false ∧ (h.step a).dispatcher.drained = true then 1 else 0 := by
  have hs := hr.sound
  refine ⟨?_, hs.phase.stopping, hs.phase.drained, ?_, ?_, hr.log_step⟩
  · rintro i ⟨k, s⟩ hi hp
    have hr' := hr.step (.poll i)
    have hd : (h.step (.poll i)).dispatcher.drained = true := hs.drained_of_ready hi hp
    obtain ⟨hq, hn⟩ := hr'.sound.turn.drained hd
    refine ⟨hq, hn, hr'.sound.hasTurn_of_awaited hn, hd, fun j hj => hr'.isOver_of_drained hd hj,
      fun as => ⟨?_, ?_⟩⟩
    · have hst : (h.step (.poll i)).started = h.started := by
        simp [History.step, starts, hp]
      rw [hr'.started_after hd as, hst]
    · have hq' := ((hr'.after as).sound.turn.drained ((hr'.after_grows as).drained hd)).1
      simp [pending, hq']
  · intro as
    have hg := hr.after_grows as
    exact ⟨hg.closed, hg.drained⟩
  · rw [hr.countP_log]
    split <;> omega

/-- A closer that was dropped in the drain, with a turn still out, is followed by another. -/
theorem close_is_a_barrier_second_closer :
    let h := (fresh {}).after [.submit 0, .submit 1, .poll 0, .poll 1, .close 2, .poll 2, .drop 2,
      .close 3, .poll 3, .poll 0, .finish 0 true, .poll 3, .poll 1, .finish 1 false]
    h.dispatcher.granter? 3 = some (.closer, .draining 1) ∧ (h.dispatcher.poll 3).2 = .ready ∧
      ∀ j ∈ (h.step (.poll 3)).accepted, (h.step (.poll 3)).IsOver j :=
  have hr := (Reachable.fresh {}).after [.submit 0, .submit 1, .poll 0, .poll 1, .close 2, .poll 2,
    .drop 2, .close 3, .poll 3, .poll 0, .finish 0 true, .poll 3, .poll 1, .finish 1 false]
  have hc := (close_is_a_barrier hr).1 3 (.closer, .draining 1) (by decide) (by decide)
  ⟨by decide, by decide, hc.2.2.2.2.1⟩

end Turnstile
