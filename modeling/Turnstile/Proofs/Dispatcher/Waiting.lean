import Mathlib.Data.List.Induction
import Turnstile.Proofs.Dispatcher.Barrier

namespace Turnstile

def Submission.since? : Submission → Option Nat
  | entering t | waiting t | granted t => some t
  | created | running | ended _ => none

def Notice.isSlowTurn : Notice → Bool
  | slowTurn _ => true
  | _ => false

def LogEntry.isSlowTurn (e : LogEntry) : Bool :=
  e.message = "callback waited a long time for its turn"

theorem Notice.isSlowTurn_entry (name : String) (n : Notice) :
    (n.entry name).isSlowTurn = n.isSlowTurn := by
  cases n <;> simp [LogEntry.isSlowTurn, Notice.entry, Notice.isSlowTurn]

namespace DispatcherSettings

def report (settings : DispatcherSettings) (waited : Nat) : List LogEntry :=
  let limit := settings.slowTurnWarnMs.toNat
  if 0 < limit ∧ limit * 1000000 < waited then
    [⟨.warn, "callback waited a long time for its turn",
      [("dispatcher", settings.name), ("waited_ms", toString (waited / 1000000 % UInt64.size))]⟩]
  else []

end DispatcherSettings

namespace Dispatcher

variable {ι : Type} [DecidableEq ι] {d d' d'' : Dispatcher ι} {i j : ι} {k : GranterKind}
  {s : GranterState} {t since : Nat} {a : Action ι}

structure Quiet (d d' : Dispatcher ι) : Prop where
  now : d'.now = d.now
  notices : ∃ new, d'.notices = d.notices ++ new ∧ ∀ n ∈ new, n.isSlowTurn = false

namespace Quiet

omit [DecidableEq ι]

theorem of_eq (ht : d'.now = d.now) (hn : d'.notices = d.notices) : Quiet d d' :=
  ⟨ht, [], by rw [hn, List.append_nil], by simp⟩

theorem refl (d : Dispatcher ι) : Quiet d d := .of_eq rfl rfl

theorem of_note {n : Notice} (ht : d'.now = d.now) (hn : d'.notices = d.notices ++ [n])
    (hq : n.isSlowTurn = false) : Quiet d d' :=
  ⟨ht, [n], hn, by simpa using hq⟩

theorem trans (h : Quiet d d') (h' : Quiet d' d'') : Quiet d d'' := by
  obtain ⟨new, hn, hq⟩ := h.notices
  obtain ⟨new', hn', hq'⟩ := h'.notices
  refine ⟨h'.now.trans h.now, new ++ new', by rw [hn', hn, List.append_assoc], fun n hm => ?_⟩
  obtain hm | hm := List.mem_append.mp hm
  · exact hq n hm
  · exact hq' n hm

end Quiet

theorem Move.quiet (m : Move d d') : Quiet d d' := by
  cases m with
  | shutDoor k =>
    obtain ⟨h, -⟩ | h := d.shutDoor_cases k <;> rw [h] <;> exact .of_eq rfl rfl
  | start => exact .of_note rfl rfl rfl
  | retire h =>
    obtain ⟨-, rfl⟩ | ⟨j, -, -, rfl⟩ := retireTurn_eq_some h
    · exact .refl d'
    · exact .of_note rfl rfl rfl
  | @hand _ j _ rest =>
    obtain ⟨since, -, h⟩ | ⟨-, h⟩ := grant_cases (d.setElements rest) j <;> rw [h] <;>
      exact .of_note rfl rfl rfl
  | completeDrain n _ _ hq _ =>
    rw [completeDrain_eq hq]
    split
    · exact .refl d
    · exact .of_note rfl rfl rfl
  | @endGranter i k =>
    cases k with
    | loop => exact .of_note rfl rfl rfl
    | closer => exact .of_eq rfl rfl
  | requestBaton | useSignal | rest | register | stepOut | breakOff => exact .of_eq rfl rfl

theorem Chain.quiet (c : Chain d d') : Quiet d d' := by
  induction c with
  | refl => exact .refl d
  | tail _ m ih => exact ih.trans m.quiet

theorem Sound.act_quiet (hs : d.Sound) (ha : d.starts a = []) (ht : ∀ ns, a ≠ .advance ns) :
    Quiet d (d.act a) := by
  cases effect hs a with
  | still h =>
    rw [h]
    exact .refl d
  | advances ns => exact (ht ns rfl).elim
  | creates _ _ h =>
    rw [h]
    exact .of_eq rfl rfl
  | rejects _ _ hp =>
    simp only [Dispatcher.act, hp]
    exact .of_note rfl rfl rfl
  | admits _ _ hp =>
    simp only [Dispatcher.act, hp]
    exact .of_eq rfl rfl
  | @starts i since _ hp =>
    have hw : (d.poll i).2 = .called (d.now - since) := by rw [hp]; rfl
    simp [Dispatcher.starts, hw] at ha
  | finishes _ h =>
    rw [h]
    exact .of_eq rfl rfl
  | withdraws _ _ h =>
    rw [h]
    exact .of_eq rfl rfl
  | polls _ hc _ => exact hc.quiet
  | @drops i k s _ h =>
    rw [h]
    cases s <;> exact .of_eq rfl rfl

omit [DecidableEq ι] in
theorem isSlow_iff (d : Dispatcher ι) (waited : Nat) :
    d.isSlow waited = true ↔ 0 < d.settings.slowTurnWarnMs.toNat ∧
      d.settings.slowTurnWarnMs.toNat * 1000000 < waited := by
  by_cases h : d.settings.slowTurnWarnMs = 0
  · simp [isSlow, DispatcherSettings.slowLimit, h]
  · have hpos : 0 < d.settings.slowTurnWarnMs.toNat :=
      Nat.pos_of_ne_zero fun h0 => h (UInt64.toNat_inj.mp h0)
    simp [isSlow, DispatcherSettings.slowLimit, h, hpos, Duration.toNanos_ofMillis]

theorem log_startCallback (d : Dispatcher ι) (i : ι) (since : Nat) :
    (d.startCallback i since).1.log = d.log ++ d.settings.report (d.now - since) := by
  by_cases hw : d.isSlow (d.now - since) = true
  · have hlimit := (d.isSlow_iff _).mp hw
    simp only [startCallback, hw, ↓reduceIte, DispatcherSettings.report, hlimit, and_self]
    simp [log, note, setSubmission, Notice.entry]
  · have hlimit := mt (d.isSlow_iff _).mpr hw
    simp only [startCallback, hw, ↓reduceIte, DispatcherSettings.report, hlimit]
    simp [log, setSubmission]

theorem now_startCallback (d : Dispatcher ι) (i : ι) (since : Nat) :
    (d.startCallback i since).1.now = d.now := by
  obtain h | ⟨ms, h⟩ := startCallback_fst d i since <;> rw [h] <;> rfl

theorem Sound.starts_cases (hs : d.Sound) (a : Action ι) :
    d.starts a = [] ∨ ∃ i since, a = .poll i ∧ d.poll i = d.startCallback i since := by
  cases a with
  | poll i =>
    by_cases hw : ∃ w, (d.poll i).2 = .called w
    · obtain ⟨w, hw⟩ := hw
      obtain ⟨since, -, hp⟩ := called_eq_granted hs hw
      exact .inr ⟨i, since, rfl, hp⟩
    · exact .inl (starts_eq_nil fun w he => hw ⟨w, he⟩)
  | _ => exact .inl rfl

theorem Sound.now_le (hs : d.Sound) (a : Action ι) : d.now ≤ (d.act a).now := by
  obtain ha | ⟨i, since, rfl, hp⟩ := hs.starts_cases a
  · by_cases ht : ∃ ns, a = .advance ns
    · obtain ⟨ns, rfl⟩ := ht
      exact Nat.le_add_right d.now ns
    · exact Nat.le_of_eq (hs.act_quiet ha fun ns he => ht ⟨ns, he⟩).now.symm
  · exact Nat.le_of_eq (by rw [Dispatcher.act, hp, now_startCallback])

theorem Sound.log_act (hs : d.Sound) (ha : d.starts a = []) :
    ∃ new, (d.act a).log = d.log ++ new ∧ ∀ e ∈ new, e.isSlowTurn = false := by
  by_cases ht : ∃ ns, a = .advance ns
  · obtain ⟨ns, rfl⟩ := ht
    exact ⟨[], (List.append_nil _).symm, by simp⟩
  · obtain ⟨new, hn, hq⟩ := (hs.act_quiet ha fun ns he => ht ⟨ns, he⟩).notices
    refine ⟨new.map (Notice.entry d.settings.name), ?_, fun e he => ?_⟩
    · rw [Dispatcher.log, (hs.act_grows a).settings, hn, List.map_append, Dispatcher.log]
    · obtain ⟨n, hm, rfl⟩ := List.mem_map.mp he
      rw [Notice.isSlowTurn_entry, hq n hm]

/-- It was polled before, and if its callback is still to come, the time that it noted then
is `t`. -/
def Noted (t : Nat) (s : Option Submission) : Prop :=
  ∃ u, s = some u ∧ u ≠ .created ∧ ∀ since ∈ u.since?, since = t

theorem Change.noted {u v : Option Submission} (hc : Change d i a u v) (hn : Noted t u) :
    Noted t v := by
  obtain ⟨u, rfl, hu, hsince⟩ := hn
  cases hc with
  | same => exact ⟨u, rfl, hu, hsince⟩
  | rejected | accepted => exact (hu rfl).elim
  | granted => exact ⟨_, rfl, by simp, hsince⟩
  | called | finished | withdrawn => exact ⟨_, rfl, by simp, by simp [Submission.since?]⟩

theorem Sound.noted_poll (hs : d.Sound) (hi : d.submission? i = some .created) :
    Noted d.now ((d.poll i).1.submission? i) := by
  cases hc : d.closed with
  | true =>
    rw [poll_of_created_closed hi hc, submission?_setSubmission, Function.update_self]
    exact ⟨_, rfl, by simp, by simp [Submission.since?]⟩
  | false =>
    rw [poll_of_created_open hs hi hc]
    change Noted d.now ((d.setSubmission i (.waiting d.now)).submission? i)
    rw [submission?_setSubmission, Function.update_self]
    exact ⟨_, rfl, by simp, by simp [Submission.since?]⟩

end Dispatcher

open Dispatcher

namespace History

variable {ι : Type} [DecidableEq ι] {h : History ι} {i : ι} {t w : Nat}

theorem Reachable.now_le_after (hr : h.Reachable) (as : List (Action ι)) :
    h.dispatcher.now ≤ (h.after as).dispatcher.now := by
  induction as generalizing h with
  | nil => exact Nat.le_refl _
  | cons a as ih => exact Nat.le_trans (hr.sound.now_le a) (ih (hr.step a))

theorem Reachable.noted_after (hr : h.Reachable) (hn : Noted t (h.dispatcher.submission? i))
    (as : List (Action ι)) : Noted t ((h.after as).dispatcher.submission? i) := by
  induction as generalizing h with
  | nil => exact hn
  | cons a as ih => exact ih (hr.step a) ((hr.sound.change a i).noted hn)

/-- What a callback is told is the time since the first poll of its submission. -/
theorem Reachable.now_of_called (hr : h.Reachable) (hi : h.dispatcher.submission? i = some .created)
    (rest : List (Action ι))
    (hw : (((h.step (.poll i)).after rest).dispatcher.poll i).2 = .called w) :
    h.dispatcher.now + w = ((h.step (.poll i)).after rest).dispatcher.now := by
  have hr₁ := hr.step (.poll i)
  have hr₂ := hr₁.after rest
  obtain ⟨since, hg, hp⟩ := called_eq_granted hr₂.sound hw
  obtain ⟨u, hu, -, hsince⟩ := hr₁.noted_after (hr.sound.noted_poll hi) rest
  rw [hg] at hu
  cases hu
  obtain rfl := hsince since rfl
  have hle : h.dispatcher.now ≤ ((h.step (.poll i)).after rest).dispatcher.now :=
    Nat.le_trans (hr.sound.now_le _) (hr₁.now_le_after rest)
  rw [hp] at hw
  cases hw
  omega

theorem exists_first_poll (settings : DispatcherSettings) (as : List (Action ι)) {s : Submission}
    (hs : ((fresh settings).after as).dispatcher.submission? i = some s)
    (ht : s.since? = some t) :
    ∃ before rest, as = before ++ .poll i :: rest ∧
      ((fresh settings).after before).dispatcher.admits (.poll i) = [i] := by
  induction as using List.reverseRecOn generalizing s with
  | nil => simp [after, fresh, submission?, Table.get?] at hs
  | append_singleton as a ih =>
    have hc := ((Reachable.fresh settings).after as).sound.change a i
    have hstep : ((fresh settings).after (as ++ [a])).dispatcher =
        ((fresh settings).after as).dispatcher.act a := by
      rw [after_append]
      rfl
    rw [hstep] at hs
    rw [hs] at hc
    -- a time that was noted before comes with the poll that was found for it
    have earlier {u : Submission}
        (hu : ((fresh settings).after as).dispatcher.submission? i = some u)
        (hut : u.since? = some t) : ∃ before rest, as ++ [a] = before ++ .poll i :: rest ∧
          ((fresh settings).after before).dispatcher.admits (.poll i) = [i] := by
      obtain ⟨before, rest, rfl, hfirst⟩ := ih hu hut
      exact ⟨before, rest ++ [a], by simp, hfirst⟩
    generalize hu : ((fresh settings).after as).dispatcher.submission? i = u at hc
    cases hc with
    | same => exact earlier hu ht
    | accepted hopen => exact ⟨as, [], rfl, by simp [admits, hu, hopen]⟩
    | granted => exact earlier hu ht
    | created | rejected | called | finished | withdrawn => cases ht

end History

open History

variable {ι : Type} [DecidableEq ι]

/-- A callback is told the time from the first poll of its submission, which let it in, to the poll
that starts it, and a wait that is too long by a nanosecond is reported then. Nothing else reports a
wait, and a submission that has ended never starts. -/
theorem callback_is_told_its_wait (settings : DispatcherSettings) (as : List (Action ι)) :
    let run (bs : List (Action ι)) : History ι := (fresh settings).after bs
    let d := (run as).dispatcher
    (∀ i w, (d.poll i).2 = .called w →
      (∃ before rest, as = before ++ .poll i :: rest ∧
        (run before).dispatcher.admits (.poll i) = [i]) ∧
      (∀ before rest, as = before ++ .poll i :: rest →
        (run before).dispatcher.submission? i = some .created →
        (run before).dispatcher.now + w = d.now) ∧
      (d.poll i).1.log = d.log ++ settings.report w) ∧
    (∀ a, d.starts a = [] →
      ∃ new, (d.act a).log = d.log ++ new ∧ ∀ e ∈ new, e.isSlowTurn = false) ∧
    ∀ i how, d.submission? i = some (.ended how) →
      ∀ bs, (run (as ++ bs)).dispatcher.starts (.poll i) = [] := by
  intro run d
  have hr : (run as).Reachable := (Reachable.fresh settings).after as
  refine ⟨fun i w hw => ⟨?_, ?_, ?_⟩, fun a ha => hr.sound.log_act ha, fun i how hi bs => ?_⟩
  · obtain ⟨since, hi, -⟩ := called_eq_granted hr.sound hw
    exact exists_first_poll settings as hi rfl
  · rintro before rest rfl hi
    have hsplit : run (before ++ .poll i :: rest) = ((run before).step (.poll i)).after rest :=
      after_append _ before _
    simp only [d, hsplit] at hw ⊢
    exact ((Reachable.fresh settings).after before).now_of_called hi rest hw
  · obtain ⟨since, -, hp⟩ := called_eq_granted hr.sound hw
    have hset : d.settings = settings := ((Reachable.fresh settings).after_grows as).settings
    rw [hp] at hw
    cases hw
    rw [hp, log_startCallback, hset]
  · have hend : (run (as ++ bs)).dispatcher.submission? i = some (.ended how) := by
      simp only [run, after_append]
      exact hr.ended_after hi bs
    simp [starts, poll_of_ended hend]

/-- A wait of a millisecond and one nanosecond, half of it with the turn at hand, is reported where
the limit is a millisecond. -/
theorem callback_is_told_its_wait_slow :
    let settings : DispatcherSettings := { name := "d", slowTurnWarnMs := 1 }
    let as : List (Action Nat) := [.submit 2, .drop 2, .submit 0, .poll 0, .advance 500000, .run 1,
      .poll 1, .advance 500001]
    let d := ((fresh settings).after as).dispatcher
    ((d.poll 0).2 = .called 1000001 ∧ d.now = 1000001 ∧ (d.poll 0).1.log = d.log ++
      [⟨.warn, "callback waited a long time for its turn",
        [("dispatcher", "d"), ("waited_ms", "1")]⟩]) ∧
    (d.starts (.drop 0) = [] ∧
      ∃ new, (d.act (.drop 0)).log = d.log ++ new ∧ ∀ e ∈ new, e.isSlowTurn = false) ∧
    d.submission? 2 = some (.ended .dropped) ∧
      ((fresh settings).after (as ++ [.poll 0])).dispatcher.starts (.poll 2) = [] := by
  intro settings as d
  obtain ⟨hcalled, hquiet, hended⟩ := callback_is_told_its_wait settings as
  have hw : (d.poll 0).2 = .called 1000001 := by decide
  obtain ⟨-, hnow, hlog⟩ := hcalled 0 1000001 hw
  have hreport : settings.report 1000001 = [⟨.warn, "callback waited a long time for its turn",
      [("dispatcher", "d"), ("waited_ms", "1")]⟩] := by decide +kernel
  rw [hreport] at hlog
  have hfirst := hnow [.submit 2, .drop 2, .submit 0] _ rfl (by decide)
  refine ⟨⟨hw, hfirst.symm.trans (by decide +kernel), hlog⟩, ⟨rfl, hquiet (.drop 0) rfl⟩, ?_⟩
  exact ⟨by decide, hended 2 .dropped (by decide) [.poll 0]⟩

end Turnstile
