import Turnstile.Proofs.Dispatcher.Lockstep

namespace Turnstile

namespace Dispatcher

variable {ι : Type} [DecidableEq ι] {d d' : Dispatcher ι} {i : ι} {k : GranterKind}
  {s : GranterState}

/-- There is something for the future to do: it was never polled, or what it waits for since it was
polled last has come about. A loop or a closer waits for the baton, for the end of the turn that is
out or in the queue, and a submission for its turn or for the end of the drain. -/
def isWoken (d : Dispatcher ι) (i : ι) : Bool :=
  match d.futures.get? i with
  | some (.submission .created) | some (.granter _ .created) => true
  | some (.submission (.waiting _)) => d.drained
  | some (.submission (.granted _)) => true
  | some (.granter _ .locking) => d.baton.holder = some i
  | some (.granter _ .retiring) | some (.granter _ (.draining _)) => !d.awaited.any d.hasTurn
  | some (.granter _ .popping) => d.stopping || d.queue.signal.isMarked i
  | _ => false

theorem isWoken_of_submission {v : Submission} (hi : d.submission? i = some v) :
    d.isWoken i = match v with
      | .created | .granted _ => true
      | .waiting _ => d.drained
      | _ => false := by
  cases v <;> simp [isWoken, submission?_eq_some.mp hi]

theorem isWoken_of_granter (hi : d.granter? i = some (k, s)) :
    d.isWoken i = match s with
      | .created => true
      | .locking => d.baton.holder = some i
      | .retiring | .draining _ => !d.awaited.any d.hasTurn
      | .popping => d.stopping || d.queue.signal.isMarked i
      | .finished | .dropped => false := by
  cases s <;> simp [isWoken, granter?_eq_some.mp hi]

theorem any_hasTurn_iff : d.awaited.any d.hasTurn = true ↔ d.retireTurn = none := by
  rw [retireTurn_eq_none]
  cases d.awaited <;> simp

theorem Outcome.isWoken_eq_false {r : Dispatcher ι × Progress} (ho : Outcome i k r) :
    r.1.isWoken i = false := by
  cases ho with
  | blocked hi hs hr =>
    have ha := any_hasTurn_iff.mpr hr
    rw [isWoken_of_granter hi]
    rcases hs with rfl | ⟨n, rfl⟩ <;> simp [ha]
  | waits hi hc hm => simp [isWoken_of_granter hi, hc, hm]
  | ended hi => simp [isWoken_of_granter hi]

theorem Sound.isWoken_pollGranter (hs : d.Sound) (hi : d.granter? i = some (k, s)) :
    (pollGranterBy grant i k d s).1.isWoken i = false := by
  have locking {e : Dispatcher ι} (he : e.Sound) (hl : e.granter? i = some (k, .locking)) :
      (awaitBaton grant i k e).1.isWoken i = false := by
    obtain ⟨-, ho | ⟨hp, hh⟩⟩ := awaitBaton_spec he hl
    · exact ho.isWoken_eq_false
    · rw [hp, isWoken_of_granter hl]
      simp [hh]
  cases s with
  | created =>
    obtain ⟨hc, hl⟩ := requestBaton_spec hi
    exact locking (hc.sound hs) hl
  | locking => exact locking hs hi
  | finished | dropped => rw [pollGranterBy, isWoken_of_granter hi]
  | retiring | popping | draining =>
    have hh := hs.baton.holding i k _ hi rfl (by simp)
    obtain ⟨-, ho | ⟨-, hn⟩⟩ := pollGranter_spec hs hi
    · exact ho.isWoken_eq_false
    · exact (hn rfl hh).elim

theorem Sound.pollGranter_of_not_woken (hs : d.Sound) (hi : d.granter? i = some (k, s))
    (hw : d.isWoken i = false) : pollGranterBy grant i k d s = (d, .pending) := by
  have hself : d.setGranter i k s = d := by
    rw [setGranter, Table.put_of_get? (granter?_eq_some.mp hi)]
  rw [isWoken_of_granter hi] at hw
  cases s with
  | created => cases hw
  | locking =>
    have hh : d.baton.holder ≠ some i := of_decide_eq_false hw
    simp [pollGranterBy, awaitBaton, hh]
  | retiring =>
    have hr : d.retireTurn = none := any_hasTurn_iff.mp (by simpa using hw)
    obtain rfl := hs.phase.serving i k hi
    rw [pollGranterBy, serve, serveThen_of_none hr, hself]
  | popping =>
    obtain ⟨hst, hm⟩ := Bool.or_eq_false_iff.mp hw
    simp [pollGranterBy, hst, hm]
  | draining n =>
    have hr : d.retireTurn = none := any_hasTurn_iff.mp (by simpa using hw)
    rw [pollGranterBy, drain, drainFrom_of_none hr, hself]
  | finished | dropped => rfl

theorem Sound.isWoken_poll (hs : d.Sound) (hp : (d.poll i).2 = .pending) :
    (d.poll i).1.isWoken i = false := by
  cases hf : d.futures.get? i with
  | none => simp [poll_of_get?_eq_none hf, isWoken, hf]
  | some f =>
    cases f with
    | submission v =>
      have hi := submission?_eq_some.mpr hf
      cases v with
      | created =>
        cases hc : d.closed with
        | true => simp [poll_of_created_closed hi hc] at hp
        | false =>
          -- it has joined the queue of an open dispatcher, and waits for a turn
          have hd : (d.accept i).drained = false := hs.phase.drained_eq_false hc
          have ha : (d.accept i).submission? i = some (.waiting d.now) := by
            change (d.setSubmission i (.waiting d.now)).submission? i = _
            simp [submission?_setSubmission]
          rw [poll_of_created_open hs hi hc, isWoken_of_submission ha, hd]
      | entering since =>
        have := hs.turn.regular i _ hi
        simp [Submission.isRegular] at this
      | waiting since =>
        have hd := hs.turn.drained_eq_false (hs.turn.queued i since hi)
        rw [poll_of_waiting hs hi, isWoken_of_submission hi, hd]
      | granted since =>
        rw [poll_of_granted hi] at hp
        cases hp
      | running => rw [poll_of_running hi, isWoken_of_submission hi]
      | ended how => rw [poll_of_ended hi, isWoken_of_submission hi]
    | granter k s =>
      have hi := granter?_eq_some.mpr hf
      rw [poll_of_granter hi]
      exact hs.isWoken_pollGranter hi

theorem Sound.poll_of_not_woken (hs : d.Sound) (hw : d.isWoken i = false) :
    d.poll i = (d, .pending) := by
  cases hf : d.futures.get? i with
  | none => exact poll_of_get?_eq_none hf
  | some f =>
    cases f with
    | submission v =>
      have hi := submission?_eq_some.mpr hf
      rw [isWoken_of_submission hi] at hw
      cases v with
      | created | granted => cases hw
      | entering since =>
        have := hs.turn.regular i _ hi
        simp [Submission.isRegular] at this
      | waiting since => exact poll_of_waiting hs hi
      | running => exact poll_of_running hi
      | ended how => exact poll_of_ended hi
    | granter k s =>
      have hi := granter?_eq_some.mpr hf
      rw [poll_of_granter hi]
      exact hs.pollGranter_of_not_woken hi hw

/-- A poll changes nothing exactly if the future was not woken. -/
theorem Sound.poll_eq_iff (hs : d.Sound) : d.poll i = (d, .pending) ↔ d.isWoken i = false := by
  refine ⟨fun hp => ?_, hs.poll_of_not_woken⟩
  have hw := hs.isWoken_poll (i := i) (by rw [hp])
  rwa [hp] at hw

end Dispatcher

open Dispatcher

namespace History

variable {ι : Type} [DecidableEq ι] {h : History ι} {i : ι}

/-- A driver that polls only the futures that were woken leaves out all other polls. -/
def heeds (h : History ι) : Action ι → Bool
  | .poll i => h.dispatcher.isWoken i
  | _ => true

def heeded (h : History ι) : List (Action ι) → List (Action ι)
  | [] => []
  | a :: as => if h.heeds a then a :: (h.step a).heeded as else h.heeded as

theorem heeds_eq_false {a : Action ι} (ha : h.heeds a = false) :
    ∃ i, a = .poll i ∧ h.dispatcher.isWoken i = false := by
  cases a with
  | poll i => exact ⟨i, rfl, ha⟩
  | _ => cases ha

theorem Reachable.step_of_not_woken (hr : h.Reachable) (hw : h.dispatcher.isWoken i = false) :
    h.step (.poll i) = h := by
  have hp := hr.sound.poll_of_not_woken hw
  have hi : h.dispatcher.submission? i ≠ some .created := by
    intro hi
    rw [isWoken_of_submission hi] at hw
    cases hw
  simp [History.step, act, admits, starts, hp, hi]

theorem Reachable.after_heeded (hr : h.Reachable) (as : List (Action ι)) :
    h.after (h.heeded as) = h.after as := by
  induction as generalizing h with
  | nil => rfl
  | cons a as ih =>
    unfold heeded
    split
    · exact ih (hr.step a)
    · rename_i ha
      obtain ⟨i, rfl, hw⟩ := heeds_eq_false (Bool.eq_false_iff.mpr ha)
      rw [ih hr, History.after, History.after, List.foldl_cons, hr.step_of_not_woken hw]

theorem Reachable.replies_heeded (hr : h.Reachable) (as : List (Action ι)) :
    (h.replies (h.heeded as)).Sublist (h.replies as) ∧
      (h.replies (h.heeded as)).filter (·.2 ≠ some .pending) =
        (h.replies as).filter (·.2 ≠ some .pending) := by
  induction as generalizing h with
  | nil => exact ⟨.refl _, rfl⟩
  | cons a as ih =>
    unfold heeded
    split
    · obtain ⟨hsub, heq⟩ := ih (hr.step a)
      refine ⟨hsub.cons_cons _, ?_⟩
      simp only [replies, List.filter_cons, heq]
    · rename_i ha
      obtain ⟨i, rfl, hw⟩ := heeds_eq_false (Bool.eq_false_iff.mpr ha)
      obtain ⟨hsub, heq⟩ := ih hr
      have hans : h.dispatcher.answer (.poll i) = some .pending :=
        congrArg (some ∘ Prod.snd) (hr.sound.poll_of_not_woken hw)
      rw [replies, hr.step_of_not_woken hw, hans]
      refine ⟨hsub.cons _, ?_⟩
      rw [heq, List.filter_cons_of_neg (by simp)]

theorem Reachable.isWoken_of_heeded (hr : h.Reachable) {as before rest : List (Action ι)}
    (hb : h.heeded as = before ++ .poll i :: rest) :
    (h.after before).dispatcher.isWoken i = true := by
  induction as generalizing h before with
  | nil => simp [heeded] at hb
  | cons a as ih =>
    unfold heeded at hb
    split at hb
    · rename_i ha
      cases before with
      | nil =>
        obtain ⟨rfl, -⟩ := List.cons.inj hb
        exact ha
      | cons b before =>
        obtain ⟨rfl, hb'⟩ := List.cons.inj hb
        exact ih (hr.step _) hb'
    · exact ih hr hb

end History

open History

variable {ι : Type} [DecidableEq ι] {h : History ι}

/-- A future that was polled in vain waits for something, and until that has come about a poll of it
changes nothing at all. So whoever polls only the futures that were woken gets the same answers, and
comes to the same state, as whoever polls them all. -/
theorem unwoken_polls_are_idle (hr : h.Reachable) :
    (∀ i, (h.dispatcher.poll i).2 = .pending →
      (h.step (.poll i)).dispatcher.isWoken i = false) ∧
    (∀ i, h.dispatcher.poll i = (h.dispatcher, .pending) ↔ h.dispatcher.isWoken i = false) ∧
    (∀ i, h.dispatcher.isWoken i = false → h.step (.poll i) = h) ∧
    ∀ as, let woken := h.heeded as
      h.after woken = h.after as ∧
      (∀ before i rest, woken = before ++ .poll i :: rest →
        (h.after before).dispatcher.isWoken i = true) ∧
      (h.replies woken).Sublist (h.replies as) ∧
      (h.replies woken).filter (·.2 ≠ some .pending) =
        (h.replies as).filter (·.2 ≠ some .pending) := by
  refine ⟨fun i hp => hr.sound.isWoken_poll hp, fun i => hr.sound.poll_eq_iff,
    fun i hw => hr.step_of_not_woken hw, fun as => ?_⟩
  exact ⟨hr.after_heeded as, fun before i rest hb => hr.isWoken_of_heeded hb,
    hr.replies_heeded as⟩

/-- A loop awaits the turn of the first of two submissions, and a closer the baton. -/
theorem unwoken_polls_are_idle_closer :
    let h := (fresh {} : History (Fin 4)).after [.submit 0, .submit 1, .poll 0, .poll 1, .run 2,
      .poll 2, .close 3, .poll 3]
    let as := [.poll 3, .poll 2, .poll 1, .poll 0, .poll 3, .finish 0 false, .poll 1, .poll 2,
      .poll 3, .poll 2, .poll 1, .finish 1 true, .poll 3, .poll 2, .poll 3]
    (h.dispatcher.isWoken 1 = false ∧ h.dispatcher.isWoken 2 = false ∧
      h.dispatcher.isWoken 3 = false) ∧ h.step (.poll 2) = h ∧
    h.heeded as = [.poll 0, .finish 0 false, .poll 2, .poll 1, .finish 1 true, .poll 2, .poll 3] ∧
    h.after (h.heeded as) = h.after as :=
  have hr := (Reachable.fresh {}).after [.submit 0, .submit 1, .poll 0, .poll 1, .run 2,
    .poll 2, .close 3, .poll 3]
  have hu := unwoken_polls_are_idle hr
  ⟨by decide, hu.2.2.1 2 (by decide), by decide, (hu.2.2.2 _).1⟩

end Turnstile
