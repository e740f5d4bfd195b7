import Turnstile.Proofs.TimedLock.History

namespace Turnstile

namespace TimedLock

/-- A wake-up that does not end the wait: the lock is still held, and the time is not over. -/
def Window.outlasts (w : Window) (x : Wake × Bool) : Bool :=
  x.2 && !decide (x.1 = .timedOut ∧ w.bounded = true)

def Call.outcome (c : Call) (w : Window) : Attempt → Outcome
  | .acquired => .acquired
  | .parked => .parked
  | .timedOut e =>
    match c with
    | .lockWithin _ => .timedOut e
    | _ => .deadlock w.timeout

def Call.endsProcess : Call → Bool
  | .lockWithin _ => false
  | _ => true

section Search

variable {l : TimedLock} {w : Window} {wakes : List (Wake × Bool)}

theorem Window.not_outlasts_iff {x : Wake × Bool} :
    w.outlasts x = false ↔ x.2 = false ∨ x.1 = .timedOut ∧ w.bounded = true := by
  cases hx : x.2 <;> simp only [outlasts, hx] <;> simp

theorem recheck_of_outlasts {x : Wake × Bool} (hl : l.locked = true) (hx : w.outlasts x = true) :
    { l with locked := x.2 }.recheck w x.1 = (l, .parked) := by
  obtain ⟨why, locked⟩ := x
  cases locked with
  | false => simp [Window.outlasts] at hx
  | true =>
    have hx' : ¬(why = .timedOut ∧ w.bounded = true) := by
      simpa only [Window.outlasts, Bool.true_and, Bool.not_eq_true', decide_eq_false_iff_not]
        using hx
    have held : ({ l with locked := true } : TimedLock) = l := by rw [← hl]
    simp only [recheck, held, if_neg hx', if_true]

theorem waitOn_eq (hl : l.locked = true) (wakes : List (Wake × Bool)) :
    waitOn w l wakes =
      match wakes.find? fun x => !w.outlasts x with
      | none => (l, .parked)
      | some (_, false) => (l, .acquired)
      | some (_, true) => (l, .timedOut (.timeout w.timeout)) := by
  induction wakes with
  | nil => rfl
  | cons x wakes ih =>
    have held : ({ l with locked := true } : TimedLock) = l := by rw [← hl]
    cases hx : w.outlasts x with
    | true =>
      rw [List.find?_cons_of_neg (by simp [hx]), ← ih, waitOn, recheck_of_outlasts hl hx]
    | false =>
      obtain ⟨why, locked⟩ := x
      rw [List.find?_cons_of_pos (by simp [hx])]
      cases locked with
      | false => simp [waitOn, recheck, held]
      | true =>
        have hx' : why = .timedOut ∧ w.bounded = true := by
          simpa using Window.not_outlasts_iff.1 hx
        simp [waitOn, recheck, held, hx']

theorem waitFor_of_free (hl : l.locked = false) (wakes : List (Wake × Bool)) :
    l.waitFor w wakes = ({ l with locked := true }, .acquired) := by
  simp [waitFor, arrive, hl]

theorem waitFor_of_held (hl : l.locked = true) (wakes : List (Wake × Bool)) :
    l.waitFor w wakes = waitOn w l wakes := by
  simp [waitFor, arrive, hl]

theorem find?_outlasts_iff {x : Wake × Bool} :
    (wakes.find? fun x => !w.outlasts x) = some x ↔
      (x.2 = false ∨ x.1 = .timedOut ∧ w.bounded = true) ∧
        ∃ before rest, wakes = before ++ x :: rest ∧ ∀ y ∈ before, w.outlasts y = true := by
  simp [List.find?_eq_some_iff_append, ← Window.not_outlasts_iff]

theorem waitFor_acquired_iff : (l.waitFor w wakes).2 = .acquired ↔ l.locked = false ∨
    ∃ before why rest, wakes = before ++ (why, false) :: rest ∧
      ∀ x ∈ before, w.outlasts x = true := by
  have freed_iff : (∃ before why rest, wakes = before ++ (why, false) :: rest ∧
      ∀ x ∈ before, w.outlasts x = true) ↔
        ∃ why, (wakes.find? fun x => !w.outlasts x) = some (why, false) := by
    simp only [find?_outlasts_iff, true_or, true_and]
    exact exists_comm
  rw [freed_iff]
  cases hl : l.locked with
  | false => simp [waitFor_of_free hl]
  | true =>
    rw [waitFor_of_held hl, waitOn_eq hl]
    cases wakes.find? fun x => !w.outlasts x with
    | none => simp
    | some x => obtain ⟨why, _ | _⟩ := x <;> simp

theorem waitFor_timedOut_iff {e : AcquisitionError} : (l.waitFor w wakes).2 = .timedOut e ↔
    e = .timeout w.timeout ∧ w.bounded = true ∧ l.locked = true ∧
      ∃ before rest, wakes = before ++ (.timedOut, true) :: rest ∧
        ∀ x ∈ before, w.outlasts x = true := by
  cases hl : l.locked with
  | false => simp [waitFor_of_free hl]
  | true =>
    have late_iff : (wakes.find? fun x => !w.outlasts x) = some (.timedOut, true) ↔
        w.bounded = true ∧ ∃ before rest, wakes = before ++ (.timedOut, true) :: rest ∧
          ∀ x ∈ before, w.outlasts x = true := by
      simp only [find?_outlasts_iff, Bool.true_eq_false, false_or, true_and]
    rw [eq_self true, true_and, ← late_iff, waitFor_of_held hl, waitOn_eq hl]
    cases hf : wakes.find? fun x => !w.outlasts x with
    | none => simp
    | some x =>
      obtain ⟨why, _ | _⟩ := x
      · simp
      · obtain ⟨rfl, -⟩ : why = .timedOut ∧ _ := by simpa using (find?_outlasts_iff.1 hf).1
        simp [eq_comm]

theorem waitFor_lock (l : TimedLock) (w : Window) (wakes : List (Wake × Bool)) :
    (l.waitFor w wakes).1 =
      if (l.waitFor w wakes).2 = .acquired then { l with locked := true } else l := by
  cases hl : l.locked with
  | false => simp [waitFor_of_free hl]
  | true =>
    have held : ({ l with locked := true } : TimedLock) = l := by rw [← hl]
    rw [waitFor_of_held hl, waitOn_eq hl, held, ite_self]
    cases wakes.find? fun x => !w.outlasts x with
    | none => rfl
    | some x => obtain ⟨why, _ | _⟩ := x <;> rfl

theorem waitOn_parked_iff (hl : l.locked = true) :
    (waitOn w l wakes).2 = .parked ↔ ∀ x ∈ wakes, w.outlasts x = true := by
  have none_iff : (wakes.find? fun x => !w.outlasts x) = none ↔
      ∀ x ∈ wakes, w.outlasts x = true := by
    simp
  rw [← none_iff, waitOn_eq hl]
  cases wakes.find? fun x => !w.outlasts x with
  | none => simp
  | some x => obtain ⟨why, _ | _⟩ := x <;> simp

/-- What a parked waiter has seen so far does not matter for what comes next. -/
theorem waitOn_append (hl : l.locked = true) (hp : (waitOn w l wakes).2 = .parked)
    (more : List (Wake × Bool)) : waitOn w l (wakes ++ more) = waitOn w l more := by
  have none : (wakes.find? fun x => !w.outlasts x) = none := by
    simpa using (waitOn_parked_iff hl).1 hp
  rw [waitOn_eq hl, waitOn_eq hl, List.find?_append, none, Option.none_or]

theorem waitOn_singleton (w : Window) (l : TimedLock) (x : Wake × Bool) :
    waitOn w l [x] = { l with locked := x.2 }.recheck w x.1 := by
  obtain ⟨why, locked⟩ := x
  generalize hr : ({ l with locked := locked } : TimedLock).recheck w why = r
  obtain ⟨l', _ | _ | _⟩ := r <;> simp [waitOn, hr]

theorem recheck_congr {l' : TimedLock} (h : l.locked = l'.locked) (w : Window) (why : Wake) :
    (l.recheck w why).2 = (l'.recheck w why).2 ∧
      (l.recheck w why).1.locked = (l'.recheck w why).1.locked := by
  simp only [recheck, h]
  split <;> simp [h]

end Search

def ThreadState.waiting : ThreadState → Option (Call × Window)
  | parked c w | awake c w _ => some (c, w)
  | _ => none

namespace Threads

variable {ι : Type} [DecidableEq ι]

def after (s : Threads ι) (as : List (Action ι)) : Threads ι := as.foldl (fun s a => (s.act a).1) s

/-- Why thread `t` had woken and whether it finds the lock held, if the action is its next look at
the lock. -/
def glimpse (s : Threads ι) (t : ι) (a : Action ι) : Option (Wake × Bool) :=
  match s.state t with
  | .awake _ _ why => if s.ended = false ∧ a = .recheck t then some (why, s.lock.locked) else none
  | _ => none

def glimpses (t : ι) : Threads ι → List (Action ι) → List (Wake × Bool)
  | _, [] => []
  | s, a :: as => (s.glimpse t a).toList ++ glimpses t (s.act a).1 as

variable {s : Threads ι} {t u : ι} {c : Call} {w : Window} {l : TimedLock} {r : TimedLock × Attempt}
  {a : Action ι} {x : Wake × Bool}

theorem conclude_outcome : (s.conclude t c w r).2 = c.outcome w r.2 := by
  obtain ⟨l, _ | _ | _⟩ := r
  · rfl
  · cases c <;> rfl
  · rfl

theorem conclude_lock : (s.conclude t c w r).1.lock = r.1 := by
  obtain ⟨l, _ | _ | _⟩ := r <;> cases c <;> rfl

theorem conclude_ended : (s.conclude t c w r).1.ended = true ↔
    s.ended = true ∨ c.endsProcess = true ∧ ∃ e, r.2 = .timedOut e := by
  obtain ⟨l, _ | _ | _⟩ := r <;> cases c <;> simp [conclude, set, guardMade, Call.endsProcess]

theorem state_set_of_ne (h : t ≠ u) (s : Threads ι) (st : ThreadState) :
    (s.set u st).state t = s.state t := by
  rw [state_set, Function.update_of_ne h]

theorem conclude_state_of_ne (h : t ≠ u) : (s.conclude u c w r).1.state t = s.state t := by
  obtain ⟨l, _ | _ | _⟩ := r
  · cases c <;> exact state_set_of_ne h _ _
  · cases c <;> exact state_set_of_ne h _ _
  · exact state_set_of_ne h _ _

theorem conclude_state_of_parked (h : r.2 = .parked) :
    (s.conclude t c w r).1.state t = .parked c w := by
  obtain ⟨l, att⟩ := r
  obtain rfl : att = .parked := h
  simp [conclude, state_set]

theorem waiting_wake (s : Threads ι) (u t : ι) (why : Wake) :
    ((s.wake u why).state t).waiting = (s.state t).waiting := by
  unfold wake
  split
  · rename_i c w hu
    by_cases h : t = u
    · subst u
      simp [state_set, hu, ThreadState.waiting]
    · rw [state_set_of_ne h]
  · rfl

theorem waiting_act (hw : (s.state t).waiting = some (c, w)) (hg : s.glimpse t a = none) :
    ((s.act a).1.state t).waiting = some (c, w) := by
  -- whoever acts on its own account is not waiting, so it is not `t`
  have ne_of_state {u : ι} (hu : (s.state u).waiting = none) : t ≠ u := by
    rintro rfl
    simp [hu] at hw
  have same_of_unlock {u : ι} (s' : Threads ι) (hu : t ≠ u) (hs : s'.state t = s.state t) :
      ((s'.unlock u).1.state t).waiting = some (c, w) := by
    obtain ⟨-, hr⟩ | ⟨-, hr⟩ := s'.unlock_cases u
    · rw [hr, state_set_of_ne hu, ← hw, ← hs]
      rfl
    · rw [hr, hs, hw]
  unfold act
  split
  · rename_i h
    obtain ⟨hn, ha⟩ := h
    cases a with
    | call u c' =>
      simp only [allows, decide_eq_true_eq] at ha
      rw [perform, call, conclude_state_of_ne (ne_of_state (by rw [ha]; rfl)), hw]
    | tryLock u =>
      have same : s.tryLock.1.state = s.state := by
        unfold tryLock
        split <;> rfl
      rw [perform, same, hw]
    | unlock u =>
      simp only [allows, decide_eq_true_eq] at ha
      exact same_of_unlock s (ne_of_state (by rw [ha]; rfl)) rfl
    | dropGuard u =>
      simp only [allows, Bool.and_eq_true, decide_eq_true_eq] at ha
      exact same_of_unlock s.forgetGuard (ne_of_state (by rw [ha.1]; rfl)) rfl
    | forgetGuard u => exact hw
    | notify u target =>
      have hu : s.state u = .notifying := by cases target <;> simp_all [allows]
      have hne : t ≠ u := ne_of_state (by rw [hu]; rfl)
      cases target with
      | none =>
        have hs : s.notify u none = s.set u .idle := by simp [notify, hu]
        rw [perform, hs, state_set_of_ne hne, hw]
      | some v =>
        have hs : s.notify u (some v) = (s.set u .idle).wake v .signalled := by simp [notify, hu]
        rw [perform, hs, waiting_wake, state_set_of_ne hne, hw]
    | wake u why => rw [perform, waiting_wake, hw]
    | recheck u =>
      by_cases hu : t = u
      · subst u
        cases hst : s.state t <;> simp_all [allows, glimpse, ThreadState.isAwake]
      · rw [perform, recheck]
        split
        · rw [conclude_state_of_ne hu, hw]
        · exact hw
    | advance ns => exact hw
  · exact hw

/-- A look at the lock comes to what it comes to for a waiter that has seen nothing before. -/
theorem act_of_glimpse (hw : (s.state t).waiting = some (c, w)) (hg : s.glimpse t a = some x)
    (l : TimedLock) : ∃ r : TimedLock × Attempt,
      s.act a = ((s.conclude t c w r).1, some (c.outcome w r.2)) ∧ s.ended = false ∧
        r.2 = (waitOn w l [x]).2 ∧ r.1.locked = (waitOn w l [x]).1.locked := by
  unfold glimpse at hg
  split at hg
  · rename_i c' w' why hst
    obtain ⟨rfl, rfl⟩ : c' = c ∧ w' = w := by simpa [hst, ThreadState.waiting] using hw
    obtain ⟨⟨hn, rfl⟩, rfl⟩ : (s.ended = false ∧ a = .recheck t) ∧ (why, s.lock.locked) = x := by
      simpa using hg
    refine ⟨s.lock.recheck w' why, ?_, hn, ?_⟩
    · simp [act, hn, allows, hst, ThreadState.isAwake, perform, recheck, conclude_outcome]
    · rw [waitOn_singleton]
      have same : s.lock.locked = ({ l with locked := s.lock.locked } : TimedLock).locked := rfl
      exact recheck_congr same w' why
  · cases hg

theorem waiting_after (hl : l.locked = true) {as : List (Action ι)}
    (hw : (s.state t).waiting = some (c, w)) (hp : (waitOn w l (glimpses t s as)).2 = .parked) :
    ((s.after as).state t).waiting = some (c, w) := by
  induction as generalizing s with
  | nil => exact hw
  | cons a as ih =>
    rw [glimpses, waitOn_parked_iff hl, List.forall_mem_append, ← waitOn_parked_iff hl,
      ← waitOn_parked_iff hl] at hp
    refine ih ?_ hp.2
    cases hg : s.glimpse t a with
    | none => exact waiting_act hw hg
    | some x =>
      obtain ⟨r, hr, -, hr₂, -⟩ := act_of_glimpse hw hg l
      have parked : r.2 = .parked := by rw [hr₂, ← hp.1, hg]; rfl
      change ((s.act a).1.state t).waiting = some (c, w)
      rw [hr, conclude_state_of_parked parked]
      rfl

theorem act_call (hn : s.ended = false) (ht : s.state t = .idle) (c : Call)
    (hw : w = .since s.now (c.timeout s.lock)) : s.act (.call t c) =
      ((s.conclude t c w s.lock.arrive).1, some (c.outcome w s.lock.arrive.2)) := by
  subst hw
  simp [act, hn, allows, ht, perform, call, conclude_outcome]

theorem ended_notify (s : Threads ι) (u : ι) (target : Option ι) :
    (s.notify u target).ended = s.ended := by
  unfold notify
  split
  · exact ((s.set u .idle).wake_same _ .signalled).2.2
  · rfl
  · rfl

theorem ended_unlock (s : Threads ι) (u : ι) : (s.unlock u).1.ended = s.ended := by
  obtain ⟨-, hu⟩ | ⟨-, hu⟩ := s.unlock_cases u <;> rw [hu]
  rfl

theorem ended_of_no_look (hn : s.ended = false) (ha : ∀ t, a ≠ .recheck t) :
    (s.act a).1.ended = false := by
  unfold act
  split
  · cases a with
    | call t c =>
      rw [← Bool.not_eq_true, perform, call, conclude_ended, hn]
      cases hl : s.lock.locked <;> simp [arrive, hl]
    | tryLock t =>
      rw [perform, tryLock]
      split <;> exact hn
    | unlock t => rw [perform, ended_unlock, hn]
    | dropGuard t =>
      rw [perform, dropGuard, ended_unlock]
      exact hn
    | forgetGuard t => exact hn
    | notify t target => rw [perform, ended_notify, hn]
    | wake t why => rw [perform, (s.wake_same t why).2.2, hn]
    | recheck t => exact (ha t rfl).elim
    | advance ns => exact hn
  · exact hn

theorem recheck_timedOut_iff {why : Wake} : (∃ e, (l.recheck w why).2 = .timedOut e) ↔
    l.locked = true ∧ why = .timedOut ∧ w.bounded = true := by
  unfold TimedLock.recheck
  split
  · split <;> simp_all
  · simp_all

theorem ended_act_iff (hn : s.ended = false) : (s.act a).1.ended = true ↔
    ∃ t c w, a = .recheck t ∧ s.state t = .awake c w .timedOut ∧ c.endsProcess = true ∧
      w.bounded = true ∧ s.lock.locked = true := by
  by_cases ha : ∃ t, a = .recheck t
  · obtain ⟨t, rfl⟩ := ha
    cases hst : s.state t with
    | awake c w why =>
      have hr : s.act (.recheck t) =
          ((s.conclude t c w (s.lock.recheck w why)).1, some (s.recheck t).2) := by
        simp [act, hn, allows, hst, ThreadState.isAwake, perform, recheck]
      rw [hr, conclude_ended, recheck_timedOut_iff, hn]
      constructor
      · rintro (h | ⟨hc, hl, rfl, hb⟩)
        · cases h
        · exact ⟨t, c, w, rfl, hst, hc, hb, hl⟩
      · rintro ⟨t', c', w', ht, hst', hc, hb, hl⟩
        obtain rfl : t = t' := by simpa using ht
        obtain ⟨rfl, rfl, rfl⟩ : c = c' ∧ w = w' ∧ why = .timedOut := by simpa [hst] using hst'
        exact .inr ⟨hc, hl, rfl, hb⟩
    | idle | parked | notifying => simp [act, allows, hst, ThreadState.isAwake, hn]
  · have hne : ∀ t, a ≠ .recheck t := fun t h => ha ⟨t, h⟩
    simp [ended_of_no_look hn hne, hne]

end Threads

open Threads

variable {ι : Type} [DecidableEq ι]

/-- A call by itself, whatever it finds at each wake-up; a call among other threads, which comes to
what the first does on all that it has seen; and the one way in which the process ends. -/
theorem bounded_acquisition_is_exact :
    (∀ (l : TimedLock) (now : Nat) (timeout : Duration) (wakes : List (Wake × Bool)),
      let w := Window.since now timeout
      let r := l.waitFor w wakes
      (r.2 = .acquired ↔ l.locked = false ∨ ∃ before why rest,
        wakes = before ++ (why, false) :: rest ∧ ∀ x ∈ before, w.outlasts x = true) ∧
      (∀ e, r.2 = .timedOut e ↔ e = .timeout timeout ∧ w.bounded = true ∧ l.locked = true ∧
        ∃ before rest, wakes = before ++ (.timedOut, true) :: rest ∧
          ∀ x ∈ before, w.outlasts x = true) ∧
      r.1 = (if r.2 = .acquired then { l with locked := true } else l) ∧
      (Number.signedLimit * 1000000000 ≤ now + timeout.toNanos → ∀ e, r.2 ≠ .timedOut e)) ∧
    (∀ (s : Threads ι) (t : ι) (c : Call), s.ended = false → s.state t = .idle →
      let w := Window.since s.now (c.timeout s.lock)
      let s₁ := (s.act (.call t c)).1
      (s.act (.call t c)).2 = some (c.outcome w (s.lock.waitFor w []).2) ∧
      s₁.lock = (s.lock.waitFor w []).1 ∧ s₁.ended = false ∧
      ∀ as, (s.lock.waitFor w (glimpses t s₁ as)).2 = .parked →
        let s₂ := s₁.after as
        (s₂.state t).waiting = some (c, w) ∧
        ∀ a x, s₂.glimpse t a = some x →
          let r := s.lock.waitFor w (glimpses t s₁ as ++ [x])
          (s₂.act a).2 = some (c.outcome w r.2) ∧
          (s₂.act a).1.lock.locked = r.1.locked ∧
          ((s₂.act a).1.ended = true ↔ c.endsProcess = true ∧ ∃ e, r.2 = .timedOut e)) ∧
    (∀ (s : Threads ι) (a : Action ι), s.ended = false → ((s.act a).1.ended = true ↔
      ∃ t c w, a = .recheck t ∧ s.state t = .awake c w .timedOut ∧ c.endsProcess = true ∧
        w.bounded = true ∧ s.lock.locked = true)) := by
  refine ⟨?_, ?_, fun s a hn => ended_act_iff hn⟩
  · intro l now timeout wakes w r
    refine ⟨waitFor_acquired_iff, fun e => waitFor_timedOut_iff, waitFor_lock l w wakes, ?_⟩
    intro hlate e he
    have hb : w.bounded = true := (waitFor_timedOut_iff.1 he).2.1
    have : now + timeout.toNanos < Number.signedLimit * 1000000000 := by
      simpa [w, Window.since] using hb
    omega
  · intro s t c hn ht w s₁
    have hcall := act_call hn ht c (w := w) rfl
    have hs₁ : s₁ = (s.conclude t c w s.lock.arrive).1 := congrArg Prod.fst hcall
    have harrive : s.lock.waitFor w [] = s.lock.arrive := by
      cases hl : s.lock.locked <;> simp [waitFor, arrive, waitOn, hl]
    refine ⟨by rw [hcall, harrive], by rw [hs₁, conclude_lock, harrive],
      ended_of_no_look hn (by simp), fun as hp => ?_⟩
    -- a call that is still parked after its looks `as` has found the lock held at the start
    have hl : s.lock.locked = true := by
      by_contra hl
      rw [waitFor_of_free (by simpa using hl)] at hp
      cases hp
    rw [waitFor_of_held hl] at hp
    have parked : s.lock.arrive.2 = .parked := by simp [arrive, hl]
    have hw₁ : (s₁.state t).waiting = some (c, w) := by
      rw [hs₁, conclude_state_of_parked parked]
      rfl
    have hw₂ := waiting_after hl hw₁ hp
    refine ⟨hw₂, fun a x hx => ?_⟩
    obtain ⟨r, ha, hn₂, hatt, hlock⟩ := act_of_glimpse hw₂ hx s.lock
    rw [waitFor_of_held hl, waitOn_append hl hp, ha, conclude_lock, conclude_ended, hn₂, hatt,
      hlock]
    simp

/-- A thread that is woken for nothing and then too late gives up, and the process with it. -/
theorem bounded_acquisition_is_exact_late :
    let s : Threads Bool := { lock := { locked := true, timeout := .ofMillis 5 } }
    let s₁ := (s.act (.call true .lock)).1
    let as : List (Action Bool) :=
      [.wake true .spurious, .recheck true, .advance 5000000, .wake true .timedOut]
    s.ended = false ∧ s.state true = .idle ∧ glimpses true s₁ as = [(.spurious, true)] ∧
      (s₁.after as).glimpse true (.recheck true) = some (.timedOut, true) ∧
      ((s₁.after as).act (.recheck true)).2 = some (.deadlock (.ofMillis 5)) ∧
      ((s₁.after as).act (.recheck true)).1.ended = true ∧
      ∀ wakes e,
        (s.lock.waitFor (.since 0 ⟨Number.signedLimit.toUInt64, 0⟩) wakes).2 ≠ .timedOut e := by
  intro s s₁ as
  obtain ⟨alone, calls, -⟩ := @bounded_acquisition_is_exact Bool _
  obtain ⟨-, -, -, looks⟩ := calls s true .lock (by decide) (by decide)
  obtain ⟨-, look⟩ := looks as (by decide)
  obtain ⟨ho, -, he⟩ := look (.recheck true) (.timedOut, true) (by decide)
  have ended : ((s₁.after as).act (.recheck true)).1.ended = true := by
    simpa only [s₁] using he.2 ⟨rfl, .timeout (.ofMillis 5), by decide⟩
  exact ⟨by decide, by decide, by decide, by decide, ho.trans (by decide), ended,
    fun wakes => (alone s.lock 0 ⟨Number.signedLimit.toUInt64, 0⟩ wakes).2.2.2 (by decide)⟩

end TimedLock

end Turnstile
