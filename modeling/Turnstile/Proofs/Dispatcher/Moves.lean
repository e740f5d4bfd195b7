import Mathlib.Logic.Relation
import Turnstile.Proofs.Dispatcher.Invariant

namespace Turnstile.Dispatcher

variable {ι : Type} [DecidableEq ι]

/-- What holds of a dispatcher between any two moves of its futures. -/
structure Sound (d : Dispatcher ι) : Prop where
  baton : BatonSound d.baton d.granter?
  turn : TurnSound d.awaited d.submission? d.queue.elements d.drained
  wait : WaitSound d.queue d.awaited d.granter?
  phase : PhaseSound d.closed d.stopping d.drained d.granter?
  log : LogSound d.notices d.drained

/-- In the middle of a poll: `i` has the baton, and it does not stand in the queue's line. -/
structure Acts (d : Dispatcher ι) (i : ι) (k : GranterKind) : Prop where
  holder : d.baton.holder = some i
  state : ∃ s, d.granter? i = some (k, s) ∧ s.isUnderWay = true ∧ s ≠ .popping

def accept (d : Dispatcher ι) (i : ι) : Dispatcher ι :=
  { d.setSubmission i (.waiting d.now) with queue := d.queue.push i }

def useSignal (d : Dispatcher ι) : Dispatcher ι :=
  { d with queue := { d.queue with signal := { d.queue.signal with stored := false } } }

/-- The smallest changes that a granter makes in a poll, each with what it has found out by then. -/
inductive Move : Dispatcher ι → Dispatcher ι → Prop where
  | shutDoor {d : Dispatcher ι} (k : GranterKind) : Move d (d.shutDoor k)
  | requestBaton {d : Dispatcher ι} {i : ι} {k : GranterKind}
      (hi : d.granter? i = some (k, .created)) (hc : k = .closer → d.closed = true) :
      Move d (d.requestBaton i k)
  | start {d : Dispatcher ι} : Move d (d.note .loopStarted)
  | retire {d d' : Dispatcher ι} (h : d.retireTurn = some d') : Move d d'
  | useSignal {d : Dispatcher ι} {i : ι} {k : GranterKind} (ha : d.Acts i k) : Move d d.useSignal
  | hand {d : Dispatcher ι} {i j : ι} {k : GranterKind} {rest : List ι} (ha : d.Acts i k)
      (hn : d.awaited = none) (hq : d.queue.elements = j :: rest) :
      Move d ((d.setElements rest).grant j).1
  | rest {d : Dispatcher ι} {i : ι} {k : GranterKind} {s : GranterState} (ha : d.Acts i k)
      (hs : s = .retiring ∧ k = .loop ∨ d.closed = true ∧ ∃ n, s = .draining n) :
      Move d (d.setGranter i k s)
  | register {d : Dispatcher ι} {i : ι} (ha : d.Acts i .loop) (hn : d.awaited = none)
      (hq : d.queue.elements = []) : Move d ((d.look i).setGranter i .loop .popping)
  | stepOut {d : Dispatcher ι} {i : ι} {k : GranterKind}
      (hi : d.granter? i = some (k, .popping)) : Move d (d.stepOut i k)
  | breakOff {d : Dispatcher ι} {i : ι} {k : GranterKind}
      (hi : d.granter? i = some (k, .popping)) (hc : d.closed = true) : Move d (d.breakOff i k)
  | completeDrain {d : Dispatcher ι} {i : ι} {k : GranterKind} (n : Nat) (ha : d.Acts i k)
      (hn : d.awaited = none) (hq : d.queue.elements = []) (hc : d.closed = true) :
      Move d (d.completeDrain n)
  | endGranter {d : Dispatcher ι} {i : ι} {k : GranterKind} (ha : d.Acts i k)
      (hd : d.drained = true) : Move d (d.endGranter i k)

abbrev Chain : Dispatcher ι → Dispatcher ι → Prop := Relation.ReflTransGen Move

variable {d d' : Dispatcher ι} {i j : ι} {k : GranterKind} {s : GranterState}

theorem Acts.granter?_ne_popping (ha : d.Acts i k) (hs : d.Sound) (j : ι) (k' : GranterKind) :
    d.granter? j ≠ some (k', .popping) := by
  intro hj
  have hh := hs.baton.holding j k' .popping hj rfl (by simp)
  obtain ⟨s, hi, -, hn⟩ := ha.state
  have hij : i = j := Option.some.inj (ha.holder.symm.trans hh)
  subst j
  rw [hi] at hj
  cases hj
  exact hn rfl

theorem Acts.waiters_eq_nil (ha : d.Acts i k) (hs : d.Sound) : d.queue.signal.waiters = [] :=
  hs.wait.waiters_eq_nil (ha.granter?_ne_popping hs)

theorem Acts.submission?_eq_none (ha : d.Acts i k) : d.submission? i = none := by
  obtain ⟨s, hi, -⟩ := ha.state
  exact submission?_of_granter? hi

theorem Sound.awaited_of_hasTurn (hs : d.Sound) (hi : d.hasTurn i = true) :
    d.awaited = some i := by
  obtain ⟨s, hi, ht⟩ := hasTurn_iff.mp hi
  exact hs.turn.awaited i s hi ht

/-- The parts put together, where `d` has come from `c` and a granter has changed its state. -/
theorem Sound.of_granter {c : Dispatcher ι} (hf : d.futures = (c.setGranter i k s).futures)
    (hn : c.submission? i = none)
    (hb : BatonSound d.baton (Function.update c.granter? i (some (k, s))))
    (ht : TurnSound d.awaited c.submission? d.queue.elements d.drained)
    (hw : WaitSound d.queue d.awaited (Function.update c.granter? i (some (k, s))))
    (hp : PhaseSound d.closed d.stopping d.drained (Function.update c.granter? i (some (k, s))))
    (hl : LogSound d.notices d.drained) : d.Sound := by
  have hg : d.granter? = Function.update c.granter? i (some (k, s)) := by
    rw [← granter?_setGranter]
    funext j
    simp only [granter?, hf]
  have hs : d.submission? = c.submission? := by
    rw [← submission?_setGranter hn k s]
    funext j
    simp only [submission?, hf]
  exact ⟨hg ▸ hb, hs ▸ ht, hg ▸ hw, hg ▸ hp, hl⟩

theorem Sound.of_submission {c : Dispatcher ι} {v : Submission}
    (hf : d.futures = (c.setSubmission i v).futures) (hn : c.granter? i = none)
    (hb : BatonSound d.baton c.granter?)
    (ht : TurnSound d.awaited (Function.update c.submission? i (some v)) d.queue.elements d.drained)
    (hw : WaitSound d.queue d.awaited c.granter?)
    (hp : PhaseSound d.closed d.stopping d.drained c.granter?)
    (hl : LogSound d.notices d.drained) : d.Sound := by
  have hg : d.granter? = c.granter? := by
    rw [← granter?_setSubmission hn v]
    funext j
    simp only [granter?, hf]
  have hs : d.submission? = Function.update c.submission? i (some v) := by
    rw [← submission?_setSubmission]
    funext j
    simp only [submission?, hf]
  exact ⟨hg ▸ hb, hs ▸ ht, hg ▸ hw, hg ▸ hp, hl⟩

theorem Sound.note (hs : d.Sound) {n : Notice} (hc : n.isClosing = false) (hn : n ≠ .stranded) :
    (d.note n).Sound :=
  ⟨hs.baton, hs.turn, hs.wait, hs.phase, hs.log.note hc hn⟩

theorem Sound.setSubmission (hs : d.Sound) {u v : Submission} (hi : d.submission? i = some u)
    (hv : v.hasTurn = true → u.hasTurn = true) (hw : ∀ since, v ≠ .waiting since)
    (hr : v.isRegular = true) : (d.setSubmission i v).Sound :=
  .of_submission rfl (granter?_of_submission? hi) hs.baton
    (hs.turn.set (fun ht => hs.turn.awaited i u hi (hv ht)) (fun t he => (hw t he).elim) hr)
    hs.wait hs.phase hs.log

theorem Sound.create (hs : d.Sound) {f : Future} (hi : d.futures.get? i = none)
    (hf : f = .submission .created ∨ ∃ k, f = .granter k .created) : (d.create i f).Sound := by
  have hg := granter?_of_get? hi
  have hn := submission?_of_get? hi
  rcases hf with rfl | ⟨k, rfl⟩
  · have ht := hs.turn.set (i := i) (s := .created) (by simp [Submission.hasTurn]) (by simp) rfl
    exact .of_submission rfl hg hs.baton ht hs.wait hs.phase hs.log
  · have hb := hs.baton.aside (i := i) (k := k) (s := .created) (by simp [hg]) rfl
    have hw := hs.wait.aside (i := i) (k := k) (s := .created) (by simp [hg]) (by simp)
    have hp := hs.phase.set (i := i) (k := k) (s := .created) (by simp)
      (by simp [GranterState.isUnderWay]) (by simp) (by simp)
    exact .of_granter rfl hn hb hs.turn hw hp hs.log

omit [DecidableEq ι] in
theorem shutDoor_cases (d : Dispatcher ι) (k : GranterKind) :
    d.shutDoor k = d ∧ (k = .closer → d.closed = true) ∨
      d.shutDoor k = { d with closed := true, stopping := true } := by
  cases k with
  | loop => exact .inl ⟨rfl, by simp⟩
  | closer =>
    by_cases hc : d.closed = true
    · exact .inl ⟨by simp [shutDoor, hc], fun _ => hc⟩
    · exact .inr (by simp [shutDoor, hc])

theorem Sound.shutDoor (hs : d.Sound) (k : GranterKind) : (d.shutDoor k).Sound := by
  obtain ⟨h, -⟩ | h := d.shutDoor_cases k
  · rwa [h]
  · rw [h]
    exact ⟨hs.baton, hs.turn, hs.wait, hs.phase.close, hs.log⟩

theorem Sound.requestBaton (hs : d.Sound) (hi : d.granter? i = some (k, .created))
    (hc : k = .closer → d.closed = true) : (d.requestBaton i k).Sound :=
  .of_granter (c := d) rfl (submission?_of_granter? hi) (hs.baton.request hi) hs.turn
    (hs.wait.aside (by simp [hi]) (by simp))
    (hs.phase.set (by simp) (fun hk _ => hc hk) (by simp) (by simp)) hs.log

theorem retireTurn_eq_some (h : d.retireTurn = some d') :
    (d.awaited = none ∧ d' = d) ∨
      ∃ j, d.awaited = some j ∧ d.hasTurn j = false ∧
        d' = { d with awaited := none }.note .turnCompleted := by
  unfold retireTurn at h
  split at h
  · rename_i hn
    exact .inl ⟨hn, (Option.some.inj h).symm⟩
  · rename_i j hj
    split at h
    · cases h
    · rename_i ht
      exact .inr ⟨j, hj, by simpa using ht, (Option.some.inj h).symm⟩

theorem retireTurn_eq_none :
    d.retireTurn = none ↔ ∃ j, d.awaited = some j ∧ d.hasTurn j = true := by
  unfold retireTurn
  cases d.awaited with
  | none => simp
  | some j => by_cases hj : d.hasTurn j <;> simp [hj]

theorem Sound.retire (hs : d.Sound) (h : d.retireTurn = some d') : d'.Sound := by
  obtain ⟨-, rfl⟩ | ⟨j, hj, ht, rfl⟩ := retireTurn_eq_some h
  · exact hs
  · have hn : ∀ i s, d.submission? i = some s → s.hasTurn = false := by
      intro i s hi
      cases hu : s.hasTurn with
      | false => rfl
      | true =>
        have hij : j = i := Option.some.inj (hj.symm.trans (hs.turn.awaited i s hi hu))
        subst j
        rw [hasTurn_iff.mpr ⟨s, hi, hu⟩] at ht
        cases ht
    have hw : WaitSound d.queue none d.granter? := by
      refine ⟨fun x k hx => ?_, hs.wait.waiters⟩
      have := (hs.wait.popping x k hx).2.1
      simp [hj] at this
    exact ⟨hs.baton, hs.turn.retire hn, hw, hs.phase,
      hs.log.note (by simp [Notice.isClosing]) (by simp)⟩

theorem Sound.useSignal (hs : d.Sound) (ha : d.Acts i k) : d.useSignal.Sound where
  baton := hs.baton
  turn := hs.turn
  wait := .of_none (ha.granter?_ne_popping hs) (ha.waiters_eq_nil hs)
  phase := hs.phase
  log := hs.log

theorem grant_cases (d : Dispatcher ι) (j : ι) :
    (∃ since, d.submission? j = some (.waiting since) ∧ d.grant j =
      ({ d.setSubmission j (.granted since) with awaited := some j }.note .turnGranted, true)) ∨
    (∀ since, d.submission? j ≠ some (.waiting since)) ∧
      d.grant j = (d.note .withdrawn, false) := by
  by_cases hj : ∃ since, d.submission? j = some (.waiting since)
  · obtain ⟨since, hj⟩ := hj
    exact .inl ⟨since, hj, by simp [grant, hj]⟩
  · have hj' : ∀ since, d.submission? j ≠ some (.waiting since) := fun since he => hj ⟨since, he⟩
    refine .inr ⟨hj', ?_⟩
    unfold grant
    split
    · rename_i since he
      exact (hj' since he).elim
    · rfl

theorem Sound.hand {rest : List ι} (hs : d.Sound) (ha : d.Acts i k) (hn : d.awaited = none)
    (hq : d.queue.elements = j :: rest) : ((d.setElements rest).grant j).1.Sound := by
  have hw : ∀ a, WaitSound (d.setElements rest).queue a d.granter? := fun _ =>
    .of_none (ha.granter?_ne_popping hs) (ha.waiters_eq_nil hs)
  have hl {n : Notice} := hs.log.note (n := n)
  have ht := hs.turn
  rw [hn, hq] at ht
  obtain ⟨since, hj, h⟩ | ⟨hj, h⟩ := grant_cases (d.setElements rest) j
  · rw [h]
    exact .of_submission (c := d) rfl (granter?_of_submission? hj) hs.baton (ht.grant since)
      (hw _) hs.phase (hl (by simp [Notice.isClosing]) (by simp))
  · rw [h]
    have ht' : TurnSound d.awaited d.submission? rest d.drained := hn ▸ ht.skip hj
    exact ⟨hs.baton, ht', hw _, hs.phase, hl (by simp [Notice.isClosing]) (by simp)⟩

theorem Sound.rest (hs : d.Sound) (ha : d.Acts i k)
    (hr : s = .retiring ∧ k = .loop ∨ d.closed = true ∧ ∃ n, s = .draining n) :
    (d.setGranter i k s).Sound := by
  obtain ⟨t, hi, hu, -⟩ := ha.state
  have hs' : s.isUnderWay = true ∧ s ≠ .popping ∧ s ≠ .finished := by
    rcases hr with ⟨rfl, -⟩ | ⟨-, n, rfl⟩ <;> simp [GranterState.isUnderWay]
  have hl : s = .retiring → k = .loop := by
    rintro rfl
    exact (hr.resolve_right (by simp)).2
  have hc : k = .closer → s.isUnderWay = true → d.closed = true := by
    rintro rfl -
    exact hs.phase.closer i t hi hu
  have hd : ∀ n, s = .draining n → d.closed = true := by
    rintro n rfl
    exact (hr.resolve_left (by simp)).1
  exact .of_granter rfl ha.submission?_eq_none (hs.baton.advance ha.holder hs'.1) hs.turn
    (hs.wait.aside (ha.granter?_ne_popping hs i) hs'.2.1)
    (hs.phase.set hl hc hd (fun he => (hs'.2.2 he).elim)) hs.log

theorem elements_look (hq : d.queue.elements = []) (i : ι) : (d.look i).queue.elements = [] := by
  cases hst : d.queue.signal.stored <;>
    simp [look, Queue.popOrRegister, Signal.attend, hst, hq]

theorem Sound.register (hs : d.Sound) (ha : d.Acts i .loop) (hn : d.awaited = none)
    (hq : d.queue.elements = []) : ((d.look i).setGranter i .loop .popping).Sound := by
  have hw := WaitSound.register (ha.granter?_ne_popping hs) hq (ha.waiters_eq_nil hs) i
  have ht : TurnSound d.awaited d.submission? (d.look i).queue.elements d.drained := by
    rw [elements_look hq, ← hq]
    exact hs.turn
  exact .of_granter (c := d) rfl ha.submission?_eq_none (hs.baton.advance ha.holder rfl) ht
    (hn ▸ hw) (hs.phase.set (by simp) (by simp) (by simp) (by simp)) hs.log

theorem Sound.waiters_remove (hs : d.Sound) (hi : d.granter? i = some (k, .popping)) :
    (d.queue.signal.remove i).waiters = [] := by
  obtain ⟨-, -, m, hw, -⟩ := hs.wait.popping i k hi
  simp [Signal.remove, hw]

theorem Sound.waiters_leave (hs : d.Sound) (hi : d.granter? i = some (k, .popping)) :
    (d.queue.signal.leave i).waiters = [] := by
  have hw := hs.waiters_remove hi
  unfold Signal.leave
  split
  · simp [Signal.raise, hw, Signal.markFirst]
  · exact hw

theorem Sound.stepOut (hs : d.Sound) (hi : d.granter? i = some (k, .popping)) :
    (d.stepOut i k).Sound := by
  obtain ⟨hk, -⟩ := hs.wait.popping i k hi
  have hh := hs.baton.holding i k .popping hi rfl (by simp)
  have hc : k = .closer → GranterState.retiring.isUnderWay = true → d.closed = true := by
    rintro rfl -
    exact hs.phase.closer i _ hi rfl
  exact .of_granter (c := d) rfl (submission?_of_granter? hi) (hs.baton.advance hh rfl) hs.turn
    (hs.wait.leave hi (by simp) (hs.waiters_remove hi))
    (hs.phase.set (fun _ => hk) hc (by simp) (by simp)) hs.log

theorem Sound.breakOff (hs : d.Sound) (hi : d.granter? i = some (k, .popping))
    (hc : d.closed = true) : (d.breakOff i k).Sound := by
  have hh := hs.baton.holding i k .popping hi rfl (by simp)
  exact .of_granter (c := d) rfl (submission?_of_granter? hi) (hs.baton.advance hh rfl) hs.turn
    (hs.wait.leave hi (by simp) (hs.waiters_leave hi))
    (hs.phase.set (by simp) (fun _ _ => hc) (fun _ _ => hc) (by simp)) hs.log

omit [DecidableEq ι] in
theorem completeDrain_eq (hq : d.queue.elements = []) (n : Nat) :
    d.completeDrain n = if d.drained then d else { d with drained := true }.note (.closed n) := by
  have hd : ∀ e : Dispatcher ι, e.queue.elements = [] → e.dropLate = e := by
    intro e he
    have hl : e.setElements [] = e := by rw [← he]; rfl
    simp [dropLate, hl, he]
  unfold completeDrain
  split
  · exact hd _ hq
  · exact hd _ hq

theorem Sound.completeDrain (hs : d.Sound) (hn : d.awaited = none) (hq : d.queue.elements = [])
    (hc : d.closed = true) (n : Nat) : (d.completeDrain n).Sound := by
  rw [completeDrain_eq hq]
  split
  · exact hs
  · rename_i hd
    have hl := hs.log
    simp only [hd] at hl
    have ht : TurnSound d.awaited d.submission? d.queue.elements true := by
      have := hs.turn
      rw [hn, hq] at this ⊢
      exact this.drain
    exact ⟨hs.baton, ht, hs.wait, hs.phase.drain hc, hl.drain n⟩

theorem Sound.endGranter (hs : d.Sound) (ha : d.Acts i k) (hd : d.drained = true) :
    (d.endGranter i k).Sound := by
  have hw : WaitSound d.queue d.awaited (Function.update d.granter? i (some (k, .finished))) :=
    hs.wait.aside (ha.granter?_ne_popping hs i) (by simp)
  have hp : PhaseSound d.closed d.stopping d.drained
      (Function.update d.granter? i (some (k, .finished))) :=
    hs.phase.set (by simp) (by simp [GranterState.isUnderWay]) (by simp) (fun _ => hd)
  have hb := hs.baton.release (k := k) (s := .finished) ha.holder rfl
  cases k with
  | loop =>
    exact .of_granter (c := d) rfl ha.submission?_eq_none hb hs.turn hw hp
      (hs.log.note (by simp [Notice.isClosing]) (by simp))
  | closer => exact .of_granter (c := d) rfl ha.submission?_eq_none hb hs.turn hw hp hs.log

theorem Sound.dropGranter (hs : d.Sound) (hi : d.granter? i = some (k, s)) :
    (d.dropGranter i k s).Sound := by
  have hn := submission?_of_granter? hi
  have hp : PhaseSound d.closed d.stopping d.drained
      (Function.update d.granter? i (some (k, .dropped))) :=
    hs.phase.set (by simp) (by simp [GranterState.isUnderWay]) (by simp) (by simp)
  have hw (hne : s ≠ .popping) : WaitSound d.queue d.awaited
      (Function.update d.granter? i (some (k, .dropped))) :=
    hs.wait.aside (by simp [hi, hne]) (by simp)
  have hb := hs.baton.leave (i := i) k
  cases s with
  | created =>
    have hb' := hs.baton.aside (i := i) (k := k) (s := .dropped) (by simp [hi]; rfl) rfl
    exact .of_granter (c := d) rfl hn hb' hs.turn (hw (by simp)) hp hs.log
  | locking | retiring | draining =>
    exact .of_granter (c := d) rfl hn hb hs.turn (hw (by simp)) hp hs.log
  | popping =>
    exact .of_granter (c := d) rfl hn hb hs.turn
      (hs.wait.leave hi (by simp) (hs.waiters_leave hi)) hp hs.log
  | finished | dropped => exact hs

theorem Sound.accept (hs : d.Sound) (hi : d.submission? i = some .created) (hc : d.closed = false) :
    (d.accept i).Sound := by
  have hd := hs.phase.drained_eq_false hc
  have ht := (hs.turn.push hd i).set (i := i) (s := .waiting d.now) (by simp [Submission.hasTurn])
    (by simp) rfl
  exact .of_submission (c := d) rfl (granter?_of_submission? hi) hs.baton ht (hs.wait.push i)
    hs.phase hs.log

theorem startCallback_fst (d : Dispatcher ι) (i : ι) (since : Nat) :
    (d.startCallback i since).1 = d.setSubmission i .running ∨
      ∃ ms, (d.startCallback i since).1 = (d.note (.slowTurn ms)).setSubmission i .running := by
  cases hw : d.isSlow (d.now - since) with
  | false => exact .inl (by simp [startCallback, hw])
  | true => exact .inr ⟨(d.now - since) / 1000000 % UInt64.size, by simp [startCallback, hw]⟩

theorem Sound.startCallback {since : Nat} (hs : d.Sound)
    (hi : d.submission? i = some (.granted since)) : (d.startCallback i since).1.Sound := by
  obtain h | ⟨ms, h⟩ := startCallback_fst d i since
  · rw [h]
    exact hs.setSubmission hi (by simp [Submission.hasTurn]) (by simp) rfl
  · rw [h]
    exact (hs.note (by simp [Notice.isClosing]) (by simp)).setSubmission hi
      (by simp [Submission.hasTurn]) (by simp) rfl

theorem Move.sound (m : Move d d') (hs : d.Sound) : d'.Sound := by
  cases m with
  | shutDoor k => exact hs.shutDoor k
  | requestBaton hi hc => exact hs.requestBaton hi hc
  | start => exact hs.note (by simp [Notice.isClosing]) (by simp)
  | retire h => exact hs.retire h
  | useSignal ha => exact hs.useSignal ha
  | hand ha hn hq => exact hs.hand ha hn hq
  | rest ha hr => exact hs.rest ha hr
  | register ha hn hq => exact hs.register ha hn hq
  | stepOut hi => exact hs.stepOut hi
  | breakOff hi hc => exact hs.breakOff hi hc
  | completeDrain n _ hn hq hc => exact hs.completeDrain hn hq hc n
  | endGranter ha hd => exact hs.endGranter ha hd

theorem Chain.sound (c : Chain d d') (hs : d.Sound) : d'.Sound := by
  induction c with
  | refl => exact hs
  | tail _ m ih => exact m.sound ih

end Turnstile.Dispatcher
