import Turnstile.Proofs.Dispatcher.History
import Turnstile.Proofs.Dispatcher.Moves

namespace Turnstile

namespace Dispatcher

variable {ι : Type} [DecidableEq ι] {d d' : Dispatcher ι} {i j : ι} {k : GranterKind}
  {s : GranterState}

/-- Where a granter that acts comes to rest: it waits for the end of the turn that is out, or in
the queue, or it has come to its end. -/
inductive Outcome (i : ι) (k : GranterKind) : Dispatcher ι × Progress → Prop where
  | blocked {d : Dispatcher ι} {s : GranterState} (hi : d.granter? i = some (k, s))
      (hs : s = .retiring ∨ ∃ n, s = .draining n) (hr : d.retireTurn = none) :
      Outcome i k (d, .pending)
  | waits {d : Dispatcher ι} (hi : d.granter? i = some (k, .popping)) (hc : d.stopping = false)
      (hm : d.queue.signal.isMarked i = false) : Outcome i k (d, .pending)
  | ended {d : Dispatcher ι} (hi : d.granter? i = some (k, .finished)) : Outcome i k (d, .ready)

structure SameGranting (d d' : Dispatcher ι) : Prop where
  granter? : d'.granter? = d.granter?
  baton : d'.baton = d.baton
  closed : d'.closed = d.closed
  stopping : d'.stopping = d.stopping

theorem SameGranting.acts (h : SameGranting d d') (ha : d.Acts i k) : d'.Acts i k where
  holder := by rw [h.baton, ha.holder]
  state := by rw [h.granter?]; exact ha.state

theorem retireTurn_same (h : d.retireTurn = some d') :
    SameGranting d d' ∧ d'.awaited = none ∧ d'.queue = d.queue := by
  obtain ⟨hn, rfl⟩ | ⟨j, -, -, rfl⟩ := retireTurn_eq_some h
  · exact ⟨⟨rfl, rfl, rfl, rfl⟩, hn, rfl⟩
  · exact ⟨⟨rfl, rfl, rfl, rfl⟩, rfl, rfl⟩

theorem grant_same (d : Dispatcher ι) (j : ι) :
    SameGranting d (d.grant j).1 ∧ (d.grant j).1.queue = d.queue := by
  obtain ⟨since, hj, h⟩ | ⟨-, h⟩ := grant_cases d j
  · rw [h]
    exact ⟨⟨granter?_setSubmission (granter?_of_submission? hj) _, rfl, rfl, rfl⟩, rfl⟩
  · rw [h]
    exact ⟨⟨rfl, rfl, rfl, rfl⟩, rfl⟩

theorem Acts.pass (ha : d.Acts i k) (j : ι) (rest : List ι) :
    ((d.setElements rest).grant j).1.Acts i k ∧
      ((d.setElements rest).grant j).1.closed = d.closed ∧
        ((d.setElements rest).grant j).1.queue.elements = rest := by
  obtain ⟨hsg, hqg⟩ := grant_same (d.setElements rest) j
  exact ⟨hsg.acts (d := d.setElements rest) ⟨ha.holder, ha.state⟩, hsg.closed, by rw [hqg]; rfl⟩

theorem acts_breakOff (hh : d.baton.holder = some i) (k : GranterKind) :
    (d.breakOff i k).Acts i k :=
  ⟨hh, .draining 0, by simp [breakOff, granter?_setGranter], rfl, by simp⟩

theorem acts_stepOut (hh : d.baton.holder = some i) (k : GranterKind) : (d.stepOut i k).Acts i k :=
  ⟨hh, .retiring, by simp [stepOut, granter?_setGranter], rfl, by simp⟩

theorem retireTurn_setGranter (hi : d.submission? i = none) :
    (d.setGranter i k s).retireTurn = none ↔ d.retireTurn = none := by
  have ht : (d.setGranter i k s).hasTurn = d.hasTurn := by
    funext j
    simp only [hasTurn, submission?_setGranter hi]
  rw [retireTurn_eq_none, retireTurn_eq_none, ht]
  rfl

theorem rest_spec (ha : d.Acts i k) (hr : d.retireTurn = none)
    (hs : s = .retiring ∧ k = .loop ∨ d.closed = true ∧ ∃ n, s = .draining n) :
    Chain d (d.setGranter i k s) ∧ Outcome i k (d.setGranter i k s, .pending) := by
  refine ⟨.single (.rest ha hs), .blocked (s := s) ?_ (hs.imp And.left And.right) ?_⟩
  · simp [granter?_setGranter]
  · rwa [retireTurn_setGranter ha.submission?_eq_none]

theorem endGranter_spec (ha : d.Acts i k) (hd : d.drained = true) :
    Chain d (d.endGranter i k) ∧ Outcome i k (d.endGranter i k, .ready) := by
  refine ⟨.single (.endGranter ha hd), .ended ?_⟩
  have hg : (d.endGranter i k).granter? = (d.setGranter i k .finished).granter? := by
    cases k <;> rfl
  rw [hg, granter?_setGranter, Function.update_self]

theorem completeDrain_same (hq : d.queue.elements = []) (n : Nat) :
    SameGranting d (d.completeDrain n) ∧ (d.completeDrain n).drained = true := by
  rw [completeDrain_eq hq]
  split
  · rename_i hd
    exact ⟨⟨rfl, rfl, rfl, rfl⟩, hd⟩
  · exact ⟨⟨rfl, rfl, rfl, rfl⟩, rfl⟩

theorem drainFrom_spec {queued : List ι} (ha : d.Acts i k) (hc : d.closed = true)
    (hq : d.queue.elements = queued) (n : Nat) :
    Chain d (drainFrom grant i k n d queued).1 ∧
      Outcome i k (drainFrom grant i k n d queued) := by
  induction queued generalizing d n with
  | nil =>
    unfold drainFrom
    cases hr : d.retireTurn with
    | none => exact rest_spec ha hr (.inr ⟨hc, n, rfl⟩)
    | some e =>
      obtain ⟨hse, hn, hqe⟩ := retireTurn_same hr
      have hq' : e.queue.elements = [] := by rw [hqe, hq]
      obtain ⟨hsc, hd⟩ := completeDrain_same hq' n
      obtain ⟨hch, ho⟩ := endGranter_spec (hsc.acts (hse.acts ha)) hd
      have hm : Move e (e.completeDrain n) :=
        .completeDrain n (hse.acts ha) hn hq' (by rw [hse.closed, hc])
      exact ⟨.head (.retire hr) (.head hm hch), ho⟩
  | cons j rest ih =>
    unfold drainFrom
    cases hr : d.retireTurn with
    | none => exact rest_spec ha hr (.inr ⟨hc, n, rfl⟩)
    | some e =>
      obtain ⟨hse, hn, hqe⟩ := retireTurn_same hr
      have hm : Move e ((e.setElements rest).grant j).1 :=
        .hand (hse.acts ha) hn (by rw [hqe, hq])
      obtain ⟨ha', hcl, hq'⟩ := (hse.acts ha).pass j rest
      have hgo (m : Nat) := ih ha' (hcl.trans (hse.closed.trans hc)) hq' m
      simp only
      generalize (e.setElements rest).grant j = r at hm hgo
      obtain ⟨f, b⟩ := r
      cases b with
      | true => exact ⟨.head (.retire hr) (.head hm (hgo (n + 1)).1), (hgo (n + 1)).2⟩
      | false => exact ⟨.head (.retire hr) (.head hm (hgo n).1), (hgo n).2⟩

theorem drain_spec (ha : d.Acts i k) (hc : d.closed = true) (n : Nat) :
    Chain d (drain grant i k n d).1 ∧ Outcome i k (drain grant i k n d) :=
  drainFrom_spec ha hc rfl n

theorem serveThen_spec (next : Dispatcher ι → Dispatcher ι × Progress) (hs : d.Sound)
    (ha : d.Acts i .loop)
    (hnext : ∀ e, e.Sound → e.Acts i .loop → e.awaited = none → e.stopping = false →
      e.queue = d.queue → Chain e (next e).1 ∧ Outcome i .loop (next e)) :
    Chain d (serveThen grant i next d).1 ∧ Outcome i .loop (serveThen grant i next d) := by
  unfold serveThen
  cases hr : d.retireTurn with
  | none => exact rest_spec ha hr (.inl ⟨rfl, rfl⟩)
  | some e =>
    obtain ⟨hse, hn, hqe⟩ := retireTurn_same hr
    have hes := hs.retire hr
    have hae := hse.acts ha
    cases hst : e.stopping with
    | true =>
      obtain ⟨hch, ho⟩ := drain_spec hae (hes.phase.stopping ▸ hst) 0
      simp only [↓reduceIte, hst]
      exact ⟨.head (.retire hr) hch, ho⟩
    | false =>
      obtain ⟨hch, ho⟩ := hnext e hes hae hn hst hqe
      simp only [hst, Bool.false_eq_true, ↓reduceIte]
      exact ⟨.head (.retire hr) hch, ho⟩

theorem look_eq {rest : List ι} (hw : d.queue.signal.waiters = [])
    (hq : d.queue.elements = j :: rest) (i : ι) : d.look i = d.useSignal.setElements rest := by
  cases hst : d.queue.signal.stored <;>
    simp [look, useSignal, setElements, Queue.popOrRegister, Signal.attend, Signal.remove, hst, hq,
      hw]

theorem isMarked_look (hw : d.queue.signal.waiters = []) (hq : d.queue.elements = []) (i : ι) :
    (d.look i).queue.signal.isMarked i = false := by
  cases hst : d.queue.signal.stored <;>
    simp [look, Queue.popOrRegister, Signal.attend, Signal.isMarked, hst, hq, hw]

theorem takeFrom_spec {queued : List ι} (hs : d.Sound) (ha : d.Acts i .loop)
    (hn : d.awaited = none) (hst : d.stopping = false) (hq : d.queue.elements = queued) :
    Chain d (takeFrom grant i d queued).1 ∧ Outcome i .loop (takeFrom grant i d queued) := by
  have hw := ha.waiters_eq_nil hs
  induction queued generalizing d with
  | nil =>
    refine ⟨.single (.register ha hn hq), .waits ?_ hst (isMarked_look hw hq i)⟩
    simp [granter?_setGranter]
  | cons j rest ih =>
    unfold takeFrom
    rw [look_eq hw hq]
    have hs₁ := hs.useSignal ha
    have ha₁ : d.useSignal.Acts i .loop := ⟨ha.holder, ha.state⟩
    have hm₁ : Move d d.useSignal := .useSignal ha
    have hm₂ : Move d.useSignal ((d.useSignal.setElements rest).grant j).1 := .hand ha₁ hn hq
    have hs₂ := hm₂.sound hs₁
    obtain ⟨ha₂, -, hq₂⟩ := ha₁.pass j rest
    have hnext := serveThen_spec (fun e => takeFrom grant i e rest) hs₂ ha₂
    obtain ⟨hch, ho⟩ := hnext fun e hes hae hen hest hqe =>
      ih hes hae hen hest (by rw [hqe, hq₂]) (hae.waiters_eq_nil hes)
    exact ⟨.head hm₁ (.head hm₂ hch), ho⟩

theorem serve_spec (hs : d.Sound) (ha : d.Acts i .loop) :
    Chain d (serve grant i d).1 ∧ Outcome i .loop (serve grant i d) :=
  serveThen_spec (take grant i) hs ha fun _ hes hae hen hest _ => takeFrom_spec hes hae hen hest rfl

theorem startGranting_spec (hs : d.Sound) (ha : d.Acts i k) (hc : k = .closer → d.closed = true) :
    Chain d (startGranting grant i d k).1 ∧ Outcome i k (startGranting grant i d k) := by
  cases k with
  | loop =>
    have hm : Move d (d.note .loopStarted) := .start
    obtain ⟨hch, ho⟩ := serve_spec (hm.sound hs) ⟨ha.holder, ha.state⟩
    exact ⟨.head hm hch, ho⟩
  | closer => exact drain_spec ha (hc rfl) 0

theorem awaitBaton_spec (hs : d.Sound) (hi : d.granter? i = some (k, .locking)) :
    Chain d (awaitBaton grant i k d).1 ∧
      (Outcome i k (awaitBaton grant i k d) ∨
        awaitBaton grant i k d = (d, .pending) ∧ d.baton.holder ≠ some i) := by
  unfold awaitBaton
  split
  · rename_i hh
    have hc : k = .closer → d.closed = true := by
      rintro rfl
      exact hs.phase.closer i _ hi rfl
    obtain ⟨hch, ho⟩ := startGranting_spec hs ⟨hh, .locking, hi, rfl, by simp⟩ hc
    exact ⟨hch, .inl ho⟩
  · rename_i hh
    exact ⟨.refl, .inr ⟨rfl, hh⟩⟩

theorem requestBaton_spec (hi : d.granter? i = some (k, .created)) :
    Chain d ((d.shutDoor k).requestBaton i k) ∧
      ((d.shutDoor k).requestBaton i k).granter? i = some (k, .locking) := by
  obtain ⟨hi₁, hc₁⟩ : (d.shutDoor k).granter? i = some (k, .created) ∧
      (k = .closer → (d.shutDoor k).closed = true) := by
    obtain ⟨h, hc⟩ | h := d.shutDoor_cases k
    · rw [h]
      exact ⟨hi, hc⟩
    · rw [h]
      exact ⟨hi, fun _ => rfl⟩
  exact ⟨.head (.shutDoor k) (.single (.requestBaton hi₁ hc₁)),
    by simp [requestBaton, granter?_setGranter]⟩

/-- A poll of a granter is a chain of moves, and it is over when the granter has come to rest with
the baton, when it has found that its wait is not over yet, or when it is no longer under way. -/
theorem pollGranter_spec (hs : d.Sound) (hi : d.granter? i = some (k, s)) :
    Chain d (pollGranterBy grant i k d s).1 ∧
      (Outcome i k (pollGranterBy grant i k d s) ∨
        (pollGranterBy grant i k d s).2 = .pending ∧
          (s.isUnderWay = true → d.baton.holder ≠ some i)) := by
  cases s with
  | created =>
    obtain ⟨hm, hi₁⟩ := requestBaton_spec hi
    obtain ⟨hch, ho⟩ := awaitBaton_spec (hm.sound hs) hi₁
    refine ⟨hm.trans hch, ho.imp_right fun h => ⟨congrArg Prod.snd h.1, ?_⟩⟩
    simp [GranterState.isUnderWay]
  | locking =>
    obtain ⟨hch, ho⟩ := awaitBaton_spec hs hi
    exact ⟨hch, ho.imp_right fun h => ⟨congrArg Prod.snd h.1, fun _ => h.2⟩⟩
  | retiring =>
    have hh := hs.baton.holding i k _ hi rfl (by simp)
    obtain rfl := hs.phase.serving i k hi
    obtain ⟨hch, ho⟩ := serve_spec hs ⟨hh, _, hi, rfl, by simp⟩
    exact ⟨hch, .inl ho⟩
  | popping =>
    have hh := hs.baton.holding i k _ hi rfl (by simp)
    obtain ⟨rfl, hn, -⟩ := hs.wait.popping i k hi
    simp only [pollGranterBy]
    split
    · rename_i hst
      have hc : d.closed = true := hs.phase.stopping ▸ hst
      obtain ⟨hch, ho⟩ := drain_spec (acts_breakOff hh .loop) hc 0
      exact ⟨.head (.breakOff hi hc) hch, .inl ho⟩
    · rename_i hst
      split
      · have hst₁ : (d.stepOut i .loop).stopping = false := Bool.eq_false_iff.mpr hst
        obtain ⟨hch, ho⟩ := takeFrom_spec (hs.stepOut hi) (acts_stepOut hh .loop) hn hst₁ rfl
        exact ⟨.head (.stepOut hi) hch, .inl ho⟩
      · rename_i hm
        exact ⟨.refl, .inl (.waits hi (by simpa using hst) (by simpa using hm))⟩
  | draining n =>
    have hh := hs.baton.holding i k _ hi rfl (by simp)
    obtain ⟨hch, ho⟩ := drain_spec ⟨hh, _, hi, rfl, by simp⟩ (hs.phase.draining i k n hi) n
    exact ⟨hch, .inl ho⟩
  | finished | dropped => exact ⟨.refl, .inr ⟨rfl, by simp [GranterState.isUnderWay]⟩⟩

theorem poll_of_created_closed (hi : d.submission? i = some .created) (hc : d.closed = true) :
    d.poll i = ((d.note .rejected).setSubmission i (.ended .rejected), .ready) := by
  have hr : ((d.note .rejected).setSubmission i (.ended .rejected)).submission? i =
      some (.ended .rejected) := by
    simp [submission?_setSubmission]
  simp [poll, pollBy, submission?_eq_some.mp hi, pollSubmission, enter, hc, enqueue, hr, awaitTurn]

theorem poll_of_created_open (hs : d.Sound) (hi : d.submission? i = some .created)
    (hc : d.closed = false) : d.poll i = (d.accept i, .pending) := by
  have hd := hs.phase.drained_eq_false hc
  have he : (d.setSubmission i (.entering d.now)).submission? i = some (.entering d.now) := by
    simp [submission?_setSubmission]
  have ha : { (d.setSubmission i (.entering d.now)).setSubmission i (.waiting d.now) with
      queue := d.queue.push i } = d.accept i := by
    simp [accept, setSubmission, Table.put_put]
  have hm : i ∈ (d.accept i).queue.elements := by simp [accept, Queue.push]
  have hd' : (d.accept i).drained = false := hd
  simp only [poll, pollBy, submission?_eq_some.mp hi, pollSubmission, enter, hc, Bool.false_eq_true,
    ↓reduceIte, enqueue, he]
  change awaitTurn { (d.setSubmission i (.entering d.now)).setSubmission i (.waiting d.now) with
      queue := d.queue.push i } i _ = _
  rw [ha]
  simp [awaitTurn, hm, hd']

theorem poll_of_waiting {since : Nat} (hs : d.Sound)
    (hi : d.submission? i = some (.waiting since)) : d.poll i = (d, .pending) := by
  have hm := hs.turn.queued i since hi
  have hd := hs.turn.drained_eq_false hm
  simp [poll, pollBy, submission?_eq_some.mp hi, pollSubmission, awaitTurn, hm, hd]

theorem poll_of_granted {since : Nat} (hi : d.submission? i = some (.granted since)) :
    d.poll i = d.startCallback i since := by
  simp [poll, pollBy, submission?_eq_some.mp hi, pollSubmission, awaitTurn]

theorem poll_of_granter (hi : d.granter? i = some (k, s)) :
    d.poll i = pollGranterBy grant i k d s := by
  simp [poll, pollBy, granter?_eq_some.mp hi]

theorem poll_of_get?_eq_none (hi : d.futures.get? i = none) : d.poll i = (d, .pending) := by
  simp [poll, pollBy, hi]

theorem poll_of_running (hi : d.submission? i = some .running) : d.poll i = (d, .pending) := by
  simp [poll, pollBy, submission?_eq_some.mp hi, pollSubmission]

theorem poll_of_ended {how : Ending} (hi : d.submission? i = some (.ended how)) :
    d.poll i = (d, .pending) := by
  simp [poll, pollBy, submission?_eq_some.mp hi, pollSubmission]

theorem Outcome.ne_called {r : Dispatcher ι × Progress} (ho : Outcome i k r) (w : Nat) :
    r.2 ≠ .called w := by
  cases ho <;> simp

theorem starts_eq_nil (hn : ∀ w, (d.poll i).2 ≠ .called w) : d.starts (.poll i) = [] := by
  unfold starts
  cases hp : (d.poll i).2 with
  | called w => exact (hn w hp).elim
  | pending | ready => simp [hp]

inductive Effect (d : Dispatcher ι) : Action ι → Prop where
  | still {a : Action ι} (h : d.act a = d) (ha : d.admits a = []) (hs : d.starts a = []) :
      Effect d a
  | advances (ns : Nat) : Effect d (.advance ns)
  | creates {a : Action ι} {i : ι} {f : Future} (hi : d.futures.get? i = none)
      (hf : f = .submission .created ∨ ∃ k, f = .granter k .created) (h : d.act a = d.create i f)
      (ha : d.admits a = []) (hs : d.starts a = []) : Effect d a
  | rejects {i : ι} (hi : d.submission? i = some .created) (hc : d.closed = true)
      (hp : d.poll i = ((d.note .rejected).setSubmission i (.ended .rejected), .ready)) :
      Effect d (.poll i)
  | admits {i : ι} (hi : d.submission? i = some .created) (hc : d.closed = false)
      (hp : d.poll i = (d.accept i, .pending)) : Effect d (.poll i)
  | starts {i : ι} {since : Nat} (hi : d.submission? i = some (.granted since))
      (hp : d.poll i = d.startCallback i since) : Effect d (.poll i)
  | finishes {i : ι} {panics : Bool} (hi : d.submission? i = some .running)
      (h : d.act (.finish i panics) =
        d.setSubmission i (.ended (if panics then .panicked else .returned))) :
      Effect d (.finish i panics)
  | withdraws {i : ι} {s : Submission} (hi : d.submission? i = some s)
      (hs : s = .created ∨ ∃ t, s = .waiting t ∨ s = .granted t)
      (h : d.act (.drop i) = d.setSubmission i (.ended .dropped)) : Effect d (.drop i)
  | polls {i : ι} {k : GranterKind} {s : GranterState} (hi : d.granter? i = some (k, s))
      (hc : Chain d (d.poll i).1)
      (ho : Outcome i k (d.poll i) ∨
        (d.poll i).2 = .pending ∧ (s.isUnderWay = true → d.baton.holder ≠ some i)) :
      Effect d (.poll i)
  | drops {i : ι} {k : GranterKind} {s : GranterState} (hi : d.granter? i = some (k, s))
      (h : d.act (.drop i) = d.dropGranter i k s) : Effect d (.drop i)

theorem effect_poll (hs : d.Sound) (i : ι) : Effect d (.poll i) := by
  have still (hi : d.submission? i ≠ some .created) (hp : d.poll i = (d, .pending)) :
      Effect d (.poll i) :=
    .still (congrArg Prod.fst hp) (by simp [admits, hi]) (by simp [starts, hp])
  cases hf : d.futures.get? i with
  | none => exact still (by simp [submission?_of_get? hf]) (poll_of_get?_eq_none hf)
  | some f =>
    cases f with
    | submission s =>
      have hi := submission?_eq_some.mpr hf
      cases s with
      | created =>
        cases hc : d.closed with
        | true => exact .rejects hi hc (poll_of_created_closed hi hc)
        | false => exact .admits hi hc (poll_of_created_open hs hi hc)
      | entering since =>
        have := hs.turn.regular i _ hi
        simp [Submission.isRegular] at this
      | waiting since => exact still (by simp [hi]) (poll_of_waiting hs hi)
      | granted since => exact .starts hi (poll_of_granted hi)
      | running => exact still (by simp [hi]) (poll_of_running hi)
      | ended how => exact still (by simp [hi]) (poll_of_ended hi)
    | granter k s =>
      have hi := granter?_eq_some.mpr hf
      obtain ⟨hch, ho⟩ := pollGranter_spec hs hi
      rw [← poll_of_granter hi] at hch ho
      exact .polls hi hch ho

theorem unlessTaken_eq (d : Dispatcher ι) (i : ι) (f : Future) :
    d.unlessTaken i (d.create i f) = d ∨
      d.futures.get? i = none ∧ d.unlessTaken i (d.create i f) = d.create i f := by
  unfold unlessTaken Table.contains
  cases hi : d.futures.get? i with
  | none => exact .inr ⟨rfl, by simp⟩
  | some g => exact .inl (by simp)

theorem effect_drop (d : Dispatcher ι) (i : ι) : Effect d (.drop i) := by
  cases hf : d.futures.get? i with
  | none => exact .still (by simp [act, drop, hf]) rfl rfl
  | some f =>
    cases f with
    | submission s =>
      have hi := submission?_eq_some.mpr hf
      have hd : d.act (.drop i) = d.dropSubmission i s := by simp [act, drop, hf]
      cases s with
      | created => exact .withdraws hi (.inl rfl) hd
      | waiting t => exact .withdraws hi (.inr ⟨t, .inl rfl⟩) hd
      | granted t => exact .withdraws hi (.inr ⟨t, .inr rfl⟩) hd
      | entering | running | ended => exact .still hd rfl rfl
    | granter k s => exact .drops (granter?_eq_some.mpr hf) (by simp [act, drop, hf])

theorem effect (hs : d.Sound) (a : Action ι) : Effect d a := by
  cases a with
  | submit i =>
    obtain h | ⟨hi, h⟩ := unlessTaken_eq d i (.submission .created)
    · exact .still h rfl rfl
    · exact .creates hi (.inl rfl) h rfl rfl
  | run i =>
    obtain h | ⟨hi, h⟩ := unlessTaken_eq d i (.granter .loop .created)
    · exact .still h rfl rfl
    · exact .creates hi (.inr ⟨.loop, rfl⟩) h rfl rfl
  | close i =>
    obtain h | ⟨hi, h⟩ := unlessTaken_eq d i (.granter .closer .created)
    · exact .still h rfl rfl
    · exact .creates hi (.inr ⟨.closer, rfl⟩) h rfl rfl
  | poll i => exact effect_poll hs i
  | drop i => exact effect_drop d i
  | finish i panics =>
    by_cases hi : d.submission? i = some .running
    · exact .finishes hi (by simp [act, endCallback, hi])
    · exact .still (by simp only [act, endCallback]) rfl rfl
  | advance ns => exact .advances ns

theorem Sound.act (hs : d.Sound) (a : Action ι) : (d.act a).Sound := by
  cases effect hs a with
  | still h => rwa [h]
  | advances ns => exact ⟨hs.baton, hs.turn, hs.wait, hs.phase, hs.log⟩
  | creates hi hf h =>
    rw [h]
    exact hs.create hi hf
  | rejects hi hc hp =>
    simp only [Dispatcher.act, hp]
    exact (hs.note (by simp [Notice.isClosing]) (by simp)).setSubmission hi
      (by simp [Submission.hasTurn]) (by simp) rfl
  | admits hi hc hp =>
    simp only [Dispatcher.act, hp]
    exact hs.accept hi hc
  | starts hi hp =>
    simp only [Dispatcher.act, hp]
    exact hs.startCallback hi
  | @finishes i panics hi h =>
    rw [h]
    cases panics <;> exact hs.setSubmission hi (by simp [Submission.hasTurn]) (by simp) rfl
  | withdraws hi _ h =>
    rw [h]
    exact hs.setSubmission hi (by simp [Submission.hasTurn]) (by simp) rfl
  | polls _ hc _ => exact hc.sound hs
  | drops hi h =>
    rw [h]
    exact hs.dropGranter hi

theorem called_eq_granted (hs : d.Sound) {w : Nat} (hw : (d.poll i).2 = .called w) :
    ∃ since, d.submission? i = some (.granted since) ∧ d.poll i = d.startCallback i since := by
  have hst : d.starts (.poll i) = [i] := by simp [starts, hw]
  cases effect hs (.poll i) with
  | still _ _ hn => simp [hn] at hst
  | creates _ _ _ _ hn => simp [hn] at hst
  | rejects _ _ hp => simp [hp] at hw
  | admits _ _ hp => simp [hp] at hw
  | starts hi hp => exact ⟨_, hi, hp⟩
  | polls _ _ ho =>
    rcases ho with ho | ⟨hp, -⟩
    · exact (ho.ne_called w hw).elim
    · simp [hp] at hw

theorem sound_fresh (settings : DispatcherSettings) :
    Sound { settings := settings : Dispatcher ι } where
  baton := ⟨by simp, by simp [granter?, Table.get?], by
    simp [granter?, Table.get?], by simp, by simp⟩
  turn := ⟨by simp [submission?, Table.get?],
    by simp [submission?, Table.get?],
    by simp [submission?, Table.get?], by simp⟩
  wait := .of_none (by simp [granter?, Table.get?]) rfl
  phase := ⟨rfl, by simp [granter?, Table.get?],
    by simp [granter?, Table.get?], by simp [granter?, Table.get?],
    by simp, by simp [granter?, Table.get?]⟩
  log := ⟨rfl, by simp⟩

end Dispatcher

theorem History.Reachable.sound {ι : Type} [DecidableEq ι] {h : History ι} (hr : Reachable h) :
    h.dispatcher.Sound := by
  induction hr with
  | fresh settings => exact Dispatcher.sound_fresh settings
  | step a _ ih => exact ih.act a

end Turnstile
