import Turnstile.Proofs.Dispatcher.SameBut

namespace Turnstile.Dispatcher

variable {ι : Type} [DecidableEq ι] {w : ι} {p p' : List Notice} {n : Nat} {d d' e : Dispatcher ι}
  {i j : ι} {k : GranterKind} {s : GranterState}

theorem retireTurn_of_awaited (hn : d.awaited = none) : d.retireTurn = some d := by
  simp [retireTurn, hn]

theorem retireTurn_of_hasTurn (ha : d.awaited = some j) (hj : d.hasTurn j = true) :
    d.retireTurn = none := retireTurn_eq_none.mpr ⟨j, ha, hj⟩

theorem drainFrom_of_none (hr : d.retireTurn = none) (m : Nat) (queued : List ι) :
    drainFrom grant i k m d queued = (d.setGranter i k (.draining m), .pending) := by
  cases queued <;> simp [drainFrom, hr]

theorem drainFrom_nil (hr : d.retireTurn = some e) (m : Nat) :
    drainFrom grant i k m d [] = ((e.completeDrain m).endGranter i k, .ready) := by
  simp [drainFrom, hr]

theorem drainFrom_cons (hr : d.retireTurn = some e) (m : Nat) (j : ι) (rest : List ι) :
    drainFrom grant i k m d (j :: rest) =
      drainFrom grant i k (if ((e.setElements rest).grant j).2 then m + 1 else m)
        ((e.setElements rest).grant j).1 rest := by
  conv => lhs; unfold drainFrom
  simp only [hr]
  split <;> simp [*]

/-- That the turn has ended need not be noticed twice. -/
theorem drainFrom_of_some (hr : d.retireTurn = some e) (m : Nat) (queued : List ι) :
    drainFrom grant i k m d queued = drainFrom grant i k m e queued := by
  have he : e.retireTurn = some e := retireTurn_of_awaited (retireTurn_same hr).2.1
  cases queued with
  | nil => rw [drainFrom_nil hr, drainFrom_nil he]
  | cons j rest => rw [drainFrom_cons hr, drainFrom_cons he]

theorem serveThen_of_none (hr : d.retireTurn = none)
    (next : Dispatcher ι → Dispatcher ι × Progress) :
    serveThen grant i next d = (d.setGranter i .loop .retiring, .pending) := by
  simp [serveThen, hr]

theorem serveThen_of_some (hr : d.retireTurn = some e)
    (next : Dispatcher ι → Dispatcher ι × Progress) :
    serveThen grant i next d = if e.stopping then drain grant i .loop 0 e else next e := by
  simp [serveThen, hr]

theorem serveThen_of_idle (hn : d.awaited = none) (hst : d.stopping = false)
    (next : Dispatcher ι → Dispatcher ι × Progress) : serveThen grant i next d = next d := by
  simp [serveThen, retireTurn_of_awaited hn, hst]

theorem look_of_nil (hq : d.queue.elements = []) (i : ι) :
    d.look i = { d with queue := { d.queue with signal := (d.look i).queue.signal } } := by
  cases hst : d.queue.signal.stored <;>
    simp [look, Queue.popOrRegister, Signal.attend, hst, hq]

theorem hasTurn_setGranter (hi : i ≠ w) (k : GranterKind) (s : GranterState) :
    (d.setGranter i k s).hasTurn w = d.hasTurn w :=
  hasTurn_congr (Table.get?_put_of_ne _ hi _)

theorem grant_hasTurn {since : Nat} (hj : d.submission? j = some (.waiting since)) :
    (d.grant j).1.awaited = some j ∧ (d.grant j).1.hasTurn j = true := by
  have hg : d.grant j =
      ({ d.setSubmission j (.granted since) with awaited := some j }.note .turnGranted, true) := by
    simp [grant, hj]
  have hs : (d.setSubmission j (.granted since)).submission? j = some (.granted since) := by
    simp [submission?_setSubmission]
  rw [hg]
  exact ⟨rfl, hasTurn_iff.mpr ⟨_, hs, rfl⟩⟩

namespace SameBut

theorem setGranter (h : SameBut w p p' n d d') (hi : i ≠ w) (k : GranterKind) (s : GranterState) :
    SameBut w p p' n (d.setGranter i k s) (d'.setGranter i k s) := h.put hi _

theorem setSignal (h : SameBut w p p' n d d') (x x' : Signal ι) :
    SameBut w p p' n { d with queue := { d.queue with signal := x } }
      { d' with queue := { d'.queue with signal := x' } } :=
  h.congr x x' (fun _ => rfl) (fun _ => rfl)

theorem completeDrain (h : SameBut w p p' n d d') (hq : d.queue.elements = []) (m : Nat) :
    SameBut w p p' n (d.completeDrain m) (d'.completeDrain m) := by
  have hq' : d'.queue.elements = [] := by simp [h.elements, hq]
  have hd : d'.drained = d.drained := h.view Dispatcher.drained fun _ _ _ => rfl
  rw [completeDrain_eq hq, completeDrain_eq hq', hd]
  split
  · exact h
  · exact (h.map (fun e => { e with drained := true }) fun _ _ _ => rfl).note (.closed m)

theorem endGranter (h : SameBut w p p' n d d') (hi : i ≠ w) (k : GranterKind) :
    SameBut w p p' n (d.endGranter i k) (d'.endGranter i k) := by
  have release {e e' : Dispatcher ι} (he : SameBut w p p' n e e') :
      SameBut w p p' n { e.setGranter i k .finished with baton := e.baton.release }
        { e'.setGranter i k .finished with baton := e'.baton.release } :=
    (he.setGranter hi k .finished).map (fun e => { e with baton := e.baton.release })
      fun _ _ _ => rfl
  cases k with
  | loop => exact release (h.note .loopStopped)
  | closer => exact release h

/-- The two drains keep step: where the first comes to a place of `w` it finds `w` withdrawn, or it
hands over the turn to `w` and has to wait for it. -/
theorem drains {queued : List ι} (h : SameBut w p p' n d d') (hi : i ≠ w)
    (hq : d.queue.elements = queued) (m : Nat)
    (hw : (drainFrom grant i k m d queued).1.hasTurn w = false) :
    SameResult w p p' n (drainFrom grant i k m d queued)
      (drainFrom grant i k m d' (queued.filter (· ≠ w))) := by
  induction queued generalizing d d' m with
  | nil =>
    obtain ⟨hr, hr'⟩ | ⟨e, e', hr, hr', he⟩ := h.retire
    · rw [drainFrom_of_none hr, drainFrom_of_none hr']
      exact ⟨h.setGranter hi _ _, rfl⟩
    · have hqe : e.queue.elements = [] := by rw [(retireTurn_same hr).2.2, hq]
      rw [List.filter_nil, drainFrom_nil hr, drainFrom_nil hr']
      exact ⟨(he.completeDrain hqe m).endGranter hi k, rfl⟩
  | cons j rest ih =>
    obtain ⟨hr, hr'⟩ | ⟨e, e', hr, hr', he⟩ := h.retire
    · rw [drainFrom_of_none hr, drainFrom_of_none hr']
      exact ⟨h.setGranter hi _ _, rfl⟩
    · have hqe : e.queue.elements = j :: rest := by rw [(retireTurn_same hr).2.2, hq]
      have hqg : ((e.setElements rest).grant j).1.queue.elements = rest := by
        rw [(grant_same (e.setElements rest) j).2]
        rfl
      rw [drainFrom_cons hr] at hw ⊢
      by_cases hj : j = w
      · subst j
        rw [List.filter_cons_of_neg (by simp), drainFrom_of_some hr']
        obtain ⟨since, hs, -⟩ | ⟨-, hg⟩ := grant_cases (e.setElements rest) w
        · -- `w` would keep its turn to the end of the drain
          obtain ⟨ha, ht⟩ := grant_hasTurn hs
          rw [drainFrom_of_none (retireTurn_of_hasTurn ha ht), hasTurn_setGranter hi, ht] at hw
          cases hw
        · rw [hg] at hw hqg ⊢
          exact ih (he.skip hqe) hqg m hw
      · obtain ⟨hg, hb⟩ := (he.pop hqe hj).grants hj
        rw [List.filter_cons_of_pos (by simpa using hj), drainFrom_cons hr', hb]
        exact ih hg hqg _ hw

theorem drain_same (h : SameBut w p p' n d d') (hi : i ≠ w) (m : Nat)
    (hw : (drain grant i k m d).1.hasTurn w = false) :
    SameResult w p p' n (drain grant i k m d) (drain grant i k m d') := by
  have hd := h.drains hi rfl m hw
  rwa [← h.elements] at hd

theorem serves {next next' : Dispatcher ι → Dispatcher ι × Progress} (h : SameBut w p p' n d d')
    (hi : i ≠ w)
    (hnext : ∀ e e', SameBut w p p' n e e' → e.awaited = none → e.stopping = false →
      e.queue = d.queue → e'.queue = d'.queue → (next e).1.hasTurn w = false →
      SameResult w p p' n (next e) (next' e'))
    (hw : (serveThen grant i next d).1.hasTurn w = false) :
    SameResult w p p' n (serveThen grant i next d) (serveThen grant i next' d') := by
  obtain ⟨hr, hr'⟩ | ⟨e, e', hr, hr', he⟩ := h.retire
  · rw [serveThen_of_none hr, serveThen_of_none hr']
    exact ⟨h.setGranter hi _ _, rfl⟩
  · obtain ⟨-, hn, hq⟩ := retireTurn_same hr
    obtain ⟨-, -, hq'⟩ := retireTurn_same hr'
    rw [serveThen_of_some hr] at hw ⊢
    rw [serveThen_of_some hr', he.stopping]
    cases hst : e.stopping with
    | true =>
      rw [hst] at hw
      exact he.drain_same hi 0 hw
    | false =>
      rw [hst] at hw
      exact hnext e e' he hn hst hq hq' hw

theorem takes {queued : List ι} (h : SameBut w p p' n d d') (hi : i ≠ w)
    (hwt : d.queue.signal.waiters = []) (hwt' : d'.queue.signal.waiters = [])
    (hn : d.awaited = none) (hst : d.stopping = false) (hq : d.queue.elements = queued)
    (hw : (takeFrom grant i d queued).1.hasTurn w = false) :
    SameResult w p p' n (takeFrom grant i d queued)
      (takeFrom grant i d' (queued.filter (· ≠ w))) := by
  induction queued generalizing d d' with
  | nil =>
    have hq' : d'.queue.elements = [] := by simp [h.elements, hq]
    rw [List.filter_nil, takeFrom, takeFrom, look_of_nil hq, look_of_nil hq']
    exact ⟨(h.setSignal _ _).setGranter hi .loop .popping, rfl⟩
  | cons j rest ih =>
    have hqg := (grant_same (d.useSignal.setElements rest) j).2
    rw [takeFrom, look_eq hwt hq] at hw ⊢
    by_cases hj : j = w
    · subst j
      rw [List.filter_cons_of_neg (by simp)]
      have hu : SameBut w p p' n d.useSignal d' := h.setSignal _ d'.queue.signal
      obtain ⟨since, hs, -⟩ | ⟨-, hg⟩ := grant_cases (d.useSignal.setElements rest) w
      · -- `w` would keep its turn, and the loop would wait for it
        obtain ⟨ha, ht⟩ := grant_hasTurn hs
        rw [serveThen_of_none (retireTurn_of_hasTurn ha ht), hasTurn_setGranter hi, ht] at hw
        cases hw
      · have hidle := serveThen_of_idle (i := i)
          (d := (d.useSignal.setElements rest).note .withdrawn) hn hst
        rw [hg, hidle] at hw ⊢
        exact ih (hu.skip hq) hwt hwt' hn hst rfl hw
    · have hq' : d'.queue.elements = j :: rest.filter (· ≠ w) := by
        rw [h.elements, hq, List.filter_cons_of_pos (by simpa using hj)]
      have hqg' := (grant_same (d'.useSignal.setElements (rest.filter (· ≠ w))) j).2
      have hu : SameBut w p p' n d.useSignal d'.useSignal := h.setSignal _ _
      rw [List.filter_cons_of_pos (by simpa using hj), takeFrom, look_eq hwt' hq']
      refine ((hu.pop hq hj).grants hj).1.serves hi ?_ hw
      intro e e' he hen hest hqe hqe' hwe
      have hwte : e.queue.signal.waiters = [] := by
        rw [hqe, hqg]
        exact hwt
      have hwte' : e'.queue.signal.waiters = [] := by
        rw [hqe', hqg']
        exact hwt'
      exact ih he hwte hwte' hen hest (by rw [hqe, hqg]; rfl) hwe

theorem take_same (h : SameBut w p p' n d d') (hi : i ≠ w)
    (hwt : d.queue.signal.waiters = []) (hwt' : d'.queue.signal.waiters = [])
    (hn : d.awaited = none) (hst : d.stopping = false)
    (hw : (take grant i d).1.hasTurn w = false) :
    SameResult w p p' n (take grant i d) (take grant i d') := by
  have ht := h.takes hi hwt hwt' hn hst rfl hw
  rwa [← h.elements] at ht

theorem serve_same (h : SameBut w p p' n d d') (hi : i ≠ w)
    (hwt : d.queue.signal.waiters = []) (hwt' : d'.queue.signal.waiters = [])
    (hw : (serve grant i d).1.hasTurn w = false) :
    SameResult w p p' n (serve grant i d) (serve grant i d') :=
  h.serves hi (fun _ _ he hn hst hq hq' hwe =>
    he.take_same hi (hq ▸ hwt) (hq' ▸ hwt') hn hst hwe) hw

theorem granter? (h : SameBut w p p' n d d') (hi : i ≠ w) : d'.granter? i = d.granter? i := by
  simp only [Dispatcher.granter?, h.futures i hi]

theorem startGranting_same (h : SameBut w p p' n d d') (hi : i ≠ w)
    (hwt : d.queue.signal.waiters = []) (hwt' : d'.queue.signal.waiters = [])
    (hw : (startGranting grant i d k).1.hasTurn w = false) :
    SameResult w p p' n (startGranting grant i d k) (startGranting grant i d' k) := by
  cases k with
  | loop => exact (h.note .loopStarted).serve_same hi hwt hwt' hw
  | closer => exact h.drain_same hi 0 hw

theorem awaitBaton_same (h : SameBut w p p' n d d') (hs : d.Sound) (hs' : d'.Sound) (hi : i ≠ w)
    (hg : d.granter? i = some (k, .locking))
    (hw : (awaitBaton grant i k d).1.hasTurn w = false) :
    SameResult w p p' n (awaitBaton grant i k d) (awaitBaton grant i k d') := by
  have hb : d'.baton = d.baton := h.view Dispatcher.baton fun _ _ _ => rfl
  have hg' : d'.granter? i = some (k, .locking) := by rw [h.granter? hi, hg]
  unfold awaitBaton at hw ⊢
  rw [hb]
  split at hw
  · rename_i hh
    rw [if_pos hh]
    have ha : d.Acts i k := ⟨hh, _, hg, rfl, by simp⟩
    have ha' : d'.Acts i k := ⟨hb ▸ hh, _, hg', rfl, by simp⟩
    simp only [hh, ↓reduceIte]
    exact h.startGranting_same hi (ha.waiters_eq_nil hs) (ha'.waiters_eq_nil hs') hw
  · rename_i hh
    simp only [hh, ↓reduceIte]
    exact ⟨h, rfl⟩

theorem shutDoor (h : SameBut w p p' n d d') (k : GranterKind) :
    SameBut w p p' n (d.shutDoor k) (d'.shutDoor k) := by
  refine h.map (fun e => e.shutDoor k) fun q t ns => ?_
  cases k with
  | loop => rfl
  | closer =>
    change (if d.closed then d.refit q t ns else
      { d.refit q t ns with closed := true, stopping := true }) =
        (if d.closed then d else { d with closed := true, stopping := true }).refit q t ns
    split <;> rfl

theorem requestBaton (h : SameBut w p p' n d d') (hi : i ≠ w) (k : GranterKind) :
    SameBut w p p' n (d.requestBaton i k) (d'.requestBaton i k) :=
  (h.setGranter hi k .locking).map (fun e => { e with baton := e.baton.request i }) fun _ _ _ => rfl

end SameBut

/-- It makes no difference to a loop that waits in the queue whether it is marked: if it is not, it
would find nothing there and wait again. -/
theorem poll_popping (hs : d.Sound) (hi : d.granter? i = some (.loop, .popping))
    (hst : d.stopping = false) :
    ∃ t x, (∀ j, t.get? j = (take grant i (d.stepOut i .loop)).1.futures.get? j) ∧
      pollGranterBy grant i .loop d .popping =
        ({ (take grant i (d.stepOut i .loop)).1 with
            queue := { (take grant i (d.stepOut i .loop)).1.queue with signal := x }
            futures := t }, (take grant i (d.stepOut i .loop)).2) := by
  simp only [pollGranterBy, hst, Bool.false_eq_true, ↓reduceIte]
  split
  · exact ⟨_, _, fun _ => rfl, rfl⟩
  · rename_i hm
    obtain ⟨-, -, m, hw, hq⟩ := hs.wait.popping i _ hi
    have hq' : (d.stepOut i .loop).queue.elements = [] :=
      hq (by simpa [Signal.isMarked, hw] using hm)
    have ht : take grant i (d.stepOut i .loop) =
        (((d.stepOut i .loop).look i).setGranter i .loop .popping, .pending) := by
      rw [take, hq', takeFrom]
    refine ⟨d.futures, d.queue.signal, fun j => ?_, ?_⟩
    · rw [ht]
      by_cases hj : i = j
      · subst j
        simp [setGranter, Table.get?_put, granter?_eq_some.mp hi]
      · simp [setGranter, look, stepOut, Table.get?_put, hj]
    · rw [ht, look_of_nil hq']
      rfl

namespace SameBut

theorem popping_same (h : SameBut w p p' n d d') (hs : d.Sound) (hs' : d'.Sound) (hi : i ≠ w)
    (hg : d.granter? i = some (k, .popping))
    (hw : (pollGranterBy grant i k d .popping).1.hasTurn w = false) :
    SameResult w p p' n (pollGranterBy grant i k d .popping)
      (pollGranterBy grant i k d' .popping) := by
  have hg' : d'.granter? i = some (k, .popping) := by rw [h.granter? hi, hg]
  obtain ⟨rfl, hn, -⟩ := hs.wait.popping i k hg
  cases hst : d.stopping with
  | true =>
    have hb := (h.setSignal (d.queue.signal.leave i) (d'.queue.signal.leave i)).setGranter hi .loop
      (.draining 0)
    simp only [pollGranterBy, hst, h.stopping, ↓reduceIte] at hw ⊢
    exact hb.drain_same hi 0 hw
  | false =>
    obtain ⟨t, x, ht, hp⟩ := poll_popping hs hg hst
    obtain ⟨t', x', ht', hp'⟩ := poll_popping hs' hg' (h.stopping.trans hst)
    have hb := (h.setSignal (d.queue.signal.remove i) (d'.queue.signal.remove i)).setGranter hi
      .loop .retiring
    rw [hp] at hw ⊢
    rw [hp']
    obtain ⟨hr, he⟩ := hb.take_same hi (hs.waiters_remove hg) (hs'.waiters_remove hg') hn hst
      ((hasTurn_congr (ht w)).symm.trans hw)
    exact ⟨hr.congr x x' ht ht', he⟩

theorem pollGranter_same (h : SameBut w p p' n d d') (hs : d.Sound) (hs' : d'.Sound) (hi : i ≠ w)
    (hg : d.granter? i = some (k, s)) (hw : (pollGranterBy grant i k d s).1.hasTurn w = false) :
    SameResult w p p' n (pollGranterBy grant i k d s) (pollGranterBy grant i k d' s) := by
  have hg' : d'.granter? i = some (k, s) := by rw [h.granter? hi, hg]
  have acts (hu : s.isUnderWay = true) (hl : s ≠ .locking) (hp : s ≠ .popping) :
      d.queue.signal.waiters = [] ∧ d'.queue.signal.waiters = [] := by
    have ha : d.Acts i k := ⟨hs.baton.holding i k s hg hu hl, s, hg, hu, hp⟩
    have ha' : d'.Acts i k := ⟨hs'.baton.holding i k s hg' hu hl, s, hg', hu, hp⟩
    exact ⟨ha.waiters_eq_nil hs, ha'.waiters_eq_nil hs'⟩
  cases s with
  | created =>
    obtain ⟨hc, hl⟩ := requestBaton_spec hg
    obtain ⟨hc', -⟩ := requestBaton_spec hg'
    exact ((h.shutDoor k).requestBaton hi k).awaitBaton_same (hc.sound hs) (hc'.sound hs') hi hl hw
  | locking => exact h.awaitBaton_same hs hs' hi hg hw
  | retiring =>
    obtain ⟨hwt, hwt'⟩ := acts rfl (by simp) (by simp)
    exact h.serve_same hi hwt hwt' hw
  | popping => exact h.popping_same hs hs' hi hg hw
  | draining m => exact h.drain_same hi m hw
  | finished | dropped => exact ⟨h, rfl⟩

theorem dropGranter (h : SameBut w p p' n d d') (hi : i ≠ w) (k : GranterKind) (s : GranterState) :
    SameBut w p p' n (d.dropGranter i k s) (d'.dropGranter i k s) := by
  have hd := h.setGranter hi k .dropped
  have hl {e e' : Dispatcher ι} (he : SameBut w p p' n e e') :
      SameBut w p p' n { e with baton := e.baton.leave i } { e' with baton := e'.baton.leave i } :=
    he.map (fun e => { e with baton := e.baton.leave i }) fun _ _ _ => rfl
  cases s with
  | created => exact hd
  | locking | retiring | draining => exact hl hd
  | popping => exact hl (hd.setSignal (d.queue.signal.leave i) (d'.queue.signal.leave i))
  | finished | dropped => exact h

theorem setSubmission (h : SameBut w p p' n d d') (hi : i ≠ w) (v : Submission) :
    SameBut w p p' n (d.setSubmission i v) (d'.setSubmission i v) := h.put hi _

theorem startCallback_same (h : SameBut w p p' n d d') (hi : i ≠ w) (since : Nat) :
    SameResult w p p' n (d.startCallback i since) (d'.startCallback i since) := by
  have hsl : d'.isSlow = d.isSlow := h.view Dispatcher.isSlow fun _ _ _ => rfl
  unfold startCallback
  rw [h.now, hsl]
  refine ⟨setSubmission ?_ hi .running, rfl⟩
  split
  · exact h.note _
  · exact h

theorem accept (h : SameBut w p p' n d d') (hi : i ≠ w) :
    SameBut w p p' n (d.accept i) (d'.accept i) := by
  unfold Dispatcher.accept
  rw [h.now]
  exact (h.setSubmission hi (.waiting d.now)).push hi

theorem unlessTaken (h : SameBut w p p' n d d') (hi : i ≠ w) (f : Future) :
    SameBut w p p' n (d.unlessTaken i (d.create i f)) (d'.unlessTaken i (d'.create i f)) := by
  have hc : d'.futures.contains i = d.futures.contains i :=
    congrArg Option.isSome (h.futures i hi)
  unfold Dispatcher.unlessTaken
  rw [hc]
  by_cases ht : d.futures.contains i = true
  · rwa [if_pos ht, if_pos ht]
  · rw [if_neg ht, if_neg ht]
    exact h.put hi f

theorem poll_same (h : SameBut w p p' n d d') (hs : d.Sound) (hs' : d'.Sound) (hi : i ≠ w)
    (hw : (d.poll i).1.hasTurn w = false) : SameResult w p p' n (d.poll i) (d'.poll i) := by
  have hf := h.futures i hi
  cases hd : d.futures.get? i with
  | none =>
    rw [poll_of_get?_eq_none hd, poll_of_get?_eq_none (hf.trans hd)]
    exact ⟨h, rfl⟩
  | some f =>
    cases f with
    | submission v =>
      have hv := submission?_eq_some.mpr hd
      have hv' := submission?_eq_some.mpr (hf.trans hd)
      cases v with
      | created =>
        cases hc : d.closed with
        | true =>
          rw [poll_of_created_closed hv hc, poll_of_created_closed hv' (h.closed.trans hc)]
          exact ⟨(h.note .rejected).setSubmission hi _, rfl⟩
        | false =>
          rw [poll_of_created_open hs hv hc, poll_of_created_open hs' hv' (h.closed.trans hc)]
          exact ⟨h.accept hi, rfl⟩
      | entering since =>
        have := hs.turn.regular i _ hv
        simp [Submission.isRegular] at this
      | waiting since =>
        rw [poll_of_waiting hs hv, poll_of_waiting hs' hv']
        exact ⟨h, rfl⟩
      | granted since =>
        rw [poll_of_granted hv, poll_of_granted hv']
        exact h.startCallback_same hi since
      | running =>
        rw [poll_of_running hv, poll_of_running hv']
        exact ⟨h, rfl⟩
      | ended how =>
        rw [poll_of_ended hv, poll_of_ended hv']
        exact ⟨h, rfl⟩
    | granter k s =>
      have hg := granter?_eq_some.mpr hd
      have hg' := granter?_eq_some.mpr (hf.trans hd)
      rw [poll_of_granter hg] at hw ⊢
      rw [poll_of_granter hg']
      exact h.pollGranter_same hs hs' hi hg hw

theorem drop_same (h : SameBut w p p' n d d') (hi : i ≠ w) :
    SameBut w p p' n (d.drop i) (d'.drop i) := by
  unfold drop
  rw [h.futures i hi]
  split
  · exact h
  · rename_i v _
    cases v with
    | created | waiting | granted => exact h.setSubmission hi (.ended .dropped)
    | entering | running | ended => exact h
  · exact h.dropGranter hi _ _

theorem endCallback_same (h : SameBut w p p' n d d') (hi : i ≠ w) (how : Ending) :
    SameBut w p p' n (d.endCallback i how) (d'.endCallback i how) := by
  unfold endCallback
  rw [h.submission? hi]
  split
  · exact h.setSubmission hi _
  · exact h

/-- Whatever is done, but to `w`, is answered in the same way, and leaves things as they were: the
same but for `w`. -/
theorem act (h : SameBut w p p' n d d') (hs : d.Sound) (hs' : d'.Sound) {a : Action ι}
    (ha : a.isAbout w = false) (hw : (d.act a).hasTurn w = false) :
    SameBut w p p' n (d.act a) (d'.act a) ∧ d'.answer a = d.answer a := by
  cases a with
  | submit i | run i | close i => exact ⟨h.unlessTaken (of_decide_eq_false ha) _, rfl⟩
  | poll i =>
    obtain ⟨hp, he⟩ := h.poll_same hs hs' (of_decide_eq_false ha) hw
    exact ⟨hp, congrArg some he⟩
  | drop i => exact ⟨h.drop_same (of_decide_eq_false ha), rfl⟩
  | finish i panics => exact ⟨h.endCallback_same (of_decide_eq_false ha) _, rfl⟩
  | advance ns =>
    exact ⟨h.map (fun e => { e with now := e.now + ns }) fun _ _ _ => rfl, rfl⟩

end SameBut

end Turnstile.Dispatcher
