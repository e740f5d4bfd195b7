import Turnstile.Proofs.Dispatcher.Lockstep
import Turnstile.Proofs.Dispatcher.Rest

namespace Turnstile

def FairLock.askers {ι : Type} (l : FairLock ι) : List ι := l.holder.toList ++ l.line

theorem FairLock.askers_release {ι : Type} (l : FairLock ι) : l.release.askers = l.line := by
  cases hl : l.line <;> simp [askers, release, hl]

def GranterState.granted : GranterState → Nat
  | draining n => n
  | _ => 0

namespace Dispatcher

variable {ι : Type} [DecidableEq ι] {d d' d'' e : Dispatcher ι} {i j : ι} {k : GranterKind}
  {s : GranterState} {n m l : Nat} {rest : List ι}

def callOf (d : Dispatcher ι) (j : ι) : Option (ι × Nat) :=
  match d.submission? j with
  | some (.waiting since) => some (j, d.now - since)
  | _ => none

def waiting (d : Dispatcher ι) : List (ι × Nat) := d.queue.elements.filterMap d.callOf

def outstanding (d : Dispatcher ι) : List (ι × Nat) :=
  match d.awaited with
  | none => []
  | some j =>
    match d.submission? j with
    | some (.granted since) => [(j, d.now - since)]
    | _ => []

/-- The calls to come if nobody joins or leaves any more: those in the queue are granted their
turns if there is anybody to grant them. -/
def due (d : Dispatcher ι) : List (ι × Nat) :=
  d.outstanding ++ if d.baton.holder.isSome then d.waiting else []

def grantedSoFar (d : Dispatcher ι) : Nat :=
  ((d.baton.holder.bind d.granter?).map fun g => g.2.granted).getD 0

/-- What will have been reported about the end of the drain, if it has granted `n` turns so far. -/
def closings (d : Dispatcher ι) (n : Nat) : List Notice :=
  d.notices.filter Notice.isClosing ++
    if d.closed && !d.drained && d.baton.holder.isSome then [.closed (n + d.waiting.length)] else []

def turnLeft (d : Dispatcher ι) : Nat :=
  match d.awaited with
  | none => 0
  | some j => if d.hasTurn j then 2 else 1

/-- What is left to be done: whoever grants turns has to end, and whoever is queued has to leave the
queue and to have a turn. -/
def remaining (d : Dispatcher ι) : Nat :=
  d.baton.askers.length + 3 * d.queue.elements.length + d.turnLeft

theorem outstanding_of_awaited (hn : d.awaited = none) : d.outstanding = [] := by
  simp [outstanding, hn]

theorem waiting_of_nil (hq : d.queue.elements = []) : d.waiting = [] := by
  simp [waiting, hq]

omit [DecidableEq ι] in
theorem filter_note {x : Notice} (hx : x.isClosing = false) (d : Dispatcher ι) :
    (d.note x).notices.filter Notice.isClosing = d.notices.filter Notice.isClosing := by
  simp [note, hx]

theorem closings_of_drained (hd : d.drained = true) (n : Nat) :
    d.closings n = d.notices.filter Notice.isClosing := by
  simp [closings, hd]

theorem grantedSoFar_eq (hh : d.baton.holder = some i) (hi : d.granter? i = some (k, s)) :
    d.grantedSoFar = s.granted := by
  simp [grantedSoFar, hh, hi]

/-- The granter `i` has come from `d` to `d'` and changed neither the calls nor the report to come.
Before that it had granted `n` turns in the drain, and now it has granted `m`. -/
structure Onward (i : ι) (n : Nat) (d : Dispatcher ι) (m : Nat) (d' : Dispatcher ι) : Prop where
  others : ∀ x, x ≠ i → d'.granter? x = d.granter? x
  closed : d'.closed = d.closed
  due : d'.due = d.due
  closings : d'.closings m = d.closings n
  remaining : d'.remaining ≤ d.remaining
  baton : d'.baton = d.baton ∨ d'.remaining < d.remaining

namespace Onward

theorem trans (h : Onward i n d m d') (h' : Onward i m d' l d'') : Onward i n d l d'' where
  others x hx := (h'.others x hx).trans (h.others x hx)
  closed := h'.closed.trans h.closed
  due := h'.due.trans h.due
  closings := h'.closings.trans h.closings
  remaining := h'.remaining.trans h.remaining
  baton := by
    have hle := h.remaining
    have hle' := h'.remaining
    obtain hb | hlt := h.baton
    · obtain hb' | hlt' := h'.baton
      · exact .inl (hb'.trans hb)
      · exact .inr (by omega)
    · exact .inr (by omega)

theorem of_eq (ho : ∀ x, x ≠ i → d'.granter? x = d.granter? x)
    (hv : d'.submission? = d.submission? ∧ d'.queue.elements = d.queue.elements)
    (hn : d'.now = d.now) (ha : d'.awaited = d.awaited) (hb : d'.baton = d.baton)
    (hc : d'.closed = d.closed) (hd : d'.drained = d.drained)
    (hl : d'.notices.filter Notice.isClosing = d.notices.filter Notice.isClosing) :
    Onward i n d n d' := by
  have hw : d'.waiting = d.waiting := by
    have hcall : d'.callOf = d.callOf := by
      funext j
      simp only [callOf, hv.1, hn]
    rw [waiting, waiting, hcall, hv.2]
  have hr : d'.remaining = d.remaining := by
    have ht : d'.hasTurn = d.hasTurn := by
      funext j
      simp only [hasTurn, hv.1]
    simp only [Dispatcher.remaining, turnLeft, ht, hv.2, ha, hb]
  refine ⟨ho, hc, ?_, ?_, hr.le, .inl hb⟩
  · simp only [Dispatcher.due, outstanding, hv.1, hn, ha, hb, hw]
  · simp only [Dispatcher.closings, hl, hc, hd, hb, hw]

theorem note {x : Notice} (hx : x.isClosing = false) : Onward i n d n (d.note x) :=
  of_eq (fun _ _ => rfl) ⟨rfl, rfl⟩ rfl rfl rfl rfl rfl (filter_note hx d)

theorem signal (x : Signal ι) : Onward i n d n { d with queue := { d.queue with signal := x } } :=
  of_eq (fun _ _ => rfl) ⟨rfl, rfl⟩ rfl rfl rfl rfl rfl rfl

theorem setGranter (hi : d.submission? i = none) (k : GranterKind) (s : GranterState) :
    Onward i n d n (d.setGranter i k s) := by
  refine of_eq (fun x hx => ?_) ⟨submission?_setGranter hi k s, rfl⟩ rfl rfl rfl rfl rfl rfl
  rw [granter?_setGranter, Function.update_of_ne hx]

theorem retire (hr : d.retireTurn = some e) : Onward i n d n e := by
  obtain ⟨-, rfl⟩ | ⟨j, hj, ht, rfl⟩ := retireTurn_eq_some hr
  · exact of_eq (fun _ _ => rfl) ⟨rfl, rfl⟩ rfl rfl rfl rfl rfl rfl
  · have hout : d.outstanding = [] := by
      simp only [outstanding, hj]
      split
      · rename_i since hs
        rw [hasTurn_iff.mpr ⟨_, hs, rfl⟩] at ht
        cases ht
      · rfl
    have hleft : d.turnLeft = 1 := by simp [turnLeft, hj, ht]
    have hleft' : ({ d with awaited := none }.note .turnCompleted).turnLeft = 0 := rfl
    refine ⟨fun _ _ => rfl, rfl, ?_, ?_, ?_, .inl rfl⟩
    · rw [Dispatcher.due, Dispatcher.due, hout]
      rfl
    · rw [Dispatcher.closings, Dispatcher.closings, filter_note rfl]
      rfl
    · rw [Dispatcher.remaining, Dispatcher.remaining, hleft, hleft']
      exact Nat.le_succ _

theorem skip (hq : d.queue.elements = j :: rest)
    (hj : ∀ since, d.submission? j ≠ some (.waiting since)) :
    Onward i n d n ((d.setElements rest).note .withdrawn) := by
  have hcall : d.callOf j = none := by
    unfold callOf
    split
    · rename_i since hw
      exact (hj since hw).elim
    · rfl
  have hwait : d.waiting = ((d.setElements rest).note .withdrawn).waiting := by
    rw [waiting, hq, List.filterMap_cons_none hcall]
    rfl
  have hleft : ((d.setElements rest).note .withdrawn).turnLeft = d.turnLeft := rfl
  have hsize : d.queue.elements.length = rest.length + 1 := by simp [hq]
  refine ⟨fun _ _ => rfl, rfl, ?_, ?_, ?_, .inl rfl⟩
  · rw [Dispatcher.due, Dispatcher.due, hwait]
    rfl
  · rw [Dispatcher.closings, Dispatcher.closings, hwait, filter_note rfl]
    rfl
  · rw [Dispatcher.remaining, Dispatcher.remaining, hleft, hsize]
    change d.baton.askers.length + 3 * rest.length + d.turnLeft ≤ _
    omega

theorem hand {since : Nat} (hh : d.baton.holder = some i) (hn : d.awaited = none)
    (hq : d.queue.elements = j :: rest) (hnd : d.queue.elements.Nodup)
    (hj : d.submission? j = some (.waiting since)) :
    Onward i n d (n + 1)
      ({ (d.setElements rest).setSubmission j (.granted since) with awaited := some j }.note
        .turnGranted) := by
  generalize he : Dispatcher.note _ _ = e
  have hsub : e.submission? = Function.update d.submission? j (some (.granted since)) := by
    rw [← he]
    exact submission?_setSubmission (d.setElements rest) j _
  have hgr : e.granter? = d.granter? := by
    rw [← he]
    exact granter?_setSubmission (d := d.setElements rest) (granter?_of_submission? hj) _
  obtain ⟨hqe, hnow, hae, hbe, hce, hde, hle⟩ : e.queue.elements = rest ∧ e.now = d.now ∧
      e.awaited = some j ∧ e.baton = d.baton ∧ e.closed = d.closed ∧ e.drained = d.drained ∧
      e.notices = d.notices ++ [.turnGranted] := by
    subst e
    exact ⟨rfl, rfl, rfl, rfl, rfl, rfl, rfl⟩
  rw [hq] at hnd
  -- the call of `j` moves from those of the queue to that of the turn that is out
  have hwait : d.waiting = (j, d.now - since) :: e.waiting := by
    have hcall : ∀ x ∈ rest, e.callOf x = d.callOf x := by
      intro x hx
      have hxj : x ≠ j := ne_of_mem_of_not_mem hx (List.nodup_cons.mp hnd).1
      simp only [callOf, hsub, Function.update_of_ne hxj, hnow]
    have hcj : d.callOf j = some (j, d.now - since) := by simp [callOf, hj]
    rw [waiting, waiting, hq, hqe, List.filterMap_cons_some hcj, List.filterMap_congr hcall]
  have hout : e.outstanding = [(j, d.now - since)] := by simp [outstanding, hae, hsub, hnow]
  have hleft : e.turnLeft ≤ 2 := by
    simp only [turnLeft, hae]
    split <;> omega
  have hless : e.remaining < d.remaining := by
    simp only [Dispatcher.remaining, hbe, hqe, hq, List.length_cons]
    omega
  refine ⟨fun x _ => congrFun hgr x, hce, ?_, ?_, hless.le, .inl hbe⟩
  · rw [Dispatcher.due, Dispatcher.due, hout, outstanding_of_awaited hn, hbe, hh, hwait]
    rfl
  · have hcount : n + 1 + e.waiting.length = n + d.waiting.length := by
      rw [hwait, List.length_cons]
      omega
    simp [Dispatcher.closings, hle, hce, hde, hbe, hcount, Notice.isClosing]

theorem complete (hh : d.baton.holder = some i) (hq : d.queue.elements = []) (hc : d.closed = true) :
    Onward i n d m (d.completeDrain n) := by
  rw [completeDrain_eq hq]
  split
  · rename_i hd
    refine ⟨fun _ _ => rfl, rfl, rfl, ?_, le_rfl, .inl rfl⟩
    rw [closings_of_drained hd, closings_of_drained hd]
  · rename_i hd
    refine ⟨fun _ _ => rfl, rfl, rfl, ?_, le_rfl, .inl rfl⟩
    rw [closings_of_drained rfl]
    simp [Dispatcher.closings, Dispatcher.note, hc, hd, hh, waiting_of_nil hq, Notice.isClosing]

theorem finish (ha : d.Acts i k) (hn : d.awaited = none) (hq : d.queue.elements = [])
    (hd : d.drained = true) : Onward i n d m (d.endGranter i k) := by
  generalize he : d.endGranter i k = e
  have hgr : e.granter? = Function.update d.granter? i (some (k, .finished)) := by
    rw [← granter?_setGranter, ← he]
    cases k <;> rfl
  obtain ⟨hqe, hae, hbe, hce, hde⟩ : e.queue.elements = [] ∧ e.awaited = none ∧
      e.baton = d.baton.release ∧ e.closed = d.closed ∧ e.drained = true := by
    subst e
    cases k <;> exact ⟨hq, hn, rfl, rfl, hd⟩
  have hle : e.notices.filter Notice.isClosing = d.notices.filter Notice.isClosing := by
    subst e
    cases k with
    | loop => exact filter_note rfl d
    | closer => rfl
  have hless : e.remaining < d.remaining := by
    have hsize : d.baton.askers.length = d.baton.line.length + 1 := by
      simp [FairLock.askers, ha.holder]
    simp only [Dispatcher.remaining, turnLeft, hbe, FairLock.askers_release, hqe, hq, hae, hn]
    omega
  refine ⟨fun x hx => by rw [hgr, Function.update_of_ne hx], hce, ?_, ?_, hless.le, .inr hless⟩
  · simp [Dispatcher.due, outstanding_of_awaited hn, outstanding_of_awaited hae, waiting_of_nil hq,
      waiting_of_nil hqe]
  · rw [closings_of_drained hd, closings_of_drained hde, hle]

theorem of_open (h : Onward i n d m d') (hc : d.closed = false) (n' m' : Nat) :
    Onward i n' d m' d' where
  others := h.others
  closed := h.closed
  due := h.due
  closings := by
    have hc' : d'.closed = false := h.closed.trans hc
    have hcl := h.closings
    simp only [Dispatcher.closings, hc, hc', Bool.false_and, Bool.false_eq_true, ↓reduceIte] at hcl ⊢
    exact hcl
  remaining := h.remaining
  baton := h.baton

theorem pass (hh : d.baton.holder = some i) (hn : d.awaited = none)
    (hq : d.queue.elements = j :: rest) (hnd : d.queue.elements.Nodup) :
    Onward i n d (if ((d.setElements rest).grant j).2 then n + 1 else n)
      ((d.setElements rest).grant j).1 := by
  obtain ⟨since, hj, h⟩ | ⟨hj, h⟩ := grant_cases (d.setElements rest) j
  · rw [h]
    exact hand hh hn hq hnd hj
  · rw [h]
    exact skip hq hj

end Onward

theorem Acts.rest_onward (ha : d.Acts i k) (s : GranterState) :
    Onward i s.granted d (d.setGranter i k s).grantedSoFar (d.setGranter i k s) := by
  have hi : (d.setGranter i k s).granter? i = some (k, s) := by simp [granter?_setGranter]
  rw [grantedSoFar_eq (d := d.setGranter i k s) ha.holder hi]
  exact .setGranter ha.submission?_eq_none k s

theorem drainFrom_onward {queued : List ι} (ha : d.Acts i k) (hc : d.closed = true)
    (hq : d.queue.elements = queued) (hnd : queued.Nodup) (n : Nat) :
    Onward i n d (drainFrom grant i k n d queued).1.grantedSoFar
      (drainFrom grant i k n d queued).1 := by
  induction queued generalizing d n with
  | nil =>
    cases hr : d.retireTurn with
    | none =>
      rw [drainFrom_of_none hr]
      exact ha.rest_onward (.draining n)
    | some e =>
      rw [drainFrom_nil hr]
      obtain ⟨hse, hn, hqe⟩ := retireTurn_same hr
      have hq' : e.queue.elements = [] := by rw [hqe, hq]
      obtain ⟨hsc, hd⟩ := completeDrain_same hq' n
      have hae := hse.acts ha
      have hc' : e.closed = true := hse.closed.trans hc
      have hcomplete : Onward i n e 0 (e.completeDrain n) := .complete hae.holder hq' hc'
      refine (Onward.retire hr).trans (hcomplete.trans (.finish (hsc.acts hae) ?_ ?_ hd))
      all_goals
        rw [completeDrain_eq hq']
        split <;> assumption
  | cons j rest ih =>
    cases hr : d.retireTurn with
    | none =>
      rw [drainFrom_of_none hr]
      exact ha.rest_onward (.draining n)
    | some e =>
      rw [drainFrom_cons hr]
      obtain ⟨hse, hn, hqe⟩ := retireTurn_same hr
      have hae := hse.acts ha
      have hqe' : e.queue.elements = j :: rest := by rw [hqe, hq]
      -- the round hands `j` its turn or skips it, and the rest is a drain of a shorter queue
      obtain ⟨ha', hcl, hq'⟩ := hae.pass j rest
      have hpass : Onward i n e (if ((e.setElements rest).grant j).2 then n + 1 else n)
          ((e.setElements rest).grant j).1 := .pass hae.holder hn hqe' (hqe' ▸ hnd)
      have hgo := ih ha' (hcl.trans (hse.closed.trans hc)) hq' (List.nodup_cons.mp hnd).2
      exact (Onward.retire hr).trans (hpass.trans (hgo _))

theorem serveThen_onward (next : Dispatcher ι → Dispatcher ι × Progress) (hs : d.Sound)
    (ha : d.Acts i .loop) (hnd : d.queue.elements.Nodup)
    (hnext : ∀ e, e.Sound → e.Acts i .loop → e.awaited = none → e.closed = false →
      e.queue = d.queue → Onward i 0 e (next e).1.grantedSoFar (next e).1) :
    Onward i 0 d (serveThen grant i next d).1.grantedSoFar (serveThen grant i next d).1 := by
  cases hr : d.retireTurn with
  | none =>
    rw [serveThen_of_none hr]
    exact ha.rest_onward .retiring
  | some e =>
    rw [serveThen_of_some hr]
    obtain ⟨hse, hn, hqe⟩ := retireTurn_same hr
    have hes := hs.retire hr
    have hae := hse.acts ha
    refine (Onward.retire hr).trans ?_
    split
    · rename_i hst
      exact drainFrom_onward hae (hes.phase.stopping ▸ hst) rfl (hqe ▸ hnd) 0
    · rename_i hst
      exact hnext e hes hae hn (hes.phase.stopping ▸ Bool.eq_false_iff.mpr hst) hqe

theorem takeFrom_onward {queued : List ι} (hs : d.Sound) (ha : d.Acts i .loop)
    (hn : d.awaited = none) (hc : d.closed = false) (hq : d.queue.elements = queued)
    (hnd : queued.Nodup) :
    Onward i 0 d (takeFrom grant i d queued).1.grantedSoFar (takeFrom grant i d queued).1 := by
  have hw := ha.waiters_eq_nil hs
  induction queued generalizing d with
  | nil =>
    have hlook : Onward i 0 d 0 (d.look i) := look_of_nil hq i ▸ .signal _
    have ha' : (d.look i).Acts i .loop := ⟨ha.holder, ha.state⟩
    exact hlook.trans (ha'.rest_onward .popping)
  | cons j rest ih =>
    unfold takeFrom
    rw [look_eq hw hq]
    have hs₁ := hs.useSignal ha
    have ha₁ : d.useSignal.Acts i .loop := ⟨ha.holder, ha.state⟩
    have hm₂ : Move d.useSignal ((d.useSignal.setElements rest).grant j).1 := .hand ha₁ hn hq
    have hs₂ := hm₂.sound hs₁
    obtain ⟨ha₂, -, hq₂⟩ := ha₁.pass j rest
    have hrest := (List.nodup_cons.mp hnd).2
    have huse : Onward i 0 d 0 d.useSignal := .signal _
    have hpass : Onward i 0 d.useSignal 0 ((d.useSignal.setElements rest).grant j).1 :=
      (Onward.pass (n := 0) ha₁.holder hn hq (hq ▸ hnd)).of_open hc 0 0
    refine huse.trans (hpass.trans (serveThen_onward _ hs₂ ha₂ (by rwa [hq₂]) ?_))
    intro e hes hae hen hce hqe
    exact ih hes hae hen hce (by rw [hqe, hq₂]) hrest (hae.waiters_eq_nil hes)

theorem serve_onward (hs : d.Sound) (ha : d.Acts i .loop) (hnd : d.queue.elements.Nodup) :
    Onward i 0 d (serve grant i d).1.grantedSoFar (serve grant i d).1 :=
  serveThen_onward (take grant i) hs ha hnd fun _ hes hae hen hce hqe =>
    takeFrom_onward hes hae hen hce rfl (hqe ▸ hnd)

/-- Whoever has the baton gets on with what is due, and with nothing else. -/
theorem pollGranter_onward (hs : d.Sound) (hnd : d.queue.elements.Nodup)
    (hi : d.granter? i = some (k, s)) (hu : s.isUnderWay = true) (hh : d.baton.holder = some i) :
    Onward i d.grantedSoFar d (pollGranterBy grant i k d s).1.grantedSoFar
      (pollGranterBy grant i k d s).1 := by
  have hsub := submission?_of_granter? hi
  rw [grantedSoFar_eq hh hi]
  cases s with
  | created | finished | dropped => cases hu
  | locking =>
    have ha : d.Acts i k := ⟨hh, _, hi, rfl, by simp⟩
    simp only [pollGranterBy, awaitBaton, hh, ↓reduceIte]
    cases k with
    | loop =>
      have hnote : Onward i 0 d 0 (d.note .loopStarted) := .note rfl
      have hs' := Sound.note hs (n := .loopStarted) rfl (by simp)
      exact hnote.trans (serve_onward hs' ⟨ha.holder, ha.state⟩ hnd)
    | closer => exact drainFrom_onward ha (hs.phase.closer i _ hi rfl) rfl hnd 0
  | retiring =>
    obtain rfl := hs.phase.serving i k hi
    exact serve_onward hs ⟨hh, _, hi, rfl, by simp⟩ hnd
  | draining n =>
    exact drainFrom_onward ⟨hh, _, hi, rfl, by simp⟩ (hs.phase.draining i k n hi) rfl hnd n
  | popping =>
    obtain ⟨rfl, hn, -⟩ := hs.wait.popping i k hi
    simp only [pollGranterBy]
    split
    · rename_i hst
      have hc : d.closed = true := hs.phase.stopping ▸ hst
      have hleave : Onward i 0 d 0 (d.breakOff i .loop) :=
        (Onward.signal (d.queue.leave i).signal).trans
          (.setGranter (d := { d with queue := d.queue.leave i }) hsub .loop (.draining 0))
      exact hleave.trans (drainFrom_onward (acts_breakOff hh .loop) hc rfl hnd 0)
    · rename_i hst
      have hc : d.closed = false := hs.phase.stopping ▸ Bool.eq_false_iff.mpr hst
      split
      · have hout : Onward i 0 d 0 (d.stepOut i .loop) :=
          (Onward.signal (d.queue.stepOut i).signal).trans
            (.setGranter (d := { d with queue := d.queue.stepOut i }) hsub .loop .retiring)
        have ha := acts_stepOut hh .loop
        exact hout.trans (takeFrom_onward (hs.stepOut hi) ha hn hc rfl hnd)
      · rw [grantedSoFar_eq hh hi]
        exact .signal d.queue.signal

end Dispatcher

end Turnstile
