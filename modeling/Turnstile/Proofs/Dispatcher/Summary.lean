import Turnstile.Proofs.Dispatcher.Settling

namespace Turnstile

namespace Dispatcher

variable {ι : Type} [DecidableEq ι] {d d' e : Dispatcher ι} {i : ι} {k : GranterKind}
  {s : GranterState} {t n m : Nat} {x : Notice}

def turns (d : Dispatcher ι) : Nat := d.notices.count .turnGranted

def forgets (d : Dispatcher ι) : Action ι → Nat
  | .drop i => if d.baton.holder = some i ∧ d.drained = false then d.grantedSoFar else 0
  | _ => 0

/-- All turns are counted but `t`. The count stands at `n` as long as the drain is not over, and then
it is what was reported. -/
structure Counts (t n : Nat) (d : Dispatcher ι) : Prop where
  going : d.drained = false → d.turns = t + n
  reported : ∀ m, .closed m ∈ d.notices → d.turns = t + m

theorem Sound.drained_of_closing (hs : d.Sound) (hm : .closed m ∈ d.notices) :
    d.drained = true := by
  have hpos : 0 < d.notices.countP Notice.isClosing := List.countP_pos_iff.mpr ⟨_, hm, rfl⟩
  rw [hs.log.closings] at hpos
  by_contra hd
  simp [hd] at hpos

namespace Counts

omit [DecidableEq ι] in
theorem of_eq (h : Counts t n d) (hd : d'.drained = d.drained) (hn : d'.notices = d.notices) :
    Counts t n d' := by
  have ht : d'.turns = d.turns := by simp only [turns, hn]
  constructor
  · rw [hd, ht]
    exact h.going
  · rw [hn, ht]
    exact h.reported

omit [DecidableEq ι] in
theorem of_note (h : Counts t n d) (hx : x ≠ .turnGranted) (hc : x.isClosing = false)
    (hd : d'.drained = d.drained) (hn : d'.notices = d.notices ++ [x]) : Counts t n d' := by
  have ht : d'.turns = d.turns := by simp [turns, hn, hx]
  constructor
  · rw [hd, ht]
    exact h.going
  · intro m hm
    rw [hn, List.mem_append, List.mem_singleton] at hm
    obtain hm | rfl := hm
    · rw [ht]
      exact h.reported m hm
    · cases hc

theorem retire (h : Counts t n d) (hr : d.retireTurn = some e) : Counts t n e := by
  obtain ⟨-, rfl⟩ | ⟨j, -, -, rfl⟩ := retireTurn_eq_some hr
  · exact h
  · exact h.of_note (x := .turnCompleted) (by simp) rfl rfl rfl

theorem pass (h : Counts t n d) (hs : d.Sound) (hd : d.drained = false) (j : ι) (rest : List ι) :
    Counts t (if ((d.setElements rest).grant j).2 then n + 1 else n)
      ((d.setElements rest).grant j).1 := by
  obtain ⟨since, -, hg⟩ | ⟨-, hg⟩ := grant_cases (d.setElements rest) j
  · rw [hg]
    generalize he : Dispatcher.note _ _ = e
    have hn : e.notices = d.notices ++ [.turnGranted] := by
      subst e
      rfl
    have ht : e.turns = d.turns + 1 := by simp [turns, hn]
    refine ⟨fun _ => ?_, fun m hm => ?_⟩
    · rw [ht, h.going hd]
      rfl
    · have hm' : .closed m ∈ d.notices := by simpa [hn] using hm
      rw [hs.drained_of_closing hm'] at hd
      cases hd
  · rw [hg]
    exact h.of_note (x := .withdrawn) (by simp) rfl rfl rfl

omit [DecidableEq ι] in
theorem complete (h : Counts t n d) (hq : d.queue.elements = []) (m : Nat) :
    Counts t m (d.completeDrain n) := by
  rw [completeDrain_eq hq]
  split
  · rename_i hd
    exact ⟨fun hd' => by simp [hd] at hd', h.reported⟩
  · rename_i hd
    generalize he : Dispatcher.note _ _ = e
    have hn : e.notices = d.notices ++ [.closed n] := by
      subst e
      rfl
    have hed : e.drained = true := by
      subst e
      rfl
    have ht : e.turns = d.turns := by simp [turns, hn]
    refine ⟨fun hd' => by simp [hed] at hd', fun m' hm => ?_⟩
    rw [hn, List.mem_append, List.mem_singleton] at hm
    rw [ht]
    obtain hm | hm := hm
    · exact h.reported m' hm
    · cases hm
      exact h.going (Bool.eq_false_iff.mpr hd)

theorem finish (h : Counts t n d) (i : ι) (k : GranterKind) : Counts t n (d.endGranter i k) := by
  cases k with
  | loop => exact h.of_note (x := .loopStopped) (by simp) rfl rfl rfl
  | closer => exact h.of_eq rfl rfl

end Counts

theorem Acts.rest_counts (ha : d.Acts i k) (h : Counts t s.granted d) :
    Counts t (d.setGranter i k s).grantedSoFar (d.setGranter i k s) := by
  have hi : (d.setGranter i k s).granter? i = some (k, s) := by simp [granter?_setGranter]
  rw [grantedSoFar_eq (d := d.setGranter i k s) ha.holder hi]
  exact h.of_eq rfl rfl

theorem drainFrom_counts {queued : List ι} (hs : d.Sound) (ha : d.Acts i k) (hc : d.closed = true)
    (hq : d.queue.elements = queued) (h : Counts t n d) :
    Counts t (drainFrom grant i k n d queued).1.grantedSoFar (drainFrom grant i k n d queued).1 := by
  induction queued generalizing d n with
  | nil =>
    cases hr : d.retireTurn with
    | none =>
      rw [drainFrom_of_none hr]
      exact ha.rest_counts h
    | some e =>
      have hqe : e.queue.elements = [] := by rw [(retireTurn_same hr).2.2, hq]
      rw [drainFrom_nil hr]
      exact ((h.retire hr).complete hqe _).finish i k
  | cons j rest ih =>
    cases hr : d.retireTurn with
    | none =>
      rw [drainFrom_of_none hr]
      exact ha.rest_counts h
    | some e =>
      rw [drainFrom_cons hr]
      obtain ⟨hse, hn, hqe⟩ := retireTurn_same hr
      have hes := hs.retire hr
      have hae := hse.acts ha
      have hqe' : e.queue.elements = j :: rest := by rw [hqe, hq]
      have hde : e.drained = false := hes.turn.drained_eq_false (i := j) (by simp [hqe'])
      obtain ⟨ha', hcl, hq'⟩ := hae.pass j rest
      have hpass := (h.retire hr).pass hes hde j rest
      exact ih (hes.hand hae hn hqe') ha' (hcl.trans (hse.closed.trans hc)) hq' hpass

theorem serve_counts (hs : d.Sound) (ha : d.Acts i .loop) (hc : d.closed = true)
    (h : Counts t 0 d) : Counts t (serve grant i d).1.grantedSoFar (serve grant i d).1 := by
  unfold serve
  cases hr : d.retireTurn with
  | none =>
    rw [serveThen_of_none hr]
    exact ha.rest_counts (s := .retiring) h
  | some e =>
    obtain ⟨hse, -⟩ := retireTurn_same hr
    have hes := hs.retire hr
    have hce : e.closed = true := hse.closed.trans hc
    have hst : e.stopping = true := hes.phase.stopping.trans hce
    rw [serveThen_of_some hr, if_pos hst]
    exact drainFrom_counts hes (hse.acts ha) hce rfl (h.retire hr)

theorem pollGranter_counts (hs : d.Sound) (hc : d.closed = true)
    (hi : d.granter? i = some (k, s)) (hu : s.isUnderWay = true) (hh : d.baton.holder = some i)
    (h : Counts t d.grantedSoFar d) :
    Counts t (pollGranterBy grant i k d s).1.grantedSoFar (pollGranterBy grant i k d s).1 := by
  rw [grantedSoFar_eq hh hi] at h
  cases s with
  | created | finished | dropped => cases hu
  | locking =>
    have ha : d.Acts i k := ⟨hh, _, hi, rfl, by simp⟩
    simp only [pollGranterBy, awaitBaton, hh, ↓reduceIte]
    cases k with
    | loop =>
      have hs' := Sound.note hs (n := .loopStarted) rfl (by simp)
      have h' : Counts t 0 (d.note .loopStarted) := h.of_note (by simp) rfl rfl rfl
      exact serve_counts hs' ⟨ha.holder, ha.state⟩ hc h'
    | closer => exact drainFrom_counts hs ha hc rfl h
  | retiring =>
    obtain rfl := hs.phase.serving i k hi
    exact serve_counts hs ⟨hh, _, hi, rfl, by simp⟩ hc h
  | draining n => exact drainFrom_counts hs ⟨hh, _, hi, rfl, by simp⟩ hc rfl h
  | popping =>
    have hst : d.stopping = true := hs.phase.stopping.trans hc
    have h' : Counts t 0 (d.breakOff i k) := h.of_eq rfl rfl
    simp only [pollGranterBy, hst, ↓reduceIte]
    exact drainFrom_counts (hs.breakOff hi hc) (acts_breakOff hh k) hc rfl h'

/-- A granter that is polled for the first time asks for the baton. It gets further than that only if
it has the baton. -/
theorem Sound.poll_cases (hs : d.Sound) (hi : d.granter? i = some (k, s)) :
    ∃ e s', (e = d ∨ s = .created ∧ e = (d.shutDoor k).requestBaton i k) ∧ e.Sound ∧
      e.granter? i = some (k, s') ∧ ((d.poll i).1 = e ∨ s'.isUnderWay = true ∧
        e.baton.holder = some i ∧ d.poll i = pollGranterBy grant i k e s') := by
  have hp := poll_of_granter hi
  cases s with
  | created =>
    obtain ⟨hch, hl⟩ := requestBaton_spec hi
    refine ⟨_, .locking, .inr ⟨rfl, rfl⟩, hch.sound hs, hl, ?_⟩
    by_cases hh : ((d.shutDoor k).requestBaton i k).baton.holder = some i
    · exact .inr ⟨rfl, hh, hp⟩
    · apply Or.inl
      rw [hp, pollGranterBy, awaitBaton, if_neg hh]
  | locking =>
    refine ⟨d, _, .inl rfl, hs, hi, ?_⟩
    by_cases hh : d.baton.holder = some i
    · exact .inr ⟨rfl, hh, hp⟩
    · apply Or.inl
      rw [hp, pollGranterBy, awaitBaton, if_neg hh]
  | retiring | popping | draining =>
    have hh : d.baton.holder = some i := hs.baton.holding i k _ hi rfl (by simp)
    exact ⟨d, _, .inl rfl, hs, hi, .inr ⟨rfl, hh, hp⟩⟩
  | finished | dropped =>
    refine ⟨d, _, .inl rfl, hs, hi, .inl ?_⟩
    rw [hp]
    rfl

theorem grantedSoFar_congr (hb : d'.baton.holder = d.baton.holder)
    (hg : ∀ j, d.baton.holder = some j → d'.granter? j = d.granter? j) :
    d'.grantedSoFar = d.grantedSoFar := by
  cases hh : d.baton.holder with
  | none => simp [grantedSoFar, hb, hh]
  | some j => simp [grantedSoFar, hb, hh, hg j hh]

theorem Sound.grantedSoFar_of_open (hs : d.Sound) (ho : d.closed = false) :
    d.grantedSoFar = 0 := by
  cases hh : d.baton.holder with
  | none => simp [grantedSoFar, hh]
  | some i =>
    obtain ⟨k, s, hi, -⟩ := hs.baton.holder i hh
    rw [grantedSoFar_eq hh hi]
    cases s with
    | draining n =>
      rw [hs.phase.draining i k n hi] at ho
      cases ho
    | _ => rfl

theorem Sound.ne_of_holder (hs : d.Sound) {j : ι} (hj : d.baton.holder = some j)
    (hi : ∀ g, d.granter? i = some g → g.2.isUnderWay = false) : j ≠ i := by
  rintro rfl
  obtain ⟨k, s, hg, hu⟩ := hs.baton.holder j hj
  rw [hi _ hg] at hu
  cases hu

theorem Sound.grantedSoFar_requestBaton (hs : d.Sound) (hi : d.granter? i = some (k, .created)) :
    (d.requestBaton i k).grantedSoFar = d.grantedSoFar := by
  have hg : (d.requestBaton i k).granter? = Function.update d.granter? i (some (k, .locking)) := by
    rw [← granter?_setGranter]
    rfl
  cases hh : d.baton.holder with
  | none =>
    have hb : (d.requestBaton i k).baton.holder = some i := by
      simp [Dispatcher.requestBaton, setGranter, FairLock.request, hh]
    rw [grantedSoFar_eq hb (k := k) (s := .locking) (by simp [hg])]
    simp [grantedSoFar, hh, GranterState.granted]
  | some j =>
    have hb : (d.requestBaton i k).baton.holder = d.baton.holder := by
      simp [Dispatcher.requestBaton, setGranter, FairLock.request, hh]
    apply grantedSoFar_congr hb
    intro x hx
    have hxi : x ≠ i := hs.ne_of_holder hx (by simp [hi, GranterState.isUnderWay])
    rw [hg, Function.update_of_ne hxi]

theorem Sound.grantedSoFar_dropGranter (hs : d.Sound) (hi : d.granter? i = some (k, s)) :
    (d.dropGranter i k s).grantedSoFar =
      if d.baton.holder = some i then 0 else d.grantedSoFar := by
  have hg (j : ι) (hj : j ≠ i) : (d.dropGranter i k s).granter? j = d.granter? j := by
    have hset := congrFun (granter?_setGranter d i k .dropped) j
    rw [Function.update_of_ne hj] at hset
    cases s with
    | finished | dropped => rfl
    | _ => exact hset
  split
  · rename_i hh
    obtain ⟨k', s', hi', hu⟩ := hs.baton.holder i hh
    obtain ⟨rfl, rfl⟩ : k = k' ∧ s = s' := by simpa [hi] using hi'
    have hb : (d.dropGranter i k s).baton.holder = d.baton.line.head? := by
      have hl : d.baton.leave i = d.baton.release := if_pos hh
      cases s with
      | created | finished | dropped => cases hu
      | _ => exact congrArg FairLock.holder hl
    cases hl : d.baton.line.head? with
    | none => simp [grantedSoFar, hb, hl]
    | some j =>
      obtain ⟨⟨kj, hj⟩, hne⟩ := (hs.baton.line j).mp (List.mem_of_mem_head? hl)
      have hji : j ≠ i := fun he => hne (he ▸ hh)
      rw [grantedSoFar_eq (hb.trans hl) ((hg j hji).trans hj)]
      rfl
  · rename_i hh
    have hb : (d.dropGranter i k s).baton.holder = d.baton.holder := by
      have hl : (d.baton.leave i).holder = d.baton.holder := by rw [FairLock.leave, if_neg hh]
      cases s with
      | created | finished | dropped => rfl
      | _ => exact hl
    exact grantedSoFar_congr hb fun j hj => hg j fun he => hh (he ▸ hj)

theorem Sound.poll_counts (hs : d.Sound) (hnd : d.queue.elements.Nodup)
    (hi : d.granter? i = some (k, s)) (hc : (d.poll i).1.closed = true)
    (h : Counts t d.grantedSoFar d) : Counts t (d.poll i).1.grantedSoFar (d.poll i).1 := by
  obtain ⟨e, s', he, hes, hie, hp⟩ := hs.poll_cases hi
  obtain ⟨hqe, hce⟩ : e.queue = d.queue ∧ Counts t e.grantedSoFar e := by
    obtain rfl | ⟨rfl, rfl⟩ := he
    · exact ⟨rfl, h⟩
    · have hshut : (d.shutDoor k).granter? i = some (k, .created) ∧
          (d.shutDoor k).queue = d.queue ∧
          Counts t (d.shutDoor k).grantedSoFar (d.shutDoor k) := by
        obtain ⟨hd, -⟩ | hd := d.shutDoor_cases k
        · rw [hd]
          exact ⟨hi, rfl, h⟩
        · rw [hd]
          exact ⟨hi, rfl, h.of_eq rfl rfl⟩
      obtain ⟨hi', hq, hcd⟩ := hshut
      rw [(hs.shutDoor k).grantedSoFar_requestBaton hi']
      exact ⟨hq, hcd.of_eq rfl rfl⟩
  obtain hp | ⟨hu, hh, hp⟩ := hp
  · rwa [hp]
  · have hcl := (pollGranter_onward hes (hqe ▸ hnd) hie hu hh).closed
    rw [← hp, hc] at hcl
    rw [hp]
    exact pollGranter_counts hes hcl.symm hie hu hh hce

theorem Counts.setSubmission {u : Submission} (h : Counts t d.grantedSoFar d)
    (hi : d.submission? i = some u) (v : Submission) :
    Counts t (d.setSubmission i v).grantedSoFar (d.setSubmission i v) := by
  have hg := granter?_setSubmission (granter?_of_submission? hi) v
  have hn : (d.setSubmission i v).grantedSoFar = d.grantedSoFar :=
    grantedSoFar_congr rfl fun j _ => congrFun hg j
  rw [hn]
  exact h.of_eq rfl rfl

theorem Sound.dropGranter_counts (hs : d.Sound) (hi : d.granter? i = some (k, s))
    (h : Counts t d.grantedSoFar d) :
    Counts (t + d.forgets (.drop i)) (d.dropGranter i k s).grantedSoFar (d.dropGranter i k s) := by
  obtain ⟨hd, hn⟩ : (d.dropGranter i k s).drained = d.drained ∧
      (d.dropGranter i k s).notices = d.notices := by
    cases s <;> exact ⟨rfl, rfl⟩
  have ht : (d.dropGranter i k s).turns = d.turns := by simp only [turns, hn]
  rw [hs.grantedSoFar_dropGranter hi]
  constructor
  · rw [hd, ht]
    intro hd'
    rw [h.going hd', forgets]
    split <;> simp_all
  · rw [hn, ht]
    intro m hm
    rw [h.reported m hm, forgets, hs.drained_of_closing hm]
    simp

/-- No action makes the count wrong, but one that drops it. -/
theorem Sound.act_counts (hs : d.Sound) (hnd : d.queue.elements.Nodup) (a : Action ι)
    (hc : (d.act a).closed = true) (h : Counts t d.grantedSoFar d) :
    Counts (t + d.forgets a) (d.act a).grantedSoFar (d.act a) := by
  by_cases hd : ∃ i g, a = .drop i ∧ d.granter? i = some g
  · obtain ⟨i, ⟨k, s⟩, rfl, hi⟩ := hd
    have ha : d.act (.drop i) = d.dropGranter i k s := by
      simp [Dispatcher.act, drop, granter?_eq_some.mp hi]
    rw [ha]
    exact hs.dropGranter_counts hi h
  · -- nothing but the drop of a granter forgets turns
    have hf : d.forgets a = 0 := by
      cases a with
      | drop i =>
        apply if_neg
        intro hh
        apply hd
        obtain ⟨k, s, hi, -⟩ := hs.baton.holder i hh.1
        exact ⟨i, _, rfl, hi⟩
      | _ => rfl
    rw [hf, Nat.add_zero]
    cases effect hs a with
    | still he => rwa [he]
    | advances ns => exact h.of_eq rfl rfl
    | @creates _ i f hi _ he =>
      have hg (j : ι) (hj : d.baton.holder = some j) : (d.create i f).granter? j = d.granter? j := by
        have hji : j ≠ i := hs.ne_of_holder hj (by simp [granter?_of_get? hi])
        have hf : (d.create i f).futures.get? j = d.futures.get? j :=
          Table.get?_put_of_ne _ hji.symm _
        simp only [granter?, hf]
      have hb : (d.create i f).baton.holder = d.baton.holder := rfl
      rw [he, grantedSoFar_congr hb hg]
      exact h.of_eq rfl rfl
    | rejects hi _ hp =>
      have h' : Counts t (d.note .rejected).grantedSoFar (d.note .rejected) :=
        h.of_note (x := .rejected) (by simp) rfl rfl rfl
      simp only [Dispatcher.act, hp]
      exact h'.setSubmission hi _
    | admits hi _ hp =>
      simp only [Dispatcher.act, hp]
      exact (h.setSubmission hi _).of_eq rfl rfl
    | @starts i since hi hp =>
      simp only [Dispatcher.act, hp]
      obtain hst | ⟨ms, hst⟩ := startCallback_fst d i since
      · rw [hst]
        exact h.setSubmission hi _
      · have h' : Counts t (d.note (.slowTurn ms)).grantedSoFar (d.note (.slowTurn ms)) :=
          h.of_note (x := .slowTurn ms) (by simp) rfl rfl rfl
        rw [hst]
        exact h'.setSubmission hi _
    | finishes hi he =>
      rw [he]
      exact h.setSubmission hi _
    | withdraws hi _ he =>
      rw [he]
      exact h.setSubmission hi _
    | polls hi _ _ => exact hs.poll_counts hnd hi hc h
    | drops hi _ => exact (hd ⟨_, _, rfl, hi⟩).elim

end Dispatcher

open Dispatcher

namespace History

variable {ι : Type} [DecidableEq ι] {h : History ι} {t : Nat}

/-- How many turns of the drain were handed over by granters that were dropped before its end. -/
def forgotten (h : History ι) : List (Action ι) → Nat
  | [] => 0
  | a :: as => h.dispatcher.forgets a + (h.step a).forgotten as

theorem Reachable.counts_after (hr : h.Reachable) (hc : h.dispatcher.closed = true)
    (hn : Counts t h.dispatcher.grantedSoFar h.dispatcher) (as : List (Action ι)) :
    Counts (t + h.forgotten as) (h.after as).dispatcher.grantedSoFar (h.after as).dispatcher := by
  induction as generalizing h t with
  | nil => exact hn
  | cons a as ih =>
    have hc' : (h.step a).dispatcher.closed = true := (hr.sound.act_grows a).closed hc
    rw [forgotten, ← Nat.add_assoc]
    exact ih (hr.step a) hc' (hr.sound.act_counts hr.nodup_queue a hc' hn)

end History

open History

variable {ι : Type} [DecidableEq ι] {h : History ι}

/-- What is logged at the end of the drain is the number of turns that were handed over since the
dispatcher was closed, less those of granters that were dropped in the drain. -/
theorem summary_lacks_what_was_forgotten (hr : h.Reachable) (ho : h.dispatcher.closed = false)
    {a : Action ι} (hc : (h.step a).dispatcher.closed = true) (as : List (Action ι)) {n : Nat}
    (hn : .closed n ∈ (h.after (a :: as)).dispatcher.notices) :
    (h.after (a :: as)).dispatcher.turns = h.dispatcher.turns + (n + h.forgotten (a :: as)) := by
  have hs := hr.sound
  have hbefore : Counts h.dispatcher.turns h.dispatcher.grantedSoFar h.dispatcher := by
    rw [hs.grantedSoFar_of_open ho]
    refine ⟨fun _ => rfl, fun m hm => ?_⟩
    have hd := hs.phase.drained_eq_false ho
    rw [hs.drained_of_closing hm] at hd
    cases hd
  have hclosing := hs.act_counts hr.nodup_queue a hc hbefore
  have hend := (hr.step a).counts_after hc hclosing as
  have := hend.reported n hn
  rw [forgotten]
  change (History.after (h.step a) as).dispatcher.turns = _
  omega

/-- The loop is dropped after the first turn of the drain, and a closer hands over the second. -/
theorem summary_lacks_what_was_forgotten_loop :
    let h := (fresh {}).after [.submit 0, .poll 0, .submit 1, .poll 1, .submit 2, .poll 2, .run 3,
      .poll 3, .close 4]
    let as := [.poll 0, .finish 0 false, .poll 3, .drop 3, .poll 1, .finish 1 false, .poll 4,
      .poll 2, .finish 2 false, .poll 4]
    let h' := h.after (.poll 4 :: as)
    h.dispatcher.closed = false ∧ (h.step (.poll 4)).dispatcher.closed = true ∧
      .closed 1 ∈ h'.dispatcher.notices ∧ h'.dispatcher.turns = h.dispatcher.turns + 2 := by
  intro h as h'
  have hr : h.Reachable := (Reachable.fresh {}).after _
  have hn : .closed 1 ∈ h'.dispatcher.notices := by decide
  have ht := summary_lacks_what_was_forgotten hr (by decide) (by decide) as hn
  have hf : h.forgotten (.poll 4 :: as) = 1 := by decide
  refine ⟨by decide, by decide, hn, ?_⟩
  rw [ht, hf]

end Turnstile
