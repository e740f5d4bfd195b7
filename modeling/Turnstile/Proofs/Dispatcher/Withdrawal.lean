import Turnstile.Proofs.Dispatcher.Barrier
import Turnstile.Proofs.Dispatcher.Lockstep

namespace Turnstile

def Submission.isEarly : Submission → Bool
  | created | waiting _ => true
  | _ => false

/-- Without the turn, and not come to by being turned away. -/
def Submission.isPassive : Submission → Bool
  | created | waiting _ | ended .dropped => true
  | _ => false

namespace Dispatcher

variable {ι : Type} [DecidableEq ι] {d d' : Dispatcher ι} {w : ι}

def OnlyIs (d : Dispatcher ι) (w : ι) (ok : Submission → Bool) : Prop :=
  d.granter? w = none ∧ ∀ v, d.submission? w = some v → ok v = true

theorem granter?_setGranter_ne_none (hw : d.granter? w ≠ none) (i : ι) (k : GranterKind)
    (s : GranterState) : (d.setGranter i k s).granter? w ≠ none := by
  rw [granter?_setGranter]
  by_cases hi : w = i
  · simp [hi]
  · rwa [Function.update_of_ne hi]

theorem Move.granter?_ne_none (m : Move d d') (hw : d.granter? w ≠ none) :
    d'.granter? w ≠ none := by
  cases m with
  | shutDoor k =>
    obtain ⟨h, -⟩ | h := d.shutDoor_cases k <;> rwa [h]
  | start | useSignal => exact hw
  | retire h => rwa [(retireTurn_same h).1.granter?]
  | hand _ _ _ => rwa [(grant_same _ _).1.granter?]
  | requestBaton | rest | register | stepOut | breakOff =>
    exact granter?_setGranter_ne_none hw _ _ _
  | completeDrain n _ _ hq _ => rwa [(completeDrain_same hq n).1.granter?]
  | @endGranter i k => cases k <;> exact granter?_setGranter_ne_none hw _ _ _

theorem Chain.granter?_ne_none (c : Chain d d') (hw : d.granter? w ≠ none) :
    d'.granter? w ≠ none := by
  induction c with
  | refl => exact hw
  | tail _ m ih => exact m.granter?_ne_none ih

theorem Sound.granter?_act (hs : d.Sound) (hw : d.granter? w ≠ none) (a : Action ι) :
    (d.act a).granter? w ≠ none := by
  cases effect hs a with
  | still h => rwa [h]
  | advances ns => exact hw
  | @creates _ i f hi hf h =>
    rw [h]
    rcases hf with rfl | ⟨k, rfl⟩
    · change (d.setSubmission i .created).granter? w ≠ none
      rwa [granter?_setSubmission (granter?_of_get? hi)]
    · exact granter?_setGranter_ne_none hw i k .created
  | @rejects i hi _ hp =>
    simp only [Dispatcher.act, hp]
    rwa [granter?_setSubmission (d := d.note .rejected) (granter?_of_submission? hi)]
  | @admits i hi _ hp =>
    simp only [Dispatcher.act, hp]
    change (d.setSubmission i (.waiting d.now)).granter? w ≠ none
    rwa [granter?_setSubmission (granter?_of_submission? hi)]
  | @starts i since hi hp =>
    have hg := granter?_of_submission? hi
    simp only [Dispatcher.act, hp]
    obtain h | ⟨ms, h⟩ := startCallback_fst d i since
    · rwa [h, granter?_setSubmission hg]
    · rwa [h, granter?_setSubmission (d := d.note (.slowTurn ms)) hg]
  | finishes hi h => rwa [h, granter?_setSubmission (granter?_of_submission? hi)]
  | withdraws hi _ h => rwa [h, granter?_setSubmission (granter?_of_submission? hi)]
  | polls _ hc _ => exact hc.granter?_ne_none hw
  | @drops i k s hi h =>
    rw [h]
    cases s with
    | finished | dropped => exact hw
    | _ => exact granter?_setGranter_ne_none hw i k .dropped

theorem Sound.onlyIs_early (hs : d.Sound) {a : Action ι}
    (hw : (d.act a).OnlyIs w Submission.isEarly) : d.OnlyIs w Submission.isEarly := by
  obtain ⟨hg, hsub⟩ := hw
  refine ⟨by_contra fun hn => hs.granter?_act hn a hg, fun v hv => ?_⟩
  have hc := hs.change a w
  rw [hv] at hc
  generalize (d.act a).submission? w = u at hc hsub
  cases hc with
  | same => exact hsub v rfl
  | rejected | accepted | granted => rfl
  | called | finished | withdrawn => cases hsub _ rfl

theorem OnlyIs.isPassive (hw : d.OnlyIs w Submission.isEarly) :
    d.OnlyIs w Submission.isPassive := by
  refine ⟨hw.1, fun v hv => ?_⟩
  have he := hw.2 v hv
  cases v with
  | created | waiting => rfl
  | entering | granted | running | ended => cases he

theorem OnlyIs.hasTurn (hw : d.OnlyIs w Submission.isPassive) : d.hasTurn w = false := by
  apply Bool.eq_false_iff.mpr
  intro ht
  obtain ⟨v, hv, hvt⟩ := hasTurn_iff.mp ht
  have hp := hw.2 v hv
  cases v with
  | granted | running => cases hp
  | created | entering | waiting | ended => cases hvt

namespace SameBut

variable {p p' : List Notice} {n : Nat}

theorem alter (h : SameBut w p p' n d d') {f : Future} (ht : (d.create w f).hasTurn w = false) :
    SameBut w p p' n (d.create w f) d' where
  rest := by
    obtain ⟨q, t, ns, rfl⟩ := h.rest
    exact ⟨q, t, ns, rfl⟩
  futures i hi := by
    rw [h.futures i hi]
    exact (Table.get?_put_of_ne _ hi.symm f).symm
  hasTurn := ht
  hasTurn' := h.hasTurn'
  elements := h.elements
  notices := h.notices

theorem alterNew (h : SameBut w p p' n d d') {f : Future}
    (ht : (d.unlessTaken w (d.create w f)).hasTurn w = false) :
    SameBut w p p' n (d.unlessTaken w (d.create w f)) d' := by
  obtain he | ⟨-, he⟩ := unlessTaken_eq d w f
  · rwa [he]
  · rw [he] at ht ⊢
    exact h.alter ht

theorem enqueue (h : SameBut w p p' n d d') :
    SameBut w p p' (n + 1) { d with queue := d.queue.push w } d' where
  rest := by
    obtain ⟨q, t, ns, rfl⟩ := h.rest
    exact ⟨q, t, ns, rfl⟩
  futures := h.futures
  hasTurn := h.hasTurn
  hasTurn' := h.hasTurn'
  elements := by simp [Queue.push, h.elements, List.filter_append]
  notices := by
    obtain ⟨m, hm, hn⟩ := h.notices
    exact ⟨m, hm, by simp [Queue.push, List.count_append]; omega⟩

theorem poll_alone (h : SameBut w p p' n d d') (hs : d.Sound)
    (hw : d.OnlyIs w Submission.isPassive) (hw' : (d.poll w).1.OnlyIs w Submission.isPassive) :
    SameBut w p p' (n + (d.admits (.poll w)).count w) (d.poll w).1 d' := by
  have still (hc : d.submission? w ≠ some .created) (hp : d.poll w = (d, .pending)) :
      SameBut w p p' (n + (d.admits (.poll w)).count w) (d.poll w).1 d' := by
    rw [hp]
    simpa [admits, hc] using h
  cases hf : d.futures.get? w with
  | none => exact still (by simp [submission?_of_get? hf]) (poll_of_get?_eq_none hf)
  | some f =>
    cases f with
    | granter k s =>
      have := hw.1
      simp [granter?_eq_some.mpr hf] at this
    | submission v =>
      have hv := submission?_eq_some.mpr hf
      have hp := hw.2 v hv
      cases v with
      | created =>
        cases hc : d.closed with
        | true =>
          -- it would be turned away
          have hr := hw'.2 (.ended .rejected)
          rw [poll_of_created_closed hv hc, submission?_setSubmission] at hr
          cases hr (Function.update_self ..)
        | false =>
          have ht := hw'.hasTurn
          rw [poll_of_created_open hs hv hc] at ht ⊢
          have ha : (d.admits (.poll w)).count w = 1 := by simp [admits, hv, hc]
          rw [ha]
          exact (h.alter (f := .submission (.waiting d.now)) ht).enqueue
      | waiting since => exact still (by simp [hv]) (poll_of_waiting hs hv)
      | ended how => exact still (by simp [hv]) (poll_of_ended hv)
      | entering | granted | running => cases hp

theorem drop_alone (h : SameBut w p p' n d d') (hw : d.OnlyIs w Submission.isPassive)
    (ht : (d.drop w).hasTurn w = false) : SameBut w p p' n (d.drop w) d' := by
  unfold drop at ht ⊢
  split at ht
  · exact h
  · rename_i v _
    cases v with
    | created | waiting | granted => exact h.alter ht
    | entering | running | ended => exact h
  · rename_i k s hf
    have := hw.1
    simp [granter?_eq_some.mpr hf] at this

theorem endCallback_alone (h : SameBut w p p' n d d') (hw : d.OnlyIs w Submission.isPassive)
    (how : Ending) : SameBut w p p' n (d.endCallback w how) d' := by
  unfold endCallback
  split
  · rename_i hr
    cases hw.2 _ hr
  · exact h

theorem act_alone (h : SameBut w p p' n d d') (hs : d.Sound) {a : Action ι}
    (ha : a.isAbout w = true) (hw : d.OnlyIs w Submission.isPassive)
    (hw' : (d.act a).OnlyIs w Submission.isPassive) :
    SameBut w p p' (n + (d.admits a).count w) (d.act a) d' := by
  cases a with
  | submit i | run i | close i =>
    obtain rfl := of_decide_eq_true ha
    exact h.alterNew hw'.hasTurn
  | poll i =>
    obtain rfl := of_decide_eq_true ha
    exact h.poll_alone hs hw hw'
  | drop i =>
    obtain rfl := of_decide_eq_true ha
    exact h.drop_alone hw hw'.hasTurn
  | finish i panics =>
    obtain rfl := of_decide_eq_true ha
    exact h.endCallback_alone hw _
  | advance ns => cases ha

end SameBut

theorem count_admits {a : Action ι} (ha : a.isAbout w = false) : (d.admits a).count w = 0 := by
  cases a with
  | poll i =>
    have hi : i ≠ w := of_decide_eq_false ha
    by_cases hc : d.submission? i = some .created ∧ d.closed = false <;> simp [admits, hc, hi]
  | _ => rfl

end Dispatcher

open Dispatcher

namespace History

variable {ι : Type} [DecidableEq ι] {h h' : History ι} {w : ι} {as : List (Action ι)}

def without (w : ι) (as : List (Action ι)) : List (Action ι) := as.filter fun a => !a.isAbout w

theorem Reachable.onlyIs_early (hr : h.Reachable) {front : List (Action ι)} (hf : front <+: as)
    (hw : (h.after as).dispatcher.OnlyIs w Submission.isEarly) :
    (h.after front).dispatcher.OnlyIs w Submission.isEarly := by
  obtain ⟨rest, rfl⟩ := hf
  rw [after_append] at hw
  have hr' := hr.after front
  generalize h.after front = g at hw hr'
  induction rest generalizing g with
  | nil => exact hw
  | cons a rest ih => exact hr'.sound.onlyIs_early (ih _ hw (hr'.step a))

/-- As long as `w` has no turn the run goes on as it would without `w`. -/
theorem Reachable.sameBut_without (hr : h.Reachable) (hr' : h'.Reachable)
    (hs : SameBut w [] [] (h.accepted.count w) h.dispatcher h'.dispatcher)
    (hw : ∀ front, front <+: as → (h.after front).dispatcher.OnlyIs w Submission.isPassive) :
    SameBut w [] [] ((h.after as).accepted.count w) (h.after as).dispatcher
        (h'.after (without w as)).dispatcher ∧
      h'.replies (without w as) = (h.replies as).filter fun r => !r.1.isAbout w := by
  -- an accepted `w` was accepted once, and that is how often its withdrawal is or will be noted
  induction as generalizing h h' with
  | nil => exact ⟨hs, rfl⟩
  | cons a as ih =>
    have hw₀ : h.dispatcher.OnlyIs w Submission.isPassive := hw [] (List.nil_prefix)
    have hw₁ : (h.dispatcher.act a).OnlyIs w Submission.isPassive := hw [a] (by simp)
    have hws : ∀ front, front <+: as →
        ((h.step a).after front).dispatcher.OnlyIs w Submission.isPassive := fun front hf =>
      hw (a :: front) (List.cons_prefix_cons.mpr ⟨rfl, hf⟩)
    have hc : (h.step a).accepted.count w = h.accepted.count w + (h.dispatcher.admits a).count w :=
      List.count_append
    cases ha : a.isAbout w with
    | true =>
      have hsa := hs.act_alone hr.sound ha hw₀ hw₁
      rw [← hc] at hsa
      obtain ⟨hs', hrep⟩ := ih (hr.step a) hr' hsa hws
      have hwa : without w (a :: as) = without w as := by simp [without, ha]
      rw [hwa]
      exact ⟨hs', by simp [replies, ha, hrep]⟩
    | false =>
      obtain ⟨hsa, hans⟩ := hs.act hr.sound hr'.sound ha hw₁.hasTurn
      rw [count_admits ha, Nat.add_zero] at hc
      rw [← hc] at hsa
      obtain ⟨hs', hrep⟩ := ih (hr.step a) (hr'.step a) hsa hws
      have hwa : without w (a :: as) = a :: without w as := by simp [without, ha]
      rw [hwa]
      exact ⟨hs', by simp [replies, ha, hrep, hans]⟩

theorem Reachable.onlyIs_passive (hr : h.Reachable) {front before later : List (Action ι)}
    {since : Nat} (hw : (h.after before).dispatcher.submission? w = some (.waiting since))
    (hf : front <+: before ++ .drop w :: later) :
    (h.after front).dispatcher.OnlyIs w Submission.isPassive := by
  have early (hb : front <+: before) :
      (h.after front).dispatcher.OnlyIs w Submission.isPassive := by
    refine (hr.onlyIs_early hb ⟨granter?_of_submission? hw, ?_⟩).isPassive
    rw [hw]
    rintro _ ⟨⟩
    rfl
  obtain hb | ⟨rest, rfl⟩ := List.prefix_or_prefix_of_prefix hf (List.prefix_append before _)
  · exact early hb
  · rw [List.prefix_append_right_inj] at hf
    cases rest with
    | nil => exact early (by simp)
    | cons a rest =>
      obtain ⟨rfl, -⟩ := List.cons_prefix_cons.mp hf
      have hd : ((h.after before).step (.drop w)).dispatcher.submission? w =
          some (.ended .dropped) := by
        simp [History.step, act, drop, submission?_eq_some.mp hw, dropSubmission,
          submission?_setSubmission]
      have he := ((hr.after before).step (.drop w)).ended_after hd rest
      rw [after_append]
      refine ⟨granter?_of_submission? he, fun v hv => ?_⟩
      cases Option.some.inj (he.symm.trans hv)
      rfl

end History

open History

variable {ι : Type} [DecidableEq ι] {d d' : Dispatcher ι} {w : ι}

/-- `d` is told from `d'` by no more than a withdrawn `w` leaves behind: its place in the queue, and
after that a note of its withdrawal. -/
structure Unnoticed (w : ι) (d d' : Dispatcher ι) : Prop where
  futures : ∀ j, j ≠ w → d'.futures.get? j = d.futures.get? j
  elements : d'.queue.elements = d.queue.elements.filter (· ≠ w)
  closed : d'.closed = d.closed
  log : d'.log = d.log ∨ ∃ l l', d.log = l ++ Notice.withdrawn.entry d.settings.name :: l' ∧
    d'.log = l ++ l'
  summary : d'.log.filter LogEntry.isSummary = d.log.filter LogEntry.isSummary

theorem Dispatcher.SameBut.unnoticed {n : Nat} (h : SameBut w [] [] n d d') (hn : n ≤ 1) :
    Unnoticed w d d' := by
  have hs := h.settings
  have hlog : d'.log = d.log ∨ ∃ l l', d.log = l ++ Notice.withdrawn.entry d.settings.name :: l' ∧
      d'.log = l ++ l' := by
    obtain ⟨k, hk, hc⟩ := h.notices
    obtain rfl | rfl : k = 0 ∨ k = 1 := by omega
    · obtain ⟨new, hd, hd'⟩ := hk.eq_append
      exact .inl (by rw [Dispatcher.log, Dispatcher.log, hs, hd, hd'])
    · obtain ⟨m, m', hd, hd'⟩ := hk.exists_withdrawn
      let entry := Notice.entry d.settings.name
      refine .inr ⟨m.map entry, m'.map entry, ?_, ?_⟩
      · simp [Dispatcher.log, hd, entry]
      · simp [Dispatcher.log, hd', hs, entry]
  refine ⟨h.futures, h.elements, h.closed, hlog, ?_⟩
  obtain he | ⟨l, l', hd, hd'⟩ := hlog
  · rw [he]
  · simp [hd, hd', LogEntry.isSummary, Notice.entry]

/-- A submission that is dropped while it waits for its turn is not missed by the others: had it
never been made, all that is done to them would come to the same. -/
theorem withdrawal_goes_unnoticed (settings : DispatcherSettings) {since : Nat}
    {before : List (Action ι)}
    (hw : ((fresh settings).after before).dispatcher.submission? w = some (.waiting since))
    (later : List (Action ι)) :
    let run := before ++ .drop w :: later
    (fresh settings).replies (without w run) =
        ((fresh settings).replies run).filter (fun r => !r.1.isAbout w) ∧
      ∀ front, front <+: run → Unnoticed w ((fresh settings).after front).dispatcher
        ((fresh settings).after (without w front)).dispatcher := by
  have hr := Reachable.fresh settings (ι := ι)
  have hs : SameBut w [] [] 0 (fresh settings).dispatcher (fresh settings).dispatcher :=
    ⟨⟨_, _, _, rfl⟩, fun _ _ => rfl, rfl, rfl, rfl, 0, .start, rfl⟩
  refine ⟨(hr.sameBut_without hr hs fun _ hf => hr.onlyIs_passive hw hf).2, fun front hf => ?_⟩
  have hs' := (hr.sameBut_without hr hs fun _ hf' => hr.onlyIs_passive hw (hf'.trans hf)).1
  exact hs'.unnoticed (List.nodup_iff_count_le_one.mp (hr.after front).ledger.nodup w)

/-- The withdrawn one is skipped by the loop that has the next turn to grant. -/
theorem withdrawal_goes_unnoticed_skipped :
    let before := [.run 3, .submit 0, .submit 1, .poll 0, .poll 1, .poll 3]
    let later := [.poll 0, .finish 0 false, .submit 2, .poll 2, .poll 3, .poll 2]
    ((fresh {}).after before).dispatcher.submission? 1 = some (.waiting 0) ∧
      (fresh {}).replies (without 1 (before ++ .drop 1 :: later)) =
        ((fresh {}).replies (before ++ .drop 1 :: later)).filter (fun r => !r.1.isAbout 1) ∧
      ((fresh {}).after (before ++ .drop 1 :: later)).started = [0, 2] :=
  have hw := show ((fresh {}).after
    [.run 3, .submit 0, .submit 1, .poll 0, .poll 1, .poll 3]).dispatcher.submission? 1 =
      some (Submission.waiting 0) by decide
  ⟨hw, (withdrawal_goes_unnoticed {} hw _).1, by decide⟩

end Turnstile
