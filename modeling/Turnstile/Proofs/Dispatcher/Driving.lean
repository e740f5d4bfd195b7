import Turnstile.Proofs.Dispatcher.Settling
import Turnstile.Proofs.Dispatcher.Waiting

namespace Turnstile

theorem eq_of_sublist_of_subset {α : Type} {l l' : List α} (h : l.Sublist l') (hn : l'.Nodup)
    (hs : l' ⊆ l) : l = l' := h.eq_of_length_le (hn.subperm hs).length_le

theorem Future.isLive_of_isUnderWay {f : Future} (h : f.isUnderWay = true) : f.isLive = true := by
  cases f with
  | submission s =>
    cases s with
    | created | ended => cases h
    | _ => rfl
  | granter k s =>
    cases s with
    | created | finished | dropped => cases h
    | _ => rfl

namespace Dispatcher

variable {ι : Type} [DecidableEq ι] {d : Dispatcher ι} {i w : ι} {k : GranterKind}
  {s : GranterState} {a : Action ι}

/-- No callback is being run, and no poll of a live future changes anything. -/
def IsStill (d : Dispatcher ι) : Prop :=
  ∀ e ∈ d.futures.entries, e.2 ≠ .submission .running ∧
    (e.2.isLive = true → (d.poll e.1).1 = d)

instance : Decidable d.IsStill :=
  inferInstanceAs (Decidable (∀ e ∈ d.futures.entries, e.2 ≠ .submission .running ∧
    (e.2.isLive = true → (d.poll e.1).1 = d)))

theorem IsStill.isAtRest (hd : d.IsStill) (hs : d.Sound) : d.IsAtRest := by
  refine IsSettled.isAtRest (fun i hu => ?_) hs fun i hi => ?_
  · obtain ⟨f, hf, hu⟩ : ∃ f, d.futures.get? i = some f ∧ f.isUnderWay = true := by
      simpa [isUnderWay, Option.any_eq_true] using hu
    exact (hd _ (Assoc.mem_of_lookup hf)).2 (Future.isLive_of_isUnderWay hu)
  · exact (hd _ (Assoc.mem_of_lookup (submission?_eq_some.mp hi))).1 rfl

theorem IsStill.ne_created (hd : d.IsStill) (hs : d.Sound) (hi : d.granter? i = some (k, s)) :
    s ≠ .created := by
  rintro rfl
  have hp := (hd _ (Assoc.mem_of_lookup (granter?_eq_some.mp hi))).2 rfl
  have hw := hs.isWoken_pollGranter hi
  rw [← poll_of_granter hi, hp, isWoken_of_granter hi] at hw
  cases hw

def runs (d : Dispatcher ι) : Bool := d.awaited.any fun w => d.submission? w = some .running

theorem Sound.runs_iff (hs : d.Sound) : d.runs = true ↔ ∃ w, d.submission? w = some .running := by
  constructor
  · intro h
    obtain ⟨w, -, hw⟩ : ∃ w, d.awaited = some w ∧ d.submission? w = some .running := by
      simpa [runs, Option.any_eq_true] using h
    exact ⟨w, hw⟩
  · rintro ⟨w, hw⟩
    simp [runs, hs.turn.awaited w _ hw rfl, hw]

def ends (d : Dispatcher ι) : Action ι → Bool
  | .finish i _ => d.submission? i = some .running
  | _ => false

theorem Sound.runs_of_starts (hs : d.Sound) (ha : d.starts a = [i]) :
    d.runs = false ∧ (d.act a).runs = true ∧ d.ends a = false := by
  obtain hn | ⟨j, since, rfl, hp⟩ := hs.starts_cases a
  · rw [hn] at ha
    cases ha
  · obtain ⟨t, hj, -⟩ := called_eq_granted hs (i := j) (w := d.now - since) (by rw [hp]; rfl)
    refine ⟨?_, (hs.act _).runs_iff.mpr ⟨j, ?_⟩, rfl⟩
    · have hawaited : d.awaited = some j := hs.turn.awaited j _ hj rfl
      simp [runs, hawaited, hj]
    · rw [Dispatcher.act, hp, (submission?_startCallback d j since).1, Function.update_self]

theorem Sound.runs_of_ends (hs : d.Sound) (ha : d.ends a = true) :
    d.runs = true ∧ (d.act a).runs = false ∧ d.starts a = [] := by
  cases a with
  | finish i panics =>
    have hi : d.submission? i = some .running := of_decide_eq_true ha
    have hawaited : d.awaited = some i := hs.turn.awaited i _ hi rfl
    refine ⟨hs.runs_iff.mpr ⟨i, hi⟩, ?_, rfl⟩
    have hact : d.act (.finish i panics) =
        d.setSubmission i (.ended (if panics then .panicked else .returned)) := by
      simp [Dispatcher.act, endCallback, hi]
    have hawaited' : (d.act (.finish i panics)).awaited = some i := by rw [hact, ← hawaited]; rfl
    have hsub : (d.act (.finish i panics)).submission? i =
        some (.ended (if panics then .panicked else .returned)) := by
      rw [hact, submission?_setSubmission, Function.update_self]
    simp only [runs, hawaited', Option.any_some, hsub]
    simp
  | _ => cases ha

theorem Sound.runs_act (hs : d.Sound) (hst : d.starts a = []) (he : d.ends a = false)
    (hd : ∀ w, d.submission? w = some .running → a ≠ .drop w) : (d.act a).runs = d.runs := by
  rw [Bool.eq_iff_iff, (hs.act a).runs_iff, hs.runs_iff]
  refine exists_congr fun w => ?_
  have hc := hs.change a w
  constructor
  · intro hw
    rw [hw] at hc
    generalize d.submission? w = u at hc ⊢
    cases hc with
    | same => rfl
    | called hp => simp [starts, hp] at hst
  · intro hw
    have hd' := hd w hw
    have hfin (panics : Bool) : a ≠ .finish w panics := by
      rintro rfl
      simp [ends, hw] at he
    rw [hw] at hc
    generalize (d.act a).submission? w = v at hc ⊢
    cases hc with
    | same => rfl
    | finished panics => exact (hfin panics rfl).elim
    | withdrawn => exact (hd' rfl).elim

theorem ne_created_setSubmission (hn : ∀ w, d.submission? w ≠ some .created) {v : Submission}
    (hv : v ≠ .created) (w : ι) : (d.setSubmission i v).submission? w ≠ some .created := by
  rw [submission?_setSubmission]
  intro hw
  obtain ⟨-, rfl⟩ | ⟨-, hw⟩ := update_eq_some.mp hw
  · exact hv rfl
  · exact hn w hw

theorem ne_created_create (hn : ∀ w, d.submission? w ≠ some .created) (k : GranterKind) (w : ι) :
    (d.unlessTaken i (d.create i (.granter k .created))).submission? w ≠ some .created := by
  obtain h | ⟨hi, h⟩ := d.unlessTaken_eq i (.granter k .created)
  · rw [h]
    exact hn w
  · change _ = d.setGranter i k .created at h
    rw [h, submission?_setGranter (submission?_of_get? hi)]
    exact hn w

theorem ne_created_drop (hn : ∀ w, d.submission? w ≠ some .created) (w : ι) :
    (d.drop i).submission? w ≠ some .created := by
  unfold drop
  cases hf : d.futures.get? i with
  | none => exact hn w
  | some f =>
    cases f with
    | submission v =>
      cases v with
      | created | waiting | granted => exact ne_created_setSubmission hn (by simp) w
      | entering | running | ended => exact hn w
    | granter k s =>
      dsimp only
      rw [submission?_dropGranter (granter?_eq_some.mpr hf)]
      exact hn w

theorem Sound.ne_created_poll (hs : d.Sound) (hn : ∀ w, d.submission? w ≠ some .created) (w : ι) :
    (d.poll i).1.submission? w ≠ some .created := by
  cases hf : d.futures.get? i with
  | none =>
    rw [poll_of_get?_eq_none hf]
    exact hn w
  | some f =>
    cases f with
    | submission v =>
      have hi := submission?_eq_some.mpr hf
      cases v with
      | created => exact (hn i hi).elim
      | entering since =>
        have := hs.turn.regular i _ hi
        simp [Submission.isRegular] at this
      | waiting since =>
        rw [poll_of_waiting hs hi]
        exact hn w
      | granted since =>
        rw [poll_of_granted hi, (submission?_startCallback d i since).1,
          ← submission?_setSubmission]
        exact ne_created_setSubmission hn (by simp) w
      | running =>
        rw [poll_of_running hi]
        exact hn w
      | ended how =>
        rw [poll_of_ended hi]
        exact hn w
    | granter k s =>
      have hi := granter?_eq_some.mpr hf
      have hch := (pollGranter_spec hs hi).1
      rw [← poll_of_granter hi] at hch
      obtain h | ⟨t, -, h⟩ := hch.submission?_cases w
      · rw [h]
        exact hn w
      · simp [h]

theorem Sound.ne_created_act (hs : d.Sound) (hn : ∀ w, d.submission? w ≠ some .created)
    (ha : ∀ i, a ≠ .submit i) (w : ι) : (d.act a).submission? w ≠ some .created := by
  cases a with
  | submit i => exact (ha i rfl).elim
  | run i => exact ne_created_create hn .loop w
  | close i => exact ne_created_create hn .closer w
  | poll i => exact hs.ne_created_poll hn w
  | drop i => exact ne_created_drop hn w
  | advance ns => exact hn w
  | finish i panics =>
    rw [Dispatcher.act, endCallback]
    split
    · exact ne_created_setSubmission hn (by simp) w
    · exact hn w

end Dispatcher

open Dispatcher

namespace History

variable {ι : Type} [DecidableEq ι] {h : History ι} {i : ι} {k : GranterKind} {s : GranterState}

theorem Reachable.isOver_of_still (hr : h.Reachable) (hd : h.dispatcher.IsStill)
    (hi : h.dispatcher.granter? i = some (k, s)) (hs : s ≠ .dropped) :
    ∀ j ∈ h.accepted, h.IsOver j := by
  have hc := hd.ne_created hr.sound hi
  by_cases hu : s.isUnderWay = true
  · have hrest := hd.isAtRest hr.sound
    obtain ⟨j, k', s', hh, hj, hu'⟩ := hr.sound.exists_holder hi hu
    obtain ⟨hq, hn, -⟩ := hr.sound.holder_at_rest hrest hh hj hu'
    exact fun j hj => hr.isOver hj (by simp [hq]) (hr.sound.hasTurn_of_awaited hn j)
  · obtain rfl : s = .finished := by
      cases s with
      | finished => rfl
      | created => exact (hc rfl).elim
      | dropped => exact (hs rfl).elim
      | locking | retiring | popping | draining => exact (hu rfl).elim
    exact fun j hj => hr.isOver_of_drained (hr.sound.phase.finished i k hi) hj

theorem IsOver.mem_started (ho : h.IsOver i)
    (hd : h.dispatcher.submission? i ≠ some (.ended .dropped)) : i ∈ h.started := by
  obtain hdrop | ⟨hst, -⟩ := ho
  · exact (hd hdrop).elim
  · exact hst

/-- If nobody withdraws, the callbacks started so far are those of the first to be accepted. -/
theorem Reachable.started_prefix (hr : h.Reachable)
    (hd : ∀ i ∈ h.accepted, h.dispatcher.submission? i ≠ some (.ended .dropped)) :
    h.started <+: h.accepted := by
  obtain ⟨gone, hacc, hst, hturn⟩ := hr.ledger.split
  have hnd : (gone ++ h.dispatcher.queue.elements).Nodup := hacc ▸ hr.ledger.nodup
  obtain ⟨hng, -, hdis⟩ := List.nodup_append.mp hnd
  -- who has left the queue without having the turn has started
  have through (i : ι) (hi : i ∈ gone) (ht : h.dispatcher.hasTurn i = false) : i ∈ h.started := by
    have ha : i ∈ h.accepted := hacc ▸ List.mem_append_left _ hi
    have hq : i ∉ h.dispatcher.queue.elements := fun hm => hdis i hi i hm rfl
    exact (hr.isOver ha hq ht).mem_started (hd i ha)
  rw [hacc]
  refine List.IsPrefix.trans ?_ (List.prefix_append _ _)
  by_cases ht : ∃ i, h.dispatcher.hasTurn i = true
  · obtain ⟨i, hi⟩ := ht
    obtain ⟨v, hv, hvt⟩ := hasTurn_iff.mp hi
    obtain ⟨front, rfl⟩ := hturn i v hv hvt
    obtain ⟨hnf, -, hdf⟩ := List.nodup_append.mp hng
    obtain ⟨l, l', hl, hlf, hl'⟩ := List.sublist_append_iff.mp hst
    have hfront : front ⊆ l := by
      intro j hj
      have hne : j ≠ i := hdf j hj i List.mem_cons_self
      have hjt : h.dispatcher.hasTurn j = false := by
        apply Bool.eq_false_iff.mpr
        intro hjt
        have haj := hr.sound.awaited_of_hasTurn hjt
        exact hne (Option.some.inj (haj.symm.trans (hr.sound.awaited_of_hasTurn hi)))
      have hj' := through j (List.mem_append_left _ hj) hjt
      rw [hl, List.mem_append] at hj'
      exact hj'.resolve_right fun hm => hne (List.mem_singleton.mp (hl'.subset hm))
    rw [hl, eq_of_sublist_of_subset hlf hnf hfront, List.prefix_append_right_inj]
    obtain rfl | rfl := List.sublist_singleton.mp hl'
    · exact List.nil_prefix
    · exact List.prefix_rfl
  · have hall : gone ⊆ h.started := fun j hj =>
      through j hj (Bool.eq_false_iff.mpr fun hj => ht ⟨j, hj⟩)
    rw [eq_of_sublist_of_subset hst hng hall]

theorem Reachable.enter_new (hr : h.Reachable) (hi : h.dispatcher.futures.get? i = none)
    (hc : h.dispatcher.closed = false) :
    let h' := (h.step (.submit i)).step (.poll i)
    (h.dispatcher.submit i).poll i = (h'.dispatcher, .pending) ∧
      h'.accepted = h.accepted ++ [i] ∧ h'.started = h.started ∧
      h'.dispatcher.queue.elements = h.dispatcher.queue.elements ++ [i] ∧
      h'.dispatcher.futures =
        h.dispatcher.futures.put i (.submission (.waiting h.dispatcher.now)) ∧
      h'.dispatcher.closed = false := by
  intro h'
  have hsubmit : (h.step (.submit i)).dispatcher = h.dispatcher.submit i := by
    simp [History.step, Dispatcher.act, unlessTaken, Table.contains, hi]
  have hcreated : (h.dispatcher.submit i).submission? i = some .created := by
    simp [submission?, submit, create, Table.get?_put]
  have hr₁ := hr.step (.submit i)
  have hp := poll_of_created_open (hsubmit ▸ hr₁.sound) hcreated hc
  obtain ⟨-, haccepted, hqueued⟩ := hr₁.let_in (hsubmit ▸ hcreated) (hsubmit ▸ hc)
  have hd : h'.dispatcher = (h.dispatcher.submit i).accept i := by
    change ((h.step (.submit i)).dispatcher.poll i).1 = _
    rw [hsubmit, hp]
  refine ⟨?_, ?_, ?_, ?_, ?_, ?_⟩
  · rw [hp, hd]
  · rw [haccepted]
    exact congrArg (· ++ [i]) (List.append_nil h.accepted)
  · have hst : (h.step (.submit i)).dispatcher.starts (.poll i) = [] := by
      rw [hsubmit]
      exact starts_eq_nil (by simp [hp])
    change (h.started ++ []) ++ (h.step (.submit i)).dispatcher.starts (.poll i) = _
    rw [hst, List.append_nil, List.append_nil]
  · rw [hqueued, hsubmit]
    rfl
  · rw [hd]
    exact Table.put_put _ _ _ _
  · rw [hd]
    exact hc

end History

end Turnstile
