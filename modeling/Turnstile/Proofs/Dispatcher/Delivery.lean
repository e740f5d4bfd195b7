import Turnstile.Proofs.Dispatcher.Ledger

namespace Turnstile

namespace Dispatcher

variable {ι : Type} [DecidableEq ι] {d : Dispatcher ι} {i : ι} {k : GranterKind}
  {s : GranterState}

theorem submission?_dropGranter (hi : d.granter? i = some (k, s)) :
    (d.dropGranter i k s).submission? = d.submission? := by
  have hn := submission?_setGranter (submission?_of_granter? hi) k .dropped
  cases s with
  | finished | dropped => rfl
  | _ => exact hn

theorem elements_dropGranter (d : Dispatcher ι) (i : ι) (k : GranterKind) (s : GranterState) :
    (d.dropGranter i k s).queue.elements = d.queue.elements := by
  cases s with
  | popping => simp [dropGranter, Queue.leave]
  | _ => rfl

theorem submission?_startCallback (d : Dispatcher ι) (i : ι) (since : Nat) :
    (d.startCallback i since).1.submission? = Function.update d.submission? i (some .running) ∧
      (d.startCallback i since).1.queue = d.queue := by
  obtain h | ⟨ms, h⟩ := startCallback_fst d i since
  · rw [h, submission?_setSubmission]
    exact ⟨rfl, rfl⟩
  · rw [h, submission?_setSubmission]
    exact ⟨rfl, rfl⟩

theorem Effect.ledger {a : Action ι} {acc st : List ι} (he : Effect d a) (hs : d.Sound)
    (hl : Ledger d.submission? d.queue.elements acc st) :
    Ledger (d.act a).submission? (d.act a).queue.elements (acc ++ d.admits a)
      (st ++ d.starts a) := by
  -- an action accepts nobody and starts nothing, with one exception each
  have silent (ha : d.admits a = []) (hst : d.starts a = [])
      (hl' : Ledger (d.act a).submission? (d.act a).queue.elements acc st) :
      Ledger (d.act a).submission? (d.act a).queue.elements (acc ++ d.admits a)
        (st ++ d.starts a) := by
    rwa [ha, hst, List.append_nil, List.append_nil]
  cases he with
  | still h ha hst =>
    refine silent ha hst ?_
    rwa [h]
  | advances ns => exact silent rfl rfl hl
  | @creates _ i f hi hf h ha hst =>
    refine silent ha hst ?_
    have hn := submission?_of_get? hi
    rw [h]
    rcases hf with rfl | ⟨k, rfl⟩
    · have hl' := hl.create hn
      rwa [← submission?_setSubmission] at hl'
    · rwa [← submission?_setGranter hn k .created] at hl
  | rejects hi hc hp =>
    refine silent (by simp [Dispatcher.admits, hc]) (by simp [Dispatcher.starts, hp]) ?_
    simp only [act, hp, submission?_setSubmission]
    exact hl.set hi (by simp [Submission.hasTurn]) (fun _ => rfl) (by simp [Submission.isIn]) rfl
  | @admits i hi hc hp =>
    have ha : d.admits (.poll i) = [i] := by simp [Dispatcher.admits, hi, hc]
    have hst : d.starts (.poll i) = [] := by simp [Dispatcher.starts, hp]
    have hl' := hl.accept hi d.now
    rw [← submission?_setSubmission] at hl'
    rw [ha, hst, List.append_nil]
    simp only [act, hp]
    exact hl'
  | @starts i since hi hp =>
    obtain ⟨hsub, hq⟩ := submission?_startCallback d i since
    have ha : d.admits (.poll i) = [] := by simp [Dispatcher.admits, hi]
    have hst : d.starts (.poll i) = [i] := by simp [Dispatcher.starts, hp, startCallback]
    rw [ha, hst, List.append_nil]
    simp only [act, hp, hsub, hq]
    exact hl.call hi
  | @finishes i panics hi h =>
    refine silent rfl rfl ?_
    rw [h, submission?_setSubmission]
    cases panics <;>
      exact hl.set hi (by simp [Submission.hasTurn]) (by simp [Submission.isOut]) (fun _ => rfl) rfl
  | withdraws hi hw h =>
    refine silent rfl rfl ?_
    rw [h, submission?_setSubmission]
    refine hl.set hi (by simp [Submission.hasTurn]) (by simp [Submission.isOut])
      (by simp [Submission.isIn]) ?_
    rcases hw with rfl | ⟨t, rfl | rfl⟩ <;> rfl
  | @polls i k s hi hc ho =>
    have hw : ∀ w, (d.poll i).2 ≠ .called w := by
      intro w
      rcases ho with ho | ⟨hp, -⟩
      · exact ho.ne_called w
      · simp [hp]
    have ha : d.admits (.poll i) = [] := by simp [Dispatcher.admits, submission?_of_granter? hi]
    exact silent ha (starts_eq_nil hw) (hc.ledger hs hl)
  | drops hi h =>
    refine silent rfl rfl ?_
    rwa [h, submission?_dropGranter hi, elements_dropGranter]

inductive Change (d : Dispatcher ι) (i : ι) :
    Action ι → Option Submission → Option Submission → Prop where
  | same {a : Action ι} {s : Option Submission} : Change d i a s s
  | created {a : Action ι} : Change d i a none (some .created)
  | rejected (hc : d.closed = true) :
      Change d i (.poll i) (some .created) (some (.ended .rejected))
  | accepted {t : Nat} (hc : d.closed = false) :
      Change d i (.poll i) (some .created) (some (.waiting t))
  | granted {j : ι} {t : Nat} (hj : d.submission? j = none) :
      Change d i (.poll j) (some (.waiting t)) (some (.granted t))
  | called {t w : Nat} (hw : (d.poll i).2 = .called w) :
      Change d i (.poll i) (some (.granted t)) (some .running)
  | finished (panics : Bool) : Change d i (.finish i panics) (some .running)
      (some (.ended (if panics then .panicked else .returned)))
  | withdrawn {s : Submission} (hs : s.isLive = true) :
      Change d i (.drop i) (some s) (some (.ended .dropped))

theorem Change.update {a : Action ι} {j : ι} {u : Option Submission} {v : Submission}
    (hj : d.submission? j = u) (hc : Change d j a u (some v)) (i : ι) :
    Change d i a (d.submission? i) (Function.update d.submission? j (some v) i) := by
  by_cases hij : i = j
  · subst i
    rwa [Function.update_self, hj]
  · rw [Function.update_of_ne hij]
    exact .same

theorem Sound.change (hs : d.Sound) (a : Action ι) (i : ι) :
    Change d i a (d.submission? i) ((d.act a).submission? i) := by
  cases effect hs a with
  | still h =>
    rw [h]
    exact .same
  | advances ns => exact .same
  | @creates _ j f hj hf h =>
    rw [h]
    rcases hf with rfl | ⟨k, rfl⟩
    · change Change d i a _ ((d.setSubmission j .created).submission? i)
      rw [submission?_setSubmission]
      exact .update (submission?_of_get? hj) .created i
    · change Change d i a _ ((d.setGranter j k .created).submission? i)
      rw [submission?_setGranter (submission?_of_get? hj)]
      exact .same
  | rejects hj hc hp =>
    simp only [Dispatcher.act, hp]
    rw [submission?_setSubmission]
    exact .update (d := d) hj (.rejected hc) i
  | @admits j hj hc hp =>
    simp only [Dispatcher.act, hp]
    change Change d i _ _ ((d.setSubmission j (.waiting d.now)).submission? i)
    rw [submission?_setSubmission]
    exact .update hj (.accepted hc) i
  | @starts j since hj hp =>
    have hw : (d.poll j).2 = .called (d.now - since) := by rw [hp]; rfl
    simp only [Dispatcher.act, hp]
    rw [(submission?_startCallback d j since).1]
    exact .update hj (.called hw) i
  | finishes hj h =>
    rw [h, submission?_setSubmission]
    exact .update hj (.finished _) i
  | withdraws hj hl h =>
    rw [h, submission?_setSubmission]
    refine .update hj (.withdrawn ?_) i
    rcases hl with rfl | ⟨t, rfl | rfl⟩ <;> rfl
  | polls hj hc _ =>
    obtain h | ⟨t, hw, hg⟩ := hc.submission?_cases i
    · simp only [Dispatcher.act, h]
      exact .same
    · simp only [Dispatcher.act, hw, hg]
      exact .granted (submission?_of_granter? hj)
  | drops hj h =>
    rw [h, submission?_dropGranter hj]
    exact .same

theorem Sound.submission?_act_of_ended (hs : d.Sound) {how : Ending}
    (hi : d.submission? i = some (.ended how)) (a : Action ι) :
    (d.act a).submission? i = some (.ended how) := by
  have hc := hs.change a i
  rw [hi] at hc
  generalize (d.act a).submission? i = v at hc ⊢
  cases hc with
  | same => rfl
  | withdrawn hl => cases hl

end Dispatcher

open Dispatcher

namespace History

variable {ι : Type} [DecidableEq ι] {h : History ι} {i j : ι}

/-- Its callback has run, to its end or to a panic, or it was dropped before. -/
def IsOver (h : History ι) (i : ι) : Prop :=
  h.dispatcher.submission? i = some (.ended .dropped) ∨
    i ∈ h.started ∧ (h.dispatcher.submission? i = some (.ended .returned) ∨
      h.dispatcher.submission? i = some (.ended .panicked))

theorem ledger_fresh (settings : DispatcherSettings) :
    Ledger (fresh settings : History ι).dispatcher.submission? [] [] [] := by
  have hn : ∀ i : ι, (fresh settings : History ι).dispatcher.submission? i = none := by
    simp [fresh, submission?, Table.get?]
  refine ⟨⟨[], rfl, List.nil_sublist _, ?_⟩, List.nodup_nil, fun i => ⟨?_, ?_, ?_⟩⟩
  · intro i s hi
    simp [hn] at hi
  · simp
  · simp [hn]
  · simp [hn]

theorem Reachable.ledger (hr : h.Reachable) :
    Ledger h.dispatcher.submission? h.dispatcher.queue.elements h.accepted h.started := by
  induction hr with
  | fresh settings => exact ledger_fresh settings
  | step a hr ih => exact (effect hr.sound a).ledger hr.sound ih

theorem Reachable.isOver (hr : h.Reachable) (hi : i ∈ h.accepted)
    (hq : i ∉ h.dispatcher.queue.elements) (ht : h.dispatcher.hasTurn i = false) : h.IsOver i := by
  have hrec := hr.ledger.recorded i
  obtain ⟨s, hs, ho⟩ := hrec.notOut hi
  have hst : s.hasStarted = true → i ∈ h.started := fun hst => hrec.hasStarted.mpr ⟨s, hs, hst⟩
  have hn : s.hasTurn ≠ true := fun hn => by simp [hasTurn_iff.mpr ⟨s, hs, hn⟩] at ht
  cases s with
  | created | entering => cases ho
  | waiting since => exact (hq (hr.sound.turn.queued i since hs)).elim
  | granted | running => exact (hn rfl).elim
  | ended how =>
    cases how with
    | returned => exact .inr ⟨hst rfl, .inl hs⟩
    | panicked => exact .inr ⟨hst rfl, .inr hs⟩
    | dropped => exact .inl hs
    | rejected | stranded | abandoned => cases ho

theorem Reachable.isOver_before (hr : h.Reachable) {w : Nat}
    (hw : (h.dispatcher.poll i).2 = .called w) :
    ∃ before after, h.accepted = before ++ i :: after ∧ ∀ j ∈ before, h.IsOver j := by
  obtain ⟨since, hi, -⟩ := called_eq_granted hr.sound hw
  obtain ⟨gone, hacc, -, hturn⟩ := hr.ledger.split
  obtain ⟨front, rfl⟩ := hturn i _ hi rfl
  have hacc' : h.accepted = front ++ i :: h.dispatcher.queue.elements := by simp [hacc]
  refine ⟨front, _, hacc', fun j hj => ?_⟩
  obtain ⟨-, -, hdis⟩ := List.nodup_append.mp (hacc' ▸ hr.ledger.nodup)
  have hji : j ≠ i := hdis j hj i List.mem_cons_self
  have hjq : j ∉ h.dispatcher.queue.elements := fun hm =>
    hdis j hj j (List.mem_cons_of_mem i hm) rfl
  have hjt : h.dispatcher.hasTurn j = false := by
    apply Bool.eq_false_iff.mpr
    intro ht
    have haj := hr.sound.awaited_of_hasTurn ht
    have hai := hr.sound.turn.awaited i _ hi rfl
    exact hji (Option.some.inj (haj.symm.trans hai))
  exact hr.isOver (by simp [hacc', hj]) hjq hjt

theorem Reachable.poll_ne_ready (hr : h.Reachable) (hi : i ∈ h.accepted) :
    (h.dispatcher.poll i).2 ≠ .ready := by
  obtain ⟨s, hs, ho⟩ := (hr.ledger.recorded i).notOut hi
  cases s with
  | created | entering => cases ho
  | waiting since => simp [poll_of_waiting hr.sound hs]
  | granted since => simp [poll_of_granted hs, startCallback]
  | running => simp [poll_of_running hs]
  | ended how => simp [poll_of_ended hs]

theorem Reachable.ends (hr : h.Reachable) (hi : i ∈ h.accepted) {a : Action ι} {how : Ending}
    (he : (h.step a).dispatcher.submission? i = some (.ended how)) :
    h.dispatcher.submission? i = some (.ended how) ∨ a = .drop i ∧ how = .dropped ∨
      h.dispatcher.submission? i = some .running ∧
        ∃ panics, a = .finish i panics ∧ how = if panics then .panicked else .returned := by
  obtain ⟨s, hs, ho⟩ := (hr.ledger.recorded i).notOut hi
  have hc : Change h.dispatcher i a (h.dispatcher.submission? i)
    ((h.step a).dispatcher.submission? i) := hr.sound.change a i
  rw [hs, he] at hc
  rw [hs]
  cases hc with
  | same => exact .inl rfl
  | rejected => cases ho
  | finished panics => exact .inr (.inr ⟨rfl, panics, rfl, rfl⟩)
  | withdrawn => exact .inr (.inl ⟨rfl, rfl⟩)

theorem Reachable.runs (hr : h.Reachable) {a : Action ι}
    (he : (h.step a).dispatcher.submission? i = some .running) :
    h.dispatcher.submission? i = some .running ∨
      a = .poll i ∧ ∃ w, (h.dispatcher.poll i).2 = .called w := by
  have hc : Change h.dispatcher i a (h.dispatcher.submission? i)
    ((h.step a).dispatcher.submission? i) := hr.sound.change a i
  rw [he] at hc
  generalize h.dispatcher.submission? i = u at hc ⊢
  cases hc with
  | same => exact .inl rfl
  | called hw => exact .inr ⟨rfl, _, hw⟩

theorem Reachable.ended_after (hr : h.Reachable) {how : Ending}
    (hi : h.dispatcher.submission? i = some (.ended how)) (as : List (Action ι)) :
    (h.after as).dispatcher.submission? i = some (.ended how) := by
  induction as generalizing h with
  | nil => exact hi
  | cons a as ih => exact ih (hr.step a) (hr.sound.submission?_act_of_ended hi a)

theorem Reachable.turned_away (hr : h.Reachable) (hi : h.dispatcher.submission? i = some .created)
    (hc : h.dispatcher.closed = true) (as : List (Action ι)) :
    let h' := (h.step (.poll i)).after as
    i ∉ h'.accepted ∧ i ∉ h'.started ∧ i ∉ h'.dispatcher.queue.elements := by
  have hr₁ := hr.step (.poll i)
  have hi₁ : (h.step (.poll i)).dispatcher.submission? i = some (.ended .rejected) := by
    simp [History.step, act, poll_of_created_closed hi hc, submission?_setSubmission]
  have hl := (hr₁.after as).ledger
  have hn := hl.not_mem_of_isOut (hr₁.ended_after hi₁ as) rfl
  exact ⟨hn, fun hm => hn (hl.sublist.subset hm), fun hm => hn (hl.mem_accepted_of_queued hm)⟩

theorem Reachable.let_in (hr : h.Reachable) (hi : h.dispatcher.submission? i = some .created)
    (hc : h.dispatcher.closed = false) :
    (h.dispatcher.poll i).2 = .pending ∧ (h.step (.poll i)).accepted = h.accepted ++ [i] ∧
      (h.step (.poll i)).dispatcher.queue.elements = h.dispatcher.queue.elements ++ [i] := by
  have hp := poll_of_created_open hr.sound hi hc
  refine ⟨by rw [hp], by simp [History.step, admits, hi, hc], ?_⟩
  simp [History.step, act, hp, Dispatcher.accept, Queue.push]

end History

open History

variable {ι : Type} [DecidableEq ι] {h : History ι}

/-- Callbacks start in the order in which their submissions were accepted, each at most once, and
only when all those before are over. An accepted submission ends with its callback or by being
dropped, and one that finds the door shut is never let in. -/
theorem delivery_in_order (hr : h.Reachable) :
    (h.accepted.Nodup ∧ h.started.Nodup ∧ h.started.Sublist h.accepted) ∧
    (∀ i w, (h.dispatcher.poll i).2 = .called w →
      ∃ before after, h.accepted = before ++ i :: after ∧ ∀ j ∈ before, h.IsOver j) ∧
    (∀ i ∈ h.accepted, (h.dispatcher.poll i).2 ≠ .ready ∧
      ∀ a how, (h.step a).dispatcher.submission? i = some (.ended how) →
        h.dispatcher.submission? i = some (.ended how) ∨ a = .drop i ∧ how = .dropped ∨
          h.dispatcher.submission? i = some .running ∧
            ∃ panics, a = .finish i panics ∧ how = if panics then .panicked else .returned) ∧
    (∀ i a, (h.step a).dispatcher.submission? i = some .running →
      h.dispatcher.submission? i = some .running ∨
        a = .poll i ∧ ∃ w, (h.dispatcher.poll i).2 = .called w) ∧
    .stranded ∉ h.dispatcher.notices ∧
    ∀ i, h.dispatcher.submission? i = some .created →
      (h.dispatcher.closed = false →
        (h.dispatcher.poll i).2 = .pending ∧ (h.step (.poll i)).accepted = h.accepted ++ [i] ∧
          (h.step (.poll i)).dispatcher.queue.elements = h.dispatcher.queue.elements ++ [i]) ∧
      (h.dispatcher.closed = true → ∀ as,
        let h' := (h.step (.poll i)).after as
        i ∉ h'.accepted ∧ i ∉ h'.started ∧ i ∉ h'.dispatcher.queue.elements) := by
  have hl := hr.ledger
  refine ⟨⟨hl.nodup, hl.nodup.sublist hl.sublist, hl.sublist⟩, ?_, ?_, ?_, hr.sound.log.stranded,
    fun i hi => ⟨hr.let_in hi, hr.turned_away hi⟩⟩
  · intro i w hw
    exact hr.isOver_before hw
  · intro i hi
    exact ⟨hr.poll_ne_ready hi, fun a how he => hr.ends hi he⟩
  · intro i a he
    exact hr.runs he

/-- The second of two submissions gets its turn after the first was dropped with the turn. -/
theorem delivery_in_order_withdrawn :
    let h := (fresh {}).after
      [.submit 0, .submit 1, .poll 0, .poll 1, .run 2, .poll 2, .drop 0, .poll 2]
    (h.dispatcher.poll 1).2 = .called 0 ∧
      ∃ before after, h.accepted = before ++ 1 :: after ∧ ∀ j ∈ before, h.IsOver j :=
  have hr := (Reachable.fresh {}).after
    [.submit 0, .submit 1, .poll 0, .poll 1, .run 2, .poll 2, .drop 0, .poll 2]
  ⟨by decide, (delivery_in_order hr).2.1 1 0 (by decide)⟩

end Turnstile
