import Turnstile.Proofs.Dispatcher.Prospect
import Turnstile.Proofs.Dispatcher.Waking

namespace Turnstile

/-- The callbacks that are started in a run of polls, with the time that each has waited. -/
def calls {ι : Type} (ps : List (ι × Progress)) : List (ι × Nat) :=
  ps.filterMap fun p =>
    match p.2 with
    | .called w => some (p.1, w)
    | _ => none

def completions {ι : Type} (ps : List (ι × Progress)) : List ι :=
  (ps.filter fun p => p.2 ≠ .pending).map Prod.fst

namespace Dispatcher

variable {ι : Type} [DecidableEq ι] {d d' d'' : Dispatcher ι} {i : ι} {k : GranterKind}
  {s : GranterState} {ps qs : List (ι × Progress)}

def isUnderWay (d : Dispatcher ι) (i : ι) : Bool := (d.futures.get? i).any Future.isUnderWay

/-- No poll of a future that is under way changes anything. -/
def IsSettled (d : Dispatcher ι) : Prop := ∀ i, d.isUnderWay i = true → (d.poll i).1 = d

instance [Fintype ι] (d : Dispatcher ι) : Decidable d.IsSettled :=
  inferInstanceAs (Decidable (∀ i, d.isUnderWay i = true → (d.poll i).1 = d))

def WillEnd (d : Dispatcher ι) (i : ι) : Prop :=
  i ∈ d.due.map Prod.fst ∨
    d.closed = true ∧ ∃ k s, d.granter? i = some (k, s) ∧ s.isUnderWay = true

/-- From `d` the polls `ps` have led to `d'`. What was to come from `d` on is what they have brought
and what is still to come. -/
structure Foreseen (d : Dispatcher ι) (ps : List (ι × Progress)) (d' : Dispatcher ι) : Prop where
  settings : d'.settings = d.settings
  idle : ∀ x, d'.submission? x ≠ some .running
  due : d.due = calls ps ++ d'.due
  closings : d.closings d.grantedSoFar = d'.closings d'.grantedSoFar
  willEnd : ∀ x, d.WillEnd x ↔ x ∈ completions ps ∨ d'.WillEnd x

namespace Foreseen

theorem refl (hn : ∀ x, d.submission? x ≠ some .running) : Foreseen d [] d where
  settings := rfl
  idle := hn
  due := rfl
  closings := rfl
  willEnd x := by simp [completions]

theorem trans (h : Foreseen d ps d') (h' : Foreseen d' qs d'') : Foreseen d (ps ++ qs) d'' where
  settings := h'.settings.trans h.settings
  idle := h'.idle
  due := by rw [h.due, h'.due, calls, calls, calls, List.filterMap_append, List.append_assoc]
  closings := h.closings.trans h'.closings
  willEnd x := by
    rw [h.willEnd, h'.willEnd, completions, completions, completions, List.filter_append,
      List.map_append, List.mem_append, or_assoc]

theorem still (hn : ∀ x, d.submission? x ≠ some .running) (i : ι) :
    Foreseen d [(i, .pending)] d where
  settings := rfl
  idle := hn
  due := rfl
  closings := rfl
  willEnd x := by simp [completions]

end Foreseen

def restless (d : Dispatcher ι) : Nat :=
  match d.baton.holder with
  | none => 0
  | some i => if (d.poll i).1 = d then 0 else 1

theorem restless_le (d : Dispatcher ι) : d.restless ≤ 1 := by
  unfold restless
  split
  · exact Nat.zero_le 1
  · split <;> omega

/-- How many more polls can change anything, at most. -/
def toGo (d : Dispatcher ι) : Nat := 2 * d.remaining + d.restless

theorem toGo_lt (h : d'.remaining < d.remaining) : d'.toGo < d.toGo := by
  have hle := d'.restless_le
  simp only [toGo]
  omega

theorem foreseen_call (hs : d.Sound) (hn : ∀ x, d.submission? x ≠ some .running) {since : Nat}
    (hi : d.submission? i = some (.granted since)) (how : Ending) :
    Foreseen d [(i, .called (d.now - since))]
        ((d.startCallback i since).1.setSubmission i (.ended how)) ∧
      ((d.startCallback i since).1.setSubmission i (.ended how)).remaining < d.remaining := by
  have ha : d.awaited = some i := hs.turn.awaited i _ hi rfl
  -- only the state of `i` changes, so all that is to come is as before but for its own call
  generalize he : (d.startCallback i since).1.setSubmission i (.ended how) = e
  have hsub : e.submission? = Function.update d.submission? i (some (.ended how)) := by
    rw [← he, submission?_setSubmission, (submission?_startCallback d i since).1,
      Function.update_idem]
  have hgr : e.granter? = d.granter? := by
    funext x
    by_cases hx : x = i
    · subst x
      have hie : e.submission? i = some (.ended how) := by simp [hsub]
      rw [granter?_of_submission? hie, granter?_of_submission? hi]
    · subst e
      obtain h | ⟨ms, h⟩ := startCallback_fst d i since <;>
        simp [h, granter?, setSubmission, note, Table.get?_put, Ne.symm hx]
  obtain ⟨hse, hqe, hae, hbe, hce, hde, hnow, hle⟩ : e.settings = d.settings ∧
      e.queue = d.queue ∧ e.awaited = d.awaited ∧ e.baton = d.baton ∧ e.closed = d.closed ∧
      e.drained = d.drained ∧ e.now = d.now ∧
      e.notices.filter Notice.isClosing = d.notices.filter Notice.isClosing := by
    subst e
    obtain h | ⟨ms, h⟩ := startCallback_fst d i since <;> rw [h]
    · exact ⟨rfl, rfl, rfl, rfl, rfl, rfl, rfl, rfl⟩
    · refine ⟨rfl, rfl, rfl, rfl, rfl, rfl, rfl, ?_⟩
      simp [setSubmission, note, Notice.isClosing]
  have hwait : e.waiting = d.waiting := by
    have hcall : e.callOf = d.callOf := by
      funext x
      by_cases hx : x = i
      · subst x
        simp [callOf, hsub, hi]
      · simp [callOf, hsub, hx, hnow]
    rw [waiting, waiting, hcall, hqe]
  have hdue : d.due = (i, d.now - since) :: e.due := by
    simp [due, outstanding, ha, hae, hi, hsub, hbe, hwait]
  refine ⟨⟨hse, fun x hx => ?_, hdue, ?_, fun x => ?_⟩, ?_⟩
  · by_cases hxi : x = i
    · subst x
      simp [hsub] at hx
    · rw [hsub, Function.update_of_ne hxi] at hx
      exact hn x hx
  · simp [closings, grantedSoFar, hle, hce, hde, hbe, hwait, hgr]
  · simp [WillEnd, hdue, hce, hgr, completions, or_assoc]
  · have hleft : d.turnLeft = 2 := by simp [turnLeft, ha, hasTurn, hi]
    have hleft' : e.turnLeft = 1 := by simp [turnLeft, hae, ha, hasTurn, hsub]
    simp only [remaining, hbe, hqe, hleft, hleft']
    omega

theorem Onward.willEnd {r : Dispatcher ι × Progress} {n m : Nat} (h : Onward i n d m r.1)
    (ho : Outcome i k r) (hs : r.1.Sound) (hi : d.granter? i = some (k, s))
    (hu : s.isUnderWay = true) (x : ι) :
    d.WillEnd x ↔ x ∈ completions [(i, r.2)] ∨ r.1.WillEnd x := by
  have pending {d' : Dispatcher ι} {s' : GranterState} (h : Onward i n d m d')
      (hi' : d'.granter? i = some (k, s')) (hu' : s'.isUnderWay = true) :
      d.WillEnd x ↔ x ∈ completions [(i, .pending)] ∨ d'.WillEnd x := by
    by_cases hx : x = i
    · subst x
      simp [WillEnd, h.due, h.closed, hi, hu, hi', hu', completions]
    · simp [WillEnd, h.due, h.closed, h.others x hx, completions]
  cases ho with
  | @blocked e s' hi' hs' _ =>
    have hu' : s'.isUnderWay = true := by rcases hs' with rfl | ⟨n, rfl⟩ <;> rfl
    exact pending h hi' hu'
  | waits hi' _ _ => exact pending h hi' rfl
  | @ended e hi' =>
    have hc' : e.closed = true := hs.phase.drained (hs.phase.finished i k hi')
    have hc : d.closed = true := h.closed.symm.trans hc'
    by_cases hx : x = i
    · subst x
      simp [WillEnd, hc, hi, hu, completions]
    · simp [WillEnd, h.due, hc, hc', h.others x hx, hx, completions]

theorem foreseen_granter (hs : d.Sound) (hnd : d.queue.elements.Nodup)
    (hn : ∀ x, d.submission? x ≠ some .running) (hi : d.granter? i = some (k, s))
    (hu : s.isUnderWay = true) :
    Foreseen d [(i, (d.poll i).2)] (d.poll i).1 ∧
      ((d.poll i).1 = d ∨ (d.poll i).1.toGo < d.toGo) := by
  by_cases hh : d.baton.holder = some i
  · have h := pollGranter_onward hs hnd hi hu hh
    have hrest : (d.poll i).1 ≠ d → d.restless = 1 := fun hne => by simp [restless, hh, hne]
    obtain ⟨hch, ho | ⟨-, hne⟩⟩ := pollGranter_spec hs hi
    · rw [← poll_of_granter hi] at h hch ho
      have hs' := hch.sound hs
      have hagain : ((d.poll i).1.poll i).1 = (d.poll i).1 := by
        rw [hs'.poll_of_not_woken ho.isWoken_eq_false]
      have hend := h.willEnd ho hs' hi hu
      have hcalls : calls [(i, (d.poll i).2)] = [] := by
        generalize d.poll i = r at ho
        cases ho <;> rfl
      refine ⟨⟨hch.grows.settings, fun x hx => ?_, ?_, h.closings.symm, hend⟩, ?_⟩
      · obtain hsub | ⟨t, -, hsub⟩ := hch.submission?_cases x
        · exact hn x (hsub ▸ hx)
        · simp [hsub] at hx
      · rw [hcalls, h.due]
        rfl
      · refine or_iff_not_imp_left.mpr fun hne => ?_
        obtain hb | hlt := h.baton
        · -- it has kept the baton: what is left is as much as before, but it is no longer restless
          have hrest' : (d.poll i).1.restless = 0 := by simp [restless, hb, hh, hagain]
          have hle := h.remaining
          simp only [toGo, hrest hne, hrest']
          omega
        · exact toGo_lt hlt
    · exact (hne hu hh).elim
  · -- without the baton it stands in line, where a poll changes nothing
    have hl : s = .locking := by_contra fun hl => hh (hs.baton.holding i k s hi hu hl)
    subst s
    have hp : d.poll i = (d, .pending) := by
      rw [poll_of_granter hi]
      simp [pollGranterBy, awaitBaton, hh]
    rw [hp]
    exact ⟨.still hn i, .inl rfl⟩

theorem IsSettled.isAtRest (hd : d.IsSettled) (hs : d.Sound)
    (hn : ∀ x, d.submission? x ≠ some .running) : d.IsAtRest := by
  refine fun i => ⟨hn i, fun f hf hu => ?_⟩
  have hi : (d.poll i).1 = d := hd i (by simp [isUnderWay, Option.mem_def.mp hf, hu])
  refine Prod.ext hi ?_
  cases f with
  | submission v =>
    have hv := submission?_eq_some.mpr (Option.mem_def.mp hf)
    cases v with
    | created | ended => cases hu
    | entering since =>
      have := hs.turn.regular i _ hv
      simp [Submission.isRegular] at this
    | waiting since => rw [poll_of_waiting hs hv]
    | granted since =>
      rw [poll_of_granted hv] at hi
      have hr : (d.startCallback i since).1.submission? i = some .running := by
        simp [submission?_startCallback]
      exact (hn i (hi ▸ hr)).elim
    | running => exact (hn i hv).elim
  | granter k s =>
    have hg := granter?_eq_some.mpr (Option.mem_def.mp hf)
    obtain ⟨-, ho | ⟨hp, -⟩⟩ := pollGranter_spec hs hg
    · rw [← poll_of_granter hg] at ho
      generalize d.poll i = r at hi ho
      cases ho with
      | blocked | waits => rfl
      | ended hf' =>
        obtain rfl : _ = d := hi
        rw [hg] at hf'
        cases hf'
        cases hu
    · rw [poll_of_granter hg, hp]

theorem IsAtRest.prospect (hd : d.IsAtRest) (hs : d.Sound) :
    d.due = [] ∧ (∀ n, d.closings n = d.notices.filter Notice.isClosing) ∧ ∀ x, ¬ d.WillEnd x := by
  have hholder : d.baton.holder.isSome = true → d.queue.elements = [] ∧ d.closed = false := by
    intro hh
    obtain ⟨i, hi⟩ := Option.isSome_iff_exists.mp hh
    obtain ⟨k, s, hg, hu⟩ := hs.baton.holder i hi
    obtain ⟨hq, -, hc⟩ := hs.holder_at_rest hd hi hg hu
    exact ⟨hq, hc⟩
  have hout : d.outstanding = [] := by
    unfold outstanding
    split
    · rfl
    · rename_i j hj
      have ht := hd.hasTurn_eq_false j
      split
      · rename_i since hv
        simp [hasTurn, hv] at ht
      · rfl
  have hdue : d.due = [] := by
    rw [due, hout]
    split
    · rename_i hh
      exact waiting_of_nil (hholder hh).1
    · rfl
  refine ⟨hdue, fun n => ?_, ?_⟩
  · rw [closings]
    split
    · rename_i hh
      simp only [Bool.and_eq_true] at hh
      simp [(hholder hh.2).2] at hh
    · exact List.append_nil _
  · rintro x (hx | ⟨hc, k, s, hg, hu⟩)
    · simp [hdue] at hx
    · obtain ⟨j, -, -, hj, -⟩ := hs.exists_holder hg hu
      simp [(hholder (by simp [hj])).2] at hc

end Dispatcher

open Dispatcher

namespace History

variable {ι : Type} [DecidableEq ι] {h h' : History ι} {i : ι} {ps : List (ι × Progress)}

def pollThrough (h : History ι) (i : ι) (panics : Bool) : History ι :=
  (h.step (.poll i)).step (.finish i panics)

/-- From `h` the polls `ps` of futures that are under way lead to `h'`, where nothing else is done
to the dispatcher, be it by a callback. -/
inductive Settles : History ι → List (ι × Progress) → History ι → Prop where
  | refl {h : History ι} : Settles h [] h
  | poll {h h' : History ι} {i : ι} {ps : List (ι × Progress)} (panics : Bool)
      (hu : h.dispatcher.isUnderWay i = true) (hs : Settles (h.pollThrough i panics) ps h') :
      Settles h ((i, (h.dispatcher.poll i).2) :: ps) h'

theorem Reachable.pollThrough (hr : h.Reachable) (i : ι) (panics : Bool) :
    (h.pollThrough i panics).Reachable :=
  (hr.step (.poll i)).step (.finish i panics)

theorem Reachable.nodup_queue (hr : h.Reachable) : h.dispatcher.queue.elements.Nodup := by
  obtain ⟨gone, hacc, -⟩ := hr.ledger.split
  have hnd := hr.ledger.nodup
  rw [hacc] at hnd
  exact (List.nodup_append.mp hnd).2.1

/-- One poll brings the first of what is to come and leaves the rest to come, and unless nothing
changes there are fewer polls to go. -/
theorem Reachable.foreseen_pollThrough (hr : h.Reachable)
    (hn : ∀ x, h.dispatcher.submission? x ≠ some .running)
    (hu : h.dispatcher.isUnderWay i = true) (panics : Bool) :
    Foreseen h.dispatcher [(i, (h.dispatcher.poll i).2)] (h.pollThrough i panics).dispatcher ∧
      ((h.dispatcher.poll i).1 = h.dispatcher ∧ (h.pollThrough i panics).dispatcher = h.dispatcher ∨
        (h.pollThrough i panics).dispatcher.toGo < h.dispatcher.toGo) := by
  have hs := hr.sound
  -- unless the poll has started the callback there is none to be ended
  have hend : ∀ d : Dispatcher ι, d.submission? i ≠ some .running →
      ∀ how, d.endCallback i how = d := by
    intro d hd how
    unfold endCallback
    split
    · rename_i hi
      exact (hd hi).elim
    · rfl
  have hthrough : (h.pollThrough i panics).dispatcher =
      (h.dispatcher.poll i).1.endCallback i (if panics then .panicked else .returned) := rfl
  rw [hthrough]
  cases hf : h.dispatcher.futures.get? i with
  | none => simp [isUnderWay, hf] at hu
  | some f =>
    have hfu : f.isUnderWay = true := by simpa [isUnderWay, hf] using hu
    cases f with
    | submission v =>
      have hv := submission?_eq_some.mpr hf
      cases v with
      | created | ended => cases hfu
      | entering since =>
        have := hs.turn.regular i _ hv
        simp [Submission.isRegular] at this
      | waiting since =>
        rw [poll_of_waiting hs hv, hend _ (hn i)]
        exact ⟨.still hn i, .inl ⟨rfl, rfl⟩⟩
      | granted since =>
        have hr : (h.dispatcher.startCallback i since).1.submission? i = some .running := by
          simp [submission?_startCallback]
        rw [poll_of_granted hv, endCallback, hr]
        obtain ⟨hfore, hlt⟩ := foreseen_call hs hn hv (if panics then .panicked else .returned)
        exact ⟨hfore, .inr (toGo_lt hlt)⟩
      | running => exact (hn i hv).elim
    | granter k s =>
      have hg := granter?_eq_some.mpr hf
      obtain ⟨hfore, hlt⟩ := foreseen_granter hs hr.nodup_queue hn hg hfu
      rw [hend _ (hfore.idle i)]
      exact ⟨hfore, hlt.imp_left fun hp => ⟨hp, hp⟩⟩

theorem Settles.foreseen (hs : Settles h ps h') (hr : h.Reachable)
    (hn : ∀ x, h.dispatcher.submission? x ≠ some .running) :
    h'.Reachable ∧ Foreseen h.dispatcher ps h'.dispatcher := by
  induction hs with
  | refl => exact ⟨hr, .refl hn⟩
  | @poll h h' i ps panics hu _ ih =>
    have hfore := (hr.foreseen_pollThrough hn hu panics).1
    obtain ⟨hr', hfore'⟩ := ih (hr.pollThrough i panics) hfore.idle
    exact ⟨hr', hfore.trans hfore'⟩

theorem Settles.outcome (hs : Settles h ps h') (hr : h.Reachable)
    (hn : ∀ x, h.dispatcher.submission? x ≠ some .running) (hd : h'.dispatcher.IsSettled) :
    calls ps = h.dispatcher.due ∧ (∀ x, x ∈ completions ps ↔ h.dispatcher.WillEnd x) ∧
      h'.dispatcher.log.filter LogEntry.isSummary =
        (h.dispatcher.closings h.dispatcher.grantedSoFar).map
          (Notice.entry h.dispatcher.settings.name) := by
  obtain ⟨hr', hfore⟩ := hs.foreseen hr hn
  obtain ⟨hdue, hcl, hend⟩ := (hd.isAtRest hr'.sound hfore.idle).prospect hr'.sound
  refine ⟨?_, fun x => ?_, ?_⟩
  · rw [hfore.due, hdue, List.append_nil]
  · rw [hfore.willEnd, or_iff_left (hend x)]
  · rw [hfore.closings, hcl, Dispatcher.log, List.filter_map, Notice.isSummary_entry,
      hfore.settings]

theorem Reachable.toGo_le (hr : h.Reachable)
    (hn : ∀ x, h.dispatcher.submission? x ≠ some .running) {hs : ℕ → History ι} (h0 : hs 0 = h)
    (hstep : ∀ n, ∃ i panics, (hs n).dispatcher.isUnderWay i = true ∧
      hs (n + 1) = (hs n).pollThrough i panics ∧ (hs (n + 1)).dispatcher ≠ (hs n).dispatcher)
    (n : ℕ) : (hs n).dispatcher.toGo + n ≤ h.dispatcher.toGo := by
  have hinv : ∀ n, (hs n).Reachable ∧ (∀ x, (hs n).dispatcher.submission? x ≠ some .running) ∧
      (hs n).dispatcher.toGo + n ≤ h.dispatcher.toGo := by
    intro n
    induction n with
    | zero =>
      rw [h0]
      exact ⟨hr, hn, le_rfl⟩
    | succ n ih =>
      obtain ⟨hr', hn', hle⟩ := ih
      obtain ⟨i, panics, hu, heq, hne⟩ := hstep n
      obtain ⟨hfore, hlt⟩ := hr'.foreseen_pollThrough hn' hu panics
      have hless := hlt.resolve_left fun hp => hne (heq ▸ hp.2)
      rw [heq]
      exact ⟨hr'.pollThrough i panics, hfore.idle, by omega⟩
  exact (hinv n).2.2

theorem Reachable.exists_settles (hr : h.Reachable)
    (hn : ∀ x, h.dispatcher.submission? x ≠ some .running) :
    ∃ ps h', Settles h ps h' ∧ h'.dispatcher.IsSettled := by
  induction hm : h.dispatcher.toGo using Nat.strong_induction_on generalizing h with
  | h n ih =>
    by_cases hd : h.dispatcher.IsSettled
    · exact ⟨[], h, .refl, hd⟩
    · obtain ⟨i, hi⟩ := not_forall.mp hd
      obtain ⟨hu, hne⟩ := Classical.not_imp.mp hi
      obtain ⟨hfore, hlt⟩ := hr.foreseen_pollThrough hn hu false
      have hless := hlt.resolve_left fun hp => hne hp.1
      obtain ⟨ps, h', hs, hd'⟩ := ih _ (hm ▸ hless) (hr.pollThrough i false) hfore.idle rfl
      exact ⟨_, h', .poll false hu hs, hd'⟩

end History

open History

variable {ι : Type} [DecidableEq ι] {h : History ι}

/-- Polling what is under way comes to an end, and in whatever order, it comes to the same: the same
callbacks in the same order with the same waits, the same futures at their end, and the same summary
if there is one. -/
theorem settling_is_determined (hr : h.Reachable)
    (hn : ∀ i, h.dispatcher.submission? i ≠ some .running) :
    (¬ ∃ hs : ℕ → History ι, hs 0 = h ∧ ∀ n, ∃ i panics,
      (hs n).dispatcher.isUnderWay i = true ∧ hs (n + 1) = (hs n).pollThrough i panics ∧
        (hs (n + 1)).dispatcher ≠ (hs n).dispatcher) ∧
    (∃ ps h', Settles h ps h' ∧ h'.dispatcher.IsSettled) ∧
    ∀ ps₁ ps₂ h₁ h₂, Settles h ps₁ h₁ → Settles h ps₂ h₂ →
      h₁.dispatcher.IsSettled → h₂.dispatcher.IsSettled →
      calls ps₁ = calls ps₂ ∧ (∀ i, i ∈ completions ps₁ ↔ i ∈ completions ps₂) ∧
        h₁.dispatcher.log.filter LogEntry.isSummary =
          h₂.dispatcher.log.filter LogEntry.isSummary := by
  refine ⟨?_, hr.exists_settles hn, ?_⟩
  · rintro ⟨hs, h0, hstep⟩
    have hle := hr.toGo_le hn h0 hstep (h.dispatcher.toGo + 1)
    omega
  · intro ps₁ ps₂ h₁ h₂ hs₁ hs₂ hd₁ hd₂
    obtain ⟨hc₁, he₁, hl₁⟩ := hs₁.outcome hr hn hd₁
    obtain ⟨hc₂, he₂, hl₂⟩ := hs₂.outcome hr hn hd₂
    exact ⟨hc₁.trans hc₂.symm, fun i => (he₁ i).trans (he₂ i).symm, hl₁.trans hl₂.symm⟩

/-- A loop and a closer behind it, one submission with its turn and two in the queue, of which one
has been withdrawn. The loop is polled as soon as it can go on, or after everything else. -/
theorem settling_is_determined_two_orders :
    let h := (fresh {} : History (Fin 5)).after [.submit 0, .submit 1, .submit 2, .poll 0, .poll 1,
      .poll 2, .run 3, .poll 3, .drop 1, .close 4, .poll 4, .advance 5]
    ∃ ps₁ ps₂ h₁ h₂, Settles h ps₁ h₁ ∧ Settles h ps₂ h₂ ∧
      ps₁.map Prod.fst = [0, 3, 2, 3, 4] ∧ ps₂.map Prod.fst = [4, 2, 3, 0, 4, 3, 2, 4, 3, 4] ∧
      calls ps₁ = [(0, 5), (2, 5)] ∧ calls ps₁ = calls ps₂ ∧
      h₁.dispatcher.log.filter LogEntry.isSummary = h₂.dispatcher.log.filter LogEntry.isSummary := by
  intro h
  have hr : h.Reachable := (Reachable.fresh {}).after _
  have hs₁ : Settles h _ _ := .poll (i := 0) false (by decide) <| .poll (i := 3) false (by decide) <|
    .poll (i := 2) false (by decide) <| .poll (i := 3) false (by decide) <|
    .poll (i := 4) false (by decide) .refl
  have hs₂ : Settles h _ _ := .poll (i := 4) false (by decide) <| .poll (i := 2) false (by decide) <|
    .poll (i := 3) false (by decide) <| .poll (i := 0) true (by decide) <|
    .poll (i := 4) false (by decide) <| .poll (i := 3) false (by decide) <|
    .poll (i := 2) false (by decide) <| .poll (i := 4) false (by decide) <|
    .poll (i := 3) false (by decide) <| .poll (i := 4) false (by decide) .refl
  obtain ⟨hc, -, hl⟩ := (settling_is_determined hr (by decide)).2.2 _ _ _ _ hs₁ hs₂ (by decide)
    (by decide)
  exact ⟨_, _, _, _, hs₁, hs₂, by decide, by decide, by decide, hc, hl⟩

end Turnstile
