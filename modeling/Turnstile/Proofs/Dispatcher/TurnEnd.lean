import Turnstile.Proofs.Dispatcher.Barrier
import Turnstile.Proofs.Dispatcher.Lockstep

namespace Turnstile

open Dispatcher

namespace History

variable {ι : Type} [DecidableEq ι] {h h₁ h₂ : History ι} {i w : ι} {as : List (Action ι)}

/-- Whoever does not ask for `i` cannot tell by `as` which of the two he has before him. -/
structure Alike (i : ι) (h₁ h₂ : History ι) (as : List (Action ι)) : Prop where
  replies : h₂.replies as = h₁.replies as
  futures : ∀ j, j ≠ i →
    (h₂.after as).dispatcher.futures.get? j = (h₁.after as).dispatcher.futures.get? j
  pending : (h₂.after as).dispatcher.pending = (h₁.after as).dispatcher.pending
  closed : (h₂.after as).dispatcher.closed = (h₁.after as).dispatcher.closed
  log : ∃ new, (h₁.after as).dispatcher.log = h₁.dispatcher.log ++ new ∧
    (h₂.after as).dispatcher.log = h₂.dispatcher.log ++ new

theorem Reachable.alike_self (hr : h.Reachable) (i : ι) (as : List (Action ι)) :
    Alike i h h as where
  replies := rfl
  futures _ _ := rfl
  pending := rfl
  closed := rfl
  log := by
    have hg := hr.after_grows as
    obtain ⟨new, hnew⟩ := hg.notices
    refine ⟨new.map (Notice.entry h.dispatcher.settings.name), ?_⟩
    rw [and_self, Dispatcher.log, hg.settings, ← hnew, List.map_append, Dispatcher.log]

theorem Reachable.sameBut_after {p p' : List Notice} {n : Nat} {how : Ending}
    (hr₁ : h₁.Reachable) (hr₂ : h₂.Reachable)
    (hs : SameBut w p p' n h₁.dispatcher h₂.dispatcher)
    (hw : h₁.dispatcher.submission? w = some (.ended how))
    (has : ∀ a ∈ as, a.isAbout w = false) :
    SameBut w p p' n (h₁.after as).dispatcher (h₂.after as).dispatcher ∧
      h₂.replies as = h₁.replies as := by
  induction as generalizing h₁ h₂ with
  | nil => exact ⟨hs, rfl⟩
  | cons a as ih =>
    have hw' : (h₁.step a).dispatcher.submission? w = some (.ended how) :=
      hr₁.sound.submission?_act_of_ended hw a
    have hn : (h₁.step a).dispatcher.hasTurn w = false := by simp [Dispatcher.hasTurn, hw']
    obtain ⟨hsa, hans⟩ := hs.act hr₁.sound hr₂.sound (has a List.mem_cons_self) hn
    obtain ⟨hs', hrep⟩ := ih (hr₁.step a) (hr₂.step a) hsa hw' fun b hb =>
      has b (List.mem_cons_of_mem a hb)
    exact ⟨hs', by rw [replies, replies, hans, hrep]⟩

theorem Reachable.alike {how : Ending} (hr₁ : h₁.Reachable) (hr₂ : h₂.Reachable)
    (hs : SameBut i h₁.dispatcher.notices h₂.dispatcher.notices 0 h₁.dispatcher h₂.dispatcher)
    (hi : h₁.dispatcher.submission? i = some (.ended how))
    (has : ∀ a ∈ as, a.isAbout i = false) : Alike i h₁ h₂ as := by
  obtain ⟨hsa, hrep⟩ := hr₁.sameBut_after hr₂ hs hi has
  obtain ⟨k, hk, hn⟩ := hsa.notices
  obtain ⟨rfl, hc⟩ : k = 0 ∧ (h₁.after as).dispatcher.queue.elements.count i = 0 := by omega
  have hq : (h₂.after as).dispatcher.queue.elements = (h₁.after as).dispatcher.queue.elements := by
    rw [hsa.elements, List.filter_eq_self]
    intro j hj
    simpa using ne_of_mem_of_not_mem hj (List.count_eq_zero.mp hc)
  refine ⟨hrep, hsa.futures, by simp only [Dispatcher.pending, hq], hsa.closed, ?_⟩
  obtain ⟨new, h₁n, h₂n⟩ := hk.eq_append
  refine ⟨new.map (Notice.entry h₁.dispatcher.settings.name), ?_, ?_⟩
  · rw [Dispatcher.log, (hr₁.after_grows as).settings, h₁n, List.map_append, Dispatcher.log]
  · rw [Dispatcher.log, (hr₂.after_grows as).settings, h₂n, List.map_append, Dispatcher.log,
      hs.settings]

theorem Reachable.not_mem_queue (hr : h.Reachable) {s : Submission}
    (hi : h.dispatcher.submission? i = some s) (hs : s.hasTurn = true) :
    i ∉ h.dispatcher.queue.elements := by
  obtain ⟨gone, hacc, -, hturn⟩ := hr.ledger.split
  obtain ⟨front, rfl⟩ := hturn i s hi hs
  have hnd := hr.ledger.nodup
  rw [hacc] at hnd
  exact fun hm => (List.nodup_append.mp hnd).2.2 i (by simp) i hm rfl

/-- Whatever ended the turn of `i` and was logged meanwhile, what is left is the same but for
`i`. -/
theorem Reachable.sameBut_ended (hr : h.Reachable) {s : Submission}
    (hi : h.dispatcher.submission? i = some s) (hs : s.hasTurn = true) {t t' : Table ι Future}
    (ht : ∀ j, j ≠ i → t'.get? j = t.get? j) (ns ns' : List Notice) (how how' : Ending) :
    SameBut i ns ns' 0
      ((h.dispatcher.refit h.dispatcher.queue t ns).setSubmission i (.ended how))
      ((h.dispatcher.refit h.dispatcher.queue t' ns').setSubmission i (.ended how')) where
  rest := ⟨_, _, _, rfl⟩
  futures j hj := by
    simp only [setSubmission, refit, Table.get?_put_of_ne _ (Ne.symm hj), ht j hj]
  hasTurn := by simp [Dispatcher.hasTurn, submission?_setSubmission]
  hasTurn' := by simp [Dispatcher.hasTurn, submission?_setSubmission]
  elements := by
    refine (List.filter_eq_self.mpr fun j hj => ?_).symm
    simpa using ne_of_mem_of_not_mem hj (hr.not_mem_queue hi hs)
  notices := ⟨0, .start, by
    rw [Nat.zero_add]
    exact List.count_eq_zero.mpr (hr.not_mem_queue hi hs)⟩

theorem step_finish (hi : h.dispatcher.submission? i = some .running) (panics : Bool) :
    (h.step (.finish i panics)).dispatcher =
      h.dispatcher.setSubmission i (.ended (if panics then .panicked else .returned)) := by
  simp [History.step, act, endCallback, hi]

theorem ended_finish (hi : h.dispatcher.submission? i = some .running) (panics : Bool) :
    (h.step (.finish i panics)).dispatcher.submission? i =
      some (.ended (if panics then .panicked else .returned)) := by
  rw [step_finish hi, submission?_setSubmission, Function.update_self]

theorem Reachable.alike_finish (hr : h.Reachable) (has : ∀ a ∈ as, a.isAbout i = false) :
    Alike i (h.step (.finish i false)) (h.step (.finish i true)) as := by
  have hr₁ := hr.step (.finish i false)
  by_cases hi : h.dispatcher.submission? i = some .running
  · refine hr₁.alike (hr.step (.finish i true)) ?_ (ended_finish hi false) has
    rw [step_finish hi, step_finish hi]
    exact hr.sameBut_ended hi rfl (fun _ _ => rfl) _ _ _ _
  · have he : h.step (.finish i true) = h.step (.finish i false) := by
      simp [History.step, act, endCallback, Dispatcher.admits, Dispatcher.starts]
    rw [he]
    exact hr₁.alike_self i as

theorem Reachable.alike_drop (hr : h.Reachable) {since : Nat}
    (hi : h.dispatcher.submission? i = some (.granted since)) (panics : Bool)
    (has : ∀ a ∈ as, a.isAbout i = false) :
    Alike i ((h.step (.poll i)).step (.finish i panics)) (h.step (.drop i)) as := by
  have hp : (h.step (.poll i)).dispatcher = (h.dispatcher.startCallback i since).1 :=
    congrArg Prod.fst (poll_of_granted hi)
  have hrun : (h.step (.poll i)).dispatcher.submission? i = some .running := by
    rw [hp, (submission?_startCallback _ _ _).1, Function.update_self]
  -- the poll may have warned of a long wait, and for the rest has only started the callback
  obtain ⟨ns, hst⟩ : ∃ ns, (h.step (.poll i)).dispatcher = h.dispatcher.refit h.dispatcher.queue
      (h.dispatcher.futures.put i (.submission .running)) ns := by
    rw [hp]
    obtain hs | ⟨ms, hs⟩ := startCallback_fst h.dispatcher i since <;> exact ⟨_, hs⟩
  have hd : (h.step (.drop i)).dispatcher = h.dispatcher.setSubmission i (.ended .dropped) := by
    simp [History.step, act, drop, submission?_eq_some.mp hi, dropSubmission]
  refine ((hr.step (.poll i)).step (.finish i panics)).alike (hr.step (.drop i)) ?_
    (ended_finish hrun panics) has
  rw [step_finish hrun, hst, hd]
  exact hr.sameBut_ended hi rfl (fun j hj => (Table.get?_put_of_ne _ hj.symm _).symm) _ _ _ _

end History

open History

variable {ι : Type} [DecidableEq ι] {h : History ι} {i : ι}

/-- A callback that returns, one that panics and one that is dropped before it is called end the
turn alike: whatever is done from then on, but to the submission itself, comes to the same. -/
theorem turn_endings_alike (hr : h.Reachable) {since : Nat}
    (hi : h.dispatcher.submission? i = some (.granted since)) :
    (h.dispatcher.poll i).2 = .called (h.dispatcher.now - since) ∧
    ∀ as, (∀ a ∈ as, a.isAbout i = false) →
      (∀ effects, let inside := (h.step (.poll i)).after effects
        Alike i (inside.step (.finish i false)) (inside.step (.finish i true)) as) ∧
      ∀ panics, Alike i ((h.step (.poll i)).step (.finish i panics)) (h.step (.drop i)) as := by
  refine ⟨by rw [poll_of_granted hi]; rfl, fun as has => ⟨fun effects => ?_, fun panics => ?_⟩⟩
  · exact ((hr.step (.poll i)).after effects).alike_finish has
  · exact hr.alike_drop hi panics has

/-- The loop that granted the turn was dropped, and a closer awaits the end of it. -/
theorem turn_endings_alike_closer :
    let h := (fresh {}).after [.submit 0, .submit 1, .poll 0, .poll 1, .run 2, .poll 2, .drop 2,
      .close 3, .poll 3]
    let as := [.poll 3, .poll 1, .finish 1 false, .poll 3]
    h.dispatcher.submission? 0 = some (.granted 0) ∧
      Alike 0 ((h.step (.poll 0)).step (.finish 0 true)) (h.step (.drop 0)) as ∧
      (h.step (.drop 0)).replies as = [(.poll 3, some .pending), (.poll 1, some (.called 0)),
        (.finish 1 false, none), (.poll 3, some .ready)] :=
  have hr := (Reachable.fresh {}).after [.submit 0, .submit 1, .poll 0, .poll 1, .run 2, .poll 2,
    .drop 2, .close 3, .poll 3]
  have ht := (turn_endings_alike (i := 0) hr (show _ = some (Submission.granted 0) by decide)).2
  ⟨by decide, (ht [.poll 3, .poll 1, .finish 1 false, .poll 3] (by decide)).2 true, by decide⟩

end Turnstile
