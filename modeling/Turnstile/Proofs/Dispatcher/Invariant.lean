import Turnstile.Proofs.Dispatcher.Baton

namespace Turnstile

variable {ι : Type}

/-- Endings that no submission comes to, and the rest between the halves of a first poll. -/
def Submission.isRegular : Submission → Bool
  | entering _ | ended .stranded | ended .abandoned => false
  | _ => true

/-- Whoever has a turn is the one that is awaited, and whoever waits for a turn is queued. -/
structure TurnSound (a : Option ι) (sub : ι → Option Submission) (q : List ι) (dr : Bool) :
    Prop where
  awaited : ∀ i s, sub i = some s → s.hasTurn = true → a = some i
  queued : ∀ i since, sub i = some (.waiting since) → i ∈ q
  regular : ∀ i s, sub i = some s → s.isRegular = true
  drained : dr = true → q = [] ∧ a = none

namespace TurnSound

variable {a : Option ι} {sub : ι → Option Submission} {q rest : List ι} {dr : Bool} {i j : ι}

theorem hasTurn_eq_false (h : TurnSound none sub q dr) (i : ι) (s : Submission)
    (hi : sub i = some s) : s.hasTurn = false := by
  apply Bool.eq_false_iff.mpr
  intro ht
  cases h.awaited i s hi ht

theorem drained_eq_false (h : TurnSound a sub q dr) (hi : i ∈ q) : dr = false := by
  apply Bool.eq_false_iff.mpr
  intro hd
  rw [(h.drained hd).1] at hi
  cases hi

theorem set [DecidableEq ι] (h : TurnSound a sub q dr) {s : Submission}
    (ht : s.hasTurn = true → a = some i) (hw : ∀ since, s = .waiting since → i ∈ q)
    (hr : s.isRegular = true) :
    TurnSound a (Function.update sub i (some s)) q dr := by
  refine ⟨?_, ?_, ?_, h.drained⟩
  · intro x s' hx hs
    obtain ⟨rfl, ⟨⟩⟩ | ⟨hxi, hx⟩ := update_eq_some.mp hx
    · exact ht hs
    · exact h.awaited x s' hx hs
  · intro x since hx
    obtain ⟨rfl, ⟨⟩⟩ | ⟨hxi, hx⟩ := update_eq_some.mp hx
    · exact hw since rfl
    · exact h.queued x since hx
  · intro x s' hx
    obtain ⟨rfl, ⟨⟩⟩ | ⟨hxi, hx⟩ := update_eq_some.mp hx
    · exact hr
    · exact h.regular x s' hx

theorem push (h : TurnSound a sub q dr) (hd : dr = false) (i : ι) :
    TurnSound a sub (q ++ [i]) dr where
  awaited := h.awaited
  queued x since hx := List.mem_append_left _ (h.queued x since hx)
  regular := h.regular
  drained hdr := by simp [hd] at hdr

theorem retire (h : TurnSound a sub q dr) (hn : ∀ i s, sub i = some s → s.hasTurn = false) :
    TurnSound none sub q dr where
  awaited x s hx hs := by simp [hn x s hx] at hs
  queued := h.queued
  regular := h.regular
  drained hd := ⟨(h.drained hd).1, rfl⟩

theorem skip (h : TurnSound a sub (j :: rest) dr) (hj : ∀ since, sub j ≠ some (.waiting since)) :
    TurnSound a sub rest dr where
  awaited := h.awaited
  queued x since hx := by
    have hm := h.queued x since hx
    have hxj : x ≠ j := by
      rintro rfl
      exact hj since hx
    exact (List.mem_cons.mp hm).resolve_left hxj
  regular := h.regular
  drained hd := by cases (h.drained hd).1

theorem grant [DecidableEq ι] (h : TurnSound none sub (j :: rest) dr) (since : Nat) :
    TurnSound (some j) (Function.update sub j (some (.granted since))) rest dr := by
  have hd := h.drained_eq_false List.mem_cons_self
  refine ⟨?_, ?_, ?_, by simp [hd]⟩
  · intro x s hx hs
    by_cases hxj : x = j
    · rw [hxj]
    · rw [Function.update_of_ne hxj] at hx
      cases h.awaited x s hx hs
  · intro x t hx
    obtain ⟨rfl, ⟨⟩⟩ | ⟨hxj, hx⟩ := update_eq_some.mp hx
    · exact (List.mem_cons.mp (h.queued x t hx)).resolve_left hxj
  · intro x s hx
    obtain ⟨rfl, ⟨⟩⟩ | ⟨hxj, hx⟩ := update_eq_some.mp hx
    · rfl
    · exact h.regular x s hx

theorem drain (h : TurnSound none sub [] dr) : TurnSound none sub [] true where
  awaited := h.awaited
  queued := h.queued
  regular := h.regular
  drained _ := ⟨rfl, rfl⟩

end TurnSound

/-- A loop waits in the queue only while no turn is out, and unless it is marked there is nothing
in the queue. Nobody else stands in the queue's line. -/
structure WaitSound (q : Queue ι ι) (a : Option ι)
    (g : ι → Option (GranterKind × GranterState)) : Prop where
  popping : ∀ i k, g i = some (k, .popping) → k = .loop ∧ a = none ∧
    ∃ m, q.signal.waiters = [⟨i, m⟩] ∧ (m = false → q.elements = [])
  waiters : ∀ w ∈ q.signal.waiters, ∃ k, g w.owner = some (k, .popping)

namespace WaitSound

variable {q : Queue ι ι} {a : Option ι} {g : ι → Option (GranterKind × GranterState)} {i : ι}
  {k : GranterKind} {s : GranterState}

theorem of_none (hg : ∀ i k, g i ≠ some (k, .popping)) (hw : q.signal.waiters = []) :
    WaitSound q a g where
  popping i k hi := (hg i k hi).elim
  waiters w hm := by simp [hw] at hm

theorem waiters_eq_nil (h : WaitSound q a g) (hg : ∀ i k, g i ≠ some (k, .popping)) :
    q.signal.waiters = [] := by
  rw [List.eq_nil_iff_forall_not_mem]
  intro w hw
  obtain ⟨k, hk⟩ := h.waiters w hw
  exact hg w.owner k hk

theorem aside [DecidableEq ι] (h : WaitSound q a g) (hi : ∀ k, g i ≠ some (k, .popping))
    (hs : s ≠ .popping) : WaitSound q a (Function.update g i (some (k, s))) where
  popping x k' hx := by
    obtain ⟨rfl, ⟨⟩⟩ | ⟨hxi, hx⟩ := update_eq_some.mp hx
    · exact (hs rfl).elim
    · exact h.popping x k' hx
  waiters w hw := by
    obtain ⟨k', hk⟩ := h.waiters w hw
    have hwi : w.owner ≠ i := fun he => hi k' (he ▸ hk)
    exact ⟨k', by rw [Function.update_of_ne hwi, hk]⟩

theorem push (h : WaitSound q a g) (j : ι) : WaitSound (q.push j) a g := by
  by_cases hg : ∃ i k, g i = some (k, .popping)
  · obtain ⟨i, k, hi⟩ := hg
    obtain ⟨-, -, m, hw, -⟩ := h.popping i k hi
    have hm : (q.push j).signal.waiters = [⟨i, true⟩] := by
      cases m <;> simp [Queue.push, Signal.raise, Signal.markFirst, hw]
    refine ⟨?_, ?_⟩
    · intro x k' hx
      obtain ⟨hk, ha, m', hw', -⟩ := h.popping x k' hx
      have hxi : x = i := by
        rw [hw] at hw'
        cases hw'
        rfl
      subst x
      exact ⟨hk, ha, true, hm, by simp⟩
    · intro w hwm
      rw [hm, List.mem_singleton] at hwm
      subst w
      exact ⟨k, hi⟩
  · have hg' : ∀ i k, g i ≠ some (k, .popping) := fun i k hi => hg ⟨i, k, hi⟩
    exact of_none hg' (by simp [Queue.push, Signal.raise, Signal.markFirst, h.waiters_eq_nil hg'])

theorem leave [DecidableEq ι] (h : WaitSound q a g) (hi : g i = some (k, .popping))
    (hs : s ≠ .popping) {q' : Queue ι ι} {a' : Option ι} {k' : GranterKind}
    (hq : q'.signal.waiters = []) :
    WaitSound q' a' (Function.update g i (some (k', s))) := by
  refine of_none ?_ hq
  intro x k'' hx
  obtain ⟨rfl, ⟨⟩⟩ | ⟨hxi, hx⟩ := update_eq_some.mp hx
  · exact hs rfl
  · obtain ⟨-, -, m, hw, -⟩ := h.popping i k hi
    obtain ⟨-, -, m', hw', -⟩ := h.popping x k'' hx
    rw [hw] at hw'
    cases hw'
    exact hxi rfl

theorem register [DecidableEq ι] (hg : ∀ i k, g i ≠ some (k, .popping)) (hq : q.elements = [])
    (hw : q.signal.waiters = []) (i : ι) :
    WaitSound (q.popOrRegister i).1 none (Function.update g i (some (.loop, .popping))) := by
  have hs : (q.popOrRegister i).1.signal.waiters = [⟨i, false⟩] ∧
      (q.popOrRegister i).1.elements = [] := by
    cases hst : q.signal.stored <;> simp [Queue.popOrRegister, Signal.attend, hst, hq, hw]
  refine ⟨?_, ?_⟩
  · intro x k hx
    obtain ⟨rfl, ⟨⟩⟩ | ⟨hxi, hx⟩ := update_eq_some.mp hx
    · exact ⟨rfl, rfl, false, hs.1, fun _ => hs.2⟩
    · exact (hg x k hx).elim
  · intro w hm
    rw [hs.1, List.mem_singleton] at hm
    subst w
    exact ⟨.loop, by simp⟩

end WaitSound

/-- The dispatcher is open, draining or drained, and the states of the granters agree with that. -/
structure PhaseSound (c st dr : Bool) (g : ι → Option (GranterKind × GranterState)) : Prop where
  stopping : st = c
  serving : ∀ i k, g i = some (k, .retiring) → k = .loop
  closer : ∀ i s, g i = some (.closer, s) → s.isUnderWay = true → c = true
  draining : ∀ i k n, g i = some (k, .draining n) → c = true
  drained : dr = true → c = true
  finished : ∀ i k, g i = some (k, .finished) → dr = true

namespace PhaseSound

variable {c st dr : Bool} {g : ι → Option (GranterKind × GranterState)} {i : ι}
  {k : GranterKind} {s : GranterState}

theorem drained_eq_false (h : PhaseSound c st dr g) (hc : c = false) : dr = false := by
  apply Bool.eq_false_iff.mpr
  intro hd
  rw [h.drained hd] at hc
  cases hc

theorem set [DecidableEq ι] (h : PhaseSound c st dr g) (hl : s = .retiring → k = .loop)
    (hk : k = .closer → s.isUnderWay = true → c = true) (hs : ∀ n, s = .draining n → c = true)
    (hf : s = .finished → dr = true) :
    PhaseSound c st dr (Function.update g i (some (k, s))) := by
  refine ⟨h.stopping, ?_, ?_, ?_, h.drained, ?_⟩
  · intro x k' hx
    obtain ⟨rfl, ⟨⟩⟩ | ⟨-, hx⟩ := update_eq_some.mp hx
    · exact hl rfl
    · exact h.serving x k' hx
  · intro x s' hx hu
    obtain ⟨rfl, ⟨⟩⟩ | ⟨hxi, hx⟩ := update_eq_some.mp hx
    · exact hk rfl hu
    · exact h.closer x s' hx hu
  · intro x k' n hx
    obtain ⟨rfl, ⟨⟩⟩ | ⟨hxi, hx⟩ := update_eq_some.mp hx
    · exact hs n rfl
    · exact h.draining x k' n hx
  · intro x k' hx
    obtain ⟨rfl, ⟨⟩⟩ | ⟨hxi, hx⟩ := update_eq_some.mp hx
    · exact hf rfl
    · exact h.finished x k' hx

theorem close (h : PhaseSound c st dr g) : PhaseSound true true dr g where
  stopping := rfl
  serving := h.serving
  closer _ _ _ _ := rfl
  draining _ _ _ _ := rfl
  drained _ := rfl
  finished := h.finished

theorem drain (h : PhaseSound c st dr g) (hc : c = true) : PhaseSound c st true g where
  stopping := h.stopping
  serving := h.serving
  closer := h.closer
  draining := h.draining
  drained _ := hc
  finished _ _ _ := rfl

end PhaseSound

def Notice.isClosing : Notice → Bool
  | closed _ => true
  | _ => false

/-- The end of the drain is reported once, and nothing was ever left in the queue after it. -/
structure LogSound (ns : List Notice) (dr : Bool) : Prop where
  closings : ns.countP Notice.isClosing = if dr then 1 else 0
  stranded : .stranded ∉ ns

namespace LogSound

variable {ns : List Notice} {dr : Bool}

theorem note (h : LogSound ns dr) {n : Notice} (hc : n.isClosing = false) (hs : n ≠ .stranded) :
    LogSound (ns ++ [n]) dr where
  closings := by simp [List.countP_append, h.closings, hc]
  stranded := by simp [h.stranded, Ne.symm hs]

theorem drain (h : LogSound ns false) (n : Nat) : LogSound (ns ++ [.closed n]) true where
  closings := by simp [List.countP_append, h.closings, Notice.isClosing]
  stranded := by simp [h.stranded]

end LogSound

end Turnstile
