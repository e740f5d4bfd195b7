import Turnstile.Proofs.Queue.Wakeups

namespace Turnstile

namespace Signal

variable {ι : Type}

/-- The line and the store after a signal was handed on to them: the first waiter that has no mark
gets it, and if all have one it is stored. -/
def HandedOn (s : Signal ι) (waiters : List (Waiter ι)) (stored : Bool) : Prop :=
  (∃ front i back, waiters = front ++ ⟨i, false⟩ :: back ∧ (∀ w ∈ front, w.marked = true) ∧
    s = ⟨front ++ ⟨i, true⟩ :: back, stored⟩) ∨
  (∀ w ∈ waiters, w.marked = true) ∧ s = ⟨waiters, true⟩

def others [DecidableEq ι] (s : Signal ι) (i : ι) : List (Waiter ι) := (s.remove i).waiters

theorem exists_first_unmarked (ws : List (Waiter ι)) :
    (∀ w ∈ ws, w.marked = true) ∨
      ∃ front i back, ws = front ++ ⟨i, false⟩ :: back ∧ ∀ w ∈ front, w.marked = true := by
  induction ws with
  | nil => exact .inl (by simp)
  | cons w ws ih =>
    obtain ⟨i, m⟩ := w
    cases m with
    | false => exact .inr ⟨[], i, ws, rfl, by simp⟩
    | true =>
      obtain hall | ⟨front, j, back, rfl, hf⟩ := ih
      · exact .inl (List.forall_mem_cons.mpr ⟨rfl, hall⟩)
      · exact .inr ⟨⟨i, true⟩ :: front, j, back, rfl, List.forall_mem_cons.mpr ⟨rfl, hf⟩⟩

theorem markFirst_append {front : List (Waiter ι)} (hf : ∀ w ∈ front, w.marked = true)
    (ws : List (Waiter ι)) : markFirst (front ++ ws) = (markFirst ws).map (front ++ ·) := by
  induction front with
  | nil => simp
  | cons w front ih =>
    obtain ⟨hw, hf⟩ := List.forall_mem_cons.mp hf
    simp [markFirst, hw, ih hf, Function.comp_def]

theorem raise_handedOn (s : Signal ι) : s.raise.HandedOn s.waiters s.stored := by
  obtain hall | ⟨front, i, back, hw, hf⟩ := exists_first_unmarked s.waiters
  · have hm := markFirst_append hall []
    rw [List.append_nil] at hm
    exact .inr ⟨hall, by simp [raise, hm, markFirst]⟩
  · refine .inl ⟨front, i, back, hw, hf, ?_⟩
    simp [raise, hw, markFirst_append hf, markFirst]

end Signal

namespace Queue

variable {ι α : Type} [DecidableEq ι]

def select (q : Queue ι α) (i : ι) (cancelled woken : Bool) : Queue ι α × Option (Popped α) :=
  if cancelled then (if woken then q else q.leave i, some .cancelled)
  else if woken then (q, none)
  else if q.signal.isMarked i then (q.stepOut i, none)
  else (q, some .pending)

/-- One round of a removal: it registers, or takes the stored signal, looks for an element, and if
there is none it has to wait. No answer if it goes round again. -/
def round (q : Queue ι α) (i : ι) (cancelled : Bool) : Queue ι α × Option (Popped α) :=
  let r := q.signal.attend i
  let q : Queue ι α := { q with signal := r.1 }
  match q.tryPop with
  | (q, some a) => (if r.2 then q else q.leave i, some (.value a))
  | (q, none) => q.select i cancelled r.2

inductive Rounds (i : ι) (cancelled : Bool) :
    Nat → Queue ι α → Queue ι α × Popped α → Prop where
  | last {q q' : Queue ι α} {p : Popped α} (h : q.round i cancelled = (q', some p)) :
      Rounds i cancelled 1 q (q', p)
  | again {q q' : Queue ι α} {r : Queue ι α × Popped α} {n : Nat}
      (h : q.round i cancelled = (q', none)) (hr : Rounds i cancelled n q' r) :
      Rounds i cancelled (n + 1) q r

/-- A poll runs until the removal answers. The first one looks at the token before it begins, and
a later one goes on where the last has left off, in the middle of a round. -/
inductive Polls (i : ι) (cancelled : Bool) :
    PopState → Nat → Queue ι α → Queue ι α × Popped α → Prop where
  | refused {q : Queue ι α} (hc : cancelled = true) :
      Polls i cancelled .created 0 q (q, .cancelled)
  | begins {q : Queue ι α} {r : Queue ι α × Popped α} {n : Nat} (hc : cancelled = false)
      (hr : Rounds i cancelled n q r) : Polls i cancelled .created n q r
  | rests {q q' : Queue ι α} {p : Popped α} (h : q.select i cancelled false = (q', some p)) :
      Polls i cancelled .waiting 1 q (q', p)
  | resumes {q q' : Queue ι α} {r : Queue ι α × Popped α} {n : Nat}
      (h : q.select i cancelled false = (q', none)) (hr : Rounds i cancelled n q' r) :
      Polls i cancelled .waiting (n + 1) q r

variable {q : Queue ι α} {i : ι} {r : Queue ι α × Popped α} {n : Nat}

theorem isMarked_attend {s : Signal ι} (hi : i ∉ s.owners) :
    (s.attend i).1.isMarked i = false := by
  have hm := Signal.isMarked_of_not_mem hi
  unfold Signal.attend
  split
  · exact hm
  · simpa [Signal.isMarked] using hm

theorem remove_of_not_mem {s : Signal ι} (hi : i ∉ s.owners) : s.remove i = s := by
  have hr : s.waiters.filter (fun w => w.owner ≠ i) = s.waiters :=
    List.filter_eq_self.mpr fun w hw => decide_eq_true fun he =>
      hi (he ▸ List.mem_map_of_mem hw)
  simp only [Signal.remove, hr]

theorem leave_attend {s : Signal ι} (hi : i ∉ s.owners) (hs : s.stored = false) :
    (s.attend i).1.leave i = s := by
  have hr := remove_of_not_mem hi
  have hm := isMarked_attend hi
  have ha : (s.attend i).1 = { s with waiters := s.waiters ++ [⟨i, false⟩] } := by
    simp [Signal.attend, hs]
  rw [Signal.leave, hm, ha]
  simpa [Signal.remove] using hr

theorem round_of_cons {a : α} {rest : List α} (hi : i ∉ q.signal.owners)
    (hq : q.elements = a :: rest) (c : Bool) :
    q.round i c = (⟨rest, { q.signal with stored := false }⟩, some (.value a)) := by
  cases hs : q.signal.stored with
  | true => simp [round, tryPop, Signal.attend, hq, hs]
  | false =>
    have hl := leave_attend hi hs
    have ha : (q.signal.attend i).2 = false := by simp [Signal.attend, hs]
    have he : { q.signal with stored := false } = q.signal := by rw [← hs]
    simp only [round, tryPop, hq, ha, leave, hl, he]
    simp

theorem round_of_nil_stored (hq : q.elements = []) (hs : q.signal.stored = true) :
    q.round i false = (⟨[], { q.signal with stored := false }⟩, none) := by
  simp [round, tryPop, Signal.attend, hq, hs, select]

theorem round_of_nil (hi : i ∉ q.signal.owners) (hq : q.elements = [])
    (hs : q.signal.stored = false) :
    q.round i false = (⟨[], ⟨q.signal.waiters ++ [⟨i, false⟩], false⟩⟩, some .pending) := by
  have hm := isMarked_attend hi
  have ha : q.signal.attend i = (⟨q.signal.waiters ++ [⟨i, false⟩], false⟩, false) := by
    simp [Signal.attend, hs]
  rw [ha] at hm
  simp [round, tryPop, hq, ha, select, hm]

theorem rounds_of_last {c : Bool} {q' : Queue ι α} {p : Popped α}
    (h : q.round i c = (q', some p)) : Rounds i c n q r ↔ n = 1 ∧ r = (q', p) := by
  constructor
  · intro hr
    cases hr with
    | last h' =>
      rw [h] at h'
      cases h'
      exact ⟨rfl, rfl⟩
    | again h' _ =>
      rw [h] at h'
      cases h'
  · rintro ⟨rfl, rfl⟩
    exact .last h

theorem rounds_of_again {c : Bool} {q' : Queue ι α} (h : q.round i c = (q', none)) :
    Rounds i c n q r ↔ ∃ m, n = m + 1 ∧ Rounds i c m q' r := by
  constructor
  · intro hr
    cases hr with
    | last h' =>
      rw [h] at h'
      cases h'
    | again h' hr =>
      rw [h] at h'
      cases h'
      exact ⟨_, rfl, hr⟩
  · rintro ⟨m, rfl, hr⟩
    exact .again h hr

theorem popOrRegister_of_cons {a : α} {rest : List α} (hi : i ∉ q.signal.owners)
    (hq : q.elements = a :: rest) :
    q.popOrRegister i = (⟨rest, { q.signal with stored := false }⟩, .value a) := by
  obtain ⟨b, rest', hq', hv, he, hs⟩ | ⟨hn, -⟩ := popOrRegister_cases hi
  · rw [hq] at hq'
    cases hq'
    rw [← he, ← hs, ← hv]
  · rw [hq] at hn
    cases hn

theorem popOrRegister_of_nil (hi : i ∉ q.signal.owners) (hq : q.elements = []) :
    q.popOrRegister i = (⟨[], ⟨q.signal.waiters ++ [⟨i, false⟩], false⟩⟩, .pending) := by
  obtain ⟨a, rest, hq', -⟩ | ⟨-, hp⟩ := popOrRegister_cases hi
  · rw [hq] at hq'
    cases hq'
  · exact hp

/-- What one poll of `i` does to a queue and answers. The others keep their order and their marks,
but for the mark that is handed on. -/
structure Answers (q : Queue ι α) (i : ι) (first cancelled : Bool) (r : Queue ι α × Popped α) :
    Prop where
  refused : cancelled = true → r.2 = .cancelled ∧ r.1.elements = q.elements
  kept : cancelled = true → first = true → r.1.signal = q.signal
  left : cancelled = true → first = false → q.signal.isMarked i = false →
    r.1.signal = ⟨q.signal.others i, q.signal.stored⟩
  handedOn : cancelled = true → first = false → q.signal.isMarked i = true →
    r.1.signal.HandedOn (q.signal.others i) q.signal.stored
  taken : cancelled = false → first = true ∨ q.signal.isMarked i = true →
    ∀ a rest, q.elements = a :: rest → r = (⟨rest, ⟨q.signal.others i, false⟩⟩, .value a)
  registered : cancelled = false → first = true ∨ q.signal.isMarked i = true →
    q.elements = [] → r = (⟨[], ⟨q.signal.others i ++ [⟨i, false⟩], false⟩⟩, .pending)
  still : cancelled = false → first = false → q.signal.isMarked i = false → r = (q, .pending)

/-- How many rounds it takes: a second one only comes after one that has used up the stored
signal in vain, so there is no third. -/
def roundsToGo (q : Queue ι α) : Nat :=
  match q.elements with
  | [] => if q.signal.stored then 2 else 1
  | _ :: _ => 1

omit [DecidableEq ι] in
theorem roundsToGo_le (q : Queue ι α) : q.roundsToGo ≤ 2 := by
  unfold roundsToGo
  split
  · split <;> omega
  · omega

theorem rounds_iff (hi : i ∉ q.signal.owners) :
    Rounds i false n q r ↔ n = q.roundsToGo ∧ r = q.popOrRegister i := by
  cases hq : q.elements with
  | cons a rest =>
    rw [rounds_of_last (round_of_cons hi hq false), popOrRegister_of_cons hi hq]
    simp [roundsToGo, hq]
  | nil =>
    rw [popOrRegister_of_nil hi hq]
    cases hs : q.signal.stored with
    | false =>
      rw [rounds_of_last (round_of_nil hi hq hs)]
      simp [roundsToGo, hq, hs]
    | true =>
      have hlast : (⟨[], { q.signal with stored := false }⟩ : Queue ι α).round i false =
          (⟨[], ⟨q.signal.waiters ++ [⟨i, false⟩], false⟩⟩, some .pending) :=
        round_of_nil hi rfl rfl
      rw [rounds_of_again (round_of_nil_stored hq hs)]
      simp [rounds_of_last hlast, roundsToGo, hq, hs]

theorem polls_created_iff (hi : i ∉ q.signal.owners) (c : Bool) :
    Polls i c .created n q r ↔ n = (if c then 0 else q.roundsToGo) ∧ r = q.pollFirst i c := by
  cases c with
  | true =>
    constructor
    · rintro (_ | _)
      · exact ⟨rfl, rfl⟩
      · contradiction
    · rintro ⟨rfl, rfl⟩
      exact .refused rfl
  | false =>
    constructor
    · rintro (_ | ⟨-, hr⟩)
      · contradiction
      · exact (rounds_iff hi).mp hr
    · intro hr
      exact .begins rfl ((rounds_iff hi).mpr hr)

theorem polls_waiting_of_some {c : Bool} {q' : Queue ι α} {p : Popped α}
    (h : q.select i c false = (q', some p)) : Polls i c .waiting n q r ↔ n = 1 ∧ r = (q', p) := by
  constructor
  · rintro (_ | _ | h' | ⟨h', -⟩)
    · rw [h] at h'
      cases h'
      exact ⟨rfl, rfl⟩
    · rw [h] at h'
      cases h'
  · rintro ⟨rfl, rfl⟩
    exact .rests h

theorem polls_waiting_of_none {c : Bool} {q' : Queue ι α} (h : q.select i c false = (q', none)) :
    Polls i c .waiting n q r ↔ ∃ m, n = m + 1 ∧ Rounds i c m q' r := by
  constructor
  · rintro (_ | _ | h' | ⟨h', hr⟩)
    · rw [h] at h'
      cases h'
    · rw [h] at h'
      cases h'
      exact ⟨_, rfl, hr⟩
  · rintro ⟨m, rfl, hr⟩
    exact .resumes h hr

theorem not_mem_owners_stepOut (q : Queue ι α) (i : ι) : i ∉ (q.stepOut i).signal.owners := by
  simp [stepOut, Signal.owners_remove]

theorem polls_waiting_iff (q : Queue ι α) (c : Bool) :
    Polls i c .waiting n q r ↔
      n = (if c = false ∧ q.signal.isMarked i = true then (q.stepOut i).roundsToGo + 1 else 1) ∧
        r = q.pollAgain i c := by
  cases c with
  | true =>
    have hsel : q.select i true false = (q.leave i, some .cancelled) := by simp [select]
    rw [polls_waiting_of_some hsel]
    simp [pollAgain]
  | false =>
    cases hm : q.signal.isMarked i with
    | false =>
      have hsel : q.select i false false = (q, some .pending) := by simp [select, hm]
      rw [polls_waiting_of_some hsel]
      simp [pollAgain, hm]
    | true =>
      have hsel : q.select i false false = (q.stepOut i, none) := by simp [select, hm]
      rw [polls_waiting_of_none hsel]
      simp [rounds_iff (not_mem_owners_stepOut q i), pollAgain, hm]

theorem answers_pollFirst (hi : i ∉ q.signal.owners) (c : Bool) :
    q.Answers i true c (q.pollFirst i c) := by
  have hm := Signal.isMarked_of_not_mem hi
  have ho : q.signal.others i = q.signal.waiters := congrArg Signal.waiters (remove_of_not_mem hi)
  cases c with
  | true =>
    refine ⟨?_, ?_, by simp, by simp, by simp, by simp, by simp⟩
    · intro _
      simp [pollFirst]
    · intro _ _
      simp [pollFirst]
  | false =>
    refine ⟨by simp, by simp, by simp, by simp, ?_, ?_, by simp⟩
    · intro _ _ a rest hq
      rw [ho]
      exact popOrRegister_of_cons hi hq
    · intro _ _ hq
      rw [ho]
      exact popOrRegister_of_nil hi hq

theorem answers_pollAgain (q : Queue ι α) (i : ι) (c : Bool) :
    q.Answers i false c (q.pollAgain i c) := by
  have hi := not_mem_owners_stepOut q i
  cases hm : q.signal.isMarked i with
  | false =>
    cases c with
    | true =>
      refine ⟨by simp [pollAgain, leave], by simp, ?_, by simp [hm], by simp, by simp, by simp⟩
      intro _ _ _
      simp [pollAgain, leave, Signal.leave, hm, Signal.others, Signal.remove]
    | false =>
      refine ⟨by simp, by simp, by simp, by simp, by simp [hm], by simp [hm], ?_⟩
      intro _ _ _
      simp [pollAgain, hm]
  | true =>
    cases c with
    | true =>
      refine ⟨by simp [pollAgain, leave], by simp, by simp [hm], ?_, by simp, by simp, by simp⟩
      intro _ _ _
      have hp : (q.pollAgain i true).1.signal = (q.signal.remove i).raise := by
        simp [pollAgain, leave, Signal.leave, hm]
      rw [hp]
      exact (q.signal.remove i).raise_handedOn
    | false =>
      have hp : q.pollAgain i false = (q.stepOut i).popOrRegister i := by simp [pollAgain, hm]
      refine ⟨by simp, by simp, by simp, by simp, ?_, ?_, by simp [hm]⟩
      · intro _ _ a rest hq
        rw [hp]
        exact popOrRegister_of_cons hi hq
      · intro _ _ hq
        rw [hp]
        exact popOrRegister_of_nil hi hq

end Queue

namespace Consumers

variable {ι τ α : Type} [DecidableEq ι] [DecidableEq τ] {c : Consumers ι τ α} {i : ι} {p : Pop τ}

theorem poll_of_created (hp : c.pops.get? i = some p) (hc : p.state = .created) :
    c.poll i =
      let r := c.queue.pollFirst i (p.token.isCancelled c.cancelled)
      (c.setState i p r.1 (settled r.2), some r.2) := by
  simp [Consumers.poll, hp, hc]

theorem poll_of_waiting (hp : c.pops.get? i = some p) (hc : p.state = .waiting) :
    c.poll i =
      let r := c.queue.pollAgain i (p.token.isCancelled c.cancelled)
      (c.setState i p r.1 (settled r.2), some r.2) := by
  simp [Consumers.poll, hp, hc]

end Consumers

open Consumers History

variable {ι τ α : Type} [DecidableEq ι] [DecidableEq τ] {h : Consumers.History ι τ α}

/-- A poll of a removal that has not ended always comes to its end, after three rounds at most, and
there is one thing only that it does and answers. -/
theorem poll_has_one_answer (hr : h.Reachable) {i : ι} {p : Pop τ}
    (hp : h.consumers.pops.get? i = some p) (hl : p.isLive = true) :
    let c := h.consumers
    let cancelled := p.token.isCancelled c.cancelled
    ∃ r, c.poll i = (c.setState i p r.1 (settled r.2), some r.2) ∧
      (∃ n ≤ 3, ∀ m r', Queue.Polls i cancelled p.state m c.queue r' ↔ m = n ∧ r' = r) ∧
      c.queue.Answers i (p.state = .created) cancelled r := by
  have hs := hr.sound
  intro c cancelled
  cases hst : p.state with
  | finished | dropped => simp [Pop.isLive, hst] at hl
  | created =>
    have hi : i ∉ c.queue.signal.owners := hs.not_mem_owners (by simp [state?, hp, hst])
    refine ⟨_, poll_of_created hp hst, ⟨if cancelled then 0 else c.queue.roundsToGo, ?_, ?_⟩, ?_⟩
    · have := c.queue.roundsToGo_le
      split <;> omega
    · exact fun m r' => Queue.polls_created_iff hi cancelled
    · exact Queue.answers_pollFirst hi cancelled
  | waiting =>
    refine ⟨_, poll_of_waiting hp hst, ⟨_, ?_, fun m r' => c.queue.polls_waiting_iff cancelled⟩, ?_⟩
    · have := (c.queue.stepOut i).roundsToGo_le
      split <;> omega
    · exact c.queue.answers_pollAgain i cancelled

/-- Its mark was for an element that is gone, and so was the stored signal: the removal goes round
three times and waits again. -/
theorem poll_has_one_answer_stale :
    let h := ({} : Consumers.History Nat Nat String).after [.create 0 ⟨0, []⟩, .poll 0, .push "a",
      .push "b", .tryPop, .tryPop]
    let q := h.consumers.queue
    (h.consumers.pops.get? 0 = some ⟨⟨0, []⟩, .waiting⟩ ∧ q = ⟨[], ⟨[⟨0, true⟩], true⟩⟩) ∧
      (h.consumers.poll 0).2 = some .pending ∧
      (h.consumers.poll 0).1.queue = ⟨[], ⟨[⟨0, false⟩], false⟩⟩ ∧
      ∀ m r, Queue.Polls 0 false .waiting m q r → m = 3 := by
  intro h q
  have hr : h.Reachable := Reachable.fresh.after _
  have hp : h.consumers.pops.get? 0 = some ⟨⟨0, []⟩, .waiting⟩ := by decide
  have hq : q = ⟨[], ⟨[⟨0, true⟩], true⟩⟩ := by decide
  obtain ⟨r, hpoll, ⟨n, -, hn⟩, ha⟩ := poll_has_one_answer hr hp rfl
  have hm : q.signal.isMarked 0 = true := by decide
  have hwait := ha.registered rfl (.inr hm) (by decide)
  -- the loop as it runs: the mark, the stored signal, the line
  have hloop : Queue.Polls 0 false .waiting 3 q (⟨[], ⟨[⟨0, false⟩], false⟩⟩, .pending) :=
    .resumes rfl (.again rfl (.last rfl))
  have h3 : 3 = n := ((hn _ _).mp hloop).1
  refine ⟨⟨hp, hq⟩, ?_, ?_, ?_⟩
  · rw [hpoll, hwait]
  · rw [hpoll, hwait]
    decide
  · intro m r' hr'
    rw [h3]
    exact ((hn m r').mp hr').1

end Turnstile
