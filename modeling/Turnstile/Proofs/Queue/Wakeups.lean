import Mathlib.Data.Fintype.Basic
import Mathlib.Data.List.Nodup
import Mathlib.Logic.Function.Basic
import Turnstile.Proofs.Queue.History

namespace Turnstile

namespace Signal

variable {ι : Type} {s : Signal ι} {n m : Nat} {i : ι}

def owners (s : Signal ι) : List ι := s.waiters.map Waiter.owner

def marks (s : Signal ι) : Nat := s.waiters.countP Waiter.marked

def AllMarked (s : Signal ι) : Prop := ∀ w ∈ s.waiters, w.marked = true

/-- With `n` elements to be had, no raise of the signal has gone astray: one is stored only while
nobody waits for it, and while somebody does, each element has a waiter that was woken for it. -/
structure Serves (s : Signal ι) (n : Nat) : Prop where
  stored : s.stored = true → s.AllMarked
  served : ¬ s.AllMarked → n ≤ s.marks

theorem Serves.mono (h : s.Serves n) (hm : m ≤ n) : s.Serves m where
  stored := h.stored
  served hu := hm.trans (h.served hu)

theorem markFirst_cases (ws : List (Waiter ι)) :
    markFirst ws = none ∧ (∀ w ∈ ws, w.marked = true) ∨
      ∃ front i back, ws = front ++ ⟨i, false⟩ :: back ∧
        markFirst ws = some (front ++ ⟨i, true⟩ :: back) := by
  induction ws with
  | nil => exact .inl ⟨rfl, by simp⟩
  | cons w ws ih =>
    obtain ⟨i, m⟩ := w
    cases m with
    | false => exact .inr ⟨[], i, ws, rfl, rfl⟩
    | true =>
      obtain ⟨hn, hw⟩ | ⟨front, j, back, hw, hm⟩ := ih
      · exact .inl ⟨by simp [markFirst, hn], by simpa using hw⟩
      · exact .inr ⟨⟨i, true⟩ :: front, j, back, by simp [hw], by simp [markFirst, hm]⟩

theorem raise_cases (s : Signal ι) :
    s.AllMarked ∧ s.raise = { s with stored := true } ∨
      ∃ front i back, s.waiters = front ++ ⟨i, false⟩ :: back ∧
        s.raise = { s with waiters := front ++ ⟨i, true⟩ :: back } := by
  obtain ⟨hn, hw⟩ | ⟨front, i, back, hw, hm⟩ := markFirst_cases s.waiters
  · exact .inl ⟨hw, by simp [raise, hn]⟩
  · exact .inr ⟨front, i, back, hw, by simp [raise, hm]⟩

theorem owners_raise (s : Signal ι) : s.raise.owners = s.owners := by
  obtain ⟨-, h⟩ | ⟨front, i, back, hw, h⟩ := s.raise_cases
  · rw [h]
    rfl
  · simp [owners, h, hw]

theorem Serves.raise (h : s.Serves n) : s.raise.Serves (n + 1) := by
  obtain ⟨hm, hr⟩ | ⟨front, i, back, hw, hr⟩ := s.raise_cases
  · rw [hr]
    exact ⟨fun _ => hm, fun hu => (hu hm).elim⟩
  · have hu : ¬ s.AllMarked := by
      intro ha
      have := ha ⟨i, false⟩ (by simp [hw])
      cases this
    have hn := h.served hu
    rw [hr]
    refine ⟨fun hs => (hu (h.stored hs)).elim, fun _ => ?_⟩
    simp only [marks, hw, List.countP_append, List.countP_cons] at hn ⊢
    simp at hn ⊢
    omega

variable [DecidableEq ι]

theorem owners_remove (s : Signal ι) (i : ι) : (s.remove i).owners = s.owners.filter (· ≠ i) := by
  simp [owners, remove, List.filter_map, Function.comp_def]

theorem isMarked_iff : s.isMarked i = true ↔ ⟨i, true⟩ ∈ s.waiters := by
  simp only [isMarked, List.any_eq_true, Bool.and_eq_true, decide_eq_true_eq]
  constructor
  · rintro ⟨⟨j, m⟩, hw, rfl, rfl⟩
    exact hw
  · intro hw
    exact ⟨_, hw, rfl, rfl⟩

theorem isMarked_of_not_mem (hi : i ∉ s.owners) : s.isMarked i = false := by
  apply Bool.eq_false_iff.mpr
  rw [Ne, isMarked_iff]
  exact fun hw => hi (List.mem_map_of_mem hw)

theorem marks_split (s : Signal ι) (i : ι) :
    s.marks =
      (s.remove i).marks + (s.waiters.filter fun w => w.owner = i).countP Waiter.marked := by
  have h := List.countP_eq_countP_filter_add s.waiters Waiter.marked fun w => w.owner ≠ i
  simpa [marks, remove] using h

theorem marks_le_remove (hd : s.owners.Nodup) (i : ι) : s.marks ≤ (s.remove i).marks + 1 := by
  have hc : (s.waiters.filter fun w => w.owner = i).countP Waiter.marked ≤ 1 := by
    calc (s.waiters.filter fun w => w.owner = i).countP Waiter.marked
        ≤ (s.waiters.filter fun w => w.owner = i).length := List.countP_le_length
      _ = s.owners.count i := by
        rw [owners, List.count, List.countP_map, List.countP_eq_length_filter]
        rfl
      _ ≤ 1 := List.nodup_iff_count_le_one.mp hd i
  rw [s.marks_split i]
  omega

theorem marks_remove_of_not_marked (hm : s.isMarked i = false) : (s.remove i).marks = s.marks := by
  have hc : (s.waiters.filter fun w => w.owner = i).countP Waiter.marked = 0 := by
    rw [List.countP_eq_zero]
    rintro ⟨j, m⟩ hw hj
    obtain ⟨hs, hi⟩ := List.mem_filter.mp hw
    obtain rfl : j = i := by simpa using hi
    obtain rfl : m = true := hj
    rw [isMarked_iff.mpr hs] at hm
    cases hm
  rw [s.marks_split i, hc, Nat.add_zero]

theorem AllMarked.remove (h : s.AllMarked) (i : ι) : (s.remove i).AllMarked :=
  fun w hw => h w (List.mem_filter.mp hw).1

theorem Serves.remove (h : s.Serves n) (hd : s.owners.Nodup) (i : ι) :
    (s.remove i).Serves (n - 1) where
  stored hs := (h.stored hs).remove i
  served hu := by
    have hn := h.served fun ha => hu (ha.remove i)
    have hm := marks_le_remove hd i
    omega

theorem Serves.remove_of_not_marked (h : s.Serves n) (hm : s.isMarked i = false) :
    (s.remove i).Serves n where
  stored hs := (h.stored hs).remove i
  served hu := by
    rw [marks_remove_of_not_marked hm]
    exact h.served fun ha => hu (ha.remove i)

/-- The mark that a waiter leaves behind makes up for the element that it was woken for. -/
theorem Serves.leave (h : s.Serves n) (hd : s.owners.Nodup) (i : ι) : (s.leave i).Serves n := by
  unfold Signal.leave
  split
  · exact (h.remove hd i).raise.mono (by omega)
  · rename_i hm
    exact h.remove_of_not_marked (by simpa using hm)

theorem owners_leave (s : Signal ι) (i : ι) : (s.leave i).owners = s.owners.filter (· ≠ i) := by
  unfold Signal.leave
  split
  · rw [owners_raise, owners_remove]
  · rw [owners_remove]

/-- Those who stand in line are the removals that wait, each once, and with `n` elements to be had
no wake-up is lost on them. -/
structure Attended (s : Signal ι) (n : Nat) (state : ι → Option PopState) : Prop where
  nodup : s.owners.Nodup
  owners : ∀ i, i ∈ s.owners ↔ state i = some .waiting
  serves : s.Serves n

namespace Attended

variable {f g : ι → Option PopState} {p : PopState}

omit [DecidableEq ι] in
theorem congr (h : s.Attended n f) (hfg : ∀ j, f j = some .waiting ↔ g j = some .waiting)
    (hm : m ≤ n) : s.Attended m g where
  nodup := h.nodup
  owners j := (h.owners j).trans (hfg j)
  serves := h.serves.mono hm

omit [DecidableEq ι] in
theorem raise (h : s.Attended n f) : s.raise.Attended (n + 1) f where
  nodup := by rw [owners_raise]; exact h.nodup
  owners j := by rw [owners_raise]; exact h.owners j
  serves := h.serves.raise

theorem mem_filter_iff (h : s.Attended n f) {v : Option PopState} (hv : v ≠ some .waiting) (j : ι) :
    j ∈ s.owners.filter (· ≠ i) ↔ Function.update f i v j = some .waiting := by
  by_cases hj : j = i
  · subst j
    simp [hv]
  · simp [hj, h.owners]

theorem remove (h : s.Attended n f) (i : ι) :
    (s.remove i).Attended (n - 1) (Function.update f i none) where
  nodup := by rw [owners_remove]; exact h.nodup.filter _
  owners j := by rw [owners_remove]; exact h.mem_filter_iff (by simp) j
  serves := h.serves.remove h.nodup i

theorem leave (h : s.Attended n f) (i : ι) (hp : p ≠ .waiting) :
    (s.leave i).Attended n (Function.update f i (some p)) where
  nodup := by rw [owners_leave]; exact h.nodup.filter _
  owners j := by rw [owners_leave]; exact h.mem_filter_iff (by simp [hp]) j
  serves := h.serves.leave h.nodup i

end Attended

end Signal

namespace Queue

variable {ι α : Type} [DecidableEq ι] {q : Queue ι α} {f : ι → Option PopState} {i : ι}

/-- The cases of `popOrRegister`: it makes no difference to a removal that finds an element whether
a raise was stored, and one that finds none stands at the back of the line, unmarked. -/
theorem popOrRegister_cases (hi : i ∉ q.signal.owners) :
    (∃ a rest, q.elements = a :: rest ∧ (q.popOrRegister i).2 = .value a ∧
      (q.popOrRegister i).1.elements = rest ∧
      (q.popOrRegister i).1.signal = { q.signal with stored := false }) ∨
    q.elements = [] ∧ q.popOrRegister i =
      (⟨[], ⟨q.signal.waiters ++ [⟨i, false⟩], false⟩⟩, .pending) := by
  have hr : q.signal.waiters.filter (fun w => w.owner ≠ i) = q.signal.waiters :=
    List.filter_eq_self.mpr fun w hw => decide_eq_true fun he =>
      hi (he ▸ List.mem_map_of_mem hw)
  cases hq : q.elements <;> cases hs : q.signal.stored <;>
    simp_all [popOrRegister, Signal.attend, Signal.remove]

theorem isMarked_popOrRegister (hi : i ∉ q.signal.owners) :
    (q.popOrRegister i).1.signal.isMarked i = false := by
  have hm := Signal.isMarked_of_not_mem hi
  obtain ⟨a, rest, -, -, -, hs⟩ | ⟨-, hp⟩ := popOrRegister_cases hi
  · rw [hs]
    exact hm
  · rw [hp]
    simpa [Signal.isMarked] using hm

theorem attended_popOrRegister
    (h : q.signal.Attended (q.elements.length - 1) (Function.update f i none)) :
    (q.popOrRegister i).1.signal.Attended (q.popOrRegister i).1.elements.length
      (Function.update f i (some (Consumers.settled (q.popOrRegister i).2))) := by
  have hi : i ∉ q.signal.owners := by simp [h.owners]
  obtain ⟨a, rest, hq, hv, he, hs⟩ | ⟨hq, hp⟩ := popOrRegister_cases hi
  · have hn : q.elements.length - 1 = rest.length := by simp [hq]
    rw [hn] at h
    rw [hv, he, hs]
    refine ⟨h.nodup, fun j => (h.owners j).trans ?_, ⟨by simp, h.serves.served⟩⟩
    by_cases hj : j = i
    · subst j
      simp [Consumers.settled]
    · simp [hj]
  · have ho : (q.popOrRegister i).1.signal.owners = q.signal.owners ++ [i] := by
      simp [hp, Signal.owners]
    refine ⟨?_, ?_, ?_⟩
    · rw [ho, ← List.concat_eq_append]
      exact h.nodup.concat hi
    · intro j
      rw [ho, hp, List.mem_append, h.owners, List.mem_singleton]
      by_cases hj : j = i
      · subst j
        simp [Consumers.settled]
      · simp [hj]
    · rw [hp]
      exact ⟨by simp, by simp⟩

end Queue

namespace Consumers

variable {ι τ α : Type} [DecidableEq ι] {c : Consumers ι τ α} {i : ι}

def state? (c : Consumers ι τ α) (i : ι) : Option PopState := (c.pops.get? i).map Pop.state

def Sound (c : Consumers ι τ α) : Prop := c.queue.signal.Attended c.queue.elements.length c.state?

theorem state?_setState (c : Consumers ι τ α) (i : ι) (p : Pop τ) (q : Queue ι α) (s : PopState) :
    (c.setState i p q s).state? = Function.update c.state? i (some s) := by
  funext j
  by_cases h : i = j
  · subst j
    simp [state?, setState, Table.get?_put]
  · simp [state?, setState, Table.get?_put, h, Ne.symm h]

theorem Sound.aside {n : Nat} {v : Option PopState} (hs : c.Sound)
    (hi : c.state? i ≠ some .waiting) (hv : v ≠ some .waiting)
    (hn : n ≤ c.queue.elements.length) :
    c.queue.signal.Attended n (Function.update c.state? i v) := by
  refine Signal.Attended.congr hs (fun j => ?_) hn
  by_cases hj : j = i
  · subst j
    simp [hi, hv]
  · simp [hj]

theorem Sound.not_mem_owners (hs : c.Sound) (hi : c.state? i ≠ some .waiting) :
    i ∉ c.queue.signal.owners := by
  rwa [Signal.Attended.owners hs]

theorem Sound.pollFirst (hs : c.Sound) (hi : c.state? i ≠ some .waiting) (cancelled : Bool) :
    (c.queue.pollFirst i cancelled).1.signal.Attended
        (c.queue.pollFirst i cancelled).1.elements.length
        (Function.update c.state? i (some (settled (c.queue.pollFirst i cancelled).2))) ∧
      (c.queue.pollFirst i cancelled).1.signal.isMarked i = false := by
  have hn := hs.not_mem_owners hi
  cases cancelled with
  | true =>
    exact ⟨hs.aside hi (by simp [settled, Queue.pollFirst]) le_rfl, Signal.isMarked_of_not_mem hn⟩
  | false =>
    exact ⟨Queue.attended_popOrRegister (hs.aside hi (by simp) (Nat.sub_le _ _)),
      Queue.isMarked_popOrRegister hn⟩

theorem Sound.pollAgain (hs : c.Sound) (hi : c.state? i = some .waiting) (cancelled : Bool) :
    (c.queue.pollAgain i cancelled).1.signal.Attended
        (c.queue.pollAgain i cancelled).1.elements.length
        (Function.update c.state? i (some (settled (c.queue.pollAgain i cancelled).2))) ∧
      (c.queue.pollAgain i cancelled).1.signal.isMarked i = false := by
  cases cancelled with
  | true =>
    refine ⟨Signal.Attended.leave hs i (by simp [settled, Queue.pollAgain]),
      Signal.isMarked_of_not_mem ?_⟩
    simp [Queue.pollAgain, Queue.leave, Signal.owners_leave]
  | false =>
    cases hm : c.queue.signal.isMarked i with
    | true =>
      have hp : c.queue.pollAgain i false = (c.queue.stepOut i).popOrRegister i := by
        simp [Queue.pollAgain, hm]
      rw [hp]
      exact ⟨Queue.attended_popOrRegister (q := c.queue.stepOut i) (Signal.Attended.remove hs i),
        Queue.isMarked_popOrRegister (by simp [Queue.stepOut, Signal.owners_remove])⟩
    | false =>
      have hp : c.queue.pollAgain i false = (c.queue, .pending) := by simp [Queue.pollAgain, hm]
      have hu : Function.update c.state? i (some .waiting) = c.state? := by
        rw [← hi, Function.update_eq_self]
      rw [hp]
      refine ⟨?_, hm⟩
      simp only [settled, hu]
      exact hs

theorem Sound.drop (hs : c.Sound) (i : ι) : (c.drop i).Sound := by
  unfold Consumers.drop
  split
  · exact hs
  · rename_i p hp
    split
    · rename_i hst
      unfold Sound
      rw [state?_setState]
      exact hs.aside (by simp [state?, hp, hst]) (by simp) le_rfl
    · unfold Sound
      rw [state?_setState]
      exact Signal.Attended.leave hs i (by simp)
    · exact hs

theorem Sound.create (hs : c.Sound) (hi : c.pops.get? i = none) (token : Token τ) :
    (c.create i token).Sound := by
  have hc : (c.create i token).state? = Function.update c.state? i (some .created) :=
    state?_setState c i ⟨token, .created⟩ c.queue .created
  unfold Sound
  rw [hc]
  exact hs.aside (by simp [state?, hi]) (by simp) le_rfl

theorem Sound.tryPop (hs : c.Sound) : c.tryPop.1.Sound := by
  cases hq : c.queue.elements with
  | nil => simpa [Consumers.tryPop, Queue.tryPop, hq] using hs
  | cons a rest =>
    have h : c.queue.signal.Attended rest.length c.state? :=
      Signal.Attended.congr hs (fun _ => .rfl) (by simp [hq])
    have ht : c.tryPop.1 = { c with queue := { c.queue with elements := rest } } := by
      simp [Consumers.tryPop, Queue.tryPop, hq]
    rw [ht]
    exact h

theorem Sound.push (hs : c.Sound) (a : α) : (c.push a).Sound := by
  change c.queue.signal.raise.Attended (c.queue.elements ++ [a]).length c.state?
  rw [List.length_append]
  exact Signal.Attended.raise hs

variable [DecidableEq τ]

/-- No removal that waits gets any further by a poll. -/
def IsAtRest (c : Consumers ι τ α) : Prop :=
  ∀ i, c.state? i = some .waiting → c.poll i = (c, some .pending)

instance [Fintype ι] [DecidableEq α] (c : Consumers ι τ α) : Decidable c.IsAtRest :=
  inferInstanceAs (Decidable (∀ i, c.state? i = some .waiting → c.poll i = (c, some .pending)))

theorem Sound.poll (hs : c.Sound) (i : ι) :
    (c.poll i).1.Sound ∧ (c.poll i).1.queue.signal.isMarked i = false := by
  have still (hi : c.state? i ≠ some .waiting) :
      c.Sound ∧ c.queue.signal.isMarked i = false :=
    ⟨hs, Signal.isMarked_of_not_mem (hs.not_mem_owners hi)⟩
  unfold Consumers.poll
  split
  · rename_i hp
    exact still (by simp [state?, hp])
  · rename_i p hp
    split
    · rename_i hst
      unfold Sound
      rw [state?_setState]
      exact hs.pollFirst (by simp [state?, hp, hst]) _
    · rename_i hst
      unfold Sound
      rw [state?_setState]
      exact hs.pollAgain (by simp [state?, hp, hst]) _
    · rename_i hst
      exact still (by simpa [state?, hp] using hst)

theorem Sound.act (hs : c.Sound) (a : Action ι τ α) : (c.act a).Sound := by
  cases a with
  | push a => exact hs.push a
  | tryPop => exact hs.tryPop
  | create i token =>
    cases hi : c.pops.get? i with
    | none => simpa [Consumers.act, Table.contains, hi] using hs.create hi token
    | some p => simpa [Consumers.act, Table.contains, hi] using hs
  | poll i => exact (hs.poll i).1
  | drop i => exact hs.drop i
  | cancel t => exact hs

omit [DecidableEq τ] in
theorem sound_empty : ({} : Consumers ι τ α).Sound where
  nodup := List.nodup_nil
  owners := by simp [Signal.owners, state?, Table.get?]
  serves := ⟨by simp, by simp⟩

theorem History.Reachable.sound {h : History ι τ α} (hr : h.Reachable) : h.consumers.Sound := by
  induction hr with
  | fresh => exact sound_empty
  | step a _ ih => exact ih.act a

theorem Sound.unmarked_of_isAtRest (hs : c.Sound) (hc : c.IsAtRest) {w : Waiter ι}
    (hw : w ∈ c.queue.signal.waiters) : w.marked = false := by
  have hi : c.state? w.owner = some .waiting :=
    (Signal.Attended.owners hs w.owner).mp (List.mem_map_of_mem hw)
  have hm := (hs.poll w.owner).2
  rw [hc w.owner hi] at hm
  apply Bool.eq_false_iff.mpr
  intro ht
  have : c.queue.signal.isMarked w.owner = true := Signal.isMarked_iff.mpr (ht ▸ hw)
  rw [hm] at this
  cases this

end Consumers

open Consumers History

variable {ι τ α : Type} [DecidableEq ι] [DecidableEq τ] {h : Consumers.History ι τ α}

/-- The removals that wait stand in line, each once. A raise of the signal is stored only while all
of them are marked, and while one is not, no more elements are queued than there are marks; a poll
takes the mark away. So when nobody gets any further, nothing is queued or nobody waits. -/
theorem no_wakeup_lost (hr : h.Reachable) :
    let c := h.consumers
    let s := c.queue.signal
    (s.owners.Nodup ∧ ∀ i, i ∈ s.owners ↔ c.state? i = some .waiting) ∧
    (s.stored = true → ∀ w ∈ s.waiters, w.marked = true) ∧
    ((∃ w ∈ s.waiters, w.marked = false) →
      c.queue.elements.length ≤ s.waiters.countP Waiter.marked) ∧
    (∀ i, (c.poll i).1.queue.signal.isMarked i = false) ∧
    (c.IsAtRest → c.queue.elements = [] ∨ ∀ i, c.state? i ≠ some .waiting) := by
  have hs := hr.sound
  have hd := hs.serves
  have hserved (hu : ∃ w ∈ h.consumers.queue.signal.waiters, w.marked = false) :
      h.consumers.queue.elements.length ≤
        h.consumers.queue.signal.waiters.countP Waiter.marked := by
    obtain ⟨w, hw, hm⟩ := hu
    refine hd.served fun ha => ?_
    rw [ha w hw] at hm
    cases hm
  refine ⟨⟨hs.nodup, hs.owners⟩, hd.stored, hserved, fun i => (hs.poll i).2, fun hc => ?_⟩
  by_cases hi : ∃ i, h.consumers.state? i = some .waiting
  · obtain ⟨i, hi⟩ := hi
    obtain ⟨w, hw, -⟩ := List.mem_map.mp ((hs.owners i).mpr hi)
    -- at rest nobody is marked, so there is no mark left that an element could be meant for
    have hn := hserved ⟨w, hw, hs.unmarked_of_isAtRest hc hw⟩
    have hz : h.consumers.queue.signal.waiters.countP Waiter.marked = 0 := by
      rw [List.countP_eq_zero]
      intro v hv
      simp [hs.unmarked_of_isAtRest hc hv]
    exact .inl (List.length_eq_zero_iff.mp (by omega))
  · exact .inr (by simpa using hi)

/-- The first of two removals is woken, but a third takes the element: the first goes to the back of
the line, and the next push is for the second. -/
theorem no_wakeup_lost_barging :
    let h := ({} : Consumers.History (Fin 3) Nat Nat).after [.create 0 ⟨0, []⟩, .create 1 ⟨0, []⟩,
      .poll 0, .poll 1, .push 7, .create 2 ⟨0, []⟩, .poll 2, .poll 0]
    (h.consumers.IsAtRest ∧ h.consumers.state? 1 = some .waiting ∧
      h.consumers.queue.elements = []) ∧
    (h.step (.push 8)).consumers.queue.signal.waiters = [⟨1, true⟩, ⟨0, false⟩] ∧
      (h.step (.push 8)).consumers.queue.elements.length ≤ 1 :=
  have hr := Reachable.fresh.after [.create 0 ⟨0, []⟩, .create 1 ⟨0, []⟩, .poll 0, .poll 1,
    .push 7, .create 2 ⟨0, []⟩, .poll 2, .poll 0]
  have hd := by decide
  have hw := by decide
  ⟨⟨hd, hw, ((no_wakeup_lost hr).2.2.2.2 hd).resolve_right fun hn => hn 1 hw⟩, by decide,
    (no_wakeup_lost (hr.step (.push 8))).2.2.1 ⟨⟨0, false⟩, by decide, rfl⟩⟩

end Turnstile
