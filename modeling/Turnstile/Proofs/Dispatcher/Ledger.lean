import Mathlib.Data.List.Nodup
import Turnstile.Proofs.Dispatcher.Polls

namespace Turnstile

def Submission.isIn : Submission → Bool
  | waiting _ | granted _ | running | ended .returned | ended .panicked => true
  | _ => false

def Submission.isOut : Submission → Bool
  | created | entering _ | ended .rejected | ended .stranded | ended .abandoned => true
  | _ => false

def Submission.hasStarted : Submission → Bool
  | running | ended .returned | ended .panicked => true
  | _ => false

structure Recorded (s : Option Submission) (accepted started : Prop) : Prop where
  notOut : accepted → ∃ t, s = some t ∧ t.isOut = false
  isIn : ∀ t, s = some t → t.isIn = true → accepted
  hasStarted : started ↔ ∃ t, s = some t ∧ t.hasStarted = true

/-- How the states of the submissions and what is queued agree with a history: the accepted
submissions are those that have left the queue, in whose order the callbacks started, and then
those that are queued. Whoever has the turn was the last to leave. -/
structure Ledger {ι : Type} (sub : ι → Option Submission) (queued accepted started : List ι) :
    Prop where
  split : ∃ gone, accepted = gone ++ queued ∧ started.Sublist gone ∧
    ∀ i s, sub i = some s → s.hasTurn = true → ∃ front, gone = front ++ [i]
  nodup : accepted.Nodup
  recorded : ∀ i, Recorded (sub i) (i ∈ accepted) (i ∈ started)

namespace Ledger

variable {ι : Type} {sub : ι → Option Submission} {q acc acc' st st' rest : List ι} {i j : ι}

theorem sublist (h : Ledger sub q acc st) : st.Sublist acc := by
  obtain ⟨gone, rfl, hst, -⟩ := h.split
  exact hst.trans (List.sublist_append_left gone q)

theorem mem_accepted_of_queued (h : Ledger sub q acc st) (hi : i ∈ q) : i ∈ acc := by
  obtain ⟨gone, rfl, -⟩ := h.split
  exact List.mem_append_right gone hi

theorem not_mem_of_isOut (h : Ledger sub q acc st) {s : Submission} (hi : sub i = some s)
    (hs : s.isOut = true) : i ∉ acc := by
  intro hm
  obtain ⟨t, ht, ho⟩ := (h.recorded i).notOut hm
  rw [hi] at ht
  cases ht
  rw [hs] at ho
  cases ho

theorem recorded_update [DecidableEq ι] (h : Ledger sub q acc st)
    (ha : ∀ x, x ≠ i → (x ∈ acc' ↔ x ∈ acc)) (hs : ∀ x, x ≠ i → (x ∈ st' ↔ x ∈ st))
    {v : Submission} (hv : Recorded (some v) (i ∈ acc') (i ∈ st')) (x : ι) :
    Recorded (Function.update sub i (some v) x) (x ∈ acc') (x ∈ st') := by
  by_cases hx : x = i
  · subst x
    rwa [Function.update_self]
  · rw [Function.update_of_ne hx, ha x hx, hs x hx]
    exact h.recorded x

theorem set [DecidableEq ι] (h : Ledger sub q acc st) {u v : Submission} (hi : sub i = some u)
    (ht : v.hasTurn = true → u.hasTurn = true) (ho : v.isOut = true → u.isOut = true)
    (hin : v.isIn = true → u.isIn = true) (hs : v.hasStarted = u.hasStarted) :
    Ledger (Function.update sub i (some v)) q acc st := by
  obtain ⟨gone, hg, hst, hturn⟩ := h.split
  have hr := h.recorded i
  rw [hi] at hr
  refine ⟨⟨gone, hg, hst, ?_⟩, h.nodup, h.recorded_update (by simp) (by simp) ⟨?_, ?_, ?_⟩⟩
  · intro x s hx hxs
    obtain ⟨rfl, rfl⟩ | ⟨-, hx⟩ := update_eq_some.mp hx
    · exact hturn x u hi (ht hxs)
    · exact hturn x s hx hxs
  · intro hm
    refine ⟨v, rfl, Bool.eq_false_iff.mpr fun hv => ?_⟩
    exact h.not_mem_of_isOut hi (ho hv) hm
  · rintro _ ⟨⟩ hv
    exact hr.isIn u rfl (hin hv)
  · simpa [hs] using hr.hasStarted

theorem create [DecidableEq ι] (h : Ledger sub q acc st) (hi : sub i = none) :
    Ledger (Function.update sub i (some .created)) q acc st := by
  obtain ⟨gone, hg, hst, hturn⟩ := h.split
  have hr := h.recorded i
  rw [hi] at hr
  refine ⟨⟨gone, hg, hst, ?_⟩, h.nodup, h.recorded_update (by simp) (by simp) ⟨?_, ?_, ?_⟩⟩
  · intro x s hx hxs
    obtain ⟨rfl, rfl⟩ | ⟨-, hx⟩ := update_eq_some.mp hx
    · cases hxs
    · exact hturn x s hx hxs
  · intro hm
    obtain ⟨t, ht, -⟩ := hr.notOut hm
    cases ht
  · rintro _ ⟨⟩ hv
    cases hv
  · simpa [Submission.hasStarted] using hr.hasStarted

theorem accept [DecidableEq ι] (h : Ledger sub q acc st) (hi : sub i = some .created) (t : Nat) :
    Ledger (Function.update sub i (some (.waiting t))) (q ++ [i]) (acc ++ [i]) st := by
  have hni := h.not_mem_of_isOut hi rfl
  obtain ⟨gone, hg, hst, hturn⟩ := h.split
  have hr := h.recorded i
  rw [hi] at hr
  refine ⟨⟨gone, by rw [hg, List.append_assoc], hst, ?_⟩, ?_,
    h.recorded_update (fun x hx => by simp [hx]) (by simp) ⟨?_, ?_, ?_⟩⟩
  · intro x s hx hxs
    obtain ⟨rfl, rfl⟩ | ⟨-, hx⟩ := update_eq_some.mp hx
    · cases hxs
    · exact hturn x s hx hxs
  · rw [← List.concat_eq_append]
    exact h.nodup.concat hni
  · exact fun _ => ⟨_, rfl, rfl⟩
  · simp
  · simpa [Submission.hasStarted] using hr.hasStarted

theorem pop (h : Ledger sub (j :: rest) acc st)
    (hn : ∀ i s, sub i = some s → s.hasTurn = false) : Ledger sub rest acc st := by
  obtain ⟨gone, hg, hst, -⟩ := h.split
  refine ⟨⟨gone ++ [j], by simp [hg], hst.trans (List.sublist_append_left gone _), ?_⟩, h.nodup,
    h.recorded⟩
  intro x s hx hxs
  rw [hn x s hx] at hxs
  cases hxs

theorem grant [DecidableEq ι] {t : Nat} (h : Ledger sub (j :: rest) acc st)
    (hn : ∀ i s, sub i = some s → s.hasTurn = false) (hj : sub j = some (.waiting t)) :
    Ledger (Function.update sub j (some (.granted t))) rest acc st := by
  obtain ⟨gone, hg, hst, -⟩ := h.split
  have hr := h.recorded j
  rw [hj] at hr
  refine ⟨⟨gone ++ [j], by simp [hg], hst.trans (List.sublist_append_left gone _), ?_⟩, h.nodup,
    h.recorded_update (by simp) (by simp) ⟨fun _ => ⟨_, rfl, rfl⟩, ?_, ?_⟩⟩
  · intro x s hx hxs
    obtain ⟨rfl, -⟩ | ⟨-, hx⟩ := update_eq_some.mp hx
    · exact ⟨gone, rfl⟩
    · rw [hn x s hx] at hxs
      cases hxs
  · exact fun _ _ _ => hr.isIn _ rfl rfl
  · simpa [Submission.hasStarted] using hr.hasStarted

theorem call [DecidableEq ι] {t : Nat} (h : Ledger sub q acc st) (hi : sub i = some (.granted t)) :
    Ledger (Function.update sub i (some .running)) q acc (st ++ [i]) := by
  obtain ⟨gone, hg, hst, hturn⟩ := h.split
  have hr := h.recorded i
  rw [hi] at hr
  have hni : i ∉ st := by simp [hr.hasStarted, Submission.hasStarted]
  obtain ⟨front, rfl⟩ := hturn i _ hi rfl
  have hf : st.Sublist front := by
    obtain ⟨l₁, l₂, rfl, h₁, h₂⟩ := List.sublist_append_iff.mp hst
    have hl : l₂ = [] := by
      refine List.eq_nil_iff_forall_not_mem.mpr fun x hx => hni ?_
      obtain rfl := List.mem_singleton.mp (h₂.subset hx)
      exact List.mem_append_right _ hx
    rwa [hl, List.append_nil]
  refine ⟨⟨front ++ [i], hg, hf.append (List.Sublist.refl _), ?_⟩, h.nodup,
    h.recorded_update (by simp) (fun x hx => by simp [hx]) ⟨fun _ => ⟨_, rfl, rfl⟩, ?_, ?_⟩⟩
  · intro x s hx hxs
    obtain ⟨rfl, -⟩ | ⟨-, hx⟩ := update_eq_some.mp hx
    · exact ⟨front, rfl⟩
    · exact hturn x s hx hxs
  · exact fun _ _ _ => hr.isIn _ rfl rfl
  · simp [Submission.hasStarted]

end Ledger

namespace Dispatcher

variable {ι : Type} [DecidableEq ι] {d d' : Dispatcher ι} {i : ι} {k : GranterKind}
  {s : GranterState} {acc st : List ι}

theorem Move.passes (m : Move d d') :
    d'.submission? = d.submission? ∧ d'.queue.elements = d.queue.elements ∨
      ∃ j rest, d.awaited = none ∧ d.queue.elements = j :: rest ∧
        d' = ((d.setElements rest).grant j).1 := by
  cases m with
  | shutDoor k =>
    obtain ⟨h, -⟩ | h := d.shutDoor_cases k <;> rw [h] <;> exact .inl ⟨rfl, rfl⟩
  | requestBaton hi _ => exact .inl ⟨submission?_setGranter (submission?_of_granter? hi) _ _, rfl⟩
  | start => exact .inl ⟨rfl, rfl⟩
  | retire h =>
    obtain ⟨-, rfl⟩ | ⟨j, -, -, rfl⟩ := retireTurn_eq_some h
    · exact .inl ⟨rfl, rfl⟩
    · exact .inl ⟨rfl, rfl⟩
  | useSignal _ => exact .inl ⟨rfl, rfl⟩
  | hand _ hn hq => exact .inr ⟨_, _, hn, hq, rfl⟩
  | rest ha _ => exact .inl ⟨submission?_setGranter ha.submission?_eq_none _ _, rfl⟩
  | register ha _ hq =>
    refine .inl ⟨submission?_setGranter (d := d.look _) ha.submission?_eq_none _ _, ?_⟩
    rw [hq]
    exact elements_look hq _
  | stepOut hi => exact .inl ⟨submission?_setGranter (submission?_of_granter? hi) _ _, rfl⟩
  | breakOff hi _ => exact .inl ⟨submission?_setGranter (submission?_of_granter? hi) _ _, rfl⟩
  | completeDrain n _ _ hq _ =>
    rw [completeDrain_eq hq]
    split <;> exact .inl ⟨rfl, rfl⟩
  | @endGranter i k ha _ =>
    have hn := submission?_setGranter ha.submission?_eq_none k .finished
    cases k <;> exact .inl ⟨hn, rfl⟩

theorem Move.ledger (m : Move d d') (hs : d.Sound)
    (h : Ledger d.submission? d.queue.elements acc st) :
    Ledger d'.submission? d'.queue.elements acc st := by
  obtain ⟨hsub, hq⟩ | ⟨j, rest, hn, hq, rfl⟩ := m.passes
  · rwa [hsub, hq]
  · have ht := hs.turn
    rw [hn, hq] at ht
    rw [hq] at h
    rw [(grant_same (d.setElements rest) j).2]
    obtain ⟨since, hj, h'⟩ | ⟨hj, h'⟩ := grant_cases (d.setElements rest) j
    · rw [h']
      change Ledger ((d.setElements rest).setSubmission j (.granted since)).submission? rest acc st
      rw [submission?_setSubmission]
      exact h.grant ht.hasTurn_eq_false hj
    · rw [h']
      exact h.pop ht.hasTurn_eq_false

theorem Chain.ledger (c : Chain d d') (hs : d.Sound)
    (h : Ledger d.submission? d.queue.elements acc st) :
    Ledger d'.submission? d'.queue.elements acc st := by
  induction c with
  | refl => exact h
  | tail c m ih => exact m.ledger (Chain.sound c hs) ih

theorem Move.submission?_cases (m : Move d d') (i : ι) :
    d'.submission? i = d.submission? i ∨
      ∃ t, d.submission? i = some (.waiting t) ∧ d'.submission? i = some (.granted t) := by
  obtain ⟨hsub, -⟩ | ⟨j, rest, -, -, rfl⟩ := m.passes
  · exact .inl (congrFun hsub i)
  · obtain ⟨since, hj, h⟩ | ⟨hj, h⟩ := grant_cases (d.setElements rest) j
    · rw [h]
      change ((d.setElements rest).setSubmission j (.granted since)).submission? i = _ ∨
        ∃ t, _ ∧ ((d.setElements rest).setSubmission j (.granted since)).submission? i = _
      rw [submission?_setSubmission]
      by_cases hij : i = j
      · subst j
        exact .inr ⟨since, hj, by simp⟩
      · exact .inl (by rw [Function.update_of_ne hij]; rfl)
    · rw [h]
      exact .inl rfl

theorem Chain.submission?_cases (c : Chain d d') (i : ι) :
    d'.submission? i = d.submission? i ∨
      ∃ t, d.submission? i = some (.waiting t) ∧ d'.submission? i = some (.granted t) := by
  induction c with
  | refl => exact .inl rfl
  | tail _ m ih =>
    obtain hm | ⟨t, hw, hg⟩ := m.submission?_cases i
    · rwa [hm]
    · obtain hi | ⟨t', -, hg'⟩ := ih
      · exact .inr ⟨t, by rw [← hi, hw], hg⟩
      · rw [hw] at hg'
        cases hg'

end Dispatcher

end Turnstile
