import Turnstile.Proofs.Dispatcher.Polls

namespace Turnstile

/-- Two logs that began with `p` and `p'`: what came after that is the same in both, but for `n`
notes of a withdrawal that only the first has. -/
inductive Skips (p p' : List Notice) : Nat → List Notice → List Notice → Prop where
  | start : Skips p p' 0 p p'
  | note {n : Nat} {l l' : List Notice} (x : Notice) (h : Skips p p' n l l') :
      Skips p p' n (l ++ [x]) (l' ++ [x])
  | withdrawn {n : Nat} {l l' : List Notice} (h : Skips p p' n l l') :
      Skips p p' (n + 1) (l ++ [.withdrawn]) l'

namespace Skips

variable {p p' l l' : List Notice}

theorem eq_append (h : Skips p p' 0 l l') :
    ∃ new, l = p ++ new ∧ l' = p' ++ new := by
  generalize hn : 0 = n at h
  induction h with
  | start => exact ⟨[], by simp⟩
  | note x _ ih =>
    obtain ⟨new, rfl, rfl⟩ := ih hn
    exact ⟨new ++ [x], by simp⟩
  | withdrawn => cases hn

theorem exists_withdrawn (h : Skips p p' 1 l l') :
    ∃ m m', l = p ++ m ++ .withdrawn :: m' ∧ l' = p' ++ m ++ m' := by
  generalize hn : 1 = n at h
  induction h with
  | start => cases hn
  | note x _ ih =>
    obtain ⟨m, m', rfl, rfl⟩ := ih hn
    exact ⟨m, m' ++ [x], by simp⟩
  | withdrawn h =>
    obtain rfl := Nat.succ.inj hn
    obtain ⟨new, rfl, rfl⟩ := h.eq_append
    exact ⟨new, [], by simp⟩

end Skips

namespace Dispatcher

variable {ι : Type} [DecidableEq ι]

def refit (d : Dispatcher ι) (q : Queue ι ι) (t : Table ι Future) (ns : List Notice) :
    Dispatcher ι := { d with queue := q, futures := t, notices := ns }

/-- Nobody can tell `d` from `d'` who does not ask for `w`, for what is queued, or for the log. In
`d'`, `w` is not in the queue; in `d`, every place of `w` there leaves a note of its withdrawal at
the end, and with the notes there are already these are `n`. -/
structure SameBut (w : ι) (p p' : List Notice) (n : Nat) (d d' : Dispatcher ι) : Prop where
  rest : ∃ q t ns, d' = d.refit q t ns
  futures : ∀ i, i ≠ w → d'.futures.get? i = d.futures.get? i
  hasTurn : d.hasTurn w = false
  hasTurn' : d'.hasTurn w = false
  elements : d'.queue.elements = d.queue.elements.filter (· ≠ w)
  notices : ∃ k, Skips p p' k d.notices d'.notices ∧ k + d.queue.elements.count w = n

def SameResult (w : ι) (p p' : List Notice) (n : Nat) (r r' : Dispatcher ι × Progress) : Prop :=
  SameBut w p p' n r.1 r'.1 ∧ r'.2 = r.2

theorem hasTurn_congr {d e : Dispatcher ι} {i : ι}
    (h : e.futures.get? i = d.futures.get? i) : e.hasTurn i = d.hasTurn i := by
  simp only [Dispatcher.hasTurn, submission?, h]

variable {w : ι} {p p' : List Notice} {n : Nat} {d d' : Dispatcher ι} {i j : ι} {k : GranterKind}
  {s : GranterState}

namespace SameBut

theorem view {β : Type} (h : SameBut w p p' n d d') (f : Dispatcher ι → β)
    (hf : ∀ q t ns, f (d.refit q t ns) = f d) : f d' = f d := by
  obtain ⟨q, t, ns, rfl⟩ := h.rest
  exact hf q t ns

theorem stopping (h : SameBut w p p' n d d') : d'.stopping = d.stopping :=
  h.view Dispatcher.stopping fun _ _ _ => rfl

theorem closed (h : SameBut w p p' n d d') : d'.closed = d.closed :=
  h.view Dispatcher.closed fun _ _ _ => rfl

theorem now (h : SameBut w p p' n d d') : d'.now = d.now :=
  h.view Dispatcher.now fun _ _ _ => rfl

theorem settings (h : SameBut w p p' n d d') : d'.settings = d.settings :=
  h.view Dispatcher.settings fun _ _ _ => rfl

theorem submission? (h : SameBut w p p' n d d') (hi : i ≠ w) :
    d'.submission? i = d.submission? i := by
  simp only [Dispatcher.submission?, h.futures i hi]

theorem hasTurn_eq (h : SameBut w p p' n d d') (j : ι) : d'.hasTurn j = d.hasTurn j := by
  by_cases hj : j = w
  · rw [hj, h.hasTurn, h.hasTurn']
  · exact hasTurn_congr (h.futures j hj)

theorem map (h : SameBut w p p' n d d') (u : Dispatcher ι → Dispatcher ι)
    (hu : ∀ q t ns, u (d.refit q t ns) = (u d).refit q t ns) : SameBut w p p' n (u d) (u d') := by
  obtain ⟨q, t, ns, rfl⟩ := h.rest
  have hd : u d = (u d).refit d.queue d.futures d.notices := hu d.queue d.futures d.notices
  have hq : (u d).queue = d.queue := by rw [hd]; rfl
  have ht : (u d).futures = d.futures := by rw [hd]; rfl
  have hn : (u d).notices = d.notices := by rw [hd]; rfl
  have hw : (u d).hasTurn w = d.hasTurn w := hasTurn_congr (by rw [ht])
  rw [hu]
  exact ⟨⟨q, t, ns, rfl⟩, by rw [ht]; exact h.futures, hw.trans h.hasTurn, h.hasTurn',
    by rw [hq]; exact h.elements, by rw [hq, hn]; exact h.notices⟩

theorem congr (h : SameBut w p p' n d d') {t t' : Table ι Future} (x x' : Signal ι)
    (ht : ∀ i, t.get? i = d.futures.get? i) (ht' : ∀ i, t'.get? i = d'.futures.get? i) :
    SameBut w p p' n { d with queue := { d.queue with signal := x }, futures := t }
      { d' with queue := { d'.queue with signal := x' }, futures := t' } where
  rest := by
    obtain ⟨q, t, ns, rfl⟩ := h.rest
    exact ⟨_, _, ns, rfl⟩
  futures i hi := by rw [ht, ht', h.futures i hi]
  hasTurn := (hasTurn_congr (ht w)).trans h.hasTurn
  hasTurn' := (hasTurn_congr (ht' w)).trans h.hasTurn'
  elements := h.elements
  notices := h.notices

theorem put (h : SameBut w p p' n d d') (hi : i ≠ w) (f : Future) :
    SameBut w p p' n { d with futures := d.futures.put i f }
      { d' with futures := d'.futures.put i f } where
  rest := by
    obtain ⟨q, t, ns, rfl⟩ := h.rest
    exact ⟨q, _, ns, rfl⟩
  futures j hj := by simp only [Table.get?_put, h.futures j hj]
  hasTurn := (hasTurn_congr (Table.get?_put_of_ne _ hi f)).trans h.hasTurn
  hasTurn' := (hasTurn_congr (Table.get?_put_of_ne _ hi f)).trans h.hasTurn'
  elements := h.elements
  notices := h.notices

theorem note (h : SameBut w p p' n d d') (x : Notice) :
    SameBut w p p' n (d.note x) (d'.note x) where
  rest := by
    obtain ⟨q, t, ns, rfl⟩ := h.rest
    exact ⟨q, t, _, rfl⟩
  futures := h.futures
  hasTurn := h.hasTurn
  hasTurn' := h.hasTurn'
  elements := h.elements
  notices := by
    obtain ⟨m, hm, hn⟩ := h.notices
    exact ⟨m, .note x hm, hn⟩

theorem pop (h : SameBut w p p' n d d') {rest : List ι} (hq : d.queue.elements = j :: rest)
    (hj : j ≠ w) :
    SameBut w p p' n (d.setElements rest) (d'.setElements (rest.filter (· ≠ w))) where
  rest := by
    obtain ⟨q, t, ns, rfl⟩ := h.rest
    exact ⟨_, t, ns, rfl⟩
  futures := h.futures
  hasTurn := h.hasTurn
  hasTurn' := h.hasTurn'
  elements := rfl
  notices := by
    obtain ⟨m, hm, hn⟩ := h.notices
    rw [hq, List.count_cons_of_ne hj] at hn
    exact ⟨m, hm, hn⟩

theorem skip (h : SameBut w p p' n d d') {rest : List ι} (hq : d.queue.elements = w :: rest) :
    SameBut w p p' n ((d.setElements rest).note .withdrawn) d' where
  rest := by
    obtain ⟨q, t, ns, rfl⟩ := h.rest
    exact ⟨q, t, ns, rfl⟩
  futures := h.futures
  hasTurn := h.hasTurn
  hasTurn' := h.hasTurn'
  elements := by
    rw [h.elements, hq]
    simp [setElements, Dispatcher.note]
  notices := by
    obtain ⟨m, hm, hn⟩ := h.notices
    rw [hq, List.count_cons_self] at hn
    exact ⟨m + 1, .withdrawn hm, by simp only [setElements, Dispatcher.note]; omega⟩

theorem push (h : SameBut w p p' n d d') (hi : i ≠ w) :
    SameBut w p p' n { d with queue := d.queue.push i } { d' with queue := d'.queue.push i } where
  rest := by
    obtain ⟨q, t, ns, rfl⟩ := h.rest
    exact ⟨_, t, ns, rfl⟩
  futures := h.futures
  hasTurn := h.hasTurn
  hasTurn' := h.hasTurn'
  elements := by simp [Queue.push, h.elements, List.filter_append, hi]
  notices := by
    obtain ⟨m, hm, hn⟩ := h.notices
    exact ⟨m, hm, by simpa [Queue.push, List.count_append, hi] using hn⟩

theorem retire (h : SameBut w p p' n d d') :
    d.retireTurn = none ∧ d'.retireTurn = none ∨
      ∃ e e', d.retireTurn = some e ∧ d'.retireTurn = some e' ∧ SameBut w p p' n e e' := by
  have ha : d'.awaited = d.awaited := h.view Dispatcher.awaited fun _ _ _ => rfl
  cases hn : d.awaited with
  | none => exact .inr ⟨d, d', by simp [retireTurn, hn], by simp [retireTurn, ha, hn], h⟩
  | some j =>
    cases hj : d.hasTurn j with
    | true =>
      exact .inl ⟨by simp [retireTurn, hn, hj], by simp [retireTurn, ha, hn, h.hasTurn_eq, hj]⟩
    | false =>
      have hr := (h.map (fun e => { e with awaited := none }) fun _ _ _ => rfl).note .turnCompleted
      exact .inr ⟨_, _, by simp [retireTurn, hn, hj],
        by simp [retireTurn, ha, hn, h.hasTurn_eq, hj], hr⟩

theorem grants (h : SameBut w p p' n d d') (hj : j ≠ w) :
    SameBut w p p' n (d.grant j).1 (d'.grant j).1 ∧ (d'.grant j).2 = (d.grant j).2 := by
  obtain ⟨since, hw, hg⟩ | ⟨hw, hg⟩ := grant_cases d j
  · have hg' : d'.grant j = ({ d'.setSubmission j (.granted since) with awaited := some j }.note
        .turnGranted, true) := by simp [grant, h.submission? hj, hw]
    rw [hg, hg']
    have hr := (h.put hj (.submission (.granted since))).map
      (fun e => { e with awaited := some j }) fun _ _ _ => rfl
    exact ⟨hr.note .turnGranted, rfl⟩
  · obtain ⟨since, hw', -⟩ | ⟨-, hg'⟩ := grant_cases d' j
    · exact (hw since (h.submission? hj ▸ hw')).elim
    · rw [hg, hg']
      exact ⟨h.note .withdrawn, rfl⟩

end SameBut

end Dispatcher

end Turnstile
