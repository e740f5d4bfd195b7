import Turnstile.Proofs.Dispatcher.Polls

namespace Turnstile

namespace Dispatcher

variable {ι : Type} [DecidableEq ι] {d d' : Dispatcher ι} {i j : ι}
  {hand : Dispatcher ι → ι → Dispatcher ι × Bool}

theorem drainFrom_eq (hh : ∀ e j, e.awaited = none → hand e j = e.grant j) (i : ι)
    (k : GranterKind) (n : Nat) (d : Dispatcher ι) (queued : List ι) :
    drainFrom hand i k n d queued = drainFrom grant i k n d queued := by
  induction queued generalizing d n with
  | nil =>
    unfold drainFrom
    cases d.retireTurn <;> rfl
  | cons j rest ih =>
    unfold drainFrom
    cases hr : d.retireTurn with
    | none => rfl
    | some e =>
      have hn : (e.setElements rest).awaited = none := (retireTurn_same hr).2.1
      simp only [hh _ j hn, ih]

theorem serveThen_eq (hh : ∀ e j, e.awaited = none → hand e j = e.grant j)
    {next next' : Dispatcher ι → Dispatcher ι × Progress}
    (hnext : ∀ e, e.awaited = none → next e = next' e) (i : ι) (d : Dispatcher ι) :
    serveThen hand i next d = serveThen grant i next' d := by
  unfold serveThen
  cases hr : d.retireTurn with
  | none => rfl
  | some e => simp only [drain, drainFrom_eq hh, hnext e (retireTurn_same hr).2.1]

theorem takeFrom_eq (hh : ∀ e j, e.awaited = none → hand e j = e.grant j) (i : ι)
    (hn : d.awaited = none) (queued : List ι) :
    takeFrom hand i d queued = takeFrom grant i d queued := by
  induction queued generalizing d with
  | nil => rfl
  | cons j rest ih =>
    unfold takeFrom
    have hl : (d.look i).awaited = none := hn
    rw [hh _ j hl]
    exact serveThen_eq hh (fun e he => ih he) i _

theorem serve_eq (hh : ∀ e j, e.awaited = none → hand e j = e.grant j) (i : ι)
    (d : Dispatcher ι) : serve hand i d = serve grant i d :=
  serveThen_eq hh (fun _ he => takeFrom_eq hh i he _) i d

theorem awaitBaton_eq (hh : ∀ e j, e.awaited = none → hand e j = e.grant j) (i : ι)
    (k : GranterKind) (d : Dispatcher ι) : awaitBaton hand i k d = awaitBaton grant i k d := by
  cases k <;> simp only [awaitBaton, startGranting, serve_eq hh, drain, drainFrom_eq hh]

/-- No poll comes to hand over a turn while the last is still awaited: it makes no difference what
would be done then. -/
theorem pollBy_eq_poll (hs : d.Sound) (hh : ∀ e j, e.awaited = none → hand e j = e.grant j)
    (i : ι) : d.pollBy hand i = d.poll i := by
  unfold poll pollBy
  cases hf : d.futures.get? i with
  | none => rfl
  | some f =>
    cases f with
    | submission s => rfl
    | granter k s =>
      cases s with
      | created | locking => exact awaitBaton_eq hh i k _
      | retiring => exact serve_eq hh i d
      | draining n => exact drainFrom_eq hh i k n d _
      | finished | dropped => rfl
      | popping =>
        -- the loop goes on where it waited, so that nothing was out then has to be remembered
        have hn : (d.stepOut i k).awaited = none :=
          (hs.wait.popping i k (granter?_eq_some.mpr hf)).2.1
        simp only [pollGranterBy, drain, drainFrom_eq hh, take, takeFrom_eq hh i hn]

end Dispatcher

open Dispatcher History

variable {ι : Type} [DecidableEq ι] {h : History ι}

/-- At most one turn is out, and it is the one that is awaited, whether or not the granter is still
there. No poll hands over a turn before the last has ended, and no callback starts in another. -/
theorem one_turn_in_flight (hr : h.Reachable) :
    (∀ i j, h.dispatcher.hasTurn i = true → h.dispatcher.hasTurn j = true → i = j) ∧
    (∀ i, h.dispatcher.hasTurn i = true → h.dispatcher.awaited = some i) ∧
    (∀ hand : Dispatcher ι → ι → Dispatcher ι × Bool,
      (∀ e j, e.awaited = none → hand e j = e.grant j) →
      ∀ i, h.dispatcher.pollBy hand i = h.dispatcher.poll i) ∧
    ∀ i j w, (h.dispatcher.poll i).2 = .called w → h.dispatcher.submission? j ≠ some .running := by
  have hs := hr.sound
  have ha : ∀ i, h.dispatcher.hasTurn i = true → h.dispatcher.awaited = some i := fun i hi =>
    hs.awaited_of_hasTurn hi
  refine ⟨?_, ha, fun hand hh i => pollBy_eq_poll hs hh i, ?_⟩
  · intro i j hi hj
    exact Option.some.inj ((ha i hi).symm.trans (ha j hj))
  · intro i j w hw hj
    obtain ⟨since, hi, -⟩ := called_eq_granted hs hw
    have hai := hs.turn.awaited i _ hi rfl
    have haj := hs.turn.awaited j _ hj rfl
    obtain rfl : i = j := Option.some.inj (hai.symm.trans haj)
    rw [hi] at hj
    cases hj

/-- A loop has granted the turn and was dropped. The turn is still awaited. -/
theorem one_turn_in_flight_dropped :
    let h := (fresh {}).after [.submit 0, .poll 0, .run 1, .poll 1, .drop 1]
    h.dispatcher.hasTurn 0 = true ∧ h.dispatcher.awaited = some 0 :=
  have hr := (Reachable.fresh {}).after [.submit 0, .poll 0, .run 1, .poll 1, .drop 1]
  ⟨by decide, (one_turn_in_flight hr).2.1 0 (by decide)⟩

end Turnstile
