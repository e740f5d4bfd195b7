import Turnstile.Producers
import Turnstile.Proofs.Dispatcher.Driving

namespace Turnstile

open Dispatcher

namespace Table

variable {κ α : Type} [DecidableEq κ] {t : Table κ α} {k : κ}

theorem entries_put (h : t.get? k = none) (a : α) :
    (t.put k a).entries = t.entries ++ [(k, a)] :=
  Assoc.upsert_of_lookup_eq_none _ h

theorem get?_eq_none (h : k ∉ t.entries.map Prod.fst) : t.get? k = none := by
  rw [Option.eq_none_iff_forall_ne_some]
  intro a ha
  exact h (List.mem_map.mpr ⟨(k, a), Assoc.mem_of_lookup ha, rfl⟩)

end Table

def Worker.number : Worker → Nat
  | producer _ number => number
  | granter _ => 0

/-- The journal of the callbacks in `started`, the last of which is still being run or not. -/
structure Journal.Shows (j : Journal) (started : List Worker) (runs : Bool) : Prop where
  order : j.order = started.map Worker.number
  running : j.running = if runs then 1 else 0
  mostRunning : j.mostRunning = if started = [] then 0 else 1

theorem Journal.Shows.start {j : Journal} {started : List Worker} (h : j.Shows started false)
    (w : Worker) : (j.start w.number).Shows (started ++ [w]) true where
  order := by simp [Journal.start, h.order]
  running := by simp [Journal.start, h.running]
  mostRunning := by
    have hne : started ++ [w] ≠ [] := by simp
    change max j.mostRunning (j.running + 1) = _
    rw [h.running, h.mostRunning, if_neg hne]
    split <;> rfl

theorem Journal.Shows.stop {j : Journal} {started : List Worker} (h : j.Shows started true) :
    j.stop.Shows started false where
  order := h.order
  running := by simp [Journal.stop, h.running]
  mostRunning := h.mostRunning

/-- What is done to the dispatcher once the producers are queued: granters come and go, and nobody
but them. A callback takes as long as it likes, and it does not panic. -/
def Action.isDriving : Action Worker → Bool
  | .run (.granter _) | .close (.granter _) | .drop (.granter _) => true
  | .poll _ | .advance _ => true
  | .finish _ panics => !panics
  | _ => false

namespace Producers

def act (p : Producers) (a : Action Worker) : Producers where
  dispatcher := p.dispatcher.act a
  journal :=
    if p.dispatcher.ends a then p.journal.stop
    else (p.dispatcher.starts a).foldl (fun j w => j.start w.number) p.journal
  kept := p.kept

def after (p : Producers) (as : List (Action Worker)) : Producers := as.foldl act p

def roster (n : Nat) : List Worker := (List.range n).map fun k => .producer k k

/-- The dispatcher has the history `h`, in which the producers of the roster were let in and none of
them was dropped, and the journal shows what has become of their callbacks. -/
structure Follows (n : Nat) (p : Producers) (h : History Worker) : Prop where
  reachable : h.Reachable
  dispatcher : p.dispatcher = h.dispatcher
  accepted : h.accepted = roster n
  created : ∀ w, h.dispatcher.submission? w ≠ some .created
  dropped : ∀ w ∈ h.accepted, h.dispatcher.submission? w ≠ some (.ended .dropped)
  journal : p.journal.Shows h.started h.dispatcher.runs

variable {n : Nat} {p : Producers} {h : History Worker} {a : Action Worker} {w : Worker}

theorem ne_drop_of_mem_roster (hw : w ∈ roster n) (ha : a.isDriving = true) : a ≠ .drop w := by
  obtain ⟨k, -, rfl⟩ := List.mem_map.mp hw
  rintro rfl
  cases ha

theorem Follows.ne_drop (hf : Follows n p h) {v : Submission}
    (hw : h.dispatcher.submission? w = some v) (hv : v.isIn = true) (ha : a.isDriving = true) :
    a ≠ .drop w := by
  have hm := (hf.reachable.ledger.recorded w).isIn v hw hv
  rw [hf.accepted] at hm
  exact ne_drop_of_mem_roster hm ha

theorem Follows.journal_step (hf : Follows n p h) (ha : a.isDriving = true) :
    (p.act a).journal.Shows (h.step a).started (h.step a).dispatcher.runs := by
  have hs := hf.reachable.sound
  have hj := hf.journal
  rw [act, hf.dispatcher]
  dsimp only [History.step]
  cases he : h.dispatcher.ends a with
  | true =>
    obtain ⟨hb, hb', hst⟩ := hs.runs_of_ends he
    rw [hst, hb', List.append_nil]
    rw [hb] at hj
    exact hj.stop
  | false =>
    obtain hst | ⟨i, since, rfl, hp⟩ := hs.starts_cases a
    · have hrun := hs.runs_act hst he fun w hw => hf.ne_drop hw rfl ha
      rw [hst, hrun, List.append_nil]
      exact hj
    · have hst : h.dispatcher.starts (.poll i) = [i] := by simp [starts, hp, startCallback]
      obtain ⟨hb, hb', -⟩ := hs.runs_of_starts hst
      rw [hst, hb']
      rw [hb] at hj
      exact hj.start i

theorem Follows.step (hf : Follows n p h) (ha : a.isDriving = true) :
    Follows n (p.act a) (h.step a) := by
  have hs := hf.reachable.sound
  have hadmits : h.dispatcher.admits a = [] := by
    cases a with
    | poll i => simp [admits, hf.created i]
    | _ => rfl
  have haccepted : (h.step a).accepted = h.accepted := by
    rw [History.step, hadmits, List.append_nil]
  refine ⟨hf.reachable.step a, ?_, haccepted.trans hf.accepted, ?_, ?_, hf.journal_step ha⟩
  · rw [act, hf.dispatcher]
    rfl
  · refine hs.ne_created_act hf.created ?_
    rintro i rfl
    cases ha
  · intro w hw hd
    rw [haccepted] at hw
    obtain hd | ⟨hdrop, -⟩ | ⟨-, panics, -, hd⟩ := hf.reachable.ends hw hd
    · exact hf.dropped w hw hd
    · exact ne_drop_of_mem_roster (hf.accepted ▸ hw) ha hdrop
    · cases panics <;> cases hd

theorem Follows.after (hf : Follows n p h) {as : List (Action Worker)}
    (has : ∀ a ∈ as, a.isDriving = true) : Follows n (p.after as) (h.after as) := by
  induction as generalizing p h with
  | nil => exact hf
  | cons a as ih =>
    exact ih (hf.step (has a List.mem_cons_self)) fun b hb => has b (List.mem_cons_of_mem a hb)

theorem map_number_roster (n : Nat) : (roster n).map Worker.number = List.range n := by
  simp [roster, Function.comp_def, Worker.number]

theorem Follows.order_prefix (hf : Follows n p h) : p.journal.order <+: List.range n := by
  rw [hf.journal.order, ← map_number_roster, ← hf.accepted]
  exact (hf.reachable.started_prefix hf.dropped).map Worker.number

theorem Follows.of_still (hf : Follows n p h) (hd : h.dispatcher.IsStill) {k : GranterKind}
    {s : GranterState} (hw : h.dispatcher.granter? w = some (k, s)) (hs : s ≠ .dropped) :
    p.journal.order = List.range n ∧ p.journal.mostRunning = if n = 0 then 0 else 1 := by
  have hover := hf.reachable.isOver_of_still hd hw hs
  have hall : h.accepted ⊆ h.started := fun j hj => (hover j hj).mem_started (hf.dropped j hj)
  have hl := hf.reachable.ledger
  have hstarted : h.started = roster n :=
    (eq_of_sublist_of_subset hl.sublist hl.nodup hall).trans hf.accepted
  refine ⟨?_, ?_⟩
  · rw [hf.journal.order, hstarted, map_number_roster]
  · rw [hf.journal.mostRunning, hstarted]
    simp [roster]

theorem act_of_ends (he : p.dispatcher.ends a = true) :
    p.act a = { p with dispatcher := p.dispatcher.act a, journal := p.journal.stop } := by
  rw [act, if_pos he]

theorem act_of_starts (he : p.dispatcher.ends a = false) (hst : p.dispatcher.starts a = [w]) :
    p.act a =
      { p with dispatcher := p.dispatcher.act a, journal := p.journal.start w.number } := by
  simp [act, he, hst]

theorem act_of_quiet (he : p.dispatcher.ends a = false) (hst : p.dispatcher.starts a = []) :
    p.act a = { p with dispatcher := p.dispatcher.act a } := by
  simp [act, he, hst]

theorem poll_of_called {key number t : Nat}
    (hc : (p.dispatcher.poll (.producer key number)).2 = .called t) :
    p.poll (.producer key number) =
      { p with
        dispatcher := (p.dispatcher.poll (.producer key number)).1.endCallback
          (.producer key number) .returned
        journal := p.journal.record number } := by
  unfold poll
  generalize p.dispatcher.poll (.producer key number) = r at hc ⊢
  obtain ⟨d, x⟩ := r
  obtain rfl : x = .called t := hc
  rfl

theorem poll_of_not_called (hc : ∀ t, (p.dispatcher.poll w).2 ≠ .called t) :
    p.poll w = { p with dispatcher := (p.dispatcher.poll w).1 } := by
  unfold poll
  generalize p.dispatcher.poll w = r at hc ⊢
  obtain ⟨d, _ | _ | t⟩ := r
  · rfl
  · rfl
  · exact (hc t rfl).elim

/-- A task's poll is a poll of its future, and the end of the callback if that starts it. -/
theorem Follows.poll_eq (hf : Follows n p h) (hw : p.dispatcher.submission? w ≠ some .running) :
    p.poll w = (p.act (.poll w)).act (.finish w false) := by
  have hs : p.dispatcher.Sound := hf.dispatcher ▸ hf.reachable.sound
  by_cases hc : ∃ t, (p.dispatcher.poll w).2 = .called t
  · obtain ⟨t, hc⟩ := hc
    obtain ⟨since, hi, hp⟩ := called_eq_granted hs hc
    -- a worker that has a turn was let in, so it is a producer of the roster
    have hm : w ∈ roster n := by
      rw [hf.dispatcher] at hi
      exact hf.accepted ▸ (hf.reachable.ledger.recorded w).isIn _ hi rfl
    obtain ⟨k, -, rfl⟩ := List.mem_map.mp hm
    have hstart := act_of_starts (p := p) (a := .poll (.producer k k)) (w := .producer k k) rfl
      (by simp [starts, hc])
    have hrun : (p.act (.poll (.producer k k))).dispatcher.submission? (.producer k k) =
        some .running := by
      rw [hstart, Dispatcher.act, hp, (submission?_startCallback _ _ since).1,
        Function.update_self]
    have hends : (p.act (.poll (.producer k k))).dispatcher.ends
        (.finish (.producer k k) false) = true := decide_eq_true hrun
    rw [poll_of_called hc, act_of_ends hends, hstart]
    rfl
  · have hc' : ∀ t, (p.dispatcher.poll w).2 ≠ .called t := fun t ht => hc ⟨t, ht⟩
    have hquiet := act_of_quiet (p := p) (a := .poll w) rfl (starts_eq_nil hc')
    -- no callback has started, so there is none that `finish` could end
    have hrun : (p.act (.poll w)).dispatcher.submission? w ≠ some .running := by
      intro hr
      rw [act, hf.dispatcher] at hr
      obtain hr | ⟨-, t, ht⟩ := hf.reachable.runs (a := .poll w) hr
      · exact hw (hf.dispatcher ▸ hr)
      · exact hc' t (hf.dispatcher ▸ ht)
    have hends : (p.act (.poll w)).dispatcher.ends (.finish w false) = false := decide_eq_false hrun
    have hend : (p.act (.poll w)).dispatcher.act (.finish w false) =
        (p.act (.poll w)).dispatcher := by
      rw [Dispatcher.act, endCallback]
      split
      · rename_i hr
        exact (hrun hr).elim
      · rfl
    rw [poll_of_not_called hc', act_of_quiet hends rfl, hend, hquiet]
    rfl

structure Enlisted (n : Nat) (p : Producers) (h : History Worker) : Prop where
  reachable : h.Reachable
  dispatcher : p.dispatcher = h.dispatcher
  journal : p.journal = {}
  accepted : h.accepted = roster n
  started : h.started = []
  queued : h.dispatcher.queue.elements = roster n
  keys : h.dispatcher.futures.entries.map Prod.fst = roster n
  waiting : ∀ w v, h.dispatcher.submission? w = some v → ∃ t, v = .waiting t
  closed : h.dispatcher.closed = false

theorem Enlisted.follows (he : Enlisted n p h) : Follows n p h where
  reachable := he.reachable
  dispatcher := he.dispatcher
  accepted := he.accepted
  created w hw := by
    obtain ⟨t, ht⟩ := he.waiting w _ hw
    cases ht
  dropped w _ hw := by
    obtain ⟨t, ht⟩ := he.waiting w _ hw
    cases ht
  journal := by
    have hruns : h.dispatcher.runs = false := by
      rw [← Bool.not_eq_true, he.reachable.sound.runs_iff]
      rintro ⟨w, hw⟩
      obtain ⟨t, ht⟩ := he.waiting w _ hw
      cases ht
    rw [he.journal, he.started, hruns]
    exact ⟨rfl, rfl, rfl⟩

theorem length_roster (n : Nat) : (roster n).length = n := by simp [roster]

theorem roster_succ (n : Nat) : roster (n + 1) = roster n ++ [.producer n n] := by
  simp [roster, List.range_succ]

theorem not_mem_roster (n number : Nat) : .producer n number ∉ roster n := by
  simp only [roster, List.mem_map, List.mem_range, not_exists, not_and]
  rintro k hk ⟨⟩
  exact absurd hk (Nat.lt_irrefl n)

theorem Enlisted.awaitLength (he : Enlisted n p h) : p.awaitLength n = (p, .ok ()) := by
  have hn : p.dispatcher.pending = n := by rw [he.dispatcher, pending, he.queued, length_roster]
  rw [Producers.awaitLength, if_pos hn]

theorem Enlisted.spawn (he : Enlisted n p h) : Enlisted (n + 1) (p.spawnProducer n)
    ((h.step (.submit (.producer n n))).step (.poll (.producer n n))) := by
  have hfresh : p.fresh = n := by
    rw [fresh, he.dispatcher, ← List.length_map (f := Prod.fst), he.keys, length_roster]
  have hnew : h.dispatcher.futures.get? (.producer n n) = none :=
    Table.get?_eq_none (he.keys ▸ not_mem_roster n n)
  obtain ⟨hp, haccepted, hstarted, hqueued, hfutures, hclosed⟩ :=
    he.reachable.enter_new hnew he.closed
  have hr := (he.reachable.step (.submit (.producer n n))).step (.poll (.producer n n))
  generalize (h.step (.submit (.producer n n))).step (.poll (.producer n n)) = h' at *
  have hspawn : p.spawnProducer n =
      ⟨h'.dispatcher, p.journal, p.kept ++ [.producer n n]⟩ := by
    rw [← he.dispatcher] at hp
    rw [spawnProducer, hfresh, poll_of_not_called (by simp [hp])]
    simp only [hp]
  have hkeys : h'.dispatcher.futures.entries.map Prod.fst = roster (n + 1) := by
    rw [hfutures, Table.entries_put hnew, List.map_append, he.keys, roster_succ]
    rfl
  refine ⟨hr, by rw [hspawn], by rw [hspawn, he.journal], ?_, hstarted.trans he.started, ?_, hkeys,
    ?_, hclosed⟩
  · rw [haccepted, he.accepted, roster_succ]
  · rw [hqueued, he.queued, roster_succ]
  · intro w v hw
    rw [submission?_eq_some, hfutures, Table.get?_put] at hw
    split at hw
    · cases hw
      exact ⟨_, rfl⟩
    · exact he.waiting w v (submission?_eq_some.mpr hw)

theorem enlist_succ (p : Producers) (n : Nat) :
    p.enlist (n + 1) = (((p.enlist n).spawnProducer n).awaitLength (n + 1)).1 := by
  rw [enlist, List.range_succ, List.foldl_append]
  rfl

theorem exists_enlisted (settings : DispatcherSettings) (n : Nat) :
    ∃ h, Enlisted n (enlist { dispatcher := { settings := settings } } n) h := by
  induction n with
  | zero =>
    refine ⟨.fresh settings, .fresh settings, rfl, rfl, rfl, rfl, rfl, rfl, ?_, rfl⟩
    intro w v hw
    simp [History.fresh, submission?, Table.get?] at hw
  | succ n ih =>
    obtain ⟨h, he⟩ := ih
    rw [enlist_succ, he.spawn.awaitLength]
    exact ⟨_, he.spawn⟩

end Producers

open Producers

/-- Producers that are made one by one, each after the one before is queued, are all queued, and
their callbacks run in that order and one at a time, however the granters come and go and whoever is
polled when. Where nothing is left to do and a granter was not dropped, all of them have run. -/
theorem enlisted_producers_run_in_order (settings : DispatcherSettings) (count : Nat) :
    let p : Producers := { dispatcher := { settings := settings } }
    (∀ k, (((p.enlist k).spawnProducer k).awaitLength (k + 1)).2 = .ok ()) ∧
    (p.enlist count).dispatcher.pending = count ∧
    ∀ as : List (Action Worker), (∀ a ∈ as, a.isDriving = true) →
      let q := (p.enlist count).after as
      q.journal.order <+: List.range count ∧
      (∀ w, q.dispatcher.submission? w ≠ some .running →
        q.poll w = (q.act (.poll w)).act (.finish w false)) ∧
      (q.dispatcher.IsStill →
        (∃ w k s, q.dispatcher.granter? w = some (k, s) ∧ s ≠ .dropped) →
        q.journal.order = List.range count ∧
          q.journal.mostRunning = if count = 0 then 0 else 1) := by
  intro p
  obtain ⟨h, he⟩ := exists_enlisted settings count
  refine ⟨fun k => ?_, ?_, fun as has => ?_⟩
  · obtain ⟨h, he⟩ := exists_enlisted settings k
    rw [he.spawn.awaitLength]
  · rw [he.dispatcher, pending, he.queued, length_roster]
  · have hf := he.follows.after has
    refine ⟨hf.order_prefix, fun w hw => hf.poll_eq hw, fun hd hg => ?_⟩
    obtain ⟨w, k, s, hw, hs⟩ := hg
    exact hf.of_still (hf.dispatcher ▸ hd) (hf.dispatcher ▸ hw) hs

/-- A loop is dropped with a turn out, and a closer sees to the rest. -/
theorem enlisted_producers_run_in_order_closer :
    let as : List (Action Worker) := [.run (.granter 2), .poll (.granter 2), .drop (.granter 2),
      .close (.granter 3), .poll (.granter 3), .poll (.producer 0 0), .advance 20,
      .poll (.producer 1 1), .finish (.producer 0 0) false, .poll (.granter 3),
      .poll (.producer 1 1), .finish (.producer 1 1) false, .poll (.granter 3)]
    let q := (enlist {} 2).after as
    (∀ a ∈ as, a.isDriving = true) ∧ q.dispatcher.IsStill ∧
      q.dispatcher.granter? (.granter 3) = some (.closer, .finished) ∧
      q.journal.order = [0, 1] ∧ q.journal.mostRunning = 1 := by
  intro as q
  have has : ∀ a ∈ as, a.isDriving = true := by decide
  have hstill : q.dispatcher.IsStill := by decide
  have hw : q.dispatcher.granter? (.granter 3) = some (.closer, .finished) := by decide
  obtain ⟨-, -, hdriven⟩ := enlisted_producers_run_in_order {} 2
  obtain ⟨horder, hmost⟩ := (hdriven as has).2.2 hstill ⟨_, _, _, hw, by simp⟩
  exact ⟨has, hstill, hw, horder, hmost⟩

end Turnstile
