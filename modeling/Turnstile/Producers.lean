import Turnstile.Dispatcher.Poll

namespace Turnstile

structure Journal where
  order : List Nat := []
  running : Nat := 0
  mostRunning : Nat := 0
deriving DecidableEq, Repr

namespace Journal

def start (j : Journal) (id : Nat) : Journal where
  order := j.order ++ [id]
  running := j.running + 1
  mostRunning := max j.mostRunning (j.running + 1)

def stop (j : Journal) : Journal := { j with running := j.running - 1 }

def record (j : Journal) (id : Nat) : Journal := (j.start id).stop

def history (j : Journal) : List Nat → List Journal
  | [] => [j]
  | id :: rest => j :: history (j.record id) rest

end Journal

inductive Worker where
  | producer (key number : Nat)
  | granter (key : Nat)
deriving DecidableEq, Repr

/-- A dispatcher whose futures are tasks on one thread, and a journal that their callbacks share. -/
structure Producers where
  dispatcher : Dispatcher Worker := {}
  journal : Journal := {}
  kept : List Worker := []
deriving DecidableEq, Repr

namespace Producers

/-- The window after which waiting for a queue length is given up, in nanoseconds. -/
def window : Nat := 5001000000

def fresh (p : Producers) : Nat := p.dispatcher.futures.entries.length

/-- One poll of a task. A callback runs within the poll that starts it. -/
def poll (p : Producers) (w : Worker) : Producers :=
  match p.dispatcher.poll w, w with
  | (d, .called _), .producer _ number =>
    { p with dispatcher := d.endCallback w .returned, journal := p.journal.record number }
  | (d, _), _ => { p with dispatcher := d }

def pollAll (p : Producers) (ws : List Worker) : Producers := ws.foldl poll p

def settleRounds : Nat → Producers → Producers
  | 0, p => p
  | rounds + 1, p =>
    let p' := p.pollAll (p.dispatcher.futures.entries.map (·.1))
    if p' = p then p else settleRounds rounds p'

/-- No task needs more than six rounds to its end. -/
def settle (p : Producers) : Producers := settleRounds (6 * p.fresh + 1) p

/-- The time is up at once unless the queue has the expected length. -/
def awaitLength (p : Producers) (expected : Nat) : Producers × Except String Unit :=
  if p.dispatcher.pending = expected then (p, .ok ())
  else
    ({ p with dispatcher := p.dispatcher.advance window },
      .error ("pending never reached " ++ toString expected ++ ", now " ++
        toString p.dispatcher.pending))

def spawnProducer (p : Producers) (number : Nat) : Producers :=
  let w := Worker.producer p.fresh number
  let p := { p with dispatcher := p.dispatcher.submit w, kept := p.kept ++ [w] }
  p.poll w

def enlist (p : Producers) (count : Nat) : Producers :=
  (List.range count).foldl (fun p number => ((p.spawnProducer number).awaitLength (number + 1)).1) p

def abort (p : Producers) (index : Nat) : Producers :=
  match p.kept[index]? with
  | some w => { p with dispatcher := p.dispatcher.drop w }
  | none => p

def run (p : Producers) : Producers :=
  { p with dispatcher := p.dispatcher.run (.granter p.fresh) }

def close (p : Producers) : Producers :=
  { p with dispatcher := p.dispatcher.close (.granter p.fresh) }

def outcomes (p : Producers) : List Bool :=
  p.kept.map fun w => p.dispatcher.submission? w = some (.ended .returned)

inductive Step where
  | submit (count : Nat)
  | abort (index : Nat)
  | run
  | close
  | wait (expected : Nat)
  | join

inductive Reply where
  | done
  | waited (r : Except String Unit)
  | joined (ran : List Bool)

def step (p : Producers) : Step → Producers × Reply
  | .submit count => ((p.enlist count).settle, .done)
  | .abort index => ((p.abort index).settle, .done)
  | .run => (p.run.settle, .done)
  | .close => (p.close.settle, .done)
  | .wait expected =>
    let r := p.awaitLength expected
    (r.1.settle, .waited r.2)
  | .join =>
    let p := p.settle
    ({ p with kept := [] }, .joined p.outcomes)

end Producers

end Turnstile
