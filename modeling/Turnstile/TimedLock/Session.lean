import Turnstile.TimedLock.Threads

namespace Turnstile.TimedLock

open Text (Layout)

inductive Party where
  | main
  | helper
deriving DecidableEq, Repr

inductive Step where
  | call (c : Call)
  | tryLock
  | unlock
  | guard (id : String)
  | dropGuard (id : String)
  | forgetGuard (id : String)
  | guardPanic (message : String)
  | handoff (c : Call)
  | contend (threads rounds : Nat)
  | timeout
  | describe (layout : Layout)

inductive Reply where
  | done
  | truth (b : Bool)
  | acquired
  | timedOut (e : AcquisitionError)
  | taken
  | dropped
  | unknown
  | panicked (message : String)
  | notHeld
  | counted (n : Nat)
  | timeout (d : Duration)
  | text (s : String)
  | deadlock (entry : LogEntry)
deriving DecidableEq

/-- One thread uses a lock, at times with the help of a second one, and keeps guards by name. -/
structure Session where
  threads : Threads Party
  guards : List String := []

namespace Session

def new (timeout : Duration) : Session := { threads := { lock := { timeout := timeout } } }

def callReply (s : Session) (c : Call) : Outcome → Reply
  | .timedOut e => .timedOut e
  | .deadlock waited => .deadlock (deadlockEntry waited "<captured>")
  | _ =>
    match c with
    | .lock => .done
    | .shared => .truth true
    | .guard => .truth s.threads.lock.locked
    | .lockWithin _ => .acquired

/-- A call on the main thread. Nobody else is there to release the lock, so that a call which has
to wait waits until its time is over. -/
def callAlone (s : Session) (c : Call) : Session × Outcome :=
  let r := s.threads.call .main c
  match r.2 with
  | .parked =>
    let r := (r.1.wake .main .timedOut).recheck .main
    ({ s with threads := r.1 }, r.2)
  | o => ({ s with threads := r.1 }, o)

def notified (s : Session) (p : Party) (waiting : Option Party) (r : Threads Party × Outcome) :
    Session × Outcome :=
  ({ s with threads := r.1.notify p waiting }, r.2)

def releaseReply (ok : Reply) : Outcome → Reply
  | .panicked => .panicked unlockPanic
  | _ => ok

def withGuard (s : Session) (next : Session → Session × Reply) : Session × Reply :=
  let r := s.callAlone .guard
  match r.2 with
  | .acquired => next r.1
  | o => (r.1, r.1.callReply .guard o)

def dropGuard (s : Session) (p : Party) : Session × Outcome :=
  s.notified p none (s.threads.dropGuard p)

def handoff (s : Session) (c : Call) : Session × Reply :=
  if s.threads.lock.locked then
    let waiting := (s.threads.call .helper c).1
    let s := (s.notified .main (some .helper) (waiting.unlock .main)).1
    let r := s.threads.recheck .helper
    let s := { s with threads := r.1 }
    let reply := s.callReply c r.2
    match c with
    | .guard => ((s.dropGuard .helper).1, reply)
    | _ => (s, reply)
  else (s, .notHeld)

def contend : Nat → Nat → Session → Session × Reply
  | 0, counted, s => (s, .counted counted)
  | n + 1, counted, s =>
    let r := s.callAlone .guard
    match r.2 with
    | .acquired => contend n (counted + 1) (r.1.dropGuard .main).1
    | o => (r.1, r.1.callReply .guard o)

def step (s : Session) : Step → Session × Reply
  | .call c =>
    let r := s.callAlone c
    (r.1, r.1.callReply c r.2)
  | .tryLock =>
    let r := s.threads.tryLock
    ({ s with threads := r.1 }, .truth (r.2 = .acquired))
  | .unlock =>
    let r := s.notified .main none (s.threads.unlock .main)
    (r.1, releaseReply .done r.2)
  | .guard id =>
    if id ∈ s.guards then (s, .taken)
    else s.withGuard fun s => ({ s with guards := s.guards ++ [id] }, .done)
  | .dropGuard id =>
    if id ∈ s.guards then
      let r := { s with guards := s.guards.filter (· ≠ id) }.dropGuard .main
      (r.1, releaseReply .dropped r.2)
    else (s, .unknown)
  | .forgetGuard id =>
    if id ∈ s.guards then
      ({ s with guards := s.guards.filter (· ≠ id), threads := s.threads.forgetGuard }, .done)
    else (s, .done)
  | .guardPanic message => s.withGuard fun s => ((s.dropGuard .main).1, .panicked message)
  | .handoff c => s.handoff c
  | .contend threads rounds => contend (threads * rounds) 0 s
  | .timeout => (s, .timeout s.threads.lock.timeout)
  | .describe layout => (s, .text (s.threads.lock.describe layout))

def play : Session → List Step → List (Reply × Bool) × Bool
  | s, [] => ([], s.threads.ended)
  | s, st :: rest =>
    let r := s.step st
    if r.1.threads.ended then ([(r.2, r.1.threads.lock.locked)], true)
    else
      let t := play r.1 rest
      ((r.2, r.1.threads.lock.locked) :: t.1, t.2)

end Session

end Turnstile.TimedLock
