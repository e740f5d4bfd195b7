import Turnstile.Table
import Turnstile.TimedLock.Basic

namespace Turnstile.TimedLock

/-- The calls that may wait for the lock. All but the last end the process when their time is
over. -/
inductive Call where
  | lock
  | shared
  | guard
  | lockWithin (timeout : Duration)
deriving DecidableEq, Repr

def Call.timeout (l : TimedLock) : Call → Duration
  | lockWithin d => d
  | _ => l.timeout

/-- Where a thread is between two critical sections. One that unlocked has still to notify. -/
inductive ThreadState where
  | idle
  | parked (c : Call) (w : Window)
  | awake (c : Call) (w : Window) (wake : Wake)
  | notifying
deriving DecidableEq, Repr

inductive Outcome where
  | acquired
  | refused
  | parked
  | timedOut (e : AcquisitionError)
  | deadlock (waited : Duration)
  | released
  | panicked
deriving DecidableEq, Repr

/-- A lock, the threads that use it and the guards that are alive. The process ends with the
first deadlock. -/
structure Threads (ι : Type) where
  lock : TimedLock
  states : Table ι ThreadState := {}
  guards : Nat := 0
  now : Nat := 0
  ended : Bool := false
deriving DecidableEq, Repr

namespace Threads

variable {ι : Type} [DecidableEq ι]

def state (s : Threads ι) (t : ι) : ThreadState := (s.states.get? t).getD .idle

def set (s : Threads ι) (t : ι) (st : ThreadState) : Threads ι :=
  { s with states := s.states.put t st }

def guardMade (s : Threads ι) : Call → Threads ι
  | .guard => { s with guards := s.guards + 1 }
  | _ => s

def conclude (s : Threads ι) (t : ι) (c : Call) (w : Window) :
    TimedLock × Attempt → Threads ι × Outcome
  | (l, .acquired) => (({ s with lock := l }.set t .idle).guardMade c, .acquired)
  | (l, .parked) => ({ s with lock := l }.set t (.parked c w), .parked)
  | (l, .timedOut e) =>
    match c with
    | .lockWithin _ => ({ s with lock := l }.set t .idle, .timedOut e)
    | _ => ({ s with lock := l, ended := true }.set t .idle, .deadlock w.timeout)

def call (s : Threads ι) (t : ι) (c : Call) : Threads ι × Outcome :=
  s.conclude t c (.since s.now (c.timeout s.lock)) s.lock.arrive

def tryLock (s : Threads ι) : Threads ι × Outcome :=
  match s.lock.tryLock with
  | (l, true) => ({ s with lock := l }, .acquired)
  | (l, false) => ({ s with lock := l }, .refused)

def unlock (s : Threads ι) (t : ι) : Threads ι × Outcome :=
  match s.lock.unlock with
  | some l => ({ s with lock := l }.set t .notifying, .released)
  | none => (s, .panicked)

def forgetGuard (s : Threads ι) : Threads ι := { s with guards := s.guards - 1 }

def dropGuard (s : Threads ι) (t : ι) : Threads ι × Outcome := s.forgetGuard.unlock t

def wake (s : Threads ι) (t : ι) (why : Wake) : Threads ι :=
  match s.state t with
  | .parked c w => s.set t (.awake c w why)
  | _ => s

def notify (s : Threads ι) (t : ι) (target : Option ι) : Threads ι :=
  match s.state t, target with
  | .notifying, some u => (s.set t .idle).wake u .signalled
  | .notifying, none => s.set t .idle
  | _, _ => s

def recheck (s : Threads ι) (t : ι) : Threads ι × Outcome :=
  match s.state t with
  | .awake c w why => s.conclude t c w (s.lock.recheck w why)
  | _ => (s, .refused)

end Threads

end Turnstile.TimedLock
