import Turnstile.Number.Digits
import Turnstile.Report
import Turnstile.Settings.Basic

namespace Turnstile

/-- A lock that is held or not, whoever holds it, and how long a caller may wait for it before
the process is given up as deadlocked. -/
structure TimedLock where
  locked : Bool := false
  timeout : Duration
deriving DecidableEq, Repr

namespace TimedLock

def ofSettings (s : WatchdogSettings) : TimedLock := { timeout := s.timeout }

def tryLock (l : TimedLock) : TimedLock × Bool :=
  if l.locked then (l, false) else ({ l with locked := true }, true)

/-- No answer if the lock is not held: whoever releases it then is at fault. -/
def unlock (l : TimedLock) : Option TimedLock :=
  if l.locked then some { l with locked := false } else none

def unlockPanic : String := "unlock of unlocked watchdog lock"

def deadlockEntry (waited : Duration) (backtrace : String) : LogEntry :=
  ⟨.error, "watchdog lock not acquired in time, possible deadlock; terminating process",
    [("timeout_ms", toString (waited.toMillis % UInt64.size)), ("backtrace", backtrace)]⟩

def exitStatus : Nat := 1

def describe (l : TimedLock) (layout : Text.Layout) : String :=
  layout.record "WatchdogLock" [("locked", toString l.locked), ("timeout", l.timeout.text)]

inductive Wake where
  | signalled
  | spurious
  | timedOut
deriving DecidableEq, Repr

/-- How long a call may wait; without an end if the clock cannot show its deadline. -/
structure Window where
  timeout : Duration
  bounded : Bool
deriving DecidableEq, Repr

/-- The clock counts seconds in a signed 64-bit word. -/
def Window.since (now : Nat) (timeout : Duration) : Window where
  timeout := timeout
  bounded := now + timeout.toNanos < Number.signedLimit * 1000000000

inductive Attempt where
  | acquired
  | timedOut (e : AcquisitionError)
  | parked
deriving DecidableEq, Repr

def arrive (l : TimedLock) : TimedLock × Attempt :=
  if l.locked then (l, .parked) else ({ l with locked := true }, .acquired)

/-- A waiter that was woken looks at the lock again, and gives up only if its time is over and
the lock is still held. -/
def recheck (l : TimedLock) (w : Window) (wake : Wake) : TimedLock × Attempt :=
  if l.locked then
    (l, if wake = .timedOut ∧ w.bounded then .timedOut (.timeout w.timeout) else .parked)
  else ({ l with locked := true }, .acquired)

/-- The rest of a call that is parked: each time it wakes, it finds the lock held or free. -/
def waitOn (w : Window) : TimedLock → List (Wake × Bool) → TimedLock × Attempt
  | l, [] => (l, .parked)
  | l, (wake, locked) :: rest =>
    match { l with locked := locked }.recheck w wake with
    | (l, .parked) => waitOn w l rest
    | r => r

def waitFor (w : Window) (l : TimedLock) (wakes : List (Wake × Bool)) : TimedLock × Attempt :=
  match l.arrive with
  | (l, .parked) => waitOn w l wakes
  | r => r

end TimedLock

end Turnstile
