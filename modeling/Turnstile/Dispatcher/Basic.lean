import Turnstile.Queue.Basic
import Turnstile.Settings.Basic
import Turnstile.Sync
import Turnstile.Table

namespace Turnstile

/-- How a submission can end. It is rejected by a dispatcher that is closed at its first poll,
stranded if the drain was over before it got into the queue, and abandoned if another threw it out
of the queue before its turn. -/
inductive Ending where
  | returned
  | panicked
  | rejected
  | stranded
  | abandoned
  | dropped
deriving DecidableEq, Repr

/-- How far a submission has come; the time it carries is that of its first poll. -/
inductive Submission where
  | created
  | entering (since : Nat)
  | waiting (since : Nat)
  | granted (since : Nat)
  | running
  | ended (how : Ending)
deriving DecidableEq, Repr

/-- A loop serves until the dispatcher is closed and drains it then; a closer only drains. -/
inductive GranterKind where
  | loop
  | closer
deriving DecidableEq, Repr

/-- Where a future that grants turns rests between two polls. From `retiring` on it holds the
baton. `retiring` waits for the turn that is out, `popping` for a submission, and `draining` for
the turn that is out, with the number of turns it has granted in the drain. -/
inductive GranterState where
  | created
  | locking
  | retiring
  | popping
  | draining (granted : Nat)
  | finished
  | dropped
deriving DecidableEq, Repr

inductive Future where
  | submission (s : Submission)
  | granter (kind : GranterKind) (s : GranterState)
deriving DecidableEq, Repr

def Submission.isLive : Submission → Bool
  | ended _ => false
  | _ => true

def GranterState.isLive : GranterState → Bool
  | finished | dropped => false
  | _ => true

def Future.isLive : Future → Bool
  | submission s => s.isLive
  | granter _ s => s.isLive

inductive Notice where
  | loopStarted
  | loopStopped
  | turnGranted
  | turnCompleted
  | withdrawn
  | rejected
  | closed (drained : Nat)
  | slowTurn (waitedMs : Nat)
  | stranded
deriving DecidableEq, Repr

structure Dispatcher (ι : Type) where
  settings : DispatcherSettings := {}
  queue : Queue ι ι := {}
  closed : Bool := false
  /-- Ends the loop's wait for the next submission. -/
  stopping : Bool := false
  drained : Bool := false
  /-- Only its holder grants turns. -/
  baton : FairLock ι := {}
  /-- The submission whose turn has to end before the next can be granted. -/
  awaited : Option ι := none
  futures : Table ι Future := {}
  /-- Nanoseconds since the start. -/
  now : Nat := 0
  notices : List Notice := []
deriving DecidableEq, Repr

/-- What a poll comes to. A submission whose turn has come starts its callback, and tells it
how long it waited. -/
inductive Progress where
  | pending
  | ready
  | called (waited : Nat)
deriving DecidableEq, Repr

namespace Dispatcher

variable {ι : Type} [DecidableEq ι]

def pending (d : Dispatcher ι) : Nat := d.queue.elements.length

def note (d : Dispatcher ι) (n : Notice) : Dispatcher ι := { d with notices := d.notices ++ [n] }

def setSubmission (d : Dispatcher ι) (i : ι) (s : Submission) : Dispatcher ι :=
  { d with futures := d.futures.put i (.submission s) }

def setGranter (d : Dispatcher ι) (i : ι) (k : GranterKind) (s : GranterState) : Dispatcher ι :=
  { d with futures := d.futures.put i (.granter k s) }

def submission? (d : Dispatcher ι) (i : ι) : Option Submission :=
  match d.futures.get? i with
  | some (.submission s) => some s
  | _ => none

def hasTurn (d : Dispatcher ι) (i : ι) : Bool :=
  match d.submission? i with
  | some (.granted _) | some .running => true
  | _ => false

def describe (d : Dispatcher ι) (layout : Text.Layout) : String :=
  layout.record "OrderedDispatcher"
    [("name", Text.quote d.settings.name), ("closed", toString d.closed),
      ("pending", toString d.pending)]

end Dispatcher

def Notice.entry (name : String) : Notice → LogEntry
  | .loopStarted => ⟨.debug, "dispatch loop started", [("dispatcher", name)]⟩
  | .loopStopped => ⟨.debug, "dispatch loop stopped", [("dispatcher", name)]⟩
  | .turnGranted => ⟨.trace, "turn granted", [("dispatcher", name)]⟩
  | .turnCompleted => ⟨.trace, "turn completed", []⟩
  | .withdrawn => ⟨.trace, "submission withdrawn before its turn", [("dispatcher", name)]⟩
  | .rejected => ⟨.trace, "submit after close dropped", [("dispatcher", name)]⟩
  | .closed n => ⟨.info, "dispatcher closed", [("dispatcher", name), ("drained", toString n)]⟩
  | .slowTurn ms =>
    ⟨.warn, "callback waited a long time for its turn",
      [("dispatcher", name), ("waited_ms", toString ms)]⟩
  | .stranded => ⟨.warn, "submission enqueued after drain, dropped", [("dispatcher", name)]⟩

end Turnstile
