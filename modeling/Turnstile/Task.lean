import Turnstile.Report

namespace Turnstile

inductive TaskEnd where
  | success
  | failure (e : Error)
  | panic (message : String)
deriving DecidableEq, Repr

/-- A named background task that lets the others run a number of times before it ends. -/
structure Task where
  name : String
  yields : Nat
  ending : TaskEnd
  /-- Cancelled before it can start. -/
  aborted : Bool
deriving DecidableEq, Repr

namespace Task

inductive Joined where
  | ready
  | panicked (message : String)
  | aborted
deriving DecidableEq, Repr

def finishedEntry (name : String) : LogEntry :=
  ⟨.debug, "spawned task: " ++ name ++ " finished", []⟩

def failedEntry (name : String) (e : Error) : LogEntry :=
  ⟨.error, "spawned task: " ++ name ++ " stopped or encountered an error: " ++ e.describe .line, []⟩

def joined (t : Task) : Joined :=
  if t.aborted then .aborted
  else
    match t.ending with
    | .panic message => .panicked message
    | _ => .ready

/-- A panic is left to whoever joins the task. -/
def entry? (t : Task) : Option LogEntry :=
  match t.ending with
  | .success => some (finishedEntry t.name)
  | .failure e => some (failedEntry t.name e)
  | .panic _ => none

def turns : List Task → List Task × List Task
  | [] => ([], [])
  | t :: rest =>
    let r := turns rest
    if t.aborted then r
    else
      match t.yields with
      | 0 => (r.1, t :: r.2)
      | n + 1 => ({ t with yields := n } :: r.1, r.2)

/-- The thread serves this many tasks at most before it lets those that yielded back in. -/
def burst : Nat := 61

/-- The tasks in the order in which they end, on one thread. Those that yielded line up behind
the others, the last to yield first. -/
def endings : Nat → List Task → List Task
  | 0, _ => []
  | bursts + 1, ts =>
    let r := turns (ts.take burst)
    r.2 ++ endings bursts (ts.drop burst ++ r.1.reverse)

def logs (ts : List Task) : List LogEntry :=
  (endings (ts.foldl (fun n t => n + t.yields + 1) 0) ts).filterMap entry?

end Task

end Turnstile
