import Turnstile.Dispatcher.Poll

namespace Turnstile

/-- One thing done to a dispatcher. A poll that starts a callback lasts until the `finish` that
ends the callback, and what is done in between is done from inside the callback. -/
inductive Action (ι : Type) where
  | submit (i : ι)
  | run (i : ι)
  | close (i : ι)
  | poll (i : ι)
  | drop (i : ι)
  | finish (i : ι) (panics : Bool)
  | advance (ns : Nat)
deriving DecidableEq, Repr

def Action.isAbout {ι : Type} [DecidableEq ι] (w : ι) : Action ι → Bool
  | submit i | run i | close i | poll i | drop i | finish i _ => i = w
  | advance _ => false

namespace Dispatcher

variable {ι : Type} [DecidableEq ι]

def unlessTaken (d : Dispatcher ι) (i : ι) (made : Dispatcher ι) : Dispatcher ι :=
  if d.futures.contains i then d else made

def act (d : Dispatcher ι) : Action ι → Dispatcher ι
  | .submit i => d.unlessTaken i (d.submit i)
  | .run i => d.unlessTaken i (d.run i)
  | .close i => d.unlessTaken i (d.close i)
  | .poll i => (d.poll i).1
  | .drop i => d.drop i
  | .finish i panics => d.endCallback i (if panics then .panicked else .returned)
  | .advance ns => d.advance ns

def answer (d : Dispatcher ι) : Action ι → Option Progress
  | .poll i => some (d.poll i).2
  | _ => none

/-- The submission that is accepted: its first poll finds the dispatcher open. -/
def admits (d : Dispatcher ι) : Action ι → List ι
  | .poll i => if d.submission? i = some .created ∧ d.closed = false then [i] else []
  | _ => []

def starts (d : Dispatcher ι) : Action ι → List ι
  | .poll i =>
    match (d.poll i).2 with
    | .called _ => [i]
    | _ => []
  | _ => []

end Dispatcher

/-- A dispatcher with what has happened to it: which submissions were accepted and which callbacks
were started, each in their order. -/
structure History (ι : Type) where
  dispatcher : Dispatcher ι
  accepted : List ι := []
  started : List ι := []

namespace History

variable {ι : Type} [DecidableEq ι]

def fresh (settings : DispatcherSettings) : History ι := { dispatcher := { settings := settings } }

def step (h : History ι) (a : Action ι) : History ι where
  dispatcher := h.dispatcher.act a
  accepted := h.accepted ++ h.dispatcher.admits a
  started := h.started ++ h.dispatcher.starts a

def after (h : History ι) (as : List (Action ι)) : History ι := as.foldl step h

theorem after_append (h : History ι) (as bs : List (Action ι)) :
    h.after (as ++ bs) = (h.after as).after bs := List.foldl_append

def replies (h : History ι) : List (Action ι) → List (Action ι × Option Progress)
  | [] => []
  | a :: as => (a, h.dispatcher.answer a) :: (h.step a).replies as

inductive Reachable : History ι → Prop where
  | fresh (settings : DispatcherSettings) : Reachable (fresh settings)
  | step {h : History ι} (a : Action ι) : Reachable h → Reachable (h.step a)

theorem Reachable.after {h : History ι} (hr : Reachable h) (as : List (Action ι)) :
    Reachable (h.after as) := by
  induction as generalizing h with
  | nil => exact hr
  | cons a as ih => exact ih (hr.step a)

end History

end Turnstile
