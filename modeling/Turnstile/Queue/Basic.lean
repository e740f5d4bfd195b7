import Turnstile.Sync
import Turnstile.Text

namespace Turnstile

structure Queue (ι α : Type) where
  elements : List α := []
  signal : Signal ι := {}
deriving DecidableEq, Repr

inductive Popped (α : Type) where
  | value (a : α)
  | cancelled
  | pending
deriving DecidableEq, Repr

namespace Queue

variable {ι α : Type} [DecidableEq ι]

def push (q : Queue ι α) (a : α) : Queue ι α := ⟨q.elements ++ [a], q.signal.raise⟩

def tryPop (q : Queue ι α) : Queue ι α × Option α :=
  match q.elements with
  | [] => (q, none)
  | a :: rest => ({ q with elements := rest }, some a)

/-- Registers first and looks for an element after that, so that no push falls in between. A
stored signal that finds the queue empty is stale: it is used up, and the waiter registers. -/
def popOrRegister (q : Queue ι α) (i : ι) : Queue ι α × Popped α :=
  match q.signal.attend i, q.elements with
  | (s, true), a :: rest => (⟨rest, s⟩, .value a)
  | (s, false), a :: rest => (⟨rest, s.remove i⟩, .value a)
  | (s, true), [] => (⟨[], (s.attend i).1⟩, .pending)
  | (s, false), [] => (⟨[], s⟩, .pending)

/-- The first poll of a removal. A token cancelled before counts more than any element. -/
def pollFirst (q : Queue ι α) (i : ι) (cancelled : Bool) : Queue ι α × Popped α :=
  if cancelled then (q, .cancelled) else q.popOrRegister i

def leave (q : Queue ι α) (i : ι) : Queue ι α := { q with signal := q.signal.leave i }

def stepOut (q : Queue ι α) (i : ι) : Queue ι α := { q with signal := q.signal.remove i }

def pollAgain (q : Queue ι α) (i : ι) (cancelled : Bool) : Queue ι α × Popped α :=
  if cancelled then (q.leave i, .cancelled)
  else if q.signal.isMarked i then (q.stepOut i).popOrRegister i
  else (q, .pending)

def describe (q : Queue ι α) (layout : Text.Layout) : String :=
  layout.record "CancellableQueue" [("len", toString q.elements.length)]

end Queue

end Turnstile
