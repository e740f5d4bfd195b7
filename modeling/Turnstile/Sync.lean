namespace Turnstile

structure Waiter (ι : Type) where
  owner : ι
  marked : Bool
deriving DecidableEq, Repr

/-- Each raise of the signal is meant for one waiter. The waiters stand in the order in which they
registered, and at most one raise is stored for the next to come. -/
structure Signal (ι : Type) where
  waiters : List (Waiter ι) := []
  stored : Bool := false
deriving DecidableEq, Repr

namespace Signal

variable {ι : Type} [DecidableEq ι]

def markFirst : List (Waiter ι) → Option (List (Waiter ι))
  | [] => none
  | w :: ws => if w.marked then (markFirst ws).map (w :: ·) else some (⟨w.owner, true⟩ :: ws)

def raise (s : Signal ι) : Signal ι :=
  match markFirst s.waiters with
  | some ws => { s with waiters := ws }
  | none => { s with stored := true }

/-- Takes the stored raise, or else stands at the back of the line; says whether it took it. -/
def attend (s : Signal ι) (i : ι) : Signal ι × Bool :=
  if s.stored then ({ s with stored := false }, true)
  else ({ s with waiters := s.waiters ++ [⟨i, false⟩] }, false)

def isMarked (s : Signal ι) (i : ι) : Bool := s.waiters.any fun w => w.owner = i && w.marked

def remove (s : Signal ι) (i : ι) : Signal ι :=
  { s with waiters := s.waiters.filter fun w => w.owner ≠ i }

/-- A waiter that goes away with a mark it has not seen hands the signal on. -/
def leave (s : Signal ι) (i : ι) : Signal ι :=
  if s.isMarked i then (s.remove i).raise else s.remove i

end Signal

structure Token (τ : Type) where
  name : τ
  ancestors : List τ := []
deriving DecidableEq, Repr

namespace Token

variable {τ : Type} [DecidableEq τ]

def child (parent : Token τ) (name : τ) : Token τ := ⟨name, parent.name :: parent.ancestors⟩

/-- Cancelling a token cancels all its descendants, those made later too. -/
def isCancelled (t : Token τ) (cancelled : List τ) : Bool :=
  (t.name :: t.ancestors).any (· ∈ cancelled)

end Token

structure FairLock (ι : Type) where
  holder : Option ι := none
  line : List ι := []
deriving DecidableEq, Repr

namespace FairLock

variable {ι : Type} [DecidableEq ι]

def request (l : FairLock ι) (i : ι) : FairLock ι :=
  match l.holder with
  | none => { l with holder := some i }
  | some _ => { l with line := l.line ++ [i] }

def release (l : FairLock ι) : FairLock ι := ⟨l.line.head?, l.line.tail⟩

/-- Gives up a place in line, or the lock itself if it has come to `i` by now. -/
def leave (l : FairLock ι) (i : ι) : FairLock ι :=
  if l.holder = some i then l.release else { l with line := l.line.filter (· ≠ i) }

end FairLock

end Turnstile
