import Turnstile.Queue.Consumers

namespace Turnstile.Queue

open Text (Layout)

inductive Step (α : Type) where
  | push (a : α)
  | tryPop
  | pop (id token : String) (polled : Bool)
  | poll (id : String)
  | drop (id : String)
  | settle
  | cancel (token : String)
  | child (token id : String)
  | isCancelled (token : String)
  | describe (layout : Layout)

inductive Reply (α : Type) where
  | done
  | head (a : Option α)
  | created
  | taken
  | unknown
  | gone
  | dropped
  | polled (p : Popped α)
  | settled (outputs : List (String × Popped α))
  | truth (b : Bool)
  | text (s : String)

/-- Tokens are numbered in the order in which they come into being. -/
structure Session (α : Type) where
  consumers : Consumers String Nat α := {}
  tokens : Table String (Token Nat) := {}
  made : Nat := 0

namespace Session

variable {α : Type} [DecidableEq α]

def name (s : Session α) (id : String) (t : Token Nat) : Session α :=
  { s with tokens := s.tokens.put id t, made := s.made + 1 }

def mention (s : Session α) (id : String) : Session α × Token Nat :=
  match s.tokens.get? id with
  | some t => (s, t)
  | none => (s.name id ⟨s.made, []⟩, ⟨s.made, []⟩)

def poll (s : Session α) (id : String) : Session α × Reply α :=
  match s.consumers.pops.get? id, s.consumers.poll id with
  | none, _ => (s, .unknown)
  | some _, (_, none) => (s, .gone)
  | some _, (c, some p) => ({ s with consumers := c }, .polled p)

def drop (s : Session α) (id : String) : Session α × Reply α :=
  match s.consumers.pops.get? id with
  | none => (s, .unknown)
  | some p =>
    if p.isLive then ({ s with consumers := s.consumers.drop id }, .dropped) else (s, .gone)

def step (s : Session α) : Step α → Session α × Reply α
  | .push a => ({ s with consumers := s.consumers.push a }, .done)
  | .tryPop =>
    let r := s.consumers.tryPop
    ({ s with consumers := r.1 }, .head r.2)
  | .pop id token polled =>
    let (s, t) := s.mention token
    if s.consumers.pops.contains id then (s, .taken)
    else
      let s := { s with consumers := s.consumers.create id t }
      if polled then s.poll id else (s, .created)
  | .poll id => s.poll id
  | .drop id => s.drop id
  | .settle =>
    let r := s.consumers.settle
    ({ s with consumers := r.1 }, .settled r.2)
  | .cancel id =>
    let (s, t) := s.mention id
    ({ s with consumers := s.consumers.cancel t.name }, .done)
  | .child parent id =>
    let (s, t) := s.mention parent
    (s.name id (t.child s.made), .done)
  | .isCancelled id =>
    let (s, t) := s.mention id
    (s, .truth (t.isCancelled s.consumers.cancelled))
  | .describe layout => (s, .text (s.consumers.queue.describe layout))

end Session

end Turnstile.Queue
