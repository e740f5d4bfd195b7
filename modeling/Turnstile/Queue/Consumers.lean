import Turnstile.Queue.Basic
import Turnstile.Sync
import Turnstile.Table

namespace Turnstile

inductive PopState where
  | created
  | waiting
  | finished
  | dropped
deriving DecidableEq, Repr

structure Pop (τ : Type) where
  token : Token τ
  state : PopState
deriving DecidableEq, Repr

def Pop.isLive {τ : Type} (p : Pop τ) : Bool := p.state = .created || p.state = .waiting

structure Consumers (ι τ α : Type) where
  queue : Queue ι α := {}
  cancelled : List τ := []
  pops : Table ι (Pop τ) := {}
deriving DecidableEq, Repr

namespace Consumers

variable {ι τ α : Type} [DecidableEq ι] [DecidableEq τ]

def push (c : Consumers ι τ α) (a : α) : Consumers ι τ α := { c with queue := c.queue.push a }

def tryPop (c : Consumers ι τ α) : Consumers ι τ α × Option α :=
  match c.queue.tryPop with
  | (q, a) => ({ c with queue := q }, a)

def cancel (c : Consumers ι τ α) (t : τ) : Consumers ι τ α :=
  { c with cancelled := t :: c.cancelled }

def create (c : Consumers ι τ α) (i : ι) (token : Token τ) : Consumers ι τ α :=
  { c with pops := c.pops.put i ⟨token, .created⟩ }

def setState (c : Consumers ι τ α) (i : ι) (p : Pop τ) (q : Queue ι α) (s : PopState) :
    Consumers ι τ α :=
  { c with queue := q, pops := c.pops.put i { p with state := s } }

def settled : Popped α → PopState
  | .pending => .waiting
  | _ => .finished

/-- No answer if there is no such removal, or it has ended. -/
def poll (c : Consumers ι τ α) (i : ι) : Consumers ι τ α × Option (Popped α) :=
  match c.pops.get? i with
  | none => (c, none)
  | some p =>
    let cancelled := p.token.isCancelled c.cancelled
    match p.state with
    | .created =>
      let r := c.queue.pollFirst i cancelled
      (c.setState i p r.1 (settled r.2), some r.2)
    | .waiting =>
      let r := c.queue.pollAgain i cancelled
      (c.setState i p r.1 (settled r.2), some r.2)
    | _ => (c, none)

def drop (c : Consumers ι τ α) (i : ι) : Consumers ι τ α :=
  match c.pops.get? i with
  | none => c
  | some p =>
    match p.state with
    | .created => c.setState i p c.queue .dropped
    | .waiting => c.setState i p (c.queue.leave i) .dropped
    | _ => c

def live (c : Consumers ι τ α) : List ι := (c.pops.entries.filter (·.2.isLive)).map (·.1)

def pollAll (c : Consumers ι τ α) : List ι → Consumers ι τ α × List (ι × Popped α)
  | [] => (c, [])
  | i :: is =>
    let r := c.poll i
    let rest := pollAll r.1 is
    match r.2 with
    | some (.value a) => (rest.1, (i, .value a) :: rest.2)
    | some .cancelled => (rest.1, (i, .cancelled) :: rest.2)
    | _ => rest

def settleRounds [DecidableEq α] :
    Nat → Consumers ι τ α → Consumers ι τ α × List (ι × Popped α)
  | 0, c => (c, [])
  | fuel + 1, c =>
    let r := c.pollAll c.live
    if r.1 = c then (c, r.2)
    else
      let rest := settleRounds fuel r.1
      (rest.1, r.2 ++ rest.2)

/-- A round that changes something ends a removal, registers one or uses up a mark, and no
removal does more than three of these things. -/
def settle [DecidableEq α] (c : Consumers ι τ α) : Consumers ι τ α × List (ι × Popped α) :=
  settleRounds (3 * c.pops.entries.length + 1) c

end Consumers

end Turnstile
