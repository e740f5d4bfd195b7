import Turnstile.Dispatcher.Basic

namespace Turnstile.Dispatcher

variable {ι : Type} [DecidableEq ι]

/-- Takes note that the last turn has ended; no answer while it is still out. -/
def retireTurn (d : Dispatcher ι) : Option (Dispatcher ι) :=
  match d.awaited with
  | none => some d
  | some j => if d.hasTurn j then none else some ({ d with awaited := none }.note .turnCompleted)

def grant (d : Dispatcher ι) (j : ι) : Dispatcher ι × Bool :=
  match d.submission? j with
  | some (.waiting since) =>
    ({ d.setSubmission j (.granted since) with awaited := some j }.note .turnGranted, true)
  | _ => (d.note .withdrawn, false)

def setElements (d : Dispatcher ι) (es : List ι) : Dispatcher ι :=
  { d with queue := { d.queue with elements := es } }

def dropLate (d : Dispatcher ι) : Dispatcher ι :=
  { d.setElements [] with notices := d.notices ++ d.queue.elements.map fun _ => .stranded }

/-- The queue is empty and no turn is out. The first drain to get here says so. -/
def completeDrain (d : Dispatcher ι) (granted : Nat) : Dispatcher ι :=
  (if d.drained then d else { d with drained := true }.note (.closed granted)).dropLate

def endGranter (d : Dispatcher ι) (i : ι) (k : GranterKind) : Dispatcher ι :=
  let d := match k with
    | .loop => d.note .loopStopped
    | .closer => d
  { d.setGranter i k .finished with baton := d.baton.release }

def look (d : Dispatcher ι) (i : ι) : Dispatcher ι :=
  { d with queue := (d.queue.popOrRegister i).1 }

def stepOut (d : Dispatcher ι) (i : ι) (k : GranterKind) : Dispatcher ι :=
  { d with queue := d.queue.stepOut i }.setGranter i k .retiring

def breakOff (d : Dispatcher ι) (i : ι) (k : GranterKind) : Dispatcher ι :=
  { d with queue := d.queue.leave i }.setGranter i k (.draining 0)

/-- A closer lets nobody in from its first poll on, whether it gets the baton then or not. -/
def shutDoor (d : Dispatcher ι) : GranterKind → Dispatcher ι
  | .loop => d
  | .closer => if d.closed then d else { d with closed := true, stopping := true }

def requestBaton (d : Dispatcher ι) (i : ι) (k : GranterKind) : Dispatcher ι :=
  { d with baton := d.baton.request i }.setGranter i k .locking

section Rounds

-- The rounds leave open how a turn is handed over; the dispatcher has them use `grant`.
variable (hand : Dispatcher ι → ι → Dispatcher ι × Bool)

def drainFrom (i : ι) (k : GranterKind) (granted : Nat) (d : Dispatcher ι) (queued : List ι) :
    Dispatcher ι × Progress :=
  match d.retireTurn, queued with
  | none, _ => (d.setGranter i k (.draining granted), .pending)
  | some d, [] => ((d.completeDrain granted).endGranter i k, .ready)
  | some d, j :: rest =>
    match hand (d.setElements rest) j with
    | (d, true) => drainFrom i k (granted + 1) d rest
    | (d, false) => drainFrom i k granted d rest

def drain (i : ι) (k : GranterKind) (granted : Nat) (d : Dispatcher ι) : Dispatcher ι × Progress :=
  drainFrom hand i k granted d d.queue.elements

def serveThen (i : ι) (next : Dispatcher ι → Dispatcher ι × Progress) (d : Dispatcher ι) :
    Dispatcher ι × Progress :=
  match d.retireTurn with
  | none => (d.setGranter i .loop .retiring, .pending)
  | some d => if d.stopping then drain hand i .loop 0 d else next d

/-- Each round of a loop hands over one turn and sees it end, until it has to wait in the queue. -/
def takeFrom (i : ι) (d : Dispatcher ι) : List ι → Dispatcher ι × Progress
  | [] => ((d.look i).setGranter i .loop .popping, .pending)
  | j :: rest => serveThen hand i (fun d => takeFrom i d rest) (hand (d.look i) j).1

def take (i : ι) (d : Dispatcher ι) : Dispatcher ι × Progress :=
  takeFrom hand i d d.queue.elements

def serve (i : ι) (d : Dispatcher ι) : Dispatcher ι × Progress :=
  serveThen hand i (take hand i) d

def startGranting (i : ι) (d : Dispatcher ι) : GranterKind → Dispatcher ι × Progress
  | .loop => serve hand i (d.note .loopStarted)
  | .closer => drain hand i .closer 0 d

def awaitBaton (i : ι) (k : GranterKind) (d : Dispatcher ι) : Dispatcher ι × Progress :=
  if d.baton.holder = some i then startGranting hand i d k else (d, .pending)

def pollGranterBy (i : ι) (k : GranterKind) (d : Dispatcher ι) :
    GranterState → Dispatcher ι × Progress
  | .created => awaitBaton hand i k ((d.shutDoor k).requestBaton i k)
  | .locking => awaitBaton hand i k d
  | .retiring => serve hand i d
  | .popping =>
    if d.stopping then drain hand i k 0 (d.breakOff i k)
    else if d.queue.signal.isMarked i then take hand i (d.stepOut i k)
    else (d, .pending)
  | .draining granted => drain hand i k granted d
  | .finished | .dropped => (d, .pending)

end Rounds

/-- A granter that is dropped gives back the baton or its place in line. The turn that is out, if
there is one, is left for the next holder to await. -/
def dropGranter (d : Dispatcher ι) (i : ι) (k : GranterKind) : GranterState → Dispatcher ι
  | .created => d.setGranter i k .dropped
  | .locking | .retiring | .draining _ =>
    { d.setGranter i k .dropped with baton := d.baton.leave i }
  | .popping =>
    { d.setGranter i k .dropped with queue := d.queue.leave i, baton := d.baton.leave i }
  | .finished | .dropped => d

end Turnstile.Dispatcher
