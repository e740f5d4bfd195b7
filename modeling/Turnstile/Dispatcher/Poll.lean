import Turnstile.Dispatcher.Grant

namespace Turnstile.Dispatcher

variable {ι : Type} [DecidableEq ι]

/-- The first half of a submission's first poll: a closed dispatcher turns it away, an open one
has it note the time. -/
def enter (d : Dispatcher ι) (i : ι) : Dispatcher ι :=
  if d.closed then (d.note .rejected).setSubmission i (.ended .rejected)
  else d.setSubmission i (.entering d.now)

def isSlow (d : Dispatcher ι) (waited : Nat) : Bool :=
  match d.settings.slowLimit with
  | none => false
  | some limit => decide (limit.toNanos < waited)

def startCallback (d : Dispatcher ι) (i : ι) (since : Nat) : Dispatcher ι × Progress :=
  let waited := d.now - since
  let d := if d.isSlow waited then d.note (.slowTurn (waited / 1000000 % UInt64.size)) else d
  (d.setSubmission i .running, .called waited)

/-- A submission gives up when its request is lost. One that still waits when the drain is over
clears the queue. -/
def awaitTurn (d : Dispatcher ι) (i : ι) : Submission → Dispatcher ι × Progress
  | .granted since => d.startCallback i since
  | .waiting _ =>
    if i ∉ d.queue.elements then (d.setSubmission i (.ended .abandoned), .ready)
    else if d.drained then (d.dropLate.setSubmission i (.ended .stranded), .ready)
    else (d, .pending)
  | .ended _ => (d, .ready)
  | _ => (d, .pending)

def enqueue (d : Dispatcher ι) (i : ι) : Dispatcher ι × Progress :=
  match d.submission? i with
  | some (.entering since) =>
    { d.setSubmission i (.waiting since) with queue := d.queue.push i }.awaitTurn i (.waiting since)
  | some s => d.awaitTurn i s
  | none => (d, .pending)

def pollSubmission (d : Dispatcher ι) (i : ι) : Submission → Dispatcher ι × Progress
  | .created => (d.enter i).enqueue i
  | .entering _ => d.enqueue i
  | .waiting since => d.awaitTurn i (.waiting since)
  | .granted since => d.awaitTurn i (.granted since)
  | .running | .ended _ => (d, .pending)

def pollBy (hand : Dispatcher ι → ι → Dispatcher ι × Bool) (d : Dispatcher ι) (i : ι) :
    Dispatcher ι × Progress :=
  match d.futures.get? i with
  | none => (d, .pending)
  | some (.submission s) => d.pollSubmission i s
  | some (.granter k s) => pollGranterBy hand i k d s

def poll (d : Dispatcher ι) (i : ι) : Dispatcher ι × Progress := pollBy grant d i

def dropSubmission (d : Dispatcher ι) (i : ι) : Submission → Dispatcher ι
  | .created | .waiting _ | .granted _ => d.setSubmission i (.ended .dropped)
  | _ => d

def drop (d : Dispatcher ι) (i : ι) : Dispatcher ι :=
  match d.futures.get? i with
  | none => d
  | some (.submission s) => d.dropSubmission i s
  | some (.granter k s) => d.dropGranter i k s

def create (d : Dispatcher ι) (i : ι) (f : Future) : Dispatcher ι :=
  { d with futures := d.futures.put i f }

def submit (d : Dispatcher ι) (i : ι) : Dispatcher ι := d.create i (.submission .created)

def run (d : Dispatcher ι) (i : ι) : Dispatcher ι := d.create i (.granter .loop .created)

def close (d : Dispatcher ι) (i : ι) : Dispatcher ι := d.create i (.granter .closer .created)

def endCallback (d : Dispatcher ι) (i : ι) (how : Ending) : Dispatcher ι :=
  match d.submission? i with
  | some .running => d.setSubmission i (.ended how)
  | _ => d

def advance (d : Dispatcher ι) (ns : Nat) : Dispatcher ι := { d with now := d.now + ns }

end Turnstile.Dispatcher
