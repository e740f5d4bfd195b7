import Turnstile.Dispatcher.Basic
import Turnstile.Dispatcher.Poll
import Turnstile.Task

namespace Turnstile.Dispatcher

open Text (Layout)

/-- One thing done to a dispatcher and its futures, which are known by name. The steps of `mid`
come between the two halves of a submission's first poll, those of `body` in its callback. -/
inductive Step where
  | submit (id : String) (polled : Bool) (mid body : List Step) (panic : Option String)
  | run (id : String) (polled : Bool)
  | close (id : String) (polled : Bool)
  | poll (id : String)
  | drop (id : String)
  | settle
  | tick
  | advance (ns : Nat)
  | abort
  | settings
  | describe (layout : Layout)
deriving Inhabited

mutual

def Step.count : Step → Nat
  | .submit _ _ mid body _ => 1 + countAll mid + countAll body
  | _ => 1

def countAll : List Step → Nat
  | [] => 0
  | s :: rest => s.count + countAll rest

end

inductive Output where
  | ready
  | panicked (message : String)
  | aborted
deriving DecidableEq, Repr

inductive Reply where
  | done
  | created
  | taken
  | unknown
  | gone
  | busy
  | pending
  | ended (o : Output)
  | dropped
  | settled (outputs : List (String × Output))
  | settings (s : DispatcherSettings)
  | text (s : String)

inductive Event where
  | log (entry : LogEntry)
  | called (id : String) (waited pending : Nat) (closed : Bool)
  | inside (id : String) (step : Step) (reply : Reply)
  | amid (id : String) (step : Step) (reply : Reply)
  | returned (id : String)

inductive FutureName where
  | spawned
  | named (id : String)
deriving DecidableEq, Repr

inductive LoopFate where
  | running
  | finished
  | aborted
deriving DecidableEq, Repr

structure SpawnedLoop where
  fate : LoopFate := .running
  held : Bool := true
deriving DecidableEq, Repr

structure Script where
  mid : List Step
  body : List Step
  panic : Option String

structure Session where
  dispatcher : Dispatcher FutureName
  scripts : Table String Script := {}
  loop : Option SpawnedLoop := none
  events : List Event := []

namespace Session

def new (settings : DispatcherSettings) (spawned : Bool) : Session :=
  if spawned then
    { dispatcher := ({ settings := settings } : Dispatcher FutureName).run .spawned
      loop := some {} }
  else { dispatcher := { settings := settings } }

def emit (s : Session) (e : Event) : Session := { s with events := s.events ++ [e] }

def update (s : Session) (d : Dispatcher FutureName) : Session :=
  { s with
    dispatcher := { d with notices := [] }
    events := s.events ++ d.notices.map fun n => .log (n.entry d.settings.name) }

def joinName : String := "loop"

def handle? (s : Session) (id : String) : Option SpawnedLoop :=
  if id = joinName then s.loop else none

def future? (s : Session) (id : String) : Option Future := s.dispatcher.futures.get? (.named id)

def names (s : Session) : List String :=
  (if s.loop.isSome then [joinName] else []) ++
  s.dispatcher.futures.entries.filterMap fun e =>
    match e.1 with
    | .named id => some id
    | .spawned => none

def isLive (s : Session) (id : String) : Bool :=
  match s.handle? id, s.future? id with
  | some l, _ => l.held
  | none, some f => f.isLive
  | none, none => false

def live (s : Session) : List String := s.names.filter s.isLive

def tick (s : Session) : Session :=
  match s.loop with
  | some l =>
    if l.fate = .running then
      match s.dispatcher.poll .spawned with
      | (d, .ready) =>
        { s.update d with loop := some { l with fate := .finished } }.emit
          (.log (Task.finishedEntry "dispatch_loop"))
      | (d, _) => s.update d
    else s
  | none => s

def abort (s : Session) : Session :=
  match s.loop with
  | some l =>
    if l.fate = .running then
      { s.update (s.dispatcher.drop .spawned) with loop := some { l with fate := .aborted } }
    else s
  | none => s

abbrev Interpreter := Session → Step → Session × Reply

def runSteps (interpret : Interpreter) (tag : Step → Reply → Event) : List Step → Session → Session
  | [], s => s
  | step :: rest, s =>
    let r := interpret s step
    runSteps interpret tag rest (r.1.emit (tag step r.2))

def conclude (interpret : Interpreter) (s : Session) (id : String) (script : Script) :
    Progress → Session × Reply
  | .pending => (s, .pending)
  | .ready => (s, .ended .ready)
  | .called waited =>
    let s := s.emit (.called id waited s.dispatcher.pending s.dispatcher.closed)
    let s := runSteps interpret (.inside id) script.body s
    match script.panic with
    | some message =>
      (s.update (s.dispatcher.endCallback (.named id) .panicked), .ended (.panicked message))
    | none =>
      ((s.update (s.dispatcher.endCallback (.named id) .returned)).emit (.returned id),
        .ended .ready)

def pollSubmission (interpret : Interpreter) (s : Session) (id : String) :
    Submission → Session × Reply
  | .created =>
    let script := (s.scripts.get? id).getD ⟨[], [], none⟩
    let s := s.update (s.dispatcher.enter (.named id))
    let s :=
      match s.dispatcher.submission? (.named id) with
      | some (.entering _) => runSteps interpret (.amid id) script.mid s
      | _ => s
    let r := s.dispatcher.enqueue (.named id)
    conclude interpret (s.update r.1) id script r.2
  | .waiting _ | .granted _ =>
    let script := (s.scripts.get? id).getD ⟨[], [], none⟩
    let r := s.dispatcher.poll (.named id)
    conclude interpret (s.update r.1) id script r.2
  | .entering _ | .running => (s, .busy)
  | .ended _ => (s, .gone)

def pollHandle (s : Session) (l : SpawnedLoop) : Session × Reply :=
  if l.held then
    match l.fate with
    | .running => (s, .pending)
    | .finished => ({ s with loop := some { l with held := false } }, .ended .ready)
    | .aborted => ({ s with loop := some { l with held := false } }, .ended .aborted)
  else (s, .gone)

def poll (interpret : Interpreter) (s : Session) (id : String) : Session × Reply :=
  match s.handle? id, s.future? id with
  | some l, _ => s.pollHandle l
  | none, none => (s, .unknown)
  | none, some (.submission state) => s.pollSubmission interpret id state
  | none, some (.granter kind state) =>
    if (Future.granter kind state).isLive then
      let r := s.dispatcher.poll (.named id)
      (s.update r.1, if r.2 = .ready then .ended .ready else .pending)
    else (s, .gone)

def drop (s : Session) (id : String) : Session × Reply :=
  match s.handle? id, s.future? id with
  | some l, _ =>
    if l.held then ({ s with loop := some { l with held := false } }, .dropped) else (s, .gone)
  | none, none => (s, .unknown)
  | none, some (.submission (.entering _)) => (s, .busy)
  | none, some (.submission .running) => (s, .busy)
  | none, some f =>
    if f.isLive then (s.update (s.dispatcher.drop (.named id)), .dropped) else (s, .gone)

def create (interpret : Interpreter) (s : Session) (id : String) (f : Future) (polled : Bool) :
    Session × Reply :=
  let s := { s with dispatcher := s.dispatcher.create (.named id) f }
  if polled then s.poll interpret id else (s, .created)

def sweep (interpret : Interpreter) : Nat → Nat → Session → Session × List (String × Output)
  | 0, _, s => (s, [])
  | fuel + 1, k, s =>
    match s.names[k]? with
    | none => (s, [])
    | some id =>
      let r := s.poll interpret id
      let t := sweep interpret fuel (k + 1) r.1
      match r.2 with
      | .ended o => (t.1, (id, o) :: t.2)
      | _ => t

def settle (interpret : Interpreter) (most : Nat) :
    Nat → Session → Session × List (String × Output)
  | 0, s => (s, [])
  | rounds + 1, s =>
    let r := sweep interpret most 0 s
    let t := r.1.tick
    if t.dispatcher = s.dispatcher ∧ t.loop = s.loop then (t, r.2)
    else
      let rest := settle interpret most rounds t
      (rest.1, r.2 ++ rest.2)

def isTaken (s : Session) (id : String) : Bool := (s.handle? id).isSome || (s.future? id).isSome

/-- There are `most` futures at most. Each callback that runs inside another takes up one of them,
so `depth` need not be more; and a round of a settling brings one of them nearer to its end, which
is at most six rounds away for each. -/
def interpret (most : Nat) : Nat → Interpreter
  | 0 => fun s _ => (s, .done)
  | depth + 1 => fun s step =>
    match step with
    | .submit id polled mid body panic =>
      if s.isTaken id then (s, .taken)
      else
        create (interpret most depth) { s with scripts := s.scripts.put id ⟨mid, body, panic⟩ }
          id (.submission .created) polled
    | .run id polled =>
      if s.isTaken id then (s, .taken)
      else create (interpret most depth) s id (.granter .loop .created) polled
    | .close id polled =>
      if s.isTaken id then (s, .taken)
      else create (interpret most depth) s id (.granter .closer .created) polled
    | .poll id => s.poll (interpret most depth) id
    | .drop id => s.drop id
    | .settle =>
      let r := settle (interpret most depth) most (6 * most) s
      (r.1, .settled r.2)
    | .tick => (s.tick, .done)
    | .advance ns => ({ s with dispatcher := s.dispatcher.advance ns }.tick, .done)
    | .abort => (s.abort, .done)
    | .settings => (s, .settings s.dispatcher.settings)
    | .describe layout => (s, .text (s.dispatcher.describe layout))

structure Observation where
  reply : Reply
  events : List Event
  pending : Nat
  closed : Bool
  live : List String

def observe (s : Session) (r : Reply) : Observation :=
  ⟨r, s.events, s.dispatcher.pending, s.dispatcher.closed, s.live⟩

def observeAll (step : Interpreter) : List Step → Session → List Observation
  | [], _ => []
  | st :: rest, s =>
    let r := step s st
    r.1.observe r.2 :: observeAll step rest { r.1 with events := [] }

/-- There are no more futures than steps, with the spawned loop and one to spare. -/
def play (settings : DispatcherSettings) (spawned : Bool) (steps : List Step) : List Observation :=
  let most := countAll steps + 2
  observeAll (interpret most most) steps (new settings spawned)

end Session

end Turnstile.Dispatcher
