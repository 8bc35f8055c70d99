import TerminalHost.Session.Run
import TerminalHost.Settings

/-!
# The server

In telnet mode the host serves every connection with a session of its own.  The
server is a machine that reacts to events: connections that come or fail to come,
the steps of the sessions in any order, the end of a session being noticed, the
shutdown, and the passing of time.  Time only passes when nothing can be done any
more at the present time, so what could be done before a deadline is done before it.
An event that does not fit the stage of the server changes nothing.
-/

namespace TerminalHost

structure BoundAddress where
  ip : String
  port : String
deriving DecidableEq, Repr

namespace BoundAddress

def text (bound : BoundAddress) : String :=
  if bound.ip.toList.contains ':' then "[" ++ bound.ip ++ "]:" ++ bound.port
  else bound.ip ++ ":" ++ bound.port

/-- The host that an operator is told to connect to; an address that stands for every
address is shown as the local host. -/
def connectHost (bound : BoundAddress) : String :=
  if bound.ip = "0.0.0.0" ∨ bound.ip = "::" then "localhost" else bound.ip

end BoundAddress

structure Client (σ ℓ : Type) where
  id : Nat
  run : Run σ ℓ
  /-- How many notes of the session stand in the journal of the server. -/
  noted : Nat

namespace Client

variable {σ ℓ : Type}

def isReady (clock : Nat) (c : Client σ ℓ) : Bool :=
  !c.run.isOver && c.run.now ≤ clock

def isDone [Dialogue σ] (c : Client σ ℓ) : Bool := c.run.report?.isSome

variable [Dialogue σ] [Line ℓ]

def step (pacing : Pacing) (c : Client σ ℓ) : Client σ ℓ :=
  let run := c.run.step pacing
  { c with run := run, noted := run.journal.length }

def entries (pacing : Pacing) (c : Client σ ℓ) : List Entry :=
  let run := c.run.step pacing
  run.journal.drop c.noted ++
    match run.report? with
    | some report => report.entries ++ [.clientDisconnected]
    | none => []

end Client

inductive Stage where
  | accepting
  /-- After a connection failed to come, nothing is done before a time. -/
  | resting (time : Nat)
  /-- After the shutdown, sessions may come to their end before a time. -/
  | draining (deadline : Nat)
  /-- The server has stopped at a time. -/
  | stopped (time : Nat)
deriving DecidableEq, Repr

structure Server (σ ℓ : Type) where
  pacing : Pacing
  drainTimeout : Duration
  clock : Nat
  stage : Stage
  accepted : Nat
  /-- The clients whose end has not been noticed. -/
  clients : List (Client σ ℓ)
  /-- The clients whose sessions have come to their end. -/
  finished : List (Client σ ℓ)
  /-- The clients whose sessions were aborted. -/
  aborted : List (Client σ ℓ)
  /-- What has been noted, the latest first. -/
  latest : List Entry

inductive ServerEvent (σ ℓ : Type) where
  /-- A connection comes, with the state its session begins in. -/
  | accept (state : σ) (line : ℓ)
  | acceptFails (fault : Fault)
  | work (id : Nat)
  /-- The end of the session of a client is noticed. -/
  | reap (id : Nat)
  | pass (time : Nat)
  | shutdown
  /-- The time for sessions after the shutdown is over. -/
  | expire

namespace Server

variable {σ ℓ : Type}

def acceptRetry : Duration := Duration.ofMillis 100

def journal (s : Server σ ℓ) : List Entry := s.latest.reverse

def note (s : Server σ ℓ) (entries : List Entry) : Server σ ℓ :=
  { s with latest := entries.reverse ++ s.latest }

def listen (program : Program) (pacing : Pacing) (drainTimeout : Duration)
    (bound : BoundAddress) : Server σ ℓ :=
  note
    { pacing := pacing
      drainTimeout := drainTimeout
      clock := 0
      stage := .accepting
      accepted := 0
      clients := []
      finished := []
      aborted := []
      latest := [] }
    [.listening bound.text program, .connectHint bound.connectHost bound.port]

def start (network : NetworkSettings) (program : Program) (session : SessionSettings)
    (bound : Except Fault BoundAddress) : Except StartError (Server σ ℓ) :=
  match bound with
  | .ok bound => .ok (listen program session.pacing network.drainTimeout bound)
  | .error fault => .error (.bind network.address fault)

def stop (s : Server σ ℓ) : Server σ ℓ :=
  { s.note [.serverStopped] with stage := .stopped s.clock }

/-- The server after all its remaining clients were aborted; a session that has come to
its end just before is not touched by that. -/
def abort [Dialogue σ] (s : Server σ ℓ) : Server σ ℓ :=
  stop
    { s.note [.aborting s.clients.length] with
      clients := []
      finished := s.finished ++ s.clients.filter Client.isDone
      aborted := s.aborted ++ s.clients.filter fun c => !c.isDone }

def shutDown [Dialogue σ] (s : Server σ ℓ) : Server σ ℓ :=
  let s := s.note [.shutdownRequested]
  if s.clients.isEmpty then s.stop
  else if s.drainTimeout = Duration.zero then s.abort
  else
    { s.note [.draining s.clients.length s.drainTimeout] with
      stage := .draining (s.clock + s.drainTimeout.ticks) }

def reaps (s : Server σ ℓ) : Bool :=
  match s.stage with
  | .accepting | .draining _ => true
  | .resting _ | .stopped _ => false

def mayPass (s : Server σ ℓ) (time : Nat) : Bool :=
  match s.stage with
  | .accepting => true
  | .resting limit | .draining limit => time ≤ limit
  | .stopped _ => false

variable [Dialogue σ] [Line ℓ]

def enrol (s : Server σ ℓ) (state : σ) (line : ℓ) : Server σ ℓ :=
  let id := s.accepted + 1
  { s.note [.clientConnected id (Line.peer line), .clientOpened id] with
    accepted := id
    clients := s.clients ++ [⟨id, Run.begin state line s.clock, 0⟩] }

def work (s : Server σ ℓ) (id : Nat) : Server σ ℓ :=
  let isNext := fun c : Client σ ℓ => c.id == id && c.isReady s.clock
  let entries := (s.clients.filter isNext).flatMap (Client.entries s.pacing)
  { s.note entries with
    clients := s.clients.map fun c => if isNext c then c.step s.pacing else c }

def reap (s : Server σ ℓ) (id : Nat) : Server σ ℓ :=
  let isEnded := fun c : Client σ ℓ => c.id == id && c.isDone
  let s := { s with
    clients := s.clients.filter fun c => !isEnded c
    finished := s.finished ++ s.clients.filter isEnded }
  match s.stage with
  | .draining _ => if s.clients.isEmpty then s.stop else s
  | _ => s

def isQuiet (s : Server σ ℓ) : Bool :=
  s.clients.all fun c => !c.isReady s.clock && !(s.reaps && c.isDone)

def isIdleUntil (s : Server σ ℓ) (time : Nat) : Bool :=
  s.clients.all fun c => c.run.isOver || time ≤ c.run.now

/-- The server at a later time, if nothing is left out by going there. -/
def pass (s : Server σ ℓ) (time : Nat) : Server σ ℓ :=
  if s.clock ≤ time && s.isQuiet && s.isIdleUntil time && s.mayPass time then
    let s := { s with clock := time }
    match s.stage with
    | .resting limit => if limit ≤ time then { s with stage := .accepting } else s
    | _ => s
  else s

def react (s : Server σ ℓ) (event : ServerEvent σ ℓ) : Server σ ℓ :=
  match s.stage, event with
  | .accepting, .accept state line => s.enrol state line
  | .accepting, .acceptFails fault =>
    { s.note [.acceptFailed fault acceptRetry] with
      stage := .resting (s.clock + acceptRetry.ticks) }
  | .accepting, .shutdown => s.shutDown
  | .draining deadline, .expire =>
    if deadline ≤ s.clock && s.isQuiet then s.abort else s
  | .stopped _, _ => s
  | _, .work id => s.work id
  | _, .reap id => if s.reaps then s.reap id else s
  | _, .pass time => s.pass time
  | _, _ => s

def reactAll (s : Server σ ℓ) (events : List (ServerEvent σ ℓ)) : Server σ ℓ :=
  events.foldl react s

end Server

end TerminalHost
