import TerminalHost.Line.Stream
import TerminalHost.Serving.Server
import TerminalHost.Session.Outcome

/-!
# Hosting a program

What the server does for a connection: it makes a line of it that waits for the client
as long as that takes, and runs the program on the line, with the settings that all
sessions have in common and a seed of the session's own.
-/

namespace TerminalHost

structure Connection (β : Type) where
  peer : String
  stream : β

/-- The line over a connection that came; its receives have no bound. -/
def Connection.line {β : Type} (connection : Connection β) (sendDelay : Duration) :
    StreamLine β where
  stream := connection.stream
  isOpen := true
  name := connection.peer
  sendDelay := sendDelay
  readTimeout := none

namespace Program

def State : Program → Type
  | game => Game
  | demo => Demo

instance (program : Program) : Dialogue program.State :=
  match program with
  | game => inferInstanceAs (Dialogue Game)
  | demo => inferInstanceAs (Dialogue Demo)

def start (program : Program) (options : Options) : program.State :=
  match program with
  | game => Game.start options
  | demo => Demo.start

/-- A session on a line from some time on, cut off at `limit`, where the line answers at
most `patience` receives before it is lost. -/
def runFrom {ℓ : Type} [Line ℓ] (program : Program) (options : Options) (time : Nat)
    (limit : Option Nat) (patience : Nat) (line : ℓ) : Outcome ℓ :=
  ((Run.begin (program.start options) line time).runOut options.pacing limit patience).outcome

theorem run_eq_runFrom {ℓ : Type} [Line ℓ] (program : Program) (options : Options)
    (limit : Option Nat) (patience : Nat) (line : ℓ) :
    program.run options limit patience line = program.runFrom options 0 limit patience line := by
  cases program <;> rfl

variable {β : Type} [ByteStream β]

/-- What the server meets when a client with a seed opens a connection, or when something
else happens. -/
def hosted (program : Program) (session : SessionSettings) :
    ServerEvent UInt32 (Connection β) → ServerEvent program.State (StreamLine β)
  | .accept seed connection =>
    .accept (program.start (session.options seed)) (connection.line session.pacing.sendDelay)
  | .acceptFails fault => .acceptFails fault
  | .work id => .work id
  | .reap id => .reap id
  | .pass time => .pass time
  | .shutdown => .shutdown
  | .expire => .expire

def server (program : Program) (network : NetworkSettings) (session : SessionSettings)
    (bound : BoundAddress) (events : List (ServerEvent UInt32 (Connection β))) :
    Server program.State (StreamLine β) :=
  (Server.listen program session.pacing network.drainTimeout bound).reactAll
    (events.map (program.hosted session))

end Program

end TerminalHost
