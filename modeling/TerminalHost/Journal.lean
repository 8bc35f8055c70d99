import TerminalHost.Demo.Act
import TerminalHost.Duration
import TerminalHost.Fault
import TerminalHost.Game.Phase
import TerminalHost.Program
import TerminalHost.Round

/-!
# The journal

Everything the host tells its operator is an entry of the journal: the opening of
a scope, or an event with a level, a message and fields.  The entries are
constructors rather than texts, so that a statement about what was noted does not
depend on how it is worded; `Entry.render` words them in one place.
-/

namespace TerminalHost

inductive Level where
  | debug
  | info
  | warn
deriving DecidableEq, Repr

def Level.name : Level → String
  | debug => "DEBUG"
  | info => "INFO"
  | warn => "WARN"

/-- What a finished session tells: how far it came and what ended it, where nothing
stands for a session that came to its own end. -/
inductive Report where
  | game (won lost : UInt32) (last : Phase) (loss : Option Loss)
  | demo (given : List Act) (loss : Option Loss)
deriving DecidableEq, Repr

def Report.loss? : Report → Option Loss
  | game _ _ _ loss => loss
  | demo _ loss => loss

def Report.completed (report : Report) : Bool := report.loss?.isNone

inductive Entry where
  /-- A session on a line begins. -/
  | sessionOpened (program : Program) (peer : String)
  | phaseChanged (before after : Phase)
  | roundStarted (word : String)
  | guessed (letter : Char) (guess : Guess) (attempts : Nat)
  | gameFinished (won lost : UInt32)
  | gameLost (phase : Phase) (loss : Loss)
  | actStarted (act : Act)
  | demoFinished
  | demoLost (given : Nat) (loss : Loss)
  | shutdownFailed (peer : String) (fault : Fault)
  | sessionEnded (report : Report)
  | sessionAborted (loss : Loss)
  | portOpened (port : String) (baud : Nat)
  | portInterrupted (port : String)
  | listening (address : String) (program : Program)
  | connectHint (host port : String)
  | clientConnected (client : Nat) (peer : String)
  /-- The work for a client begins. -/
  | clientOpened (client : Nat)
  | clientDisconnected
  | acceptFailed (fault : Fault) (retry : Duration)
  | shutdownRequested
  | draining (active : Nat) (timeout : Duration)
  | aborting (remaining : Nat)
  | serverStopped
deriving DecidableEq, Repr

def Guess.name : Guess → String
  | hit => "Hit"
  | miss => "Miss"
  | again => "Repeat"
  | rejected => "Rejected"

/-- What an entry is: a scope that opens, or an event. -/
inductive Heading where
  | scope (name : String)
  | event (level : Level) (message : String)
deriving DecidableEq, Repr

def Heading.text : Heading → String
  | scope name => "SPAN " ++ name
  | event level message => level.name ++ " " ++ message

namespace Entry

def form : Entry → Heading × List (String × String)
  | sessionOpened program peer => (.scope program.name, [("peer", peer)])
  | phaseChanged before after =>
    (.event .debug "phase change", [("from", before.name), ("to", after.name)])
  | roundStarted word => (.event .debug "round started", [("word", word)])
  | guessed letter guess attempts =>
    (.event .debug "guess",
      [("letter", String.singleton letter), ("outcome", guess.name),
        ("attempts_left", toString attempts)])
  | gameFinished won lost =>
    (.event .info "session finished", [("won", toString won), ("lost", toString lost)])
  | gameLost phase loss =>
    (.event .info "connection lost", [("phase", phase.name), ("error", loss.message)])
  | actStarted act => (.event .debug "phase started", [("phase", act.name)])
  | demoFinished => (.event .info "demo finished", [])
  | demoLost given loss =>
    (.event .info "connection lost",
      [("completed", toString given), ("error", loss.message)])
  | shutdownFailed peer fault =>
    (.event .debug "shutdown on close failed", [("peer", peer), ("error", fault.text)])
  | sessionEnded (.game won lost last loss) =>
    (.event .info "game session ended",
      [("won", toString won), ("lost", toString lost), ("last_phase", last.name),
        ("completed", toString loss.isNone)])
  | sessionEnded (.demo given loss) =>
    (.event .info "demo session ended",
      [("phases", toString given.length), ("completed", toString loss.isNone)])
  | sessionAborted loss => (.event .info "session aborted", [("error", loss.message)])
  | portOpened port baud =>
    (.event .info "opened serial port", [("port", port), ("baud", toString baud)])
  | portInterrupted port => (.event .info "interrupted", [("port", port)])
  | listening address program =>
    (.event .info "listening", [("addr", address), ("program", program.name)])
  | connectHint host port =>
    (.event .info ("connect with: telnet " ++ host ++ " " ++ port), [])
  | clientConnected client peer =>
    (.event .info "client connected", [("client", toString client), ("peer", peer)])
  | clientOpened client => (.scope "client", [("id", toString client)])
  | clientDisconnected => (.event .info "client disconnected", [])
  | acceptFailed fault retry =>
    (.event .warn "accept failed", [("error", fault.text), ("retry_in", retry.compact)])
  | shutdownRequested => (.event .info "shutdown requested", [])
  | draining active timeout =>
    (.event .info "waiting for sessions to finish",
      [("active", toString active), ("timeout", timeout.compact)])
  | aborting remaining =>
    (.event .warn "aborting sessions", [("remaining", toString remaining)])
  | serverStopped => (.event .info "server stopped", [])

def render (entry : Entry) : String :=
  let (heading, fields) := entry.form
  " ".intercalate (heading.text :: fields.map fun field => field.1 ++ "=" ++ field.2)

end Entry

def Report.entries (report : Report) : List Entry :=
  .sessionEnded report :: report.loss?.toList.map Entry.sessionAborted

end TerminalHost
