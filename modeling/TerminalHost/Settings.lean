import TerminalHost.CommandLine
import TerminalHost.Device
import TerminalHost.Game.Scene
import TerminalHost.Text.Numeral
import TerminalHost.Text.Quoted

/-!
# From the command line to a run

The values of a command line are texts and numbers; a run needs words that can be
guessed and, in telnet mode, the number of a port.  The words are looked at first,
so a bad word is reported whatever the port is.
-/

namespace TerminalHost

structure SerialSettings where
  path : String
  baudRate : Nat
  /-- The longest wait of one receive. -/
  readTimeout : Duration
  sendDelay : Duration
deriving DecidableEq, Repr

def serialReadMillis : Nat := 100

def SerialSettings.usual : SerialSettings where
  path := Arguments.usualPort
  baudRate := Arguments.usual.baudrate
  readTimeout := Duration.ofMillis serialReadMillis
  sendDelay := Duration.ofMillis Pacing.usualSendDelay

structure NetworkSettings where
  host : String
  port : Nat
  /-- How long sessions may go on after the shutdown. -/
  drainTimeout : Duration
deriving DecidableEq, Repr

def NetworkSettings.address (network : NetworkSettings) : String :=
  network.host ++ ":" ++ toString network.port

inductive Endpoint where
  | serial (settings : SerialSettings)
  | network (settings : NetworkSettings)
deriving DecidableEq, Repr

structure SessionSettings where
  pacing : Pacing
  /-- Words that can be guessed, in capitals; the animals if there are none. -/
  words : List String
deriving DecidableEq, Repr

def SessionSettings.options (session : SessionSettings) (seed : UInt32) : Options :=
  ⟨session.pacing, session.words, seed, View.usual⟩

structure RunSettings where
  endpoint : Endpoint
  session : SessionSettings
deriving DecidableEq, Repr

inductive StartError where
  | openPort (error : OpenError)
  | bind (address : String) (fault : Fault)
  | invalidPort (port : String)
  | invalidWord (word : String)
deriving DecidableEq, Repr

def StartError.message : StartError → String
  | openPort error => error.message
  | bind address fault => "cannot listen on " ++ address ++ ": " ++ fault.text
  | invalidPort port =>
    "invalid telnet port " ++ Text.quoted port ++ ": expected a number from 0 to 65535"
  | invalidWord word =>
    "invalid word " ++ Text.quoted word
      ++ ": words must be non-empty and contain only ASCII letters"

namespace Arguments

def usualTelnetPort : Nat := 2323

def telnetPort (port : String) : Except StartError Nat :=
  if port = usualPort then .ok usualTelnetPort
  else
    match Text.natural? 65535 (Text.trim port) with
    | some number => .ok number
    | none => .error (.invalidPort port)

def checkWord (word : String) : Except StartError String :=
  match normalizeWord? word with
  | some word => .ok word
  | none => .error (.invalidWord word)

def pacing (arguments : Arguments) : Pacing :=
  ⟨Duration.ofMillis arguments.sendDelay, !arguments.noPauses⟩

def endpoint (arguments : Arguments) : Except StartError Endpoint :=
  match arguments.mode with
  | .serial =>
    .ok (.serial
      { path := arguments.port
        baudRate := arguments.baudrate
        readTimeout := Duration.ofMillis serialReadMillis
        sendDelay := arguments.pacing.sendDelay })
  | .telnet => do
    let port ← telnetPort arguments.port
    pure (.network
      { host := arguments.host
        port := port
        drainTimeout := Duration.ofSeconds arguments.drain 0 })

/-- What a run needs, or the first error. -/
def resolve (arguments : Arguments) : Except StartError RunSettings := do
  let words ← arguments.words.mapM checkWord
  let endpoint ← arguments.endpoint
  pure ⟨endpoint, ⟨arguments.pacing, words⟩⟩

end Arguments

end TerminalHost
