import TerminalHost.CommandLine.Reader
import TerminalHost.Demo.Scene
import TerminalHost.Settings

/-!
# The program

The outer layer of the host: it reads the command line and the environment, opens the
line and carries out on it what the dialogue of the program says.  In serial mode the
line is the device with the given path.  In telnet mode a super server accepts the
connections and hands each one over as standard input and output, so one run of this
program serves one client.  The journal goes to standard error.

The program that is run is the game, unless the first argument is `demo`.
-/

namespace TerminalHost.Main

structure Channel where
  input : IO.FS.Stream
  output : IO.FS.Stream
  peer : String

/-- The levels an operator can ask for, from the quietest events to none at all. -/
def levelNames : List String := ["trace", "debug", "info", "warn", "error", "off"]

def isShown (asked : String) (level : Level) : Bool :=
  let rank := match level with
    | .debug => 1
    | .info => 2
    | .warn => 3
  levelNames.idxOf asked ≤ rank || !levelNames.contains asked

def record (asked : String) (entries : List Entry) : IO Unit :=
  entries.forM fun entry =>
    match entry.form.1 with
    | .event level _ => if isShown asked level then IO.eprintln entry.render else pure ()
    | .scope _ => pure ()

def wait (length : Duration) : IO Unit :=
  if length.ticks = 0 then pure ()
  else IO.sleep (UInt32.ofNat (min length.ticks (UInt32.size - 1)))

/-- The result of an action on a line, where a failure is a loss of the line. -/
def attempt {α : Type} (action : IO α) : IO (Except Loss α) := do
  try
    return .ok (← action)
  catch failure =>
    return .error (.fault ⟨.other, toString failure⟩)

def perform (channel : Channel) (pacing : Pacing) : Script → IO (Except Loss Unit)
  | [] => pure (.ok ())
  | .pause length :: rest => do
    wait (pacing.pause length)
    perform channel pacing rest
  | .send parts :: rest => do
    let sent ← attempt do
      channel.output.write ⟨(Step.chunk parts).toArray⟩
      channel.output.flush
    match sent with
    | .error loss => pure (.error loss)
    | .ok () =>
      wait pacing.sendDelay
      perform channel pacing rest

def hearOne (channel : Channel) : IO (Except Loss Bytes) := do
  match ← attempt (channel.input.read 1) with
  | .error loss => return .error loss
  | .ok heard => return if heard.isEmpty then .error .peerClosed else .ok heard.toList

partial def converse {σ : Type} [Dialogue σ] (channel : Channel) (pacing : Pacing)
    (asked : String) (state : σ) : IO Report := do
  let leave := fun loss : Option Loss => do
    record asked [Dialogue.closing state loss]
    pure (Dialogue.report state loss)
  let turn := fun next : σ => do
    record asked (Dialogue.noted state next)
    converse channel pacing asked next
  match ← perform channel pacing (Dialogue.screen state) with
  | .error loss => leave (some loss)
  | .ok () =>
    match Dialogue.cue state with
    | .over => leave none
    | .go next => turn next
    | .listen hear =>
      match ← hearOne channel with
      | .error loss => leave (some loss)
      | .ok heard => turn (hear heard)

def serve (channel : Channel) (program : Program) (session : SessionSettings)
    (asked : String) : IO Unit := do
  let seed ← IO.rand 0 (UInt32.size - 1)
  let report ← match program with
    | .game =>
      converse channel session.pacing asked (Game.start (session.options (UInt32.ofNat seed)))
    | .demo => converse channel session.pacing asked Demo.start
  record asked report.entries

def portFault : IO.Error → PortFault
  | .noFileOrDirectory .. => .fault .notFound
  | .permissionDenied .. => .fault .permissionDenied
  | _ => .unknown

def openPort (serial : SerialSettings) : IO (Except StartError Channel) := do
  try
    let handle ← IO.FS.Handle.mk serial.path .readWrite
    let stream := IO.FS.Stream.ofHandle handle
    return .ok ⟨stream, stream, serial.path⟩
  catch failure =>
    return .error
      (.openPort (OpenError.ofPortFault serial.path (portFault failure) (toString failure)))

/-- The connection that a super server hands over. -/
def handedOver : IO Channel := do
  return ⟨← IO.getStdin, ← IO.getStdout, "client"⟩

def host (program : Program) (arguments : Arguments) : IO (Except StartError Unit) := do
  match arguments.resolve with
  | .error failure => return .error failure
  | .ok run =>
    match run.endpoint with
    | .serial serial =>
      match ← openPort serial with
      | .error failure => return .error failure
      | .ok channel =>
        record arguments.logLevel [.portOpened serial.path serial.baudRate]
        serve channel program run.session arguments.logLevel
        return .ok ()
    | .network _ =>
      serve (← handedOver) program run.session arguments.logLevel
      return .ok ()

def environment : IO (List (String × String)) :=
  (Arguments.options.filterMap LongOption.environment).filterMapM fun name => do
    return (← IO.getEnv name).map fun value => (name, value)

def helpLines : List String :=
  ["Serve a VT52 terminal over a serial line or telnet", "", "Options:"]
    ++ Arguments.options.map (fun option =>
      if option.action = .setTrue then "  --" ++ option.name
      else "  --" ++ option.name ++ " <VALUE>")
    ++ ["  -h, --help", "  -V, --version"]

def usageText : UsageError → String
  | .invalidValue => "invalid or missing value"
  | .valueValidation => "a value is not a number that fits"
  | .unknownArgument => "unexpected argument"
  | .argumentConflict => "an option is given more than once"
  | .tooManyValues => "a flag is given a value"
  | .missingArgument => "a required option is not given"
  | .displayHelp => "\n".intercalate helpLines ++ "\n"
  | .displayVersion => versionLine

/-- Run a program with the words of its command line; the result is the exit code. -/
def runWith (program : Program) (words : List String) : IO UInt32 := do
  let known ← environment
  match Arguments.parse readArguments (fun name => known.lookup name) words with
  | .error .displayHelp => IO.print (usageText .displayHelp); return 0
  | .error .displayVersion => IO.print (usageText .displayVersion); return 0
  | .error usage => IO.eprintln ("error: " ++ usageText usage); return 2
  | .ok arguments =>
    match ← host program arguments with
    | .ok () => return 0
    | .error failure => IO.eprintln ("Error: " ++ failure.message); return 1

end TerminalHost.Main

/-- The program: the demonstration for `demo` as the first argument, and the game
otherwise. -/
def main (arguments : List String) : IO UInt32 :=
  match arguments with
  | "demo" :: rest => TerminalHost.Main.runWith .demo rest
  | _ => TerminalHost.Main.runWith .game arguments
