/-!
# The command line

Every setting of a run is a long option.  What an option takes, which variable of the
environment stands in for it and what it has otherwise is only declared here: a parser reads
command lines by such declarations, and the host is written for any parser.
-/

namespace TerminalHost

inductive Mode where
  /-- One session on a serial port. -/
  | serial
  /-- A server with a session for each connection. -/
  | telnet
deriving DecidableEq, Repr

namespace Mode

def all : List Mode := [serial, telnet]

def name : Mode → String
  | serial => "serial"
  | telnet => "telnet"

def ofName? (name : String) : Option Mode :=
  all.find? fun mode => mode.name == name

end Mode

inductive UsageError where
  /-- A value is missing, or is not one of the values that are possible. -/
  | invalidValue
  /-- A value is not a number, or not one that fits. -/
  | valueValidation
  | unknownArgument
  /-- An option that can be given once is given again. -/
  | argumentConflict
  | tooManyValues
  /-- An option that a run cannot do without has no value from anywhere. -/
  | missingArgument
  | displayHelp
  | displayVersion
deriving DecidableEq, Repr

def versionLine : String := "vt52-terminal 0.1.0\n"

/-! ## Options and parsers -/

inductive ValueKind where
  | text
  | oneOf (names : List String)
  | number32
  | number64
  | switch
deriving DecidableEq, Repr

inductive Action where
  /-- It stores the value, and stands for itself alone. -/
  | set
  /-- It adds its values to those of the uses before it. -/
  | append
  /-- It takes no value and means `true`. -/
  | setTrue
deriving DecidableEq, Repr

structure LongOption where
  name : String
  kind : ValueKind
  action : Action := .set
  /-- The variable that is read if the option is not used. -/
  environment : Option String := none
  /-- The text that stands for an option with neither uses nor a variable. -/
  usual : Option String := none
  /-- What separates the values in one text; without it a text is one value. -/
  delimiter : Option Char := none
deriving DecidableEq, Repr

namespace LongOption

/-- The texts of the single values in one text. -/
def pieces (option : LongOption) (text : String) : List String :=
  match option.delimiter with
  | none => [text]
  | some delimiter => (text.toList.splitOn delimiter).map String.ofList

/-- The text of the variable, if there is one and it is set. -/
def fallback? (environment : String → Option String) (option : LongOption) : Option String :=
  option.environment.bind environment

end LongOption

inductive Value where
  | text (text : String)
  | number (number : Nat)
  | switch (value : Bool)
deriving DecidableEq, Repr

/-- The values of the options, by name. -/
abbrev Found := String → List Value

/-- What reads a command line, without the name of the program, by the declarations of its
options, in an environment. -/
abbrev Parser :=
  List LongOption → (String → Option String) → List String → Except UsageError Found

/-! ## The options of a run -/

structure Arguments where
  mode : Mode
  port : String
  baudrate : Nat
  host : String
  sendDelay : Nat
  noPauses : Bool
  drain : Nat
  words : List String
  logLevel : String
deriving DecidableEq, Repr

namespace Arguments

/-- The serial port that stands for no port: in telnet mode it means the usual port. -/
def usualPort : String := "/dev/ttyUSB0"

def usual : Arguments where
  mode := .serial
  port := usualPort
  baudrate := 115200
  host := "0.0.0.0"
  sendDelay := 10
  noPauses := false
  drain := 0
  words := []
  logLevel := "info"

end Arguments

inductive Setting where
  | mode
  | port
  | baudrate
  | host
  | sendDelay
  | drain
  | words
  | logLevel
deriving DecidableEq, Repr

open Arguments in
def Setting.option : Setting → LongOption
  | mode =>
    { name := "mode"
      kind := .oneOf (Mode.all.map Mode.name)
      environment := "VT52_MODE"
      usual := usual.mode.name }
  | port =>
    { name := "port"
      kind := .text
      environment := "VT52_PORT"
      usual := usual.port }
  | baudrate =>
    { name := "baudrate"
      kind := .number32
      environment := "VT52_BAUDRATE"
      usual := toString usual.baudrate }
  | host =>
    { name := "host"
      kind := .text
      environment := "VT52_HOST"
      usual := usual.host }
  | sendDelay =>
    { name := "send-delay-ms"
      kind := .number64
      environment := "VT52_SEND_DELAY_MS"
      usual := toString usual.sendDelay }
  | drain =>
    { name := "drain-secs"
      kind := .number64
      environment := "VT52_DRAIN_SECS"
      usual := toString usual.drain }
  | words =>
    { name := "words"
      kind := .text
      action := .append
      environment := "VT52_WORDS"
      delimiter := ',' }
  | logLevel =>
    { name := "log-level"
      kind := .text
      usual := usual.logLevel }

namespace Arguments

def pausesOption : LongOption where
  name := "no-pauses"
  kind := .switch
  action := .setTrue
  usual := some "false"

/-- Every option, in the order in which the environment is asked. -/
def options : List LongOption :=
  [Setting.mode.option, Setting.port.option, Setting.baudrate.option, Setting.host.option,
    Setting.sendDelay.option, pausesOption, Setting.drain.option, Setting.words.option,
    Setting.logLevel.option]

end Arguments

namespace Value

def text? : Value → Option String
  | .text value => some value
  | _ => none

def mode? (value : Value) : Option Mode :=
  value.text?.bind Mode.ofName?

def number? : Value → Option Nat
  | .number value => some value
  | _ => none

def switch? : Value → Option Bool
  | .switch value => some value
  | _ => none

end Value

namespace Found

/-- The values of an option.  A value of another kind than is asked for counts as none: no
parser finds one where the option declares its kind. -/
def many {α : Type} (found : Found) (option : LongOption) (view : Value → Option α) : List α :=
  (found option.name).filterMap view

def one {α : Type} (found : Found) (option : LongOption) (view : Value → Option α) :
    Except UsageError α :=
  match found.many option view with
  | [] => .error .missingArgument
  | value :: _ => .ok value

end Found

namespace Arguments

def ofFound (found : Found) : Except UsageError Arguments := do
  let mode ← found.one Setting.mode.option Value.mode?
  let port ← found.one Setting.port.option Value.text?
  let baudrate ← found.one Setting.baudrate.option Value.number?
  let host ← found.one Setting.host.option Value.text?
  let sendDelay ← found.one Setting.sendDelay.option Value.number?
  let noPauses ← found.one pausesOption Value.switch?
  let drain ← found.one Setting.drain.option Value.number?
  let words := found.many Setting.words.option Value.text?
  let logLevel ← found.one Setting.logLevel.option Value.text?
  pure ⟨mode, port, baudrate, host, sendDelay, noPauses, drain, words, logLevel⟩

def parse (parser : Parser) (environment : String → Option String) (arguments : List String) :
    Except UsageError Arguments := do
  ofFound (← parser options environment arguments)

end Arguments

end TerminalHost
