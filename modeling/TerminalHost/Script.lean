import TerminalHost.Duration
import TerminalHost.Wire.Command

/-!
# Scripts

A screen is described by a script: a list of sends and pauses.  A send says what is
meant, as commands and texts; the octets follow from it.  One send of a script is one
send on the line, so the delay after a send applies once per step, and what must
arrive together stands in one step.  Scripts are lists, so screens are put together
with `++`.
-/

namespace TerminalHost

inductive Part where
  | command (meant : Command)
  | text (written : String)
  /-- Octets that stand for nothing but themselves, such as control characters. -/
  | octets (plain : Bytes)
deriving DecidableEq, Repr

def Part.encode : Part → Bytes
  | command meant => meant.encode
  | text written => utf8 written
  | octets plain => plain

inductive Step where
  | send (parts : List Part)
  | pause (length : Duration)
deriving DecidableEq, Repr

namespace Step

def chunk (parts : List Part) : Bytes := parts.flatMap Part.encode

def chunk? : Step → Option Bytes
  | send parts => some (chunk parts)
  | pause _ => none

def length? : Step → Option Duration
  | send _ => none
  | pause length => some length

/-- The step with nothing but octets in its sends; steps that look the same on the
line are the same in this form. -/
def plain : Step → Step
  | send parts => send [.octets (chunk parts)]
  | pause length => pause length

@[simp] theorem chunk?_plain (step : Step) : step.plain.chunk? = step.chunk? := by
  cases step <;> simp [plain, chunk?, chunk, Part.encode]

end Step

abbrev Script := List Step

namespace Script

def octets (octets : Bytes) : Script := [.send [.octets octets]]

def text (text : String) : Script := [.send [.text text]]

def line (text : String) : Script := [.send [.text text, .octets lineEnd]]

def bannerIndent : String := "            "

/-- An empty line, the given lines indented, and a line that holds only the indent. -/
def banner (lines : List String) : Script :=
  line "" ++ lines.flatMap (fun body => line (bannerIndent ++ body)) ++ line bannerIndent

def command (command : Command) : Script := [.send [.command command]]

def commands (commands : List Command) : Script := [.send (commands.map Part.command)]

def moveTo (row col : UInt8) : Script := command (.moveTo ⟨row, col⟩)

def pause (length : Duration) : Script := [.pause length]

def pauseMillis (millis : Nat) : Script := pause (Duration.ofMillis millis)

def chunks (script : Script) : List Bytes := script.filterMap Step.chunk?

def plain (script : Script) : Script := script.map Step.plain

def sendCount (script : Script) : Nat := script.chunks.length

def wire (script : Script) : Bytes := script.chunks.flatten

def pauseTotal (script : Script) : Duration := Duration.sum (script.filterMap Step.length?)

/-- The pauses of a script taken together, if they fit in a duration of 64 bits. -/
def totalPause? (script : Script) : Option Duration :=
  if script.pauseTotal.nanos ≤ Duration.longest.nanos then some script.pauseTotal else none

@[simp] theorem chunks_nil : chunks [] = [] := rfl

@[simp] theorem chunks_append (left right : Script) :
    chunks (left ++ right) = chunks left ++ chunks right := by
  simp [chunks]

@[simp] theorem wire_append (left right : Script) :
    wire (left ++ right) = wire left ++ wire right := by
  simp [wire]

@[simp] theorem sendCount_append (left right : Script) :
    sendCount (left ++ right) = sendCount left + sendCount right := by
  simp [sendCount]

theorem chunks_plain (script : Script) : script.plain.chunks = script.chunks := by
  induction script with
  | nil => rfl
  | cons step rest ih =>
    rw [plain, List.map_cons, chunks, List.filterMap_cons, Step.chunk?_plain]
    rw [chunks, List.filterMap_cons]
    cases step.chunk? with
    | none => exact ih
    | some chunk => exact congrArg (chunk :: ·) ih

theorem chunks_commands (list : List Command) :
    (commands list).chunks = [Command.encodeAll list] := by
  simp [commands, chunks, Step.chunk?, Step.chunk, Command.encodeAll, List.flatMap_map,
    Part.encode]

end Script

end TerminalHost
