import TerminalHost.Script

/-!
# Reading the wire

The terminal's side of the code.  Octets are read from left to right: the
escape octet and a known letter are a command, `Y` takes the next two octets as
coordinates whatever they are, and every other octet is text.  An escape octet
followed by anything else is not readable.  What a script means can be written in the
same form, so that what is sent and what is read can be compared.
-/

namespace TerminalHost

inductive Reading where
  | command (command : Command)
  | text (octet : UInt8)
deriving DecidableEq, Repr

namespace Command

def coordinateOf (octet : UInt8) : UInt8 := octet - coordinateOffset

def ofLetter (octet : UInt8) : Option Command :=
  [up, down, right, left, enterGraphics, exitGraphics, home, reverseLineFeed,
    eraseScreen, eraseToLineEnd].find? fun command => command.letter == octet

/-- A list of octets read as commands only. -/
def decodeAll : Bytes → Option (List Command)
  | [] => some []
  | [_] => none
  | e :: octet :: rest =>
    if e = escape then
      if octet = 0x59 then
        match rest with
        | row :: col :: rest =>
          (decodeAll rest).map (moveTo ⟨coordinateOf row, coordinateOf col⟩ :: ·)
        | _ => none
      else
        match ofLetter octet with
        | some command => (decodeAll rest).map (command :: ·)
        | none => none
    else none

end Command

/-- What the terminal makes of a list of octets: commands and text, in order. -/
def readWire : Bytes → Option (List Reading)
  | [] => some []
  | octet :: rest =>
    if octet = Command.escape then
      match rest with
      | [] => none
      | letter :: rest =>
        if letter = 0x59 then
          match rest with
          | row :: col :: rest =>
            (readWire rest).map
              (.command (.moveTo ⟨Command.coordinateOf row, Command.coordinateOf col⟩) :: ·)
          | _ => none
        else
          match Command.ofLetter letter with
          | some command => (readWire rest).map (.command command :: ·)
          | none => none
    else (readWire rest).map (.text octet :: ·)

def Part.readings : Part → List Reading
  | .command meant => [.command meant]
  | .text written => (utf8 written).map Reading.text
  | .octets plain => plain.map Reading.text

def Step.readings : Step → List Reading
  | .send parts => parts.flatMap Part.readings
  | .pause _ => []

def Script.readings (script : Script) : List Reading := script.flatMap Step.readings

end TerminalHost
