import TerminalHost.Bytes

/-!
# Terminal commands

A command is the escape octet followed by one letter.  Absolute positioning
carries two more octets, the row and the column, each written as the 1-based
coordinate plus 31 so that the top left corner is a pair of spaces.  A
coordinate is any octet: the sum wraps around, so a coordinate above 224 still
gives a command of four octets and no information is lost.
-/

namespace TerminalHost

/-- A place on the screen, counted from 1. -/
structure Position where
  row : UInt8
  col : UInt8
deriving DecidableEq, Repr

inductive Command where
  | home
  | eraseScreen
  | eraseToLineEnd
  | moveTo (position : Position)
  | up
  | down
  | right
  | left
  | reverseLineFeed
  | enterGraphics
  | exitGraphics
deriving DecidableEq, Repr

namespace Command

def escape : UInt8 := 0x1B

/-- What is added to a 1-based coordinate on the wire. -/
def coordinateOffset : UInt8 := 31

def coordinate (value : UInt8) : UInt8 := value + coordinateOffset

def letter : Command → UInt8
  | up => 0x41
  | down => 0x42
  | right => 0x43
  | left => 0x44
  | enterGraphics => 0x46
  | exitGraphics => 0x47
  | home => 0x48
  | reverseLineFeed => 0x49
  | eraseScreen => 0x4A
  | eraseToLineEnd => 0x4B
  | moveTo _ => 0x59

def parameters : Command → Bytes
  | moveTo position => [coordinate position.row, coordinate position.col]
  | _ => []

def encode (command : Command) : Bytes :=
  escape :: command.letter :: command.parameters

def encodeAll (commands : List Command) : Bytes :=
  commands.flatMap encode

/-- The octets of several commands, put behind what a buffer already holds. -/
def encodeInto (buffer : Bytes) (commands : List Command) : Bytes :=
  buffer ++ encodeAll commands

end Command

def encodePosition (row col : UInt8) : Bytes :=
  [Command.escape, 0x59, Command.coordinate row, Command.coordinate col]

theorem encode_moveTo (row col : UInt8) :
    (Command.moveTo ⟨row, col⟩).encode = encodePosition row col := rfl

end TerminalHost
