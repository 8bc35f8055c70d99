import TerminalHost.Demo.Act
import TerminalHost.Script

/-!
# The screens of the demonstration

Every act is one script.  The pauses give slow hardware the time to erase and to
scroll, so that the effect can be seen.
-/

namespace TerminalHost.Demo

def eraseMillis : Nat := 500

def welcomeMillis : Nat := 3000

def intermissionMillis : Nat := 3000

def summaryMillis : Nat := 5000

def stepMillis : Nat := 100

def moveMillis : Nat := 200

def scrollMillis : Nat := 1000

def holdMillis : Nat := 2000

def welcomeLines : List String :=
  ["**** VT52 Terminal Test Suite ****",
    "",
    "Testing implemented features:",
    "- Control characters (BS, LF, CR, TAB)",
    "- Cursor positioning (abs/rel)",
    "- Erase functions (EOL/screen)",
    "- Hardware scroll behavior",
    "- Box drawing",
    "",
    "Starting in 3 seconds..."]

/-- Home and erase as two sends, and the time the terminal needs for it. -/
def erase : Script :=
  Script.command .home ++ Script.command .eraseScreen ++ Script.pauseMillis eraseMillis

def heading (act : Act) : Script :=
  Script.moveTo 1 1 ++ Script.text (act.title ++ "\r\n\n")

def hold : Script := Script.pauseMillis holdMillis

def repeated (times : Nat) (script : Script) : Script :=
  (List.replicate times script).flatten

def twoDigits (n : Nat) : String :=
  if n < 10 then "0" ++ toString n else toString n

def welcome : Script :=
  erase ++ Script.banner welcomeLines ++ Script.pauseMillis welcomeMillis

def intermission : Script :=
  Script.moveTo 22 1 ++ Script.text "\r3 seconds to continue..."
    ++ Script.pauseMillis intermissionMillis

def summaryLines : List String :=
  ["Test Summary:"] ++ Act.all.map (fun act => "- " ++ act.label)
    ++ ["", "Tests complete! Connection will close in 5 seconds."]

def summary : Script :=
  erase ++ Script.moveTo 1 1 ++ Script.banner summaryLines
    ++ Script.pauseMillis summaryMillis

/-- Two backspaces turn `ABC` into `AXY`, `Third` overwrites `Second` after a bare
carriage return, and tabs go to their stops. -/
def controlCharacters : Script :=
  Script.command .home ++ Script.command .eraseScreen ++ heading .controlCharacters
    ++ Script.text "Backspace Test: " ++ Script.text "ABC"
    ++ Script.octets [0x08] ++ Script.octets [0x08] ++ Script.text "XY" ++ Script.text "\r\n"
    ++ Script.text "LF/CR Test:\r\n" ++ Script.text "First" ++ Script.octets [0x0A]
    ++ Script.text "Second" ++ Script.octets [0x0D] ++ Script.text "Third"
    ++ Script.text "\r\n\n"
    ++ Script.text "Tab Test:\r\n" ++ Script.text "1\t2\t3\t4" ++ hold

def markedPositions : List Position :=
  [⟨5, 10⟩, ⟨5, 30⟩, ⟨10, 10⟩, ⟨10, 30⟩, ⟨15, 10⟩, ⟨15, 30⟩]

def mark (position : Position) (text : String) : Script :=
  Script.command (.moveTo position) ++ Script.text text ++ Script.pauseMillis moveMillis

def leg (move : Command) (text : String) : Script :=
  repeated 3 (Script.command move ++ Script.pauseMillis moveMillis ++ Script.text text)

def cursorPositioning : Script :=
  erase ++ heading .cursorPositioning
    ++ Script.text "Testing absolute cursor positioning...\r\n"
    ++ markedPositions.flatMap (mark · "X") ++ Script.pauseMillis 1000
    ++ mark ⟨12, 20⟩ "O"
    ++ leg .up "^" ++ leg .right ">" ++ leg .down "v" ++ leg .left "<" ++ hold

def numberedLine (row : Nat) (text : String) : Script :=
  Script.moveTo (UInt8.ofNat row) 1 ++ Script.text ("Line " ++ twoDigits row ++ text)
    ++ Script.pauseMillis stepMillis

def eraseFunctions : Script :=
  erase ++ heading .eraseFunctions
    ++ (List.range' 5 15).flatMap (numberedLine · ": Testing erase functions...")
    ++ hold
    ++ Script.text "\r\nTesting Erase to End of Line (ESC K):"
    ++ Script.moveTo 10 20 ++ Script.command .eraseToLineEnd ++ Script.pauseMillis eraseMillis
    ++ Script.moveTo 10 40 ++ Script.text "<-- Erased to here" ++ hold
    ++ Script.text "\r\nTesting Erase Screen (ESC J) - should home cursor:"
    ++ Script.moveTo 15 20 ++ Script.command .eraseScreen ++ Script.pauseMillis eraseMillis
    ++ Script.text "This should be at home position (1,1)" ++ hold

def scrollBehavior : Script :=
  erase ++ heading .scrollBehavior ++ erase
    ++ (List.range' 1 22).flatMap (numberedLine · ": test content") ++ hold
    ++ Script.text "\r\nTesting forward scroll..." ++ erase ++ Script.moveTo 22 1
    ++ (List.range 7).flatMap (fun i =>
        Script.text ("New line " ++ toString i ++ " - testing scroll\r\n")
          ++ Script.pauseMillis scrollMillis)
    ++ hold
    ++ Script.command .eraseScreen ++ Script.pauseMillis eraseMillis
    ++ Script.text "Testing reverse scroll (ESC I):\r\n" ++ Script.moveTo 10 1
    ++ (List.range' 1 5).flatMap (fun i =>
        Script.command .reverseLineFeed ++ Script.pauseMillis scrollMillis
          ++ Script.text ("Reverse scroll line " ++ toString i ++ "\r"))
    ++ hold

/-- One edge of the box: each step moves and backs over the column of its star. -/
def edge (move : Command) (length : Nat) : Script :=
  repeated length
    (Script.command move ++ Script.pauseMillis stepMillis ++ Script.command .left
      ++ Script.text "*")

def boxDrawing : Script :=
  erase ++ heading .boxDrawing ++ Script.moveTo 5 10
    ++ repeated 10 (Script.text "*" ++ Script.pauseMillis stepMillis)
    ++ edge .down 5 ++ edge .left 10 ++ edge .up 5 ++ hold

def screen : Act → Script
  | .controlCharacters => controlCharacters
  | .cursorPositioning => cursorPositioning
  | .eraseFunctions => eraseFunctions
  | .scrollBehavior => scrollBehavior
  | .boxDrawing => boxDrawing

end TerminalHost.Demo
