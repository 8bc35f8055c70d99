import TerminalHost.Round
import TerminalHost.Script

/-!
# The screens of the game

Each screen is a script that depends on nothing but the round and the column the
game is drawn at.  The rows are fixed: the gallows from 3 to 9, then the word, the
guessed letters, the attempts, the prompt, the result and the question for
another round.
-/

namespace TerminalHost

/-- Where the game is drawn: the column everything but the farewell starts at. -/
structure View where
  margin : UInt8
deriving DecidableEq, Repr

namespace View

def usual : View := ⟨5⟩

def clearMillis : Nat := 100

def welcomeMillis : Nat := 3000

def farewellMillis : Nat := 2000

def welcomeLines : List String :=
  ["**** Guess the Animal Game ****",
    "",
    "Try to guess the animal name one letter at a time.",
    "You have 6 attempts before the game is over.",
    "",
    "Starting in 3 seconds..."]

def gallows (stage : Nat) : List String :=
  let head := if stage < 1 then "      |" else "  O   |"
  let body :=
    match stage with
    | 0 | 1 => "      |"
    | 2 => "  |   |"
    | 3 => " /|   |"
    | _ => " /|\\  |"
  let legs :=
    match stage with
    | 0 | 1 | 2 | 3 | 4 => "      |"
    | 5 => " /    |"
    | _ => " / \\  |"
  ["  +---+", "  |   |", head, body, legs, "      |", "========="]

def gallowsRow : UInt8 := 3

/-- Home and erase in one send, and the time the terminal needs for it. -/
def clear : Script :=
  Script.commands [.home, .eraseScreen] ++ Script.pauseMillis clearMillis

def textAt (view : View) (row : UInt8) (text : String) : Script :=
  Script.moveTo row view.margin ++ Script.text text

def lineAt (view : View) (row : UInt8) (text : String) : Script :=
  Script.moveTo row view.margin ++ Script.line text

def textsFrom (view : View) : UInt8 → List String → Script
  | _, [] => []
  | row, text :: rest => view.textAt row text ++ textsFrom view (row + 1) rest

def welcome : Script :=
  clear ++ Script.banner welcomeLines ++ Script.pauseMillis welcomeMillis

def opening : Script := clear

def board (view : View) (r : Round) : Script :=
  clear ++ view.textsFrom gallowsRow (gallows r.stage)
    ++ view.textAt 12 ("Word: " ++ r.masked)
    ++ view.textAt 14 ("Guessed letters: " ++ r.guessedDisplay)
    ++ view.textAt 16 ("Attempts left: " ++ toString r.attempts)

def prompt (view : View) : Script := view.textAt 18 "Enter a letter: "

def echo (letter : Char) : Script := Script.line (String.singleton letter)

def won (view : View) : Script := view.lineAt 20 "Congratulations! You won!"

def lost (view : View) (r : Round) : Script :=
  clear ++ view.textsFrom gallowsRow (gallows Round.maxAttempts)
    ++ view.lineAt 20 ("Game Over! The word was: " ++ r.target)

def replay (view : View) : Script := view.textAt 22 "Play again? (Y/N): "

def farewell : Script :=
  clear ++ Script.moveTo 1 1 ++ Script.line "Thanks for playing! Goodbye!"
    ++ Script.pauseMillis farewellMillis

end View

end TerminalHost
