import TerminalHost.Text.Blank
import TerminalHost.Text.Letters

/-!
# Secret words

The game guesses animals unless it is given other words.  A given word must be
made of ASCII letters: a letter is all a player can type, so any other word
could never be completed.
-/

namespace TerminalHost

def animals : List String :=
  ["LION", "TIGER", "BEAR", "ELEPHANT", "GIRAFFE", "ZEBRA", "MONKEY", "KANGAROO",
    "PENGUIN", "DOLPHIN", "SNAKE", "EAGLE", "WOLF", "FOX", "DEER"]

/-- The word as the game uses it, in capitals and without the white space around
it, or nothing if it is empty or holds anything but letters. -/
def normalizeWord? (word : String) : Option String :=
  let word := Text.trim word
  if word.toList.isEmpty || !word.toList.all Text.isLetter then none
  else some (Text.capitals word)

end TerminalHost
