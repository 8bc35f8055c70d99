import TerminalHost.Bytes
import TerminalHost.Text.Letters

/-!
# Keys

A terminal sends one octet for a key.  Each octet is read by itself: as a letter
while a guess is awaited, as an answer at the question for another round.  There
is no escape sequence among the keys, so every other octet is passed over.
-/

namespace TerminalHost

inductive Reply where
  | yes
  | no
deriving DecidableEq, Repr

namespace Keys

/-- The letter that an octet guesses, in capitals. -/
def letter? (octet : UInt8) : Option Char :=
  let c := Char.ofNat octet.toNat
  if Text.isLetter c then some c.toUpper else none

def reply? (octet : UInt8) : Option Reply :=
  if octet = 0x59 ∨ octet = 0x79 then some .yes
  else if octet = 0x4E ∨ octet = 0x6E then some .no
  else none

def firstLetter? (heard : Bytes) : Option Char := heard.findSome? letter?

def firstReply? (heard : Bytes) : Option Reply := heard.findSome? reply?

end Keys

end TerminalHost
