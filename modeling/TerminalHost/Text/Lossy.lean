import TerminalHost.Bytes

/-!
# Reading octets as text

What was sent on a line can be shown as text even if it is not UTF-8: every
character is read where there is one, and each longest beginning of a character
that does not go on, like each octet that begins none, is shown as the replacement
character.  The reader takes one octet at a time and remembers which octets may
come next.
-/

namespace TerminalHost.Text

/-- What stands for octets that are not a character. -/
def replacement : Char := Char.ofNat 0xFFFD

/-- A character that has begun: the number of octets to come, the range of the next
one, and the bits read so far. -/
structure Begun where
  missing : Nat
  low : Nat
  high : Nat
  bits : Nat
deriving DecidableEq, Repr

def beginChar (octet : Nat) : Option Begun × List Char :=
  if octet < 0x80 then (none, [Char.ofNat octet])
  else if octet < 0xC2 then (none, [replacement])
  else if octet < 0xE0 then (some ⟨1, 0x80, 0xBF, octet - 0xC0⟩, [])
  else if octet = 0xE0 then (some ⟨2, 0xA0, 0xBF, 0⟩, [])
  else if octet = 0xED then (some ⟨2, 0x80, 0x9F, 0xD⟩, [])
  else if octet < 0xF0 then (some ⟨2, 0x80, 0xBF, octet - 0xE0⟩, [])
  else if octet = 0xF0 then (some ⟨3, 0x90, 0xBF, 0⟩, [])
  else if octet < 0xF4 then (some ⟨3, 0x80, 0xBF, octet - 0xF0⟩, [])
  else if octet = 0xF4 then (some ⟨3, 0x80, 0x8F, 4⟩, [])
  else (none, [replacement])

/-- The reading of one octet: what has begun then, and the characters it completes. -/
def readOctet (begun : Option Begun) (octet : Nat) : Option Begun × List Char :=
  match begun with
  | none => beginChar octet
  | some ⟨missing, low, high, bits⟩ =>
    if low ≤ octet ∧ octet ≤ high then
      let bits := bits * 64 + (octet - 0x80)
      if missing ≤ 1 then (none, [Char.ofNat bits])
      else (some ⟨missing - 1, 0x80, 0xBF, bits⟩, [])
    else
      let (begun, chars) := beginChar octet
      (begun, replacement :: chars)

def readOctets : Option Begun → Bytes → List Char
  | none, [] => []
  | some _, [] => [replacement]
  | begun, octet :: rest =>
    let (begun, chars) := readOctet begun octet.toNat
    chars ++ readOctets begun rest

def lossy (bytes : Bytes) : String := String.ofList (readOctets none bytes)

end TerminalHost.Text
