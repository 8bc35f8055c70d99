import TerminalHost.Bytes
import TerminalHost.Journal

/-!
# Lines

A line carries octets to a terminal and back.  A call is made at a time of the
session's clock and says when it has ended and with what; what it does to the
line, it does when it is made.  A send always ends.  A receive may wait for ever,
and then it gives no answer.  An empty answer to a receive means that nothing has
come yet; the end of the stream is a loss.
-/

namespace TerminalHost

/-- The end of a call on a line: when, and with what. -/
structure Answer (α : Type) where
  time : Nat
  result : Except Loss α

/-- What a session needs of a line. -/
class Line (ℓ : Type) where
  /-- The name of the other end in the journal. -/
  peer : ℓ → String
  /-- Send octets as one chunk. -/
  send : ℓ → (now : Nat) → Bytes → ℓ × Answer Unit
  /-- Receive at most so many octets, but at least one if there is one. -/
  receive : ℓ → (now : Nat) → (most : Nat) → ℓ × Option (Answer Bytes)
  /-- Close the line; whatever goes wrong is noted and otherwise ignored. -/
  close : ℓ → ℓ × List Entry

end TerminalHost
