/-!
# Programs

The host runs one of two programs on every line: the guessing game, which reads
keys, and the demonstration of the terminal, which never reads.
-/

namespace TerminalHost

inductive Program where
  | game
  | demo
deriving DecidableEq, Repr

def Program.name : Program → String
  | game => "game"
  | demo => "demo"

end TerminalHost
