/-!
# The phases of a game

A game goes from its welcome to a round, from a round to its result, from the
result to the question for another round, and from there to another round or to
its end.  Only the end is terminal.
-/

namespace TerminalHost

inductive Phase where
  | welcome
  | roundActive
  | roundWon
  | roundLost
  | replayPrompt
  | closed
deriving DecidableEq, Repr

namespace Phase

/-- Every phase, in the order a game first meets them. -/
def all : List Phase := [welcome, roundActive, roundWon, roundLost, replayPrompt, closed]

def name : Phase → String
  | welcome => "welcome"
  | roundActive => "round_active"
  | roundWon => "round_won"
  | roundLost => "round_lost"
  | replayPrompt => "replay_prompt"
  | closed => "closed"

def isTerminal : Phase → Bool
  | closed => true
  | _ => false

def next : Phase → List Phase
  | welcome => [roundActive]
  | roundActive => [roundWon, roundLost]
  | roundWon => [replayPrompt]
  | roundLost => [replayPrompt]
  | replayPrompt => [roundActive, closed]
  | closed => []

end Phase

end TerminalHost
