import TerminalHost.Game.Screens
import TerminalHost.Generator
import TerminalHost.Keys
import TerminalHost.Pacing
import TerminalHost.Session.Dialogue
import TerminalHost.Words

/-!
# The guessing game

A scene of the game is one screen, with the round that is played in it; its phase is
read off the scene.  A round begins with an empty screen.  Then the board is drawn
and a letter is asked for, again and again, until the board of a won round has
been drawn or a letter has lost the round.  The round is stored then, and the loss is
shown from what is stored.  The question for another round leads to a new round or to
the farewell.  Keys that are not answers to the question on the screen are passed over.
-/

namespace TerminalHost

structure Options where
  pacing : Pacing
  /-- The secret words, in capitals; the animals if there are none. -/
  words : List String
  seed : UInt32
  view : View
deriving DecidableEq, Repr

def Options.usual : Options := ⟨Pacing.usual, animals, 1, View.usual⟩

/-- The scenes of a game; while a round is played, its scenes hold it. -/
inductive Scene where
  | welcome
  /-- The empty screen before the first board of a round. -/
  | opening (r : Round)
  | board (r : Round)
  | prompt (r : Round)
  /-- The prompt stands and a letter is awaited. -/
  | guessing (r : Round)
  /-- A letter is shown before it is guessed. -/
  | echo (r : Round) (letter : Char)
  | won
  /-- The loss is shown, of the round that was found stored, if there was one. -/
  | lost (stored : Option Round)
  | replay
  /-- The question stands and an answer is awaited. -/
  | answering
  | farewell
  | closed
deriving DecidableEq, Repr

namespace Scene

def phase : Scene → Phase
  | welcome => .welcome
  | opening _ | board _ | prompt _ | guessing _ | echo _ _ => .roundActive
  | won => .roundWon
  | lost _ => .roundLost
  | replay | answering | farewell => .replayPrompt
  | closed => .closed

def round? : Scene → Option Round
  | opening r | board r | prompt r | guessing r | echo r _ => some r
  | lost stored => stored
  | welcome | won | replay | answering | farewell | closed => none

def screen (view : View) : Scene → Script
  | welcome => View.welcome
  | opening _ => View.opening
  | board r => view.board r
  | prompt _ => view.prompt
  | guessing _ => []
  | echo _ letter => View.echo letter
  | won => view.won
  | lost (some r) => view.lost r
  | lost none => []
  | replay => view.replay
  | answering => []
  | farewell => View.farewell
  | closed => []

end Scene

structure Game where
  /-- The secret words to pick from. -/
  words : List String
  generator : Generator
  view : View
  won : UInt32
  lost : UInt32
  /-- The round that was played last, once it is over. -/
  stored : Option Round
  scene : Scene
deriving DecidableEq, Repr

namespace Game

def start (options : Options) : Game where
  words := if options.words.isEmpty then animals else options.words
  generator := Generator.seeded options.seed
  view := options.view
  won := 0
  lost := 0
  stored := none
  scene := .welcome

def phase (g : Game) : Phase := g.scene.phase

/-- The game in a scene; a result is counted when its scene begins. -/
def enter (g : Game) (scene : Scene) : Game :=
  match scene with
  | .won => { g with scene := scene, won := g.won + 1 }
  | .lost _ => { g with scene := scene, lost := g.lost + 1 }
  | _ => { g with scene := scene }

def newRound (g : Game) : Game :=
  let (word, generator) := g.generator.pick g.words
  { g with generator := generator, scene := .opening (Round.start (word.getD "LION")) }

def store (g : Game) (r : Round) : Game := { g with stored := some r }

def showLoss (g : Game) : Game := g.enter (.lost g.stored)

def afterBoard (g : Game) (r : Round) : Game :=
  if r.standing = .won then (g.store r).enter .won else g.enter (.prompt r)

/-- The game after a letter has been shown: the letter is guessed. -/
def settle (g : Game) (r : Round) (letter : Char) : Game :=
  let r := (r.guess letter).2
  if r.standing = .lost then (g.store r).showLoss else g.enter (.board r)

def hearLetter (g : Game) (r : Round) (heard : Bytes) : Game :=
  match Keys.firstLetter? heard with
  | some letter => g.enter (.echo r letter)
  | none => g

def hearAnswer (g : Game) (heard : Bytes) : Game :=
  match Keys.firstReply? heard with
  | some .yes => g.newRound
  | some .no => g.enter .farewell
  | none => g

def cue (g : Game) : Cue Game :=
  match g.scene with
  | .welcome => .go g.newRound
  | .opening r => .go (g.enter (.board r))
  | .board r => .go (g.afterBoard r)
  | .prompt r => .go (g.enter (.guessing r))
  | .guessing r => .listen (g.hearLetter r)
  | .echo r letter => .go (g.settle r letter)
  | .won => .go (g.enter .replay)
  | .lost _ => .go (g.enter .replay)
  | .replay => .go (g.enter .answering)
  | .answering => .listen g.hearAnswer
  | .farewell => .go (g.enter .closed)
  | .closed => .over

def leaving : Scene → List Entry
  | .echo r letter =>
    let (guess, r) := r.guess letter
    [.guessed letter guess r.attempts]
  | _ => []

def arriving : Scene → List Entry
  | .opening r => [.roundStarted r.target]
  | _ => []

/-- What is noted when one scene follows another: the guess, then the change of the
phase, then the new round. -/
def noted (before after : Game) : List Entry :=
  leaving before.scene
    ++ (if before.phase = after.phase then [] else [.phaseChanged before.phase after.phase])
    ++ arriving after.scene

def closing (g : Game) : Option Loss → Entry
  | none => .gameFinished g.won g.lost
  | some loss => .gameLost g.phase loss

def report (g : Game) (loss : Option Loss) : Report := .game g.won g.lost g.phase loss

instance : Dialogue Game where
  program := .game
  screen g := g.scene.screen g.view
  cue := cue
  noted := noted
  closing := closing
  report := report
  stride := 64

end Game

end TerminalHost
