import TerminalHost.Journal
import TerminalHost.Script

/-!
# Dialogues

What a program does on a line is a dialogue: it stands in a scene, plays the
screen of the scene, and then either goes to another scene by itself, or listens
and lets what it hears decide, or is over.  A dialogue knows neither the line nor
the time; a run supplies both.  Hence two runs of a dialogue can only differ in
what they hear.
-/

namespace TerminalHost

inductive Cue (σ : Type) where
  /-- The dialogue goes on by itself. -/
  | go (next : σ)
  /-- The dialogue listens, and what it hears leads to its next scene. -/
  | listen (hear : Bytes → σ)
  /-- The dialogue has come to its own end. -/
  | over

/-- A program as a dialogue on states `σ`. -/
class Dialogue (σ : Type) where
  /-- The program that the journal names. -/
  program : Program
  /-- What is sent when a scene begins. -/
  screen : σ → Script
  /-- What follows when the screen has been played. -/
  cue : σ → Cue σ
  /-- What is noted on the way from a scene to the next one. -/
  noted : σ → σ → List Entry
  /-- What is noted at the end, after the loss that ended the dialogue early. -/
  closing : σ → Option Loss → Entry
  /-- What is reported at the end. -/
  report : σ → Option Loss → Report
  /-- More steps than the dialogue takes from one time it listens to the next, or to
  its end. -/
  stride : Nat

end TerminalHost
