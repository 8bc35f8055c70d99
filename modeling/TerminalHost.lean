import TerminalHost.Bytes
import TerminalHost.CommandLine
import TerminalHost.Demo.Act
import TerminalHost.Demo.Scene
import TerminalHost.Demo.Screens
import TerminalHost.Device
import TerminalHost.Duration
import TerminalHost.Fault
import TerminalHost.Game.Phase
import TerminalHost.Game.Scene
import TerminalHost.Game.Screens
import TerminalHost.Generator
import TerminalHost.Journal
import TerminalHost.Keys
import TerminalHost.Line.Basic
import TerminalHost.Line.Recorded
import TerminalHost.Line.Scripted
import TerminalHost.Line.Stream
import TerminalHost.Main
import TerminalHost.Pacing
import TerminalHost.Program
import TerminalHost.Proofs.Session.Steps
import TerminalHost.Round
import TerminalHost.Script
import TerminalHost.Serving.Serial
import TerminalHost.Serving.Server
import TerminalHost.Session.Dialogue
import TerminalHost.Session.Outcome
import TerminalHost.Session.Play
import TerminalHost.Session.Run
import TerminalHost.Settings
import TerminalHost.Text.Blank
import TerminalHost.Text.Hidden
import TerminalHost.Text.Letters
import TerminalHost.Text.Lossy
import TerminalHost.Text.Numeral
import TerminalHost.Text.Quoted
import TerminalHost.Wire.Command
import TerminalHost.Wire.Reading
import TerminalHost.Words
import TerminalHost.Proofs.Session.Laws
import TerminalHost.Proofs.Session.Progress
import TerminalHost.Proofs.Line.Recorded
import TerminalHost.Proofs.Line.Writing
import TerminalHost.Proofs.Line.Reading
import TerminalHost.Proofs.Session.Timing
import TerminalHost.Proofs.Session.Cut
import TerminalHost.Proofs.Session.Limits
import TerminalHost.Proofs.Session.Loss
import TerminalHost.Proofs.Line.Wrapped
import TerminalHost.Proofs.Line.Tapped
import TerminalHost.Proofs.Session.Told
import TerminalHost.Proofs.Game.Rounds
import TerminalHost.Proofs.Game.Transcript
import TerminalHost.Proofs.Game.Telling
import TerminalHost.Proofs.Session.Ending
import TerminalHost.Proofs.Session.Course
import TerminalHost.Proofs.Game.Phases
import TerminalHost.Proofs.Session.Calls
import TerminalHost.Proofs.Session.Lockstep
import TerminalHost.Proofs.Game.Noise
import TerminalHost.Proofs.Game.Replay
import TerminalHost.Proofs.Game.Secrecy
import TerminalHost.Proofs.Session.Supply
import TerminalHost.Proofs.Wire.Legible
import TerminalHost.Proofs.Session.Shown
import TerminalHost.Proofs.Demo.Legible
import TerminalHost.Proofs.Game.Legible
import TerminalHost.Proofs.Session.Readable
import TerminalHost.Proofs.Line.Clock
import TerminalHost.Proofs.Line.Stamped
import TerminalHost.Proofs.Session.Interrupt
import TerminalHost.Proofs.Serving.Shutdown
import TerminalHost.Proofs.Generator.Evenness
import TerminalHost.Proofs.Generator.Period
import TerminalHost.Proofs.Game.Race
import TerminalHost.Serving.Hosting
import TerminalHost.Proofs.Session.Network
import TerminalHost.Proofs.Serving.Reactions
import TerminalHost.Proofs.Serving.Roster
import TerminalHost.Proofs.Serving.Isolation
import TerminalHost.Proofs.Serving.Drain
import TerminalHost.Proofs.Serving.Stopping
import TerminalHost.Proofs.Game.Order
import TerminalHost.Proofs.Text.Blank
import TerminalHost.Proofs.Text.Letters
import TerminalHost.Proofs.Game.Playable
import TerminalHost.Proofs.Wire.Commands
import TerminalHost.Proofs.Line.Arrivals
import TerminalHost.Proofs.Line.Receiving
import TerminalHost.Proofs.Line.Dealings
import TerminalHost.Proofs.Line.Watched
import TerminalHost.Proofs.Line.Sending
import TerminalHost.Proofs.Demo.Given
import TerminalHost.Proofs.Line.Playback
import TerminalHost.Proofs.Session.Playing
import TerminalHost.Proofs.Text.Numeral
import TerminalHost.Proofs.Game.Countdown
import TerminalHost.Proofs.Settings.Resolving
import TerminalHost.Proofs.Settings.Values
import TerminalHost.Proofs.Settings.Precedence
import TerminalHost.Proofs.Game.Drawing
import TerminalHost.Proofs.Session.Sound
