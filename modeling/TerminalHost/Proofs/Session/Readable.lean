import TerminalHost.Proofs.Demo.Legible
import TerminalHost.Proofs.Game.Legible
import TerminalHost.Proofs.Session.Shown

/-!
# What the terminal reads

The words of a run are letters, a typed octet is shown only if it is a letter, and every
other text is fixed.  So the terminal reads from the line what the screens say, wherever
they are drawn: a coordinate may well be the escape octet, but it is never read as one.
-/

namespace TerminalHost

structure Dialogue.Legible {σ : Type} [Dialogue σ] (P : σ → Prop) : Prop where
  leads {s next : σ} (h : P s) (hleads : Dialogue.Leads s next) : P next
  screen {s : σ} (h : P s) : (Dialogue.screen s).Legible

theorem Game.legible : Dialogue.Legible Game.IsSpelled where
  leads h hleads := h.leads hleads
  screen h := h.legible_screen

theorem Demo.legible : Dialogue.Legible fun _ : Demo => True where
  leads _ _ := trivial
  screen {d} _ := Demo.legible_screen d

theorem Dialogue.Legible.course {σ ℓ : Type} [Dialogue σ] [Line ℓ] {P : σ → Prop}
    (h : Dialogue.Legible P) (pacing : Pacing) {start : σ} (hstart : P start) (line : ℓ)
    (count : Nat) :
    Script.Legible
      (((Run.begin start line 0).course pacing count).flatMap Dialogue.screen) := by
  apply Script.legible_flatMap
  intro s hs
  apply h.screen
  have hall := Run.course_induction pacing (fun states s => P s ∧ ∀ t ∈ states, P t)
    (Run.led_begin start line 0) ⟨hstart, by simpa [Run.begin] using hstart⟩ ?_ count
  · exact hall.2 s hs
  · rintro states s next ⟨hlast, hstates⟩ hleads
    have hnext := h.leads hlast hleads
    refine ⟨hnext, fun t ht => ?_⟩
    rcases List.mem_append.mp ht with hbefore | hnew
    · exact hstates t hbefore
    · rwa [List.mem_singleton.mp hnew]

def Program.screens {ℓ : Type} [Line ℓ] (program : Program) (options : Options) (line : ℓ)
    (count : Nat) : Script :=
  match program with
  | .game =>
    ((Run.begin (Game.start options) (Tapped.tap line) 0).course options.pacing count).flatMap
      Dialogue.screen
  | .demo =>
    ((Run.begin Demo.start (Tapped.tap line) 0).course options.pacing count).flatMap
      Dialogue.screen

/-- A session that is cut off has played the beginning of its screens. -/
theorem Run.exists_played {σ ℓ : Type} [Dialogue σ] [Line ℓ] (pacing : Pacing)
    (limit : Option Nat) (fuel : Nat) (start : σ) (line : ℓ) :
    ∃ (count : Nat) (played left : Script),
      ((begin start (Tapped.tap line) 0).course pacing count).flatMap Dialogue.screen
        = played ++ left ∧
      Exchange.chunks
          ((begin start (Tapped.tap line) 0).runUntil pacing limit fuel).line.log
        = played.chunks := by
  obtain ⟨count, hcount⟩ := exists_steps_of_runUntil pacing limit fuel
    (begin start (Tapped.tap line) 0)
  obtain ⟨played, left, hplays⟩ := exists_plays_steps pacing start line count
  rw [hcount]
  exact ⟨count, played, left, hplays.screens, hplays.sent⟩

theorem Program.exists_played {ℓ : Type} [Line ℓ] (program : Program) (options : Options)
    (limit : Option Nat) (patience : Nat) (line : ℓ) :
    ∃ (count : Nat) (played left : Script), program.screens options line count = played ++ left ∧
      Exchange.chunks (program.log options limit patience line) = played.chunks := by
  cases program with
  | game => exact Run.exists_played options.pacing limit _ (Game.start options) line
  | demo => exact Run.exists_played options.pacing limit _ Demo.start line

theorem Program.legible_screens {ℓ : Type} [Line ℓ] (program : Program) (options : Options)
    (hwords : ∀ word ∈ options.words, Text.IsSpelled word) (line : ℓ) (count : Nat) :
    (program.screens options line count).Legible := by
  cases program with
  | game => exact Game.legible.course options.pacing (Game.isSpelled_start hwords) _ count
  | demo => exact Demo.legible.course options.pacing trivial _ count

/-- **The terminal reads what the screens say.**  Whatever words the command line gives,
wherever the screens are drawn and whatever is typed, a session sends the beginning of its
screens, step by step.  From the octets sent the terminal reads exactly their commands and
their text, and all text is plain.  Even when the octets break off anywhere, it has read
the beginning of that, and at most a command is unfinished. -/
theorem exists_played_of_resolve {arguments : Arguments} {run : RunSettings}
    (hresolve : arguments.resolve = .ok run) (program : Program) (seed : UInt32)
    (margin : UInt8) {ℓ : Type} [Line ℓ] (limit : Option Nat) (patience : Nat) (line : ℓ) :
    ∃ (count : Nat) (played left : Script),
      program.screens { run.session.options seed with view := ⟨margin⟩ } line count
        = played ++ left ∧
      Exchange.chunks (program.log { run.session.options seed with view := ⟨margin⟩ } limit
        patience line) = played.chunks ∧
      readWire played.wire = some played.readings ∧
      (∀ octet, .text octet ∈ played.readings → IsPlain octet) ∧
      ∀ octets, octets <+: played.wire →
        ∃ whole cut readings, octets = whole ++ cut ∧ readWire whole = some readings ∧
          readings <+: played.readings ∧ Command.Unfinished cut := by
  obtain ⟨count, played, left, hscreens, hchunks⟩ :=
    program.exists_played { run.session.options seed with view := ⟨margin⟩ } limit patience line
  have hlegible := program.legible_screens { run.session.options seed with view := ⟨margin⟩ }
    (isSpelled_of_resolve hresolve) line count
  rw [hscreens, Script.legible_append] at hlegible
  refine ⟨count, played, left, hscreens, hchunks, hlegible.1.readWire_wire, hlegible.1,
    fun octets hoctets => ?_⟩
  rw [played.wire_eq] at hoctets
  obtain ⟨few, cut, hwhole, hfew, hcut⟩ := exists_of_prefix_flatMap hoctets
  refine ⟨few.flatMap Reading.octets, cut, few, hwhole, ?_, hfew, hcut⟩
  refine readWire_eq_some_iff.mpr ⟨rfl, fun hescape => ?_⟩
  exact (hlegible.1 _ (hfew.subset hescape)).ne_escape rfl

theorem exists_played_escape :
    ∃ run, { Arguments.usual with words := ["fox "] }.resolve = .ok run ∧
      Command.coordinate 252 = Command.escape ∧
      ∃ (count : Nat) (played left : Script),
        Program.game.screens { run.session.options 1 with view := ⟨252⟩ } Recorded.empty count
          = played ++ left ∧
        Exchange.chunks (Program.game.log { run.session.options 1 with view := ⟨252⟩ } none 1
          Recorded.empty) = played.chunks ∧
        readWire played.wire = some played.readings := by
  have hresolve : { Arguments.usual with words := ["fox "] }.resolve
      = .ok ⟨.serial SerialSettings.usual, ⟨Pacing.usual, ["FOX"]⟩⟩ := by
    decide +kernel
  obtain ⟨count, played, left, hscreens, hchunks, hread, -⟩ :=
    exists_played_of_resolve hresolve .game 1 252 none 1 Recorded.empty
  exact ⟨_, hresolve, rfl, count, played, left, hscreens, hchunks, hread⟩

end TerminalHost
