import TerminalHost.Line.Basic
import TerminalHost.Pacing
import TerminalHost.Session.Dialogue
import TerminalHost.Session.Play

/-!
# Runs

A run is a dialogue on a line, with a clock.  It advances in small steps, and
whatever a step does it does when it begins; then the clock moves on to the time at
which the next step can begin.  So everything a run has done up to a time is
exactly what its steps that began by then have done, and a run that is cut off at
that time is simply a run whose later steps are not taken.
-/

namespace TerminalHost

inductive Agenda (σ : Type) where
  /-- Play what is left of the screen, then take the cue. -/
  | play (rest : Script)
  | turn (next : σ)
  /-- Note how it ended, and close the line. -/
  | leave (loss : Option Loss)
  | done (loss : Option Loss)
  /-- The line will never answer. -/
  | stuck

structure Run (σ ℓ : Type) where
  state : σ
  agenda : Agenda σ
  line : ℓ
  now : Nat
  /-- What has been noted, the latest first. -/
  latest : List Entry

namespace Run

variable {σ ℓ : Type}

def journal (r : Run σ ℓ) : List Entry := r.latest.reverse

def note (r : Run σ ℓ) (entries : List Entry) : Run σ ℓ :=
  { r with latest := entries.reverse ++ r.latest }

@[simp] theorem journal_note (r : Run σ ℓ) (entries : List Entry) :
    (r.note entries).journal = r.journal ++ entries := by
  simp [journal, note]

def isOver (r : Run σ ℓ) : Bool :=
  match r.agenda with
  | .done _ | .stuck => true
  | _ => false

variable [Dialogue σ] [Line ℓ]

def begin (state : σ) (line : ℓ) (now : Nat) : Run σ ℓ where
  state := state
  agenda := .play (Dialogue.screen state)
  line := line
  now := now
  latest := [.sessionOpened (Dialogue.program σ) (Line.peer line)]

def sendChunk (r : Run σ ℓ) (bytes : Bytes) (rest : Script) : Run σ ℓ :=
  let (line, answer) := Line.send r.line r.now bytes
  let agenda := match answer.result with
    | .ok () => .play rest
    | .error loss => .leave (some loss)
  { r with line := line, now := answer.time, agenda := agenda }

def listen (r : Run σ ℓ) (hear : Bytes → σ) : Run σ ℓ :=
  match Line.receive r.line r.now 1 with
  | (line, none) => { r with line := line, agenda := .stuck }
  | (line, some answer) =>
    let agenda := match answer.result with
      | .ok heard => .turn (hear heard)
      | .error loss => .leave (some loss)
    { r with line := line, now := answer.time, agenda := agenda }

def step (pacing : Pacing) (r : Run σ ℓ) : Run σ ℓ :=
  match r.agenda with
  | .play (.send parts :: rest) => r.sendChunk (Step.chunk parts) rest
  | .play (.pause length :: rest) =>
    { r with now := r.now + (pacing.pause length).ticks, agenda := .play rest }
  | .play [] =>
    match Dialogue.cue r.state with
    | .go next => { r with agenda := .turn next }
    | .listen hear => r.listen hear
    | .over => { r with agenda := .leave none }
  | .turn next =>
    { r.note (Dialogue.noted r.state next) with
      state := next
      agenda := .play (Dialogue.screen next) }
  | .leave loss =>
    let (line, entries) := Line.close r.line
    { r.note (Dialogue.closing r.state loss :: entries) with
      line := line
      agenda := .done loss }
  | .done _ | .stuck => r

def steps (pacing : Pacing) : Nat → Run σ ℓ → Run σ ℓ
  | 0, r => r
  | count + 1, r => steps pacing count (r.step pacing)

theorem steps_add (pacing : Pacing) (m n : Nat) (r : Run σ ℓ) :
    r.steps pacing (m + n) = (r.steps pacing m).steps pacing n := by
  induction m generalizing r with
  | zero => simp [steps]
  | succ m ih => rw [Nat.succ_add, steps, steps, ih]

theorem step_of_isOver (pacing : Pacing) (r : Run σ ℓ) (h : r.isOver = true) :
    r.step pacing = r := by
  unfold isOver at h
  unfold step
  split at h <;> simp_all

theorem steps_of_isOver (pacing : Pacing) (count : Nat) (r : Run σ ℓ)
    (h : r.isOver = true) : r.steps pacing count = r := by
  induction count with
  | zero => rfl
  | succ count ih => rw [steps, step_of_isOver pacing r h, ih]

/-- The steps that begin at `limit` or before, but no more than `fuel` steps. -/
def runUntil (pacing : Pacing) (limit : Option Nat) : Nat → Run σ ℓ → Run σ ℓ
  | 0, r => r
  | fuel + 1, r =>
    if r.isOver || isPast limit r.now then r
    else runUntil pacing limit fuel (r.step pacing)

theorem runUntil_none (pacing : Pacing) (fuel : Nat) (r : Run σ ℓ) :
    r.runUntil pacing none fuel = r.steps pacing fuel := by
  induction fuel generalizing r with
  | zero => rfl
  | succ fuel ih =>
    by_cases h : r.isOver = true
    · simp [runUntil, h, steps_of_isOver]
    · simp [runUntil, h, steps, ih]

/-- The run to its end, for a line that answers at most `patience` receives without a
loss. -/
def runOut (pacing : Pacing) (limit : Option Nat) (patience : Nat) (r : Run σ ℓ) : Run σ ℓ :=
  r.runUntil pacing limit ((patience + 1) * Dialogue.stride σ)

def report? (r : Run σ ℓ) : Option Report :=
  match r.agenda with
  | .done loss => some (Dialogue.report r.state loss)
  | _ => none

end Run

end TerminalHost
