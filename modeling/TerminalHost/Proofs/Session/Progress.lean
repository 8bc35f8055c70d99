import TerminalHost.Line.Recorded
import TerminalHost.Proofs.Session.Laws

/-!
# Progress of a session

A session ends on every line that can answer only so many receives: it takes at most
one stride for each of them, and one more.  A session that ends returns the same
outcome whatever patience it is given, as long as that is enough.
-/

namespace TerminalHost

/-- The session of a program on a line comes to an end, and this is its outcome. -/
def Program.Returns {ℓ : Type} [Line ℓ] (program : Program) (options : Options)
    (line : ℓ) (outcome : Outcome ℓ) : Prop :=
  outcome.report.isSome = true ∧
    ∃ enough, ∀ patience, enough ≤ patience →
      program.run options none patience line = outcome

structure PendingSend (ℓ : Type) where
  line : ℓ
  chunk : Bytes
  /-- What the session would report if it came to its own end there. -/
  standing : Report

def Run.pendingSend? {σ ℓ : Type} [Dialogue σ] (r : Run σ ℓ) : Option (PendingSend ℓ) :=
  match r.agenda with
  | .play (.send parts :: _) =>
    some ⟨r.line, Step.chunk parts, Dialogue.report r.state none⟩
  | _ => none

/-- The send that the session of a program makes next after so many steps. -/
def Program.pendingSend? {ℓ : Type} [Line ℓ] (program : Program) (options : Options)
    (line : ℓ) (count : Nat) : Option (PendingSend ℓ) :=
  match program with
  | .game =>
    ((Run.begin (Game.start options) line 0).steps options.pacing count).pendingSend?
  | .demo => ((Run.begin Demo.start line 0).steps options.pacing count).pendingSend?

/-- `left` bounds the receives that a line can still answer without a loss. -/
structure Line.Exhausts {ℓ : Type} [Line ℓ] (left : ℓ → Nat) : Prop where
  send {line rest : ℓ} {now : Nat} {octets : Bytes} {answer : Answer Unit}
    (h : Line.send line now octets = (rest, answer)) : left rest ≤ left line
  receive {line rest : ℓ} {now : Nat} {answer : Option (Answer Bytes)}
    (h : Line.receive line now 1 = (rest, answer)) : left rest ≤ left line
  receive_lt {line rest : ℓ} {now time : Nat} {octets : Bytes}
    (h : Line.receive line now 1 = (rest, some ⟨time, .ok octets⟩)) : left rest < left line
  close (line : ℓ) : left (Line.close line).1 ≤ left line

namespace Run

variable {σ ℓ : Type} [Dialogue σ] [Dialogue.Lawful σ]

/-- The steps of a run until it listens again or is over. -/
def distance (r : Run σ ℓ) : Nat :=
  match r.agenda with
  | .play rest => rest.length + 2 + Dialogue.Lawful.beyond r.state
  | .turn next =>
    (Dialogue.screen next).length + 3 + Dialogue.Lawful.beyond next
  | .leave _ => 1
  | .done _ | .stuck => 0

theorem isOver_of_distance {r : Run σ ℓ} (h : r.distance = 0) : r.isOver = true := by
  cases hagenda : r.agenda <;> simp [distance, hagenda] at h <;> simp [isOver, hagenda]

variable [Line ℓ]

/-- Every move but an answer that is heard brings a run closer to the next time it listens
or to its end, and such an answer leaves it at most one stride away. -/
theorem Move.distance_lt {pacing : Pacing} {r s : Run σ ℓ} (h : Move pacing r s) :
    s.distance < r.distance ∨
      (s.distance < Dialogue.stride σ + r.distance ∧
        ∃ hear octets, r.agenda = .play [] ∧ Dialogue.cue r.state = .listen hear ∧
          Line.receive r.line r.now 1 = (s.line, some ⟨s.now, .ok octets⟩)) := by
  cases h with
  | @went next hagenda hcue =>
    have hbeyond := Dialogue.Lawful.beyond_go hcue
    left
    simp only [distance, hagenda, List.length_nil]
    omega
  | @heard hear line time octets hagenda hcue hreceive =>
    have hbeyond := Dialogue.Lawful.beyond_hear hcue octets
    refine .inr ⟨?_, hear, octets, hagenda, hcue, hreceive⟩
    simp only [distance, hagenda, List.length_nil]
    omega
  | turned hagenda =>
    left
    simp only [distance, hagenda]
    omega
  | sent hagenda | unsent hagenda | paused hagenda | unheard hagenda | unanswered hagenda
  | ended hagenda | left hagenda =>
    left
    simp only [distance, hagenda, List.length_cons, List.length_nil]
    omega

/-- So what a run has still to do gets less, if what its line can still answer does not get
more, and less with every answer that is heard. -/
theorem Move.rank_lt {pacing : Pacing} {r s : Run σ ℓ} (h : Move pacing r s)
    {before after : Nat} (hle : after ≤ before)
    (hheard : ∀ hear octets, r.agenda = .play [] → Dialogue.cue r.state = .listen hear →
      Line.receive r.line r.now 1 = (s.line, some ⟨s.now, .ok octets⟩) → after < before) :
    after * Dialogue.stride σ + s.distance < before * Dialogue.stride σ + r.distance := by
  rcases h.distance_lt with hcloser | ⟨hstride, hear, octets, hagenda, hcue, hreceive⟩
  · have hscale := Nat.mul_le_mul_right (Dialogue.stride σ) hle
    omega
  · have hscale := Nat.mul_le_mul_right (Dialogue.stride σ)
      (hheard hear octets hagenda hcue hreceive : after + 1 ≤ before)
    rw [Nat.succ_mul] at hscale
    omega

omit [Dialogue.Lawful σ] in
theorem left_move {pacing : Pacing} {left : ℓ → Nat} (hleft : Line.Exhausts left)
    {r s : Run σ ℓ} (h : Move pacing r s) : left s.line ≤ left r.line := by
  cases h.handles with
  | kept htalking hline => exact hline ▸ Nat.le_refl _
  | sent htalking octets hline => exact hline ▸ hleft.send rfl
  | received htalking hline => exact hline ▸ hleft.receive rfl
  | closed hquiet hline => exact hline ▸ hleft.close r.line

theorem distance_move {pacing : Pacing} {left : ℓ → Nat} (hleft : Line.Exhausts left)
    {r s : Run σ ℓ} (h : Move pacing r s) :
    left s.line * Dialogue.stride σ + s.distance
      < left r.line * Dialogue.stride σ + r.distance :=
  h.rank_lt (left_move hleft h) fun _ _ _ _ hreceive => hleft.receive_lt hreceive

/-- A run is over after as many steps as its line and its program allow. -/
theorem isOver_steps (pacing : Pacing) {left : ℓ → Nat} (hleft : Line.Exhausts left)
    (count : Nat) (r : Run σ ℓ)
    (h : left r.line * Dialogue.stride σ + r.distance ≤ count) :
    (r.steps pacing count).isOver = true := by
  induction count generalizing r with
  | zero =>
    have hdistance : r.distance = 0 := by omega
    exact isOver_of_distance hdistance
  | succ count ih =>
    cases hover : r.isOver with
    | true => rwa [steps_of_isOver pacing _ r hover]
    | false =>
      have hcloser := distance_move hleft (move_step pacing r hover)
      exact ih (r.step pacing) (by omega)

omit [Line ℓ] in
/-- Patience for some receives is enough for as many steps. -/
theorem le_fuel (σ : Type) [Dialogue σ] [Dialogue.Lawful σ] {count patience : Nat}
    (hle : count ≤ patience) : count ≤ (patience + 1) * Dialogue.stride σ :=
  calc count ≤ patience + 1 := by omega
    _ ≤ (patience + 1) * Dialogue.stride σ :=
      Nat.le_mul_of_pos_right _ Dialogue.Lawful.stride_pos

theorem runOut_eq_of_isOver {pacing : Pacing} {r : Run σ ℓ} {count patience : Nat}
    (hover : (r.steps pacing count).isOver = true) (hle : count ≤ patience) :
    r.runOut pacing none patience = r.steps pacing count := by
  rw [runOut, runUntil_none]
  exact steps_eq_of_isOver (le_fuel σ hle) hover

end Run

/-- Each program is a lawful dialogue, which does not depend on the pacing. -/
theorem Program.exists_dialogue (program : Program) (options : Options) :
    ∃ (σ : Type) (_ : Dialogue σ) (_ : Dialogue.Lawful σ) (start : σ),
      ∀ {ℓ : Type} [Line ℓ] (pacing : Pacing) (line : ℓ),
        (∀ limit patience,
          program.run { options with pacing := pacing } limit patience line
            = ((Run.begin start line 0).runOut pacing limit patience).outcome) ∧
        ∀ count,
          program.pendingSend? { options with pacing := pacing } line count
            = ((Run.begin start line 0).steps pacing count).pendingSend? := by
  cases program with
  | game =>
    exact ⟨Game, inferInstance, inferInstance, Game.start options,
      fun _ _ => ⟨fun _ _ => rfl, fun _ => rfl⟩⟩
  | demo =>
    exact ⟨Demo, inferInstance, inferInstance, Demo.start,
      fun _ _ => ⟨fun _ _ => rfl, fun _ => rfl⟩⟩

theorem Program.returns_of_steps {σ ℓ : Type} [Dialogue σ] [Dialogue.Lawful σ] [Line ℓ]
    {program : Program} {options : Options} {line : ℓ} {r : Run σ ℓ}
    (hrun : ∀ limit patience, program.run options limit patience line
      = (r.runOut options.pacing limit patience).outcome)
    {count : Nat} (hreport : (r.steps options.pacing count).report?.isSome = true) :
    program.Returns options line (r.steps options.pacing count).outcome := by
  obtain ⟨report, hsome⟩ := Option.isSome_iff_exists.mp hreport
  have hover := Run.isOver_of_report? hsome
  refine ⟨hreport, count, fun patience hle => ?_⟩
  rw [hrun, Run.runOut_eq_of_isOver hover hle]

end TerminalHost
