import TerminalHost.Proofs.Session.Steps

/-!
# The course of a session

The course of a session is the list of the states it has entered, from its start on.
The line decides what a session hears and how far it comes, but a state only ever
follows another one because the dialogue leads there.
-/

namespace TerminalHost

/-- The dialogue goes from one state to another one, by itself or by what it hears. -/
inductive Dialogue.Leads {σ : Type} [Dialogue σ] (s : σ) : σ → Prop where
  | go {next : σ} (hcue : Dialogue.cue s = .go next) : Leads s next
  | hear {hear : Bytes → σ} (hcue : Dialogue.cue s = .listen hear) (octets : Bytes) :
    Leads s (hear octets)

namespace Run

variable {σ ℓ : Type}

def entered? (r : Run σ ℓ) : Option σ :=
  match r.agenda with
  | .turn next => some next
  | _ => none

theorem entered?_of_isOver {r : Run σ ℓ} (h : r.isOver = true) : r.entered? = none := by
  unfold isOver at h
  unfold entered?
  split at h <;> simp_all

variable [Dialogue σ] [Line ℓ]

/-- The states that a run has entered in so many steps, in order, its first one included. -/
def course (pacing : Pacing) (r : Run σ ℓ) : Nat → List σ
  | 0 => [r.state]
  | count + 1 => r.course pacing count ++ (r.steps pacing count).entered?.toList

def Led (r : Run σ ℓ) : Prop := ∀ next, r.entered? = some next → Dialogue.Leads r.state next

theorem led_begin (state : σ) (line : ℓ) (now : Nat) : (begin state line now).Led := by
  intro next hnext
  simp [entered?, begin] at hnext

theorem led_of_move {pacing : Pacing} {r s : Run σ ℓ} (hmove : Move pacing r s) : s.Led := by
  intro next hnext
  cases hmove with
  | went hagenda hcue =>
    obtain rfl := Option.some.inj hnext
    exact .go hcue
  | heard hagenda hcue hreceive =>
    obtain rfl := Option.some.inj hnext
    exact .hear hcue _
  | _ => simp [entered?] at hnext

theorem state_step (pacing : Pacing) (r : Run σ ℓ) :
    (r.step pacing).state = r.entered?.getD r.state := by
  cases hover : r.isOver with
  | true =>
    rw [step_of_isOver pacing r hover, entered?_of_isOver hover, Option.getD_none]
  | false =>
    have hmove := move_step pacing r hover
    generalize r.step pacing = s at hmove
    cases hmove <;> simp [entered?, note, *]

/-- What holds of the start of a dialogue and is kept wherever the dialogue leads holds of
the course of every run. -/
theorem course_induction (pacing : Pacing) (P : List σ → σ → Prop) {r : Run σ ℓ}
    (hled : r.Led) (hstart : P [r.state] r.state)
    (hleads : ∀ {states : List σ} {s next : σ}, P states s → Dialogue.Leads s next →
      P (states ++ [next]) next) (count : Nat) :
    P (r.course pacing count) (r.steps pacing count).state := by
  have hall (count : Nat) : (r.steps pacing count).Led :=
    steps_induction Led (fun _ hmove => led_of_move hmove) hled count
  induction count with
  | zero => exact hstart
  | succ count ih =>
    rw [course, steps_succ, state_step]
    cases hentered : (r.steps pacing count).entered? with
    | none => simpa using ih
    | some next => exact hleads ih (hall count next hentered)

end Run

end TerminalHost
