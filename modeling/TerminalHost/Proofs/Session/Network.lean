import TerminalHost.Proofs.Session.Interrupt
import TerminalHost.Proofs.Session.Loss
import TerminalHost.Serving.Hosting

/-!
# Sessions on network connections

A receive on a network connection has no bound, so it only comes back empty-handed when
the stream has failed once more.  Hence a session on a connection takes only finitely many
steps, until it has come to its end or waits for a client that will never send anything.
-/

namespace TerminalHost

theorem StreamLine.weight_receive_lt {line next : StreamLine Scripted}
    (hnone : line.readTimeout = none) {now time : Nat} {octets : Bytes}
    (hreceive : Line.receive line now 1 = (next, some ⟨time, .ok octets⟩)) :
    next.weight < line.weight := by
  by_cases hopen : line.isOpen = true
  · have hspent := Scripted.spent_readEvents line.stream.staysOpen (by decide : 0 < max 1 1)
      none now line.stream.events
    have hread : ByteStream.read line.stream now (max 1 1) none
        = ({ line.stream with events := (Scripted.readEvents line.stream.staysOpen (max 1 1)
              none now line.stream.events).1 },
            (Scripted.readEvents line.stream.staysOpen (max 1 1) none now
              line.stream.events).2) := rfl
    rw [receive_of_read hopen hnone hread] at hreceive
    generalize Scripted.readEvents line.stream.staysOpen (max 1 1) none now
      line.stream.events = read at hspent hreceive
    cases hspent with
    | ended htime hle => simp [heard] at hreceive
    | used htime hless =>
      obtain ⟨rfl, -⟩ := Prod.mk.inj hreceive
      exact hless
    | kept => simp at hreceive
    | begun hless => simp at hreceive
  · rw [receive_of_not_isOpen hopen] at hreceive
    simp at hreceive

namespace Run

variable {σ : Type} [Dialogue σ] {pacing : Pacing} {r s : Run σ (StreamLine Scripted)}

/-! ## What the client has received -/

theorem Move.accepted_prefix (h : Move pacing r s) :
    r.line.stream.accepted <+: s.line.stream.accepted := by
  cases h.handles with
  | kept htalking hline => exact hline ▸ List.prefix_rfl
  | sent htalking octets hline =>
    obtain ⟨taken, -, haccepted, -⟩ := StreamLine.exists_accepted_send r.line r.now octets
    rw [hline, haccepted]
    exact List.prefix_append _ taken
  | received htalking hline =>
    obtain ⟨events, hevents⟩ := StreamLine.exists_withEvents r.line r.now 1
    rw [hline, hevents]
    exact List.prefix_rfl
  | closed hquiet hline =>
    have hsame : s.line.stream.accepted = r.line.stream.accepted := by
      rw [hline, StreamLine.accepted_close]
    exact hsame ▸ List.prefix_rfl

theorem accepted_prefix_steps (pacing : Pacing) (r : Run σ (StreamLine Scripted))
    {few many : Nat} (hle : few ≤ many) :
    (r.steps pacing few).line.stream.accepted
      <+: (r.steps pacing many).line.stream.accepted := by
  obtain ⟨more, rfl⟩ := Nat.exists_eq_add_of_le hle
  rw [steps_add]
  exact steps_induction
    (fun q : Run σ (StreamLine Scripted) =>
      (r.steps pacing few).line.stream.accepted <+: q.line.stream.accepted)
    (fun hq hmove => hq.trans hmove.accepted_prefix) List.prefix_rfl more

/-! ## Coming to rest -/

variable [Dialogue.Lawful σ]

/-- More than the steps that a run on a connection has still to take. -/
def rank (r : Run σ (StreamLine Scripted)) : Nat :=
  r.line.weight * Dialogue.stride σ + r.distance

theorem Move.rank_lt_of_patient (h : Move pacing r s) (hpatient : r.Patient) :
    s.rank < r.rank :=
  h.rank_lt (h.left_le StreamLine.timely) fun _ _ _ _ hreceive =>
    StreamLine.weight_receive_lt hpatient.readTimeout hreceive

theorem Patient.exists_isOver (h : r.Patient) (pacing : Pacing) :
    ∃ count, (r.steps pacing count).isOver = true := by
  induction hrank : r.rank using Nat.strongRecOn generalizing r with
  | ind rank ih =>
    cases hover : r.isOver with
    | true => exact ⟨0, hover⟩
    | false =>
      have hmove := move_step pacing r hover
      have hless : (r.step pacing).rank < rank := hrank ▸ hmove.rank_lt_of_patient h
      obtain ⟨count, hcount⟩ := ih _ hless (h.move hmove) rfl
      exact ⟨count + 1, hcount⟩

end Run

/-! ## Sessions of a program -/

namespace Program

instance (program : Program) : Dialogue.Lawful program.State :=
  match program with
  | game => inferInstanceAs (Dialogue.Lawful Game)
  | demo => inferInstanceAs (Dialogue.Lawful Demo)

/-- The session on a line from some time on comes to this outcome by the limit, with any
patience that is enough. -/
def ComesTo {ℓ : Type} [Line ℓ] (program : Program) (options : Options) (time : Nat)
    (limit : Option Nat) (line : ℓ) (outcome : Outcome ℓ) : Prop :=
  ∃ enough, ∀ patience, enough ≤ patience →
    program.runFrom options time limit patience line = outcome

variable {ℓ : Type} [Line ℓ] {program : Program} {options : Options} {time : Nat} {line : ℓ}

theorem comesTo_of_isOver {count : Nat}
    (hover : ((Run.begin (program.start options) line time).steps options.pacing count).isOver
      = true) :
    program.ComesTo options time none line
      ((Run.begin (program.start options) line time).steps options.pacing count).outcome :=
  ⟨count, fun patience hle => by rw [runFrom, Run.runOut_eq_of_isOver hover hle]⟩

theorem comesTo_of_stop {limit count : Nat}
    (htime : (Run.begin (program.start options) line time).InTime options.pacing limit count)
    (hstop : ((Run.begin (program.start options) line time).steps options.pacing count).isOver
        = true ∨
      limit < ((Run.begin (program.start options) line time).steps options.pacing count).now) :
    program.ComesTo options time (some limit) line
      ((Run.begin (program.start options) line time).steps options.pacing count).outcome := by
  refine ⟨count, fun patience hle => ?_⟩
  obtain ⟨more, hmore⟩ := Nat.exists_eq_add_of_le (Run.le_fuel program.State hle)
  rw [runFrom, Run.runOut, hmore, Run.runUntil_add htime, Run.runUntil_of_stop hstop]

end Program

end TerminalHost
