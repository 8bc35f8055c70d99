import TerminalHost.Proofs.Session.Progress

/-!
# Recorded lines in a session

A recorded line answers every receive at once, and every receive that succeeds takes
something from its queue.  So a session on it always ends with a report, and the
patience of the line is enough for it.
-/

namespace TerminalHost

namespace Recorded

theorem length_takeOctets_le (most : Nat) (queue : List Item) :
    (takeOctets most queue).2.length ≤ queue.length := by
  fun_induction takeOctets most queue with
  | case1 most octet rest octets left h ih =>
    simp_all
    omega
  | case2 => exact Nat.le_refl _

theorem length_take_le (most : Nat) (queue : List Item) :
    (take most queue).2.length ≤ queue.length := by
  unfold take
  split
  · simp
  · simp
  · have hrest := length_takeOctets_le (most - 1) ‹_›
    simp only [List.length_cons]
    omega

theorem length_take_lt {most : Nat} {queue : List Item} {octets : Bytes}
    (h : (take most queue).1 = .ok octets) :
    (take most queue).2.length < queue.length := by
  unfold take at h ⊢
  split at h
  · simp at h
  · simp
  · have hrest := length_takeOctets_le (most - 1) ‹_›
    simp only [List.length_cons]
    omega

@[simp] theorem take_one_octet (octet : UInt8) (rest : List Item) :
    take 1 (.octet octet :: rest) = (.ok [octet], rest) := rfl

/-! ## As a line -/

theorem send_of_isClosed {line : Recorded} (h : line.isClosed = true) (octets : Bytes) :
    line.send octets = (line, .error .closed) := by
  rw [send, if_pos h]

theorem send_of_none {line : Recorded} (hopen : ¬ line.isClosed = true)
    (hlimit : line.sendLimit = none) (octets : Bytes) :
    line.send octets
      = ({ line with latest := octets :: line.latest, sends := line.sends + 1 }, .ok ()) := by
  have hspent : ¬ line.isSpent = true := by simp [isSpent, hlimit]
  rw [send, if_neg hopen, if_neg hspent]

theorem queue_send (line : Recorded) (octets : Bytes) :
    (line.send octets).1.queue = line.queue := by
  unfold send
  split
  · rfl
  · split <;> rfl

theorem queue_receive (line : Recorded) (most : Nat) :
    (line.receive most).1.queue
      = if line.isClosed then line.queue else (take most line.queue).2 := by
  unfold receive
  by_cases h : line.isClosed <;> simp [h]

theorem receive_result (line : Recorded) (most : Nat) :
    (line.receive most).2
      = if line.isClosed then .error .closed else (take most line.queue).1 := by
  unfold receive
  by_cases h : line.isClosed <;> simp [h]

theorem receive_of_isClosed {line : Recorded} (h : line.isClosed = true) (most : Nat) :
    line.receive most = ({ line with receives := line.receives + 1 }, .error .closed) := by
  simp only [receive, h, if_true]

theorem receive_of_open {line : Recorded} (hopen : ¬ line.isClosed = true) (most : Nat) :
    line.receive most
      = ({ line with
            receives := line.receives + 1
            queue := (take most line.queue).2 },
          (take most line.queue).1) := by
  simp only [receive, if_neg hopen]

theorem exhausts : Line.Exhausts fun line : Recorded => line.queue.length where
  send {line rest now octets answer} h := by
    have hqueue := queue_send line octets
    simp only [Line.send, Prod.mk.injEq] at h
    simp [← h.1, hqueue]
  receive {line rest now answer} h := by
    have hqueue := queue_receive line 1
    simp only [Line.receive, Prod.mk.injEq] at h
    rw [← h.1, hqueue]
    split
    · exact Nat.le_refl _
    · exact length_take_le 1 line.queue
  receive_lt {line rest now time octets} h := by
    have hqueue := queue_receive line 1
    have hresult := receive_result line 1
    simp only [Line.receive, Prod.mk.injEq, Option.some.injEq, Answer.mk.injEq] at h
    obtain ⟨rfl, -, h⟩ := h
    rw [h] at hresult
    rw [hqueue]
    split at hresult
    · simp at hresult
    · rename_i hopen
      rw [if_neg hopen]
      exact length_take_lt hresult.symm
  close line := Nat.le_refl _

/-- An open line with exactly these octets in its queue and no limit for its sends. -/
structure Holds (line : Recorded) (octets : Bytes) : Prop where
  isOpen : line.isClosed = false
  limit : line.sendLimit = none
  queue : line.queue = octets.map Item.octet

theorem Holds.send {line : Recorded} {octets : Bytes} (h : line.Holds octets) (now : Nat)
    (chunk : Bytes) :
    ∃ next, Line.send line now chunk = (next, ⟨now, .ok ()⟩) ∧ next.Holds octets ∧
      next.latest = chunk :: line.latest := by
  have hopen : ¬ line.isClosed = true := by simp [h.isOpen]
  refine ⟨{ line with latest := chunk :: line.latest, sends := line.sends + 1 }, ?_,
    ⟨h.isOpen, h.limit, h.queue⟩, rfl⟩
  simp only [Line.send, send_of_none hopen h.limit]

theorem Holds.receive_nil {line : Recorded} (h : line.Holds []) (now : Nat) :
    ∃ next, Line.receive line now 1 = (next, some ⟨now, .error .peerClosed⟩) ∧
      next.Holds [] ∧ next.latest = line.latest := by
  have hopen : ¬ line.isClosed = true := by simp [h.isOpen]
  have hqueue : line.queue = [] := h.queue
  refine ⟨{ line with receives := line.receives + 1, queue := [] }, ?_,
    ⟨h.isOpen, h.limit, rfl⟩, rfl⟩
  simp only [Line.receive, Recorded.receive, if_neg hopen, hqueue, take]

theorem Holds.receive_cons {line : Recorded} {octet : UInt8} {later : Bytes}
    (h : line.Holds (octet :: later)) (now : Nat) :
    ∃ next, Line.receive line now 1 = (next, some ⟨now, .ok [octet]⟩) ∧
      next.Holds later ∧ next.latest = line.latest := by
  have hopen : ¬ line.isClosed = true := by simp [h.isOpen]
  refine ⟨{ line with
    receives := line.receives + 1, queue := later.map Item.octet }, ?_,
    ⟨h.isOpen, h.limit, rfl⟩, rfl⟩
  simp only [Line.receive, Recorded.receive, if_neg hopen, h.queue, List.map_cons,
    take_one_octet]

end Recorded

namespace Run

variable {σ : Type} [Dialogue σ]

/-- A recorded line never leaves a session without an answer. -/
theorem agenda_ne_stuck (pacing : Pacing) {r : Run σ Recorded} (h : r.agenda ≠ .stuck)
    (count : Nat) : (r.steps pacing count).agenda ≠ .stuck := by
  refine steps_induction (fun r => r.agenda ≠ .stuck) (fun {r s} hr hmove => ?_) h count
  cases hmove with
  | unanswered hagenda hcue hreceive => simp [Line.receive] at hreceive
  | _ => simp

variable [Dialogue.Lawful σ]

theorem exists_done (pacing : Pacing) {r : Run σ Recorded} (h : r.agenda ≠ .stuck)
    {count : Nat}
    (hcount : r.line.queue.length * Dialogue.stride σ + r.distance ≤ count) :
    ∃ loss, (r.steps pacing count).agenda = .done loss := by
  have hover := isOver_steps pacing Recorded.exhausts count r hcount
  have hstuck := agenda_ne_stuck pacing h count
  cases hagenda : (r.steps pacing count).agenda with
  | done loss => exact ⟨loss, rfl⟩
  | stuck => exact absurd hagenda hstuck
  | play rest => simp [isOver, hagenda] at hover
  | turn next => simp [isOver, hagenda] at hover
  | leave loss => simp [isOver, hagenda] at hover

end Run

/-- A session on a recorded line always ends. -/
theorem Recorded.exists_returns (program : Program) (options : Options) (line : Recorded) :
    ∃ outcome, program.Returns options line outcome := by
  obtain ⟨σ, _, _, start, hrun⟩ := program.exists_dialogue options
  have hbegin : (Run.begin start line 0).agenda ≠ .stuck := by
    simp [Run.begin]
  obtain ⟨loss, hdone⟩ := Run.exists_done options.pacing hbegin (Nat.le_refl _)
  have hreport := congrArg Option.isSome (Run.report?_of_done hdone)
  exact ⟨_, Program.returns_of_steps (hrun options.pacing line).1 hreport⟩

end TerminalHost
