import TerminalHost.Proofs.Line.Reading
import TerminalHost.Proofs.Line.Recorded
import TerminalHost.Proofs.Line.Writing
import TerminalHost.Proofs.Session.Cut

/-!
# Lines with a limit

A recorded line can be told to refuse every send after so many, and a stream every octet
after so many.  Either cut shows as much of the session as the limit allows, chunk by
chunk or octet by octet, and nothing else.
-/

namespace TerminalHost

/-- How a session on the line `cut`, which takes only `limit` of what is sent and fails
with `lost` from then on, looks beside the session on the line `whole`. -/
structure Program.CutsOff {ℓ α : Type} [Line ℓ] (program : Program) (options : Options)
    (taken : ℓ → List α) (sent : Bytes → List α) (limit : Nat) (lost : Loss)
    (whole cut : ℓ) : Prop where
  /-- No send fails on the whole line. -/
  sends_whole (patience : Nat) {chunk : Bytes} {result : Except Loss Unit}
    (hmem : .send chunk result ∈ program.calls options none patience whole) : result = .ok ()
  /-- What the whole line has taken is what the session has sent. -/
  taken_whole (patience : Nat) :
    taken (program.run options none patience whole).line
      = (Call.delivered (program.calls options none patience whole)).flatMap sent
  taken_run (patience : Nat) :
    taken (program.run options none patience cut).line
      = (taken (program.run options none patience whole).line).take limit
  report_run {patience : Nat}
    (h : (taken (program.run options none patience whole).line).length ≤ limit) :
    (program.run options none patience cut).report
      = (program.run options none patience whole).report
  /-- The cut lies within one send, and the session stands where it stood before it. -/
  lost_run {patience : Nat}
    (h : limit < (taken (program.run options none patience whole).line).length) :
    ∃ outcome count send, program.Returns options cut outcome ∧
      taken outcome.line
        = (taken (program.run options none patience whole).line).take limit ∧
      program.pendingSend? options whole count = some send ∧
      (taken send.line).length ≤ limit ∧
      limit < (taken send.line ++ sent send.chunk).length ∧
      (taken send.line ++ sent send.chunk)
        <+: taken (program.run options none patience whole).line ∧
      outcome.report = some (send.standing.lostBy lost)

theorem Program.cutsOff_of_same {ℓ α : Type} [Line ℓ] {Same : ℓ → ℓ → Prop}
    {Whole Open : ℓ → Prop} {taken : ℓ → List α} {sent : Bytes → List α} {limit : Nat}
    {lost : Loss} (hcut : Line.Cut Same Whole taken sent limit lost)
    (htakes : Line.Takes Open taken sent) (program : Program) (options : Options)
    {whole cut : ℓ} (h : Same whole cut) (hopen : Open whole) (hnew : taken whole = []) :
    program.CutsOff options taken sent limit lost whole cut := by
  have hdelivers := program.delivers_run htakes options hopen hnew
  obtain ⟨σ, _, _, start, hrun⟩ := program.exists_dialogue options
  obtain ⟨hwhole, hpending⟩ := hrun options.pacing whole
  have hlimited := (hrun options.pacing cut).1
  have htwin : Run.Twin Same (Run.begin start whole 0) (Run.begin start cut 0) :=
    ⟨rfl, rfl, rfl, h⟩
  have hsteps (patience : Nat) (line : ℓ) :
      (Run.begin start line 0).runOut options.pacing none patience
        = (Run.begin start line 0).steps options.pacing
            ((patience + 1) * Dialogue.stride σ) := Run.runUntil_none _ _ _
  refine ⟨fun patience => (hdelivers patience).1 _ _, fun patience => (hdelivers patience).2,
    fun patience => ?_, fun {patience} hle => ?_, fun {patience} hlt => ?_⟩
  · rw [hlimited, hwhole, hsteps, hsteps]
    exact htwin.taken_steps hcut options.pacing _
  · rw [hwhole, hsteps] at hle
    rw [hlimited, hwhole, hsteps, hsteps]
    have hsame := htwin.steps_of_le hcut options.pacing hle
    show Run.report? _ = Run.report? _
    simp only [Run.report?, hsame.agenda, hsame.state]
  · rw [hwhole, hsteps] at hlt ⊢
    obtain ⟨before, send, hsend, hle, hpast, hprefix, hreport, htaken⟩ :=
      htwin.exists_lost hcut options.pacing hlt
    have hsome := congrArg Option.isSome hreport
    exact ⟨_, before, send, returns_of_steps hlimited hsome, htaken,
      (hpending before).trans hsend, hle, hpast, hprefix, hreport⟩

theorem Program.whole_run {ℓ α : Type} [Line ℓ] {Same : ℓ → ℓ → Prop}
    {Whole : ℓ → Prop} {taken : ℓ → List α} {sent : Bytes → List α} {limit : Nat}
    {lost : Loss} (hcut : Line.Cut Same Whole taken sent limit lost) (program : Program)
    (options : Options) {line : ℓ} (h : Whole line) (patience : Nat) :
    Whole (program.run options none patience line).line := by
  obtain ⟨σ, _, _, start, hrun⟩ := program.exists_dialogue options
  have hbegin : Whole (Run.begin start line 0).line := h
  rw [(hrun options.pacing line).1, Run.runOut, Run.runUntil_none]
  exact (Run.whole_steps hcut options.pacing hbegin _).1

/-! ## Recorded lines -/

namespace Recorded

/-- A line without a limit that has counted the chunks it holds. -/
structure Counted (line : Recorded) : Prop where
  limit : line.sendLimit = none
  sends : line.sends = line.latest.length

structure Limited (limit : Nat) (whole cut : Recorded) : Prop where
  eq : cut = whole.failAfter limit
  counted : whole.Counted
  le : whole.sends ≤ limit

theorem Counted.send {line : Recorded} (h : line.Counted) (octets : Bytes) :
    (line.send octets).1.Counted ∧
      ((line.send octets).1.chunks = line.chunks ∨
        (line.send octets).1.chunks = line.chunks ++ [octets]) := by
  by_cases hopen : line.isClosed = true
  · rw [send_of_isClosed hopen]
    exact ⟨h, .inl rfl⟩
  · rw [send_of_none hopen h.limit]
    refine ⟨⟨h.limit, ?_⟩, .inr ?_⟩
    · simp [h.sends]
    · simp [chunks]

theorem Counted.receive {line : Recorded} (h : line.Counted) (most : Nat) :
    (line.receive most).1.Counted ∧ (line.receive most).1.chunks = line.chunks := by
  unfold Recorded.receive
  by_cases hopen : line.isClosed = true
  · rw [if_pos hopen]
    exact ⟨⟨h.limit, h.sends⟩, rfl⟩
  · rw [if_neg hopen]
    exact ⟨⟨h.limit, h.sends⟩, rfl⟩

theorem takes_unlimited :
    Line.Takes (fun line : Recorded => line.isClosed = false ∧ line.sendLimit = none) chunks
      (fun chunk => [chunk]) where
  send {line} h now octets := by
    have hsend : line.send octets = _ := send_of_none (by simp [h.1]) h.2 octets
    simp only [Line.send, hsend]
    exact ⟨h, trivial, List.reverse_cons⟩
  receive {line} h now := by
    have hopen : ¬ line.isClosed = true := by simp [h.1]
    simp only [Line.receive, Recorded.receive_of_open hopen]
    exact ⟨h, rfl⟩
  close _ := rfl

theorem Limited.send {limit : Nat} {whole cut : Recorded} (h : Limited limit whole cut)
    (octets : Bytes) :
    (Limited limit (whole.send octets).1 (cut.send octets).1 ∧
      (whole.send octets).2 = (cut.send octets).2) ∨
    ((cut.send octets).2 = .error (.fault (Fault.ofKind .brokenPipe)) ∧
      limit < (whole.send octets).1.chunks.length ∧
      (cut.send octets).1.chunks = (whole.send octets).1.chunks.take limit) := by
  obtain ⟨rfl, hcounted, hle⟩ := h
  by_cases hopen : whole.isClosed = true
  · left
    have hopen' : (whole.failAfter limit).isClosed = true := hopen
    rw [send_of_isClosed hopen, send_of_isClosed hopen']
    exact ⟨⟨rfl, hcounted, hle⟩, rfl⟩
  · have hopen' : ¬ (whole.failAfter limit).isClosed = true := hopen
    have hlength : whole.chunks.length = whole.sends := by
      rw [hcounted.sends, chunks, List.length_reverse]
    have hmore := (hcounted.send octets).1
    rw [send_of_none hopen hcounted.limit] at hmore ⊢
    by_cases hspent : limit ≤ whole.sends
    · right
      have hspent' : (whole.failAfter limit).isSpent = true := decide_eq_true hspent
      have hsend : (whole.failAfter limit).send octets
          = (whole.failAfter limit, .error (.fault (Fault.ofKind .brokenPipe))) := by
        rw [Recorded.send, if_neg hopen', if_pos hspent']
      have hchunks : chunks { whole with
          latest := octets :: whole.latest, sends := whole.sends + 1 }
            = whole.chunks ++ [octets] := by
        simp [chunks]
      have hall : whole.chunks.take limit = whole.chunks :=
        List.take_of_length_le (by omega)
      rw [hsend, hchunks, List.take_append_of_le_length (by omega), hall]
      refine ⟨rfl, ?_, rfl⟩
      simp only [List.length_append, List.length_singleton]
      omega
    · left
      have hspent' : ¬ (whole.failAfter limit).isSpent = true :=
        Bool.not_eq_true _ ▸ decide_eq_false hspent
      rw [Recorded.send, if_neg hopen', if_neg hspent']
      exact ⟨⟨rfl, hmore, Nat.lt_of_not_le hspent⟩, rfl⟩

theorem receive_failAfter (limit : Nat) (line : Recorded) (most : Nat) :
    (line.failAfter limit).receive most
      = ((line.receive most).1.failAfter limit, (line.receive most).2) := by
  by_cases hopen : line.isClosed = true <;> simp [Recorded.receive, failAfter, hopen]

theorem cut_failAfter (limit : Nat) :
    Line.Cut (Limited limit) Counted chunks (fun chunk => [chunk]) limit
      (.fault (Fault.ofKind .brokenPipe)) where
  whole h := h.counted
  taken_eq h := by
    rw [h.eq]
    rfl
  taken_le h := by
    have hle := h.le
    rw [h.counted.sends] at hle
    simpa [chunks] using hle
  send h now octets := by
    simp only [Line.send, Answer.mk.injEq, true_and]
    exact h.send octets
  receive {whole cut} h now := by
    obtain ⟨rfl, hcounted, hle⟩ := h
    have hsends : (whole.receive 1).1.sends = whole.sends := by
      by_cases hopen : whole.isClosed = true <;> simp [Recorded.receive, hopen]
    simp only [Line.receive, receive_failAfter]
    exact ⟨⟨rfl, (hcounted.receive 1).1, hsends ▸ hle⟩, trivial⟩
  close {whole cut} h := by
    obtain ⟨rfl, hcounted, hle⟩ := h
    exact ⟨rfl, ⟨hcounted.limit, hcounted.sends⟩, hle⟩
  taken_close _ := rfl
  whole_send h now octets := h.send octets
  whole_receive h now := h.receive 1
  whole_close h := ⟨h.limit, h.sends⟩

end Recorded

/-! ## Lines over scripted streams -/

namespace StreamLine

/-- The same line over a stream that takes so many octets in total, and then none. -/
def refuseAfter (line : StreamLine Scripted) (limit : Nat) (fault : Fault) :
    StreamLine Scripted :=
  { line with stream := { line.stream with writeFault := some (limit, fault) } }

/-- A line that takes everything, and that has flushed and counted all it has taken. -/
structure Settled (line : StreamLine Scripted) : Prop where
  sound : line.stream.Sound
  writes : line.stream.writeFault = none
  flushed : line.stream.unflushed = []
  counted : line.stream.written = line.stream.accepted.length

structure Limited (limit : Nat) (fault : Fault) (whole cut : StreamLine Scripted) :
    Prop where
  eq : cut = whole.refuseAfter limit fault
  settled : whole.Settled
  le : whole.stream.written ≤ limit

theorem send_of_not_isOpen {line : StreamLine Scripted} (h : ¬ line.isOpen = true)
    (now : Nat) (octets : Bytes) : line.send now octets = (line, ⟨now, .error .closed⟩) := by
  rw [send, if_neg h]

theorem Settled.send_eq {line : StreamLine Scripted} (h : line.Settled)
    (hopen : line.isOpen = true) (now : Nat) (octets : Bytes) :
    line.send now octets
      = ({ line with stream := line.stream.sendOff octets },
        ⟨now + line.sendDelay.ticks, .ok ()⟩) :=
  send_all hopen h.sound (Scripted.takes_of_none h.writes octets.length) now

theorem Settled.send {line : StreamLine Scripted} (h : line.Settled) (now : Nat)
    (octets : Bytes) :
    (line.send now octets).1.Settled ∧
      ((line.send now octets).1.stream.accepted = line.stream.accepted ∨
        (line.send now octets).1.stream.accepted = line.stream.accepted ++ octets) := by
  by_cases hopen : line.isOpen = true
  · rw [h.send_eq hopen]
    refine ⟨⟨h.sound.sendOff octets, h.writes, rfl, ?_⟩, .inr ?_⟩
    · rw [Scripted.accepted_sendOff, List.length_append, ← h.counted]
      rfl
    · exact Scripted.accepted_sendOff line.stream octets
  · rw [send_of_not_isOpen hopen]
    exact ⟨h, .inl rfl⟩

theorem Limited.send {limit : Nat} {fault : Fault} {whole cut : StreamLine Scripted}
    (h : Limited limit fault whole cut) (now : Nat) (octets : Bytes) :
    (Limited limit fault (whole.send now octets).1 (cut.send now octets).1 ∧
      (whole.send now octets).2 = (cut.send now octets).2) ∨
    ((cut.send now octets).2 = ⟨now, .error (.fault fault)⟩ ∧
      limit < (whole.send now octets).1.stream.accepted.length ∧
      (cut.send now octets).1.stream.accepted
        = (whole.send now octets).1.stream.accepted.take limit) := by
  obtain ⟨rfl, hsettled, hle⟩ := h
  by_cases hopen : whole.isOpen = true
  · have hopen' : (whole.refuseAfter limit fault).isOpen = true := hopen
    have hsound' : (whole.refuseAfter limit fault).stream.Sound :=
      ⟨hsettled.sound.room, hsettled.sound.flushes⟩
    have hfault : (whole.refuseAfter limit fault).stream.writeFault = some (limit, fault) :=
      rfl
    have hmore := (hsettled.send now octets).1
    rw [hsettled.send_eq hopen] at hmore ⊢
    by_cases hroom : whole.stream.written + octets.length ≤ limit
    · left
      have htakes : (whole.refuseAfter limit fault).stream.Takes octets.length := by
        intro limit' fault' hfault'
        rw [hfault, Option.some.injEq, Prod.mk.injEq] at hfault'
        exact hfault'.1 ▸ hroom
      rw [send_all hopen' hsound' htakes now]
      exact ⟨⟨rfl, hmore, hroom⟩, rfl⟩
    · right
      have hcounted := hsettled.counted
      have hall : whole.stream.accepted.take limit = whole.stream.accepted :=
        List.take_of_length_le (by omega)
      rw [send_part hopen' hsound' hfault hle (by exact Nat.lt_of_not_le hroom)]
      refine ⟨rfl, ?_, ?_⟩
      · simp only [Scripted.accepted_sendOff, List.length_append]
        omega
      · simp only [Scripted.accepted_sendOff, Scripted.accepted_accept]
        rw [List.take_append, hall, ← hcounted]
        rfl
  · left
    have hopen' : ¬ (whole.refuseAfter limit fault).isOpen = true := hopen
    rw [send_of_not_isOpen hopen, send_of_not_isOpen hopen']
    exact ⟨⟨rfl, hsettled, hle⟩, rfl⟩

/-- What a line answers to a receive does not depend on how far it can be written. -/
theorem receive_refuseAfter (line : StreamLine Scripted) (limit : Nat) (fault : Fault)
    (now : Nat) :
    Line.receive (line.refuseAfter limit fault) now 1
      = ((Line.receive line now 1).1.refuseAfter limit fault,
        (Line.receive line now 1).2) := by
  by_cases hopen : line.isOpen = true
  · have hopen' : (line.refuseAfter limit fault).isOpen = true := hopen
    rw [receive_eq hopen, receive_eq hopen']
    simp only [refuseAfter, ByteStream.read, Scripted.read]
    generalize Scripted.readEvents line.stream.staysOpen (max 1 1)
      (line.readTimeout.map (now + ·.ticks)) now line.stream.events = read
    rcases read with ⟨events, _ | answer⟩ <;> rfl
  · have hopen' : ¬ (line.refuseAfter limit fault).isOpen = true := hopen
    rw [receive_of_not_isOpen hopen, receive_of_not_isOpen hopen']

theorem Settled.receive {line : StreamLine Scripted} (h : line.Settled) (now : Nat) :
    (Line.receive line now 1).1.Settled ∧
      (Line.receive line now 1).1.stream.accepted = line.stream.accepted ∧
      (Line.receive line now 1).1.stream.written = line.stream.written := by
  obtain ⟨events, hevents⟩ := exists_withEvents line now 1
  rw [hevents]
  exact ⟨⟨⟨h.sound.room, h.sound.flushes⟩, h.writes, h.flushed, h.counted⟩, rfl, rfl⟩

theorem takes_settled :
    Line.Takes (fun line : StreamLine Scripted => line.isOpen = true ∧ line.Settled)
      (fun line => line.stream.accepted) id where
  send {line} h now octets := by
    have hsettled := (h.2.send now octets).1
    rw [h.2.send_eq h.1] at hsettled
    have hsend : Line.send line now octets = _ := h.2.send_eq h.1 now octets
    rw [hsend]
    exact ⟨⟨h.1, hsettled⟩, rfl, Scripted.accepted_sendOff _ _⟩
  receive {line} h now := by
    obtain ⟨events, hevents⟩ := exists_withEvents line now 1
    have hsettled := h.2.receive now
    refine ⟨⟨?_, hsettled.1⟩, hsettled.2.1⟩
    rw [hevents]
    exact h.1
  close := accepted_close

theorem Settled.close {line : StreamLine Scripted} (h : line.Settled) :
    (Line.close line).1.Settled := by
  rw [close_eq]
  split
  · exact ⟨⟨h.sound.room, h.sound.flushes⟩, h.writes, h.flushed, h.counted⟩
  · exact h

theorem cut_refuseAfter (limit : Nat) (fault : Fault) :
    Line.Cut (Limited limit fault) Settled (fun line => line.stream.accepted) id limit
      (.fault fault) where
  whole h := h.settled
  taken_eq h := by
    rw [h.eq]
    rfl
  taken_le h := by
    rw [← h.settled.counted]
    exact h.le
  send h now octets := h.send now octets
  receive {whole cut} h now := by
    obtain ⟨rfl, hsettled, hle⟩ := h
    obtain ⟨hreceived, -, hwritten⟩ := hsettled.receive now
    rw [receive_refuseAfter]
    exact ⟨⟨rfl, hreceived, hwritten ▸ hle⟩, rfl⟩
  close {whole cut} h := by
    obtain ⟨rfl, hsettled, hle⟩ := h
    refine ⟨?_, hsettled.close, ?_⟩
    · rw [close_eq, close_eq]
      by_cases hopen : whole.isOpen = true
      · rw [if_pos hopen, if_pos (by exact hopen)]
        rfl
      · rw [if_neg hopen, if_neg (by exact hopen)]
    · rw [close_eq]
      split <;> exact hle
  taken_close := accepted_close
  whole_send h now octets := h.send now octets
  whole_receive h now := ⟨(h.receive now).1, (h.receive now).2.1⟩
  whole_close h := h.close

/-- An open line on which nothing has been sent yet, and which takes everything. -/
structure Fresh (line : StreamLine Scripted) : Prop where
  isOpen : line.isOpen = true
  sound : line.stream.Sound
  writes : line.stream.writeFault = none
  unflushed : line.stream.unflushed = []
  latest : line.stream.latest = []
  written : line.stream.written = 0

theorem Fresh.accepted {line : StreamLine Scripted} (h : line.Fresh) :
    line.stream.accepted = [] := by
  rw [Scripted.accepted, Scripted.chunks, h.latest, h.unflushed]
  rfl

theorem Fresh.limited {line : StreamLine Scripted} (h : line.Fresh) (limit : Nat)
    (fault : Fault) : Limited limit fault line (line.refuseAfter limit fault) := by
  refine ⟨rfl, ⟨h.sound, h.writes, h.unflushed, ?_⟩, ?_⟩
  · rw [h.accepted, h.written]
    rfl
  · rw [h.written]
    exact Nat.zero_le limit

end StreamLine

theorem Recorded.limited_push (items : List Item) (limit : Nat) :
    Limited limit (empty.push items) ((empty.push items).failAfter limit) :=
  ⟨rfl, ⟨rfl, rfl⟩, Nat.zero_le limit⟩

/-- **A cut shows a prefix of the session.**  Without a cut no send fails, and the line takes
the chunks of all sends in order.  On a recorded line that takes so many chunks the session
sends the first of these chunks; on a stream that takes so many octets it sends the first of
their octets.  If that is everything, the report is the same.  If not, the report is the
standing before the send in which the cut lies, with the fault of that send. -/
theorem cutsOff_of_limit (program : Program) (options : Options) :
    (∀ (items : List Item) (limit : Nat),
      (∃ whole, program.Returns options (Recorded.empty.push items) whole) ∧
      program.CutsOff options Recorded.chunks (fun chunk => [chunk]) limit
        (.fault (Fault.ofKind .brokenPipe))
        (Recorded.empty.push items) ((Recorded.empty.push items).failAfter limit)) ∧
    ∀ (line : StreamLine Scripted) (limit : Nat) (fault : Fault), line.Fresh →
      (∀ patience,
        (program.run options none patience line).line.stream.accepted
          = (program.run options none patience line).line.stream.chunks.flatten) ∧
      program.CutsOff options (fun line => line.stream.accepted) id limit (.fault fault)
        line (line.refuseAfter limit fault) := by
  refine ⟨fun items limit => ⟨?_, ?_⟩, fun line limit fault hfresh => ⟨fun patience => ?_, ?_⟩⟩
  · exact Recorded.exists_returns program options _
  · exact program.cutsOff_of_same (Recorded.cut_failAfter limit) Recorded.takes_unlimited
      options (Recorded.limited_push items limit) ⟨rfl, rfl⟩ rfl
  · have hsettled := program.whole_run (StreamLine.cut_refuseAfter limit fault) options
      (hfresh.limited limit fault).settled patience
    rw [Scripted.accepted, hsettled.flushed, List.append_nil]
  · have hlimited := hfresh.limited limit fault
    exact program.cutsOff_of_same (StreamLine.cut_refuseAfter limit fault)
      StreamLine.takes_settled options hlimited ⟨hfresh.isOpen, hlimited.settled⟩
      hfresh.accepted

/-- A line that is cut in the middle of a session: a few keys come, and a write takes at
most seven octets. -/
def StreamLine.narrow : StreamLine Scripted :=
  ⟨{ Scripted.ofEvents [.bytes [0x4C, 0x49, 0x4F, 0x4E], .delay 20, .bytes [0x4E]] with
      writeRoom := some 7 },
    true, "narrow", Duration.ofMillis 10, none⟩

theorem StreamLine.fresh_narrow : narrow.Fresh :=
  ⟨rfl, ⟨by decide, rfl⟩, rfl, rfl, rfl, rfl⟩

theorem cutsOff_narrow :
    StreamLine.narrow.Fresh ∧
    Program.game.CutsOff Options.usual (fun line => line.stream.accepted) id 1000
      (.fault (Fault.ofKind .connectionReset)) StreamLine.narrow
      (StreamLine.narrow.refuseAfter 1000 (Fault.ofKind .connectionReset)) :=
  ⟨StreamLine.fresh_narrow,
    ((cutsOff_of_limit .game Options.usual).2 StreamLine.narrow 1000
      (Fault.ofKind .connectionReset) StreamLine.fresh_narrow).2⟩

end TerminalHost
