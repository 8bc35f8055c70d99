import TerminalHost.Proofs.Line.Reading
import TerminalHost.Proofs.Line.Recorded
import TerminalHost.Proofs.Line.Writing

/-!
# Timing and chunking do not matter

A session on a stream that brings certain octets does what a session does on a recorded
line with these octets in its queue.  Neither how the octets are cut into pieces nor how
long they keep the session waiting can be seen in what it sends or reports.

The session on the stream may listen more often, because a receive can find nothing yet.
Such a receive leaves the program where it is and uses up something of what the stream
has still to give, so the two sessions fall into step again.
-/

namespace TerminalHost

theorem Duration.ticks_pos {d : Duration} (h : 0 < d.nanos) : 0 < d.ticks := by
  unfold ticks
  omega

namespace StreamLine

/-- A line over a stream that takes whatever is sent, and that brings exactly these
octets before it ends. -/
structure Feeds (line : StreamLine Scripted) (octets : Bytes) : Prop where
  isOpen : line.isOpen = true
  timeout {timeout : Duration} (h : line.readTimeout = some timeout) : 0 < timeout.nanos
  sound : line.stream.Sound
  writes : line.stream.writeFault = none
  flushed : line.stream.unflushed = []
  carries : Carries line.stream.staysOpen line.stream.events octets

theorem Feeds.withEvents {line : StreamLine Scripted} {octets later : Bytes}
    {events : List ReadEvent} (h : line.Feeds octets)
    (hevents : Carries line.stream.staysOpen events later) :
    (line.withEvents events).Feeds later :=
  ⟨h.isOpen, h.timeout, ⟨h.sound.room, h.sound.flushes⟩, h.writes, h.flushed, hevents⟩

theorem Feeds.send {line : StreamLine Scripted} {octets : Bytes} (h : line.Feeds octets)
    (now : Nat) (chunk : Bytes) :
    ∃ next, Line.send line now chunk = (next, ⟨now + line.sendDelay.ticks, .ok ()⟩) ∧
      next.Feeds octets ∧ next.stream.latest = chunk :: line.stream.latest ∧
      next.stream.events = line.stream.events := by
  have hsend := send_all h.isOpen h.sound (Scripted.takes_of_none h.writes chunk.length) now
  refine ⟨{ line with stream := line.stream.sendOff chunk }, hsend, ?_, ?_, rfl⟩
  · exact ⟨h.isOpen, h.timeout, h.sound.sendOff chunk, h.writes, rfl, h.carries⟩
  · simp [Scripted.sendOff, h.flushed]

inductive Answered (line : StreamLine Scripted) (now : Nat) (octets : Bytes) :
    StreamLine Scripted × Option (Answer Bytes) → Prop where
  | ended {events : List ReadEvent} {time : Nat} (hnil : octets = []) :
      Answered line now octets
        (line.withEvents events, some ⟨time, .error .peerClosed⟩)
  | got {events : List ReadEvent} {time : Nat} {octet : UInt8} {later : Bytes}
      (hsplit : octets = octet :: later) (hfeeds : (line.withEvents events).Feeds later) :
      Answered line now octets (line.withEvents events, some ⟨time, .ok [octet]⟩)
  | nothingYet {events : List ReadEvent} {time : Nat}
      (hfeeds : (line.withEvents events).Feeds octets)
      (hless : Scripted.pending time events < Scripted.pending now line.stream.events) :
      Answered line now octets (line.withEvents events, some ⟨time, .ok []⟩)

theorem Feeds.receive {line : StreamLine Scripted} {octets : Bytes}
    (h : line.Feeds octets) (now : Nat) :
    line.Answered now octets (Line.receive line now 1) := by
  have hmet := Scripted.met_readEvents Nat.one_pos
    (line.readTimeout.map (now + ·.ticks)) now h.carries
  rw [receive_eq h.isOpen]
  have hread : ByteStream.read line.stream now (max 1 1)
      (line.readTimeout.map (now + ·.ticks))
        = ({ line.stream with events := (Scripted.readEvents line.stream.staysOpen 1
              (line.readTimeout.map (now + ·.ticks)) now line.stream.events).1 },
            (Scripted.readEvents line.stream.staysOpen 1
              (line.readTimeout.map (now + ·.ticks)) now line.stream.events).2) := rfl
  rw [hread]
  generalize Scripted.readEvents line.stream.staysOpen 1
    (line.readTimeout.map (now + ·.ticks)) now line.stream.events = read at hmet ⊢
  cases hmet with
  | ended left time hnil => exact .ended hnil
  | got left time hsplit hne hlength hleft =>
    rename_i taken later
    obtain ⟨octet, rfl⟩ : ∃ octet, taken = [octet] := by
      have hpos := List.length_pos_iff.mpr hne
      exact List.length_eq_one_iff.mp (by omega)
    exact .got hsplit (h.withEvents hleft)
  | @timedOut left time fault hkind hleft hless =>
    have hheard : heard (.error fault) = .ok [] := by simp only [heard, hkind, if_true]
    simp only [hheard]
    exact .nothingYet (h.withEvents hleft) hless
  | @givenUp left limit hlimit hleft hless =>
    obtain ⟨timeout, htimeout, rfl⟩ := Option.map_eq_some_iff.mp hlimit
    have hpos := Duration.ticks_pos (h.timeout htimeout)
    have hpending := hless (Nat.le_add_right now timeout.ticks)
    have hfewer : Scripted.pending (now + timeout.ticks) left
        < Scripted.pending now line.stream.events := by omega
    show line.Answered now octets (line.withEvents left,
      (line.readTimeout.map (now + ·.ticks)).map fun deadline => ⟨deadline, .ok []⟩)
    rw [hlimit]
    exact .nothingYet (h.withEvents hleft) hfewer

end StreamLine

namespace Run

variable {σ : Type} [Dialogue σ]

/-- A run on a stream stands where a run on a recorded line stands: the same scene, the
same chunks on the way, and the same octets still to come. -/
structure Follows (earlier : List Bytes) (r : Run σ (StreamLine Scripted))
    (q : Run σ Recorded) : Prop where
  state : r.state = q.state
  agenda : r.agenda = q.agenda
  latest : r.line.stream.latest = q.line.latest ++ earlier
  lines : q.isTalking = true → ∃ octets, r.line.Feeds octets ∧ q.line.Holds octets

variable {earlier : List Bytes} {r : Run σ (StreamLine Scripted)} {q : Run σ Recorded}
variable (slow fast : Pacing)

theorem Follows.step_send (h : Follows earlier r q) {parts : List Part} {rest : Script}
    (hagenda : q.agenda = .play (.send parts :: rest)) :
    Follows earlier (r.step slow) (q.step fast) := by
  obtain ⟨octets, hfeeds, hholds⟩ := h.lines (by simp [isTalking, hagenda])
  obtain ⟨next, hsend, hnext, hlatest, -⟩ := hfeeds.send r.now (Step.chunk parts)
  obtain ⟨next', hsend', hnext', hlatest'⟩ := hholds.send q.now (Step.chunk parts)
  have hr : r.step slow = _ := (Move.sent (h.agenda.trans hagenda) hsend).step_eq
  have hq : q.step fast = _ := (Move.sent hagenda hsend').step_eq
  rw [hr, hq]
  refine ⟨h.state, rfl, ?_, fun _ => ⟨octets, hnext, hnext'⟩⟩
  rw [hlatest, hlatest', h.latest, List.cons_append]

/-- What both runs do without their lines. -/
theorem Follows.step_alone (h : Follows earlier r q) (htalking : q.isTalking = true)
    {r' : Run σ (StreamLine Scripted)} {q' : Run σ Recorded} (hr : Move slow r r')
    (hq : Move fast q q') (hrline : r'.line = r.line) (hqline : q'.line = q.line)
    (hstate : r'.state = q'.state) (hagenda : r'.agenda = q'.agenda) :
    Follows earlier (r.step slow) (q.step fast) := by
  rw [hr.step_eq, hq.step_eq]
  refine ⟨hstate, hagenda, ?_, fun _ => ?_⟩
  · rw [hrline, hqline, h.latest]
  · rw [hrline, hqline]
    exact h.lines htalking

theorem Follows.step_leave (h : Follows earlier r q) {loss : Option Loss}
    (hagenda : q.agenda = .leave loss) :
    Follows earlier (r.step slow) (q.step fast) := by
  have hr : r.step slow = _ := (Move.left (h.agenda.trans hagenda)).step_eq
  have hq : q.step fast = _ := (Move.left hagenda).step_eq
  have hlatest : (Line.close r.line).1.stream.latest = r.line.stream.latest := by
    simp only [Line.close, StreamLine.close]
    split
    · split <;> rename_i hclose <;> simp only [ByteStream.shutdown, Scripted.shutdown,
        Prod.mk.injEq] at hclose <;> rw [← hclose.1]
    · rfl
  rw [hr, hq]
  refine ⟨h.state, rfl, ?_, fun htalking => ?_⟩
  · exact hlatest.trans h.latest
  · simp [isTalking] at htalking

variable [Dialogue.Lawful σ]

theorem Follows.exists_listen (h : Follows earlier r q) (hagenda : q.agenda = .play [])
    {hear : Bytes → σ} (hcue : Dialogue.cue q.state = .listen hear) :
    ∃ count, Follows earlier (r.steps slow count) (q.step fast) := by
  -- The induction is on what the stream has still to give: a receive that finds nothing
  -- yet leaves less of it and brings the run back to the same cue.
  induction hpending : Scripted.pending r.now r.line.stream.events
    using Nat.strongRecOn generalizing r with
  | ind pending ih =>
    obtain ⟨octets, hfeeds, hholds⟩ := h.lines (by simp [isTalking, hagenda])
    have hcue' : Dialogue.cue r.state = .listen hear := by rw [h.state, hcue]
    have hagenda' : r.agenda = .play [] := h.agenda.trans hagenda
    have hanswered := hfeeds.receive r.now
    generalize hreceive : Line.receive r.line r.now 1 = received at hanswered
    cases hanswered with
    | ended hnil =>
      subst hnil
      obtain ⟨next, hreceive', -, hlatest⟩ := hholds.receive_nil q.now
      have hr : r.step slow = _ := (Move.unheard hagenda' hcue' hreceive).step_eq
      have hq : q.step fast = _ := (Move.unheard hagenda hcue hreceive').step_eq
      refine ⟨1, ?_⟩
      show Follows earlier (r.step slow) (q.step fast)
      rw [hr, hq]
      refine ⟨h.state, rfl, ?_, fun htalking => ?_⟩
      · rw [hlatest]
        exact h.latest
      · simp [isTalking] at htalking
    | @got events time octet later hsplit hfeeds' =>
      subst hsplit
      obtain ⟨next, hreceive', hholds', hlatest⟩ := hholds.receive_cons q.now
      have hr : r.step slow = _ := (Move.heard hagenda' hcue' hreceive).step_eq
      have hq : q.step fast = _ := (Move.heard hagenda hcue hreceive').step_eq
      refine ⟨1, ?_⟩
      show Follows earlier (r.step slow) (q.step fast)
      rw [hr, hq]
      refine ⟨h.state, rfl, ?_, fun _ => ⟨later, hfeeds', hholds'⟩⟩
      rw [hlatest]
      exact h.latest
    | @nothingYet events time hfeeds' hless =>
      obtain ⟨latest, hback⟩ := exists_steps_nothing slow hagenda' hcue' hreceive
      have hstill : Follows earlier (r.steps slow 2) q := by
        rw [hback]
        exact ⟨h.state, h.agenda, h.latest, fun _ => ⟨octets, hfeeds', hholds⟩⟩
      have hfewer : Scripted.pending (r.steps slow 2).now
          (r.steps slow 2).line.stream.events < pending := by
        rw [hback, ← hpending]
        exact hless
      obtain ⟨count, hcount⟩ := ih _ hfewer hstill rfl
      exact ⟨2 + count, by rwa [steps_add]⟩

theorem Follows.exists_steps (h : Follows earlier r q) :
    ∃ count, Follows earlier (r.steps slow count) (q.step fast) := by
  cases hagenda : q.agenda with
  | play rest =>
    have htalking : q.isTalking = true := by simp [isTalking, hagenda]
    rcases rest with _ | ⟨parts | length, rest⟩
    · rcases hcue : Dialogue.cue q.state with next | hear | _
      · exact ⟨1, h.step_alone slow fast htalking
          (.went (h.agenda.trans hagenda) (h.state ▸ hcue)) (.went hagenda hcue) rfl rfl
          h.state rfl⟩
      · exact h.exists_listen slow fast hagenda hcue
      · exact ⟨1, h.step_alone slow fast htalking
          (.ended (h.agenda.trans hagenda) (h.state ▸ hcue)) (.ended hagenda hcue) rfl rfl
          h.state rfl⟩
    · exact ⟨1, h.step_send slow fast hagenda⟩
    · exact ⟨1, h.step_alone slow fast htalking (.paused (h.agenda.trans hagenda))
        (.paused hagenda) rfl rfl h.state rfl⟩
  | turn next =>
    exact ⟨1, h.step_alone slow fast (by simp [isTalking, hagenda])
      (.turned (h.agenda.trans hagenda)) (.turned hagenda) rfl rfl rfl rfl⟩
  | leave loss => exact ⟨1, h.step_leave slow fast hagenda⟩
  | done loss =>
    have hover : q.isOver = true := by simp [isOver, hagenda]
    exact ⟨0, (step_of_isOver fast q hover).symm ▸ h⟩
  | stuck =>
    have hover : q.isOver = true := by simp [isOver, hagenda]
    exact ⟨0, (step_of_isOver fast q hover).symm ▸ h⟩

theorem Follows.exists_run (h : Follows earlier r q) (steps : Nat) :
    ∃ count, Follows earlier (r.steps slow count) (q.steps fast steps) := by
  induction steps with
  | zero => exact ⟨0, h⟩
  | succ steps ih =>
    obtain ⟨count, hcount⟩ := ih
    obtain ⟨more, hmore⟩ := hcount.exists_steps slow fast
    rw [steps_succ]
    exact ⟨count + more, by rwa [steps_add]⟩

/-- Both runs come to their end, with one report and the same chunks. -/
theorem Follows.exists_over (h : Follows earlier r q) (hstuck : q.agenda ≠ .stuck) :
    ∃ count enough,
      (r.steps slow count).report? = (q.steps fast enough).report? ∧
      (q.steps fast enough).report?.isSome = true ∧
      (r.steps slow count).line.stream.latest
        = (q.steps fast enough).line.latest ++ earlier := by
  obtain ⟨loss, hdone⟩ := exists_done fast hstuck (Nat.le_refl _)
  obtain ⟨count, hcount⟩ := h.exists_run slow fast
    (q.line.queue.length * Dialogue.stride σ + q.distance)
  have hdone' := hcount.agenda.trans hdone
  refine ⟨count, _, ?_, ?_, hcount.latest⟩
  · rw [report?_of_done hdone', report?_of_done hdone, hcount.state]
  · rw [report?_of_done hdone]
    rfl

omit [Dialogue.Lawful σ] in
theorem follows_begin (state : σ) {line : StreamLine Scripted} {octets : Bytes}
    (h : line.Feeds octets) :
    Follows line.stream.latest (begin state line 0) (begin state (Recorded.ofBytes octets) 0) :=
  ⟨rfl, rfl, rfl, fun _ => ⟨octets, h, rfl, rfl, rfl⟩⟩

end Run

/-- **A session does not depend on how its octets arrive.**  On a stream that brings the
octets in any pieces, with any waits and time-outs, at any pacing and with any room for a
write, a program reports and sends what it reports and sends at once on a recorded line
with the same octets. -/
theorem exists_returns_of_feeds (program : Program) (options : Options)
    {line : StreamLine Scripted} {octets : Bytes} (hfeeds : line.Feeds octets) :
    ∃ streamed recorded, program.Returns options line streamed ∧
      program.Returns { options with pacing := .instant } (Recorded.ofBytes octets) recorded ∧
      streamed.report = recorded.report ∧
      streamed.line.stream.chunks = line.stream.chunks ++ recorded.line.chunks := by
  obtain ⟨σ, _, _, start, hrun⟩ := program.exists_dialogue options
  have hfollows := Run.follows_begin start hfeeds
  obtain ⟨count, enough, hreport, hsome, hlatest⟩ :=
    hfollows.exists_over options.pacing .instant (by simp [Run.begin])
  refine ⟨_, _, Program.returns_of_steps (hrun options.pacing line).1 (hreport ▸ hsome),
    Program.returns_of_steps (hrun .instant (Recorded.ofBytes octets)).1 hsome, hreport, ?_⟩
  exact (congrArg List.reverse hlatest).trans List.reverse_append

/-- A line that brings `LI` late and in pieces, with a read that times out by itself, and
takes three octets at a time. -/
def StreamLine.halting : StreamLine Scripted :=
  ⟨{ Scripted.ofEvents [.delay 250, .bytes [0x4C], .bytes [],
      .fault (Fault.ofKind .timedOut), .bytes [0x49], .delay 30] with writeRoom := some 3 },
    true, "halting", Duration.ofMillis 10, some (Duration.ofMillis 100)⟩

theorem StreamLine.feeds_halting : halting.Feeds [0x4C, 0x49] where
  isOpen := rfl
  timeout h := by
    simp only [halting, Option.some.injEq] at h
    subst h
    decide
  sound := ⟨by decide, rfl⟩
  writes := rfl
  flushed := rfl
  carries := .delay 250 (.bytes [0x4C] (.bytes [] (.timedOut rfl
    (.bytes [0x49] (.delay 30 (.exhausted rfl))))))

theorem exists_returns_halting :
    StreamLine.halting.Feeds [0x4C, 0x49] ∧
    ∃ streamed recorded, Program.game.Returns Options.usual StreamLine.halting streamed ∧
      Program.game.Returns { Options.usual with pacing := .instant }
        (Recorded.ofBytes [0x4C, 0x49]) recorded ∧
      streamed.report = recorded.report ∧
      streamed.line.stream.chunks
        = StreamLine.halting.stream.chunks ++ recorded.line.chunks :=
  ⟨StreamLine.feeds_halting,
    exists_returns_of_feeds .game Options.usual StreamLine.feeds_halting⟩

end TerminalHost
