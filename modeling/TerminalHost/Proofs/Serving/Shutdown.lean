import TerminalHost.Proofs.Line.Stamped
import TerminalHost.Proofs.Session.Interrupt
import TerminalHost.Proofs.Session.Loss
import TerminalHost.Serving.Serial

/-!
# The shutdown of a line

A shutdown that comes after the end of a session changes nothing.  One that comes before
it finds the session between two steps: what was to be written by then has been written,
and nothing else, and the line is dropped as it stands.
-/

namespace TerminalHost

namespace Run

variable {σ : Type} [Dialogue σ] {pacing : Pacing}

/-! ## What is written on the way -/

theorem Move.exists_writings {r s : Run σ Stamped} (h : Move pacing r s) :
    ∃ later, s.line.writings = r.line.writings ++ later ∧
      ∀ writing ∈ later, writing.time = r.now := by
  cases h.handles with
  | kept htalking hline => exact ⟨[], by simp [hline], by simp⟩
  | sent htalking octets hline => exact ⟨[_], by rw [hline]; rfl, by simp⟩
  | received htalking hline => exact ⟨[], by rw [hline, List.append_nil]; rfl, by simp⟩
  | closed hquiet hline => exact ⟨[], by rw [hline, List.append_nil]; rfl, by simp⟩

theorem exists_writings_steps (pacing : Pacing) (r : Run σ Stamped) (count : Nat) :
    ∃ later, (r.steps pacing count).line.writings = r.line.writings ++ later ∧
      ∀ writing ∈ later, ∃ fewer, fewer < count ∧
        writing.time = (r.steps pacing fewer).now := by
  induction count with
  | zero => exact ⟨[], by simp [steps], by simp⟩
  | succ count ih =>
    obtain ⟨later, hlater, htimes⟩ := ih
    rw [steps_succ]
    cases hover : (r.steps pacing count).isOver with
    | true =>
      rw [step_of_isOver pacing _ hover]
      refine ⟨later, hlater, fun writing hmem => ?_⟩
      obtain ⟨fewer, hlt, htime⟩ := htimes writing hmem
      exact ⟨fewer, Nat.lt_succ_of_lt hlt, htime⟩
    | false =>
      obtain ⟨last, hlast, hnow⟩ := (move_step pacing _ hover).exists_writings
      refine ⟨later ++ last, ?_, fun writing hmem => ?_⟩
      · rw [hlast, hlater, List.append_assoc]
      · rcases List.mem_append.mp hmem with hmem | hmem
        · obtain ⟨fewer, hlt, htime⟩ := htimes writing hmem
          exact ⟨fewer, Nat.lt_succ_of_lt hlt, htime⟩
        · exact ⟨count, Nat.lt_succ_self count, hnow writing hmem⟩

theorem accounts_steps {before : Bytes} {r : Run σ Stamped} (h : r.line.Accounts before)
    (pacing : Pacing) (count : Nat) : (r.steps pacing count).line.Accounts before := by
  refine steps_induction (fun q : Run σ Stamped => q.line.Accounts before)
    (fun {q s} hq hmove => ?_) h count
  cases hmove.handles with
  | kept htalking hline => exact hline ▸ hq
  | sent htalking octets hline => exact hline ▸ hq.send q.now octets
  | received htalking hline => exact hline ▸ hq.receive q.now 1
  | closed hquiet hline => exact hline ▸ hq.close

/-- A run that is cut off has written what the whole run writes by the limit; what the
whole run writes after that, it writes too late. -/
theorem exists_late_writings (pacing : Pacing) (limit fuel : Nat) {r : Run σ Stamped}
    (hfresh : r.line.writings = []) :
    ∃ late, (r.steps pacing fuel).line.writings
        = (r.runUntil pacing (some limit) fuel).line.writings ++ late ∧
      (∀ writing ∈ (r.runUntil pacing (some limit) fuel).line.writings,
        writing.time ≤ limit) ∧
      ∀ writing ∈ late, limit < writing.time := by
  obtain ⟨count, hle, hsteps, htime, hend⟩ := exists_inTime_of_runUntil pacing limit fuel r
  obtain ⟨early, hearly, hbefore⟩ := exists_writings_steps pacing r count
  obtain ⟨more, rfl⟩ := Nat.exists_eq_add_of_le hle
  obtain ⟨late, hlate, hafter⟩ := exists_writings_steps pacing (r.steps pacing count) more
  rw [hfresh, List.nil_append] at hearly
  rw [hsteps]
  refine ⟨late, by rw [steps_add, hlate], fun writing hmem => ?_, fun writing hmem => ?_⟩
  · rw [hearly] at hmem
    obtain ⟨fewer, hlt, hwhen⟩ := hbefore writing hmem
    rw [hwhen]
    exact htime fewer hlt
  · obtain ⟨fewer, hlt, hwhen⟩ := hafter writing hmem
    rcases hend with hfull | hover | hpast
    · omega
    · -- A run that is over writes nothing more.
      rw [steps_of_isOver pacing more _ hover, List.self_eq_append_right] at hlate
      simp [hlate] at hmem
    · have hnow : (r.steps pacing count).now
          ≤ ((r.steps pacing count).steps pacing fewer).now :=
        now_le_steps Stamped.timely pacing _ (Nat.zero_le fewer)
      omega

/-- The octets that a session has written when it is cut off, and those it would write
after that. -/
theorem exists_written (pacing : Pacing) (limit fuel : Nat) (start : σ)
    (line : StreamLine Scripted) :
    ∃ early late,
      ((begin start (Stamped.stamp line) 0).steps pacing fuel).line.writings
        = early ++ late ∧
      (∀ writing ∈ early, writing.time ≤ limit) ∧
      (∀ writing ∈ late, limit < writing.time) ∧
      ((begin start line 0).runUntil pacing (some limit) fuel).line.stream.accepted
        = line.stream.accepted ++ Writing.written early ∧
      ((begin start line 0).steps pacing fuel).line.stream.accepted
        = line.stream.accepted ++ Writing.written early ++ Writing.written late := by
  have hunwrap (cutoff : Option Nat) :
      (begin start line 0).runUntil pacing cutoff fuel
        = ((begin start (Stamped.stamp line) 0).runUntil pacing cutoff fuel).unwrap
            Stamped.line := by
    rw [unwrap_runUntil Stamped.wraps, unwrap_begin Stamped.wraps]
    rfl
  have haccounts (count : Nat) :
      ((begin start (Stamped.stamp line) 0).steps pacing count).line.Accounts
        line.stream.accepted :=
    accounts_steps (Stamped.accounts_stamp line) pacing count
  obtain ⟨late, hlate, hearly, hafter⟩ :=
    exists_late_writings pacing limit fuel (r := begin start (Stamped.stamp line) 0) rfl
  refine ⟨_, late, hlate, hearly, hafter, ?_, ?_⟩
  · obtain ⟨count, hcount⟩ := exists_steps_of_runUntil pacing (some limit) fuel
      (begin start (Stamped.stamp line) 0)
    rw [hunwrap, hcount]
    exact haccounts count
  · rw [← runUntil_none, hunwrap, runUntil_none, List.append_assoc, ← Writing.written_append,
      ← hlate]
    exact haccounts fuel

/-! ## The line is open until the end -/

/-- The line is open as long as there is no report, and then its stream has been shut down
once more than before the session. -/
structure Keeps (before : Nat) (r : Run σ (StreamLine Scripted)) : Prop where
  going (h : r.report? = none) :
    r.line.isOpen = true ∧ r.line.stream.shutdowns = before
  ended (h : r.report?.isSome = true) : r.line.stream.shutdowns = before + 1

variable {before : Nat} {r s : Run σ (StreamLine Scripted)}

theorem Keeps.talk (h : r.Keeps before) (hr : r.report? = none) (hs : s.report? = none)
    (hopen : s.line.isOpen = r.line.isOpen)
    (hshutdowns : s.line.stream.shutdowns = r.line.stream.shutdowns) : s.Keeps before := by
  refine ⟨fun _ => ?_, by simp [hs]⟩
  rw [hopen, hshutdowns]
  exact h.going hr

theorem Keeps.move (h : r.Keeps before) (hmove : Move pacing r s) : s.Keeps before := by
  have hsend {octets : Bytes} {next : StreamLine Scripted} {answer : Answer Unit}
      (hsent : Line.send r.line r.now octets = (next, answer)) :
      next.isOpen = r.line.isOpen ∧ next.stream.shutdowns = r.line.stream.shutdowns := by
    obtain ⟨taken, -, -, -, -, hshutdowns⟩ :=
      StreamLine.exists_accepted_send r.line r.now octets
    have hopen := (StreamLine.send_unchanged r.line r.now octets).1
    rw [hsent] at hopen hshutdowns
    exact ⟨hopen, hshutdowns⟩
  have hreceive {next : StreamLine Scripted} {answer : Option (Answer Bytes)}
      (hreceived : Line.receive r.line r.now 1 = (next, answer)) :
      next.isOpen = r.line.isOpen ∧ next.stream.shutdowns = r.line.stream.shutdowns := by
    obtain ⟨events, hevents⟩ := StreamLine.exists_withEvents r.line r.now 1
    rw [hreceived] at hevents
    obtain rfl : next = r.line.withEvents events := hevents
    exact ⟨rfl, rfl⟩
  cases hmove with
  | sent hagenda hsent | unsent hagenda hsent =>
    exact h.talk (by simp [report?, hagenda]) rfl (hsend hsent).1 (hsend hsent).2
  | heard hagenda hcue hreceived | unheard hagenda hcue hreceived
  | unanswered hagenda hcue hreceived =>
    exact h.talk (by simp [report?, hagenda]) rfl (hreceive hreceived).1 (hreceive hreceived).2
  | paused hagenda | went hagenda | ended hagenda | turned hagenda =>
    exact h.talk (by simp [report?, hagenda]) rfl rfl rfl
  -- Only this move closes the line, and with it the report is there.
  | left hagenda =>
    obtain ⟨hopen, hshutdowns⟩ := h.going (by simp [report?, hagenda])
    refine ⟨by simp [report?], fun _ => ?_⟩
    rw [StreamLine.close_eq, if_pos hopen, hshutdowns]

theorem keeps_steps (pacing : Pacing) (start : σ) {line : StreamLine Scripted}
    (hopen : line.isOpen = true) (count : Nat) :
    ((begin start line 0).steps pacing count).Keeps line.stream.shutdowns :=
  steps_induction (Keeps line.stream.shutdowns) (fun h hmove => h.move hmove)
    ⟨fun _ => ⟨hopen, rfl⟩, by simp [begin, report?]⟩ count

end Run

/-! ## Serving a line -/

def Program.StartsAt {σ : Type} [Dialogue σ] (program : Program) (options : Options)
    (start : σ) : Prop :=
  ∀ (ℓ : Type) [Line ℓ] (line : ℓ) (limit : Option Nat) (patience : Nat),
    program.run options limit patience line
      = ((Run.begin start line 0).runOut options.pacing limit patience).outcome

theorem Program.exists_startsAt (program : Program) (options : Options) :
    ∃ (σ : Type) (_ : Dialogue σ) (_ : Dialogue.Lawful σ) (start : σ),
      Dialogue.Quiet σ ∧ program.StartsAt options start := by
  cases program with
  | game =>
    exact ⟨Game, inferInstance, inferInstance, Game.start options, Game.quiet,
      fun _ _ _ _ _ => rfl⟩
  | demo =>
    exact ⟨Demo, inferInstance, inferInstance, Demo.start, Demo.quiet,
      fun _ _ _ _ _ => rfl⟩

section Serving

variable (program : Program) (session : SessionSettings) (seed : UInt32)

/-- Serving the line comes to this with any patience that is enough. -/
def Program.Serves {ℓ : Type} [Line ℓ] (shutdown : Option Nat) (line : ℓ)
    (served : Served ℓ) : Prop :=
  ∃ enough, ∀ patience, enough ≤ patience →
    serveLine program session seed shutdown patience line = served

/-- What a session writes that is not cut off. -/
def Program.writings (patience : Nat) (line : StreamLine Scripted) : List Writing :=
  (serveLine program session seed none patience (Stamped.stamp line)).line.writings

end Serving

variable {program : Program} {session : SessionSettings} {seed : UInt32}

theorem Program.Serves.unique {ℓ : Type} [Line ℓ] {shutdown : Option Nat} {line : ℓ}
    {served other : Served ℓ} (h : program.Serves session seed shutdown line served)
    (hother : program.Serves session seed shutdown line other) : served = other := by
  obtain ⟨enough, henough⟩ := h
  obtain ⟨enough', henough'⟩ := hother
  rw [← henough (max enough enough') (Nat.le_max_left _ _),
    henough' (max enough enough') (Nat.le_max_right _ _)]

theorem Outcome.returned_of_report {ℓ : Type} {outcome : Outcome ℓ} {report : Report}
    (h : outcome.report = some report) (shutdown : Option Nat) :
    outcome.returned shutdown = some ⟨outcome.now, some report⟩ := by
  simp only [returned, h]

theorem Outcome.returned_of_none {ℓ : Type} {outcome : Outcome ℓ} (h : outcome.report = none)
    (shutdown : Option Nat) :
    outcome.returned shutdown = shutdown.map fun time => ⟨time, none⟩ := by
  simp only [returned, h]

theorem Outcome.of_returned {ℓ : Type} {outcome : Outcome ℓ} {shutdown : Option Nat}
    {time : Nat} {report : Report}
    (h : outcome.returned shutdown = some ⟨time, some report⟩) :
    outcome.report = some report ∧ outcome.now = time := by
  cases hreport : outcome.report with
  | some other =>
    rw [returned_of_report hreport, Option.some.injEq, Returned.mk.injEq] at h
    exact ⟨h.2, h.1⟩
  | none =>
    rw [returned_of_none hreport] at h
    cases shutdown <;> simp at h

/-- What became of a session that was cut off at a time, beside the session that was not. -/
structure CutAt (time : Nat) (line : StreamLine Scripted) (writings : List Writing)
    (whole cut : Served (StreamLine Scripted)) : Prop where
  returned : cut.returned = some ⟨time, none⟩
  isOpen : cut.line.isOpen = true
  shutdowns : cut.line.stream.shutdowns = line.stream.shutdowns
  octets : ∃ early late, writings = early ++ late ∧
    (∀ writing ∈ early, writing.time ≤ time) ∧
    (∀ writing ∈ late, time < writing.time) ∧
    cut.line.stream.accepted = line.stream.accepted ++ Writing.written early ∧
    whole.line.stream.accepted = cut.line.stream.accepted ++ Writing.written late

namespace Program.StartsAt

variable {σ ℓ : Type} [Dialogue σ] [Line ℓ] {start : σ}

theorem serveLine_fields (h : program.StartsAt (session.options seed) start)
    (limit : Option Nat) (patience : Nat) (line : ℓ) :
    (serveLine program session seed limit patience line).returned
        = ((Run.begin start line 0).runOut session.pacing limit patience).outcome.returned
            limit ∧
      (serveLine program session seed limit patience line).line
        = ((Run.begin start line 0).runOut session.pacing limit patience).line := by
  rw [serveLine, h ℓ line limit patience]
  exact ⟨rfl, rfl⟩

theorem serveLine_congr (h : program.StartsAt (session.options seed) start) {line : ℓ}
    {limit : Option Nat} {patience patience' : Nat}
    (houtcome : ((Run.begin start line 0).runOut session.pacing limit patience).outcome
      = ((Run.begin start line 0).runOut session.pacing limit patience').outcome) :
    serveLine program session seed limit patience line
      = serveLine program session seed limit patience' line := by
  have hrun : program.run (session.options seed) limit patience line
      = program.run (session.options seed) limit patience' line := by
    rw [h ℓ line limit patience, h ℓ line limit patience']
    exact houtcome
  rw [serveLine, serveLine, hrun]

/-- A shutdown makes no difference to a session that has its report all the same. -/
theorem serveLine_shutdown (h : program.StartsAt (session.options seed) start) {line : ℓ}
    {limit : Option Nat} {patience : Nat}
    (houtcome : ((Run.begin start line 0).runOut session.pacing limit patience).outcome
      = ((Run.begin start line 0).runOut session.pacing none patience).outcome)
    (hsome : ((Run.begin start line 0).runOut session.pacing none
      patience).report?.isSome = true) :
    serveLine program session seed limit patience line
      = serveLine program session seed none patience line := by
  have hrun : program.run (session.options seed) limit patience line
      = program.run (session.options seed) none patience line := by
    rw [h ℓ line limit patience, h ℓ line none patience]
    exact houtcome
  obtain ⟨report, hreport⟩ := Option.isSome_iff_exists.mp hsome
  have hended : (program.run (session.options seed) none patience line).report
      = some report := by
    rw [h ℓ line none patience]
    exact hreport
  rw [serveLine, serveLine, hrun, Outcome.returned_of_report hended,
    Outcome.returned_of_report hended]

end Program.StartsAt

section Shutdown

variable {σ : Type} [Dialogue σ] {start : σ}
variable {line : StreamLine Scripted} {time : Nat}
variable (hstarts : program.StartsAt (session.options seed) start)
include hstarts

/-- A session that ends before the shutdown is served as if there were none. -/
theorem serves_of_lt (hopen : line.isOpen = true) {whole : Served (StreamLine Scripted)}
    {ended : Nat} {report : Report} (hwhole : program.Serves session seed none line whole)
    (hreturned : whole.returned = some ⟨ended, some report⟩) (hlt : ended < time) :
    program.Serves session seed (some time) line whole ∧
      whole.line.stream.shutdowns = line.stream.shutdowns + 1 := by
  obtain ⟨enough, henough⟩ := hwhole
  have hended (patience : Nat) (hle : enough ≤ patience) :
      ((Run.begin start line 0).runOut session.pacing none patience).report? = some report ∧
        ((Run.begin start line 0).runOut session.pacing none patience).now = ended := by
    have hserved := (hstarts.serveLine_fields none patience line).1
    rw [henough patience hle, hreturned] at hserved
    exact Outcome.of_returned hserved.symm
  refine ⟨⟨enough, fun patience hle => ?_⟩, ?_⟩
  · obtain ⟨hreport, hnow⟩ := hended patience hle
    rw [← henough patience hle]
    refine hstarts.serveLine_shutdown ?_ (by rw [hreport]; rfl)
    rw [Run.runOut, Run.runUntil_none] at hreport hnow
    rw [Run.runOut, Run.runOut, Run.runUntil_eq_of_now_le StreamLine.timely
      (Run.isOver_of_report? hreport) (hnow ▸ Nat.le_of_lt hlt)]
  · obtain ⟨hreport, -⟩ := hended enough (Nat.le_refl enough)
    rw [← henough enough (Nat.le_refl enough), (hstarts.serveLine_fields none enough line).2]
    rw [Run.runOut, Run.runUntil_none] at hreport ⊢
    exact (Run.keeps_steps session.pacing start hopen _).ended (by rw [hreport]; rfl)

variable [Dialogue.Lawful σ]

theorem serves_of_isOver {count : Nat}
    (hover : ((Run.begin start line 0).steps session.pacing count).isOver = true) :
    program.Serves session seed none line
      (serveLine program session seed none count line) := by
  refine ⟨count, fun patience hle => hstarts.serveLine_congr ?_⟩
  rw [Run.runOut_eq_of_isOver hover hle, Run.runOut_eq_of_isOver hover (Nat.le_refl count)]

theorem exists_serves_of_report? {count : Nat} {report : Report}
    (h : ((Run.begin start line 0).steps session.pacing count).report? = some report) :
    ∃ whole, program.Serves session seed none line whole ∧ whole.returned
      = some ⟨((Run.begin start line 0).steps session.pacing count).now, some report⟩ := by
  have hover := Run.isOver_of_report? h
  refine ⟨_, serves_of_isOver hstarts hover, ?_⟩
  rw [(hstarts.serveLine_fields none count line).1,
    Run.runOut_eq_of_isOver hover (Nat.le_refl count)]
  exact Outcome.returned_of_report h none

theorem report?_of_late
    (hlate : ∀ whole ended report, program.Serves session seed none line whole →
      whole.returned = some ⟨ended, some report⟩ → time < ended) (patience : Nat) :
    ((Run.begin start line 0).runOut session.pacing (some time) patience).report? = none := by
  apply Run.report?_runUntil rfl
  intro count hsome
  obtain ⟨report, hreport⟩ := Option.isSome_iff_exists.mp hsome
  obtain ⟨whole, hwhole, hreturned⟩ := exists_serves_of_report? hstarts hreport
  exact hlate whole _ report hwhole hreturned

/-- A session that does not end by the shutdown is cut off there. -/
theorem cutAt_of_late (hopen : line.isOpen = true)
    (hlate : ∀ whole ended report, program.Serves session seed none line whole →
      whole.returned = some ⟨ended, some report⟩ → time < ended) (patience : Nat) :
    CutAt time line (program.writings session seed patience line)
      (serveLine program session seed none patience line)
      (serveLine program session seed (some time) patience line) := by
  have hnone := report?_of_late hstarts hlate patience
  obtain ⟨hreturned, hcut⟩ := hstarts.serveLine_fields (some time) patience line
  obtain ⟨-, hwhole⟩ := hstarts.serveLine_fields none patience line
  obtain ⟨-, hstamped⟩ := hstarts.serveLine_fields none patience (Stamped.stamp line)
  rw [Run.runOut, Run.runUntil_none] at hwhole hstamped
  rw [Outcome.returned_of_none hnone] at hreturned
  rw [Run.runOut] at hnone hcut
  obtain ⟨count, hcount⟩ := Run.exists_steps_of_runUntil session.pacing (some time)
    ((patience + 1) * Dialogue.stride σ) (Run.begin start line 0)
  have hkept := (Run.keeps_steps session.pacing start hopen count).going (hcount ▸ hnone)
  rw [← hcount, ← hcut] at hkept
  refine ⟨hreturned, hkept.1, hkept.2, ?_⟩
  obtain ⟨early, late, hsplit, hearly, hafter, hcutOctets, hwholeOctets⟩ :=
    Run.exists_written session.pacing time ((patience + 1) * Dialogue.stride σ) start line
  refine ⟨early, late, ?_, hearly, hafter, ?_, ?_⟩
  · rw [Program.writings, hstamped, hsplit]
  · rw [hcut, hcutOctets]
  · rw [hwhole, hcut, hwholeOctets, hcutOctets]

/-- A session that does not end by the shutdown stands in a wait that ends later, or it
stands there for ever. -/
theorem exists_serves_cut (hquiet : Dialogue.Quiet σ)
    (hlate : ∀ whole ended report, program.Serves session seed none line whole →
      whole.returned = some ⟨ended, some report⟩ → time < ended) :
    ∃ cut, program.Serves session seed (some time) line cut ∧
      cut.returned = some ⟨time, none⟩ ∧
      ((∃ enough, ∀ patience, enough ≤ patience →
          time < (program.run (session.options seed) (some time) patience line).now) ∨
        program.Serves session seed none line { cut with returned := none }) := by
  obtain ⟨enough, hcut, hrest⟩ := Run.exists_outcome_runUntil hquiet StreamLine.timely
    session.pacing time (Run.begin start line 0)
  have hlast (patience : Nat) (hle : enough ≤ patience) :
      program.run (session.options seed) (some time) patience line
        = ((Run.begin start line 0).steps session.pacing enough).outcome := by
    rw [hstarts _ line (some time) patience]
    exact hcut _ (Run.le_fuel σ hle)
  have hfirst := hlast enough (Nat.le_refl enough)
  have hnone : ((Run.begin start line 0).steps session.pacing enough).outcome.report = none := by
    rw [← hfirst, hstarts _ line (some time) enough]
    exact report?_of_late hstarts hlate enough
  refine ⟨serveLine program session seed (some time) enough line, ⟨enough, ?_⟩, ?_, ?_⟩
  · intro patience hle
    rw [serveLine, serveLine, hlast patience hle, hfirst]
  · rw [serveLine, hfirst, Outcome.returned_of_none hnone]
    rfl
  · rcases hrest with hpast | hstill
    · refine .inl ⟨enough, fun patience hle => ?_⟩
      rw [hlast patience hle]
      exact hpast
    · refine .inr ⟨enough, fun patience hle => ?_⟩
      have hrun : program.run (session.options seed) none patience line
          = ((Run.begin start line 0).steps session.pacing enough).outcome := by
        rw [hstarts _ line none patience, Run.runOut, Run.runUntil_none]
        exact hstill _ (Run.le_fuel σ hle)
      rw [serveLine, serveLine, hrun, hfirst, Outcome.returned_of_none hnone]
      rfl

end Shutdown

/-- **A shutdown cuts a session off where it stands.**  If the session ends before the
shutdown, serving the line comes to just what it comes to without one, and the stream has
been shut down once.  If it does not end by then, the call returns at the time of the
shutdown without a report; what the session writes by that time has been written and
nothing else, and the line is still open on a stream that was not shut down.  The session
then stands in a wait that ends later, or it stands there for ever. -/
theorem serves_of_shutdown (program : Program) (session : SessionSettings) (seed : UInt32)
    (time : Nat) {line : StreamLine Scripted} (hopen : line.isOpen = true) :
    (∀ whole ended report, program.Serves session seed none line whole →
      whole.returned = some ⟨ended, some report⟩ → ended < time →
        program.Serves session seed (some time) line whole ∧
        whole.line.stream.shutdowns = line.stream.shutdowns + 1) ∧
    ((∀ whole ended report, program.Serves session seed none line whole →
        whole.returned = some ⟨ended, some report⟩ → time < ended) →
      (∀ patience, CutAt time line (program.writings session seed patience line)
        (serveLine program session seed none patience line)
        (serveLine program session seed (some time) patience line)) ∧
      ∃ cut, program.Serves session seed (some time) line cut ∧
        cut.returned = some ⟨time, none⟩ ∧
        ((∃ enough, ∀ patience, enough ≤ patience →
            time < (program.run (session.options seed) (some time) patience line).now) ∨
          program.Serves session seed none line { cut with returned := none })) := by
  obtain ⟨σ, _, _, start, hquiet, hstarts⟩ := program.exists_startsAt (session.options seed)
  refine ⟨fun whole ended report => serves_of_lt hstarts hopen, fun hlate => ⟨?_, ?_⟩⟩
  · exact cutAt_of_late hstarts hopen hlate
  · exact exists_serves_cut hstarts hquiet hlate

/-- A line on which one key comes late, and then the end of the stream. -/
def StreamLine.tardy : StreamLine Scripted :=
  ⟨Scripted.ofEvents [.delay 250, .bytes [0x41]], true, "tardy", Duration.ofMillis 10,
    some (Duration.ofMillis 100)⟩

def SessionSettings.brief : SessionSettings := ⟨Pacing.instant, ["A"]⟩

theorem Run.tardy_facts :
    ((Run.begin (Game.start (SessionSettings.brief.options 1)) StreamLine.tardy 0).steps
      SessionSettings.brief.pacing 88).report?.isSome = true ∧
    ((Run.begin (Game.start (SessionSettings.brief.options 1)) StreamLine.tardy 0).steps
      SessionSettings.brief.pacing 88).now = 840 := by
  decide +kernel

theorem serves_of_shutdown_tardy :
    StreamLine.tardy.isOpen = true ∧
    ∃ whole report, Program.game.Serves SessionSettings.brief 1 none StreamLine.tardy whole ∧
      whole.returned = some ⟨840, some report⟩ ∧
      Program.game.Serves SessionSettings.brief 1 (some 841) StreamLine.tardy whole ∧
      whole.line.stream.shutdowns = 1 ∧
      ∃ cut, Program.game.Serves SessionSettings.brief 1 (some 500) StreamLine.tardy cut ∧
        cut.returned = some ⟨500, none⟩ ∧ cut.line.stream.shutdowns = 0 ∧
        cut.line.stream.accepted <+: whole.line.stream.accepted := by
  have hstarts : Program.game.StartsAt (SessionSettings.brief.options 1)
      (Game.start (SessionSettings.brief.options 1)) := fun _ _ _ _ _ => rfl
  obtain ⟨hsome, hnow⟩ := Run.tardy_facts
  obtain ⟨report, hreport⟩ := Option.isSome_iff_exists.mp hsome
  obtain ⟨whole, hwhole, hreturned⟩ := exists_serves_of_report? hstarts hreport
  rw [hnow] at hreturned
  obtain ⟨hserves, hshutdowns⟩ := (serves_of_shutdown .game SessionSettings.brief 1 841
    (rfl : StreamLine.tardy.isOpen = true)).1 whole 840 report hwhole hreturned (by omega)
  obtain ⟨hcut, cut, hserved, hnone, -⟩ := (serves_of_shutdown .game SessionSettings.brief 1 500
    (rfl : StreamLine.tardy.isOpen = true)).2 fun other ended later hother hended => by
      rw [hother.unique hwhole, hreturned, Option.some.injEq, Returned.mk.injEq] at hended
      omega
  refine ⟨rfl, whole, report, hwhole, hreturned, hserves, hshutdowns, cut, hserved, hnone, ?_⟩
  obtain ⟨enough, henough⟩ := hwhole
  obtain ⟨enough', henough'⟩ := hserved
  have hat := hcut (max enough enough')
  rw [henough _ (Nat.le_max_left _ _), henough' _ (Nat.le_max_right _ _)] at hat
  obtain ⟨early, late, -, -, -, -, hoctets⟩ := hat.octets
  exact ⟨hat.shutdowns, ⟨_, hoctets.symm⟩⟩

end TerminalHost
