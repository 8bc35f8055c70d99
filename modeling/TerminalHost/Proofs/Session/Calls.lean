import TerminalHost.Line.Recorded
import TerminalHost.Proofs.Line.Wrapped
import TerminalHost.Proofs.Session.Ending
import TerminalHost.Proofs.Session.Laws

/-!
# The calls of a session

A session uses its line by a sequence of calls.  A call that fails is followed by nothing
but the close, and so is the last call of a program that comes to its own end.  To say
so the calls are logged, each with its result, on a line around the one that answers.
-/

namespace TerminalHost

/-- A call on a line with its result.  A receive that is never answered has none. -/
inductive Call where
  | send (chunk : Bytes) (result : Except Loss Unit)
  | receive (most : Nat) (result : Option (Except Loss Bytes))
  | close

namespace Call

inductive Succeeds : Call → Prop where
  | send (chunk : Bytes) : Succeeds (.send chunk (.ok ()))
  | receive (most : Nat) (octets : Bytes) : Succeeds (.receive most (some (.ok octets)))

inductive FailsWith (loss : Loss) : Call → Prop where
  | send (chunk : Bytes) : FailsWith loss (.send chunk (.error loss))
  | receive (most : Nat) : FailsWith loss (.receive most (some (.error loss)))

theorem FailsWith.not_succeeds {loss : Loss} {call : Call} (h : call.FailsWith loss) :
    ¬ call.Succeeds := by
  intro hsucceeds
  cases h <;> cases hsucceeds

theorem FailsWith.unique {loss other : Loss} {call : Call} (h : call.FailsWith loss)
    (hother : call.FailsWith other) : loss = other := by
  cases h <;> cases hother <;> rfl

theorem Succeeds.ne_close {call : Call} (h : call.Succeeds) : call ≠ .close := by
  rintro rfl
  cases h

theorem FailsWith.ne_close {loss : Loss} {call : Call} (h : call.FailsWith loss) :
    call ≠ .close := by
  rintro rfl
  cases h

def sent? : Call → Option Bytes
  | .send chunk (.ok ()) => some chunk
  | _ => none

/-- The chunks of the sends that succeeded, in order. -/
def delivered (calls : List Call) : List Bytes := calls.filterMap sent?

@[simp] theorem delivered_append (left right : List Call) :
    delivered (left ++ right) = delivered left ++ delivered right := by
  simp [delivered]

@[simp] theorem delivered_sent (chunks : List Bytes) :
    delivered (chunks.map (.send · (.ok ()))) = chunks := by
  rw [delivered, List.filterMap_map]
  exact List.filterMap_some

theorem succeeds_snoc {calls : List Call} {last : Call}
    (hcalls : ∀ call ∈ calls, call.Succeeds) (hlast : last.Succeeds) :
    ∀ call ∈ calls ++ [last], call.Succeeds := by
  intro call hcall
  rcases List.mem_append.mp hcall with hmem | hmem
  · exact hcalls call hmem
  · rwa [List.mem_singleton.mp hmem]

end Call

structure Logged (ℓ : Type) where
  line : ℓ
  calls : List Call

namespace Logged

variable {ℓ : Type}

def log (line : ℓ) : Logged ℓ := ⟨line, []⟩

variable [Line ℓ]

instance : Line (Logged ℓ) where
  peer logged := Line.peer logged.line
  send logged now octets :=
    let (line, answer) := Line.send logged.line now octets
    (⟨line, logged.calls ++ [.send octets answer.result]⟩, answer)
  receive logged now most :=
    let (line, answer) := Line.receive logged.line now most
    (⟨line, logged.calls ++ [.receive most (answer.map Answer.result)]⟩, answer)
  close logged :=
    let (line, entries) := Line.close logged.line
    (⟨line, logged.calls ++ [.close]⟩, entries)

theorem wraps : Line.Wraps (Logged.line : Logged ℓ → ℓ) where
  peer _ := rfl
  send _ _ _ := rfl
  receive _ _ _ := rfl
  close _ := rfl

theorem calls_send {logged next : Logged ℓ} {now : Nat} {octets : Bytes}
    {answer : Answer Unit} (h : Line.send logged now octets = (next, answer)) :
    next.calls = logged.calls ++ [.send octets answer.result] := by
  simp only [Line.send, Prod.mk.injEq] at h
  obtain ⟨rfl, rfl⟩ := h
  rfl

theorem calls_receive {logged next : Logged ℓ} {now most : Nat}
    {answer : Option (Answer Bytes)} (h : Line.receive logged now most = (next, answer)) :
    next.calls = logged.calls ++ [.receive most (answer.map Answer.result)] := by
  simp only [Line.receive, Prod.mk.injEq] at h
  obtain ⟨rfl, rfl⟩ := h
  rfl

end Logged

/-- At least one call, all of which succeeded but for the last one if there is a loss. -/
inductive Talk : Option Loss → List Call → Prop where
  | whole {earlier : List Call} {last : Call} (hearlier : ∀ call ∈ earlier, call.Succeeds)
      (hlast : last.Succeeds) : Talk none (earlier ++ [last])
  | broken {earlier : List Call} {last : Call} {loss : Loss}
      (hearlier : ∀ call ∈ earlier, call.Succeeds) (hlast : last.FailsWith loss) :
      Talk (some loss) (earlier ++ [last])

theorem Talk.of_succeeds {calls : List Call} (hcalls : ∀ call ∈ calls, call.Succeeds)
    (hne : calls ≠ []) : Talk none calls := by
  rw [← List.dropLast_concat_getLast hne]
  apply Talk.whole
  · intro call hmem
    exact hcalls call (List.dropLast_subset _ hmem)
  · exact hcalls _ (List.getLast_mem hne)

theorem Talk.exists_last {loss : Option Loss} {calls : List Call} (h : Talk loss calls) :
    ∃ earlier last, calls = earlier ++ [last] ∧ last ≠ .close ∧
      (∀ call ∈ earlier, call.Succeeds) ∧ (loss = none ↔ last.Succeeds) ∧
      ∀ cause, loss = some cause ↔ last.FailsWith cause := by
  cases h with
  | @whole earlier last hearlier hlast =>
    refine ⟨earlier, last, rfl, hlast.ne_close, hearlier, by simp [hlast], ?_⟩
    intro cause
    constructor
    · intro h
      cases h
    · intro hfails
      exact absurd hlast hfails.not_succeeds
  | @broken earlier last loss hearlier hlast =>
    refine ⟨earlier, last, rfl, hlast.ne_close, hearlier, by simp [hlast.not_succeeds], ?_⟩
    intro cause
    constructor
    · intro h
      rwa [← Option.some.inj h]
    · intro hfails
      rw [hlast.unique hfails]

/-- The calls that bring a run to what it does next. -/
def Agenda.BroughtBy {σ : Type} (calls : List Call) : Agenda σ → Prop
  | .play _ | .turn _ => ∀ call ∈ calls, call.Succeeds
  | .leave loss => Talk loss calls
  | .done loss => ∃ talk, calls = talk ++ [.close] ∧ Talk loss talk
  | .stuck => True

namespace Run

variable {σ ℓ : Type} [Dialogue σ] {r s : Run σ (Logged ℓ)}

structure Logs (r : Run σ (Logged ℓ)) : Prop where
  brought : r.agenda.BroughtBy r.line.calls
  begun (hnil : r.line.calls = []) :
    ∃ parts rest, r.agenda = .play (.send parts :: rest)
  asks {most : Nat} {result : Option (Except Loss Bytes)}
    (hmem : Call.receive most result ∈ r.line.calls) :
    most = 1 ∧ ∃ (s : σ) (hear : Bytes → σ), Dialogue.cue s = .listen hear

/-- One more call, which is a receive only if the dialogue listens for an octet. -/
theorem Logs.call {call : Call} (h : r.Logs)
    (hcalls : s.line.calls = r.line.calls ++ [call])
    (hbrought : s.agenda.BroughtBy (r.line.calls ++ [call]))
    (hasks : ∀ most result, call = .receive most result →
      most = 1 ∧ ∃ (s : σ) (hear : Bytes → σ), Dialogue.cue s = .listen hear) :
    s.Logs where
  brought := hcalls ▸ hbrought
  begun hnil := by simp [hcalls] at hnil
  asks {most result} hmem := by
    rw [hcalls] at hmem
    rcases List.mem_append.mp hmem with hbefore | hlast
    · exact h.asks hbefore
    · exact hasks most result (List.mem_singleton.mp hlast).symm

theorem Logs.silent (h : r.Logs) (hline : s.line = r.line)
    (hbrought : s.agenda.BroughtBy r.line.calls)
    (hquiet : ∀ parts rest, r.agenda ≠ .play (.send parts :: rest)) : s.Logs where
  brought := hline ▸ hbrought
  begun hnil := by
    obtain ⟨parts, rest, hagenda⟩ := h.begun (hline ▸ hnil)
    exact absurd hagenda (hquiet parts rest)
  asks hmem := h.asks (hline ▸ hmem)

variable [Line ℓ]

theorem Logs.move {pacing : Pacing} (h : r.Logs) (hmove : Move pacing r s) : s.Logs := by
  have hbrought := h.brought
  cases hmove with
  | sent hagenda hsend =>
    rw [hagenda] at hbrought
    refine h.call (Logged.calls_send hsend) ?_ (by simp)
    exact Call.succeeds_snoc hbrought (.send _)
  | unsent hagenda hsend =>
    rw [hagenda] at hbrought
    refine h.call (Logged.calls_send hsend) ?_ (by simp)
    exact Talk.broken hbrought (.send _)
  | @heard hear line time octets hagenda hcue hreceive =>
    rw [hagenda] at hbrought
    refine h.call (Logged.calls_receive hreceive) ?_ ?_
    · exact Call.succeeds_snoc hbrought (.receive 1 octets)
    · rintro most result hcall
      exact ⟨(Call.receive.inj hcall).1.symm, r.state, hear, hcue⟩
  | @unheard hear line time loss hagenda hcue hreceive =>
    rw [hagenda] at hbrought
    refine h.call (Logged.calls_receive hreceive) ?_ ?_
    · exact Talk.broken hbrought (.receive 1)
    · rintro most result hcall
      exact ⟨(Call.receive.inj hcall).1.symm, r.state, hear, hcue⟩
  | @unanswered hear line hagenda hcue hreceive =>
    refine h.call (Logged.calls_receive hreceive) trivial ?_
    rintro most result hcall
    exact ⟨(Call.receive.inj hcall).1.symm, r.state, hear, hcue⟩
  | left hagenda =>
    rw [hagenda] at hbrought
    have hclosed (line : ℓ) : (⟨line, r.line.calls ++ [Call.close]⟩ : Logged ℓ).calls
        = r.line.calls ++ [Call.close] := rfl
    exact h.call (hclosed _) ⟨_, rfl, hbrought⟩ (by simp)
  | paused hagenda =>
    rw [hagenda] at hbrought
    exact h.silent rfl hbrought (by simp [hagenda])
  | went hagenda hcue =>
    rw [hagenda] at hbrought
    exact h.silent rfl hbrought (by simp [hagenda])
  | ended hagenda hcue =>
    rw [hagenda] at hbrought
    have hne : r.line.calls ≠ [] := by
      intro hnil
      obtain ⟨parts, rest, hsend⟩ := h.begun hnil
      simp [hagenda] at hsend
    exact h.silent rfl (Talk.of_succeeds hbrought hne) (by simp [hagenda])
  | turned hagenda =>
    rw [hagenda] at hbrought
    exact h.silent rfl hbrought (by simp [hagenda])

theorem logs_runUntil (pacing : Pacing) (limit : Option Nat) (fuel : Nat) (line : ℓ)
    (state : σ) {parts : List Part} {rest : Script}
    (hscreen : Dialogue.screen state = .send parts :: rest) :
    ((begin state (Logged.log line) 0).runUntil pacing limit fuel).Logs := by
  obtain ⟨count, hcount⟩ := exists_steps_of_runUntil pacing limit fuel
    (begin state (Logged.log line) 0)
  rw [hcount]
  refine steps_induction Logs (fun h hmove => h.move hmove) ?_ count
  constructor
  · simp [begin, Logged.log, Agenda.BroughtBy]
  · intro _
    exact ⟨parts, rest, congrArg Agenda.play hscreen⟩
  · simp [begin, Logged.log]

end Run

def Report.ShownBy (report : Report) (calls : List Call) : Prop :=
  ∃ earlier last, calls = earlier ++ [last, .close] ∧ last ≠ .close ∧
    (∀ call ∈ earlier, call.Succeeds) ∧ (report.loss? = none ↔ last.Succeeds) ∧
    ∀ loss, report.loss? = some loss ↔ last.FailsWith loss

theorem Run.Logs.shownBy {σ ℓ : Type} [Dialogue σ] {r : Run σ (Logged ℓ)} (h : r.Logs)
    (hloss : ∀ (s : σ) loss, (Dialogue.report s loss).loss? = loss) {report : Report}
    (hreport : r.report? = some report) : report.ShownBy r.line.calls := by
  obtain ⟨loss, hdone, rfl⟩ := Run.exists_done_of_report? hreport
  have hbrought := h.brought
  rw [hdone] at hbrought
  obtain ⟨talk, hcalls, htalk⟩ := hbrought
  obtain ⟨earlier, last, rfl, hlast⟩ := htalk.exists_last
  refine ⟨earlier, last, ?_, ?_⟩
  · rw [hcalls, List.append_assoc]
    rfl
  · rwa [hloss]

/-- The calls of a session that is cut off at `limit`. -/
def Program.calls {ℓ : Type} [Line ℓ] (program : Program) (options : Options)
    (limit : Option Nat) (patience : Nat) (line : ℓ) : List Call :=
  (program.run options limit patience (Logged.log line)).line.calls

variable {ℓ : Type} [Line ℓ]

theorem Program.run_log (program : Program) (options : Options) (limit : Option Nat)
    (patience : Nat) (line : ℓ) :
    program.run options limit patience line
      = { program.run options limit patience (Logged.log line) with
          line := (program.run options limit patience (Logged.log line)).line.line } :=
  program.run_unwrap Logged.wraps options limit patience (Logged.log line)

theorem Program.shownBy_calls (program : Program) (options : Options)
    (limit : Option Nat) (patience : Nat) (line : ℓ) {report : Report}
    (h : (program.run options limit patience line).report = some report) :
    report.ShownBy (program.calls options limit patience line) := by
  rw [run_log] at h
  cases program with
  | game =>
    have hlogs := Run.logs_runUntil options.pacing limit
      ((patience + 1) * Dialogue.stride Game) line (Game.start options) rfl
    exact hlogs.shownBy (fun _ _ => rfl) h
  | demo =>
    have hlogs := Run.logs_runUntil options.pacing limit
      ((patience + 1) * Dialogue.stride Demo) line Demo.start rfl
    exact hlogs.shownBy (fun _ _ => rfl) h

theorem Program.asks_calls (program : Program) (options : Options) (limit : Option Nat)
    (patience : Nat) (line : ℓ) {most : Nat} {result : Option (Except Loss Bytes)}
    (hmem : .receive most result ∈ program.calls options limit patience line) :
    most = 1 ∧ program = .game := by
  cases program with
  | game =>
    have hlogs := Run.logs_runUntil options.pacing limit
      ((patience + 1) * Dialogue.stride Game) line (Game.start options) rfl
    exact ⟨(hlogs.asks hmem).1, rfl⟩
  | demo =>
    have hlogs := Run.logs_runUntil options.pacing limit
      ((patience + 1) * Dialogue.stride Demo) line Demo.start rfl
    obtain ⟨-, d, hear, hcue⟩ := hlogs.asks hmem
    exact absurd hcue (d.cue_ne_listen hear)

/-- **A session closes its line once, as its last call.**  Whatever the line answers, every
call but the last one before the close has succeeded, and that one tells how the session
ended: if it failed, its loss is the one that is reported, and otherwise none is.  A
receive is for one octet, and the demonstration makes none. -/
theorem exists_calls_of_report {program : Program} {options : Options}
    {limit : Option Nat} {patience : Nat} {line : ℓ} {report : Report}
    (h : (program.run options limit patience line).report = some report) :
    ∃ earlier last, program.calls options limit patience line = earlier ++ [last, .close] ∧
      last ≠ .close ∧ (∀ call ∈ earlier, call.Succeeds) ∧
      (report.loss? = none ↔ last.Succeeds) ∧
      (∀ loss, report.loss? = some loss ↔ last.FailsWith loss) ∧
      ∀ most result, .receive most result ∈ earlier ++ [last] →
        most = 1 ∧ program = .game := by
  obtain ⟨earlier, last, hcalls, hlast, hearlier, hnone, hsome⟩ :=
    program.shownBy_calls options limit patience line h
  refine ⟨earlier, last, hcalls, hlast, hearlier, hnone, hsome, ?_⟩
  intro most result hmem
  have hcall : .receive most result ∈ program.calls options limit patience line := by
    rw [hcalls, List.append_cons]
    exact List.mem_append_left _ hmem
  exact program.asks_calls options limit patience line hcall

/-- A session on a line that is gone after one key, which the game passes over. -/
theorem exists_calls_strayKey :
    (Program.game.run Options.usual none 2 (Recorded.ofBytes [0x3F])).report
      = some (.game 0 0 .roundActive (some .peerClosed)) ∧
    ∃ earlier last,
      Program.game.calls Options.usual none 2 (Recorded.ofBytes [0x3F])
        = earlier ++ [last, .close] ∧
      (∀ call ∈ earlier, call.Succeeds) ∧ last.FailsWith .peerClosed := by
  have hreport : (Program.game.run Options.usual none 2 (Recorded.ofBytes [0x3F])).report
      = some (.game 0 0 .roundActive (some .peerClosed)) := by
    decide +kernel
  obtain ⟨earlier, last, hcalls, -, hearlier, -, hsome, -⟩ := exists_calls_of_report hreport
  exact ⟨hreport, earlier, last, hcalls, hearlier, (hsome .peerClosed).mp rfl⟩

end TerminalHost
