import TerminalHost.Proofs.Serving.Roster
import TerminalHost.Proofs.Serving.Shutdown
import TerminalHost.Proofs.Session.Network

/-!
# The clients of a server do not disturb each other

The server interleaves the steps of all sessions, and each session only takes steps of its
own.  So whatever the other clients do, and whatever becomes of them, a client receives
what the program sends on its connection alone.
-/

namespace TerminalHost

variable {program : Program}

/-- What a client of a server has, beside what its session alone comes to. -/
structure Server.Isolates (s : Server program.State (StreamLine Scripted)) (options : Options)
    (time : Nat) (line : StreamLine Scripted)
    (client : Client program.State (StreamLine Scripted))
    (alone : Outcome (StreamLine Scripted)) : Prop where
  comes : program.ComesTo options time none line alone
  received : client.run.line.stream.accepted <+: alone.line.stream.accepted
  finished (h : client ∈ s.finished) :
    client.run.outcome = alone ∧ alone.report.isSome = true
  /-- When nothing can be done at present, nothing has been left out. -/
  present (h : client ∈ s.clients) (hquiet : s.isQuiet = true) :
    program.ComesTo options time (some s.clock) line client.run.outcome

namespace Server

theorem exists_isolates {s : Server program.State (StreamLine Scripted)}
    {guests : List (Guest program.State (StreamLine Scripted))} (h : s.Roster guests)
    {options : Options} {time : Nat} {line : StreamLine Scripted}
    (hpacing : s.pacing = options.pacing)
    (hline : line.readTimeout = none) (hopen : line.isOpen = true)
    {client : Client program.State (StreamLine Scripted)}
    (hattends : client.Attends s.pacing s.clock ⟨program.start options, line, time⟩) :
    ∃ alone, s.Isolates options time line client alone := by
  obtain ⟨count, hrun, htime⟩ := hattends
  rw [hpacing] at hrun htime
  have hpatient : (Guest.session ⟨program.start options, line, time⟩).Patient :=
    ⟨hline, fun _ => hopen⟩
  obtain ⟨enough, hover⟩ := hpatient.exists_isOver options.pacing
  refine ⟨_, Program.comesTo_of_isOver hover, ?_, fun hfinished => ?_, fun hclient hquiet => ?_⟩
  · show client.run.line.stream.accepted <+: _
    rw [hrun]
    rcases Nat.le_total count enough with hle | hle
    · exact Run.accepted_prefix_steps options.pacing _ hle
    · rw [Run.steps_eq_of_isOver hle hover]
      exact List.prefix_rfl
  · have hdone := h.finished hfinished
    have hsame : client.run = _ :=
      hrun.trans (Run.steps_eq_steps_of_isOver (hrun ▸ Client.isOver_of_isDone hdone) hover)
    rw [Client.isDone, hsame] at hdone
    exact ⟨congrArg Run.outcome hsame, hdone⟩
  · rw [hrun]
    apply Program.comesTo_of_stop htime
    have hbusy := List.all_eq_true.mp hquiet client hclient
    simp only [Client.isReady, hrun, Bool.and_eq_true, Bool.not_eq_true', Bool.and_eq_false_iff,
      Bool.not_eq_false', decide_eq_false_iff_not, not_le] at hbusy
    exact hbusy.1

end Server

namespace Program

variable {β : Type} {session : SessionSettings}

theorem shutdown_mem_hosted {events : List (ServerEvent UInt32 (Connection β))} :
    .shutdown ∈ events.map (program.hosted session) ↔ .shutdown ∈ events := by
  rw [List.mem_map]
  constructor
  · rintro ⟨event, hmem, hevent⟩
    cases event <;> first | exact hmem | cases hevent
  · exact fun hmem => ⟨.shutdown, hmem, rfl⟩

end Program

/-- **A client has its session to itself.**  A connection that comes while the server
accepts gets a client with the next number, and no other client gets that number.  Once the
session has ended, the client has received exactly what the program sends on its connection
alone, at the same times, and the report is the same.  Until then it has received a first
part of that: whenever the server has nothing left to do, all that was to be sent by the
present time.  Only after a shutdown that is all it ever receives. -/
theorem exists_isolated_client (program : Program) (network : NetworkSettings)
    (session : SessionSettings) (bound : BoundAddress)
    {before : List (ServerEvent UInt32 (Connection Scripted))}
    (hstage : (program.server network session bound before).stage = .accepting)
    (seed : UInt32) (connection : Connection Scripted)
    (after : List (ServerEvent UInt32 (Connection Scripted)))
    {s : Server program.State (StreamLine Scripted)}
    (hs : s = program.server network session bound
      (before ++ .accept seed connection :: after)) :
    ∃ client alone, client ∈ s.everyone ∧
      client.id = (program.server network session bound before).accepted + 1 ∧
      (∀ other ∈ s.everyone, other.id = client.id → other = client) ∧
      s.Isolates (session.options seed) (program.server network session bound before).clock
        (connection.line session.pacing.sendDelay) client alone ∧
      (client ∈ s.aborted → .shutdown ∈ after) := by
  subst hs
  have hroster := program.roster network session bound
    (before ++ .accept seed connection :: after)
  have hpacing := (program.settings_server network session bound
    (before ++ .accept seed connection :: after)).1
  have hguest : (program.guests network session bound
      (before ++ .accept seed connection :: after))[
        (program.server network session bound before).accepted]?
      = some ⟨program.start (session.options seed),
          connection.line session.pacing.sendDelay,
          (program.server network session bound before).clock⟩ := by
    rw [(program.roster network session bound before).accepted, program.guests_after,
      List.getElem?_append_right (Nat.le_refl _), Nat.sub_self, List.map_cons, Server.guests]
    show (Server.admits _ (.accept _ _) ++ _)[0]? = _
    rw [Server.admits, if_pos hstage]
    rfl
  obtain ⟨client, hmem, hid, hattends⟩ := hroster.exists_client hguest
  obtain ⟨alone, halone⟩ := Server.exists_isolates hroster hpacing rfl rfl hattends
  refine ⟨client, alone, hmem, hid, ?_, halone, fun haborted => ?_⟩
  · exact fun other hother hsame => hroster.eq_of_id hother hmem hsame
  · by_contra hnone
    have hopen : (program.server network session bound
        (before ++ .accept seed connection :: after)).isOpen = true := by
      rw [program.server_append]
      apply Server.isOpen_reactAll (Server.isOpen_of_accepting hstage)
      rw [Program.shutdown_mem_hosted]
      simpa using hnone
    rw [Program.server] at hopen haborted
    rw [(Server.isOpen_of_reactAll hopen).2] at haborted
    exact absurd haborted List.not_mem_nil

def Connection.prompt : Connection Scripted := ⟨"prompt", Scripted.ofEvents [.bytes [0x41]]⟩

def Connection.broken : Connection Scripted :=
  ⟨"broken", { Scripted.ofEvents [] with writeFault := some (3, Fault.ofKind .brokenPipe) }⟩

/-- What happens when two sessions go on by turns until both have ended. -/
def ServerEvent.turns : List (ServerEvent UInt32 (Connection Scripted)) :=
  (List.replicate 90 [.work 1, .work 2]).flatten ++ [.reap 1, .reap 2]

theorem Server.turns_facts :
    (Program.game.server .brief .brief .brief
      ([.accept 1 .broken] ++ .accept 2 .prompt :: ServerEvent.turns)).finished.map
        (fun client => (client.id, client.run.report?))
      = [(1, some (.game 0 0 .welcome (some (.fault (Fault.ofKind .brokenPipe))))),
        (2, some (.game 1 0 .replayPrompt (some .peerClosed)))] := by
  decide +kernel

theorem exists_isolated_client_turns :
    (Program.game.server .brief .brief .brief [.accept 1 Connection.broken]).stage
      = .accepting ∧
    ∃ alone, Program.game.ComesTo (SessionSettings.brief.options 2) 0 none
        (Connection.prompt.line Duration.zero) alone ∧
      alone.report = some (.game 1 0 .replayPrompt (some .peerClosed)) ∧
      ∃ client ∈ (Program.game.server .brief .brief .brief
          ([.accept 1 .broken] ++ .accept 2 .prompt :: ServerEvent.turns)).finished,
        client.run.outcome = alone := by
  have hfacts := Server.turns_facts
  obtain ⟨client, alone, -, hid, hunique, halone, -⟩ :=
    exists_isolated_client .game .brief .brief .brief
      (rfl : (Program.game.server .brief .brief .brief [.accept 1 Connection.broken]).stage
        = .accepting) 2 .prompt ServerEvent.turns rfl
  have hmem : (2, some (.game 1 0 .replayPrompt (some .peerClosed)))
      ∈ (Program.game.server .brief .brief .brief
          ([.accept 1 .broken] ++ .accept 2 .prompt :: ServerEvent.turns)).finished.map
        (fun client => (client.id, client.run.report?)) := by
    rw [hfacts]
    exact List.mem_cons_of_mem _ (List.mem_singleton.mpr rfl)
  obtain ⟨other, hother, hpair⟩ := List.mem_map.mp hmem
  obtain ⟨hnumber, hreport⟩ := Prod.mk.inj hpair
  obtain rfl : other = client :=
    hunique other (List.mem_append_left _ (List.mem_append_right _ hother))
      (hnumber.trans hid.symm)
  refine ⟨rfl, alone, halone.comes, ?_, other, hother, (halone.finished hother).1⟩
  rw [← (halone.finished hother).1]
  exact hreport

end TerminalHost
