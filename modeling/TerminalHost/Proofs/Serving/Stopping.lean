import Mathlib.Algebra.Order.BigOperators.Group.List
import Mathlib.Algebra.Order.Group.Nat
import Mathlib.Order.Monotone.Basic
import TerminalHost.Proofs.Serving.Drain
import TerminalHost.Proofs.Serving.Shutdown
import TerminalHost.Proofs.Session.Network

/-!
# A server that is shut down stops

While a server waits for its sessions something can be done: a session takes a step, the
end of one is noticed, time goes by, or the deadline has come.  Each of these leaves less
to do until the deadline.  So the server stops, whatever comes next, if only something is
done now and then as long as something can be done.
-/

namespace TerminalHost

namespace Server

section Sessions

variable {σ : Type} [Dialogue σ] [Dialogue.Lawful σ] {s : Server σ (StreamLine Scripted)}
variable {t deadline : Nat}

/-! ## What is left to do -/

/-- More than the steps of the sessions, the ends to notice and the ticks of the clock
until the server has stopped. -/
def toDo (deadline : Nat) (s : Server σ (StreamLine Scripted)) : Nat :=
  (s.clients.map fun c => c.run.rank + 1).sum + (deadline - s.clock) +
    match s.stage with
    | .stopped _ => 0
    | _ => 1

theorem sum_work_lt (hpatient : ∀ c ∈ s.clients, c.run.Patient) {id : Nat}
    (hready : ∃ c ∈ s.clients, c.isNext id s.clock = true) :
    ((s.work id).clients.map fun c => c.run.rank + 1).sum
      < (s.clients.map fun c => c.run.rank + 1).sum := by
  have hless {c : Client σ (StreamLine Scripted)} (hmem : c ∈ s.clients)
      (hnext : c.isNext id s.clock = true) : (c.run.step s.pacing).rank < c.run.rank :=
    (Run.move_step s.pacing c.run
      (Client.isReady_iff.mp (Client.isReady_of_isNext hnext)).1).rank_lt_of_patient
        (hpatient c hmem)
  have hwork : (s.work id).clients
      = s.clients.map fun c => if c.isNext id s.clock then c.step s.pacing else c := rfl
  rw [hwork, List.map_map]
  apply List.sum_lt_sum
  · intro c hmem
    simp only [Function.comp_apply]
    split
    · exact Nat.succ_le_succ (Nat.le_of_lt (hless hmem ‹_›))
    · exact Nat.le_refl _
  · obtain ⟨c, hmem, hnext⟩ := hready
    refine ⟨c, hmem, ?_⟩
    simp only [Function.comp_apply, hnext, if_true]
    exact Nat.succ_lt_succ (hless hmem hnext)

theorem sum_retire_lt {id : Nat} (hended : ∃ c ∈ s.clients, c.isEnded id = true) :
    ((s.clients.filter fun c => !c.isEnded id).map fun c => c.run.rank + 1).sum
      < (s.clients.map fun c => c.run.rank + 1).sum := by
  obtain ⟨c, hmem, hc⟩ := hended
  have hsplit := ((List.filter_append_perm (Client.isEnded id) s.clients).map
    fun c => c.run.rank + 1).sum_eq
  rw [List.map_append, List.sum_append] at hsplit
  have hone : c.run.rank + 1
      ≤ ((s.clients.filter (Client.isEnded id)).map fun c => c.run.rank + 1).sum :=
    List.single_le_sum (fun _ _ => Nat.zero_le _) _
      (List.mem_map_of_mem (List.mem_filter.mpr ⟨hmem, hc⟩))
  omega

/-- Whatever is done while sessions are waited for leaves less to do. -/
theorem Draining.toDo_lt (h : s.Draining t deadline)
    (hpatient : ∀ c ∈ s.clients, c.run.Patient)
    {event : ServerEvent σ (StreamLine Scripted)} (hreact : s.react event ≠ s) :
    (s.react event).toDo deadline < s.toDo deadline := by
  have hreaction := s.reaction_react event
  generalize s.react event = s' at hreact hreaction
  cases hreaction with
  | still => exact absurd rfl hreact
  | worked hrunning hready =>
    have hless := sum_work_lt hpatient hready
    simp only [toDo, h.stage]
    omega
  | reaped hreaps hended =>
    have hless := sum_retire_lt hended
    simp only [toDo, h.stage]
    omega
  | passed hclock hquiet hidle hmay =>
    rw [mayPass, h.stage, decide_eq_true_eq] at hmay
    simp only [toDo, h.stage]
    omega
  | emptied | expired =>
    simp only [toDo, h.stage, List.map_nil, List.sum_nil]
    omega
  | enrolled hstage | rested hstage | closed hstage | cutOff hstage | drains hstage
  | rose _ _ _ hstage => simp [h.stage] at hstage

/-! ## Something can be done -/

omit [Dialogue.Lawful σ] in
theorem clients_reap (s : Server σ (StreamLine Scripted)) (id : Nat) :
    (s.reap id).clients = s.clients.filter fun c => !c.isEnded id := by
  rw [reap_eq]
  split
  · split <;> rfl
  · rfl

omit [Dialogue.Lawful σ] in
theorem exists_of_not_isQuiet (hquiet : ¬ s.isQuiet = true) :
    ∃ c ∈ s.clients, c.isReady s.clock = true ∨ c.isDone = true := by
  apply Classical.byContradiction
  intro hnone
  apply hquiet
  apply List.all_eq_true.mpr
  intro c hmem
  have hready : c.isReady s.clock = false := by
    simpa using fun hready => hnone ⟨c, hmem, .inl hready⟩
  have hdone : c.isDone = false := by
    simpa using fun hdone => hnone ⟨c, hmem, .inr hdone⟩
  simp [hready, hdone]

theorem Draining.exists_react_ne (h : s.Draining t deadline) (hclock : s.clock ≤ deadline)
    (hpatient : ∀ c ∈ s.clients, c.run.Patient) :
    ∃ event : ServerEvent σ (StreamLine Scripted),
      event.isOutside = false ∧ s.react event ≠ s := by
  by_cases hquiet : s.isQuiet = true
  · rcases Nat.eq_or_lt_of_le hclock with hnow | hlater
    · refine ⟨.expire, rfl, fun hsame => ?_⟩
      have habort : s.react .expire = s.abort := by
        simp only [Server.react, h.stage, hquiet, hnow, Nat.le_refl, decide_true,
          Bool.and_self, if_true]
      have hstage : s.abort.stage = s.stage := by rw [← habort, hsame]
      rw [h.stage] at hstage
      exact Stage.noConfusion hstage
    · refine ⟨.pass (s.clock + 1), rfl, fun hsame => ?_⟩
      have hidle : s.isIdleUntil (s.clock + 1) = true := by
        apply List.all_eq_true.mpr
        intro c hmem
        rw [Bool.or_eq_true, decide_eq_true_eq]
        exact (h.later_of_isQuiet hquiet hmem).2
      have hmay : s.mayPass (s.clock + 1) = true := by
        rw [mayPass, h.stage, decide_eq_true_eq]
        exact hlater
      have hpass : (s.react (.pass (s.clock + 1))).clock = s.clock + 1 := by
        simp only [Server.react, h.stage, pass, hquiet, hidle, hmay, Nat.le_add_right,
          decide_true, Bool.and_self, if_true]
      rw [hsame] at hpass
      omega
  · obtain ⟨c, hmem, hready | hdone⟩ := exists_of_not_isQuiet hquiet
    · refine ⟨.work c.id, rfl, fun hsame => ?_⟩
      have hwork : s.react (.work c.id) = s.work c.id := by simp only [Server.react, h.stage]
      have hnext : c.isNext c.id s.clock = true := by simp [Client.isNext, hready]
      have hless := sum_work_lt hpatient ⟨c, hmem, hnext⟩
      rw [← hwork, hsame] at hless
      exact absurd hless (Nat.lt_irrefl _)
    · refine ⟨.reap c.id, rfl, fun hsame => ?_⟩
      have hreap : s.react (.reap c.id) = s.reap c.id := by
        simp only [Server.react, h.stage, reaps, if_true]
      have hgone : c ∉ (s.react (.reap c.id)).clients := by
        rw [hreap, clients_reap]
        simp [Client.isEnded, hdone]
      rw [hsame] at hgone
      exact hgone hmem

/-! ## Going on until the end -/

/-- The server goes through these states, one event after another, after a shutdown at
`t`. -/
structure WindsUp (t deadline : Nat) (states : Nat → Server σ (StreamLine Scripted)) :
    Prop where
  step (n : Nat) : ∃ event, states (n + 1) = (states n).react event
  closing (n : Nat) : (states n).Closing t deadline
  patient (n : Nat) : ∀ c ∈ (states n).clients, c.run.Patient

variable {states : Nat → Server σ (StreamLine Scripted)}

theorem WindsUp.toDo_lt (h : WindsUp t deadline states) {n : Nat}
    (hmoves : states (n + 1) ≠ states n) :
    (states (n + 1)).toDo deadline < (states n).toDo deadline := by
  obtain ⟨event, hevent⟩ := h.step n
  rw [hevent] at hmoves ⊢
  rcases (h.closing n).way with hdraining | hstopped
  · exact hdraining.toDo_lt (h.patient n) hmoves
  · exact absurd (react_of_stopped hstopped.stage event) hmoves

theorem WindsUp.toDo_antitone (h : WindsUp t deadline states) :
    Antitone fun n => (states n).toDo deadline := by
  apply antitone_nat_of_succ_le
  intro n
  by_cases hsame : states (n + 1) = states n
  · rw [hsame]
  · exact Nat.le_of_lt (h.toDo_lt hsame)

/-- The server stops at last, if something is done again and again as long as something
can be done. -/
theorem WindsUp.exists_stopped (h : WindsUp t deadline states)
    (hfair : ∀ n, (∃ event : ServerEvent σ (StreamLine Scripted),
        event.isOutside = false ∧ (states n).react event ≠ states n) →
      ∃ later, n ≤ later ∧ states (later + 1) ≠ states later) (n : Nat) :
    ∃ last time, (states last).stage = .stopped time := by
  induction hrest : (states n).toDo deadline using Nat.strongRecOn generalizing n with
  | ind rest ih =>
    rcases (h.closing n).way with hdraining | hstopped
    · obtain ⟨later, hle, hmoves⟩ :=
        hfair n (hdraining.exists_react_ne (h.closing n).clock_le (h.patient n))
      have hfewer : (states (later + 1)).toDo deadline < rest :=
        calc (states (later + 1)).toDo deadline
            < (states later).toDo deadline := h.toDo_lt hmoves
          _ ≤ (states n).toDo deadline := h.toDo_antitone hle
          _ = rest := hrest
      exact ih _ hfewer (later + 1) rfl
    · exact ⟨n, _, hstopped.stage⟩

end Sessions

end Server

/-! ## The server of a program -/

namespace Program

variable (program : Program) (network : NetworkSettings) (session : SessionSettings)
variable (bound : BoundAddress)

theorem exists_hosted {β : Type} {event : ServerEvent program.State (StreamLine β)}
    (hinside : event.isOutside = false) :
    ∃ hosted, program.hosted session hosted = event := by
  cases event with
  | work id => exact ⟨.work id, rfl⟩
  | reap id => exact ⟨.reap id, rfl⟩
  | pass time => exact ⟨.pass time, rfl⟩
  | expire => exact ⟨.expire, rfl⟩
  | accept | acceptFails | shutdown => exact Bool.noConfusion hinside

theorem exists_line_of_mem_guests {β : Type} [ByteStream β]
    {events : List (ServerEvent UInt32 (Connection β))} {s : Server program.State (StreamLine β)}
    {guest : Guest program.State (StreamLine β)}
    (hguest : guest ∈ s.guests (events.map (program.hosted session))) :
    ∃ connection : Connection β, guest.line = connection.line session.pacing.sendDelay := by
  induction events generalizing s with
  | nil => exact absurd hguest List.not_mem_nil
  | cons event rest ih =>
    rcases List.mem_append.mp hguest with hnow | hlater
    · cases event with
      | accept seed connection =>
        rw [hosted, Server.admits] at hnow
        split at hnow
        · exact ⟨connection, by rw [List.mem_singleton.mp hnow]⟩
        · exact absurd hnow List.not_mem_nil
      | _ => exact absurd hnow List.not_mem_nil
    · exact ih hlater

theorem patient_of_mem {events : List (ServerEvent UInt32 (Connection Scripted))}
    {c : Client program.State (StreamLine Scripted)}
    (hmem : c ∈ (program.server network session bound events).everyone) : c.run.Patient := by
  obtain ⟨number, guest, -, hguest, count, hrun, -⟩ :=
    (program.roster network session bound events).sessions hmem
  obtain ⟨connection, hline⟩ :=
    program.exists_line_of_mem_guests session (List.mem_of_getElem? hguest)
  rw [hrun]
  refine Run.steps_induction Run.Patient (fun h hmove => h.move hmove) ⟨?_, fun _ => ?_⟩ count
  · show guest.line.readTimeout = none
    rw [hline]
    rfl
  · show guest.line.isOpen = true
    rw [hline]
    rfl

theorem punctual (events : List (ServerEvent UInt32 (Connection Scripted))) :
    (program.server network session bound events).Punctual := by
  have hlisten : (Server.listen program session.pacing network.drainTimeout bound :
      Server program.State (StreamLine Scripted)).Punctual :=
    fun c hmem => absurd hmem List.not_mem_nil
  exact hlisten.reactAll StreamLine.timely (events.map (program.hosted session))

/-- A session ends when the program, run on its line alone, returns. -/
theorem endsAt_iff_comesTo {ℓ : Type} [Line ℓ] {options : Options} {time e : Nat} {line : ℓ} :
    (⟨program.start options, line, time⟩ : Guest program.State ℓ).EndsAt options.pacing e
      ↔ ∃ outcome, program.ComesTo options time none line outcome ∧
          outcome.report.isSome = true ∧ outcome.now = e := by
  constructor
  · rintro ⟨count, hsome, hnow⟩
    obtain ⟨report, hreport⟩ := Option.isSome_iff_exists.mp hsome
    exact ⟨_, comesTo_of_isOver (Run.isOver_of_report? hreport), hsome, hnow⟩
  · rintro ⟨outcome, ⟨enough, henough⟩, hsome, hnow⟩
    have houtcome := henough enough (Nat.le_refl enough)
    rw [runFrom, Run.runOut, Run.runUntil_none] at houtcome
    rw [← houtcome] at hsome hnow
    exact ⟨_, hsome, hnow⟩

def serverAlong (events : List (ServerEvent UInt32 (Connection Scripted)))
    (schedule : Nat → ServerEvent UInt32 (Connection Scripted)) (count : Nat) :
    Server program.State (StreamLine Scripted) :=
  program.server network session bound (events ++ (List.range count).map schedule)

/-- As long as something can be done, the schedule does something again and again. -/
def Fair (events : List (ServerEvent UInt32 (Connection Scripted)))
    (schedule : Nat → ServerEvent UInt32 (Connection Scripted)) : Prop :=
  ∀ count,
    (∃ event, (program.serverAlong network session bound events schedule count).react
        (program.hosted session event)
      ≠ program.serverAlong network session bound events schedule count) →
    ∃ later, count ≤ later ∧
      program.serverAlong network session bound events schedule (later + 1)
        ≠ program.serverAlong network session bound events schedule later

theorem serverAlong_succ (events : List (ServerEvent UInt32 (Connection Scripted)))
    (schedule : Nat → ServerEvent UInt32 (Connection Scripted)) (count : Nat) :
    program.serverAlong network session bound events schedule (count + 1)
      = (program.serverAlong network session bound events schedule count).react
          (program.hosted session (schedule count)) := by
  rw [serverAlong, List.range_succ, List.map_append, ← List.append_assoc, server_append]
  rfl

def serverBy (next : Server program.State (StreamLine Scripted) →
      ServerEvent UInt32 (Connection Scripted))
    (s : Server program.State (StreamLine Scripted)) :
    Nat → Server program.State (StreamLine Scripted)
  | 0 => s
  | count + 1 =>
    (serverBy next s count).react (program.hosted session (next (serverBy next s count)))

theorem serverAlong_by (events : List (ServerEvent UInt32 (Connection Scripted)))
    (next : Server program.State (StreamLine Scripted) →
      ServerEvent UInt32 (Connection Scripted)) (count : Nat) :
    program.serverAlong network session bound events
        (fun n => next (program.serverBy session next
          (program.server network session bound events) n)) count
      = program.serverBy session next (program.server network session bound events) count := by
  induction count with
  | zero =>
    rw [serverAlong, List.range_zero, List.map_nil, List.append_nil]
    rfl
  | succ count ih =>
    rw [serverAlong_succ, ih]
    rfl

theorem exists_fair (events : List (ServerEvent UInt32 (Connection Scripted))) :
    ∃ schedule, program.Fair network session bound events schedule := by
  have hsome (s : Server program.State (StreamLine Scripted)) :
      ∃ next, (∃ event, s.react (program.hosted session event) ≠ s) →
        s.react (program.hosted session next) ≠ s := by
    by_cases hevent : ∃ event, s.react (program.hosted session event) ≠ s
    · obtain ⟨event, hmoves⟩ := hevent
      exact ⟨event, fun _ => hmoves⟩
    · exact ⟨.expire, fun h => absurd h hevent⟩
  choose next hnext using hsome
  exists fun n => next (program.serverBy session next
    (program.server network session bound events) n)
  intro count hevent
  rw [serverAlong_by] at hevent
  refine ⟨count, Nat.le_refl count, ?_⟩
  rw [serverAlong_by, serverAlong_by]
  exact hnext _ hevent

variable {program network session bound}
variable {before : List (ServerEvent UInt32 (Connection Scripted))}
variable (hstage : (program.server network session bound before).stage = .accepting)

theorem server_shutdown (after : List (ServerEvent UInt32 (Connection Scripted))) :
    program.server network session bound (before ++ .shutdown :: after)
      = ((program.server network session bound before).react .shutdown).reactAll
          (after.map (program.hosted session)) := by
  rw [server_append]
  rfl

include hstage

theorem aborted_of_accepting : (program.server network session bound before).aborted = [] :=
  (Server.isOpen_of_reactAll (Server.isOpen_of_accepting hstage)).2

theorem closing_shutdown :
    ((program.server network session bound before).react .shutdown).Closing
      (program.server network session bound before).clock
      ((program.server network session bound before).clock + network.drainTimeout.ticks) := by
  have hclosing := Server.closing_shutdown hstage (aborted_of_accepting hstage)
    (program.punctual network session bound before)
  rwa [(program.settings_server network session bound before).2] at hclosing

theorem closing_after (after : List (ServerEvent UInt32 (Connection Scripted))) :
    (program.server network session bound (before ++ .shutdown :: after)).Closing
      (program.server network session bound before).clock
      ((program.server network session bound before).clock + network.drainTimeout.ticks) := by
  have hpunctual := (program.punctual network session bound before).react StreamLine.timely
    .shutdown
  rw [server_shutdown]
  exact (closing_shutdown hstage).reactAll StreamLine.timely hpunctual _

theorem guests_shutdown (after : List (ServerEvent UInt32 (Connection Scripted))) :
    program.guests network session bound (before ++ .shutdown :: after)
      = program.guests network session bound before := by
  have hlater : (program.server network session bound before).guests
      ((.shutdown :: after).map (program.hosted session)) = [] :=
    (List.nil_append _).trans
      (Server.guests_of_not_isOpen (closing_shutdown hstage).isOpen_eq_false)
  rw [program.guests_after, hlater, List.append_nil]

theorem exists_endsAt_of_isDone
    (hdone : ∀ c ∈ (program.server network session bound before).clients, c.isDone = true)
    {guest : Guest program.State (StreamLine Scripted)}
    (hguest : guest ∈ program.guests network session bound before) :
    ∃ e ≤ (program.server network session bound before).clock,
      guest.EndsAt session.pacing e := by
  have hroster := program.roster network session bound before
  obtain ⟨number, hnumber⟩ := List.getElem?_of_mem hguest
  obtain ⟨c, hmem, -, hattends⟩ := hroster.exists_client hnumber
  rw [Server.everyone, aborted_of_accepting hstage, List.append_nil] at hmem
  have hover : c.isDone = true := by
    rcases List.mem_append.mp hmem with hclient | hfinished
    · exact hdone c hclient
    · exact hroster.finished hfinished
  have hend := hattends.endsAt hover
  rw [(program.settings_server network session bound before).1] at hend
  exact ⟨_, hattends.now_le (Client.isOver_of_isDone hover), hend⟩

omit hstage

/-! ## What comes of a fault and of the shutdown -/

section Comings

variable (program network session bound before)

/-- A connection that fails to come at the time `t` is no guest and takes no number, and
for 100 milliseconds no guest comes after it. -/
structure RestsAfter (fault : Fault) (t : Nat) : Prop where
  everyone : (program.server network session bound (before ++ [.acceptFails fault])).everyone
    = (program.server network session bound before).everyone
  accepted : (program.server network session bound (before ++ [.acceptFails fault])).accepted
    = (program.server network session bound before).accepted
  guests (after : List (ServerEvent UInt32 (Connection Scripted))) :
    ∃ later, program.guests network session bound (before ++ .acceptFails fault :: after)
        = program.guests network session bound before ++ later ∧
      ∀ guest ∈ later, t + 100 ≤ guest.time

/-- How a server ends that meets the shutdown at the time `t`. -/
structure ShutsDown (t deadline : Nat) : Prop where
  /-- No guest comes any more. -/
  guests (after : List (ServerEvent UInt32 (Connection Scripted))) :
    program.guests network session bound (before ++ .shutdown :: after)
      = program.guests network session bound before
  /-- Sessions are aborted at the deadline and never before. -/
  aborts (after : List (ServerEvent UInt32 (Connection Scripted)))
    (h : (program.server network session bound (before ++ .shutdown :: after)).aborted ≠ []) :
    (program.server network session bound (before ++ .shutdown :: after)).stage
      = .stopped deadline
  settles (after : List (ServerEvent UInt32 (Connection Scripted))) {time : Nat}
    (h : (program.server network session bound (before ++ .shutdown :: after)).stage
      = .stopped time) :
    (program.server network session bound (before ++ .shutdown :: after)).Settled t deadline
      time (program.guests network session bound before)
  /-- If no session is active, the server stops at once. -/
  empty (after : List (ServerEvent UInt32 (Connection Scripted))) {time : Nat}
    (h : (program.server network session bound (before ++ .shutdown :: after)).stage
      = .stopped time)
    (hdone : ∀ c ∈ (program.server network session bound before).clients, c.isDone = true) :
    time = t
  /-- The server does stop. -/
  stops (schedule : Nat → ServerEvent UInt32 (Connection Scripted))
    (h : program.Fair network session bound (before ++ [.shutdown]) schedule) :
    ∃ count time, (program.server network session bound
      (before ++ .shutdown :: (List.range count).map schedule)).stage = .stopped time

end Comings

include hstage

theorem restsAfter (fault : Fault) :
    program.RestsAfter network session bound before fault
      (program.server network session bound before).clock where
  everyone := by
    rw [server_append]
    show ((program.server network session bound before).react (.acceptFails fault)).everyone = _
    simp only [Server.react, hstage]
    rfl
  accepted := by
    rw [server_append]
    show ((program.server network session bound before).react (.acceptFails fault)).accepted = _
    simp only [Server.react, hstage]
    rfl
  guests after := by
    refine ⟨_, program.guests_after network session bound before _, fun guest hguest => ?_⟩
    have hrest := Server.restsUntil_acceptFails hstage fault
    have hlater := hrest.le_time
      (show guest ∈ Server.guests _ (after.map (program.hosted session)) from hguest)
    rwa [Server.acceptRetry, Duration.ticks_ofMillis] at hlater

theorem shutsDown :
    program.ShutsDown network session bound before
      (program.server network session bound before).clock
      ((program.server network session bound before).clock + network.drainTimeout.ticks) where
  guests := guests_shutdown hstage
  aborts after h := (closing_after hstage after).stage_of_aborted h
  settles after time h := by
    have hroster := program.roster network session bound (before ++ .shutdown :: after)
    rw [guests_shutdown hstage] at hroster
    exact (closing_after hstage after).settled StreamLine.timely hroster h
  empty after time h hdone := by
    have hroster := program.roster network session bound (before ++ .shutdown :: after)
    rw [guests_shutdown hstage] at hroster
    apply (closing_after hstage after).eq_of_early StreamLine.timely hroster h
    rw [(program.settings_server network session bound _).1]
    exact fun guest => exists_endsAt_of_isDone hstage hdone
  stops schedule h := by
    have halong (count : Nat) :
        program.serverAlong network session bound (before ++ [.shutdown]) schedule count
          = program.server network session bound
              (before ++ .shutdown :: (List.range count).map schedule) := by
      rw [serverAlong, List.append_assoc, List.singleton_append]
    have hwinds : Server.WindsUp (program.server network session bound before).clock
        ((program.server network session bound before).clock + network.drainTimeout.ticks)
        (program.serverAlong network session bound (before ++ [.shutdown]) schedule) := by
      refine ⟨fun count => ⟨_, serverAlong_succ ..⟩, fun count => ?_, fun count c hmem => ?_⟩
      · rw [halong]
        exact closing_after hstage _
      · exact program.patient_of_mem network session bound
          (List.mem_append_left _ (List.mem_append_left _ hmem))
    have hstopped := hwinds.exists_stopped (fun count hcan => by
      obtain ⟨event, hinside, hmoves⟩ := hcan
      obtain ⟨hosted, rfl⟩ := program.exists_hosted session hinside
      exact h count ⟨hosted, hmoves⟩) 0
    simpa only [halong] using hstopped

end Program

/-- **The accounts of a server and its end.**  At any time the clients of a server account
for its guests: the guests have the numbers from one on as they come, each of them is one
client with one session, and each session is going on, has come to its end or was aborted.
A connection that fails to come only makes the server rest.  A shutdown leaves the sessions
the time until the deadline: those that alone end before come to their ends, those that
alone go on are aborted then, and the server stops with no client left, at once if no
session is active, with the last session if all of them end in time, and otherwise at the
deadline. -/
theorem serves_and_drains (program : Program) (network : NetworkSettings)
    (session : SessionSettings) (bound : BoundAddress) :
    (∀ events : List (ServerEvent UInt32 (Connection Scripted)),
      (program.server network session bound events).Roster
        (program.guests network session bound events)) ∧
    ∀ (before : List (ServerEvent UInt32 (Connection Scripted))) (t : Nat),
      (program.server network session bound before).stage = .accepting →
      (program.server network session bound before).clock = t →
      (∀ fault, program.RestsAfter network session bound before fault t) ∧
      program.ShutsDown network session bound before t (t + network.drainTimeout.ticks) := by
  refine ⟨program.roster network session bound, ?_⟩
  rintro before t hstage rfl
  exact ⟨Program.restsAfter hstage, Program.shutsDown hstage⟩

def Connection.late : Connection Scripted :=
  ⟨"late", Scripted.ofEvents [.delay 20, .bytes [0x41]]⟩

def Connection.silent : Connection Scripted :=
  ⟨"silent", { Scripted.ofEvents [] with staysOpen := true }⟩

def ServerEvent.arrivals : List (ServerEvent UInt32 (Connection Scripted)) :=
  [.accept 1 .late, .accept 2 .silent]

/-- What happens until the first of the two sessions has ended and the other is aborted. -/
def ServerEvent.waits : List (ServerEvent UInt32 (Connection Scripted)) :=
  (List.replicate 60 [.work 1, .work 2]).flatten ++ .pass 20 :: List.replicate 60 (.work 1)
    ++ [.reap 1, .pass 50, .expire]

theorem Server.waits_facts :
    (Program.game.server .brief .brief .brief
      (ServerEvent.arrivals ++ .shutdown :: ServerEvent.waits)).stage = .stopped 50 := by
  decide +kernel

def Guest.late : Guest (Program.State .game) (StreamLine Scripted) :=
  ⟨Program.game.start (SessionSettings.brief.options 1),
    Connection.late.line SessionSettings.brief.pacing.sendDelay, 0⟩

def Guest.silent : Guest (Program.State .game) (StreamLine Scripted) :=
  ⟨Program.game.start (SessionSettings.brief.options 2),
    Connection.silent.line SessionSettings.brief.pacing.sendDelay, 0⟩

theorem Guest.endsAt_late : Guest.late.EndsAt SessionSettings.brief.pacing 20 :=
  ⟨84, by decide +kernel, by decide +kernel⟩

theorem Guest.not_endsAt_silent (time : Nat) :
    ¬ Guest.silent.EndsAt SessionSettings.brief.pacing time := by
  have hover : (Guest.silent.session.steps SessionSettings.brief.pacing 46).isOver = true := by
    decide +kernel
  have hnone : (Guest.silent.session.steps SessionSettings.brief.pacing 46).report? = none := by
    decide +kernel
  exact Guest.not_endsAt hover hnone time

theorem serves_and_drains_arrivals :
    (Program.game.server .brief .brief .brief ServerEvent.arrivals).stage = .accepting ∧
    Program.game.RestsAfter .brief .brief .brief ServerEvent.arrivals
      (Fault.ofKind .connectionAborted) 0 ∧
    (∃ c ∈ (Program.game.server .brief .brief .brief
        (ServerEvent.arrivals ++ .shutdown :: ServerEvent.waits)).finished,
      c.id = 1 ∧ c.run.now = 20) ∧
    (∃ c ∈ (Program.game.server .brief .brief .brief
        (ServerEvent.arrivals ++ .shutdown :: ServerEvent.waits)).aborted, c.id = 2) ∧
    ∃ schedule, Program.game.Fair .brief .brief .brief
        (ServerEvent.arrivals ++ [.shutdown]) schedule ∧
      ∃ count time, (Program.game.server .brief .brief .brief
        (ServerEvent.arrivals ++ .shutdown :: (List.range count).map schedule)).stage
          = .stopped time := by
  obtain ⟨hfault, hshutdown⟩ := (serves_and_drains .game .brief .brief .brief).2
    ServerEvent.arrivals 0 rfl rfl
  have hsettled := hshutdown.settles ServerEvent.waits Server.waits_facts
  have hpacing := (Program.game.settings_server .brief .brief .brief
    (ServerEvent.arrivals ++ .shutdown :: ServerEvent.waits)).1
  obtain ⟨schedule, hfair⟩ := Program.game.exists_fair .brief .brief .brief
    (ServerEvent.arrivals ++ [.shutdown])
  refine ⟨rfl, hfault _, ?_, ?_, schedule, hfair, hshutdown.stops schedule hfair⟩
  · have hguest : (Program.game.guests .brief .brief .brief ServerEvent.arrivals)[0]?
        = some Guest.late := rfl
    refine hsettled.ended hguest ?_ (.inl (by decide))
    rw [hpacing]
    exact Guest.endsAt_late
  · have hguest : (Program.game.guests .brief .brief .brief ServerEvent.arrivals)[1]?
        = some Guest.silent := rfl
    refine hsettled.cut hguest fun e hend => ?_
    rw [hpacing] at hend
    exact absurd hend (Guest.not_endsAt_silent e)

end TerminalHost
