import Mathlib.Order.Bounds.Basic
import TerminalHost.Proofs.Serving.Roster

/-!
# The end of a server

A shutdown that finds clients leaves their sessions the time until a deadline.  Time only
goes by when nothing can be done, so no session falls behind the clock, and the end of a
session is noticed at the time at which it comes.  So the server stops with the last of its
sessions, or at the deadline, and then the sessions that are aborted are those that alone
would go on.
-/

namespace TerminalHost

variable {σ ℓ : Type} [Dialogue σ] [Line ℓ] {left : ℓ → Nat}

/-- The session of a guest, alone, comes to its end at a time. -/
def Guest.EndsAt (pacing : Pacing) (guest : Guest σ ℓ) (time : Nat) : Prop :=
  ∃ count, (guest.session.steps pacing count).report?.isSome = true ∧
    (guest.session.steps pacing count).now = time

theorem Guest.EndsAt.unique {pacing : Pacing} {guest : Guest σ ℓ} {time other : Nat}
    (h : guest.EndsAt pacing time) (hother : guest.EndsAt pacing other) : time = other := by
  obtain ⟨count, hsome, rfl⟩ := h
  obtain ⟨enough, hsome', rfl⟩ := hother
  obtain ⟨report, hreport⟩ := Option.isSome_iff_exists.mp hsome
  obtain ⟨report', hreport'⟩ := Option.isSome_iff_exists.mp hsome'
  rw [Run.steps_eq_steps_of_isOver (Run.isOver_of_report? hreport)
    (Run.isOver_of_report? hreport')]

theorem Guest.not_endsAt {pacing : Pacing} {guest : Guest σ ℓ} {enough : Nat}
    (hover : (guest.session.steps pacing enough).isOver = true)
    (hnone : (guest.session.steps pacing enough).report? = none) (time : Nat) :
    ¬ guest.EndsAt pacing time := by
  rintro ⟨count, hsome, -⟩
  obtain ⟨report, hreport⟩ := Option.isSome_iff_exists.mp hsome
  rw [Run.steps_eq_steps_of_isOver (Run.isOver_of_report? hreport) hover, hnone] at hreport
  exact Option.some_ne_none report hreport.symm

namespace Client

variable {pacing : Pacing} {clock time : Nat} {guest : Guest σ ℓ} {c : Client σ ℓ}

theorem Attends.endsAt (h : c.Attends pacing clock guest) (hdone : c.isDone = true) :
    guest.EndsAt pacing c.run.now := by
  obtain ⟨count, hrun, -⟩ := h
  exact ⟨count, hrun ▸ hdone, congrArg Run.now hrun.symm⟩

/-- A session that has not come to its end, and comes to it alone, is still on the way. -/
theorem Attends.le_of_endsAt (h : c.Attends pacing clock guest) (htimely : Line.Timely left)
    (hdone : c.isDone = false) (hend : guest.EndsAt pacing time) :
    c.run.isOver = false ∧ c.run.now ≤ time := by
  obtain ⟨count, hrun, -⟩ := h
  obtain ⟨enough, hsome, rfl⟩ := hend
  obtain ⟨report, hreport⟩ := Option.isSome_iff_exists.mp hsome
  have hover := Run.isOver_of_report? hreport
  rw [isDone, hrun] at hdone
  rw [hrun]
  have hgoing : (guest.session.steps pacing count).isOver = false := by
    apply Bool.eq_false_iff.mpr
    intro hcount
    rw [Run.steps_eq_steps_of_isOver hcount hover, hsome] at hdone
    exact Bool.noConfusion hdone
  have hle : count ≤ enough := by
    apply Nat.le_of_not_lt
    intro hlt
    rw [Run.steps_eq_of_isOver (Nat.le_of_lt hlt) hover, hover] at hgoing
    exact Bool.noConfusion hgoing
  exact ⟨hgoing, Run.now_le_steps htimely pacing _ hle⟩

theorem Attends.now_eq_of_endsAt (h : c.Attends pacing clock guest) (hdone : c.isDone = true)
    (hend : guest.EndsAt pacing time) : c.run.now = time :=
  (h.endsAt hdone).unique hend

end Client

namespace Server

variable {s s' : Server σ ℓ} {t deadline : Nat}

/-! ## No session falls behind -/

/-- No session has a step to take that should have begun before the time of the clock. -/
def Punctual (s : Server σ ℓ) : Prop :=
  ∀ c ∈ s.clients, c.run.isOver = true ∨ s.clock ≤ c.run.now

theorem Punctual.react (h : s.Punctual) (htimely : Line.Timely left)
    (event : ServerEvent σ ℓ) : (s.react event).Punctual := by
  have hidle {time : Nat} (hidle : s.isIdleUntil time = true) :
      ∀ c ∈ s.clients, c.run.isOver = true ∨ time ≤ c.run.now := by
    intro c hmem
    simpa using List.all_eq_true.mp hidle c hmem
  have hreaction := s.reaction_react event
  generalize s.react event = s' at hreaction
  cases hreaction with
  | still | rested | closed | drains => exact h
  | enrolled =>
    intro c hmem
    rcases List.mem_append.mp hmem with hold | hnew
    · exact h c hold
    · rw [List.mem_singleton.mp hnew]
      exact .inr (Nat.le_refl _)
  | worked =>
    intro c hmem
    rcases mem_clients_work hmem with hsame | ⟨before, hbefore, hready, rfl⟩
    · exact h c hsame
    · obtain ⟨hgoing, hnow⟩ := Client.isReady_iff.mp hready
      right
      calc s.clock ≤ before.run.now := (h before hbefore).resolve_left (by simp [hgoing])
        _ ≤ (before.run.step s.pacing).now :=
          (Run.move_step s.pacing before.run hgoing).now_le htimely
  | reaped => exact fun c hmem => h c (List.mem_of_mem_filter hmem)
  | cutOff | emptied | expired => exact fun c hmem => absurd hmem List.not_mem_nil
  | passed _ _ huntil | rose _ _ huntil => exact hidle huntil

theorem Punctual.reactAll (h : s.Punctual) (htimely : Line.Timely left)
    (events : List (ServerEvent σ ℓ)) : (s.reactAll events).Punctual := by
  induction events generalizing s with
  | nil => exact h
  | cons event rest ih => exact ih (h.react htimely event)

/-! ## The way to the end -/

structure Draining (t deadline : Nat) (s : Server σ ℓ) : Prop where
  stage : s.stage = .draining deadline
  clients : s.clients ≠ []
  aborted : s.aborted = []
  /-- An end that has not been noticed came just now. -/
  fresh : s.clock = t ∨ ∀ c ∈ s.clients, c.isDone = true → c.run.now = s.clock

structure Stopped (t deadline : Nat) (s : Server σ ℓ) : Prop where
  stage : s.stage = .stopped s.clock
  clients : s.clients = []
  onTime : s.aborted ≠ [] → s.clock = deadline
  /-- No session was aborted that would have come to its end in time. -/
  late : ∀ c ∈ s.aborted, c.run.isOver = true ∨
    deadline ≤ c.run.now ∧ (s.drainTimeout ≠ Duration.zero → deadline < c.run.now)
  /-- The server did not wait longer than for its last session. -/
  last : s.clock = t ∨ s.aborted ≠ [] ∨ ∃ c ∈ s.finished, c.run.now = s.clock

structure Closing (t deadline : Nat) (s : Server σ ℓ) : Prop where
  since : t ≤ s.clock
  clock_le : s.clock ≤ deadline
  way : s.Draining t deadline ∨ s.Stopped t deadline

theorem closing_shutdown (hstage : s.stage = .accepting) (haborted : s.aborted = [])
    (hpunctual : s.Punctual) :
    (s.react .shutdown).Closing s.clock (s.clock + s.drainTimeout.ticks) := by
  have hreaction := s.reaction_react .shutdown
  generalize s.react .shutdown = s' at hreaction
  cases hreaction with
  | still _ hinside => exact Bool.noConfusion (hinside hstage)
  | closed _ hclients =>
    refine ⟨Nat.le_refl _, Nat.le_add_right _ _, .inr ⟨rfl, hclients, ?_, ?_, .inl rfl⟩⟩
    · exact fun hsome => absurd haborted hsome
    · intro c hmem
      exact absurd (haborted ▸ hmem : c ∈ []) List.not_mem_nil
  | cutOff _ hzero =>
    have hticks : s.clock + s.drainTimeout.ticks = s.clock := by rw [hzero]; rfl
    rw [hticks]
    refine ⟨Nat.le_refl _, Nat.le_refl _, .inr ⟨rfl, rfl, fun _ => rfl, ?_, .inl rfl⟩⟩
    intro c hmem
    rw [haborted, List.nil_append] at hmem
    exact (hpunctual c (List.mem_of_mem_filter hmem)).imp_right fun hle =>
      ⟨hle, fun hsome => absurd hzero hsome⟩
  | drains _ hclients =>
    exact ⟨Nat.le_refl _, Nat.le_add_right _ _, .inl ⟨rfl, hclients, haborted, .inl rfl⟩⟩

omit [Line ℓ] in
/-- When nothing can be done while sessions are waited for, they all go on later. -/
theorem Draining.later_of_isQuiet (h : s.Draining t deadline) (hquiet : s.isQuiet = true)
    {c : Client σ ℓ} (hmem : c ∈ s.clients) :
    c.isDone = false ∧ (c.run.isOver = true ∨ s.clock < c.run.now) := by
  have hreaps : s.reaps = true := by rw [reaps, h.stage]
  have hstill := List.all_eq_true.mp hquiet c hmem
  simp only [hreaps, Client.isReady, Bool.true_and, Bool.and_eq_true, Bool.not_eq_true',
    Bool.and_eq_false_iff, Bool.not_eq_false', decide_eq_false_iff_not, Nat.not_le] at hstill
  exact hstill.symm

theorem Draining.worked (h : s.Draining t deadline) (hpunctual : s.Punctual) (id : Nat)
    (latest : List Entry) :
    Draining t deadline { s with clients := (s.work id).clients, latest := latest } where
  stage := h.stage
  clients hnil := h.clients (List.map_eq_nil_iff.mp hnil)
  aborted := h.aborted
  fresh := by
    refine h.fresh.imp_right fun hfresh c hmem hdone => ?_
    rcases mem_clients_work hmem with hsame | ⟨before, hbefore, hready, rfl⟩
    · exact hfresh c hsame hdone
    · -- The step that ends a session takes no time.
      obtain ⟨hgoing, hnow⟩ := Client.isReady_iff.mp hready
      calc (before.run.step s.pacing).now
          = before.run.now :=
            (Run.move_step s.pacing before.run hgoing).now_of_isOver
              (Client.isOver_of_isDone hdone)
        _ = s.clock :=
          Nat.le_antisymm hnow ((hpunctual before hbefore).resolve_left (by simp [hgoing]))

omit [Line ℓ] in
theorem Draining.emptied (h : s.Draining t deadline) {id : Nat}
    (hnone : s.clients.filter (fun c => !c.isEnded id) = []) (latest : List Entry) :
    Stopped t deadline
      { s with
        stage := .stopped s.clock
        clients := []
        finished := s.finished ++ s.clients.filter (Client.isEnded id)
        latest := latest } where
  stage := rfl
  clients := rfl
  onTime hsome := absurd h.aborted hsome
  late c hmem := absurd (h.aborted ▸ hmem : c ∈ []) List.not_mem_nil
  last := by
    refine h.fresh.imp_right fun hfresh => .inr ?_
    obtain ⟨c, hmem⟩ := List.exists_mem_of_ne_nil _ h.clients
    have hended : c.isEnded id = true := by
      simpa using List.filter_eq_nil_iff.mp hnone c hmem
    exact ⟨c, List.mem_append_right _ (List.mem_filter.mpr ⟨hmem, hended⟩),
      hfresh c hmem (Client.isDone_of_isEnded hended)⟩

omit [Line ℓ] in
theorem Draining.expired (h : s.Draining t deadline) (hquiet : s.isQuiet = true)
    (hclock : s.clock = deadline) (latest : List Entry) :
    Stopped t deadline
      { s with
        stage := .stopped s.clock
        clients := []
        finished := s.finished ++ s.clients.filter Client.isDone
        aborted := s.aborted ++ s.clients.filter fun c => !c.isDone
        latest := latest } where
  stage := rfl
  clients := rfl
  onTime _ := hclock
  late c hmem := by
    rw [h.aborted, List.nil_append] at hmem
    refine (h.later_of_isQuiet hquiet (List.mem_of_mem_filter hmem)).2.imp_right fun hlater => ?_
    rw [hclock] at hlater
    exact ⟨Nat.le_of_lt hlater, fun _ => hlater⟩
  last := by
    obtain ⟨c, hmem⟩ := List.exists_mem_of_ne_nil _ h.clients
    have hgoing : (!c.isDone) = true := by
      rw [(h.later_of_isQuiet hquiet hmem).1]
      rfl
    exact .inr (.inl (List.ne_nil_of_mem
      (List.mem_append_right _ (List.mem_filter.mpr ⟨hmem, hgoing⟩))))

theorem Draining.react (h : s.Draining t deadline) (hsince : t ≤ s.clock)
    (hle : s.clock ≤ deadline) (hpunctual : s.Punctual) (event : ServerEvent σ ℓ) :
    (s.react event).Closing t deadline := by
  have hreaction := s.reaction_react event
  generalize s.react event = s' at hreaction
  cases hreaction with
  | still => exact ⟨hsince, hle, .inl h⟩
  | worked => exact ⟨hsince, hle, .inl (h.worked hpunctual _ _)⟩
  | reaped hreaps hended hleft =>
    refine ⟨hsince, hle, .inl ⟨h.stage, hleft ⟨_, h.stage⟩, h.aborted, ?_⟩⟩
    exact h.fresh.imp_right fun hfresh c hmem => hfresh c (List.mem_of_mem_filter hmem)
  | emptied hstage hnone => exact ⟨hsince, hle, .inr (h.emptied hnone _)⟩
  | passed hclock hquiet hidle hmay =>
    rw [mayPass, h.stage, decide_eq_true_eq] at hmay
    refine ⟨Nat.le_trans hsince (Nat.le_of_lt hclock), hmay,
      .inl ⟨h.stage, h.clients, h.aborted, .inr fun c hmem hdone => ?_⟩⟩
    rw [(h.later_of_isQuiet hquiet hmem).1] at hdone
    exact Bool.noConfusion hdone
  | expired hstage hlimit hquiet =>
    obtain rfl : _ = deadline := Stage.draining.inj (hstage.symm.trans h.stage)
    exact ⟨hsince, hle, .inr (h.expired hquiet (Nat.le_antisymm hle hlimit) _)⟩
  | enrolled hstage | rested hstage | closed hstage | cutOff hstage | drains hstage
  | rose _ _ _ hstage => simp [h.stage] at hstage

theorem react_of_stopped {time : Nat} (hstage : s.stage = .stopped time)
    (event : ServerEvent σ ℓ) : s.react event = s := by
  simp only [Server.react, hstage]

theorem Closing.react (h : s.Closing t deadline) (hpunctual : s.Punctual)
    (event : ServerEvent σ ℓ) : (s.react event).Closing t deadline := by
  rcases h.way with hdraining | hstopped
  · exact hdraining.react h.since h.clock_le hpunctual event
  · rwa [react_of_stopped hstopped.stage]

theorem Closing.reactAll (h : s.Closing t deadline) (htimely : Line.Timely left)
    (hpunctual : s.Punctual) (events : List (ServerEvent σ ℓ)) :
    (s.reactAll events).Closing t deadline := by
  induction events generalizing s with
  | nil => exact h
  | cons event rest ih => exact ih (h.react hpunctual event) (hpunctual.react htimely event)

/-! ## What has become of the sessions -/

/-- What has become of the guests of a server that has stopped at a time, after a shutdown
at `t`. -/
structure Settled (t deadline time : Nat) (guests : List (Guest σ ℓ)) (s : Server σ ℓ) :
    Prop where
  clients : s.clients = []
  /-- A session that alone ends before the deadline has come to its end; if sessions are
  waited for at all, also one that ends just then. -/
  ended {number e : Nat} {guest : Guest σ ℓ} (hguest : guests[number]? = some guest)
    (hend : guest.EndsAt s.pacing e)
    (hintime : e < deadline ∨ e = deadline ∧ s.drainTimeout ≠ Duration.zero) :
    ∃ c ∈ s.finished, c.id = number + 1 ∧ c.run.now = e
  /-- A session that alone goes on after the deadline was aborted. -/
  cut {number : Nat} {guest : Guest σ ℓ} (hguest : guests[number]? = some guest)
    (hlate : ∀ e, guest.EndsAt s.pacing e → deadline < e) :
    ∃ c ∈ s.aborted, c.id = number + 1
  /-- If all sessions alone end before the deadline, the server stops with the last one, or
  at once if that has ended before. -/
  last (h : ∀ guest ∈ guests, ∃ e < deadline, guest.EndsAt s.pacing e) :
    IsGreatest (insert t {e | ∃ guest ∈ guests, guest.EndsAt s.pacing e}) time
  /-- Otherwise it stops at the deadline. -/
  whole (h : ∃ guest ∈ guests, ∀ e, guest.EndsAt s.pacing e → deadline ≤ e) : time = deadline

variable {guests : List (Guest σ ℓ)}

/-- A client of a server that has stopped has come to its end by then, or was aborted. -/
theorem Stopped.exists_client (h : s.Stopped t deadline) (hroster : s.Roster guests)
    {number : Nat} {guest : Guest σ ℓ} (hguest : guests[number]? = some guest) :
    ∃ c, c.id = number + 1 ∧ c.Attends s.pacing s.clock guest ∧
      (c ∈ s.finished ∧ c.isDone = true ∧ c.run.now ≤ s.clock ∨
        c ∈ s.aborted ∧ c.isDone = false) := by
  obtain ⟨c, hmem, hid, hattends⟩ := hroster.exists_client hguest
  rw [everyone, h.clients, List.nil_append] at hmem
  refine ⟨c, hid, hattends, ?_⟩
  rcases List.mem_append.mp hmem with hfinished | haborted
  · have hdone := hroster.finished hfinished
    exact .inl ⟨hfinished, hdone, hattends.now_le (Client.isOver_of_isDone hdone)⟩
  · exact .inr ⟨haborted, hroster.aborted haborted⟩

/-- A session that was aborted does not end in time. -/
theorem Stopped.le_of_aborted (h : s.Stopped t deadline) (htimely : Line.Timely left)
    {c : Client σ ℓ} {guest : Guest σ ℓ} {e : Nat} (hmem : c ∈ s.aborted)
    (hdone : c.isDone = false) (hattends : c.Attends s.pacing s.clock guest)
    (hend : guest.EndsAt s.pacing e) :
    deadline ≤ e ∧ (s.drainTimeout ≠ Duration.zero → deadline < e) := by
  obtain ⟨hgoing, hle⟩ := hattends.le_of_endsAt htimely hdone hend
  obtain ⟨hlate, hsharp⟩ := (h.late c hmem).resolve_left (by simp [hgoing])
  exact ⟨Nat.le_trans hlate hle, fun hdrain => Nat.lt_of_lt_of_le (hsharp hdrain) hle⟩

theorem Stopped.settled (h : s.Stopped t deadline) (htimely : Line.Timely left)
    (hroster : s.Roster guests) (hsince : t ≤ s.clock) (hclock : s.clock ≤ deadline) :
    s.Settled t deadline s.clock guests where
  clients := h.clients
  ended {number e guest} hguest hend hintime := by
    obtain ⟨c, hid, hattends, ⟨hmem, hdone, -⟩ | ⟨hmem, hdone⟩⟩ :=
      h.exists_client hroster hguest
    · exact ⟨c, hmem, hid, hattends.now_eq_of_endsAt hdone hend⟩
    · obtain ⟨hle, hlt⟩ := h.le_of_aborted htimely hmem hdone hattends hend
      rcases hintime with hbefore | ⟨rfl, hdrain⟩
      · omega
      · exact absurd (hlt hdrain) (Nat.lt_irrefl _)
  cut {number guest} hguest hlate := by
    obtain ⟨c, hid, hattends, ⟨hmem, hdone, hnow⟩ | ⟨hmem, -⟩⟩ :=
      h.exists_client hroster hguest
    · have hpast := hlate _ (hattends.endsAt hdone)
      omega
    · exact ⟨c, hmem, hid⟩
  last hends := by
    constructor
    · rcases h.last with hnow | haborted | ⟨c, hmem, hnow⟩
      · exact Set.mem_insert_iff.mpr (.inl hnow)
      · obtain ⟨c, hmem⟩ := List.exists_mem_of_ne_nil _ haborted
        obtain ⟨number, guest, -, hguest, hattends⟩ :=
          hroster.sessions (List.mem_append_right _ hmem)
        obtain ⟨e, hlt, hend⟩ := hends guest (List.mem_of_getElem? hguest)
        have hle := (h.le_of_aborted htimely hmem (hroster.aborted hmem) hattends hend).1
        omega
      · obtain ⟨number, guest, -, hguest, hattends⟩ :=
          hroster.sessions (List.mem_append_left _ (List.mem_append_right _ hmem))
        have hend := hattends.endsAt (hroster.finished hmem)
        rw [hnow] at hend
        exact Set.mem_insert_of_mem _ ⟨guest, List.mem_of_getElem? hguest, hend⟩
    · intro e hmem
      rcases Set.mem_insert_iff.mp hmem with rfl | ⟨guest, hguest, hend⟩
      · exact hsince
      · obtain ⟨number, hnumber⟩ := List.getElem?_of_mem hguest
        obtain ⟨c, -, hattends, ⟨-, hdone, hnow⟩ | ⟨hmem, hdone⟩⟩ :=
          h.exists_client hroster hnumber
        · rwa [← hattends.now_eq_of_endsAt hdone hend]
        · obtain ⟨early, hlt, hearly⟩ := hends guest hguest
          have hle := (h.le_of_aborted htimely hmem hdone hattends hearly).1
          omega
  whole hlate := by
    obtain ⟨guest, hguest, hlate⟩ := hlate
    obtain ⟨number, hnumber⟩ := List.getElem?_of_mem hguest
    obtain ⟨c, -, hattends, ⟨-, hdone, hnow⟩ | ⟨hmem, -⟩⟩ := h.exists_client hroster hnumber
    · have hpast := hlate _ (hattends.endsAt hdone)
      omega
    · exact h.onTime (List.ne_nil_of_mem hmem)

omit [Line ℓ] in
theorem Closing.stopped (h : s.Closing t deadline) {time : Nat}
    (hstage : s.stage = .stopped time) : s.Stopped t deadline ∧ s.clock = time := by
  rcases h.way with hdraining | hstopped
  · rw [hdraining.stage] at hstage
    exact Stage.noConfusion hstage
  · exact ⟨hstopped, Stage.stopped.inj (hstopped.stage.symm.trans hstage)⟩

theorem Closing.settled (h : s.Closing t deadline) (htimely : Line.Timely left)
    (hroster : s.Roster guests) {time : Nat} (hstage : s.stage = .stopped time) :
    s.Settled t deadline time guests := by
  obtain ⟨hstopped, rfl⟩ := h.stopped hstage
  exact hstopped.settled htimely hroster h.since h.clock_le

/-- If all sessions have ended before the shutdown, the server stops at once. -/
theorem Closing.eq_of_early (h : s.Closing t deadline) (htimely : Line.Timely left)
    (hroster : s.Roster guests) {time : Nat} (hstage : s.stage = .stopped time)
    (hearly : ∀ guest ∈ guests, ∃ e ≤ t, guest.EndsAt s.pacing e) : time = t := by
  have hsettled := h.settled htimely hroster hstage
  have hsince := h.since
  have hclock := h.clock_le
  rw [(h.stopped hstage).2] at hsince hclock
  rcases Nat.eq_or_lt_of_le (Nat.le_trans hsince hclock) with hnone | hsome
  · omega
  · have hlast := hsettled.last fun guest hguest => by
      obtain ⟨e, hle, hend⟩ := hearly guest hguest
      exact ⟨e, Nat.lt_of_le_of_lt hle hsome, hend⟩
    rcases Set.mem_insert_iff.mp hlast.1 with hnow | ⟨guest, hguest, hend⟩
    · exact hnow
    · obtain ⟨e, hle, hend'⟩ := hearly guest hguest
      obtain rfl := hend.unique hend'
      exact Nat.le_antisymm hle hsince

omit [Line ℓ] in
theorem Closing.isOpen_eq_false (h : s.Closing t deadline) : s.isOpen = false := by
  rcases h.way with hdraining | hstopped
  · rw [isOpen, hdraining.stage]
  · rw [isOpen, hstopped.stage]

omit [Line ℓ] in
/-- Sessions are only aborted at the deadline, when the server stops. -/
theorem Closing.stage_of_aborted (h : s.Closing t deadline) (haborted : s.aborted ≠ []) :
    s.stage = .stopped deadline := by
  rcases h.way with hdraining | hstopped
  · exact absurd hdraining.aborted haborted
  · rw [hstopped.stage, hstopped.onTime haborted]

end Server

end TerminalHost
