import TerminalHost.Proofs.Session.Steps
import TerminalHost.Serving.Server

/-!
# What a server can do

The reaction of a server to an event is a function of many cases; here it is taken apart
into the few things that can come of it, each with the conditions under which it does.
What is noted on the way stays open, since nothing that a server does depends on it.
-/

namespace TerminalHost

namespace Client

variable {σ ℓ : Type}

def isEnded [Dialogue σ] (id : Nat) (c : Client σ ℓ) : Bool := c.id == id && c.isDone

def isNext (id clock : Nat) (c : Client σ ℓ) : Bool := c.id == id && c.isReady clock

theorem isReady_of_isNext {id clock : Nat} {c : Client σ ℓ} (h : c.isNext id clock = true) :
    c.isReady clock = true := by
  simp only [isNext, Bool.and_eq_true] at h
  exact h.2

theorem isDone_of_isEnded [Dialogue σ] {id : Nat} {c : Client σ ℓ} (h : c.isEnded id = true) :
    c.isDone = true := by
  simp only [isEnded, Bool.and_eq_true] at h
  exact h.2

theorem isOver_of_isDone [Dialogue σ] {c : Client σ ℓ} (h : c.isDone = true) :
    c.run.isOver = true := by
  obtain ⟨report, hreport⟩ := Option.isSome_iff_exists.mp h
  exact Run.isOver_of_report? hreport

theorem isReady_iff {clock : Nat} {c : Client σ ℓ} :
    c.isReady clock = true ↔ c.run.isOver = false ∧ c.run.now ≤ clock := by
  rw [isReady, Bool.and_eq_true, Bool.not_eq_true', decide_eq_true_eq]

end Client

/-- Whether an event comes from outside the sessions and the clock. -/
def ServerEvent.isOutside {σ ℓ : Type} : ServerEvent σ ℓ → Bool
  | .accept .. | .acceptFails _ | .shutdown => true
  | _ => false

namespace Server

variable {σ ℓ : Type} [Dialogue σ] [Line ℓ]

/-- What can come of an event. -/
inductive Reaction (s : Server σ ℓ) : ServerEvent σ ℓ → Server σ ℓ → Prop where
  /-- The event does not fit, or there is nothing to do; while the server accepts, whatever
  comes from outside fits. -/
  | still (event : ServerEvent σ ℓ)
      (hinside : s.stage = .accepting → event.isOutside = false) : Reaction s event s
  | enrolled {state : σ} {line : ℓ} {latest : List Entry} (hstage : s.stage = .accepting) :
      Reaction s (.accept state line)
        { s with
          accepted := s.accepted + 1
          clients := s.clients ++ [⟨s.accepted + 1, Run.begin state line s.clock, 0⟩]
          latest := latest }
  /-- A connection has failed to come. -/
  | rested {fault : Fault} {latest : List Entry} (hstage : s.stage = .accepting) :
      Reaction s (.acceptFails fault)
        { s with stage := .resting (s.clock + acceptRetry.ticks), latest := latest }
  /-- The shutdown finds no clients. -/
  | closed {latest : List Entry} (hstage : s.stage = .accepting) (hclients : s.clients = []) :
      Reaction s .shutdown { s with stage := .stopped s.clock, latest := latest }
  /-- The shutdown leaves no time to the clients. -/
  | cutOff {latest : List Entry} (hstage : s.stage = .accepting)
      (hzero : s.drainTimeout = Duration.zero) :
      Reaction s .shutdown
        { s with
          stage := .stopped s.clock
          clients := []
          finished := s.finished ++ s.clients.filter Client.isDone
          aborted := s.aborted ++ s.clients.filter fun c => !c.isDone
          latest := latest }
  | drains {latest : List Entry} (hstage : s.stage = .accepting) (hclients : s.clients ≠ []) :
      Reaction s .shutdown
        { s with stage := .draining (s.clock + s.drainTimeout.ticks), latest := latest }
  | worked {id : Nat} {latest : List Entry} (hrunning : ∀ time, s.stage ≠ .stopped time)
      (hready : ∃ c ∈ s.clients, c.isNext id s.clock = true) :
      Reaction s (.work id) { s with clients := (s.work id).clients, latest := latest }
  | reaped {id : Nat} (hreaps : s.reaps = true) (hended : ∃ c ∈ s.clients, c.isEnded id = true)
      (hleft : (∃ limit, s.stage = .draining limit) →
        s.clients.filter (fun c => !c.isEnded id) ≠ []) :
      Reaction s (.reap id)
        { s with
          clients := s.clients.filter fun c => !c.isEnded id
          finished := s.finished ++ s.clients.filter (Client.isEnded id) }
  /-- The last client is gone after the shutdown. -/
  | emptied {id limit : Nat} {latest : List Entry} (hstage : s.stage = .draining limit)
      (hnone : s.clients.filter (fun c => !c.isEnded id) = []) :
      Reaction s (.reap id)
        { s with
          stage := .stopped s.clock
          clients := []
          finished := s.finished ++ s.clients.filter (Client.isEnded id)
          latest := latest }
  | passed {time : Nat} (hclock : s.clock < time) (hquiet : s.isQuiet = true)
      (hidle : s.isIdleUntil time = true) (hmay : s.mayPass time = true) :
      Reaction s (.pass time) { s with clock := time }
  /-- The rest after a connection that failed to come is over. -/
  | rose {time : Nat} (hclock : s.clock ≤ time) (hquiet : s.isQuiet = true)
      (hidle : s.isIdleUntil time = true) (hstage : s.stage = .resting time) :
      Reaction s (.pass time) { s with clock := time, stage := .accepting }
  | expired {limit : Nat} {latest : List Entry} (hstage : s.stage = .draining limit)
      (hlimit : limit ≤ s.clock) (hquiet : s.isQuiet = true) :
      Reaction s .expire
        { s with
          stage := .stopped s.clock
          clients := []
          finished := s.finished ++ s.clients.filter Client.isDone
          aborted := s.aborted ++ s.clients.filter fun c => !c.isDone
          latest := latest }

theorem reaction_shutDown (s : Server σ ℓ) (hstage : s.stage = .accepting) :
    Reaction s .shutdown s.shutDown := by
  by_cases hempty : s.clients.isEmpty = true
  · have hshut : s.shutDown = (s.note [.shutdownRequested]).stop := if_pos hempty
    rw [hshut]
    exact .closed hstage (List.isEmpty_iff.mp hempty)
  · by_cases hzero : s.drainTimeout = Duration.zero
    · have hshut : s.shutDown = (s.note [.shutdownRequested]).abort :=
        (if_neg hempty).trans (if_pos hzero)
      rw [hshut]
      exact .cutOff hstage hzero
    · have hshut : s.shutDown
          = { (s.note [.shutdownRequested]).note
                [.draining s.clients.length s.drainTimeout] with
              stage := .draining (s.clock + s.drainTimeout.ticks) } :=
        (if_neg hempty).trans (if_neg hzero)
      rw [hshut]
      exact .drains hstage fun hnil => hempty (List.isEmpty_iff.mpr hnil)

def retire (s : Server σ ℓ) (id : Nat) : Server σ ℓ :=
  { s with
    clients := s.clients.filter fun c => !c.isEnded id
    finished := s.finished ++ s.clients.filter (Client.isEnded id) }

omit [Line ℓ] in
theorem retire_of_none {s : Server σ ℓ} {id : Nat}
    (hnone : ¬ ∃ c ∈ s.clients, c.isEnded id = true) : s.retire id = s := by
  have hall : s.clients.filter (fun c => !c.isEnded id) = s.clients := by
    rw [List.filter_eq_self]
    intro c hmem
    simpa using fun hended => hnone ⟨c, hmem, hended⟩
  have hnil : s.clients.filter (Client.isEnded id) = [] := by
    rw [List.filter_eq_nil_iff]
    exact fun c hmem hended => hnone ⟨c, hmem, hended⟩
  rw [retire, hall, hnil, List.append_nil]

omit [Line ℓ] in
theorem reap_eq (s : Server σ ℓ) (id : Nat) :
    s.reap id =
      match (s.retire id).stage with
      | .draining _ =>
        if (s.retire id).clients.isEmpty then (s.retire id).stop else s.retire id
      | _ => s.retire id := rfl

theorem reaction_reap (s : Server σ ℓ) (id : Nat) (hreaps : s.reaps = true) :
    Reaction s (.reap id) (s.reap id) := by
  have hstays (hleft : (∃ limit, s.stage = .draining limit) → (s.retire id).clients ≠ []) :
      Reaction s (.reap id) (s.retire id) := by
    by_cases hended : ∃ c ∈ s.clients, c.isEnded id = true
    · exact .reaped hreaps hended hleft
    · rw [retire_of_none hended]
      exact .still _ fun _ => rfl
  cases hstage : s.stage with
  | draining limit =>
    have hstill : (s.retire id).stage = .draining limit := hstage
    simp only [reap_eq, hstill]
    split
    · rename_i hempty
      have hnil := List.isEmpty_iff.mp hempty
      have hstop : (s.retire id).stop
          = { s with
              stage := .stopped s.clock
              clients := []
              finished := s.finished ++ s.clients.filter (Client.isEnded id)
              latest := [Entry.serverStopped].reverse ++ s.latest } := by
        rw [← hnil]
        rfl
      rw [hstop]
      exact .emptied hstage hnil
    · rename_i hleft
      exact hstays fun _ hnil => hleft (List.isEmpty_iff.mpr hnil)
  | accepting =>
    have hstill : (s.retire id).stage = .accepting := hstage
    simp only [reap_eq, hstill]
    exact hstays (by simp [hstage])
  | resting limit => simp [reaps, hstage] at hreaps
  | stopped time => simp [reaps, hstage] at hreaps

theorem work_of_none {s : Server σ ℓ} {id : Nat}
    (hnone : ¬ ∃ c ∈ s.clients, c.isNext id s.clock = true) : s.work id = s := by
  have hnil : s.clients.filter (Client.isNext id s.clock) = [] := by
    rw [List.filter_eq_nil_iff]
    exact fun c hmem hnext => hnone ⟨c, hmem, hnext⟩
  have hall : s.clients.map
      (fun c => if c.isNext id s.clock then c.step s.pacing else c) = s.clients := by
    refine (List.map_congr_left fun c hmem => ?_).trans (List.map_id _)
    exact if_neg fun hnext => hnone ⟨c, hmem, hnext⟩
  have hwork : s.work id
      = { s.note ((s.clients.filter (Client.isNext id s.clock)).flatMap
            (Client.entries s.pacing)) with
          clients := s.clients.map
            fun c => if c.isNext id s.clock then c.step s.pacing else c } := rfl
  rw [hwork, hnil, hall]
  rfl

theorem reaction_work (s : Server σ ℓ) (id : Nat) (hrunning : ∀ time, s.stage ≠ .stopped time) :
    Reaction s (.work id) (s.work id) := by
  by_cases hready : ∃ c ∈ s.clients, c.isNext id s.clock = true
  · exact .worked hrunning hready
  · rw [work_of_none hready]
    exact .still _ fun _ => rfl

theorem reaction_pass (s : Server σ ℓ) (time : Nat) :
    Reaction s (.pass time) (s.pass time) := by
  unfold pass
  split
  · rename_i hpass
    simp only [Bool.and_eq_true, decide_eq_true_eq] at hpass
    obtain ⟨⟨⟨hclock, hquiet⟩, hidle⟩, hmay⟩ := hpass
    have hpassed : Reaction s (.pass time) { s with clock := time } := by
      rcases Nat.eq_or_lt_of_le hclock with rfl | hlater
      · exact .still _ fun _ => rfl
      · exact .passed hlater hquiet hidle hmay
    cases hstage : s.stage with
    | resting limit =>
      have hle : time ≤ limit := by simpa [mayPass, hstage] using hmay
      simp only
      split
      · rename_i hdone
        obtain rfl : time = limit := Nat.le_antisymm hle hdone
        exact .rose hclock hquiet hidle hstage
      · rwa [← hstage]
    | _ =>
      simp only
      rwa [← hstage]
  · exact .still _ fun _ => rfl

theorem reaction_react (s : Server σ ℓ) (event : ServerEvent σ ℓ) :
    Reaction s event (s.react event) := by
  have hreap (id : Nat) (h : s.react (.reap id) = if s.reaps then s.reap id else s) :
      Reaction s (.reap id) (s.react (.reap id)) := by
    rw [h]
    split
    · exact s.reaction_reap id ‹_›
    · exact .still _ fun _ => rfl
  cases hstage : s.stage with
  | accepting =>
    cases event with
    | accept state line => simpa only [react, hstage] using .enrolled hstage
    | acceptFails fault => simpa only [react, hstage] using .rested hstage
    | shutdown => simpa only [react, hstage] using s.reaction_shutDown hstage
    | work id => simpa only [react, hstage] using s.reaction_work id (by simp [hstage])
    | reap id => exact hreap id (by simp only [react, hstage])
    | pass time => simpa only [react, hstage] using s.reaction_pass time
    | expire => simpa only [react, hstage] using .still _ fun _ => rfl
  | resting limit =>
    cases event with
    | work id => simpa only [react, hstage] using s.reaction_work id (by simp [hstage])
    | reap id => exact hreap id (by simp only [react, hstage])
    | pass time => simpa only [react, hstage] using s.reaction_pass time
    | _ => simpa only [react, hstage] using .still _ (by simp [hstage])
  | draining deadline =>
    cases event with
    | work id => simpa only [react, hstage] using s.reaction_work id (by simp [hstage])
    | reap id => exact hreap id (by simp only [react, hstage])
    | pass time => simpa only [react, hstage] using s.reaction_pass time
    | expire =>
      by_cases hdue : (decide (deadline ≤ s.clock) && s.isQuiet) = true
      · obtain ⟨hlimit, hquiet⟩ := (Bool.and_eq_true _ _).mp hdue
        have habort : s.react .expire = s.abort := by
          simp only [react, hstage]
          exact if_pos hdue
        rw [habort]
        exact .expired hstage (of_decide_eq_true hlimit) hquiet
      · have hstill : s.react .expire = s := by
          simp only [react, hstage]
          exact if_neg hdue
        rw [hstill]
        exact .still _ fun _ => rfl
    | _ => simpa only [react, hstage] using .still _ (by simp [hstage])
  | stopped time => simpa only [react, hstage] using .still _ (by simp [hstage])

/-! ## The work on a session -/

/-- After the work every client is as before, or it could take a step and has taken it. -/
theorem mem_clients_work {s : Server σ ℓ} {id : Nat} {c : Client σ ℓ}
    (h : c ∈ (s.work id).clients) :
    c ∈ s.clients ∨ ∃ before ∈ s.clients, before.isReady s.clock = true ∧
      c = before.step s.pacing := by
  obtain ⟨before, hmem, hc⟩ := List.mem_map.mp h
  split at hc
  · rename_i hnext
    exact .inr ⟨before, hmem, ((Bool.and_eq_true _ _).mp hnext).2, hc.symm⟩
  · exact .inl (hc ▸ hmem)

theorem map_id_clients_work (s : Server σ ℓ) (id : Nat) :
    (s.work id).clients.map Client.id = s.clients.map Client.id := by
  simp only [work, note, List.map_map]
  apply List.map_congr_left
  intro c _
  simp only [Function.comp_apply]
  split <;> rfl

end Server

end TerminalHost
