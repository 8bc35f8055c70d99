import Mathlib.Algebra.Order.Group.Multiset
import Mathlib.Tactic.Abel
import TerminalHost.Proofs.Serving.Reactions
import TerminalHost.Proofs.Session.Interrupt
import TerminalHost.Serving.Hosting

/-!
# The roster of a server

A connection that the server takes is a guest.  The guests get the numbers from one on as
they come, and each of them has one session, that of the client with its number.  A client
is with the server until its end is noticed or it is aborted, and whatever the server does
about the others, its session takes the steps that it would take alone.
-/

namespace TerminalHost

/-- A connection that a server has taken, with the time at which it came. -/
structure Guest (σ ℓ : Type) where
  state : σ
  line : ℓ
  time : Nat

variable {σ ℓ : Type} [Dialogue σ] [Line ℓ]

def Guest.session (guest : Guest σ ℓ) : Run σ ℓ := Run.begin guest.state guest.line guest.time

namespace Client

/-- The client has the session of the guest, and each of its steps began by the time of the
clock. -/
def Attends (pacing : Pacing) (clock : Nat) (guest : Guest σ ℓ) (c : Client σ ℓ) : Prop :=
  ∃ count, c.run = guest.session.steps pacing count ∧ guest.session.InTime pacing clock count

variable {pacing : Pacing} {clock : Nat} {guest : Guest σ ℓ} {c : Client σ ℓ}

theorem Attends.mono (h : c.Attends pacing clock guest) {later : Nat} (hle : clock ≤ later) :
    c.Attends pacing later guest := by
  obtain ⟨count, hrun, htime⟩ := h
  exact ⟨count, hrun, fun fewer hlt => Nat.le_trans (htime fewer hlt) hle⟩

theorem Attends.step (h : c.Attends pacing clock guest) (hnow : c.run.now ≤ clock) :
    (c.step pacing).Attends pacing clock guest := by
  obtain ⟨count, hrun, htime⟩ := h
  refine ⟨count + 1, ?_, fun fewer hlt => ?_⟩
  · rw [Run.steps_succ, ← hrun]
    rfl
  · rcases Nat.lt_succ_iff_lt_or_eq.mp hlt with hbefore | rfl
    · exact htime fewer hbefore
    · rwa [← hrun]

theorem attends_begin (id clock noted : Nat) (pacing : Pacing) (guest : Guest σ ℓ) :
    (⟨id, guest.session, noted⟩ : Client σ ℓ).Attends pacing clock guest :=
  ⟨0, rfl, by simp [Run.InTime]⟩

/-- A session that has come to rest did so by the time of the clock. -/
theorem Attends.now_le (h : c.Attends pacing clock guest) (hover : c.run.isOver = true) :
    c.run.now ≤ clock := by
  obtain ⟨count, hrun, htime⟩ := h
  rw [hrun] at hover ⊢
  exact Run.now_le_of_isOver rfl htime hover

end Client

namespace Server

def everyone (s : Server σ ℓ) : List (Client σ ℓ) := s.clients ++ s.finished ++ s.aborted

def admits (s : Server σ ℓ) : ServerEvent σ ℓ → List (Guest σ ℓ)
  | .accept state line => if s.stage = .accepting then [⟨state, line, s.clock⟩] else []
  | _ => []

/-- The guests that come on the way, in their order. -/
def guests (s : Server σ ℓ) : List (ServerEvent σ ℓ) → List (Guest σ ℓ)
  | [] => []
  | event :: rest => s.admits event ++ guests (s.react event) rest

theorem reactAll_cons (s : Server σ ℓ) (event : ServerEvent σ ℓ)
    (rest : List (ServerEvent σ ℓ)) :
    s.reactAll (event :: rest) = (s.react event).reactAll rest := rfl

theorem reactAll_append (s : Server σ ℓ) (before after : List (ServerEvent σ ℓ)) :
    s.reactAll (before ++ after) = (s.reactAll before).reactAll after :=
  List.foldl_append

theorem guests_append (s : Server σ ℓ) (before after : List (ServerEvent σ ℓ)) :
    s.guests (before ++ after) = s.guests before ++ (s.reactAll before).guests after := by
  induction before generalizing s with
  | nil => rfl
  | cons event rest ih =>
    rw [List.cons_append, guests, guests, ih, List.append_assoc, reactAll_cons]

omit [Dialogue σ] [Line ℓ] in
theorem admits_of_inside {s : Server σ ℓ} {event : ServerEvent σ ℓ}
    (hinside : s.stage = .accepting → event.isOutside = false) : s.admits event = [] := by
  cases event with
  | accept state line => exact if_neg fun hstage => Bool.noConfusion (hinside hstage)
  | _ => rfl

/-! ## The accounts -/

/-- The clients of a server account for its guests: there is one client for each guest,
with the number of the guest, which has the session of the guest. -/
structure Roster (s : Server σ ℓ) (guests : List (Guest σ ℓ)) : Prop where
  accepted : s.accepted = guests.length
  ids : (s.everyone.map Client.id).Perm (List.range' 1 guests.length)
  sessions {c : Client σ ℓ} (h : c ∈ s.everyone) :
    ∃ number guest, c.id = number + 1 ∧ guests[number]? = some guest ∧
      c.Attends s.pacing s.clock guest
  finished {c : Client σ ℓ} (h : c ∈ s.finished) : c.isDone = true
  aborted {c : Client σ ℓ} (h : c ∈ s.aborted) : c.isDone = false

variable {s s' : Server σ ℓ} {guests : List (Guest σ ℓ)}

/-- The accounts stay right when clients only change their places. -/
theorem Roster.regroup (h : s.Roster guests) (hperm : s'.everyone.Perm s.everyone)
    (haccepted : s'.accepted = s.accepted) (hpacing : s'.pacing = s.pacing)
    (hclock : s.clock ≤ s'.clock)
    (hfinished : ∀ c ∈ s'.finished, c ∈ s.finished ∨ c.isDone = true)
    (haborted : ∀ c ∈ s'.aborted, c ∈ s.aborted ∨ c.isDone = false) : s'.Roster guests where
  accepted := haccepted.trans h.accepted
  ids := (hperm.map Client.id).trans h.ids
  sessions {c} hmem := by
    obtain ⟨number, guest, hid, hguest, hattends⟩ := h.sessions (hperm.mem_iff.mp hmem)
    rw [hpacing]
    exact ⟨number, guest, hid, hguest, hattends.mono hclock⟩
  finished {c} hmem := (hfinished c hmem).elim h.finished id
  aborted {c} hmem := (haborted c hmem).elim h.aborted id

theorem perm_retire {α : Type} (clients finished aborted : List α) (leaves : α → Bool) :
    (clients.filter (fun c => !leaves c) ++ (finished ++ clients.filter leaves)
      ++ aborted).Perm (clients ++ finished ++ aborted) := by
  have hsplit : (clients.filter leaves + clients.filter (fun c => !leaves c) : Multiset α)
      = clients := Multiset.coe_eq_coe.mpr (List.filter_append_perm leaves clients)
  rw [← Multiset.coe_eq_coe]
  simp only [← Multiset.coe_add]
  rw [← hsplit]
  abel

/-- When all clients leave, those whose sessions have come to their end are with the
finished ones, and the others with the aborted ones. -/
theorem perm_disband {α : Type} (clients finished aborted : List α) (ended : α → Bool) :
    ([] ++ (finished ++ clients.filter ended) ++ (aborted ++ clients.filter fun c => !ended c)).Perm
      (clients ++ finished ++ aborted) := by
  have hsplit : (clients.filter ended + clients.filter (fun c => !ended c) : Multiset α)
      = clients := Multiset.coe_eq_coe.mpr (List.filter_append_perm ended clients)
  rw [← Multiset.coe_eq_coe]
  simp only [← Multiset.coe_add, Multiset.coe_nil]
  rw [← hsplit]
  abel

/-- A guest that comes gets the next number, and a session of its own. -/
theorem Roster.enrolled (h : s.Roster guests) (state : σ) (line : ℓ) (latest : List Entry) :
    Roster
      { s with
        accepted := s.accepted + 1
        clients := s.clients ++ [⟨s.accepted + 1, Run.begin state line s.clock, 0⟩]
        latest := latest }
      (guests ++ [⟨state, line, s.clock⟩]) where
  accepted := by
    rw [List.length_append, List.length_singleton, h.accepted]
  ids := by
    have hids := h.ids
    simp only [everyone, List.map_append, List.map_cons, List.map_nil, List.append_assoc,
      List.length_append, List.length_singleton, List.range'_1_concat] at hids ⊢
    rw [h.accepted, Nat.add_comm 1]
    exact (List.perm_append_comm_assoc _ _ _).trans
      (List.perm_append_comm.trans (hids.append_right _))
  sessions {c} hmem := by
    have hcases : c ∈ s.everyone ∨ c = ⟨s.accepted + 1, Run.begin state line s.clock, 0⟩ := by
      simp only [everyone, List.mem_append, List.mem_singleton] at hmem ⊢
      tauto
    rcases hcases with hold | rfl
    · obtain ⟨number, guest, hid, hguest, hattends⟩ := h.sessions hold
      refine ⟨number, guest, hid, ?_, hattends⟩
      rw [List.getElem?_append_left (List.getElem?_eq_some_iff.mp hguest).1, hguest]
    · refine ⟨guests.length, ⟨state, line, s.clock⟩, congrArg (· + 1) h.accepted, ?_, ?_⟩
      · exact List.getElem?_concat_length
      · exact Client.attends_begin _ _ _ _ ⟨state, line, s.clock⟩
  finished := h.finished
  aborted := h.aborted

theorem Roster.worked (h : s.Roster guests) (id : Nat) (latest : List Entry) :
    Roster { s with clients := (s.work id).clients, latest := latest } guests where
  accepted := h.accepted
  ids := by
    have hids := h.ids
    simp only [everyone, List.map_append] at hids ⊢
    rwa [map_id_clients_work]
  sessions {c} hmem := by
    have hcases : c ∈ (s.work id).clients ∨ c ∈ s.finished ++ s.aborted := by
      simpa only [everyone, List.append_assoc, List.mem_append] using hmem
    rcases hcases with hclient | hgone
    · rcases mem_clients_work hclient with hsame | ⟨before, hbefore, hready, rfl⟩
      · exact h.sessions (List.mem_append_left _ (List.mem_append_left _ hsame))
      · obtain ⟨number, guest, hid, hguest, hattends⟩ :=
          h.sessions (List.mem_append_left _ (List.mem_append_left _ hbefore))
        exact ⟨number, guest, hid, hguest, hattends.step (Client.isReady_iff.mp hready).2⟩
    · apply h.sessions
      rw [everyone, List.append_assoc]
      exact List.mem_append_right _ hgone
  finished := h.finished
  aborted := h.aborted

theorem Roster.react (h : s.Roster guests) (event : ServerEvent σ ℓ) :
    (s.react event).Roster (guests ++ s.admits event) := by
  have hreaction := s.reaction_react event
  generalize s.react event = s' at hreaction
  have hsame (hadmits : s.admits event = []) (hroster : s'.Roster guests) :
      s'.Roster (guests ++ s.admits event) := by
    rwa [hadmits, List.append_nil]
  have hretired {leaves : Client σ ℓ → Bool}
      (hdone : ∀ c, leaves c = true → c.isDone = true) :
      ∀ c ∈ s.finished ++ s.clients.filter leaves, c ∈ s.finished ∨ c.isDone = true := by
    intro c hmem
    exact (List.mem_append.mp hmem).imp_right fun hleft => hdone c (List.mem_filter.mp hleft).2
  have hdisbanded : ∀ c ∈ s.aborted ++ s.clients.filter (fun c => !c.isDone),
      c ∈ s.aborted ∨ c.isDone = false := by
    intro c hmem
    exact (List.mem_append.mp hmem).imp_right fun hleft => by
      simpa using (List.mem_filter.mp hleft).2
  cases hreaction with
  | still _ hinside => exact hsame (admits_of_inside hinside) h
  | enrolled hstage =>
    rw [admits, if_pos hstage]
    exact h.enrolled _ _ _
  | worked hrunning => exact hsame rfl (h.worked _ _)
  | reaped hreaps hleft =>
    exact hsame rfl (h.regroup (perm_retire ..) rfl rfl (Nat.le_refl _)
      (hretired fun c => Client.isDone_of_isEnded) fun c => .inl)
  | emptied hstage hnone =>
    refine hsame rfl (h.regroup ?_ rfl rfl (Nat.le_refl _)
      (hretired fun c => Client.isDone_of_isEnded) fun c => .inl)
    exact hnone ▸ perm_retire ..
  | cutOff hstage hzero =>
    exact hsame rfl (h.regroup (perm_disband ..) rfl rfl (Nat.le_refl _)
      (hretired fun c => id) hdisbanded)
  | expired hstage hlimit hquiet =>
    exact hsame rfl (h.regroup (perm_disband ..) rfl rfl (Nat.le_refl _)
      (hretired fun c => id) hdisbanded)
  | passed hclock =>
    exact hsame rfl
      (h.regroup (.refl _) rfl rfl (Nat.le_of_lt hclock) (fun c => .inl) fun c => .inl)
  | rose hclock =>
    exact hsame rfl (h.regroup (.refl _) rfl rfl hclock (fun c => .inl) fun c => .inl)
  | rested | closed | drains =>
    exact hsame rfl (h.regroup (.refl _) rfl rfl (Nat.le_refl _) (fun c => .inl) fun c => .inl)

theorem Roster.reactAll (h : s.Roster guests) (events : List (ServerEvent σ ℓ)) :
    (s.reactAll events).Roster (guests ++ s.guests events) := by
  induction events generalizing s guests with
  | nil =>
    rw [Server.guests, List.append_nil]
    exact h
  | cons event rest ih =>
    rw [Server.guests, ← List.append_assoc, reactAll_cons]
    exact ih (h.react event)

theorem roster_listen (program : Program) (pacing : Pacing) (drainTimeout : Duration)
    (bound : BoundAddress) :
    (listen program pacing drainTimeout bound : Server σ ℓ).Roster [] where
  accepted := rfl
  ids := .refl _
  sessions h := absurd h List.not_mem_nil
  finished h := absurd h List.not_mem_nil
  aborted h := absurd h List.not_mem_nil

theorem Roster.nodup_ids (h : s.Roster guests) : (s.everyone.map Client.id).Nodup :=
  h.ids.nodup_iff.mpr List.nodup_range'

theorem Roster.exists_client (h : s.Roster guests) {number : Nat} {guest : Guest σ ℓ}
    (hguest : guests[number]? = some guest) :
    ∃ c ∈ s.everyone, c.id = number + 1 ∧ c.Attends s.pacing s.clock guest := by
  have hlt : number < guests.length := (List.getElem?_eq_some_iff.mp hguest).1
  have hid : number + 1 ∈ s.everyone.map Client.id := by
    rw [h.ids.mem_iff, List.mem_range'_1]
    omega
  obtain ⟨c, hmem, hc⟩ := List.mem_map.mp hid
  obtain ⟨number', guest', hid', hguest', hattends⟩ := h.sessions hmem
  obtain rfl : number' = number := by omega
  obtain rfl : guest' = guest := Option.some.inj (hguest'.symm.trans hguest)
  exact ⟨c, hmem, hc, hattends⟩

theorem Roster.eq_of_id (h : s.Roster guests) {c other : Client σ ℓ} (hc : c ∈ s.everyone)
    (hother : other ∈ s.everyone) (hid : c.id = other.id) : c = other :=
  List.inj_on_of_nodup_map h.nodup_ids hc hother hid

/-! ## The rest after a connection that failed to come -/

def RestsUntil (limit : Nat) (s : Server σ ℓ) : Prop :=
  s.stage = .resting limit ∨ limit ≤ s.clock

theorem RestsUntil.react {limit : Nat} (h : s.RestsUntil limit) (event : ServerEvent σ ℓ) :
    (s.react event).RestsUntil limit := by
  have hreaction := s.reaction_react event
  generalize s.react event = s' at hreaction
  cases hreaction with
  | still | worked | reaped => exact h
  | passed hclock => exact h.imp_right fun hle => Nat.le_trans hle (Nat.le_of_lt hclock)
  | rose hclock _ _ hstage =>
    right
    rcases h with hresting | hle
    · rw [hstage] at hresting
      exact Nat.le_of_eq (Stage.resting.inj hresting).symm
    · exact Nat.le_trans hle hclock
  | enrolled hstage | rested hstage | closed hstage | cutOff hstage | drains hstage
  | emptied hstage | expired hstage =>
    exact h.elim (fun hresting => by simp [hstage] at hresting) .inr

theorem RestsUntil.le_time {limit : Nat} (h : s.RestsUntil limit)
    {events : List (ServerEvent σ ℓ)} {guest : Guest σ ℓ} (hguest : guest ∈ s.guests events) :
    limit ≤ guest.time := by
  induction events generalizing s with
  | nil => exact absurd hguest List.not_mem_nil
  | cons event rest ih =>
    rcases List.mem_append.mp hguest with hnow | hlater
    · cases event with
      | accept state line =>
        by_cases hstage : s.stage = .accepting
        · rw [admits, if_pos hstage, List.mem_singleton] at hnow
          subst hnow
          exact h.elim (fun hresting => by simp [hstage] at hresting) id
        · rw [admits, if_neg hstage] at hnow
          exact absurd hnow List.not_mem_nil
      | _ => exact absurd hnow List.not_mem_nil
    · exact ih (h.react event) hlater

theorem restsUntil_acceptFails {s : Server σ ℓ} (hstage : s.stage = .accepting)
    (fault : Fault) :
    (s.react (.acceptFails fault)).RestsUntil (s.clock + acceptRetry.ticks) := by
  left
  simp only [Server.react, hstage]

/-! ## Before the shutdown -/

theorem settings_react (s : Server σ ℓ) (event : ServerEvent σ ℓ) :
    (s.react event).pacing = s.pacing ∧ (s.react event).drainTimeout = s.drainTimeout := by
  have hreaction := s.reaction_react event
  generalize s.react event = s' at hreaction
  cases hreaction <;> exact ⟨rfl, rfl⟩

theorem settings_reactAll (s : Server σ ℓ) (events : List (ServerEvent σ ℓ)) :
    (s.reactAll events).pacing = s.pacing ∧
      (s.reactAll events).drainTimeout = s.drainTimeout := by
  induction events generalizing s with
  | nil => exact ⟨rfl, rfl⟩
  | cons event rest ih =>
    rw [reactAll_cons]
    exact ⟨(ih _).1.trans (s.settings_react event).1, (ih _).2.trans (s.settings_react event).2⟩

def isOpen (s : Server σ ℓ) : Bool :=
  match s.stage with
  | .accepting | .resting _ => true
  | .draining _ | .stopped _ => false

omit [Dialogue σ] [Line ℓ] in
theorem isOpen_of_accepting {s : Server σ ℓ} (h : s.stage = .accepting) : s.isOpen = true := by
  rw [isOpen, h]

/-- A server never opens again, and as long as it is open it aborts nobody. -/
theorem isOpen_of_react {event : ServerEvent σ ℓ} (h : (s.react event).isOpen = true) :
    s.isOpen = true ∧ (s.react event).aborted = s.aborted := by
  have hreaction := s.reaction_react event
  generalize s.react event = s' at h hreaction
  cases hreaction with
  | still | worked | reaped | passed => exact ⟨h, rfl⟩
  | enrolled hstage | rested hstage => exact ⟨isOpen_of_accepting hstage, rfl⟩
  | rose _ _ _ hstage =>
    rw [isOpen, hstage]
    exact ⟨rfl, rfl⟩
  | closed | cutOff | drains | emptied | expired => simp [isOpen] at h

theorem isOpen_of_reactAll {events : List (ServerEvent σ ℓ)}
    (h : (s.reactAll events).isOpen = true) :
    s.isOpen = true ∧ (s.reactAll events).aborted = s.aborted := by
  induction events generalizing s with
  | nil => exact ⟨h, rfl⟩
  | cons event rest ih =>
    rw [reactAll_cons] at h ⊢
    obtain ⟨hnext, haborted⟩ := ih h
    obtain ⟨hopen, hsame⟩ := isOpen_of_react hnext
    exact ⟨hopen, haborted.trans hsame⟩

/-- Only the shutdown closes a server. -/
theorem isOpen_reactAll {events : List (ServerEvent σ ℓ)} (hopen : s.isOpen = true)
    (hnone : .shutdown ∉ events) : (s.reactAll events).isOpen = true := by
  induction events generalizing s with
  | nil => exact hopen
  | cons event rest ih =>
    rw [List.mem_cons, not_or] at hnone
    rw [reactAll_cons]
    apply ih _ hnone.2
    have hreaction := s.reaction_react event
    generalize s.react event = s' at hreaction
    cases hreaction with
    | still | worked | reaped | passed => exact hopen
    | enrolled hstage => exact isOpen_of_accepting hstage
    | rested | rose => rfl
    | closed | cutOff | drains => exact absurd rfl hnone.1
    | emptied hstage | expired hstage => simp [isOpen, hstage] at hopen

/-- No guest comes after the shutdown. -/
theorem guests_of_not_isOpen {events : List (ServerEvent σ ℓ)} (hclosed : s.isOpen = false) :
    s.guests events = [] := by
  induction events generalizing s with
  | nil => rfl
  | cons event rest ih =>
    have hnext : (s.react event).isOpen = false := by
      apply Bool.eq_false_iff.mpr
      intro hopen
      exact Bool.noConfusion (hclosed.symm.trans (isOpen_of_react hopen).1)
    rw [guests, ih hnext, List.append_nil]
    apply admits_of_inside
    intro hstage
    exact Bool.noConfusion (hclosed.symm.trans (isOpen_of_accepting hstage))

end Server

/-! ## The server of a program -/

namespace Program

variable {β : Type} [ByteStream β] (program : Program) (network : NetworkSettings)
variable (session : SessionSettings) (bound : BoundAddress)

def guests (events : List (ServerEvent UInt32 (Connection β))) :
    List (Guest program.State (StreamLine β)) :=
  (Server.listen program session.pacing network.drainTimeout bound).guests
    (events.map (program.hosted session))

theorem server_append (before after : List (ServerEvent UInt32 (Connection β))) :
    program.server network session bound (before ++ after)
      = (program.server network session bound before).reactAll
          (after.map (program.hosted session)) := by
  rw [server, List.map_append, Server.reactAll_append]
  rfl

theorem guests_after (before after : List (ServerEvent UInt32 (Connection β))) :
    program.guests network session bound (before ++ after)
      = program.guests network session bound before
        ++ (program.server network session bound before).guests
            (after.map (program.hosted session)) := by
  rw [guests, List.map_append, Server.guests_append]
  rfl

theorem roster (events : List (ServerEvent UInt32 (Connection β))) :
    (program.server network session bound events).Roster
      (program.guests network session bound events) :=
  (Server.roster_listen program session.pacing network.drainTimeout bound).reactAll _

theorem settings_server (events : List (ServerEvent UInt32 (Connection β))) :
    (program.server network session bound events).pacing = session.pacing ∧
      (program.server network session bound events).drainTimeout = network.drainTimeout :=
  Server.settings_reactAll _ _

end Program

def NetworkSettings.brief : NetworkSettings := ⟨"localhost", 2323, Duration.ofMillis 50⟩

def BoundAddress.brief : BoundAddress := ⟨"127.0.0.1", "2323"⟩

end TerminalHost
