import TerminalHost.Proofs.Line.Dealings
import TerminalHost.Proofs.Session.Supply

/-!
# Playing back and recording

The queue of a recorded line can grow while the line is in use, and so can its limit change,
also to fewer sends than have already been made.  Through all of this the line keeps account:
what the receives have taken stands before what is left of the queue, what was recorded are
the sends that succeeded, and each call is decided by the queue, the limit and the counters
that it finds.
-/

namespace TerminalHost

def Call.taken : Call → List Item
  | .receive _ (some (.ok [])) => [.idle]
  | .receive _ (some (.ok octets)) => octets.map .octet
  | _ => []

def Call.heard : Call → Bytes
  | .receive _ (some (.ok octets)) => octets
  | _ => []

theorem Item.heard_octets (octets : Bytes) :
    (octets.map Item.octet).flatMap Item.heard = octets := by
  rw [List.flatMap_map]
  exact List.flatMap_singleton' octets

theorem Call.heard_taken (call : Call) : call.taken.flatMap Item.heard = call.heard := by
  cases call with
  | send chunk result => rfl
  | receive most result =>
    rcases result with _ | loss | _ | ⟨octet, later⟩
    · rfl
    · rfl
    · rfl
    · exact Item.heard_octets (octet :: later)
  | close => rfl

namespace Recorded

/-- What a receive of so many octets may take from the front of a queue. -/
inductive Takes (most : Nat) : List Item → Bytes → List Item → Prop where
  | idle (rest : List Item) : Takes most (.idle :: rest) [] rest
  /-- The longest run of octets, but no more than were asked for. -/
  | run {octets : Bytes} {rest : List Item} (hsome : octets ≠ [])
      (hmost : octets.length ≤ max most 1)
      (hlongest : ∀ longer : Bytes, longer.map .octet <+: octets.map .octet ++ rest →
        longer.length ≤ max most 1 → longer <+: octets) :
      Takes most (octets.map .octet ++ rest) octets rest

theorem length_takeOctets_fst_le (most : Nat) (queue : List Item) :
    (takeOctets most queue).1.length ≤ most := by
  fun_induction takeOctets most queue with
  | case1 most octet rest octets left htaken ih =>
    rw [htaken] at ih
    exact Nat.succ_le_succ ih
  | case2 => exact Nat.zero_le _

/-- No run of octets in front of the queue is longer than the one that is taken. -/
theorem prefix_takeOctets {most : Nat} {queue : List Item} {octets : Bytes}
    (hqueue : octets.map .octet <+: queue) (hmost : octets.length ≤ most) :
    octets <+: (takeOctets most queue).1 := by
  induction octets generalizing most queue with
  | nil => exact List.nil_prefix
  | cons octet later ih =>
    obtain ⟨rest, rfl⟩ := hqueue
    cases most with
    | zero => cases hmost
    | succ most =>
      have hlater : later <+: (takeOctets most (later.map .octet ++ rest)).1 :=
        ih (List.prefix_append _ rest) (Nat.le_of_succ_le_succ hmost)
      exact (List.prefix_cons_inj octet).mpr hlater

theorem takes_take {most : Nat} {queue rest : List Item} {octets : Bytes}
    (h : take most queue = (.ok octets, rest)) : Takes most queue octets rest := by
  unfold take at h
  split at h
  · cases h
  · cases h
    exact .idle rest
  · -- The first octet is taken in any case, so the rest may be one shorter than was asked for.
    rename_i first later
    have happend := takeOctets_append (most - 1) later
    have hle := length_takeOctets_fst_le (most - 1) later
    have hfront {longer : Bytes} := @prefix_takeOctets (most - 1) later longer
    rcases htaken : takeOctets (most - 1) later with ⟨run, left⟩
    simp only [htaken] at h happend hle hfront
    cases h
    subst happend
    refine .run (List.cons_ne_nil first run) ?_ ?_
    · rw [List.length_cons]
      omega
    · intro longer hlonger hlength
      cases longer with
      | nil => exact List.nil_prefix
      | cons octet more =>
        obtain ⟨hfirst, hmore⟩ := List.cons_prefix_cons.mp hlonger
        rw [List.length_cons] at hlength
        have hrun := hfront hmore (by omega)
        rw [Item.octet.inj hfirst]
        exact (List.prefix_cons_inj first).mpr hrun

theorem Takes.append {most : Nat} {queue rest : List Item} {octets : Bytes}
    (h : Takes most queue octets rest) :
    (Call.receive most (some (.ok octets))).taken ++ rest = queue := by
  cases h with
  | idle => rfl
  | run hsome hmost hlongest =>
    cases octets with
    | nil => exact absurd rfl hsome
    | cons octet later => rfl

theorem isSpent_iff (line : Recorded) :
    line.isSpent = true ↔ ∃ limit, line.sendLimit = some limit ∧ limit ≤ line.sends := by
  unfold isSpent
  split
  · rename_i limit hlimit
    simp [hlimit]
  · rename_i hlimit
    simp [hlimit]

end Recorded

open Recorded in
/-- A call on a recorded line, with all that decides it and all that comes of it. -/
inductive Dealing.Played (d : Dealing Recorded) : Prop where
  | sent {octets : Bytes} (hopen : d.before.isClosed = false)
      (hroom : ¬ ∃ limit, d.before.sendLimit = some limit ∧ limit ≤ d.before.sends)
      (hcall : d.call = .send octets (.ok ()))
      (hafter : d.after = { d.before with
        latest := octets :: d.before.latest
        sends := d.before.sends + 1 })
  /-- A closed line is closed, whatever the limit is. -/
  | unsent {octets : Bytes} {loss : Loss}
      (hloss : (d.before.isClosed = true ∧ loss = .closed) ∨
        (d.before.isClosed = false ∧
          (∃ limit, d.before.sendLimit = some limit ∧ limit ≤ d.before.sends) ∧
          loss = .fault (Fault.ofKind .brokenPipe)))
      (hcall : d.call = .send octets (.error loss)) (hafter : d.after = d.before)
  | received {most : Nat} {octets : Bytes} {rest : List Item}
      (hopen : d.before.isClosed = false) (htakes : Takes most d.before.queue octets rest)
      (hcall : d.call = .receive most (some (.ok octets)))
      (hafter : d.after = { d.before with
        queue := rest
        receives := d.before.receives + 1 })
  /-- A receive that fails is only counted. -/
  | unheard {most : Nat} {loss : Loss}
      (hloss : (d.before.isClosed = true ∧ loss = .closed) ∨
        (d.before.isClosed = false ∧ d.before.queue = [] ∧ loss = .peerClosed))
      (hcall : d.call = .receive most (some (.error loss)))
      (hafter : d.after = { d.before with receives := d.before.receives + 1 })
  | closed (hcall : d.call = .close)
      (hafter : d.after = { d.before with
        closes := d.before.closes + 1
        isClosed := true })

namespace Dealing.Played

variable {d : Dealing Recorded}

theorem queue (h : d.Played) : d.call.taken ++ d.after.queue = d.before.queue := by
  cases h with
  | received hopen htakes hcall hafter =>
    rw [hcall, hafter]
    exact htakes.append
  | _ => simp_all [Call.taken]

theorem chunks (h : d.Played) :
    d.after.chunks = d.before.chunks ++ Call.delivered [d.call] := by
  cases h with
  | sent hopen hroom hcall hafter =>
    rw [hcall, hafter]
    exact List.reverse_cons
  | _ => simp_all [Call.delivered, Call.sent?, Recorded.chunks]

theorem sends (h : d.Played) :
    d.after.sends = d.before.sends + (Call.delivered [d.call]).length := by
  cases h <;> simp_all [Call.delivered, Call.sent?]

theorem receives (h : d.Played) :
    d.after.receives = d.before.receives + (Call.received [d.call]).length := by
  cases h <;> simp_all [Call.received]

theorem closes (h : d.Played) :
    d.after.closes = d.before.closes + [d.call].countP Call.isClose := by
  cases h <;> simp_all [Call.isClose]

theorem isClosed (h : d.Played) :
    d.after.isClosed = (d.before.isClosed || d.call.isClose) := by
  cases h <;> simp_all [Call.isClose]

theorem sendLimit (h : d.Played) : d.after.sendLimit = d.before.sendLimit := by
  cases h <;> simp_all

end Dealing.Played

namespace Recorded

theorem played_send (line : Recorded) (now : Nat) (octets : Bytes) :
    (Line.deal line now (.send octets)).Played := by
  by_cases hopen : line.isClosed = true
  · have hsend : Line.send line now octets = (line, ⟨now, .error .closed⟩) := by
      simp only [Line.send, send_of_isClosed hopen]
    rw [Line.deal_send hsend]
    exact .unsent (.inl ⟨hopen, rfl⟩) rfl rfl
  · have hisOpen := Bool.not_eq_true _ ▸ hopen
    by_cases hspent : line.isSpent = true
    · have hsend : Line.send line now octets
          = (line, ⟨now, .error (.fault (Fault.ofKind .brokenPipe))⟩) := by
        simp only [Line.send, send, if_neg hopen, if_pos hspent]
      rw [Line.deal_send hsend]
      exact .unsent (.inr ⟨hisOpen, line.isSpent_iff.mp hspent, rfl⟩) rfl rfl
    · have hsend : Line.send line now octets
          = ({ line with latest := octets :: line.latest, sends := line.sends + 1 },
            ⟨now, .ok ()⟩) := by
        simp only [Line.send, send, if_neg hopen, if_neg hspent]
      rw [Line.deal_send hsend]
      exact .sent hisOpen (mt line.isSpent_iff.mpr hspent) rfl rfl

theorem played_receive (line : Recorded) (now most : Nat) :
    (Line.deal line now (.receive most)).Played := by
  by_cases hopen : line.isClosed = true
  · have hreceive : Line.receive line now most
        = ({ line with receives := line.receives + 1 }, some ⟨now, .error .closed⟩) := by
      simp only [Line.receive, receive_of_isClosed hopen]
    rw [Line.deal_receive hreceive]
    exact .unheard (.inl ⟨hopen, rfl⟩) rfl rfl
  · have hisOpen := Bool.not_eq_true _ ▸ hopen
    rcases htake : take most line.queue with ⟨loss | octets, rest⟩
    · have hempty : line.queue = [] ∧ loss = .peerClosed ∧ rest = [] := by
        unfold take at htake
        split at htake
        · cases htake
          exact ⟨‹_›, rfl, rfl⟩
        · cases htake
        · cases htake
      obtain ⟨hqueue, rfl, rfl⟩ := hempty
      have hreceive : Line.receive line now most
          = ({ line with receives := line.receives + 1, queue := [] },
            some ⟨now, .error .peerClosed⟩) := by
        simp only [Line.receive, receive_of_open hopen, htake]
      rw [Line.deal_receive hreceive]
      refine .unheard (.inr ⟨hisOpen, hqueue, rfl⟩) rfl ?_
      simp only [← hqueue]
    · have hreceive : Line.receive line now most
          = ({ line with receives := line.receives + 1, queue := rest },
            some ⟨now, .ok octets⟩) := by
        simp only [Line.receive, receive_of_open hopen, htake]
      rw [Line.deal_receive hreceive]
      exact .received hisOpen (takes_take htake) rfl rfl

theorem played_deal (line : Recorded) (now : Nat) (errand : Errand) :
    (Line.deal line now errand).Played := by
  cases errand with
  | send octets => exact played_send line now octets
  | receive most => exact played_receive line now most
  | close => exact .closed rfl rfl

/-! ## Over any use of the line -/

inductive Use where
  | pushBytes (octets : Bytes)
  | pushIdle (count : Nat)
  | failAfter (count : Nat)
  | ask (now : Nat) (errand : Errand)

namespace Use

def items : Use → List Item
  | pushBytes octets => octets.map .octet
  | pushIdle count => List.replicate count .idle
  | _ => []

def octets : Use → Bytes
  | pushBytes octets => octets
  | _ => []

def limit? : Use → Option Nat
  | failAfter count => some count
  | _ => none

theorem heard_items (used : Use) : used.items.flatMap Item.heard = used.octets := by
  cases used with
  | pushBytes octets => exact Item.heard_octets octets
  | pushIdle count =>
    apply List.flatMap_eq_nil_iff.mpr
    intro item hmem
    rw [List.eq_of_mem_replicate hmem]
    rfl
  | failAfter count => rfl
  | ask now errand => rfl

end Use

def use (line : Recorded) : Use → Recorded
  | .pushBytes octets => line.pushBytes octets
  | .pushIdle count => line.pushIdle count
  | .failAfter count => line.failAfter count
  | .ask now errand => (Line.deal line now errand).after

def calls (line : Recorded) : Use → List Call
  | .ask now errand => [(Line.deal line now errand).call]
  | .pushBytes _ | .pushIdle _ | .failAfter _ => []

def useAll (line : Recorded) (uses : List Use) : Recorded := uses.foldl use line

def allCalls : Recorded → List Use → List Call
  | _, [] => []
  | line, used :: later => line.calls used ++ (line.use used).allCalls later

/-- The account of a recorded line, after some uses and the calls among them. -/
structure Kept (uses : List Use) (made : List Call) (line : Recorded) : Prop where
  queue : made.flatMap Call.taken ++ line.queue = uses.flatMap Use.items
  chunks : line.chunks = Call.delivered made
  sends : line.sends = line.chunks.length
  receives : line.receives = (Call.received made).length
  closes : line.closes = made.countP Call.isClose
  isClosed : line.isClosed = made.any Call.isClose
  sendLimit : line.sendLimit = (uses.filterMap Use.limit?).getLast?

theorem kept_empty : Kept [] [] empty := ⟨rfl, rfl, rfl, rfl, rfl, rfl, rfl⟩

section Kept

variable {uses : List Use} {made : List Call} {line : Recorded}

theorem Kept.push (h : Kept uses made line) {used : Use} (hlimit : used.limit? = none) :
    Kept (uses ++ [used]) made (line.push used.items) where
  queue := by
    have hqueue : (line.push used.items).queue = line.queue ++ used.items := rfl
    rw [hqueue, ← List.append_assoc, h.queue, List.flatMap_append, List.flatMap_singleton]
  chunks := h.chunks
  sends := h.sends
  receives := h.receives
  closes := h.closes
  isClosed := h.isClosed
  sendLimit := by
    have hnone : [used].filterMap Use.limit? = [] := by simp [hlimit]
    rw [List.filterMap_append, hnone, List.append_nil]
    exact h.sendLimit

theorem Kept.failAfter (h : Kept uses made line) (count : Nat) :
    Kept (uses ++ [.failAfter count]) made (line.failAfter count) where
  queue := by
    rw [List.flatMap_append, ← h.queue]
    exact (List.append_nil _).symm
  chunks := h.chunks
  sends := h.sends
  receives := h.receives
  closes := h.closes
  isClosed := h.isClosed
  sendLimit := by
    rw [List.filterMap_append]
    exact List.getLast?_concat.symm

theorem Kept.ask (h : Kept uses made line) (now : Nat) (errand : Errand) :
    Kept (uses ++ [.ask now errand]) (made ++ [(Line.deal line now errand).call])
      (Line.deal line now errand).after := by
  have hplayed := played_deal line now errand
  have hbefore := Line.before_deal line now errand
  generalize Line.deal line now errand = d at hplayed hbefore ⊢
  subst hbefore
  constructor
  case queue =>
    rw [List.flatMap_append, List.flatMap_singleton, List.append_assoc, hplayed.queue, h.queue,
      List.flatMap_append]
    exact (List.append_nil _).symm
  case chunks => rw [hplayed.chunks, h.chunks, Call.delivered_append]
  case sends =>
    have hchunks := congrArg List.length hplayed.chunks
    rw [List.length_append] at hchunks
    rw [hplayed.sends, hchunks, h.sends]
  case receives =>
    rw [hplayed.receives, h.receives]
    simp [Call.received, List.filterMap_append]
  case closes => rw [hplayed.closes, h.closes, List.countP_append]
  case isClosed => rw [hplayed.isClosed, h.isClosed, List.any_append]; simp
  case sendLimit =>
    rw [hplayed.sendLimit, h.sendLimit, List.filterMap_append]
    exact congrArg List.getLast? (List.append_nil _).symm

theorem Kept.use (h : Kept uses made line) (used : Use) :
    Kept (uses ++ [used]) (made ++ line.calls used) (line.use used) := by
  cases used with
  | pushBytes octets =>
    rw [calls, List.append_nil]
    exact h.push rfl
  | pushIdle count =>
    rw [calls, List.append_nil]
    exact h.push rfl
  | failAfter count =>
    rw [calls, List.append_nil]
    exact h.failAfter count
  | ask now errand => exact h.ask now errand

theorem Kept.useAll (h : Kept uses made line) (later : List Use) :
    Kept (uses ++ later) (made ++ line.allCalls later) (line.useAll later) := by
  induction later generalizing uses made line with
  | nil =>
    rw [allCalls, List.append_nil, List.append_nil]
    exact h
  | cons used later ih =>
    have hall := ih (h.use used)
    rwa [List.append_assoc, List.append_assoc] at hall

theorem Kept.octets (h : Kept uses made line) :
    made.flatMap Call.heard ++ line.queue.flatMap Item.heard = uses.flatMap Use.octets := by
  -- An idle item is heard as no octet, so the octets follow from the items.
  have hitems := congrArg (List.flatMap Item.heard) h.queue
  rw [List.flatMap_append, List.flatMap_assoc, List.flatMap_assoc] at hitems
  simpa only [Call.heard_taken, Use.heard_items] using hitems

end Kept

/-- **A recorded line plays back what was put in its queue, and records what it takes.**  This
holds after any use of the line, and of any call that is made then. -/
theorem plays_back (uses : List Use) (now : Nat) (errand : Errand) :
    Kept uses (empty.allCalls uses) (empty.useAll uses) ∧
    (empty.allCalls uses).flatMap Call.heard ++ (empty.useAll uses).queue.flatMap Item.heard
      = uses.flatMap Use.octets ∧
    (Line.deal (empty.useAll uses) now errand).Played := by
  have hkept := kept_empty.useAll uses
  exact ⟨hkept, hkept.octets, played_deal _ now errand⟩

/-- A limit below the number of sends that were made takes nothing back. -/
example : (empty.useAll [.ask 0 (.send [1]), .ask 0 (.send [2]), .failAfter 1,
    .ask 0 (.send [3])]).chunks = [[1], [2]] := by decide

end Recorded

end TerminalHost
