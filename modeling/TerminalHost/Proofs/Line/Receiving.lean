import Mathlib.Data.List.Basic
import TerminalHost.Proofs.Line.Arrivals
import TerminalHost.Proofs.Line.Reading
import TerminalHost.Proofs.Line.Writing
import TerminalHost.Proofs.Session.Loss

/-!
# Receives on a line over a stream

Whatever is sent and received on an open line, and however long its read timeout is, what
was received and what the stream still brings are together what the stream has brought from
the beginning.  A receive answers to the first thing it meets, and a receive whose read
timeout goes by lasts just as long as this and leaves everything on the stream.
-/

namespace TerminalHost

namespace Arrival

/-- Whether a line passes on what has arrived, as an octet or as a fault: a fault that says
"timed out" it takes for a wait, and at the end of the stream it has nothing of the stream's
to pass on. -/
def isPassedOn : Arrival → Bool
  | octet _ => true
  | fault cause => cause.kind != .timedOut
  | finish => false

def octet? : Arrival → Option UInt8
  | octet value => some value
  | _ => none

theorem filterMap_octets (octets : Bytes) : (octets.map octet).filterMap octet? = octets := by
  rw [List.filterMap_map]
  exact List.filterMap_some

theorem filter_octets (octets : Bytes) :
    (octets.map octet).filter isPassedOn = octets.map octet := by
  apply List.filter_eq_self.mpr
  intro arrival harrival
  obtain ⟨value, -, rfl⟩ := List.mem_map.mp harrival
  rfl

end Arrival

namespace Scripted

/-- What a stream has still to bring that a line passes on. -/
def passedOn (stream : Scripted) : List Arrival :=
  (arrivals stream.events).filter Arrival.isPassedOn

/-- The octets to come are those among what has still to be passed on. -/
theorem toCome_eq (stream : Scripted) :
    stream.toCome = stream.passedOn.filterMap Arrival.octet? := by
  unfold toCome passedOn
  induction stream.events with
  | nil => rfl
  | cons event rest ih =>
    rw [List.flatMap_cons, arrivals_cons, List.filter_append, List.filterMap_append, ← ih]
    congr 1
    cases event with
    | bytes octets => rw [ReadEvent.arrivals, Arrival.filter_octets, Arrival.filterMap_octets]
    | delay millis => rfl
    | untilTime time => rfl
    | fault cause =>
      by_cases hkind : cause.kind = .timedOut
      · simp [ReadEvent.arrivals, Arrival.isPassedOn, hkind]
      · simp [ReadEvent.arrivals, Arrival.isPassedOn, Arrival.octet?, hkind]
    | finish => rfl

end Scripted

/-! ## One receive -/

/-- A receive on a line over a scripted stream: the stream it found, its time and its bound,
its answer, if it ever has one, and the stream it left. -/
structure Reception where
  before : Scripted
  now : Nat
  most : Nat
  answer : Option (Answer Bytes)
  after : Scripted

namespace Reception

/-- The first thing the receive meets before its read timeout has gone by, and when. -/
def met? (timeout : Option Nat) (r : Reception) : Option (Nat × Arrival) :=
  (Scripted.next? r.before.staysOpen r.now r.before.events).filter fun met =>
    Scripted.allows (timeout.map (r.now + ·)) met.1

def octets (r : Reception) : Bytes :=
  match r.answer with
  | some ⟨_, .ok octets⟩ => octets
  | _ => []

/-- What the receive takes from the stream: the octets of its answer, or the one fault or end
that it met.  The end behind the last event is not taken away, and the next receive meets it
again. -/
def taken (timeout : Option Nat) (r : Reception) : List Arrival :=
  match r.met? timeout with
  | some (_, .octet _) => r.octets.map .octet
  | some (_, .fault cause) => [.fault cause]
  | some (_, .finish) => (Scripted.arrivals r.before.events).take 1
  | none => []

def passedOn (r : Reception) : List Arrival :=
  match r.answer with
  | some ⟨_, .ok octets⟩ => octets.map .octet
  | some ⟨_, .error (.fault cause)⟩ => [.fault cause]
  | _ => []

/-- The receive takes nothing from the stream, and it does not put off what comes next for
one that follows at the end of its wait. -/
structure Spares (timeout : Option Nat) (r : Reception) : Prop where
  arrivals : Scripted.arrivals r.after.events = Scripted.arrivals r.before.events
  next {later : Nat} (h : Scripted.allows (timeout.map (r.now + ·)) later = true) :
    Scripted.next? r.before.staysOpen later r.after.events
      = Scripted.next? r.before.staysOpen r.now r.before.events

structure Exact (timeout : Option Nat) (r : Reception) : Prop where
  length_le {time : Nat} {octets : Bytes} (h : r.answer = some ⟨time, .ok octets⟩) :
    octets.length ≤ max r.most 1
  octets_iff (time : Nat) :
    (∃ octets, octets ≠ [] ∧ r.answer = some ⟨time, .ok octets⟩) ↔
      ∃ octet, r.met? timeout = some (time, .octet octet)
  peerClosed_iff (time : Nat) :
    r.answer = some ⟨time, .error .peerClosed⟩ ↔ r.met? timeout = some (time, .finish)
  fault_iff (time : Nat) (cause : Fault) :
    r.answer = some ⟨time, .error (.fault cause)⟩ ↔
      r.met? timeout = some (time, .fault cause) ∧ cause.kind ≠ .timedOut
  /-- The read timeout has gone by, or the stream itself says "timed out". -/
  nil_iff (time : Nat) :
    r.answer = some ⟨time, .ok []⟩ ↔
      (r.met? timeout = none ∧ timeout.map (r.now + ·) = some time) ∨
      ∃ cause, r.met? timeout = some (time, .fault cause) ∧ cause.kind = .timedOut
  none_iff : r.answer = none ↔ r.met? timeout = none ∧ timeout = none
  spares (h : r.met? timeout = none) : r.Spares timeout

/-- What becomes of a receive, by the first thing it meets. -/
inductive Comes (timeout : Option Nat) (r : Reception) : Prop where
  | octets {time : Nat} {first : UInt8} {rest : Bytes}
      (hmet : r.met? timeout = some (time, .octet first))
      (hanswer : r.answer = some ⟨time, .ok (first :: rest)⟩)
      (hroom : (first :: rest).length ≤ max r.most 1)
      (hsplit : Scripted.arrivals r.before.events
        = (first :: rest).map .octet ++ Scripted.arrivals r.after.events)
  | fault {time : Nat} {cause : Fault} (hkind : cause.kind ≠ .timedOut)
      (hmet : r.met? timeout = some (time, .fault cause))
      (hanswer : r.answer = some ⟨time, .error (.fault cause)⟩)
      (hsplit : Scripted.arrivals r.before.events
        = .fault cause :: Scripted.arrivals r.after.events)
  /-- The stream itself says "timed out". -/
  | stalled {time : Nat} {cause : Fault} (hkind : cause.kind = .timedOut)
      (hmet : r.met? timeout = some (time, .fault cause))
      (hanswer : r.answer = some ⟨time, .ok []⟩)
      (hsplit : Scripted.arrivals r.before.events
        = .fault cause :: Scripted.arrivals r.after.events)
  | finish {time : Nat} (hmet : r.met? timeout = some (time, .finish))
      (hanswer : r.answer = some ⟨time, .error .peerClosed⟩)
      (hsplit : Scripted.arrivals r.before.events = .finish :: Scripted.arrivals r.after.events ∨
        Scripted.arrivals r.before.events = [] ∧ Scripted.arrivals r.after.events = [])
  /-- The read timeout has gone by, or there is none and the receive waits for ever. -/
  | late (hmet : r.met? timeout = none)
      (hanswer : r.answer = timeout.map fun millis => ⟨r.now + millis, .ok []⟩)
      (hspares : r.Spares timeout)

variable {timeout : Option Nat} {r : Reception}

theorem octets_of_answer {time : Nat} {octets : Bytes}
    (h : r.answer = some ⟨time, .ok octets⟩) : r.octets = octets := by
  rw [Reception.octets, h]

theorem octets_eq (r : Reception) : r.octets = r.passedOn.filterMap Arrival.octet? := by
  unfold octets passedOn
  match r.answer with
  | none => rfl
  | some ⟨_, .ok octets⟩ => exact (Arrival.filterMap_octets octets).symm
  | some ⟨_, .error .peerClosed⟩ => rfl
  | some ⟨_, .error .closed⟩ => rfl
  | some ⟨_, .error (.fault cause)⟩ => rfl

/-- What a receive takes is no longer on the stream, and nothing else is missing. -/
theorem Comes.taken_append (h : r.Comes timeout) :
    r.taken timeout ++ Scripted.arrivals r.after.events = Scripted.arrivals r.before.events := by
  unfold taken
  cases h with
  | octets hmet hanswer hroom hsplit =>
    simp only [hmet, octets_of_answer hanswer]
    exact hsplit.symm
  | fault hkind hmet hanswer hsplit =>
    simp only [hmet]
    exact hsplit.symm
  | stalled hkind hmet hanswer hsplit =>
    simp only [hmet]
    exact hsplit.symm
  | finish hmet hanswer hsplit =>
    simp only [hmet]
    rcases hsplit with hsplit | ⟨hbefore, hafter⟩
    · rw [hsplit]
      rfl
    · rw [hbefore, hafter]
      rfl
  | late hmet hanswer hspares =>
    simp only [hmet]
    exact hspares.arrivals

/-- Of what it takes, a receive passes on what a line passes on. -/
theorem Comes.passedOn_eq (h : r.Comes timeout) :
    r.passedOn = (r.taken timeout).filter Arrival.isPassedOn := by
  unfold passedOn taken
  cases h with
  | octets hmet hanswer hroom hsplit =>
    simp only [hmet, hanswer, octets_of_answer hanswer]
    exact (Arrival.filter_octets _).symm
  | @fault time cause hkind hmet hanswer hsplit =>
    have hloud : Arrival.isPassedOn (.fault cause) = true := bne_iff_ne.mpr hkind
    simp only [hmet, hanswer]
    rw [List.filter_cons_of_pos hloud, List.filter_nil]
  | @stalled time cause hkind hmet hanswer hsplit =>
    have hsilent : ¬ Arrival.isPassedOn (.fault cause) = true := by
      simp [Arrival.isPassedOn, hkind]
    simp only [hmet, hanswer]
    rw [List.filter_cons_of_neg hsilent, List.filter_nil, List.map_nil]
  | finish hmet hanswer hsplit =>
    simp only [hmet, hanswer]
    rcases hsplit with hsplit | ⟨hbefore, hafter⟩
    · rw [hsplit]
      rfl
    · rw [hbefore]
      rfl
  | late hmet hanswer hspares =>
    simp only [hmet, hanswer]
    cases timeout with
    | none => rfl
    | some millis => rfl

theorem Comes.exact (h : r.Comes timeout) : r.Exact timeout := by
  cases h with
  | octets hmet hanswer hroom hsplit =>
    constructor
    case length_le =>
      intro time octets h
      rw [hanswer] at h
      cases h
      exact hroom
    all_goals simp [hmet, hanswer]
  | @fault met cause hkind hmet hanswer hsplit =>
    constructor
    case fault_iff =>
      intro time other
      rw [hanswer, hmet]
      constructor
      · intro h
        cases h
        exact ⟨rfl, hkind⟩
      · rintro ⟨h, -⟩
        cases h
        rfl
    all_goals simp [hmet, hanswer, hkind]
  | stalled hkind hmet hanswer hsplit =>
    constructor
    case nil_iff =>
      intro time
      rw [hanswer, hmet]
      constructor
      · intro h
        cases h
        exact .inr ⟨_, rfl, hkind⟩
      · rintro (⟨h, -⟩ | ⟨other, h, -⟩)
        · cases h
        · cases h
          rfl
    all_goals simp [hmet, hanswer, hkind]
  | finish hmet hanswer hsplit => constructor <;> simp [hmet, hanswer]
  | late hmet hanswer hspares =>
    -- With a read timeout the answer is empty-handed, without one there is none.
    constructor
    case spares =>
      intro _
      exact hspares
    all_goals cases timeout with
      | none => simp [hmet, hanswer]
      | some millis => simp [hmet, hanswer]

theorem met?_of_allows {time : Nat} {arrival : Arrival}
    (hnext : Scripted.next? r.before.staysOpen r.now r.before.events = some (time, arrival))
    (hallows : Scripted.allows (timeout.map (r.now + ·)) time = true) :
    r.met? timeout = some (time, arrival) := by
  rw [met?, hnext]
  exact Option.filter_some_pos hallows

/-- How a receive answers, by the end of its read if that has one: a read that is given up
ends the receive at the end of its read timeout. -/
def reply (timeout : Option Nat) (now : Nat) :
    Option (Nat × Except Fault Bytes) → Option (Answer Bytes)
  | some (time, result) => some ⟨time, StreamLine.heard result⟩
  | none => timeout.map fun millis => ⟨now + millis, .ok []⟩

theorem comes_of_reads {answer : Option (Nat × Except Fault Bytes)}
    (hreads : Scripted.Reads r.before.staysOpen (max r.most 1) (timeout.map (r.now + ·)) r.now
      r.before.events (r.after.events, answer))
    (hanswer : r.answer = reply timeout r.now answer) : r.Comes timeout := by
  cases hreads with
  | octets hnext hallows hroom hsplit =>
    exact .octets (met?_of_allows hnext hallows) hanswer hroom hsplit
  | @fault _ time cause hnext hallows hsplit =>
    have hmet := met?_of_allows hnext hallows
    by_cases hkind : cause.kind = .timedOut
    · rw [reply, StreamLine.heard_of_timedOut hkind] at hanswer
      exact .stalled hkind hmet hanswer hsplit
    · rw [reply, StreamLine.heard_of_fault hkind] at hanswer
      exact .fault hkind hmet hanswer hsplit
  | finish hnext hallows hsplit =>
    exact .finish (met?_of_allows hnext hallows) hanswer hsplit
  | late hlate hkept hwait =>
    refine .late ?_ hanswer ⟨hkept, fun h => hwait _ h⟩
    apply Option.filter_eq_none_iff.mpr
    intro met hnext
    simp [hlate met hnext]

end Reception

/-! ## A line that is asked again and again -/

inductive Request where
  | send (octets : Bytes)
  | receive (most : Nat)

namespace StreamLine

def reception (line : StreamLine Scripted) (now most : Nat) : Reception where
  before := line.stream
  now := now
  most := most
  answer := (Line.receive line now most).2
  after := (Line.receive line now most).1.stream

def ask (line : StreamLine Scripted) (now : Nat) : Request → StreamLine Scripted
  | .send octets => (Line.send line now octets).1
  | .receive most => (Line.receive line now most).1

def askAll : StreamLine Scripted → List (Nat × Request) → StreamLine Scripted
  | line, [] => line
  | line, (now, request) :: rest => (line.ask now request).askAll rest

/-- The receives among some requests, each with the stream as it was by then. -/
def receptions : StreamLine Scripted → List (Nat × Request) → List Reception
  | _, [] => []
  | line, (now, .send octets) :: rest => (line.ask now (.send octets)).receptions rest
  | line, (now, .receive most) :: rest =>
    line.reception now most :: (line.ask now (.receive most)).receptions rest

variable {line : StreamLine Scripted} {timeout : Option Nat}

theorem receive_of_readEvents (hopen : line.isOpen = true)
    (htimeout : line.readTimeout = timeout.map Duration.ofMillis) {now most : Nat}
    {events : List ReadEvent} {answer : Option (Nat × Except Fault Bytes)}
    (hread : Scripted.readEvents line.stream.staysOpen (max most 1) (timeout.map (now + ·)) now
      line.stream.events = (events, answer)) :
    Line.receive line now most
      = (line.withEvents events, Reception.reply timeout now answer) := by
  have hdeadline : line.readTimeout.map (now + ·.ticks) = timeout.map (now + ·) := by
    rw [htimeout, Option.map_map]
    congr 1
    funext millis
    rw [Function.comp_apply, Duration.ticks_ofMillis]
  rw [receive_eq hopen, hdeadline]
  simp only [ByteStream.read, Scripted.read, hread]
  cases answer with
  | none => rw [Option.map_map]; rfl
  | some met => rfl

theorem comes_reception (hopen : line.isOpen = true)
    (htimeout : line.readTimeout = timeout.map Duration.ofMillis) (now most : Nat) :
    (line.reception now most).Comes timeout := by
  have hnow : Scripted.allows (timeout.map (now + ·)) now = true := by
    cases timeout with
    | none => rfl
    | some millis => exact decide_eq_true (Nat.le_add_right now millis)
  have hroom : 0 < max most 1 := Nat.lt_of_lt_of_le Nat.one_pos (Nat.le_max_right most 1)
  have hreads : Scripted.Reads line.stream.staysOpen _ _ _ _ _ :=
    Scripted.reads_readEvents hroom hnow line.stream.events
  rcases hread : Scripted.readEvents line.stream.staysOpen (max most 1)
    (timeout.map (now + ·)) now line.stream.events with ⟨events, answer⟩
  have hreceive := receive_of_readEvents hopen htimeout hread
  rw [hread] at hreads
  refine @Reception.comes_of_reads _ _ answer ?_ ?_
  · unfold reception
    rw [hreceive]
    exact hreads
  · unfold reception
    rw [hreceive]

theorem ask_unchanged (line : StreamLine Scripted) (now : Nat) (request : Request) :
    (line.ask now request).isOpen = line.isOpen ∧
      (line.ask now request).readTimeout = line.readTimeout := by
  cases request with
  | send octets => exact send_unchanged line now octets
  | receive most => exact ⟨isOpen_receive line now most, readTimeout_receive line now most⟩

theorem reading_send (line : StreamLine Scripted) (now : Nat) (octets : Bytes) :
    (line.ask now (.send octets)).stream.events = line.stream.events ∧
      (line.ask now (.send octets)).stream.staysOpen = line.stream.staysOpen := by
  obtain ⟨-, -, -, hevents, hstays, -⟩ := exists_accepted_send line now octets
  exact ⟨hevents, hstays⟩

theorem comes_of_mem_receptions (hopen : line.isOpen = true)
    (htimeout : line.readTimeout = timeout.map Duration.ofMillis)
    {requests : List (Nat × Request)} {r : Reception} (hmem : r ∈ line.receptions requests) :
    r.Comes timeout := by
  induction requests generalizing line with
  | nil => cases hmem
  | cons asked rest ih =>
    obtain ⟨now, request⟩ := asked
    obtain ⟨hstill, hsame⟩ := ask_unchanged line now request
    cases request with
    | send octets => exact ih (hstill.trans hopen) (hsame.trans htimeout) hmem
    | receive most =>
      rcases List.mem_cons.mp hmem with rfl | hlater
      · exact comes_reception hopen htimeout now most
      · exact ih (hstill.trans hopen) (hsame.trans htimeout) hlater

/-- What the receives take and what is left are what the stream had to bring. -/
theorem taken_receptions (hopen : line.isOpen = true)
    (htimeout : line.readTimeout = timeout.map Duration.ofMillis)
    (requests : List (Nat × Request)) :
    (line.receptions requests).flatMap (Reception.taken timeout)
        ++ Scripted.arrivals (line.askAll requests).stream.events
      = Scripted.arrivals line.stream.events := by
  induction requests generalizing line with
  | nil => rfl
  | cons asked rest ih =>
    obtain ⟨now, request⟩ := asked
    obtain ⟨hstill, hsame⟩ := ask_unchanged line now request
    have hrest := ih (hstill.trans hopen) (hsame.trans htimeout)
    cases request with
    | send octets =>
      rw [(reading_send line now octets).1] at hrest
      exact hrest
    | receive most =>
      have hfirst := (comes_reception hopen htimeout now most).taken_append
      rw [receptions, askAll, List.flatMap_cons, List.append_assoc, hrest]
      exact hfirst

theorem passedOn_receptions (hopen : line.isOpen = true)
    (htimeout : line.readTimeout = timeout.map Duration.ofMillis)
    (requests : List (Nat × Request)) :
    (line.receptions requests).flatMap Reception.passedOn
        ++ (line.askAll requests).stream.passedOn
      = line.stream.passedOn := by
  have hpassedOn : (line.receptions requests).flatMap Reception.passedOn
      = ((line.receptions requests).flatMap (Reception.taken timeout)).filter
        Arrival.isPassedOn := by
    rw [List.filter_flatMap]
    apply List.flatMap_congr
    intro r hmem
    exact (comes_of_mem_receptions hopen htimeout hmem).passedOn_eq
  unfold Scripted.passedOn
  rw [hpassedOn, ← List.filter_append, taken_receptions hopen htimeout]

theorem toCome_receptions (hopen : line.isOpen = true)
    (htimeout : line.readTimeout = timeout.map Duration.ofMillis)
    (requests : List (Nat × Request)) :
    (line.receptions requests).flatMap Reception.octets
        ++ (line.askAll requests).stream.toCome
      = line.stream.toCome := by
  have hoctets : (line.receptions requests).flatMap Reception.octets
      = ((line.receptions requests).flatMap Reception.passedOn).filterMap Arrival.octet? := by
    rw [List.filterMap_flatMap]
    apply List.flatMap_congr
    intro r hmem
    exact r.octets_eq
  rw [hoctets, Scripted.toCome_eq, ← List.filterMap_append, passedOn_receptions hopen htimeout,
    Scripted.toCome_eq]

theorem staysOpen_askAll (line : StreamLine Scripted) (requests : List (Nat × Request)) :
    (line.askAll requests).stream.staysOpen = line.stream.staysOpen := by
  induction requests generalizing line with
  | nil => rfl
  | cons asked rest ih =>
    obtain ⟨now, request⟩ := asked
    rw [askAll, ih]
    cases request with
    | send octets => exact (reading_send line now octets).2
    | receive most =>
      obtain ⟨events, hevents⟩ := exists_withEvents line now most
      rw [ask, hevents]
      rfl

/-- **A line loses nothing that its stream brings.**  Whatever is sent and received, and
whenever, the octets that were received are at every moment a first part of those that the
stream brings, and so are these together with the faults that were passed on.  Each receive
answers to the first thing it meets, an end of the stream with the loss of the line, and a
receive that meets nothing lasts just as long as the read timeout and takes nothing. -/
theorem lossless_receptions (hopen : line.isOpen = true)
    (htimeout : line.readTimeout = timeout.map Duration.ofMillis)
    (requests : List (Nat × Request)) :
    (line.receptions requests).flatMap Reception.octets
        ++ (line.askAll requests).stream.toCome = line.stream.toCome ∧
      (line.receptions requests).flatMap Reception.passedOn
        ++ (line.askAll requests).stream.passedOn = line.stream.passedOn ∧
      (line.receptions requests).flatMap (Reception.taken timeout)
        ++ Scripted.arrivals (line.askAll requests).stream.events
        = Scripted.arrivals line.stream.events ∧
      (line.askAll requests).stream.staysOpen = line.stream.staysOpen ∧
      ∀ r ∈ line.receptions requests, r.Exact timeout := by
  refine ⟨toCome_receptions hopen htimeout requests, passedOn_receptions hopen htimeout requests,
    taken_receptions hopen htimeout requests, staysOpen_askAll line requests, ?_⟩
  intro r hmem
  exact (comes_of_mem_receptions hopen htimeout hmem).exact

def faltering : StreamLine Scripted :=
  ⟨Scripted.ofEvents [.bytes [0x66, 0x6F], .delay 30, .fault (Fault.ofKind .connectionReset),
      .bytes [0x78]], true, "faltering", Duration.zero, some (Duration.ofMillis 20)⟩

/-- The requests on this line up to the receive that has to be given up. -/
def earlyRequests : List (Nat × Request) :=
  [(0, .receive 1), (2, .send [0x2A]), (2, .receive 8)]

theorem lossless_receptions_faltering :
    faltering.isOpen = true ∧ faltering.readTimeout = (some 20).map Duration.ofMillis ∧
    (faltering.receptions earlyRequests).flatMap Reception.octets = [0x66, 0x6F] ∧
    [0x66, 0x6F] ++ (faltering.askAll earlyRequests).stream.toCome = faltering.stream.toCome ∧
    ((faltering.askAll earlyRequests).reception 2 8).answer = some ⟨22, .ok []⟩ ∧
    ((faltering.askAll earlyRequests).reception 2 8).Spares (some 20) := by
  have hoctets : (faltering.receptions earlyRequests).flatMap Reception.octets
      = [0x66, 0x6F] := by decide +kernel
  obtain ⟨htoCome, -⟩ := @lossless_receptions faltering (some 20) rfl rfl earlyRequests
  obtain ⟨-, -, -, -, hexact⟩ := @lossless_receptions faltering (some 20) rfl rfl
    (earlyRequests ++ [(2, .receive 8)])
  have hmem : (faltering.askAll earlyRequests).reception 2 8
      ∈ faltering.receptions (earlyRequests ++ [(2, .receive 8)]) := by
    simp only [earlyRequests, List.cons_append, List.nil_append, receptions, List.mem_cons]
    exact .inr (.inr (.inl rfl))
  have hmet : ((faltering.askAll earlyRequests).reception 2 8).met? (some 20) = none := by
    decide +kernel
  rw [hoctets] at htoCome
  have hlate := hexact _ hmem
  exact ⟨rfl, rfl, hoctets, htoCome, (hlate.nil_iff 22).mpr (.inl ⟨hmet, rfl⟩),
    hlate.spares hmet⟩

end StreamLine

end TerminalHost
