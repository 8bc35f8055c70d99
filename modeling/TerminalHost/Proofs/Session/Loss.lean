import TerminalHost.Proofs.Line.Reading
import TerminalHost.Proofs.Session.Progress

/-!
# Faults on a line without a read timeout

A line without a read timeout sets no bound on its waits: it answers when its stream has
brought something, has ended or has failed.  It passes every fault of the stream on as a
loss but one.  A fault that says "timed out" is taken for the end of a wait of the line's
own, although there is none, so the receive answers with nothing and a session goes back
to listen to the same stream.
-/

namespace TerminalHost

/-- What a receive read from the stream, if it read, and what it answered, if it did. -/
structure Receipt where
  read : Option (Except Fault Bytes)
  answer : Option (Except Loss Bytes)

namespace Receipt

/-- The answer is never empty-handed, and a fault of the stream is the loss it reports. -/
structure Faithful (receipt : Receipt) : Prop where
  ne_nil : receipt.answer ≠ some (.ok [])
  loss {fault : Fault} (h : receipt.read = some (.error fault)) :
    receipt.answer = some (.error (.fault fault))

/-- The stream failed with a fault that says "timed out". -/
def SaysTimedOut (receipt : Receipt) : Prop :=
  ∃ fault, receipt.read = some (.error fault) ∧ fault.kind = .timedOut

end Receipt

namespace StreamLine

variable {β : Type} [ByteStream β]

def receipt (line : StreamLine β) (now most : Nat) : Receipt where
  read :=
    if line.isOpen then
      (ByteStream.read line.stream now (max most 1) none).2.map Prod.snd
    else none
  answer := (Line.receive line now most).2.map Answer.result

def receipts : StreamLine β → List (Nat × Nat) → List Receipt
  | _, [] => []
  | line, (now, most) :: rest =>
    line.receipt now most :: receipts (Line.receive line now most).1 rest

theorem heard_of_ok {octets : Bytes} : heard (.ok octets) ≠ .ok [] := by
  cases octets with
  | nil => simp [heard]
  | cons octet rest => simp [heard]

theorem heard_of_timedOut {fault : Fault} (h : fault.kind = .timedOut) :
    heard (.error fault) = .ok [] := by
  rw [heard, if_pos h]

theorem heard_of_fault {fault : Fault} (h : fault.kind ≠ .timedOut) :
    heard (.error fault) = .error (.fault fault) := by
  rw [heard, if_neg h]

/-- On a line without a read timeout only the stream decides when a receive ends. -/
theorem receive_of_read {line : StreamLine β} (hopen : line.isOpen = true)
    (hnone : line.readTimeout = none) {now most : Nat} {stream : β}
    {answer : Option (Nat × Except Fault Bytes)}
    (hread : ByteStream.read line.stream now (max most 1) none = (stream, answer)) :
    Line.receive line now most
      = ({ line with stream := stream },
        answer.map fun answer => ⟨answer.1, heard answer.2⟩) := by
  rw [receive_eq hopen, hnone, Option.map_none, hread]
  cases answer with
  | none => rfl
  | some answer => rfl

theorem receipt_of_isOpen {line : StreamLine β} (hopen : line.isOpen = true)
    (hnone : line.readTimeout = none) (now most : Nat) :
    (line.receipt now most).answer = (line.receipt now most).read.map heard := by
  match hread : ByteStream.read line.stream now (max most 1) none with
  | (stream, none) =>
    simp only [receipt, receive_of_read hopen hnone hread, hread]
    rw [if_pos hopen]
    rfl
  | (stream, some answer) =>
    simp only [receipt, receive_of_read hopen hnone hread, hread]
    rw [if_pos hopen]
    rfl

theorem faithful_receipt_iff {line : StreamLine β} (hnone : line.readTimeout = none)
    (now most : Nat) :
    (line.receipt now most).Faithful ↔ ¬ (line.receipt now most).SaysTimedOut := by
  by_cases hopen : line.isOpen = true
  · have hanswer := receipt_of_isOpen hopen hnone now most
    constructor
    · rintro hfaithful ⟨fault, hread, hkind⟩
      apply hfaithful.ne_nil
      rw [hanswer, hread, Option.map_some, heard_of_timedOut hkind]
    · intro hsays
      constructor
      · rw [hanswer]
        intro hnil
        obtain ⟨result, hread, hheard⟩ := Option.map_eq_some_iff.mp hnil
        cases result with
        | ok octets => exact heard_of_ok hheard
        | error fault =>
          by_cases hkind : fault.kind = .timedOut
          · exact hsays ⟨fault, hread, hkind⟩
          · rw [heard_of_fault hkind] at hheard
            cases hheard
      · intro fault hread
        have hkind : fault.kind ≠ .timedOut := fun hkind => hsays ⟨fault, hread, hkind⟩
        rw [hanswer, hread, Option.map_some, heard_of_fault hkind]
  · have hread : (line.receipt now most).read = none := if_neg hopen
    have hanswer : (line.receipt now most).answer = some (.error .closed) := by
      simp only [receipt, receive_of_not_isOpen hopen, Option.map_some]
    constructor
    · rintro - ⟨fault, hfault, -⟩
      simp [hread] at hfault
    · intro _
      constructor
      · simp [hanswer]
      · intro fault hfault
        simp [hread] at hfault

theorem readTimeout_receive (line : StreamLine β) (now most : Nat) :
    (Line.receive line now most).1.readTimeout = line.readTimeout := by
  by_cases hopen : line.isOpen = true
  · rw [receive_eq hopen]
    split <;> rfl
  · rw [receive_of_not_isOpen hopen]

theorem faithful_iff_of_mem_receipts {line : StreamLine β}
    (hnone : line.readTimeout = none) {calls : List (Nat × Nat)} {receipt : Receipt}
    (hmem : receipt ∈ line.receipts calls) :
    receipt.Faithful ↔ ¬ receipt.SaysTimedOut := by
  induction calls generalizing line with
  | nil => simp [receipts] at hmem
  | cons call rest ih =>
    obtain ⟨now, most⟩ := call
    rw [receipts, List.mem_cons] at hmem
    rcases hmem with rfl | hmem
    · exact faithful_receipt_iff hnone now most
    · exact ih ((readTimeout_receive line now most).trans hnone) hmem

theorem isOpen_receive (line : StreamLine β) (now most : Nat) :
    (Line.receive line now most).1.isOpen = line.isOpen := by
  by_cases hopen : line.isOpen = true
  · rw [receive_eq hopen]
    split <;> rfl
  · rw [receive_of_not_isOpen hopen]

theorem send_unchanged (line : StreamLine β) (now : Nat) (octets : Bytes) :
    (Line.send line now octets).1.isOpen = line.isOpen ∧
      (Line.send line now octets).1.readTimeout = line.readTimeout := by
  simp only [Line.send, send]
  split
  · split <;> exact ⟨rfl, rfl⟩
  · exact ⟨rfl, rfl⟩

theorem readTimeout_close (line : StreamLine β) :
    (Line.close line).1.readTimeout = line.readTimeout := by
  simp only [Line.close, close]
  split
  · split <;> rfl
  · rfl

theorem close_of_isOpen {line : StreamLine β} (hopen : line.isOpen = true) :
    (Line.close line).1.stream = (ByteStream.shutdown line.stream).1 := by
  simp only [Line.close, close]
  rw [if_pos hopen]
  split <;> rename_i hshutdown <;> rw [hshutdown]

end StreamLine

namespace Run

variable {σ β : Type} [Dialogue σ] [ByteStream β]

def isListening {ℓ : Type} (r : Run σ ℓ) : Bool :=
  match r.agenda with
  | .play [] =>
    match Dialogue.cue r.state with
    | .listen _ => true
    | _ => false
  | _ => false

omit [ByteStream β] in
theorem exists_of_isListening {r : Run σ (StreamLine β)} (h : r.isListening = true) :
    r.agenda = .play [] ∧ ∃ hear, Dialogue.cue r.state = .listen hear := by
  unfold isListening at h
  split at h
  · rename_i hagenda
    refine ⟨hagenda, ?_⟩
    split at h
    · exact ⟨_, ‹_›⟩
    · simp at h
  · simp at h

/-- The line of a session stays open and without a read timeout until the session leaves. -/
structure Patient (r : Run σ (StreamLine β)) : Prop where
  readTimeout : r.line.readTimeout = none
  isOpen : r.isTalking = true → r.line.isOpen = true

theorem Patient.move {pacing : Pacing} {r s : Run σ (StreamLine β)} (h : r.Patient)
    (hmove : Move pacing r s) : s.Patient := by
  have htalking (hagenda : ∃ rest, r.agenda = .play rest) : r.line.isOpen = true := by
    obtain ⟨rest, hrest⟩ := hagenda
    apply h.isOpen
    simp only [isTalking, hrest]
  cases hmove with
  | @sent parts rest line time hagenda hsend =>
    have hline := StreamLine.send_unchanged r.line r.now (Step.chunk parts)
    rw [hsend] at hline
    exact ⟨hline.2.trans h.readTimeout, fun _ => hline.1.trans (htalking ⟨_, hagenda⟩)⟩
  | @unsent parts rest line time loss hagenda hsend =>
    have hline := StreamLine.send_unchanged r.line r.now (Step.chunk parts)
    rw [hsend] at hline
    exact ⟨hline.2.trans h.readTimeout, by simp [isTalking]⟩
  | heard hagenda hcue hreceive =>
    have hopen := StreamLine.isOpen_receive r.line r.now 1
    have htimeout := StreamLine.readTimeout_receive r.line r.now 1
    rw [hreceive] at hopen htimeout
    exact ⟨htimeout.trans h.readTimeout, fun _ => hopen.trans (htalking ⟨_, hagenda⟩)⟩
  | unheard hagenda hcue hreceive =>
    have htimeout := StreamLine.readTimeout_receive r.line r.now 1
    rw [hreceive] at htimeout
    exact ⟨htimeout.trans h.readTimeout, by simp [isTalking]⟩
  | unanswered hagenda hcue hreceive =>
    have htimeout := StreamLine.readTimeout_receive r.line r.now 1
    rw [hreceive] at htimeout
    exact ⟨htimeout.trans h.readTimeout, by simp [isTalking]⟩
  | left hagenda =>
    exact ⟨(StreamLine.readTimeout_close r.line).trans h.readTimeout, by simp [isTalking]⟩
  | paused hagenda => exact ⟨h.readTimeout, fun _ => htalking ⟨_, hagenda⟩⟩
  | went hagenda hcue => exact ⟨h.readTimeout, fun _ => htalking ⟨_, hagenda⟩⟩
  | ended hagenda hcue => exact ⟨h.readTimeout, by simp [isTalking]⟩
  | turned hagenda =>
    refine ⟨h.readTimeout, fun _ => h.isOpen ?_⟩
    simp only [isTalking, hagenda]

/-- A fault of the stream that is passed on ends the session with its next steps, which
only close the stream. -/
theorem steps_of_fault (pacing : Pacing) {r : Run σ (StreamLine β)} (h : r.Patient)
    (hagenda : r.agenda = .play []) {hear : Bytes → σ}
    (hcue : Dialogue.cue r.state = .listen hear) {stream : β} {time : Nat} {fault : Fault}
    (hread : ByteStream.read r.line.stream r.now 1 none = (stream, some (time, .error fault)))
    (hkind : fault.kind ≠ .timedOut) :
    (r.steps pacing 2).agenda = .done (some (.fault fault)) ∧
      (r.steps pacing 2).state = r.state ∧ (r.steps pacing 2).now = time ∧
      (r.steps pacing 2).line.stream = (ByteStream.shutdown stream).1 := by
  have hopen : r.line.isOpen = true := h.isOpen (by simp only [isTalking, hagenda])
  have hreceive : Line.receive r.line r.now 1
      = ({ r.line with stream := stream }, some ⟨time, .error (.fault fault)⟩) := by
    rw [StreamLine.receive_of_read hopen h.readTimeout hread, Option.map_some,
      StreamLine.heard_of_fault hkind]
  have hlost : r.step pacing = _ := (Move.unheard hagenda hcue hreceive).step_eq
  have hleft : (r.step pacing).step pacing = _ :=
    (Move.left (by rw [hlost])).step_eq
  have hsteps : r.steps pacing 2 = (r.step pacing).step pacing := rfl
  rw [hsteps, hleft, hlost]
  exact ⟨rfl, rfl, rfl, StreamLine.close_of_isOpen hopen⟩

variable [Dialogue.Lawful σ]

/-- A fault that says "timed out" brings the session back to listen to the stream. -/
theorem exists_steps_timedOut (pacing : Pacing) {r : Run σ (StreamLine β)} (h : r.Patient)
    (hagenda : r.agenda = .play []) {hear : Bytes → σ}
    (hcue : Dialogue.cue r.state = .listen hear) {stream : β} {time : Nat} {fault : Fault}
    (hread : ByteStream.read r.line.stream r.now 1 none = (stream, some (time, .error fault)))
    (hkind : fault.kind = .timedOut) :
    ∃ latest, r.steps pacing 2
      = { r with line := { r.line with stream := stream }, now := time, latest := latest } := by
  have hopen : r.line.isOpen = true := h.isOpen (by simp only [isTalking, hagenda])
  have hreceive : Line.receive r.line r.now 1
      = ({ r.line with stream := stream }, some ⟨time, .ok []⟩) := by
    rw [StreamLine.receive_of_read hopen h.readTimeout hread, Option.map_some,
      StreamLine.heard_of_timedOut hkind]
  exact exists_steps_nothing pacing hagenda hcue hreceive

end Run

/-- **A line without a read timeout hides one kind of fault.**  A receive is empty-handed,
or keeps a fault of the stream to itself, exactly when the stream failed with a fault that
says "timed out".  A game that waits for a key ends with every other fault and leaves the
stream alone, while after such a one it waits again. -/
theorem faithful_iff_not_saysTimedOut {β : Type} [ByteStream β] {line : StreamLine β}
    (hnone : line.readTimeout = none) :
    (∀ (calls : List (Nat × Nat)) (receipt : Receipt), receipt ∈ line.receipts calls →
      (receipt.Faithful ↔ ¬ receipt.SaysTimedOut)) ∧
    (line.isOpen = true →
      ∀ (options : Options) (count : Nat) (r : Run Game (StreamLine β)),
        r = (Run.begin (Game.start options) line 0).steps options.pacing count →
        r.isListening = true →
        ∀ (stream : β) (time : Nat) (fault : Fault),
          ByteStream.read r.line.stream r.now 1 none
            = (stream, some (time, .error fault)) →
          (fault.kind ≠ .timedOut → ∃ outcome, Program.game.Returns options line outcome ∧
            outcome.report = some (.game r.state.won r.state.lost r.state.phase
              (some (.fault fault))) ∧
            outcome.now = time ∧ outcome.line.stream = (ByteStream.shutdown stream).1) ∧
          (fault.kind = .timedOut → ∃ latest, r.steps options.pacing 2
            = { r with
                line := { r.line with stream := stream }
                now := time
                latest := latest })) := by
  refine ⟨fun calls receipt hmem => StreamLine.faithful_iff_of_mem_receipts hnone hmem, ?_⟩
  intro hopen options count r hr hlistening stream time fault hread
  obtain ⟨hagenda, hear, hcue⟩ := Run.exists_of_isListening hlistening
  have hbegin : (Run.begin (Game.start options) line 0).Patient := ⟨hnone, fun _ => hopen⟩
  have hpatient : r.Patient := by
    rw [hr]
    exact Run.steps_induction Run.Patient (fun h hmove => h.move hmove) hbegin count
  constructor
  · intro hkind
    obtain ⟨hdone, hstate, hnow, hstream⟩ :=
      Run.steps_of_fault options.pacing hpatient hagenda hcue hread hkind
    have hreport := Run.report?_of_done hdone
    rw [hr, ← Run.steps_add] at hdone hreport hnow hstream hstate
    refine ⟨_, Program.returns_of_steps (fun _ _ => rfl) (congrArg Option.isSome hreport),
      ?_, hnow, hstream⟩
    rw [hstate, ← hr] at hreport
    exact hreport
  · exact Run.exists_steps_timedOut options.pacing hpatient hagenda hcue hread

/-- A line over a stream that fails once and brings a key after that. -/
def StreamLine.failing (kind : FaultKind) : StreamLine Scripted :=
  ⟨Scripted.ofEvents [.fault (Fault.ofKind kind), .bytes [0x6B]], true, "failing",
    Duration.zero, none⟩

def Options.brief : Options := ⟨Pacing.instant, ["A"], 1, View.usual⟩

def Run.failing : Run Game (StreamLine Scripted) :=
  (Run.begin (Game.start Options.brief) (StreamLine.failing .connectionReset) 0).steps
    Options.brief.pacing 45

theorem Run.failing_facts :
    failing.isListening = true ∧ failing.now = 0 ∧
      failing.line.stream.events
        = (StreamLine.failing .connectionReset).stream.events ∧
      failing.state.won = 0 ∧ failing.state.lost = 0 ∧
      failing.state.phase = .roundActive := by
  decide +kernel

theorem exists_returns_failing :
    Run.failing.isListening = true ∧
    (∀ receipt ∈ (StreamLine.failing .connectionReset).receipts [(0, 1), (0, 1)],
      receipt.Faithful ↔ ¬ receipt.SaysTimedOut) ∧
    ∃ outcome,
      Program.game.Returns Options.brief (StreamLine.failing .connectionReset) outcome ∧
      outcome.report = some (.game 0 0 .roundActive
        (some (.fault (Fault.ofKind .connectionReset)))) := by
  obtain ⟨hlistening, hnow, hevents, hwon, hlost, hphase⟩ := Run.failing_facts
  have hread : ByteStream.read Run.failing.line.stream Run.failing.now 1 none
      = ({ Run.failing.line.stream with events := [.bytes [0x6B]] },
        some (0, .error (Fault.ofKind .connectionReset))) := by
    simp only [ByteStream.read, Scripted.read, hevents, hnow]
    rfl
  obtain ⟨hreceipts, hsession⟩ :=
    @faithful_iff_not_saysTimedOut _ _ (StreamLine.failing .connectionReset) rfl
  obtain ⟨outcome, hreturns, hreport, -⟩ :=
    (hsession rfl Options.brief 45 Run.failing (by rw [Run.failing]) hlistening _ 0
      (Fault.ofKind .connectionReset) hread).1 (by decide)
  rw [hwon, hlost, hphase] at hreport
  exact ⟨hlistening, hreceipts _, outcome, hreturns, hreport⟩

/-- Without any read timeout, a stream that says "timed out" yields an empty receive. -/
theorem not_faithful_failing :
    (StreamLine.failing .timedOut).readTimeout = none ∧
    ∃ receipt ∈ (StreamLine.failing .timedOut).receipts [(0, 1)],
      receipt.read = some (.error (Fault.ofKind .timedOut)) ∧
      receipt.answer = some (.ok []) ∧ ¬ receipt.Faithful := by
  refine ⟨rfl, _, List.mem_singleton.mpr rfl, rfl, rfl, fun h => h.ne_nil rfl⟩

end TerminalHost
