import TerminalHost.Proofs.Line.Recorded
import TerminalHost.Proofs.Session.Calls

/-!
# What a session takes from its queue

A recorded line has one answer for each item of its queue, and one more for the end of
it.  A session takes them one by one, so the number of its receives says how much of the
queue it has used up, and it has met the end of the queue exactly if it has tried one
receive more than there are items.  The last answer is the only one that makes a session
report that the other side is gone.
-/

namespace TerminalHost

def Item.heard : Item → Bytes
  | .octet key => [key]
  | .idle => []

def Call.received (calls : List Call) : List (Option (Except Loss Bytes)) :=
  calls.filterMap fun
    | .receive _ result => some result
    | _ => none

@[simp] theorem Call.received_send (calls : List Call) (chunk : Bytes)
    (result : Except Loss Unit) :
    received (calls ++ [.send chunk result]) = received calls := by
  simp [received]

@[simp] theorem Call.received_receive (calls : List Call) (most : Nat)
    (result : Option (Except Loss Bytes)) :
    received (calls ++ [.receive most result]) = received calls ++ [result] := by
  simp [received]

@[simp] theorem Call.received_close (calls : List Call) :
    received (calls ++ [.close]) = received calls := by
  simp [received]

namespace Recorded

/-- A line with a queue on which nothing has happened yet; with a limit, it takes only so
many chunks. -/
def supplied (items : List Item) (limit : Option Nat) : Recorded :=
  { empty with queue := items, sendLimit := limit }

/-- The answers of a queue to receives of one octet, in order. -/
def answers (items : List Item) : List (Except Loss Bytes) :=
  items.map (fun item => .ok item.heard) ++ [.error .peerClosed]

@[simp] theorem take_one_cons (item : Item) (rest : List Item) :
    take 1 (item :: rest) = (.ok item.heard, rest) := by
  cases item <;> rfl

/-- What is left of a queue gives its next answer, which is a loss only at the end. -/
theorem exists_answer {items : List Item} {count : Nat} (hle : count ≤ items.length) :
    ∃ result, take 1 (items.drop count) = (result, items.drop (count + 1)) ∧
      (answers items)[count]? = some result ∧
      (result = .error .peerClosed ↔ count = items.length) ∧
      ∀ loss, result = .error loss → loss = .peerClosed := by
  rcases Nat.lt_or_eq_of_le hle with hlt | rfl
  · have hdrop : items.drop count = items[count] :: items.drop (count + 1) :=
      List.drop_eq_getElem_cons hlt
    refine ⟨.ok items[count].heard, ?_, ?_, ?_, by simp⟩
    · rw [hdrop, take_one_cons]
    · simp [answers, List.getElem?_append_left, hlt]
    · simp only [reduceCtorEq, false_iff]
      omega
  · refine ⟨.error .peerClosed, ?_, ?_, by simp, by simp⟩
    · rw [List.drop_length, List.drop_eq_nil_of_le (Nat.le_succ _)]
      rfl
    · simp [answers]

/-- The receives on a logged line have taken the answers of its queue one by one. -/
structure Used (items : List Item) (line : Logged Recorded) : Prop where
  queue : line.line.queue = items.drop line.line.receives
  received : Call.received line.calls = ((answers items).take line.line.receives).map some
  le : line.line.receives ≤ items.length + 1

theorem used_supplied (items : List Item) (limit : Option Nat) :
    Used items (Logged.log (supplied items limit)) :=
  ⟨rfl, rfl, Nat.zero_le _⟩

variable {items : List Item} {line next : Logged Recorded} {now : Nat}

theorem Used.send (h : Used items line) {octets : Bytes} {answer : Answer Unit}
    (hsend : Line.send line now octets = (next, answer)) :
    Used items next ∧ next.line.receives = line.line.receives ∧
      next.line.isClosed = line.line.isClosed ∧ answer.result ≠ .error .peerClosed := by
  have hcalls := Logged.calls_send hsend
  have hline : next.line = (line.line.send octets).1 :=
    (congrArg (fun sent => sent.1.line) hsend).symm
  have hanswer : answer.result = (line.line.send octets).2 :=
    (congrArg (fun sent => sent.2.result) hsend).symm
  have hsent : (line.line.send octets).1.queue = line.line.queue ∧
      (line.line.send octets).1.receives = line.line.receives ∧
      (line.line.send octets).1.isClosed = line.line.isClosed ∧
      (line.line.send octets).2 ≠ .error .peerClosed := by
    unfold Recorded.send
    split
    · simp
    · split <;> simp
  rw [← hline, ← hanswer] at hsent
  obtain ⟨hqueue, hreceives, hclosed, hresult⟩ := hsent
  refine ⟨⟨?_, ?_, ?_⟩, hreceives, hclosed, hresult⟩
  · rw [hqueue, hreceives, h.queue]
  · rw [hcalls, Call.received_send, hreceives, h.received]
  · rw [hreceives]
    exact h.le

/-- A receive takes one item if there is one left, and otherwise it meets the end. -/
theorem Used.receive (h : Used items line) (hopen : line.line.isClosed = false)
    (hle : line.line.receives ≤ items.length) {answer : Option (Answer Bytes)}
    (hreceive : Line.receive line now 1 = (next, answer)) :
    Used items next ∧ next.line.receives = line.line.receives + 1 ∧
      next.line.isClosed = false ∧
      ∃ result, answer = some ⟨now, result⟩ ∧
        (result = .error .peerClosed ↔ line.line.receives = items.length) ∧
        ∀ loss, result = .error loss → loss = .peerClosed := by
  have hopen' : ¬ line.line.isClosed = true := by simp [hopen]
  obtain ⟨result, htake, hnth, hresult⟩ := exists_answer hle
  have hline : next.line = (line.line.receive 1).1 :=
    (congrArg (fun received => received.1.line) hreceive).symm
  have hanswer : answer = some ⟨now, (line.line.receive 1).2⟩ :=
    (congrArg Prod.snd hreceive).symm
  have hcalls := Logged.calls_receive hreceive
  rw [receive_of_open hopen', h.queue, htake] at hline hanswer
  rw [hanswer, Option.map_some] at hcalls
  have hreceives : next.line.receives = line.line.receives + 1 := by rw [hline]
  have hclosed : next.line.isClosed = false := by rw [hline, hopen]
  refine ⟨⟨?_, ?_, ?_⟩, hreceives, hclosed, result, hanswer, hresult⟩
  · rw [hline]
  · rw [hcalls, Call.received_receive, h.received, hreceives, List.take_add_one, hnth,
      List.map_append]
    rfl
  · rw [hreceives]
    exact Nat.succ_le_succ hle

theorem Used.close (h : Used items line) : Used items (Line.close line).1 := by
  refine ⟨h.queue, ?_, h.le⟩
  show Call.received (line.calls ++ [.close]) = _
  rw [Call.received_close, h.received]
  rfl

end Recorded

namespace Run

variable {σ : Type} [Dialogue σ]

/-- A run has used its queue as far as its receives go, and it leaves at the end of the
queue or with an answer in hand. -/
structure Draws (items : List Item) (r : Run σ (Logged Recorded)) : Prop where
  used : Recorded.Used items r.line
  talking (h : r.isTalking = true) :
    r.line.line.isClosed = false ∧ r.line.line.receives ≤ items.length
  left {loss : Option Loss} (h : r.agenda = .leave loss ∨ r.agenda = .done loss) :
    r.line.line.receives = items.length + 1 ↔ loss = some .peerClosed

variable {items : List Item} {r s : Run σ (Logged Recorded)}

omit [Dialogue σ] in
/-- A move that leaves the line alone goes on talking, or leaves of its own accord. -/
theorem Draws.silent (h : r.Draws items) (htalking : r.isTalking = true)
    (hline : s.line = r.line)
    (hagenda : s.isTalking = true ∨ s.agenda = .leave none) : s.Draws items where
  used := hline ▸ h.used
  talking _ := hline ▸ h.talking htalking
  left {loss} hleft := by
    have hle := (h.talking htalking).2
    rw [hline]
    rcases hagenda with htalks | hnone
    · rcases hleft with hleave | hdone
      · simp [isTalking, hleave] at htalks
      · simp [isTalking, hdone] at htalks
    · rcases hleft with hleave | hdone
      · obtain rfl := Agenda.leave.inj (hnone.symm.trans hleave)
        simp only [reduceCtorEq, iff_false]
        omega
      · simp [hnone] at hdone

theorem Draws.move {pacing : Pacing} (h : r.Draws items) (hmove : Move pacing r s) :
    s.Draws items := by
  cases hmove with
  | sent hagenda hsend =>
    obtain ⟨hopen, hle⟩ := h.talking (by simp [isTalking, hagenda])
    obtain ⟨hused, hreceives, hclosed, -⟩ := h.used.send hsend
    exact ⟨hused, fun _ => ⟨hclosed.trans hopen, hreceives ▸ hle⟩, by simp⟩
  | @unsent parts rest line time cause hagenda hsend =>
    obtain ⟨-, hle⟩ := h.talking (by simp [isTalking, hagenda])
    obtain ⟨hused, hreceives, -, hresult⟩ := h.used.send hsend
    refine ⟨hused, by simp [isTalking], fun {loss} hleft => ?_⟩
    obtain rfl : some _ = loss := by simpa using hleft
    constructor
    · intro hend
      have hsame : line.line.receives = items.length + 1 := hend
      omega
    · intro hpeer
      exact absurd (congrArg Except.error (Option.some.inj hpeer)) hresult
  | heard hagenda hcue hreceive =>
    obtain ⟨hopen, hle⟩ := h.talking (by simp [isTalking, hagenda])
    obtain ⟨hused, hreceives, hclosed, result, hanswer, hend, -⟩ :=
      h.used.receive hopen hle hreceive
    obtain ⟨rfl, rfl⟩ := Answer.mk.inj (Option.some.inj hanswer)
    have hmore : r.line.line.receives ≠ items.length := fun hlast => by
      simpa using hend.mpr hlast
    exact ⟨hused, fun _ => ⟨hclosed, hreceives ▸ Nat.lt_of_le_of_ne hle hmore⟩, by simp⟩
  | @unheard hear line time cause hagenda hcue hreceive =>
    obtain ⟨hopen, hle⟩ := h.talking (by simp [isTalking, hagenda])
    obtain ⟨hused, hreceives, -, result, hanswer, hend, hloss⟩ :=
      h.used.receive hopen hle hreceive
    obtain ⟨rfl, rfl⟩ := Answer.mk.inj (Option.some.inj hanswer)
    obtain rfl := hloss _ rfl
    refine ⟨hused, by simp [isTalking], fun {loss} hleft => ?_⟩
    obtain rfl : some Loss.peerClosed = loss := by simpa using hleft
    have hlast := hend.mp rfl
    simp only [iff_true]
    rw [hreceives, hlast]
  | unanswered hagenda hcue hreceive =>
    obtain ⟨hopen, hle⟩ := h.talking (by simp [isTalking, hagenda])
    obtain ⟨-, -, -, result, hanswer, -⟩ := h.used.receive hopen hle hreceive
    simp at hanswer
  | paused hagenda => exact h.silent (by simp [isTalking, hagenda]) rfl (.inl rfl)
  | went hagenda hcue => exact h.silent (by simp [isTalking, hagenda]) rfl (.inl rfl)
  | ended hagenda hcue => exact h.silent (by simp [isTalking, hagenda]) rfl (.inr rfl)
  | turned hagenda => exact h.silent (by simp [isTalking, hagenda]) rfl (.inl rfl)
  | left hagenda =>
    refine ⟨h.used.close, by simp [isTalking], fun {loss} hleft => ?_⟩
    rcases hleft with hleave | hdone
    · simp at hleave
    · obtain rfl := Agenda.done.inj hdone
      exact h.left (.inl hagenda)

theorem draws_runUntil (pacing : Pacing) (cutoff : Option Nat) (fuel : Nat) (state : σ)
    (items : List Item) (limit : Option Nat) :
    ((begin state (Logged.log (Recorded.supplied items limit)) 0).runUntil pacing cutoff
      fuel).Draws items := by
  obtain ⟨count, hcount⟩ := exists_steps_of_runUntil pacing cutoff fuel
    (begin state (Logged.log (Recorded.supplied items limit)) 0)
  rw [hcount]
  refine steps_induction (Draws items) (fun h hmove => h.move hmove) ?_ count
  exact ⟨Recorded.used_supplied items limit, fun _ => ⟨rfl, Nat.zero_le _⟩, by simp [begin]⟩

end Run

/-- How the session of a program has used its queue, also if it was cut off. -/
theorem Program.used_run (program : Program) (options : Options) (cutoff : Option Nat)
    (patience : Nat) (items : List Item) (limit : Option Nat) :
    Recorded.Used items
        (program.run options cutoff patience
          (Logged.log (Recorded.supplied items limit))).line ∧
      ∀ report, (program.run options cutoff patience
          (Logged.log (Recorded.supplied items limit))).report = some report →
        ((program.run options cutoff patience
            (Logged.log (Recorded.supplied items limit))).line.line.receives
              = items.length + 1 ↔
          report.loss? = some .peerClosed) := by
  cases program with
  | game =>
    have hdraws := Run.draws_runUntil options.pacing cutoff
      ((patience + 1) * Dialogue.stride Game) (Game.start options) items limit
    refine ⟨hdraws.used, fun report hreport => ?_⟩
    obtain ⟨loss, hdone, rfl⟩ := Run.exists_done_of_report? hreport
    exact hdraws.left (.inr hdone)
  | demo =>
    have hdraws := Run.draws_runUntil options.pacing cutoff
      ((patience + 1) * Dialogue.stride Demo) Demo.start items limit
    refine ⟨hdraws.used, fun report hreport => ?_⟩
    obtain ⟨loss, hdone, rfl⟩ := Run.exists_done_of_report? hreport
    exact hdraws.left (.inr hdone)

/-- **A session ends and accounts for its queue.**  Whatever stands in the queue, and
whichever send fails, the session comes to an end.  It has tried at most one receive more
than there are items, its receives were answered by the items in order, and what they did
not take is still there.  It has tried one receive more than there are items if and only
if it ended because the other side was gone. -/
theorem exists_returns_supplied (program : Program) (options : Options)
    (items : List Item) (limit : Option Nat) :
    ∃ outcome report, program.Returns options (Recorded.supplied items limit) outcome ∧
      outcome.report = some report ∧
      outcome.line.receives ≤ items.length + 1 ∧
      outcome.line.queue = items.drop outcome.line.receives ∧
      (outcome.line.receives = items.length + 1 ↔ report.loss? = some .peerClosed) ∧
      ∃ enough, ∀ patience, enough ≤ patience →
        Call.received
            (program.calls options none patience (Recorded.supplied items limit))
          = ((Recorded.answers items).take outcome.line.receives).map some := by
  obtain ⟨outcome, hreturns⟩ :=
    Recorded.exists_returns program options (Recorded.supplied items limit)
  obtain ⟨hsome, enough, hrun⟩ := hreturns
  obtain ⟨report, hreport⟩ := Option.isSome_iff_exists.mp hsome
  have hlogged (patience : Nat) (hle : enough ≤ patience) :=
    (program.run_log options none patience (Recorded.supplied items limit)).symm.trans
      (hrun patience hle)
  have hline (patience : Nat) (hle : enough ≤ patience) :
      (program.run options none patience
        (Logged.log (Recorded.supplied items limit))).line.line = outcome.line :=
    congrArg Outcome.line (hlogged patience hle)
  obtain ⟨hused, hend⟩ := program.used_run options none enough items limit
  have hsame := hline enough (Nat.le_refl _)
  have hlast := hend report
    ((congrArg Outcome.report (hlogged enough (Nat.le_refl _))).trans hreport)
  rw [hsame] at hlast
  refine ⟨outcome, report, ⟨hsome, enough, hrun⟩, hreport, ?_, ?_, hlast, enough,
    fun patience hle => ?_⟩
  · exact hsame ▸ hused.le
  · exact hsame ▸ hused.queue
  · have hreceived := (program.used_run options none patience items limit).1.received
    rw [hline patience hle] at hreceived
    exact hreceived

end TerminalHost
