import TerminalHost.Proofs.Session.Calls
import TerminalHost.Proofs.Session.Progress

/-!
# Cutting the line

A session whose line fails at some point is compared with the same session on a line
that never fails.  The two go in step up to the send that is refused; there the one
leaves, and the other goes on.  So the cut session has sent a prefix of what the whole
session sends, as long as the cut allows, and reports the standing of the whole session
before that send.

What the whole session sends is in the log of its calls: none of its sends fails, and its
line takes their chunks and nothing else.
-/

namespace TerminalHost

/-! ## A line that takes everything -/

structure Line.Takes {ℓ α : Type} [Line ℓ] (Open : ℓ → Prop) (taken : ℓ → List α)
    (sent : Bytes → List α) : Prop where
  send {line : ℓ} (h : Open line) (now : Nat) (octets : Bytes) :
    Open (Line.send line now octets).1 ∧ (Line.send line now octets).2.result = .ok () ∧
      taken (Line.send line now octets).1 = taken line ++ sent octets
  receive {line : ℓ} (h : Open line) (now : Nat) :
    Open (Line.receive line now 1).1 ∧ taken (Line.receive line now 1).1 = taken line
  close (line : ℓ) : taken (Line.close line).1 = taken line

namespace Run

variable {σ ℓ α : Type} {Open : ℓ → Prop} {taken : ℓ → List α} {sent : Bytes → List α}

/-- No send of a run has failed, and its line has taken the chunks of its log. -/
structure Delivers (Open : ℓ → Prop) (taken : ℓ → List α) (sent : Bytes → List α)
    (r : Run σ (Logged ℓ)) : Prop where
  isOpen (h : r.isTalking = true) : Open r.line.line
  sends {chunk : Bytes} {result : Except Loss Unit}
    (hmem : .send chunk result ∈ r.line.calls) : result = .ok ()
  taken : taken r.line.line = (Call.delivered r.line.calls).flatMap sent

theorem Delivers.other {r s : Run σ (Logged ℓ)} (h : r.Delivers Open taken sent)
    (hopen : s.isTalking = true → Open s.line.line)
    (htaken : taken s.line.line = taken r.line.line) {call : Call}
    (hcalls : s.line.calls = r.line.calls ++ [call])
    (hother : ∀ chunk result, call ≠ .send chunk result) : s.Delivers Open taken sent where
  isOpen := hopen
  sends {chunk result} hmem := by
    rw [hcalls] at hmem
    rcases List.mem_append.mp hmem with hbefore | hlast
    · exact h.sends hbefore
    · exact absurd (List.mem_singleton.mp hlast).symm (hother chunk result)
  taken := by
    have hnone : Call.delivered [call] = [] := by
      cases call with
      | send chunk result => exact absurd rfl (hother chunk result)
      | _ => rfl
    rw [htaken, h.taken, hcalls, Call.delivered_append, hnone, List.append_nil]

variable [Dialogue σ] [Line ℓ]

theorem Delivers.move (htakes : Line.Takes Open taken sent) {pacing : Pacing}
    {r s : Run σ (Logged ℓ)} (h : r.Delivers Open taken sent) (hmove : Move pacing r s) :
    s.Delivers Open taken sent := by
  cases hmove.handles with
  | kept htalking hline =>
    refine ⟨fun _ => ?_, fun hmem => ?_, ?_⟩
    · exact hline ▸ h.isOpen htalking
    · exact h.sends (hline ▸ hmem)
    · exact hline ▸ h.taken
  | sent htalking octets hline =>
    obtain ⟨hopen, hresult, htaken⟩ := htakes.send (h.isOpen htalking) r.now octets
    have hinner : s.line.line = (Line.send r.line.line r.now octets).1 := by
      rw [hline]
      rfl
    have hcalls : s.line.calls = r.line.calls ++ [.send octets (.ok ())] := by
      rw [hline, ← hresult]
      rfl
    refine ⟨fun _ => hinner ▸ hopen, fun {chunk result} hmem => ?_, ?_⟩
    · rw [hcalls] at hmem
      rcases List.mem_append.mp hmem with hbefore | hlast
      · exact h.sends hbefore
      · exact (Call.send.inj (List.mem_singleton.mp hlast)).2
    · rw [hinner, htaken, h.taken, hcalls, Call.delivered_append, List.flatMap_append]
      simp [Call.delivered, Call.sent?]
  | received htalking hline =>
    obtain ⟨hopen, htaken⟩ := htakes.receive (h.isOpen htalking) r.now
    have hinner : s.line.line = (Line.receive r.line.line r.now 1).1 := by
      rw [hline]
      rfl
    have hcalls : s.line.calls = r.line.calls
        ++ [.receive 1 ((Line.receive r.line.line r.now 1).2.map Answer.result)] := by
      rw [hline]
      rfl
    exact h.other (fun _ => hinner ▸ hopen) (hinner ▸ htaken) hcalls (by simp)
  | closed hquiet hline =>
    have hinner : s.line.line = (Line.close r.line.line).1 := by
      rw [hline]
      rfl
    have hcalls : s.line.calls = r.line.calls ++ [.close] := by
      rw [hline]
      rfl
    refine h.other (fun htalking => ?_) (hinner ▸ htakes.close r.line.line) hcalls (by simp)
    rw [hquiet] at htalking
    cases htalking

theorem delivers_steps (htakes : Line.Takes Open taken sent) (pacing : Pacing) (state : σ)
    {line : ℓ} (hopen : Open line) (hnew : taken line = []) (count : Nat) :
    ((begin state (Logged.log line) 0).steps pacing count).Delivers Open taken sent := by
  refine steps_induction (Delivers Open taken sent) (fun h hmove => h.move htakes hmove) ?_ count
  refine ⟨fun _ => hopen, fun hmem => ?_, hnew⟩
  cases hmem

end Run

theorem Program.delivers_run {ℓ α : Type} [Line ℓ] {Open : ℓ → Prop} {taken : ℓ → List α}
    {sent : Bytes → List α} (htakes : Line.Takes Open taken sent) (program : Program)
    (options : Options) {line : ℓ} (hopen : Open line) (hnew : taken line = [])
    (patience : Nat) :
    (∀ chunk result, .send chunk result ∈ program.calls options none patience line →
      result = .ok ()) ∧
    taken (program.run options none patience line).line
      = (Call.delivered (program.calls options none patience line)).flatMap sent := by
  obtain ⟨σ, _, _, start, hrun⟩ := program.exists_dialogue options
  have hlogged := (hrun options.pacing (Logged.log line)).1 none patience
  have hdelivers := Run.delivers_steps htakes options.pacing start hopen hnew
    ((patience + 1) * Dialogue.stride σ)
  rw [← Run.runUntil_none] at hdelivers
  rw [program.run_log, Program.calls, hlogged]
  exact ⟨fun _ _ => hdelivers.sends, hdelivers.taken⟩

/-! ## A line beside one that is cut -/

/-- A line that takes at most `limit` beside one that takes everything: `Same a b` says
that the cut line `b` cannot be told apart from the whole line `a` yet.  They answer alike
until a send of `b` is refused with `lost`. -/
structure Line.Cut {ℓ α : Type} [Line ℓ] (Same : ℓ → ℓ → Prop) (Whole : ℓ → Prop)
    (taken : ℓ → List α) (sent : Bytes → List α) (limit : Nat) (lost : Loss) : Prop where
  whole {a b : ℓ} (h : Same a b) : Whole a
  taken_eq {a b : ℓ} (h : Same a b) : taken b = taken a
  taken_le {a b : ℓ} (h : Same a b) : (taken a).length ≤ limit
  send {a b : ℓ} (h : Same a b) (now : Nat) (octets : Bytes) :
    (Same (Line.send a now octets).1 (Line.send b now octets).1 ∧
      (Line.send a now octets).2 = (Line.send b now octets).2) ∨
    ((Line.send b now octets).2 = ⟨now, .error lost⟩ ∧
      limit < (taken (Line.send a now octets).1).length ∧
      taken (Line.send b now octets).1 = (taken (Line.send a now octets).1).take limit)
  receive {a b : ℓ} (h : Same a b) (now : Nat) :
    Same (Line.receive a now 1).1 (Line.receive b now 1).1 ∧
      (Line.receive a now 1).2 = (Line.receive b now 1).2
  close {a b : ℓ} (h : Same a b) : Same (Line.close a).1 (Line.close b).1
  taken_close (a : ℓ) : taken (Line.close a).1 = taken a
  whole_send {a : ℓ} (h : Whole a) (now : Nat) (octets : Bytes) :
    Whole (Line.send a now octets).1 ∧
      (taken (Line.send a now octets).1 = taken a ∨
        taken (Line.send a now octets).1 = taken a ++ sent octets)
  whole_receive {a : ℓ} (h : Whole a) (now : Nat) :
    Whole (Line.receive a now 1).1 ∧ taken (Line.receive a now 1).1 = taken a
  whole_close {a : ℓ} (h : Whole a) : Whole (Line.close a).1

namespace Run

variable {σ ℓ α : Type} [Dialogue σ] [Line ℓ]

/-- Two runs that stand at one point on lines that cannot be told apart yet. -/
structure Twin (Same : ℓ → ℓ → Prop) (r q : Run σ ℓ) : Prop where
  state : r.state = q.state
  agenda : r.agenda = q.agenda
  now : r.now = q.now
  line : Same r.line q.line

/-- The next send of `q` is refused, while that of `r` takes the line past the limit. -/
structure Refused (pacing : Pacing) (taken : ℓ → List α) (limit : Nat) (lost : Loss)
    (r q : Run σ ℓ) : Prop where
  sending : ∃ parts rest, r.agenda = .play (.send parts :: rest)
  past : limit < (taken (r.step pacing).line).length
  taken_step : taken (q.step pacing).line = (taken (r.step pacing).line).take limit
  agenda_step : (q.step pacing).agenda = .leave (some lost)
  state_step : (q.step pacing).state = r.state

variable {Same : ℓ → ℓ → Prop} {Whole : ℓ → Prop} {taken : ℓ → List α}
variable {sent : Bytes → List α} {limit : Nat} {lost : Loss}
variable (hcut : Line.Cut Same Whole taken sent limit lost) (pacing : Pacing)
include hcut

theorem Twin.step_send {r q : Run σ ℓ} (h : Twin Same r q) {parts : List Part}
    {rest : Script} (hagenda : r.agenda = .play (.send parts :: rest)) :
    Twin Same (r.step pacing) (q.step pacing) ∨ Refused pacing taken limit lost r q := by
  have hr : r.step pacing = r.sendChunk (Step.chunk parts) rest := by
    simp only [Run.step, hagenda]
  have hq : q.step pacing = q.sendChunk (Step.chunk parts) rest := by
    simp only [Run.step, ← h.agenda, hagenda]
  have hsend := hcut.send h.line r.now (Step.chunk parts)
  rw [h.now] at hsend
  rcases hsend with ⟨hsame, hanswer⟩ | ⟨hlost, hpast, htaken⟩
  · left
    rw [hr, hq]
    simp only [sendChunk, h.now, hanswer]
    exact ⟨h.state, rfl, rfl, hsame⟩
  · right
    refine ⟨⟨parts, rest, hagenda⟩, ?_, ?_, ?_, ?_⟩
    · rw [hr]
      simpa only [sendChunk, h.now] using hpast
    · rw [hr, hq]
      simpa only [sendChunk, h.now] using htaken
    · rw [hq]
      simp only [sendChunk, hlost]
    · rw [hq, h.state]
      rfl

theorem Twin.step_listen {r q : Run σ ℓ} (h : Twin Same r q) (hagenda : r.agenda = .play [])
    {hear : Bytes → σ} (hcue : Dialogue.cue r.state = .listen hear) :
    Twin Same (r.step pacing) (q.step pacing) := by
  have hagenda' : q.agenda = .play [] := h.agenda.symm.trans hagenda
  have hcue' : Dialogue.cue q.state = .listen hear := h.state ▸ hcue
  obtain ⟨hsame, hanswer⟩ := hcut.receive h.line r.now
  rw [h.now] at hsame hanswer
  simp only [Run.step, hagenda, hagenda', hcue, hcue', listen, h.now]
  generalize Line.receive r.line q.now 1 = answered at hsame hanswer ⊢
  generalize Line.receive q.line q.now 1 = answered' at hsame hanswer ⊢
  obtain ⟨line, answer⟩ := answered
  obtain ⟨line', answer'⟩ := answered'
  simp only at hsame hanswer
  subst hanswer
  cases answer with
  | none => exact ⟨h.state, rfl, rfl, hsame⟩
  | some answer => exact ⟨h.state, rfl, rfl, hsame⟩

theorem Twin.step {r q : Run σ ℓ} (h : Twin Same r q) :
    Twin Same (r.step pacing) (q.step pacing) ∨ Refused pacing taken limit lost r q := by
  cases hagenda : r.agenda with
  | play rest =>
    have hagenda' := h.agenda.symm.trans hagenda
    rcases rest with _ | ⟨parts | length, rest⟩
    · left
      rcases hcue : Dialogue.cue r.state with next | hear | _
      · simp only [Run.step, hagenda, hagenda', hcue, h.state ▸ hcue]
        exact ⟨h.state, rfl, h.now, h.line⟩
      · exact h.step_listen hcut pacing hagenda hcue
      · simp only [Run.step, hagenda, hagenda', hcue, h.state ▸ hcue]
        exact ⟨h.state, rfl, h.now, h.line⟩
    · exact h.step_send hcut pacing hagenda
    · left
      simp only [Run.step, hagenda, hagenda', h.now]
      exact ⟨h.state, rfl, rfl, h.line⟩
  | turn next =>
    have hagenda' := h.agenda.symm.trans hagenda
    left
    simp only [Run.step, hagenda, hagenda']
    exact ⟨rfl, rfl, h.now, h.line⟩
  | leave loss =>
    have hagenda' := h.agenda.symm.trans hagenda
    left
    simp only [Run.step, hagenda, hagenda']
    exact ⟨h.state, rfl, h.now, hcut.close h.line⟩
  | done loss =>
    left
    simpa only [Run.step, hagenda, h.agenda.symm.trans hagenda] using h
  | stuck =>
    left
    simpa only [Run.step, hagenda, h.agenda.symm.trans hagenda] using h

theorem Twin.steps {r q : Run σ ℓ} (h : Twin Same r q) (count : Nat) :
    Twin Same (r.steps pacing count) (q.steps pacing count) ∨
      ∃ before, before < count ∧
        Twin Same (r.steps pacing before) (q.steps pacing before) ∧
        Refused pacing taken limit lost (r.steps pacing before) (q.steps pacing before) := by
  induction count with
  | zero => exact .inl h
  | succ count ih =>
    rcases ih with htwin | ⟨before, hlt, htwin, hrefused⟩
    · rcases htwin.step hcut pacing with hnext | hrefused
      · left
        rwa [steps_succ, steps_succ]
      · exact .inr ⟨count, Nat.lt_succ_self count, htwin, hrefused⟩
    · exact .inr ⟨before, Nat.lt_succ_of_lt hlt, htwin, hrefused⟩

theorem Refused.steps {r q : Run σ ℓ} (h : Refused pacing taken limit lost r q)
    (more : Nat) :
    (q.steps pacing (more + 2)).agenda = .done (some lost) ∧
      (q.steps pacing (more + 2)).state = r.state ∧
      taken (q.steps pacing (more + 2)).line
        = (taken (r.step pacing).line).take limit := by
  have hleft : (q.step pacing).step pacing = _ := (Move.left h.agenda_step).step_eq
  have hdone : (q.steps pacing 2).agenda = .done (some lost) := by
    show ((q.step pacing).step pacing).agenda = _
    rw [hleft]
  have hover : (q.steps pacing 2).isOver = true := by
    simp only [isOver, hdone]
  rw [steps_eq_of_isOver (Nat.le_add_left 2 more) hover]
  refine ⟨hdone, ?_, ?_⟩
  · show ((q.step pacing).step pacing).state = _
    rw [hleft]
    exact h.state_step
  · show taken ((q.step pacing).step pacing).line = _
    rw [hleft]
    exact (hcut.taken_close _).trans h.taken_step

theorem whole_move {r s : Run σ ℓ} (h : Whole r.line) (hmove : Move pacing r s) :
    Whole s.line ∧ taken r.line <+: taken s.line := by
  cases hmove.handles with
  | kept htalking hline =>
    rw [hline]
    exact ⟨h, List.prefix_refl _⟩
  | sent htalking octets hline =>
    obtain ⟨hwhole, htaken⟩ := hcut.whole_send h r.now octets
    rw [hline]
    refine ⟨hwhole, ?_⟩
    rcases htaken with htaken | htaken
    · exact htaken ▸ List.prefix_refl _
    · rw [htaken]
      exact List.prefix_append _ _
  | received htalking hline =>
    obtain ⟨hwhole, htaken⟩ := hcut.whole_receive h r.now
    rw [hline]
    exact ⟨hwhole, htaken ▸ List.prefix_refl _⟩
  | closed hquiet hline =>
    rw [hline]
    exact ⟨hcut.whole_close h, hcut.taken_close r.line ▸ List.prefix_refl _⟩

theorem whole_steps {r : Run σ ℓ} (h : Whole r.line) (count : Nat) :
    Whole (r.steps pacing count).line ∧
      taken r.line <+: taken (r.steps pacing count).line := by
  refine steps_induction (fun s => Whole s.line ∧ taken r.line <+: taken s.line)
    (fun {q s} hq hmove => ?_) ⟨h, List.prefix_refl _⟩ count
  obtain ⟨hwhole, htaken⟩ := whole_move hcut pacing hq.1 hmove
  exact ⟨hwhole, hq.2.trans htaken⟩

theorem prefix_step_steps {r : Run σ ℓ} (h : Whole r.line) (before more : Nat) :
    taken ((r.steps pacing before).step pacing).line
      <+: taken (r.steps pacing (before + more + 1)).line := by
  have hsteps : r.steps pacing (before + more + 1)
      = ((r.steps pacing before).step pacing).steps pacing more := by
    rw [Nat.add_assoc, Nat.add_comm more 1, steps_add, steps_add]
    rfl
  have hbefore := (whole_steps hcut pacing h (before + 1)).1
  rw [steps_succ] at hbefore
  rw [hsteps]
  exact (whole_steps hcut pacing hbefore more).2

/-- Once a send has been refused, the cut run has taken what the limit allows. -/
theorem Refused.taken_steps {r q : Run σ ℓ} (h : Refused pacing taken limit lost r q)
    (more : Nat) :
    taken (q.steps pacing (more + 1)).line
      = (taken (r.step pacing).line).take limit := by
  cases more with
  | zero => exact h.taken_step
  | succ more => exact (h.steps hcut pacing more).2.2

theorem Twin.taken_steps {r q : Run σ ℓ} (h : Twin Same r q) (count : Nat) :
    taken (q.steps pacing count).line
      = (taken (r.steps pacing count).line).take limit := by
  rcases h.steps hcut pacing count with htwin | ⟨before, hlt, htwin, hrefused⟩
  · rw [hcut.taken_eq htwin.line, List.take_of_length_le (hcut.taken_le htwin.line)]
  · obtain ⟨more, rfl⟩ := Nat.exists_eq_add_of_lt hlt
    obtain ⟨later, hlater⟩ :=
      prefix_step_steps hcut pacing (hcut.whole h.line) before more
    rw [← hlater, List.take_append_of_le_length (Nat.le_of_lt hrefused.past)]
    rw [Nat.add_assoc, steps_add]
    exact hrefused.taken_steps hcut pacing more

/-- As long as the whole run stays below the limit, the cut cannot be noticed. -/
theorem Twin.steps_of_le {r q : Run σ ℓ} (h : Twin Same r q) {count : Nat}
    (hle : (taken (r.steps pacing count).line).length ≤ limit) :
    Twin Same (r.steps pacing count) (q.steps pacing count) := by
  rcases h.steps hcut pacing count with htwin | ⟨before, hlt, htwin, hrefused⟩
  · exact htwin
  · obtain ⟨more, rfl⟩ := Nat.exists_eq_add_of_lt hlt
    have hprefix := prefix_step_steps hcut pacing (hcut.whole h.line) before more
    have hlength := hprefix.length_le
    have hpast := hrefused.past
    omega

/-- Where the whole run passes the limit, the cut run ends at the send that does so, with
the standing that the whole run has before it. -/
theorem Twin.exists_lost [Dialogue.Lawful σ] {r q : Run σ ℓ} (h : Twin Same r q)
    {count : Nat} (hlt : limit < (taken (r.steps pacing count).line).length) :
    ∃ before send, (r.steps pacing before).pendingSend? = some send ∧
      (taken send.line).length ≤ limit ∧
      limit < (taken send.line ++ sent send.chunk).length ∧
      (taken send.line ++ sent send.chunk) <+: taken (r.steps pacing count).line ∧
      (q.steps pacing (before + 2)).report? = some (send.standing.lostBy lost) ∧
      taken (q.steps pacing (before + 2)).line
        = (taken (r.steps pacing count).line).take limit := by
  rcases h.steps hcut pacing count with htwin | ⟨before, hbefore, htwin, hrefused⟩
  · have hle := hcut.taken_le htwin.line
    omega
  · obtain ⟨more, rfl⟩ := Nat.exists_eq_add_of_lt hbefore
    have hprefix := prefix_step_steps hcut pacing (hcut.whole h.line) before more
    obtain ⟨parts, rest, hagenda⟩ := hrefused.sending
    have hstep : ((r.steps pacing before).step pacing).line
        = (Line.send (r.steps pacing before).line (r.steps pacing before).now
            (Step.chunk parts)).1 := by
      simp only [Run.step, hagenda, sendChunk]
    have hle := hcut.taken_le htwin.line
    have hpast := hrefused.past
    have htaken : taken ((r.steps pacing before).step pacing).line
        = taken (r.steps pacing before).line ++ sent (Step.chunk parts) := by
      rw [hstep] at hpast ⊢
      rcases (hcut.whole_send (hcut.whole htwin.line) _ (Step.chunk parts)).2 with
        hsame | hmore
      · rw [hsame] at hpast
        omega
      · exact hmore
    obtain ⟨hdone, hstate, htook⟩ := hrefused.steps hcut pacing 0
    refine ⟨before, ⟨_, Step.chunk parts, Dialogue.report (r.steps pacing before).state none⟩,
      ?_, hle, ?_, ?_, ?_, ?_⟩
    · simp only [pendingSend?, hagenda]
    · rwa [htaken] at hpast
    · rwa [htaken] at hprefix
    · rw [steps_add, report?_of_done hdone, hstate, Dialogue.Lawful.report_some]
    · obtain ⟨later, hlater⟩ := hprefix
      rw [← hlater, List.take_append_of_le_length (Nat.le_of_lt hpast), steps_add]
      exact htook

end Run

end TerminalHost
