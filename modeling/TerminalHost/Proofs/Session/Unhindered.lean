import TerminalHost.Proofs.Session.Lockstep

/-!
# Sessions on a line that takes every chunk

On a recorded line without a limit only the end of the queue stops a session.  Where such
a session stands is told by its state, by what it has still to play, by the octets still
to come and by the chunks it has sent; its clock and its journal do not matter for what
it does next.
-/

namespace TerminalHost

namespace Run

variable {σ : Type} [Dialogue σ]

structure Unhindered (r : Run σ Recorded) : Prop where
  limit : r.line.sendLimit = none
  isOpen (h : r.isTalking = true) : r.line.isClosed = false

theorem Unhindered.move {pacing : Pacing} {r s : Run σ Recorded} (h : r.Unhindered)
    (hmove : Move pacing r s) : s.Unhindered := by
  cases hmove.handles with
  | kept htalking hline =>
    exact ⟨by rw [hline, h.limit], fun _ => by rw [hline, h.isOpen htalking]⟩
  | sent htalking octets hline =>
    have hopen : ¬ r.line.isClosed = true := by simp [h.isOpen htalking]
    simp only [Line.send, Recorded.send_of_none hopen h.limit] at hline
    exact ⟨by rw [hline, h.limit], fun _ => by rw [hline, h.isOpen htalking]⟩
  | received htalking hline =>
    have hopen : ¬ r.line.isClosed = true := by simp [h.isOpen htalking]
    simp only [Line.receive, Recorded.receive_of_open hopen] at hline
    exact ⟨by rw [hline, h.limit], fun _ => by rw [hline, h.isOpen htalking]⟩
  | closed hquiet hline =>
    exact ⟨hline ▸ h.limit, fun htalking => by simp [hquiet] at htalking⟩

theorem unhindered_steps (pacing : Pacing) (state : σ) (octets : Bytes) (count : Nat) :
    ((begin state (Recorded.ofBytes octets) 0).steps pacing count).Unhindered :=
  steps_induction Unhindered (fun h hmove => h.move hmove) ⟨rfl, fun _ => rfl⟩ count

/-- On a line that takes every chunk only the end of the queue fails a call. -/
theorem Unhindered.of_fails {r : Run σ Recorded} (h : r.Unhindered)
    (htalking : r.isTalking = true) {loss : Loss} (hfails : r.Fails loss) :
    r.Listens ∧ r.line.Holds [] := by
  have hopen := h.isOpen htalking
  have hopen' : ¬ r.line.isClosed = true := by simp [hopen]
  cases hfails with
  | send hagenda hsend =>
    simp [Line.send, Recorded.send_of_none hopen' h.limit] at hsend
  | @receive hear time hagenda hcue hreceive =>
    refine ⟨⟨hagenda, hear, hcue⟩, hopen, h.limit, ?_⟩
    simp only [Line.receive, Recorded.receive_of_open hopen', Option.some.injEq,
      Answer.mk.injEq] at hreceive
    cases hqueue : r.line.queue with
    | nil => rfl
    | cons item rest =>
      rw [hqueue] at hreceive
      cases item <;> simp [Recorded.take] at hreceive

/-! ## Where a session stands -/

/-- A run in a state that has `rest` to play, with these octets to come and these chunks
sent. -/
structure Stands (state : σ) (rest : Script) (octets : Bytes) (chunks : List Bytes)
    (r : Run σ Recorded) : Prop where
  state_eq : r.state = state
  agenda : r.agenda = .play rest
  line : r.line.Holds octets
  chunks_eq : r.line.chunks = chunks

variable {state next : σ} {rest : Script} {octets : Bytes} {chunks : List Bytes}
variable {r : Run σ Recorded} (pacing : Pacing)

theorem Stands.step_send {parts : List Part}
    (h : Stands state (.send parts :: rest) octets chunks r) :
    Stands state rest octets (chunks ++ [Step.chunk parts]) (r.step pacing) := by
  obtain ⟨line, hsend, hholds, hlatest⟩ := h.line.send r.now (Step.chunk parts)
  have hstep : r.step pacing = _ := (Move.sent h.agenda hsend).step_eq
  rw [hstep]
  refine ⟨h.state_eq, rfl, hholds, ?_⟩
  rw [← h.chunks_eq, Recorded.chunks, hlatest, List.reverse_cons]
  rfl

theorem Stands.step_pause {length : Duration}
    (h : Stands state (.pause length :: rest) octets chunks r) :
    Stands state rest octets chunks (r.step pacing) := by
  have hstep : r.step pacing = _ := (Move.paused h.agenda).step_eq
  rw [hstep]
  exact ⟨h.state_eq, rfl, h.line, h.chunks_eq⟩

theorem Stands.steps_play (h : Stands state rest octets chunks r) :
    Stands state [] octets (chunks ++ rest.chunks) (r.steps pacing rest.length) := by
  induction rest generalizing r chunks with
  | nil =>
    rw [Script.chunks_nil, List.append_nil]
    exact h
  | cons first rest ih =>
    cases first with
    | send parts =>
      have hrest := ih (h.step_send pacing)
      rwa [List.append_assoc] at hrest
    | pause length => exact ih (h.step_pause pacing)

theorem Stands.step_turn {later : Bytes} (h : Stands state [] octets chunks r)
    (hagenda : (r.step pacing).agenda = .turn next)
    (hline : (r.step pacing).line.Holds later)
    (hchunks : (r.step pacing).line.chunks = r.line.chunks) :
    Stands next (Dialogue.screen next) later chunks (r.steps pacing 2) := by
  have hturned : (r.step pacing).step pacing = _ := (Move.turned hagenda).step_eq
  show Stands _ _ _ _ ((r.step pacing).step pacing)
  rw [hturned]
  exact ⟨rfl, rfl, hline, hchunks.trans h.chunks_eq⟩

theorem Stands.exists_go (h : Stands state rest octets chunks r)
    (hcue : Dialogue.cue state = .go next) :
    ∃ count, Stands next (Dialogue.screen next) octets (chunks ++ rest.chunks)
      (r.steps pacing count) := by
  have hplayed := h.steps_play pacing
  refine ⟨rest.length + 2, ?_⟩
  rw [steps_add]
  generalize r.steps pacing rest.length = s at hplayed ⊢
  have hwent : s.step pacing = _ :=
    (Move.went hplayed.agenda (hplayed.state_eq ▸ hcue)).step_eq
  apply hplayed.step_turn pacing
  · rw [hwent]
  · rw [hwent]
    exact hplayed.line
  · rw [hwent]

theorem Stands.steps_hear {octet : UInt8} {hear : Bytes → σ}
    (h : Stands state [] (octet :: octets) chunks r)
    (hcue : Dialogue.cue state = .listen hear) :
    Stands (hear [octet]) (Dialogue.screen (hear [octet])) octets chunks
      (r.steps pacing 2) := by
  obtain ⟨line, hreceive, hholds, hlatest⟩ := h.line.receive_cons r.now
  have hheard : r.step pacing = _ :=
    (Move.heard h.agenda (h.state_eq ▸ hcue) hreceive).step_eq
  apply h.step_turn pacing
  · rw [hheard]
  · rw [hheard]
    exact hholds
  · rw [hheard]
    exact congrArg List.reverse hlatest

theorem Stands.inStep {R : σ → σ → Prop} (hR : Dialogue.Alike R) {s t : σ} (hst : R s t)
    {left right : List Bytes} {q : Run σ Recorded}
    (hr : Stands s (Dialogue.screen s) octets left r)
    (hq : Stands t (Dialogue.screen t) octets right q) :
    InStep R (Recorded.Abreast Eq left right) ((r.now : Int) - q.now) r q where
  state := by rwa [hr.state_eq, hq.state_eq]
  agenda := by
    rw [hr.agenda, hq.agenda, hR.screen hst]
    exact .play _
  line :=
    { queue := hr.line.queue.trans hq.line.queue.symm
      isClosed := hr.line.isOpen.trans hq.line.isOpen.symm
      limit := hr.line.limit.trans hq.line.limit.symm
      sends := .inl hq.line.limit
      sent := ⟨[], hr.chunks_eq.trans (List.append_nil _).symm,
        hq.chunks_eq.trans (List.append_nil _).symm⟩ }
  now := by omega

end Run

/-! ## A line with more to come -/

theorem Recorded.take_append_of_ok {queue : List Item} {octets : Bytes}
    (h : (take 1 queue).1 = .ok octets) (items : List Item) :
    take 1 (queue ++ items) = (.ok octets, (take 1 queue).2 ++ items) := by
  cases queue with
  | nil => simp [take] at h
  | cons item rest => cases item <;> simp_all [take, takeOctets]

namespace Run

variable {σ : Type} [Dialogue σ] (pacing : Pacing)

/-- Up to the end of the shorter queue two sessions are in step. -/
theorem InStep.exists_steps_append {items : List Item} {left right : List Bytes}
    {r q : Run σ Recorded}
    (h : InStep Eq (Recorded.Abreast (fun long short => long = short ++ items) left right) 0
      r q)
    {many : Nat} (htalking : (q.steps pacing many).isTalking = true) :
    ∃ count, InStep Eq
      (Recorded.Abreast (fun long short => long = short ++ items) left right) 0
      (r.steps pacing count) (q.steps pacing many) := by
  apply h.exists_steps Dialogue.alike_eq pacing many
  rintro few hfew s hs ⟨hagenda, hear, hcue⟩ hopen
  refine ⟨1, ?_⟩
  show InStep _ _ _ (s.step pacing) _
  cases hresult : (Recorded.take 1 (q.steps pacing few).line.queue).1 with
  | ok octets =>
    have hmore := Recorded.take_append_of_ok hresult items
    rw [← hs.line.queue] at hmore
    apply hs.step_listen pacing hagenda (hs.state ▸ hcue) hcue hopen
    · rw [hmore, hresult]
      exact .octets rfl
    · rw [hmore]
  | error loss =>
    -- A receive that fails ends the talk, which still goes on after `many` steps.
    have hstill := isTalking_of_steps hfew htalking
    rw [steps_succ] at hstill
    simp [Run.step, hagenda, hcue, listen, Line.receive, Recorded.receive_of_open hopen,
      hresult, isTalking] at hstill

/-- A session with more in its queue comes to where a session stands that has used up its
queue. -/
theorem Stands.exists_append {start state : σ} {rest : Script} {chunks : List Bytes}
    {earlier : Bytes} {before : Nat}
    (h : Stands state rest [] chunks
      ((begin start (Recorded.ofBytes earlier) 0).steps pacing before))
    (later : Bytes) :
    ∃ count, Stands state rest later chunks
      ((begin start (Recorded.ofBytes (earlier ++ later)) 0).steps pacing count) := by
  have hbegin : InStep Eq
      (Recorded.Abreast (fun long short => long = short ++ later.map Item.octet) [] []) 0
      (begin start (Recorded.ofBytes (earlier ++ later)) 0)
      (begin start (Recorded.ofBytes earlier) 0) :=
    ⟨rfl, .play _, ⟨List.map_append, rfl, rfl, .inl rfl, [], rfl, rfl⟩, rfl⟩
  have htalking : ((begin start (Recorded.ofBytes earlier) 0).steps pacing before).isTalking
      = true := by
    simp only [isTalking, h.agenda]
  obtain ⟨count, hcount⟩ := hbegin.exists_steps_append pacing htalking
  have habreast := hcount.line
  obtain ⟨sent, hlong, hshort⟩ := habreast.sent
  refine ⟨count, hcount.state.trans h.state_eq, hcount.agenda_play h.agenda, ⟨?_, ?_, ?_⟩, ?_⟩
  · exact habreast.isClosed.trans h.line.isOpen
  · exact habreast.limit.trans h.line.limit
  · rw [habreast.queue, h.line.queue]
    rfl
  · rw [← h.chunks_eq, hlong, hshort]

end Run

end TerminalHost
