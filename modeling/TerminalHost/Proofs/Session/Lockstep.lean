import TerminalHost.Proofs.Line.Recorded
import TerminalHost.Proofs.Session.Ending

/-!
# Sessions in step

Two sessions on recorded lines are in step if they stand at corresponding points: their
states are related, they have the same to play, and their lines stand abreast.  As
recorded lines take no time, the two clocks then stay as far apart as they are.  What the
sessions hear may differ, so it is left to each use to say how they come into step again
when they listen.
-/

namespace TerminalHost

inductive Cue.Alike {σ : Type} (R : σ → σ → Prop) : Cue σ → Cue σ → Prop where
  | go {s t : σ} (h : R s t) : Alike R (.go s) (.go t)
  | listen {hear hear' : Bytes → σ} (h : ∀ octets, R (hear octets) (hear' octets)) :
      Alike R (.listen hear) (.listen hear')
  | ended : Alike R .over .over

inductive Agenda.Alike {σ : Type} (R : σ → σ → Prop) : Agenda σ → Agenda σ → Prop where
  | play (rest : Script) : Alike R (.play rest) (.play rest)
  | turn {s t : σ} (h : R s t) : Alike R (.turn s) (.turn t)
  | leave (loss : Option Loss) : Alike R (.leave loss) (.leave loss)
  | done (loss : Option Loss) : Alike R (.done loss) (.done loss)
  | stuck : Alike R .stuck .stuck

/-- Related states have one screen, and whatever they hear leads to related states. -/
structure Dialogue.Alike {σ : Type} [Dialogue σ] (R : σ → σ → Prop) : Prop where
  screen {s t : σ} (h : R s t) : Dialogue.screen s = Dialogue.screen t
  cue {s t : σ} (h : R s t) : (Dialogue.cue s).Alike R (Dialogue.cue t)

theorem Dialogue.alike_eq {σ : Type} [Dialogue σ] : Dialogue.Alike (Eq (α := σ)) where
  screen h := congrArg Dialogue.screen h
  cue {s t} h := by
    subst h
    rcases Dialogue.cue s with next | hear | _
    · exact .go rfl
    · exact .listen fun _ => rfl
    · exact .ended

theorem Dialogue.Alike.exists_listen {σ : Type} [Dialogue σ] {R : σ → σ → Prop}
    (hR : Dialogue.Alike R) {s t : σ} (h : R s t) {hear : Bytes → σ}
    (hcue : Dialogue.cue t = .listen hear) :
    ∃ hear', Dialogue.cue s = .listen hear' ∧
      ∀ octets, R (hear' octets) (hear octets) := by
  have halike := hR.cue h
  rw [hcue] at halike
  generalize Dialogue.cue s = cue at halike ⊢
  cases halike with
  | listen hhear => exact ⟨_, rfl, hhear⟩

namespace Recorded

/-- Two lines that take or refuse a send alike, with related queues, and with the same
chunks sent since they had sent `left` and `right`. -/
structure Abreast (Q : List Item → List Item → Prop) (left right : List Bytes)
    (a b : Recorded) : Prop where
  queue : Q a.queue b.queue
  isClosed : a.isClosed = b.isClosed
  limit : a.sendLimit = b.sendLimit
  sends : b.sendLimit = none ∨ a.sends = b.sends
  sent : ∃ chunks, a.chunks = left ++ chunks ∧ b.chunks = right ++ chunks

variable {Q : List Item → List Item → Prop} {left right : List Bytes} {a b : Recorded}

theorem Abreast.isSpent (h : Abreast Q left right a b) : a.isSpent = b.isSpent := by
  unfold Recorded.isSpent
  rw [h.limit]
  rcases h.sends with hnone | hsends
  · simp only [hnone]
  · rw [hsends]

theorem Abreast.send (h : Abreast Q left right a b) (octets : Bytes) :
    Abreast Q left right (a.send octets).1 (b.send octets).1 ∧
      (a.send octets).2 = (b.send octets).2 := by
  have hspent := h.isSpent
  unfold Recorded.send
  rw [h.isClosed, hspent]
  split
  · exact ⟨h, rfl⟩
  · split
    · exact ⟨h, rfl⟩
    · obtain ⟨chunks, hleft, hright⟩ := h.sent
      refine ⟨⟨h.queue, rfl, h.limit, ?_, chunks ++ [octets], ?_, ?_⟩, rfl⟩
      · exact h.sends.imp_right (congrArg (· + 1))
      · simp_all [Recorded.chunks]
      · simp_all [Recorded.chunks]

theorem Abreast.close (h : Abreast Q left right a b) :
    Abreast Q left right a.close b.close :=
  ⟨h.queue, rfl, h.limit, h.sends, h.sent⟩

theorem Abreast.withQueue (h : Abreast Q left right a b) {items items' : List Item}
    (hqueue : Q items items') (tries tries' : Nat) :
    Abreast Q left right { a with queue := items, receives := tries }
      { b with queue := items', receives := tries' } :=
  ⟨hqueue, h.isClosed, h.limit, h.sends, h.sent⟩

end Recorded

inductive Heard {σ : Type} (R : σ → σ → Prop) (hear hear' : Bytes → σ) :
    Except Loss Bytes → Except Loss Bytes → Prop where
  | octets {octets octets' : Bytes} (h : R (hear octets) (hear' octets')) :
      Heard R hear hear' (.ok octets) (.ok octets')
  | lost (loss : Loss) : Heard R hear hear' (.error loss) (.error loss)

namespace Run

variable {σ : Type}

def Listens {ℓ : Type} [Dialogue σ] (r : Run σ ℓ) : Prop :=
  r.agenda = .play [] ∧ ∃ hear, Dialogue.cue r.state = .listen hear

/-- Two runs in step, the clock of `r` being `late` ahead of that of `q`. -/
structure InStep (R : σ → σ → Prop) (L : Recorded → Recorded → Prop) (late : Int)
    (r q : Run σ Recorded) : Prop where
  state : R r.state q.state
  agenda : r.agenda.Alike R q.agenda
  line : L r.line q.line
  now : (r.now : Int) = q.now + late

variable {R : σ → σ → Prop} {Q : List Item → List Item → Prop} {left right : List Bytes}
variable {late : Int} {r q : Run σ Recorded}

section Agenda

variable {L : Recorded → Recorded → Prop} (h : InStep R L late r q)
include h

theorem InStep.agenda_play {rest : Script} (hagenda : q.agenda = .play rest) :
    r.agenda = .play rest := by
  have halike := h.agenda
  rw [hagenda] at halike
  generalize r.agenda = agenda at halike ⊢
  cases halike
  rfl

theorem InStep.agenda_done {loss : Option Loss} (hagenda : q.agenda = .done loss) :
    r.agenda = .done loss := by
  have halike := h.agenda
  rw [hagenda] at halike
  generalize r.agenda = agenda at halike ⊢
  cases halike
  rfl

end Agenda

variable [Dialogue σ] (hR : Dialogue.Alike R) (pacing : Pacing)
variable (h : InStep R (Recorded.Abreast Q left right) late r q)
include h

theorem InStep.step_send {parts : List Part} {rest : Script}
    (hagenda : q.agenda = .play (.send parts :: rest)) :
    InStep R (Recorded.Abreast Q left right) late (r.step pacing) (q.step pacing) := by
  obtain ⟨hline, hresult⟩ := h.line.send (Step.chunk parts)
  simp only [Run.step, h.agenda_play hagenda, hagenda, sendChunk, Line.send, hresult]
  cases (q.line.send (Step.chunk parts)).2 with
  | ok _ => exact ⟨h.state, .play rest, hline, h.now⟩
  | error loss => exact ⟨h.state, .leave _, hline, h.now⟩

include hR in
theorem InStep.step_cue (hagenda : q.agenda = .play []) (hquiet : ¬ q.Listens) :
    InStep R (Recorded.Abreast Q left right) late (r.step pacing) (q.step pacing) := by
  have hcue := hR.cue h.state
  rw [Listens, hagenda] at hquiet
  simp only [Run.step, h.agenda_play hagenda, hagenda]
  generalize Dialogue.cue r.state = cue at hcue ⊢
  generalize Dialogue.cue q.state = cue' at hcue hquiet ⊢
  cases hcue with
  | go hnext => exact ⟨h.state, .turn hnext, h.line, h.now⟩
  | listen hhear => exact absurd ⟨rfl, _, rfl⟩ hquiet
  | ended => exact ⟨h.state, .leave none, h.line, h.now⟩

include hR in
theorem InStep.step (hquiet : ¬ q.Listens) :
    InStep R (Recorded.Abreast Q left right) late (r.step pacing) (q.step pacing) := by
  have halike := h.agenda
  generalize hr : r.agenda = agenda at halike
  generalize hq : q.agenda = agenda' at halike
  cases halike with
  | play rest =>
    rcases rest with _ | ⟨parts | length, rest⟩
    · exact h.step_cue hR pacing hq hquiet
    · exact h.step_send pacing hq
    · have hnow := h.now
      simp only [Run.step, hr, hq]
      refine ⟨h.state, .play rest, h.line, ?_⟩
      push_cast
      omega
  | turn hnext =>
    simp only [Run.step, hr, hq, hR.screen hnext]
    exact ⟨hnext, .play _, h.line, h.now⟩
  | leave loss =>
    simp only [Run.step, hr, hq, Line.close]
    exact ⟨h.state, .done loss, h.line.close, h.now⟩
  | done loss => simpa only [Run.step, hr, hq] using h
  | stuck => simpa only [Run.step, hr, hq] using h

theorem InStep.step_listen {hear hear' : Bytes → σ} (hagenda : q.agenda = .play [])
    (hcue : Dialogue.cue r.state = .listen hear)
    (hcue' : Dialogue.cue q.state = .listen hear') (hopen : ¬ q.line.isClosed = true)
    (hheard : Heard R hear hear' (Recorded.take 1 r.line.queue).1
      (Recorded.take 1 q.line.queue).1)
    (hqueue : Q (Recorded.take 1 r.line.queue).2 (Recorded.take 1 q.line.queue).2) :
    InStep R (Recorded.Abreast Q left right) late (r.step pacing) (q.step pacing) := by
  have hopen' : ¬ r.line.isClosed = true := h.line.isClosed ▸ hopen
  have hline := h.line.withQueue hqueue (r.line.receives + 1) (q.line.receives + 1)
  simp only [Run.step, h.agenda_play hagenda, hagenda, hcue, hcue', listen, Line.receive,
    Recorded.receive_of_open hopen', Recorded.receive_of_open hopen]
  generalize (Recorded.take 1 r.line.queue).1 = result at hheard ⊢
  generalize (Recorded.take 1 q.line.queue).1 = result' at hheard ⊢
  cases hheard with
  | octets hnext => exact ⟨h.state, .turn hnext, hline, h.now⟩
  | lost loss => exact ⟨h.state, .leave _, hline, h.now⟩

include hR in
theorem InStep.step_closed (hlistens : q.Listens) (hclosed : q.line.isClosed = true) :
    InStep R (Recorded.Abreast Q left right) late (r.step pacing) (q.step pacing) := by
  obtain ⟨hagenda, hear, hcue⟩ := hlistens
  obtain ⟨hear', hcue', -⟩ := hR.exists_listen h.state hcue
  have hclosed' : r.line.isClosed = true := h.line.isClosed.trans hclosed
  simp only [Run.step, h.agenda_play hagenda, hagenda, hcue, hcue', listen, Line.receive,
    Recorded.receive_of_isClosed hclosed', Recorded.receive_of_isClosed hclosed]
  exact ⟨h.state, .leave _, h.line.withQueue h.line.queue _ _, h.now⟩

include hR in
/-- If `r` can come into step again whenever `q` listens on an open line, it follows `q`
all the way. -/
theorem InStep.exists_steps (many : Nat)
    (hlisten : ∀ few < many, ∀ s : Run σ Recorded,
      InStep R (Recorded.Abreast Q left right) late s (q.steps pacing few) →
      (q.steps pacing few).Listens → ¬ (q.steps pacing few).line.isClosed = true →
      ∃ count, InStep R (Recorded.Abreast Q left right) late (s.steps pacing count)
        ((q.steps pacing few).step pacing)) :
    ∃ count, InStep R (Recorded.Abreast Q left right) late (r.steps pacing count)
      (q.steps pacing many) := by
  induction many with
  | zero => exact ⟨0, h⟩
  | succ many ih =>
    obtain ⟨count, hcount⟩ := ih fun few hfew => hlisten few (Nat.lt_succ_of_lt hfew)
    rw [steps_succ]
    by_cases hlistens : (q.steps pacing many).Listens
    · by_cases hopen : (q.steps pacing many).line.isClosed = true
      · refine ⟨count + 1, ?_⟩
        rw [steps_succ]
        exact hcount.step_closed hR pacing hlistens hopen
      · obtain ⟨more, hmore⟩ :=
          hlisten many (Nat.lt_succ_self many) _ hcount hlistens hopen
        exact ⟨count + more, by rwa [steps_add]⟩
    · refine ⟨count + 1, ?_⟩
      rw [steps_succ]
      exact hcount.step hR pacing hlistens

end Run

end TerminalHost
