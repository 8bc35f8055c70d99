import TerminalHost.Proofs.Session.Steps

/-!
# The laws of a dialogue

Both programs are patient: hearing nothing leaves them where they are, without a
word.  Both are also brisk: from one time they listen to the next, or to their end,
they take fewer steps than their stride.
-/

namespace TerminalHost

def Report.lostBy : Report → Loss → Report
  | .game won lost last _, loss => .game won lost last (some loss)
  | .demo given _, loss => .demo given (some loss)

/-- What every program of the host keeps to. -/
class Dialogue.Lawful (σ : Type) [Dialogue σ] where
  /-- A bound on the steps of a dialogue from the cue of a scene until it listens again
  or ends. -/
  beyond : σ → Nat
  beyond_go {s next : σ} (h : Dialogue.cue s = .go next) :
    (Dialogue.screen next).length + 2 + beyond next ≤ beyond s
  beyond_hear {s : σ} {hear : Bytes → σ} (h : Dialogue.cue s = .listen hear)
    (octets : Bytes) :
    (Dialogue.screen (hear octets)).length + 3 + beyond (hear octets)
      ≤ Dialogue.stride σ
  hear_nil {s : σ} {hear : Bytes → σ} (h : Dialogue.cue s = .listen hear) : hear [] = s
  screen_of_listen {s : σ} {hear : Bytes → σ} (h : Dialogue.cue s = .listen hear) :
    Dialogue.screen s = []
  report_some (s : σ) (loss : Loss) :
    Dialogue.report s (some loss) = (Dialogue.report s none).lostBy loss
  stride_pos : 0 < Dialogue.stride σ

/-- Something heard that leads nowhere brings a dialogue back to where it listened. -/
theorem Run.exists_steps_unmoved {σ ℓ : Type} [Dialogue σ] [Dialogue.Lawful σ] [Line ℓ]
    (pacing : Pacing) {r : Run σ ℓ} {hear : Bytes → σ} {line : ℓ} {time : Nat}
    {octets : Bytes} (hagenda : r.agenda = .play [])
    (hcue : Dialogue.cue r.state = .listen hear) (hhear : hear octets = r.state)
    (hreceive : Line.receive r.line r.now 1 = (line, some ⟨time, .ok octets⟩)) :
    ∃ latest, r.steps pacing 2 = { r with line := line, now := time, latest := latest } := by
  have hheard : r.step pacing = _ := (Move.heard hagenda hcue hreceive).step_eq
  rw [hhear] at hheard
  have hturned : (r.step pacing).step pacing = _ :=
    (Move.turned (by rw [hheard] : (r.step pacing).agenda = .turn r.state)).step_eq
  refine ⟨(Dialogue.noted r.state r.state).reverse ++ r.latest, ?_⟩
  show (r.step pacing).step pacing = _
  rw [hturned, Dialogue.Lawful.screen_of_listen hcue, hheard, hagenda]
  rfl

theorem Run.exists_steps_nothing {σ ℓ : Type} [Dialogue σ] [Dialogue.Lawful σ] [Line ℓ]
    (pacing : Pacing) {r : Run σ ℓ} {hear : Bytes → σ} {line : ℓ} {time : Nat}
    (hagenda : r.agenda = .play []) (hcue : Dialogue.cue r.state = .listen hear)
    (hreceive : Line.receive r.line r.now 1 = (line, some ⟨time, .ok []⟩)) :
    ∃ latest, r.steps pacing 2 = { r with line := line, now := time, latest := latest } :=
  exists_steps_unmoved pacing hagenda hcue (Dialogue.Lawful.hear_nil hcue) hreceive

/-! ## The game -/

namespace Scene

def length : Scene → Nat
  | welcome => 11
  | opening _ | prompt _ | won | replay => 2
  | board _ => 22
  | echo _ _ => 1
  | lost (some _) => 18
  | farewell => 5
  | lost none | guessing _ | answering | closed => 0

@[simp] theorem length_screen (view : View) (scene : Scene) :
    (scene.screen view).length = scene.length := by
  cases scene with
  | lost stored => cases stored <;> rfl
  | _ => rfl

/-- The steps from the cue of a scene until a key is awaited or the game is over. -/
def beyond : Scene → Nat
  | welcome => 38
  | opening _ | echo _ _ => 34
  | board _ => 10
  | won | lost _ => 6
  | prompt _ | replay | farewell => 2
  | guessing _ | answering | closed => 0

end Scene

namespace Game

@[simp] theorem scene_enter (g : Game) (scene : Scene) : (g.enter scene).scene = scene := by
  cases scene <;> rfl

theorem scene_newRound (g : Game) :
    g.newRound.scene
      = .opening (Round.start ((g.generator.pick g.words).1.getD "LION")) := rfl

theorem scene_afterBoard (g : Game) (r : Round) :
    (g.afterBoard r).scene = if r.standing = .won then .won else .prompt r := by
  unfold afterBoard
  split <;> simp

theorem scene_settle (g : Game) (r : Round) (letter : Char) :
    (g.settle r letter).scene
      = if (r.guess letter).2.standing = .lost then .lost (some (r.guess letter).2)
        else .board (r.guess letter).2 := by
  simp only [settle]
  by_cases h : (r.guess letter).2.standing = .lost <;> simp [h, showLoss, store]

theorem beyond_go {g next : Game} (h : g.cue = .go next) :
    (next.scene.screen next.view).length + 2 + next.scene.beyond ≤ g.scene.beyond := by
  rw [Scene.length_screen]
  cases hscene : g.scene <;> simp only [cue, hscene, Cue.go.injEq, reduceCtorEq] at h <;>
    subst h
  case board r =>
    rw [scene_afterBoard]
    split <;> simp [Scene.length, Scene.beyond]
  case echo r letter =>
    rw [scene_settle]
    split <;> simp [Scene.length, Scene.beyond]
  all_goals simp [scene_newRound, Scene.length, Scene.beyond]

theorem exists_of_listen {g : Game} {hear : Bytes → Game} (h : g.cue = .listen hear) :
    (∃ r, g.scene = .guessing r ∧ hear = g.hearLetter r) ∨
      (g.scene = .answering ∧ hear = g.hearAnswer) := by
  cases hscene : g.scene <;> simp only [cue, hscene, Cue.listen.injEq, reduceCtorEq] at h
  case guessing r => exact .inl ⟨r, rfl, h.symm⟩
  case answering => exact .inr ⟨rfl, h.symm⟩

/-- A key leads to an echo, a new round, the farewell or nowhere. -/
theorem beyond_hear {g : Game} {hear : Bytes → Game} (h : g.cue = .listen hear)
    (octets : Bytes) :
    ((hear octets).scene.screen (hear octets).view).length + 3 + (hear octets).scene.beyond
      ≤ 64 := by
  rw [Scene.length_screen]
  obtain ⟨r, hscene, rfl⟩ | ⟨hscene, rfl⟩ := exists_of_listen h
  · unfold hearLetter
    split <;> simp [hscene, Scene.length, Scene.beyond]
  · unfold hearAnswer
    split <;> simp [hscene, scene_newRound, Scene.length, Scene.beyond]

theorem hear_nil {g : Game} {hear : Bytes → Game} (h : g.cue = .listen hear) :
    hear [] = g := by
  obtain ⟨r, -, rfl⟩ | ⟨-, rfl⟩ := exists_of_listen h
  · rfl
  · rfl

theorem screen_of_listen {g : Game} {hear : Bytes → Game} (h : g.cue = .listen hear) :
    g.scene.screen g.view = [] := by
  obtain ⟨r, hscene, -⟩ | ⟨hscene, -⟩ := exists_of_listen h
  · rw [hscene]
    rfl
  · rw [hscene]
    rfl

instance : Dialogue.Lawful Game where
  beyond g := g.scene.beyond
  beyond_go := beyond_go
  beyond_hear := beyond_hear
  hear_nil := hear_nil
  screen_of_listen := screen_of_listen
  report_some _ _ := rfl
  stride_pos := Nat.succ_pos 63

end Game

/-! ## The demonstration -/

namespace Demo

/-- The steps for some acts with the notices after them, for the summary and the end. -/
def toGive : List Act → Nat
  | [] => summary.length + 4
  | act :: rest => (Demo.screen act).length + intermission.length + 4 + toGive rest

def beyond (d : Demo) : Nat :=
  match d.scene with
  | .welcome | .intermission => toGive d.bill.ahead
  | .act _ => intermission.length + 2 + toGive d.bill.ahead.tail
  | .summary => 2
  | .closed => 0

theorem ahead_advance (bill : Playbill) : bill.advance.ahead = bill.ahead.tail := by
  unfold Playbill.advance
  cases hahead : bill.ahead with
  | nil => exact hahead
  | cons act rest => rfl

theorem goOn_le (d : Demo) :
    d.goOn.scene.screen.length + 2 + d.goOn.beyond ≤ toGive d.bill.ahead := by
  unfold goOn Playbill.next?
  cases hahead : d.bill.ahead with
  | nil => simp [Demo.Scene.screen, beyond, toGive]
  | cons act rest =>
    simp [Demo.Scene.screen, beyond, toGive, hahead]
    omega

theorem beyond_go {d next : Demo} (h : d.cue = .go next) :
    next.scene.screen.length + 2 + next.beyond ≤ d.beyond := by
  cases hscene : d.scene <;> simp only [cue, hscene, Cue.go.injEq, reduceCtorEq] at h <;>
    subst h
  case welcome => simpa [beyond, hscene] using goOn_le d
  case intermission => simpa [beyond, hscene] using goOn_le d
  case act current => simp [beyond, hscene, Demo.Scene.screen, ahead_advance]
  case summary => simp [beyond, hscene, Demo.Scene.screen]

theorem cue_ne_listen (d : Demo) (hear : Bytes → Demo) : d.cue ≠ .listen hear := by
  unfold cue
  split <;> simp

instance : Dialogue.Lawful Demo where
  beyond := beyond
  beyond_go := beyond_go
  beyond_hear h _ := absurd h (cue_ne_listen _ _)
  hear_nil h := absurd h (cue_ne_listen _ _)
  screen_of_listen h := absurd h (cue_ne_listen _ _)
  report_some _ _ := rfl
  stride_pos := Nat.succ_pos 1023

end Demo

end TerminalHost
