import TerminalHost.Proofs.Line.Clock
import TerminalHost.Proofs.Session.Progress

/-!
# A session that is cut off

The clock of a run never goes back, so the steps that begin by some time are the first
steps of the run.  A run that is cut off at that time has made exactly these.  There are
only finitely many of them, unless the run listens in vain without any time going by; and
then it does so for ever, and nothing is done about its line any more.
-/

namespace TerminalHost

def Dialogue.Quiet (σ : Type) [Dialogue σ] : Prop :=
  ∀ (s : σ) (hear : Bytes → σ), Dialogue.cue s = .listen hear → Dialogue.noted s s = []

theorem Game.quiet : Dialogue.Quiet Game := by
  intro g hear hcue
  obtain ⟨r, hscene, -⟩ | ⟨hscene, -⟩ := exists_of_listen hcue
  · simp [Dialogue.noted, noted, leaving, arriving, hscene]
  · simp [Dialogue.noted, noted, leaving, arriving, hscene]

theorem Demo.quiet : Dialogue.Quiet Demo := by
  intro d hear hcue
  exact absurd hcue (d.cue_ne_listen hear)

namespace Run

variable {σ ℓ : Type} [Dialogue σ] [Line ℓ] {left : ℓ → Nat}
variable {pacing : Pacing} {limit : Nat} {r s : Run σ ℓ}

/-! ## The clock -/

theorem Move.now_le (h : Move pacing r s) (htimely : Line.Timely left) : r.now ≤ s.now := by
  cases h with
  | sent hagenda hsend | unsent hagenda hsend => exact htimely.le_time_send hsend
  | paused hagenda => exact Nat.le_add_right r.now _
  | heard hagenda hcue hreceive | unheard hagenda hcue hreceive =>
    exact htimely.le_time_receive hreceive
  | _ => exact Nat.le_refl r.now

theorem Move.now_of_isOver (h : Move pacing r s) (hover : s.isOver = true) :
    s.now = r.now := by
  cases h with
  | unanswered hagenda hcue hreceive => rfl
  | left hagenda => rfl
  | _ => simp [isOver] at hover

theorem now_le_steps (htimely : Line.Timely left) (pacing : Pacing) (r : Run σ ℓ)
    {few many : Nat} (hle : few ≤ many) :
    (r.steps pacing few).now ≤ (r.steps pacing many).now := by
  obtain ⟨more, rfl⟩ := Nat.exists_eq_add_of_le hle
  rw [steps_add]
  exact steps_induction (fun q => (r.steps pacing few).now ≤ q.now)
    (fun hq hmove => Nat.le_trans hq (hmove.now_le htimely)) (Nat.le_refl _) more

/-! ## The steps that are taken -/

def InTime (pacing : Pacing) (limit : Nat) (r : Run σ ℓ) (count : Nat) : Prop :=
  ∀ fewer, fewer < count → (r.steps pacing fewer).now ≤ limit

/-- A run that is cut off has taken steps in time; if it could have taken more, then it was
over or the next one would begin too late. -/
theorem exists_inTime_of_runUntil (pacing : Pacing) (limit fuel : Nat) (r : Run σ ℓ) :
    ∃ count, count ≤ fuel ∧ r.runUntil pacing (some limit) fuel = r.steps pacing count ∧
      r.InTime pacing limit count ∧
      (count = fuel ∨ (r.steps pacing count).isOver = true ∨
        limit < (r.steps pacing count).now) := by
  induction fuel generalizing r with
  | zero => exact ⟨0, Nat.le_refl 0, rfl, by simp [InTime], .inl rfl⟩
  | succ fuel ih =>
    unfold runUntil
    split
    · rename_i hstop
      refine ⟨0, Nat.zero_le _, rfl, by simp [InTime], .inr ?_⟩
      show r.isOver = true ∨ limit < r.now
      simpa [isPast] using hstop
    · rename_i hgo
      have hnow : r.now ≤ limit := by
        simp only [isPast, Bool.or_eq_true, decide_eq_true_eq, not_or] at hgo
        omega
      obtain ⟨count, hle, hsteps, htime, hend⟩ := ih (r.step pacing)
      refine ⟨count + 1, Nat.succ_le_succ hle, hsteps, ?_, ?_⟩
      · intro fewer hlt
        cases fewer with
        | zero => exact hnow
        | succ fewer => exact htime fewer (Nat.lt_of_succ_lt_succ hlt)
      · rcases hend with rfl | hend
        · exact .inl rfl
        · exact .inr hend

/-- A run that is over after steps in time is over in time itself. -/
theorem now_le_of_isOver (hgoing : r.isOver = false) {count : Nat}
    (htime : r.InTime pacing limit count) (hover : (r.steps pacing count).isOver = true) :
    (r.steps pacing count).now ≤ limit := by
  cases count with
  | zero =>
    have hover' : r.isOver = true := hover
    simp [hgoing] at hover'
  | succ count =>
    have hlast := htime count (Nat.lt_succ_self count)
    rw [steps_succ] at hover ⊢
    cases hover' : (r.steps pacing count).isOver with
    | true => rwa [step_of_isOver pacing _ hover']
    | false => rwa [(move_step pacing _ hover').now_of_isOver hover]

theorem report?_runUntil (hgoing : r.isOver = false)
    (hlate : ∀ count, (r.steps pacing count).report?.isSome = true →
      limit < (r.steps pacing count).now) (fuel : Nat) :
    (r.runUntil pacing (some limit) fuel).report? = none := by
  obtain ⟨count, -, hsteps, htime, -⟩ := exists_inTime_of_runUntil pacing limit fuel r
  rw [hsteps]
  cases hreport : (r.steps pacing count).report? with
  | none => rfl
  | some report =>
    have hearly := now_le_of_isOver hgoing htime (isOver_of_report? hreport)
    have hpast := hlate count (by rw [hreport]; rfl)
    omega

theorem runUntil_of_stop (hstop : r.isOver = true ∨ limit < r.now) (fuel : Nat) :
    r.runUntil pacing (some limit) fuel = r := by
  cases fuel with
  | zero => rfl
  | succ fuel => rw [runUntil, if_pos (by simpa [isPast] using hstop)]

/-- Steps in time are taken first. -/
theorem runUntil_add {count : Nat} (htime : r.InTime pacing limit count) (more : Nat) :
    r.runUntil pacing (some limit) (count + more)
      = (r.steps pacing count).runUntil pacing (some limit) more := by
  induction count generalizing r with
  | zero => rw [Nat.zero_add, steps]
  | succ count ih =>
    cases hover : r.isOver with
    | true =>
      rw [steps_of_isOver pacing _ r hover, runUntil_of_stop (.inl hover),
        runUntil_of_stop (.inl hover)]
    | false =>
      have hnow : ¬ limit < r.now := Nat.not_lt.mpr (htime 0 (Nat.zero_lt_succ count))
      have hnext : (r.step pacing).InTime pacing limit count :=
        fun fewer hlt => htime (fewer + 1) (Nat.succ_lt_succ hlt)
      rw [Nat.succ_add, runUntil, if_neg (by simp [hover, isPast, hnow]), ih hnext]
      rfl

theorem runUntil_eq_of_now_le (htimely : Line.Timely left) {enough : Nat}
    (hover : (r.steps pacing enough).isOver = true)
    (hnow : (r.steps pacing enough).now ≤ limit) (fuel : Nat) :
    r.runUntil pacing (some limit) fuel = r.runUntil pacing none fuel := by
  obtain ⟨count, hle, hsteps, -, hend⟩ := exists_inTime_of_runUntil pacing limit fuel r
  rw [hsteps, runUntil_none]
  rcases hend with rfl | hover' | hpast
  · rfl
  · exact (steps_eq_of_isOver hle hover').symm
  · -- No step of the run begins after its end.
    have hlast : (r.steps pacing count).now ≤ (r.steps pacing enough).now := by
      rcases Nat.le_total count enough with hbefore | hafter
      · exact now_le_steps htimely pacing r hbefore
      · exact Nat.le_of_eq (congrArg now (steps_eq_of_isOver hafter hover))
    omega

/-! ## A run comes to rest -/

/-- The run listens in vain, no time goes by and its line stays as it is. -/
def Idle (r : Run σ ℓ) : Prop :=
  r.agenda = .play [] ∧ (∃ hear, Dialogue.cue r.state = .listen hear) ∧
    Line.receive r.line r.now 1 = (r.line, some ⟨r.now, .ok []⟩)

/-- No step changes anything about the run any more, or it would begin too late. -/
inductive Rests (limit : Nat) (r : Run σ ℓ) : Prop where
  | ended (h : r.isOver = true)
  | late (h : limit < r.now)
  | idle (h : r.Idle)

variable [Dialogue.Lawful σ]

theorem Idle.outcome_steps (hquiet : Dialogue.Quiet σ) (h : r.Idle) (count : Nat) :
    (r.steps pacing count).outcome = r.outcome := by
  -- Two steps bring an idle run back, and the one between them cannot be seen.
  obtain ⟨hagenda, ⟨hear, hcue⟩, hreceive⟩ := h
  have hheard : r.step pacing = _ := (Move.heard hagenda hcue hreceive).step_eq
  rw [Dialogue.Lawful.hear_nil hcue] at hheard
  have hturned : (r.step pacing).step pacing = _ :=
    (Move.turned (by rw [hheard] : (r.step pacing).agenda = .turn r.state)).step_eq
  have hback : (r.step pacing).step pacing = r := by
    rw [hturned, hheard]
    simp only [note, hquiet r.state hear hcue, Dialogue.Lawful.screen_of_listen hcue,
      List.reverse_nil, List.nil_append, ← hagenda]
  have hbetween : (r.step pacing).outcome = r.outcome := by
    rw [hheard]
    simp only [outcome, report?, hagenda]
    rfl
  have hboth : (r.steps pacing count).outcome = r.outcome ∧
      (r.steps pacing (count + 1)).outcome = r.outcome := by
    induction count with
    | zero => exact ⟨rfl, hbetween⟩
    | succ count ih =>
      refine ⟨ih.2, ?_⟩
      show (((r.step pacing).step pacing).steps pacing count).outcome = r.outcome
      rw [hback]
      exact ih.1
  exact hboth.1

def work (left : ℓ → Nat) (limit : Nat) (r : Run σ ℓ) : Nat :=
  (left r.line + (limit + 1 - r.now)) * Dialogue.stride σ + r.distance

omit [Dialogue.Lawful σ] in
theorem Move.left_le (h : Move pacing r s) (htimely : Line.Timely left) :
    left s.line ≤ left r.line := by
  cases h.handles with
  | kept htalking hline => exact hline ▸ Nat.le_refl _
  | sent htalking octets hline => exact hline ▸ htimely.send_left r.line r.now octets
  | received htalking hline => exact hline ▸ htimely.left_receive r.line r.now
  | closed hquiet hline => exact hline ▸ htimely.close r.line

/-- Every move in time leaves less to do, unless the run is idle. -/
theorem Move.work_lt (h : Move pacing r s) (htimely : Line.Timely left)
    (hnow : r.now ≤ limit) (hbusy : ¬ r.Idle) : work left limit s < work left limit r := by
  have htime := h.now_le htimely
  have hleft := h.left_le htimely
  refine h.rank_lt (by omega) fun hear octets hagenda hcue hreceive => ?_
  apply Nat.lt_of_not_le
  intro hmore
  obtain ⟨hline, hstill, rfl⟩ := htimely.eq_of_receive hreceive (by omega) (by omega)
  rw [hline, hstill] at hreceive
  exact hbusy ⟨hagenda, ⟨hear, hcue⟩, hreceive⟩

/-- Every run comes to rest after some steps in time. -/
theorem exists_rests (htimely : Line.Timely left) (pacing : Pacing) (limit : Nat)
    (r : Run σ ℓ) :
    ∃ count, r.InTime pacing limit count ∧ Rests limit (r.steps pacing count) := by
  -- The induction is on the work that is left until the limit.
  induction hwork : work left limit r using Nat.strongRecOn generalizing r with
  | ind rest ih =>
    by_cases hrests : Rests limit r
    · exact ⟨0, by simp [InTime], hrests⟩
    · have hgoing : r.isOver = false := by
        cases hover : r.isOver with
        | true => exact absurd (.ended hover) hrests
        | false => rfl
      have hnow : r.now ≤ limit := Nat.le_of_not_lt fun hlate => hrests (.late hlate)
      have hbusy : ¬ r.Idle := fun hidle => hrests (.idle hidle)
      have hless := (move_step pacing r hgoing).work_lt htimely hnow hbusy
      obtain ⟨count, htime, hend⟩ := ih _ (hwork ▸ hless) (r.step pacing) rfl
      refine ⟨count + 1, ?_, hend⟩
      intro fewer hlt
      cases fewer with
      | zero => exact hnow
      | succ fewer => exact htime fewer (Nat.lt_of_succ_lt_succ hlt)

/-- A run that is cut off comes to one outcome with all the fuel it needs.  If its next
step does not begin too late, the whole run never comes to anything else. -/
theorem exists_outcome_runUntil (hquiet : Dialogue.Quiet σ) (htimely : Line.Timely left)
    (pacing : Pacing) (limit : Nat) (r : Run σ ℓ) :
    ∃ enough,
      (∀ fuel, enough ≤ fuel →
        (r.runUntil pacing (some limit) fuel).outcome = (r.steps pacing enough).outcome) ∧
      (limit < (r.steps pacing enough).now ∨
        ∀ fuel, enough ≤ fuel →
          (r.steps pacing fuel).outcome = (r.steps pacing enough).outcome) := by
  obtain ⟨enough, htime, hrests⟩ := exists_rests htimely pacing limit r
  refine ⟨enough, fun fuel hle => ?_, ?_⟩
  · obtain ⟨more, rfl⟩ := Nat.exists_eq_add_of_le hle
    rw [runUntil_add htime]
    cases hrests with
    | ended hover => rw [runUntil_of_stop (.inl hover)]
    | late hlate => rw [runUntil_of_stop (.inr hlate)]
    | idle hidle =>
      obtain ⟨count, hcount⟩ := exists_steps_of_runUntil pacing (some limit) more
        (r.steps pacing enough)
      rw [hcount, hidle.outcome_steps hquiet]
  · cases hrests with
    | ended hover =>
      right
      intro fuel hle
      rw [steps_eq_of_isOver hle hover]
    | late hlate => exact .inl hlate
    | idle hidle =>
      right
      intro fuel hle
      obtain ⟨more, rfl⟩ := Nat.exists_eq_add_of_le hle
      rw [steps_add, hidle.outcome_steps hquiet]

end Run

end TerminalHost
