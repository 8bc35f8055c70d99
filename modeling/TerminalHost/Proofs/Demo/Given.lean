import TerminalHost.Proofs.Session.Calls
import TerminalHost.Proofs.Session.Progress

/-!
# The acts that were given

The demonstration is one long script, with a border after each act and after each notice.  At
every time it has sent what stands before the current screen and a part of that screen, so the
acts it reports are found from the sends that have succeeded, and from nothing else.
-/

namespace TerminalHost

namespace Demo

/-! ## The whole programme -/

def upTo (acts : List Act) : Script :=
  welcome ++ acts.flatMap fun act => screen act ++ intermission

/-- The welcome and these acts, with the notices between them. -/
def through (acts : List Act) : Script :=
  welcome ++ List.intercalate intermission (acts.map screen)

def whole : Script := upTo Act.all ++ summary

theorem upTo_append (acts later : List Act) :
    upTo (acts ++ later)
      = upTo acts ++ later.flatMap fun act => screen act ++ intermission := by
  rw [upTo, upTo, List.flatMap_append, List.append_assoc]

theorem upTo_concat (acts : List Act) (last : Act) :
    upTo (acts ++ [last]) = upTo acts ++ screen last ++ intermission := by
  rw [upTo_append, List.flatMap_singleton, List.append_assoc]

theorem through_concat (acts : List Act) (last : Act) :
    through (acts ++ [last]) = upTo acts ++ screen last := by
  have hacts : List.intercalate intermission ((acts ++ [last]).map screen)
      = (acts.flatMap fun act => screen act ++ intermission) ++ screen last := by
    induction acts with
    | nil => exact List.append_nil _
    | cons act acts ih =>
      have hne : (acts ++ [last]).map screen ≠ [] := by simp
      rw [List.cons_append, List.map_cons, List.intercalate_cons_of_ne_nil hne, ih,
        List.flatMap_cons, List.append_assoc, List.append_assoc, List.append_assoc]
  rw [through, hacts, upTo, List.append_assoc]

theorem through_append_intermission (acts : List Act) (last : Act) :
    through (acts ++ [last]) ++ intermission = upTo (acts ++ [last]) := by
  rw [through_concat, upTo_concat]

theorem upTo_mono {acts more : List Act} (h : acts <+: more) : upTo acts <+: upTo more := by
  obtain ⟨later, rfl⟩ := h
  rw [upTo_append]
  exact List.prefix_append _ _

theorem through_upTo (acts : List Act) : through acts <+: upTo acts := by
  rcases List.eq_nil_or_concat acts with rfl | ⟨earlier, last, rfl⟩
  · exact List.prefix_refl _
  · rw [List.concat_eq_append, ← through_append_intermission]
    exact List.prefix_append _ _

/-- More acts go on from where fewer acts end. -/
theorem through_mono {acts more : List Act} (h : acts <+: more) :
    through acts <+: through more := by
  rcases List.eq_nil_or_concat more with rfl | ⟨earlier, last, rfl⟩
  · simp only [List.prefix_nil.mp h, List.prefix_rfl]
  · rw [List.concat_eq_append] at h ⊢
    rcases List.prefix_concat_iff.mp h with rfl | hearlier
    · exact List.prefix_refl _
    · rw [through_concat]
      exact (through_upTo acts).trans
        ((upTo_mono hearlier).trans (List.prefix_append _ _))

theorem upTo_whole {acts : List Act} (h : acts <+: Act.all) : upTo acts <+: whole :=
  (upTo_mono h).trans (List.prefix_append _ _)

theorem chunks_mono {script more : Script} (h : script <+: more) :
    script.chunks <+: more.chunks :=
  h.filterMap Step.chunk?

theorem not_concat_prefix_all (act : Act) : ¬ Act.all ++ [act] <+: Act.all := by
  intro h
  have hlength := h.length_le
  rw [List.length_append] at hlength
  exact Nat.not_succ_le_self Act.all.length hlength

/-! ## Where the demonstration stands -/

/-- The playbill is where the scene says it is. -/
inductive OnBill (d : Demo) : Prop where
  | welcome (hscene : d.scene = .welcome) (hgiven : d.bill.given = [])
      (hahead : d.bill.ahead = Act.all)
  | act {current : Act} {later : List Act} (hscene : d.scene = .act current)
      (hahead : d.bill.ahead = current :: later)
      (hall : d.bill.given ++ d.bill.ahead = Act.all)
  | intermission {earlier : List Act} {last : Act} (hscene : d.scene = .intermission)
      (hgiven : d.bill.given = earlier ++ [last])
      (hall : d.bill.given ++ d.bill.ahead = Act.all)
  | summary (hscene : d.scene = .summary) (hgiven : d.bill.given = Act.all)
  | closed (hscene : d.scene = .closed) (hgiven : d.bill.given = Act.all)

/-- What was to be sent before the current screen. -/
def shown (d : Demo) : Script :=
  match d.scene with
  | .welcome => []
  | .act _ | .summary => upTo d.bill.given
  | .intermission => through d.bill.given
  | .closed => whole

variable {d next : Demo}

theorem shown_welcome (h : d.scene = .welcome) : d.shown = [] := by
  rw [shown, h]

theorem shown_act {current : Act} (h : d.scene = .act current) :
    d.shown = upTo d.bill.given := by
  rw [shown, h]

theorem shown_intermission (h : d.scene = .intermission) : d.shown = through d.bill.given := by
  rw [shown, h]

theorem shown_summary (h : d.scene = .summary) : d.shown = upTo d.bill.given := by
  rw [shown, h]

theorem shown_closed (h : d.scene = .closed) : d.shown = whole := by
  rw [shown, h]

/-- After a notice everything up to it has been sent. -/
theorem shown_append_screen {earlier : List Act} {last : Act} (h : d.scene = .intermission)
    (hgiven : d.bill.given = earlier ++ [last]) :
    d.shown ++ d.scene.screen = upTo d.bill.given := by
  rw [shown_intermission h, h, hgiven]
  exact through_append_intermission earlier last

theorem screen_closed (h : d.scene = .closed) : d.scene.screen = [] := by
  rw [h]
  rfl

namespace OnBill

theorem given_prefix (h : d.OnBill) : d.bill.given <+: Act.all := by
  cases h with
  | welcome hscene hgiven hahead =>
    rw [hgiven]
    exact List.nil_prefix
  | act hscene hahead hall | intermission hscene hgiven hall => exact ⟨_, hall⟩
  | summary hscene hgiven | closed hscene hgiven =>
    simp only [hgiven, List.prefix_rfl]

theorem goOn (hall : d.bill.given ++ d.bill.ahead = Act.all) :
    d.goOn.OnBill ∧ d.goOn.shown = upTo d.bill.given := by
  unfold Demo.goOn Playbill.next?
  cases hahead : d.bill.ahead with
  | nil =>
    rw [hahead, List.append_nil] at hall
    exact ⟨.summary rfl hall, rfl⟩
  | cons act later => exact ⟨.act rfl hahead hall, rfl⟩

theorem cue (h : d.OnBill) (hcue : d.cue = .go next) :
    next.OnBill ∧ next.shown = d.shown ++ d.scene.screen := by
  unfold Demo.cue at hcue
  cases h with
  | welcome hscene hgiven hahead =>
    rw [hscene] at hcue
    obtain rfl := Cue.go.inj hcue
    obtain ⟨honBill, hshown⟩ := @goOn d (by rw [hgiven, hahead, List.nil_append])
    refine ⟨honBill, ?_⟩
    rw [hshown, hgiven, shown_welcome hscene, hscene]
    exact List.append_nil Demo.welcome
  | @act current later hscene hahead hall =>
    rw [hscene] at hcue
    obtain rfl := Cue.go.inj hcue
    have hgiven : d.bill.advance.given = d.bill.given ++ [current] := by
      simp only [Playbill.advance, hahead]
    refine ⟨.intermission rfl hgiven ((Playbill.advance_acts d.bill).trans hall), ?_⟩
    rw [shown_intermission rfl, shown_act hscene, hscene, hgiven]
    exact through_concat _ _
  | @intermission earlier last hscene hgiven hall =>
    -- The act before the notice was counted when its own screen had been played.
    rw [hscene] at hcue
    obtain rfl := Cue.go.inj hcue
    obtain ⟨honBill, hshown⟩ := goOn hall
    exact ⟨honBill, hshown.trans (shown_append_screen hscene hgiven).symm⟩
  | summary hscene hgiven =>
    rw [hscene] at hcue
    obtain rfl := Cue.go.inj hcue
    refine ⟨.closed rfl hgiven, ?_⟩
    rw [shown_closed rfl, shown_summary hscene, hscene, hgiven]
    rfl
  | closed hscene hgiven =>
    rw [hscene] at hcue
    cases hcue

theorem closed_of_over (hover : d.cue = .over) : d.scene = .closed := by
  unfold Demo.cue at hover
  split at hover
  case h_5 hscene => exact hscene
  all_goals cases hover

theorem prefix_whole (h : d.OnBill) : d.shown ++ d.scene.screen <+: whole := by
  have hgiven := h.given_prefix
  cases h with
  | welcome hscene _ hahead =>
    rw [shown_welcome hscene, hscene]
    exact (List.prefix_append Demo.welcome _).trans (List.prefix_append _ _)
  | @act current later hscene hahead hall =>
    have hnext : d.bill.given ++ [current] <+: Act.all := by
      refine ⟨later, ?_⟩
      rw [List.append_assoc, ← hall, hahead]
      rfl
    rw [shown_act hscene, hscene]
    refine List.IsPrefix.trans ?_ (upTo_whole hnext)
    rw [upTo_concat]
    exact List.prefix_append _ _
  | intermission hscene hlast hall =>
    rw [shown_append_screen hscene hlast]
    exact upTo_whole hgiven
  | summary hscene hall =>
    rw [shown_summary hscene, hscene, hall]
    exact List.prefix_refl whole
  | closed hscene hall =>
    simp only [shown_closed hscene, screen_closed hscene, List.append_nil, List.prefix_rfl]

theorem through_given (h : d.OnBill) (hne : d.bill.given ≠ []) :
    through d.bill.given <+: d.shown := by
  cases h with
  | welcome hscene hgiven hahead => exact absurd hgiven hne
  | act hscene hahead hall =>
    rw [shown_act hscene]
    exact through_upTo _
  | intermission hscene hlast hall =>
    simp only [shown_intermission hscene, List.prefix_rfl]
  | summary hscene hall =>
    rw [shown_summary hscene]
    exact through_upTo _
  | closed hscene hall =>
    rw [shown_closed hscene, hall]
    exact (through_upTo _).trans (List.prefix_append _ _)

theorem given_closed (h : d.OnBill) (hscene : d.scene = .closed) : d.bill.given = Act.all := by
  cases h with
  | closed _ hgiven => exact hgiven
  | welcome hother | act hother | intermission hother | summary hother =>
    rw [hscene] at hother
    cases hother

/-- One act more would need the whole of the current screen. -/
theorem through_next (h : d.OnBill) {act : Act} (hnext : d.bill.given ++ [act] <+: Act.all) :
    d.shown ++ d.scene.screen <+: through (d.bill.given ++ [act]) := by
  rw [through_concat]
  cases h with
  | welcome hscene hgiven hahead =>
    rw [shown_welcome hscene, hscene, upTo, List.append_assoc]
    exact List.prefix_append Demo.welcome _
  | @act current later hscene hahead hall =>
    obtain ⟨rest, hrest⟩ := hnext
    rw [← hall, hahead, List.append_assoc] at hrest
    obtain ⟨rfl, -⟩ := List.cons.inj (List.append_cancel_left hrest)
    rw [shown_act hscene, hscene]
    exact List.prefix_refl _
  | intermission hscene hlast hall =>
    rw [shown_append_screen hscene hlast]
    exact List.prefix_append _ _
  | summary hscene hall | closed hscene hall =>
    rw [hall] at hnext
    exact absurd hnext (not_concat_prefix_all act)

end OnBill

/-! ## Along a run -/

/-- The calls of a demonstration when it leaves its line, and where it stands then. -/
inductive Ends (d : Demo) : Option Loss → List Call → Prop where
  | whole (honBill : d.OnBill) (hscene : d.scene = .closed) :
      Ends d none (whole.chunks.map (.send · (.ok ())))
  | broken {played rest : Script} {parts : List Part} {loss : Loss} (honBill : d.OnBill)
      (hscreen : d.scene.screen = played ++ .send parts :: rest) :
      Ends d (some loss)
        ((d.shown ++ played).chunks.map (.send · (.ok ()))
          ++ [.send (Step.chunk parts) (.error loss)])

end Demo

namespace Run

variable {ℓ : Type}

/-- The calls of a demonstration are the sends of what it has shown so far. -/
inductive Staged (r : Run Demo (Logged ℓ)) : Prop where
  | playing {played rest : Script} (hagenda : r.agenda = .play rest)
      (honBill : r.state.OnBill) (hscreen : r.state.scene.screen = played ++ rest)
      (hcalls : r.line.calls = (r.state.shown ++ played).chunks.map (.send · (.ok ())))
  | turning {next : Demo} (hagenda : r.agenda = .turn next) (honBill : next.OnBill)
      (hcalls : r.line.calls = next.shown.chunks.map (.send · (.ok ())))
  | leaving {loss : Option Loss} (hagenda : r.agenda = .leave loss)
      (hends : r.state.Ends loss r.line.calls)
  | done {loss : Option Loss} {calls : List Call} (hagenda : r.agenda = .done loss)
      (hends : r.state.Ends loss calls) (hcalls : r.line.calls = calls ++ [.close])

variable [Line ℓ] {pacing : Pacing} {r s : Run Demo (Logged ℓ)}

theorem staged_begin (line : ℓ) : (begin Demo.start (Logged.log line) 0).Staged :=
  @Staged.playing _ _ [] _ rfl (.welcome rfl rfl rfl) rfl rfl

theorem Staged.move (h : r.Staged) (hmove : Move pacing r s) : s.Staged := by
  cases h with
  | @playing played rest hagenda honBill hscreen hcalls =>
    cases hmove with
    | @sent parts rest line time hsend hanswer =>
      obtain rfl := Agenda.play.inj (hagenda.symm.trans hsend)
      refine @Staged.playing _ _ (played ++ [.send parts]) _ rfl honBill ?_ ?_
      · rw [hscreen, List.append_assoc]
        rfl
      · rw [Logged.calls_send hanswer, hcalls]
        simp [Script.chunks, Step.chunk?]
    | @unsent parts rest line time loss hsend hanswer =>
      obtain rfl := Agenda.play.inj (hagenda.symm.trans hsend)
      refine .leaving rfl ?_
      rw [Logged.calls_send hanswer, hcalls]
      exact .broken honBill hscreen
    | @paused length rest hpause =>
      obtain rfl := Agenda.play.inj (hagenda.symm.trans hpause)
      refine @Staged.playing _ _ (played ++ [.pause length]) _ rfl honBill ?_ ?_
      · rw [hscreen, List.append_assoc]
        rfl
      · rw [hcalls]
        simp [Script.chunks, Step.chunk?]
    | @went next hplayed hcue =>
      obtain rfl := Agenda.play.inj (hagenda.symm.trans hplayed)
      -- A screen that is played to its end is part of what the next scene has shown.
      obtain ⟨hnext, hshown⟩ := honBill.cue hcue
      refine .turning rfl hnext ?_
      rw [hcalls, hshown, hscreen, List.append_nil]
    | heard hplayed hcue hreceive => exact absurd hcue (Demo.cue_ne_listen _ _)
    | unheard hplayed hcue hreceive => exact absurd hcue (Demo.cue_ne_listen _ _)
    | unanswered hplayed hcue hreceive => exact absurd hcue (Demo.cue_ne_listen _ _)
    | ended hplayed hcue =>
      obtain rfl := Agenda.play.inj (hagenda.symm.trans hplayed)
      have hscene := Demo.OnBill.closed_of_over hcue
      refine .leaving rfl ?_
      rw [hcalls, Demo.shown_closed hscene]
      rw [Demo.screen_closed hscene, List.append_nil] at hscreen
      rw [← hscreen, List.append_nil]
      exact .whole honBill hscene
    | turned hturn => simp [hagenda] at hturn
    | left hleave => simp [hagenda] at hleave
  | @turning next hagenda honBill hcalls =>
    cases hmove with
    | turned hturn =>
      obtain rfl := Agenda.turn.inj (hagenda.symm.trans hturn)
      refine @Staged.playing _ _ [] _ rfl honBill rfl ?_
      rw [List.append_nil]
      exact hcalls
    | _ => simp_all
  | @leaving loss hagenda hends =>
    cases hmove with
    | left hleave =>
      obtain rfl := Agenda.leave.inj (hagenda.symm.trans hleave)
      exact .done rfl hends rfl
    | _ => simp_all
  | done hagenda hends hcalls => cases hmove <;> simp_all

theorem staged_steps (pacing : Pacing) (line : ℓ) (count : Nat) :
    ((begin Demo.start (Logged.log line) 0).steps pacing count).Staged :=
  steps_induction Staged (fun h hmove => h.move hmove) (staged_begin line) count

theorem isOver_of_distance_le {r : Run Demo ℓ} {count : Nat} (h : r.distance ≤ count) :
    (r.steps pacing count).isOver = true := by
  induction count generalizing r with
  | zero => exact isOver_of_distance (Nat.le_zero.mp h)
  | succ count ih =>
    cases hover : r.isOver with
    | true => rwa [steps_of_isOver pacing _ r hover]
    | false =>
      rcases (move_step pacing r hover).distance_lt with hcloser | ⟨-, hear, -, -, hcue, -⟩
      · exact ih (by omega : (r.step pacing).distance ≤ count)
      · exact absurd hcue (Demo.cue_ne_listen _ _)

theorem distance_begin_le (line : ℓ) :
    (begin Demo.start line 0).distance ≤ Dialogue.stride Demo := by
  show Demo.welcome.length + 2 + Demo.start.beyond ≤ 1024
  decide +kernel

theorem exists_ends (pacing : Pacing) (patience : Nat) (line : ℓ) :
    ∃ d loss calls,
      ((begin Demo.start (Logged.log line) 0).runOut pacing none patience).report?
        = some (.demo d.bill.given loss) ∧
      ((begin Demo.start (Logged.log line) 0).runOut pacing none patience).line.calls
        = calls ++ [.close] ∧
      Demo.Ends d loss calls := by
  have hfuel : (begin Demo.start (Logged.log line) 0).distance
      ≤ (patience + 1) * Dialogue.stride Demo :=
    Nat.le_trans (distance_begin_le (Logged.log line))
      (Nat.le_mul_of_pos_left _ (Nat.succ_pos patience))
  have hover := @isOver_of_distance_le _ _ pacing _ _ hfuel
  have hstaged := staged_steps pacing line ((patience + 1) * Dialogue.stride Demo)
  rw [runOut, runUntil_none]
  generalize (begin Demo.start (Logged.log line) 0).steps pacing
    ((patience + 1) * Dialogue.stride Demo) = r at hover hstaged
  cases hstaged with
  | @done loss calls hagenda hends hcalls =>
    exact ⟨r.state, loss, calls, report?_of_done hagenda, hcalls, hends⟩
  | playing hagenda | turning hagenda | leaving hagenda => simp [isOver, hagenda] at hover

end Run

namespace Demo

/-! ## What is reported -/

/-- The acts are as many as the sends that have succeeded got through. -/
structure Exact (given : List Act) (delivered : List Bytes) : Prop where
  order : given <+: Act.all
  reached (hne : given ≠ []) : (through given).chunks <+: delivered
  missed {act : Act} (hnext : given ++ [act] <+: Act.all) :
    delivered.length < (through (given ++ [act])).chunks.length

namespace Exact

variable {given given' : List Act} {delivered delivered' : List Bytes}

/-- More acts than were given have not been got through. -/
theorem length_lt (h : Exact given delivered) {acts : List Act} (hacts : acts <+: Act.all)
    (hlonger : given.length < acts.length) :
    delivered.length < (through acts).chunks.length := by
  obtain ⟨more, rfl⟩ := List.prefix_of_prefix_length_le h.order hacts (Nat.le_of_lt hlonger)
  cases more with
  | nil => simp at hlonger
  | cons act more =>
    have hnext : given ++ [act] <+: given ++ act :: more :=
      (List.prefix_append_right_inj given).mpr (List.prefix_append [act] more)
    exact Nat.lt_of_lt_of_le (h.missed (hnext.trans hacts))
      (chunks_mono (through_mono hnext)).length_le

/-- The acts are the longest part of the programme that was got through. -/
theorem prefix_iff (h : Exact given delivered) {acts : List Act} (hacts : acts <+: Act.all) :
    acts <+: given ↔ acts = [] ∨ (through acts).chunks <+: delivered := by
  constructor
  · intro hfront
    by_cases hnil : acts = []
    · exact .inl hnil
    · have hne : given ≠ [] := by
        rintro rfl
        exact hnil (List.prefix_nil.mp hfront)
      exact .inr ((chunks_mono (through_mono hfront)).trans (h.reached hne))
  · rintro (rfl | hdelivered)
    · exact List.nil_prefix
    · rcases Nat.lt_or_ge given.length acts.length with hlonger | hle
      · exact absurd hdelivered.length_le (Nat.not_le_of_lt (h.length_lt hacts hlonger))
      · exact List.prefix_of_prefix_length_le hacts h.order hle

/-- An act is given exactly if all of its script has been sent. -/
theorem mem_iff (h : Exact given delivered) {earlier : List Act} {act : Act}
    (hacts : earlier ++ [act] <+: Act.all) :
    act ∈ given ↔ (through (earlier ++ [act])).chunks <+: delivered := by
  have hiff := h.prefix_iff hacts
  have hne : earlier ++ [act] ≠ [] := by simp
  rw [or_iff_right hne] at hiff
  rw [← hiff]
  constructor
  · intro hmem
    rcases Nat.lt_or_ge given.length (earlier ++ [act]).length with hshorter | hle
    · have hfront := List.prefix_of_prefix_length_le h.order hacts (Nat.le_of_lt hshorter)
      rcases List.prefix_concat_iff.mp hfront with rfl | hearlier
      · exact List.prefix_refl _
      · have hnodup : (earlier ++ [act]).Nodup := hacts.sublist.nodup (by decide)
        have hnot := List.nodup_append.mp hnodup
        exact absurd rfl (hnot.2.2 act (hearlier.subset hmem) act (List.mem_singleton_self act))
    · exact List.prefix_of_prefix_length_le hacts h.order hle
  · intro hfront
    exact hfront.subset (List.mem_append_right earlier (List.mem_singleton_self act))

theorem mono (h : Exact given delivered) (h' : Exact given' delivered')
    (hle : delivered.length ≤ delivered'.length) : given <+: given' := by
  rcases Nat.lt_or_ge given'.length given.length with hlonger | hle'
  · have hmissed := h'.length_lt h.order hlonger
    have hne : given ≠ [] := List.ne_nil_of_length_pos (Nat.lt_of_le_of_lt (Nat.zero_le _) hlonger)
    have hreached := (h.reached hne).length_le
    omega
  · exact List.prefix_of_prefix_length_le h.order h'.order hle'

end Exact

namespace Ends

variable {d : Demo} {loss : Option Loss} {calls : List Call}

theorem prefix_screen {played rest : Script} {parts : List Part}
    (hscreen : d.scene.screen = played ++ .send parts :: rest) :
    (d.shown ++ played).chunks ++ [Step.chunk parts] <+: (d.shown ++ d.scene.screen).chunks := by
  have hsplit : d.shown ++ d.scene.screen = (d.shown ++ played) ++ .send parts :: rest := by
    rw [hscreen, List.append_assoc]
  rw [hsplit, Script.chunks_append (d.shown ++ played)]
  exact (List.prefix_append_right_inj _).mpr (List.prefix_append [Step.chunk parts] _)

theorem delivered_broken (chunks : List Bytes) (chunk : Bytes) (cause : Loss) :
    Call.delivered (chunks.map (.send · (.ok ())) ++ [.send chunk (.error cause)]) = chunks := by
  rw [Call.delivered_append, Call.delivered_sent]
  exact List.append_nil chunks

theorem exact (h : d.Ends loss calls) : Exact d.bill.given (Call.delivered calls) := by
  cases h with
  | whole honBill hscene =>
    rw [Call.delivered_sent]
    refine ⟨honBill.given_prefix, ?_, ?_⟩
    · intro hne
      rw [← shown_closed hscene]
      exact chunks_mono (honBill.through_given hne)
    · intro act hnext
      rw [honBill.given_closed hscene] at hnext
      exact absurd hnext (not_concat_prefix_all act)
  | @broken played rest parts cause honBill hscreen =>
    rw [delivered_broken]
    refine ⟨honBill.given_prefix, ?_, ?_⟩
    · intro hne
      exact chunks_mono ((honBill.through_given hne).trans (List.prefix_append _ _))
    · intro act hnext
      have hlength := ((prefix_screen hscreen).trans
        (chunks_mono (honBill.through_next hnext))).length_le
      rw [List.length_append] at hlength
      exact hlength

/-- All sends in turn, up to the one that fails. -/
theorem calls_eq (h : d.Ends loss calls) :
    (loss = none ∧ Call.delivered calls = Demo.whole.chunks ∧
        calls = (Call.delivered calls).map (.send · (.ok ()))) ∨
      ∃ chunk cause, loss = some cause ∧
        Call.delivered calls ++ [chunk] <+: Demo.whole.chunks ∧
        calls = (Call.delivered calls).map (.send · (.ok ())) ++ [.send chunk (.error cause)] := by
  cases h with
  | whole honBill hscene =>
    rw [Call.delivered_sent]
    exact .inl ⟨rfl, rfl, rfl⟩
  | @broken played rest parts cause honBill hscreen =>
    rw [delivered_broken]
    exact .inr ⟨_, cause, rfl, (prefix_screen hscreen).trans (chunks_mono honBill.prefix_whole),
      rfl⟩

theorem none_iff (h : d.Ends loss calls) :
    loss = none ↔ Call.delivered calls = Demo.whole.chunks := by
  rcases h.calls_eq with ⟨rfl, hwhole, -⟩ | ⟨chunk, cause, rfl, hfront, -⟩
  · exact iff_of_true rfl hwhole
  · refine iff_of_false (by simp) ?_
    intro hwhole
    have hlength := hfront.length_le
    rw [hwhole, List.length_append, List.length_singleton] at hlength
    omega

end Ends

/-- The chunks that a demonstration gets through before it loses its line. -/
def delivered {ℓ : Type} [Line ℓ] (options : Options) (patience : Nat) (line : ℓ) :
    List Bytes :=
  Call.delivered (Program.demo.calls options none patience line)

theorem exists_exact {ℓ : Type} [Line ℓ] (options : Options) (patience : Nat) (line : ℓ) :
    ∃ d loss calls,
      (Program.demo.run options none patience line).report = some (.demo d.bill.given loss) ∧
      Program.demo.calls options none patience line = calls ++ [.close] ∧
      delivered options patience line = Call.delivered calls ∧ Ends d loss calls := by
  obtain ⟨d, loss, calls, hreport, hcalls, hends⟩ :=
    Run.exists_ends options.pacing patience line
  refine ⟨d, loss, calls, ?_, hcalls, ?_, hends⟩
  · rw [Program.run_log]
    exact hreport
  · have hclosed : Program.demo.calls options none patience line = calls ++ [.close] := hcalls
    rw [delivered, hclosed, Call.delivered_append]
    exact List.append_nil _

/-- **The demonstration reports the acts it has given.**  On any line it comes to its end, having
made its sends in turn up to the first that fails.  The acts it reports are the most of the
programme, from its beginning, of which every send has succeeded: those of the welcome, of the
acts, and of the notices between them, but not of the notice after the last of them.  So what is
reported is decided by how many sends have succeeded, and more of them never make it less; and
nothing is lost exactly if the whole programme has been sent. -/
theorem reports_given {ℓ : Type} [Line ℓ] (options : Options) (patience : Nat) (line : ℓ) :
    ∃ given loss,
      (Program.demo.run options none patience line).report = some (.demo given loss) ∧
      ((loss = none ∧ Program.demo.calls options none patience line
            = whole.chunks.map (.send · (.ok ())) ++ [.close]) ∨
        ∃ chunk cause, loss = some cause ∧
          delivered options patience line ++ [chunk] <+: whole.chunks ∧
          Program.demo.calls options none patience line
            = (delivered options patience line).map (.send · (.ok ()))
              ++ [.send chunk (.error cause), .close]) ∧
      (loss = none ↔ delivered options patience line = whole.chunks) ∧
      given <+: Act.all ∧
      (given ≠ [] → welcome.chunks <+: delivered options patience line) ∧
      (∀ acts, acts <+: Act.all →
        (acts <+: given ↔
          acts = [] ∨ (through acts).chunks <+: delivered options patience line)) ∧
      (∀ earlier act, earlier ++ [act] <+: Act.all →
        (act ∈ given ↔
          (through (earlier ++ [act])).chunks <+: delivered options patience line)) ∧
      ∀ {κ : Type} [Line κ] (options' : Options) (patience' : Nat) (line' : κ) (given' : List Act)
        (loss' : Option Loss),
        (Program.demo.run options' none patience' line').report = some (.demo given' loss') →
        (delivered options patience line).length ≤ (delivered options' patience' line').length →
        given <+: given' := by
  obtain ⟨d, loss, calls, hreport, hcalls, hdelivered, hends⟩ :=
    exists_exact options patience line
  have hexact := hends.exact
  rw [← hdelivered] at hexact
  refine ⟨d.bill.given, loss, hreport, ?_, ?_, hexact.order, ?_, ?_, ?_, ?_⟩
  · rw [hcalls, hdelivered]
    rcases hends.calls_eq with ⟨hnone, hwhole, hsent⟩ | ⟨chunk, cause, hloss, hfront, hsent⟩
    · rw [hwhole] at hsent
      exact .inl ⟨hnone, congrArg (· ++ [.close]) hsent⟩
    · refine .inr ⟨chunk, cause, hloss, hfront, ?_⟩
      have hclosed := congrArg (· ++ [Call.close]) hsent
      simpa only [List.append_assoc, List.cons_append, List.nil_append] using hclosed
  · rw [hdelivered]
    exact hends.none_iff
  · intro hne
    have hwelcome : welcome <+: through d.bill.given := List.prefix_append _ _
    exact (chunks_mono hwelcome).trans (hexact.reached hne)
  · intro acts hacts
    exact hexact.prefix_iff hacts
  · intro earlier act hacts
    exact hexact.mem_iff hacts
  · intro κ _ options' patience' line' given' loss' hreport' hle
    obtain ⟨d', other, calls', hown, -, hdelivered', hends'⟩ :=
      exists_exact options' patience' line'
    obtain ⟨rfl, -⟩ := Report.demo.inj (Option.some.inj (hreport'.symm.trans hown))
    have hexact' := hends'.exact
    rw [← hdelivered'] at hexact'
    exact hexact.mono hexact' hle

/-- An act counts as given also if nothing of its own notice is sent any more. -/
example : (Program.demo.run Options.usual none 0
    (Recorded.empty.failAfter (through [.controlCharacters]).sendCount)).report
      = some (.demo [.controlCharacters] (some (.fault (Fault.ofKind .brokenPipe)))) := by
  decide +kernel

end Demo

end TerminalHost
