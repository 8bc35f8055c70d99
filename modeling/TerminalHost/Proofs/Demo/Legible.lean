import TerminalHost.Demo.Scene
import TerminalHost.Proofs.Wire.Legible

/-!
# The texts of the demonstration

Every text of the demonstration is fixed but for the numbers in it, and all of them are
plain.
-/

namespace TerminalHost.Demo

theorem isPlain_twoDigits (n : Nat) : Text.IsPlain (twoDigits n) := by
  unfold twoDigits
  split
  · rw [Text.isPlain_append]
    exact ⟨Text.isPlain_ofList rfl, Text.isPlain_toString n⟩
  · exact Text.isPlain_toString n

theorem legible_repeated {script : Script} (times : Nat) (h : script.Legible) :
    (repeated times script).Legible := by
  rw [repeated, Script.legible_flatten]
  intro copy hcopy
  rwa [List.eq_of_mem_replicate hcopy]

theorem legible_heading (act : Act) : (heading act).Legible := by
  have htitle : Text.IsPlain act.title := by
    cases act <;> exact Text.isPlain_ofList rfl
  have hend : Text.IsPlain "\r\n\n" := Text.isPlain_ofList rfl
  simp [heading, htitle, hend]

theorem legible_numberedLine (row : Nat) {text : String} (h : Text.IsPlain text) :
    (numberedLine row text).Legible := by
  have hline : Text.IsPlain "Line " := Text.isPlain_ofList rfl
  simp [numberedLine, hline, h, isPlain_twoDigits]

theorem legible_mark (position : Position) {text : String} (h : Text.IsPlain text) :
    (mark position text).Legible := by
  simp [mark, h]

theorem legible_leg (move : Command) {text : String} (h : Text.IsPlain text) :
    (leg move text).Legible := by
  apply legible_repeated
  simp [h]

theorem legible_edge (move : Command) (length : Nat) : (edge move length).Legible := by
  have hstar : Text.IsPlain "*" := Text.isPlain_ofList rfl
  apply legible_repeated
  simp [hstar]

theorem legible_erase : erase.Legible := by
  simp [erase]

theorem legible_welcome : welcome.Legible := by
  have hlines : ∀ line ∈ welcomeLines, Text.IsPlain line := by
    simp only [welcomeLines, List.forall_mem_cons]
    and_intros <;> first | exact Text.isPlain_ofList rfl | simp
  simp [welcome, legible_erase, Script.legible_banner hlines]

theorem legible_intermission : intermission.Legible := by
  have hnotice : Text.IsPlain "\r3 seconds to continue..." := Text.isPlain_ofList rfl
  simp [intermission, hnotice]

theorem legible_summary : summary.Legible := by
  have hlabel (act : Act) : Text.IsPlain act.label := by
    cases act <;> exact Text.isPlain_ofList rfl
  have hlines : ∀ line ∈ summaryLines, Text.IsPlain line := by
    have hbullet : Text.IsPlain "- " := Text.isPlain_ofList rfl
    simp only [summaryLines, List.forall_mem_append, List.forall_mem_map, List.forall_mem_cons,
      Text.isPlain_append, hbullet, hlabel]
    and_intros <;> first | exact Text.isPlain_ofList rfl | simp
  simp [summary, legible_erase, Script.legible_banner hlines]

theorem legible_controlCharacters : controlCharacters.Legible := by
  -- The equation of a long script takes long to make, so the definition is opened itself.
  delta controlCharacters hold
  simp only [Script.legible_append, Script.legible_command, Script.legible_text,
    Script.legible_octets, Script.legible_pauseMillis, legible_heading, true_and, and_true]
  and_intros <;> first | exact Text.isPlain_ofList rfl | simp [IsPlain]

theorem legible_cursorPositioning : cursorPositioning.Legible := by
  have hmarks : Script.Legible (markedPositions.flatMap (mark · "X")) :=
    Script.legible_flatMap fun position _ => legible_mark position (Text.isPlain_ofList rfl)
  have horigin : (mark ⟨12, 20⟩ "O").Legible := legible_mark _ (Text.isPlain_ofList rfl)
  have hup : (leg .up "^").Legible := legible_leg _ (Text.isPlain_ofList rfl)
  have hright : (leg .right ">").Legible := legible_leg _ (Text.isPlain_ofList rfl)
  have hdown : (leg .down "v").Legible := legible_leg _ (Text.isPlain_ofList rfl)
  have hleft : (leg .left "<").Legible := legible_leg _ (Text.isPlain_ofList rfl)
  delta cursorPositioning hold
  simp only [Script.legible_append, Script.legible_text, Script.legible_pauseMillis,
    legible_erase, legible_heading, hmarks, horigin, hup, hright, hdown, hleft, true_and,
    and_true]
  exact Text.isPlain_ofList rfl

theorem legible_eraseFunctions : eraseFunctions.Legible := by
  have hlines : Script.Legible
      ((List.range' 5 15).flatMap (numberedLine · ": Testing erase functions...")) :=
    Script.legible_flatMap fun row _ => legible_numberedLine row (Text.isPlain_ofList rfl)
  delta eraseFunctions hold
  simp only [Script.legible_append, Script.legible_text, Script.legible_command,
    Script.legible_moveTo, Script.legible_pauseMillis, legible_erase, legible_heading, hlines,
    true_and, and_true]
  and_intros <;> exact Text.isPlain_ofList rfl

theorem legible_scrollBehavior : scrollBehavior.Legible := by
  have hlines : Script.Legible ((List.range' 1 22).flatMap (numberedLine · ": test content")) :=
    Script.legible_flatMap fun row _ => legible_numberedLine row (Text.isPlain_ofList rfl)
  have hforward : Script.Legible ((List.range 7).flatMap fun i =>
      Script.text ("New line " ++ toString i ++ " - testing scroll\r\n")
        ++ Script.pauseMillis scrollMillis) := by
    apply Script.legible_flatMap
    intro i _
    have hbefore : Text.IsPlain "New line " := Text.isPlain_ofList rfl
    have hafter : Text.IsPlain " - testing scroll\r\n" := Text.isPlain_ofList rfl
    simp only [Script.legible_append, Script.legible_text, Script.legible_pauseMillis,
      Text.isPlain_append, hbefore, hafter, Text.isPlain_toString, and_self]
  have hreverse : Script.Legible ((List.range' 1 5).flatMap fun i =>
      Script.command .reverseLineFeed ++ Script.pauseMillis scrollMillis
        ++ Script.text ("Reverse scroll line " ++ toString i ++ "\r")) := by
    apply Script.legible_flatMap
    intro i _
    have hbefore : Text.IsPlain "Reverse scroll line " := Text.isPlain_ofList rfl
    have hafter : Text.IsPlain "\r" := Text.isPlain_ofList rfl
    simp only [Script.legible_append, Script.legible_command, Script.legible_text,
      Script.legible_pauseMillis, Text.isPlain_append, hbefore, hafter, Text.isPlain_toString,
      and_self]
  delta scrollBehavior hold
  simp only [Script.legible_append, Script.legible_text, Script.legible_command,
    Script.legible_moveTo, Script.legible_pauseMillis, legible_erase, legible_heading, hlines,
    hforward, hreverse, true_and, and_true]
  and_intros <;> exact Text.isPlain_ofList rfl

theorem legible_boxDrawing : boxDrawing.Legible := by
  have hstar : Text.IsPlain "*" := Text.isPlain_ofList rfl
  have hbeam : (repeated 10 (Script.text "*" ++ Script.pauseMillis stepMillis)).Legible := by
    apply legible_repeated
    simp [hstar]
  delta boxDrawing hold
  simp [legible_erase, legible_heading, legible_edge, hbeam]

theorem legible_screen (d : Demo) : (Dialogue.screen d).Legible := by
  show d.scene.screen.Legible
  cases d.scene with
  | welcome => exact legible_welcome
  | intermission => exact legible_intermission
  | summary => exact legible_summary
  | closed => exact Script.legible_nil
  | act current =>
    cases current with
    | controlCharacters => exact legible_controlCharacters
    | cursorPositioning => exact legible_cursorPositioning
    | eraseFunctions => exact legible_eraseFunctions
    | scrollBehavior => exact legible_scrollBehavior
    | boxDrawing => exact legible_boxDrawing

end TerminalHost.Demo
