import TerminalHost.Game.Scene

/-!
# Where a game draws

Texts from a row on take one row each, as long as the rows can be counted by an octet.  The
gallows are seven texts at every stage, so they stand on the rows from 3 to 9, and nothing
else that a scene draws comes near them.
-/

namespace TerminalHost

/-! ## The rows of a script -/

def Part.row? : Part → Option UInt8
  | .command (.moveTo position) => some position.row
  | .command _ | .text _ | .octets _ => none

def Step.rows : Step → List UInt8
  | .send parts => parts.filterMap Part.row?
  | .pause _ => []

def Script.rows (script : Script) : List UInt8 := script.flatMap Step.rows

@[simp] theorem Script.rows_append (left right : Script) :
    (left ++ right).rows = left.rows ++ right.rows :=
  List.flatMap_append

namespace View

@[simp] theorem rows_textAt (view : View) (row : UInt8) (text : String) :
    (view.textAt row text).rows = [row] := rfl

@[simp] theorem rows_lineAt (view : View) (row : UInt8) (text : String) :
    (view.lineAt row text).rows = [row] := rfl

theorem rows_textsFrom (view : View) {texts : List String} {row : UInt8}
    (h : row.toNat + texts.length ≤ 256) :
    (view.textsFrom row texts).rows.map UInt8.toNat = List.range' row.toNat texts.length := by
  induction texts generalizing row with
  | nil => rfl
  | cons text rest ih =>
    rw [textsFrom, Script.rows_append, rows_textAt, List.map_append, List.length_cons,
      List.range'_succ]
    rw [List.length_cons] at h
    cases rest with
    | nil => rfl
    | cons second rest =>
      rw [List.length_cons] at h
      have hbelow : row.toNat + 1 < 256 := by omega
      have hnext : (row + 1).toNat = row.toNat + 1 := by
        rw [UInt8.toNat_add]
        exact Nat.mod_eq_of_lt hbelow
      have hfits : (row + 1).toNat + (second :: rest).length ≤ 256 := by
        rw [hnext, List.length_cons]
        omega
      rw [ih hfits, hnext]
      rfl

theorem length_gallows (stage : Nat) : (gallows stage).length = 7 := rfl

/-- The gallows stand on seven rows, whatever their stage and the margin. -/
theorem rows_gallows (view : View) (stage : Nat) :
    (view.textsFrom gallowsRow (gallows stage)).rows.map UInt8.toNat = [3, 4, 5, 6, 7, 8, 9] := by
  have hfits : gallowsRow.toNat + (gallows stage).length ≤ 256 := by
    rw [length_gallows]
    decide
  rw [view.rows_textsFrom hfits, length_gallows]
  rfl

end View

/-! ## The gallows of a scene -/

namespace Scene

/-- The stage of the gallows that a scene draws, if it draws the gallows. -/
def stage? : Scene → Option Nat
  | board r => some r.stage
  | lost (some _) => some Round.maxAttempts
  | lost none | welcome | opening _ | prompt _ | guessing _ | echo _ _ | won | replay
  | answering | farewell | closed => none

theorem exists_screen_of_stage? {scene : Scene} {stage : Nat} (h : scene.stage? = some stage)
    (view : View) :
    ∃ rest, scene.screen view
        = View.clear ++ view.textsFrom View.gallowsRow (View.gallows stage) ++ rest ∧
      ∀ row ∈ rest.rows, 9 < row.toNat := by
  match scene with
  | board r =>
    obtain rfl := Option.some.inj h
    refine ⟨view.textAt 12 ("Word: " ++ r.masked)
      ++ view.textAt 14 ("Guessed letters: " ++ r.guessedDisplay)
      ++ view.textAt 16 ("Attempts left: " ++ toString r.attempts), ?_, ?_⟩
    · simp only [screen, View.board, List.append_assoc]
    · simp
  | lost (some r) =>
    obtain rfl := Option.some.inj h
    refine ⟨view.lineAt 20 ("Game Over! The word was: " ++ r.target), rfl, ?_⟩
    simp

/-- Where no gallows are drawn, their rows are left alone. -/
theorem rows_of_stage?_eq_none {scene : Scene} (h : scene.stage? = none) (view : View) :
    ∀ row ∈ (scene.screen view).rows, row.toNat < 3 ∨ 9 < row.toNat := by
  match scene with
  | prompt _ => simp [screen, View.prompt]
  | won => simp [screen, View.won]
  | replay => simp [screen, View.replay]
  | farewell =>
    intro row hrow
    obtain rfl := List.mem_singleton.mp hrow
    exact .inl (by decide)
  | lost none | welcome | opening _ | guessing _ | echo _ _ | answering | closed =>
    intro row hrow
    cases hrow

end Scene

end TerminalHost
