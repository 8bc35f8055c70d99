import TerminalHost.Text.Letters

/-!
# One round of the game

A round is a secret word, the letters guessed so far and the attempts that are
left.  A new letter that the word does not hold costs an attempt; nothing else
does.  The round is won when every character of the word has been guessed and
lost when no attempt is left; the status is read off the state, so it cannot
disagree with it.
-/

namespace TerminalHost

inductive Guess where
  /-- A new letter that the word holds. -/
  | hit
  /-- A new letter that the word does not hold. -/
  | miss
  /-- A letter that was guessed before. -/
  | again
  /-- Not a letter, or a letter after the end of the round. -/
  | rejected
deriving DecidableEq, Repr

inductive Standing where
  | inProgress
  | won
  | lost
deriving DecidableEq, Repr

structure Round where
  target : String
  guessed : List Char
  attempts : Nat
deriving DecidableEq, Repr

namespace Round

def maxAttempts : Nat := 6

def start (target : String) : Round := ⟨Text.capitals target, [], maxAttempts⟩

def knows (r : Round) (c : Char) : Bool := r.guessed.contains c

def holds (r : Round) (c : Char) : Bool := r.target.toList.contains c

def standing (r : Round) : Standing :=
  if r.target.toList.all r.knows then .won
  else if r.attempts = 0 then .lost
  else .inProgress

def insertLetter (c : Char) : List Char → List Char
  | [] => [c]
  | d :: rest => if c < d then c :: d :: rest else d :: insertLetter c rest

theorem mem_insertLetter (c d : Char) (letters : List Char) :
    d ∈ insertLetter c letters ↔ d = c ∨ d ∈ letters := by
  induction letters with
  | nil => simp [insertLetter]
  | cons e rest ih =>
    by_cases h : c < e
    · simp [insertLetter, h]
    · simp only [insertLetter, h, if_false, List.mem_cons, ih]
      exact or_left_comm

def guess (r : Round) (c : Char) : Guess × Round :=
  if !Text.isLetter c || r.standing != .inProgress then (.rejected, r)
  else
    let letter := c.toUpper
    if r.knows letter then (.again, r)
    else
      let guessed := insertLetter letter r.guessed
      if r.holds letter then (.hit, { r with guessed := guessed })
      else (.miss, { r with guessed := guessed, attempts := r.attempts - 1 })

def guessAll (r : Round) (cs : List Char) : Round :=
  cs.foldl (fun r c => (r.guess c).2) r

/-- How much of the gallows is drawn: the number of wrong letters. -/
def stage (r : Round) : Nat := maxAttempts - r.attempts

/-- The word with `_` for what is not guessed, and a space after each character. -/
def masked (r : Round) : String :=
  String.ofList (r.target.toList.flatMap fun c => [if r.knows c then c else '_', ' '])

def guessedDisplay (r : Round) : String :=
  String.ofList (r.guessed.intersperse ' ')

@[simp] theorem guessAll_nil (r : Round) : r.guessAll [] = r := rfl

@[simp] theorem guessAll_cons (r : Round) (c : Char) (cs : List Char) :
    r.guessAll (c :: cs) = (r.guess c).2.guessAll cs := rfl

theorem guessAll_append (r : Round) (left right : List Char) :
    r.guessAll (left ++ right) = (r.guessAll left).guessAll right := by
  simp [guessAll]

end Round

end TerminalHost
