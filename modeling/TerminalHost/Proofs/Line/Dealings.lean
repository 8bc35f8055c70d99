import TerminalHost.Proofs.Session.Calls

/-!
# One call after the other

A line can be asked for anything, at any time and in any order, also for what no session would
ask of it.  Each call is kept together with the line it found and the line it left, so what a
line does is said of one call, and what a number of calls come to follows from that.
-/

namespace TerminalHost

inductive Errand where
  | send (octets : Bytes)
  | receive (most : Nat)
  | close
deriving DecidableEq

def Call.isClose : Call → Bool
  | .close => true
  | _ => false

structure Dealing (ℓ : Type) where
  before : ℓ
  now : Nat
  /-- The call and its result. -/
  call : Call
  /-- When the call ended, if it ever did. -/
  ended : Option Nat
  noted : List Entry
  after : ℓ

def Dealing.map {κ ℓ : Type} (bare : κ → ℓ) (d : Dealing κ) : Dealing ℓ :=
  ⟨bare d.before, d.now, d.call, d.ended, d.noted, bare d.after⟩

namespace Line

variable {κ ℓ : Type} [Line κ] [Line ℓ]

def deal (line : ℓ) (now : Nat) : Errand → Dealing ℓ
  | .send octets =>
    let (after, answer) := Line.send line now octets
    ⟨line, now, .send octets answer.result, some answer.time, [], after⟩
  | .receive most =>
    let (after, answer) := Line.receive line now most
    ⟨line, now, .receive most (answer.map Answer.result), answer.map Answer.time, [], after⟩
  | .close =>
    let (after, entries) := Line.close line
    ⟨line, now, .close, some now, entries, after⟩

/-- Calls in a row, each made at a time of its own. -/
def dealings : ℓ → List (Nat × Errand) → List (Dealing ℓ)
  | _, [] => []
  | line, (now, errand) :: rest =>
    deal line now errand :: dealings (deal line now errand).after rest

@[simp] theorem before_deal (line : ℓ) (now : Nat) (errand : Errand) :
    (deal line now errand).before = line := by
  cases errand <;> rfl

variable {line after : ℓ} {now : Nat}

theorem deal_send {octets : Bytes} {answer : Answer Unit}
    (h : Line.send line now octets = (after, answer)) :
    deal line now (.send octets)
      = ⟨line, now, .send octets answer.result, some answer.time, [], after⟩ := by
  rw [deal, h]

theorem deal_receive {most : Nat} {answer : Option (Answer Bytes)}
    (h : Line.receive line now most = (after, answer)) :
    deal line now (.receive most)
      = ⟨line, now, .receive most (answer.map Answer.result), answer.map Answer.time, [],
        after⟩ := by
  rw [deal, h]

theorem deal_close {entries : List Entry} (h : Line.close line = (after, entries)) :
    deal line now .close = ⟨line, now, .close, some now, entries, after⟩ := by
  rw [deal, h]

theorem dealings_induction {P : List (Dealing ℓ) → ℓ → Prop}
    (hcall : ∀ {made : List (Dealing ℓ)} {line : ℓ} (now : Nat) (errand : Errand),
      P made line → P (made ++ [deal line now errand]) (deal line now errand).after)
    {line : ℓ} {errands : List (Nat × Errand)} {made earlier later : List (Dealing ℓ)}
    {d : Dealing ℓ} (hline : P made line)
    (hsplit : dealings line errands = earlier ++ d :: later) :
    P (made ++ earlier) d.before ∧ ∃ now errand, d = deal d.before now errand := by
  induction earlier generalizing line errands made with
  | nil =>
    cases errands with
    | nil => cases hsplit
    | cons asked rest =>
      obtain ⟨now, errand⟩ := asked
      obtain ⟨rfl, -⟩ := List.cons.inj hsplit
      rw [List.append_nil, before_deal]
      exact ⟨hline, now, errand, rfl⟩
  | cons first earlier ih =>
    cases errands with
    | nil => cases hsplit
    | cons asked rest =>
      obtain ⟨now, errand⟩ := asked
      obtain ⟨rfl, hrest⟩ := List.cons.inj hsplit
      have hlater := ih (hcall now errand hline) hrest
      rwa [List.append_assoc] at hlater

variable {bare : κ → ℓ}

theorem deal_unwrap (hwraps : Wraps bare) (line : κ) (now : Nat) (errand : Errand) :
    (deal line now errand).map bare = deal (bare line) now errand := by
  cases errand with
  | send octets => simp only [deal, Dealing.map, hwraps.send]
  | receive most => simp only [deal, Dealing.map, hwraps.receive]
  | close => simp only [deal, Dealing.map, hwraps.close]

theorem dealings_unwrap (hwraps : Wraps bare) (line : κ) (errands : List (Nat × Errand)) :
    (dealings line errands).map (Dealing.map bare) = dealings (bare line) errands := by
  induction errands generalizing line with
  | nil => rfl
  | cons asked rest ih =>
    obtain ⟨now, errand⟩ := asked
    have hfirst := deal_unwrap hwraps line now errand
    rw [dealings, dealings, List.map_cons, ih, ← hfirst]
    rfl

end Line

end TerminalHost
