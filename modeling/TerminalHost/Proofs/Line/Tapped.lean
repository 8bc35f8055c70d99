import TerminalHost.Proofs.Line.Wrapped

/-!
# Tapped lines

A tap on a line notes what a session sends and what it hears, in order, whatever the line
makes of it: a chunk counts as sent when the send is made, also if it fails.  The tap
changes nothing about the session.
-/

namespace TerminalHost

inductive Exchange where
  | sent (chunk : Bytes)
  | heard (octets : Bytes)
deriving DecidableEq

namespace Exchange

def chunks (log : List Exchange) : List Bytes :=
  log.filterMap fun
    | .sent chunk => some chunk
    | .heard _ => none

@[simp] theorem chunks_append (left right : List Exchange) :
    chunks (left ++ right) = chunks left ++ chunks right := by
  simp [chunks]

@[simp] theorem chunks_heard (octets : Bytes) (log : List Exchange) :
    chunks (.heard octets :: log) = chunks log := by
  simp [chunks]

end Exchange

def Script.exchanges (script : Script) : List Exchange := script.chunks.map .sent

@[simp] theorem Script.exchanges_nil : exchanges [] = [] := rfl

theorem Script.heard_not_mem_exchanges (script : Script) (octets : Bytes) :
    Exchange.heard octets ∉ script.exchanges := by
  simp [exchanges]

@[simp] theorem Exchange.chunks_exchanges (script : Script) :
    chunks script.exchanges = script.chunks := by
  rw [chunks, Script.exchanges, List.filterMap_map]
  exact List.filterMap_some

/-- What is still to be sent cannot have been heard. -/
theorem Exchange.exists_of_append {log before after : List Exchange} {script : Script}
    {octets : Bytes} (h : log ++ script.exchanges = before ++ .heard octets :: after) :
    ∃ between, log = before ++ .heard octets :: between := by
  induction before generalizing log with
  | nil =>
    cases log with
    | nil =>
      have hmem : Exchange.heard octets ∈ script.exchanges := by
        rw [List.nil_append] at h
        rw [h]
        exact List.mem_cons_self
      exact absurd hmem (script.heard_not_mem_exchanges octets)
    | cons first rest =>
      rw [List.cons_append, List.nil_append, List.cons.injEq] at h
      exact ⟨rest, by rw [h.1, List.nil_append]⟩
  | cons earliest before ih =>
    cases log with
    | nil =>
      have hmem : Exchange.heard octets ∈ script.exchanges := by
        rw [List.nil_append] at h
        rw [h]
        simp
      exact absurd hmem (script.heard_not_mem_exchanges octets)
    | cons first rest =>
      rw [List.cons_append, List.cons_append, List.cons.injEq] at h
      obtain ⟨between, hbetween⟩ := ih h.2
      exact ⟨between, by rw [h.1, hbetween, List.cons_append]⟩

structure Tapped (ℓ : Type) where
  line : ℓ
  /-- What has passed so far, the latest first. -/
  latest : List Exchange

namespace Tapped

variable {ℓ : Type}

def tap (line : ℓ) : Tapped ℓ := ⟨line, []⟩

def log (tapped : Tapped ℓ) : List Exchange := tapped.latest.reverse

def hearing : Option (Answer Bytes) → List Exchange
  | some ⟨_, .ok octets⟩ => [.heard octets]
  | _ => []

instance [Line ℓ] : Line (Tapped ℓ) where
  peer tapped := Line.peer tapped.line
  send tapped now octets :=
    let (line, answer) := Line.send tapped.line now octets
    (⟨line, .sent octets :: tapped.latest⟩, answer)
  receive tapped now most :=
    let (line, answer) := Line.receive tapped.line now most
    (⟨line, hearing answer ++ tapped.latest⟩, answer)
  close tapped :=
    let (line, entries) := Line.close tapped.line
    (⟨line, tapped.latest⟩, entries)

variable [Line ℓ]

theorem wraps : Line.Wraps (Tapped.line : Tapped ℓ → ℓ) where
  peer _ := rfl
  send _ _ _ := rfl
  receive _ _ _ := rfl
  close _ := rfl

theorem log_send {tapped next : Tapped ℓ} {now : Nat} {octets : Bytes}
    {answer : Answer Unit} (h : Line.send tapped now octets = (next, answer)) :
    next.log = tapped.log ++ [.sent octets] := by
  simp only [Line.send, Prod.mk.injEq] at h
  rw [← h.1, log, List.reverse_cons]
  rfl

theorem log_receive {tapped next : Tapped ℓ} {now most : Nat}
    {answer : Option (Answer Bytes)} (h : Line.receive tapped now most = (next, answer)) :
    next.log = tapped.log ++ hearing answer := by
  simp only [Line.receive, Prod.mk.injEq] at h
  obtain ⟨rfl, rfl⟩ := h
  have hreverse (answer : Option (Answer Bytes)) :
      (hearing answer).reverse = hearing answer := by
    unfold hearing
    split <;> rfl
  rw [log, log, List.reverse_append, hreverse]

end Tapped

/-- What passes over the line of a session that is cut off at `limit`. -/
def Program.log {ℓ : Type} [Line ℓ] (program : Program) (options : Options)
    (limit : Option Nat) (patience : Nat) (line : ℓ) : List Exchange :=
  (program.run options limit patience (Tapped.tap line)).line.log

/-- A session on a tapped line comes to what it comes to on the line itself. -/
theorem Program.run_tap {ℓ : Type} [Line ℓ] (program : Program) (options : Options)
    (limit : Option Nat) (patience : Nat) (line : ℓ) :
    program.run options limit patience line
      = { program.run options limit patience (Tapped.tap line) with
          line := (program.run options limit patience (Tapped.tap line)).line.line } :=
  program.run_unwrap Tapped.wraps options limit patience (Tapped.tap line)

end TerminalHost
