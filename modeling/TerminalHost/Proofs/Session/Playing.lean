import TerminalHost.Line.Scripted
import TerminalHost.Proofs.Session.Calls
import TerminalHost.Session.Play

/-!
# Playing a script on any line

A script is played step by step, until a send fails or nothing is left.  What was sent, how it
ended and when is found in the script itself: it is played as a whole, or up to one of its
sends.  Its sends are counted once for the delay after each of them, and its pauses once for
what the pacing makes of them.
-/

namespace TerminalHost

section Lines

variable {ℓ : Type} [Line ℓ]

/-- Lines on which a send that succeeds takes as long as the delay, and one that fails takes
no time. -/
structure Line.Paced (delay : Nat) (Held : ℓ → Prop) : Prop where
  held {line : ℓ} (h : Held line) (now : Nat) (octets : Bytes) :
    Held (Line.send line now octets).1
  sent {line next : ℓ} {now time : Nat} {octets : Bytes} (h : Held line)
    (hsend : Line.send line now octets = (next, ⟨time, .ok ()⟩)) : time = now + delay
  unsent {line next : ℓ} {now time : Nat} {octets : Bytes} {loss : Loss} (h : Held line)
    (hsend : Line.send line now octets = (next, ⟨time, .error loss⟩)) : time = now

/-- Lines that answer the same sends alike, at whatever times they are made. -/
structure Line.Timeless (Alike : ℓ → ℓ → Prop) : Prop where
  alike {line line' : ℓ} (h : Alike line line') (now now' : Nat) (octets : Bytes) :
    Alike (Line.send line now octets).1 (Line.send line' now' octets).1
  result {line line' : ℓ} (h : Alike line line') (now now' : Nat) (octets : Bytes) :
    (Line.send line now octets).2.result = (Line.send line' now' octets).2.result

end Lines

namespace StreamLine

variable {β : Type} [ByteStream β]

theorem fst_send (line : StreamLine β) (now : Nat) (octets : Bytes) :
    (Line.send line now octets).1
      = if line.isOpen then { line with stream := (deliver line.stream octets).1 } else line := by
  simp only [Line.send, send]
  split
  · rcases deliver line.stream octets with ⟨stream, fault | ⟨⟨⟩⟩⟩
    · rfl
    · rfl
  · rfl

theorem result_send (line : StreamLine β) (now : Nat) (octets : Bytes) :
    (Line.send line now octets).2.result
      = if line.isOpen then (deliver line.stream octets).2.mapError .fault
        else .error .closed := by
  simp only [Line.send, send]
  split
  · rcases deliver line.stream octets with ⟨stream, fault | ⟨⟨⟩⟩⟩
    · rfl
    · rfl
  · rfl

theorem paced (delay : Duration) :
    Line.Paced delay.ticks fun line : StreamLine β => line.sendDelay = delay where
  held {line} h now octets := by
    rw [fst_send]
    split
    · exact h
    · exact h
  sent {line next now time octets} h hsend := by
    simp only [Line.send, send] at hsend
    split at hsend
    · split at hsend
      · cases hsend
        rw [h]
      · cases hsend
    · cases hsend
  unsent {line next now time octets loss} h hsend := by
    simp only [Line.send, send] at hsend
    split at hsend
    · split at hsend
      · cases hsend
      · cases hsend
        rfl
    · cases hsend
      rfl

theorem timeless : Line.Timeless (Eq : StreamLine β → StreamLine β → Prop) where
  alike h now now' octets := by
    rw [h, fst_send, fst_send]
  result h now now' octets := by
    rw [h, result_send, result_send]

end StreamLine

theorem Recorded.paced : Line.Paced 0 fun _ : Recorded => True where
  held _ _ _ := trivial
  sent _ hsend := (congrArg (fun sent => sent.2.time) hsend).symm
  unsent _ hsend := (congrArg (fun sent => sent.2.time) hsend).symm

theorem Recorded.timeless : Line.Timeless (Eq : Recorded → Recorded → Prop) where
  alike h now now' octets := by
    subst h
    rfl
  result h now now' octets := by
    subst h
    rfl

/-! ## The time that a script takes -/

namespace Script

def Whole (script : Script) : Prop :=
  ∀ length, .pause length ∈ script → ∃ millis, length = Duration.ofMillis millis

/-- How long it takes to play a script, if each send takes as long as the delay. -/
def lasting (pacing : Pacing) (delay : Nat) (script : Script) : Nat :=
  delay * script.sendCount + if pacing.pauses then script.pauseTotal.ticks else 0

variable {pacing : Pacing} {delay : Nat} {rest : Script}

theorem lasting_nil : lasting pacing delay [] = 0 := by
  have hcount : sendCount [] = 0 := rfl
  have hpauses : (pauseTotal []).ticks = 0 := rfl
  rw [lasting, hcount, hpauses, ite_self, Nat.mul_zero]

theorem lasting_send (parts : List Part) :
    lasting pacing delay (.send parts :: rest) = delay + lasting pacing delay rest := by
  have hcount : sendCount (.send parts :: rest) = sendCount rest + 1 := rfl
  have hpauses : pauseTotal (.send parts :: rest) = pauseTotal rest := rfl
  rw [lasting, lasting, hcount, hpauses, Nat.mul_succ]
  omega

theorem lasting_pause (millis : Nat) :
    lasting pacing delay (.pause (Duration.ofMillis millis) :: rest)
      = (pacing.pause (Duration.ofMillis millis)).ticks + lasting pacing delay rest := by
  -- A sum is rounded up to ticks only once, and a whole pause leaves the rounding as it is.
  have hcount : sendCount (.pause (Duration.ofMillis millis) :: rest) = sendCount rest := rfl
  have hpauses : (pauseTotal (.pause (Duration.ofMillis millis) :: rest)).ticks
      = millis + (pauseTotal rest).ticks := by
    have hnanos : (pauseTotal (.pause (Duration.ofMillis millis) :: rest)).nanos
        = millis * 1000000 + (pauseTotal rest).nanos := rfl
    rw [Duration.ticks, Duration.ticks, hnanos]
    omega
  rw [lasting, lasting, hcount, hpauses, Pacing.pause]
  cases pacing.pauses with
  | true =>
    simp only [if_true, Duration.ticks_ofMillis]
    omega
  | false => simp

theorem Whole.tail {step : Step} (h : Whole (step :: rest)) : Whole rest :=
  fun length hmem => h length (List.mem_cons_of_mem step hmem)

/-! ## How a script is played -/

/-- The calls of a script that is played, and how that ends and when. -/
inductive Played (pacing : Pacing) (delay now : Nat) (script : Script) (calls : List Call)
    (answer : Answer Unit) : Prop where
  | whole (hcalls : calls = script.chunks.map (.send · (.ok ())))
      (hanswer : answer = ⟨now + script.lasting pacing delay, .ok ()⟩)
  /-- A send fails; what stands before it in the script has been played. -/
  | broken {before after : Script} {parts : List Part} {loss : Loss}
      (hscript : script = before ++ .send parts :: after)
      (hcalls : calls
        = before.chunks.map (.send · (.ok ())) ++ [.send (Step.chunk parts) (.error loss)])
      (hanswer : answer = ⟨now + before.lasting pacing delay, .error loss⟩)

variable {now : Nat} {calls : List Call} {answer : Answer Unit}

theorem Played.cons_send (h : Played pacing delay (now + delay) rest calls answer)
    (parts : List Part) :
    Played pacing delay now (.send parts :: rest)
      (.send (Step.chunk parts) (.ok ()) :: calls) answer := by
  cases h with
  | whole hcalls hanswer =>
    refine .whole (congrArg _ hcalls) ?_
    rw [hanswer, lasting_send, Nat.add_assoc]
  | @broken before after last loss hscript hcalls hanswer =>
    have hsplit : .send parts :: rest = (.send parts :: before) ++ .send last :: after :=
      congrArg _ hscript
    refine .broken hsplit (congrArg _ hcalls) ?_
    rw [hanswer, lasting_send, Nat.add_assoc]

theorem Played.cons_pause {millis : Nat}
    (h : Played pacing delay (now + (pacing.pause (Duration.ofMillis millis)).ticks) rest calls
      answer) :
    Played pacing delay now (.pause (Duration.ofMillis millis) :: rest) calls answer := by
  cases h with
  | whole hcalls hanswer =>
    refine .whole hcalls ?_
    rw [hanswer, lasting_pause, Nat.add_assoc]
  | @broken before after last loss hscript hcalls hanswer =>
    have hsplit : .pause (Duration.ofMillis millis) :: rest
        = (.pause (Duration.ofMillis millis) :: before) ++ .send last :: after :=
      congrArg _ hscript
    refine .broken hsplit hcalls ?_
    rw [hanswer, lasting_pause, Nat.add_assoc]

variable {ℓ κ : Type} [Line ℓ] [Line κ]

theorem playOn_unwrap {bare : κ → ℓ} (hwraps : Line.Wraps bare) (pacing : Pacing)
    (limit : Option Nat) (script : Script) (line : κ) (now : Nat) :
    script.playOn pacing limit (bare line) now
      = (bare (script.playOn pacing limit line now).1,
        (script.playOn pacing limit line now).2) := by
  induction script generalizing line now with
  | nil => rfl
  | cons step rest ih =>
    cases step with
    | send parts =>
      rw [playOn, playOn]
      by_cases hpast : isPast limit now = true
      · rw [if_pos hpast, if_pos hpast]
      · rw [if_neg hpast, if_neg hpast, hwraps.send]
        rcases Line.send line now (Step.chunk parts) with ⟨next, time, loss | ⟨⟨⟩⟩⟩
        · rfl
        · exact ih next time
    | pause length =>
      rw [playOn, playOn]
      by_cases hpast : isPast limit now = true
      · rw [if_pos hpast, if_pos hpast]
      · rw [if_neg hpast, if_neg hpast]
        exact ih line _

theorem playOn_sent {line next : ℓ} {time : Nat} {parts : List Part}
    (hsend : Line.send line now (Step.chunk parts) = (next, ⟨time, .ok ()⟩)) :
    playOn pacing none (.send parts :: rest) line now
      = playOn pacing none rest next time := by
  rw [playOn, isPast_none, hsend]
  rfl

theorem playOn_unsent {line next : ℓ} {time : Nat} {parts : List Part} {loss : Loss}
    (hsend : Line.send line now (Step.chunk parts) = (next, ⟨time, .error loss⟩)) :
    playOn pacing none (.send parts :: rest) line now
      = (next, some ⟨time, .error loss⟩) := by
  rw [playOn, isPast_none, hsend]
  rfl

theorem playOn_pause (length : Duration) (line : ℓ) :
    playOn pacing none (.pause length :: rest) line now
      = playOn pacing none rest line (now + (pacing.pause length).ticks) := by
  rw [playOn, isPast_none]
  rfl

theorem send_logged {line next : ℓ} {answer : Answer Unit} {octets : Bytes}
    (hsend : Line.send line now octets = (next, answer)) (made : List Call) :
    Line.send (⟨line, made⟩ : Logged ℓ) now octets
      = (⟨next, made ++ [.send octets answer.result]⟩, answer) := by
  have hlogged : Line.send (⟨line, made⟩ : Logged ℓ) now octets
      = (⟨(Line.send line now octets).1,
          made ++ [.send octets (Line.send line now octets).2.result]⟩,
        (Line.send line now octets).2) := rfl
  rw [hlogged, hsend]

theorem exists_played {delay : Nat} {Held : ℓ → Prop} (hpaced : Line.Paced delay Held)
    (pacing : Pacing) {script : Script} (hwhole : script.Whole) {line : ℓ} (hheld : Held line)
    (now : Nat) (made : List Call) :
    ∃ next calls answer,
      script.playOn pacing none (⟨line, made⟩ : Logged ℓ) now
        = (⟨next, made ++ calls⟩, some answer) ∧
      script.Played pacing delay now calls answer := by
  -- The calls made before stay in front of the log, so the rest is played from any log.
  induction script generalizing line now made with
  | nil =>
    refine ⟨line, [], ⟨now, .ok ()⟩, ?_, .whole rfl ?_⟩
    · rw [List.append_nil]
      rfl
    · rw [lasting_nil, Nat.add_zero]
  | cons step rest ih =>
    cases step with
    | send parts =>
      rcases hsend : Line.send line now (Step.chunk parts) with ⟨next, time, loss | ⟨⟨⟩⟩⟩
      · obtain rfl := hpaced.unsent hheld hsend
        refine ⟨next, [.send (Step.chunk parts) (.error loss)], ⟨time, .error loss⟩,
          playOn_unsent (send_logged hsend made), .broken (List.nil_append _).symm rfl ?_⟩
        rw [lasting_nil, Nat.add_zero]
      · obtain rfl := hpaced.sent hheld hsend
        have hnext : Held next := by
          have hkept := hpaced.held hheld now (Step.chunk parts)
          rwa [hsend] at hkept
        obtain ⟨last, calls, answer, hplay, hplayed⟩ := ih hwhole.tail hnext (now + delay)
          (made ++ [.send (Step.chunk parts) (.ok ())])
        refine ⟨last, .send (Step.chunk parts) (.ok ()) :: calls, answer, ?_,
          hplayed.cons_send parts⟩
        rw [playOn_sent (send_logged hsend made), hplay, List.append_assoc]
        rfl
    | pause length =>
      obtain ⟨millis, rfl⟩ := hwhole length List.mem_cons_self
      obtain ⟨last, calls, answer, hplay, hplayed⟩ := ih hwhole.tail hheld
        (now + (pacing.pause (Duration.ofMillis millis)).ticks) made
      exact ⟨last, calls, answer, (playOn_pause _ _).trans hplay, hplayed.cons_pause⟩

end Script

/-- A session plays what is left of a screen in this way, and leaves at the first loss. -/
theorem Run.exists_steps_playOn {σ ℓ : Type} [Dialogue σ] [Line ℓ] (pacing : Pacing)
    {script : Script} {r : Run σ ℓ} (hagenda : r.agenda = .play script) :
    ∃ count line time result,
      script.playOn pacing none r.line r.now = (line, some ⟨time, result⟩) ∧
      r.steps pacing count = { r with
        line := line
        now := time
        agenda := match result with
          | .ok () => .play []
          | .error loss => .leave (some loss) } := by
  induction script generalizing r with
  | nil =>
    refine ⟨0, r.line, r.now, .ok (), rfl, ?_⟩
    rw [steps, ← hagenda]
  | cons step rest ih =>
    cases step with
    | send parts =>
      rcases hsend : Line.send r.line r.now (Step.chunk parts) with ⟨line, time, loss | ⟨⟨⟩⟩⟩
      · refine ⟨1, line, time, .error loss, Script.playOn_unsent hsend, ?_⟩
        exact (Move.unsent hagenda hsend).step_eq
      · have hstep : r.step pacing = _ := (Move.sent hagenda hsend).step_eq
        obtain ⟨count, last, ended, result, hplay, hsteps⟩ :=
          ih (congrArg Run.agenda hstep)
        rw [hstep] at hplay hsteps
        refine ⟨count + 1, last, ended, result, (Script.playOn_sent hsend).trans hplay, ?_⟩
        rw [steps, hstep, hsteps]
    | pause length =>
      have hstep : r.step pacing = _ := (Move.paused hagenda).step_eq
      obtain ⟨count, last, ended, result, hplay, hsteps⟩ := ih (congrArg Run.agenda hstep)
      rw [hstep] at hplay hsteps
      refine ⟨count + 1, last, ended, result, (Script.playOn_pause _ _).trans hplay, ?_⟩
      rw [steps, hstep, hsteps]

/-- Two logs that are the same up to a send that is answered differently. -/
def Call.Apart (calls calls' : List Call) : Prop :=
  ∃ shared chunk result result' later later', result ≠ result' ∧
    calls = shared ++ .send chunk result :: later ∧
      calls' = shared ++ .send chunk result' :: later'

namespace Script

section Twice

variable {ℓ : Type} [Line ℓ] {pacing pacing' : Pacing} {parts : List Part} {rest : Script}
variable {logged logged' next next' : Logged ℓ} {now now' : Nat} {answer answer' : Answer Unit}

theorem exists_later_of_send
    (hrest : ∀ (logged : Logged ℓ) (now : Nat),
      ∃ later, (rest.playOn pacing none logged now).1.calls = logged.calls ++ later)
    (hsend : Line.send logged now (Step.chunk parts) = (next, answer)) :
    ∃ later, (playOn pacing none (.send parts :: rest) logged now).1.calls
      = logged.calls ++ .send (Step.chunk parts) answer.result :: later := by
  have hcalls := Logged.calls_send hsend
  obtain ⟨time, loss | ⟨⟨⟩⟩⟩ := answer
  · rw [playOn_unsent hsend]
    exact ⟨[], hcalls⟩
  · rw [playOn_sent hsend]
    obtain ⟨later, hlater⟩ := hrest next time
    rw [hcalls, List.append_assoc] at hlater
    exact ⟨later, hlater⟩

theorem exists_later (pacing : Pacing) (script : Script) (logged : Logged ℓ) (now : Nat) :
    ∃ later, (script.playOn pacing none logged now).1.calls = logged.calls ++ later := by
  induction script generalizing logged now with
  | nil => exact ⟨[], (List.append_nil _).symm⟩
  | cons step rest ih =>
    cases step with
    | send parts =>
      obtain ⟨later, hlater⟩ :=
        exists_later_of_send ih (Prod.eta (Line.send logged now (Step.chunk parts))).symm
      exact ⟨_, hlater⟩
    | pause length =>
      rw [playOn_pause]
      exact ih logged _

structure Twins (played played' : Logged ℓ × Option (Answer Unit)) : Prop where
  calls : played.1.calls = played'.1.calls
  result : played.2.map Answer.result = played'.2.map Answer.result

theorem twins_or_sent (hmade : logged.calls = logged'.calls)
    (hsend : Line.send logged now (Step.chunk parts) = (next, answer))
    (hsend' : Line.send logged' now' (Step.chunk parts) = (next', answer'))
    (hresult : answer.result = answer'.result) :
    Twins (playOn pacing none (.send parts :: rest) logged now)
        (playOn pacing' none (.send parts :: rest) logged' now') ∨
      ∃ time time', answer = ⟨time, .ok ()⟩ ∧ answer' = ⟨time', .ok ()⟩ ∧
        next.calls = next'.calls := by
  have hcalls : next.calls = next'.calls := by
    rw [Logged.calls_send hsend, Logged.calls_send hsend', hmade, hresult]
  obtain ⟨time, result⟩ := answer
  obtain ⟨time', result'⟩ := answer'
  obtain rfl : result = result' := hresult
  rcases result with loss | ⟨⟨⟩⟩
  · rw [playOn_unsent hsend, playOn_unsent hsend']
    exact .inl ⟨hcalls, rfl⟩
  · exact .inr ⟨time, time', rfl, rfl, hcalls⟩

/-- Only the answers of the line can tell two playings of a script apart. -/
theorem twins_or_apart (pacing pacing' : Pacing) (script : Script)
    (hmade : logged.calls = logged'.calls) (now now' : Nat) :
    Twins (script.playOn pacing none logged now) (script.playOn pacing' none logged' now') ∨
      Call.Apart (script.playOn pacing none logged now).1.calls
        (script.playOn pacing' none logged' now').1.calls := by
  induction script generalizing logged logged' now now' with
  | nil => exact .inl ⟨hmade, rfl⟩
  | cons step rest ih =>
    cases step with
    | send parts =>
      rcases hsend : Line.send logged now (Step.chunk parts) with ⟨next, answer⟩
      rcases hsend' : Line.send logged' now' (Step.chunk parts) with ⟨next', answer'⟩
      by_cases hresult : answer.result = answer'.result
      · rcases twins_or_sent hmade hsend hsend' hresult
          with htwins | ⟨time, time', rfl, rfl, hcalls⟩
        · exact .inl htwins
        · rw [playOn_sent hsend, playOn_sent hsend']
          exact ih hcalls time time'
      · obtain ⟨later, hlater⟩ := exists_later_of_send (exists_later pacing rest) hsend
        obtain ⟨later', hlater'⟩ := exists_later_of_send (exists_later pacing' rest) hsend'
        rw [← hmade] at hlater'
        exact .inr ⟨_, _, _, _, _, _, hresult, hlater, hlater'⟩
    | pause length =>
      rw [playOn_pause, playOn_pause]
      exact ih hmade _ _

theorem twins_of_timeless {Alike : ℓ → ℓ → Prop} (htimeless : Line.Timeless Alike)
    (pacing pacing' : Pacing) (script : Script) (halike : Alike logged.line logged'.line)
    (hmade : logged.calls = logged'.calls) (now now' : Nat) :
    Twins (script.playOn pacing none logged now)
      (script.playOn pacing' none logged' now') := by
  induction script generalizing logged logged' now now' with
  | nil => exact ⟨hmade, rfl⟩
  | cons step rest ih =>
    cases step with
    | send parts =>
      have hnext := htimeless.alike halike now now' (Step.chunk parts)
      have hresult := htimeless.result halike now now' (Step.chunk parts)
      rcases hsend : Line.send logged now (Step.chunk parts) with ⟨next, answer⟩
      rcases hsend' : Line.send logged' now' (Step.chunk parts) with ⟨next', answer'⟩
      rw [Logged.wraps.send, Logged.wraps.send, hsend, hsend'] at hnext hresult
      rcases twins_or_sent hmade hsend hsend' hresult
        with htwins | ⟨time, time', rfl, rfl, hcalls⟩
      · exact htwins
      · rw [playOn_sent hsend, playOn_sent hsend']
        exact ih hnext hcalls time time'
    | pause length =>
      rw [playOn_pause, playOn_pause]
      exact ih halike hmade _ _

end Twice

theorem Played.of_ok {pacing : Pacing} {delay now : Nat} {script : Script}
    {calls : List Call} {answer : Answer Unit} (h : script.Played pacing delay now calls answer)
    (hok : answer.result = .ok ()) :
    (Call.delivered calls).flatten = script.wire ∧ calls.length = script.sendCount ∧
      ∀ total, script.totalPause? = some total →
        answer.time = now + (delay * script.sendCount
          + if pacing.pauses then total.ticks else 0) := by
  cases h with
  | whole hcalls hanswer =>
    refine ⟨?_, ?_, ?_⟩
    · rw [hcalls, Call.delivered_sent]
      rfl
    · rw [hcalls, List.length_map]
      rfl
    · intro total htotal
      obtain rfl : script.pauseTotal = total := by
        unfold totalPause? at htotal
        split at htotal
        · exact Option.some.inj htotal
        · cases htotal
      rw [hanswer]
      rfl
  | broken hscript hcalls hanswer =>
    rw [hanswer] at hok
    cases hok

/-- **A script is played as it stands.**  Its sends are made in order, each as one send, up to
the first that fails; the pauses between them are made as the pacing says.  If no send fails,
all octets of the script have been sent, and the time is that of its sends and its pauses.  With
another pacing the same is sent, with the same result, up to a send that the line itself answers
differently; so on a line that does not answer by the clock it is all the same. -/
theorem exists_playOn_eq {ℓ : Type} [Line ℓ] {delay : Nat} {Held : ℓ → Prop}
    (hpaced : Line.Paced delay Held) {line : ℓ} (hheld : Held line) {script : Script}
    (hwhole : script.Whole) (pacing : Pacing) (now : Nat) :
    ∃ next calls answer,
      script.playOn pacing none line now = (next, some answer) ∧
      script.playOn pacing none (Logged.log line) now = (⟨next, calls⟩, some answer) ∧
      script.Played pacing delay now calls answer ∧
      (answer.result = .ok () →
        (Call.delivered calls).flatten = script.wire ∧ calls.length = script.sendCount ∧
          ∀ total, script.totalPause? = some total →
            answer.time = now + (delay * script.sendCount
              + if pacing.pauses then total.ticks else 0)) ∧
      ∀ other : Pacing, ∃ next' calls' answer',
        script.playOn other none (Logged.log line) now = (⟨next', calls'⟩, some answer') ∧
        ((calls' = calls ∧ answer'.result = answer.result) ∨ Call.Apart calls' calls) ∧
        ∀ Alike : ℓ → ℓ → Prop, Line.Timeless Alike → Alike line line →
          calls' = calls ∧ answer'.result = answer.result := by
  obtain ⟨next, calls, answer, hplay, hplayed⟩ :=
    exists_played hpaced pacing hwhole hheld now []
  rw [List.nil_append] at hplay
  refine ⟨next, calls, answer, ?_, hplay, hplayed, hplayed.of_ok, ?_⟩
  · have hbare := playOn_unwrap Logged.wraps pacing none script (Logged.log line) now
    rwa [Logged.log, hplay] at hbare
  · intro other
    obtain ⟨next', calls', answer', hother, -⟩ :=
      exists_played hpaced other hwhole hheld now []
    rw [List.nil_append] at hother
    have hsame (htwins : Twins (script.playOn other none (Logged.log line) now)
        (script.playOn pacing none (Logged.log line) now)) :
        calls' = calls ∧ answer'.result = answer.result := by
      rw [Logged.log, hother, hplay] at htwins
      exact ⟨htwins.calls, Option.some.inj htwins.result⟩
    refine ⟨next', calls', answer', hother, ?_, ?_⟩
    · have heither := @twins_or_apart ℓ _ (Logged.log line) (Logged.log line) other pacing script
        rfl now now
      rcases heither with htwins | hapart
      · exact .inl (hsame htwins)
      · rw [Logged.log, hother, hplay] at hapart
        exact .inr hapart
    · intro Alike htimeless halike
      exact hsame (twins_of_timeless htimeless other pacing script halike rfl now now)

def twoSends : Script :=
  octets [0x41] ++ pauseMillis 500 ++ octets [0x42] ++ pauseMillis 250

def waning : StreamLine Scripted :=
  ⟨{ Scripted.ofEvents [] with writeFault := some (1, Fault.ofKind .connectionReset) }, true,
    "waning", Duration.ofMillis 10, none⟩

theorem exists_playOn_eq_waning :
    twoSends.Whole ∧
    Line.Paced 10 (fun line : StreamLine Scripted => line.sendDelay = Duration.ofMillis 10) ∧
    ∃ next calls answer,
      twoSends.playOn Pacing.usual none waning 0 = (next, some answer) ∧
      answer.time = 510 ∧ Call.delivered calls = [[0x41]] ∧
      (twoSends.playOn Pacing.instant none (Logged.log waning) 0).1.calls = calls := by
  have hwhole : twoSends.Whole := by
    intro length hmem
    simp only [twoSends, octets, pauseMillis, pause, List.cons_append, List.nil_append,
      List.mem_cons, Step.pause.injEq, reduceCtorEq, List.not_mem_nil, false_or, or_false] at hmem
    rcases hmem with rfl | rfl
    · exact ⟨500, rfl⟩
    · exact ⟨250, rfl⟩
  have hpaced := @StreamLine.paced Scripted _ (Duration.ofMillis 10)
  rw [Duration.ticks_ofMillis] at hpaced
  obtain ⟨next, calls, answer, hplay, hlog, -, -, hother⟩ :=
    @exists_playOn_eq _ _ _ _ hpaced waning rfl _ hwhole Pacing.usual 0
  obtain ⟨next', calls', answer', hfast, -, htimeless⟩ := hother Pacing.instant
  have htime : (twoSends.playOn Pacing.usual none waning 0).2.map Answer.time = some 510 := by
    decide +kernel
  have hdelivered : Call.delivered
      (twoSends.playOn Pacing.usual none (Logged.log waning) 0).1.calls = [[0x41]] := by
    decide +kernel
  rw [hplay] at htime
  rw [hlog] at hdelivered
  refine ⟨hwhole, hpaced, next, calls, answer, hplay, Option.some.inj htime, hdelivered, ?_⟩
  rw [hfast]
  exact (htimeless Eq StreamLine.timeless rfl).1

end Script

end TerminalHost
