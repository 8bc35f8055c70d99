import TerminalHost.Proofs.Session.Lockstep

/-!
# Noise on the keys

The game reads letters, and nothing but letters, in either case.  All else that a
terminal sends can be left out, and every letter typed as a capital, without a trace in
what the game sends, how long it takes, or what it reports.

The session on the noisy line listens more often.  Whenever it hears noise it is back at
the same question two steps later, with less in its queue.
-/

namespace TerminalHost

namespace Keys

/-- A letter as a capital; no other octet has one. -/
def capital? (octet : UInt8) : Option UInt8 :=
  if 0x41 ≤ octet ∧ octet ≤ 0x5A then some octet
  else if 0x61 ≤ octet ∧ octet ≤ 0x7A then some (octet - 0x20)
  else none

theorem read_eq_bind_capital? (octet : UInt8) :
    letter? octet = (capital? octet).bind letter? ∧
      reply? octet = (capital? octet).bind reply? := by
  -- There are few enough octets to try them all.
  have hall : ∀ n : Fin 256,
      letter? (UInt8.ofFin n) = (capital? (UInt8.ofFin n)).bind letter? ∧
        reply? (UInt8.ofFin n) = (capital? (UInt8.ofFin n)).bind reply? := by
    decide +kernel
  exact hall octet.toFin

theorem firstLetter?_singleton (octet : UInt8) : firstLetter? [octet] = letter? octet := by
  rw [firstLetter?, List.findSome?_singleton]

theorem firstReply?_singleton (octet : UInt8) : firstReply? [octet] = reply? octet := by
  rw [firstReply?, List.findSome?_singleton]

end Keys

namespace Game

variable {g : Game} {hear : Bytes → Game}

theorem hear_of_capital (h : g.cue = .listen hear) {octet capital : UInt8}
    (hcapital : Keys.capital? octet = some capital) : hear [octet] = hear [capital] := by
  obtain ⟨hletter, hreply⟩ := Keys.read_eq_bind_capital? octet
  rw [hcapital, Option.bind_some] at hletter hreply
  obtain ⟨r, -, rfl⟩ | ⟨-, rfl⟩ := exists_of_listen h
  · simp only [hearLetter, Keys.firstLetter?_singleton, hletter]
  · simp only [hearAnswer, Keys.firstReply?_singleton, hreply]

theorem hear_of_noise (h : g.cue = .listen hear) {octet : UInt8}
    (hnoise : Keys.capital? octet = none) : hear [octet] = g := by
  obtain ⟨hletter, hreply⟩ := Keys.read_eq_bind_capital? octet
  rw [hnoise, Option.bind_none] at hletter hreply
  obtain ⟨r, -, rfl⟩ | ⟨-, rfl⟩ := exists_of_listen h
  · simp only [hearLetter, Keys.firstLetter?_singleton, hletter]
  · simp only [hearAnswer, Keys.firstReply?_singleton, hreply]

end Game

namespace Item

def capital? : Item → Option Item
  | .octet key => (Keys.capital? key).map Item.octet
  | .idle => none

theorem exists_of_capital? {item capital : Item} (h : item.capital? = some capital) :
    ∃ key letter, item = .octet key ∧ capital = .octet letter ∧
      Keys.capital? key = some letter := by
  cases item with
  | octet key =>
    obtain ⟨letter, hletter, rfl⟩ := Option.map_eq_some_iff.mp h
    exact ⟨key, letter, rfl, rfl, hletter⟩
  | idle => simp [capital?] at h

def Capitals (noisy clean : List Item) : Prop := clean = noisy.filterMap capital?

theorem Capitals.cons_noise {item : Item} {rest clean : List Item}
    (h : Capitals (item :: rest) clean) (hnoise : item.capital? = none) :
    Capitals rest clean := by
  rwa [Capitals, List.filterMap_cons, hnoise] at h

theorem Capitals.cons_letter {item capital : Item} {rest clean : List Item}
    (h : Capitals (item :: rest) clean) (hcapital : item.capital? = some capital) :
    clean = capital :: rest.filterMap capital? := by
  rwa [Capitals, List.filterMap_cons, hcapital] at h

end Item

/-- The line with nothing but letters in its queue, all of them capitals. -/
def Recorded.capitals (line : Recorded) : Recorded :=
  { line with queue := line.queue.filterMap Item.capital? }

theorem Game.exists_noise {g : Game} {hear : Bytes → Game} (h : g.cue = .listen hear)
    {item : Item} (hnoise : item.capital? = none) (rest : List Item) :
    ∃ octets, hear octets = g ∧ Recorded.take 1 (item :: rest) = (.ok octets, rest) := by
  cases item with
  | octet key =>
    rw [Item.capital?, Option.map_eq_none_iff] at hnoise
    exact ⟨[key], hear_of_noise h hnoise, rfl⟩
  | idle => exact ⟨[], hear_nil h, rfl⟩

namespace Run

variable {left right : List Bytes} {r q : Run Game Recorded} {hear : Bytes → Game}
variable (pacing : Pacing)
variable (h : InStep Eq (Recorded.Abreast Item.Capitals left right) 0 r q)
variable (hagenda : q.agenda = .play []) (hcue : Dialogue.cue q.state = .listen hear)
variable (hopen : ¬ q.line.isClosed = true)
include h hagenda hcue hopen

/-- Noise takes the noisy run back to the question that it has asked. -/
theorem InStep.steps_noise {item : Item} {rest : List Item}
    (hqueue : r.line.queue = item :: rest) (hnoise : item.capital? = none) :
    InStep Eq (Recorded.Abreast Item.Capitals left right) 0 (r.steps pacing 2) q ∧
      (r.steps pacing 2).line.queue = rest := by
  have hopen' : ¬ r.line.isClosed = true := h.line.isClosed ▸ hopen
  have hcue' : Dialogue.cue r.state = .listen hear := h.state ▸ hcue
  obtain ⟨octets, hhear, htake⟩ := Game.exists_noise hcue' hnoise rest
  have hreceive : Line.receive r.line r.now 1
      = ({ r.line with receives := r.line.receives + 1, queue := rest },
        some ⟨r.now, .ok octets⟩) := by
    simp only [Line.receive, Recorded.receive_of_open hopen', hqueue, htake]
  obtain ⟨latest, hback⟩ :=
    exists_steps_unmoved pacing (h.agenda_play hagenda) hcue' hhear hreceive
  have hcapitals : Item.Capitals (item :: rest) q.line.queue := hqueue ▸ h.line.queue
  have hline := h.line.withQueue (hcapitals.cons_noise hnoise) (r.line.receives + 1)
    q.line.receives
  rw [hback]
  exact ⟨⟨h.state, h.agenda, hline, h.now⟩, rfl⟩

theorem InStep.step_letter {item capital : Item} {rest : List Item}
    (hqueue : r.line.queue = item :: rest) (hcapital : item.capital? = some capital) :
    InStep Eq (Recorded.Abreast Item.Capitals left right) 0 (r.step pacing)
      (q.step pacing) := by
  have hcapitals : Item.Capitals (item :: rest) q.line.queue := hqueue ▸ h.line.queue
  have hqueue' := hcapitals.cons_letter hcapital
  obtain ⟨key, letter, rfl, rfl, hletter⟩ := Item.exists_of_capital? hcapital
  apply h.step_listen pacing hagenda (h.state ▸ hcue) hcue hopen
  · rw [hqueue, hqueue']
    exact .octets (Game.hear_of_capital hcue hletter)
  · rw [hqueue, hqueue']
    rfl

theorem InStep.step_empty (hqueue : r.line.queue = []) :
    InStep Eq (Recorded.Abreast Item.Capitals left right) 0 (r.step pacing)
      (q.step pacing) := by
  have hqueue' : q.line.queue = [] := by
    rw [h.line.queue, hqueue, List.filterMap_nil]
  apply h.step_listen pacing hagenda (h.state ▸ hcue) hcue hopen
  · rw [hqueue, hqueue']
    exact .lost .peerClosed
  · rw [hqueue, hqueue']
    rfl

theorem InStep.exists_listen :
    ∃ count, InStep Eq (Recorded.Abreast Item.Capitals left right) 0
      (r.steps pacing count) (q.step pacing) := by
  -- The induction is on the queue of the noisy line, up to the first letter in it.
  induction hqueue : r.line.queue generalizing r with
  | nil => exact ⟨1, h.step_empty pacing hagenda hcue hopen hqueue⟩
  | cons item rest ih =>
    cases hcapital : item.capital? with
    | none =>
      obtain ⟨hstill, hrest⟩ := h.steps_noise pacing hagenda hcue hopen hqueue hcapital
      obtain ⟨count, hcount⟩ := ih hstill hrest
      exact ⟨2 + count, by rwa [steps_add]⟩
    | some capital =>
      exact ⟨1, h.step_letter pacing hagenda hcue hopen hqueue hcapital⟩

end Run

/-- **Only letters count.**  A game comes to the same end at the same time, with the same
chunks sent, if its line brings nothing but the letters in its queue, as capitals. -/
theorem exists_returns_capitals (options : Options) (line : Recorded) :
    ∃ noisy clean, Program.game.Returns options line noisy ∧
      Program.game.Returns options line.capitals clean ∧
      noisy.line.chunks = clean.line.chunks ∧ noisy.now = clean.now ∧
      noisy.report = clean.report := by
  have hbegin : Run.InStep Eq (Recorded.Abreast Item.Capitals line.chunks line.chunks) 0
      (Run.begin (Game.start options) line 0)
      (Run.begin (Game.start options) line.capitals 0) := by
    have hsent : line.chunks = line.chunks ++ [] := (List.append_nil _).symm
    exact ⟨rfl, .play _, ⟨rfl, rfl, rfl, .inr rfl, [], hsent, hsent⟩, rfl⟩
  have hstuck : (Run.begin (Game.start options) line.capitals 0).agenda ≠ .stuck := by
    simp [Run.begin]
  obtain ⟨loss, hdone⟩ := Run.exists_done options.pacing hstuck (Nat.le_refl _)
  obtain ⟨count, hcount⟩ := hbegin.exists_steps Dialogue.alike_eq options.pacing _
    fun few _ s hs hlistens hopen => by
      obtain ⟨hagenda, hear, hcue⟩ := hlistens
      exact hs.exists_listen options.pacing hagenda hcue hopen
  have hdone' := hcount.agenda_done hdone
  have hreport := Run.report?_of_done hdone
  have hreport' := Run.report?_of_done hdone'
  rw [hcount.state] at hreport'
  refine ⟨_, _, Program.returns_of_steps (fun _ _ => rfl) (congrArg Option.isSome hreport'),
    Program.returns_of_steps (fun _ _ => rfl) (congrArg Option.isSome hreport), ?_, ?_, ?_⟩
  · obtain ⟨chunks, hnoisy, hclean⟩ := hcount.line.sent
    exact hnoisy.trans hclean.symm
  · have hnow := hcount.now
    rw [Int.add_zero] at hnow
    exact Int.ofNat_inj.mp hnow
  · exact hreport'.trans hreport.symm

end TerminalHost
