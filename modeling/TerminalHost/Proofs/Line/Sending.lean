import TerminalHost.Proofs.Line.Dealings
import TerminalHost.Proofs.Line.Watched

/-!
# Sends and the close on a line over a stream

However a stream takes what is written to it, and wherever it begins to fail, a line accounts
for every octet: a send that succeeds has put all its octets on the stream and flushed them
once, and a send that fails has put a first part of them there.  The stream is shut down by the
first close and is not touched again.
-/

namespace TerminalHost

/-- What a line does to its stream to deliver some octets, and how that ends: writes that each
take something, and when nothing is left, one flush; or it breaks off at a write. -/
inductive Delivers (octets : Bytes) (touches : List Touch) : Except Fault Unit → Prop where
  | flushed {writes : List Touch} {result : Except Fault Unit}
      (hwrites : ∀ touch ∈ writes, touch.Takes) (hall : Touch.received writes = octets)
      (htouches : touches = writes ++ [.flush result]) : Delivers octets touches result
  | refused {writes : List Touch} {offered : Bytes} {fault : Fault}
      (hwrites : ∀ touch ∈ writes, touch.Takes) (hpart : Touch.received writes <+: octets)
      (htouches : touches = writes ++ [.write offered (.error fault)]) :
      Delivers octets touches (.error fault)
  /-- A write that takes nothing counts as a fault. -/
  | stuck {writes : List Touch} {offered : Bytes}
      (hwrites : ∀ touch ∈ writes, touch.Takes) (hpart : Touch.received writes <+: octets)
      (htouches : touches = writes ++ [.write offered (.ok 0)]) :
      Delivers octets touches (.error (Fault.ofKind .writeZero))

namespace Delivers

variable {octets : Bytes} {touches : List Touch} {result : Except Fault Unit}

/-- A write that takes something comes before the delivery of the rest. -/
theorem after_write {count : Nat} (h : Delivers (octets.drop (count + 1)) touches result) :
    Delivers octets (.write octets (.ok (count + 1)) :: touches) result := by
  have hmore {writes : List Touch} (hwrites : ∀ touch ∈ writes, touch.Takes) :
      ∀ touch ∈ Touch.write octets (.ok (count + 1)) :: writes, touch.Takes := by
    intro touch hmem
    rcases List.mem_cons.mp hmem with rfl | hlater
    · exact ⟨octets, count, rfl⟩
    · exact hwrites touch hlater
  have hreceived (writes : List Touch) :
      Touch.received (.write octets (.ok (count + 1)) :: writes)
        = octets.take (count + 1) ++ Touch.received writes := rfl
  have hpart {writes : List Touch}
      (hfront : Touch.received writes <+: octets.drop (count + 1)) :
      Touch.received (.write octets (.ok (count + 1)) :: writes) <+: octets := by
    have happend :=
      (List.prefix_append_right_inj (octets.take (count + 1))).mpr hfront
    rwa [List.take_append_drop] at happend
  cases h with
  | flushed hwrites hall htouches =>
    refine .flushed (hmore hwrites) ?_ (congrArg _ htouches)
    rw [hreceived, hall, List.take_append_drop]
  | refused hwrites hfront htouches =>
    exact .refused (hmore hwrites) (hpart hfront) (congrArg _ htouches)
  | stuck hwrites hfront htouches =>
    exact .stuck (hmore hwrites) (hpart hfront) (congrArg _ htouches)

theorem received_prefix (h : Delivers octets touches result) :
    Touch.received touches <+: octets := by
  have hlast (writes : List Touch) {last : Touch} (hnone : last.octets = []) :
      Touch.received (writes ++ [last]) = Touch.received writes := by
    rw [Touch.received_append, Touch.received, Touch.received, List.flatMap_singleton, hnone,
      List.append_nil]
  cases h with
  | flushed hwrites hall htouches =>
    have hend : Touch.received [Touch.flush result] = [] := rfl
    simp only [htouches, Touch.received_append, hall, hend, List.append_nil, List.prefix_rfl]
  | refused hwrites hpart htouches => rwa [htouches, hlast _ rfl]
  | stuck hwrites hpart htouches => rwa [htouches, hlast _ rfl]

/-- A delivery that succeeds has put all octets on the stream. -/
theorem received_eq (h : Delivers octets touches (.ok ())) :
    Touch.received touches = octets := by
  cases h with
  | flushed hwrites hall htouches =>
    rw [htouches, Touch.received_append, hall]
    exact List.append_nil octets

theorem not_isShutdown (h : Delivers octets touches result) :
    ∀ touch ∈ touches, touch.isShutdown = false := by
  have hwhole {writes : List Touch} {last : Touch} (hwrites : ∀ touch ∈ writes, touch.Takes)
      (hlast : last.isShutdown = false) :
      ∀ touch ∈ writes ++ [last], touch.isShutdown = false := by
    intro touch hmem
    rcases List.mem_append.mp hmem with hwrite | hend
    · exact (hwrites touch hwrite).not_isShutdown
    · rwa [List.mem_singleton.mp hend]
  cases h with
  | flushed hwrites hall htouches => exact htouches ▸ hwhole hwrites rfl
  | refused hwrites hpart htouches => exact htouches ▸ hwhole hwrites rfl
  | stuck hwrites hpart htouches => exact htouches ▸ hwhole hwrites rfl

end Delivers

variable {β : Type}

/-! ## What a call comes to -/

/-- What a line notes about the shutdown of its stream: only that it has failed. -/
def StreamLine.shutdownEntries (name : String) : Except Fault Unit → List Entry
  | .ok () => []
  | .error fault => [.shutdownFailed name fault]

namespace Dealing

variable {d : Dealing (StreamLine (Watched β))}

def touches (d : Dealing (StreamLine (Watched β))) : List Touch :=
  d.after.stream.touches.drop d.before.stream.touches.length

/-- A call on a line, with what it does to the stream, how it ends and when. -/
inductive Accounted (d : Dealing (StreamLine (Watched β))) (touches : List Touch) : Prop where
  /-- All octets are on the stream and flushed; then the send delay goes by. -/
  | sent {octets : Bytes} (hopen : d.before.isOpen = true)
      (hcall : d.call = .send octets (.ok ()))
      (hdelivers : Delivers octets touches (.ok ()))
      (hended : d.ended = some (d.now + d.before.sendDelay.ticks))
      (hafter : d.after = { d.before with stream := d.after.stream })
  /-- The stream has failed; the send does not wait, and the line stays open. -/
  | unsent {octets : Bytes} {fault : Fault} (hopen : d.before.isOpen = true)
      (hcall : d.call = .send octets (.error (.fault fault)))
      (hdelivers : Delivers octets touches (.error fault))
      (hended : d.ended = some d.now)
      (hafter : d.after = { d.before with stream := d.after.stream })
  /-- A receive only reads. -/
  | received {most : Nat} {result : Option (Except Loss Bytes)}
      (hopen : d.before.isOpen = true) (hcall : d.call = .receive most result)
      (htouches : touches = [.read])
      (hafter : d.after = { d.before with stream := d.after.stream })
  /-- The first close shuts the stream down; if that fails it is noted, and that is all. -/
  | closed {result : Except Fault Unit} (hopen : d.before.isOpen = true)
      (hcall : d.call = .close) (htouches : touches = [.shutdown result])
      (hnoted : d.noted = StreamLine.shutdownEntries d.before.name result)
      (hafter : d.after = { d.before with stream := d.after.stream, isOpen := false })
  /-- On a closed line nothing is done any more. -/
  | refused (hclosed : d.before.isOpen = false)
      (hcall : (∃ octets, d.call = .send octets (.error .closed)) ∨
        (∃ most, d.call = .receive most (some (.error .closed))) ∨ d.call = .close)
      (htouches : touches = []) (hended : d.ended = some d.now) (hnoted : d.noted = [])
      (hafter : d.after = d.before)

/-- What the call has put on the stream: all octets of a send that has succeeded, and what was
written of a send that has failed. -/
def put (d : Dealing (StreamLine (Watched β))) : Bytes :=
  match d.call with
  | .send octets (.ok ()) => octets
  | .send _ (.error _) => Touch.received d.touches
  | _ => []

theorem touches_eq {touches : List Touch}
    (h : d.after.stream.touches = d.before.stream.touches ++ touches) :
    d.touches = touches := by
  rw [Dealing.touches, h, List.drop_left]

theorem Accounted.received_touches (h : d.Accounted d.touches) :
    Touch.received d.touches = d.put := by
  unfold put
  cases h with
  | sent hopen hcall hdelivers hended hafter =>
    rw [hcall]
    exact hdelivers.received_eq
  | unsent hopen hcall hdelivers hended hafter => rw [hcall]
  | received hopen hcall htouches hafter =>
    rw [hcall, htouches]
    rfl
  | closed hopen hcall htouches hnoted hafter =>
    rw [hcall, htouches]
    rfl
  | refused hclosed hcall htouches hended hnoted hafter =>
    rcases hcall with ⟨octets, hcall⟩ | ⟨most, hcall⟩ | hcall
    · rw [hcall]
    · rw [hcall, htouches]
      rfl
    · rw [hcall, htouches]
      rfl

theorem Accounted.put_prefix (h : d.Accounted d.touches) {octets : Bytes} {loss : Loss}
    (hcall : d.call = .send octets (.error loss)) : d.put <+: octets := by
  rw [← h.received_touches]
  cases h with
  | unsent hopen hsend hdelivers hended hafter =>
    rw [hcall] at hsend
    obtain ⟨rfl, -⟩ := Call.send.inj hsend
    exact hdelivers.received_prefix
  | refused hclosed hrefused htouches hended hnoted hafter =>
    rw [htouches]
    exact List.nil_prefix
  | sent hopen hsend hdelivers hended hafter => simp [hcall] at hsend
  | received hopen hreceive htouches hafter => simp [hcall] at hreceive
  | closed hopen hclose htouches hnoted hafter => simp [hcall] at hclose

/-- After a send that has succeeded nothing waits for a flush. -/
theorem Accounted.unflushed (h : d.Accounted d.touches) {octets : Bytes}
    (hcall : d.call = .send octets (.ok ())) (before : List Touch) :
    Touch.unflushed (before ++ d.touches) = [] := by
  cases h with
  | sent hopen hsend hdelivers hended hafter =>
    cases hdelivers with
    | flushed hwrites hall htouches =>
      rw [htouches, ← List.append_assoc]
      exact Touch.unflushed_of_flush _
  | unsent hopen hsend hdelivers hended hafter => simp [hcall] at hsend
  | received hopen hreceive htouches hafter => simp [hcall] at hreceive
  | closed hopen hclose htouches hnoted hafter => simp [hcall] at hclose
  | refused hclosed hrefused htouches hended hnoted hafter => simp [hcall] at hrefused

theorem Accounted.isOpen_after (h : d.Accounted d.touches) :
    d.after.isOpen = (d.before.isOpen && !d.call.isClose) := by
  cases h with
  | sent hopen hcall hdelivers hended hafter =>
    rw [hafter, hcall]
    simp [Call.isClose]
  | unsent hopen hcall hdelivers hended hafter =>
    rw [hafter, hcall]
    simp [Call.isClose]
  | received hopen hcall htouches hafter =>
    rw [hafter, hcall]
    simp [Call.isClose]
  | closed hopen hcall htouches hnoted hafter =>
    rw [hafter, hcall]
    simp [Call.isClose]
  | refused hclosed hcall htouches hended hnoted hafter =>
    rw [hafter, hclosed]
    rfl

theorem Accounted.sendDelay_after (h : d.Accounted d.touches) :
    d.after.sendDelay = d.before.sendDelay := by
  cases h with
  | sent hopen hcall hdelivers hended hafter => rw [hafter]
  | unsent hopen hcall hdelivers hended hafter => rw [hafter]
  | received hopen hcall htouches hafter => rw [hafter]
  | closed hopen hcall htouches hnoted hafter => rw [hafter]
  | refused hclosed hcall htouches hended hnoted hafter => rw [hafter]

/-- Only a close of an open line shuts the stream down. -/
theorem Accounted.shutdowns_touches (h : d.Accounted d.touches) :
    d.touches.countP Touch.isShutdown = if d.before.isOpen && d.call.isClose then 1 else 0 := by
  have hnone {octets : Bytes} {result : Except Fault Unit}
      (hdelivers : Delivers octets d.touches result) :
      d.touches.countP Touch.isShutdown = 0 := by
    apply List.countP_eq_zero.mpr
    intro touch hmem
    simp [hdelivers.not_isShutdown touch hmem]
  cases h with
  | sent hopen hcall hdelivers hended hafter => simp [hcall, hnone hdelivers, Call.isClose]
  | unsent hopen hcall hdelivers hended hafter => simp [hcall, hnone hdelivers, Call.isClose]
  | received hopen hcall htouches hafter =>
    rw [hcall, htouches]
    simp [Touch.isShutdown, Call.isClose]
  | closed hopen hcall htouches hnoted hafter =>
    rw [hcall, htouches, hopen]
    rfl
  | refused hclosed hcall htouches hended hnoted hafter =>
    rw [htouches, hclosed]
    rfl

end Dealing

/-- Where a line over a watched stream stands after the calls that were made on it. -/
structure Stood (line : StreamLine β) (made : List (Dealing (StreamLine (Watched β))))
    (present : StreamLine (Watched β)) : Prop where
  sendDelay : present.sendDelay = line.sendDelay
  isOpen : present.isOpen = !made.any (·.call.isClose)
  /-- Nothing but the calls has touched the stream. -/
  touches : present.stream.touches = made.flatMap Dealing.touches
  received : Touch.received present.stream.touches = made.flatMap Dealing.put
  shutdowns : present.stream.touches.countP Touch.isShutdown
    = if made.any (·.call.isClose) then 1 else 0

theorem Stood.watch {line : StreamLine β} (hopen : line.isOpen = true) :
    Stood line [] line.watch :=
  ⟨rfl, hopen, rfl, rfl, rfl⟩

/-! ## What a line does -/

variable [ByteStream β]

namespace Watched

def flushed : Watched β × Except Fault Unit → Watched β × Except Fault Unit
  | (watched, .ok ()) => ByteStream.flush watched
  | (watched, .error fault) => (watched, .error fault)

theorem deliver_eq (watched : Watched β) (octets : Bytes) :
    StreamLine.deliver watched octets = flushed (writeAll watched octets) := by
  rw [StreamLine.deliver]
  rcases writeAll watched octets with ⟨next, fault | ⟨⟨⟩⟩⟩
  · rfl
  · rfl

theorem delivers_within (fuel : Nat) (watched : Watched β) {octets : Bytes}
    (hfuel : octets.length ≤ fuel) :
    ∃ touches,
      (flushed (writeWithin fuel watched octets)).1.touches = watched.touches ++ touches ∧
        Delivers octets touches (flushed (writeWithin fuel watched octets)).2 := by
  have hnil : ∀ touch ∈ ([] : List Touch), touch.Takes := by
    intro touch hmem
    cases hmem
  -- Each write that takes something leaves fewer octets, so the fuel is enough to the end.
  induction fuel generalizing watched octets with
  | zero =>
    obtain rfl := List.length_eq_zero_iff.mp (Nat.le_zero.mp hfuel)
    exact ⟨_, rfl, .flushed hnil rfl rfl⟩
  | succ fuel ih =>
    cases octets with
    | nil => exact ⟨_, rfl, .flushed hnil rfl rfl⟩
    | cons octet rest =>
      rcases hwrite : ByteStream.write watched.stream (octet :: rest)
        with ⟨stream, fault | _ | count⟩
      · simp only [writeWithin, ByteStream.write, hwrite]
        exact ⟨_, rfl, .refused hnil List.nil_prefix rfl⟩
      · simp only [writeWithin, ByteStream.write, hwrite]
        exact ⟨_, rfl, .stuck hnil List.nil_prefix rfl⟩
      · simp only [writeWithin, ByteStream.write, hwrite]
        have hrest : (rest.drop count).length ≤ fuel := by
          rw [List.length_drop]
          rw [List.length_cons] at hfuel
          omega
        obtain ⟨touches, htouches, hdelivers⟩ := ih
          ⟨stream, watched.touches ++ [.write (octet :: rest) (.ok (count + 1))]⟩ hrest
        have hdrop : rest.drop count = (octet :: rest).drop (count + 1) := rfl
        rw [hdrop] at htouches hdelivers
        refine ⟨.write (octet :: rest) (.ok (count + 1)) :: touches, ?_, hdelivers.after_write⟩
        rw [hdrop, htouches, List.append_assoc]
        rfl

theorem delivers_deliver (watched : Watched β) (octets : Bytes) :
    ∃ touches,
      (StreamLine.deliver watched octets).1.touches = watched.touches ++ touches ∧
        Delivers octets touches (StreamLine.deliver watched octets).2 := by
  rw [deliver_eq]
  exact delivers_within octets.length watched (Nat.le_refl _)

end Watched

namespace StreamLine

variable {line : StreamLine (Watched β)}

theorem accounted_send (hopen : line.isOpen = true) (now : Nat) (octets : Bytes) :
    ∃ touches,
      (Line.deal line now (.send octets)).after.stream.touches
          = line.stream.touches ++ touches ∧
        (Line.deal line now (.send octets)).Accounted touches := by
  obtain ⟨touches, htouches, hdelivers⟩ := Watched.delivers_deliver line.stream octets
  refine ⟨touches, ?_⟩
  rcases hdeliver : deliver line.stream octets with ⟨stream, fault | ⟨⟨⟩⟩⟩
  · have hsend : Line.send line now octets
        = ({ line with stream := stream }, ⟨now, .error (.fault fault)⟩) := by
      simp only [Line.send, send]
      rw [if_pos hopen, hdeliver]
    rw [hdeliver] at htouches hdelivers
    rw [Line.deal_send hsend]
    exact ⟨htouches, .unsent hopen rfl hdelivers rfl rfl⟩
  · have hsend : Line.send line now octets
        = ({ line with stream := stream }, ⟨now + line.sendDelay.ticks, .ok ()⟩) := by
      simp only [Line.send, send]
      rw [if_pos hopen, hdeliver]
    rw [hdeliver] at htouches hdelivers
    rw [Line.deal_send hsend]
    exact ⟨htouches, .sent hopen rfl hdelivers rfl rfl⟩

theorem exists_receive (hopen : line.isOpen = true) (now most : Nat) :
    ∃ stream answer, Line.receive line now most = ({ line with stream := stream }, answer) ∧
      stream.touches = line.stream.touches ++ [.read] := by
  have htouches := Watched.touches_read line.stream now (max most 1)
    (line.readTimeout.map (now + ·.ticks))
  rw [receive_eq hopen]
  generalize ByteStream.read line.stream now (max most 1)
    (line.readTimeout.map (now + ·.ticks)) = read at htouches ⊢
  obtain ⟨stream, _ | answer⟩ := read
  · exact ⟨stream, _, rfl, htouches⟩
  · exact ⟨stream, _, rfl, htouches⟩

theorem exists_close (hopen : line.isOpen = true) :
    ∃ stream result,
      Line.close line
        = ({ line with stream := stream, isOpen := false },
          shutdownEntries line.name result) ∧
      stream.touches = line.stream.touches ++ [.shutdown result] := by
  have htouches := Watched.touches_shutdown line.stream
  simp only [Line.close, close]
  rw [if_pos hopen]
  generalize ByteStream.shutdown line.stream = ended at htouches ⊢
  obtain ⟨stream, fault | ⟨⟨⟩⟩⟩ := ended
  · exact ⟨stream, .error fault, rfl, htouches⟩
  · exact ⟨stream, .ok (), rfl, htouches⟩

/-- A closed line answers without its stream. -/
theorem accounted_closed (hclosed : line.isOpen = false) (now : Nat) (errand : Errand) :
    (Line.deal line now errand).after = line ∧
      (Line.deal line now errand).Accounted [] := by
  have hnot : ¬ line.isOpen = true := by simp [hclosed]
  cases errand with
  | send octets =>
    have hsend : Line.send line now octets = (line, ⟨now, .error .closed⟩) := if_neg hnot
    rw [Line.deal_send hsend]
    exact ⟨rfl, .refused hclosed (.inl ⟨octets, rfl⟩) rfl rfl rfl rfl⟩
  | receive most =>
    rw [Line.deal_receive (receive_of_not_isOpen hnot now most)]
    exact ⟨rfl, .refused hclosed (.inr (.inl ⟨most, rfl⟩)) rfl rfl rfl rfl⟩
  | close =>
    have hclose : Line.close line = (line, []) := if_neg hnot
    rw [Line.deal_close hclose]
    exact ⟨rfl, .refused hclosed (.inr (.inr rfl)) rfl rfl rfl rfl⟩

theorem exists_accounted_deal (line : StreamLine (Watched β)) (now : Nat) (errand : Errand) :
    ∃ touches,
      (Line.deal line now errand).after.stream.touches = line.stream.touches ++ touches ∧
        (Line.deal line now errand).Accounted touches := by
  cases hopen : line.isOpen with
  | false =>
    obtain ⟨hafter, haccounted⟩ := accounted_closed hopen now errand
    refine ⟨[], ?_, haccounted⟩
    rw [hafter, List.append_nil]
  | true =>
    cases errand with
    | send octets => exact accounted_send hopen now octets
    | receive most =>
      obtain ⟨stream, answer, hreceive, htouches⟩ := exists_receive hopen now most
      rw [Line.deal_receive hreceive]
      exact ⟨[.read], htouches, .received hopen rfl rfl rfl⟩
    | close =>
      obtain ⟨stream, result, hclose, htouches⟩ := exists_close hopen
      rw [Line.deal_close hclose]
      exact ⟨[.shutdown result], htouches, .closed hopen rfl rfl rfl rfl⟩

end StreamLine

theorem Stood.deal {line : StreamLine β} {made : List (Dealing (StreamLine (Watched β)))}
    {present : StreamLine (Watched β)} (h : Stood line made present) (now : Nat) (errand : Errand) :
    Stood line (made ++ [Line.deal present now errand])
      (Line.deal present now errand).after := by
  have hbefore := Line.before_deal present now errand
  obtain ⟨touches, htouches, haccounted⟩ :=
    StreamLine.exists_accounted_deal present now errand
  generalize Line.deal present now errand = d at hbefore htouches haccounted ⊢
  subst hbefore
  obtain rfl := Dealing.touches_eq htouches
  constructor
  case sendDelay => rw [haccounted.sendDelay_after, h.sendDelay]
  case isOpen => rw [haccounted.isOpen_after, h.isOpen, List.any_append]; simp
  case touches => rw [htouches, h.touches, List.flatMap_append, List.flatMap_singleton]
  case received =>
    rw [htouches, Touch.received_append, h.received, haccounted.received_touches,
      List.flatMap_append, List.flatMap_singleton]
  case shutdowns =>
    rw [htouches, List.countP_append, h.shutdowns, haccounted.shutdowns_touches, h.isOpen,
      List.any_append, List.any_cons, List.any_nil, Bool.or_false]
    cases made.any (·.call.isClose) with
    | true => rfl
    | false => simp

namespace StreamLine

/-- **A line accounts for every octet it puts on its stream.**  The calls are made in any
order, at any times, and the stream may fail at any of them.  After each of them the stream has
received all octets of the sends that have succeeded, and of each that has failed a first part,
in the order of the calls; after a send that succeeds nothing waits for a flush.  The stream is
shut down by the first close and by no other call.  To watch the stream changes no answer. -/
theorem accounts_for_dealings {line : StreamLine β} (hopen : line.isOpen = true)
    (errands : List (Nat × Errand)) :
    (Line.dealings line.watch errands).map (Dealing.map unwatch) = Line.dealings line errands ∧
    ∀ earlier d later, Line.dealings line.watch errands = earlier ++ d :: later →
      Stood line earlier d.before ∧ d.Accounted d.touches ∧ Stood line (earlier ++ [d]) d.after ∧
      (∀ octets, d.call = .send octets (.ok ()) →
        Touch.unflushed d.after.stream.touches = []) ∧
      ∀ octets loss, d.call = .send octets (.error loss) → d.put <+: octets := by
  refine ⟨Line.dealings_unwrap wraps_unwatch line.watch errands, ?_⟩
  intro earlier d later hsplit
  have hstood : Stood line ([] ++ earlier) d.before ∧
      ∃ now errand, d = Line.deal d.before now errand :=
    Line.dealings_induction (fun now errand h => h.deal now errand) (Stood.watch hopen) hsplit
  obtain ⟨hbefore, now, errand, hd⟩ := hstood
  rw [List.nil_append] at hbefore
  obtain ⟨touches, htouches, haccounted⟩ := exists_accounted_deal d.before now errand
  have hafter := hbefore.deal now errand
  rw [← hd] at htouches haccounted hafter
  obtain rfl := Dealing.touches_eq htouches
  refine ⟨hbefore, haccounted, hafter, ?_, ?_⟩
  · intro octets hcall
    rw [htouches]
    exact haccounted.unflushed hcall _
  · intro octets loss hcall
    exact haccounted.put_prefix hcall

/-- A line over a stream that takes two octets at a time and fails after five, and that cannot
be shut down. -/
def dripping : StreamLine Scripted :=
  ⟨{ Scripted.ofEvents [] with
      writeRoom := some 2
      writeFault := some (5, Fault.ofKind .connectionReset)
      shutdownFault := some (Fault.ofKind .brokenPipe) },
    true, "dripping", Duration.ofMillis 10, none⟩

def outgoing : List (Nat × Errand) :=
  [(0, .send [1, 2, 3]), (10, .send [4, 5, 6]), (10, .receive 8), (11, .close),
    (12, .send [7]), (13, .close)]

theorem accounts_for_dealings_dripping :
    dripping.isOpen = true ∧
    ∃ earlier d, Line.dealings dripping.watch outgoing = earlier ++ [d] ∧
      earlier.map Dealing.put = [[1, 2, 3], [4, 5], [], [], []] ∧
      d.after.isOpen = false ∧
      Touch.received d.after.stream.touches = [1, 2, 3, 4, 5] ∧
      d.after.stream.touches.countP Touch.isShutdown = 1 := by
  obtain ⟨-, hcalls⟩ := @accounts_for_dealings Scripted _ dripping rfl outgoing
  obtain ⟨-, -, hafter, -⟩ := hcalls [_, _, _, _, _] _ [] rfl
  refine ⟨rfl, [_, _, _, _, _], _, rfl, ?_, ?_, ?_, ?_⟩
  · decide +kernel
  · rw [hafter.isOpen]
    decide +kernel
  · rw [hafter.received]
    decide +kernel
  · rw [hafter.shutdowns]
    decide +kernel

end StreamLine

end TerminalHost
