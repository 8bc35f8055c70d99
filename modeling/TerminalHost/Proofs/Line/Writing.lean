import TerminalHost.Line.Scripted

/-!
# Sends over a scripted stream

However few octets a write takes, a send puts all its octets on the stream and makes
one chunk of them.  On a stream that refuses every write after so many octets, a send
that reaches this limit leaves exactly the octets below it.  Whatever faults a stream has,
a send adds a first part of its octets to what the stream has taken.
-/

namespace TerminalHost

namespace Scripted

/-- Every octet the stream has taken, flushed or not. -/
def accepted (stream : Scripted) : Bytes := stream.chunks.flatten ++ stream.unflushed

/-- The stream takes something of every write and lets every flush pass, as long as its
writes do not fail for good. -/
structure Sound (stream : Scripted) : Prop where
  room : stream.writeRoom ≠ some 0
  flushes : stream.flushFault = none

/-- The stream can take so many octets more before its writes fail for good. -/
def Takes (stream : Scripted) (count : Nat) : Prop :=
  ∀ {limit : Nat} {fault : Fault}, stream.writeFault = some (limit, fault) →
    stream.written + count ≤ limit

theorem takes_of_none {stream : Scripted} (h : stream.writeFault = none) (count : Nat) :
    stream.Takes count := by
  intro limit fault hfault
  simp [h] at hfault

theorem Takes.mono {stream : Scripted} {few many : Nat} (h : stream.Takes many)
    (hle : few ≤ many) : stream.Takes few := by
  intro limit fault hfault
  have hmany := h hfault
  omega

@[simp] theorem accept_nil (stream : Scripted) : stream.accept [] = stream := rfl

theorem accept_accept (stream : Scripted) (left right : Bytes) :
    (stream.accept left).accept right = stream.accept (left ++ right) := by
  simp [accept, Nat.add_assoc]

@[simp] theorem accepted_accept (stream : Scripted) (octets : Bytes) :
    (stream.accept octets).accepted = stream.accepted ++ octets := by
  simp [accepted, accept, chunks, unflushed]

theorem Sound.accept {stream : Scripted} (h : stream.Sound) (octets : Bytes) :
    (stream.accept octets).Sound := ⟨h.room, h.flushes⟩

theorem Takes.accept {stream : Scripted} {octets : Bytes} {count : Nat}
    (h : stream.Takes (octets.length + count)) : (stream.accept octets).Takes count := by
  intro limit fault hfault
  have htotal := h hfault
  simp only [Scripted.accept]
  omega

def offered (stream : Scripted) (octets : Bytes) : Bytes :=
  match stream.writeRoom with
  | some room => octets.take room
  | none => octets

theorem exists_offered {stream : Scripted} (hsound : stream.Sound) {octets : Bytes}
    (hne : octets ≠ []) :
    ∃ count, 0 < count ∧ count ≤ octets.length ∧
      stream.offered octets = octets.take count := by
  have hlength : 0 < octets.length := List.length_pos_iff.mpr hne
  unfold offered
  cases hroom : stream.writeRoom with
  | none => exact ⟨octets.length, hlength, Nat.le_refl _, by simp⟩
  | some room =>
    have hpos : room ≠ 0 := fun hzero => hsound.room (by rw [hroom, hzero])
    refine ⟨min room octets.length, by omega, Nat.min_le_right _ _, ?_⟩
    simp [List.take_eq_take_iff]

theorem write_of_none {stream : Scripted} (hfault : stream.writeFault = none)
    (octets : Bytes) :
    stream.write octets
      = (stream.accept (stream.offered octets), .ok (stream.offered octets).length) := by
  simp only [write, hfault]
  rfl

theorem write_of_some {stream : Scripted} {limit : Nat} {fault : Fault}
    (hfault : stream.writeFault = some (limit, fault)) (hlt : stream.written < limit)
    (octets : Bytes) :
    stream.write octets
      = (stream.accept ((stream.offered octets).take (limit - stream.written)),
        .ok ((stream.offered octets).take (limit - stream.written)).length) := by
  have hopen : ¬ limit ≤ stream.written := by omega
  simp only [write, hfault, if_neg hopen]
  rfl

/-- A write that does not fail takes at least one octet. -/
theorem exists_write {stream : Scripted} (hsound : stream.Sound) (htakes : stream.Takes 1)
    {octets : Bytes} (hne : octets ≠ []) :
    ∃ taken, 0 < taken ∧ taken ≤ octets.length ∧ stream.Takes taken ∧
      stream.write octets = (stream.accept (octets.take taken), .ok taken) := by
  obtain ⟨count, hpos, hle, hoffered⟩ := exists_offered hsound hne
  cases hfault : stream.writeFault with
  | none =>
    refine ⟨count, hpos, hle, takes_of_none hfault count, ?_⟩
    rw [write_of_none hfault, hoffered, List.length_take, Nat.min_eq_left hle]
  | some limited =>
    obtain ⟨limit, fault⟩ := limited
    have hbelow : stream.written + 1 ≤ limit := htakes hfault
    refine ⟨min (limit - stream.written) count, by omega, by omega, ?_, ?_⟩
    · intro limit' fault' hfault'
      simp only [hfault, Option.some.injEq, Prod.mk.injEq] at hfault'
      omega
    · have hcount : min (min (limit - stream.written) count) octets.length
          = min (limit - stream.written) count := by omega
      rw [write_of_some hfault (by omega), hoffered, List.take_take, List.length_take,
        hcount]

theorem write_of_limit {stream : Scripted} {limit : Nat} {fault : Fault}
    (hfault : stream.writeFault = some (limit, fault)) (hle : limit ≤ stream.written)
    (octets : Bytes) : stream.write octets = (stream, .error fault) := by
  simp only [write, hfault, if_pos hle]

theorem writeWithin_all (fuel : Nat) {stream : Scripted} (hsound : stream.Sound)
    {octets : Bytes} (htakes : stream.Takes octets.length) (hfuel : octets.length ≤ fuel) :
    writeWithin fuel stream octets = (stream.accept octets, .ok ()) := by
  induction fuel generalizing stream octets with
  | zero =>
    have hnil : octets = [] := List.length_eq_zero_iff.mp (by omega)
    subst hnil
    rfl
  | succ fuel ih =>
    cases octets with
    | nil => rfl
    | cons octet rest =>
      obtain ⟨taken, hpos, hle, -, hwrite⟩ :=
        exists_write hsound (htakes.mono (by simp)) (List.cons_ne_nil octet rest)
      obtain ⟨taken, rfl⟩ := Nat.exists_eq_succ_of_ne_zero (Nat.ne_of_gt hpos)
      simp only [List.length_cons] at hle hfuel
      have hsplit : octet :: rest = (octet :: rest).take (taken + 1) ++ rest.drop taken :=
        (List.take_append_drop (taken + 1) (octet :: rest)).symm
      have hrest : (stream.accept ((octet :: rest).take (taken + 1))).Takes
          (rest.drop taken).length := by
        apply Takes.accept
        rwa [← List.length_append, ← hsplit]
      have hnext := ih (hsound.accept _) hrest (by simp; omega)
      rw [accept_accept, ← hsplit] at hnext
      have hbyte : ByteStream.write stream (octet :: rest)
          = (stream.accept ((octet :: rest).take (taken + 1)), .ok (taken + 1)) := hwrite
      rw [writeWithin, hbyte]
      exact hnext

/-- Where the limit of a stream lies within some octets, exactly those below it get
through. -/
theorem writeWithin_part (fuel : Nat) {stream : Scripted} (hsound : stream.Sound)
    {limit : Nat} {fault : Fault} (hfault : stream.writeFault = some (limit, fault))
    (hle : stream.written ≤ limit) {octets : Bytes}
    (hlt : limit < stream.written + octets.length) (hfuel : octets.length ≤ fuel) :
    writeWithin fuel stream octets
      = (stream.accept (octets.take (limit - stream.written)), .error fault) := by
  induction fuel generalizing stream octets with
  | zero => omega
  | succ fuel ih =>
    cases octets with
    | nil =>
      simp only [List.length_nil] at hlt
      omega
    | cons octet rest =>
      by_cases hspent : limit ≤ stream.written
      · have hbyte : ByteStream.write stream (octet :: rest) = (stream, .error fault) :=
          write_of_limit hfault hspent _
        have hzero : limit - stream.written = 0 := by omega
        rw [writeWithin, hbyte, hzero]
        rfl
      · have hone : stream.Takes 1 := by
          intro limit' fault' hfault'
          simp only [hfault, Option.some.injEq, Prod.mk.injEq] at hfault'
          omega
        obtain ⟨taken, hpos, htaken, htakes, hwrite⟩ :=
          exists_write hsound hone (List.cons_ne_nil octet rest)
        have hbelow : stream.written + taken ≤ limit := htakes hfault
        obtain ⟨taken, rfl⟩ := Nat.exists_eq_succ_of_ne_zero (Nat.ne_of_gt hpos)
        simp only [List.length_cons] at htaken hlt hfuel
        have hsplit : octet :: rest
            = (octet :: rest).take (taken + 1) ++ rest.drop taken :=
          (List.take_append_drop (taken + 1) (octet :: rest)).symm
        have hcount : (stream.accept ((octet :: rest).take (taken + 1))).written
            = stream.written + (taken + 1) := by
          simp [Scripted.accept]
          omega
        have hlast : limit - stream.written
            = (taken + 1) + (limit - (stream.written + (taken + 1))) := by omega
        have htake : (octet :: rest).take (limit - stream.written)
            = (octet :: rest).take (taken + 1)
              ++ (rest.drop taken).take (limit - (stream.written + (taken + 1))) := by
          rw [hlast]
          exact List.take_add
        have hafter : limit < stream.written + (taken + 1) + (rest.drop taken).length := by
          rw [List.length_drop]
          omega
        have hnext := ih (hsound.accept ((octet :: rest).take (taken + 1))) hfault
          (by omega) (hcount ▸ hafter) (by rw [List.length_drop]; omega)
        have hbyte : ByteStream.write stream (octet :: rest)
            = (stream.accept ((octet :: rest).take (taken + 1)), .ok (taken + 1)) := hwrite
        rw [writeWithin, hbyte]
        rw [accept_accept, hcount, ← htake] at hnext
        exact hnext

def sendOff (stream : Scripted) (octets : Bytes) : Scripted :=
  { stream with
    unflushedBackwards := []
    latest := (stream.unflushed ++ octets) :: stream.latest
    written := stream.written + octets.length }

theorem chunks_sendOff (stream : Scripted) (octets : Bytes) :
    (stream.sendOff octets).chunks = stream.chunks ++ [stream.unflushed ++ octets] := by
  simp [sendOff, chunks]

@[simp] theorem accepted_sendOff (stream : Scripted) (octets : Bytes) :
    (stream.sendOff octets).accepted = stream.accepted ++ octets := by
  rw [accepted, chunks_sendOff]
  simp [accepted, sendOff, unflushed]

theorem Sound.sendOff {stream : Scripted} (h : stream.Sound) (octets : Bytes) :
    (stream.sendOff octets).Sound := ⟨h.room, h.flushes⟩

theorem flush_accept {stream : Scripted} (hsound : stream.Sound) (octets : Bytes) :
    (stream.accept octets).flush = (stream.sendOff octets, .ok ()) := by
  simp [flush, Scripted.accept, hsound.flushes, Scripted.sendOff, unflushed]

theorem deliver_all {stream : Scripted} (hsound : stream.Sound) {octets : Bytes}
    (htakes : stream.Takes octets.length) :
    StreamLine.deliver stream octets = (stream.sendOff octets, .ok ()) := by
  have hwritten := writeWithin_all octets.length hsound htakes (Nat.le_refl _)
  rw [StreamLine.deliver, writeAll, hwritten]
  exact flush_accept hsound octets

theorem deliver_part {stream : Scripted} (hsound : stream.Sound) {limit : Nat}
    {fault : Fault} (hfault : stream.writeFault = some (limit, fault))
    (hle : stream.written ≤ limit) {octets : Bytes}
    (hlt : limit < stream.written + octets.length) :
    StreamLine.deliver stream octets
      = (stream.accept (octets.take (limit - stream.written)), .error fault) := by
  have hwritten := writeWithin_part octets.length hsound hfault hle hlt (Nat.le_refl _)
  rw [StreamLine.deliver, writeAll, hwritten]

/-! ## Whatever becomes of a send -/

theorem exists_offered_eq_take (stream : Scripted) (octets : Bytes) :
    ∃ count, count ≤ octets.length ∧ stream.offered octets = octets.take count := by
  unfold offered
  cases stream.writeRoom with
  | none => exact ⟨octets.length, Nat.le_refl _, by simp⟩
  | some room =>
    refine ⟨min room octets.length, Nat.min_le_right _ _, ?_⟩
    simp [List.take_eq_take_iff]

theorem write_cases (stream : Scripted) (octets : Bytes) :
    (∃ taken, stream.write octets = (stream.accept (octets.take taken), .ok taken)) ∨
      ∃ fault, stream.write octets = (stream, .error fault) := by
  obtain ⟨count, hle, hoffered⟩ := exists_offered_eq_take stream octets
  cases hfault : stream.writeFault with
  | none =>
    refine .inl ⟨count, ?_⟩
    rw [write_of_none hfault, hoffered, List.length_take, Nat.min_eq_left hle]
  | some limited =>
    obtain ⟨limit, fault⟩ := limited
    by_cases hspent : limit ≤ stream.written
    · exact .inr ⟨fault, write_of_limit hfault hspent octets⟩
    · refine .inl ⟨min (limit - stream.written) count, ?_⟩
      have hcount : min (min (limit - stream.written) count) octets.length
          = min (limit - stream.written) count := by omega
      rw [write_of_some hfault (by omega), hoffered, List.take_take, List.length_take, hcount]

theorem exists_accept_writeWithin (fuel : Nat) (stream : Scripted) (octets : Bytes) :
    ∃ taken, taken <+: octets ∧
      (writeWithin fuel stream octets).1 = stream.accept taken := by
  induction fuel generalizing stream octets with
  | zero => cases octets <;> exact ⟨[], List.nil_prefix, rfl⟩
  | succ fuel ih =>
    cases octets with
    | nil => exact ⟨[], List.nil_prefix, rfl⟩
    | cons octet rest =>
      have hbyte : ByteStream.write stream (octet :: rest) = stream.write (octet :: rest) := rfl
      rw [writeWithin, hbyte]
      rcases write_cases stream (octet :: rest) with ⟨_ | taken, hwrite⟩ | ⟨fault, hwrite⟩
      · rw [hwrite]
        exact ⟨[], List.nil_prefix, rfl⟩
      · rw [hwrite]
        obtain ⟨later, hlater, hnext⟩ :=
          ih (stream.accept ((octet :: rest).take (taken + 1))) (rest.drop taken)
        refine ⟨(octet :: rest).take (taken + 1) ++ later, ?_, ?_⟩
        · have hsplit : (octet :: rest).take (taken + 1) ++ rest.drop taken = octet :: rest :=
            List.take_append_drop (taken + 1) (octet :: rest)
          have hprefix :=
            (List.prefix_append_right_inj ((octet :: rest).take (taken + 1))).mpr hlater
          rwa [hsplit] at hprefix
        · rw [← accept_accept]
          exact hnext
      · rw [hwrite]
        exact ⟨[], List.nil_prefix, rfl⟩

/-- A delivery adds a first part of the octets to those the stream has taken.  What there
is to read, and how often the stream was shut down, it leaves as it is. -/
theorem exists_accepted_deliver (stream : Scripted) (octets : Bytes) :
    ∃ taken, taken <+: octets ∧
      (StreamLine.deliver stream octets).1.accepted = stream.accepted ++ taken ∧
      (StreamLine.deliver stream octets).1.events = stream.events ∧
      (StreamLine.deliver stream octets).1.staysOpen = stream.staysOpen ∧
      (StreamLine.deliver stream octets).1.shutdowns = stream.shutdowns := by
  obtain ⟨taken, hprefix, hwritten⟩ := exists_accept_writeWithin octets.length stream octets
  refine ⟨taken, hprefix, ?_⟩
  rw [StreamLine.deliver, writeAll]
  rcases hall : writeWithin octets.length stream octets with ⟨next, _ | _⟩
  · rw [hall] at hwritten
    simp only at hwritten
    rw [hwritten]
    exact ⟨accepted_accept stream taken, rfl, rfl, rfl⟩
  · rw [hall] at hwritten
    simp only at hwritten
    rw [hwritten]
    have hflush : (ByteStream.flush (stream.accept taken)).1.accepted
          = (stream.accept taken).accepted ∧
        (ByteStream.flush (stream.accept taken)).1.events = stream.events ∧
        (ByteStream.flush (stream.accept taken)).1.staysOpen = stream.staysOpen ∧
        (ByteStream.flush (stream.accept taken)).1.shutdowns = stream.shutdowns := by
      simp only [ByteStream.flush, flush]
      split
      · exact ⟨rfl, rfl, rfl, rfl⟩
      · refine ⟨?_, rfl, rfl, rfl⟩
        simp [accepted, chunks, unflushed]
    rwa [accepted_accept] at hflush

end Scripted

namespace StreamLine

theorem send_all {line : StreamLine Scripted} (hopen : line.isOpen = true)
    (hsound : line.stream.Sound) {octets : Bytes}
    (htakes : line.stream.Takes octets.length) (now : Nat) :
    line.send now octets
      = ({ line with stream := line.stream.sendOff octets },
        ⟨now + line.sendDelay.ticks, .ok ()⟩) := by
  simp only [send, hopen, if_true, Scripted.deliver_all hsound htakes]

theorem send_part {line : StreamLine Scripted} (hopen : line.isOpen = true)
    (hsound : line.stream.Sound) {limit : Nat} {fault : Fault}
    (hfault : line.stream.writeFault = some (limit, fault))
    (hle : line.stream.written ≤ limit) {octets : Bytes}
    (hlt : limit < line.stream.written + octets.length) (now : Nat) :
    line.send now octets
      = ({ line with
            stream := line.stream.accept (octets.take (limit - line.stream.written)) },
        ⟨now, .error (.fault fault)⟩) := by
  simp only [send, hopen, if_true, Scripted.deliver_part hsound hfault hle hlt]

/-- What a send does to the stream of a line, whatever becomes of it. -/
theorem exists_accepted_send (line : StreamLine Scripted) (now : Nat) (octets : Bytes) :
    ∃ taken, taken <+: octets ∧
      (Line.send line now octets).1.stream.accepted = line.stream.accepted ++ taken ∧
      (Line.send line now octets).1.stream.events = line.stream.events ∧
      (Line.send line now octets).1.stream.staysOpen = line.stream.staysOpen ∧
      (Line.send line now octets).1.stream.shutdowns = line.stream.shutdowns := by
  by_cases hopen : line.isOpen = true
  · obtain ⟨taken, hprefix, hdelivered⟩ :=
      Scripted.exists_accepted_deliver line.stream octets
    refine ⟨taken, hprefix, ?_⟩
    simp only [Line.send, send, hopen, if_true]
    rcases hdeliver : deliver line.stream octets with ⟨next, _ | _⟩
    · rwa [hdeliver] at hdelivered
    · rwa [hdeliver] at hdelivered
  · refine ⟨[], List.nil_prefix, ?_⟩
    have hsend : Line.send line now octets = (line, ⟨now, .error .closed⟩) := if_neg hopen
    rw [hsend, List.append_nil]
    exact ⟨rfl, rfl, rfl, rfl⟩

/-! ## The close -/

theorem close_eq (line : StreamLine Scripted) :
    (Line.close line).1
      = if line.isOpen then
          { line with
            stream := { line.stream with shutdowns := line.stream.shutdowns + 1 }
            isOpen := false }
        else line := by
  simp only [Line.close, close, ByteStream.shutdown, Scripted.shutdown]
  cases line.stream.shutdownFault with
  | none => split <;> rfl
  | some fault => split <;> rfl

theorem accepted_close (line : StreamLine Scripted) :
    (Line.close line).1.stream.accepted = line.stream.accepted := by
  rw [close_eq]
  split <;> rfl

end StreamLine

end TerminalHost
