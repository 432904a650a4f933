import Porous.DatenMeister.Endpoint

/-!
# The frame window and the assertions of `DataFrameEmitter`

`DataFrameEmitter` checks four things with `debug_assert!`
(`src/endpoint/daten_meister/emit_frame.rs`): `push_initial` is entered with no frame in
progress (line 55), a datagram fits alone in a frame (line 67), and a fresh builder is as
large as computed (line 78); `flush` registers a frame only while the frame queue has
room (line 128).  The model follows a release build, where they are not evaluated:
`pushAsserts` and `flushAsserts` say what a `push` and a `flush` would check, following
their branches.

Line 128 is the interesting one.  The room `push_initial` saw when it opened the frame
has to last until the frame is flushed, which may be after more datagrams, a
`MAX_FRAME_SIZE` split, a `SizeLimited` return, or the end of the call.  It lasts because
nothing but `flush` registers frames, and between calls the frame queue only frees
slots: `Windowed`, kept by every step of `DataFrameEmitter`, every turn and every input.
`window_safe` is the result over every reachable state of the endpoint.
-/

namespace Porous
namespace DatenMeister

namespace DataFrameEmitter

variable (w : Wire) (random : Nat → Bool)

/-- What `flush` asserts, line 128: a frame in progress is registered while the frame
queue has room. -/
def flushAsserts (dfe : DataFrameEmitter) : Bool :=
  dfe.inProgressFrame.isNone || dfe.frameQueue.canPush

/-- What `push_initial` asserts on its way, lines 55, 67 and 78: no frame is in progress;
past the window check the datagram fits alone in a frame; and past the budget check the
builder holding it is as large as computed. -/
def pushInitialAsserts (dfe : DataFrameEmitter) (p : PendingPacket) (fragmentId : Nat) : Bool :=
  let datagram := p.datagram fragmentId
  let potentialFrameSize := w.dataFrameOverhead + w.encodedSize datagram
  let frameId := dfe.frameQueue.nextId
  dfe.inProgressFrame.isNone &&
    (!dfe.frameQueue.canPush ||
      decide (potentialFrameSize ≤ w.maxFrameSize) &&
        (decide (potentialFrameSize > dfe.bytesRemaining) ||
          decide (((DataFrameBuilder.new frameId (random frameId)).add datagram).size w =
            potentialFrameSize)))

/-- What a `push` asserts: those of the `flush` and of the `push_initial` it calls. -/
def pushAsserts (dfe : DataFrameEmitter) (p : PendingPacket) (fragmentId : Nat) : Bool :=
  match dfe.inProgressFrame with
  | some nextFrame =>
    let potentialFrameSize := nextFrame.fbuilder.size w + w.encodedSize (p.datagram fragmentId)
    if potentialFrameSize > w.maxFrameSize then
      flushAsserts dfe && pushInitialAsserts w random (flush w dfe) p fragmentId
    else if potentialFrameSize > dfe.bytesRemaining then flushAsserts dfe
    else true
  | none => pushInitialAsserts w random dfe p fragmentId

variable {w random}

theorem pushInitialAsserts_of_idle {dfe : DataFrameEmitter} {p : PendingPacket} {i : Nat}
    (h : dfe.inProgressFrame = none)
    (hfit : w.dataFrameOverhead + w.encodedSize (p.datagram i) ≤ w.maxFrameSize) :
    pushInitialAsserts w random dfe p i := by
  simp [pushInitialAsserts, h, hfit, DataFrameBuilder.size, DataFrameBuilder.add,
    DataFrameBuilder.new, Wire.frameSize_singleton]

/-- **Every `push` passes its assertions** when the frame in progress, if any, was opened
with room in the window and the datagram fits alone in a frame. -/
theorem pushAsserts_of_flushAsserts {dfe : DataFrameEmitter} {p : PendingPacket} {i : Nat}
    (h : flushAsserts dfe)
    (hfit : w.dataFrameOverhead + w.encodedSize (p.datagram i) ≤ w.maxFrameSize) :
    pushAsserts w random dfe p i := by
  unfold pushAsserts
  split
  · dsimp only
    split_ifs
    · simp [h, pushInitialAsserts_of_idle (flush_inProgressFrame w dfe) hfit]
    · exact h
    · rfl
  · exact pushInitialAsserts_of_idle ‹_› hfit

/-- The frame queue holds no more frames than its window admits, and a frame in progress
was opened while the window had room. -/
structure Windowed (dfe : DataFrameEmitter) : Prop where
  window : dfe.frameQueue.entries.length ≤ dfe.frameQueue.windowSize
  room : flushAsserts dfe

variable (w random)

theorem Windowed.markRateLimited {dfe : DataFrameEmitter} (h : Windowed dfe) :
    Windowed (markRateLimited dfe) :=
  ⟨h.window, h.room⟩

/-- `flush` registers the frame in progress while there is room for it. -/
theorem Windowed.flush {dfe : DataFrameEmitter} (h : Windowed dfe) : Windowed (flush w dfe) := by
  have hw := h.window
  have hr := h.room
  unfold DataFrameEmitter.flush
  split
  · exact h
  · rename_i f hf
    simp only [flushAsserts, hf, Option.isNone_some, Bool.false_or, FrameQueue.canPush,
      decide_eq_true_eq] at hr
    exact ⟨by simp [FrameQueue.push]; omega, by simp [flushAsserts]⟩

/-- `push_initial` opens a frame only past the window check. -/
theorem Windowed.pushInitial {dfe : DataFrameEmitter} (h : Windowed dfe) (p : PendingPacket)
    (i : Nat) (pers : Bool) : Windowed (pushInitial w random dfe p i pers).1 := by
  unfold DataFrameEmitter.pushInitial
  split
  · exact h
  · rename_i hc
    dsimp only
    split
    · exact h.markRateLimited
    · exact ⟨h.window, by simpa [flushAsserts] using hc⟩

/-- **`push` keeps the window**: it adds to the frame in progress, or flushes it and opens
the next one past the window check, or flushes it and fails. -/
theorem Windowed.push {dfe : DataFrameEmitter} (h : Windowed dfe) (p : PendingPacket) (i : Nat)
    (pers : Bool) : Windowed (push w random dfe p i pers).1 := by
  unfold DataFrameEmitter.push
  split
  · rename_i f hf
    dsimp only
    split_ifs
    · exact (h.flush w).pushInitial w random p i pers
    · exact (h.flush w).markRateLimited
    all_goals exact ⟨h.window, by simpa [flushAsserts, hf] using h.room⟩
  · exact h.pushInitial w random p i pers

end DataFrameEmitter

open DataFrameEmitter

variable (w : Wire) (random : Nat → Bool)

/-- One turn of `emit_data_frames` keeps the window: it pushes, flushes, or leaves the
data frame emitter alone. -/
theorem windowed_step (nowMs rttMs flushId : Nat) (l : Loop) {e : Emit} (h : Windowed e.dfe) :
    Windowed (step w random nowMs rttMs flushId l e).2.dfe := by
  rcases step_dfe w random nowMs rttMs flushId l e with
    ⟨hd, -⟩ | ⟨c, -, hc, -⟩ | ⟨c, err, -, hc, -⟩ | ⟨hd, -⟩
  · rw [hd]; exact h
  · have := h.push w random c.packet c.fragmentId c.persistent
    rwa [hc] at this
  · have := h.push w random c.packet c.fragmentId c.persistent
    rwa [hc] at this
  · rw [hd]; exact h.flush w

namespace Endpoint

/-- Between calls the frame queue only frees slots, and a call starts with no frame in
progress. -/
theorem windowed_input {s : Endpoint} (h : Windowed s.emit.dfe) (i : Input) :
    Windowed (s.input i).emit.dfe := by
  cases i with
  | enqueue q => exact h
  | advance b => exact h
  | frameAcked id | frameDropped id =>
    have hl := List.length_filter_le (fun x : FrameEntry => decide (x.frameId ≠ id))
      s.emit.dfe.frameQueue.entries
    have hw := h.window
    have hr := h.room
    simp only [flushAsserts, Bool.or_eq_true, Option.isNone_iff_eq_none, FrameQueue.canPush,
      decide_eq_true_eq] at hr
    refine ⟨by simp only [input, FrameQueue.release]; omega, ?_⟩
    simp only [input, flushAsserts, FrameQueue.release, FrameQueue.canPush, Bool.or_eq_true,
      Option.isNone_iff_eq_none, decide_eq_true_eq]
    exact hr.imp_right fun hr => by omega
  | flush c => exact ⟨h.window, by simp [input, flushAsserts, DataFrameEmitter.new]⟩

/-- Every reachable endpoint keeps the window. -/
theorem windowed_reachable {s : Endpoint} (hs : Reachable w random s) : Windowed s.emit.dfe := by
  induction hs with
  | init => exact ⟨by simp [init, DataFrameEmitter.new], by simp [init, flushAsserts, DataFrameEmitter.new]⟩
  | input i _ _ ih => exact windowed_input ih i
  | turn _ _ ih => exact windowed_step w random _ _ _ _ ih

/-- **The frame window and the assertions of `DataFrameEmitter`.**  In every reachable
state of the endpoint, when every fragment the packet sender cuts fits alone in a frame:
the frame queue holds no more frames than its window admits; a `flush` finds room for
the frame it registers (line 128); and a `push` of any fragment of any live packet passes
all its assertions, those of the `push_initial` and the `flush` it calls included (lines
55, 67, 78 and 128).  Every turn pushes a fragment of a live packet, flushes, or leaves
the data frame emitter alone (`step_dfe`), so no turn of any call fails an assertion. -/
theorem window_safe {s : Endpoint} (hs : Reachable w random s)
    (hfit : w.Fits s.emit.packetSender.maxFragmentSize) :
    s.emit.dfe.frameQueue.entries.length ≤ s.emit.dfe.frameQueue.windowSize ∧
      s.emit.dfe.flushAsserts ∧
      ∀ id p i, s.emit.packetSender.packet id = some p → s.emit.dfe.pushAsserts w random p i := by
  have h := windowed_reachable w random hs
  exact ⟨h.window, h.room, fun _ _ i hp =>
    pushAsserts_of_flushAsserts h.room (hfit _ (PacketSender.datagram_data_le hp i))⟩

/-- A frame window of one frame: a 3-byte packet queued for resending and admitted, its
fragment in the frame in progress, the window still empty. -/
def windowOfOne : Endpoint :=
  (turn tinyWire (fun _ => false))^[3]
    (((Endpoint.init 16 20 0 0 1).input (.enqueue ⟨[1, 2, 3], 0, 0, 0, .resend, 0⟩)).input
      (.flush ⟨0, 100, 10000, 0⟩))

theorem window_safe_windowOfOne :
    Reachable tinyWire (fun _ => false) windowOfOne ∧
      tinyWire.Fits windowOfOne.emit.packetSender.maxFragmentSize ∧
      windowOfOne.emit.packetSender.packet 0 =
        some (QueuedPacket.toPendingPacket 20 0 ⟨[1, 2, 3], 0, 0, 0, .resend, 0⟩) ∧
      windowOfOne.emit.dfe.frameQueue.entries.length ≤ windowOfOne.emit.dfe.frameQueue.windowSize ∧
      windowOfOne.emit.dfe.flushAsserts ∧
      windowOfOne.emit.dfe.pushAsserts tinyWire (fun _ => false)
        (QueuedPacket.toPendingPacket 20 0 ⟨[1, 2, 3], 0, 0, 0, .resend, 0⟩) 0 :=
  have hs : Reachable tinyWire (fun _ => false) windowOfOne :=
    .turn (.turn (.turn (.input _ (.input _ (.init 16 20 0 0 1) rfl) rfl) (by decide)) (by decide))
      (by decide)
  have hp : windowOfOne.emit.packetSender.packet 0 =
      some (QueuedPacket.toPendingPacket 20 0 ⟨[1, 2, 3], 0, 0, 0, .resend, 0⟩) := by decide
  have hw := window_safe tinyWire (fun _ => false) hs tinyWire_fits
  ⟨hs, tinyWire_fits, hp, hw.1, hw.2.1, hw.2.2 0 _ 0 hp⟩

end Endpoint

end DatenMeister
end Porous
