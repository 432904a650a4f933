import Porous.DatenMeister.DataFrameEmitter

/-!
# What a `DataFrameEmitter` has packed, exactly

The state of a `DataFrameEmitter` after a run of successful `push` calls is a function of
the greedy first-fit chunking of those calls: the closed chunks are the frames the
callback has been handed and the frame queue has registered, one slot per frame and in
the same order, under consecutive frame IDs from the queue's `next_id`; the open chunk
is the in-progress frame; the budget has been charged for the closed chunks.
`push_packed` says what one `push` does to such a state, `pushAll_packed` lifts it over
any run, and `flush_packed` closes the open chunk.  A failing `push` leaves the open
chunk closed and handed over.
-/

namespace Porous
namespace DatenMeister

/-- One call `dfe.push(&packet_rc, fragment_id, persistent)`. -/
structure PushCall where
  packet : PendingPacket
  fragmentId : Nat
  persistent : Bool
deriving DecidableEq, Repr

namespace PushCall

/-- The datagram the call packs. -/
def datagram (c : PushCall) : Datagram := c.packet.datagram c.fragmentId

/-- The fragment reference the call records: one when `persistent`, none otherwise. -/
def refs (c : PushCall) : List FragmentRef :=
  if c.persistent then [c.packet.fragmentRef c.fragmentId] else []

end PushCall

section Greedy

variable (w : Wire)

/-- The byte length of the frame carrying the datagrams of `chunk`. -/
def chunkSize (chunk : List PushCall) : Nat := w.frameSize (chunk.map PushCall.datagram)

/-- First-fit packing, one call at a time: the closed chunks and the open one.  A call
opens a chunk when none is open, closes the open chunk and opens its own when it would
take that chunk past `MAX_FRAME_SIZE`, and joins it otherwise. -/
def firstFit (s : List (List PushCall) × List PushCall) (c : PushCall) :
    List (List PushCall) × List PushCall :=
  if s.2 = [] then (s.1, [c])
  else if chunkSize w s.2 + w.encodedSize c.datagram > w.maxFrameSize then (s.1 ++ [s.2], [c])
  else (s.1, s.2 ++ [c])

/-- The chunks once the open one is closed. -/
def closeAll (s : List (List PushCall) × List PushCall) : List (List PushCall) :=
  if s.2 = [] then s.1 else s.1 ++ [s.2]

/-- **The reference packer**: the greedy first-fit chunking of `calls`. -/
def greedyChunks (calls : List PushCall) : List (List PushCall) :=
  closeAll (calls.foldl (firstFit w) ([], []))

/-- The chunks fit in the budget `max`. -/
def Within (max : Nat) (s : List (List PushCall) × List PushCall) : Prop :=
  ((closeAll s).map (chunkSize w)).sum ≤ max

@[simp] theorem closeAll_nil (chunks : List (List PushCall)) : closeAll (chunks, []) = chunks := by
  simp [closeAll]

theorem closeAll_of_ne {s : List (List PushCall) × List PushCall} (h : s.2 ≠ []) :
    closeAll s = s.1 ++ [s.2] := if_neg h

end Greedy

section Packed

variable (w : Wire) (random : Nat → Bool)

/-- The frame built from `chunk` under frame ID `id`. -/
def frameOf (id : Nat) (chunk : List PushCall) : DataFrame :=
  ⟨id, random id, chunk.map PushCall.datagram⟩

/-- The frame-queue slot registered for that frame at time `now`. -/
def slotOf (now id : Nat) (chunk : List PushCall) : FrameEntry :=
  ⟨id, chunkSize w chunk, now, chunk.flatMap PushCall.refs, random id⟩

/-- The frames of consecutive chunks, from frame ID `id` on. -/
def framesFrom : Nat → List (List PushCall) → List DataFrame
  | _, [] => []
  | id, chunk :: chunks => frameOf random id chunk :: framesFrom (id + 1) chunks

/-- Their slots. -/
def slotsFrom (now : Nat) : Nat → List (List PushCall) → List FrameEntry
  | _, [] => []
  | id, chunk :: chunks => slotOf w random now id chunk :: slotsFrom now (id + 1) chunks

/-- The in-progress frame holding the open chunk, if there is one. -/
def openFrame (id : Nat) (chunk : List PushCall) : Option InProgressDataFrame :=
  if chunk = [] then none
  else some ⟨random id, ⟨id, random id, chunk.map PushCall.datagram⟩, chunk.flatMap PushCall.refs⟩

/-- The emitter `DataFrameEmitter::new(now, fq, max)` becomes once the chunks `s.1` have
been flushed and the chunk `s.2` is open. -/
def packed (now : Nat) (fq : FrameQueue) (max : Nat) (s : List (List PushCall) × List PushCall) :
    DataFrameEmitter where
  nowMs := now
  frameQueue :=
    { fq with
      nextId := fq.nextId + s.1.length
      entries := fq.entries ++ slotsFrom w random now fq.nextId s.1 }
  inProgressFrame := openFrame random (fq.nextId + s.1.length) s.2
  maxSendSize := max
  bytesRemaining := max - (s.1.map (chunkSize w)).sum
  emitted := framesFrom random fq.nextId s.1

theorem framesFrom_append_singleton (id : Nat) (chunks : List (List PushCall))
    (chunk : List PushCall) : framesFrom random id (chunks ++ [chunk]) =
      framesFrom random id chunks ++ [frameOf random (id + chunks.length) chunk] := by
  induction chunks generalizing id with
  | nil => rfl
  | cons c cs ih => simp [framesFrom, ih, Nat.add_assoc, Nat.add_comm 1]

theorem slotsFrom_append_singleton (now id : Nat) (chunks : List (List PushCall))
    (chunk : List PushCall) : slotsFrom w random now id (chunks ++ [chunk]) =
      slotsFrom w random now id chunks ++ [slotOf w random now (id + chunks.length) chunk] := by
  induction chunks generalizing id with
  | nil => rfl
  | cons c cs ih => simp [slotsFrom, ih, Nat.add_assoc, Nat.add_comm 1]

end Packed

section Run

variable (w : Wire) (random : Nat → Bool) (now : Nat) (fq : FrameQueue) (max : Nat)

open DataFrameEmitter

theorem new_eq_packed : new now fq max = packed w random now fq max ([], []) := by
  simp [new, packed, framesFrom, slotsFrom, openFrame]

theorem flush_of_inProgressFrame_none {dfe : DataFrameEmitter} (h : dfe.inProgressFrame = none) :
    flush w dfe = dfe := by
  simp [flush, h]

theorem flush_packed (s : List (List PushCall) × List PushCall) :
    flush w (packed w random now fq max s) = packed w random now fq max (closeAll s, []) := by
  by_cases h : s.2 = []
  · obtain ⟨closed, cur⟩ := s
    simp only at h; subst h
    simp [flush, packed, openFrame]
  · rw [closeAll_of_ne h]
    simp [flush, packed, openFrame, h, framesFrom_append_singleton, slotsFrom_append_singleton,
      FrameQueue.push, DataFrameBuilder.build, DataFrame.len, chunkSize, frameOf, slotOf,
      Nat.sub_sub, Nat.add_assoc]

theorem pushInitial_packed {closed : List (List PushCall)} (hs : Within w max (closed, []))
    (c : PushCall) :
    (pushInitial w random (packed w random now fq max (closed, [])) c.packet c.fragmentId
        c.persistent = (packed w random now fq max (closed, [c]), .ok ()) ∧
      Within w max (closed, [c])) ∨
    ∃ (e : EmitError) (b : Bool), pushInitial w random (packed w random now fq max (closed, [])) c.packet
        c.fragmentId c.persistent =
      ((if b then markRateLimited else id) (packed w random now fq max (closed, [])), .error e) := by
  simp only [Within, closeAll_nil] at hs
  unfold pushInitial
  dsimp only
  split
  · exact .inr ⟨_, false, rfl⟩
  split
  · exact .inr ⟨_, true, rfl⟩
  rename_i hsize
  refine .inl ⟨?_, ?_⟩
  · simp [packed, openFrame, DataFrameBuilder.new, DataFrameBuilder.add, PushCall.datagram,
      PushCall.refs]
  · simp [Within, closeAll, chunkSize, Wire.frameSize, PushCall.datagram, packed] at hsize ⊢
    omega
theorem push_packed {s : List (List PushCall) × List PushCall} (hs : Within w max s)
    (c : PushCall) :
    (push w random (packed w random now fq max s) c.packet c.fragmentId c.persistent =
        (packed w random now fq max (firstFit w s c), .ok ()) ∧
      Within w max (firstFit w s c)) ∨
    ∃ (e : EmitError) (b : Bool), push w random (packed w random now fq max s) c.packet
        c.fragmentId c.persistent =
      ((if b then markRateLimited else id) (packed w random now fq max (closeAll s, [])),
        .error e) := by
  obtain ⟨closed, cur⟩ := s
  by_cases hcur : cur = []
  · subst hcur
    have hpush : push w random (packed w random now fq max (closed, [])) c.packet c.fragmentId
        c.persistent = pushInitial w random (packed w random now fq max (closed, [])) c.packet
          c.fragmentId c.persistent := by
      simp [push, packed, openFrame]
    simpa [hpush, firstFit] using pushInitial_packed w random now fq max hs c
  have hclose : closeAll (closed, cur) = closed ++ [cur] := closeAll_of_ne (s := (closed, cur)) hcur
  have hwithin : Within w max (closeAll (closed, cur), []) := by simpa [Within] using hs
  have hopen : (packed w random now fq max (closed, cur)).inProgressFrame =
      openFrame random (fq.nextId + closed.length) cur := rfl
  unfold push
  rw [hopen, openFrame, if_neg hcur]
  dsimp only
  split
  · rename_i hmax
    simp only [DataFrameBuilder.size, gt_iff_lt] at hmax
    have hfit : firstFit w (closed, cur) c = (closeAll (closed, cur), [c]) := by
      simp [firstFit, hcur, hclose, chunkSize, hmax, PushCall.datagram]
    rw [flush_packed, hfit]
    exact pushInitial_packed w random now fq max hwithin c
  split
  · exact .inr ⟨_, true, by rw [flush_packed]; rfl⟩
  rename_i hmax hbudget
  simp only [DataFrameBuilder.size, gt_iff_lt, not_lt] at hmax hbudget
  have hfit : firstFit w (closed, cur) c = (closed, cur ++ [c]) := by
    simp [firstFit, hcur, chunkSize, hmax, PushCall.datagram]
  rw [hfit]
  refine .inl ⟨?_, ?_⟩
  · simp [packed, openFrame, DataFrameBuilder.add, PushCall.refs, PushCall.datagram]
  · simp only [Within, hclose, List.map_append, List.sum_append] at hs
    simp [Within, closeAll, chunkSize, Wire.frameSize, PushCall.datagram, packed] at hbudget hs ⊢
    omega
end Run

end DatenMeister
end Porous
