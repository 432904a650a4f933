import Porous.DatenMeister.Queues

/-!
# `DataFrameEmitter`: packing datagrams into data frames

`DataFrameEmitter` of `src/endpoint/daten_meister/emit_frame.rs`, lines 16-139: one
in-progress data frame, filled by `push` until the next datagram would take it past
`MAX_FRAME_SIZE` (then it is flushed and a fresh frame opened by `push_initial`) or past
the bytes left of the flush's budget (then it is flushed and `push` fails with
`SizeLimited`).  `flush` hands the frame to the callback, registers it with the frame
queue and charges its length to the budget.

The callback is the list `emitted` of the frames it has been handed, oldest first.  The
nonce `rand::random()` draws for the frame opened under ID `id` is `random id`; every
theorem holds for every `random`.  `DataFrameBuilder` of `crate::frame::serial` is kept
as the frame it builds (`DataFrameBuilder`, `add`, `size`, `build`).
-/

namespace Porous
namespace DatenMeister

/-- `EmitError`. -/
inductive EmitError where
  | sizeLimited
  | windowLimited
deriving DecidableEq, Repr

/-- Modelled from the spec: `frame::serial::DataFrameBuilder`, the frame ID, the nonce
and the datagrams added. -/
structure DataFrameBuilder where
  frameId : Nat
  nonce : Bool
  datagrams : List Datagram
deriving DecidableEq, Repr

namespace DataFrameBuilder

/-- Modelled from the spec: `DataFrameBuilder::new`. -/
def new (frameId : Nat) (nonce : Bool) : DataFrameBuilder := ⟨frameId, nonce, []⟩

/-- Modelled from the spec: `DataFrameBuilder::add`. -/
def add (b : DataFrameBuilder) (d : Datagram) : DataFrameBuilder :=
  { b with datagrams := b.datagrams ++ [d] }

/-- Modelled from the spec: `DataFrameBuilder::size`. -/
def size (w : Wire) (b : DataFrameBuilder) : Nat := w.frameSize b.datagrams

/-- Modelled from the spec: `DataFrameBuilder::build`. -/
def build (b : DataFrameBuilder) : DataFrame := ⟨b.frameId, b.nonce, b.datagrams⟩

end DataFrameBuilder

/-- `InProgressDataFrame`. -/
structure InProgressDataFrame where
  nonce : Bool
  fbuilder : DataFrameBuilder
  fragmentRefs : List FragmentRef
deriving DecidableEq, Repr

/-- `DataFrameEmitter`: the frame queue it borrows, the in-progress frame, the budget
and what the callback has been handed. -/
structure DataFrameEmitter where
  nowMs : Nat
  frameQueue : FrameQueue
  inProgressFrame : Option InProgressDataFrame
  maxSendSize : Nat
  bytesRemaining : Nat
  emitted : List DataFrame
deriving DecidableEq, Repr

namespace DataFrameEmitter

variable (w : Wire) (random : Nat → Bool)

/-- `DataFrameEmitter::new`. -/
def new (nowMs : Nat) (frameQueue : FrameQueue) (maxSendSize : Nat) : DataFrameEmitter where
  nowMs := nowMs
  frameQueue := frameQueue
  inProgressFrame := none
  maxSendSize := maxSendSize
  bytesRemaining := maxSendSize
  emitted := []

/-- `self.frame_queue.mark_rate_limited()`. -/
def markRateLimited (dfe : DataFrameEmitter) : DataFrameEmitter :=
  { dfe with frameQueue := dfe.frameQueue.markRateLimited }

/-- `DataFrameEmitter::push_initial`: open a frame for the datagram, unless the frame
window is full or the frame would not fit in the bytes left. -/
def pushInitial (dfe : DataFrameEmitter) (p : PendingPacket) (fragmentId : Nat)
    (persistent : Bool) : DataFrameEmitter × Except EmitError Unit :=
  if !dfe.frameQueue.canPush then (dfe, .error .windowLimited)
  else
    let datagram := p.datagram fragmentId
    let potentialFrameSize := w.dataFrameOverhead + w.encodedSize datagram
    if potentialFrameSize > dfe.bytesRemaining then (markRateLimited dfe, .error .sizeLimited)
    else
      let frameId := dfe.frameQueue.nextId
      let nonce := random frameId
      let fbuilder := (DataFrameBuilder.new frameId nonce).add datagram
      let fragmentRefs := if persistent then [p.fragmentRef fragmentId] else []
      ({ dfe with inProgressFrame := some ⟨nonce, fbuilder, fragmentRefs⟩ }, .ok ())

/-- `DataFrameEmitter::flush`: hand the in-progress frame, if any, to the callback and
register it with the frame queue. -/
def flush (dfe : DataFrameEmitter) : DataFrameEmitter :=
  match dfe.inProgressFrame with
  | none => dfe
  | some nextFrame =>
    let frameData := nextFrame.fbuilder.build
    { dfe with
      inProgressFrame := none
      frameQueue := dfe.frameQueue.push (frameData.len w) dfe.nowMs nextFrame.fragmentRefs
        nextFrame.nonce
      bytesRemaining := dfe.bytesRemaining - frameData.len w
      emitted := dfe.emitted ++ [frameData] }

/-- `DataFrameEmitter::push`: add the datagram to the in-progress frame, or flush it and
open a new one when the datagram would take it past `MAX_FRAME_SIZE`, or flush it and
fail when the datagram would take it past the bytes left. -/
def push (dfe : DataFrameEmitter) (p : PendingPacket) (fragmentId : Nat) (persistent : Bool) :
    DataFrameEmitter × Except EmitError Unit :=
  let datagram := p.datagram fragmentId
  match dfe.inProgressFrame with
  | some nextFrame =>
    let potentialFrameSize := nextFrame.fbuilder.size w + w.encodedSize datagram
    if potentialFrameSize > w.maxFrameSize then
      pushInitial w random (flush w dfe) p fragmentId persistent
    else if potentialFrameSize > dfe.bytesRemaining then
      (markRateLimited (flush w dfe), .error .sizeLimited)
    else
      ({ dfe with
        inProgressFrame := some
          { nextFrame with
            fbuilder := nextFrame.fbuilder.add datagram
            fragmentRefs :=
              nextFrame.fragmentRefs ++ if persistent then [p.fragmentRef fragmentId] else [] } },
        .ok ())
  | none => pushInitial w random dfe p fragmentId persistent

/-- `DataFrameEmitter::total_size`. -/
def totalSize (dfe : DataFrameEmitter) : Nat := dfe.maxSendSize - dfe.bytesRemaining

@[simp] theorem flush_maxSendSize (dfe : DataFrameEmitter) :
    (flush w dfe).maxSendSize = dfe.maxSendSize := by
  unfold flush; split <;> rfl

@[simp] theorem flush_inProgressFrame (dfe : DataFrameEmitter) :
    (flush w dfe).inProgressFrame = none := by
  unfold flush; split <;> simp_all

@[simp] theorem flush_nowMs (dfe : DataFrameEmitter) : (flush w dfe).nowMs = dfe.nowMs := by
  unfold flush; split <;> rfl

theorem pushInitial_maxSendSize (dfe : DataFrameEmitter) (p : PendingPacket) (i : Nat) (pers : Bool) :
    (pushInitial w random dfe p i pers).1.maxSendSize = dfe.maxSendSize := by
  unfold pushInitial; split <;> dsimp only; (try split) <;> rfl

theorem push_maxSendSize (dfe : DataFrameEmitter) (p : PendingPacket) (i : Nat) (pers : Bool) :
    (push w random dfe p i pers).1.maxSendSize = dfe.maxSendSize := by
  unfold push
  split
  · dsimp only
    split
    · rw [pushInitial_maxSendSize, flush_maxSendSize]
    split
    · exact flush_maxSendSize w dfe
    · rfl
  · exact pushInitial_maxSendSize w random dfe p i pers

/-! ### The datagrams accepted so far -/

/-- The datagrams the emitter has accepted, in order: those of the frames handed to the
callback, then those of the in-progress frame. -/
def committed (dfe : DataFrameEmitter) : List Datagram :=
  dfe.emitted.flatMap DataFrame.datagrams ++ (dfe.inProgressFrame.map (·.fbuilder.datagrams)).getD []

@[simp] theorem committed_new (nowMs : Nat) (fq : FrameQueue) (max : Nat) :
    (new nowMs fq max).committed = [] := rfl

@[simp] theorem committed_markRateLimited (dfe : DataFrameEmitter) :
    (markRateLimited dfe).committed = dfe.committed := rfl

/-- `flush` hands over the in-progress frame and accepts nothing new. -/
@[simp] theorem committed_flush (dfe : DataFrameEmitter) : (flush w dfe).committed = dfe.committed := by
  unfold flush
  split <;> simp_all [committed, DataFrameBuilder.build]

theorem committed_pushInitial_error {dfe dfe' : DataFrameEmitter} {p : PendingPacket} {i : Nat}
    {pers : Bool} {err : EmitError} (h : pushInitial w random dfe p i pers = (dfe', .error err)) :
    dfe'.committed = dfe.committed := by
  unfold pushInitial at h
  split at h
  · cases h; rfl
  · dsimp only at h
    split at h <;> cases h
    rfl

theorem committed_pushInitial_ok {dfe dfe' : DataFrameEmitter} {p : PendingPacket} {i : Nat}
    {pers : Bool} (h0 : dfe.inProgressFrame = none) (h : pushInitial w random dfe p i pers = (dfe', .ok ())) :
    dfe'.committed = dfe.committed ++ [p.datagram i] := by
  unfold pushInitial at h
  split at h
  · cases h
  · dsimp only at h
    split at h <;> cases h
    simp [committed, h0, DataFrameBuilder.new, DataFrameBuilder.add]

/-- A `push` that returns `Ok` accepts its datagram, after all the others. -/
theorem committed_push_ok {dfe dfe' : DataFrameEmitter} {p : PendingPacket} {i : Nat}
    {pers : Bool} (h : push w random dfe p i pers = (dfe', .ok ())) :
    dfe'.committed = dfe.committed ++ [p.datagram i] := by
  unfold push at h
  split at h
  · rename_i f hf
    dsimp only at h
    split at h
    · rw [committed_pushInitial_ok w random (by simp [flush, hf]) h, committed_flush]
    split at h <;> cases h
    simp [committed, hf, DataFrameBuilder.add]
  · exact committed_pushInitial_ok w random ‹_› h

/-- A `push` that returns `Err` accepts nothing and loses nothing. -/
theorem committed_push_error {dfe dfe' : DataFrameEmitter} {p : PendingPacket} {i : Nat}
    {pers : Bool} {err : EmitError} (h : push w random dfe p i pers = (dfe', .error err)) :
    dfe'.committed = dfe.committed := by
  unfold push at h
  split at h
  · dsimp only at h
    split at h
    · rw [committed_pushInitial_error w random h, committed_flush]
    split at h <;> cases h
    simp
  · exact committed_pushInitial_error w random h

/-- With no frame in progress, the emitted frames hold every datagram accepted. -/
theorem committed_of_idle {dfe : DataFrameEmitter} (h : dfe.inProgressFrame = none) :
    dfe.committed = dfe.emitted.flatMap DataFrame.datagrams := by
  simp [committed, h]

/-! ### The fragment references held for acknowledgement -/

/-- The fragment references the frame queue's slots hold, then those of the in-progress
frame. -/
def frameRefs (dfe : DataFrameEmitter) : List FragmentRef :=
  dfe.frameQueue.entries.flatMap (·.fragmentRefs) ++
    (dfe.inProgressFrame.map (·.fragmentRefs)).getD []

@[simp] theorem frameRefs_new (nowMs : Nat) (fq : FrameQueue) (max : Nat) :
    (new nowMs fq max).frameRefs = fq.entries.flatMap (·.fragmentRefs) := by
  simp [frameRefs, new]

@[simp] theorem frameRefs_markRateLimited (dfe : DataFrameEmitter) :
    (markRateLimited dfe).frameRefs = dfe.frameRefs := rfl

/-- `flush` moves the in-progress frame's references into the slot it registers. -/
@[simp] theorem frameRefs_flush (dfe : DataFrameEmitter) : (flush w dfe).frameRefs = dfe.frameRefs := by
  unfold flush
  split <;> simp_all [frameRefs, FrameQueue.push]

theorem frameRefs_pushInitial {dfe dfe' : DataFrameEmitter} {p : PendingPacket} {i : Nat}
    {pers : Bool} {r : Except EmitError Unit} (h0 : dfe.inProgressFrame = none)
    (h : pushInitial w random dfe p i pers = (dfe', r)) :
    ∀ ref ∈ dfe'.frameRefs, ref ∈ dfe.frameRefs ∨ pers = true ∧ ref = p.fragmentRef i := by
  unfold pushInitial at h
  split at h
  · cases h; exact fun _ h => .inl h
  · dsimp only at h
    split at h <;> cases h
    · exact fun _ h => .inl h
    · intro ref href
      simp only [frameRefs, h0, Option.map_some', Option.getD_some, Option.map_none', Option.getD_none,
        List.mem_append] at href ⊢
      rcases href with href | href
      · exact .inl (.inl href)
      · split at href
        · exact .inr ⟨‹_›, List.mem_singleton.1 href⟩
        · cases href

/-- A `push` adds at most the reference of its own fragment, and that only when it is
`persistent` (lines 88-90 and 111-113). -/
theorem frameRefs_push_persistent {dfe dfe' : DataFrameEmitter} {p : PendingPacket} {i : Nat}
    {pers : Bool} {r : Except EmitError Unit} (h : push w random dfe p i pers = (dfe', r)) :
    ∀ ref ∈ dfe'.frameRefs, ref ∈ dfe.frameRefs ∨ pers = true ∧ ref = p.fragmentRef i := by
  unfold push at h
  split at h
  · rename_i f hf
    dsimp only at h
    split at h
    · intro ref href
      simpa using frameRefs_pushInitial w random (flush_inProgressFrame w dfe) h ref href
    split at h <;> cases h
    · exact fun ref href => .inl (by simpa using href)
    · intro ref href
      simp only [frameRefs, hf, Option.map_some', Option.getD_some, List.mem_append] at href ⊢
      rcases href with href | href | href
      · exact .inl (.inl href)
      · exact .inl (.inr href)
      · split at href
        · exact .inr ⟨‹_›, List.mem_singleton.1 href⟩
        · cases href
  · exact frameRefs_pushInitial w random ‹_› h

/-- A `push` adds at most the reference of its own fragment. -/
theorem frameRefs_push {dfe dfe' : DataFrameEmitter} {p : PendingPacket} {i : Nat}
    {pers : Bool} {r : Except EmitError Unit} (h : push w random dfe p i pers = (dfe', r)) :
    ∀ ref ∈ dfe'.frameRefs, ref ∈ dfe.frameRefs ∨ ref = p.fragmentRef i :=
  fun ref href => (frameRefs_push_persistent w random h ref href).imp_right And.right

/-- A `push` that fails moves references into slots and adds none. -/
theorem frameRefs_push_error {dfe dfe' : DataFrameEmitter} {p : PendingPacket} {i : Nat}
    {pers : Bool} {err : EmitError} (h : push w random dfe p i pers = (dfe', .error err)) :
    dfe'.frameRefs = dfe.frameRefs := by
  have hinit : ∀ {d : DataFrameEmitter}, pushInitial w random d p i pers = (dfe', .error err) →
      dfe'.frameRefs = d.frameRefs := by
    intro d h
    unfold pushInitial at h
    split at h
    · cases h; rfl
    · dsimp only at h
      split at h <;> cases h
      rfl
  unfold push at h
  split at h
  · dsimp only at h
    split at h
    · rw [hinit h, frameRefs_flush]
    split at h <;> cases h
    simp
  · exact hinit h

end DataFrameEmitter

end DatenMeister
end Porous
