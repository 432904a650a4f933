import Porous.DatenMeister.EmitFrame

/-!
# `FrameEmitter::emit_ack_frames`

`src/endpoint/daten_meister/emit_frame.rs`, lines 264-318: the frame-ack queue is
drained into ack frames.  The head of the queue is added to the builder while the
builder with it fits both the bytes left and `MAX_FRAME_SIZE`.  Past `MAX_FRAME_SIZE`
the builder is handed to the callback and a fresh one retries the same head (lines
294-303); past the bytes left the call returns (lines 284-292), as it does once the
queue is empty (lines 311-317), handing the builder over first when it holds an
acknowledgement, or when `min_one` asks for a frame and none has been sent.

As for `emit_data_frames`, the loop is a small-step machine: `ackStep` is one turn,
`ackIterate` runs turns until the return, and `emitAckFrames` is the call within `fuel`
turns.  The model follows a release build, where `debug_assert!` is not evaluated and a
`usize` subtraction is not checked; `AckEmit.safe` says what the assertion of line 295
and the three subtractions of `bytes_remaining` need of the state a turn starts from.

Every state of a call keeps `AckInv`; the state it returns from satisfies `AckDone`.
`emitAckFrames_exact` reads off them that the frames carry exactly the popped prefix of
the queue, and `emitAckFrames_within_budget` the byte accounting and `min_one`.  The call
returns within one turn per acknowledgement and per byte of the budget
(`ackIterate_returns`): a split spends the bytes of a frame, which are never zero.
-/

namespace Porous
namespace DatenMeister

/-- Modelled from the spec: `frame::serial::AckFrameBuilder`, the two window base IDs and
the acknowledgements added. -/
structure AckFrameBuilder where
  frameWindowBaseId : Nat
  packetWindowBaseId : Nat
  frameAcks : List AckGroup
deriving DecidableEq, Repr

namespace AckFrameBuilder

/-- Modelled from the spec: `AckFrameBuilder::new`. -/
def new (frameWindowBaseId packetWindowBaseId : Nat) : AckFrameBuilder :=
  ⟨frameWindowBaseId, packetWindowBaseId, []⟩

/-- Modelled from the spec: `AckFrameBuilder::add`. -/
def add (b : AckFrameBuilder) (frameAck : AckGroup) : AckFrameBuilder :=
  { b with frameAcks := b.frameAcks ++ [frameAck] }

/-- Modelled from the spec: `AckFrameBuilder::count`. -/
def count (b : AckFrameBuilder) : Nat := b.frameAcks.length

/-- Modelled from the spec: `AckFrameBuilder::size`. -/
def size (aw : AckWire) (b : AckFrameBuilder) : Nat := aw.frameSize b.frameAcks

/-- Modelled from the spec: `AckFrameBuilder::build`. -/
def build (b : AckFrameBuilder) : AckFrame :=
  ⟨b.frameWindowBaseId, b.packetWindowBaseId, b.frameAcks⟩

variable (aw : AckWire) (b : AckFrameBuilder)

@[simp] theorem size_new (fw pw : Nat) : (new fw pw).size aw = aw.ackFrameOverhead := by
  simp [size, new]

@[simp] theorem size_add (a : AckGroup) : (b.add a).size aw = b.size aw + aw.encodedSize a := by
  simp [size, add]

@[simp] theorem count_new (fw pw : Nat) : (new fw pw).count = 0 := rfl

@[simp] theorem len_build : b.build.len aw = b.size aw := rfl

@[simp] theorem build_frameAcks : b.build.frameAcks = b.frameAcks := rfl

@[simp] theorem build_frameWindowBaseId : b.build.frameWindowBaseId = b.frameWindowBaseId := rfl

@[simp] theorem build_packetWindowBaseId : b.build.packetWindowBaseId = b.packetWindowBaseId := rfl

theorem frameAcks_eq_nil {b : AckFrameBuilder} (h : ¬b.count > 0) : b.frameAcks = [] := by
  simpa [count] using h

/-- A builder with no acknowledgement is an empty ack frame. -/
theorem size_of_not_count_pos {b : AckFrameBuilder} (h : ¬b.count > 0) :
    b.size aw = aw.ackFrameOverhead := by
  simp [size, frameAcks_eq_nil h]

end AckFrameBuilder

/-- The locals of `emit_ack_frames` between two turns of its loop (`bytes_remaining`,
`frame_sent`, `fbuilder`), the frame-ack queue, and the frames handed to the callback,
oldest first. -/
structure AckEmit where
  bytesRemaining : Nat
  frameSent : Bool
  fbuilder : AckFrameBuilder
  frameAckQueue : List AckGroup
  emitted : List AckFrame
deriving DecidableEq, Repr

namespace AckEmit

variable (aw : AckWire) (frameWindowBaseId packetWindowBaseId : Nat) (minOne : Bool)

/-- The state the loop starts from, lines 269-273. -/
def start (maxSendSize : Nat) (fe : FrameEmitter) : AckEmit :=
  ⟨maxSendSize, false, .new frameWindowBaseId packetWindowBaseId, fe.frameAckQueue, []⟩

/-- `let frame_data = fbuilder.build(); bytes_remaining -= frame_data.len();
emit_cb(frame_data);`, lines 286-288, 297-299 and 312-314. -/
def emitFrame (e : AckEmit) : AckEmit :=
  { e with
    bytesRemaining := e.bytesRemaining - e.fbuilder.build.len aw
    emitted := e.emitted ++ [e.fbuilder.build] }

/-- Lines 285-289 and 311-315, before each return: the builder is handed over when it
holds an acknowledgement, or when `min_one` asks for a frame and none has been sent. -/
def closeFrame (e : AckEmit) : AckEmit :=
  if e.fbuilder.count > 0 || minOne && !e.frameSent then e.emitFrame aw else e

/-- Lines 294-303: the builder, past `MAX_FRAME_SIZE` with the head of the queue, is
handed over and a fresh one started. -/
def splitFrame (e : AckEmit) : AckEmit :=
  { e.emitFrame aw with
    frameSent := true
    fbuilder := .new frameWindowBaseId packetWindowBaseId }

variable (e : AckEmit)

@[simp] theorem emitFrame_bytesRemaining :
    (e.emitFrame aw).bytesRemaining = e.bytesRemaining - e.fbuilder.size aw := rfl

@[simp] theorem emitFrame_emitted : (e.emitFrame aw).emitted = e.emitted ++ [e.fbuilder.build] :=
  rfl

@[simp] theorem emitFrame_frameSent : (e.emitFrame aw).frameSent = e.frameSent := rfl

@[simp] theorem emitFrame_fbuilder : (e.emitFrame aw).fbuilder = e.fbuilder := rfl

@[simp] theorem emitFrame_frameAckQueue : (e.emitFrame aw).frameAckQueue = e.frameAckQueue := rfl

/-- The condition of lines 285 and 311. -/
theorem closes_iff : (e.fbuilder.count > 0 || minOne && !e.frameSent) = true ↔
    e.fbuilder.count > 0 ∨ minOne = true ∧ e.frameSent = false := by
  simp

@[simp] theorem splitFrame_eq :
    e.splitFrame aw frameWindowBaseId packetWindowBaseId =
      { e.emitFrame aw with
        frameSent := true
        fbuilder := .new frameWindowBaseId packetWindowBaseId } := rfl

end AckEmit

section Step

variable (aw : AckWire) (w : Wire) (frameWindowBaseId packetWindowBaseId : Nat) (minOne : Bool)

/-- One turn of the loop of `emit_ack_frames`, lines 280-309, and the return after it
(lines 311-317) once the queue is empty: `.inl` is the state of the next turn, `.inr`
the state the call returns from. -/
def ackStep (e : AckEmit) : AckEmit ⊕ AckEmit :=
  match e.frameAckQueue with
  | [] => .inr (e.closeFrame aw minOne)
  | frameAck :: rest =>
    let potentialFrameSize := e.fbuilder.size aw + aw.encodedSize frameAck
    if potentialFrameSize > e.bytesRemaining then .inr (e.closeFrame aw minOne)
    else if potentialFrameSize > w.maxFrameSize then
      .inl (e.splitFrame aw frameWindowBaseId packetWindowBaseId)
    else .inl { e with fbuilder := e.fbuilder.add frameAck, frameAckQueue := rest }

/-- `n` turns of the loop, stopping at the return. -/
def ackIterate : Nat → AckEmit → AckEmit ⊕ AckEmit
  | 0, e => .inl e
  | n + 1, e =>
    match ackStep aw w frameWindowBaseId packetWindowBaseId minOne e with
    | .inl e' => ackIterate n e'
    | .inr e' => .inr e'

/-- What the turn from `e` needs: the `debug_assert!` of line 295 (a builder split off at
`MAX_FRAME_SIZE` holds an acknowledgement), and a frame it hands over no longer than the
bytes left, so that `bytes_remaining -= frame_data.len()` (lines 287, 298 and 313) does
not underflow. -/
def AckEmit.safe (e : AckEmit) : Bool :=
  let closes := e.fbuilder.count > 0 || minOne && !e.frameSent
  let fits := decide (e.fbuilder.size aw ≤ e.bytesRemaining)
  match e.frameAckQueue with
  | [] => !closes || fits
  | frameAck :: _ =>
    let potentialFrameSize := e.fbuilder.size aw + aw.encodedSize frameAck
    if potentialFrameSize > e.bytesRemaining then !closes || fits
    else if potentialFrameSize > w.maxFrameSize then decide (e.fbuilder.count > 0) && fits
    else true

end Step

/-- `FrameEmitter::emit_ack_frames(frame_window_base_id, packet_window_base_id,
max_send_size, min_one, emit_cb)` within `fuel` turns of its loop: the bytes returned,
the frames the callback was handed, and the emitter afterwards; `none` when the call has
not returned yet. -/
def emitAckFrames (aw : AckWire) (w : Wire)
    (fuel frameWindowBaseId packetWindowBaseId maxSendSize : Nat) (minOne : Bool)
    (fe : FrameEmitter) : Option (Nat × List AckFrame × FrameEmitter) :=
  if (AckFrameBuilder.new frameWindowBaseId packetWindowBaseId).size aw > maxSendSize then
    some (0, [], fe)
  else
    match ackIterate aw w frameWindowBaseId packetWindowBaseId minOne fuel
        (.start frameWindowBaseId packetWindowBaseId maxSendSize fe) with
    | .inl _ => none
    | .inr e =>
      some (maxSendSize - e.bytesRemaining, e.emitted, { fe with frameAckQueue := e.frameAckQueue })

section Turns

variable (aw : AckWire) (w : Wire) (fw pw : Nat) (minOne : Bool)

open AckEmit

/-- **What one turn does**: return, after `closeFrame`, when the queue is empty or its
head does not fit in the bytes left; split the builder off when the head fits in the
bytes left but not in `MAX_FRAME_SIZE`; or add the head to the builder. -/
theorem ackStep_cases (e : AckEmit) :
    (ackStep aw w fw pw minOne e = .inr (e.closeFrame aw minOne) ∧
        ∀ a rest, e.frameAckQueue = a :: rest →
          e.bytesRemaining < e.fbuilder.size aw + aw.encodedSize a) ∨
      (∃ a rest, e.frameAckQueue = a :: rest ∧
        e.fbuilder.size aw + aw.encodedSize a ≤ e.bytesRemaining ∧
        w.maxFrameSize < e.fbuilder.size aw + aw.encodedSize a ∧
        ackStep aw w fw pw minOne e = .inl (e.splitFrame aw fw pw)) ∨
      (∃ a rest, e.frameAckQueue = a :: rest ∧
        e.fbuilder.size aw + aw.encodedSize a ≤ e.bytesRemaining ∧
        e.fbuilder.size aw + aw.encodedSize a ≤ w.maxFrameSize ∧
        ackStep aw w fw pw minOne e =
          .inl { e with fbuilder := e.fbuilder.add a, frameAckQueue := rest }) := by
  unfold ackStep
  split
  · rename_i hq
    exact .inl ⟨rfl, fun _ _ h => nomatch hq.symm.trans h⟩
  · rename_i a rest hq
    dsimp only
    split_ifs with hb hm
    · refine .inl ⟨rfl, fun _ _ h => ?_⟩
      obtain ⟨rfl, -⟩ := List.cons.inj (hq.symm.trans h)
      exact hb
    · exact .inr (.inl ⟨a, rest, hq, Nat.le_of_not_gt hb, hm, rfl⟩)
    · exact .inr (.inr ⟨a, rest, hq, Nat.le_of_not_gt hb, Nat.le_of_not_gt hm, rfl⟩)

/-- A turn that does not return leaves fewer acknowledgements queued, or fewer bytes
left: a split spends the bytes of a frame, and an ack frame is never empty of bytes. -/
theorem ackStep_decreases {e e' : AckEmit} (h : ackStep aw w fw pw minOne e = .inl e') :
    e'.frameAckQueue.length + e'.bytesRemaining < e.frameAckQueue.length + e.bytesRemaining := by
  have hpos := aw.ackFrameOverhead_pos
  have hle := aw.ackFrameOverhead_le_frameSize e.fbuilder.frameAcks
  rcases ackStep_cases aw w fw pw minOne e with ⟨he, -⟩ | ⟨a, rest, hq, hb, -, he⟩ |
      ⟨a, rest, hq, -, -, he⟩ <;> rw [he] at h <;> cases h
  · simp only [splitFrame_eq, emitFrame_frameAckQueue, emitFrame_bytesRemaining]
    simp only [AckFrameBuilder.size] at hb ⊢
    omega
  · simp [hq]

/-- **The call returns**: from a state with `q` acknowledgements queued and `b` bytes
left, `ackIterate` has returned after `q + b + 1` turns. -/
theorem ackIterate_returns (n : Nat) :
    ∀ e : AckEmit, e.frameAckQueue.length + e.bytesRemaining < n →
      ∃ e', ackIterate aw w fw pw minOne n e = .inr e' := by
  induction n with
  | zero => intro e h; omega
  | succ n ih =>
    intro e h
    simp only [ackIterate]
    split
    · rename_i e' he
      exact ih e' (by have := ackStep_decreases aw w fw pw minOne he; omega)
    · exact ⟨_, rfl⟩

/-- A property of the states between turns that every turn keeps, or trades for a
property of the state it returns from, holds along the whole call. -/
theorem ackIterate_induction (P R : AckEmit → Prop)
    (hstep : ∀ e, P e → Sum.elim P R (ackStep aw w fw pw minOne e)) (n : Nat) :
    ∀ e, P e → Sum.elim P R (ackIterate aw w fw pw minOne n e) := by
  induction n with
  | zero => exact fun _ h => h
  | succ n ih =>
    intro e h
    have hs := hstep e h
    simp only [ackIterate]
    split <;> rename_i e' he <;> rw [he] at hs
    · exact ih e' hs
    · exact hs

end Turns

/-! ### What a call keeps -/

section Invariant

variable (aw : AckWire) (w : Wire) (fw pw : Nat) (minOne : Bool) (Q : List AckGroup)
  (maxSendSize : Nat)

open AckEmit

/-- The loop invariant of a call on the frame-ack queue `Q` within `maxSendSize` bytes:
the builder and the frames handed over carry the call's base IDs; the frames, the
builder and the queue hold `Q`, in order; the frames and the bytes left add up to the
budget; a builder that would be handed over fits in the bytes left, and one holding an
acknowledgement fits in `MAX_FRAME_SIZE`; and `frame_sent` says whether a frame has been
handed over. -/
structure AckInv (e : AckEmit) : Prop where
  builder : e.fbuilder.frameWindowBaseId = fw ∧ e.fbuilder.packetWindowBaseId = pw
  bases : ∀ f ∈ e.emitted, f.frameWindowBaseId = fw ∧ f.packetWindowBaseId = pw
  popped : e.emitted.flatMap AckFrame.frameAcks ++ e.fbuilder.frameAcks ++ e.frameAckQueue = Q
  accounted : (e.emitted.map (AckFrame.len aw)).sum + e.bytesRemaining = maxSendSize
  fitsBudget : e.fbuilder.count > 0 ∨ e.frameSent = false → e.fbuilder.size aw ≤ e.bytesRemaining
  fitsFrame : e.fbuilder.count > 0 → e.fbuilder.size aw ≤ w.maxFrameSize
  unsent : e.frameSent = false ↔ e.emitted = []

/-- The state a call returns from: the frames handed over carry the base IDs, they and
the queue hold `Q`, they and the bytes left add up to the budget, the head of the queue
would not fit in a fresh ack frame within the bytes left, and `min_one` got its frame. -/
structure AckDone (e : AckEmit) : Prop where
  bases : ∀ f ∈ e.emitted, f.frameWindowBaseId = fw ∧ f.packetWindowBaseId = pw
  popped : e.emitted.flatMap AckFrame.frameAcks ++ e.frameAckQueue = Q
  accounted : (e.emitted.map (AckFrame.len aw)).sum + e.bytesRemaining = maxSendSize
  headLeft : ∀ a rest, e.frameAckQueue = a :: rest →
    e.bytesRemaining < ((AckFrameBuilder.new fw pw).add a).size aw
  sent : minOne = true → e.emitted ≠ []

theorem AckInv.start (fe : FrameEmitter) (h : (AckFrameBuilder.new fw pw).size aw ≤ maxSendSize) :
    AckInv aw w fw pw fe.frameAckQueue maxSendSize (AckEmit.start fw pw maxSendSize fe) where
  builder := ⟨rfl, rfl⟩
  bases := by simp [AckEmit.start]
  popped := by simp [AckEmit.start, AckFrameBuilder.new]
  accounted := by simp [AckEmit.start]
  fitsBudget _ := h
  fitsFrame := by simp [AckEmit.start]
  unsent := by simp [AckEmit.start]

variable {aw w fw pw minOne Q maxSendSize}

/-- A frame handed over carries the builder's base IDs, which are the call's. -/
theorem AckInv.bases_emitFrame {e : AckEmit} (h : AckInv aw w fw pw Q maxSendSize e) :
    ∀ f ∈ (e.emitFrame aw).emitted, f.frameWindowBaseId = fw ∧ f.packetWindowBaseId = pw := by
  simp only [emitFrame_emitted, List.forall_mem_append, List.forall_mem_singleton]
  exact ⟨h.bases, h.builder⟩

theorem AckInv.splitFrame {e : AckEmit} (h : AckInv aw w fw pw Q maxSendSize e)
    (hb : e.fbuilder.size aw ≤ e.bytesRemaining) :
    AckInv aw w fw pw Q maxSendSize (e.splitFrame aw fw pw) where
  builder := ⟨rfl, rfl⟩
  bases := h.bases_emitFrame
  popped := by simpa [AckFrameBuilder.new] using h.popped
  accounted := by have := h.accounted; simp; omega
  fitsBudget := by simp
  fitsFrame := by simp
  unsent := by simp

theorem AckInv.addAck {e : AckEmit} {a : AckGroup} {rest : List AckGroup}
    (h : AckInv aw w fw pw Q maxSendSize e) (hq : e.frameAckQueue = a :: rest)
    (hb : e.fbuilder.size aw + aw.encodedSize a ≤ e.bytesRemaining)
    (hm : e.fbuilder.size aw + aw.encodedSize a ≤ w.maxFrameSize) :
    AckInv aw w fw pw Q maxSendSize { e with fbuilder := e.fbuilder.add a, frameAckQueue := rest } where
  builder := h.builder
  bases := h.bases
  popped := by rw [← h.popped, hq]; simp [AckFrameBuilder.add]
  accounted := h.accounted
  fitsBudget _ := by simpa using hb
  fitsFrame _ := by simpa using hm
  unsent := h.unsent

/-- Either return hands over what the invariant promises. -/
theorem AckInv.closeFrame {e : AckEmit} (h : AckInv aw w fw pw Q maxSendSize e)
    (hq : ∀ a rest, e.frameAckQueue = a :: rest →
      e.bytesRemaining < e.fbuilder.size aw + aw.encodedSize a) :
    AckDone aw fw pw minOne Q maxSendSize (e.closeFrame aw minOne) := by
  have hp := h.popped
  have hacc := h.accounted
  unfold AckEmit.closeFrame
  split_ifs with hc
  · have hb : e.fbuilder.size aw ≤ e.bytesRemaining :=
      h.fitsBudget (((closes_iff minOne e).1 hc).imp_right And.right)
    refine ⟨h.bases_emitFrame, by simpa using hp, by simp; omega, fun a rest hr => ?_,
      fun _ => by simp⟩
    · have := hq a rest hr
      simp only [emitFrame_bytesRemaining, AckFrameBuilder.size_add, AckFrameBuilder.size_new]
      omega
  · rw [closes_iff, not_or, not_and] at hc
    have hs := AckFrameBuilder.size_of_not_count_pos aw hc.1
    refine ⟨h.bases, by simpa [AckFrameBuilder.frameAcks_eq_nil hc.1] using hp, hacc,
      fun a rest hr => ?_, fun hm => ?_⟩
    · have := hq a rest hr
      simp only [AckFrameBuilder.size_add, AckFrameBuilder.size_new]
      omega
    · have : e.frameSent ≠ false := fun hf => by simp [hc.2 hm] at hf
      exact fun he => this (h.unsent.2 he)

/-- **One turn keeps the invariant**, or returns from a state that satisfies `AckDone`. -/
theorem AckInv.step {e : AckEmit} (h : AckInv aw w fw pw Q maxSendSize e) :
    Sum.elim (AckInv aw w fw pw Q maxSendSize) (AckDone aw fw pw minOne Q maxSendSize)
      (ackStep aw w fw pw minOne e) := by
  rcases ackStep_cases aw w fw pw minOne e with ⟨he, hq⟩ | ⟨a, rest, -, hb, -, he⟩ |
      ⟨a, rest, hq, hb, hm, he⟩ <;> rw [he]
  · exact h.closeFrame hq
  · exact h.splitFrame (by omega)
  · exact h.addAck hq hb hm

variable (w minOne) in
/-- Every state of a call that passed the check of line 275 keeps `AckInv`, and the state
it returns from satisfies `AckDone`. -/
theorem ackIterate_start (fe : FrameEmitter)
    (h : (AckFrameBuilder.new fw pw).size aw ≤ maxSendSize) (n : Nat) :
    Sum.elim (AckInv aw w fw pw fe.frameAckQueue maxSendSize)
      (AckDone aw fw pw minOne fe.frameAckQueue maxSendSize)
      (ackIterate aw w fw pw minOne n (AckEmit.start fw pw maxSendSize fe)) :=
  ackIterate_induction aw w fw pw minOne _ _ (fun _ he => he.step) n _ (AckInv.start aw w fw pw _ fe h)

end Invariant

/-! ### When an acknowledgement fits in a frame of its own -/

section Fitted

variable {aw : AckWire} {w : Wire} {fw pw : Nat} {minOne : Bool} {Q : List AckGroup}
  {maxSendSize : Nat}

open AckEmit

/-- Every frame handed over inside the loop holds an acknowledgement and is at most
`MAX_FRAME_SIZE` long. -/
def AckFitted (aw : AckWire) (w : Wire) (e : AckEmit) : Prop :=
  ∀ f ∈ e.emitted, f.frameAcks ≠ [] ∧ f.len aw ≤ w.maxFrameSize

/-- Every frame handed over by the call is at most `MAX_FRAME_SIZE` long, and one with no
acknowledgement was asked for by `min_one` and is the only one. -/
def AckDoneFitted (aw : AckWire) (w : Wire) (minOne : Bool) (e : AckEmit) : Prop :=
  ∀ f ∈ e.emitted, f.len aw ≤ w.maxFrameSize ∧ (f.frameAcks = [] → minOne = true ∧ e.emitted = [f])

/-- The builder never outgrows `MAX_FRAME_SIZE`. -/
theorem AckInv.size_le_maxFrameSize {e : AckEmit} (h : AckInv aw w fw pw Q maxSendSize e)
    (hfit : aw.Fits w) : e.fbuilder.size aw ≤ w.maxFrameSize := by
  by_cases hc : e.fbuilder.count > 0
  · exact h.fitsFrame hc
  · have := hfit ⟨0, 0, false⟩
    rw [AckFrameBuilder.size_of_not_count_pos aw hc]
    omega

/-- **The `debug_assert!` of line 295**: a builder that the head of the queue takes past
`MAX_FRAME_SIZE` holds an acknowledgement, since an empty one would take the head. -/
theorem count_pos_of_split {b : AckFrameBuilder} {a : AckGroup} (hfit : aw.Fits w)
    (hm : w.maxFrameSize < b.size aw + aw.encodedSize a) : b.count > 0 := by
  by_contra hc
  have := hfit a
  rw [AckFrameBuilder.size_of_not_count_pos aw hc] at hm
  omega

theorem AckInv.fitted_step {e : AckEmit} (hfit : aw.Fits w)
    (h : AckInv aw w fw pw Q maxSendSize e) (hf : AckFitted aw w e) :
    Sum.elim (fun e => AckInv aw w fw pw Q maxSendSize e ∧ AckFitted aw w e)
      (AckDoneFitted aw w minOne) (ackStep aw w fw pw minOne e) := by
  have hsize := h.size_le_maxFrameSize hfit
  have old : ∀ f ∈ e.emitted, f.len aw ≤ w.maxFrameSize ∧
      (f.frameAcks = [] → minOne = true ∧ e.emitted = [f]) :=
    fun f hf' => ⟨(hf f hf').2, fun h0 => absurd h0 (hf f hf').1⟩
  rcases ackStep_cases aw w fw pw minOne e with ⟨he, -⟩ | ⟨a, rest, -, hb, hm, he⟩ |
      ⟨a, rest, hq, hb, hm', he⟩ <;> rw [he]
  · show AckDoneFitted aw w minOne (e.closeFrame aw minOne)
    unfold AckEmit.closeFrame
    split_ifs with hc
    · intro f hf'
      simp only [emitFrame_emitted, List.mem_append, List.mem_singleton] at hf'
      rcases hf' with hf' | rfl
      · exact ⟨(hf f hf').2, fun h0 => absurd h0 (hf f hf').1⟩
      · refine ⟨by simpa using hsize, fun h0 => ?_⟩
        rw [AckFrameBuilder.build_frameAcks] at h0
        have hn : ¬e.fbuilder.count > 0 := by simp [AckFrameBuilder.count, h0]
        have hc := ((closes_iff minOne e).1 hc).resolve_left hn
        simp [hc.1, h.unsent.1 hc.2]
    · exact old
  · have hc := count_pos_of_split hfit hm
    refine ⟨h.splitFrame (by omega), fun f hf' => ?_⟩
    simp only [splitFrame_eq, emitFrame_emitted, List.mem_append, List.mem_singleton] at hf'
    rcases hf' with hf' | rfl
    · exact hf f hf'
    · refine ⟨fun h0 => ?_, by simpa using hsize⟩
      rw [AckFrameBuilder.build_frameAcks] at h0
      simp [AckFrameBuilder.count, h0] at hc
  · exact ⟨h.addAck hq hb hm', hf⟩

variable (minOne) in
/-- When an acknowledgement fits in a frame of its own, every state of a call that passed
the check of line 275 has handed over only non-empty frames within `MAX_FRAME_SIZE`, and
the state it returns from satisfies `AckDoneFitted`. -/
theorem ackIterate_fitted (fe : FrameEmitter) (hfit : aw.Fits w)
    (h : (AckFrameBuilder.new fw pw).size aw ≤ maxSendSize) (n : Nat) :
    Sum.elim (fun e => AckInv aw w fw pw fe.frameAckQueue maxSendSize e ∧ AckFitted aw w e)
      (AckDoneFitted aw w minOne)
      (ackIterate aw w fw pw minOne n (AckEmit.start fw pw maxSendSize fe)) :=
  ackIterate_induction aw w fw pw minOne _ _ (fun _ he => he.1.fitted_step hfit he.2) n _
    ⟨AckInv.start aw w fw pw _ fe h, by simp [AckFitted, AckEmit.start]⟩

/-- The invariant gives everything the next turn checks or subtracts. -/
theorem AckInv.safe {e : AckEmit} (h : AckInv aw w fw pw Q maxSendSize e) (hfit : aw.Fits w) :
    e.safe aw w minOne := by
  have hclose : (!(e.fbuilder.count > 0 || minOne && !e.frameSent) ||
      decide (e.fbuilder.size aw ≤ e.bytesRemaining)) = true := by
    cases hc : (e.fbuilder.count > 0 || minOne && !e.frameSent)
    · rfl
    · simpa using h.fitsBudget (((closes_iff minOne e).1 hc).imp_right And.right)
  unfold AckEmit.safe
  split
  · exact hclose
  · rename_i a rest _
    dsimp only
    split_ifs with hb hm
    · exact hclose
    · simp only [Bool.and_eq_true, decide_eq_true_eq]
      exact ⟨count_pos_of_split hfit hm, by omega⟩
    · rfl

end Fitted

/-! ### The call -/

section Call

variable (aw : AckWire) (w : Wire) (fw pw : Nat) (minOne : Bool)

/-- What a call returns: `0` and nothing when an empty ack frame does not fit in the
budget (line 276), or what the state the loop returned from holds. -/
theorem emitAckFrames_eq_some {fuel maxSendSize : Nat} {fe : FrameEmitter}
    {r : Nat × List AckFrame × FrameEmitter}
    (h : emitAckFrames aw w fuel fw pw maxSendSize minOne fe = some r) :
    (maxSendSize < (AckFrameBuilder.new fw pw).size aw ∧ r = (0, [], fe)) ∨
      ((AckFrameBuilder.new fw pw).size aw ≤ maxSendSize ∧ ∃ e,
        ackIterate aw w fw pw minOne fuel (AckEmit.start fw pw maxSendSize fe) = .inr e ∧
        r = (maxSendSize - e.bytesRemaining, e.emitted, { fe with frameAckQueue := e.frameAckQueue })) := by
  unfold emitAckFrames at h
  split_ifs at h with h0
  · exact .inl ⟨h0, (Option.some.inj h).symm⟩
  · split at h
    · cases h
    · rename_i e he
      exact .inr ⟨Nat.le_of_not_gt h0, e, he, (Option.some.inj h).symm⟩

/-- **The call returns** within one turn per queued acknowledgement and per byte of the
budget, and one more. -/
theorem emitAckFrames_isSome (maxSendSize : Nat) (fe : FrameEmitter) :
    ∃ r, emitAckFrames aw w (fe.frameAckQueue.length + maxSendSize + 1) fw pw maxSendSize
      minOne fe = some r := by
  unfold emitAckFrames
  split_ifs
  · exact ⟨_, rfl⟩
  · obtain ⟨e, he⟩ := ackIterate_returns aw w fw pw minOne (fe.frameAckQueue.length + maxSendSize + 1)
      (AckEmit.start fw pw maxSendSize fe) (by simp [AckEmit.start])
    rw [he]
    exact ⟨_, rfl⟩

/-- **Ack packing is exact.**  The call returns, within one turn per queued
acknowledgement and per byte of the budget.  Whatever it returns, the acknowledgements
the frames carry, in the order they were handed over, followed by the queue left behind,
are the queue it started with: the frames carry exactly the prefix popped, and nothing
else of the emitter changes.  Every frame carries the call's two window base IDs, and a
head left in the queue would not fit in a fresh ack frame within the bytes unspent. -/
theorem emitAckFrames_exact (maxSendSize : Nat) (fe : FrameEmitter) :
    (∃ r, emitAckFrames aw w (fe.frameAckQueue.length + maxSendSize + 1) fw pw maxSendSize
      minOne fe = some r) ∧
    ∀ fuel r, emitAckFrames aw w fuel fw pw maxSendSize minOne fe = some r →
      r.2.2 = { fe with frameAckQueue := r.2.2.frameAckQueue } ∧
      r.2.1.flatMap AckFrame.frameAcks ++ r.2.2.frameAckQueue = fe.frameAckQueue ∧
      (∀ f ∈ r.2.1, f.frameWindowBaseId = fw ∧ f.packetWindowBaseId = pw) ∧
      ∀ a rest, r.2.2.frameAckQueue = a :: rest →
        maxSendSize - r.1 < ((AckFrameBuilder.new fw pw).add a).size aw := by
  refine ⟨emitAckFrames_isSome aw w fw pw minOne maxSendSize fe, fun fuel r h => ?_⟩
  rcases emitAckFrames_eq_some aw w fw pw minOne h with ⟨h0, rfl⟩ | ⟨h0, e, he, rfl⟩
  · refine ⟨rfl, by simp, by simp, fun a rest _ => ?_⟩
    simp only [AckFrameBuilder.size_add, AckFrameBuilder.size_new] at h0 ⊢
    omega
  · have hd : AckDone aw fw pw minOne fe.frameAckQueue maxSendSize e := by
      simpa [he] using ackIterate_start w minOne fe h0 fuel
    refine ⟨rfl, hd.popped, hd.bases, fun a rest hr => ?_⟩
    have := hd.accounted
    have := hd.headLeft a rest hr
    dsimp only
    omega

/-- A small ack wire: empty ack frames of 9 bytes (a tag and the two base IDs), ack
groups of 9 bytes. -/
def tinyAckWire : AckWire := ⟨9, fun _ => 9, by decide⟩

/-- An ack group and its frame fit in a frame of `tinyWire`. -/
theorem tinyAckWire_fits : tinyAckWire.Fits tinyWire := fun _ => show 9 + 9 ≤ 40 by decide

/-- `freshEmitter` with four frames to acknowledge. -/
def fourAcks : FrameEmitter :=
  { freshEmitter with
    frameAckQueue := [⟨0, 1, false⟩, ⟨1, 1, true⟩, ⟨2, 1, false⟩, ⟨3, 1, true⟩] }

/-- Four acknowledgements under a 50-byte budget: the first three fill a 36-byte frame,
the split leaves 14 bytes, and the fourth, 18 bytes in a frame of its own, stays queued. -/
theorem emitAckFrames_exact_fourAcks :
    let r : Nat × List AckFrame × FrameEmitter :=
      (36, [⟨0, 0, [⟨0, 1, false⟩, ⟨1, 1, true⟩, ⟨2, 1, false⟩]⟩],
        { fourAcks with frameAckQueue := [⟨3, 1, true⟩] })
    emitAckFrames tinyAckWire tinyWire 9 0 0 50 false fourAcks = some r ∧
      r.2.2 = { fourAcks with frameAckQueue := r.2.2.frameAckQueue } ∧
      r.2.1.flatMap AckFrame.frameAcks ++ r.2.2.frameAckQueue = fourAcks.frameAckQueue ∧
      (∀ f ∈ r.2.1, f.frameWindowBaseId = 0 ∧ f.packetWindowBaseId = 0) ∧
      ∀ a rest, r.2.2.frameAckQueue = a :: rest →
        50 - r.1 < ((AckFrameBuilder.new 0 0).add a).size tinyAckWire :=
  have h : emitAckFrames tinyAckWire tinyWire 9 0 0 50 false fourAcks = some
      (36, [⟨0, 0, [⟨0, 1, false⟩, ⟨1, 1, true⟩, ⟨2, 1, false⟩]⟩],
        { fourAcks with frameAckQueue := [⟨3, 1, true⟩] }) := rfl
  ⟨h, (emitAckFrames_exact tinyAckWire tinyWire 0 0 false 50 fourAcks).2 9 _ h⟩

/-- **The ack byte budget and `min_one`.**  When a header and one acknowledgement fit in
`MAX_FRAME_SIZE`: the call returns, within one turn per queued acknowledgement and per
byte of the budget; every turn of a call that passed the check of line 275 finds what it
asserts and subtracts in place (`AckEmit.safe`: the `debug_assert!` of line 295 holds
and `bytes_remaining` never underflows, also after a split).  Whatever the call returns
is the sum of the lengths of the frames handed over and at most `max_send_size`; every
frame is at most `MAX_FRAME_SIZE` long; a frame with no acknowledgement is handed over
only when `min_one` holds, and is then the only one; and with `min_one`, when an empty
ack frame fits in the budget, a frame is handed over. -/
theorem emitAckFrames_within_budget (hfit : aw.Fits w) (maxSendSize : Nat) (fe : FrameEmitter) :
    (∃ r, emitAckFrames aw w (fe.frameAckQueue.length + maxSendSize + 1) fw pw maxSendSize
      minOne fe = some r) ∧
    ((AckFrameBuilder.new fw pw).size aw ≤ maxSendSize →
      ∀ k e, ackIterate aw w fw pw minOne k (AckEmit.start fw pw maxSendSize fe) = .inl e →
        e.safe aw w minOne) ∧
    ∀ fuel r, emitAckFrames aw w fuel fw pw maxSendSize minOne fe = some r →
      r.1 = (r.2.1.map (AckFrame.len aw)).sum ∧ r.1 ≤ maxSendSize ∧
      (∀ f ∈ r.2.1, f.len aw ≤ w.maxFrameSize) ∧
      (∀ f ∈ r.2.1, f.frameAcks = [] → minOne = true ∧ r.2.1 = [f]) ∧
      (minOne = true → (AckFrameBuilder.new fw pw).size aw ≤ maxSendSize → r.2.1 ≠ []) := by
  refine ⟨emitAckFrames_isSome aw w fw pw minOne maxSendSize fe, fun h0 k e he => ?_,
    fun fuel r h => ?_⟩
  · have := ackIterate_start w minOne fe h0 k
    rw [he] at this
    exact AckInv.safe this hfit
  rcases emitAckFrames_eq_some aw w fw pw minOne h with ⟨h0, rfl⟩ | ⟨h0, e, he, rfl⟩
  · refine ⟨rfl, Nat.zero_le _, by simp, by simp, fun _ h1 => ?_⟩
    omega
  · have hd : AckDone aw fw pw minOne fe.frameAckQueue maxSendSize e := by
      simpa [he] using ackIterate_start w minOne fe h0 fuel
    have hf : AckDoneFitted aw w minOne e := by
      simpa [he] using ackIterate_fitted minOne fe hfit h0 fuel
    have hacc := hd.accounted
    exact ⟨by dsimp only; omega, by dsimp only; omega, fun f hf' => (hf f hf').1,
      fun f hf' => (hf f hf').2, fun hm _ => hd.sent hm⟩

/-- An empty queue with `min_one`: one empty ack frame of 9 bytes is handed over, after a
turn that checks its subtraction. -/
theorem emitAckFrames_within_budget_minOne :
    let r : Nat × List AckFrame × FrameEmitter := (9, [⟨0, 0, []⟩], freshEmitter)
    tinyAckWire.Fits tinyWire ∧
      (∃ r', emitAckFrames tinyAckWire tinyWire (freshEmitter.frameAckQueue.length + 50 + 1) 0 0
        50 true freshEmitter = some r') ∧
      (AckFrameBuilder.new 0 0).size tinyAckWire ≤ 50 ∧
      ackIterate tinyAckWire tinyWire 0 0 true 0 (AckEmit.start 0 0 50 freshEmitter) =
        .inl (AckEmit.start 0 0 50 freshEmitter) ∧
      (AckEmit.start 0 0 50 freshEmitter).safe tinyAckWire tinyWire true ∧
      emitAckFrames tinyAckWire tinyWire (freshEmitter.frameAckQueue.length + 50 + 1) 0 0 50 true
        freshEmitter = some r ∧
      r.1 = (r.2.1.map (AckFrame.len tinyAckWire)).sum ∧ r.1 ≤ 50 ∧
      (∀ f ∈ r.2.1, f.len tinyAckWire ≤ tinyWire.maxFrameSize) ∧
      (∀ f ∈ r.2.1, f.frameAcks = [] → true = true ∧ r.2.1 = [f]) ∧
      (true = true → (AckFrameBuilder.new 0 0).size tinyAckWire ≤ 50 → r.2.1 ≠ []) :=
  have h0 : (AckFrameBuilder.new 0 0).size tinyAckWire ≤ 50 := by decide
  have hr : emitAckFrames tinyAckWire tinyWire (freshEmitter.frameAckQueue.length + 50 + 1) 0 0
      50 true freshEmitter = some (9, [⟨0, 0, []⟩], freshEmitter) := rfl
  have hb := emitAckFrames_within_budget tinyAckWire tinyWire 0 0 true tinyAckWire_fits 50
    freshEmitter
  ⟨tinyAckWire_fits, hb.1, h0, rfl, hb.2.1 h0 0 _ rfl, hr, hb.2.2 _ _ hr⟩

end Call

end DatenMeister
end Porous
