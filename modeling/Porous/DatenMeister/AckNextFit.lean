import Porous.DatenMeister.AckFrames

/-!
# `emit_ack_frames` pops the longest prefix that packs into the budget

The loop of `emit_ack_frames` (`src/endpoint/daten_meister/emit_frame.rs`, lines
264-318) interleaves three things: the comparison with the bytes left (line 284), the
split at `MAX_FRAME_SIZE` (line 294), and the retry of the same head after a split.
Take the budget out and what remains is next-fit packing: an acknowledgement joins the
open frame when the two fit in `MAX_FRAME_SIZE`, and otherwise closes it and opens the
next (`nextFit`).  `packedSize` is the bytes that packing takes, the open frame's
included.

When an acknowledgement fits in a frame of its own, a call pops exactly the longest
prefix of the queue whose packed size fits the budget, and returns that size
(`emitAckFrames_longest_prefix`).  The loop keeps `Tracks`: the reference packer, run on
what has been popped, is where the loop is, or one turn ahead of it right after a split.

Next-fit never gains by closing a frame early (`packedSize_append_le`): a packer whose
open frame is no fuller stays ahead of one that opened its frame later (`Ahead`).  So two
calls with budgets `B1` and `B2` never pop more than one call with `B1 + B2`
(`emitAckFrames_split_budget`), and no cut of the popped acknowledgements into frames
takes fewer bytes than the call spends (`emitAckFrames_fewest_bytes`).
-/

namespace Porous
namespace DatenMeister

/-! ### Next-fit packing -/

section Reference

variable (aw : AckWire) (w : Wire)

/-- Next-fit packing of one acknowledgement, on the bytes of the closed frames and of the
open one: it joins the open frame when the two fit in `MAX_FRAME_SIZE`, and otherwise
closes it and opens the next. -/
def nextFit (s : Nat × Nat) (a : AckGroup) : Nat × Nat :=
  if s.2 + aw.encodedSize a ≤ w.maxFrameSize then (s.1, s.2 + aw.encodedSize a)
  else (s.1 + s.2, aw.ackFrameOverhead + aw.encodedSize a)

/-- Next-fit packing of `acks` from one empty open frame. -/
def packState (acks : List AckGroup) : Nat × Nat :=
  acks.foldl (nextFit aw w) (0, aw.ackFrameOverhead)

/-- The bytes the ack frames of `acks` take when packed next-fit, the open frame's
included. -/
def packedSize (acks : List AckGroup) : Nat :=
  (packState aw w acks).1 + (packState aw w acks).2

@[simp] theorem packState_nil : packState aw w [] = (0, aw.ackFrameOverhead) := rfl

@[simp] theorem packState_append_singleton (acks : List AckGroup) (a : AckGroup) :
    packState aw w (acks ++ [a]) = nextFit aw w (packState aw w acks) a := by
  simp [packState]

/-- A step of next-fit spends the acknowledgement's bytes, and a header's when it opens a
frame. -/
theorem nextFit_total (s : Nat × Nat) (a : AckGroup) :
    s.1 + s.2 + aw.encodedSize a ≤ (nextFit aw w s a).1 + (nextFit aw w s a).2 := by
  unfold nextFit
  split_ifs <;> dsimp only <;> omega

theorem packedSize_le_append (xs ys : List AckGroup) :
    packedSize aw w xs ≤ packedSize aw w (xs ++ ys) := by
  induction ys generalizing xs with
  | nil => simp
  | cons a ys ih =>
    calc packedSize aw w xs ≤ packedSize aw w (xs ++ [a]) := by
          have := nextFit_total aw w (packState aw w xs) a
          simp only [packedSize, packState_append_singleton]
          omega
      _ ≤ packedSize aw w (xs ++ a :: ys) := by simpa using ih (xs ++ [a])

theorem overhead_le_packedSize (acks : List AckGroup) :
    aw.ackFrameOverhead ≤ packedSize aw w acks := by
  simpa [packedSize] using packedSize_le_append aw w [] acks

/-- Next-fit from `A` is ahead of next-fit from `B` on the same acknowledgements, `d`
bytes of other frames aside: `B`'s open frame holds a header, and either `A` has spent
no more bytes and its open frame is no fuller, or `A` has spent a header's bytes less. -/
def Ahead (d : Nat) (A B : Nat × Nat) : Prop :=
  aw.ackFrameOverhead ≤ B.2 ∧
    (A.1 + A.2 ≤ B.1 + B.2 + d ∧ A.2 ≤ B.2 ∨ A.1 + A.2 + aw.ackFrameOverhead ≤ B.1 + B.2 + d)

variable {aw w}

/-- **Next-fit stays ahead.**  A packer whose open frame is no fuller takes an
acknowledgement into it whenever the other does; when only the other opens a frame, the
header it pays is the lead. -/
theorem Ahead.nextFit {d : Nat} {A B : Nat × Nat} (h : Ahead aw d A B) (a : AckGroup) :
    Ahead aw d (DatenMeister.nextFit aw w A a) (DatenMeister.nextFit aw w B a) := by
  obtain ⟨hB, hAB⟩ := h
  unfold DatenMeister.nextFit Ahead
  split_ifs <;> dsimp only <;> omega

variable (w) in
theorem Ahead.foldl {d : Nat} (acks : List AckGroup) : ∀ {A B : Nat × Nat}, Ahead aw d A B →
    Ahead aw d (acks.foldl (DatenMeister.nextFit aw w) A)
      (acks.foldl (DatenMeister.nextFit aw w) B) := by
  induction acks with
  | nil => exact id
  | cons a acks ih => exact fun h => ih (h.nextFit a)

variable (aw w)

/-- **Closing a frame early never pays**: packing `xs ++ ys` next-fit takes no more bytes
than packing `xs` and then `ys` from a frame of its own. -/
theorem packedSize_append_le (xs ys : List AckGroup) :
    packedSize aw w (xs ++ ys) ≤ packedSize aw w xs + packedSize aw w ys := by
  have h : Ahead aw (packedSize aw w xs) (packState aw w xs) (0, aw.ackFrameOverhead) :=
    ⟨le_refl _, .inr (by simp only [packedSize]; omega)⟩
  have := (Ahead.foldl w ys h).2
  simp only [packedSize, packState, List.foldl_append] at this ⊢
  omega

/-- Acknowledgements that fit in one frame are packed next-fit into that frame. -/
theorem packedSize_of_frameSize_le {f : List AckGroup} (hM : aw.frameSize f ≤ w.maxFrameSize) :
    packedSize aw w f = aw.frameSize f := by
  suffices packState aw w f = (0, aw.frameSize f) by simp [packedSize, this]
  induction f using List.reverseRecOn with
  | nil => simp
  | append_singleton f a ih =>
    rw [AckWire.frameSize_append_singleton] at hM ⊢
    rw [packState_append_singleton, ih (by omega), nextFit, if_pos hM]

/-- Packing lists one after another, each from a frame of its own, never beats packing
them together. -/
theorem packedSize_flatten_le {fs : List (List AckGroup)} (hne : fs ≠ []) :
    packedSize aw w fs.flatten ≤ (fs.map (packedSize aw w)).sum := by
  induction fs with
  | nil => exact absurd rfl hne
  | cons f fs ih =>
    rcases eq_or_ne fs [] with rfl | hfs
    · simp
    · have := packedSize_append_le aw w f fs.flatten
      have := ih hfs
      simp only [List.flatten_cons, List.map_cons, List.sum_cons]
      omega

end Reference

/-! ### The loop follows the reference packer -/

/-- The acknowledgements a state of the loop of `emit_ack_frames` has popped from the
queue: those of the frames handed over, then those of the builder. -/
def AckEmit.popped (e : AckEmit) : List AckGroup :=
  e.emitted.flatMap AckFrame.frameAcks ++ e.fbuilder.frameAcks

section Tracking

variable (aw : AckWire) (w : Wire)

/-- The reference packer, run on what a state of the loop has popped, is where the loop
is: its closed frames take the bytes of the frames handed over and its open frame is the
builder, which holds an acknowledgement once a frame has been handed over.  Or, right
after a split (line 294), it is one turn ahead: the builder is empty, the frames handed
over take all its bytes, and the head of the queue did not fit in its open frame. -/
def Tracks (e : AckEmit) : Prop :=
  (packState aw w e.popped = ((e.emitted.map (AckFrame.len aw)).sum, e.fbuilder.size aw) ∧
      (e.fbuilder.count > 0 ∨ e.frameSent = false)) ∨
    (e.fbuilder.frameAcks = [] ∧ e.frameSent = true ∧
      (packState aw w e.popped).1 + (packState aw w e.popped).2 =
        (e.emitted.map (AckFrame.len aw)).sum ∧
      ∀ a ∈ e.frameAckQueue.head?, w.maxFrameSize < (packState aw w e.popped).2 + aw.encodedSize a)

/-- The state a call returns from, within `maxSendSize` bytes: the bytes spent are the
packed size of what was popped, when anything was, and the head left in the queue would
take that packed size past the budget. -/
def PacksNextFit (maxSendSize : Nat) (e : AckEmit) : Prop :=
  (e.emitted.flatMap AckFrame.frameAcks ≠ [] →
      maxSendSize - e.bytesRemaining = packedSize aw w (e.emitted.flatMap AckFrame.frameAcks)) ∧
    ∀ a rest, e.frameAckQueue = a :: rest →
      maxSendSize < packedSize aw w (e.emitted.flatMap AckFrame.frameAcks ++ [a])

variable (minOne : Bool) (e : AckEmit)

/-- The return hands over the builder only when it holds the popped acknowledgements not
yet handed over, or none. -/
theorem closeFrame_popped :
    (e.closeFrame aw minOne).emitted.flatMap AckFrame.frameAcks = e.popped := by
  unfold AckEmit.closeFrame AckEmit.popped
  split_ifs with hc
  · simp
  · rw [AckEmit.closes_iff, not_or] at hc
    simp [AckFrameBuilder.frameAcks_eq_nil hc.1]

@[simp] theorem closeFrame_frameAckQueue :
    (e.closeFrame aw minOne).frameAckQueue = e.frameAckQueue := by
  unfold AckEmit.closeFrame
  split_ifs <;> rfl

variable {aw w minOne e} {fw pw : Nat} {Q : List AckGroup} {maxSendSize : Nat}

variable (aw) in
theorem AckFrameBuilder.size_of_frameAcks_nil {b : AckFrameBuilder} (h : b.frameAcks = []) :
    b.size aw = aw.ackFrameOverhead := by
  simp [AckFrameBuilder.size, h]

theorem Tracks.start (fe : FrameEmitter) :
    Tracks aw w (AckEmit.start fw pw maxSendSize fe) :=
  .inl ⟨by simp [AckEmit.start, AckEmit.popped, AckFrameBuilder.new, AckFrameBuilder.size],
    .inr rfl⟩

theorem Tracks.addAck {a : AckGroup} {rest : List AckGroup} (h : Tracks aw w e)
    (hq : e.frameAckQueue = a :: rest)
    (hm : e.fbuilder.size aw + aw.encodedSize a ≤ w.maxFrameSize) :
    Tracks aw w { e with fbuilder := e.fbuilder.add a, frameAckQueue := rest } := by
  have hp : AckEmit.popped { e with fbuilder := e.fbuilder.add a, frameAckQueue := rest } =
      e.popped ++ [a] := by
    simp [AckEmit.popped, AckFrameBuilder.add]
  refine .inl ⟨?_, .inl (by simp [AckFrameBuilder.count, AckFrameBuilder.add])⟩
  rw [hp, packState_append_singleton, nextFit, AckFrameBuilder.size_add]
  rcases h with ⟨hs, -⟩ | ⟨h0, -, hs, hhead⟩
  · rw [hs, if_pos hm]
  · have hsize := AckFrameBuilder.size_of_frameAcks_nil aw h0
    rw [if_neg (by have := hhead a (by simp [hq]); omega)]
    simp only [hsize, hs]

theorem Tracks.splitFrame {a : AckGroup} {rest : List AckGroup} (hfit : aw.Fits w)
    (h : Tracks aw w e) (hq : e.frameAckQueue = a :: rest)
    (hm : w.maxFrameSize < e.fbuilder.size aw + aw.encodedSize a) :
    Tracks aw w (e.splitFrame aw fw pw) := by
  have hp : (e.splitFrame aw fw pw).popped = e.popped := by
    simp [AckEmit.popped, AckFrameBuilder.new]
  rcases h with ⟨hs, -⟩ | ⟨h0, -, -, -⟩
  · refine .inr ⟨rfl, rfl, ?_, fun a' ha' => ?_⟩
    · rw [hp, hs]
      simp
    · obtain rfl : a = a' := by simpa [hq] using ha'
      rw [hp, hs]
      exact hm
  · have := hfit a
    rw [AckFrameBuilder.size_of_frameAcks_nil aw h0] at hm
    omega

theorem Tracks.closeFrame (hI : AckInv aw w fw pw Q maxSendSize e) (h : Tracks aw w e)
    (hq : ∀ a rest, e.frameAckQueue = a :: rest →
      e.bytesRemaining < e.fbuilder.size aw + aw.encodedSize a) :
    PacksNextFit aw w maxSendSize (e.closeFrame aw minOne) := by
  have hacc := hI.accounted
  rw [PacksNextFit, closeFrame_popped, closeFrame_frameAckQueue]
  rcases h with ⟨hs, hc⟩ | ⟨h0, hsent, hs, hhead⟩
  · refine ⟨fun hne => ?_, fun a rest hr => ?_⟩
    · have hpos : e.fbuilder.count > 0 := by
        by_contra hc0
        refine hne ?_
        simp [AckEmit.popped, hI.unsent.1 (hc.resolve_left hc0),
          AckFrameBuilder.frameAcks_eq_nil hc0]
      have hb := hI.fitsBudget (.inl hpos)
      rw [AckEmit.closeFrame, if_pos ((AckEmit.closes_iff minOne e).2 (.inl hpos)),
        AckEmit.emitFrame_bytesRemaining, packedSize, hs]
      dsimp only
      omega
    · have := hq a rest hr
      have := nextFit_total aw w (packState aw w e.popped) a
      rw [hs] at this
      rw [packedSize, packState_append_singleton, hs]
      omega
  · have hsize := AckFrameBuilder.size_of_frameAcks_nil aw h0
    refine ⟨fun _ => ?_, fun a rest hr => ?_⟩
    · rw [AckEmit.closeFrame, if_neg (by simp [AckFrameBuilder.count, h0, hsent]), packedSize]
      omega
    · have hm := hhead a (by simp [hr])
      have := hq a rest hr
      rw [packedSize, packState_append_singleton, nextFit, if_neg (by omega)]
      dsimp only
      omega

/-- **One turn keeps `Tracks`**, or returns from a state that packs next-fit. -/
theorem Tracks.step (hfit : aw.Fits w) (hI : AckInv aw w fw pw Q maxSendSize e)
    (h : Tracks aw w e) :
    Sum.elim (fun e => AckInv aw w fw pw Q maxSendSize e ∧ Tracks aw w e)
      (PacksNextFit aw w maxSendSize) (ackStep aw w fw pw minOne e) := by
  rcases ackStep_cases aw w fw pw minOne e with ⟨he, hq⟩ | ⟨a, rest, hq, hb, hm, he⟩ |
      ⟨a, rest, hq, hb, hm, he⟩ <;> rw [he]
  · exact h.closeFrame hI hq
  · exact ⟨hI.splitFrame (by omega), h.splitFrame hfit hq hm⟩
  · exact ⟨hI.addAck hq hb hm, h.addAck hq hm⟩

variable (minOne) in
/-- When an acknowledgement fits in a frame of its own, every state of a call that passed
the check of line 275 is tracked by the reference packer, and the state it returns from
packs next-fit. -/
theorem ackIterate_tracks (fe : FrameEmitter) (hfit : aw.Fits w)
    (h : (AckFrameBuilder.new fw pw).size aw ≤ maxSendSize) (n : Nat) :
    Sum.elim (fun e => AckInv aw w fw pw fe.frameAckQueue maxSendSize e ∧ Tracks aw w e)
      (PacksNextFit aw w maxSendSize)
      (ackIterate aw w fw pw minOne n (AckEmit.start fw pw maxSendSize fe)) :=
  ackIterate_induction aw w fw pw minOne _ _ (fun _ he => he.2.step hfit he.1) n _
    ⟨AckInv.start aw w fw pw _ fe h, Tracks.start fe⟩

end Tracking

/-! ### The call -/

section Call

variable {aw : AckWire} {w : Wire}

/-- What a call returns, read through the reference packer: the popped prefix and the
queue left make up the queue, the bytes returned are within the budget and are the packed
size of what was popped, and the head left would take that past the budget. -/
theorem emitAckFrames_packed (hfit : aw.Fits w) {fuel fw pw maxSendSize : Nat} {minOne : Bool}
    {fe : FrameEmitter} {r : Nat × List AckFrame × FrameEmitter}
    (h : emitAckFrames aw w fuel fw pw maxSendSize minOne fe = some r) :
    r.2.1.flatMap AckFrame.frameAcks ++ r.2.2.frameAckQueue = fe.frameAckQueue ∧
      r.1 ≤ maxSendSize ∧
      (r.2.1.flatMap AckFrame.frameAcks ≠ [] →
        r.1 = packedSize aw w (r.2.1.flatMap AckFrame.frameAcks)) ∧
      ∀ a rest, r.2.2.frameAckQueue = a :: rest →
        maxSendSize < packedSize aw w (r.2.1.flatMap AckFrame.frameAcks ++ [a]) := by
  rcases emitAckFrames_eq_some aw w fw pw minOne h with ⟨h0, rfl⟩ | ⟨h0, e, he, rfl⟩
  · refine ⟨by simp, Nat.zero_le _, by simp, fun a _ _ => ?_⟩
    have := overhead_le_packedSize aw w [a]
    rw [AckFrameBuilder.size_new] at h0
    simp only [List.flatMap_nil, List.nil_append]
    omega
  · have hd : AckDone aw fw pw minOne fe.frameAckQueue maxSendSize e := by
      simpa [he] using ackIterate_start w minOne fe h0 fuel
    have ht : PacksNextFit aw w maxSendSize e := by
      simpa [he] using ackIterate_tracks minOne fe hfit h0 fuel
    exact ⟨hd.popped, Nat.sub_le _ _, ht.1, ht.2⟩

/-- A call pops every prefix of the queue whose packed size fits the budget. -/
theorem emitAckFrames_pops_fitting (hfit : aw.Fits w) {fuel fw pw maxSendSize : Nat}
    {minOne : Bool} {fe : FrameEmitter} {r : Nat × List AckFrame × FrameEmitter}
    (h : emitAckFrames aw w fuel fw pw maxSendSize minOne fe = some r) {p : List AckGroup}
    (hp : p <+: fe.frameAckQueue) (hB : packedSize aw w p ≤ maxSendSize) :
    p <+: r.2.1.flatMap AckFrame.frameAcks := by
  obtain ⟨hQ, -, -, hstop⟩ := emitAckFrames_packed hfit h
  rcases List.prefix_or_prefix_of_prefix hp (hQ ▸ List.prefix_append _ _) with hpp | ⟨t, rfl⟩
  · exact hpp
  cases t with
  | nil => simp
  | cons a t =>
    obtain ⟨u, hu⟩ := hp
    rw [← hQ, List.append_assoc, List.append_cancel_left_eq] at hu
    have hlt := hstop a (t ++ u) (by simp [← hu])
    have := packedSize_le_append aw w (r.2.1.flatMap AckFrame.frameAcks ++ [a]) t
    simp only [List.append_assoc, List.singleton_append] at this
    omega

/-- **`emit_ack_frames` pops the longest prefix that packs into the budget.**  When an
acknowledgement fits in a frame of its own, whatever a call returns: a prefix of the
queue is popped exactly when it is empty or its acknowledgements, packed next-fit into
ack frames, take at most `max_send_size` bytes; and when anything is popped, the call
returns that packed size. -/
theorem emitAckFrames_longest_prefix (hfit : aw.Fits w) {fuel fw pw maxSendSize : Nat}
    {minOne : Bool} {fe : FrameEmitter} {r : Nat × List AckFrame × FrameEmitter}
    (h : emitAckFrames aw w fuel fw pw maxSendSize minOne fe = some r) :
    (r.2.1.flatMap AckFrame.frameAcks ≠ [] →
      r.1 = packedSize aw w (r.2.1.flatMap AckFrame.frameAcks)) ∧
    ∀ p, p <+: fe.frameAckQueue →
      (p <+: r.2.1.flatMap AckFrame.frameAcks ↔ p = [] ∨ packedSize aw w p ≤ maxSendSize) := by
  obtain ⟨-, hle, hsize, -⟩ := emitAckFrames_packed hfit h
  refine ⟨hsize, fun p hp => ⟨fun ⟨t, ht⟩ => ?_, ?_⟩⟩
  · by_cases hp0 : p = []
    · exact .inl hp0
    · have hne : r.2.1.flatMap AckFrame.frameAcks ≠ [] := by simp [← ht, hp0]
      refine .inr ?_
      calc packedSize aw w p ≤ packedSize aw w (p ++ t) := packedSize_le_append aw w p t
        _ = r.1 := by rw [ht, hsize hne]
        _ ≤ maxSendSize := hle
  · rintro (rfl | hB)
    · exact List.nil_prefix
    · exact emitAckFrames_pops_fitting hfit h hp hB

/-- Four acknowledgements under a 50-byte budget: the first three pack into 36 bytes and
are popped; all four would take 54, the fourth opening a frame of its own. -/
theorem emitAckFrames_longest_prefix_fourAcks :
    tinyAckWire.Fits tinyWire ∧ packedSize tinyAckWire tinyWire fourAcks.frameAckQueue = 54 ∧
      ∃ r, emitAckFrames tinyAckWire tinyWire 9 0 0 50 false fourAcks = some r ∧ r.1 = 36 ∧
        (r.2.1.flatMap AckFrame.frameAcks ≠ [] →
          r.1 = packedSize tinyAckWire tinyWire (r.2.1.flatMap AckFrame.frameAcks)) ∧
        ∀ p, p <+: fourAcks.frameAckQueue →
          (p <+: r.2.1.flatMap AckFrame.frameAcks ↔
            p = [] ∨ packedSize tinyAckWire tinyWire p ≤ 50) :=
  ⟨tinyAckWire_fits, rfl, _, rfl, rfl, emitAckFrames_longest_prefix tinyAckWire_fits
    (show emitAckFrames tinyAckWire tinyWire 9 0 0 50 false fourAcks = _ from rfl)⟩

/-- **Splitting a budget never pops more.**  When an acknowledgement fits in a frame of
its own, two successive calls of `emit_ack_frames` with budgets `B1` and `B2` pop a
prefix of what one call with `B1 + B2` pops from the same queue, whatever the window
base IDs and `min_one` of each call. -/
theorem emitAckFrames_split_budget (hfit : aw.Fits w) {fuel1 fuel2 fuel B1 B2 : Nat}
    {fw1 pw1 fw2 pw2 fw pw : Nat} {minOne1 minOne2 minOne : Bool} {fe : FrameEmitter}
    {r1 r2 r : Nat × List AckFrame × FrameEmitter}
    (h1 : emitAckFrames aw w fuel1 fw1 pw1 B1 minOne1 fe = some r1)
    (h2 : emitAckFrames aw w fuel2 fw2 pw2 B2 minOne2 r1.2.2 = some r2)
    (h : emitAckFrames aw w fuel fw pw (B1 + B2) minOne fe = some r) :
    (r1.2.1 ++ r2.2.1).flatMap AckFrame.frameAcks <+: r.2.1.flatMap AckFrame.frameAcks := by
  obtain ⟨hQ1, hle1, hs1, -⟩ := emitAckFrames_packed hfit h1
  obtain ⟨hQ2, hle2, hs2, -⟩ := emitAckFrames_packed hfit h2
  have fit1 := (eq_or_ne (r1.2.1.flatMap AckFrame.frameAcks) []).imp_right fun hne =>
    (hs1 hne).symm.trans_le hle1
  have fit2 := (eq_or_ne (r2.2.1.flatMap AckFrame.frameAcks) []).imp_right fun hne =>
    (hs2 hne).symm.trans_le hle2
  have hp : (r1.2.1 ++ r2.2.1).flatMap AckFrame.frameAcks <+: fe.frameAckQueue :=
    ⟨r2.2.2.frameAckQueue, by rw [List.flatMap_append, List.append_assoc, hQ2, hQ1]⟩
  rw [List.flatMap_append] at hp ⊢
  rcases fit1 with h1' | h1' <;> rcases fit2 with h2' | h2'
  · simp [h1', h2']
  · refine emitAckFrames_pops_fitting hfit h hp ?_
    rw [h1', List.nil_append]
    omega
  · refine emitAckFrames_pops_fitting hfit h hp ?_
    rw [h2', List.append_nil]
    omega
  · refine emitAckFrames_pops_fitting hfit h hp ?_
    have := packedSize_append_le aw w (r1.2.1.flatMap AckFrame.frameAcks)
      (r2.2.1.flatMap AckFrame.frameAcks)
    omega

/-- Four acknowledgements under two budgets of 25 bytes, and under one of 50: each small
call pops one acknowledgement into an 18-byte frame, the large call three into one of 36. -/
theorem emitAckFrames_split_budget_fourAcks :
    tinyAckWire.Fits tinyWire ∧ ∃ r1 r2 r,
      emitAckFrames tinyAckWire tinyWire 10 0 0 25 false fourAcks = some r1 ∧
      emitAckFrames tinyAckWire tinyWire 10 0 0 25 false r1.2.2 = some r2 ∧
      emitAckFrames tinyAckWire tinyWire 10 0 0 (25 + 25) false fourAcks = some r ∧
      ((r1.2.1 ++ r2.2.1).flatMap AckFrame.frameAcks).length = 2 ∧
      (r.2.1.flatMap AckFrame.frameAcks).length = 3 ∧
      (r1.2.1 ++ r2.2.1).flatMap AckFrame.frameAcks <+: r.2.1.flatMap AckFrame.frameAcks :=
  ⟨tinyAckWire_fits, _, _, _, rfl, rfl, rfl, rfl, rfl,
    emitAckFrames_split_budget tinyAckWire_fits
      (show emitAckFrames tinyAckWire tinyWire 10 0 0 25 false fourAcks = _ from rfl)
      (show emitAckFrames tinyAckWire tinyWire 10 0 0 25 false
        { fourAcks with frameAckQueue := [⟨1, 1, true⟩, ⟨2, 1, false⟩, ⟨3, 1, true⟩] } = _ from rfl)
      (show emitAckFrames tinyAckWire tinyWire 10 0 0 (25 + 25) false fourAcks = _ from rfl)⟩

/-- **`emit_ack_frames` spends the fewest bytes for what it pops.**  When an
acknowledgement fits in a frame of its own and a call pops anything, any way of cutting
the popped acknowledgements, in order, into ack frames of at most `MAX_FRAME_SIZE` bytes
takes at least the bytes the call returns. -/
theorem emitAckFrames_fewest_bytes (hfit : aw.Fits w) {fuel fw pw maxSendSize : Nat}
    {minOne : Bool} {fe : FrameEmitter} {r : Nat × List AckFrame × FrameEmitter}
    (h : emitAckFrames aw w fuel fw pw maxSendSize minOne fe = some r)
    (hne : r.2.1.flatMap AckFrame.frameAcks ≠ []) (fs : List (List AckGroup))
    (hfs : fs.flatten = r.2.1.flatMap AckFrame.frameAcks)
    (hM : ∀ f ∈ fs, aw.frameSize f ≤ w.maxFrameSize) :
    r.1 ≤ (fs.map aw.frameSize).sum := by
  obtain ⟨-, -, hsize, -⟩ := emitAckFrames_packed hfit h
  have hfs0 : fs ≠ [] := by
    rintro rfl
    exact hne hfs.symm
  calc r.1 = packedSize aw w fs.flatten := by rw [hfs, hsize hne]
    _ ≤ (fs.map (packedSize aw w)).sum := packedSize_flatten_le aw w hfs0
    _ = (fs.map aw.frameSize).sum :=
      congrArg List.sum (List.map_congr_left fun f hf => packedSize_of_frameSize_le aw w (hM f hf))

/-- Three acknowledgements popped under a 50-byte budget, packed by the call into one
36-byte frame, would take 45 bytes cut after the first. -/
theorem emitAckFrames_fewest_bytes_fourAcks :
    let fs : List (List AckGroup) := [[⟨0, 1, false⟩], [⟨1, 1, true⟩, ⟨2, 1, false⟩]]
    tinyAckWire.Fits tinyWire ∧ (fs.map tinyAckWire.frameSize).sum = 45 ∧
      ∃ r, emitAckFrames tinyAckWire tinyWire 9 0 0 50 false fourAcks = some r ∧ r.1 = 36 ∧
        r.2.1.flatMap AckFrame.frameAcks ≠ [] ∧ fs.flatten = r.2.1.flatMap AckFrame.frameAcks ∧
        (∀ f ∈ fs, tinyAckWire.frameSize f ≤ tinyWire.maxFrameSize) ∧
        r.1 ≤ (fs.map tinyAckWire.frameSize).sum :=
  ⟨tinyAckWire_fits, rfl, _, rfl, rfl, by decide, rfl, by decide,
    emitAckFrames_fewest_bytes tinyAckWire_fits
      (show emitAckFrames tinyAckWire tinyWire 9 0 0 50 false fourAcks = _ from rfl) (by decide)
      _ rfl (by decide)⟩

end Call

end DatenMeister
end Porous
