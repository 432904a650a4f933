import Porous.DatenMeister.AckFrames

/-!
# Greedy ack frames, and what a larger budget pops

Two facts about `emit_ack_frames` (`src/endpoint/daten_meister/emit_frame.rs`, lines
264-318) that `Porous.DatenMeister.AckFrames` does not reach.

The builder is handed over inside the loop only at line 294, when the head of the queue
would take it past `MAX_FRAME_SIZE`, and the next frame starts with that head.  So no
frame is closed early: between two consecutive frames, the first acknowledgement of the
second would not have fitted in the first (`emitAckFrames_split_full`).  The loop keeps
`AckSplit`, which also remembers, for the last frame handed over, the acknowledgement
the builder starts with, or will start with when it is still empty.

`max_send_size` enters the loop only through the comparison of line 284.  Two calls from
the same emitter with budgets `B` and `B + k` take the same turns, their states differing
by `k` bytes left (`AckEmit.addBudget`), until the smaller one returns.  From that state
on the larger call only pops more and hands over more: what the call would return if it
returned now (`AckEmit.wouldSend`) never falls.  Hence the larger call pops a longer
prefix of the queue and returns at least as many bytes (`emitAckFrames_budget_mono`).
-/

namespace Porous
namespace DatenMeister

open AckEmit

/-! ### Frames are split only at `MAX_FRAME_SIZE` -/

/-- The frame `g` follows `f` only because its first acknowledgement would have taken `f`
past `MAX_FRAME_SIZE`. -/
def SplitFull (aw : AckWire) (w : Wire) (f g : AckFrame) : Prop :=
  ∀ a ∈ g.frameAcks.head?, w.maxFrameSize < f.len aw + aw.encodedSize a

/-- Between turns: the frames handed over are split full, and the last of them could not
take the first acknowledgement of the builder, or of the queue while the builder is
empty. -/
structure AckSplit (aw : AckWire) (w : Wire) (e : AckEmit) : Prop where
  chain : e.emitted.Chain' (SplitFull aw w)
  last : ∀ f ∈ e.emitted.getLast?, ∀ a ∈ (e.fbuilder.frameAcks ++ e.frameAckQueue).head?,
    w.maxFrameSize < f.len aw + aw.encodedSize a

section Split

variable {aw : AckWire} {w : Wire}

/-- Handing the builder over keeps the frames split full. -/
theorem AckSplit.chain_emitFrame {e : AckEmit} (h : AckSplit aw w e) :
    (e.emitFrame aw).emitted.Chain' (SplitFull aw w) := by
  rw [emitFrame_emitted, List.chain'_append]
  refine ⟨h.chain, List.chain'_singleton _, fun f hf g hg a ha => h.last f hf a ?_⟩
  obtain rfl : e.fbuilder.build = g := by simpa using hg
  rw [AckFrameBuilder.build_frameAcks] at ha
  cases hb : e.fbuilder.frameAcks with
  | nil => simp [hb] at ha
  | cons x xs => simpa [hb] using ha

variable (aw w) (fw pw : Nat) (minOne : Bool)

/-- **One turn keeps `AckSplit`**, and a return leaves the frames split full: a split
hands over a builder that the head would take past `MAX_FRAME_SIZE` and retries the head
in a fresh builder, and adding the head leaves the acknowledgements in order. -/
theorem AckSplit.step {e : AckEmit} (h : AckSplit aw w e) :
    Sum.elim (AckSplit aw w) (fun e => e.emitted.Chain' (SplitFull aw w))
      (ackStep aw w fw pw minOne e) := by
  rcases ackStep_cases aw w fw pw minOne e with ⟨he, -⟩ | ⟨a, rest, hq, -, hm, he⟩ |
      ⟨a, rest, hq, -, -, he⟩ <;> rw [he]
  · show (e.closeFrame aw minOne).emitted.Chain' (SplitFull aw w)
    unfold closeFrame
    split_ifs
    · exact h.chain_emitFrame
    · exact h.chain
  · refine ⟨h.chain_emitFrame, fun f hf b hb => ?_⟩
    simp only [splitFrame_eq, emitFrame_emitted, List.getLast?_concat, Option.mem_some_iff] at hf
    simp only [splitFrame_eq, emitFrame_frameAckQueue, AckFrameBuilder.new, List.nil_append, hq,
      List.head?_cons, Option.mem_some_iff] at hb
    subst hf hb
    exact hm
  · refine ⟨h.chain, fun f hf b hb => h.last f hf b ?_⟩
    simpa [AckFrameBuilder.add, hq] using hb

/-- **No ack frame is closed early.**  Whatever a call returns, each frame it hands over
after another starts with an acknowledgement that would have taken the one before past
`MAX_FRAME_SIZE`. -/
theorem emitAckFrames_split_full {fuel maxSendSize : Nat} {fe : FrameEmitter}
    {r : Nat × List AckFrame × FrameEmitter}
    (h : emitAckFrames aw w fuel fw pw maxSendSize minOne fe = some r) :
    r.2.1.Chain' (SplitFull aw w) := by
  rcases emitAckFrames_eq_some aw w fw pw minOne h with ⟨-, rfl⟩ | ⟨-, e, he, rfl⟩
  · exact List.chain'_nil
  · have := ackIterate_induction aw w fw pw minOne (AckSplit aw w)
      (fun e => e.emitted.Chain' (SplitFull aw w)) (fun _ h => h.step aw w fw pw minOne) fuel
      (AckEmit.start fw pw maxSendSize fe) ⟨List.chain'_nil, by simp [AckEmit.start]⟩
    rwa [he] at this

/-- Four acknowledgements under a 100-byte budget: the fourth would take the first frame
to 45 bytes, past the 40 of `tinyWire`, and starts the second. -/
theorem emitAckFrames_split_full_fourAcks :
    ∃ r, emitAckFrames tinyAckWire tinyWire 10 0 0 100 false fourAcks = some r ∧
      r.2.1.length = 2 ∧ r.2.1.Chain' (SplitFull tinyAckWire tinyWire) :=
  ⟨_, rfl, rfl, emitAckFrames_split_full tinyAckWire tinyWire 0 0 false
    (show emitAckFrames tinyAckWire tinyWire 10 0 0 100 false fourAcks = _ from rfl)⟩

end Split

/-! ### A larger budget pops a longer prefix -/

@[simp] theorem AckFrameBuilder.count_add (b : AckFrameBuilder) (a : AckGroup) :
    (b.add a).count = b.count + 1 := by
  simp [AckFrameBuilder.count, AckFrameBuilder.add]

namespace AckEmit

variable (aw : AckWire) (minOne : Bool)

/-- The same state of a call with `k` more bytes left. -/
def addBudget (k : Nat) (e : AckEmit) : AckEmit := { e with bytesRemaining := e.bytesRemaining + k }

/-- What the call would return if it returned now: the bytes of the frames handed over,
and those of the builder when the return would hand it over (lines 311-315). -/
def wouldSend (e : AckEmit) : Nat :=
  (e.emitted.map (AckFrame.len aw)).sum +
    if e.fbuilder.count > 0 || minOne && !e.frameSent then e.fbuilder.size aw else 0

@[simp] theorem wouldSend_addBudget (k : Nat) (e : AckEmit) :
    (e.addBudget k).wouldSend aw minOne = e.wouldSend aw minOne := rfl

/-- A return hands over what `wouldSend` counted. -/
theorem sum_closeFrame (e : AckEmit) :
    ((e.closeFrame aw minOne).emitted.map (AckFrame.len aw)).sum = e.wouldSend aw minOne := by
  unfold closeFrame wouldSend
  split_ifs <;> simp

theorem start_addBudget (fw pw : Nat) {B1 B2 : Nat} (h : B1 ≤ B2) (fe : FrameEmitter) :
    start fw pw B2 fe = (start fw pw B1 fe).addBudget (B2 - B1) := by
  simp only [start, addBudget, AckEmit.mk.injEq, and_true]
  omega

end AckEmit

section Budget

variable (aw : AckWire) (w : Wire) (fw pw : Nat) (minOne : Bool)

/-- **Only the comparison of line 284 sees the budget.**  A turn that goes on from a
state goes on the same way with `k` more bytes left. -/
theorem ackStep_addBudget {e e' : AckEmit} (h : ackStep aw w fw pw minOne e = .inl e') (k : Nat) :
    ackStep aw w fw pw minOne (e.addBudget k) = .inl (e'.addBudget k) := by
  rcases ackStep_cases aw w fw pw minOne e with ⟨he, -⟩ | ⟨a, rest, hq, hb, hm, he⟩ |
      ⟨a, rest, hq, hb, hm, he⟩ <;> rw [he] at h <;> cases h
  · have hk : e.fbuilder.size aw + aw.encodedSize a ≤ e.bytesRemaining + k := by omega
    simp only [ackStep, addBudget, hq, if_neg (Nat.not_lt.2 hk), if_pos hm, splitFrame_eq,
      Sum.inl.injEq]
    simp only [emitFrame, AckFrameBuilder.len_build, AckEmit.mk.injEq, and_true]
    exact ⟨by omega, trivial, trivial, hq.symm⟩
  · simp only [ackStep, addBudget, hq, if_neg (Nat.not_lt.2 (Nat.le_add_right_of_le hb)),
      if_neg (Nat.not_lt.2 hm)]

/-- **What a call would return never falls**: a turn that goes on pops or keeps the queue
and hands over, or grows, the builder; a return hands over what was counted. -/
theorem ackStep_wouldSend (e : AckEmit) :
    Sum.elim
      (fun e' => e'.frameAckQueue <:+ e.frameAckQueue ∧ e.wouldSend aw minOne ≤ e'.wouldSend aw minOne)
      (fun e' => e'.frameAckQueue = e.frameAckQueue ∧
        (e'.emitted.map (AckFrame.len aw)).sum = e.wouldSend aw minOne)
      (ackStep aw w fw pw minOne e) := by
  rcases ackStep_cases aw w fw pw minOne e with ⟨he, -⟩ | ⟨a, rest, hq, -, -, he⟩ |
      ⟨a, rest, hq, -, -, he⟩ <;> rw [he]
  · exact ⟨by unfold closeFrame; split_ifs <;> rfl, sum_closeFrame aw minOne e⟩
  · refine ⟨List.suffix_refl _, ?_⟩
    simp only [wouldSend, splitFrame_eq, emitFrame_emitted, List.map_append, List.sum_append,
      List.map_singleton, List.sum_singleton, AckFrameBuilder.len_build, AckFrameBuilder.count_new,
      Bool.not_true, Bool.and_false, Bool.or_false, gt_iff_lt, Nat.lt_irrefl, decide_False,
      Bool.false_eq_true, if_false, Nat.add_zero]
    split <;> omega
  · refine ⟨hq ▸ List.suffix_cons a rest, ?_⟩
    simp only [wouldSend, AckFrameBuilder.count_add, AckFrameBuilder.size_add, gt_iff_lt,
      Nat.zero_lt_succ, decide_True, Bool.true_or, if_true]
    split <;> omega

/-- Along a whole call from `e0`, the queue only shortens and what the call would return
only grows; the call returns at least that. -/
theorem ackIterate_wouldSend (n : Nat) (e0 : AckEmit) :
    Sum.elim
      (fun e => e.frameAckQueue <:+ e0.frameAckQueue ∧ e0.wouldSend aw minOne ≤ e.wouldSend aw minOne)
      (fun e => e.frameAckQueue <:+ e0.frameAckQueue ∧
        e0.wouldSend aw minOne ≤ (e.emitted.map (AckFrame.len aw)).sum)
      (ackIterate aw w fw pw minOne n e0) := by
  refine ackIterate_induction aw w fw pw minOne _ _ (fun e he => ?_) n e0
    ⟨List.suffix_refl _, le_refl _⟩
  have hs := ackStep_wouldSend aw w fw pw minOne e
  revert hs
  cases ackStep aw w fw pw minOne e with
  | inl e' => exact fun hs => ⟨hs.1.trans he.1, he.2.trans hs.2⟩
  | inr e' => exact fun hs => ⟨hs.1 ▸ he.1, hs.2 ▸ he.2⟩

/-- **The two calls keep in step.**  If the call from `e` returns from `e1`, the call from
the same state with `k` more bytes returns from a state whose queue is a suffix of
`e1`'s, having handed over at least as many bytes. -/
theorem ackIterate_addBudget (k n : Nat) :
    ∀ e e1, ackIterate aw w fw pw minOne n e = .inr e1 →
      ∀ m e2, ackIterate aw w fw pw minOne m (e.addBudget k) = .inr e2 →
        e2.frameAckQueue <:+ e1.frameAckQueue ∧
          (e1.emitted.map (AckFrame.len aw)).sum ≤ (e2.emitted.map (AckFrame.len aw)).sum := by
  induction n with
  | zero => intro e e1 h; cases h
  | succ n ih =>
    intro e e1 h1 m e2 h2
    have hs := ackStep_wouldSend aw w fw pw minOne e
    simp only [ackIterate] at h1
    split at h1
    · rename_i e' he
      cases m with
      | zero => cases h2
      | succ m =>
        simp only [ackIterate, ackStep_addBudget aw w fw pw minOne he k] at h2
        exact ih e' e1 h1 m e2 h2
    · rename_i e' he
      cases h1
      rw [he] at hs
      have hr := ackIterate_wouldSend aw w fw pw minOne m (e.addBudget k)
      rw [h2] at hr
      exact ⟨hs.1 ▸ hr.1, hs.2 ▸ hr.2⟩

/-- **A larger ack budget pops a longer prefix.**  Two calls of `emit_ack_frames` on the
same emitter and base IDs, with budgets `B1 ≤ B2`: whatever they return, the queue the
larger call leaves is a suffix of the one the smaller call leaves, so it popped every
acknowledgement the smaller one popped, and it returns at least as many bytes. -/
theorem emitAckFrames_budget_mono {fuel1 fuel2 B1 B2 : Nat} (hB : B1 ≤ B2) {fe : FrameEmitter}
    {r1 r2 : Nat × List AckFrame × FrameEmitter}
    (h1 : emitAckFrames aw w fuel1 fw pw B1 minOne fe = some r1)
    (h2 : emitAckFrames aw w fuel2 fw pw B2 minOne fe = some r2) :
    r2.2.2.frameAckQueue <:+ r1.2.2.frameAckQueue ∧ r1.1 ≤ r2.1 := by
  rcases emitAckFrames_eq_some aw w fw pw minOne h1 with ⟨-, rfl⟩ | ⟨h01, e1, he1, rfl⟩ <;>
    rcases emitAckFrames_eq_some aw w fw pw minOne h2 with ⟨h02, rfl⟩ | ⟨h02, e2, he2, rfl⟩
  · exact ⟨List.suffix_refl _, le_refl _⟩
  · have hd : AckDone aw fw pw minOne fe.frameAckQueue B2 e2 := by
      simpa [he2] using ackIterate_start w minOne fe h02 fuel2
    exact ⟨hd.popped ▸ List.suffix_append _ _, Nat.zero_le _⟩
  · omega
  · have hd1 : AckDone aw fw pw minOne fe.frameAckQueue B1 e1 := by
      simpa [he1] using ackIterate_start w minOne fe h01 fuel1
    have hd2 : AckDone aw fw pw minOne fe.frameAckQueue B2 e2 := by
      simpa [he2] using ackIterate_start w minOne fe h02 fuel2
    rw [start_addBudget fw pw hB] at he2
    have hs := ackIterate_addBudget aw w fw pw minOne (B2 - B1) fuel1 _ e1 he1 fuel2 e2 he2
    have := hd1.accounted
    have := hd2.accounted
    exact ⟨hs.1, by dsimp only; omega⟩

/-- Four acknowledgements under 50 and 100 bytes: the smaller call leaves the fourth
queued after 36 bytes, the larger one pops it too and returns 54. -/
theorem emitAckFrames_budget_mono_fourAcks :
    50 ≤ 100 ∧ ∃ r1 r2, emitAckFrames tinyAckWire tinyWire 9 0 0 50 false fourAcks = some r1 ∧
      emitAckFrames tinyAckWire tinyWire 10 0 0 100 false fourAcks = some r2 ∧
      r1.2.2.frameAckQueue.length = 1 ∧ r2.2.2.frameAckQueue = [] ∧
      r2.2.2.frameAckQueue <:+ r1.2.2.frameAckQueue ∧ r1.1 ≤ r2.1 :=
  ⟨by decide, _, _, rfl, rfl, rfl, rfl,
    emitAckFrames_budget_mono tinyAckWire tinyWire 0 0 false (by decide)
      (show emitAckFrames tinyAckWire tinyWire 9 0 0 50 false fourAcks = _ from rfl)
      (show emitAckFrames tinyAckWire tinyWire 10 0 0 100 false fourAcks = _ from rfl)⟩

end Budget

end DatenMeister
end Porous
