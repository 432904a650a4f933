import Porous.DatenMeister.EmitFrame

/-!
# The byte budget of `emit_data_frames`

Every state `emit_data_frames` passes through keeps the accounting of `Budgeted`: the
frames handed to the callback and the bytes left add up to `max_send_size`, the
in-progress frame fits in what is left, and every frame holds a datagram and is at most
`MAX_FRAME_SIZE` long.  So the subtraction in `flush` (line 131) and the one in
`total_size` (line 137) never underflow, and the value returned, `total_size` of the
last state, is the sum of the lengths of the frames handed over.
-/

namespace Porous
namespace DatenMeister

open DataFrameEmitter

section Budget

variable (w : Wire) (random : Nat → Bool)

/-- Every state of a call keeps the budget accounting, when the fragments the packet
sender cuts fit alone in a frame. -/
theorem budgeted_iterate (fe : FrameEmitter) (hfits : w.Fits fe.packetSender.maxFragmentSize)
    (nowMs rttMs maxSendSize n : Nat) :
    Budgeted w (iterate w random nowMs rttMs fe.flushId n
      (.resend, Emit.start fe nowMs maxSendSize)).2.dfe := by
  obtain ⟨-, calls, hcalls, h⟩ := pushed_iterate w random nowMs rttMs fe.flushId
    (pushed_start w random nowMs fe maxSendSize) n
  have hfit : ∀ c ∈ calls, w.dataFrameOverhead + w.encodedSize c.datagram ≤ w.maxFrameSize :=
    fun c hc => hfits _ (hcalls c hc)
  have hb := budgeted_pushAll w random nowMs fe.frameQueue maxSendSize hfit
  split_ifs at h
  · rw [h]; exact hb.2
  · simpa [h] using hb.1

/-- **The byte budget.**  At every turn of `emit_data_frames`, and so at its return,
the frames handed to the callback add up to `total_size`, which is at most
`max_send_size`; every frame holds a datagram and is at most `MAX_FRAME_SIZE` long; the
in-progress frame fits in the bytes left, so neither `flush` nor `total_size`
subtracts past zero.  `emitDataFrames` returns `total_size` and the frames of the state
after its last turn.  This holds from every state of the queues, for every budget,
when every fragment the packet sender cuts fits alone in a frame. -/
theorem emitDataFrames_within_budget (fe : FrameEmitter)
    (hfits : w.Fits fe.packetSender.maxFragmentSize) (nowMs rttMs maxSendSize n : Nat) :
    let dfe := (iterate w random nowMs rttMs fe.flushId n
      (.resend, Emit.start fe nowMs maxSendSize)).2.dfe
    (dfe.emitted.map (DataFrame.len w)).sum = dfe.totalSize ∧
      dfe.totalSize ≤ maxSendSize ∧ Budgeted w dfe := by
  intro dfe
  have hb : Budgeted w dfe := budgeted_iterate w random fe hfits nowMs rttMs maxSendSize n
  have hmax : dfe.maxSendSize = maxSendSize := iterate_maxSendSize w random _ _ _ n _
  have := hb.accounted
  refine ⟨?_, ?_, hb⟩ <;> simp only [totalSize] <;> omega

/-- The hypothesis of `emitDataFrames_within_budget` holds of `tinyWire`: a 3-byte packet
sent under a 10000-byte budget, after three turns. -/
theorem emitDataFrames_within_budget_tiny :
    tinyWire.Fits (freshEmitter.enqueue [0, 0, 0] .unreliable).packetSender.maxFragmentSize ∧
    let fe := freshEmitter.enqueue [0, 0, 0] .unreliable
    let dfe := (iterate tinyWire (fun _ => false) 0 100 fe.flushId 3
      (.resend, Emit.start fe 0 10000)).2.dfe
    (dfe.emitted.map (DataFrame.len tinyWire)).sum = dfe.totalSize ∧
      dfe.totalSize ≤ 10000 ∧ Budgeted tinyWire dfe :=
  ⟨tinyWire_fits, emitDataFrames_within_budget tinyWire (fun _ => false) _ tinyWire_fits 0 100 10000 3⟩

end Budget

end DatenMeister
end Porous
