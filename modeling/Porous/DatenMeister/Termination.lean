import Porous.DatenMeister.EmitFrame

/-!
# A stale pending head

Phase A of `emit_data_frames` discards a resend-queue head whose packet is gone or whose
fragment is acknowledged by popping it.  Phase B does not: for a pending-queue head in
that state, lines 220 and 235 pop the *resend* queue and `continue` with the same
pending head, which is still stale (`pendingStep_stale`).  Once the resend queue is
empty nothing changes any more, and the call never returns
(`stale_pending_never_returns`).

The state is reachable.  A flush cut short by its budget leaves the rest of a
multi-fragment packet in the pending queue; when the packet window then advances past
the packet, the sender drops it, and the next flush spins (`halfSentSkipped_hangs`).
-/

namespace Porous
namespace DatenMeister

section Stale

variable (w : Wire) (random : Nat → Bool) (nowMs rttMs flushId : Nat)

/-- The head of the pending queue is stale: its packet is gone or its fragment is
acknowledged. -/
def StaleHead (e : Emit) : Prop :=
  ∃ entry rest, e.pendingQueue = entry :: rest ∧
    ∀ p, e.packetSender.packet entry.fragmentRef.packet = some p →
      p.fragmentAcknowledged entry.fragmentRef.fragmentId = true

/-- One turn of the pending loop at a stale head pops the resend queue and nothing else
(lines 219-222 and 234-237). -/
theorem pendingStep_stale {e : Emit} (h : StaleHead e) :
    pendingStep w random nowMs rttMs e = (.pending, { e with resendQueue := e.resendQueue.pop }) := by
  obtain ⟨entry, rest, hq, hstale⟩ := h
  unfold pendingStep
  rw [hq]
  dsimp only
  cases hp : e.packetSender.packet entry.fragmentRef.packet with
  | none => rfl
  | some p => simp [hstale p hp]

/-- **A stale head at the pending loop is never discarded.**  Lines 220 and 235 pop the
resend queue and `continue` on the same pending head, so from a state of the pending loop
whose head is stale, `emit_data_frames` never returns. -/
theorem stale_pending_never_returns {e : Emit} (h : StaleHead e) (k : Nat) :
    (iterate w random nowMs rttMs flushId k (.pending, e)).1 ≠ .done := by
  induction k generalizing e with
  | zero => simp [iterate]
  | succ k ih =>
    simp only [iterate, step, pendingStep_stale w random nowMs rttMs h]
    exact ih h

end Stale

/-- A packet of two 20-byte fragments queued unreliably, then a flush at time 0 under a
40-byte budget: the first fragment fills a frame, the second stays pending. -/
def halfSent : FrameEmitter :=
  ((emitDataFrames tinyWire (fun _ => false) 8 0 100 40
    (freshEmitter.enqueue (List.replicate 40 0) .unreliable)).map (·.2.2)).getD freshEmitter

/-- Then the packet window advances past the packet, which the sender drops. -/
def halfSentSkipped : FrameEmitter :=
  { halfSent with packetSender := halfSent.packetSender.acknowledge 1 }

/-- **`emit_data_frames` does not return from `halfSentSkipped`**, whatever the time, RTT,
budget and nonces: the resend queue is empty, the pending queue holds the second
fragment of the dropped packet, and the pending loop spins on it. -/
theorem halfSentSkipped_hangs (random : Nat → Bool) (fuel nowMs rttMs maxSendSize : Nat) :
    emitDataFrames tinyWire random fuel nowMs rttMs maxSendSize halfSentSkipped = none := by
  have hpeek : halfSentSkipped.resendQueue.peek = none := by decide
  have hpend : halfSentSkipped.pendingQueue = [⟨⟨0, 1⟩, false⟩] := by decide
  have hdead : halfSentSkipped.packetSender.packet 0 = none := by decide
  have hstale : StaleHead (Emit.start halfSentSkipped nowMs maxSendSize) :=
    ⟨_, [], hpend, fun p hp => by simp [Emit.start, hdead] at hp⟩
  have h1 : step tinyWire random nowMs rttMs halfSentSkipped.flushId .resend
      (Emit.start halfSentSkipped nowMs maxSendSize) =
        (.refill, Emit.start halfSentSkipped nowMs maxSendSize) := by
    simp [step, resendStep, Emit.start, hpeek]
  have h2 : step tinyWire random nowMs rttMs halfSentSkipped.flushId .refill
      (Emit.start halfSentSkipped nowMs maxSendSize) =
        (.pending, Emit.start halfSentSkipped nowMs maxSendSize) := by
    simp [step, refillStep, Emit.start, hpend]
  have hne : (iterate tinyWire random nowMs rttMs halfSentSkipped.flushId fuel
      (.resend, Emit.start halfSentSkipped nowMs maxSendSize)).1 ≠ .done := by
    match fuel with
    | 0 => simp [iterate]
    | 1 => simp [iterate, h1]
    | k + 2 =>
      rw [Nat.add_comm, iterate_add]
      simp only [iterate, h1, h2]
      exact stale_pending_never_returns tinyWire random nowMs rttMs _ hstale k
  simp [emitDataFrames, hne]

end DatenMeister
end Porous
