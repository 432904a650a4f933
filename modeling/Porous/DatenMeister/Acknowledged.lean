import Porous.DatenMeister.Turn

/-!
# Nothing acknowledged or dropped goes out

Both loops of `emit_data_frames` push a fragment only after upgrading the weak
reference to its packet and checking its acknowledgement bit (lines 171-174, 216-219).
Nothing in the call sets a bit or drops a packet, and the only packet the sender admits
meanwhile is a new one (`PacketSender.emitPacket_extends`).  So a frame handed to the
callback carries no fragment that was acknowledged, or whose packet had been dropped,
when the call began, wherever the stale entry stood in either queue
(`emitted_not_acknowledged`).
-/

namespace Porous
namespace DatenMeister

open DataFrameEmitter

/-- The datagram `d` may go out in a call that started with the sender `ps0`: its packet
was admitted during the call, or `ps0` owns it and the fragment is not acknowledged. -/
def SendableAt (ps0 : PacketSender) (d : Datagram) : Prop :=
  ps0.nextId ≤ d.sequenceId ∨
    ∃ p, ps0.packet d.sequenceId = some p ∧ p.fragmentAcknowledged d.fragmentId.id = false

theorem sendableAt_datagram {ps0 ps : PacketSender} (h : ps0.Extends ps) {r : FragmentRef}
    {p : PendingPacket} (hl : Live ps r p) : SendableAt ps0 (p.datagram r.fragmentId) := by
  have hseq : (p.datagram r.fragmentId).sequenceId = r.packet := by
    simp [PacketSender.packet_sequenceId hl.1]
  unfold SendableAt
  rw [hseq]
  by_cases hlt : r.packet < ps0.nextId
  · exact .inr ⟨p, (h.packet_eq hlt).symm.trans hl.1, hl.2⟩
  · exact .inl (Nat.le_of_not_lt hlt)

/-- A call that started with the sender `ps0` so far: the sender has only admitted
packets, and every datagram accepted may go out. -/
def SentSince (ps0 : PacketSender) (e : Emit) : Prop :=
  ps0.Extends e.packetSender ∧ ∀ d ∈ e.dfe.committed, SendableAt ps0 d

section Sent

variable (w : Wire) (random : Nat → Bool) (nowMs rttMs flushId : Nat)

theorem sentSince_turn {ps0 : PacketSender} {l : Loop} {e : Emit} {s : Loop × Emit}
    (h : Turn w random nowMs rttMs flushId l e s) (hi : SentSince ps0 e) : SentSince ps0 s.2 := by
  obtain ⟨hext, hsent⟩ := hi
  cases h with
  | resendEmpty | resendStale | resendWait | refillHeld | pendingEmpty | pendingStale =>
    exact ⟨hext, hsent⟩
  | resendFail _ _ _ hp | pendingFail _ _ hp =>
    exact ⟨hext, by simpa [committed_push_error w random hp] using hsent⟩
  | resendSent _ hl _ hp | pendingSent _ hl hp =>
    refine ⟨hext, ?_⟩
    simp only [committed_push_ok w random hp, List.mem_append, List.mem_singleton]
    rintro d (hd | rfl)
    · exact hsent d hd
    · exact sendableAt_datagram hext hl
  | refillNext _ hp =>
    exact ⟨hext.trans (by simpa [hp] using PacketSender.emitPacket_extends e.packetSender flushId),
      hsent⟩
  | refillDone _ hp =>
    exact ⟨hext.trans (by simpa [hp] using PacketSender.emitPacket_extends e.packetSender flushId),
      by simpa using hsent⟩

/-- **No emission after ack or skip.**  Every datagram of every frame that a call of
`emit_data_frames` has handed to the callback, after any number of turns, belongs to a
packet admitted during the call, or to a packet the sender still owned when the call
began with the fragment's acknowledgement bit clear.  A fragment acknowledged before
the call, or whose packet had been dropped, is never sent. -/
theorem emitted_not_acknowledged (fe : FrameEmitter) (nowMs rttMs maxSendSize n : Nat) :
    ∀ d ∈ (iterate w random nowMs rttMs fe.flushId n
        (.resend, Emit.start fe nowMs maxSendSize)).2.dfe.emitted.flatMap DataFrame.datagrams,
      fe.packetSender.nextId ≤ d.sequenceId ∨
        ∃ p, fe.packetSender.packet d.sequenceId = some p ∧
          p.fragmentAcknowledged d.fragmentId.id = false := by
  have hrun := iterate_induction w random nowMs rttMs fe.flushId (SentSince fe.packetSender ·.2)
    (sentSince_turn w random nowMs rttMs fe.flushId) n
    (s := (.resend, Emit.start fe nowMs maxSendSize)) ⟨PacketSender.Extends.refl _, by simp [Emit.start]⟩
  intro d hd
  exact hrun.2 d (List.mem_append_left _ hd)

end Sent

/-- A resend packet of three bytes goes out in the fifth turn of a flush of a fresh
emitter. -/
theorem emitted_not_acknowledged_tiny :
    (⟨0, 0, 0, 0, ⟨0, 0⟩, [1, 2, 3]⟩ : Datagram) ∈
        (iterate tinyWire (fun _ => false) 0 100 0 5
          (.resend, Emit.start (freshEmitter.enqueue [1, 2, 3] .resend) 0 10000)).2.dfe.emitted.flatMap
            DataFrame.datagrams ∧
      ((freshEmitter.enqueue [1, 2, 3] .resend).packetSender.nextId ≤ 0 ∨
        ∃ p, (freshEmitter.enqueue [1, 2, 3] .resend).packetSender.packet 0 = some p ∧
          p.fragmentAcknowledged 0 = false) :=
  ⟨by decide, emitted_not_acknowledged tinyWire (fun _ => false) (freshEmitter.enqueue [1, 2, 3] .resend)
    0 100 10000 5 ⟨0, 0, 0, 0, ⟨0, 0⟩, [1, 2, 3]⟩ (by decide)⟩

end DatenMeister
end Porous
