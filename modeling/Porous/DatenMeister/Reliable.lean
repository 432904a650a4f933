import Porous.DatenMeister.Lifecycle
import Porous.DatenMeister.Window

/-!
# Only packets to be resent hold frame slots

`push` registers a fragment with the frame it goes into only when it is `persistent`
(`src/endpoint/daten_meister/emit_frame.rs`, lines 88-90 and 111-113): when it comes
from the resend queue (line 183), or from the pending queue with a packet to be resent
(line 224).  So every fragment reference the frame queue holds is of a packet admitted to
be resent (`ResendHeld.frames`).  An ack group sets the bits of the fragments its frame
holds and of no others, so no fragment of a packet admitted in another mode is ever
acknowledged (`ResendHeld.unreliable_unacked`): such a packet's fragments go stale only
when the window passes it.

`ResendHeld` is proved as the other invariants of the endpoint are: one lemma for what a
turn records (`ResendHeld.record`), one for the inputs, and induction on `Reachable`.  The
inputs need `Lifecycle`: the packet whose bits a frame ack sets is the one admitted under
its sequence ID.
-/

namespace Porous
namespace DatenMeister

open DataFrameEmitter Endpoint

/-- Admitting a packet keeps every packet owned before, and the packet it admits has no
bit set. -/
theorem PacketSender.emitPacket_window {ps : PacketSender} {flushId id : Nat}
    {p : PendingPacket} {b : Bool} (h : (ps.emitPacket flushId).2.window id = some (p, b)) :
    ps.window id = some (p, b) ∨ ∀ i, p.fragmentAcknowledged i = false := by
  rcases emitPacket_cases ps flushId with ⟨-, hw, -, -⟩ | ⟨q, rest, he⟩
  · rw [hw] at h
    exact .inl h
  · rw [he] at h
    rcases admitQueued_window h with ⟨-, he'⟩ | ⟨-, h'⟩
    · obtain ⟨rfl, -⟩ := Prod.mk.inj he'
      exact .inr fun i => QueuedPacket.toPendingPacket_fragmentAcknowledged _ _ _ i
    · exact .inl h'

/-- Every fragment reference the frame queue holds is of a packet admitted to be resent,
and no fragment of a packet the sender owns in another mode is acknowledged. -/
structure ResendHeld (s : Endpoint) : Prop where
  frames : ∀ r ∈ s.emit.dfe.frameRefs, ∃ p, (p, true) ∈ s.admitted ∧ r ∈ fragmentsOf p
  unreliable_unacked : ∀ id p i, s.emit.packetSender.window id = some (p, false) →
    p.fragmentAcknowledged i = false

namespace ResendHeld

variable {s : Endpoint}

theorem init (windowSize maxFragmentSize baseId nextFrameId frameWindowSize : Nat) :
    ResendHeld (Endpoint.init windowSize maxFragmentSize baseId nextFrameId frameWindowSize) :=
  ⟨by simp [Endpoint.init], by simp [Endpoint.init, PacketSender.new]⟩

/-- **Every input keeps the invariant.**  A frame ack sets only bits of fragments its
frame holds, which are of packets admitted to be resent; the sender owns each packet
under the sequence ID it was admitted with, in the mode it was admitted with. -/
theorem input (hL : Lifecycle s) (h : ResendHeld s) (i : Input) : ResendHeld (s.input i) := by
  cases i with
  | enqueue q => exact ⟨h.frames, h.unreliable_unacked⟩
  | advance b =>
    exact ⟨h.frames, fun id p i hp => h.unreliable_unacked id p i (PacketSender.acknowledge_window hp)⟩
  | frameAcked id =>
    refine ⟨fun r hr => h.frames r (Lifecycle.frameRefs_release _ id r hr), fun id' p' i hp' => ?_⟩
    obtain ⟨p, hp, -, -, hdown⟩ := PacketSender.acknowledgeFragments_window hp'
    cases hack : p'.fragmentAcknowledged i
    · rfl
    rcases hdown i hack with hi | hr
    · rw [h.unreliable_unacked id' p i hp] at hi
      exact hi.symm
    · obtain ⟨P, hP, hr⟩ := h.frames _ (Lifecycle.fragmentRefsOf_frameRefs _ id _ hr)
      obtain ⟨p0, h0, hid, -⟩ := hL.owned id' p false hp
      have := hL.admitted_eq hP h0 (by rw [← (mem_fragmentsOf.1 hr).1, hid])
      simp at this
  | frameDropped id =>
    exact ⟨fun r hr => h.frames r (Lifecycle.frameRefs_release _ id r hr), h.unreliable_unacked⟩
  | flush c =>
    refine ⟨fun r hr => h.frames r ?_, h.unreliable_unacked⟩
    simp only [Endpoint.input, frameRefs_new] at hr
    exact List.mem_append_left _ hr

/-- A turn that adds only references of packets admitted to be resent and admits only
packets with no bit set keeps the invariant. -/
theorem record (h : ResendHeld s) {r : Loop × Emit}
    (hf : ∀ ref ∈ r.2.dfe.frameRefs,
      ref ∈ s.emit.dfe.frameRefs ∨ ∃ p, (p, true) ∈ s.admitted ∧ ref ∈ fragmentsOf p)
    (hw : ∀ id p b, r.2.packetSender.window id = some (p, b) →
      s.emit.packetSender.window id = some (p, b) ∨ ∀ i, p.fragmentAcknowledged i = false) :
    ResendHeld (s.record r) where
  frames ref href := by
    obtain ⟨p, hp, hr⟩ := (hf ref href).elim (h.frames ref) id
    exact ⟨p, List.mem_append_left _ hp, hr⟩
  unreliable_unacked id p i hp := (hw id p false hp).elim (h.unreliable_unacked id p i) (· i)

variable (w : Wire) (random : Nat → Bool)

/-- **Every turn keeps the invariant.**  A resent fragment comes from the resend queue,
which holds only fragments of packets to be resent; a pending fragment pushed as
`persistent` is one of the last packet admitted, whose mode it carries. -/
theorem turn (hL : Lifecycle s) (h : ResendHeld s) (hl : s.loop ≠ .done) :
    ResendHeld (s.turn w random) := by
  obtain ⟨l, e, c, adm, sent, cs⟩ := s
  have ht := step_turn w random c.nowMs c.rttMs c.flushId l e hl
  unfold Endpoint.turn
  generalize step w random c.nowMs c.rttMs c.flushId l e = r at ht ⊢
  have same : ∀ id p b, e.packetSender.window id = some (p, b) →
      e.packetSender.window id = some (p, b) ∨ ∀ i, p.fragmentAcknowledged i = false :=
    fun _ _ _ hp => .inl hp
  cases ht with
  | resendFail _ _ _ hp | pendingFail _ _ hp =>
    exact h.record (fun ref href => .inl (by rwa [frameRefs_push_error w random hp] at href)) same
  | resendSent hx hlive _ hp =>
    refine h.record (fun ref href => ?_) same
    rcases frameRefs_push_persistent w random hp ref href with hr | ⟨-, rfl⟩
    · exact .inl hr
    · rw [Lifecycle.fragmentRef_of_live hlive]
      exact .inr (hL.resend_sent _ (by
        rw [resendRefs, ResendQueue.entries_of_peek hx]; exact List.mem_cons_self _ _)).2
  | pendingSent hx hlive hp =>
    refine h.record (fun ref href => ?_) same
    rcases frameRefs_push_persistent w random hp ref href with hr | ⟨hres, rfl⟩
    · exact .inl hr
    · obtain ⟨P, b, -, hP, -, -, hxb, hxP, -⟩ := hL.pending_head hx
      rw [Lifecycle.fragmentRef_of_live hlive]
      exact .inr ⟨P, hres ▸ hxb ▸ hP, hxP⟩
  | refillNext _ hp =>
    refine h.record (fun ref href => .inl href) fun id p b hw => ?_
    exact PacketSender.emitPacket_window (by rw [hp]; exact hw)
  | refillDone _ hp =>
    refine h.record (fun ref href => .inl (by simpa using href)) fun id p b hw => ?_
    exact PacketSender.emitPacket_window (by rw [hp]; exact hw)
  | resendEmpty | resendStale | resendWait | refillHeld | pendingEmpty | pendingStale =>
    exact h.record (fun ref href => .inl href) same

/-- The invariant holds in every state an endpoint reaches. -/
theorem reachable {s : Endpoint} (hs : Reachable w random s) : ResendHeld s := by
  induction hs with
  | init => exact init _ _ _ _ _
  | input i hs _ ih => exact ih.input (Lifecycle.reachable hs) i
  | turn hs hl ih => exact ih.turn w random (Lifecycle.reachable hs) hl

end ResendHeld

variable (w : Wire) (random : Nat → Bool)

/-- **Only packets to be resent hold frame slots.**  In every state an endpoint reaches,
every fragment reference held by a slot of the frame queue or by the frame in progress
is of a packet the sender, if it still owns it, owns in resend mode; and no fragment of a
packet the sender owns in another mode has its acknowledgement bit set. -/
theorem frame_slots_resend {s : Endpoint} (hs : Reachable w random s) :
    (∀ r ∈ s.emit.dfe.frameRefs, ∀ p b, s.emit.packetSender.window r.packet = some (p, b) →
      b = true) ∧
    ∀ id p i, s.emit.packetSender.window id = some (p, false) → p.fragmentAcknowledged i = false := by
  have hL := Lifecycle.reachable hs
  have h := ResendHeld.reachable w random hs
  refine ⟨fun r hr p b hp => ?_, h.unreliable_unacked⟩
  obtain ⟨P, hP, hrP⟩ := h.frames r hr
  obtain ⟨p0, h0, hid, -⟩ := hL.owned _ p b hp
  have := hL.admitted_eq hP h0 (by rw [← (mem_fragmentsOf.1 hrP).1, hid])
  simp only [Prod.mk.injEq] at this
  exact this.2.symm

/-- The frame in progress of `windowOfOne` holds the fragment of its packet, owned in
resend mode. -/
theorem frame_slots_resend_windowOfOne :
    Reachable tinyWire (fun _ => false) windowOfOne ∧
      windowOfOne.emit.dfe.frameRefs = [⟨0, 0⟩] ∧
      (∀ r ∈ windowOfOne.emit.dfe.frameRefs, ∀ p b,
        windowOfOne.emit.packetSender.window r.packet = some (p, b) → b = true) ∧
      ∀ id p i, windowOfOne.emit.packetSender.window id = some (p, false) →
        p.fragmentAcknowledged i = false :=
  have hs : Reachable tinyWire (fun _ => false) windowOfOne :=
    .turn (.turn (.turn (.input _ (.input _ (.init 16 20 0 0 1) rfl) rfl) (by decide)) (by decide))
      (by decide)
  ⟨hs, by decide, frame_slots_resend tinyWire (fun _ => false) hs⟩

end DatenMeister
end Porous
