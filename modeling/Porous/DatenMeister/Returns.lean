import Porous.DatenMeister.Lifecycle
import Porous.DatenMeister.Monotone

/-!
# When `emit_data_frames` returns

`Porous.DatenMeister.Termination` shows a call that never returns: its pending head is
stale, and the pending loop pops the resend queue instead (lines 220 and 235).  This
module shows that this is the only way a call can hang.  When every pending entry is
live and every datagram takes at least one byte, a call returns within
`2 * max_send_size + |resend queue| + 2 * |send queue| + 4` turns
(`emitDataFrames_isSome_of_pendingLive`).

The proof is a potential, `callPotential`, that every turn lowers by at least one:

* a successful `push` commits at least the datagram's bytes (`committedSize_push_ok`),
  and the emitter never commits more than the budget (`committedSize_le`), so it is
  worth two units of the bytes not yet committed.  This is what bounds the resend phase
  when a resent entry is due again at once, with `rtt_ms = 0` or when the time wraps;
* a stale resend entry popped shortens the resend queue;
* a packet admitted shortens the send queue (`emitPacket_sendQueue_lt`);
* every other turn moves on to a loop of lower rank (`loopRank`).

The only turn that can leave the potential unchanged is a stale pending head with an
empty resend queue, and `PendingLive`, which every turn keeps, rules it out.

On the endpoint the hypothesis comes down to one fact about the window.  The pending
queue only holds the unsent rest of the last packet admitted, and a fragment never sent
is never acknowledged (`Lifecycle`), so a pending head is stale exactly when the packet
window has moved past its packet.  `emitDataFrames_returns` says that otherwise every
call returns.
-/

namespace Porous
namespace DatenMeister

open DataFrameEmitter

namespace ResendQueue

@[simp] theorem length_push (q : ResendQueue) (e : ResendEntry) :
    (q.push e).entries.length = q.entries.length + 1 :=
  (insert_perm e q.entries).length_eq

@[simp] theorem length_pop (q : ResendQueue) : q.pop.entries.length = q.entries.length - 1 :=
  List.length_tail _

theorem length_pos_of_peek {q : ResendQueue} {e : ResendEntry} (h : q.peek = some e) :
    0 < q.entries.length := by
  rw [entries_of_peek h]
  exact Nat.succ_pos _

end ResendQueue

namespace PacketSender

/-- Admitting a packet takes it, and any `TimeSensitive` packet skipped before it, off the
send queue. -/
theorem emitPacket_sendQueue_lt {ps ps' : PacketSender} {flushId : Nat} {e : PendingPacket × Bool}
    (h : ps.emitPacket flushId = (some e, ps')) : ps'.sendQueue.length < ps.sendQueue.length := by
  have hgo : ∀ qs, (emitPacket.go ps flushId qs).1.isSome →
      (emitPacket.go ps flushId qs).2.sendQueue.length < qs.length := by
    intro qs
    induction qs with
    | nil => simp [emitPacket.go]
    | cons q qs ih =>
      simp only [emitPacket.go]
      split
      · exact fun hs => Nat.lt_succ_of_lt (ih hs)
      · exact fun _ => Nat.lt_succ_self _
  unfold emitPacket at h
  split at h
  · have := hgo ps.sendQueue (by rw [h]; rfl)
    rwa [h] at this
  · cases h

end PacketSender

namespace DataFrameEmitter

variable {w : Wire} (random : Nat → Bool)

/-- A solvent emitter has committed no more than its budget. -/
theorem committedSize_le {dfe : DataFrameEmitter} (h : Solvent w dfe) :
    dfe.committedSize w ≤ dfe.maxSendSize := by
  have h1 := h.1
  cases hf : dfe.inProgressFrame with
  | none => simp [committedSize, hf, totalSize]
  | some f =>
    have := h.2 f hf
    simp only [committedSize, hf, totalSize, Option.map_some', Option.getD_some]
    omega

/-- **A `push` that succeeds commits the datagram's bytes**, and the header of a new frame
when it opens one. -/
theorem committedSize_push_ok {dfe d : DataFrameEmitter} (h : Solvent w dfe) {p : PendingPacket}
    {i : Nat} {pers : Bool} (hp : push w random dfe p i pers = (d, .ok ())) :
    dfe.committedSize w + w.encodedSize (p.datagram i) ≤ d.committedSize w := by
  have hinit : ∀ {d0 : DataFrameEmitter}, d0.inProgressFrame = none →
      pushInitial w random d0 p i pers = (d, .ok ()) →
      d0.committedSize w + w.encodedSize (p.datagram i) ≤ d.committedSize w := by
    intro d0 h0 hp
    unfold pushInitial at hp
    split at hp
    · cases hp
    · dsimp only at hp
      split at hp
      · cases hp
      · cases hp
        simp [committedSize, h0, totalSize, DataFrameBuilder.size, DataFrameBuilder.add,
          DataFrameBuilder.new, Wire.frameSize_singleton]
  unfold push at hp
  split at hp
  · rename_i f hf
    dsimp only at hp
    split at hp
    · rw [← committedSize_flush h]
      exact hinit (flush_inProgressFrame w dfe) hp
    split at hp
    · cases hp
    · cases hp
      simp [committedSize, hf, totalSize, DataFrameBuilder.size, DataFrameBuilder.add]
      omega
  · exact hinit ‹_› hp

end DataFrameEmitter

/-- Every fragment in the pending queue is live: its packet is still owned and the
fragment is not acknowledged. -/
def PendingLive (e : Emit) : Prop :=
  ∀ x ∈ e.pendingQueue, ∃ p, Live e.packetSender x.fragmentRef p

/-- The rank of the head of a loop: the resend loop comes first, the outer loop with
fragments still pending is about to enter the pending loop, and an outer loop with
nothing pending is about to admit a packet or return. -/
def loopRank : Loop → Emit → Nat
  | .resend, _ => 3
  | .refill, e => if e.pendingQueue = [] then 0 else 2
  | .pending, _ => 1
  | .done, _ => 0

/-- The potential of a state of a call: twice the bytes of the budget not yet committed,
the resend entries, twice the packets still queued, and the rank of the loop. -/
def callPotential (w : Wire) (s : Loop × Emit) : Nat :=
  2 * (s.2.dfe.maxSendSize - s.2.dfe.committedSize w) + s.2.resendQueue.entries.length +
    2 * s.2.packetSender.sendQueue.length + loopRank s.1 s.2

section Potential

variable (w : Wire) (random : Nat → Bool) (nowMs rttMs flushId : Nat)

/-- A packet just admitted is owned under its sequence ID, with no fragment acknowledged. -/
theorem emitPacket_live {ps ps' : PacketSender} {p : PendingPacket} {b : Bool}
    (h : ps.emitPacket flushId = (some (p, b), ps')) (i : Nat) :
    Live ps' (p.fragmentRef i) p := by
  rcases PacketSender.emitPacket_cases ps flushId with ⟨hn, -⟩ | ⟨q, rest, he⟩
  · simp [h] at hn
  rw [h, Prod.mk.injEq, Option.some.injEq, Prod.mk.injEq] at he
  obtain ⟨⟨rfl, -⟩, rfl⟩ := he
  refine ⟨?_, QueuedPacket.toPendingPacket_fragmentAcknowledged _ _ _ _⟩
  simp [PacketSender.packet, PacketSender.admitQueued, PendingPacket.fragmentRef,
    QueuedPacket.toPendingPacket]

/-- **Every turn keeps the pending queue live**: the packets it holds stay owned and
unacknowledged while the call runs, and a packet admitted is live. -/
theorem turn_pendingLive {l : Loop} {e : Emit} {s : Loop × Emit}
    (h : Turn w random nowMs rttMs flushId l e s) (hL : PendingLive e) : PendingLive s.2 := by
  cases h with
  | resendEmpty | resendStale | resendWait | resendFail | resendSent | refillHeld | pendingEmpty
  | pendingStale | pendingFail => exact hL
  | refillNext _ hp =>
    intro x hx
    obtain ⟨i, -, rfl⟩ := List.mem_map.1 hx
    exact ⟨_, emitPacket_live flushId hp i⟩
  | refillDone hq => intro x hx; simp [hq] at hx
  | pendingSent hx _ _ => exact fun y hy => hL y (by rw [hx]; exact List.mem_cons_of_mem _ hy)

/-- **Every turn that does not return lowers the potential**, when datagrams take bytes
and the pending queue is live. -/
theorem turn_potential_lt {l : Loop} {e : Emit} {s : Loop × Emit}
    (h : Turn w random nowMs rttMs flushId l e s) (hs : Solvent w e.dfe) (hL : PendingLive e)
    (hpos : ∀ d, 0 < w.encodedSize d) (hd : s.1 ≠ .done) :
    callPotential w s < callPotential w (l, e) := by
  have hle := committedSize_le hs
  have hpush : ∀ {p i pers d}, e.dfe.push w random p i pers = (d, .ok ()) →
      d.maxSendSize - d.committedSize w + 1 ≤ e.dfe.maxSendSize - e.dfe.committedSize w := by
    intro p i pers d hp
    have h1 := committedSize_push_ok random hs hp
    have h2 := committedSize_le (solvent_push random hs hp)
    have h3 := hpos (p.datagram i)
    have h4 : d.maxSendSize = e.dfe.maxSendSize := by
      rw [← push_maxSendSize w random e.dfe p i pers, hp]
    omega
  cases h with
  | resendEmpty | resendWait =>
    simp only [callPotential, loopRank]
    split <;> omega
  | resendStale hx =>
    have := ResendQueue.length_pos_of_peek hx
    simp only [callPotential, loopRank, ResendQueue.length_pop]
    omega
  | resendSent hx _ _ hp =>
    have := hpush hp
    have := ResendQueue.length_pos_of_peek hx
    simp only [callPotential, loopRank, ResendQueue.length_push, ResendQueue.length_pop]
    omega
  | refillNext hq hp =>
    have := PacketSender.emitPacket_sendQueue_lt hp
    simp only [callPotential, loopRank, hq, if_true]
    omega
  | refillHeld hq =>
    simp only [callPotential, loopRank, hq, reduceCtorEq, if_false]
    omega
  | pendingEmpty hq =>
    simp only [callPotential, loopRank, hq, if_true]
    omega
  | pendingStale hx hst =>
    obtain ⟨p, hp, hack⟩ := hL _ (by rw [hx]; exact List.mem_cons_self _ _)
    simp [hst p hp] at hack
  | pendingSent _ _ hp =>
    have := hpush hp
    simp only [callPotential, loopRank]
    split
    · simp only [ResendQueue.length_push]
      omega
    · omega
  | resendFail | refillDone | pendingFail => exact absurd rfl hd

/-- A call from a state that keeps its budget and its pending queue live has returned
once it has taken more turns than the state's potential. -/
theorem iterate_done_of_potential (hpos : ∀ d, 0 < w.encodedSize d) (n : Nat) :
    ∀ s : Loop × Emit, Solvent w s.2.dfe → PendingLive s.2 → callPotential w s < n →
      (iterate w random nowMs rttMs flushId n s).1 = .done := by
  induction n with
  | zero => intro s _ _ h; omega
  | succ n ih =>
    rintro ⟨l, e⟩ hs hL hn
    by_cases hl : l = .done
    · subst hl
      rw [iterate_done]
    have ht := step_turn w random nowMs rttMs flushId l e hl
    show (iterate w random nowMs rttMs flushId n (step w random nowMs rttMs flushId l e)).1 = .done
    by_cases hd : (step w random nowMs rttMs flushId l e).1 = .done
    · rw [← Prod.mk.eta (p := step w random nowMs rttMs flushId l e), hd, iterate_done]
    · exact ih _ (turn_solvent w random nowMs rttMs flushId ht hs) (turn_pendingLive w random _ _ _ ht hL)
        (by have := turn_potential_lt w random _ _ _ ht hs hL hpos hd; omega)

/-- **A call whose pending queue is live returns**, within twice the budget, plus the
resend entries, plus twice the packets queued, plus four turns. -/
theorem emitDataFrames_isSome_of_pendingLive (hpos : ∀ d, 0 < w.encodedSize d)
    (fe : FrameEmitter) (hL : ∀ x ∈ fe.pendingQueue, ∃ p, Live fe.packetSender x.fragmentRef p)
    (maxSendSize : Nat) :
    (emitDataFrames w random (2 * maxSendSize + fe.resendQueue.entries.length +
      2 * fe.packetSender.sendQueue.length + 4) nowMs rttMs maxSendSize fe).isSome := by
  have hstart : callPotential w (.resend, Emit.start fe nowMs maxSendSize) =
      2 * maxSendSize + fe.resendQueue.entries.length + 2 * fe.packetSender.sendQueue.length + 3 := by
    simp [callPotential, loopRank, Emit.start, committedSize, totalSize, DataFrameEmitter.new]
  have := iterate_done_of_potential w random nowMs rttMs fe.flushId hpos
    (2 * maxSendSize + fe.resendQueue.entries.length + 2 * fe.packetSender.sendQueue.length + 4)
    (.resend, Emit.start fe nowMs maxSendSize) (solvent_new w nowMs fe.frameQueue maxSendSize) hL
    (by omega)
  simp [emitDataFrames, this]

end Potential

namespace Endpoint

/-- On a reachable endpoint the pending queue is live as soon as the packet of its head
is still owned: the queue holds fragments of that one packet, none of them ever sent,
so none acknowledged. -/
theorem pendingLive_of_head {w : Wire} {random : Nat → Bool} {s : Endpoint}
    (hs : Reachable w random s)
    (hhead : ∀ x ∈ s.emit.pendingQueue.head?, (s.emit.packetSender.packet x.fragmentRef.packet).isSome) :
    ∀ x ∈ s.emit.pendingQueue, ∃ p, Live s.emit.packetSender x.fragmentRef p := by
  have h := Lifecycle.reachable hs
  intro x hx
  obtain ⟨P, b, j, -, -, hpq⟩ := h.pending (List.ne_nil_of_mem hx)
  have hP : ∀ y ∈ s.emit.pendingQueue, y.fragmentRef.packet = P.sequenceId := fun y hy => by
    rw [hpq] at hy
    obtain ⟨i, -, rfl⟩ := List.mem_map.1 (List.mem_of_mem_drop hy)
    rfl
  cases hq : s.emit.pendingQueue with
  | nil => simp [hq] at hx
  | cons z zs =>
    obtain ⟨p, hp⟩ := Option.isSome_iff_exists.1 (hhead z (by simp [hq]))
    have hz : z ∈ s.emit.pendingQueue := by rw [hq]; exact List.mem_cons_self _ _
    rw [hP z hz, ← hP x hx] at hp
    refine ⟨p, hp, ?_⟩
    cases hack : p.fragmentAcknowledged x.fragmentRef.fragmentId
    · rfl
    · obtain ⟨⟨p', b'⟩, he, rfl⟩ := Option.map_eq_some'.1 hp
      exact absurd (h.acked_sent _ p' b' _ he hack)
        (h.pending_unsent _ (List.mem_map_of_mem _ hx))

/-- **Every call returns unless the window has passed a half-sent packet.**  From every
reachable state whose pending queue is empty, or whose head's packet the
packet sender still owns, a call of `emit_data_frames` with any arguments returns within
`2 * max_send_size + |resend queue| + 2 * |send queue| + 4` turns, when every datagram
takes at least one byte.  The stale head of `halfSentSkipped_hangs` is the one case left
out: a packet dropped by a window advance while some of its fragments were pending. -/
theorem emitDataFrames_returns {w : Wire} {random : Nat → Bool} {s : Endpoint}
    (hs : Reachable w random s)
    (hhead : ∀ x ∈ s.emit.pendingQueue.head?, (s.emit.packetSender.packet x.fragmentRef.packet).isSome)
    (hpos : ∀ d, 0 < w.encodedSize d) (c : Call) :
    (emitDataFrames w random (2 * c.maxSendSize + s.emit.resendQueue.entries.length +
      2 * s.emit.packetSender.sendQueue.length + 4) c.nowMs c.rttMs c.maxSendSize
      (s.frameEmitter c.flushId)).isSome :=
  emitDataFrames_isSome_of_pendingLive w random c.nowMs c.rttMs hpos (s.frameEmitter c.flushId)
    (pendingLive_of_head hs hhead) c.maxSendSize

/-- Between two calls: a 40-byte packet to be resent, flushed at time 0 with a budget of
40 bytes.  Its first fragment fills the budget, the second stays queued, and the call
has returned. -/
def oneLeftQueued : Endpoint :=
  (turn tinyWire (fun _ => false))^[4]
    (((Endpoint.init 16 20 0 0 8).input
      (.enqueue ⟨List.replicate 40 0, 0, 0, 0, .resend, 0⟩)).input (.flush ⟨0, 100, 40, 0⟩))

theorem reachable_oneLeftQueued : Reachable tinyWire (fun _ => false) oneLeftQueued := by
  refine Reachable.turns _ _ (.input _ (.input _ (.init 16 20 0 0 8) ?_) ?_) 4 ?_ <;> decide

/-- From `oneLeftQueued`, whose pending queue holds the second fragment of a packet the
sender still owns, the next call, at time 100 with 40 bytes, returns within the bound. -/
theorem emitDataFrames_returns_oneLeftQueued :
    Reachable tinyWire (fun _ => false) oneLeftQueued ∧ oneLeftQueued.loop = .done ∧
      oneLeftQueued.emit.pendingQueue.length = 1 ∧
      (∀ x ∈ oneLeftQueued.emit.pendingQueue.head?,
        (oneLeftQueued.emit.packetSender.packet x.fragmentRef.packet).isSome) ∧
      (∀ d, 0 < tinyWire.encodedSize d) ∧
      (emitDataFrames tinyWire (fun _ => false) (2 * 40 +
        oneLeftQueued.emit.resendQueue.entries.length +
        2 * oneLeftQueued.emit.packetSender.sendQueue.length + 4) 100 100 40
        (oneLeftQueued.frameEmitter 1)).isSome :=
  have hhead : ∀ x ∈ oneLeftQueued.emit.pendingQueue.head?,
      (oneLeftQueued.emit.packetSender.packet x.fragmentRef.packet).isSome := by decide
  have hpos : ∀ d, 0 < tinyWire.encodedSize d := fun d => show 0 < 14 + d.data.length by omega
  ⟨reachable_oneLeftQueued, by decide, by decide, hhead, hpos,
    emitDataFrames_returns reachable_oneLeftQueued hhead hpos ⟨100, 100, 40, 1⟩⟩

end Endpoint

/-! ### Why a call returns -/

namespace PacketSender

/-- `emit_packet` that admits nothing leaves a sender that admits nothing either: it has
skipped every stale `TimeSensitive` packet, or the window is full. -/
theorem emitPacket_none_again {ps : PacketSender} {flushId : Nat}
    (h : (ps.emitPacket flushId).1 = none) :
    ((ps.emitPacket flushId).2.emitPacket flushId).1 = none := by
  have hgo : ∀ qs, (emitPacket.go ps flushId qs).1 = none →
      (emitPacket.go ps flushId qs).2 = { ps with sendQueue := [] } := by
    intro qs
    induction qs with
    | nil => exact fun _ => rfl
    | cons q qs ih =>
      simp only [emitPacket.go]
      split
      · exact ih
      · exact fun h => nomatch h
  unfold emitPacket at h
  split at h
  · rename_i hw
    have he : ps.emitPacket flushId = (none, { ps with sendQueue := [] }) := by
      rw [emitPacket, if_pos hw]
      exact Prod.ext h (hgo _ h)
    rw [he, emitPacket, if_pos hw]
    rfl
  · rename_i hw
    have he : ps.emitPacket flushId = (none, ps) := by rw [emitPacket, if_neg hw]
    rw [he]
    exact congrArg Prod.fst he

end PacketSender

namespace DataFrameEmitter

variable {w : Wire} (random : Nat → Bool)

/-- **A `push` fails only when it must**: the frame window is full, or the frame queue is
marked rate-limited and the bytes left cannot hold a fresh frame with the datagram. -/
theorem push_error_full {dfe d : DataFrameEmitter} (hs : Solvent w dfe) {p : PendingPacket}
    {i : Nat} {pers : Bool} {err : EmitError} (h : push w random dfe p i pers = (d, .error err)) :
    d.frameQueue.canPush = false ∨ d.frameQueue.rateLimited = true ∧
      d.bytesRemaining < w.dataFrameOverhead + w.encodedSize (p.datagram i) := by
  have hinit : ∀ {d0 : DataFrameEmitter}, pushInitial w random d0 p i pers = (d, .error err) →
      d.frameQueue.canPush = false ∨ d.frameQueue.rateLimited = true ∧
        d.bytesRemaining < w.dataFrameOverhead + w.encodedSize (p.datagram i) := by
    intro d0 h
    unfold pushInitial at h
    split at h
    · rename_i hc
      cases h
      exact .inl (by simpa using hc)
    · dsimp only at h
      split at h <;> cases h
      exact .inr ⟨rfl, ‹_›⟩
  unfold push at h
  split at h
  · rename_i f hf
    dsimp only at h
    split at h
    · exact hinit h
    split at h <;> cases h
    rename_i hr
    have hb := hs.2 f hf
    simp only [DataFrameBuilder.size] at hb hr
    refine .inr ⟨rfl, ?_⟩
    simp [flush, hf, DataFrame.len, DataFrameBuilder.build, markRateLimited]
    omega
  · exact hinit h

end DataFrameEmitter

/-- Why a call has returned: nothing is pending and the sender admits no packet, or the
frame window is full, or the frame queue is marked rate-limited and the bytes left cannot
hold a fresh frame with the datagram of a live head of the resend or pending queue. -/
def Stopped (w : Wire) (flushId : Nat) (e : Emit) : Prop :=
  (e.pendingQueue = [] ∧ (e.packetSender.emitPacket flushId).1 = none) ∨
    e.dfe.frameQueue.canPush = false ∨
    e.dfe.frameQueue.rateLimited = true ∧ ∃ ref p,
      (e.resendQueue.peek.map (·.fragmentRef) = some ref ∨
        e.pendingQueue.head?.map (·.fragmentRef) = some ref) ∧
      Live e.packetSender ref p ∧
      e.dfe.bytesRemaining < w.dataFrameOverhead + w.encodedSize (p.datagram ref.fragmentId)

section Stop

variable (w : Wire) (random : Nat → Bool) (nowMs rttMs flushId : Nat)

/-- **Each turn that returns leaves a reason**: a failed push leaves the full window, or
the rate-limited flag and the head it could not fit; the final flush leaves nothing
pending and a sender that admits nothing. -/
theorem turn_stopped {l : Loop} {e : Emit} {s : Loop × Emit}
    (h : Turn w random nowMs rttMs flushId l e s) (hs : Solvent w e.dfe) (hd : s.1 = .done) :
    Stopped w flushId s.2 := by
  cases h with
  | @resendFail _ x p _ _ hx hl _ hp =>
    exact .inr ((push_error_full random hs hp).imp_right fun hr =>
      ⟨hr.1, x.fragmentRef, p, .inl (by simp [hx]), hl, hr.2⟩)
  | @pendingFail _ x _ p _ _ hx hl hp =>
    exact .inr ((push_error_full random hs hp).imp_right fun hr =>
      ⟨hr.1, x.fragmentRef, p, .inr (by simp [hx]), hl, hr.2⟩)
  | refillDone hq hp =>
    refine .inl ⟨hq, ?_⟩
    have := PacketSender.emitPacket_none_again
      (show (e.packetSender.emitPacket flushId).1 = none by rw [hp])
    rwa [hp] at this
  | resendEmpty | resendStale | resendWait | resendSent | refillNext | refillHeld | pendingEmpty
  | pendingStale | pendingSent => cases hd

/-- **A call returns only when it must.**  Whatever `emit_data_frames` returns: nothing is
left pending and the packet sender admits no further packet; or the frame window is
full; or the frame queue has been marked rate-limited and the bytes of the budget left
unspent cannot hold a fresh frame with the datagram of a live fragment at the head of
the resend or the pending queue. -/
theorem emitDataFrames_stops {fuel maxSendSize : Nat} {fe : FrameEmitter}
    {r : Nat × List DataFrame × FrameEmitter}
    (h : emitDataFrames w random fuel nowMs rttMs maxSendSize fe = some r) :
    (r.2.2.pendingQueue = [] ∧ (r.2.2.packetSender.emitPacket fe.flushId).1 = none) ∨
      r.2.2.frameQueue.canPush = false ∨
      r.2.2.frameQueue.rateLimited = true ∧ ∃ ref p,
        (r.2.2.resendQueue.peek.map (·.fragmentRef) = some ref ∨
          r.2.2.pendingQueue.head?.map (·.fragmentRef) = some ref) ∧
        Live r.2.2.packetSender ref p ∧
        maxSendSize - r.1 < w.dataFrameOverhead + w.encodedSize (p.datagram ref.fragmentId) := by
  dsimp only [emitDataFrames] at h
  split_ifs at h with hd
  cases h
  have hrun := iterate_induction w random nowMs rttMs fe.flushId
    (fun s => Solvent w s.2.dfe ∧ (s.1 = .done → Stopped w fe.flushId s.2))
    (fun ht hs => ⟨turn_solvent w random nowMs rttMs fe.flushId ht hs.1,
      turn_stopped w random nowMs rttMs fe.flushId ht hs.1⟩) fuel
    (s := (.resend, Emit.start fe nowMs maxSendSize))
    ⟨solvent_new w nowMs fe.frameQueue maxSendSize, fun h => nomatch h⟩
  have hmax := iterate_maxSendSize w random nowMs rttMs fe.flushId fuel
    (.resend, Emit.start fe nowMs maxSendSize)
  have hsol := hrun.1.1
  change _ = maxSendSize at hmax
  rcases hrun.2 hd with h1 | h2 | ⟨h3, ref, p, hq, hl, hb⟩
  · exact .inl h1
  · exact .inr (.inl h2)
  · refine .inr (.inr ⟨h3, ref, p, hq, hl, ?_⟩)
    simp only [totalSize]
    omega

/-- Two 20-byte fragments under a 60-byte budget: the first fills a 40-byte frame, and
the 20 bytes left cannot hold a frame with the second, which stays pending. -/
theorem emitDataFrames_stops_sixty :
    ∃ r, emitDataFrames tinyWire (fun _ => false) 8 0 100 60
        (freshEmitter.enqueue (List.replicate 40 0) .unreliable) = some r ∧
      r.2.2.pendingQueue.length = 1 ∧
      ((r.2.2.pendingQueue = [] ∧ (r.2.2.packetSender.emitPacket 0).1 = none) ∨
        r.2.2.frameQueue.canPush = false ∨
        r.2.2.frameQueue.rateLimited = true ∧ ∃ ref p,
          (r.2.2.resendQueue.peek.map (·.fragmentRef) = some ref ∨
            r.2.2.pendingQueue.head?.map (·.fragmentRef) = some ref) ∧
          Live r.2.2.packetSender ref p ∧
          60 - r.1 < tinyWire.dataFrameOverhead + tinyWire.encodedSize (p.datagram ref.fragmentId)) :=
  ⟨_, rfl, rfl, emitDataFrames_stops tinyWire (fun _ => false) 0 100
    (show emitDataFrames tinyWire (fun _ => false) 8 0 100 60
      (freshEmitter.enqueue (List.replicate 40 0) .unreliable) = _ from rfl)⟩

end Stop

end DatenMeister
end Porous
