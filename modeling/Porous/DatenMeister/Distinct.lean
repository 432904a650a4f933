import Porous.DatenMeister.Order

/-!
# No fragment twice in one call, when the RTT is not zero

`sentAtZeroRtt_resent_fourteen_times` shows one call sending one fragment fourteen times:
with `rtt_ms = 0` line 191 reschedules a resent fragment at `now_ms` itself, and the
resend loop finds it due again.  This module shows that this is the only way, besides a
wrap of the `u64` clock.  When `rtt_ms > 0` and `now_ms + 4 * rtt_ms` stays within `u64`,
no call sends a fragment twice (`call_fragments_distinct`).

`Distinct` is the invariant: the fragments the call has sent are distinct, and every
resend entry of one of them is due after `now_ms`.  A resend takes a due entry, so its
fragment has not been sent in the call; its successor is due at
`now_ms + rtt_ms * 2^send_count`, after `now_ms` since `send_count` is 1 or 2
(`Backoff`).  A first send takes a pending fragment, which has never been sent
(`Lifecycle`), and schedules it at `now_ms + rtt_ms`.
-/

namespace Porous
namespace DatenMeister

open DataFrameEmitter Endpoint

/-- The call's RTT is not zero and `now_ms + 4 * rtt_ms` stays within `u64`, so that an
entry the call schedules is due after `now_ms`. -/
def Call.Spaced (c : Call) : Prop := 0 < c.rttMs ∧ c.nowMs + 4 * c.rttMs < 2 ^ 64

section Schedule

variable {nowMs rttMs : Nat} (h : 0 < rttMs ∧ nowMs + 4 * rttMs < 2 ^ 64)
include h

theorem firstSchedule_after (r : FragmentRef) : nowMs < (firstSchedule nowMs rttMs r).resendTime := by
  simp only [firstSchedule, u64]
  rw [Nat.mod_eq_of_lt (by omega)]
  omega

theorem reschedule_after {x : ResendEntry} (hx : x.sendCount = 1 ∨ x.sendCount = 2) :
    nowMs < (reschedule nowMs rttMs x).resendTime := by
  have hsc : 2 ^ x.sendCount ≤ 4 := by rcases hx with hx | hx <;> rw [hx] <;> decide
  have hpos : 1 ≤ 2 ^ x.sendCount := Nat.one_le_two_pow
  have h1 := Nat.mul_le_mul_left rttMs hsc
  have h2 := Nat.mul_le_mul_left rttMs hpos
  simp only [reschedule, u64]
  rw [Nat.mod_eq_of_lt (by omega)]
  omega

end Schedule

/-- **The invariant.**  For a call with `Call.Spaced`: the fragments it has sent are
distinct, and every resend entry of one of them is due after `now_ms`. -/
structure Distinct (s : Endpoint) : Prop where
  nodup : s.call.Spaced → (s.callSent.map Sent.fragmentRef).Nodup
  later : s.call.Spaced → ∀ y ∈ s.emit.resendQueue.entries,
    y.fragmentRef ∈ s.callSent.map Sent.fragmentRef → s.call.nowMs < y.resendTime

namespace Distinct

variable {s : Endpoint}

theorem init (windowSize maxFragmentSize baseId nextFrameId frameWindowSize : Nat) :
    Distinct (Endpoint.init windowSize maxFragmentSize baseId nextFrameId frameWindowSize) :=
  ⟨fun _ => by simp [callSent, Endpoint.init], fun _ => by simp [callSent, Endpoint.init]⟩

/-- What sends nothing, keeps the call and only drops resend entries keeps the invariant. -/
theorem of_quiet (h : Distinct s) {s' : Endpoint} (hs : s'.sent = s.sent)
    (hcs : s'.callStart = s.callStart) (hc : s'.call = s.call)
    (hq : ∀ y ∈ s'.emit.resendQueue.entries, y ∈ s.emit.resendQueue.entries) : Distinct s' := by
  have hcall : s'.callSent = s.callSent := by rw [callSent, hs, hcs, callSent]
  exact ⟨fun hw => hcall ▸ h.nodup (hc ▸ hw),
    fun hw y hy hf => hc ▸ h.later (hc ▸ hw) y (hq y hy) (hcall ▸ hf)⟩

/-- Every input between calls keeps the invariant; `Input.flush` starts a call that has
sent nothing. -/
theorem input (h : Distinct s) (i : Input) : Distinct (s.input i) := by
  cases i with
  | flush c =>
    have hcall : (s.input (.flush c)).callSent = [] := List.drop_length _
    exact ⟨fun _ => by rw [hcall]; exact List.nodup_nil, fun _ _ _ hf => by simp [hcall] at hf⟩
  | _ => exact h.of_quiet rfl rfl rfl fun _ => id

variable (w : Wire) (random : Nat → Bool)

theorem sentRef_resend (x : ResendEntry) (t r : Nat) :
    Sent.fragmentRef ⟨.resend x, t, r⟩ = x.fragmentRef := rfl

theorem sentRef_pending (x : PendingEntry) (t r : Nat) :
    Sent.fragmentRef ⟨.pending x, t, r⟩ = x.fragmentRef := rfl

/-- A send of a fragment the call has not sent keeps the fragments distinct. -/
theorem nodup_send {l : List Sent} {x : Sent} (h : (l.map Sent.fragmentRef).Nodup)
    (hx : x.fragmentRef ∉ l.map Sent.fragmentRef) : ((l ++ [x]).map Sent.fragmentRef).Nodup := by
  rw [List.map_append, List.nodup_append]
  refine ⟨h, List.nodup_singleton _, fun a ha hb => hx ?_⟩
  rw [List.map_singleton, List.mem_singleton] at hb
  exact hb ▸ ha

/-- Resending the due head of the resend queue keeps the invariant: a due entry's
fragment has not been sent in the call, the queue holds no other entry of it, and its
successor is due after `now_ms`. -/
theorem record_resendSent (h : Distinct s) (hL : Lifecycle s) (hB : Backoff s) (hO : Order s)
    (hl0 : s.loop = .resend) {x : ResendEntry} {p : PendingPacket} {d : DataFrameEmitter}
    (hx : s.emit.resendQueue.peek = some x) (hd : x.resendTime ≤ s.call.nowMs)
    (hp : s.emit.dfe.push w random p x.fragmentRef.fragmentId true = (d, .ok ())) :
    Distinct (s.record (.resend, { s.emit with
      dfe := d
      resendQueue := s.emit.resendQueue.pop.push (reschedule s.call.nowMs s.call.rttMs x) })) := by
  rw [record_of_resend hl0 hx (committed_push_ok w random hp)]
  have hq := ResendQueue.entries_of_peek hx
  have hxq : x ∈ s.emit.resendQueue.entries := hq ▸ List.mem_cons_self _ _
  have hnew : s.call.Spaced → x.fragmentRef ∉ s.callSent.map Sent.fragmentRef :=
    fun hw hf => Nat.lt_irrefl _ (Nat.lt_of_lt_of_le (h.later hw x hxq hf) hd)
  have hnd : x.fragmentRef ∉ s.emit.resendQueue.entries.tail.map (·.fragmentRef) := by
    have := hL.resend_nodup
    rw [resendRefs, hq, List.map_cons, List.nodup_cons] at this
    exact this.1
  have hsc : x.sendCount = 1 ∨ x.sendCount = 2 := by
    obtain ⟨z, -, hz⟩ := Option.map_eq_some'.1 (hB.queued x hxq)
    exact hz ▸ z.schedule_sendCount
  refine ⟨fun hw => ?_, fun hw y hy hf => ?_⟩ <;> rw [callSent_send _ _ _ _ hO.start_le] at *
  · exact nodup_send (h.nodup hw) (hnew hw)
  · rw [List.map_append, List.mem_append, List.map_singleton, List.mem_singleton,
      sentRef_resend] at hf
    rcases ResendQueue.mem_insert.1 hy with rfl | hyt
    · exact reschedule_after hw hsc
    · rcases hf with hf | hf
      · exact h.later hw y (List.mem_of_mem_tail hyt) hf
      · exact absurd (hf ▸ List.mem_map_of_mem _ hyt) hnd

/-- Sending the head of the pending queue keeps the invariant: a pending fragment has
never been sent, and its first entry is due after `now_ms`. -/
theorem record_pendingSent (h : Distinct s) (hL : Lifecycle s) (hO : Order s)
    (hl0 : s.loop = .pending) {x : PendingEntry} {rest : List PendingEntry} {p : PendingPacket}
    {d : DataFrameEmitter} (hx : s.emit.pendingQueue = x :: rest)
    (hp : s.emit.dfe.push w random p x.fragmentRef.fragmentId x.resend = (d, .ok ())) :
    Distinct (s.record (.pending, { s.emit with
      dfe := d
      pendingQueue := rest
      resendQueue := if x.resend then
        s.emit.resendQueue.push (firstSchedule s.call.nowMs s.call.rttMs x.fragmentRef)
      else s.emit.resendQueue })) := by
  rw [record_of_pending hl0 hx (committed_push_ok w random hp)]
  have hunsent : x.fragmentRef ∉ s.sentRefs :=
    hL.pending_unsent _ (by rw [pendingRefs, hx]; exact List.mem_cons_self _ _)
  have hnew : x.fragmentRef ∉ s.callSent.map Sent.fragmentRef := fun hf =>
    hunsent ((List.drop_sublist _ _).map _ |>.subset hf)
  refine ⟨fun hw => ?_, fun hw y hy hf => ?_⟩ <;> rw [callSent_send _ _ _ _ hO.start_le] at *
  · exact nodup_send (h.nodup hw) hnew
  · rw [List.map_append, List.mem_append, List.map_singleton, List.mem_singleton,
      sentRef_pending] at hf
    have hold : y ∈ s.emit.resendQueue.entries → s.call.nowMs < y.resendTime := fun hy =>
      hf.elim (h.later hw y hy) fun hf =>
        absurd (hf ▸ (hL.resend_sent _ (List.mem_map_of_mem _ hy)).1) hunsent
    dsimp only at hy
    split at hy
    · rcases ResendQueue.mem_insert.1 hy with rfl | hy
      · exact firstSchedule_after hw _
      · exact hold hy
    · exact hold hy

/-- **Every turn of a call keeps the invariant.** -/
theorem turn (h : Distinct s) (hL : Lifecycle s) (hB : Backoff s) (hO : Order s)
    (hl : s.loop ≠ .done) : Distinct (s.turn w random) := by
  obtain ⟨l, e, c, adm, sent, cs⟩ := s
  have ht := step_turn w random c.nowMs c.rttMs c.flushId l e hl
  unfold Endpoint.turn
  generalize step w random c.nowMs c.rttMs c.flushId l e = r at ht ⊢
  cases ht with
  | resendStale => exact h.of_quiet (record_sent rfl) rfl rfl fun _ => List.mem_of_mem_tail
  | resendFail _ _ _ hp =>
    exact h.of_quiet (record_sent (committed_push_error w random hp)) rfl rfl fun _ => id
  | resendSent hx _ hd hp => exact h.record_resendSent w random hL hB hO rfl hx hd hp
  | refillDone => exact h.of_quiet (record_sent (committed_flush w _)) rfl rfl fun _ => id
  | pendingStale => exact h.of_quiet (record_sent rfl) rfl rfl fun _ => List.mem_of_mem_tail
  | pendingFail _ _ hp =>
    exact h.of_quiet (record_sent (committed_push_error w random hp)) rfl rfl fun _ => id
  | pendingSent hx _ hp => exact h.record_pendingSent w random hL hO rfl hx hp
  | _ => exact h.of_quiet (record_sent rfl) rfl rfl fun _ => id

/-- The invariant holds in every state an endpoint reaches. -/
theorem reachable {s : Endpoint} (hs : Reachable w random s) : Distinct s := by
  induction hs with
  | init => exact init _ _ _ _ _
  | input i _ _ ih => exact ih.input i
  | turn hs hl ih =>
    exact ih.turn w random (Lifecycle.reachable hs) (Backoff.reachable hs) (Order.reachable hs) hl

end Distinct

variable (w : Wire) (random : Nat → Bool)

/-- **No fragment twice in one call.**  In every state an endpoint reaches, when the
current (or last) call has `rtt_ms > 0` and `now_ms + 4 * rtt_ms` within `u64`, no
`(packet, fragment_id)` pair appears in more than one datagram among the frames the call
has handed to the callback and the frame in progress. -/
theorem call_fragments_distinct {s : Endpoint} (hs : Reachable w random s) (hr : 0 < s.call.rttMs)
    (hw : s.call.nowMs + 4 * s.call.rttMs < 2 ^ 64) :
    (s.emit.dfe.committed.map Datagram.fragmentRef).Nodup := by
  rw [(Order.reachable hs).committed]
  exact (Distinct.reachable w random hs).nodup ⟨hr, hw⟩

/-- The second call of `twoCalls 0 2`, with `rtt_ms = 1`, resends its fragment once. -/
theorem call_fragments_distinct_twoCalls :
    Reachable tinyWire (fun _ => false) (twoCalls 0 2) ∧ 0 < (twoCalls 0 2).call.rttMs ∧
      (twoCalls 0 2).call.nowMs + 4 * (twoCalls 0 2).call.rttMs < 2 ^ 64 ∧
      (twoCalls 0 2).emit.dfe.committed.length = 1 ∧
      ((twoCalls 0 2).emit.dfe.committed.map Datagram.fragmentRef).Nodup :=
  ⟨reachable_twoCalls_zero_two, by decide, by decide, by decide,
    call_fragments_distinct tinyWire (fun _ => false) reachable_twoCalls_zero_two (by decide)
      (by decide)⟩

end DatenMeister
end Porous
