import Porous.DatenMeister.Backoff

/-!
# Emission order

What one call of `emit_data_frames` hands to the callback, read against the entries its
pushes consumed (`Endpoint.callSent`).  `Order` is the invariant, over every state an
endpoint reaches (`Order.reachable`): the datagrams accepted are those of the entries
consumed, one each, in order, and when the call has returned they are all in the frames
emitted; the resend entries come first, each due when it was sent, and, when
`now_ms + 4 * rtt_ms` stays within `u64`, in the order of their resend times, since a
rescheduled entry is due no earlier than `now_ms`.  `turn_sends` says what one turn
consumes, and `turn_return_quiet` that a turn that returns consumes nothing and leaves both
queues.

Past `u64` the rescheduled time wraps to a small one that is due at once: the same call
then resends the fragment with an earlier resend time than the entry it just consumed
(`wrapped_resent_out_of_order`).
-/

namespace Porous
namespace DatenMeister

open DataFrameEmitter Endpoint

namespace Endpoint

/-- The sends of the call in progress, or of the last call between calls, in order. -/
def callSent (s : Endpoint) : List Sent := s.sent.drop s.callStart

@[simp] theorem callSent_send (s : Endpoint) (l : Loop) (e : Emit) (x : Sent)
    (h : s.callStart ≤ s.sent.length) :
    ({ s with loop := l, emit := e, sent := s.sent ++ [x] } : Endpoint).callSent = s.callSent ++ [x] :=
  List.drop_append_of_le_length h

end Endpoint

/-- The resend-queue entries among a log's sends, in order. -/
def resendsIn (l : List Sent) : List ResendEntry :=
  l.filterMap fun x => match x.entry with
    | .resend y => some y
    | .pending _ => none

/-- The pending-queue entries among a log's sends, in order. -/
def pendingsIn (l : List Sent) : List PendingEntry :=
  l.filterMap fun x => match x.entry with
    | .pending y => some y
    | .resend _ => none

@[simp] theorem resendsIn_nil : resendsIn [] = [] := rfl

@[simp] theorem pendingsIn_nil : pendingsIn [] = [] := rfl

@[simp] theorem resendsIn_append (l l' : List Sent) :
    resendsIn (l ++ l') = resendsIn l ++ resendsIn l' := List.filterMap_append _ _ _

@[simp] theorem pendingsIn_append (l l' : List Sent) :
    pendingsIn (l ++ l') = pendingsIn l ++ pendingsIn l' := List.filterMap_append _ _ _

@[simp] theorem resendsIn_resend (y : ResendEntry) (t r : Nat) : resendsIn [⟨.resend y, t, r⟩] = [y] := rfl

@[simp] theorem resendsIn_pending (y : PendingEntry) (t r : Nat) : resendsIn [⟨.pending y, t, r⟩] = [] := rfl

@[simp] theorem pendingsIn_resend (y : ResendEntry) (t r : Nat) : pendingsIn [⟨.resend y, t, r⟩] = [] := rfl

@[simp] theorem pendingsIn_pending (y : PendingEntry) (t r : Nat) :
    pendingsIn [⟨.pending y, t, r⟩] = [y] := rfl

/-- **The emission-order invariant.**  The datagrams the call's emitter accepted are those
of the entries its pushes consumed, in order, and none is in progress once it has
returned.  Those entries are resend entries, each due when sent, and then pending ones;
while the resend loop runs no pending entry has been consumed.  Without overflow, the
resend entries consumed are in the order of their resend times, and no entry left in
the resend queue during the resend loop is due before them. -/
structure Order (s : Endpoint) : Prop where
  start_le : s.callStart ≤ s.sent.length
  committed : s.emit.dfe.committed.map Datagram.fragmentRef = s.callSent.map Sent.fragmentRef
  idle : s.loop = .done → s.emit.dfe.inProgressFrame = none
  phases : s.callSent.map Sent.entry =
    (resendsIn s.callSent).map .resend ++ (pendingsIn s.callSent).map .pending
  resend_first : s.loop = .resend → pendingsIn s.callSent = []
  due : ∀ y ∈ resendsIn s.callSent, y.resendTime ≤ s.call.nowMs
  sorted : s.call.nowMs + 4 * s.call.rttMs < 2 ^ 64 → (resendsIn s.callSent).Sorted ResendEntry.Before
  below : s.call.nowMs + 4 * s.call.rttMs < 2 ^ 64 → s.loop = .resend →
    ∀ x ∈ resendsIn s.callSent, ∀ y ∈ s.emit.resendQueue.entries, x.Before y

namespace Order

variable {s : Endpoint}

theorem init (windowSize maxFragmentSize baseId nextFrameId frameWindowSize : Nat) :
    Order (Endpoint.init windowSize maxFragmentSize baseId nextFrameId frameWindowSize) where
  start_le := le_rfl
  committed := rfl
  idle _ := rfl
  phases := rfl
  resend_first _ := rfl
  due := by simp [callSent, Endpoint.init]
  sorted _ := List.sorted_nil
  below := by simp [callSent, Endpoint.init]

/-- What consumes nothing, keeps the call and its emitter's datagrams, starts no resend
loop and only drops resend entries keeps the invariant. -/
theorem of_quiet (h : Order s) {s' : Endpoint} (hs : s'.sent = s.sent) (hcs : s'.callStart = s.callStart)
    (hc : s'.call = s.call) (hcom : s'.emit.dfe.committed = s.emit.dfe.committed)
    (hl : s'.loop = .resend → s.loop = .resend)
    (hq : ∀ y ∈ s'.emit.resendQueue.entries, y ∈ s.emit.resendQueue.entries)
    (hidle : s'.loop = .done → s'.emit.dfe.inProgressFrame = none) : Order s' := by
  have hcall : s'.callSent = s.callSent := by rw [callSent, hs, hcs, callSent]
  exact {
    start_le := hs ▸ hcs ▸ h.start_le
    committed := by rw [hcom, hcall]; exact h.committed
    idle := hidle
    phases := hcall ▸ h.phases
    resend_first := fun hr => hcall ▸ h.resend_first (hl hr)
    due := hc ▸ hcall ▸ h.due
    sorted := hc ▸ hcall ▸ h.sorted
    below := fun hw hr x hx y hy => h.below (hc ▸ hw) (hl hr) x (hcall ▸ hx) y (hq y hy) }

/-- Every input between calls keeps the invariant; `Input.flush` starts the next call
with nothing consumed. -/
theorem input (h : Order s) (hd : s.loop = .done) (i : Input) : Order (s.input i) := by
  cases i with
  | flush c =>
    have hcall : (s.input (.flush c)).callSent = [] := List.drop_length _
    exact {
      start_le := le_rfl
      committed := by rw [hcall]; rfl
      idle := fun h => by cases h
      phases := by rw [hcall]; rfl
      resend_first := fun _ => by rw [hcall]; rfl
      due := by rw [hcall]; simp
      sorted := fun _ => by rw [hcall]; exact List.sorted_nil
      below := fun _ _ => by rw [hcall]; simp }
  | _ =>
    exact h.of_quiet rfl rfl rfl rfl id (fun _ => id) fun _ => h.idle hd

section Turns

variable (w : Wire) (random : Nat → Bool)

/-- A turn that consumes nothing keeps the invariant. -/
theorem record_quiet (h : Order s) {l : Loop} {e : Emit} (hcom : e.dfe.committed = s.emit.dfe.committed)
    (hl : l = .resend → s.loop = .resend)
    (hq : ∀ y ∈ e.resendQueue.entries, y ∈ s.emit.resendQueue.entries)
    (hidle : l = .done → e.dfe.inProgressFrame = none) : Order (s.record (l, e)) :=
  h.of_quiet (record_sent hcom) rfl rfl hcom hl hq hidle

/-- Resending the due head of the resend queue keeps the invariant: it is due no later
than anything left in the queue, and its successor, without overflow, is due no earlier
than now. -/
theorem record_resendSent (h : Order s) (hB : Backoff s) (hl0 : s.loop = .resend) {x : ResendEntry}
    {p : PendingPacket} {d : DataFrameEmitter} (hx : s.emit.resendQueue.peek = some x)
    (hl : Live s.emit.packetSender x.fragmentRef p) (hd : x.resendTime ≤ s.call.nowMs)
    (hp : s.emit.dfe.push w random p x.fragmentRef.fragmentId true = (d, .ok ())) :
    Order (s.record (.resend, { s.emit with
      dfe := d
      resendQueue := s.emit.resendQueue.pop.push (reschedule s.call.nowMs s.call.rttMs x) })) := by
  have hc := committed_push_ok w random hp
  rw [record_of_resend hl0 hx hc]
  have hq := ResendQueue.entries_of_peek hx
  have hxq : x ∈ s.emit.resendQueue.entries := hq ▸ List.mem_cons_self _ _
  have hnone := h.resend_first hl0
  refine {
    start_le := h.start_le.trans (by simp)
    committed := ?_
    idle := fun h => by cases h
    phases := ?_
    resend_first := ?_
    due := ?_
    sorted := fun hw => ?_
    below := fun hw _ => ?_ } <;> simp only [callSent_send _ _ _ _ h.start_le]
  · rw [hc, List.map_append, List.map_append, h.committed]
    simp [Lifecycle.fragmentRef_of_live hl, Sent.fragmentRef, Consumed.fragmentRef]
  · simp [h.phases, hnone]
  · simp [hnone]
  · simp only [resendsIn_append, resendsIn_resend, List.mem_append, List.mem_singleton]
    exact fun y hy => hy.elim (h.due y) fun e => e ▸ hd
  · simp only [resendsIn_append, resendsIn_resend]
    exact List.pairwise_append.2 ⟨h.sorted hw, List.sorted_singleton x, fun a ha b hb =>
      (List.mem_singleton.1 hb) ▸ h.below hw hl0 a ha x hxq⟩
  · -- the successor is due at `now + rtt * 2^send_count`, at most `now + 4 * rtt`
    replace hw : s.call.nowMs + 4 * s.call.rttMs < 2 ^ 64 := hw
    obtain ⟨z, -, hz⟩ := Option.map_eq_some'.1 (hB.queued x hxq)
    have hsc : 2 ^ x.sendCount ≤ 4 := by
      rcases hz ▸ z.schedule_sendCount with h1 | h1 <;> rw [h1] <;> decide
    have hnow : s.call.nowMs ≤ (reschedule s.call.nowMs s.call.rttMs x).resendTime := by
      have := Nat.mul_le_mul_left s.call.rttMs hsc
      simp only [reschedule, u64]
      rw [Nat.mod_eq_of_lt (by omega)]
      omega
    intro a ha b hb
    simp only [resendsIn_append, resendsIn_resend, List.mem_append, List.mem_singleton] at ha
    rcases ResendQueue.mem_insert.1 hb with rfl | hbt
    · rcases ha with ha | rfl
      · exact (h.due a ha).trans hnow
      · exact hd.trans hnow
    · rcases ha with ha | rfl
      · exact h.below hw hl0 a ha b (List.mem_of_mem_tail hbt)
      · exact ResendQueue.peek_before hx b (List.mem_of_mem_tail hbt)

/-- Sending the head of the pending queue keeps the invariant: the pending phase has
begun, and the resend loop is over. -/
theorem record_pendingSent (h : Order s) (hl0 : s.loop = .pending) {x : PendingEntry}
    {rest : List PendingEntry} {p : PendingPacket} {d : DataFrameEmitter}
    (hx : s.emit.pendingQueue = x :: rest) (hl : Live s.emit.packetSender x.fragmentRef p)
    (hp : s.emit.dfe.push w random p x.fragmentRef.fragmentId x.resend = (d, .ok ()))
    (q : ResendQueue) :
    Order (s.record (.pending, { s.emit with dfe := d, pendingQueue := rest, resendQueue := q })) := by
  have hc := committed_push_ok w random hp
  rw [record_of_pending hl0 hx hc]
  refine {
    start_le := h.start_le.trans (by simp)
    committed := ?_
    idle := fun h => by cases h
    phases := ?_
    resend_first := fun h => by cases h
    due := ?_
    sorted := fun hw => ?_
    below := fun _ h => by cases h } <;> simp only [callSent_send _ _ _ _ h.start_le]
  · rw [hc, List.map_append, List.map_append, h.committed]
    simp [Lifecycle.fragmentRef_of_live hl, Sent.fragmentRef, Consumed.fragmentRef]
  · simp [h.phases]
  · simpa using h.due
  · simpa using h.sorted hw

/-- **Every turn of a call keeps the invariant.** -/
theorem turn (h : Order s) (hB : Backoff s) (hl : s.loop ≠ .done) : Order (s.turn w random) := by
  obtain ⟨l, e, c, adm, sent, cs⟩ := s
  have ht := step_turn w random c.nowMs c.rttMs c.flushId l e hl
  unfold Endpoint.turn
  generalize step w random c.nowMs c.rttMs c.flushId l e = r at ht ⊢
  cases ht with
  | resendStale => exact h.record_quiet rfl (fun _ => rfl) (fun _ => List.mem_of_mem_tail) nofun
  | resendFail _ _ _ hp =>
    exact h.record_quiet (committed_push_error w random hp) nofun (fun _ => id)
      fun _ => push_error_inProgressFrame w random hp
  | resendSent hx hlive hd hp => exact h.record_resendSent w random hB rfl hx hlive hd hp
  | refillDone =>
    exact h.record_quiet (committed_flush w _) nofun (fun _ => id) fun _ => flush_inProgressFrame w _
  | pendingStale => exact h.record_quiet rfl nofun (fun _ => List.mem_of_mem_tail) nofun
  | pendingFail _ _ hp =>
    exact h.record_quiet (committed_push_error w random hp) nofun (fun _ => id)
      fun _ => push_error_inProgressFrame w random hp
  | pendingSent hx hlive hp => exact h.record_pendingSent w random rfl hx hlive hp _
  | _ => exact h.record_quiet rfl nofun (fun _ => id) nofun

end Turns

/-- **The emission-order invariant holds in every state an endpoint reaches.** -/
theorem reachable {w : Wire} {random : Nat → Bool} {s : Endpoint} (hs : Reachable w random s) :
    Order s := by
  induction hs with
  | init => exact Order.init _ _ _ _ _
  | input i _ hd ih => exact ih.input hd i
  | turn hs hl ih => exact ih.turn w random (Backoff.reachable hs) hl

end Order

section Turns

variable (w : Wire) (random : Nat → Bool)

/-- **What one turn consumes**: nothing; or, from the resend loop, the due head of the
resend queue; or, from the pending loop, the head of the pending queue; in both cases a
fragment of a live packet that is not acknowledged. -/
theorem turn_sends (s : Endpoint) (hl : s.loop ≠ .done) :
    (s.turn w random).sent = s.sent ∨
      (∃ x p, s.loop = .resend ∧ s.emit.resendQueue.peek = some x ∧ x.resendTime ≤ s.call.nowMs ∧
        Live s.emit.packetSender x.fragmentRef p ∧
        (s.turn w random).sent = s.sent ++ [⟨.resend x, s.call.nowMs, s.call.rttMs⟩]) ∨
      ∃ x rest p, s.loop = .pending ∧ s.emit.pendingQueue = x :: rest ∧
        Live s.emit.packetSender x.fragmentRef p ∧
        (s.turn w random).sent = s.sent ++ [⟨.pending x, s.call.nowMs, s.call.rttMs⟩] := by
  obtain ⟨l, e, c, adm, sent, cs⟩ := s
  have ht := step_turn w random c.nowMs c.rttMs c.flushId l e hl
  unfold Endpoint.turn
  generalize step w random c.nowMs c.rttMs c.flushId l e = r at ht ⊢
  cases ht with
  | resendFail _ _ _ hp => exact .inl (record_sent (committed_push_error w random hp))
  | resendSent hx hlive hd hp =>
    exact .inr (.inl ⟨_, _, rfl, hx, hd, hlive, by rw [record_of_resend rfl hx (committed_push_ok w random hp)]⟩)
  | refillDone => exact .inl (record_sent (committed_flush w _))
  | pendingFail _ _ hp => exact .inl (record_sent (committed_push_error w random hp))
  | pendingSent hx hlive hp =>
    exact .inr (.inr ⟨_, _, _, rfl, hx, hlive, by rw [record_of_pending rfl hx (committed_push_ok w random hp)]⟩)
  | _ => exact .inl (record_sent rfl)

/-- **A turn that returns consumes nothing and leaves both queues**: the entry whose push
failed is still at the head of its queue. -/
theorem turn_return_quiet (s : Endpoint) (hl : s.loop ≠ .done) (hd : (s.turn w random).loop = .done) :
    (s.turn w random).sent = s.sent ∧ (s.turn w random).emit.resendQueue = s.emit.resendQueue ∧
      (s.turn w random).emit.pendingQueue = s.emit.pendingQueue := by
  obtain ⟨l, e, c, adm, sent, cs⟩ := s
  have ht := step_turn w random c.nowMs c.rttMs c.flushId l e hl
  unfold Endpoint.turn at hd ⊢
  generalize step w random c.nowMs c.rttMs c.flushId l e = r at ht hd ⊢
  cases ht with
  | resendFail _ _ _ hp => exact ⟨record_sent (committed_push_error w random hp), rfl, rfl⟩
  | refillDone => exact ⟨record_sent (committed_flush w _), rfl, rfl⟩
  | pendingFail _ _ hp => exact ⟨record_sent (committed_push_error w random hp), rfl, rfl⟩
  | _ => cases hd

/-- **The resend loop ends only when nothing left in its queue is due.** -/
theorem turn_resend_over (s : Endpoint) (hl : s.loop = .resend) (hr : (s.turn w random).loop = .refill) :
    ∀ y ∈ s.emit.resendQueue.entries, s.call.nowMs < y.resendTime := by
  obtain ⟨l, e, c, adm, sent, cs⟩ := s
  obtain rfl : l = .resend := hl
  have ht := step_turn w random c.nowMs c.rttMs c.flushId .resend e nofun
  unfold Endpoint.turn at hr
  generalize step w random c.nowMs c.rttMs c.flushId .resend e = r at ht hr
  cases ht with
  | resendEmpty hx =>
    intro y hy
    rw [ResendQueue.peek, List.head?_eq_none_iff] at hx
    rw [hx] at hy
    cases hy
  | resendWait hx _ hw => exact fun y hy => Nat.lt_of_lt_of_le hw (ResendQueue.peek_before hx y hy)
  | _ => cases hr

end Turns

section Law

variable (w : Wire) (random : Nat → Bool)

/-- **Emission order and no loss.**  In every state an endpoint reaches: the datagrams the
call's emitter has accepted are those of the entries its pushes consumed, one each and in
order, and once it has returned they are all in the frames emitted; the resend entries
consumed come first, each due when sent, and, when `now_ms + 4 * rtt_ms` stays within
`u64`, in the order of their resend times; a turn consumes nothing, the due head of the
resend queue or the head of the pending queue, of a live packet whose fragment is not
acknowledged; a turn that returns leaves both queues; the resend loop ends only when
nothing in its queue is due; and the fragments sent from the pending queue, then those
still in it, are the fragments of the packets admitted, in order. -/
theorem emission_order {s : Endpoint} (hs : Reachable w random s) :
    s.emit.dfe.committed.map Datagram.fragmentRef = s.callSent.map Sent.fragmentRef ∧
      (s.loop = .done → s.emit.dfe.emitted.flatMap DataFrame.datagrams = s.emit.dfe.committed) ∧
      s.callSent.map Sent.entry = (resendsIn s.callSent).map .resend ++ (pendingsIn s.callSent).map .pending ∧
      (∀ y ∈ resendsIn s.callSent, y.resendTime ≤ s.call.nowMs) ∧
      (s.call.nowMs + 4 * s.call.rttMs < 2 ^ 64 → (resendsIn s.callSent).Sorted ResendEntry.Before) ∧
      (s.loop ≠ .done →
        ((s.turn w random).sent = s.sent ∨
          (∃ x p, s.loop = .resend ∧ s.emit.resendQueue.peek = some x ∧ x.resendTime ≤ s.call.nowMs ∧
            Live s.emit.packetSender x.fragmentRef p ∧
            (s.turn w random).sent = s.sent ++ [⟨.resend x, s.call.nowMs, s.call.rttMs⟩]) ∨
          ∃ x rest p, s.loop = .pending ∧ s.emit.pendingQueue = x :: rest ∧
            Live s.emit.packetSender x.fragmentRef p ∧
            (s.turn w random).sent = s.sent ++ [⟨.pending x, s.call.nowMs, s.call.rttMs⟩]) ∧
        ((s.turn w random).loop = .done → (s.turn w random).sent = s.sent ∧
          (s.turn w random).emit.resendQueue = s.emit.resendQueue ∧
          (s.turn w random).emit.pendingQueue = s.emit.pendingQueue)) ∧
      (s.loop = .resend → (s.turn w random).loop = .refill →
        ∀ y ∈ s.emit.resendQueue.entries, s.call.nowMs < y.resendTime) ∧
      s.firstSent ++ s.pendingRefs = s.admittedRefs :=
  have h := Order.reachable hs
  ⟨h.committed, fun hd => (committed_of_idle (h.idle hd)).symm, h.phases, h.due, h.sorted,
    fun hl => ⟨turn_sends w random s hl, turn_return_quiet w random s hl⟩, turn_resend_over w random s,
    (Lifecycle.reachable hs).firsts⟩

end Law

theorem emission_order_twoCalls :
    Reachable tinyWire (fun _ => false) (twoCalls 0 2) ∧
      (resendsIn (twoCalls 0 2).callSent).Sorted ResendEntry.Before :=
  ⟨reachable_twoCalls_zero_two,
    (emission_order tinyWire (fun _ => false) reachable_twoCalls_zero_two).2.2.2.2.1 (by decide)⟩

/-- **Past `u64` the resend order breaks.**  A fragment sent at `now_ms = 2^64 - 3` with
`rtt_ms = 1` is due at `2^64 - 2`; the next call, at `2^64 - 1`, resends it and
reschedules it at `(2^64 - 1 + 2) mod 2^64 = 1`, due at once, so the same call resends it
again: the resend times it consumes go down. -/
theorem wrapped_resent_out_of_order :
    Reachable tinyWire (fun _ => false) (twoCalls (2 ^ 64 - 3) (2 ^ 64 - 1)) ∧
      (resendsIn (twoCalls (2 ^ 64 - 3) (2 ^ 64 - 1)).callSent).map (·.resendTime) = [2 ^ 64 - 2, 1] ∧
      ¬ (resendsIn (twoCalls (2 ^ 64 - 3) (2 ^ 64 - 1)).callSent).Sorted ResendEntry.Before :=
  ⟨by
    refine Reachable.turns _ _ (.input _ (Reachable.turns _ _
      (.input _ (.input _ (.init 16 20 0 0 8) ?_) ?_) 5 ?_) ?_) 2 ?_ <;> decide,
    by decide, by decide⟩

end DatenMeister
end Porous
