import Porous.DatenMeister.Lifecycle

/-!
# The backoff schedule

Every push of a fragment to be resent schedules it again: a first send one RTT later with
`send_count = 1` (line 232), a resend `rtt_ms * 2^send_count` later with `send_count`
grown up to `MAX_SEND_COUNT` (lines 190-192).  `Sent.schedule` is the entry a send
leaves.  `Backoff` ties the resend queue to the log of sends: every entry is the one its
fragment's last send scheduled, a fragment is first sent from the pending queue, and each
later send of it consumes the entry the send before scheduled, once that entry was due.
Every state an endpoint reaches satisfies it (`Backoff.reachable`); `backoff_schedule`
reads the schedule off it: the `k`-th send of a fragment leaves it due
`rtt_ms * 2^(min(k,3)-1)` later with `send_count = min(k, 2)`, and its next send comes no
earlier.

Nothing in the schedule keeps a rescheduled entry out of the call that resent it: with
`rtt_ms = 0` it is due at once (`sentAtZeroRtt_resent_fourteen_times`).
-/

namespace Porous
namespace DatenMeister

open DataFrameEmitter Endpoint

/-- The resend entry the code schedules after the send `x`: a first send is due one RTT
later with `send_count = 1` (line 232), a resend is rescheduled from the entry it consumed
(lines 190-192). -/
def Sent.schedule (x : Sent) : ResendEntry :=
  match x.entry with
  | .pending y => firstSchedule x.nowMs x.rttMs y.fragmentRef
  | .resend y => reschedule x.nowMs x.rttMs y

@[simp] theorem Sent.schedule_fragmentRef (x : Sent) : x.schedule.fragmentRef = x.fragmentRef := by
  obtain ⟨_ | _, _, _⟩ := x <;> rfl

/-- A schedule's `send_count` is 1 or 2, so its multiplier `1 << send_count` is at most 4. -/
theorem Sent.schedule_sendCount (x : Sent) : x.schedule.sendCount = 1 ∨ x.schedule.sendCount = 2 := by
  obtain ⟨y | y, t, r⟩ := x
  · show min (y.sendCount + 1) maxSendCount = 1 ∨ min (y.sendCount + 1) maxSendCount = 2
    simp only [maxSendCount]
    omega
  · exact .inl rfl

/-- The sends of fragment `f` in a log, in order. -/
def sendsOf (f : FragmentRef) (l : List Sent) : List Sent := l.filter (·.fragmentRef = f)

theorem sendsOf_append_of_eq {f : FragmentRef} {l : List Sent} {x : Sent} (h : x.fragmentRef = f) :
    sendsOf f (l ++ [x]) = sendsOf f l ++ [x] := by
  simp [sendsOf, h]

theorem sendsOf_append_of_ne {f : FragmentRef} {l : List Sent} {x : Sent} (h : x.fragmentRef ≠ f) :
    sendsOf f (l ++ [x]) = sendsOf f l := by
  simp [sendsOf, h]

theorem sendsOf_eq_nil {f : FragmentRef} {s : Endpoint} (h : f ∉ s.sentRefs) : sendsOf f s.sent = [] :=
  List.filter_eq_nil_iff.2 fun x hx hf => h (List.mem_map.2 ⟨x, hx, of_decide_eq_true hf⟩)

/-- Two successive sends of one fragment: the second consumes the entry the first
scheduled, and not before it is due. -/
def Resends (x x' : Sent) : Prop :=
  x'.entry = .resend x.schedule ∧ x.schedule.resendTime ≤ x'.nowMs

/-- A send that consumes the entry the `k`-th send scheduled, `k` counted from 0, leaves
the schedule of the `k + 1`-th. -/
theorem Resends.schedule {x x' : Sent} (h : Resends x x') {k : Nat}
    (hk : x.schedule.sendCount = min (k + 1) 2) :
    x'.schedule = ⟨x'.fragmentRef, u64 (x'.nowMs + x'.rttMs * 2 ^ min (k + 1) 2), min (k + 2) 2⟩ := by
  obtain ⟨e, t, r⟩ := x'
  obtain ⟨rfl, -⟩ := h
  show reschedule t r x.schedule = ⟨x.schedule.fragmentRef, u64 (t + r * 2 ^ min (k + 1) 2), min (k + 2) 2⟩
  rw [reschedule, hk]
  simp only [maxSendCount, ResendEntry.mk.injEq, true_and]
  omega

theorem chain'_rel_of_getElem? {R : Sent → Sent → Prop} {L : List Sent} (h : L.Chain' R) :
    ∀ {i : Nat} {a b : Sent}, L[i]? = some a → L[i + 1]? = some b → R a b := by
  induction L with
  | nil => intro i a b ha; cases ha
  | cons c L ih =>
    intro i a b ha hb
    cases i with
    | zero =>
      cases L with
      | nil => cases hb
      | cons d L =>
        simp only [List.getElem?_cons_zero, List.getElem?_cons_succ, Option.some.injEq] at ha hb
        subst ha hb
        exact (List.chain'_cons.1 h).1
    | succ i =>
      rw [List.getElem?_cons_succ] at ha hb
      exact ih h.tail ha hb

/-- **The backoff invariant.**  Every resend entry is the schedule of its fragment's last
send; a fragment's first send is from the pending queue; and each later one resends the
entry the one before scheduled, once it was due. -/
structure Backoff (s : Endpoint) : Prop where
  queued : ∀ y ∈ s.emit.resendQueue.entries,
    (sendsOf y.fragmentRef s.sent).getLast?.map Sent.schedule = some y
  first : ∀ f x, (sendsOf f s.sent).head? = some x → ∃ y, x.entry = .pending y
  chain : ∀ f, (sendsOf f s.sent).Chain' Resends

namespace Backoff

variable {s : Endpoint}

/-- The `k`-th send of a fragment, counted from 0, leaves it due `rtt_ms * 2^min(k, 2)`
after the send, with `send_count = min(k + 1, 2)`. -/
theorem schedule_getElem? (h : Backoff s) (f : FragmentRef) (k : Nat) :
    ∀ x : Sent, (sendsOf f s.sent)[k]? = some x →
      x.schedule = ⟨x.fragmentRef, u64 (x.nowMs + x.rttMs * 2 ^ min k 2), min (k + 1) 2⟩ := by
  induction k with
  | zero =>
    intro x hx
    obtain ⟨y, hy⟩ := h.first f x (by rw [List.head?_eq_getElem?]; exact hx)
    obtain ⟨e, t, r⟩ := x
    cases hy
    simp [Sent.schedule, firstSchedule, Sent.fragmentRef, Consumed.fragmentRef]
  | succ k ih =>
    intro x hx
    obtain ⟨hk, -⟩ := List.getElem?_eq_some_iff.1 hx
    have hx0 := List.getElem?_eq_getElem (Nat.lt_of_succ_lt hk)
    exact (chain'_rel_of_getElem? (h.chain f) hx0 hx).schedule (by rw [ih _ hx0])

/-- **The entry a send leaves is in the resend queue** while the fragment's packet is
live, to be resent and the fragment unacknowledged. -/
theorem schedule_queued (h : Backoff s) (hL : Lifecycle s) {id i : Nat} {p : PendingPacket} {x : Sent}
    (hw : s.emit.packetSender.window id = some (p, true)) (hi : i ≤ p.lastFragmentId)
    (hun : p.fragmentAcknowledged i = false) (hx : (sendsOf ⟨id, i⟩ s.sent).getLast? = some x) :
    x.schedule ∈ s.emit.resendQueue.entries := by
  have hxs : x ∈ sendsOf ⟨id, i⟩ s.sent := List.mem_of_getLast?_eq_some hx
  have hsent : (⟨id, i⟩ : FragmentRef) ∈ s.sentRefs := by
    obtain ⟨hmem, hf⟩ := List.mem_filter.1 hxs
    exact List.mem_map.2 ⟨x, hmem, of_decide_eq_true hf⟩
  obtain ⟨y, hy, hyr⟩ := List.mem_map.1 (hL.resend_kept id p i hw hi hun hsent)
  have hq := h.queued y hy
  rw [hyr, hx] at hq
  exact (Option.some.inj hq) ▸ hy

theorem init (windowSize maxFragmentSize baseId nextFrameId frameWindowSize : Nat) :
    Backoff (Endpoint.init windowSize maxFragmentSize baseId nextFrameId frameWindowSize) where
  queued := by simp [Endpoint.init, ResendQueue.empty]
  first := by simp [Endpoint.init, sendsOf]
  chain := by simp [Endpoint.init, sendsOf]

/-- What sends nothing and only drops resend entries keeps the invariant. -/
theorem of_quiet (h : Backoff s) {s' : Endpoint} (hs : s'.sent = s.sent)
    (hq : ∀ y ∈ s'.emit.resendQueue.entries, y ∈ s.emit.resendQueue.entries) : Backoff s' where
  queued y hy := hs ▸ h.queued y (hq y hy)
  first := hs ▸ h.first
  chain := hs ▸ h.chain

/-- A send `X` keeps the invariant if it resends the entry its fragment's last send
scheduled, or is the fragment's first, and leaves in the resend queue at most its own
schedule besides entries of other fragments. -/
theorem of_send (h : Backoff s) {s' : Endpoint} {X : Sent} (hs : s'.sent = s.sent ++ [X])
    (hprev : ∀ x ∈ (sendsOf X.fragmentRef s.sent).getLast?, Resends x X)
    (hfirst : sendsOf X.fragmentRef s.sent = [] → ∃ y, X.entry = .pending y)
    (hq : ∀ y ∈ s'.emit.resendQueue.entries,
      y = X.schedule ∨ y ∈ s.emit.resendQueue.entries ∧ y.fragmentRef ≠ X.fragmentRef) :
    Backoff s' where
  queued y hy := by
    rw [hs]
    rcases hq y hy with rfl | ⟨hy, hne⟩
    · simp [sendsOf_append_of_eq]
    · rw [sendsOf_append_of_ne (Ne.symm hne)]
      exact h.queued y hy
  first f x hx := by
    rw [hs] at hx
    by_cases hf : X.fragmentRef = f
    · subst hf
      rw [sendsOf_append_of_eq rfl] at hx
      cases hL : sendsOf X.fragmentRef s.sent with
      | nil =>
        rw [hL] at hx
        cases hx
        exact hfirst hL
      | cons a L =>
        rw [hL] at hx
        exact h.first _ x (by rw [hL]; exact hx)
    · rw [sendsOf_append_of_ne hf] at hx
      exact h.first f x hx
  chain f := by
    rw [hs]
    by_cases hf : X.fragmentRef = f
    · subst hf
      rw [sendsOf_append_of_eq rfl]
      exact (h.chain _).append (List.chain'_singleton X) fun x hx y hy => by
        cases hy
        exact hprev x hx
    · rw [sendsOf_append_of_ne hf]
      exact h.chain f

/-- Every input keeps the invariant: none sends or touches the resend queue. -/
theorem input (h : Backoff s) (i : Input) : Backoff (s.input i) :=
  h.of_quiet (input_sent s i) fun y hy => by rwa [input_resendQueue] at hy

section Turns

variable (w : Wire) (random : Nat → Bool)

/-- Resending the due head of the resend queue keeps the invariant: it is the entry the
fragment's last send scheduled, and its successor replaces it. -/
theorem record_resendSent (h : Backoff s) (hL : Lifecycle s) (hl0 : s.loop = .resend)
    {x : ResendEntry} {p : PendingPacket} {d : DataFrameEmitter} (hx : s.emit.resendQueue.peek = some x)
    (hd : x.resendTime ≤ s.call.nowMs)
    (hp : s.emit.dfe.push w random p x.fragmentRef.fragmentId true = (d, .ok ())) :
    Backoff (s.record (.resend, { s.emit with
      dfe := d
      resendQueue := s.emit.resendQueue.pop.push (reschedule s.call.nowMs s.call.rttMs x) })) := by
  rw [record_of_resend hl0 hx (committed_push_ok w random hp)]
  have hq := ResendQueue.entries_of_peek hx
  have hlast := h.queued x (hq ▸ List.mem_cons_self _ _)
  have hnd := hL.resend_nodup
  rw [resendRefs, hq, List.map_cons, List.nodup_cons] at hnd
  refine h.of_send rfl (fun x0 hx0 => ?_) (fun hnil => ?_) fun y hy => ?_
  · have hs0 : x0.schedule = x := Option.some.inj ((congrArg (Option.map Sent.schedule) hx0).symm.trans hlast)
    exact ⟨by rw [hs0], by rw [hs0]; exact hd⟩
  · rw [show sendsOf x.fragmentRef s.sent = [] from hnil] at hlast
    cases hlast
  · rcases ResendQueue.mem_insert.1 hy with rfl | hy
    · exact .inl rfl
    · exact .inr ⟨List.mem_of_mem_tail hy, fun he => hnd.1 (List.mem_map.2 ⟨y, hy, he⟩)⟩

/-- Sending the head of the pending queue keeps the invariant: it is the fragment's first
send, and the entry it schedules, if any, is its first. -/
theorem record_pendingSent (h : Backoff s) (hL : Lifecycle s) (hl0 : s.loop = .pending)
    {x : PendingEntry} {rest : List PendingEntry} {p : PendingPacket} {d : DataFrameEmitter}
    (hx : s.emit.pendingQueue = x :: rest)
    (hp : s.emit.dfe.push w random p x.fragmentRef.fragmentId x.resend = (d, .ok ())) :
    Backoff (s.record (.pending, { s.emit with
      dfe := d
      pendingQueue := rest
      resendQueue := if x.resend then
          s.emit.resendQueue.push (firstSchedule s.call.nowMs s.call.rttMs x.fragmentRef)
        else s.emit.resendQueue })) := by
  rw [record_of_pending hl0 hx (committed_push_ok w random hp)]
  have hu : x.fragmentRef ∉ s.sentRefs := hL.pending_unsent _ (by simp [pendingRefs, hx])
  have hold : ∀ y ∈ s.emit.resendQueue.entries, y.fragmentRef ≠ x.fragmentRef := fun y hy he =>
    hu (he ▸ (hL.resend_sent _ (List.mem_map_of_mem _ hy)).1)
  refine h.of_send rfl (fun x0 hx0 => ?_) (fun _ => ⟨x, rfl⟩) fun y hy => ?_
  · have hnil : sendsOf (Sent.fragmentRef ⟨.pending x, s.call.nowMs, s.call.rttMs⟩) s.sent = [] :=
      sendsOf_eq_nil hu
    rw [hnil] at hx0
    cases hx0
  · split at hy
    · rcases ResendQueue.mem_insert.1 hy with rfl | hy
      · exact .inl rfl
      · exact .inr ⟨hy, hold y hy⟩
    · exact .inr ⟨hy, hold y hy⟩

/-- **Every turn of a call keeps the invariant.** -/
theorem turn (h : Backoff s) (hL : Lifecycle s) (hl : s.loop ≠ .done) : Backoff (s.turn w random) := by
  obtain ⟨l, e, c, adm, sent, cs⟩ := s
  have ht := step_turn w random c.nowMs c.rttMs c.flushId l e hl
  unfold Endpoint.turn
  generalize step w random c.nowMs c.rttMs c.flushId l e = r at ht ⊢
  cases ht with
  | resendStale => exact h.of_quiet (record_sent rfl) fun _ => List.mem_of_mem_tail
  | resendFail _ _ _ hp => exact h.of_quiet (record_sent (committed_push_error w random hp)) fun _ => id
  | resendSent hx _ hd hp => exact h.record_resendSent w random hL rfl hx hd hp
  | refillDone => exact h.of_quiet (record_sent (committed_flush w _)) fun _ => id
  | pendingStale => exact h.of_quiet (record_sent rfl) fun _ => List.mem_of_mem_tail
  | pendingFail _ _ hp => exact h.of_quiet (record_sent (committed_push_error w random hp)) fun _ => id
  | pendingSent hx _ hp => exact h.record_pendingSent w random hL rfl hx hp
  | _ => exact h.of_quiet (record_sent rfl) fun _ => id

end Turns

/-- **The backoff invariant holds in every state an endpoint reaches.** -/
theorem reachable {w : Wire} {random : Nat → Bool} {s : Endpoint} (hs : Reachable w random s) :
    Backoff s := by
  induction hs with
  | init => exact Backoff.init _ _ _ _ _
  | input i _ _ ih => exact ih.input i
  | turn hs hl ih => exact ih.turn w random (Lifecycle.reachable hs) hl

end Backoff

section Law

variable (w : Wire) (random : Nat → Bool)

/-- **The backoff schedule.**  In every state an endpoint reaches, every resend entry has
`send_count` 1 or 2 and is the schedule of its fragment's last send, and the schedule of
that send is in the queue while the fragment is live, to be resent and unacknowledged.
The `k`-th send of a
fragment (from 1), at `now_ms = t` with `rtt_ms = r` and `t + 4r` within `u64`, schedules
it at `t + r * 2^(min(k,3)-1)` with `send_count = min(k, 2)`, and the next send of the
fragment resends that entry, at a `now_ms` no earlier. -/
theorem backoff_schedule {s : Endpoint} (hs : Reachable w random s) :
    (∀ y ∈ s.emit.resendQueue.entries, (y.sendCount = 1 ∨ y.sendCount = 2) ∧
        (sendsOf y.fragmentRef s.sent).getLast?.map Sent.schedule = some y) ∧
      (∀ id p i x, s.emit.packetSender.window id = some (p, true) → i ≤ p.lastFragmentId →
        p.fragmentAcknowledged i = false → (sendsOf ⟨id, i⟩ s.sent).getLast? = some x →
        x.schedule ∈ s.emit.resendQueue.entries) ∧
      ∀ f k x, 1 ≤ k → (sendsOf f s.sent)[k - 1]? = some x → x.nowMs + 4 * x.rttMs < 2 ^ 64 →
        x.schedule = ⟨f, x.nowMs + x.rttMs * 2 ^ (min k 3 - 1), min k 2⟩ ∧
        ∀ x', (sendsOf f s.sent)[k]? = some x' →
          x'.entry = .resend x.schedule ∧ x.nowMs + x.rttMs * 2 ^ (min k 3 - 1) ≤ x'.nowMs := by
  have h := Backoff.reachable hs
  refine ⟨fun y hy => ⟨?_, h.queued y hy⟩,
    fun _ _ _ _ hw hi hun hx => h.schedule_queued (Lifecycle.reachable hs) hw hi hun hx,
    fun f k x hk hx hwrap => ?_⟩
  · obtain ⟨x, -, rfl⟩ := Option.map_eq_some'.1 (h.queued y hy)
    exact x.schedule_sendCount
  have hf : x.fragmentRef = f := of_decide_eq_true (List.mem_filter.1 (List.getElem?_mem hx)).2
  have hexp : min k 3 - 1 = min (k - 1) 2 := by omega
  have hpow : x.rttMs * 2 ^ min (k - 1) 2 ≤ x.rttMs * 4 :=
    Nat.mul_le_mul_left _ (Nat.pow_le_pow_right (by decide) (Nat.min_le_right _ _))
  have hsched : x.schedule = ⟨f, x.nowMs + x.rttMs * 2 ^ (min k 3 - 1), min k 2⟩ := by
    rw [h.schedule_getElem? f (k - 1) x hx, hf, hexp, u64, Nat.mod_eq_of_lt (by omega),
      Nat.sub_add_cancel hk]
  refine ⟨hsched, fun x' hx' => ?_⟩
  have hrel := chain'_rel_of_getElem? (h.chain f) hx (by rwa [Nat.sub_add_cancel hk])
  have hdue := hrel.2
  rw [hsched] at hdue
  exact ⟨hrel.1, hdue⟩

end Law

/-- Two calls on `tinyWire` with `rtt_ms = 1`: the first, at `now_ms = t`, admits and sends
a 3-byte packet to be resent and returns; the second, at `now_ms = t'`, takes two turns. -/
def twoCalls (t t' : Nat) : Endpoint :=
  (turn tinyWire (fun _ => false))^[2]
    (((turn tinyWire (fun _ => false))^[5]
      (((Endpoint.init 16 20 0 0 8).input (.enqueue ⟨[1, 2, 3], 0, 0, 0, .resend, 0⟩)).input
        (.flush ⟨t, 1, 10000, 0⟩))).input (.flush ⟨t', 1, 10000, 0⟩))

theorem reachable_twoCalls_zero_two : Reachable tinyWire (fun _ => false) (twoCalls 0 2) := by
  refine Reachable.turns _ _ (.input _ (Reachable.turns _ _
    (.input _ (.input _ (.init 16 20 0 0 8) ?_) ?_) 5 ?_) ?_) 2 ?_ <;> decide

/-- The fragment of `twoCalls 0 2` is sent at time 0 and resent at time 2, with
`rtt_ms = 1`: its first send is due again at `0 + 1`, its resend at `2 + 1 * 2`, the
doubled backoff, with `send_count` 2. -/
theorem backoff_schedule_twoCalls :
    Reachable tinyWire (fun _ => false) (twoCalls 0 2) ∧
      sendsOf ⟨0, 0⟩ (twoCalls 0 2).sent =
        [⟨.pending ⟨⟨0, 0⟩, true⟩, 0, 1⟩, ⟨.resend ⟨⟨0, 0⟩, 1, 1⟩, 2, 1⟩] ∧
      Sent.schedule ⟨.pending ⟨⟨0, 0⟩, true⟩, 0, 1⟩ = ⟨⟨0, 0⟩, 0 + 1 * 2 ^ (min 1 3 - 1), min 1 2⟩ ∧
      (Sent.entry ⟨.resend ⟨⟨0, 0⟩, 1, 1⟩, 2, 1⟩ =
          .resend (Sent.schedule ⟨.pending ⟨⟨0, 0⟩, true⟩, 0, 1⟩) ∧
        0 + 1 * 2 ^ (min 1 3 - 1) ≤ 2) ∧
      Sent.schedule ⟨.resend ⟨⟨0, 0⟩, 1, 1⟩, 2, 1⟩ = ⟨⟨0, 0⟩, 2 + 1 * 2 ^ (min 2 3 - 1), min 2 2⟩ :=
  have h := (backoff_schedule tinyWire (fun _ => false) reachable_twoCalls_zero_two).2.2 ⟨0, 0⟩
  have h1 := h 1 _ le_rfl (by decide) (by decide)
  ⟨reachable_twoCalls_zero_two, by decide, h1.1, h1.2 _ (by decide),
    (h 2 _ (by decide) (by decide) (by decide)).1⟩

/-- A 3-byte packet queued for resending and sent by a flush at time 0 with `rtt_ms = 0`:
its fragment is due again at time 0. -/
def sentAtZeroRtt : FrameEmitter :=
  ((emitDataFrames tinyWire (fun _ => false) 8 0 0 10000
    (freshEmitter.enqueue [1, 2, 3] .resend)).map (·.2.2)).getD freshEmitter

/-- **With `rtt_ms = 0` one flush sends the same fragment fourteen times.**  Line 191
reschedules the fragment at `now_ms` itself, so the resend loop finds it due again and
packs it again, two copies to a frame, until the frame window of 8 is full. -/
theorem sentAtZeroRtt_resent_fourteen_times :
    (emitDataFrames tinyWire (fun _ => false) 40 0 0 10000 sentAtZeroRtt).map
        (fun r => (r.2.1.map DataFrame.datagrams).flatten.map Datagram.fragmentRef) =
      some (List.replicate 14 ⟨0, 0⟩) := by
  decide

end DatenMeister
end Porous
