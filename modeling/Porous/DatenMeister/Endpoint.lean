import Porous.DatenMeister.Turn

/-!
# The endpoint around `emit_data_frames`

`emit_data_frames` runs again and again on the same queues.  Between two calls the rest
of the endpoint changes them, with code that is not part of `emit_frame.rs` and is
modelled from the spec (`Input`): the application queues packets
(`PacketSender::enqueue_packet`), the packet window advances and the sender drops the
packets behind it, and the frame queue reconciles ack groups, setting the
acknowledgement bits of the fragments an acknowledged frame carried and freeing its slot
(`FrameQueue::acknowledge_group`), or gives a slot up.  A call begins with
`Input.flush` and then runs turn by turn (`Endpoint.turn`, one `step` each); no input
arrives while a call runs, since the endpoint is single-threaded.

`Endpoint` also keeps two records that the code does not keep but that the properties
of the later modules are about: the packets `emit_packet` returned, in order
(`admitted`), and for every `push` that returned `Ok` the queue entry it consumed, with
the time and RTT of its call (`sent`).  Both are read off the states `step` passes
through (`admissions`, `consumedBy`), so they record what the code did.
`turns_input_flush` says that a call of the endpoint is the call model `iterate`.
-/

namespace Porous
namespace DatenMeister

open DataFrameEmitter

/-- A queue entry consumed by a `push` that returned `Ok`. -/
inductive Consumed where
  | resend (x : ResendEntry)
  | pending (x : PendingEntry)
deriving DecidableEq, Repr

/-- The fragment of a consumed entry. -/
def Consumed.fragmentRef : Consumed → FragmentRef
  | .resend x => x.fragmentRef
  | .pending x => x.fragmentRef

/-- A datagram sent: the entry its `push` consumed, and the time and RTT of its call. -/
structure Sent where
  entry : Consumed
  nowMs : Nat
  rttMs : Nat
deriving DecidableEq, Repr

/-- The fragment a sent datagram carries. -/
def Sent.fragmentRef (x : Sent) : FragmentRef := x.entry.fragmentRef

/-- The arguments of a call `emit_data_frames(now_ms, rtt_ms, max_send_size, _)` and the
flush ID of its `FrameEmitter`. -/
structure Call where
  nowMs : Nat
  rttMs : Nat
  maxSendSize : Nat
  flushId : Nat
deriving DecidableEq, Repr

/-- Modelled from the spec: what the rest of the endpoint does between two calls. -/
inductive Input where
  /-- `PacketSender::enqueue_packet`. -/
  | enqueue (q : QueuedPacket)
  /-- The packet window advances to `baseId`, dropping the packets behind it. -/
  | advance (baseId : Nat)
  /-- An ack group acknowledges frame `frameId`. -/
  | frameAcked (frameId : Nat)
  /-- The slot of frame `frameId` is given up unacknowledged. -/
  | frameDropped (frameId : Nat)
  /-- A call of `emit_data_frames` begins. -/
  | flush (c : Call)

/-- The endpoint: where `emit_data_frames` stands (`.done` between calls), its queues,
the current or last call, the packets admitted and the datagrams sent, and how many
had been sent when the current call began. -/
structure Endpoint where
  loop : Loop
  emit : Emit
  call : Call
  admitted : List (PendingPacket × Bool)
  sent : List Sent
  callStart : Nat

/-- The packets `ps'` holds that `ps` had not admitted, in the order of their IDs. -/
def admissions (ps ps' : PacketSender) : List (PendingPacket × Bool) :=
  (List.range' ps.nextId (ps'.nextId - ps.nextId)).filterMap ps'.window

/-- The entry a turn from the head of loop `l` consumed: the head of the queue it pushed
from, when the push accepted a datagram. -/
def consumedBy (l : Loop) (e e' : Emit) : List Consumed :=
  if e.dfe.committed.length < e'.dfe.committed.length then
    match l with
    | .resend => e.resendQueue.peek.toList.map .resend
    | .pending => e.pendingQueue.head?.toList.map .pending
    | _ => []
  else []

theorem admissions_of_nextId {ps ps' : PacketSender} (h : ps'.nextId = ps.nextId) :
    admissions ps ps' = [] := by
  simp [admissions, h]

theorem admissions_admitQueued (ps : PacketSender) (q : QueuedPacket) (rest : List QueuedPacket) :
    admissions ps (ps.admitQueued q rest) =
      [(QueuedPacket.toPendingPacket ps.maxFragmentSize ps.nextId q, decide (q.mode = .resend))] := by
  simp [admissions, PacketSender.admitQueued]

theorem consumedBy_of_committed {l : Loop} {e e' : Emit} (h : e'.dfe.committed = e.dfe.committed) :
    consumedBy l e e' = [] := by
  simp [consumedBy, h]

theorem consumedBy_resend {e e' : Emit} {x : ResendEntry} {d : Datagram}
    (hx : e.resendQueue.peek = some x) (h : e'.dfe.committed = e.dfe.committed ++ [d]) :
    consumedBy .resend e e' = [.resend x] := by
  simp [consumedBy, h, hx]

theorem consumedBy_pending {e e' : Emit} {x : PendingEntry} {rest : List PendingEntry} {d : Datagram}
    (hx : e.pendingQueue = x :: rest) (h : e'.dfe.committed = e.dfe.committed ++ [d]) :
    consumedBy .pending e e' = [.pending x] := by
  simp [consumedBy, h, hx]

namespace Endpoint

variable (w : Wire) (random : Nat → Bool)

/-- A fresh endpoint: a fresh packet sender, empty pending and resend queues, and a frame
queue with no slot. -/
def init (windowSize maxFragmentSize baseId nextFrameId frameWindowSize : Nat) : Endpoint :=
  ⟨.done, ⟨PacketSender.new windowSize maxFragmentSize baseId, [], ResendQueue.empty,
    DataFrameEmitter.new 0 ⟨nextFrameId, frameWindowSize, [], false⟩ 0⟩, ⟨0, 0, 0, 0⟩, [], [], 0⟩

/-- What an input does to the endpoint between two calls. -/
def input (s : Endpoint) : Input → Endpoint
  | .enqueue q => { s with emit := { s.emit with packetSender := s.emit.packetSender.enqueuePacket q } }
  | .advance b => { s with emit := { s.emit with packetSender := s.emit.packetSender.acknowledge b } }
  | .frameAcked id => { s with emit := { s.emit with
      packetSender := s.emit.packetSender.acknowledgeFragments (s.emit.dfe.frameQueue.fragmentRefsOf id)
      dfe := { s.emit.dfe with frameQueue := s.emit.dfe.frameQueue.release id } } }
  | .frameDropped id => { s with emit := { s.emit with
      dfe := { s.emit.dfe with frameQueue := s.emit.dfe.frameQueue.release id } } }
  | .flush c => { s with
      loop := .resend
      emit := { s.emit with dfe := DataFrameEmitter.new c.nowMs s.emit.dfe.frameQueue c.maxSendSize }
      call := c
      callStart := s.sent.length }

/-- The endpoint once the call has gone to `r`, with what the turn admitted and sent
recorded. -/
def record (s : Endpoint) (r : Loop × Emit) : Endpoint :=
  { s with
    loop := r.1
    emit := r.2
    admitted := s.admitted ++ admissions s.emit.packetSender r.2.packetSender
    sent := s.sent ++ (consumedBy s.loop s.emit r.2).map fun x => ⟨x, s.call.nowMs, s.call.rttMs⟩ }

/-- One turn of the call in progress. -/
def turn (s : Endpoint) : Endpoint :=
  s.record (step w random s.call.nowMs s.call.rttMs s.call.flushId s.loop s.emit)

/-- An input sends nothing. -/
@[simp] theorem input_sent (s : Endpoint) (i : Input) : (s.input i).sent = s.sent := by
  cases i <;> rfl

/-- An input leaves the resend queue alone. -/
@[simp] theorem input_resendQueue (s : Endpoint) (i : Input) :
    (s.input i).emit.resendQueue = s.emit.resendQueue := by
  cases i <;> rfl

/-- The states an endpoint can reach: from a fresh one, by inputs between calls and by
turns during them. -/
inductive Reachable : Endpoint → Prop
  | init (windowSize maxFragmentSize baseId nextFrameId frameWindowSize : Nat) :
      Reachable (init windowSize maxFragmentSize baseId nextFrameId frameWindowSize)
  | input {s : Endpoint} (i : Input) : Reachable s → s.loop = .done → Reachable (s.input i)
  | turn {s : Endpoint} : Reachable s → s.loop ≠ .done → Reachable (s.turn w random)

/-- Turns taken while the call runs keep an endpoint reachable. -/
theorem Reachable.turns {s : Endpoint} (hs : Reachable w random s) :
    ∀ n, (∀ k < n, ((Endpoint.turn w random)^[k] s).loop ≠ .done) →
      Reachable w random ((Endpoint.turn w random)^[n] s)
  | 0, _ => hs
  | n + 1, h => by
    rw [Function.iterate_succ_apply']
    exact .turn (hs.turns n fun k hk => h k (Nat.lt_succ_of_lt hk)) (h n (Nat.lt_succ_self n))

/-- A turn that admits no packet and accepts no datagram adds no record. -/
theorem record_eq_of_quiet {s : Endpoint} {r : Loop × Emit}
    (hn : r.2.packetSender.nextId = s.emit.packetSender.nextId)
    (hc : r.2.dfe.committed = s.emit.dfe.committed) :
    s.record r = { s with loop := r.1, emit := r.2 } := by
  simp [record, admissions_of_nextId hn, consumedBy_of_committed hc]

/-- A turn that accepts no datagram sends nothing. -/
theorem record_sent {s : Endpoint} {l : Loop} {e : Emit} (hc : e.dfe.committed = s.emit.dfe.committed) :
    (s.record (l, e)).sent = s.sent := by
  simp [record, consumedBy_of_committed hc]

/-- A turn that moves packets into the pending queue and accepts no datagram records the
packets it admitted. -/
theorem record_of_refill {s : Endpoint} {l : Loop} {ps : PacketSender} {pq : List PendingEntry} :
    s.record (l, { s.emit with packetSender := ps, pendingQueue := pq }) = { s with
      loop := l
      emit := { s.emit with packetSender := ps, pendingQueue := pq }
      admitted := s.admitted ++ admissions s.emit.packetSender ps } := by
  simp [record, consumedBy]

/-- A turn from the resend loop that accepts a datagram records the head of the resend
queue as sent. -/
theorem record_of_resend {s : Endpoint} {l : Loop} {x : ResendEntry} {d : DataFrameEmitter}
    {q : ResendQueue} {g : Datagram} (hl : s.loop = .resend) (hx : s.emit.resendQueue.peek = some x)
    (hc : d.committed = s.emit.dfe.committed ++ [g]) :
    s.record (l, { s.emit with dfe := d, resendQueue := q }) = { s with
      loop := l
      emit := { s.emit with dfe := d, resendQueue := q }
      sent := s.sent ++ [⟨.resend x, s.call.nowMs, s.call.rttMs⟩] } := by
  simp [record, admissions, consumedBy, hl, hx, hc]

/-- A turn from the pending loop that accepts a datagram records the head of the pending
queue as sent. -/
theorem record_of_pending {s : Endpoint} {l : Loop} {x : PendingEntry} {rest : List PendingEntry}
    {d : DataFrameEmitter} {q : ResendQueue} {g : Datagram} (hl : s.loop = .pending)
    (hx : s.emit.pendingQueue = x :: rest) (hc : d.committed = s.emit.dfe.committed ++ [g]) :
    s.record (l, { s.emit with dfe := d, pendingQueue := rest, resendQueue := q }) = { s with
      loop := l
      emit := { s.emit with dfe := d, pendingQueue := rest, resendQueue := q }
      sent := s.sent ++ [⟨.pending x, s.call.nowMs, s.call.rttMs⟩] } := by
  simp [record, admissions, consumedBy, hl, hx, hc]

@[simp] theorem turn_call (s : Endpoint) : (s.turn w random).call = s.call := rfl

@[simp] theorem turn_callStart (s : Endpoint) : (s.turn w random).callStart = s.callStart := rfl

/-- The `FrameEmitter` a call with flush ID `flushId` is made on. -/
def frameEmitter (s : Endpoint) (flushId : Nat) : FrameEmitter :=
  ⟨s.emit.packetSender, s.emit.pendingQueue, s.emit.resendQueue, s.emit.dfe.frameQueue, [], flushId⟩

theorem turns_iterate (s : Endpoint) (n : Nat) :
    ((turn w random)^[n] s).loop = (iterate w random s.call.nowMs s.call.rttMs s.call.flushId n
        (s.loop, s.emit)).1 ∧
      ((turn w random)^[n] s).emit = (iterate w random s.call.nowMs s.call.rttMs s.call.flushId n
        (s.loop, s.emit)).2 ∧
      ((turn w random)^[n] s).call = s.call := by
  induction n generalizing s with
  | zero => exact ⟨rfl, rfl, rfl⟩
  | succ n ih =>
    rw [Function.iterate_succ_apply]
    obtain ⟨h1, h2, h3⟩ := ih (s.turn w random)
    exact ⟨h1, h2, h3⟩

/-- **The endpoint's calls are `emit_data_frames`.**  After `n` turns, a call begun by
`Input.flush` stands where the call model `iterate` is after `n` turns of
`emit_data_frames` on the endpoint's queues. -/
theorem turns_input_flush (s : Endpoint) (c : Call) (n : Nat) :
    (((turn w random)^[n] (s.input (.flush c))).loop, ((turn w random)^[n] (s.input (.flush c))).emit) =
      iterate w random c.nowMs c.rttMs c.flushId n
        (.resend, Emit.start (s.frameEmitter c.flushId) c.nowMs c.maxSendSize) := by
  obtain ⟨h1, h2, -⟩ := turns_iterate w random (s.input (.flush c)) n
  rw [h1, h2]
  rfl

end Endpoint

end DatenMeister
end Porous
