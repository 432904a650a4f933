import Porous.DatenMeister.Frames
import Porous.DatenMeister.PacketSender

/-!
# `FrameEmitter::emit_data_frames`

`src/endpoint/daten_meister/emit_frame.rs`, lines 141-243.  The call is a small-step
machine: `Loop` says at the head of which of its three loops it stands, `Emit` holds the
queues and the `DataFrameEmitter` that holds the frame queue meanwhile, and `step` is
one turn of the loop body, `resendStep` (lines 170-197), `refillStep` (lines 200-213)
or `pendingStep` (lines 215-238).  `emitDataFrames` runs `fuel` turns and reports the
bytes returned, the frames handed to the callback and the emitter afterwards, or
`none` when the call has not returned yet.

`turnPush` is the `push` one turn makes and `pushLog` the pushes of a run, tied to
`step` by `step_turnPush`.  Along a call the data frame emitter is what those pushes make
of the one the call started with (`logged_iterate`); so every frame a call hands over is
registered once, and none is held back at the return (`frames_registered`).

Times are `u64`: `now_ms + rtt_ms * (1 << send_count)` wraps at `2^64` as in a release
build (`u64`).  `send_count` is at most `MAX_SEND_COUNT` in every state the code builds,
so `1 << send_count` is `2 ^ send_count`.
-/

namespace Porous
namespace DatenMeister

/-- `MAX_SEND_COUNT`. -/
def maxSendCount : Nat := 2

/-- A `u64` result of a release build: the value modulo `2^64`. -/
def u64 (n : Nat) : Nat := n % 2 ^ 64

/-- `FrameEmitter`: the queues it borrows and the flush ID. -/
structure FrameEmitter where
  packetSender : PacketSender
  pendingQueue : List PendingEntry
  resendQueue : ResendQueue
  frameQueue : FrameQueue
  frameAckQueue : List AckGroup
  flushId : Nat

/-- The state of `emit_data_frames` between two turns of its loops. -/
structure Emit where
  packetSender : PacketSender
  pendingQueue : List PendingEntry
  resendQueue : ResendQueue
  dfe : DataFrameEmitter

/-- Where `emit_data_frames` stands. -/
inductive Loop where
  /-- `while let Some(entry) = self.resend_queue.peek()`, line 170. -/
  | resend
  /-- The head of the outer `loop`, line 199. -/
  | refill
  /-- `while let Some(entry) = self.pending_queue.front()`, line 215. -/
  | pending
  /-- Returned. -/
  | done
deriving DecidableEq, Repr

/-- The pending-queue entries of an admitted packet, lines 205-209. -/
def pendingEntries (p : PendingPacket) (resend : Bool) : List PendingEntry :=
  (List.range (p.lastFragmentId + 1)).map fun i => ⟨p.fragmentRef i, resend⟩

section Step

variable (w : Wire) (random : Nat → Bool) (nowMs rttMs flushId : Nat)

/-- The resend entry of a fragment resent now, lines 190-192. -/
def reschedule (entry : ResendEntry) : ResendEntry :=
  ⟨entry.fragmentRef, u64 (nowMs + rttMs * 2 ^ entry.sendCount),
    min (entry.sendCount + 1) maxSendCount⟩

/-- The resend entry of a fragment sent for the first time, line 232. -/
def firstSchedule (r : FragmentRef) : ResendEntry := ⟨r, u64 (nowMs + rttMs), 1⟩

/-- One turn of the resend loop, lines 170-197. -/
def resendStep (e : Emit) : Loop × Emit :=
  match e.resendQueue.peek with
  | none => (.refill, e)
  | some entry =>
    match e.packetSender.packet entry.fragmentRef.packet with
    | none => (.resend, { e with resendQueue := e.resendQueue.pop })
    | some p =>
      if p.fragmentAcknowledged entry.fragmentRef.fragmentId then
        (.resend, { e with resendQueue := e.resendQueue.pop })
      else if entry.resendTime > nowMs then (.refill, e)
      else
        match e.dfe.push w random p entry.fragmentRef.fragmentId true with
        | (dfe, .error _) => (.done, { e with dfe := dfe })
        | (dfe, .ok ()) =>
          (.resend, { e with
            dfe := dfe
            resendQueue := e.resendQueue.pop.push (reschedule nowMs rttMs entry) })

/-- The head of the outer loop, lines 200-213: when the pending queue is empty, the next
packet the sender admits, or the final `flush` when there is none. -/
def refillStep (e : Emit) : Loop × Emit :=
  if e.pendingQueue.isEmpty then
    match e.packetSender.emitPacket flushId with
    | (some (p, resend), ps) =>
      (.pending, { e with
        packetSender := ps
        pendingQueue := e.pendingQueue ++ pendingEntries p resend })
    | (none, ps) => (.done, { e with packetSender := ps, dfe := e.dfe.flush w })
  else (.pending, e)

/-- One turn of the pending loop, lines 215-238.  A dead or acknowledged head pops the
resend queue, lines 220 and 235, as the source does. -/
def pendingStep (e : Emit) : Loop × Emit :=
  match e.pendingQueue with
  | [] => (.refill, e)
  | entry :: rest =>
    match e.packetSender.packet entry.fragmentRef.packet with
    | none => (.pending, { e with resendQueue := e.resendQueue.pop })
    | some p =>
      if p.fragmentAcknowledged entry.fragmentRef.fragmentId then
        (.pending, { e with resendQueue := e.resendQueue.pop })
      else
        match e.dfe.push w random p entry.fragmentRef.fragmentId entry.resend with
        | (dfe, .error _) => (.done, { e with dfe := dfe })
        | (dfe, .ok ()) =>
          (.pending, { e with
            dfe := dfe
            pendingQueue := rest
            resendQueue := if entry.resend then
              e.resendQueue.push (firstSchedule nowMs rttMs entry.fragmentRef)
            else e.resendQueue })

/-- One turn of `emit_data_frames`. -/
def step : Loop → Emit → Loop × Emit
  | .resend, e => resendStep w random nowMs rttMs e
  | .refill, e => refillStep w flushId e
  | .pending, e => pendingStep w random nowMs rttMs e
  | .done, e => (.done, e)

/-- `n` turns of `emit_data_frames`. -/
def iterate : Nat → Loop × Emit → Loop × Emit
  | 0, s => s
  | n + 1, s => iterate n (step w random nowMs rttMs flushId s.1 s.2)

/-- The `push` a turn makes, if any, reached as `resendStep` and `pendingStep` reach it:
the head of the resend queue, live, not acknowledged and due, pushed `persistent`
(line 183); or the head of the pending queue, live and not acknowledged, pushed with its
entry's `resend` flag (line 224). -/
def turnPush : Loop → Emit → Option PushCall
  | .resend, e =>
    match e.resendQueue.peek with
    | none => none
    | some entry =>
      match e.packetSender.packet entry.fragmentRef.packet with
      | none => none
      | some p =>
        if p.fragmentAcknowledged entry.fragmentRef.fragmentId then none
        else if entry.resendTime > nowMs then none
        else some ⟨p, entry.fragmentRef.fragmentId, true⟩
  | .pending, e =>
    match e.pendingQueue with
    | [] => none
    | entry :: _ =>
      match e.packetSender.packet entry.fragmentRef.packet with
      | none => none
      | some p =>
        if p.fragmentAcknowledged entry.fragmentRef.fragmentId then none
        else some ⟨p, entry.fragmentRef.fragmentId, entry.resend⟩
  | _, _ => none

/-- The pushes of `n` turns, in the order they were made. -/
def pushLog : Nat → Loop × Emit → List PushCall
  | 0, _ => []
  | n + 1, s =>
    (turnPush nowMs s.1 s.2).toList ++ pushLog n (step w random nowMs rttMs flushId s.1 s.2)

/-- **`turnPush` is the push of the turn.**  A turn with no push leaves the data frame
emitter alone, or flushes it and returns; a turn with one makes exactly that `push`, and
goes on when it succeeds and returns when it fails. -/
theorem step_turnPush (l : Loop) (e : Emit) :
    (turnPush nowMs l e = none ∧
      (((step w random nowMs rttMs flushId l e).2.dfe = e.dfe ∧
          ((step w random nowMs rttMs flushId l e).1 = .done → l = .done)) ∨
        ((step w random nowMs rttMs flushId l e).2.dfe = e.dfe.flush w ∧
          (step w random nowMs rttMs flushId l e).1 = .done))) ∨
    (∃ c, turnPush nowMs l e = some c ∧
      ((e.dfe.push w random c.packet c.fragmentId c.persistent =
          ((step w random nowMs rttMs flushId l e).2.dfe, .ok ()) ∧
          (step w random nowMs rttMs flushId l e).1 ≠ .done) ∨
        ∃ err, e.dfe.push w random c.packet c.fragmentId c.persistent =
          ((step w random nowMs rttMs flushId l e).2.dfe, .error err) ∧
          (step w random nowMs rttMs flushId l e).1 = .done)) := by
  cases l with
  | done => exact .inl ⟨rfl, .inl ⟨rfl, fun _ => rfl⟩⟩
  | refill =>
    simp only [step, refillStep]
    split
    · split
      · exact .inl ⟨rfl, .inl ⟨rfl, by simp⟩⟩
      · exact .inl ⟨rfl, .inr ⟨rfl, rfl⟩⟩
    · exact .inl ⟨rfl, .inl ⟨rfl, by simp⟩⟩
  | resend =>
    simp only [step, resendStep, turnPush]
    split
    · exact .inl ⟨rfl, .inl ⟨rfl, by simp⟩⟩
    split
    · exact .inl ⟨rfl, .inl ⟨rfl, by simp⟩⟩
    split
    · exact .inl ⟨rfl, .inl ⟨rfl, by simp⟩⟩
    split
    · exact .inl ⟨rfl, .inl ⟨rfl, by simp⟩⟩
    split
    · rename_i h
      exact .inr ⟨_, rfl, .inr ⟨_, h, rfl⟩⟩
    · rename_i h
      exact .inr ⟨_, rfl, .inl ⟨h, by simp⟩⟩
  | pending =>
    simp only [step, pendingStep, turnPush]
    split
    · exact .inl ⟨rfl, .inl ⟨rfl, by simp⟩⟩
    split
    · exact .inl ⟨rfl, .inl ⟨rfl, by simp⟩⟩
    split
    · exact .inl ⟨rfl, .inl ⟨rfl, by simp⟩⟩
    split
    · rename_i h
      exact .inr ⟨_, rfl, .inr ⟨_, h, rfl⟩⟩
    · rename_i h
      exact .inr ⟨_, rfl, .inl ⟨h, by simp⟩⟩

/-- The packet a turn pushes from is one the sender owns. -/
theorem turnPush_packet {l : Loop} {e : Emit} {c : PushCall} (h : turnPush nowMs l e = some c) :
    ∃ id, e.packetSender.packet id = some c.packet := by
  cases l with
  | resend | pending =>
    simp only [turnPush] at h
    repeat' split at h
    all_goals cases h
    all_goals exact ⟨_, ‹_›⟩
  | refill | done => cases h

open DataFrameEmitter in
/-- **What one turn does to the data frame emitter**: nothing, or one `push` that
succeeds, or one `push` that fails and returns, or the final `flush` and return. -/
theorem step_dfe (l : Loop) (e : Emit) :
    ((step w random nowMs rttMs flushId l e).2.dfe = e.dfe ∧
        ((step w random nowMs rttMs flushId l e).1 = .done → l = .done)) ∨
      (∃ c : PushCall, (∃ id, e.packetSender.packet id = some c.packet) ∧
        e.dfe.push w random c.packet c.fragmentId c.persistent =
          ((step w random nowMs rttMs flushId l e).2.dfe, .ok ()) ∧
        (step w random nowMs rttMs flushId l e).1 ≠ .done) ∨
      (∃ (c : PushCall) (err : EmitError), (∃ id, e.packetSender.packet id = some c.packet) ∧
        e.dfe.push w random c.packet c.fragmentId c.persistent =
          ((step w random nowMs rttMs flushId l e).2.dfe, .error err) ∧
        (step w random nowMs rttMs flushId l e).1 = .done) ∨
      ((step w random nowMs rttMs flushId l e).2.dfe = e.dfe.flush w ∧
        (step w random nowMs rttMs flushId l e).1 = .done) := by
  rcases step_turnPush w random nowMs rttMs flushId l e with
    ⟨-, h | h⟩ | ⟨c, hc, ⟨hp, hnd⟩ | ⟨err, hp, hd⟩⟩
  · exact .inl h
  · exact .inr (.inr (.inr h))
  · exact .inr (.inl ⟨c, turnPush_packet nowMs hc, hp, hnd⟩)
  · exact .inr (.inr (.inl ⟨c, err, turnPush_packet nowMs hc, hp, hd⟩))
end Step

/-- The state `emit_data_frames` starts from, line 168. -/
def Emit.start (fe : FrameEmitter) (nowMs maxSendSize : Nat) : Emit :=
  ⟨fe.packetSender, fe.pendingQueue, fe.resendQueue,
    DataFrameEmitter.new nowMs fe.frameQueue maxSendSize⟩

/-- The emitter once the call has returned. -/
def FrameEmitter.finish (fe : FrameEmitter) (e : Emit) : FrameEmitter :=
  { fe with
    packetSender := e.packetSender
    pendingQueue := e.pendingQueue
    resendQueue := e.resendQueue
    frameQueue := e.dfe.frameQueue }

/-- `FrameEmitter::emit_data_frames(now_ms, rtt_ms, max_send_size, callback)` within `fuel`
turns of its loops: the bytes returned, the frames the callback was handed, and the
emitter afterwards. -/
def emitDataFrames (w : Wire) (random : Nat → Bool) (fuel nowMs rttMs maxSendSize : Nat)
    (fe : FrameEmitter) : Option (Nat × List DataFrame × FrameEmitter) :=
  let s := iterate w random nowMs rttMs fe.flushId fuel (.resend, Emit.start fe nowMs maxSendSize)
  if s.1 = .done then some (s.2.dfe.totalSize, s.2.dfe.emitted, fe.finish s.2) else none

/-- Modelled from the spec: `frame::SyncFrame`, the next frame ID and the next packet ID,
each optional. -/
structure SyncFrame where
  nextFrameId : Option Nat
  nextPacketId : Option Nat
deriving DecidableEq, Repr

/-- `FrameEmitter::emit_sync_frame(next_frame_id, next_packet_id, max_send_size, emit_cb)`,
lines 245-262, with `syncFrameSize` for `frame::serial::SYNC_FRAME_SIZE`: the bytes
returned and the frames the callback was handed. -/
def emitSyncFrame (syncFrameSize : Nat) (nextFrameId nextPacketId : Option Nat)
    (maxSendSize : Nat) : Nat × List SyncFrame :=
  if syncFrameSize > maxSendSize then (0, [])
  else (syncFrameSize, [⟨nextFrameId, nextPacketId⟩])

/-- A small wire for examples: 40-byte frames with a 6-byte header, datagrams with a
14-byte header. -/
def tinyWire : Wire where
  maxFrameSize := 40
  dataFrameOverhead := 6
  encodedSize d := 14 + d.data.length

/-- Every fragment of at most 20 bytes fits alone in a frame of `tinyWire`. -/
theorem tinyWire_fits : tinyWire.Fits 20 := fun d hd => by
  simp only [tinyWire]; omega

/-- A fresh emitter: empty queues, a window of 16 packets cut into 20-byte fragments,
a window of 8 frames, flush ID 0. -/
def freshEmitter : FrameEmitter :=
  ⟨PacketSender.new 16 20 0, [], ResendQueue.empty, ⟨0, 8, [], false⟩, [], 0⟩

/-- The same emitter with one more packet queued on channel 0 under flush ID 0. -/
def FrameEmitter.enqueue (fe : FrameEmitter) (data : List UInt8) (mode : SendMode) :
    FrameEmitter :=
  { fe with packetSender := fe.packetSender.enqueuePacket ⟨data, 0, 0, 0, mode, 0⟩ }

section Pushed

variable (w : Wire) (random : Nat → Bool) (nowMs rttMs flushId : Nat)

open DataFrameEmitter

theorem step_maxFragmentSize (l : Loop) (e : Emit) :
    (step w random nowMs rttMs flushId l e).2.packetSender.maxFragmentSize =
      e.packetSender.maxFragmentSize := by
  cases l with
  | refill =>
    simp only [step, refillStep]
    split
    · split <;> rename_i h <;>
        simpa [h] using PacketSender.emitPacket_maxFragmentSize e.packetSender flushId
    · rfl
  | resend =>
    simp only [step, resendStep]
    repeat' split
    all_goals rfl
  | pending =>
    simp only [step, pendingStep]
    repeat' split
    all_goals rfl
  | done => rfl

/-- The data frame emitter of a state of the call is what a run of pushes of fragments
of at most `n` bytes makes of the one `dfe0` the call started with: still running while
the call runs, stopped and flushed once it has returned. -/
def Pushed (n : Nat) (dfe0 : DataFrameEmitter) (s : Loop × Emit) : Prop :=
  s.2.packetSender.maxFragmentSize = n ∧
  ∃ calls : List PushCall, (∀ c ∈ calls, c.datagram.data.length ≤ n) ∧
    if s.1 = .done then s.2.dfe = flush w (pushAll w random dfe0 calls).1
    else pushAll w random dfe0 calls = (s.2.dfe, .ok ())

theorem pushed_step {n : Nat} {dfe0 : DataFrameEmitter} {s : Loop × Emit}
    (h : Pushed w random n dfe0 s) :
    Pushed w random n dfe0 (step w random nowMs rttMs flushId s.1 s.2) := by
  obtain ⟨l, e⟩ := s
  obtain ⟨hn, calls, hcalls, h⟩ := h
  refine ⟨(step_maxFragmentSize w random nowMs rttMs flushId l e).trans hn, ?_⟩
  by_cases hl : l = .done
  · subst hl
    exact ⟨calls, hcalls, h⟩
  simp only [hl, if_false] at h
  have hfrag : ∀ c : PushCall, (∃ id, e.packetSender.packet id = some c.packet) →
      ∀ c' ∈ calls ++ [c], c'.datagram.data.length ≤ n := by
    rintro c ⟨id, hid⟩ c' hc'
    rcases List.mem_append.1 hc' with hc' | hc'
    · exact hcalls c' hc'
    · rw [List.mem_singleton.1 hc', ← hn]
      exact PacketSender.datagram_data_le hid _
  rcases step_dfe w random nowMs rttMs flushId l e with
    ⟨hd, hdone⟩ | ⟨c, hid, hc, hnd⟩ | ⟨c, err, hid, hc, hd⟩ | ⟨hd, hdn⟩
  · have : (step w random nowMs rttMs flushId l e).1 ≠ .done := fun h' => hl (hdone h')
    exact ⟨calls, hcalls, by simp only [this, if_false, hd]; exact h⟩
  · refine ⟨calls ++ [c], hfrag c hid, ?_⟩
    simp only [hnd, if_false]
    rw [pushAll_append_singleton w random h, hc]
  · refine ⟨calls ++ [c], hfrag c hid, ?_⟩
    simp only [hd, if_true]
    rw [pushAll_append_singleton w random h, hc]
    exact (flush_of_inProgressFrame_none w (push_error_inProgressFrame w random hc)).symm
  · exact ⟨calls, hcalls, by simp only [hdn, if_true, hd, h]⟩

theorem pushed_iterate {n : Nat} {dfe0 : DataFrameEmitter} {s : Loop × Emit}
    (h : Pushed w random n dfe0 s) (k : Nat) :
    Pushed w random n dfe0 (iterate w random nowMs rttMs flushId k s) := by
  induction k generalizing s with
  | zero => exact h
  | succ k ih => exact ih (pushed_step w random nowMs rttMs flushId h)

theorem iterate_add (a b : Nat) (s : Loop × Emit) :
    iterate w random nowMs rttMs flushId (a + b) s =
      iterate w random nowMs rttMs flushId b (iterate w random nowMs rttMs flushId a s) := by
  induction a generalizing s with
  | zero => simp [iterate]
  | succ a ih => rw [Nat.succ_add]; exact ih _

theorem step_maxSendSize (l : Loop) (e : Emit) :
    (step w random nowMs rttMs flushId l e).2.dfe.maxSendSize = e.dfe.maxSendSize := by
  rcases step_dfe w random nowMs rttMs flushId l e with
    ⟨hd, -⟩ | ⟨c, -, hc, -⟩ | ⟨c, err, -, hc, -⟩ | ⟨hd, -⟩
  · rw [hd]
  · rw [← push_maxSendSize w random e.dfe c.packet c.fragmentId c.persistent, hc]
  · rw [← push_maxSendSize w random e.dfe c.packet c.fragmentId c.persistent, hc]
  · rw [hd, flush_maxSendSize]

theorem iterate_maxSendSize (k : Nat) (s : Loop × Emit) :
    (iterate w random nowMs rttMs flushId k s).2.dfe.maxSendSize = s.2.dfe.maxSendSize := by
  induction k generalizing s with
  | zero => rfl
  | succ k ih => exact (ih _).trans (step_maxSendSize w random nowMs rttMs flushId s.1 s.2)

theorem pushed_start (fe : FrameEmitter) (maxSendSize : Nat) :
    Pushed w random fe.packetSender.maxFragmentSize (new nowMs fe.frameQueue maxSendSize)
      (.resend, Emit.start fe nowMs maxSendSize) :=
  ⟨rfl, [], by simp, by simp [pushAll, Emit.start]⟩

end Pushed

/-! ### The pushes a call makes -/

section Log

variable (w : Wire) (random : Nat → Bool) (nowMs rttMs flushId : Nat)

open DataFrameEmitter

/-- The data frame emitter of a state of the call is what the pushes `calls` make of the
one `dfe0` the call started with: still running while the call runs, stopped and flushed
once it has returned. -/
def Logged (dfe0 : DataFrameEmitter) (calls : List PushCall) (s : Loop × Emit) : Prop :=
  if s.1 = .done then s.2.dfe = flush w (pushAll w random dfe0 calls).1
  else pushAll w random dfe0 calls = (s.2.dfe, .ok ())

theorem logged_step {dfe0 : DataFrameEmitter} {calls : List PushCall} {s : Loop × Emit}
    (h : Logged w random dfe0 calls s) :
    Logged w random dfe0 (calls ++ (turnPush nowMs s.1 s.2).toList)
      (step w random nowMs rttMs flushId s.1 s.2) := by
  obtain ⟨l, e⟩ := s
  by_cases hl : l = .done
  · subst hl
    simpa [turnPush, step] using h
  simp only [Logged, hl, if_false] at h
  rcases step_turnPush w random nowMs rttMs flushId l e with
    ⟨hn, ⟨hd, hdone⟩ | ⟨hd, hdn⟩⟩ | ⟨c, hc, ⟨hp, hnd⟩ | ⟨err, hp, hd⟩⟩ <;> dsimp only
  · have : (step w random nowMs rttMs flushId l e).1 ≠ .done := fun h' => hl (hdone h')
    simp only [Logged, hn, Option.toList_none, List.append_nil, this, if_false, hd, h]
  · simp only [Logged, hn, Option.toList_none, List.append_nil, hdn, if_true, hd, h]
  · simp only [Logged, hc, Option.toList_some, hnd, if_false]
    rw [pushAll_append_singleton w random h, hp]
  · simp only [Logged, hc, Option.toList_some, hd, if_true]
    rw [pushAll_append_singleton w random h, hp]
    exact (flush_of_inProgressFrame_none w (push_error_inProgressFrame w random hp)).symm

/-- Along a run, the data frame emitter is what the logged pushes make of the one the run
started with. -/
theorem logged_iterate {dfe0 : DataFrameEmitter} {calls : List PushCall} {s : Loop × Emit}
    (h : Logged w random dfe0 calls s) (k : Nat) :
    Logged w random dfe0 (calls ++ pushLog w random nowMs rttMs flushId k s)
      (iterate w random nowMs rttMs flushId k s) := by
  induction k generalizing calls s with
  | zero => simpa [pushLog, iterate] using h
  | succ k ih =>
    simpa [pushLog, iterate, List.append_assoc] using ih (logged_step w random nowMs rttMs flushId h)

end Log

/-! ### Frames and registrations of a call -/

section Registration

variable (w : Wire) (random : Nat → Bool)

open DataFrameEmitter

/-- **Every frame a call hands over is registered, once, and agrees with its slot.**
Whatever a call of `emit_data_frames` returns: the call holds no frame back (no frame
in progress when it returns, so no drawn frame ID is left unregistered); the frame queue
has gained one slot per frame handed to the callback, in the same order; the frames
carry consecutive IDs from the queue's `next_id`, which has moved past them; each slot
has its frame's ID, length and nonce and the call's time; and, taking the frames as the
greedy chunks of the pushes the call made and that returned `Ok`, each frame carries the
datagrams of its chunk and its slot the fragment references of those pushed with
`persistent`, in datagram order. -/
theorem frames_registered {fuel nowMs rttMs maxSendSize : Nat} {fe : FrameEmitter}
    {r : Nat × List DataFrame × FrameEmitter}
    (h : emitDataFrames w random fuel nowMs rttMs maxSendSize fe = some r) :
    let chunks := greedyChunks w (acceptedCalls w random (new nowMs fe.frameQueue maxSendSize)
      (pushLog w random nowMs rttMs fe.flushId fuel (.resend, Emit.start fe nowMs maxSendSize)))
    (iterate w random nowMs rttMs fe.flushId fuel
      (.resend, Emit.start fe nowMs maxSendSize)).2.dfe.inProgressFrame = none ∧
    ∃ regs, r.2.2.frameQueue.entries = fe.frameQueue.entries ++ regs ∧
      List.Forall₂ (Registered w nowMs) r.2.1 regs ∧
      r.2.1.map DataFrame.sequenceId = List.range' fe.frameQueue.nextId r.2.1.length ∧
      r.2.2.frameQueue.nextId = fe.frameQueue.nextId + r.2.1.length ∧
      regs.map FrameEntry.fragmentRefs = chunks.map (·.flatMap PushCall.refs) ∧
      r.2.1.map DataFrame.datagrams = chunks.map (List.map PushCall.datagram) := by
  intro chunks
  dsimp only [emitDataFrames] at h
  split_ifs at h with hd
  cases h
  have h0 : Logged w random (new nowMs fe.frameQueue maxSendSize) []
      (.resend, Emit.start fe nowMs maxSendSize) := by
    simp [Logged, pushAll, Emit.start]
  have hl := logged_iterate w random nowMs rttMs fe.flushId h0 fuel
  simp only [Logged, hd, if_true, List.nil_append] at hl
  obtain ⟨regs, h1, h2, h3, h4, h5, h6, -⟩ := pushAll_registered w random nowMs fe.frameQueue
    maxSendSize (pushLog w random nowMs rttMs fe.flushId fuel (.resend, Emit.start fe nowMs maxSendSize))
  refine ⟨by rw [hl]; exact flush_inProgressFrame w _, regs, ?_⟩
  simp only [FrameEmitter.finish, hl]
  exact ⟨h1, h2, h3, h4, h5, h6⟩

/-- A 40-byte packet to be resent, cut into two 20-byte fragments: each fills a frame of
`tinyWire`, and the two slots, frames 0 and 1, hold one fragment each. -/
theorem frames_registered_twoFragments :
    let fe := freshEmitter.enqueue (List.replicate 40 0) .resend
    ∃ r, emitDataFrames tinyWire (fun _ => false) 8 0 100 100 fe = some r ∧
      r.2.2.frameQueue.entries.map FrameEntry.fragmentRefs = [[⟨0, 0⟩], [⟨0, 1⟩]] ∧
      let chunks := greedyChunks tinyWire (acceptedCalls tinyWire (fun _ => false)
        (new 0 fe.frameQueue 100)
        (pushLog tinyWire (fun _ => false) 0 100 fe.flushId 8 (.resend, Emit.start fe 0 100)))
      (iterate tinyWire (fun _ => false) 0 100 fe.flushId 8
        (.resend, Emit.start fe 0 100)).2.dfe.inProgressFrame = none ∧
      ∃ regs, r.2.2.frameQueue.entries = fe.frameQueue.entries ++ regs ∧
        List.Forall₂ (Registered tinyWire 0) r.2.1 regs ∧
        r.2.1.map DataFrame.sequenceId = List.range' fe.frameQueue.nextId r.2.1.length ∧
        r.2.2.frameQueue.nextId = fe.frameQueue.nextId + r.2.1.length ∧
        regs.map FrameEntry.fragmentRefs = chunks.map (·.flatMap PushCall.refs) ∧
        r.2.1.map DataFrame.datagrams = chunks.map (List.map PushCall.datagram) :=
  ⟨_, rfl, rfl, frames_registered tinyWire (fun _ => false)
    (show emitDataFrames tinyWire (fun _ => false) 8 0 100 100
      (freshEmitter.enqueue (List.replicate 40 0) .resend) = _ from rfl)⟩

end Registration

end DatenMeister
end Porous
