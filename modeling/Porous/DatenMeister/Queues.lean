import Porous.DatenMeister.PendingPacket

/-!
# The pending, resend and frame queues

The three queues `FrameEmitter` borrows besides the packet sender.  Their sources,
`pending_queue.rs`, `resend_queue.rs` and `frame_queue.rs`, are not part of
`emit_frame.rs`; each is modelled from the contract the spec gives it and that
`emit_frame.rs` relies on:

* the pending queue is a FIFO (`push_back`, `front`, `pop_front`, `is_empty`);
* the resend queue is a priority queue on `resend_time`, earliest first (`push`,
  `peek`, `pop`); entries with equal times leave in the order they came;
* the frame queue assigns monotone frame IDs, keeps one slot per outstanding frame
  `(frame_id, size, sent_time, fragment_refs, nonce)` and admits a new frame while fewer
  than its window's worth are outstanding (`can_push`, `next_id`, `push`,
  `mark_rate_limited`).
-/

namespace Porous
namespace DatenMeister

/-- Modelled from the spec: `pending_queue::Entry`. -/
structure PendingEntry where
  fragmentRef : FragmentRef
  resend : Bool
deriving DecidableEq, Repr

/-- Modelled from the spec: `resend_queue::Entry`, with `resend_time` in milliseconds and
the `u8` `send_count`. -/
structure ResendEntry where
  fragmentRef : FragmentRef
  resendTime : Nat
  sendCount : Nat
deriving DecidableEq, Repr

/-- Entries ordered by resend time. -/
def ResendEntry.Before (a b : ResendEntry) : Prop := a.resendTime ≤ b.resendTime

instance : DecidableRel ResendEntry.Before := fun a b =>
  inferInstanceAs (Decidable (a.resendTime ≤ b.resendTime))

namespace ResendQueue

/-- Modelled from the spec: `ResendQueue::push` (`resend_queue.rs` is not part of the
source), a priority queue on `resend_time` whose ties leave first in, first out.  The
queue is kept sorted; the new entry goes after every entry due no later than it. -/
def insert (e : ResendEntry) : List ResendEntry → List ResendEntry
  | [] => [e]
  | x :: xs => if e.resendTime < x.resendTime then e :: x :: xs else x :: insert e xs

theorem insert_perm (e : ResendEntry) (q : List ResendEntry) : (insert e q).Perm (e :: q) := by
  induction q with
  | nil => rfl
  | cons x xs ih =>
    unfold insert
    split_ifs
    · rfl
    · exact (ih.cons x).trans (List.Perm.swap e x xs)

@[simp] theorem mem_insert {e a : ResendEntry} {q : List ResendEntry} :
    a ∈ insert e q ↔ a = e ∨ a ∈ q := by
  simp [(insert_perm e q).mem_iff]

theorem sorted_insert (e : ResendEntry) {q : List ResendEntry}
    (h : q.Sorted ResendEntry.Before) : (insert e q).Sorted ResendEntry.Before := by
  induction q with
  | nil => simp [insert]
  | cons x xs ih =>
    rw [List.sorted_cons] at h
    unfold insert
    split_ifs with hlt
    · refine List.sorted_cons.2 ⟨fun a ha => ?_, List.sorted_cons.2 h⟩
      rcases List.mem_cons.1 ha with rfl | ha
      · exact hlt.le
      · exact hlt.le.trans (h.1 a ha)
    · refine List.sorted_cons.2 ⟨fun a ha => ?_, ih h.2⟩
      rcases mem_insert.1 ha with rfl | ha
      · exact Nat.le_of_not_lt hlt
      · exact h.1 a ha

end ResendQueue

/-- Modelled from the spec: `resend_queue::ResendQueue`, its entries, earliest first. -/
structure ResendQueue where
  entries : List ResendEntry
  sorted : entries.Sorted ResendEntry.Before

namespace ResendQueue

/-- Modelled from the spec: the empty queue, `ResendQueue::new`. -/
def empty : ResendQueue := ⟨[], List.sorted_nil⟩

/-- Modelled from the spec: `ResendQueue::peek`. -/
def peek (q : ResendQueue) : Option ResendEntry := q.entries.head?

/-- Modelled from the spec: `ResendQueue::pop`, which drops the head, if any. -/
def pop (q : ResendQueue) : ResendQueue := ⟨q.entries.tail, q.sorted.sublist (List.tail_sublist _)⟩

/-- Modelled from the spec: `ResendQueue::push`. -/
def push (q : ResendQueue) (e : ResendEntry) : ResendQueue :=
  ⟨insert e q.entries, sorted_insert e q.sorted⟩

@[ext] theorem ext {q r : ResendQueue} (h : q.entries = r.entries) : q = r := by
  cases q; cases r; cases h; rfl

@[simp] theorem pop_entries (q : ResendQueue) : q.pop.entries = q.entries.tail := rfl

@[simp] theorem push_entries (q : ResendQueue) (e : ResendEntry) :
    (q.push e).entries = insert e q.entries := rfl

theorem entries_of_peek {q : ResendQueue} {e : ResendEntry} (h : q.peek = some e) :
    q.entries = e :: q.entries.tail := by
  obtain ⟨es, sorted⟩ := q
  cases es with
  | nil => cases h
  | cons x xs => cases h; rfl

/-- The head is due no later than any entry of the queue. -/
theorem peek_before {q : ResendQueue} {e : ResendEntry} (h : q.peek = some e) :
    ∀ a ∈ q.entries, e.resendTime ≤ a.resendTime := by
  obtain ⟨es, sorted⟩ := q
  cases es with
  | nil => cases h
  | cons x xs =>
    cases h
    intro a ha
    rcases List.mem_cons.1 ha with rfl | ha
    · exact le_rfl
    · exact (List.sorted_cons.1 sorted).1 a ha

end ResendQueue

/-- Modelled from the spec: a slot of `frame_queue::FrameQueue`,
`(frame_id, size_bytes, sent_time_ms, fragment_refs, nonce_bit)`. -/
structure FrameEntry where
  frameId : Nat
  size : Nat
  sentMs : Nat
  fragmentRefs : List FragmentRef
  nonce : Bool
deriving DecidableEq, Repr

/-- Modelled from the spec: `frame_queue::FrameQueue` (`frame_queue.rs` is not part of the
source), the outstanding frames, oldest first, the ID the next frame gets, the size of
the frame window, and the rate-limited flag. -/
structure FrameQueue where
  nextId : Nat
  windowSize : Nat
  entries : List FrameEntry
  rateLimited : Bool
deriving DecidableEq, Repr

namespace FrameQueue

variable (fq : FrameQueue)

/-- Modelled from the spec: `FrameQueue::can_push`, a window of outstanding frames. -/
def canPush : Bool := fq.entries.length < fq.windowSize

/-- Modelled from the spec: `FrameQueue::push`, registering a sent frame under the next
frame ID. -/
def push (size sentMs : Nat) (fragmentRefs : List FragmentRef) (nonce : Bool) : FrameQueue :=
  { fq with
    nextId := fq.nextId + 1
    entries := fq.entries ++ [⟨fq.nextId, size, sentMs, fragmentRefs, nonce⟩] }

/-- Modelled from the spec: `FrameQueue::mark_rate_limited`. -/
def markRateLimited : FrameQueue := { fq with rateLimited := true }

/-- Modelled from the spec: the slot of frame `frameId` leaves the queue, its frame
acknowledged by an ack group (`acknowledge_group`) or given up. -/
def release (frameId : Nat) : FrameQueue :=
  { fq with entries := fq.entries.filter (·.frameId ≠ frameId) }

/-- The fragment references of the slot of frame `frameId`. -/
def fragmentRefsOf (frameId : Nat) : List FragmentRef :=
  (fq.entries.filter (·.frameId = frameId)).flatMap (·.fragmentRefs)

@[simp] theorem markRateLimited_nextId : fq.markRateLimited.nextId = fq.nextId := rfl

@[simp] theorem markRateLimited_entries : fq.markRateLimited.entries = fq.entries := rfl

@[simp] theorem markRateLimited_canPush : fq.markRateLimited.canPush = fq.canPush := rfl

@[simp] theorem push_nextId (size sentMs : Nat) (refs : List FragmentRef) (nonce : Bool) :
    (fq.push size sentMs refs nonce).nextId = fq.nextId + 1 := rfl

@[simp] theorem push_entries (size sentMs : Nat) (refs : List FragmentRef) (nonce : Bool) :
    (fq.push size sentMs refs nonce).entries =
      fq.entries ++ [⟨fq.nextId, size, sentMs, refs, nonce⟩] := rfl

end FrameQueue

end DatenMeister
end Porous
