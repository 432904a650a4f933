import Porous.DatenMeister.PendingPacket

/-!
# The packet sender

`packet_sender.rs` is not part of the source; `emit_frame.rs` calls one method of it,
`emit_packet(flush_id)`, and reaches the packets it owns through weak references.  This
is the packet sender the spec describes: packets queued by `enqueue_packet`, cut into
fragments of at most `MAX_FRAGMENT_SIZE` bytes, are admitted one at a time into a
window of `window_size` sequence IDs, under consecutive sequence IDs; a
`TimeSensitive` packet queued under another `flush_id` than the current one is dropped
instead.  The sender owns every admitted packet until the window advances past it
(`acknowledge`); the packet's acknowledgement bits are set by the frame queue
(`acknowledgeFragment`).

A `PacketSender` carries the facts about its window everything else relies on: a packet
is stored under its own sequence ID, exactly the IDs inside the window are stored, and
no fragment is longer than `MAX_FRAGMENT_SIZE`.
-/

namespace Porous
namespace DatenMeister

/-- Modelled from the spec: `crate::SendMode`. -/
inductive SendMode where
  | unreliable
  | resend
  | timeSensitive
deriving DecidableEq, Repr

/-- Modelled from the spec: a packet queued by `PacketSender::enqueue_packet`, not yet
admitted. -/
structure QueuedPacket where
  data : List UInt8
  channelId : Nat
  windowParentLead : Nat
  channelParentLead : Nat
  mode : SendMode
  flushId : Nat
deriving DecidableEq, Repr

/-- Modelled from the spec: the fragments of a packet, `n` bytes each but the last, at
least one. -/
def fragmentData (n : Nat) (data : List UInt8) : List (List UInt8) :=
  go data.length data
where
  go : Nat → List UInt8 → List (List UInt8)
    | 0, d => [d.take n]
    | fuel + 1, d => if d.length ≤ n then [d] else d.take n :: go fuel (d.drop n)

theorem fragmentData_length_le (n : Nat) (data : List UInt8) :
    ∀ f ∈ fragmentData n data, f.length ≤ n := by
  suffices ∀ fuel d, ∀ f ∈ fragmentData.go n fuel d, f.length ≤ n from this _ _
  intro fuel
  induction fuel with
  | zero => simp [fragmentData.go]
  | succ fuel ih =>
    intro d f hf
    simp only [fragmentData.go] at hf
    split_ifs at hf with h
    · simp only [List.mem_singleton] at hf; subst hf; exact h
    · rcases List.mem_cons.1 hf with rfl | hf
      · simp
      · exact ih _ f hf

/-- Modelled from the spec: `packet_sender::PacketSender`.  `window id` is the packet
admitted under `id` and whether it is to be resent, while the sender still owns it. -/
structure PacketSender where
  sendQueue : List QueuedPacket
  baseId : Nat
  nextId : Nat
  windowSize : Nat
  maxFragmentSize : Nat
  window : Nat → Option (PendingPacket × Bool)
  base_le : baseId ≤ nextId
  window_sequenceId : ∀ i e, window i = some e → e.1.sequenceId = i
  window_range : ∀ i, (window i).isSome → baseId ≤ i ∧ i < nextId
  window_full : ∀ i, baseId ≤ i → i < nextId → (window i).isSome
  window_fragments : ∀ i e, window i = some e → ∀ f ∈ e.1.fragments, f.length ≤ maxFragmentSize

/-- The packet `q` becomes when it is admitted under sequence ID `id`. -/
def QueuedPacket.toPendingPacket (maxFragmentSize id : Nat) (q : QueuedPacket) : PendingPacket where
  sequenceId := id
  channelId := q.channelId
  windowParentLead := q.windowParentLead
  channelParentLead := q.channelParentLead
  fragments := fragmentData maxFragmentSize q.data
  fragmentAcks := List.replicate (fragmentData maxFragmentSize q.data).length false

/-- A packet just admitted has no fragment acknowledged. -/
@[simp] theorem QueuedPacket.toPendingPacket_fragmentAcknowledged (maxFragmentSize id : Nat)
    (q : QueuedPacket) (i : Nat) : (q.toPendingPacket maxFragmentSize id).fragmentAcknowledged i = false := by
  simp [PendingPacket.fragmentAcknowledged, QueuedPacket.toPendingPacket, List.getD_eq_getElem?_getD,
    List.getElem?_replicate]
  split_ifs <;> rfl

namespace PacketSender

/-- Upgrading a weak reference to the packet with sequence ID `id`. -/
def packet (ps : PacketSender) (id : Nat) : Option PendingPacket := (ps.window id).map Prod.fst

/-- Modelled from the spec: `PacketSender::new(window_size, …, base_id)`, empty, cutting
packets at `MAX_FRAGMENT_SIZE = maxFragmentSize`. -/
def new (windowSize maxFragmentSize baseId : Nat) : PacketSender where
  sendQueue := []
  baseId := baseId
  nextId := baseId
  windowSize := windowSize
  maxFragmentSize := maxFragmentSize
  window := fun _ => none
  base_le := le_rfl
  window_sequenceId := by simp
  window_range := by simp
  window_full := fun _ h h' => absurd (Nat.lt_of_le_of_lt h h') (Nat.lt_irrefl _)
  window_fragments := by simp

/-- Modelled from the spec: `PacketSender::enqueue_packet`. -/
def enqueuePacket (ps : PacketSender) (q : QueuedPacket) : PacketSender :=
  { ps with sendQueue := ps.sendQueue ++ [q] }

/-- Admitting `q` under the next sequence ID, `rest` being what is left queued. -/
def admitQueued (ps : PacketSender) (q : QueuedPacket) (rest : List QueuedPacket) : PacketSender where
  sendQueue := rest
  baseId := ps.baseId
  nextId := ps.nextId + 1
  windowSize := ps.windowSize
  maxFragmentSize := ps.maxFragmentSize
  window := fun i => if i = ps.nextId then
    some (QueuedPacket.toPendingPacket ps.maxFragmentSize ps.nextId q, q.mode = .resend) else ps.window i
  base_le := Nat.le_succ_of_le ps.base_le
  window_sequenceId := by
    intro i e h
    dsimp only at h
    split at h
    · cases h; exact (‹i = ps.nextId›).symm
    · exact ps.window_sequenceId i e h
  window_range := by
    intro i h
    dsimp only at h
    split at h
    · subst i; exact ⟨ps.base_le, Nat.lt_succ_self _⟩
    · have := ps.window_range i h; omega
  window_full := by
    intro i h h'
    dsimp only
    split
    · rfl
    · exact ps.window_full i h (by omega)
  window_fragments := by
    intro i e h
    dsimp only at h
    split at h
    · cases h; exact fragmentData_length_le _ _
    · exact ps.window_fragments i e h

/-- Modelled from the spec: `PacketSender::emit_packet(flush_id)`: nothing while the
window is full; otherwise the next queued packet, skipping the `TimeSensitive` ones
queued under another flush ID. -/
def emitPacket (ps : PacketSender) (flushId : Nat) :
    Option (PendingPacket × Bool) × PacketSender :=
  if ps.nextId - ps.baseId < ps.windowSize then go ps.sendQueue else (none, ps)
where
  go : List QueuedPacket → Option (PendingPacket × Bool) × PacketSender
    | [] => (none, { ps with sendQueue := [] })
    | q :: rest =>
      if q.mode = .timeSensitive ∧ q.flushId ≠ flushId then go rest
      else (some (QueuedPacket.toPendingPacket ps.maxFragmentSize ps.nextId q, q.mode = .resend),
        ps.admitQueued q rest)

/-- Modelled from the spec: `PacketSender::acknowledge(base_id)`, advancing the packet
window to `base_id` and dropping every packet before it. -/
def acknowledge (ps : PacketSender) (baseId : Nat) : PacketSender :=
  if h : ps.baseId ≤ baseId ∧ baseId ≤ ps.nextId then
    { ps with
      baseId := baseId
      window := fun i => if i < baseId then none else ps.window i
      base_le := h.2
      window_sequenceId := by
        intro i e he
        dsimp only at he
        split at he
        · cases he
        · exact ps.window_sequenceId i e he
      window_range := by
        intro i hi
        dsimp only at hi
        split at hi
        · simp at hi
        · have := ps.window_range i hi; omega
      window_full := by
        intro i hi hi'
        dsimp only
        rw [if_neg (by omega)]
        exact ps.window_full i (by omega) hi'
      window_fragments := by
        intro i e he
        dsimp only at he
        split at he
        · cases he
        · exact ps.window_fragments i e he }
  else ps

/-- Setting the acknowledgement bit of a fragment of a packet the sender owns, as the
frame queue does for the fragments of an acknowledged frame. -/
def acknowledgeFragment (ps : PacketSender) (r : FragmentRef) : PacketSender :=
  { ps with
    window := fun i => if i = r.packet then
      (ps.window i).map fun e => (e.1.acknowledge r.fragmentId, e.2) else ps.window i
    window_sequenceId := by
      intro i e he
      dsimp only at he
      split at he
      · obtain ⟨e', he', rfl⟩ := Option.map_eq_some'.1 he
        exact ps.window_sequenceId i e' he'
      · exact ps.window_sequenceId i e he
    window_range := by
      intro i hi
      dsimp only at hi
      split at hi
      · exact ps.window_range i (by simpa using hi)
      · exact ps.window_range i hi
    window_full := by
      intro i hi hi'
      dsimp only
      split
      · simpa using ps.window_full i hi hi'
      · exact ps.window_full i hi hi'
    window_fragments := by
      intro i e he
      dsimp only at he
      split at he
      · obtain ⟨e', he', rfl⟩ := Option.map_eq_some'.1 he
        exact ps.window_fragments i e' he'
      · exact ps.window_fragments i e he }

/-- Setting the acknowledgement bits of the fragments `rs`, one after the other. -/
def acknowledgeFragments (ps : PacketSender) (rs : List FragmentRef) : PacketSender :=
  rs.foldl acknowledgeFragment ps

theorem emitPacket_maxFragmentSize (ps : PacketSender) (flushId : Nat) :
    (ps.emitPacket flushId).2.maxFragmentSize = ps.maxFragmentSize := by
  unfold emitPacket
  split
  · generalize ps.sendQueue = qs
    induction qs with
    | nil => rfl
    | cons q qs ih =>
      simp only [emitPacket.go]
      split
      · exact ih
      · rfl
  · rfl

theorem datagram_data_le {ps : PacketSender} {id : Nat} {p : PendingPacket}
    (h : ps.packet id = some p) (i : Nat) : (p.datagram i).data.length ≤ ps.maxFragmentSize := by
  obtain ⟨e, he, rfl⟩ := Option.map_eq_some'.1 h
  simp only [PendingPacket.datagram, List.getD_eq_getElem?_getD]
  cases hf : e.1.fragments[i]? with
  | none => simp
  | some f => exact ps.window_fragments id e he f (List.getElem?_mem hf)

theorem packet_sequenceId {ps : PacketSender} {id : Nat} {p : PendingPacket}
    (h : ps.packet id = some p) : p.sequenceId = id := by
  obtain ⟨e, he, rfl⟩ := Option.map_eq_some'.1 h
  exact ps.window_sequenceId id e he

theorem packet_range {ps : PacketSender} {id : Nat} {p : PendingPacket}
    (h : ps.packet id = some p) : ps.baseId ≤ id ∧ id < ps.nextId :=
  ps.window_range id (by simpa [packet] using congrArg Option.isSome h)

/-! ### Admitting packets -/

/-- `ps'` is `ps` with more packets admitted: the window has not moved, and every packet
`ps` had admitted is still there, unchanged. -/
structure Extends (ps ps' : PacketSender) : Prop where
  baseId_eq : ps'.baseId = ps.baseId
  nextId_le : ps.nextId ≤ ps'.nextId
  window_eq : ∀ i < ps.nextId, ps'.window i = ps.window i

theorem Extends.refl (ps : PacketSender) : ps.Extends ps := ⟨rfl, le_rfl, fun _ _ => rfl⟩

theorem Extends.trans {ps ps' ps'' : PacketSender} (h : ps.Extends ps') (h' : ps'.Extends ps'') :
    ps.Extends ps'' :=
  ⟨h'.baseId_eq.trans h.baseId_eq, h.nextId_le.trans h'.nextId_le, fun i hi =>
    (h'.window_eq i (Nat.lt_of_lt_of_le hi h.nextId_le)).trans (h.window_eq i hi)⟩

theorem Extends.packet_eq {ps ps' : PacketSender} (h : ps.Extends ps') {i : Nat}
    (hi : i < ps.nextId) : ps'.packet i = ps.packet i := by
  simp [packet, h.window_eq i hi]

theorem admitQueued_extends (ps : PacketSender) (q : QueuedPacket) (rest : List QueuedPacket) :
    ps.Extends (ps.admitQueued q rest) :=
  ⟨rfl, Nat.le_succ _, fun _ hi => if_neg (Nat.ne_of_lt hi)⟩

/-- `emit_packet` admits at most one packet and touches none of the others. -/
theorem emitPacket_extends (ps : PacketSender) (flushId : Nat) :
    ps.Extends (ps.emitPacket flushId).2 := by
  unfold emitPacket
  split
  · generalize ps.sendQueue = qs
    induction qs with
    | nil => exact ⟨rfl, le_rfl, fun _ _ => rfl⟩
    | cons q qs ih =>
      simp only [emitPacket.go]
      split
      · exact ih
      · exact admitQueued_extends ps q qs
  · exact Extends.refl ps

/-- **What `emit_packet` does**: nothing but drop stale `TimeSensitive` packets from the
send queue, or admit the next queued packet under the next sequence ID. -/
theorem emitPacket_cases (ps : PacketSender) (flushId : Nat) :
    ((ps.emitPacket flushId).1 = none ∧ (ps.emitPacket flushId).2.window = ps.window ∧
      (ps.emitPacket flushId).2.nextId = ps.nextId ∧ (ps.emitPacket flushId).2.baseId = ps.baseId) ∨
    ∃ q rest, ps.emitPacket flushId =
      (some (QueuedPacket.toPendingPacket ps.maxFragmentSize ps.nextId q, decide (q.mode = .resend)),
        ps.admitQueued q rest) := by
  unfold emitPacket
  split
  · generalize ps.sendQueue = qs
    induction qs with
    | nil => exact .inl ⟨rfl, rfl, rfl, rfl⟩
    | cons q qs ih =>
      simp only [emitPacket.go]
      split
      · exact ih
      · exact .inr ⟨q, qs, rfl⟩
  · exact .inl ⟨rfl, rfl, rfl, rfl⟩

/-- A packet of `admitQueued` is the one it admits under `next_id` or one the sender
owned before. -/
theorem admitQueued_window {ps : PacketSender} {q : QueuedPacket} {rest : List QueuedPacket}
    {id : Nat} {e : PendingPacket × Bool} (h : (ps.admitQueued q rest).window id = some e) :
    id = ps.nextId ∧
        e = (QueuedPacket.toPendingPacket ps.maxFragmentSize ps.nextId q, decide (q.mode = .resend)) ∨
      id < ps.nextId ∧ ps.window id = some e := by
  simp only [admitQueued] at h
  split at h
  · exact .inl ⟨‹_›, (Option.some.inj h).symm⟩
  · exact .inr ⟨(ps.window_range id (by simp [h])).2, h⟩

theorem acknowledge_window {ps : PacketSender} {b id : Nat} {e : PendingPacket × Bool}
    (h : (ps.acknowledge b).window id = some e) : ps.window id = some e := by
  unfold acknowledge at h
  split at h
  · dsimp only at h
    split at h
    · cases h
    · exact h
  · exact h

@[simp] theorem acknowledge_nextId (ps : PacketSender) (b : Nat) : (ps.acknowledge b).nextId = ps.nextId := by
  unfold acknowledge; split <;> rfl

@[simp] theorem enqueuePacket_window (ps : PacketSender) (q : QueuedPacket) :
    (ps.enqueuePacket q).window = ps.window := rfl

@[simp] theorem enqueuePacket_nextId (ps : PacketSender) (q : QueuedPacket) :
    (ps.enqueuePacket q).nextId = ps.nextId := rfl

@[simp] theorem acknowledgeFragments_nextId (ps : PacketSender) (rs : List FragmentRef) :
    (ps.acknowledgeFragments rs).nextId = ps.nextId := by
  induction rs generalizing ps with
  | nil => rfl
  | cons r rs ih => exact ih _

/-- Acknowledging fragments keeps every packet and its mode, and sets no bit but those of
the fragments acknowledged; a bit set stays set. -/
theorem acknowledgeFragments_window {ps : PacketSender} {rs : List FragmentRef} {id : Nat}
    {p' : PendingPacket} {b : Bool} (h : (ps.acknowledgeFragments rs).window id = some (p', b)) :
    ∃ p, ps.window id = some (p, b) ∧ p'.fragments = p.fragments ∧
      (∀ i, p.fragmentAcknowledged i = true → p'.fragmentAcknowledged i = true) ∧
      ∀ i, p'.fragmentAcknowledged i = true → p.fragmentAcknowledged i = true ∨ ⟨id, i⟩ ∈ rs := by
  induction rs generalizing ps with
  | nil => exact ⟨p', h, rfl, fun _ h => h, fun _ h => .inl h⟩
  | cons r rs ih =>
    obtain ⟨p1, h1, hf1, hup1, hdown1⟩ := ih h
    simp only [acknowledgeFragment] at h1
    split at h1
    · rename_i hid
      obtain ⟨⟨p0, b0⟩, h0, he⟩ := Option.map_eq_some'.1 h1
      simp only [Prod.mk.injEq] at he
      obtain ⟨rfl, rfl⟩ := he
      refine ⟨p0, h0, by simpa using hf1, fun i hi => hup1 i (p0.fragmentAcknowledged_acknowledge hi),
        fun i hi => ?_⟩
      rcases hdown1 i hi with hi | hi
      · rcases p0.fragmentAcknowledged_of_acknowledge hi with hi | rfl
        · exact .inl hi
        · exact .inr (List.mem_cons.2 (.inl (by subst hid; rfl)))
      · exact .inr (List.mem_cons_of_mem _ hi)
    · exact ⟨p1, h1, hf1, hup1, fun i hi => (hdown1 i hi).imp_right (List.mem_cons_of_mem _)⟩

end PacketSender

end DatenMeister
end Porous
