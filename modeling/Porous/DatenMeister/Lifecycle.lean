import Porous.DatenMeister.Endpoint

/-!
# The fragment lifecycle

Every fragment of a packet the sender admits enters the pending queue; its first
successful `push` takes it out, and, when its packet is to be resent, schedules it in the
resend queue; each later `push` of it from the resend queue replaces its entry by the
rescheduled one.  `Lifecycle` is the invariant that says so, over every state an endpoint
reaches (`Lifecycle.reachable`), at the head of every loop of `emit_data_frames`, at its
return and between calls.  `fragment_lifecycle` reads the fragment lifecycle off it.

The invariant rests on one fact about where a pending fragment can be: the pending
queue only ever holds the rest of the last packet admitted (`Lifecycle.pending`), and a
fragment still pending has never been sent, so no ack group has acknowledged it.  A
stale pending head is therefore one whose packet the window has passed; then the window
has passed every packet, every resend entry is stale too, and the resend entry that
lines 220 and 235 pop is one the resend loop would have dropped anyway
(`Lifecycle.resend_stale_of_pending_stale`).  The call then spins
(`stale_pending_never_returns`), but it loses no live fragment.
-/

namespace Porous
namespace DatenMeister

open DataFrameEmitter

/-- The fragments of packet `p`, `0 ..= last_fragment_id`. -/
def fragmentsOf (p : PendingPacket) : List FragmentRef :=
  (List.range (p.lastFragmentId + 1)).map p.fragmentRef

theorem pendingEntries_fragmentRef (p : PendingPacket) (b : Bool) :
    (pendingEntries p b).map (·.fragmentRef) = fragmentsOf p := by
  simp [pendingEntries, fragmentsOf, Function.comp_def]

theorem mem_fragmentsOf {p : PendingPacket} {r : FragmentRef} :
    r ∈ fragmentsOf p ↔ r.packet = p.sequenceId ∧ r.fragmentId ≤ p.lastFragmentId := by
  simp only [fragmentsOf, List.mem_map, List.mem_range, PendingPacket.fragmentRef]
  constructor
  · rintro ⟨i, hi, rfl⟩
    exact ⟨rfl, Nat.le_of_lt_succ hi⟩
  · rintro ⟨h1, h2⟩
    exact ⟨r.fragmentId, Nat.lt_succ_of_le h2, by rw [← h1]⟩

theorem fragmentsOf_nodup (p : PendingPacket) : (fragmentsOf p).Nodup :=
  (List.nodup_range _).map fun _ _ h => congrArg FragmentRef.fragmentId h

namespace Endpoint

/-- The fragments of the pending queue, in order. -/
def pendingRefs (s : Endpoint) : List FragmentRef := s.emit.pendingQueue.map (·.fragmentRef)

/-- The fragments of the resend queue, in order. -/
def resendRefs (s : Endpoint) : List FragmentRef := s.emit.resendQueue.entries.map (·.fragmentRef)

/-- The fragments sent, in order. -/
def sentRefs (s : Endpoint) : List FragmentRef := s.sent.map Sent.fragmentRef

/-- The fragments sent from the pending queue, in order. -/
def firstSent (s : Endpoint) : List FragmentRef :=
  s.sent.filterMap fun x => match x.entry with
    | .pending y => some y.fragmentRef
    | .resend _ => none

/-- The fragments of the packets admitted, in the order of admission. -/
def admittedRefs (s : Endpoint) : List FragmentRef := s.admitted.flatMap (fragmentsOf ·.1)

end Endpoint

open Endpoint

/-- **The lifecycle invariant.**  The packets admitted have distinct sequence IDs below
`next_id`, and every packet the sender owns is one of them.  The pending queue holds the
rest of the last packet admitted.  The fragments sent from the pending queue, then those
still in it, are the fragments of the admitted packets, in order, and a pending fragment
has never been sent.  The resend queue holds each fragment at most once, only fragments
sent of packets to be resent, and every sent, unacknowledged fragment of a live packet
to be resent.  Only sent fragments are acknowledged or held by the frame queue. -/
structure Lifecycle (s : Endpoint) : Prop where
  admitted_nodup : (s.admitted.map (·.1.sequenceId)).Nodup
  admitted_lt : ∀ pb ∈ s.admitted, pb.1.sequenceId < s.emit.packetSender.nextId
  owned : ∀ id p b, s.emit.packetSender.window id = some (p, b) →
    ∃ p0, (p0, b) ∈ s.admitted ∧ p0.sequenceId = id ∧ p0.fragments = p.fragments
  pending : s.emit.pendingQueue ≠ [] → ∃ p b j, s.admitted.getLast? = some (p, b) ∧
    p.sequenceId + 1 = s.emit.packetSender.nextId ∧ s.emit.pendingQueue = (pendingEntries p b).drop j
  firsts : s.firstSent ++ s.pendingRefs = s.admittedRefs
  sent_admitted : ∀ r ∈ s.sentRefs, r ∈ s.admittedRefs
  pending_unsent : ∀ r ∈ s.pendingRefs, r ∉ s.sentRefs
  resend_nodup : s.resendRefs.Nodup
  resend_sent : ∀ r ∈ s.resendRefs, r ∈ s.sentRefs ∧ ∃ p, (p, true) ∈ s.admitted ∧ r ∈ fragmentsOf p
  resend_kept : ∀ id p i, s.emit.packetSender.window id = some (p, true) → i ≤ p.lastFragmentId →
    p.fragmentAcknowledged i = false → ⟨id, i⟩ ∈ s.sentRefs → ⟨id, i⟩ ∈ s.resendRefs
  acked_sent : ∀ id p b i, s.emit.packetSender.window id = some (p, b) →
    p.fragmentAcknowledged i = true → ⟨id, i⟩ ∈ s.sentRefs
  frames_sent : ∀ r ∈ s.emit.dfe.frameRefs, r ∈ s.sentRefs

namespace Lifecycle

variable {s : Endpoint}

theorem init (windowSize maxFragmentSize baseId nextFrameId frameWindowSize : Nat) :
    Lifecycle (Endpoint.init windowSize maxFragmentSize baseId nextFrameId frameWindowSize) where
  admitted_nodup := List.nodup_nil
  admitted_lt := by simp [Endpoint.init]
  owned := by simp [Endpoint.init, PacketSender.new]
  pending := by simp [Endpoint.init]
  firsts := rfl
  sent_admitted := by simp [Endpoint.init, sentRefs]
  pending_unsent := by simp [Endpoint.init, pendingRefs]
  resend_nodup := List.nodup_nil
  resend_sent := by simp [Endpoint.init, resendRefs, ResendQueue.empty]
  resend_kept := by simp [Endpoint.init, PacketSender.new]
  acked_sent := by simp [Endpoint.init, PacketSender.new]
  frames_sent := by simp [Endpoint.init]

/-- A packet admitted has an ID below `next_id`; so has every fragment of one. -/
theorem admittedRefs_lt (h : Lifecycle s) {r : FragmentRef} (hr : r ∈ s.admittedRefs) :
    r.packet < s.emit.packetSender.nextId := by
  obtain ⟨pb, hpb, hr⟩ := List.mem_flatMap.1 hr
  rw [(mem_fragmentsOf.1 hr).1]
  exact h.admitted_lt pb hpb

/-- The pending queue holds no fragment twice. -/
theorem pendingRefs_nodup (h : Lifecycle s) : s.pendingRefs.Nodup := by
  by_cases hq : s.emit.pendingQueue = []
  · simp [pendingRefs, hq]
  obtain ⟨p, b, j, -, -, hpq⟩ := h.pending hq
  rw [pendingRefs, hpq, List.map_drop, pendingEntries_fragmentRef]
  exact (fragmentsOf_nodup p).sublist (List.drop_sublist _ _)

/-- **A stale pending head means every resend entry is stale.**  The head was never
sent, so it is not acknowledged: its packet is gone, the window has passed the last
packet admitted, and with it every other. -/
theorem resend_stale_of_pending_stale (h : Lifecycle s) {x : PendingEntry}
    {rest : List PendingEntry} (hx : s.emit.pendingQueue = x :: rest)
    (hst : Stale s.emit.packetSender x.fragmentRef) :
    ∀ y ∈ s.emit.resendQueue.entries, Stale s.emit.packetSender y.fragmentRef := by
  obtain ⟨p, b, j, -, hnext, hpq⟩ := h.pending (by simp [hx])
  have hxp : x ∈ pendingEntries p b := by
    have : x ∈ (pendingEntries p b).drop j := by rw [← hpq, hx]; exact List.mem_cons_self _ _
    exact List.mem_of_mem_drop this
  have hxr : x.fragmentRef ∈ fragmentsOf p := by
    rw [← pendingEntries_fragmentRef p b]; exact List.mem_map_of_mem _ hxp
  have hunsent : x.fragmentRef ∉ s.sentRefs :=
    h.pending_unsent _ (by simp [pendingRefs, hx])
  have hdead : s.emit.packetSender.window p.sequenceId = none := by
    cases hw : s.emit.packetSender.window p.sequenceId with
    | none => rfl
    | some e =>
      have hpk : s.emit.packetSender.packet x.fragmentRef.packet = some e.1 := by
        simp [PacketSender.packet, (mem_fragmentsOf.1 hxr).1, hw]
      exact absurd (h.acked_sent _ e.1 e.2 _ (by rw [(mem_fragmentsOf.1 hxr).1]; exact hw)
        (hst e.1 hpk)) hunsent
  have hbase : s.emit.packetSender.nextId ≤ s.emit.packetSender.baseId := by
    by_contra hlt
    have := s.emit.packetSender.window_full p.sequenceId (by omega) (by omega)
    simp [hdead] at this
  intro y hy q hq
  obtain ⟨hys, -⟩ := h.resend_sent y.fragmentRef (List.mem_map_of_mem _ hy)
  have hlt := h.admittedRefs_lt (h.sent_admitted _ hys)
  have := (s.emit.packetSender.window_range _ (by
    simp only [PacketSender.packet] at hq; simpa using congrArg Option.isSome hq)).1
  omega

/-- **What keeps the queues and the records and only lets packets go or bits be set
keeps the invariant.**  Every packet `s'` owns, `s` owned with the same mode and
fragments, and its acknowledgement bits only grew, by bits of sent fragments; the frame
queue only lost slots. -/
theorem of_owned {s' : Endpoint} (h : Lifecycle s)
    (hw : ∀ id p' b, s'.emit.packetSender.window id = some (p', b) →
      ∃ p, s.emit.packetSender.window id = some (p, b) ∧ p'.fragments = p.fragments ∧
        (∀ i, p.fragmentAcknowledged i = true → p'.fragmentAcknowledged i = true) ∧
        ∀ i, p'.fragmentAcknowledged i = true → p.fragmentAcknowledged i = true ∨ ⟨id, i⟩ ∈ s.sentRefs)
    (hn : s'.emit.packetSender.nextId = s.emit.packetSender.nextId)
    (hpq : s'.emit.pendingQueue = s.emit.pendingQueue) (hrq : s'.emit.resendQueue = s.emit.resendQueue)
    (ha : s'.admitted = s.admitted) (hs : s'.sent = s.sent)
    (hf : ∀ r ∈ s'.emit.dfe.frameRefs, r ∈ s.emit.dfe.frameRefs) : Lifecycle s' where
  admitted_nodup := ha ▸ h.admitted_nodup
  admitted_lt := by rw [ha, hn]; exact h.admitted_lt
  owned id p' b hp := by
    obtain ⟨p, hp, hfr, -, -⟩ := hw id p' b hp
    obtain ⟨p0, h0, hid, hfr0⟩ := h.owned id p b hp
    exact ⟨p0, ha ▸ h0, hid, hfr0.trans hfr.symm⟩
  pending := by rw [hpq, ha, hn]; exact h.pending
  firsts := by simp only [firstSent, pendingRefs, admittedRefs, hs, hpq, ha]; exact h.firsts
  sent_admitted := by simp only [sentRefs, admittedRefs, hs, ha]; exact h.sent_admitted
  pending_unsent := by simp only [sentRefs, pendingRefs, hs, hpq]; exact h.pending_unsent
  resend_nodup := by simp only [resendRefs, hrq]; exact h.resend_nodup
  resend_sent := by simp only [resendRefs, sentRefs, hrq, hs, ha]; exact h.resend_sent
  resend_kept id p' i hp' hi hun hsent := by
    obtain ⟨p, hp, hfr, hup, -⟩ := hw id p' true hp'
    have hlast : p'.lastFragmentId = p.lastFragmentId := by simp [PendingPacket.lastFragmentId, hfr]
    have hun' : p.fragmentAcknowledged i = false := by
      cases hb : p.fragmentAcknowledged i
      · rfl
      · simp [hup i hb] at hun
    simp only [resendRefs, sentRefs, hrq, hs] at hsent ⊢
    exact h.resend_kept id p i hp (hlast ▸ hi) hun' hsent
  acked_sent id p' b i hp' hack := by
    obtain ⟨p, hp, -, -, hdown⟩ := hw id p' b hp'
    simp only [sentRefs, hs]
    rcases hdown i hack with hack | hsent
    · exact h.acked_sent id p b i hp hack
    · exact hsent
  frames_sent r hr := by simp only [sentRefs, hs]; exact h.frames_sent r (hf r hr)

theorem frameRefs_release (dfe : DataFrameEmitter) (id : Nat) :
    ∀ r ∈ ({ dfe with frameQueue := dfe.frameQueue.release id } : DataFrameEmitter).frameRefs,
      r ∈ dfe.frameRefs := by
  intro r hr
  simp only [frameRefs, FrameQueue.release, List.mem_append, List.mem_flatMap, List.mem_filter] at hr ⊢
  rcases hr with ⟨e, ⟨he, -⟩, hr⟩ | hr
  · exact .inl ⟨e, he, hr⟩
  · exact .inr hr

theorem fragmentRefsOf_frameRefs (dfe : DataFrameEmitter) (id : Nat) :
    ∀ r ∈ dfe.frameQueue.fragmentRefsOf id, r ∈ dfe.frameRefs := by
  intro r hr
  simp only [frameRefs, FrameQueue.fragmentRefsOf, List.mem_append, List.mem_flatMap,
    List.mem_filter] at hr ⊢
  obtain ⟨e, ⟨he, -⟩, hr⟩ := hr
  exact .inl ⟨e, he, hr⟩

/-- **Every input keeps the invariant.** -/
theorem input (h : Lifecycle s) (i : Input) : Lifecycle (s.input i) := by
  have same : ∀ id p' b, s.emit.packetSender.window id = some (p', b) →
      ∃ p, s.emit.packetSender.window id = some (p, b) ∧ p'.fragments = p.fragments ∧
        (∀ i, p.fragmentAcknowledged i = true → p'.fragmentAcknowledged i = true) ∧
        ∀ i, p'.fragmentAcknowledged i = true → p.fragmentAcknowledged i = true ∨ ⟨id, i⟩ ∈ s.sentRefs :=
    fun _ p' _ hp => ⟨p', hp, rfl, fun _ h => h, fun _ h => .inl h⟩
  cases i with
  | enqueue q => exact h.of_owned same rfl rfl rfl rfl rfl fun _ h => h
  | advance b =>
    exact h.of_owned (fun id p' b' hp => same id p' b' (PacketSender.acknowledge_window hp))
      (PacketSender.acknowledge_nextId _ _) rfl rfl rfl rfl fun _ h => h
  | frameAcked id =>
    refine h.of_owned (fun id' p' b hp => ?_) (PacketSender.acknowledgeFragments_nextId _ _) rfl rfl
      rfl rfl (frameRefs_release _ id)
    obtain ⟨p, hp, hfr, hup, hdown⟩ := PacketSender.acknowledgeFragments_window hp
    exact ⟨p, hp, hfr, hup, fun i hi => (hdown i hi).imp_right fun hr =>
      h.frames_sent _ (fragmentRefsOf_frameRefs _ id _ hr)⟩
  | frameDropped id => exact h.of_owned same rfl rfl rfl rfl rfl (frameRefs_release _ id)
  | flush c =>
    refine h.of_owned same rfl rfl rfl rfl rfl fun r hr => ?_
    simp only [Endpoint.input, frameRefs_new] at hr
    exact List.mem_append_left _ hr

/-! ### The turns of a call -/

/-- A turn that admits nothing, sends nothing and moves no queue keeps the invariant. -/
theorem record_quiet (h : Lifecycle s) (l : Loop) {ps : PacketSender} {d : DataFrameEmitter}
    (hw : ps.window = s.emit.packetSender.window) (hn : ps.nextId = s.emit.packetSender.nextId)
    (hc : d.committed = s.emit.dfe.committed) (hf : d.frameRefs = s.emit.dfe.frameRefs) :
    Lifecycle (s.record (l, { s.emit with packetSender := ps, dfe := d })) := by
  rw [record_eq_of_quiet hn hc]
  exact h.of_owned (fun id p' b hp => ⟨p', by rw [← hw]; exact hp, rfl, fun _ h => h, fun _ h => .inl h⟩)
    hn rfl rfl rfl rfl (fun r hr => by rw [← hf]; exact hr)

/-- Popping a stale head off the resend queue keeps the invariant. -/
theorem record_pop (h : Lifecycle s) (l : Loop)
    (hst : ∀ y, s.emit.resendQueue.peek = some y → Stale s.emit.packetSender y.fragmentRef) :
    Lifecycle (s.record (l, { s.emit with resendQueue := s.emit.resendQueue.pop })) := by
  rw [record_eq_of_quiet rfl rfl]
  have hrr : ({ s with loop := l, emit := { s.emit with resendQueue := s.emit.resendQueue.pop } } :
      Endpoint).resendRefs = s.resendRefs.tail := by
    simp [resendRefs, List.map_tail]
  exact {
    admitted_nodup := h.admitted_nodup
    admitted_lt := h.admitted_lt
    owned := h.owned
    pending := h.pending
    firsts := h.firsts
    sent_admitted := h.sent_admitted
    pending_unsent := h.pending_unsent
    resend_nodup := hrr ▸ h.resend_nodup.sublist (List.tail_sublist _)
    resend_sent := fun r hr => h.resend_sent r ((List.tail_sublist _).subset (hrr ▸ hr))
    resend_kept := fun id p i hp hi hun hsent => by
      rw [hrr]
      have hmem := h.resend_kept id p i hp hi hun hsent
      cases hq : s.emit.resendQueue.entries with
      | nil => simp [resendRefs, hq] at hmem
      | cons y ys =>
        simp only [resendRefs, hq, List.map_cons, List.mem_cons, List.tail_cons] at hmem ⊢
        rcases hmem with hy | hys
        · have hp' : s.emit.packetSender.window id = some (p, true) := hp
          have hpk : s.emit.packetSender.packet id = some p := by simp [PacketSender.packet, hp']
          have hack := hst y (by simp [ResendQueue.peek, hq]) p (by rw [← hy]; exact hpk)
          rw [← hy] at hack
          simp [hack] at hun
        · exact hys
    acked_sent := h.acked_sent
    frames_sent := h.frames_sent }

/-- The head of the pending queue is a fragment of the last packet admitted, queued with
its mode; the rest of the queue follows it in that packet. -/
theorem pending_head (h : Lifecycle s) {x : PendingEntry} {rest : List PendingEntry}
    (hx : s.emit.pendingQueue = x :: rest) :
    ∃ P b j, (P, b) ∈ s.admitted ∧ s.admitted.getLast? = some (P, b) ∧
      P.sequenceId + 1 = s.emit.packetSender.nextId ∧ x.resend = b ∧ x.fragmentRef ∈ fragmentsOf P ∧
      rest = (pendingEntries P b).drop (j + 1) := by
  obtain ⟨P, b, j, hlast, hnext, hpq⟩ := h.pending (by simp [hx])
  have hdrop : (pendingEntries P b).drop j = x :: rest := hpq ▸ hx
  have hxP : x ∈ pendingEntries P b := List.mem_of_mem_drop (by rw [hdrop]; exact List.mem_cons_self _ _)
  obtain ⟨i, -, rfl⟩ := List.mem_map.1 hxP
  refine ⟨P, b, j, List.mem_of_getLast?_eq_some hlast, hlast, hnext, rfl, ?_, ?_⟩
  · rw [← pendingEntries_fragmentRef P b]
    exact List.mem_map_of_mem _ hxP
  · rw [← List.drop_drop, hdrop]
    rfl

/-- Two packets admitted with one sequence ID are one. -/
theorem admitted_eq (h : Lifecycle s) {a a' : PendingPacket × Bool} (ha : a ∈ s.admitted)
    (ha' : a' ∈ s.admitted) (heq : a.1.sequenceId = a'.1.sequenceId) : a = a' :=
  List.inj_on_of_nodup_map h.admitted_nodup ha ha' heq

theorem mem_sentRefs_of_sent {s' : Endpoint} {x : Sent} (h : s'.sent = s.sent ++ [x])
    {r : FragmentRef} : r ∈ s'.sentRefs ↔ r ∈ s.sentRefs ∨ r = x.fragmentRef := by
  simp [sentRefs, h]

/-- The fragments sent from the pending queue are sent. -/
theorem firstSent_sent (s : Endpoint) : ∀ r ∈ s.firstSent, r ∈ s.sentRefs := by
  intro r hr
  obtain ⟨⟨c, t, rtt⟩, hx, hc⟩ := List.mem_filterMap.1 hr
  refine List.mem_map.2 ⟨_, hx, ?_⟩
  cases c <;> simp_all [Sent.fragmentRef, Consumed.fragmentRef]

/-- The fragments of the packets admitted are distinct. -/
theorem admittedRefs_nodup (h : Lifecycle s) : s.admittedRefs.Nodup := by
  refine List.nodup_flatMap.2 ⟨fun pb _ => fragmentsOf_nodup pb.1, ?_⟩
  refine (List.pairwise_map.1 h.admitted_nodup).imp fun hne r ha hb => hne ?_
  rw [← (mem_fragmentsOf.1 ha).1, ← (mem_fragmentsOf.1 hb).1]

/-- **A live, unacknowledged fragment of a packet to be resent has exactly one entry**: in
the pending queue while it has never been sent, in the resend queue once it has. -/
theorem resend_exactly_once (h : Lifecycle s) {id : Nat} {p : PendingPacket} {i : Nat}
    (hw : s.emit.packetSender.window id = some (p, true)) (hi : i ≤ p.lastFragmentId)
    (hun : p.fragmentAcknowledged i = false) :
    s.pendingRefs.count ⟨id, i⟩ + s.resendRefs.count ⟨id, i⟩ = 1 ∧
      (⟨id, i⟩ ∈ s.pendingRefs ↔ ⟨id, i⟩ ∉ s.sentRefs) := by
  obtain ⟨p0, h0, hid, hfr⟩ := h.owned id p true hw
  have hadm : ⟨id, i⟩ ∈ s.admittedRefs := List.mem_flatMap.2
    ⟨_, h0, mem_fragmentsOf.2 ⟨hid.symm, by simpa [PendingPacket.lastFragmentId, hfr] using hi⟩⟩
  have hnd : (s.firstSent ++ s.pendingRefs).Nodup := h.firsts ▸ h.admittedRefs_nodup
  by_cases hp : ⟨id, i⟩ ∈ s.pendingRefs
  · have hu := h.pending_unsent _ hp
    have hr : ⟨id, i⟩ ∉ s.resendRefs := fun hr => hu (h.resend_sent _ hr).1
    refine ⟨?_, iff_of_true hp hu⟩
    rw [List.count_eq_one_of_mem (List.nodup_append.1 hnd).2.1 hp, List.count_eq_zero_of_not_mem hr]
  · have hf : ⟨id, i⟩ ∈ s.firstSent := by
      rw [← h.firsts] at hadm
      exact (List.mem_append.1 hadm).resolve_right hp
    have hs := firstSent_sent s _ hf
    refine ⟨?_, iff_of_false hp (not_not.2 hs)⟩
    rw [List.count_eq_zero_of_not_mem hp,
      List.count_eq_one_of_mem h.resend_nodup (h.resend_kept id p i hw hi hun hs)]

/-- **No fragment of a packet admitted not to be resent is ever in the resend queue.** -/
theorem unreliable_not_resent (h : Lifecycle s) {p : PendingPacket} (hp : (p, false) ∈ s.admitted)
    {r : FragmentRef} (hr : r ∈ fragmentsOf p) : r ∉ s.resendRefs := by
  intro hrr
  obtain ⟨-, P, hP, hrP⟩ := h.resend_sent r hrr
  have := h.admitted_eq hp hP (by rw [← (mem_fragmentsOf.1 hr).1, (mem_fragmentsOf.1 hrP).1])
  simp at this

section Turns

variable (w : Wire) (random : Nat → Bool)

/-- The fragment a live packet's datagram carries is the entry's. -/
theorem fragmentRef_of_live {ps : PacketSender} {r : FragmentRef} {p : PendingPacket}
    (hl : Live ps r p) : p.fragmentRef r.fragmentId = r := by
  simp [PendingPacket.fragmentRef, PacketSender.packet_sequenceId hl.1]

/-- Resending the due head of the resend queue and rescheduling it keeps the invariant. -/
theorem record_resendSent (h : Lifecycle s) (hl0 : s.loop = .resend) {x : ResendEntry}
    {p : PendingPacket} {d : DataFrameEmitter} (hx : s.emit.resendQueue.peek = some x)
    (hl : Live s.emit.packetSender x.fragmentRef p)
    (hp : s.emit.dfe.push w random p x.fragmentRef.fragmentId true = (d, .ok ())) :
    Lifecycle (s.record (.resend, { s.emit with
      dfe := d
      resendQueue := s.emit.resendQueue.pop.push (reschedule s.call.nowMs s.call.rttMs x) })) := by
  rw [record_of_resend hl0 hx (committed_push_ok w random hp)]
  have hq := ResendQueue.entries_of_peek hx
  have hxr : x.fragmentRef ∈ s.resendRefs := by
    rw [resendRefs, hq]; exact List.mem_cons_self _ _
  have hxs : x.fragmentRef ∈ s.sentRefs := (h.resend_sent _ hxr).1
  have hold : ∀ {r : FragmentRef},
      r ∈ s.sentRefs ∨ r = Sent.fragmentRef ⟨.resend x, s.call.nowMs, s.call.rttMs⟩ → r ∈ s.sentRefs := by
    rintro r (hr | rfl)
    exacts [hr, hxs]
  have hperm : List.Perm ((s.emit.resendQueue.pop.push (reschedule s.call.nowMs s.call.rttMs x)).entries.map
      (·.fragmentRef)) s.resendRefs := by
    rw [resendRefs, hq]
    exact (ResendQueue.insert_perm _ _).map _
  exact {
    admitted_nodup := h.admitted_nodup
    admitted_lt := h.admitted_lt
    owned := h.owned
    pending := h.pending
    firsts := by simpa [firstSent] using h.firsts
    sent_admitted := fun r hr => h.sent_admitted r (hold ((mem_sentRefs_of_sent (s := s) rfl).1 hr))
    pending_unsent := fun r hr hr' => h.pending_unsent r hr (hold ((mem_sentRefs_of_sent (s := s) rfl).1 hr'))
    resend_nodup := hperm.nodup_iff.2 h.resend_nodup
    resend_sent := fun r hr =>
      ⟨(mem_sentRefs_of_sent (s := s) rfl).2 (.inl (h.resend_sent r (hperm.subset hr)).1),
        (h.resend_sent r (hperm.subset hr)).2⟩
    resend_kept := fun id p' i hp' hi hun hs => hperm.symm.subset
      (h.resend_kept id p' i hp' hi hun (hold ((mem_sentRefs_of_sent (s := s) rfl).1 hs)))
    acked_sent := fun id p' b i hp' hack =>
      (mem_sentRefs_of_sent (s := s) rfl).2 (.inl (h.acked_sent id p' b i hp' hack))
    frames_sent := fun r hr => (mem_sentRefs_of_sent (s := s) rfl).2 (by
      rcases frameRefs_push w random hp r hr with hr | rfl
      · exact .inl (h.frames_sent r hr)
      · exact .inr (fragmentRef_of_live hl)) }

/-- Sending the head of the pending queue, and scheduling it when its packet is to be
resent, keeps the invariant. -/
theorem record_pendingSent (h : Lifecycle s) (hl0 : s.loop = .pending) {x : PendingEntry}
    {rest : List PendingEntry} {p : PendingPacket} {d : DataFrameEmitter}
    (hx : s.emit.pendingQueue = x :: rest) (hl : Live s.emit.packetSender x.fragmentRef p)
    (hp : s.emit.dfe.push w random p x.fragmentRef.fragmentId x.resend = (d, .ok ())) :
    Lifecycle (s.record (.pending, { s.emit with
      dfe := d
      pendingQueue := rest
      resendQueue := if x.resend then
          s.emit.resendQueue.push (firstSchedule s.call.nowMs s.call.rttMs x.fragmentRef)
        else s.emit.resendQueue })) := by
  generalize hrq : (if x.resend then
      s.emit.resendQueue.push (firstSchedule s.call.nowMs s.call.rttMs x.fragmentRef)
    else s.emit.resendQueue) = rq
  rw [record_of_pending hl0 hx (committed_push_ok w random hp)]
  obtain ⟨P, b, j, hP, hlast, hnext, hb, hxP, hrest⟩ := h.pending_head hx
  have hxa : x.fragmentRef ∈ s.admittedRefs := List.mem_flatMap.2 ⟨(P, b), hP, hxP⟩
  have hxu : x.fragmentRef ∉ s.sentRefs := h.pending_unsent _ (by simp [pendingRefs, hx])
  have hnd := h.pendingRefs_nodup
  rw [pendingRefs, hx, List.map_cons, List.nodup_cons] at hnd
  have hR : ∀ r, r ∈ rq.entries.map (·.fragmentRef) ↔
      r ∈ s.resendRefs ∨ (x.resend = true ∧ r = x.fragmentRef) := by
    intro r
    subst hrq
    split
    · rename_i hxr
      rw [ResendQueue.push_entries, ((ResendQueue.insert_perm _ _).map _).mem_iff]
      simp [resendRefs, firstSchedule, hxr, or_comm]
    · rename_i hxr
      simp [resendRefs, hxr]
  have hRnd : (rq.entries.map (·.fragmentRef)).Nodup := by
    subst hrq
    split
    · refine ((ResendQueue.insert_perm _ _).map _).nodup_iff.2 (List.nodup_cons.2 ⟨?_, h.resend_nodup⟩)
      exact fun hr => hxu (h.resend_sent _ hr).1
    · exact h.resend_nodup
  have hold : ∀ {r : FragmentRef}, r ∈ s.sentRefs ∨
      r = Sent.fragmentRef ⟨.pending x, s.call.nowMs, s.call.rttMs⟩ → r ∈ s.admittedRefs := by
    rintro r (hr | rfl)
    exacts [h.sent_admitted r hr, hxa]
  exact {
    admitted_nodup := h.admitted_nodup
    admitted_lt := h.admitted_lt
    owned := h.owned
    pending := fun _ => ⟨P, b, j + 1, hlast, hnext, hrest⟩
    firsts := by simpa [firstSent, pendingRefs, admittedRefs, hx] using h.firsts
    sent_admitted := fun r hr => hold ((mem_sentRefs_of_sent (s := s) rfl).1 hr)
    pending_unsent := fun r hr hr' => by
      rcases (mem_sentRefs_of_sent (s := s) rfl).1 hr' with hr' | rfl
      · exact h.pending_unsent r (by simp only [pendingRefs, hx, List.map_cons]; exact .tail _ hr) hr'
      · exact hnd.1 hr
    resend_nodup := hRnd
    resend_sent := fun r hr => by
      rcases (hR r).1 hr with hr | ⟨hxr, rfl⟩
      · exact ⟨(mem_sentRefs_of_sent (s := s) rfl).2 (.inl (h.resend_sent r hr).1),
          (h.resend_sent r hr).2⟩
      · exact ⟨(mem_sentRefs_of_sent (s := s) rfl).2 (.inr (by rfl)), P, by rw [← hxr, hb]; exact hP, hxP⟩
    resend_kept := fun id p' i hp' hi hun hs => by
      rcases (mem_sentRefs_of_sent (s := s) rfl).1 hs with hs | hs
      · exact (hR _).2 (.inl (h.resend_kept id p' i hp' hi hun hs))
      · obtain ⟨p0, h0, hid, -⟩ := h.owned id p' true hp'
        have hPb := h.admitted_eq h0 hP (by
          rw [hid, ← (mem_fragmentsOf.1 hxP).1]
          exact congrArg FragmentRef.packet hs)
        exact (hR _).2 (.inr ⟨hb.trans (congrArg Prod.snd hPb).symm, hs⟩)
    acked_sent := fun id p' b i hp' hack =>
      (mem_sentRefs_of_sent (s := s) rfl).2 (.inl (h.acked_sent id p' b i hp' hack))
    frames_sent := fun r hr => (mem_sentRefs_of_sent (s := s) rfl).2 (by
      rcases frameRefs_push w random hp r hr with hr | rfl
      · exact .inl (h.frames_sent r hr)
      · exact .inr (fragmentRef_of_live hl)) }

/-- Admitting a packet into an empty pending queue keeps the invariant: the new packet
has the next sequence ID, no fragment of it is sent or acknowledged, and its fragments
are queued in order. -/
theorem record_refillNext (h : Lifecycle s) {p : PendingPacket} {b : Bool} {ps : PacketSender}
    (hq : s.emit.pendingQueue = [])
    (hp : s.emit.packetSender.emitPacket s.call.flushId = (some (p, b), ps)) :
    Lifecycle (s.record (.pending, { s.emit with packetSender := ps, pendingQueue := pendingEntries p b })) := by
  set n := s.emit.packetSender.nextId
  obtain ⟨hseq, hack, hwin, hnext, hadm⟩ : p.sequenceId = n ∧ (∀ i, p.fragmentAcknowledged i = false) ∧
      (∀ id e, ps.window id = some e → id = n ∧ e = (p, b) ∨ id < n ∧ s.emit.packetSender.window id = some e) ∧
      ps.nextId = n + 1 ∧ admissions s.emit.packetSender ps = [(p, b)] := by
    rcases PacketSender.emitPacket_cases s.emit.packetSender s.call.flushId with ⟨hn, -⟩ | ⟨q, qs, he⟩
    · simp [hp] at hn
    rw [hp, Prod.mk.injEq, Option.some.injEq, Prod.mk.injEq] at he
    obtain ⟨⟨rfl, rfl⟩, rfl⟩ := he
    exact ⟨rfl, by simp, fun _ _ => PacketSender.admitQueued_window, rfl, admissions_admitQueued _ _ _⟩
  rw [record_of_refill, hadm]
  have hsub : ∀ r ∈ s.admittedRefs, r ∈ (s.admitted ++ [(p, b)]).flatMap (fragmentsOf ·.1) := by
    intro r hr
    rw [List.flatMap_append]
    exact List.mem_append_left _ hr
  have hsent : ∀ id i, (⟨id, i⟩ : FragmentRef) ∈ s.sentRefs → id < n := fun id i hs =>
    h.admittedRefs_lt (h.sent_admitted _ hs)
  exact {
    admitted_nodup := by
      rw [List.map_append, List.nodup_append]
      refine ⟨h.admitted_nodup, List.nodup_singleton _, fun a ha ha' => ?_⟩
      obtain ⟨pb, hpb, rfl⟩ := List.mem_map.1 ha
      have : pb.1.sequenceId < n := h.admitted_lt pb hpb
      simp [hseq] at ha'
      omega
    admitted_lt := by
      intro pb hpb
      rcases List.mem_append.1 hpb with hpb | hpb
      · have : pb.1.sequenceId < n := h.admitted_lt pb hpb
        show _ < ps.nextId
        omega
      · rw [List.mem_singleton.1 hpb, hnext, hseq]
        exact Nat.lt_succ_self n
    owned := fun id p' b' hw => by
      rcases hwin id _ hw with ⟨rfl, he⟩ | ⟨-, hw⟩
      · cases he
        exact ⟨p, List.mem_append_right _ (List.mem_singleton_self _), hseq, rfl⟩
      · obtain ⟨p0, h0, hid, hfr⟩ := h.owned id p' b' hw
        exact ⟨p0, List.mem_append_left _ h0, hid, hfr⟩
    pending := fun _ => ⟨p, b, 0, by simp, by simp [hseq, hnext], rfl⟩
    firsts := by
      have h0 := h.firsts
      rw [pendingRefs, hq, List.map_nil, List.append_nil] at h0
      show s.firstSent ++ (pendingEntries p b).map (·.fragmentRef) =
        (s.admitted ++ [(p, b)]).flatMap (fragmentsOf ·.1)
      rw [pendingEntries_fragmentRef, List.flatMap_append, h0]
      simp [admittedRefs]
    sent_admitted := fun r hr => hsub r (h.sent_admitted r hr)
    pending_unsent := fun r hr hs => by
      have hr : r ∈ fragmentsOf p := by rwa [← pendingEntries_fragmentRef p b]
      have := h.admittedRefs_lt (h.sent_admitted r hs)
      rw [(mem_fragmentsOf.1 hr).1, hseq] at this
      exact Nat.lt_irrefl n this
    resend_nodup := h.resend_nodup
    resend_sent := fun r hr => by
      obtain ⟨hs, P, hP, hr⟩ := h.resend_sent r hr
      exact ⟨hs, P, List.mem_append_left _ hP, hr⟩
    resend_kept := fun id p' i hw hi hun hs => by
      rcases hwin id _ hw with ⟨rfl, -⟩ | ⟨-, hw⟩
      · exact absurd (hsent _ i hs) (Nat.lt_irrefl n)
      · exact h.resend_kept id p' i hw hi hun hs
    acked_sent := fun id p' b' i hw hi => by
      rcases hwin id _ hw with ⟨rfl, he⟩ | ⟨-, hw⟩
      · cases he
        simp [hack i] at hi
      · exact h.acked_sent id p' b' i hw hi
    frames_sent := h.frames_sent }

/-- **Every turn of a call keeps the invariant.** -/
theorem turn (h : Lifecycle s) (hl : s.loop ≠ .done) : Lifecycle (s.turn w random) := by
  obtain ⟨l, e, c, adm, sent, cs⟩ := s
  have ht := step_turn w random c.nowMs c.rttMs c.flushId l e hl
  unfold Endpoint.turn
  generalize step w random c.nowMs c.rttMs c.flushId l e = r at ht ⊢
  cases ht with
  | resendEmpty => exact h.record_quiet _ rfl rfl rfl rfl
  | resendStale hx hst => exact h.record_pop _ fun y hy => Option.some.inj (hx.symm.trans hy) ▸ hst
  | resendWait => exact h.record_quiet _ rfl rfl rfl rfl
  | resendFail _ _ _ hp =>
    exact h.record_quiet _ rfl rfl (committed_push_error w random hp) (frameRefs_push_error w random hp)
  | resendSent hx hlive _ hp => exact h.record_resendSent w random rfl hx hlive hp
  | refillNext hq hp => exact h.record_refillNext hq hp
  | refillDone hq hp =>
    rcases PacketSender.emitPacket_cases e.packetSender c.flushId with ⟨-, hw, hn, -⟩ | ⟨q, qs, he⟩
    · rw [hp] at hw hn
      exact h.record_quiet _ hw hn (committed_flush w _) (frameRefs_flush w _)
    · rw [hp] at he
      cases he
  | refillHeld => exact h.record_quiet _ rfl rfl rfl rfl
  | pendingEmpty => exact h.record_quiet _ rfl rfl rfl rfl
  | pendingStale hx hst =>
    exact h.record_pop _ fun y hy => h.resend_stale_of_pending_stale hx hst y
      (by rw [ResendQueue.entries_of_peek hy]; exact List.mem_cons_self _ _)
  | pendingFail _ _ hp =>
    exact h.record_quiet _ rfl rfl (committed_push_error w random hp) (frameRefs_push_error w random hp)
  | pendingSent hx hlive hp => exact h.record_pendingSent w random rfl hx hlive hp

/-- **A turn drops a resend entry only when it is stale or resent.**  An entry that a turn
takes out of the resend queue is one whose packet is gone or whose fragment is
acknowledged (lines 174-176, 193-195, and lines 220 and 235, which pop only stale entries
by `resend_stale_of_pending_stale`), or the head the turn resent, rescheduled in its
place (lines 183-192). -/
theorem resend_removed (h : Lifecycle s) (hl : s.loop ≠ .done) {y : ResendEntry}
    (hy : y ∈ s.emit.resendQueue.entries) (hy' : y ∉ (s.turn w random).emit.resendQueue.entries) :
    Stale s.emit.packetSender y.fragmentRef ∨
      (s.turn w random).sent = s.sent ++ [⟨.resend y, s.call.nowMs, s.call.rttMs⟩] ∧
        reschedule s.call.nowMs s.call.rttMs y ∈ (s.turn w random).emit.resendQueue.entries := by
  obtain ⟨l, e, c, adm, sent, cs⟩ := s
  have ht := step_turn w random c.nowMs c.rttMs c.flushId l e hl
  unfold Endpoint.turn at hy' ⊢
  generalize step w random c.nowMs c.rttMs c.flushId l e = r at ht hy' ⊢
  have hpop : ∀ {x : ResendEntry}, e.resendQueue.peek = some x → y ∉ e.resendQueue.entries.tail →
      y = x := by
    intro x hx hyt
    rw [ResendQueue.entries_of_peek hx] at hy
    exact (List.mem_cons.1 hy).resolve_right hyt
  cases ht with
  | resendStale hx hst => exact .inl (hpop hx hy' ▸ hst)
  | resendSent hx _ _ hp =>
    obtain rfl := hpop hx fun hyt => hy' (by simp [record, hyt])
    exact .inr ⟨by rw [record_of_resend rfl hx (committed_push_ok w random hp)], by simp [record]⟩
  | pendingStale hx hst => exact .inl (h.resend_stale_of_pending_stale hx hst y hy)
  | pendingSent =>
    refine absurd ?_ hy'
    simp only [record]
    split
    · simp [hy]
    · exact hy
  | _ => exact absurd hy hy'

end Turns

/-- **The lifecycle invariant holds in every state an endpoint reaches.** -/
theorem reachable {w : Wire} {random : Nat → Bool} {s : Endpoint} (hs : Reachable w random s) :
    Lifecycle s := by
  induction hs with
  | init => exact Lifecycle.init _ _ _ _ _
  | input i _ _ ih => exact ih.input i
  | turn _ hl ih => exact ih.turn w random hl

end Lifecycle

section Law

variable (w : Wire) (random : Nat → Bool)

/-- **The fragment lifecycle.**  In every state an endpoint reaches (at the head of every
loop of `emit_data_frames`, at its return, and between calls, whatever the inputs in
between): a live, unacknowledged fragment of a packet to be resent has exactly one entry
across the pending and resend queues, a pending one exactly while it has never been sent;
no fragment of a packet admitted not to be resent is in the resend queue; and a turn takes
an entry out of the resend queue only when it is stale or when the turn resent it and
queued its rescheduled successor. -/
theorem fragment_lifecycle {s : Endpoint} (hs : Reachable w random s) :
    (∀ id p i, s.emit.packetSender.window id = some (p, true) → i ≤ p.lastFragmentId →
        p.fragmentAcknowledged i = false →
        s.pendingRefs.count ⟨id, i⟩ + s.resendRefs.count ⟨id, i⟩ = 1 ∧
          (⟨id, i⟩ ∈ s.pendingRefs ↔ ⟨id, i⟩ ∉ s.sentRefs)) ∧
      (∀ p, (p, false) ∈ s.admitted → ∀ r ∈ fragmentsOf p, r ∉ s.resendRefs) ∧
      (s.loop ≠ .done → ∀ y ∈ s.emit.resendQueue.entries,
        y ∉ (s.turn w random).emit.resendQueue.entries →
        Stale s.emit.packetSender y.fragmentRef ∨
          (s.turn w random).sent = s.sent ++ [⟨.resend y, s.call.nowMs, s.call.rttMs⟩] ∧
            reschedule s.call.nowMs s.call.rttMs y ∈ (s.turn w random).emit.resendQueue.entries) :=
  have h := Lifecycle.reachable hs
  ⟨fun _ _ _ => h.resend_exactly_once, fun _ hp _ => h.unreliable_not_resent hp,
    fun hl _ => h.resend_removed w random hl⟩

end Law

/-- An endpoint of `tinyWire` that has queued one three-byte packet to be resent and
admitted it in the first two turns of a call. -/
def oneAdmitted : Endpoint :=
  (turn tinyWire (fun _ => false))^[2]
    (((Endpoint.init 16 20 0 0 8).input (.enqueue ⟨[1, 2, 3], 0, 0, 0, .resend, 0⟩)).input
      (.flush ⟨0, 100, 10000, 0⟩))

theorem reachable_oneAdmitted : Reachable tinyWire (fun _ => false) oneAdmitted :=
  .turn (.turn (.input _ (.input _ (.init 16 20 0 0 8) rfl) rfl) (by decide)) (by decide)

theorem fragment_lifecycle_oneAdmitted :
    Reachable tinyWire (fun _ => false) oneAdmitted ∧
      oneAdmitted.pendingRefs.count ⟨0, 0⟩ + oneAdmitted.resendRefs.count ⟨0, 0⟩ = 1 :=
  ⟨reachable_oneAdmitted, ((fragment_lifecycle tinyWire (fun _ => false) reachable_oneAdmitted).1 0
    (QueuedPacket.toPendingPacket 20 0 ⟨[1, 2, 3], 0, 0, 0, .resend, 0⟩) 0 (by decide) (by decide)
    (by decide)).1⟩

end DatenMeister
end Porous
