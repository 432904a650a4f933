import Porous.Frame.Datagram

/-!
# Pending packets and fragment references

`endpoint::daten_meister::pending_packet`, as `emit_frame.rs` uses it: a packet split
into fragments, with one acknowledgement bit per fragment, and a `FragmentRef` pairing a
weak reference to the packet with a fragment index.  The packet store owns the packets;
a weak reference is the packet's sequence ID, and upgrading it looks the ID up in the
store, which answers `none` once the packet has been dropped (the generation-tagged
index of the spec's design notes).  Sequence IDs are never reused.
-/

namespace Porous
namespace DatenMeister

/-- Modelled from the spec: `pending_packet::PendingPacket`. -/
structure PendingPacket where
  sequenceId : Nat
  channelId : Nat
  windowParentLead : Nat
  channelParentLead : Nat
  fragments : List (List UInt8)
  fragmentAcks : List Bool
deriving DecidableEq, Repr

/-- Modelled from the spec: `pending_packet::FragmentRef`; the weak reference is the
packet's sequence ID. -/
structure FragmentRef where
  packet : Nat
  fragmentId : Nat
deriving DecidableEq, Repr

namespace PendingPacket

variable (p : PendingPacket)

/-- Modelled from the spec: `PendingPacket::last_fragment_id`. -/
def lastFragmentId : Nat := p.fragments.length - 1

/-- Modelled from the spec: `PendingPacket::datagram`, fragment `i` as a datagram. -/
def datagram (i : Nat) : Datagram where
  sequenceId := p.sequenceId
  channelId := p.channelId
  windowParentLead := p.windowParentLead
  channelParentLead := p.channelParentLead
  fragmentId := ⟨i, p.lastFragmentId⟩
  data := p.fragments.getD i []

/-- Modelled from the spec: `PendingPacket::fragment_acknowledged`. -/
def fragmentAcknowledged (i : Nat) : Bool := p.fragmentAcks.getD i false

/-- Modelled from the spec: setting the acknowledgement bit of fragment `i`, as the frame
queue does when an ack group covers a frame that carried it. -/
def acknowledge (i : Nat) : PendingPacket := { p with fragmentAcks := p.fragmentAcks.set i true }

/-- Modelled from the spec: `FragmentRef::new(&packet_rc, i)`. -/
def fragmentRef (i : Nat) : FragmentRef := ⟨p.sequenceId, i⟩

@[simp] theorem datagram_sequenceId (i : Nat) : (p.datagram i).sequenceId = p.sequenceId := rfl

@[simp] theorem datagram_fragmentId_id (i : Nat) : (p.datagram i).fragmentId.id = i := rfl

@[simp] theorem acknowledge_sequenceId (i : Nat) : (p.acknowledge i).sequenceId = p.sequenceId :=
  rfl

@[simp] theorem acknowledge_fragments (i : Nat) : (p.acknowledge i).fragments = p.fragments := rfl

@[simp] theorem acknowledge_datagram (i j : Nat) : (p.acknowledge i).datagram j = p.datagram j :=
  rfl

/-- **An acknowledgement bit, once set, stays set.** -/
theorem fragmentAcknowledged_acknowledge {i j : Nat} (h : p.fragmentAcknowledged j = true) :
    (p.acknowledge i).fragmentAcknowledged j = true := by
  simp only [fragmentAcknowledged, acknowledge, List.getD_eq_getElem?_getD, List.getElem?_set]
    at h ⊢
  split_ifs <;> simp_all [List.getElem?_eq_none]

theorem fragmentAcknowledged_of_acknowledge {i j : Nat}
    (h : (p.acknowledge j).fragmentAcknowledged i = true) : p.fragmentAcknowledged i = true ∨ i = j := by
  simp only [fragmentAcknowledged, acknowledge, List.getD_eq_getElem?_getD, List.getElem?_set] at h ⊢
  split_ifs at h with hj
  · exact .inr hj.symm
  · simp at h
  · exact .inl h

end PendingPacket

end DatenMeister

/-- The fragment a datagram carries. -/
def Datagram.fragmentRef (d : Datagram) : DatenMeister.FragmentRef :=
  ⟨d.sequenceId, d.fragmentId.id⟩

@[simp] theorem DatenMeister.PendingPacket.datagram_fragmentRef (p : DatenMeister.PendingPacket)
    (i : Nat) : (p.datagram i).fragmentRef = p.fragmentRef i := rfl

end Porous
