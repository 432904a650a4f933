import Mathlib

/-!
# Datagrams and data frames on the wire

`crate::frame` (`Datagram`, `FragmentId`, `DataFrame`) as `emit_frame.rs` builds them.
The serialisation itself, `crate::frame::serial`, is not part of
`src/endpoint/daten_meister/emit_frame.rs`: the emitter only reads three numbers from
it, `MAX_FRAME_SIZE`, `DATA_FRAME_OVERHEAD` and `DataFrameBuilder::encoded_size_ref`, so
those are the parameters `Wire` collects, and a frame is kept in its decoded form.  A
built frame is as long as its builder says (`DataFrameBuilder::size`): the overhead
plus the encoded size of each datagram.  Ack frames are kept the same way: `AckWire`
holds the size of an empty ack frame and `AckFrameBuilder::encoded_size`, and an
`AckFrame` is as long as `AckWire.frameSize` of its acknowledgements.
-/

namespace Porous

/-- Modelled from the spec: `frame::FragmentId`, the index of a fragment and the index of
the last fragment of its packet. -/
structure FragmentId where
  id : Nat
  last : Nat
deriving DecidableEq, Repr

/-- Modelled from the spec: `frame::Datagram`, one fragment of one packet, as a data
frame carries it. -/
structure Datagram where
  sequenceId : Nat
  channelId : Nat
  windowParentLead : Nat
  channelParentLead : Nat
  fragmentId : FragmentId
  data : List UInt8
deriving DecidableEq, Repr

/-- Modelled from the spec: `frame::DataFrame`, what `Frame::read` gives back for the
bytes of a data frame. -/
structure DataFrame where
  sequenceId : Nat
  nonce : Bool
  datagrams : List Datagram
deriving DecidableEq, Repr

/-- Modelled from the spec: `frame::AckGroup`, a frame acknowledgement, the frame IDs
from `base_id` that the bits of `bitfield` name, and the exclusive or of their nonces. -/
structure AckGroup where
  baseId : Nat
  bitfield : Nat
  nonce : Bool
deriving DecidableEq, Repr

/-- Modelled from the spec: the wire constants `emit_frame.rs` takes from `crate` and
`crate::frame::serial`: `MAX_FRAME_SIZE`, `DATA_FRAME_OVERHEAD` and the encoded size of a
datagram (`DataFrameBuilder::encoded_size_ref`). -/
structure Wire where
  maxFrameSize : Nat
  dataFrameOverhead : Nat
  encodedSize : Datagram → Nat

namespace Wire

variable (w : Wire)

/-- Modelled from the spec: the byte length of a data frame holding `datagrams`,
`DataFrameBuilder::size`. -/
def frameSize (datagrams : List Datagram) : Nat :=
  w.dataFrameOverhead + (datagrams.map w.encodedSize).sum

@[simp] theorem frameSize_nil : w.frameSize [] = w.dataFrameOverhead := by
  simp [frameSize]

@[simp] theorem frameSize_append_singleton (ds : List Datagram) (d : Datagram) :
    w.frameSize (ds ++ [d]) = w.frameSize ds + w.encodedSize d := by
  simp [frameSize, Nat.add_assoc]

theorem frameSize_singleton (d : Datagram) :
    w.frameSize [d] = w.dataFrameOverhead + w.encodedSize d := by
  simp [frameSize]

/-- A datagram carrying at most `maxFragmentSize` bytes fits alone in a frame: the
`debug_assert!` of `push_initial` (`potential_frame_size <= MAX_FRAME_SIZE`) for every
fragment a packet sender cutting at `MAX_FRAGMENT_SIZE` makes. -/
def Fits (maxFragmentSize : Nat) : Prop :=
  ∀ d : Datagram, d.data.length ≤ maxFragmentSize →
    w.dataFrameOverhead + w.encodedSize d ≤ w.maxFrameSize

end Wire

/-- The frame a data frame's bytes decode to, and their length. -/
def DataFrame.len (w : Wire) (f : DataFrame) : Nat := w.frameSize f.datagrams

/-- Modelled from the spec: `frame::AckFrame`, what `Frame::read` gives back for the bytes
of an ack frame, the two window base IDs and the frame acknowledgements. -/
structure AckFrame where
  frameWindowBaseId : Nat
  packetWindowBaseId : Nat
  frameAcks : List AckGroup
deriving DecidableEq, Repr

/-- Modelled from the spec: the sizes `emit_ack_frames` reads from
`crate::frame::serial`, the size of an `AckFrameBuilder` with no acknowledgement and
`AckFrameBuilder::encoded_size` of an ack group.  An ack frame carries the two window
base IDs even when it acknowledges nothing, so an empty one takes bytes. -/
structure AckWire where
  ackFrameOverhead : Nat
  encodedSize : AckGroup → Nat
  ackFrameOverhead_pos : 0 < ackFrameOverhead

/-- The byte length of an ack frame holding `frameAcks`: `AckFrameBuilder::size`. -/
def AckWire.frameSize (aw : AckWire) (frameAcks : List AckGroup) : Nat :=
  aw.ackFrameOverhead + (frameAcks.map aw.encodedSize).sum

@[simp] theorem AckWire.frameSize_nil (aw : AckWire) : aw.frameSize [] = aw.ackFrameOverhead := by
  simp [AckWire.frameSize]

@[simp] theorem AckWire.frameSize_append_singleton (aw : AckWire) (as : List AckGroup) (a : AckGroup) :
    aw.frameSize (as ++ [a]) = aw.frameSize as + aw.encodedSize a := by
  simp [AckWire.frameSize, Nat.add_assoc]

theorem AckWire.ackFrameOverhead_le_frameSize (aw : AckWire) (as : List AckGroup) :
    aw.ackFrameOverhead ≤ aw.frameSize as :=
  Nat.le_add_right _ _

/-- A frame acknowledgement fits in a frame of its own: the assumption under which the
`debug_assert!` of `emit_ack_frames` (line 295) holds. -/
def AckWire.Fits (aw : AckWire) (w : Wire) : Prop :=
  ∀ a : AckGroup, aw.ackFrameOverhead + aw.encodedSize a ≤ w.maxFrameSize

/-- The length of the bytes of an ack frame. -/
def AckFrame.len (aw : AckWire) (f : AckFrame) : Nat := aw.frameSize f.frameAcks

end Porous
