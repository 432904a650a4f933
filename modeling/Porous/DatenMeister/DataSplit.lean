import Porous.DatenMeister.EmitFrame

/-!
# No data frame is closed early

Within one call of `emit_data_frames` (`src/endpoint/daten_meister/emit_frame.rs`,
lines 167-243) a data frame is flushed for three reasons: the next datagram would take
it past `MAX_FRAME_SIZE` (line 103), past the bytes left (line 106), or the call is
over (line 241).  Only the first lets the call go on, and the next frame then starts
with that datagram.  So between two consecutive frames of a call, the first datagram of
the second would not have fitted in the first (`emitDataFrames_split_full`).

The proof stays at the level of the reference packer: first-fit packing keeps
`FitSplit`, so consecutive chunks of `greedyChunks` are split full
(`greedyChunks_split_full`); `framesFrom` turns chunks into frames of the same
datagrams; and a call's data frame emitter is a run of pushes (`pushed_iterate`) whose
frames are the frames of the greedy chunks of the calls it accepted
(`pushAll_packed`).
-/

namespace Porous
namespace DatenMeister

/-- The data frame `g` follows `f` only because its first datagram would have taken `f`
past `MAX_FRAME_SIZE`. -/
def DataSplitFull (w : Wire) (f g : DataFrame) : Prop :=
  ∀ d ∈ g.datagrams.head?, w.maxFrameSize < f.len w + w.encodedSize d

section Greedy

variable (w : Wire)

/-- The chunk `b` follows `a` only because its first call would have taken `a` past
`MAX_FRAME_SIZE`. -/
def ChunkSplit (a b : List PushCall) : Prop :=
  ∀ c ∈ b.head?, w.maxFrameSize < chunkSize w a + w.encodedSize c.datagram

/-- A state of first-fit packing: the closed chunks are split full, and once a chunk is
closed the open one is not empty and was split off the last closed chunk. -/
structure FitSplit (s : List (List PushCall) × List PushCall) : Prop where
  chain : s.1.Chain' (ChunkSplit w)
  last : ∀ a ∈ s.1.getLast?, s.2 ≠ [] ∧ ChunkSplit w a s.2

variable {w}

/-- **First-fit keeps `FitSplit`**: it closes the open chunk only for a call that would
take it past `MAX_FRAME_SIZE`, and that call opens the next chunk. -/
theorem FitSplit.firstFit {s : List (List PushCall) × List PushCall} (h : FitSplit w s)
    (c : PushCall) : FitSplit w (firstFit w s c) := by
  unfold DatenMeister.firstFit
  split_ifs with h0 hm
  · refine ⟨h.chain, fun a ha => absurd h0 (h.last a ha).1⟩
  · refine ⟨?_, fun a ha => ⟨List.cons_ne_nil _ _, fun c' hc' => ?_⟩⟩
    · rw [List.chain'_append]
      exact ⟨h.chain, List.chain'_singleton _, fun a ha b hb => by
        rw [List.head?_cons, Option.mem_some_iff] at hb
        exact hb ▸ (h.last a ha).2⟩
    · rw [List.getLast?_concat, Option.mem_some_iff] at ha
      rw [List.head?_cons, Option.mem_some_iff] at hc'
      subst ha hc'
      exact hm
  · refine ⟨h.chain, fun a ha => ⟨by simp, fun c' hc' => (h.last a ha).2 c' ?_⟩⟩
    obtain ⟨x, xs, hx⟩ := List.exists_cons_of_ne_nil h0
    simpa [hx] using hc'

theorem FitSplit.closeAll {s : List (List PushCall) × List PushCall} (h : FitSplit w s) :
    (closeAll s).Chain' (ChunkSplit w) := by
  unfold DatenMeister.closeAll
  split_ifs with h0
  · exact h.chain
  · rw [List.chain'_append]
    exact ⟨h.chain, List.chain'_singleton _, fun a ha b hb => by
      rw [List.head?_cons, Option.mem_some_iff] at hb
      exact hb ▸ (h.last a ha).2⟩

variable (w)

/-- **The reference packer splits only at `MAX_FRAME_SIZE`.** -/
theorem greedyChunks_split_full (calls : List PushCall) :
    (greedyChunks w calls).Chain' (ChunkSplit w) := by
  have : ∀ s, FitSplit w s → FitSplit w (calls.foldl (firstFit w) s) := by
    induction calls with
    | nil => exact fun _ h => h
    | cons c cs ih => exact fun s h => ih _ (h.firstFit c)
  exact (this _ ⟨List.chain'_nil, by simp⟩).closeAll

variable (random : Nat → Bool)

/-- The frames of chunks split full are split full: each frame carries its chunk's
datagrams, and its length is the chunk's size. -/
theorem framesFrom_split_full {chunks : List (List PushCall)} (h : chunks.Chain' (ChunkSplit w))
    (id : Nat) : (framesFrom random id chunks).Chain' (DataSplitFull w) := by
  induction chunks generalizing id with
  | nil => exact List.chain'_nil
  | cons a chunks ih =>
    cases chunks with
    | nil => exact List.chain'_singleton _
    | cons b chunks =>
      rw [List.chain'_cons] at h
      refine List.Chain'.cons' (ih h.2 (id + 1)) fun g hg d hd => ?_
      simp only [framesFrom, List.head?_cons, Option.mem_def, Option.some.injEq] at hg
      subst hg
      simp only [frameOf, List.head?_map, Option.mem_def, Option.map_eq_some'] at hd
      obtain ⟨c, hc, rfl⟩ := hd
      exact h.1 c hc

end Greedy

open DataFrameEmitter

variable (w : Wire) (random : Nat → Bool)

/-- **No data frame is closed early.**  Whatever a call of `emit_data_frames` returns,
each frame it hands over after another starts with a datagram that would have taken the
one before past `MAX_FRAME_SIZE`: a frame flushed because the bytes left ran out is the
call's last. -/
theorem emitDataFrames_split_full {fuel nowMs rttMs maxSendSize : Nat} {fe : FrameEmitter}
    {r : Nat × List DataFrame × FrameEmitter}
    (h : emitDataFrames w random fuel nowMs rttMs maxSendSize fe = some r) :
    r.2.1.Chain' (DataSplitFull w) := by
  dsimp only [emitDataFrames] at h
  split_ifs at h with hd
  cases h
  obtain ⟨-, calls, -, hp⟩ := pushed_iterate w random nowMs rttMs fe.flushId
    (pushed_start w random nowMs fe maxSendSize) fuel
  rw [if_pos hd] at hp
  rw [hp, new_eq_packed w random]
  obtain ⟨⟨b, hb⟩, -, -⟩ := pushAll_packed w random nowMs fe.frameQueue maxSendSize
    (s := ([], [])) (by simp [Within]) calls
  rw [hb]
  have := framesFrom_split_full w random (greedyChunks_split_full w
    (acceptedCalls w random (packed w random nowMs fe.frameQueue maxSendSize ([], [])) calls))
    fe.frameQueue.nextId
  cases b <;> exact this

/-- A 40-byte packet cut into two 20-byte fragments: each fills a 40-byte frame of
`tinyWire`, so the second fragment opens the second frame. -/
theorem emitDataFrames_split_full_twoFrames :
    ∃ r, emitDataFrames tinyWire (fun _ => false) 8 0 100 100
        (freshEmitter.enqueue (List.replicate 40 0) .unreliable) = some r ∧
      r.2.1.length = 2 ∧ r.2.1.Chain' (DataSplitFull tinyWire) :=
  ⟨_, rfl, rfl, emitDataFrames_split_full tinyWire (fun _ => false)
    (show emitDataFrames tinyWire (fun _ => false) 8 0 100 100
      (freshEmitter.enqueue (List.replicate 40 0) .unreliable) = _ from rfl)⟩

end DatenMeister
end Porous
