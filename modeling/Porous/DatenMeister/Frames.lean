import Porous.DatenMeister.Packing

/-!
# The frames a run of pushes hands over

A client of `DataFrameEmitter`, such as `FrameEmitter::emit_data_frames`, calls `push`
until one fails or it has nothing left to send, then returns, calling `flush` first in
the second case.  `pushAll` is such a run and `acceptedCalls` the calls of it that
returned `Ok`.  By `pushAll_packed` the frames the callback is handed, the slots the
frame queue registers and the bytes charged are those of the greedy first-fit chunking
of the accepted calls:

* `frames_eq_greedyChunks`: the frames are the greedy chunking, and a run stopped by an
  `Err` leaves no in-progress frame behind;
* `pushAll_registered`: frames and registrations correspond one to one, in order, under
  consecutive frame IDs from the queue's `next_id`, with the same length and nonce, and
  the registered fragment references are the persistent calls of the frame
  (`frames_registered` lifts it to a whole call of `emit_data_frames`);
* `budgeted_pushAll`: the accounting of the budget, with no subtraction that could
  underflow (`Budgeted`).
-/

namespace Porous
namespace DatenMeister

open DataFrameEmitter

section Run

variable (w : Wire) (random : Nat → Bool)

/-- A run of `push` calls that stops at the first `Err`. -/
def pushAll (dfe : DataFrameEmitter) : List PushCall → DataFrameEmitter × Except EmitError Unit
  | [] => (dfe, .ok ())
  | c :: cs =>
    match push w random dfe c.packet c.fragmentId c.persistent with
    | (dfe', .ok ()) => pushAll dfe' cs
    | r => r

/-- The calls of such a run whose `push` returned `Ok`: all of them up to the first `Err`. -/
def acceptedCalls (dfe : DataFrameEmitter) : List PushCall → List PushCall
  | [] => []
  | c :: cs =>
    match push w random dfe c.packet c.fragmentId c.persistent with
    | (dfe', .ok ()) => c :: acceptedCalls dfe' cs
    | _ => []

variable (now : Nat) (fq : FrameQueue) (max : Nat)

theorem markRateLimited_inProgressFrame (dfe : DataFrameEmitter) :
    (markRateLimited dfe).inProgressFrame = dfe.inProgressFrame := rfl

theorem packed_inProgressFrame_nil (chunks : List (List PushCall)) :
    (packed w random now fq max (chunks, [])).inProgressFrame = none := rfl

/-- **A run of pushes, flushed.**  Whatever the calls, once the run stops and the emitter
is flushed, its state is the packing of the calls that were accepted, with every chunk
closed; only the rate-limited flag depends on how the run stopped.  A run that stops on
an `Err` has no in-progress frame left. -/
theorem pushAll_packed {s : List (List PushCall) × List PushCall} (hs : Within w max s)
    (cs : List PushCall) :
    (∃ b : Bool, flush w (pushAll w random (packed w random now fq max s) cs).1 =
      (if b then markRateLimited else id) (packed w random now fq max
        (closeAll ((acceptedCalls w random (packed w random now fq max s) cs).foldl (firstFit w) s),
          []))) ∧
    ((pushAll w random (packed w random now fq max s) cs).2 ≠ .ok () →
      (pushAll w random (packed w random now fq max s) cs).1.inProgressFrame = none) ∧
    Within w max ((acceptedCalls w random (packed w random now fq max s) cs).foldl (firstFit w) s) := by
  induction cs generalizing s with
  | nil => exact ⟨⟨false, by simp [pushAll, acceptedCalls, flush_packed]⟩, by simp [pushAll], hs⟩
  | cons c cs ih =>
    rcases push_packed w random now fq max hs c with ⟨hpush, hs'⟩ | ⟨e, b, hpush⟩
    · simpa [pushAll, acceptedCalls, hpush] using ih hs'
    · have hnone : ((if b then markRateLimited else id)
          (packed w random now fq max (closeAll s, []))).inProgressFrame = none := by
        cases b <;> rfl
      refine ⟨⟨b, ?_⟩, fun _ => ?_, by simpa [acceptedCalls, hpush] using hs⟩
      · simp only [pushAll, acceptedCalls, hpush, List.foldl_nil]
        exact flush_of_inProgressFrame_none w hnone
      · simpa [pushAll, hpush] using hnone
section Errors

variable (w : Wire) (random : Nat → Bool)

theorem pushInitial_error_inProgressFrame {dfe dfe' : DataFrameEmitter} {p : PendingPacket}
    {i : Nat} {pers : Bool} {err : EmitError} (h0 : dfe.inProgressFrame = none)
    (h : pushInitial w random dfe p i pers = (dfe', .error err)) : dfe'.inProgressFrame = none := by
  unfold pushInitial at h
  split at h
  · cases h; exact h0
  · dsimp only at h
    split at h
    · cases h; exact h0
    · cases h

theorem push_error_inProgressFrame {dfe dfe' : DataFrameEmitter} {p : PendingPacket}
    {i : Nat} {pers : Bool} {err : EmitError}
    (h : push w random dfe p i pers = (dfe', .error err)) : dfe'.inProgressFrame = none := by
  unfold push at h
  split at h
  · dsimp only at h
    split at h
    · exact pushInitial_error_inProgressFrame w random (by simp [flush, *]) h
    split at h
    · cases h; simp [flush, markRateLimited, *]
    · cases h
  · exact pushInitial_error_inProgressFrame w random ‹_› h

end Errors

end Run

section Greedy

variable (w : Wire)

/-- Every chunk holds a call and fits in a frame. -/
def ChunksFit (s : List (List PushCall) × List PushCall) : Prop :=
  ∀ chunk ∈ closeAll s, chunk ≠ [] ∧ chunkSize w chunk ≤ w.maxFrameSize

theorem chunksFit_firstFit {s : List (List PushCall) × List PushCall} (hs : ChunksFit w s)
    {c : PushCall} (hfit : w.dataFrameOverhead + w.encodedSize c.datagram ≤ w.maxFrameSize) :
    ChunksFit w (firstFit w s c) := by
  have hc : chunkSize w [c] ≤ w.maxFrameSize := by
    simpa [chunkSize, Wire.frameSize_singleton] using hfit
  obtain ⟨closed, cur⟩ := s
  by_cases hcur : cur = []
  · subst hcur
    intro chunk h
    simp only [firstFit, if_true, closeAll, List.cons_ne_nil, if_false, List.mem_append,
      List.mem_singleton] at h
    rcases h with h | rfl
    · exact hs chunk (by simpa [closeAll] using h)
    · exact ⟨List.cons_ne_nil _ _, hc⟩
  rw [ChunksFit, closeAll_of_ne (s := (closed, cur)) hcur] at hs
  intro chunk h
  simp only [firstFit, hcur, if_false] at h
  split_ifs at h with hmax
  · simp only [closeAll, List.cons_ne_nil, if_false, List.mem_append, List.mem_singleton] at h
    rcases h with (h | rfl) | rfl
    · exact hs chunk (List.mem_append_left _ h)
    · exact hs chunk (by simp)
    · exact ⟨List.cons_ne_nil _ _, hc⟩
  · simp only [closeAll, List.append_eq_nil, List.cons_ne_nil, and_false, if_false,
      List.mem_append, List.mem_singleton] at h
    rcases h with h | rfl
    · exact hs chunk (List.mem_append_left _ h)
    · refine ⟨by simp, ?_⟩
      simp only [chunkSize, List.map_append, List.map_cons, List.map_nil,
        Wire.frameSize_append_singleton] at hmax ⊢
      exact Nat.le_of_not_lt hmax

theorem chunksFit_foldl {s : List (List PushCall) × List PushCall} (hs : ChunksFit w s)
    {cs : List PushCall}
    (hcs : ∀ c ∈ cs, w.dataFrameOverhead + w.encodedSize c.datagram ≤ w.maxFrameSize) :
    ChunksFit w (cs.foldl (firstFit w) s) := by
  induction cs generalizing s with
  | nil => exact hs
  | cons c cs ih =>
    exact ih (chunksFit_firstFit w hs (hcs c (List.mem_cons_self _ _)))
      fun c' h => hcs c' (List.mem_cons_of_mem _ h)

end Greedy

section Frames

variable (w : Wire) (random : Nat → Bool)

/-- A registered slot agrees with a frame: same frame ID, the frame's length, the flush's
time and the frame's nonce. -/
def Registered (now : Nat) (f : DataFrame) (e : FrameEntry) : Prop :=
  e.frameId = f.sequenceId ∧ e.size = f.len w ∧ e.sentMs = now ∧ e.nonce = f.nonce

@[simp] theorem framesFrom_length (id : Nat) (chunks : List (List PushCall)) :
    (framesFrom random id chunks).length = chunks.length := by
  induction chunks generalizing id <;> simp_all [framesFrom]

theorem framesFrom_datagrams (id : Nat) (chunks : List (List PushCall)) :
    (framesFrom random id chunks).map DataFrame.datagrams =
      chunks.map (List.map PushCall.datagram) := by
  induction chunks generalizing id <;> simp_all [framesFrom, frameOf]

theorem framesFrom_sequenceId (id : Nat) (chunks : List (List PushCall)) :
    (framesFrom random id chunks).map DataFrame.sequenceId = List.range' id chunks.length := by
  induction chunks generalizing id <;> simp_all [framesFrom, frameOf, List.range'_succ]

theorem slotsFrom_registered (now id : Nat) (chunks : List (List PushCall)) :
    List.Forall₂ (Registered w now) (framesFrom random id chunks)
      (slotsFrom w random now id chunks) := by
  induction chunks generalizing id with
  | nil => exact .nil
  | cons chunk chunks ih =>
    exact .cons ⟨rfl, rfl, rfl, rfl⟩ (ih (id + 1))

theorem slotsFrom_fragmentRefs (now id : Nat) (chunks : List (List PushCall)) :
    (slotsFrom w random now id chunks).map FrameEntry.fragmentRefs =
      chunks.map (·.flatMap PushCall.refs) := by
  induction chunks generalizing id <;> simp_all [slotsFrom, slotOf]

end Frames

section Laws

variable (w : Wire) (random : Nat → Bool) (now : Nat) (fq : FrameQueue) (max : Nat)

theorem pushAll_ok {s : List (List PushCall) × List PushCall} (hs : Within w max s)
    {cs : List PushCall} (h : (pushAll w random (packed w random now fq max s) cs).2 = .ok ()) :
    (pushAll w random (packed w random now fq max s) cs).1 =
        packed w random now fq max (cs.foldl (firstFit w) s) ∧
      Within w max (cs.foldl (firstFit w) s) := by
  induction cs generalizing s with
  | nil => exact ⟨rfl, hs⟩
  | cons c cs ih =>
    rcases push_packed w random now fq max hs c with ⟨hpush, hs'⟩ | ⟨e, b, hpush⟩
    · simp only [pushAll, hpush] at h ⊢
      exact ih hs' h
    · simp [pushAll, hpush] at h

theorem pushAll_append_singleton {dfe dfe' : DataFrameEmitter} {cs : List PushCall}
    (h : pushAll w random dfe cs = (dfe', .ok ())) (c : PushCall) :
    pushAll w random dfe (cs ++ [c]) = push w random dfe' c.packet c.fragmentId c.persistent := by
  induction cs generalizing dfe with
  | nil =>
    cases h
    simp only [List.nil_append, pushAll]
    split <;> simp_all [pushAll]
  | cons c' cs ih =>
    rcases hp : push w random dfe c'.packet c'.fragmentId c'.persistent with ⟨d, r⟩
    cases r with
    | error e => simp [pushAll, hp] at h
    | ok u => simpa [pushAll, hp] using ih (by simpa [pushAll, hp] using h)

/-- The budget accounting of an emitter (`DataFrameEmitter`, lines 123-138): the frames
handed over and the bytes left add up to the budget, so `total_size` does not
underflow; the in-progress frame holds a datagram and fits both in what is left, so
`flush` does not underflow, and in a frame; every frame handed over holds a datagram
and fits in a frame. -/
structure Budgeted (dfe : DataFrameEmitter) : Prop where
  accounted : (dfe.emitted.map (DataFrame.len w)).sum + dfe.bytesRemaining = dfe.maxSendSize
  inProgress : ∀ f, dfe.inProgressFrame = some f → f.fbuilder.datagrams ≠ [] ∧
    f.fbuilder.size w ≤ dfe.bytesRemaining ∧ f.fbuilder.size w ≤ w.maxFrameSize
  emitted : ∀ f ∈ dfe.emitted, f.datagrams ≠ [] ∧ f.len w ≤ w.maxFrameSize

theorem framesFrom_len (id : Nat) (chunks : List (List PushCall)) :
    (framesFrom random id chunks).map (DataFrame.len w) = chunks.map (chunkSize w) := by
  induction chunks generalizing id <;> simp_all [framesFrom, frameOf, DataFrame.len, chunkSize]

theorem mem_framesFrom {id : Nat} {chunks : List (List PushCall)} {f : DataFrame}
    (h : f ∈ framesFrom random id chunks) : ∃ chunk ∈ chunks, ∃ i, f = frameOf random i chunk := by
  induction chunks generalizing id with
  | nil => cases h
  | cons chunk chunks ih =>
    rcases List.mem_cons.1 h with rfl | h
    · exact ⟨chunk, List.mem_cons_self _ _, id, rfl⟩
    · obtain ⟨c, hc, i, rfl⟩ := ih h
      exact ⟨c, List.mem_cons_of_mem _ hc, i, rfl⟩

theorem budgeted_packed {s : List (List PushCall) × List PushCall} (hs : Within w max s)
    (hfit : ChunksFit w s) : Budgeted w (packed w random now fq max s) := by
  obtain ⟨closed, cur⟩ := s
  have hclosed : (closed.map (chunkSize w)).sum + (if cur = [] then 0 else chunkSize w cur) ≤ max := by
    by_cases hcur : cur = [] <;> simpa [Within, closeAll, hcur] using hs
  refine ⟨?_, fun f hf => ?_, fun f hf => ?_⟩
  · have : (closed.map (chunkSize w)).sum ≤ max := by split_ifs at hclosed <;> omega
    simp [packed, framesFrom_len]
    omega
  · simp only [packed, openFrame] at hf
    split_ifs at hf with hcur
    cases hf
    have hfc := hfit cur (by simp [closeAll, hcur])
    simp only [hcur, if_false] at hclosed
    refine ⟨by simpa using hfc.1, ?_, hfc.2⟩
    simp only [DataFrameBuilder.size, packed]
    change chunkSize w cur ≤ _
    omega
  · obtain ⟨chunk, hchunk, i, rfl⟩ := mem_framesFrom random (by simpa [packed] using hf)
    have := hfit chunk (by by_cases hcur : cur = [] <;> simp [closeAll, hcur, hchunk])
    exact ⟨by simpa [frameOf] using this.1, this.2⟩

theorem budgeted_markRateLimited {dfe : DataFrameEmitter} (h : Budgeted w dfe) :
    Budgeted w (markRateLimited dfe) := ⟨h.accounted, h.inProgress, h.emitted⟩

theorem acceptedCalls_isPrefix (dfe : DataFrameEmitter) (cs : List PushCall) :
    acceptedCalls w random dfe cs <+: cs := by
  induction cs generalizing dfe with
  | nil => exact List.prefix_refl _
  | cons c cs ih =>
    simp only [acceptedCalls]
    split
    · exact List.cons_prefix_cons.2 ⟨rfl, ih _⟩
    · exact List.nil_prefix

/-- Every state of a run of pushes keeps the budget accounting, and so does its flush,
when every datagram pushed fits alone in a frame. -/
theorem budgeted_pushAll {calls : List PushCall}
    (hcalls : ∀ c ∈ calls, w.dataFrameOverhead + w.encodedSize c.datagram ≤ w.maxFrameSize) :
    Budgeted w (pushAll w random (new now fq max) calls).1 ∧
      Budgeted w (flush w (pushAll w random (new now fq max) calls).1) := by
  have h0 : Within w max ([], []) := by simp [Within]
  have hf0 : ChunksFit w ([], []) := by simp [ChunksFit, closeAll]
  rw [new_eq_packed w random]
  obtain ⟨⟨b, hb⟩, herr, hacc⟩ := pushAll_packed w random now fq max h0 calls
  have hfit := chunksFit_foldl w hf0
    (fun c h => hcalls c
      ((acceptedCalls_isPrefix w random (packed w random now fq max ([], [])) calls).subset h))
  have hflush : Budgeted w (flush w (pushAll w random (packed w random now fq max ([], [])) calls).1) := by
    have := budgeted_packed w random now fq max
      (s := (closeAll ((acceptedCalls w random (packed w random now fq max ([], [])) calls).foldl
        (firstFit w) ([], [])), [])) (by simpa [Within] using hacc)
      (by simpa [ChunksFit] using hfit)
    rw [hb]
    cases b
    · exact this
    · exact budgeted_markRateLimited w this
  refine ⟨?_, hflush⟩
  by_cases hok : (pushAll w random (packed w random now fq max ([], [])) calls).2 = .ok ()
  · obtain ⟨heq, hs⟩ := pushAll_ok w random now fq max h0 hok
    rw [heq]
    exact budgeted_packed w random now fq max hs (chunksFit_foldl w hf0 hcalls)
  · rwa [flush_of_inProgressFrame_none w (herr hok)] at hflush

/-- **Greedy packing.**  Any run of `push` calls, stopped at the first `Err` and
followed by `flush`, hands the callback exactly the greedy first-fit chunking, in order,
of the datagrams whose `push` returned `Ok`: a frame is closed before an accepted
datagram only when that datagram would take it past `MAX_FRAME_SIZE`.  A run stopped by
an `Err` has no in-progress frame left, so returning without the final `flush` drops no
accepted datagram. -/
theorem frames_eq_greedyChunks (calls : List PushCall) :
    (flush w (pushAll w random (new now fq max) calls).1).emitted.map DataFrame.datagrams =
        (greedyChunks w (acceptedCalls w random (new now fq max) calls)).map
          (List.map PushCall.datagram) ∧
      ((pushAll w random (new now fq max) calls).2 ≠ .ok () →
        (pushAll w random (new now fq max) calls).1.inProgressFrame = none) := by
  rw [new_eq_packed w random]
  obtain ⟨⟨b, hb⟩, herr, -⟩ := pushAll_packed w random now fq max (s := ([], []))
    (by simp [Within]) calls
  refine ⟨?_, herr⟩
  rw [hb]
  cases b <;> simp [packed, markRateLimited, framesFrom_datagrams, greedyChunks]

/-- **A run of pushes, flushed, registers every frame it hands over.**  After any run of `push` calls stopped at the first `Err` and followed by `flush`, the frame
queue has gained one slot per frame handed to the callback, in the same order: the
frames carry consecutive IDs from the queue's `next_id`, each slot has its frame's ID,
length and nonce and the flush's time, and its fragment references are those of the
frame's datagrams pushed with `persistent`, in datagram order.  Every ID drawn has been
registered, and a run stopped by an `Err` holds no frame back. -/
theorem pushAll_registered (calls : List PushCall) :
    let dfe := flush w (pushAll w random (new now fq max) calls).1
    let chunks := greedyChunks w (acceptedCalls w random (new now fq max) calls)
    ∃ regs, dfe.frameQueue.entries = fq.entries ++ regs ∧
      List.Forall₂ (Registered w now) dfe.emitted regs ∧
      dfe.emitted.map DataFrame.sequenceId = List.range' fq.nextId dfe.emitted.length ∧
      dfe.frameQueue.nextId = fq.nextId + dfe.emitted.length ∧
      regs.map FrameEntry.fragmentRefs = chunks.map (·.flatMap PushCall.refs) ∧
      dfe.emitted.map DataFrame.datagrams = chunks.map (List.map PushCall.datagram) ∧
      ((pushAll w random (new now fq max) calls).2 ≠ .ok () →
        (pushAll w random (new now fq max) calls).1.inProgressFrame = none) := by
  intro dfe chunks
  obtain ⟨⟨b, hb⟩, herr, -⟩ := pushAll_packed w random now fq max (s := ([], []))
    (by simp [Within]) calls
  rw [← new_eq_packed w random] at hb herr
  refine ⟨slotsFrom w random now fq.nextId chunks, ?_⟩
  simp only [dfe, chunks, hb, greedyChunks]
  cases b <;> simpa [packed, markRateLimited, framesFrom_datagrams, framesFrom_sequenceId,
    slotsFrom_fragmentRefs, slotsFrom_registered] using herr

end Laws

end DatenMeister
end Porous
