import Porous.DatenMeister.Turn

/-!
# A larger budget sends a longer prefix

`max_send_size` enters `emit_data_frames` only through the two comparisons with
`bytes_remaining` in `push_initial` and `push` (lines 73 and 106).  Two calls from the
same state with budgets `B` and `B + k` therefore take the same turns, their emitters
differing only by `k` bytes of budget (`DataFrameEmitter.addBudget`), until the smaller
one fails a push for want of bytes and returns (`turn_addBudget`).  From then on the
larger call only adds datagrams and bytes (`turn_committed`), so what the smaller call
sent is a prefix of what the larger one sends, and it returns no more bytes
(`emitDataFrames_budget_mono`).

The arithmetic needs the budget not to be overdrawn (`DataFrameEmitter.Solvent`), which
every turn keeps: `push` and `push_initial` only open or grow a frame that fits in the
bytes left.
-/

namespace Porous
namespace DatenMeister

namespace DataFrameEmitter

variable (w : Wire) (random : Nat → Bool)

/-- The same emitter with `k` more bytes of budget. -/
def addBudget (k : Nat) (dfe : DataFrameEmitter) : DataFrameEmitter :=
  { dfe with maxSendSize := dfe.maxSendSize + k, bytesRemaining := dfe.bytesRemaining + k }

/-- The budget is not overdrawn: what is left is at most the budget, and the in-progress
frame fits in what is left. -/
def Solvent (dfe : DataFrameEmitter) : Prop :=
  dfe.bytesRemaining ≤ dfe.maxSendSize ∧
    ∀ f, dfe.inProgressFrame = some f → f.fbuilder.size w ≤ dfe.bytesRemaining

/-- The bytes the emitter is committed to: those charged for the frames handed over and
those of the in-progress frame. -/
def committedSize (dfe : DataFrameEmitter) : Nat :=
  dfe.totalSize + (dfe.inProgressFrame.map (·.fbuilder.size w)).getD 0

theorem solvent_new (nowMs : Nat) (fq : FrameQueue) (max : Nat) : Solvent w (new nowMs fq max) :=
  ⟨le_rfl, by simp [new]⟩

@[simp] theorem committed_addBudget (k : Nat) (dfe : DataFrameEmitter) :
    (dfe.addBudget k).committed = dfe.committed := rfl

theorem solvent_addBudget {dfe : DataFrameEmitter} (h : Solvent w dfe) (k : Nat) :
    Solvent w (dfe.addBudget k) :=
  ⟨Nat.add_le_add_right h.1 k, fun f hf => Nat.le_add_right_of_le (h.2 f hf)⟩

theorem committedSize_of_inProgressFrame_none {dfe : DataFrameEmitter}
    (h : dfe.inProgressFrame = none) : dfe.committedSize w = dfe.totalSize := by
  simp [committedSize, h]

theorem committedSize_addBudget (k : Nat) (dfe : DataFrameEmitter) :
    (dfe.addBudget k).committedSize w = dfe.committedSize w := by
  simp [committedSize, addBudget, totalSize, Nat.add_sub_add_right]

theorem new_addBudget (nowMs : Nat) (fq : FrameQueue) (max k : Nat) :
    (new nowMs fq max).addBudget k = new nowMs fq (max + k) := rfl

/-- The length of a built frame is the builder's size. -/
@[simp] theorem len_build (b : DataFrameBuilder) : b.build.len w = b.size w := rfl

/-! ### One call of `flush`, `push_initial` or `push` -/

section Budget

variable {w}

theorem flush_addBudget {dfe : DataFrameEmitter} (h : Solvent w dfe) (k : Nat) :
    flush w (dfe.addBudget k) = (flush w dfe).addBudget k := by
  cases hf : dfe.inProgressFrame with
  | none => simp [flush, addBudget, hf]
  | some f =>
    have := h.2 f hf
    simp only [flush, addBudget, hf, len_build, mk.injEq, true_and, and_true]
    omega

theorem solvent_flush {dfe : DataFrameEmitter} (h : Solvent w dfe) : Solvent w (flush w dfe) := by
  cases hf : dfe.inProgressFrame with
  | none => simpa [flush, hf] using h
  | some f => exact ⟨by simp only [flush, hf]; have := h.1; omega, by simp [flush, hf]⟩

theorem committedSize_flush {dfe : DataFrameEmitter} (h : Solvent w dfe) :
    (flush w dfe).committedSize w = dfe.committedSize w := by
  cases hf : dfe.inProgressFrame with
  | none => simp [flush, hf]
  | some f =>
    have := h.2 f hf
    have := h.1
    simp only [committedSize, totalSize, flush, hf, len_build, Option.map_none', Option.getD_none,
      Option.map_some', Option.getD_some]
    omega

theorem pushInitial_addBudget (dfe : DataFrameEmitter) (k : Nat) (p : PendingPacket) (i : Nat)
    (pers : Bool) :
    pushInitial w random (dfe.addBudget k) p i pers =
        ((pushInitial w random dfe p i pers).1.addBudget k, (pushInitial w random dfe p i pers).2) ∨
      (pushInitial w random dfe p i pers).2 = .error .sizeLimited := by
  by_cases hc : dfe.frameQueue.canPush
  · by_cases hs : w.dataFrameOverhead + w.encodedSize (p.datagram i) > dfe.bytesRemaining
    · exact .inr (by simp [pushInitial, hc, hs])
    · have hs' : ¬ w.dataFrameOverhead + w.encodedSize (p.datagram i) > dfe.bytesRemaining + k := by
        omega
      exact .inl (by simp [pushInitial, addBudget, hc, hs, hs'])
  · exact .inl (by simp [pushInitial, addBudget, hc])

theorem solvent_pushInitial {dfe : DataFrameEmitter} (h : Solvent w dfe) (p : PendingPacket)
    (i : Nat) (pers : Bool) : Solvent w (pushInitial w random dfe p i pers).1 := by
  unfold pushInitial
  split
  · exact h
  · dsimp only
    split
    · exact h
    · refine ⟨h.1, fun f hf => ?_⟩
      cases hf
      simp only [DataFrameBuilder.size, DataFrameBuilder.add, DataFrameBuilder.new, List.nil_append,
        Wire.frameSize_singleton]
      omega

/-- Each of `push`'s branches opens or grows a frame only within the bytes left. -/
theorem solvent_push {dfe d : DataFrameEmitter} (h : Solvent w dfe) {p : PendingPacket} {i : Nat}
    {pers : Bool} {r : Except EmitError Unit} (hp : push w random dfe p i pers = (d, r)) :
    Solvent w d := by
  obtain rfl : d = (push w random dfe p i pers).1 := by rw [hp]
  unfold push
  split
  · dsimp only
    split
    · exact solvent_pushInitial random (solvent_flush h) p i pers
    split
    · exact solvent_flush h
    · rename_i h2
      refine ⟨h.1, fun f' hf' => ?_⟩
      cases hf'
      simp only [DataFrameBuilder.size, DataFrameBuilder.add, Wire.frameSize_append_singleton] at h2 ⊢
      omega
  · exact solvent_pushInitial random h p i pers

/-- **Only the comparisons with the bytes left see the budget.**  With `k` more bytes a
`push` does the same, unless it failed for want of bytes. -/
theorem push_addBudget {dfe : DataFrameEmitter} (h : Solvent w dfe) (k : Nat) (p : PendingPacket)
    (i : Nat) (pers : Bool) :
    push w random (dfe.addBudget k) p i pers =
        ((push w random dfe p i pers).1.addBudget k, (push w random dfe p i pers).2) ∨
      (push w random dfe p i pers).2 = .error .sizeLimited := by
  cases hf : dfe.inProgressFrame with
  | none =>
    have hf' : (dfe.addBudget k).inProgressFrame = none := hf
    simpa [push, hf, hf'] using pushInitial_addBudget random dfe k p i pers
  | some f =>
    have hf' : (dfe.addBudget k).inProgressFrame = some f := hf
    by_cases h1 : f.fbuilder.size w + w.encodedSize (p.datagram i) > w.maxFrameSize
    · simpa [push, hf, hf', h1, flush_addBudget h] using
        pushInitial_addBudget random (flush w dfe) k p i pers
    by_cases h2 : f.fbuilder.size w + w.encodedSize (p.datagram i) > dfe.bytesRemaining
    · exact .inr (by simp [push, hf, h1, h2])
    have h3 : ¬ f.fbuilder.size w + w.encodedSize (p.datagram i) > dfe.bytesRemaining + k := by
      omega
    exact .inl (by simp [push, hf, hf', h1, h2, h3, addBudget])

theorem committedSize_pushInitial_le (dfe : DataFrameEmitter) (p : PendingPacket) (i : Nat)
    (pers : Bool) (h0 : dfe.inProgressFrame = none) :
    dfe.committedSize w ≤ (pushInitial w random dfe p i pers).1.committedSize w := by
  unfold pushInitial
  split
  · exact le_rfl
  · dsimp only
    split
    · exact le_rfl
    · simp [committedSize, h0, totalSize]

theorem committedSize_pushInitial_error {dfe d : DataFrameEmitter} {p : PendingPacket} {i : Nat}
    {pers : Bool} {err : EmitError} (h : pushInitial w random dfe p i pers = (d, .error err)) :
    d.committedSize w = dfe.committedSize w := by
  unfold pushInitial at h
  split at h
  · cases h; rfl
  · dsimp only at h
    split at h <;> cases h
    rfl

/-- A `push` never takes back bytes the emitter was committed to. -/
theorem committedSize_push_le {dfe d : DataFrameEmitter} (h : Solvent w dfe) {p : PendingPacket}
    {i : Nat} {pers : Bool} {r : Except EmitError Unit} (hp : push w random dfe p i pers = (d, r)) :
    dfe.committedSize w ≤ d.committedSize w := by
  obtain rfl : d = (push w random dfe p i pers).1 := by rw [hp]
  unfold push
  split
  · rename_i f hf
    dsimp only
    split
    · rw [← committedSize_flush h]
      exact committedSize_pushInitial_le random _ p i pers (by simp [flush, hf])
    split
    · exact (committedSize_flush h).ge
    · simp [committedSize, hf, totalSize, DataFrameBuilder.size, DataFrameBuilder.add]
  · exact committedSize_pushInitial_le random dfe p i pers ‹_›

/-- A `push` that fails commits to nothing new. -/
theorem committedSize_push_error {dfe d : DataFrameEmitter} (h : Solvent w dfe) {p : PendingPacket}
    {i : Nat} {pers : Bool} {err : EmitError} (hp : push w random dfe p i pers = (d, .error err)) :
    d.committedSize w = dfe.committedSize w := by
  unfold push at hp
  split at hp
  · dsimp only at hp
    split at hp
    · rw [committedSize_pushInitial_error random hp, committedSize_flush h]
    split at hp
    · cases hp
      exact committedSize_flush h
    · cases hp
  · exact committedSize_pushInitial_error random hp

end Budget

end DataFrameEmitter

open DataFrameEmitter

/-- The same state of the call with `k` more bytes of budget. -/
def Emit.addBudget (k : Nat) (e : Emit) : Emit := { e with dfe := e.dfe.addBudget k }

section Turns

variable (w : Wire) (random : Nat → Bool) (nowMs rttMs flushId : Nat)

theorem turn_solvent {l : Loop} {e : Emit} {s : Loop × Emit}
    (h : Turn w random nowMs rttMs flushId l e s) (hs : Solvent w e.dfe) : Solvent w s.2.dfe := by
  cases h with
  | resendEmpty | resendStale | resendWait | refillNext | refillHeld | pendingEmpty
  | pendingStale => exact hs
  | resendFail _ _ _ hp | resendSent _ _ _ hp | pendingFail _ _ hp | pendingSent _ _ hp =>
    exact solvent_push random hs hp
  | refillDone => exact solvent_flush hs

/-- **A turn only adds**: the datagrams accepted so far stay, in order, and so do the
bytes committed to. -/
theorem turn_committed {l : Loop} {e : Emit} {s : Loop × Emit}
    (h : Turn w random nowMs rttMs flushId l e s) (hs : Solvent w e.dfe) :
    e.dfe.committed <+: s.2.dfe.committed ∧ e.dfe.committedSize w ≤ s.2.dfe.committedSize w := by
  cases h with
  | resendEmpty | resendStale | resendWait | refillNext | refillHeld | pendingEmpty
  | pendingStale => exact ⟨List.prefix_refl _, le_rfl⟩
  | resendFail _ _ _ hp | pendingFail _ _ hp =>
    exact ⟨by simp [committed_push_error w random hp], (committedSize_push_error random hs hp).ge⟩
  | resendSent _ _ _ hp | pendingSent _ _ hp =>
    exact ⟨by simp [committed_push_ok w random hp],
      committedSize_push_le random hs hp⟩
  | refillDone => exact ⟨by simp, (committedSize_flush hs).ge⟩

/-- A turn that returns hands every accepted datagram over and charges every byte
committed to. -/
theorem turn_done {l : Loop} {e : Emit} {s : Loop × Emit}
    (h : Turn w random nowMs rttMs flushId l e s) (hs : Solvent w e.dfe) (hd : s.1 = .done) :
    s.2.dfe.inProgressFrame = none ∧ s.2.dfe.committed = e.dfe.committed ∧
      s.2.dfe.committedSize w = e.dfe.committedSize w := by
  cases h with
  | resendEmpty | resendStale | resendWait | resendSent | refillNext | refillHeld | pendingEmpty
  | pendingStale | pendingSent => cases hd
  | resendFail _ _ _ hp | pendingFail _ _ hp =>
    exact ⟨push_error_inProgressFrame w random hp, committed_push_error w random hp,
      committedSize_push_error random hs hp⟩
  | refillDone => exact ⟨flush_inProgressFrame w _, committed_flush w _, committedSize_flush hs⟩

/-- **The two calls keep in step.**  From the same state with `k` more bytes, a turn is
the same turn, or the turn that made the smaller call return. -/
theorem turn_addBudget {l : Loop} {e : Emit} {s : Loop × Emit}
    (h : Turn w random nowMs rttMs flushId l e s) (hs : Solvent w e.dfe) (k : Nat) :
    Turn w random nowMs rttMs flushId l (e.addBudget k) (s.1, s.2.addBudget k) ∨ s.1 = .done := by
  cases h with
  | resendEmpty hx => exact .inl (.resendEmpty hx)
  | resendStale hx hst => exact .inl (.resendStale hx hst)
  | resendWait hx hl hw => exact .inl (.resendWait hx hl hw)
  | resendFail => exact .inr rfl
  | resendSent hx hl hd hp =>
    rcases push_addBudget random hs k _ _ _ with h' | h'
    · exact .inl (.resendSent hx hl hd (h'.trans (by rw [hp])))
    · simp [hp] at h'
  | refillNext hq hp => exact .inl (.refillNext hq hp)
  | @refillDone e ps hq hp =>
    have h' := @Turn.refillDone w random nowMs rttMs flushId (e.addBudget k) ps hq hp
    rw [show (e.addBudget k).dfe.flush w = (e.dfe.flush w).addBudget k from flush_addBudget hs k] at h'
    exact .inl h'
  | refillHeld hq => exact .inl (.refillHeld hq)
  | pendingEmpty hq => exact .inl (.pendingEmpty hq)
  | pendingStale hx hst => exact .inl (.pendingStale hx hst)
  | pendingFail => exact .inr rfl
  | pendingSent hx hl hp =>
    rcases push_addBudget random hs k _ _ _ with h' | h'
    · exact .inl (.pendingSent hx hl (h'.trans (by rw [hp])))
    · simp [hp] at h'

/-- A call's own run keeps its budget solvent and only adds. -/
theorem iterate_committed (n : Nat) {s : Loop × Emit} (hs : Solvent w s.2.dfe) :
    Solvent w (iterate w random nowMs rttMs flushId n s).2.dfe ∧
      s.2.dfe.committed <+: (iterate w random nowMs rttMs flushId n s).2.dfe.committed ∧
      s.2.dfe.committedSize w ≤ (iterate w random nowMs rttMs flushId n s).2.dfe.committedSize w :=
  iterate_induction w random nowMs rttMs flushId
    (fun s' => Solvent w s'.2.dfe ∧ s.2.dfe.committed <+: s'.2.dfe.committed ∧
      s.2.dfe.committedSize w ≤ s'.2.dfe.committedSize w)
    (fun h ⟨hs', hp, hc⟩ =>
      ⟨turn_solvent w random nowMs rttMs flushId h hs',
        hp.trans (turn_committed w random nowMs rttMs flushId h hs').1,
        hc.trans (turn_committed w random nowMs rttMs flushId h hs').2⟩)
    n ⟨hs, List.prefix_refl _, le_rfl⟩

/-- A call that has returned holds no frame back. -/
theorem iterate_returned (n : Nat) {s : Loop × Emit} (hs : Solvent w s.2.dfe) (h0 : s.1 ≠ .done)
    (hd : (iterate w random nowMs rttMs flushId n s).1 = .done) :
    (iterate w random nowMs rttMs flushId n s).2.dfe.inProgressFrame = none :=
  (iterate_induction w random nowMs rttMs flushId
    (fun s' => Solvent w s'.2.dfe ∧ (s'.1 = .done → s'.2.dfe.inProgressFrame = none))
    (fun h ⟨hs', _⟩ => ⟨turn_solvent w random nowMs rttMs flushId h hs',
      fun hd' => (turn_done w random nowMs rttMs flushId h hs' hd').1⟩)
    n ⟨hs, fun h => absurd h h0⟩).2 hd

/-- **The smaller call stops no later and has sent no more.**  If the call with `k`
more bytes has returned after `n` turns, so has the other, and what it accepted and
charged is a prefix of, and at most, what the larger call accepted and charged. -/
theorem iterate_addBudget (k n : Nat) {l : Loop} {e : Emit} (hs : Solvent w e.dfe)
    (h2 : (iterate w random nowMs rttMs flushId n (l, e.addBudget k)).1 = .done) :
    (iterate w random nowMs rttMs flushId n (l, e)).1 = .done ∧
      (iterate w random nowMs rttMs flushId n (l, e)).2.dfe.committed <+:
        (iterate w random nowMs rttMs flushId n (l, e.addBudget k)).2.dfe.committed ∧
      (iterate w random nowMs rttMs flushId n (l, e)).2.dfe.committedSize w ≤
        (iterate w random nowMs rttMs flushId n (l, e.addBudget k)).2.dfe.committedSize w := by
  induction n generalizing l e with
  | zero => exact ⟨h2, List.prefix_refl _, (committedSize_addBudget w k e.dfe).ge⟩
  | succ n ih =>
    by_cases hl : l = .done
    · subst hl
      rw [iterate_done, iterate_done]
      exact ⟨rfl, List.prefix_refl _, (committedSize_addBudget w k e.dfe).ge⟩
    have ht := step_turn w random nowMs rttMs flushId l e hl
    rcases turn_addBudget w random nowMs rttMs flushId ht hs k with ht2 | hd
    · have hstep := ht2.step_eq
      simp only [iterate, hstep] at h2 ⊢
      exact ih (turn_solvent w random nowMs rttMs flushId ht hs) h2
    · obtain ⟨-, hc, hz⟩ := turn_done w random nowMs rttMs flushId ht hs hd
      obtain ⟨-, hc2, hz2⟩ := iterate_committed w random nowMs rttMs flushId (n + 1)
        (s := (l, e.addBudget k)) (solvent_addBudget w hs k)
      have hrun : iterate w random nowMs rttMs flushId (n + 1) (l, e) =
          (.done, (step w random nowMs rttMs flushId l e).2) := by
        show iterate w random nowMs rttMs flushId n (step w random nowMs rttMs flushId l e) = _
        rw [show step w random nowMs rttMs flushId l e = (.done, (step w random nowMs rttMs flushId l e).2)
          from Prod.ext hd rfl]
        exact iterate_done w random nowMs rttMs flushId n _
      rw [hrun]
      refine ⟨rfl, ?_, ?_⟩
      · rw [hc]
        exact hc2
      · rw [hz, ← committedSize_addBudget w k]
        exact hz2

end Turns

variable (w : Wire) (random : Nat → Bool)

/-- **Budget monotonicity.**  Two calls of `emit_data_frames` from the same state, at
the same time and RTT, with budgets `B1 ≤ B2`: if the call with `B2` returns, the call
with `B1` returns within as many turns, the datagrams it handed to the callback are a
prefix of those the call with `B2` handed over, and it returns no more bytes. -/
theorem emitDataFrames_budget_mono (fe : FrameEmitter) (fuel nowMs rttMs B1 B2 : Nat)
    (hB : B1 ≤ B2) {r2 : Nat × List DataFrame × FrameEmitter}
    (h2 : emitDataFrames w random fuel nowMs rttMs B2 fe = some r2) :
    ∃ r1, emitDataFrames w random fuel nowMs rttMs B1 fe = some r1 ∧
      r1.2.1.flatMap DataFrame.datagrams <+: r2.2.1.flatMap DataFrame.datagrams ∧ r1.1 ≤ r2.1 := by
  obtain ⟨k, rfl⟩ := Nat.exists_eq_add_of_le hB
  have hs := solvent_new w nowMs fe.frameQueue B1
  have hstart : Emit.start fe nowMs (B1 + k) = (Emit.start fe nowMs B1).addBudget k := rfl
  unfold emitDataFrames at h2 ⊢
  rw [hstart] at h2
  dsimp only at h2 ⊢
  split at h2
  · rename_i hd2
    obtain ⟨hd1, hpre, hsize⟩ := iterate_addBudget w random nowMs rttMs fe.flushId k fuel hs hd2
    have hn1 := iterate_returned w random nowMs rttMs fe.flushId fuel hs (by simp) hd1
    have hn2 := iterate_returned w random nowMs rttMs fe.flushId fuel
      (s := (.resend, (Emit.start fe nowMs B1).addBudget k)) (solvent_addBudget w hs k) (by simp) hd2
    cases h2
    refine ⟨_, if_pos hd1, ?_, ?_⟩
    · rwa [committed_of_idle hn1, committed_of_idle hn2] at hpre
    · rwa [committedSize_of_inProgressFrame_none w hn1, committedSize_of_inProgressFrame_none w hn2]
        at hsize
  · cases h2

/-- Two 20-byte fragments: under a budget of 40 bytes only the first goes out, under one
of 10000 both. -/
theorem emitDataFrames_budget_mono_tiny :
    ∃ r2, emitDataFrames tinyWire (fun _ => false) 10 0 100 10000
        (freshEmitter.enqueue (List.replicate 40 0) .unreliable) = some r2 ∧
      ∃ r1, emitDataFrames tinyWire (fun _ => false) 10 0 100 40
          (freshEmitter.enqueue (List.replicate 40 0) .unreliable) = some r1 ∧
        r1.2.1.flatMap DataFrame.datagrams <+: r2.2.1.flatMap DataFrame.datagrams ∧ r1.1 ≤ r2.1 := by
  obtain ⟨r2, h2⟩ := Option.isSome_iff_exists.1 (by decide :
    (emitDataFrames tinyWire (fun _ => false) 10 0 100 10000
      (freshEmitter.enqueue (List.replicate 40 0) .unreliable)).isSome)
  exact ⟨r2, h2, emitDataFrames_budget_mono tinyWire (fun _ => false) _ 10 0 100 40 10000
    (by decide) h2⟩

end DatenMeister
end Porous
