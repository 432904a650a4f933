import Porous.DatenMeister.EmitFrame

/-!
# One turn of `emit_data_frames`, case by case

`step` follows the code of `emit_data_frames` (lines 170-238) branch by branch.  `Turn`
lists the same branches as the transitions they are, each with the guards under which
the code takes it and the state it leaves: a stale head popped, a due entry resent, a
push that fails and returns, the pending queue refilled, the final flush.  `step_turn`
says that every turn of `step` is one of them and `Turn.step_eq` that each of them is
what `step` does, so the invariants of the later modules are proved once per
transition, without unfolding `step` again.
-/

namespace Porous
namespace DatenMeister

open DataFrameEmitter

/-- The fragment `r` is stale: the weak reference to its packet does not upgrade, or the
fragment is acknowledged (lines 171-177, 216-222). -/
def Stale (ps : PacketSender) (r : FragmentRef) : Prop :=
  ∀ p, ps.packet r.packet = some p → p.fragmentAcknowledged r.fragmentId = true

/-- The packet of `r` upgrades to `p` and the fragment is not acknowledged. -/
def Live (ps : PacketSender) (r : FragmentRef) (p : PendingPacket) : Prop :=
  ps.packet r.packet = some p ∧ p.fragmentAcknowledged r.fragmentId = false

section Turn

variable (w : Wire) (random : Nat → Bool) (nowMs rttMs flushId : Nat)

/-- The turns of `emit_data_frames`, from the head of the loop `l` in state `e`. -/
inductive Turn : Loop → Emit → Loop × Emit → Prop
  /-- The resend queue is empty: on to the outer loop. -/
  | resendEmpty {e : Emit} : e.resendQueue.peek = none → Turn .resend e (.refill, e)
  /-- A stale head of the resend queue is popped (lines 174-176, 193-195). -/
  | resendStale {e : Emit} {x : ResendEntry} : e.resendQueue.peek = some x →
      Stale e.packetSender x.fragmentRef →
      Turn .resend e (.resend, { e with resendQueue := e.resendQueue.pop })
  /-- The head is not due yet (lines 179-181). -/
  | resendWait {e : Emit} {x : ResendEntry} {p : PendingPacket} :
      e.resendQueue.peek = some x → Live e.packetSender x.fragmentRef p → nowMs < x.resendTime →
      Turn .resend e (.refill, e)
  /-- The head is due and its push fails: the call returns (line 184). -/
  | resendFail {e : Emit} {x : ResendEntry} {p : PendingPacket} {d : DataFrameEmitter}
      {err : EmitError} :
      e.resendQueue.peek = some x → Live e.packetSender x.fragmentRef p → x.resendTime ≤ nowMs →
      e.dfe.push w random p x.fragmentRef.fragmentId true = (d, .error err) →
      Turn .resend e (.done, { e with dfe := d })
  /-- The head is due and pushed; it is popped and rescheduled (lines 183-192). -/
  | resendSent {e : Emit} {x : ResendEntry} {p : PendingPacket} {d : DataFrameEmitter} :
      e.resendQueue.peek = some x → Live e.packetSender x.fragmentRef p → x.resendTime ≤ nowMs →
      e.dfe.push w random p x.fragmentRef.fragmentId true = (d, .ok ()) →
      Turn .resend e (.resend, { e with
        dfe := d
        resendQueue := e.resendQueue.pop.push (reschedule nowMs rttMs x) })
  /-- The pending queue is empty and the sender admits a packet, whose fragments are
  queued (lines 200-209). -/
  | refillNext {e : Emit} {p : PendingPacket} {b : Bool} {ps : PacketSender} :
      e.pendingQueue = [] → e.packetSender.emitPacket flushId = (some (p, b), ps) →
      Turn .refill e (.pending, { e with packetSender := ps, pendingQueue := pendingEntries p b })
  /-- The pending queue is empty and the sender admits nothing: the final flush and
  return (lines 210-211, 241-242). -/
  | refillDone {e : Emit} {ps : PacketSender} :
      e.pendingQueue = [] → e.packetSender.emitPacket flushId = (none, ps) →
      Turn .refill e (.done, { e with packetSender := ps, dfe := e.dfe.flush w })
  /-- The pending queue is not empty. -/
  | refillHeld {e : Emit} {x : PendingEntry} {rest : List PendingEntry} :
      e.pendingQueue = x :: rest → Turn .refill e (.pending, e)
  /-- The pending queue is drained: back to the head of the outer loop. -/
  | pendingEmpty {e : Emit} : e.pendingQueue = [] → Turn .pending e (.refill, e)
  /-- A stale head of the pending queue pops the resend queue (lines 220, 235). -/
  | pendingStale {e : Emit} {x : PendingEntry} {rest : List PendingEntry} :
      e.pendingQueue = x :: rest → Stale e.packetSender x.fragmentRef →
      Turn .pending e (.pending, { e with resendQueue := e.resendQueue.pop })
  /-- The head's push fails: the call returns (line 225). -/
  | pendingFail {e : Emit} {x : PendingEntry} {rest : List PendingEntry} {p : PendingPacket}
      {d : DataFrameEmitter} {err : EmitError} :
      e.pendingQueue = x :: rest → Live e.packetSender x.fragmentRef p →
      e.dfe.push w random p x.fragmentRef.fragmentId x.resend = (d, .error err) →
      Turn .pending e (.done, { e with dfe := d })
  /-- The head is pushed and popped, and scheduled for resending if it is to be resent
  (lines 224-233). -/
  | pendingSent {e : Emit} {x : PendingEntry} {rest : List PendingEntry} {p : PendingPacket}
      {d : DataFrameEmitter} :
      e.pendingQueue = x :: rest → Live e.packetSender x.fragmentRef p →
      e.dfe.push w random p x.fragmentRef.fragmentId x.resend = (d, .ok ()) →
      Turn .pending e (.pending, { e with
        dfe := d
        pendingQueue := rest
        resendQueue := if x.resend then e.resendQueue.push (firstSchedule nowMs rttMs x.fragmentRef)
          else e.resendQueue })

/-- **Every turn of the loop is one of the transitions of `Turn`.** -/
theorem step_turn (l : Loop) (e : Emit) (hl : l ≠ .done) :
    Turn w random nowMs rttMs flushId l e (step w random nowMs rttMs flushId l e) := by
  cases l with
  | done => exact absurd rfl hl
  | resend =>
    simp only [step, resendStep]
    split
    · exact .resendEmpty ‹_›
    rename_i x hx
    split
    · exact .resendStale hx (by simp_all [Stale])
    rename_i p hp
    split
    · exact .resendStale hx (by simp_all [Stale])
    rename_i hack
    have hlive : Live e.packetSender x.fragmentRef p := ⟨hp, by simpa using hack⟩
    split
    · exact .resendWait hx hlive ‹_›
    rename_i hdue
    split
    · exact .resendFail hx hlive (Nat.le_of_not_lt hdue) ‹_›
    · exact .resendSent hx hlive (Nat.le_of_not_lt hdue) ‹_›
  | refill =>
    simp only [step, refillStep]
    split
    · rename_i hq
      have hq : e.pendingQueue = [] := List.isEmpty_iff.1 hq
      split
      · rename_i p b ps hp
        simpa [hq] using @Turn.refillNext w random nowMs rttMs flushId e p b ps hq hp
      · exact .refillDone hq ‹_›
    · rename_i hq
      cases hpq : e.pendingQueue with
      | nil => simp [hpq] at hq
      | cons x rest => exact .refillHeld hpq
  | pending =>
    simp only [step, pendingStep]
    split
    · exact .pendingEmpty ‹_›
    rename_i x rest hx
    split
    · exact .pendingStale hx (by simp_all [Stale])
    rename_i p hp
    split
    · exact .pendingStale hx (by simp_all [Stale])
    rename_i hack
    have hlive : Live e.packetSender x.fragmentRef p := ⟨hp, by simpa using hack⟩
    split
    · exact .pendingFail hx hlive ‹_›
    · exact .pendingSent hx hlive ‹_›

/-- **Each transition of `Turn` is what `step` does.** -/
theorem Turn.step_eq {l : Loop} {e : Emit} {s : Loop × Emit}
    (h : Turn w random nowMs rttMs flushId l e s) : step w random nowMs rttMs flushId l e = s := by
  cases h with
  | resendEmpty hx => simp [step, resendStep, hx]
  | @resendStale e x hx hs =>
    cases hp : e.packetSender.packet x.fragmentRef.packet with
    | none => simp [step, resendStep, hx, hp]
    | some p => simp [step, resendStep, hx, hp, hs p hp]
  | resendWait hx hl hw => simp [step, resendStep, hx, hl.1, hl.2, hw]
  | resendFail hx hl hd hp => simp [step, resendStep, hx, hl.1, hl.2, Nat.not_lt.2 hd, hp]
  | resendSent hx hl hd hp => simp [step, resendStep, hx, hl.1, hl.2, Nat.not_lt.2 hd, hp]
  | refillNext hq hp => simp [step, refillStep, hq, hp]
  | refillDone hq hp => simp [step, refillStep, hq, hp]
  | refillHeld hq => simp [step, refillStep, hq]
  | pendingEmpty hq => simp [step, pendingStep, hq]
  | @pendingStale e x rest hx hs =>
    cases hp : e.packetSender.packet x.fragmentRef.packet with
    | none => simp [step, pendingStep, hx, hp]
    | some p => simp [step, pendingStep, hx, hp, hs p hp]
  | pendingFail hx hl hp => simp [step, pendingStep, hx, hl.1, hl.2, hp]
  | pendingSent hx hl hp => simp [step, pendingStep, hx, hl.1, hl.2, hp]

/-- **What every transition keeps, every run keeps.**  A property of the loop's position
and state that each transition of `Turn` preserves holds after any number of turns. -/
theorem iterate_induction (P : Loop × Emit → Prop)
    (hP : ∀ {l e s}, Turn w random nowMs rttMs flushId l e s → P (l, e) → P s) (n : Nat)
    {s : Loop × Emit} (h : P s) : P (iterate w random nowMs rttMs flushId n s) := by
  induction n generalizing s with
  | zero => exact h
  | succ n ih =>
    obtain ⟨l, e⟩ := s
    apply ih
    by_cases hl : l = .done
    · subst hl
      exact h
    · exact hP (step_turn w random nowMs rttMs flushId l e hl) h

theorem iterate_done (n : Nat) (e : Emit) :
    iterate w random nowMs rttMs flushId n (.done, e) = (.done, e) := by
  induction n with
  | zero => rfl
  | succ n ih => exact ih

end Turn

end DatenMeister
end Porous
