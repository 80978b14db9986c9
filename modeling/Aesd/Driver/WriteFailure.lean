/-
What a failed write leaves behind.

`aesd_write` releases the partial line before it takes the lock, and adds
lines one by one, so a failure behind these points is not undone. The exact
condition under which a failed call changes nothing is read off the journal.
-/

import Aesd.Driver.StreamLaw

namespace Aesd.Driver

open CircularBuffer LineStream AesdCircularBuffer

/-- A negative return value comes with the state as it was, and the same write
issued again ends as if the failed attempt had not been made. -/
def FailedWriteChangesNothing (faults : WriteFaults) (user : Bytes) (kernel : Kernel)
    (fPos : Int) : Prop :=
  let failed := aesdWrite faults user kernel fPos
  ∀ retval, failed.outcome = .returned retval → retval < 0 →
    failed.kernel.dev.lines = kernel.dev.lines ∧
    failed.kernel.dev.pending = kernel.dev.pending ∧
    failed.kernel.dev.partialEntry.size = kernel.dev.partialEntry.size ∧
    failed.fPos = fPos ∧
    ∀ again : WriteFaults, (∀ index, again.descriptorKmalloc index = false) →
      let retried := aesdWrite again user failed.kernel failed.fPos
      let direct := aesdWrite again user kernel fPos
      retried.outcome = direct.outcome ∧ retried.fPos = direct.fPos ∧
        retried.kernel.dev.lines = direct.kernel.dev.lines ∧
        retried.kernel.dev.pending = direct.kernel.dev.pending

/-- The call fails before it releases the partial line, or there is no partial
line to lose and the lines added before the failure leave the ring reading as
it did. The second conjunct holds in particular when no line was added. -/
def FailureHarmless (faults : WriteFaults) (user : Bytes) (held : List Bytes)
    (pending : Bytes) : Prop :=
  faults.stagingKmalloc = true ∨ faults.copyFromUser = true ∨
    if faults.lockInterrupted then pending = []
    else
      let working := pending ++ user
      let committed := committedLines faults.lineKmemdup 0 (lines newline working)
      committed ≠ lines newline working ∨
          (rest newline working ≠ [] ∧ faults.partialKmemdup = true) →
        pending = [] ∧ retain maxWriteOperationsSupported held committed = held

private theorem takenPartial_eq_self_iff (journal : DeviceJournal) :
    takenPartial journal = journal ↔ journal.unfinished = [] := by
  constructor
  · intro same
    rw [← same]
    rfl
  · intro empty
    exact Journal.ext rfl empty.symm

private theorem commit_takenPartial_eq_self_iff (journal : DeviceJournal)
    (added : List Bytes) (closed : ∀ line ∈ added, IsLine newline line) :
    (takenPartial journal).commit added closed = journal ↔
      journal.unfinished = [] ∧
        retain maxWriteOperationsSupported journal.records added = journal.records := by
  constructor
  · intro same
    exact ⟨(congrArg Journal.unfinished same).symm, congrArg Journal.records same⟩
  · rintro ⟨empty, content⟩
    exact Journal.ext content empty.symm

/-- The journal after a failed write is the journal before it exactly under the
condition. -/
private theorem journalWrite_unchanged_iff (faults : WriteFaults) (user : Bytes)
    (journal : DeviceJournal) :
    ((journalWrite faults user journal).2 < 0 → (journalWrite faults user journal).1 = journal) ↔
      FailureHarmless faults user journal.records journal.unfinished := by
  unfold journalWrite FailureHarmless
  by_cases early : faults.stagingKmalloc = true ∨ faults.copyFromUser = true
  · rw [if_pos early, ← or_assoc]
    exact ⟨fun _ => Or.inl early, fun _ _ => rfl⟩
  · rw [if_neg early, ← or_assoc, or_iff_right early]
    cases faults.lockInterrupted with
    | true =>
        have negative : -erestartsys < 0 := by decide
        simp only [if_true, negative, true_implies]
        exact takenPartial_eq_self_iff journal
    | false =>
        simp only [Bool.false_eq_true, if_false, journalLocked]
        by_cases all : committedLines faults.lineKmemdup 0
            (lines newline (journal.unfinished ++ user)) =
              lines newline (journal.unfinished ++ user)
        · have success : ¬((user.length : Int) < 0) := by omega
          simp only [all, if_true, ne_eq, not_true_eq_false, false_or]
          by_cases ended : rest newline (journal.unfinished ++ user) = []
          · simp only [ended, if_true, success, false_implies, not_true_eq_false, false_and]
          · simp only [ended, if_false, not_false_eq_true, true_and]
            cases faults.partialKmemdup with
            | true =>
                have negative : -enomem < 0 := by decide
                simp only [if_true, negative, true_implies]
                exact commit_takenPartial_eq_self_iff journal _ (isLine_of_mem_lines newline _)
            | false =>
                simp only [Bool.false_eq_true, if_false, success, false_implies]
        · have negative : -einval < 0 := by decide
          simp only [all, if_false, negative, true_implies, ne_eq, not_false_eq_true, true_or]
          exact commit_takenPartial_eq_self_iff journal _ _

theorem StoredPartial.size_eq {dev : AesdDev} (stored : StoredPartial dev.partialEntry) :
    dev.partialEntry.size = dev.pending.length := by
  rcases stored with zero | ⟨buffptr, present, size, _nonempty, _absent⟩
  · rw [pending_of_zero zero, zero]
    rfl
  · rw [AesdDev.pending, present]
    change _ = (buffptr.bytes.take dev.partialEntry.size).length
    rw [← size, List.take_length]

/-- Devices with the same journal cannot be told apart by a write. -/
theorem aesdWrite_congr {faults : WriteFaults}
    (descriptors : ∀ index, faults.descriptorKmalloc index = false) (user : Bytes)
    {left right : Kernel} (fPos : Int) (leftInv : DevInv left.dev) (rightInv : DevInv right.dev)
    (same : leftInv.journal = rightInv.journal) :
    (aesdWrite faults user left fPos).outcome = (aesdWrite faults user right fPos).outcome ∧
      (aesdWrite faults user left fPos).fPos = (aesdWrite faults user right fPos).fPos ∧
      (aesdWrite faults user left fPos).kernel.dev.lines =
        (aesdWrite faults user right fPos).kernel.dev.lines ∧
      (aesdWrite faults user left fPos).kernel.dev.pending =
        (aesdWrite faults user right fPos).kernel.dev.pending := by
  obtain ⟨leftAfter, leftJournal, leftOutcome, leftPos⟩ :=
    aesdWrite_refines faults descriptors user fPos leftInv
  obtain ⟨rightAfter, rightJournal, rightOutcome, rightPos⟩ :=
    aesdWrite_refines faults descriptors user fPos rightInv
  have journals : leftAfter.journal = rightAfter.journal := by
    rw [leftJournal, rightJournal, same]
  refine ⟨?_, ?_, congrArg Journal.records journals, congrArg Journal.unfinished journals⟩
  · rw [leftOutcome, rightOutcome, same]
  · rw [leftPos, rightPos, same]

/-- On every reachable device, a failed write changes nothing exactly when its
failure is harmless. -/
theorem failedWrite_changes_nothing_iff (kernel : Kernel) (reachable : Reachable kernel)
    (faults : WriteFaults) (descriptors : ∀ index, faults.descriptorKmalloc index = false)
    (user : Bytes) (fPos : Int) :
    FailedWriteChangesNothing faults user kernel fPos ↔
      FailureHarmless faults user kernel.dev.lines kernel.dev.pending := by
  have inv := reachable.inv
  obtain ⟨after, journal, outcome, position⟩ := aesdWrite_refines faults descriptors user fPos inv
  have unchangedIff := journalWrite_unchanged_iff faults user inv.journal
  rw [DevShape.journal_records, DevShape.journal_unfinished] at unchangedIff
  rw [← unchangedIff]
  constructor
  · intro unchanged negative
    obtain ⟨content, pending, _size, _pos, _again⟩ := unchanged _ outcome negative
    rw [← journal]
    exact Journal.ext content pending
  · intro unchanged retval returned negative
    rw [outcome, Outcome.returned.injEq] at returned
    subst returned
    have same : after.journal = inv.journal := journal.trans (unchanged negative)
    have pending := congrArg Journal.unfinished same
    rw [DevShape.journal_unfinished, DevShape.journal_unfinished] at pending
    rw [if_pos negative] at position
    refine ⟨congrArg Journal.records same, pending, ?_, position, ?_⟩
    · rw [after.partialStored.size_eq, inv.partialStored.size_eq, pending]
    · intro again descriptorsAgain
      rw [position]
      exact aesdWrite_congr descriptorsAgain user fPos after inv same

def interruptedLock : WriteFaults := { WriteFaults.none with lockInterrupted := true }

theorem failedWrite_changes_nothing_initially :
    Reachable OpenDevice.init.kernel ∧
      FailedWriteChangesNothing interruptedLock [98, 10] OpenDevice.init.kernel 0 := by
  have reachable : Reachable OpenDevice.init.kernel :=
    ⟨[], fun _op member => absurd member List.not_mem_nil, rfl⟩
  refine ⟨reachable, (failedWrite_changes_nothing_iff _ reachable interruptedLock
    (fun _index => rfl) [98, 10] 0).mpr ?_⟩
  exact Or.inr (Or.inr rfl)

def pendingByte : Kernel := (OpenDevice.init.run [.write 0 [97] WriteFaults.none]).kernel

/-- An interrupted lock loses the pending byte although the call fails. -/
theorem interrupted_write_loses_pending :
    Reachable pendingByte ∧ (∀ index, interruptedLock.descriptorKmalloc index = false) ∧
      ¬FailedWriteChangesNothing interruptedLock [98, 10] pendingByte 1 := by
  refine ⟨⟨_, ?_, rfl⟩, fun _index => rfl, ?_⟩
  · intro op member
    rw [List.mem_singleton.mp member]
    exact fun _index => rfl
  · intro unchanged
    obtain ⟨_content, pending, _others⟩ := unchanged (-erestartsys) (by decide) (by decide)
    exact absurd pending (by decide)

end Aesd.Driver
