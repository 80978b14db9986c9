/-
The file operations refine steps on a journal.

`journalWrite` is what a write does to the journal of the device under a given
schedule of failures. The other operations leave the device as it is.
-/

import Aesd.Driver.Invariant

namespace Aesd.Driver

open CircularBuffer LineStream AesdCircularBuffer

abbrev DeviceJournal := Journal newline maxWriteOperationsSupported

def takenPartial (journal : DeviceJournal) : DeviceJournal :=
  journal.setUnfinished [] List.not_mem_nil

/-- The section under the lock at the level of journals, with the return value.
A staged span without an unfinished end leaves the partial entry untouched. -/
def journalLocked (faults : WriteFaults) (count : Nat) (working : Bytes)
    (journal : DeviceJournal) : DeviceJournal × Int :=
  let committed := committedLines faults.lineKmemdup 0 (lines newline working)
  let stored := journal.commit committed (fun line member =>
    isLine_of_mem_lines newline working line
      (committedLines_subset faults.lineKmemdup 0 _ line member))
  if committed = lines newline working then
    if rest newline working = [] then (stored, count)
    else if faults.partialKmemdup then (takenPartial stored, -enomem)
    else (stored.setUnfinished (rest newline working) (sep_not_mem_rest newline working), count)
  else (stored, -einval)

def journalWrite (faults : WriteFaults) (user : Bytes) (journal : DeviceJournal) :
    DeviceJournal × Int :=
  if faults.stagingKmalloc ∨ faults.copyFromUser then (journal, -enomem)
  else if faults.lockInterrupted then (takenPartial journal, -erestartsys)
  else journalLocked faults user.length (journal.unfinished ++ user) (takenPartial journal)

theorem journalLocked_none (count : Nat) (working : Bytes) (journal : DeviceJournal) :
    (journalLocked WriteFaults.none count working journal).2 = count ∧
      (journalLocked WriteFaults.none count working journal).1.records =
        retain maxWriteOperationsSupported journal.records (lines newline working) ∧
      (journalLocked WriteFaults.none count working journal).1.unfinished =
        if rest newline working = [] then journal.unfinished else rest newline working := by
  have committed : committedLines (WriteFaults.none).lineKmemdup 0 (lines newline working) =
      lines newline working := committedLines_of_no_fault (fun _index => rfl) 0 _
  unfold journalLocked
  simp only [committed, if_true]
  by_cases ended : rest newline working = []
  · simp only [if_pos ended]
    exact ⟨trivial, rfl, rfl⟩
  · simp only [if_neg ended]
    exact ⟨rfl, rfl, rfl⟩

theorem journalWrite_none (user : Bytes) (journal : DeviceJournal) :
    journalWrite WriteFaults.none user journal = (journal.feed user, (user.length : Int)) := by
  obtain ⟨retval, records, unfinished⟩ := journalLocked_none user.length
    (journal.unfinished ++ user) (takenPartial journal)
  have locked : journalWrite WriteFaults.none user journal = journalLocked WriteFaults.none
      user.length (journal.unfinished ++ user) (takenPartial journal) := by
    simp [journalWrite, WriteFaults.none]
  rw [locked]
  refine Prod.ext (Journal.ext ?_ ?_) retval
  · rw [records]
    rfl
  · rw [unfinished, Journal.feed_unfinished]
    by_cases ended : rest newline (journal.unfinished ++ user) = []
    · rw [if_pos ended, ended]
      rfl
    · rw [if_neg ended]

/-! ### aesd_write -/

theorem writeStage_failed {faults : WriteFaults} (user : Bytes) (kernel : Kernel)
    (failed : faults.stagingKmalloc = true ∨ faults.copyFromUser = true) :
    (writeStage faults user kernel).1.dev = kernel.dev ∧
      (writeStage faults user kernel).2 = none := by
  cases staging : faults.stagingKmalloc with
  | true => simp [writeStage, Slab.kmalloc, staging]
  | false =>
      have copy : faults.copyFromUser = true := by
        rcases failed with first | second
        · rw [staging] at first
          cases first
        · exact second
      simp [writeStage, Slab.kmalloc, staging, copy]

private theorem releasePartial_dev {kernel : Kernel}
    (stored : StoredPartial kernel.dev.partialEntry) :
    kernel.releasePartial.dev = { kernel.dev with partialEntry := AesdBufferEntry.zero } := by
  rcases stored with zero | ⟨buffptr, present, _size, _nonempty, _absent⟩
  · have absent : kernel.dev.partialEntry.buffptr = none := by rw [zero]; rfl
    simp only [Kernel.releasePartial, absent]
    rw [← zero]
  · simp only [Kernel.releasePartial, present]

theorem writeStage_staged (faults : WriteFaults) (user : Bytes) {kernel : Kernel}
    (stored : StoredPartial kernel.dev.partialEntry) (allocated : faults.stagingKmalloc = false)
    (copied : faults.copyFromUser = false) :
    (writeStage faults user kernel).1.dev =
        { kernel.dev with partialEntry := AesdBufferEntry.zero } ∧
      ∃ staging, (writeStage faults user kernel).2 = some staging ∧
        staging.bytes = kernel.dev.pending ++ user := by
  simp only [writeStage, Slab.kmalloc, allocated, copied, Bool.false_eq_true, if_false]
  refine ⟨?_, _, rfl, rfl⟩
  rw [releasePartial_dev]
  exact stored

private theorem unlocked_inv {dev : AesdDev} (shape : DevShape dev) : DevInv (mutexUnlock dev) :=
  { ring := shape.ring, partialStored := shape.partialStored, unlocked := rfl }

/-- `partialKmemdup` may fail only where the partial entry is already cleared:
the code resets its pointer then, and not its size. -/
theorem writeLocked_refines (faults : WriteFaults)
    (descriptors : ∀ index, faults.descriptorKmalloc index = false) (count : Nat)
    (staging : Kbuf) (kernel : Kernel) (fPos : Int) (shape : DevShape kernel.dev)
    (cleared : faults.partialKmemdup = true → kernel.dev.partialEntry = AesdBufferEntry.zero) :
    ∃ inv : DevInv (writeLocked faults count staging kernel fPos).kernel.dev,
      inv.journal = (journalLocked faults count staging.bytes shape.journal).1 ∧
      (writeLocked faults count staging kernel fPos).outcome =
        .returned (journalLocked faults count staging.bytes shape.journal).2 ∧
      (writeLocked faults count staging kernel fPos).fPos =
        if (journalLocked faults count staging.bytes shape.journal).2 < 0 then fPos
        else fPos + count := by
  obtain ⟨middle, ran, ring, content, partialSame, _lock⟩ := writeLines_spec faults descriptors
    staging.bytes.length 0 staging.bytes kernel (Nat.le_refl _) shape.ring
  have middleShape : DevShape middle.dev := ⟨ring, partialSame ▸ shape.partialStored⟩
  have middlePending : middle.dev.pending = kernel.dev.pending := by
    rw [AesdDev.pending, AesdDev.pending, partialSame]
  have notNegative : ¬((count : Int) < 0) := by omega
  unfold writeLocked journalLocked
  rw [ran, lineExit]
  by_cases all : committedLines faults.lineKmemdup 0 (lines newline staging.bytes) =
      lines newline staging.bytes
  · simp only [if_pos all]
    by_cases ended : rest newline staging.bytes = []
    · simp only [ended, List.length_nil, Nat.lt_irrefl, if_false, if_true, if_neg notNegative]
      exact ⟨unlocked_inv middleShape, Journal.ext content middlePending, trivial, trivial⟩
    · have longer : 0 < (rest newline staging.bytes).length := List.length_pos_iff.mpr ended
      simp only [if_pos longer, if_neg ended]
      cases copyFails : faults.partialKmemdup with
      | true =>
          have zero := cleared copyFails
          have negative : -enomem < 0 := by decide
          simp only [Slab.kmemdup, Slab.kmalloc, if_true, if_pos negative]
          refine ⟨⟨⟨ring, Or.inl ?_⟩, rfl⟩, Journal.ext content ?_, trivial, trivial⟩
          · rw [writeRelease, mutexUnlock, partialSame, zero]
            rfl
          · rw [DevShape.journal_unfinished]
            refine (pending_of_zero ?_).trans rfl
            rw [writeRelease, mutexUnlock, partialSame, zero]
            rfl
      | false =>
          simp only [Slab.kmemdup, Slab.kmalloc, Bool.false_eq_true, if_false, if_neg notNegative]
          refine ⟨⟨⟨ring, Or.inr ⟨_, rfl, rfl, ended, sep_not_mem_rest newline _⟩⟩, rfl⟩,
            Journal.ext content ?_, trivial, trivial⟩
          exact List.take_length
  · have negative : -einval < 0 := by decide
    simp only [if_neg all, if_pos negative]
    exact ⟨unlocked_inv middleShape, Journal.ext content middlePending, trivial, trivial⟩

theorem journal_congr {dev other : AesdDev} (shape : DevShape dev) (shapeOther : DevShape other)
    (same : dev = other) : shape.journal = shapeOther.journal := by
  subst same
  rfl

/-- Every call of `aesd_write` on a device that satisfies the invariant. -/
theorem aesdWrite_refines (faults : WriteFaults)
    (descriptors : ∀ index, faults.descriptorKmalloc index = false) (user : Bytes)
    {kernel : Kernel} (fPos : Int) (inv : DevInv kernel.dev) :
    ∃ after : DevInv (aesdWrite faults user kernel fPos).kernel.dev,
      after.journal = (journalWrite faults user inv.journal).1 ∧
      (aesdWrite faults user kernel fPos).outcome =
        .returned (journalWrite faults user inv.journal).2 ∧
      (aesdWrite faults user kernel fPos).fPos =
        if (journalWrite faults user inv.journal).2 < 0 then fPos else fPos + user.length := by
  unfold aesdWrite journalWrite
  by_cases failed : faults.stagingKmalloc = true ∨ faults.copyFromUser = true
  · obtain ⟨devSame, none⟩ := writeStage_failed user kernel failed
    cases stage : writeStage faults user kernel with
    | mk staged result =>
        rw [stage] at devSame none
        subst none
        have negative : -enomem < 0 := by decide
        simp only [if_pos failed, if_pos negative]
        have after : DevInv staged.dev := devSame ▸ inv
        exact ⟨after, journal_congr after.toDevShape inv.toDevShape devSame, trivial, trivial⟩
  · obtain ⟨allocated, copied⟩ := not_or.mp failed
    rw [Bool.not_eq_true] at allocated copied
    obtain ⟨devTaken, staging, present, bytes⟩ :=
      writeStage_staged faults user inv.partialStored allocated copied
    cases stage : writeStage faults user kernel with
    | mk staged result =>
        rw [stage] at devTaken present
        subst present
        simp only [if_neg failed]
        have takenInv : DevInv staged.dev := by
          rw [devTaken]
          exact { ring := inv.ring, partialStored := Or.inl rfl, unlocked := inv.unlocked }
        have takenJournal : takenInv.journal = takenPartial inv.journal := by
          apply Journal.ext
          · change staged.dev.lines = kernel.dev.lines
            rw [devTaken]
            rfl
          · change staged.dev.pending = []
            rw [devTaken]
            rfl
        cases interrupted : faults.lockInterrupted with
        | true =>
            have negative : -erestartsys < 0 := by decide
            simp only [mutexLockInterruptible, if_true, if_pos negative]
            exact ⟨takenInv, takenJournal, trivial, trivial⟩
        | false =>
            have locked : staged.dev.lock = false := takenInv.unlocked
            simp only [mutexLockInterruptible, locked, Bool.false_eq_true, if_false]
            have shape : DevShape { staged.dev with lock := true } :=
              ⟨takenInv.ring, takenInv.partialStored⟩
            have journalSame : shape.journal = takenPartial inv.journal := takenJournal
            have cleared : staged.dev.partialEntry = AesdBufferEntry.zero := by
              rw [devTaken]
            have refines := writeLocked_refines faults descriptors user.length staging
              { staged with dev := { staged.dev with lock := true } } fPos shape
              (fun _fails => cleared)
            rw [bytes, journalSame] at refines
            exact refines

/-! ### Operations that leave the device alone -/

theorem unlock_held {kernel : Kernel} (free : kernel.dev.lock = false) :
    ({ kernel with dev := { kernel.dev with lock := true } } : Kernel).unlock = kernel := by
  cases kernel with
  | mk dev slab =>
      cases dev with
      | mk lock circularBuffer partialEntry =>
          change lock = false at free
          subst lock
          rfl

theorem aesdLlseek_kernel (lockInterrupted : Bool) (offset whence : Int) (kernel : Kernel)
    (fPos : Int) : (aesdLlseek lockInterrupted offset whence kernel fPos).kernel = kernel := by
  unfold aesdLlseek mutexLockInterruptible
  cases lockInterrupted with
  | true => rfl
  | false =>
      cases free : kernel.dev.lock with
      | true => rfl
      | false => exact unlock_held free

theorem aesdAdjustFileOffset_kernel (lockInterrupted : Bool) (seekto : AesdSeekto)
    (kernel : Kernel) (fPos : Int) :
    (aesdAdjustFileOffset lockInterrupted seekto kernel fPos).kernel = kernel := by
  unfold aesdAdjustFileOffset mutexLockInterruptible
  by_cases range : maxWriteOperationsSupported ≤ seekto.writeCmd.toNat
  · rw [if_pos range]
  · rw [if_neg range]
    cases lockInterrupted with
    | true => rfl
    | false =>
        cases free : kernel.dev.lock with
        | true => rfl
        | false =>
            simp only [Bool.false_eq_true, if_false]
            split
            · exact unlock_held free
            · exact unlock_held free

theorem aesdIoctl_kernel (faults : IoctlFaults) (cmd : UInt32) (seekto : AesdSeekto)
    (kernel : Kernel) (fPos : Int) :
    (aesdIoctl faults cmd seekto kernel fPos).kernel = kernel := by
  unfold aesdIoctl
  split
  · rfl
  · split
    · rfl
    · split
      · split
        · rfl
        · exact aesdAdjustFileOffset_kernel _ _ _ _
      · rfl

/-! ### aesd_read -/

/-- What the lookup finds in a device that satisfies the invariant: a line and a
byte inside it. -/
theorem found_entry {dev : AesdDev} (inv : RingInv dev.circularBuffer)
    {position index offset : Nat}
    (found : Segments.locate (dev.lines.map List.length) position = some (index, offset)) :
    ∃ buffptr, (dev.circularBuffer.slot
        ((dev.circularBuffer.outOffs + index) % maxWriteOperationsSupported)) =
          { buffptr := some buffptr, size := buffptr.bytes.length } ∧
      buffptr.bytes = dev.lines.getD index [] ∧ offset < buffptr.bytes.length := by
  obtain ⟨bound, inside, _total⟩ := Segments.locate_some found
  rw [List.length_map] at bound
  have logicalBound : index < dev.circularBuffer.logical.length := by
    simpa [AesdDev.lines, ringLines] using bound
  obtain ⟨buffptr, present, size, _closed⟩ :=
    inv.stored _ (List.getElem_mem logicalBound)
  have line : dev.lines.getD index [] = buffptr.bytes := by
    rw [List.getD_eq_getElem?_getD, List.getElem?_eq_getElem bound, Option.getD_some]
    simp only [AesdDev.lines, ringLines, List.getElem_map, entryBytes, present]
    rw [← size, List.take_length]
  refine ⟨buffptr, ?_, line.symm, ?_⟩
  · rw [slot_of_logical _ index logicalBound, List.getD_eq_getElem?_getD,
      List.getElem?_eq_getElem logicalBound, Option.getD_some]
    rw [size, ← present]
  · rw [Segments.getD_length, line] at inside
    exact inside

theorem lookup_lines {dev : AesdDev} (inv : RingInv dev.circularBuffer)
    (position : Nat) :
    dev.circularBuffer.findEntryOffsetForFpos position =
      some ((Segments.locate (dev.lines.map List.length) position).map
        (fun found =>
          ((dev.circularBuffer.outOffs + found.1) % maxWriteOperationsSupported, found.2))) := by
  rw [findEntryOffsetForFpos_eq inv.wellFormed, inv.sizes]
  rfl

theorem content_length (dev : AesdDev) :
    dev.content.length = (dev.lines.map List.length).sum := by
  rw [AesdDev.content, List.length_flatten]

theorem aesdRead_kernel (faults : ReadFaults) (count : Nat) {kernel : Kernel} (fPos : Int)
    (inv : DevInv kernel.dev) : (aesdRead faults count kernel fPos).kernel = kernel := by
  have free := inv.unlocked
  unfold aesdRead mutexLockInterruptible
  cases faults.lockInterrupted with
  | true => rfl
  | false =>
      simp only [free, Bool.false_eq_true, if_false]
      rw [lookup_lines inv.ring]
      cases found : Segments.locate (kernel.dev.lines.map List.length) (sizeOfLoff fPos) with
      | none => exact unlock_held free
      | some place =>
          obtain ⟨buffptr, slot, _bytes, _inside⟩ := found_entry inv.ring found
          simp only [Option.map_some, slot]
          split
          · exact unlock_held free
          · split
            · exact unlock_held free
            · exact unlock_held free

/-- At or past the end of the content a read returns 0. -/
theorem aesdRead_at_end (count : Nat) {kernel : Kernel} {fPos : Int} (inv : DevInv kernel.dev)
    (past : kernel.dev.content.length ≤ sizeOfLoff fPos) :
    aesdRead { lockInterrupted := false, copyToUser := false } count kernel fPos =
      { kernel := kernel, fPos := fPos, outcome := .returned 0, data := [] } := by
  have free := inv.unlocked
  have nothing : Segments.locate (kernel.dev.lines.map List.length) (sizeOfLoff fPos) = none := by
    rw [Segments.locate_eq_none_iff, ← content_length]
    exact past
  simp only [aesdRead, mutexLockInterruptible, free, Bool.false_eq_true, if_false]
  rw [lookup_lines inv.ring, nothing]
  simp only [Option.map_none, unlock_held free]

/-- A read with room returns what is left of the line that covers the position,
as far as it fits. -/
theorem aesdRead_inside {count : Nat} {kernel : Kernel} {fPos : Int} (inv : DevInv kernel.dev)
    (room : 0 < count) {index offset : Nat}
    (found : Segments.locate (kernel.dev.lines.map List.length) (sizeOfLoff fPos) =
      some (index, offset)) :
    aesdRead { lockInterrupted := false, copyToUser := false } count kernel fPos =
      { kernel := kernel
        fPos := fPos + (((kernel.dev.lines.getD index []).drop offset).take count).length
        outcome := .returned (((kernel.dev.lines.getD index []).drop offset).take count).length
        data := ((kernel.dev.lines.getD index []).drop offset).take count } := by
  have free := inv.unlocked
  obtain ⟨buffptr, slot, bytes, inside⟩ := found_entry inv.ring found
  have positive : min (buffptr.bytes.length - offset) count ≠ 0 := by omega
  have size : ((buffptr.bytes.drop offset).take count).length =
      min (buffptr.bytes.length - offset) count := by
    rw [List.length_take, List.length_drop, Nat.min_comm]
  have piece : (buffptr.bytes.drop offset).take (min (buffptr.bytes.length - offset) count) =
      (buffptr.bytes.drop offset).take count := by
    rw [List.take_eq_take_iff, List.length_drop]
    omega
  rw [← bytes, size]
  simp only [aesdRead, mutexLockInterruptible, free, Bool.false_eq_true, if_false]
  rw [lookup_lines inv.ring, found]
  simp only [Option.map_some, slot, if_neg positive, unlock_held free]
  rw [piece]

theorem aesdRead_before_end {count : Nat} {kernel : Kernel} {fPos : Int}
    (inv : DevInv kernel.dev) (room : 0 < count)
    (before : sizeOfLoff fPos < kernel.dev.content.length) :
    ∃ piece : Nat, 0 < piece ∧ piece ≤ count ∧
      sizeOfLoff fPos + piece ≤ kernel.dev.content.length ∧
      aesdRead { lockInterrupted := false, copyToUser := false } count kernel fPos =
        { kernel := kernel
          fPos := fPos + piece
          outcome := .returned piece
          data := (kernel.dev.content.drop (sizeOfLoff fPos)).take piece } := by
  cases found : Segments.locate (kernel.dev.lines.map List.length) (sizeOfLoff fPos) with
  | none =>
      rw [Segments.locate_eq_none_iff, ← content_length] at found
      omega
  | some place =>
      obtain ⟨_buffptr, _slot, bytes, inside⟩ := found_entry inv.ring found
      rw [bytes] at inside
      have content : kernel.dev.content.drop (sizeOfLoff fPos) =
          (kernel.dev.lines.getD place.1 []).drop place.2 ++
            (kernel.dev.lines.drop (place.1 + 1)).flatten := by
        rw [AesdDev.content, Segments.drop_flatten_of_locate found]
      have restLength : ((kernel.dev.lines.getD place.1 []).drop place.2).length =
          (kernel.dev.lines.getD place.1 []).length - place.2 := List.length_drop
      have dropLength := congrArg List.length content
      rw [List.length_drop, List.length_append, restLength] at dropLength
      refine ⟨(((kernel.dev.lines.getD place.1 []).drop place.2).take count).length, ?_, ?_, ?_, ?_⟩
      · rw [List.length_take, restLength]
        omega
      · rw [List.length_take]
        omega
      · rw [List.length_take, restLength]
        omega
      · rw [aesdRead_inside inv room found, content, List.take_append_of_le_length]
        · congr 1
          rw [List.take_eq_take_iff, List.length_take]
          omega
        · rw [List.length_take]
          omega

end Aesd.Driver
