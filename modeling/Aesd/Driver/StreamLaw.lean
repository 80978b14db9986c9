/-
Runs of calls on the device, one at a time.

The invariant survives every schedule of failures in which the entry
descriptors are allocated. In runs whose writes do not fail the device is a
function of the bytes written, however they were cut into calls.
-/

import Aesd.Driver.Refinement

namespace Aesd.Driver

open CircularBuffer LineStream AesdCircularBuffer

/-! ### The invariant in every reachable state -/

/-- `kmalloc` of the descriptor succeeds for every line of the call. -/
def Op.DescriptorsAllocated : Op → Prop
  | .write _ _ faults => ∀ index, faults.descriptorKmalloc index = false
  | .read _ _ _ => True
  | .llseek _ _ _ _ => True
  | .ioctl _ _ _ _ => True

theorem init_inv : DevInv OpenDevice.init.kernel.dev := devInv_init

theorem call_kernel_inv {device : OpenDevice} {op : Op} (allocated : op.DescriptorsAllocated)
    (inv : DevInv device.kernel.dev) : DevInv (device.call op).kernel.dev := by
  cases op with
  | write file user faults =>
      exact (aesdWrite_refines faults allocated user (device.fPos file) inv).1
  | read file count faults =>
      rw [OpenDevice.call, aesdRead_kernel faults count _ inv]
      exact inv
  | llseek file offset whence lockInterrupted =>
      rw [OpenDevice.call, aesdLlseek_kernel]
      exact inv
  | ioctl file cmd seekto faults =>
      rw [OpenDevice.call, aesdIoctl_kernel]
      exact inv

theorem run_inv {device : OpenDevice} (inv : DevInv device.kernel.dev) (ops : List Op)
    (allocated : ∀ op ∈ ops, op.DescriptorsAllocated) : DevInv (device.run ops).kernel.dev := by
  refine List.foldlRecOn (motive := fun state : OpenDevice => DevInv state.kernel.dev) ops
    OpenDevice.step inv ?_
  intro state stateInv op member
  exact call_kernel_inv (allocated op member) stateInv

/-- The kernel states that calls can produce, whatever fails besides the
allocation of descriptors. -/
def Reachable (kernel : Kernel) : Prop :=
  ∃ ops : List Op, (∀ op ∈ ops, op.DescriptorsAllocated) ∧
    (OpenDevice.init.run ops).kernel = kernel

theorem Reachable.inv {kernel : Kernel} (reachable : Reachable kernel) : DevInv kernel.dev := by
  obtain ⟨ops, allocated, rfl⟩ := reachable
  exact run_inv init_inv ops allocated

/-- The clauses every operation relies on, slot by slot. -/
structure Representation (dev : AesdDev) : Prop where
  inOffs_lt : dev.circularBuffer.inOffs < maxWriteOperationsSupported
  outOffs_lt : dev.circularBuffer.outOffs < maxWriteOperationsSupported
  full_same : dev.circularBuffer.full = true →
    dev.circularBuffer.inOffs = dev.circularBuffer.outOffs
  occupied : ∀ index, dev.circularBuffer.InWindow index →
    ∃ buffptr, (dev.circularBuffer.slot index).buffptr = some buffptr ∧
      1 ≤ (dev.circularBuffer.slot index).size ∧
      buffptr.bytes.length = (dev.circularBuffer.slot index).size ∧
      IsLine newline buffptr.bytes
  vacant : ∀ index < maxWriteOperationsSupported, ¬dev.circularBuffer.InWindow index →
    (dev.circularBuffer.slot index).buffptr = none ∧ (dev.circularBuffer.slot index).size = 0
  partial_null : dev.partialEntry.buffptr = none ↔ dev.partialEntry.size = 0
  partial_bytes : ∀ buffptr, dev.partialEntry.buffptr = some buffptr →
    buffptr.bytes.length = dev.partialEntry.size ∧ newline ∉ buffptr.bytes
  unlocked : dev.lock = false

theorem DevInv.representation {dev : AesdDev} (inv : DevInv dev) : Representation dev := by
  refine ⟨inv.ring.wellFormed.inOffs_lt, inv.ring.wellFormed.outOffs_lt,
    inv.ring.wellFormed.full_same, ?_, ?_, ?_, ?_, inv.unlocked⟩
  · rintro index ⟨step, bound, rfl⟩
    have member : dev.circularBuffer.slot
        ((dev.circularBuffer.outOffs + step) % maxWriteOperationsSupported) ∈
          dev.circularBuffer.logical := CircularWalk.mem_walk.mpr ⟨step, bound, rfl⟩
    obtain ⟨buffptr, present, size, closed⟩ := inv.ring.stored _ member
    refine ⟨buffptr, present, ?_, size, closed⟩
    rw [← size]
    exact List.length_pos_iff.mpr closed.ne_nil
  · intro index bound outside
    rw [inv.ring.wellFormed.vacant index bound outside]
    exact ⟨rfl, rfl⟩
  · rcases inv.partialStored with zero | ⟨buffptr, present, size, nonempty, _absent⟩
    · rw [zero]
      exact ⟨fun _ => rfl, fun _ => rfl⟩
    · have positive : dev.partialEntry.size ≠ 0 := by
        rw [← size]
        exact fun empty => nonempty (List.eq_nil_of_length_eq_zero empty)
      rw [present]
      exact ⟨fun impossible => (by cases impossible), fun zero => absurd zero positive⟩
  · intro buffptr present
    rcases inv.partialStored with zero | ⟨stored, storedPresent, size, _nonempty, absent⟩
    · rw [zero] at present
      cases present
    · rw [storedPresent, Option.some.injEq] at present
      subst present
      exact ⟨size, absent⟩

/-- After every call of every run the device satisfies all clauses. -/
theorem run_representation (ops : List Op) (allocated : ∀ op ∈ ops, op.DescriptorsAllocated) :
    Representation (OpenDevice.init.run ops).kernel.dev :=
  (run_inv init_inv ops allocated).representation

theorem run_representation_after_failed_copy :
    Representation (OpenDevice.init.run
      [.write 0 [97, 10, 98] { WriteFaults.none with partialKmemdup := true },
        .llseek 0 (-5) 0 false]).kernel.dev := by
  apply run_representation
  intro op member
  simp only [List.mem_cons, List.not_mem_nil, or_false] at member
  rcases member with rfl | rfl
  · exact fun _index => rfl
  · exact trivial

/-! ### The stream law -/

/-- No kernel call made by a write fails; the other calls are unrestricted. -/
def Op.WriteSucceeds : Op → Prop
  | .write _ _ faults => faults = WriteFaults.none
  | .read _ _ _ => True
  | .llseek _ _ _ _ => True
  | .ioctl _ _ _ _ => True

def Op.written : Op → Bytes
  | .write _ user _ => user
  | .read _ _ _ => []
  | .llseek _ _ _ _ => []
  | .ioctl _ _ _ _ => []

def written (ops : List Op) : Bytes := (ops.map Op.written).flatten

theorem Op.WriteSucceeds.descriptorsAllocated {op : Op} (quiet : op.WriteSucceeds) :
    op.DescriptorsAllocated := by
  cases op with
  | write file user faults =>
      change faults = WriteFaults.none at quiet
      subst quiet
      exact fun _index => rfl
  | read file count faults => exact trivial
  | llseek file offset whence lockInterrupted => exact trivial
  | ioctl file cmd seekto faults => exact trivial

theorem aesdWrite_none (user : Bytes) {kernel : Kernel} (fPos : Int) (inv : DevInv kernel.dev) :
    ∃ after : DevInv (aesdWrite WriteFaults.none user kernel fPos).kernel.dev,
      after.journal = inv.journal.feed user ∧
      (aesdWrite WriteFaults.none user kernel fPos).outcome = .returned user.length ∧
      (aesdWrite WriteFaults.none user kernel fPos).fPos = fPos + user.length := by
  obtain ⟨after, journal, outcome, position⟩ :=
    aesdWrite_refines WriteFaults.none (fun _index => rfl) user fPos inv
  rw [journalWrite_none] at journal outcome position
  rw [if_neg (by omega)] at position
  exact ⟨after, journal, outcome, position⟩

private theorem call_journal {device : OpenDevice} {op : Op} (quiet : op.WriteSucceeds)
    (inv : DevInv device.kernel.dev) (after : DevInv (device.step op).kernel.dev) :
    after.journal = inv.journal.feed op.written := by
  cases op with
  | write file user faults =>
      change faults = WriteFaults.none at quiet
      subst quiet
      exact (aesdWrite_none user (device.fPos file) inv).2.1
  | read file count faults =>
      rw [Op.written, Journal.feed_nil]
      exact journal_congr _ _ (congrArg Kernel.dev (aesdRead_kernel faults count _ inv))
  | llseek file offset whence lockInterrupted =>
      rw [Op.written, Journal.feed_nil]
      exact journal_congr _ _ (congrArg Kernel.dev (aesdLlseek_kernel _ _ _ _ _))
  | ioctl file cmd seekto faults =>
      rw [Op.written, Journal.feed_nil]
      exact journal_congr _ _ (congrArg Kernel.dev (aesdIoctl_kernel _ _ _ _ _))

/-- A run feeds the journal of the device with what it writes. -/
theorem run_journal {device : OpenDevice} (inv : DevInv device.kernel.dev) (ops : List Op)
    (quiet : ∀ op ∈ ops, op.WriteSucceeds) (after : DevInv (device.run ops).kernel.dev) :
    after.journal = inv.journal.feed (written ops) := by
  induction ops generalizing device with
  | nil => exact (Journal.feed_nil inv.journal).symm
  | cons op later ih =>
      have first := quiet op List.mem_cons_self
      have stepInv : DevInv (device.step op).kernel.dev :=
        call_kernel_inv first.descriptorsAllocated inv
      have remaining := ih stepInv
        (fun next member => quiet next (List.mem_cons_of_mem op member)) after
      refine remaining.trans ?_
      rw [call_journal first inv stepInv, Journal.feed_feed]
      rfl

theorem run_stream {ops : List Op} (quiet : ∀ op ∈ ops, op.WriteSucceeds) :
    (OpenDevice.init.run ops).kernel.dev.lines =
        (lines newline (written ops)).rtake maxWriteOperationsSupported ∧
      (OpenDevice.init.run ops).kernel.dev.pending = rest newline (written ops) := by
  have after := run_inv init_inv ops (fun op member => (quiet op member).descriptorsAllocated)
  have journal := run_journal init_inv ops quiet after
  rw [show init_inv.journal = Journal.empty from journal_init] at journal
  exact ⟨congrArg Journal.records journal, congrArg Journal.unfinished journal⟩

/-- The device after any undisturbed run: every entry is stored whole, the last
ten complete lines, the unfinished line or a cleared partial entry, the
independence of the cuts, and the return value of the next write. -/
theorem stream_law (ops : List Op) (quiet : ∀ op ∈ ops, op.WriteSucceeds) :
    Representation (OpenDevice.init.run ops).kernel.dev ∧
      (OpenDevice.init.run ops).kernel.dev.lines =
        (lines newline (written ops)).rtake maxWriteOperationsSupported ∧
      (OpenDevice.init.run ops).kernel.dev.pending = rest newline (written ops) ∧
      (rest newline (written ops) = [] →
        (OpenDevice.init.run ops).kernel.dev.partialEntry = { buffptr := none, size := 0 }) ∧
      (∀ others : List Op, (∀ op ∈ others, op.WriteSucceeds) → written others = written ops →
        (OpenDevice.init.run others).kernel.dev.lines =
            (OpenDevice.init.run ops).kernel.dev.lines ∧
          (OpenDevice.init.run others).kernel.dev.pending =
            (OpenDevice.init.run ops).kernel.dev.pending) ∧
      (∀ (file : Nat) (user : Bytes),
        ((OpenDevice.init.run ops).call (.write file user WriteFaults.none)).outcome =
          .returned user.length) := by
  have inv := run_inv init_inv ops (fun op member => (quiet op member).descriptorsAllocated)
  obtain ⟨content, unfinished⟩ := run_stream quiet
  refine ⟨inv.representation, content, unfinished, ?_, ?_, ?_⟩
  · intro ended
    rw [← unfinished] at ended
    exact inv.partialStored.pending_eq_nil_iff.mp ended
  · intro others quietOthers same
    obtain ⟨otherContent, otherUnfinished⟩ := run_stream quietOthers
    rw [otherContent, otherUnfinished, content, unfinished, same]
    exact ⟨rfl, rfl⟩
  · intro file user
    exact (aesdWrite_none user _ inv).2.2.1

def cutLine : List Op :=
  [.write 0 [97] WriteFaults.none, .read 1 5 { lockInterrupted := true, copyToUser := false },
    .write 1 [98, 10, 99] WriteFaults.none]

theorem stream_law_cutLine :
    (∀ op ∈ cutLine, op.WriteSucceeds) ∧
      (OpenDevice.init.run cutLine).kernel.dev.lines = [[97, 98, 10]] ∧
      (OpenDevice.init.run cutLine).kernel.dev.pending = [99] := by
  have quiet : ∀ op ∈ cutLine, op.WriteSucceeds := by
    intro op member
    simp only [cutLine, List.mem_cons, List.not_mem_nil, or_false] at member
    rcases member with rfl | rfl | rfl
    · rfl
    · exact trivial
    · rfl
  obtain ⟨_shape, content, pending, _cleared, _cuts, _returns⟩ := stream_law cutLine quiet
  exact ⟨quiet, content.trans (by decide), pending.trans (by decide)⟩

end Aesd.Driver
