/-
The device as its users see it.

A `LineDevice` is a journal of lines and the positions of the open files; it has
neither slots nor offsets, buffers nor a lock. Every call is described on it, with
every failure but that of a descriptor. The driver answers like it for ever, so
where the lines lie in the ring is invisible.
-/

import Aesd.Lib.Machine
import Aesd.Driver.Seeking

namespace Aesd.Driver

open CircularBuffer LineStream AesdCircularBuffer

/-! ### Calls on lines -/

def pieceAt (lines : List Bytes) (position count : Nat) : Bytes :=
  match Segments.locate (lines.map List.length) position with
  | none => []
  | some (index, offset) => ((lines.getD index []).drop offset).take count

structure LineAnswer where
  fPos : Int
  retval : Int
  data : Bytes
  deriving DecidableEq, Repr

def lineRead (faults : ReadFaults) (count : Nat) (lines : List Bytes) (fPos : Int) : LineAnswer :=
  if faults.lockInterrupted then { fPos, retval := -erestartsys, data := [] }
  else
    let piece := pieceAt lines (sizeOfLoff fPos) count
    if piece = [] then { fPos, retval := 0, data := [] }
    else if faults.copyToUser then { fPos, retval := -efault, data := [] }
    else { fPos := fPos + piece.length, retval := piece.length, data := piece }

def lineLlseek (lockInterrupted : Bool) (offset whence : Int) (lines : List Bytes) (fPos : Int) :
    LineAnswer :=
  if lockInterrupted then { fPos, retval := -erestartsys, data := [] }
  else
    let newPos := (fixedSizeLlseek fPos offset whence lines.flatten.length).2
    { fPos := newPos, retval := newPos, data := [] }

def lineSeekto (lockInterrupted : Bool) (seekto : AesdSeekto) (lines : List Bytes) (fPos : Int) :
    LineAnswer :=
  let cmd := seekto.writeCmd.toNat
  let offset := seekto.writeCmdOffset.toNat
  if maxWriteOperationsSupported ≤ cmd then { fPos, retval := -einval, data := [] }
  else if lockInterrupted then { fPos, retval := -erestartsys, data := [] }
  else if (lines.getD cmd []).length < offset then { fPos, retval := -einval, data := [] }
  else { fPos := ((lines.take cmd).flatten.length + offset : Nat), retval := 0, data := [] }

def lineIoctl (faults : IoctlFaults) (cmd : UInt32) (seekto : AesdSeekto) (lines : List Bytes)
    (fPos : Int) : LineAnswer :=
  if cmd = aesdcharIocseekto then
    if faults.copyFromUser then { fPos, retval := -efault, data := [] }
    else lineSeekto faults.lockInterrupted seekto lines fPos
  else { fPos, retval := -enotty, data := [] }

/-! ### The device -/

structure LineDevice where
  journal : DeviceJournal
  fPos : Nat → Int

namespace LineDevice

def init : LineDevice := { journal := Journal.empty, fPos := fun _ => 0 }

def call (device : LineDevice) : Op → DeviceJournal × LineAnswer
  | .write file user faults =>
      let written := journalWrite faults user device.journal
      (written.1,
        { fPos := if written.2 < 0 then device.fPos file else device.fPos file + user.length
          retval := written.2
          data := [] })
  | .read file count faults =>
      (device.journal, lineRead faults count device.journal.records (device.fPos file))
  | .llseek file offset whence lockInterrupted =>
      (device.journal,
        lineLlseek lockInterrupted offset whence device.journal.records (device.fPos file))
  | .ioctl file cmd seekto faults =>
      (device.journal, lineIoctl faults cmd seekto device.journal.records (device.fPos file))

end LineDevice

structure Reply where
  outcome : Outcome
  data : Bytes
  deriving DecidableEq, Repr

def CallResult.reply (result : CallResult) : Reply :=
  { outcome := result.outcome, data := result.data }

def LineAnswer.reply (answer : LineAnswer) : Reply :=
  { outcome := .returned answer.retval, data := answer.data }

def driver : Machine OpenDevice Op Reply :=
  { step := fun device op => (device.step op, (device.call op).reply) }

def lineDevice : Machine LineDevice Op Reply :=
  { step := fun device op =>
      ({ journal := (device.call op).1
         fPos := Function.update device.fPos op.file (device.call op).2.fPos },
        (device.call op).2.reply) }

/-! ### Single calls -/

/-- A call that leaves the device alone and answers like one on its lines. -/
def CallResult.Gives (result : CallResult) (kernel : Kernel) (answer : LineAnswer) : Prop :=
  result =
    { kernel := kernel, fPos := answer.fPos, outcome := .returned answer.retval, data := answer.data }

section Calls

variable {kernel : Kernel}

theorem aesdRead_gives (faults : ReadFaults) (count : Nat) (fPos : Int)
    (ring : RingInv kernel.dev.circularBuffer) (free : kernel.dev.lock = false) :
    (aesdRead faults count kernel fPos).Gives kernel
      (lineRead faults count kernel.dev.lines fPos) := by
  unfold CallResult.Gives lineRead pieceAt aesdRead
  cases interrupted : faults.lockInterrupted with
  | true => rfl
  | false =>
      simp only [mutexLockInterruptible, free, Bool.false_eq_true, if_false]
      rw [lookup_lines ring]
      cases found : Segments.locate (kernel.dev.lines.map List.length) (sizeOfLoff fPos) with
      | none => simp only [Option.map_none, unlock_held free, if_true]
      | some place =>
          obtain ⟨buffptr, slot, bytes, inside⟩ := found_entry ring found
          have size : ((buffptr.bytes.drop place.2).take count).length =
              min (buffptr.bytes.length - place.2) count := by
            rw [List.length_take, List.length_drop, Nat.min_comm]
          have piece : (buffptr.bytes.drop place.2).take
              (min (buffptr.bytes.length - place.2) count) =
                (buffptr.bytes.drop place.2).take count := by
            rw [List.take_eq_take_iff, List.length_drop]
            omega
          simp only [Option.map_some, slot, unlock_held free]
          rw [← bytes]
          by_cases nothing : (buffptr.bytes.drop place.2).take count = []
          · rw [if_pos nothing]
            rw [nothing, List.length_nil] at size
            rw [if_pos size.symm]
          · rw [if_neg nothing]
            have some := List.length_pos_iff.mpr nothing
            rw [if_neg (by omega)]
            cases failed : faults.copyToUser with
            | true => simp only [if_true]
            | false => simp only [Bool.false_eq_true, if_false, piece, size]

theorem aesdLlseek_gives (lockInterrupted : Bool) (offset whence : Int) (fPos : Int)
    (ring : RingInv kernel.dev.circularBuffer) (free : kernel.dev.lock = false) :
    (aesdLlseek lockInterrupted offset whence kernel fPos).Gives kernel
      (lineLlseek lockInterrupted offset whence kernel.dev.lines fPos) := by
  have total := ring.totalSize_eq
  rw [AesdDev.content] at total
  unfold CallResult.Gives lineLlseek aesdLlseek
  cases lockInterrupted with
  | true => rfl
  | false =>
      simp only [mutexLockInterruptible, free, Bool.false_eq_true, if_false, total,
        unlock_held free]

theorem length_take_flatten (lines : List Bytes) (count : Nat) :
    (lines.take count).flatten.length = ((lines.map List.length).take count).sum := by
  rw [List.length_flatten, List.map_take]

theorem aesdAdjustFileOffset_gives (lockInterrupted : Bool) (seekto : AesdSeekto) (fPos : Int)
    (ring : RingInv kernel.dev.circularBuffer) (free : kernel.dev.lock = false) :
    (aesdAdjustFileOffset lockInterrupted seekto kernel fPos).Gives kernel
      (lineSeekto lockInterrupted seekto kernel.dev.lines fPos) := by
  unfold CallResult.Gives lineSeekto aesdAdjustFileOffset
  by_cases range : maxWriteOperationsSupported ≤ seekto.writeCmd.toNat
  · simp only [if_pos range]
  · have bound := Nat.lt_of_not_le range
    have size := ring.slot_size bound
    have before := ring.sizeBefore_eq (Nat.le_of_lt bound)
    rw [Segments.getD_length] at size
    simp only [if_neg range]
    cases lockInterrupted with
    | true => rfl
    | false =>
        simp only [mutexLockInterruptible, free, Bool.false_eq_true, if_false, size, before,
          length_take_flatten, unlock_held free]
        split <;> rfl

/-- The two checks in front of the `switch` let its one case through. -/
theorem aesdIoctl_eq (faults : IoctlFaults) (cmd : UInt32) (seekto : AesdSeekto) (fPos : Int) :
    aesdIoctl faults cmd seekto kernel fPos =
      if cmd = aesdcharIocseekto then
        if faults.copyFromUser then { kernel, fPos, outcome := .returned (-efault), data := [] }
        else aesdAdjustFileOffset faults.lockInterrupted seekto kernel fPos
      else { kernel, fPos, outcome := .returned (-enotty), data := [] } := by
  unfold aesdIoctl
  by_cases same : cmd = aesdcharIocseekto
  · have magic : ¬ iocType aesdcharIocseekto ≠ aesdIocMagic := by decide
    have number : ¬ aesdcharIocMaxnr < iocNr aesdcharIocseekto := by decide
    rw [same, if_neg magic, if_neg number]
  · rw [if_neg same]
    split
    · rfl
    · split <;> rfl

theorem aesdIoctl_gives (faults : IoctlFaults) (cmd : UInt32) (seekto : AesdSeekto) (fPos : Int)
    (ring : RingInv kernel.dev.circularBuffer) (free : kernel.dev.lock = false) :
    (aesdIoctl faults cmd seekto kernel fPos).Gives kernel
      (lineIoctl faults cmd seekto kernel.dev.lines fPos) := by
  rw [aesdIoctl_eq, lineIoctl]
  split
  · split
    · rfl
    · exact aesdAdjustFileOffset_gives faults.lockInterrupted seekto fPos ring free
  · rfl

theorem aesdWrite_data (faults : WriteFaults) (user : Bytes) (kernel : Kernel) (fPos : Int) :
    (aesdWrite faults user kernel fPos).data = [] := by
  unfold aesdWrite writeLocked
  split
  · rfl
  · split
    · rfl
    · rfl
    · split
      · rfl
      · rfl
      · split
        · split <;> rfl
        · rfl

end Calls

/-! ### The driver simulates the device of lines -/

/-- The driver holds the lines and the unfinished line of the journal, and the
positions are the same. -/
structure Shows (device : OpenDevice) (lines : LineDevice) : Prop where
  inv : DevInv device.kernel.dev
  records : device.kernel.dev.lines = lines.journal.records
  unfinished : device.kernel.dev.pending = lines.journal.unfinished
  fPos : device.fPos = lines.fPos

theorem Shows.journal {device : OpenDevice} {lines : LineDevice} (shows : Shows device lines) :
    shows.inv.journal = lines.journal :=
  Journal.ext shows.records shows.unfinished

theorem shows_init : Shows OpenDevice.init LineDevice.init := by
  have journal := journal_init
  refine ⟨init_inv, ?_, ?_, rfl⟩
  · exact congrArg Journal.records journal
  · exact congrArg Journal.unfinished journal

theorem Shows.of_gives {device : OpenDevice} {lines : LineDevice} (shows : Shows device lines)
    (op : Op) {answer : LineAnswer} (gives : (device.call op).Gives device.kernel answer)
    (same : lines.call op = (lines.journal, answer)) :
    (driver.step device op).2 = (lineDevice.step lines op).2 ∧
      Shows (driver.step device op).1 (lineDevice.step lines op).1 := by
  unfold CallResult.Gives at gives
  unfold driver lineDevice OpenDevice.step
  dsimp only
  rw [gives, same]
  refine ⟨rfl, shows.inv, shows.records, shows.unfinished, ?_⟩
  rw [shows.fPos]

theorem Shows.step {device : OpenDevice} {lines : LineDevice} (shows : Shows device lines)
    {op : Op} (allocated : op.DescriptorsAllocated) :
    (driver.step device op).2 = (lineDevice.step lines op).2 ∧
      Shows (driver.step device op).1 (lineDevice.step lines op).1 := by
  have records := shows.records
  have positions := shows.fPos
  cases op with
  | write file user faults =>
      obtain ⟨after, journal, outcome, fPos⟩ :=
        aesdWrite_refines faults allocated user (device.fPos file) shows.inv
      have data := aesdWrite_data faults user device.kernel (device.fPos file)
      rw [shows.journal] at journal outcome fPos
      constructor
      · change Reply.mk _ _ = Reply.mk _ _
        rw [Reply.mk.injEq]
        exact ⟨outcome, data⟩
      · refine ⟨after, congrArg Journal.records journal, congrArg Journal.unfinished journal, ?_⟩
        change Function.update device.fPos file
          (aesdWrite faults user device.kernel (device.fPos file)).fPos = _
        rw [fPos, positions]
        rfl
  | read file count faults =>
      apply shows.of_gives (.read file count faults)
        (aesdRead_gives faults count (device.fPos file) shows.inv.ring shows.inv.unlocked)
      rw [LineDevice.call, records, positions]
  | llseek file offset whence lockInterrupted =>
      apply shows.of_gives (.llseek file offset whence lockInterrupted)
        (aesdLlseek_gives lockInterrupted offset whence (device.fPos file) shows.inv.ring
          shows.inv.unlocked)
      rw [LineDevice.call, records, positions]
  | ioctl file cmd seekto faults =>
      apply shows.of_gives (.ioctl file cmd seekto faults)
        (aesdIoctl_gives faults cmd seekto (device.fPos file) shows.inv.ring shows.inv.unlocked)
      rw [LineDevice.call, records, positions]

theorem driver_simulates : driver.Simulates lineDevice Op.DescriptorsAllocated Shows := by
  constructor
  · exact fun _device _lines _op shows allocated => (shows.step allocated).1
  · exact fun _device _lines _op shows allocated => (shows.step allocated).2

/-- Whatever is called on the device, in whatever order and on however many files,
and whatever fails in it besides the allocation of descriptors: every call returns
what the device of lines returns, and stands for it afterwards. -/
theorem driver_refines_lines (ops : List Op)
    (allocated : ∀ op ∈ ops, op.DescriptorsAllocated) :
    driver.answers OpenDevice.init ops = lineDevice.answers LineDevice.init ops ∧
      Shows (OpenDevice.init.run ops) (lineDevice.run LineDevice.init ops) :=
  ⟨driver_simulates.answers_eq shows_init ops allocated,
    driver_simulates.run_related shows_init ops allocated⟩

/-- After two histories that have left the same lines, the same unfinished line and
the same positions nobody can tell which of them it was. -/
theorem ring_layout_invisible (first second later : List Op)
    (firstAllocated : ∀ op ∈ first, op.DescriptorsAllocated)
    (secondAllocated : ∀ op ∈ second, op.DescriptorsAllocated)
    (laterAllocated : ∀ op ∈ later, op.DescriptorsAllocated)
    (sameLines : (OpenDevice.init.run first).kernel.dev.lines =
      (OpenDevice.init.run second).kernel.dev.lines)
    (samePending : (OpenDevice.init.run first).kernel.dev.pending =
      (OpenDevice.init.run second).kernel.dev.pending)
    (samePositions : (OpenDevice.init.run first).fPos = (OpenDevice.init.run second).fPos) :
    driver.answers (OpenDevice.init.run first) later =
      driver.answers (OpenDevice.init.run second) later := by
  have left : Shows (OpenDevice.init.run first) (lineDevice.run LineDevice.init first) :=
    driver_simulates.run_related shows_init first firstAllocated
  have right : Shows (OpenDevice.init.run second) (lineDevice.run LineDevice.init first) := by
    refine ⟨run_inv init_inv second secondAllocated, ?_, ?_, ?_⟩
    · exact sameLines.symm.trans left.records
    · exact samePending.symm.trans left.unfinished
    · exact samePositions.symm.trans left.fPos
  exact driver_simulates.indistinguishable left right later laterAllocated

def plainWrites (file : Nat) (pieces : List Bytes) : List Op :=
  pieces.map fun piece => .write file piece WriteFaults.none

theorem plainWrites_allocated (file : Nat) (pieces : List Bytes) :
    ∀ op ∈ plainWrites file pieces, op.DescriptorsAllocated := by
  intro op member
  obtain ⟨piece, _present, rfl⟩ := List.mem_map.mp member
  exact fun _index => rfl

theorem driver_refines_lines_cutLine :
    (∀ op ∈ plainWrites 0 [[97], [98, 10]], op.DescriptorsAllocated) ∧
      driver.answers OpenDevice.init (plainWrites 0 [[97], [98, 10]]) =
        [⟨.returned 1, []⟩, ⟨.returned 2, []⟩] := by
  have allocated := plainWrites_allocated 0 [[97], [98, 10]]
  exact ⟨allocated, (driver_refines_lines _ allocated).1.trans (by decide)⟩

theorem ring_layout_invisible_cutLine :
    driver.answers (OpenDevice.init.run (plainWrites 0 [[97], [98, 10]]))
        (plainWrites 1 [[99], [10]]) =
      driver.answers (OpenDevice.init.run (plainWrites 0 [[97, 98, 10]]))
        (plainWrites 1 [[99], [10]]) := by
  apply ring_layout_invisible
  · exact plainWrites_allocated 0 _
  · exact plainWrites_allocated 0 _
  · exact plainWrites_allocated 1 _
  · decide
  · decide
  · funext file
    cases file with
    | zero => decide
    | succ file => simp [plainWrites, OpenDevice.run, OpenDevice.step, Op.file]

end Aesd.Driver
