/-
The file operations of the character driver (main.c).

Each operation is a function of the kernel state, of the position of the open
file it is called on and of a schedule saying which of the calls it makes into
the kernel fail. Positions are integers: the VFS refuses a transfer whose end
leaves the range of `loff_t`, so their additions do not wrap. The length of a
user buffer is the `count` argument.
-/

import Aesd.Driver.CircularBuffer
import Mathlib.Data.UInt

namespace Aesd.Driver

open CircularBuffer

abbrev Bytes := List UInt8

def newline : UInt8 := 10

/-! ### Kernel services -/

def enomem : Int := 12

def efault : Int := 14

def einval : Int := 22

def enotty : Int := 25

def erestartsys : Int := 512

/-- A `const char *` to an allocation: its identity, and the bytes that were
copied into it when it was made and are never changed afterwards. -/
structure Kbuf where
  id : Nat
  bytes : Bytes
  deriving DecidableEq, Repr

/-- The allocator, with a record of what was freed and of frees of something
that was not live. -/
structure Slab where
  next : Nat
  live : List Nat
  freed : List Nat
  wild : List Nat
  deriving DecidableEq, Repr

def Slab.empty : Slab := { next := 0, live := [], freed := [], wild := [] }

def Slab.kmalloc (slab : Slab) (fails : Bool) : Slab × Option Nat :=
  if fails then (slab, none)
  else ({ slab with next := slab.next + 1, live := slab.next :: slab.live }, some slab.next)

def Slab.kmemdup (slab : Slab) (fails : Bool) (bytes : Bytes) : Slab × Option Kbuf :=
  match slab.kmalloc fails with
  | (slab, none) => (slab, none)
  | (slab, some id) => (slab, some { id := id, bytes := bytes })

def Slab.kfreeConst (slab : Slab) (id : Nat) : Slab :=
  if id ∈ slab.live then { slab with live := slab.live.erase id, freed := slab.freed ++ [id] }
  else { slab with wild := slab.wild ++ [id] }

def sizeOfLoff (position : Int) : Nat :=
  if 0 ≤ position then position.toNat else (position + 2 ^ 64).toNat

/-! ### Device state -/

structure AesdDev where
  lock : Bool
  circularBuffer : AesdCircularBuffer Kbuf
  partialEntry : AesdBufferEntry Kbuf
  deriving DecidableEq, Repr

structure Kernel where
  dev : AesdDev
  slab : Slab
  deriving DecidableEq, Repr

/-- How a call ends: with a return value, in a NULL dereference, or not at all
because it waits for a lock that is held or does not leave a loop. -/
inductive Outcome where
  | returned (retval : Int)
  | oops
  | stuck
  deriving DecidableEq, Repr

/-- What a call leaves behind; `data` is what it copied to the user. -/
structure CallResult where
  kernel : Kernel
  fPos : Int
  outcome : Outcome
  data : Bytes
  deriving DecidableEq, Repr

inductive LockResult where
  | interrupted
  | blocked
  | acquired (dev : AesdDev)

def mutexLockInterruptible (interrupted : Bool) (dev : AesdDev) : LockResult :=
  if interrupted then .interrupted
  else if dev.lock then .blocked
  else .acquired { dev with lock := true }

def mutexUnlock (dev : AesdDev) : AesdDev := { dev with lock := false }

def Kernel.unlock (kernel : Kernel) : Kernel := { kernel with dev := mutexUnlock kernel.dev }

def aesdInitModule : AesdDev :=
  { lock := false
    circularBuffer := AesdCircularBuffer.init
    partialEntry := AesdBufferEntry.zero }

/-! ### aesd_read -/

structure ReadFaults where
  lockInterrupted : Bool
  copyToUser : Bool
  deriving DecidableEq, Repr

def aesdRead (faults : ReadFaults) (count : Nat) (kernel : Kernel) (fPos : Int) : CallResult :=
  match mutexLockInterruptible faults.lockInterrupted kernel.dev with
  | .interrupted => { kernel, fPos, outcome := .returned (-erestartsys), data := [] }
  | .blocked => { kernel, fPos, outcome := .stuck, data := [] }
  | .acquired dev =>
      let held : Kernel := { kernel with dev := dev }
      match dev.circularBuffer.findEntryOffsetForFpos (sizeOfLoff fPos) with
      | none => { kernel := held, fPos, outcome := .stuck, data := [] }
      | some none => { kernel := held.unlock, fPos, outcome := .returned 0, data := [] }
      | some (some (index, entryOffset)) =>
          let entry := dev.circularBuffer.slot index
          let bytesToCopy := min (entry.size - entryOffset) count
          if bytesToCopy = 0 then
            { kernel := held.unlock, fPos, outcome := .returned 0, data := [] }
          else
            match entry.buffptr with
            | none => { kernel := held, fPos, outcome := .oops, data := [] }
            | some buffptr =>
                if faults.copyToUser then
                  { kernel := held.unlock, fPos, outcome := .returned (-efault), data := [] }
                else
                  { kernel := held.unlock
                    fPos := fPos + bytesToCopy
                    outcome := .returned bytesToCopy
                    data := (buffptr.bytes.drop entryOffset).take bytesToCopy }

/-! ### aesd_write -/

/-- Which calls of one `aesd_write` fail. The descriptor and the copy of a line
are allocated once per line, so their failures are indexed by the line. -/
structure WriteFaults where
  stagingKmalloc : Bool
  copyFromUser : Bool
  lockInterrupted : Bool
  descriptorKmalloc : Nat → Bool
  lineKmemdup : Nat → Bool
  partialKmemdup : Bool

def WriteFaults.none : WriteFaults :=
  { stagingKmalloc := false
    copyFromUser := false
    lockInterrupted := false
    descriptorKmalloc := fun _ => false
    lineKmemdup := fun _ => false
    partialKmemdup := false }

/-- What `memcpy` moves to the front of the staging buffer. Without a buffer
behind `partial` the space stays uninitialised. -/
def AesdDev.pending (dev : AesdDev) : Bytes :=
  match dev.partialEntry.buffptr with
  | some buffptr => buffptr.bytes.take dev.partialEntry.size
  | none => List.replicate dev.partialEntry.size 0

def Kernel.releasePartial (kernel : Kernel) : Kernel :=
  match kernel.dev.partialEntry.buffptr with
  | some buffptr =>
      { dev := { kernel.dev with partialEntry := AesdBufferEntry.zero }
        slab := kernel.slab.kfreeConst buffptr.id }
  | none => kernel

/-- `aesd_write` up to the lock: the staging buffer, or the jump to `out` with
`-ENOMEM`. The assignment of `-EFAULT` stands behind the `goto` that leaves
after a failed `copy_from_user`, so it is never made. -/
def writeStage (faults : WriteFaults) (user : Bytes) (kernel : Kernel) : Kernel × Option Kbuf :=
  match kernel.slab.kmalloc faults.stagingKmalloc with
  | (_, none) => (kernel, none)
  | (slab, some id) =>
      if faults.copyFromUser then ({ kernel with slab := slab.kfreeConst id }, none)
      else
        ({ kernel with slab := slab }.releasePartial,
          some { id := id, bytes := kernel.dev.pending ++ user })

/-- How the line loop is left: through its guard, by `goto release`, or in the
store through a NULL descriptor. -/
inductive LineExit where
  | finished (working : Bytes)
  | release (retval : Int)
  | oops
  deriving DecidableEq, Repr

def memchr (working : Bytes) (byte : UInt8) : Option Nat := working.idxOf? byte

/-- The line loop. Every round consumes at least one byte, so the length of the
working span bounds the rounds and is passed as fuel. -/
def writeLines (faults : WriteFaults) : Nat → Nat → Bytes → Kernel → Kernel × LineExit
  | 0, _, working, kernel => (kernel, .finished working)
  | fuel + 1, index, working, kernel =>
      match memchr working newline with
      | none => (kernel, .finished working)
      | some newLine =>
          let bytesToCopy := newLine + 1
          match kernel.slab.kmalloc (faults.descriptorKmalloc index) with
          | (slab, none) =>
              -- the copy is made before it is stored through the NULL descriptor
              let copied := slab.kmemdup (faults.lineKmemdup index) (working.take bytesToCopy)
              ({ kernel with slab := copied.1 }, .oops)
          | (slab, some _descriptor) =>
              match slab.kmemdup (faults.lineKmemdup index) (working.take bytesToCopy) with
              | (slab, none) => ({ kernel with slab := slab }, .release (-einval))
              | (slab, some copy) =>
                  let (ring, garbage) := kernel.dev.circularBuffer.addEntry
                    { buffptr := some copy, size := bytesToCopy }
                  let slab :=
                    match garbage with
                    | some buffptr => slab.kfreeConst buffptr.id
                    | none => slab
                  writeLines faults fuel (index + 1) (working.drop bytesToCopy)
                    { dev := { kernel.dev with circularBuffer := ring }, slab := slab }

def writeRelease (staging : Kbuf) (kernel : Kernel) : Kernel :=
  { dev := mutexUnlock kernel.dev, slab := kernel.slab.kfreeConst staging.id }

def writeLocked (faults : WriteFaults) (count : Nat) (staging : Kbuf) (kernel : Kernel)
    (fPos : Int) : CallResult :=
  match writeLines faults staging.bytes.length 0 staging.bytes kernel with
  | (kernel, .oops) => { kernel, fPos, outcome := .oops, data := [] }
  | (kernel, .release retval) =>
      { kernel := writeRelease staging kernel, fPos, outcome := .returned retval, data := [] }
  | (kernel, .finished working) =>
      if 0 < working.length then
        match kernel.slab.kmemdup faults.partialKmemdup working with
        | (slab, none) =>
            let dev :=
              { kernel.dev with partialEntry := { kernel.dev.partialEntry with buffptr := none } }
            { kernel := writeRelease staging { dev := dev, slab := slab }
              fPos
              outcome := .returned (-enomem)
              data := [] }
        | (slab, some copy) =>
            let dev :=
              { kernel.dev with partialEntry := { buffptr := some copy, size := working.length } }
            { kernel := writeRelease staging { dev := dev, slab := slab }
              fPos := fPos + count
              outcome := .returned count
              data := [] }
      else
        { kernel := writeRelease staging kernel
          fPos := fPos + count
          outcome := .returned count
          data := [] }

def aesdWrite (faults : WriteFaults) (user : Bytes) (kernel : Kernel) (fPos : Int) : CallResult :=
  match writeStage faults user kernel with
  | (kernel, none) => { kernel, fPos, outcome := .returned (-enomem), data := [] }
  | (kernel, some staging) =>
      match mutexLockInterruptible faults.lockInterrupted kernel.dev with
      | .interrupted =>
          { kernel := { kernel with slab := kernel.slab.kfreeConst staging.id }
            fPos
            outcome := .returned (-erestartsys)
            data := [] }
      | .blocked => { kernel, fPos, outcome := .stuck, data := [] }
      | .acquired dev => writeLocked faults user.length staging { kernel with dev := dev } fPos

/-! ### aesd_llseek -/

def seekTarget (fPos offset whence size : Int) : Option Int :=
  if whence = 0 then some offset
  else if whence = 1 then some (fPos + offset)
  else if whence = 2 then some (size + offset)
  else none

/-- The kernel's `fixed_size_llseek`: the new `f_pos` and the return value. -/
def fixedSizeLlseek (fPos offset whence size : Int) : Int × Int :=
  if whence = 1 ∧ offset = 0 then (fPos, fPos)
  else
    match seekTarget fPos offset whence size with
    | none => (fPos, -einval)
    | some target =>
        if target < 0 ∨ size < target then (fPos, -einval) else (target, target)

def totalSize (buffer : AesdCircularBuffer Kbuf) : Nat :=
  ((List.range maxWriteOperationsSupported).map (fun index => (buffer.slot index).size)).sum

def aesdLlseek (lockInterrupted : Bool) (offset whence : Int) (kernel : Kernel) (fPos : Int) :
    CallResult :=
  match mutexLockInterruptible lockInterrupted kernel.dev with
  | .interrupted => { kernel, fPos, outcome := .returned (-erestartsys), data := [] }
  | .blocked => { kernel, fPos, outcome := .stuck, data := [] }
  | .acquired dev =>
      let held : Kernel := { kernel with dev := dev }
      let newPos := (fixedSizeLlseek fPos offset whence (totalSize dev.circularBuffer)).2
      -- `filp->f_pos = new_pos` is made whether or not the seek was accepted
      { kernel := held.unlock, fPos := newPos, outcome := .returned newPos, data := [] }

/-! ### aesd_ioctl -/

structure AesdSeekto where
  writeCmd : UInt32
  writeCmdOffset : UInt32
  deriving DecidableEq, Repr

def aesdIocMagic : UInt32 := 0x74

def aesdcharIocMaxnr : UInt32 := 1

/-- `_IOWR(AESD_IOC_MAGIC, 1, struct aesd_seekto)`: direction 3, size 8. -/
def aesdcharIocseekto : UInt32 := 0xC0087401

def iocType (cmd : UInt32) : UInt32 := (cmd >>> 8) &&& 0xFF

def iocNr (cmd : UInt32) : UInt32 := cmd &&& 0xFF

/-- The loop of `aesd_adjust_file_offset`: the sizes of the first `cmds` slots
counted from `outOffs`. -/
def sizeBefore (buffer : AesdCircularBuffer Kbuf) : Nat → Nat
  | 0 => 0
  | cmds + 1 =>
      sizeBefore buffer cmds +
        (buffer.slot ((buffer.outOffs + cmds) % maxWriteOperationsSupported)).size

def aesdAdjustFileOffset (lockInterrupted : Bool) (seekto : AesdSeekto) (kernel : Kernel)
    (fPos : Int) : CallResult :=
  if maxWriteOperationsSupported ≤ seekto.writeCmd.toNat then
    { kernel, fPos, outcome := .returned (-einval), data := [] }
  else
    match mutexLockInterruptible lockInterrupted kernel.dev with
    | .interrupted => { kernel, fPos, outcome := .returned (-erestartsys), data := [] }
    | .blocked => { kernel, fPos, outcome := .stuck, data := [] }
    | .acquired dev =>
        let held : Kernel := { kernel with dev := dev }
        let cmd := seekto.writeCmd.toNat
        let pos := sizeBefore dev.circularBuffer cmd
        let entry := dev.circularBuffer.slot
          ((dev.circularBuffer.outOffs + cmd) % maxWriteOperationsSupported)
        if entry.size < seekto.writeCmdOffset.toNat then
          { kernel := held.unlock, fPos, outcome := .returned (-einval), data := [] }
        else
          { kernel := held.unlock
            fPos := ((pos + seekto.writeCmdOffset.toNat : Nat) : Int)
            outcome := .returned 0
            data := [] }

structure IoctlFaults where
  copyFromUser : Bool
  lockInterrupted : Bool
  deriving DecidableEq, Repr

def aesdIoctl (faults : IoctlFaults) (cmd : UInt32) (seekto : AesdSeekto) (kernel : Kernel)
    (fPos : Int) : CallResult :=
  if iocType cmd ≠ aesdIocMagic then
    { kernel, fPos, outcome := .returned (-enotty), data := [] }
  else if aesdcharIocMaxnr < iocNr cmd then
    { kernel, fPos, outcome := .returned (-enotty), data := [] }
  else if cmd = aesdcharIocseekto then
    if faults.copyFromUser then { kernel, fPos, outcome := .returned (-efault), data := [] }
    else aesdAdjustFileOffset faults.lockInterrupted seekto kernel fPos
  else { kernel, fPos, outcome := .returned (-enotty), data := [] }

/-! ### aesd_cleanup_module -/

/-- The body of the `AESD_CIRCULAR_BUFFER_FOREACH` loop, which visits the slots
in the order of the array. The size of a freed slot is left as it was. -/
def freeSlot (kernel : Kernel) (index : Nat) : Kernel :=
  let ring := kernel.dev.circularBuffer
  match (ring.slot index).buffptr with
  | some buffptr =>
      let emptied := { ring.slot index with buffptr := none }
      { dev :=
          { kernel.dev with
            circularBuffer := { ring with entry := ring.entry.setIfInBounds index emptied } }
        slab := kernel.slab.kfreeConst buffptr.id }
  | none => kernel

def aesdCleanupModule (kernel : Kernel) : Kernel :=
  ((List.range maxWriteOperationsSupported).foldl freeSlot kernel).releasePartial

/-! ### Runs of calls -/

structure OpenDevice where
  kernel : Kernel
  fPos : Nat → Int

def OpenDevice.init : OpenDevice :=
  { kernel := { dev := aesdInitModule, slab := Slab.empty }
    fPos := fun _ => 0 }

inductive Op where
  | write (file : Nat) (user : Bytes) (faults : WriteFaults)
  | read (file : Nat) (count : Nat) (faults : ReadFaults)
  | llseek (file : Nat) (offset whence : Int) (lockInterrupted : Bool)
  | ioctl (file : Nat) (cmd : UInt32) (seekto : AesdSeekto) (faults : IoctlFaults)

def Op.file : Op → Nat
  | .write file _ _ => file
  | .read file _ _ => file
  | .llseek file _ _ _ => file
  | .ioctl file _ _ _ => file

def OpenDevice.call (device : OpenDevice) (op : Op) : CallResult :=
  match op with
  | .write file user faults => aesdWrite faults user device.kernel (device.fPos file)
  | .read file count faults => aesdRead faults count device.kernel (device.fPos file)
  | .llseek file offset whence lockInterrupted =>
      aesdLlseek lockInterrupted offset whence device.kernel (device.fPos file)
  | .ioctl file cmd seekto faults =>
      aesdIoctl faults cmd seekto device.kernel (device.fPos file)

def OpenDevice.step (device : OpenDevice) (op : Op) : OpenDevice :=
  let result := device.call op
  { kernel := result.kernel, fPos := Function.update device.fPos op.file result.fPos }

def OpenDevice.run (device : OpenDevice) (ops : List Op) : OpenDevice :=
  ops.foldl OpenDevice.step device

end Aesd.Driver
