/-
The character device behind `file_fd`.

An open file is the driver's state with the position of the one `open` that all
connections share. The driver's invariant and a valid position are part of the
type; the calls of the server keep them when no service of the kernel fails.
-/

import Aesd.Driver.Position
import Aesd.Driver.StreamLaw
import Aesd.Server.Session

namespace Aesd.Server

open Driver CircularBuffer AesdCircularBuffer LineStream

/-! ### The open file -/

@[ext] structure OpenFile where
  kernel : Kernel
  fPos : Int
  inv : DevInv kernel.dev
  nonneg : 0 ≤ fPos

def OpenFile.init : OpenFile :=
  { kernel := OpenDevice.init.kernel, fPos := 0, inv := init_inv, nonneg := Int.le_refl 0 }

def OpenFile.lines (file : OpenFile) : List Bytes := file.kernel.dev.lines

def OpenFile.content (file : OpenFile) : Bytes := file.kernel.dev.content

def OpenFile.moveTo (file : OpenFile) (position : Nat) : OpenFile :=
  { file with fPos := position, nonneg := Int.natCast_nonneg position }

/-- The call of the driver behind a system call of the server. -/
def FileCall.op : FileCall → Op
  | .write bytes => .write 0 bytes WriteFaults.none
  | .lseekSet => .llseek 0 0 0 false
  | .read count => .read 0 count { lockInterrupted := false, copyToUser := false }
  | .ioctl seekto =>
      .ioctl 0 aesdcharIocseekto seekto { copyFromUser := false, lockInterrupted := false }

def OpenFile.device (file : OpenFile) : OpenDevice :=
  { kernel := file.kernel, fPos := fun _ => file.fPos }

theorem FileCall.op_allocated (request : FileCall) : request.op.DescriptorsAllocated := by
  cases request with
  | write bytes => exact fun _ => rfl
  | _ => trivial

theorem FileCall.op_accepted (request : FileCall) (file : OpenFile) :
    ¬ request.op.Refused file.device := by
  cases request with
  | lseekSet =>
      rintro ⟨_, _, _, outside⟩
      rcases outside 0 rfl with negative | large
      · exact absurd negative (Int.lt_irrefl 0)
      · exact absurd large (by omega)
  | _ => exact id

/-- The return of the system call. The driver's calls return in every state of
the type, so the last case does not arise. -/
def sysret (outcome : Outcome) (data : Bytes) : Ret :=
  match outcome with
  | .returned retval =>
      if retval < 0 then { value := -1, data := [], errno := -retval }
      else { value := retval, data := data, errno := 0 }
  | _ => Ret.zero

def OpenFile.serve (file : OpenFile) (request : FileCall) : OpenFile × Ret :=
  ({ kernel := (file.device.call request.op).kernel
     fPos := (file.device.call request.op).fPos
     inv := call_kernel_inv request.op_allocated file.inv
     nonneg := (call_position file.nonneg (request.op_accepted file)).1 },
    sysret (file.device.call request.op).outcome (file.device.call request.op).data)

/-! ### The calls -/

theorem serve_write (file : OpenFile) (bytes : Bytes) :
    (file.serve (.write bytes)).2.value = bytes.length ∧
      (file.serve (.write bytes)).1.inv.journal = file.inv.journal.feed bytes := by
  obtain ⟨_, journal, outcome, _⟩ := aesdWrite_none bytes file.fPos file.inv
  constructor
  · change (sysret (aesdWrite WriteFaults.none bytes file.kernel file.fPos).outcome _).value = _
    rw [outcome, sysret, if_neg (by omega)]
  · exact journal

theorem serve_line {file : OpenFile} (clean : file.kernel.dev.pending = []) {line : Bytes}
    (closed : IsLine newline line) :
    (file.serve (.write line)).1.kernel.dev.pending = [] ∧
      (file.serve (.write line)).1.lines =
        retain maxWriteOperationsSupported file.lines [line] := by
  have journal := (serve_write file line).2
  constructor
  · exact (congrArg Journal.unfinished journal).trans (Journal.feed_line_unfinished _ clean closed)
  · exact (congrArg Journal.records journal).trans (Journal.feed_line_records _ clean closed)

theorem serve_lseekSet (file : OpenFile) : (file.serve .lseekSet).1 = file.moveTo 0 := by
  apply OpenFile.ext
  · exact aesdLlseek_kernel false 0 0 file.kernel file.fPos
  · change (aesdLlseek false 0 0 file.kernel file.fPos).fPos = 0
    have free := file.inv.unlocked
    have inside : ¬ (totalSize file.kernel.dev.circularBuffer : Int) < 0 := by omega
    simp [aesdLlseek, mutexLockInterruptible, free, fixedSizeLlseek, seekTarget, inside]

theorem sizeOfLoff_nonneg {position : Int} (nonneg : 0 ≤ position) :
    sizeOfLoff position = position.toNat := if_pos nonneg

theorem serve_read_end {file : OpenFile} (past : file.content.length ≤ file.fPos.toNat) :
    file.serve (.read outBufferSize) = (file, Ret.zero) := by
  rw [← sizeOfLoff_nonneg file.nonneg] at past
  have result := aesdRead_at_end outBufferSize file.inv past
  apply Prod.ext
  · apply OpenFile.ext
    · exact congrArg CallResult.kernel result
    · exact congrArg CallResult.fPos result
  · change sysret (aesdRead _ outBufferSize file.kernel file.fPos).outcome
      (aesdRead _ outBufferSize file.kernel file.fPos).data = Ret.zero
    rw [result]
    rfl

theorem serve_read_before {file : OpenFile} (before : file.fPos.toNat < file.content.length) :
    ∃ piece, 0 < piece ∧ piece ≤ outBufferSize ∧
      file.fPos.toNat + piece ≤ file.content.length ∧
      file.serve (.read outBufferSize) =
        (file.moveTo (file.fPos.toNat + piece),
          { value := piece
            data := (file.content.drop file.fPos.toNat).take piece
            errno := 0 }) := by
  have position := sizeOfLoff_nonneg file.nonneg
  rw [← position] at before
  obtain ⟨piece, positive, fits, inside, result⟩ :=
    aesdRead_before_end file.inv (by decide : 0 < outBufferSize) before
  rw [position] at inside result
  refine ⟨piece, positive, fits, inside, ?_⟩
  have nonneg := file.nonneg
  apply Prod.ext
  · apply OpenFile.ext
    · exact congrArg CallResult.kernel result
    · refine (congrArg CallResult.fPos result).trans ?_
      change file.fPos + piece = ((file.fPos.toNat + piece : Nat) : Int)
      omega
  · change sysret (aesdRead _ outBufferSize file.kernel file.fPos).outcome
      (aesdRead _ outBufferSize file.kernel file.fPos).data = _
    rw [result, sysret, if_neg (by omega)]
    rfl

/-- The seek that `aesd_adjust_file_offset` accepts. -/
def OpenFile.Accepts (file : OpenFile) (seekto : AesdSeekto) : Prop :=
  seekto.writeCmd.toNat < maxWriteOperationsSupported ∧
    seekto.writeCmdOffset.toNat ≤ (file.kernel.dev.circularBuffer.slot
      ((file.kernel.dev.circularBuffer.outOffs + seekto.writeCmd.toNat) %
        maxWriteOperationsSupported)).size

theorem serve_ioctl (file : OpenFile) (seekto : AesdSeekto) :
    (file.serve (.ioctl seekto)).1.kernel = file.kernel ∧
      (file.serve (.ioctl seekto)).1.fPos =
        (aesdAdjustFileOffset false seekto file.kernel file.fPos).fPos ∧
      (file.serve (.ioctl seekto)).2 =
        sysret (aesdAdjustFileOffset false seekto file.kernel file.fPos).outcome
          (aesdAdjustFileOffset false seekto file.kernel file.fPos).data := by
  have typed : ¬ iocType aesdcharIocseekto ≠ aesdIocMagic := by decide
  have numbered : ¬ aesdcharIocMaxnr < iocNr aesdcharIocseekto := by decide
  have adjusts : aesdIoctl { copyFromUser := false, lockInterrupted := false } aesdcharIocseekto
      seekto file.kernel file.fPos = aesdAdjustFileOffset false seekto file.kernel file.fPos := by
    rw [aesdIoctl, if_neg typed, if_neg numbered, if_pos rfl]
    rfl
  constructor
  · exact aesdIoctl_kernel _ aesdcharIocseekto seekto file.kernel file.fPos
  · exact ⟨congrArg CallResult.fPos adjusts, by rw [← adjusts]; rfl⟩

theorem serve_ioctl_accepted {file : OpenFile} {seekto : AesdSeekto}
    (accepts : file.Accepts seekto) :
    file.serve (.ioctl seekto) =
      (file.moveTo (sizeBefore file.kernel.dev.circularBuffer seekto.writeCmd.toNat +
        seekto.writeCmdOffset.toNat), Ret.zero) := by
  obtain ⟨kernel, position, ret⟩ := serve_ioctl file seekto
  have free := file.inv.unlocked
  have inRange : ¬ maxWriteOperationsSupported ≤ seekto.writeCmd.toNat :=
    Nat.not_le.mpr accepts.1
  have inEntry := Nat.not_lt.mpr accepts.2
  apply Prod.ext
  · apply OpenFile.ext
    · exact kernel
    · rw [position]
      simp only [aesdAdjustFileOffset, mutexLockInterruptible, free, inRange, inEntry, if_false,
        Bool.false_eq_true]
      rfl
  · rw [ret]
    simp only [aesdAdjustFileOffset, mutexLockInterruptible, free, inRange, inEntry, if_false,
      Bool.false_eq_true]
    rfl

theorem serve_ioctl_refused {file : OpenFile} {seekto : AesdSeekto}
    (refuses : ¬ file.Accepts seekto) :
    file.serve (.ioctl seekto) = (file, { value := -1, data := [], errno := einval }) := by
  obtain ⟨kernel, position, ret⟩ := serve_ioctl file seekto
  have free := file.inv.unlocked
  have unmoved : (aesdAdjustFileOffset false seekto file.kernel file.fPos).fPos = file.fPos ∧
      (aesdAdjustFileOffset false seekto file.kernel file.fPos).outcome = .returned (-einval) := by
    by_cases range : maxWriteOperationsSupported ≤ seekto.writeCmd.toNat
    · simp [aesdAdjustFileOffset, range]
    · have beyond : (file.kernel.dev.circularBuffer.slot
          ((file.kernel.dev.circularBuffer.outOffs + seekto.writeCmd.toNat) %
            maxWriteOperationsSupported)).size < seekto.writeCmdOffset.toNat :=
        Nat.lt_of_not_le fun inside => refuses ⟨Nat.lt_of_not_le range, inside⟩
      simp [aesdAdjustFileOffset, mutexLockInterruptible, free, range, beyond]
  apply Prod.ext
  · apply OpenFile.ext
    · exact kernel
    · rw [position, unmoved.1]
  · rw [ret, unmoved.2]
    rfl

/-! ### The device as a file -/

theorem OpenFile.read_induction {motive : OpenFile → Prop}
    (past : ∀ file : OpenFile, file.content.length ≤ file.fPos.toNat → motive file)
    (round : ∀ (file : OpenFile) (piece : Nat), 0 < piece →
      file.fPos.toNat + piece ≤ file.content.length →
      file.serve (.read outBufferSize) =
        (file.moveTo (file.fPos.toNat + piece),
          { value := piece
            data := (file.content.drop file.fPos.toNat).take piece
            errno := 0 }) →
      motive (file.moveTo (file.fPos.toNat + piece)) → motive file)
    (file : OpenFile) : motive file := by
  -- every round leaves fewer bytes behind the position
  induction left : file.content.length - file.fPos.toNat using Nat.strong_induction_on
    generalizing file with
  | _ size ih =>
      by_cases before : file.fPos.toNat < file.content.length
      · obtain ⟨piece, positive, _fits, inside, served⟩ := serve_read_before before
        have shorter : (file.moveTo (file.fPos.toNat + piece)).content.length -
            (file.moveTo (file.fPos.toNat + piece)).fPos.toNat < size := by
          change file.content.length - (file.fPos.toNat + piece) < size
          omega
        exact round file piece positive inside served (ih _ shorter _ rfl)
      · exact past file (Nat.le_of_not_lt before)

theorem reads_end (file : OpenFile) :
    ∃ rounds, (((fun file : OpenFile => (file.serve (.read outBufferSize)).1)^[rounds]
      file).serve (.read outBufferSize)).2.value = 0 := by
  induction file using OpenFile.read_induction with
  | past file beyond =>
      refine ⟨0, ?_⟩
      change (file.serve (.read outBufferSize)).2.value = 0
      rw [serve_read_end beyond]
      rfl
  | round file piece positive inside served ih =>
      obtain ⟨rounds, ends⟩ := ih
      refine ⟨rounds + 1, ?_⟩
      rw [Function.iterate_succ_apply, served]
      exact ends

def charDevice : FileModel :=
  { State := OpenFile
    serve := OpenFile.serve
    writeAccepts := by
      intro file bytes nonempty
      rw [(serve_write file bytes).1]
      exact Int.natCast_pos.mpr (List.length_pos_iff.mpr nonempty)
    readCounts := by
      intro file
      by_cases before : file.fPos.toNat < file.content.length
      · obtain ⟨piece, _, _, inside, served⟩ := serve_read_before before
        rw [served, List.length_take, List.length_drop, Nat.min_eq_left (by omega)]
      · rw [serve_read_end (Nat.le_of_not_lt before)]
        rfl
    readFits := by
      intro file
      by_cases before : file.fPos.toNat < file.content.length
      · obtain ⟨piece, _, fits, _, served⟩ := serve_read_before before
        rw [served]
        exact (List.length_take_le _ _).trans fits
      · rw [serve_read_end (Nat.le_of_not_lt before)]
        exact Nat.zero_le _
    readEnds := reads_end }

def OpenFile.readOut (file : OpenFile) : OpenFile :=
  file.moveTo (max file.fPos.toNat file.content.length)

/-- The read loop takes everything behind the position. -/
theorem charDevice_drains (file : OpenFile) :
    Session.Drains charDevice file (file.content.drop file.fPos.toNat) file.readOut := by
  induction file using OpenFile.read_induction with
  | past file beyond =>
      have stays : file.readOut = file := by
        have nonneg := file.nonneg
        apply OpenFile.ext
        · rfl
        · change ((max file.fPos.toNat file.content.length : Nat) : Int) = file.fPos
          omega
      rw [stays, List.drop_of_length_le beyond]
      exact Session.Drains.done (serve_read_end beyond) rfl
  | round file piece positive inside served later =>
      have sameEnd : (file.moveTo (file.fPos.toNat + piece)).readOut = file.readOut := by
        apply OpenFile.ext
        · rfl
        · change ((max (file.fPos.toNat + piece) file.content.length : Nat) : Int) =
            (max file.fPos.toNat file.content.length : Nat)
          omega
      have more : Session.Drains charDevice file _ _ :=
        Session.Drains.more served (Int.natCast_pos.mpr positive) later
      rw [sameEnd] at more
      have whole : (file.content.drop file.fPos.toNat).take piece ++
          file.content.drop (file.fPos.toNat + piece) = file.content.drop file.fPos.toNat := by
        rw [← List.drop_drop, List.take_append_drop]
      rw [← whole]
      exact more

theorem charDevice_stores (file : OpenFile) (line : Bytes) :
    Session.Stores charDevice file line (file.serve (.write line)).1 := by
  have all : line.length ≤ (file.serve (.write line)).2.value.toNat := by
    rw [(serve_write file line).1, Int.toNat_natCast]
  exact Session.Stores.last rfl all

end Aesd.Server
