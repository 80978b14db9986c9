/-
The positions that seeks compute.

`aesd_llseek` sums all physical slots, `aesd_adjust_file_offset` walks from
`out_offs` without looking at `in_offs`, and the lookup of a read counts the
occupied slots. They agree because vacant slots have size 0.
-/

import Aesd.Driver.ReadStream

namespace Aesd.Driver

open CircularBuffer AesdCircularBuffer

/-! ### Sizes of slots -/

section Sizes

variable {dev : AesdDev}

/-- The slot of a command that has not been written has size 0. -/
theorem RingInv.slot_size (inv : RingInv dev.circularBuffer) {cmd : Nat}
    (bound : cmd < maxWriteOperationsSupported) :
    (dev.circularBuffer.slot
      ((dev.circularBuffer.outOffs + cmd) % maxWriteOperationsSupported)).size =
        (dev.lines.map List.length).getD cmd 0 := by
  have sizes : dev.circularBuffer.logical.map AesdBufferEntry.size =
      dev.lines.map List.length := inv.sizes
  rw [← sizes]
  by_cases occupied : cmd < dev.circularBuffer.logical.length
  · rw [slot_of_logical _ cmd occupied, List.getD_eq_getElem?_getD, List.getD_eq_getElem?_getD,
      List.getElem?_map, List.getElem?_eq_getElem occupied]
    rfl
  · have outside : ¬ dev.circularBuffer.InWindow
        ((dev.circularBuffer.outOffs + cmd) % maxWriteOperationsSupported) := by
      rintro ⟨step, inWindow, same⟩
      have stepBound := Nat.lt_of_lt_of_le inWindow dev.circularBuffer.occupied_le
      have equal := CircularWalk.offset_injective stepBound bound same
      rw [equal, ← logical_length] at inWindow
      exact occupied inWindow
    have vacant := inv.wellFormed.vacant _ (Nat.mod_lt _ (by decide)) outside
    have none : (dev.circularBuffer.logical.map AesdBufferEntry.size).getD cmd 0 = 0 := by
      rw [List.getD_eq_getElem?_getD, List.getElem?_eq_none]
      · rfl
      · rw [List.length_map]
        exact Nat.le_of_not_lt occupied
    rw [vacant, none]
    rfl

theorem take_sum_succ (sizes : List Nat) (count : Nat) :
    (sizes.take (count + 1)).sum = (sizes.take count).sum + sizes.getD count 0 := by
  rw [List.take_add_one, List.sum_append, List.getD_eq_getElem?_getD]
  cases sizes[count]? with
  | none => simp
  | some size => simp

theorem RingInv.sizeBefore_eq (inv : RingInv dev.circularBuffer) {cmd : Nat}
    (bound : cmd ≤ maxWriteOperationsSupported) :
    sizeBefore dev.circularBuffer cmd = ((dev.lines.map List.length).take cmd).sum := by
  induction cmd with
  | zero => rfl
  | succ cmd ih =>
      rw [sizeBefore, ih (Nat.le_of_succ_le bound), inv.slot_size bound, take_sum_succ]

theorem sizeBefore_eq_walk (buffer : AesdCircularBuffer Kbuf) (cmd : Nat) :
    sizeBefore buffer cmd = ((CircularWalk.walk buffer.slot maxWriteOperationsSupported
      buffer.outOffs cmd).map AesdBufferEntry.size).sum := by
  induction cmd with
  | zero => rfl
  | succ cmd ih =>
      rw [sizeBefore, ih, CircularWalk.walk_snoc, List.map_append, List.sum_append]
      simp

/-- The sum over the physical slots is that over a full turn from `out_offs`. -/
theorem totalSize_eq_sizeBefore (buffer : AesdCircularBuffer Kbuf) :
    totalSize buffer = sizeBefore buffer maxWriteOperationsSupported := by
  have positive : 0 < maxWriteOperationsSupported := Nat.zero_lt_succ 9
  have turn := (CircularWalk.walk_full_perm buffer.slot positive buffer.outOffs).map
    AesdBufferEntry.size
  rw [sizeBefore_eq_walk, totalSize, turn.sum_eq, List.map_map]
  rfl

theorem RingInv.totalSize_eq (inv : RingInv dev.circularBuffer) :
    totalSize dev.circularBuffer = dev.content.length := by
  have few : (dev.lines.map List.length).length ≤ maxWriteOperationsSupported := by
    rw [List.length_map]
    exact ringLines_length_le dev.circularBuffer
  rw [totalSize_eq_sizeBefore, inv.sizeBefore_eq (Nat.le_refl _), List.take_of_length_le few,
    content_length]

end Sizes

/-! ### The ioctl -/

def IoctlFaults.none : IoctlFaults := { copyFromUser := false, lockInterrupted := false }

/-- The slot the command names is long enough. -/
def SeekAccepted (buffer : AesdCircularBuffer Kbuf) (seekto : AesdSeekto) : Prop :=
  seekto.writeCmd.toNat < maxWriteOperationsSupported ∧
    seekto.writeCmdOffset.toNat ≤ (buffer.slot
      ((buffer.outOffs + seekto.writeCmd.toNat) % maxWriteOperationsSupported)).size

theorem aesdIoctl_seekto (seekto : AesdSeekto) (kernel : Kernel) (fPos : Int) :
    aesdIoctl IoctlFaults.none aesdcharIocseekto seekto kernel fPos =
      aesdAdjustFileOffset false seekto kernel fPos := rfl

theorem aesdIoctl_accepted {kernel : Kernel} (inv : DevInv kernel.dev) {seekto : AesdSeekto}
    (accepted : SeekAccepted kernel.dev.circularBuffer seekto) (fPos : Int) :
    aesdIoctl IoctlFaults.none aesdcharIocseekto seekto kernel fPos =
      { kernel := kernel
        fPos := ((sizeBefore kernel.dev.circularBuffer seekto.writeCmd.toNat +
          seekto.writeCmdOffset.toNat : Nat) : Int)
        outcome := .returned 0
        data := [] } := by
  obtain ⟨command, offset⟩ := accepted
  have same := aesdIoctl_kernel IoctlFaults.none aesdcharIocseekto seekto kernel fPos
  rw [aesdIoctl_seekto] at same ⊢
  rw [aesdAdjustFileOffset, if_neg (Nat.not_le.mpr command)] at same ⊢
  simp only [mutexLockInterruptible, inv.unlocked, Bool.false_eq_true, if_false,
    Nat.not_lt.mpr offset] at same ⊢
  rw [same]

theorem aesdIoctl_rejected {kernel : Kernel} (inv : DevInv kernel.dev) {seekto : AesdSeekto}
    (rejected : ¬ SeekAccepted kernel.dev.circularBuffer seekto) (fPos : Int) :
    aesdIoctl IoctlFaults.none aesdcharIocseekto seekto kernel fPos =
      { kernel := kernel, fPos := fPos, outcome := .returned (-einval), data := [] } := by
  have same := aesdIoctl_kernel IoctlFaults.none aesdcharIocseekto seekto kernel fPos
  rw [aesdIoctl_seekto] at same ⊢
  by_cases command : maxWriteOperationsSupported ≤ seekto.writeCmd.toNat
  · rw [aesdAdjustFileOffset, if_pos command]
  · have offset : (kernel.dev.circularBuffer.slot ((kernel.dev.circularBuffer.outOffs +
        seekto.writeCmd.toNat) % maxWriteOperationsSupported)).size <
          seekto.writeCmdOffset.toNat := by
      apply Nat.lt_of_not_le
      intro inside
      exact rejected ⟨Nat.lt_of_not_le command, inside⟩
    rw [aesdAdjustFileOffset, if_neg command] at same ⊢
    simp only [mutexLockInterruptible, inv.unlocked, Bool.false_eq_true, if_false, offset,
      if_true] at same ⊢
    rw [same]

theorem aesdIoctl_zero_iff {kernel : Kernel} (inv : DevInv kernel.dev) (seekto : AesdSeekto)
    (fPos : Int) :
    (aesdIoctl IoctlFaults.none aesdcharIocseekto seekto kernel fPos).outcome = .returned 0 ↔
      SeekAccepted kernel.dev.circularBuffer seekto := by
  constructor
  · intro zero
    by_contra rejected
    rw [aesdIoctl_rejected inv rejected] at zero
    exact absurd (Outcome.returned.inj zero) (by decide)
  · intro accepted
    rw [aesdIoctl_accepted inv accepted]

def ByteExists (lines : List Bytes) (seekto : AesdSeekto) : Prop :=
  seekto.writeCmd.toNat < lines.length ∧
    seekto.writeCmdOffset.toNat < (lines.getD seekto.writeCmd.toNat []).length

/-- An `AESDCHAR_IOCSEEKTO` that accepts exactly the bytes that exist. The next
read starts at the byte, and a rejected call leaves the position alone. -/
structure SeekExact (kernel : Kernel) (fPos : Int) (seekto : AesdSeekto) (result : CallResult) :
    Prop where
  accepts : result.outcome = .returned 0 ↔ ByteExists kernel.dev.lines seekto
  lands : ByteExists kernel.dev.lines seekto → ∀ count, 0 < count →
    (aesdRead ReadFaults.none count result.kernel result.fPos).data =
        ((kernel.dev.lines.getD seekto.writeCmd.toNat []).drop
          seekto.writeCmdOffset.toNat).take count ∧
      (aesdRead ReadFaults.none count result.kernel result.fPos).data ≠ []
  rejects : ¬ ByteExists kernel.dev.lines seekto →
    result.outcome = .returned (-einval) ∧ result.fPos = fPos

theorem byteExists_iff {dev : AesdDev} (inv : RingInv dev.circularBuffer) (seekto : AesdSeekto) :
    ByteExists dev.lines seekto ↔
      seekto.writeCmd.toNat < maxWriteOperationsSupported ∧
        seekto.writeCmdOffset.toNat < (dev.circularBuffer.slot
          ((dev.circularBuffer.outOffs + seekto.writeCmd.toNat) %
            maxWriteOperationsSupported)).size := by
  constructor
  · rintro ⟨command, offset⟩
    have bound := Nat.lt_of_lt_of_le command (ringLines_length_le dev.circularBuffer)
    rw [inv.slot_size bound, Segments.getD_length]
    exact ⟨bound, offset⟩
  · rintro ⟨bound, offset⟩
    rw [inv.slot_size bound, Segments.getD_length] at offset
    refine ⟨?_, offset⟩
    by_contra beyond
    rw [List.getD_eq_getElem?_getD, List.getElem?_eq_none (Nat.le_of_not_lt beyond)] at offset
    exact absurd offset (Nat.not_lt_zero _)

theorem aesdRead_byte {kernel : Kernel} (inv : DevInv kernel.dev) {seekto : AesdSeekto}
    (present : ByteExists kernel.dev.lines seekto) {count : Nat} (room : 0 < count) :
    (aesdRead ReadFaults.none count kernel
      ((sizeBefore kernel.dev.circularBuffer seekto.writeCmd.toNat +
        seekto.writeCmdOffset.toNat : Nat) : Int)).data =
      ((kernel.dev.lines.getD seekto.writeCmd.toNat []).drop
        seekto.writeCmdOffset.toNat).take count := by
  have bound := ((byteExists_iff inv.ring seekto).mp present).1
  have inside := present.2
  rw [← Segments.getD_length] at inside
  have found : Segments.locate (kernel.dev.lines.map List.length)
      (sizeOfLoff ((sizeBefore kernel.dev.circularBuffer seekto.writeCmd.toNat +
        seekto.writeCmdOffset.toNat : Nat) : Int)) =
      some (seekto.writeCmd.toNat, seekto.writeCmdOffset.toNat) := by
    rw [sizeOfLoff_natCast, inv.ring.sizeBefore_eq (Nat.le_of_lt bound)]
    exact Segments.locate_sum inside
  rw [ReadFaults.none, aesdRead_inside inv room found]

/-- The ioctl is exact except on the pair whose offset is the size of its slot:
the end of a written command, or offset 0 of one that has not been written. -/
theorem seek_exact_iff (kernel : Kernel) (reachable : Reachable kernel) (fPos : Int)
    (seekto : AesdSeekto) :
    SeekExact kernel fPos seekto
        (aesdIoctl IoctlFaults.none aesdcharIocseekto seekto kernel fPos) ↔
      ¬ (seekto.writeCmd.toNat < maxWriteOperationsSupported ∧
        seekto.writeCmdOffset.toNat = (kernel.dev.circularBuffer.slot
          ((kernel.dev.circularBuffer.outOffs + seekto.writeCmd.toNat) %
            maxWriteOperationsSupported)).size) := by
  have inv := reachable.inv
  have present := byteExists_iff inv.ring seekto
  constructor
  · rintro ⟨accepts, _lands, _rejects⟩ ⟨command, offset⟩
    have accepted : SeekAccepted kernel.dev.circularBuffer seekto := ⟨command, Nat.le_of_eq offset⟩
    have inside := (present.mp (accepts.mp ((aesdIoctl_zero_iff inv seekto fPos).mpr accepted))).2
    rw [offset] at inside
    exact absurd inside (Nat.lt_irrefl _)
  · intro notEnd
    have same : SeekAccepted kernel.dev.circularBuffer seekto ↔
        ByteExists kernel.dev.lines seekto := by
      rw [present]
      constructor
      · rintro ⟨command, offset⟩
        exact ⟨command, Nat.lt_of_le_of_ne offset fun equal => notEnd ⟨command, equal⟩⟩
      · rintro ⟨command, offset⟩
        exact ⟨command, Nat.le_of_lt offset⟩
    constructor
    · exact (aesdIoctl_zero_iff inv seekto fPos).trans same
    · intro stored count room
      have data := aesdRead_byte inv stored room
      rw [aesdIoctl_accepted inv (same.mpr stored), data]
      refine ⟨rfl, ?_⟩
      rw [Ne, List.take_eq_nil_iff, List.drop_eq_nil_iff]
      have inside := stored.2
      omega
    · intro absent
      rw [aesdIoctl_rejected inv fun accepted => absent (same.mp accepted)]
      exact ⟨rfl, rfl⟩

theorem twoLines_reachable : Reachable twoLines := by
  refine ⟨_, ?_, rfl⟩
  intro op member
  rw [List.mem_singleton.mp member]
  exact fun _index => rfl

theorem seek_exact_last_byte :
    Reachable twoLines ∧
      SeekExact twoLines 0 { writeCmd := 1, writeCmdOffset := 2 }
        (aesdIoctl IoctlFaults.none aesdcharIocseekto { writeCmd := 1, writeCmdOffset := 2 }
          twoLines 0) := by
  refine ⟨twoLines_reachable, (seek_exact_iff twoLines twoLines_reachable 0 _).mpr ?_⟩
  decide

/-- Offset 3 of a command of 3 bytes is accepted, and the next read returns the
command behind it. -/
theorem seek_past_command_accepted :
    ¬ ∀ kernel, Reachable kernel → ∀ fPos seekto,
      SeekExact kernel fPos seekto
        (aesdIoctl IoctlFaults.none aesdcharIocseekto seekto kernel fPos) := by
  intro every
  have seeks := every twoLines twoLines_reachable 0 { writeCmd := 0, writeCmdOffset := 3 }
  have stored := (seeks.accepts.mp (by decide)).2
  exact absurd stored (by decide)

/-! ### The three computations -/

theorem fixedSizeLlseek_target {fPos offset whence size target : Int}
    (targets : seekTarget fPos offset whence size = some target) (inside : 0 ≤ target)
    (atMost : target ≤ size) : fixedSizeLlseek fPos offset whence size = (target, target) := by
  unfold fixedSizeLlseek
  by_cases stays : whence = 1 ∧ offset = 0
  · obtain ⟨rfl, rfl⟩ := stays
    have here : fPos + 0 = target := Option.some.inj targets
    rw [if_pos ⟨rfl, rfl⟩, ← here, Int.add_zero]
  · rw [if_neg stays, targets]
    dsimp only
    rw [if_neg (by omega)]

theorem aesdLlseek_target {kernel : Kernel} (inv : DevInv kernel.dev) {fPos offset whence : Int}
    {target : Int}
    (targets : seekTarget fPos offset whence (totalSize kernel.dev.circularBuffer) = some target)
    (inside : 0 ≤ target) (atMost : target ≤ totalSize kernel.dev.circularBuffer) :
    aesdLlseek false offset whence kernel fPos =
      { kernel := kernel, fPos := target, outcome := .returned target, data := [] } := by
  have same := aesdLlseek_kernel false offset whence kernel fPos
  unfold aesdLlseek at same ⊢
  simp only [mutexLockInterruptible, inv.unlocked, Bool.false_eq_true, if_false,
    fixedSizeLlseek_target targets inside atMost] at same ⊢
  rw [same]

theorem sizeBefore_mono (buffer : AesdCircularBuffer Kbuf) : Monotone (sizeBefore buffer) :=
  monotone_nat_of_le_succ fun _cmd => Nat.le_add_right _ _

theorem SeekAccepted.position_le {buffer : AesdCircularBuffer Kbuf} {seekto : AesdSeekto}
    (accepted : SeekAccepted buffer seekto) :
    sizeBefore buffer seekto.writeCmd.toNat + seekto.writeCmdOffset.toNat ≤ totalSize buffer := by
  obtain ⟨command, offset⟩ := accepted
  calc sizeBefore buffer seekto.writeCmd.toNat + seekto.writeCmdOffset.toNat
      ≤ sizeBefore buffer (seekto.writeCmd.toNat + 1) := Nat.add_le_add_left offset _
    _ ≤ sizeBefore buffer maxWriteOperationsSupported := sizeBefore_mono buffer command
    _ = totalSize buffer := (totalSize_eq_sizeBefore buffer).symm

/-- The positions of a device: the total that `aesd_llseek` forms is the length of
the content and the bound of the lookup; a seek to a target up to it goes there;
and an accepted ioctl goes where `SEEK_SET` to the same number goes. -/
structure PositionsAgree (kernel : Kernel) : Prop where
  total : totalSize kernel.dev.circularBuffer = kernel.dev.content.length
  lookup : ∀ position,
    (∃ found, kernel.dev.circularBuffer.findEntryOffsetForFpos position = some (some found)) ↔
      position < totalSize kernel.dev.circularBuffer
  llseek : ∀ fPos offset whence target : Int,
    seekTarget fPos offset whence (totalSize kernel.dev.circularBuffer) = some target →
      0 ≤ target → target ≤ totalSize kernel.dev.circularBuffer →
        (aesdLlseek false offset whence kernel fPos).outcome = .returned target ∧
          (aesdLlseek false offset whence kernel fPos).fPos = target
  ioctl : ∀ (fPos : Int) (seekto : AesdSeekto),
    let sought := aesdIoctl IoctlFaults.none aesdcharIocseekto seekto kernel fPos
    sought.outcome = .returned 0 →
      sought.fPos = (((List.range seekto.writeCmd.toNat).map fun step =>
          (kernel.dev.circularBuffer.slot ((kernel.dev.circularBuffer.outOffs + step) %
            maxWriteOperationsSupported)).size).sum + seekto.writeCmdOffset.toNat : Nat) ∧
        sought.fPos ≤ totalSize kernel.dev.circularBuffer ∧
        ∀ anywhere : Int,
          let set := aesdLlseek false sought.fPos 0 kernel anywhere
          set.fPos = sought.fPos ∧
            ∀ (counts : Nat → Nat) (calls : Nat),
              readCall counts set.kernel set.fPos calls =
                readCall counts sought.kernel sought.fPos calls

/-- The three computations agree on every reachable device. -/
theorem positions_agree (kernel : Kernel) (reachable : Reachable kernel) :
    PositionsAgree kernel := by
  have inv := reachable.inv
  constructor
  · exact inv.ring.totalSize_eq
  · intro position
    have none := Segments.locate_eq_none_iff (kernel.dev.lines.map List.length) position
    rw [← content_length, ← inv.ring.totalSize_eq] at none
    rw [lookup_lines inv.ring]
    cases located : Segments.locate (kernel.dev.lines.map List.length) position with
    | none =>
        have past := none.mp located
        constructor
        · rintro ⟨found, impossible⟩
          cases impossible
        · intro before
          omega
    | some place =>
        rw [located] at none
        constructor
        · intro _
          apply Nat.lt_of_not_le
          intro past
          cases none.mpr past
        · exact fun _ => ⟨_, rfl⟩
  · intro fPos offset whence target targets inside atMost
    rw [aesdLlseek_target inv targets inside atMost]
    exact ⟨rfl, rfl⟩
  · intro fPos seekto sought zero
    have accepted := (aesdIoctl_zero_iff inv seekto fPos).mp zero
    have result : sought = _ := aesdIoctl_accepted inv accepted fPos
    have atMost : sought.fPos ≤ totalSize kernel.dev.circularBuffer := by
      rw [result]
      exact Int.ofNat_le.mpr accepted.position_le
    refine ⟨?_, atMost, ?_⟩
    · rw [result, sizeBefore_eq_walk, CircularWalk.walk, List.map_map]
      rfl
    · intro anywhere set
      have moved : set = _ := aesdLlseek_target inv rfl
        (by rw [result]; exact Int.natCast_nonneg _) atMost
      rw [moved]
      refine ⟨rfl, ?_⟩
      intro counts calls
      rw [result]

theorem positions_agree_twoLines : Reachable twoLines ∧ PositionsAgree twoLines :=
  ⟨twoLines_reachable, positions_agree twoLines twoLines_reachable⟩

end Aesd.Driver
