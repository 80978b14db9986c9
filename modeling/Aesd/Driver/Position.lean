/-
The positions of open files.

`aesd_llseek` stores the result of `fixed_size_llseek` in `f_pos` also when it
is an error code. A run keeps every position valid exactly when no seek of it
is refused.
-/

import Aesd.Driver.Refinement
import Aesd.Lib.Splits

namespace Aesd.Driver

open CircularBuffer AesdCircularBuffer

/-! ### Single calls -/

/-- The arguments on which `fixed_size_llseek` answers `-EINVAL`. -/
def SeekRefused (fPos offset whence size : Int) : Prop :=
  ¬(whence = 1 ∧ offset = 0) ∧
    ∀ target, seekTarget fPos offset whence size = some target → target < 0 ∨ size < target

def Op.Refused (device : OpenDevice) : Op → Prop
  | .llseek file offset whence lockInterrupted =>
      lockInterrupted = false ∧ device.kernel.dev.lock = false ∧
        SeekRefused (device.fPos file) offset whence
          (totalSize device.kernel.dev.circularBuffer)
  | .write _ _ _ => False
  | .read _ _ _ => False
  | .ioctl _ _ _ _ => False

def Op.IsSeek : Op → Prop
  | .llseek _ _ _ _ => True
  | .ioctl _ cmd _ _ => cmd = aesdcharIocseekto
  | .write _ _ _ => False
  | .read _ _ _ => False

theorem fixedSizeLlseek_refused {fPos offset whence size : Int}
    (refused : SeekRefused fPos offset whence size) :
    (fixedSizeLlseek fPos offset whence size).2 = -einval := by
  obtain ⟨moves, outside⟩ := refused
  rw [fixedSizeLlseek, if_neg moves]
  cases found : seekTarget fPos offset whence size with
  | none => rfl
  | some target =>
      dsimp only
      rw [if_pos (outside target found)]

theorem fixedSizeLlseek_accepted {fPos offset whence size : Int} (valid : 0 ≤ fPos)
    (accepted : ¬SeekRefused fPos offset whence size) :
    0 ≤ (fixedSizeLlseek fPos offset whence size).2 := by
  by_cases stays : whence = 1 ∧ offset = 0
  · rw [fixedSizeLlseek, if_pos stays]
    exact valid
  · rw [fixedSizeLlseek, if_neg stays]
    cases found : seekTarget fPos offset whence size with
    | none =>
        exfalso
        apply accepted
        refine ⟨stays, ?_⟩
        intro target same
        rw [found] at same
        cases same
    | some target =>
        by_cases outside : target < 0 ∨ size < target
        · exfalso
          apply accepted
          refine ⟨stays, ?_⟩
          intro other same
          rw [found, Option.some.injEq] at same
          rw [← same]
          exact outside
        · dsimp only
          rw [if_neg outside]
          omega

theorem aesdRead_fPos_le (faults : ReadFaults) (count : Nat) (kernel : Kernel) (fPos : Int) :
    fPos ≤ (aesdRead faults count kernel fPos).fPos := by
  unfold aesdRead
  split
  · exact Int.le_refl _
  · exact Int.le_refl _
  · split
    · exact Int.le_refl _
    · exact Int.le_refl _
    · dsimp only
      split
      · exact Int.le_refl _
      · split
        · exact Int.le_refl _
        · split
          · exact Int.le_refl _
          · dsimp only
            omega

theorem aesdWrite_fPos_le (faults : WriteFaults) (user : Bytes) (kernel : Kernel) (fPos : Int) :
    fPos ≤ (aesdWrite faults user kernel fPos).fPos := by
  unfold aesdWrite
  split
  · exact Int.le_refl _
  · split
    · exact Int.le_refl _
    · exact Int.le_refl _
    · unfold writeLocked
      split
      · exact Int.le_refl _
      · exact Int.le_refl _
      · split
        · split
          · exact Int.le_refl _
          · dsimp only
            omega
        · dsimp only
          omega

theorem aesdAdjustFileOffset_fPos (lockInterrupted : Bool) (seekto : AesdSeekto)
    (kernel : Kernel) (fPos : Int) :
    (aesdAdjustFileOffset lockInterrupted seekto kernel fPos).fPos = fPos ∨
      (0 ≤ (aesdAdjustFileOffset lockInterrupted seekto kernel fPos).fPos ∧
        (aesdAdjustFileOffset lockInterrupted seekto kernel fPos).outcome = .returned 0) := by
  unfold aesdAdjustFileOffset
  split
  · exact Or.inl rfl
  · split
    · exact Or.inl rfl
    · exact Or.inl rfl
    · dsimp only
      split
      · exact Or.inl rfl
      · exact Or.inr ⟨Int.natCast_nonneg _, rfl⟩

/-- An ioctl moves the position only when it returns 0. -/
theorem aesdIoctl_fPos (faults : IoctlFaults) (cmd : UInt32) (seekto : AesdSeekto)
    (kernel : Kernel) (fPos : Int) :
    (aesdIoctl faults cmd seekto kernel fPos).fPos = fPos ∨
      (0 ≤ (aesdIoctl faults cmd seekto kernel fPos).fPos ∧
        (aesdIoctl faults cmd seekto kernel fPos).outcome = .returned 0) := by
  unfold aesdIoctl
  split
  · exact Or.inl rfl
  · split
    · exact Or.inl rfl
    · split
      · split
        · exact Or.inl rfl
        · exact aesdAdjustFileOffset_fPos _ _ _ _
      · exact Or.inl rfl

/-- A seek that is not refused keeps the position valid, and one that returns
an error was interrupted before it did anything. -/
theorem aesdLlseek_accepted {device : OpenDevice} {file : Nat} {offset whence : Int}
    {lockInterrupted : Bool} (valid : 0 ≤ device.fPos file)
    (accepted : ¬(Op.llseek file offset whence lockInterrupted).Refused device) :
    let result := aesdLlseek lockInterrupted offset whence device.kernel (device.fPos file)
    0 ≤ result.fPos ∧
      ∀ retval, result.outcome = .returned retval → retval < 0 →
        result.fPos = device.fPos file := by
  dsimp only
  unfold aesdLlseek mutexLockInterruptible
  cases lockInterrupted with
  | true => exact ⟨valid, fun _retval _returned _negative => rfl⟩
  | false =>
      cases free : device.kernel.dev.lock with
      | true => exact ⟨valid, fun _retval _returned _negative => rfl⟩
      | false =>
          have inside := fixedSizeLlseek_accepted valid
            (fun refused => accepted ⟨rfl, free, refused⟩)
          refine ⟨inside, ?_⟩
          intro retval returned negative
          simp only [Bool.false_eq_true, if_false, Outcome.returned.injEq] at returned
          rw [← returned] at negative
          exact absurd inside (Int.not_le.mpr negative)

theorem call_position {device : OpenDevice} {op : Op} (valid : 0 ≤ device.fPos op.file)
    (accepted : ¬op.Refused device) :
    0 ≤ (device.call op).fPos ∧
      (op.IsSeek → ∀ retval, (device.call op).outcome = .returned retval → retval < 0 →
        (device.call op).fPos = device.fPos op.file ∧
          (device.call op).kernel = device.kernel) := by
  cases op with
  | write file user faults =>
      refine ⟨Int.le_trans valid (aesdWrite_fPos_le faults user device.kernel _), ?_⟩
      intro impossible
      cases impossible
  | read file count faults =>
      refine ⟨Int.le_trans valid (aesdRead_fPos_le faults count device.kernel _), ?_⟩
      intro impossible
      cases impossible
  | llseek file offset whence lockInterrupted =>
      obtain ⟨inside, unmoved⟩ := aesdLlseek_accepted valid accepted
      refine ⟨inside, ?_⟩
      intro _seek retval returned negative
      exact ⟨unmoved retval returned negative, aesdLlseek_kernel _ _ _ _ _⟩
  | ioctl file cmd seekto faults =>
      have moved := aesdIoctl_fPos faults cmd seekto device.kernel (device.fPos file)
      constructor
      · rcases moved with same | ⟨inside, _returned⟩
        · change 0 ≤ (aesdIoctl faults cmd seekto device.kernel (device.fPos file)).fPos
          rw [same]
          exact valid
        · exact inside
      · intro _seek retval returned negative
        refine ⟨?_, aesdIoctl_kernel _ _ _ _ _⟩
        rcases moved with same | ⟨_inside, zero⟩
        · exact same
        · change (aesdIoctl faults cmd seekto device.kernel (device.fPos file)).outcome = _ at returned
          rw [zero, Outcome.returned.injEq] at returned
          omega

/-! ### Whole runs -/

/-- After every call of the run the position of the file it was made on is
valid, and a failed seek has changed neither the position nor the device. -/
def PositionsValid (ops : List Op) : Prop :=
  ∀ earlier op later, ops = earlier ++ op :: later →
    let before := OpenDevice.init.run earlier
    0 ≤ (before.call op).fPos ∧
      (op.IsSeek → ∀ retval, (before.call op).outcome = .returned retval → retval < 0 →
        (before.call op).fPos = before.fPos op.file ∧ (before.call op).kernel = before.kernel)

def SeeksAccepted (ops : List Op) : Prop :=
  ∀ earlier op later, ops = earlier ++ op :: later → ¬op.Refused (OpenDevice.init.run earlier)

private theorem SeeksAccepted.of_append {earlier later : List Op}
    (accepted : SeeksAccepted (earlier ++ later)) : SeeksAccepted earlier :=
  AtEachStep.of_append accepted

theorem run_fPos_nonneg (ops : List Op) (accepted : SeeksAccepted ops) (file : Nat) :
    0 ≤ (OpenDevice.init.run ops).fPos file := by
  induction ops using List.reverseRecOn generalizing file with
  | nil => exact Int.le_refl 0
  | append_singleton earlier op ih =>
      have valid := ih accepted.of_append
      have step := call_position (valid op.file) (accepted earlier op [] rfl)
      rw [OpenDevice.run, List.foldl_append]
      change 0 ≤ Function.update (OpenDevice.init.run earlier).fPos op.file
        ((OpenDevice.init.run earlier).call op).fPos file
      by_cases same : file = op.file
      · subst same
        rw [Function.update_self]
        exact step.1
      · rw [Function.update_of_ne same]
        exact valid file

/-- A run keeps every position valid exactly when none of its seeks is refused. -/
theorem positions_valid_iff (ops : List Op) : PositionsValid ops ↔ SeeksAccepted ops := by
  constructor
  · intro valid earlier op later split refused
    obtain ⟨nonneg, _unmoved⟩ := valid earlier op later split
    cases op with
    | write file user faults => cases refused
    | read file count faults => cases refused
    | ioctl file cmd seekto faults => cases refused
    | llseek file offset whence lockInterrupted =>
        obtain ⟨waits, free, outside⟩ := refused
        subst waits
        have stored : ((OpenDevice.init.run earlier).call
            (.llseek file offset whence false)).fPos = -einval := by
          rw [← fixedSizeLlseek_refused outside]
          simp only [OpenDevice.call, aesdLlseek, mutexLockInterruptible, free,
            Bool.false_eq_true, if_false]
        rw [stored] at nonneg
        exact absurd nonneg (by decide)
  · intro accepted earlier op later split
    apply call_position
    · apply run_fPos_nonneg earlier
      rw [split] at accepted
      exact accepted.of_append
    · exact accepted earlier op later split

/-- Seeking before the start of an empty device stores `-EINVAL` as the position. -/
theorem refused_seek_breaks_position : ¬PositionsValid [.llseek 0 (-1) 0 false] := by
  intro valid
  obtain ⟨nonneg, _unmoved⟩ := valid [] _ [] rfl
  exact absurd nonneg (by decide)

end Aesd.Driver
