/-
How `aesd_write` ends, by what fails in it.

A call stops at the first of its kernel calls that fails, so one failure at
most decides how it ends: `firstFailure` names it from the schedule and from
the text of the working span alone. What the code makes of it is compared with
what a caller may expect.
-/

import Aesd.Lib.Splits
import Aesd.Driver.StreamLaw

namespace Aesd.Driver

open CircularBuffer LineStream AesdCircularBuffer

/-! ### What fails first -/

inductive WriteFailure where
  | staging
  | copyFromUser
  | lock
  | descriptor (line : Nat)
  | lineCopy (line : Nat)
  | partialCopy
  deriving DecidableEq, Repr

def WriteFailure.isAllocation : WriteFailure → Bool
  | .staging => true
  | .copyFromUser => false
  | .lock => false
  | .descriptor _ => true
  | .lineCopy _ => true
  | .partialCopy => true

/-- A descriptor and a copy are allocated for each line, in this order. -/
def firstLineFailure (faults : WriteFaults) : Nat → List Bytes → Option WriteFailure
  | _, [] => none
  | index, _ :: later =>
      if faults.descriptorKmalloc index then some (.descriptor index)
      else if faults.lineKmemdup index then some (.lineCopy index)
      else firstLineFailure faults (index + 1) later

/-- The failures behind the lock; the rest is copied only if there is one. -/
def lockedFailure (faults : WriteFaults) (working : Bytes) : Option WriteFailure :=
  (firstLineFailure faults 0 (lines newline working)).or
    (if rest newline working ≠ [] ∧ faults.partialKmemdup = true then some .partialCopy else none)

def firstFailure (faults : WriteFaults) (working : Bytes) : Option WriteFailure :=
  if faults.stagingKmalloc then some .staging
  else if faults.copyFromUser then some .copyFromUser
  else if faults.lockInterrupted then some .lock
  else lockedFailure faults working

/-! ### What the code makes of it -/

def writeOutcome (count : Nat) : Option WriteFailure → Outcome
  | none => .returned count
  | some .staging => .returned (-enomem)
  | some .copyFromUser => .returned (-enomem)
  | some .lock => .returned (-erestartsys)
  | some (.descriptor _) => .oops
  | some (.lineCopy _) => .returned (-einval)
  | some .partialCopy => .returned (-enomem)

def lineLoopExit (working : Bytes) : Option WriteFailure → LineExit
  | none => .finished working
  | some (.descriptor _) => .oops
  | some _ => .release (-einval)

theorem writeLines_exit (faults : WriteFaults) (fuel index : Nat) (working : Bytes)
    (kernel : Kernel) (enough : working.length ≤ fuel) :
    (writeLines faults fuel index working kernel).2 =
      lineLoopExit (rest newline working)
        (firstLineFailure faults index (lines newline working)) := by
  induction fuel generalizing index working kernel with
  | zero =>
      have empty : working = [] := List.eq_nil_of_length_eq_zero (Nat.le_zero.mp enough)
      subst working
      rfl
  | succ fuel ih =>
      cases found : memchr working newline with
      | none =>
          have absent : newline ∉ working := List.idxOf?_eq_none_iff.mp found
          rw [lines_of_not_mem absent, rest_of_not_mem absent]
          simp only [writeLines, found, firstLineFailure, lineLoopExit]
      | some newLine =>
          rw [lines_of_idxOf? found, rest_of_idxOf? found, firstLineFailure]
          cases descriptor : faults.descriptorKmalloc index with
          | true =>
              simp [writeLines, found, Slab.kmalloc, descriptor, lineLoopExit]
          | false =>
              cases copy : faults.lineKmemdup index with
              | true =>
                  simp [writeLines, found, Slab.kmalloc, Slab.kmemdup, descriptor, copy,
                    lineLoopExit]
              | false =>
                  have shorter : (working.drop (newLine + 1)).length ≤ fuel := by
                    rw [List.length_drop]
                    omega
                  obtain ⟨_copy, slab, _bytes, round⟩ :=
                    writeLines_round fuel kernel found descriptor copy
                  rw [round]
                  exact ih (index + 1) (working.drop (newLine + 1)) _ shorter

/-- How a call ends once its first failure is known. -/
structure EndsWith (count : Nat) (fPos : Int) (failure : Option WriteFailure)
    (result : CallResult) : Prop where
  outcome_eq : result.outcome = writeOutcome count failure
  fPos_eq : result.fPos = if failure = none then fPos + count else fPos
  lock_eq : (∀ line, failure ≠ some (.descriptor line)) → result.kernel.dev.lock = false

theorem firstLineFailure_cases {faults : WriteFaults} {index : Nat} {added : List Bytes}
    {failure : WriteFailure} (failed : firstLineFailure faults index added = some failure) :
    (∃ line, failure = .descriptor line) ∨ ∃ line, failure = .lineCopy line := by
  induction added generalizing index with
  | nil => cases failed
  | cons first later ih =>
      rw [firstLineFailure] at failed
      cases descriptor : faults.descriptorKmalloc index with
      | true =>
          rw [descriptor, if_pos rfl, Option.some.injEq] at failed
          exact Or.inl ⟨index, failed.symm⟩
      | false =>
          rw [descriptor, if_neg Bool.false_ne_true] at failed
          cases copy : faults.lineKmemdup index with
          | true =>
              rw [copy, if_pos rfl, Option.some.injEq] at failed
              exact Or.inr ⟨index, failed.symm⟩
          | false =>
              rw [copy, if_neg Bool.false_ne_true] at failed
              exact ih failed

theorem writeLocked_ends (faults : WriteFaults) (count : Nat) (staging : Kbuf) (kernel : Kernel)
    (fPos : Int) :
    EndsWith count fPos (lockedFailure faults staging.bytes)
      (writeLocked faults count staging kernel fPos) := by
  have exit := writeLines_exit faults staging.bytes.length 0 staging.bytes kernel (Nat.le_refl _)
  cases ran : writeLines faults staging.bytes.length 0 staging.bytes kernel with
  | mk middle left =>
      rw [ran] at exit
      change left = _ at exit
      subst exit
      rw [writeLocked, ran, lockedFailure]
      cases failed : firstLineFailure faults 0 (lines newline staging.bytes) with
      | none =>
          rw [Option.none_or]
          by_cases ended : rest newline staging.bytes = []
          · have nothing : ¬ (rest newline staging.bytes ≠ [] ∧ faults.partialKmemdup = true) := by
              intro copies
              exact copies.1 ended
            rw [if_neg nothing, lineLoopExit, ended]
            exact ⟨rfl, rfl, fun _ => rfl⟩
          · have longer : 0 < (rest newline staging.bytes).length := List.length_pos_iff.mpr ended
            rw [lineLoopExit]
            simp only [if_pos longer]
            cases copy : faults.partialKmemdup with
            | true =>
                rw [if_pos ⟨ended, rfl⟩]
                exact ⟨rfl, rfl, fun _ => rfl⟩
            | false =>
                rw [if_neg (fun copies => Bool.false_ne_true copies.2)]
                exact ⟨rfl, rfl, fun _ => rfl⟩
      | some failure =>
          rw [Option.some_or]
          rcases firstLineFailure_cases failed with ⟨line, rfl⟩ | ⟨line, rfl⟩
          · exact ⟨rfl, rfl, fun other => absurd rfl (other line)⟩
          · exact ⟨rfl, rfl, fun _ => rfl⟩

theorem releasePartial_lock (kernel : Kernel) :
    kernel.releasePartial.dev.lock = kernel.dev.lock := by
  cases present : kernel.dev.partialEntry.buffptr with
  | none => simp only [Kernel.releasePartial, present]
  | some buffptr => simp only [Kernel.releasePartial, present]

theorem writeStage_lock (faults : WriteFaults) (user : Bytes) (kernel : Kernel) :
    (writeStage faults user kernel).1.dev.lock = kernel.dev.lock := by
  cases allocation : faults.stagingKmalloc with
  | true => simp [writeStage, Slab.kmalloc, allocation]
  | false =>
      cases copy : faults.copyFromUser with
      | true => simp [writeStage, Slab.kmalloc, allocation, copy]
      | false =>
          simp only [writeStage, Slab.kmalloc, allocation, copy, Bool.false_eq_true, if_false]
          exact releasePartial_lock _

theorem writeStage_bytes {faults : WriteFaults} (user : Bytes) (kernel : Kernel)
    (allocated : faults.stagingKmalloc = false) (copied : faults.copyFromUser = false) :
    ∃ staging, (writeStage faults user kernel).2 = some staging ∧
      staging.bytes = kernel.dev.pending ++ user := by
  simp only [writeStage, Slab.kmalloc, allocated, copied, Bool.false_eq_true, if_false]
  exact ⟨_, rfl, rfl⟩

theorem aesdWrite_ends (faults : WriteFaults) (user : Bytes) {kernel : Kernel} (fPos : Int)
    (free : kernel.dev.lock = false) :
    EndsWith user.length fPos (firstFailure faults (kernel.dev.pending ++ user))
      (aesdWrite faults user kernel fPos) := by
  have lockKept := writeStage_lock faults user kernel
  by_cases failed : faults.stagingKmalloc = true ∨ faults.copyFromUser = true
  · have none := (writeStage_failed user kernel failed).2
    cases stage : writeStage faults user kernel with
    | mk staged result =>
        rw [stage] at none lockKept
        subst none
        have ends : ∀ failure : WriteFailure, writeOutcome user.length (some failure) =
            .returned (-enomem) → EndsWith user.length fPos (some failure)
              (aesdWrite faults user kernel fPos) := by
          intro failure outcome
          rw [aesdWrite, stage]
          exact ⟨outcome.symm, rfl, fun _ => lockKept.trans free⟩
        rw [firstFailure]
        cases allocation : faults.stagingKmalloc with
        | true => exact ends .staging rfl
        | false =>
            have copy : faults.copyFromUser = true := by
              rw [allocation] at failed
              simpa using failed
            rw [copy]
            exact ends .copyFromUser rfl
  · obtain ⟨allocated, copied⟩ := not_or.mp failed
    rw [Bool.not_eq_true] at allocated copied
    obtain ⟨staging, present, bytes⟩ := writeStage_bytes user kernel allocated copied
    rw [firstFailure, allocated, copied, if_neg Bool.false_ne_true, if_neg Bool.false_ne_true]
    cases stage : writeStage faults user kernel with
    | mk staged result =>
        rw [stage] at present lockKept
        have stagedFree : staged.dev.lock = false := lockKept.trans free
        subst present
        rw [aesdWrite, stage]
        cases interrupted : faults.lockInterrupted with
        | true =>
            simp only [mutexLockInterruptible, if_true]
            exact ⟨rfl, rfl, fun _ => stagedFree⟩
        | false =>
            simp only [mutexLockInterruptible, stagedFree, Bool.false_eq_true, if_false]
            rw [← bytes]
            exact writeLocked_ends faults user.length staging _ fPos

theorem aesdWrite_lock_held (faults : WriteFaults) (user : Bytes) {kernel : Kernel} (fPos : Int)
    (held : kernel.dev.lock = true) :
    (aesdWrite faults user kernel fPos).kernel.dev.lock = true := by
  have lockKept := writeStage_lock faults user kernel
  cases stage : writeStage faults user kernel with
  | mk staged result =>
      rw [stage] at lockKept
      have stillHeld : staged.dev.lock = true := lockKept.trans held
      rw [aesdWrite, stage]
      cases result with
      | none => exact stillHeld
      | some staging =>
          cases interrupted : faults.lockInterrupted with
          | true =>
              simp only [mutexLockInterruptible, if_true]
              exact stillHeld
          | false =>
              simp only [mutexLockInterruptible, stillHeld, Bool.false_eq_true, if_false, if_true]

/-! ### What a caller may expect -/

/-- Which return value stands for which failure. -/
structure ClassifiedBy (count : Nat) (fPos : Int) (failure : Option WriteFailure)
    (result : CallResult) : Prop where
  no_null_dereference : result.outcome ≠ .oops
  returns : ∃ retval, result.outcome = .returned retval
  unlocked : result.kernel.dev.lock = false
  count_iff : (result.outcome = .returned count ∧ result.fPos = fPos + count) ↔ failure = none
  efault_iff : result.outcome = .returned (-efault) ↔ failure = some .copyFromUser
  erestartsys_iff : result.outcome = .returned (-erestartsys) ↔ failure = some .lock
  allocation_iff : (result.outcome = .returned (-enomem) ∨ result.outcome = .returned (-einval)) ↔
    ∃ allocation, failure = some allocation ∧ allocation.isAllocation = true
  fPos_kept : failure ≠ none → result.fPos = fPos

def Classified (faults : WriteFaults) (user : Bytes) (kernel : Kernel) (fPos : Int) : Prop :=
  ClassifiedBy user.length fPos (firstFailure faults (kernel.dev.pending ++ user))
    (aesdWrite faults user kernel fPos)

/-- The failures that the code reports as it means to. -/
def Reported (failure : Option WriteFailure) : Prop :=
  failure ≠ some .copyFromUser ∧ ∀ line, failure ≠ some (.descriptor line)

theorem classifiedBy_of_success {count : Nat} {fPos : Int} {result : CallResult}
    (outcome : result.outcome = .returned count) (position : result.fPos = fPos + count)
    (unlocked : result.kernel.dev.lock = false) : ClassifiedBy count fPos none result := by
  constructor
  · simp [outcome]
  · exact ⟨count, outcome⟩
  · exact unlocked
  · simp [outcome, position]
  · simp [outcome, efault]
  · simp [outcome, erestartsys]
  · simp [outcome, enomem, einval]
  · intro failed
    exact absurd rfl failed

theorem classifiedBy_of_error {count : Nat} {fPos retval : Int} {failure : WriteFailure}
    {result : CallResult} (outcome : result.outcome = .returned retval)
    (position : result.fPos = fPos) (unlocked : result.kernel.dev.lock = false)
    (meant : (failure = .lock ∧ retval = -erestartsys) ∨
      (failure.isAllocation = true ∧ (retval = -enomem ∨ retval = -einval))) :
    ClassifiedBy count fPos (some failure) result := by
  have negative : ¬ retval = count := by
    unfold erestartsys enomem einval at meant
    omega
  have notCopy : failure ≠ .copyFromUser := by
    rintro rfl
    rcases meant with ⟨impossible, _⟩ | ⟨impossible, _⟩ <;> cases impossible
  have noFault : ¬ retval = -efault := by
    unfold erestartsys enomem einval at meant
    unfold efault
    omega
  constructor
  · simp [outcome]
  · exact ⟨retval, outcome⟩
  · exact unlocked
  · simp [outcome, negative]
  · simp [outcome, noFault, notCopy]
  · rw [outcome, Outcome.returned.injEq, Option.some.injEq]
    rcases meant with ⟨lock, value⟩ | ⟨allocation, value⟩
    · exact ⟨fun _ => lock, fun _ => value⟩
    · constructor
      · intro restart
        unfold erestartsys at restart
        unfold enomem einval at value
        omega
      · rintro rfl
        cases allocation
  · rw [outcome, Outcome.returned.injEq, Outcome.returned.injEq]
    rcases meant with ⟨rfl, value⟩ | ⟨allocation, value⟩
    · constructor
      · intro memory
        unfold erestartsys at value
        unfold enomem einval at memory
        omega
      · rintro ⟨other, same, allocation⟩
        cases same
        cases allocation
    · exact ⟨fun _ => ⟨failure, rfl, allocation⟩, fun _ => value⟩
  · intro _failed
    exact position

theorem EndsWith.classified {count : Nat} {fPos : Int} {failure : Option WriteFailure}
    {result : CallResult} (ends : EndsWith count fPos failure result)
    (reported : Reported failure) : ClassifiedBy count fPos failure result := by
  have unlocked := ends.lock_eq reported.2
  cases failure with
  | none => exact classifiedBy_of_success ends.outcome_eq ends.fPos_eq unlocked
  | some failure =>
      cases failure with
      | staging =>
          apply classifiedBy_of_error ends.outcome_eq ends.fPos_eq unlocked
          exact Or.inr ⟨rfl, Or.inl rfl⟩
      | copyFromUser => exact absurd rfl reported.1
      | lock =>
          apply classifiedBy_of_error ends.outcome_eq ends.fPos_eq unlocked
          exact Or.inl ⟨rfl, rfl⟩
      | descriptor line => exact absurd rfl (reported.2 line)
      | lineCopy line =>
          apply classifiedBy_of_error ends.outcome_eq ends.fPos_eq unlocked
          exact Or.inr ⟨rfl, Or.inr rfl⟩
      | partialCopy =>
          apply classifiedBy_of_error ends.outcome_eq ends.fPos_eq unlocked
          exact Or.inr ⟨rfl, Or.inl rfl⟩

/-- On every device, reachable or not, and for every schedule of failures. -/
theorem classified_iff (faults : WriteFaults) (user : Bytes) (kernel : Kernel) (fPos : Int) :
    Classified faults user kernel fPos ↔
      kernel.dev.lock = false ∧ Reported (firstFailure faults (kernel.dev.pending ++ user)) := by
  constructor
  · intro classified
    have free : kernel.dev.lock = false := by
      cases held : kernel.dev.lock with
      | false => rfl
      | true =>
          have stillHeld := aesdWrite_lock_held faults user fPos held
          rw [classified.unlocked] at stillHeld
          cases stillHeld
    have ends := aesdWrite_ends faults user fPos free
    refine ⟨free, ?_, ?_⟩
    · intro copy
      have outcome := classified.efault_iff.mpr copy
      rw [ends.outcome_eq, copy, writeOutcome, Outcome.returned.injEq] at outcome
      exact absurd outcome (by decide)
    · intro line descriptor
      have outcome := ends.outcome_eq
      rw [descriptor] at outcome
      exact classified.no_null_dereference outcome
  · rintro ⟨free, reported⟩
    exact (aesdWrite_ends faults user fPos free).classified reported

/-! ### Runs -/

def WriteFaults.allocating (faults : WriteFaults) : WriteFaults :=
  { faults with descriptorKmalloc := fun _ => false }

def Op.allocating : Op → Op
  | .write file user faults => .write file user faults.allocating
  | .read file count faults => .read file count faults
  | .llseek file offset whence lockInterrupted => .llseek file offset whence lockInterrupted
  | .ioctl file cmd seekto faults => .ioctl file cmd seekto faults

/-- An operation that is no write, or one whose first failure is reported. -/
def OpReported (device : OpenDevice) : Op → Prop
  | .write _ user faults => Reported (firstFailure faults (device.kernel.dev.pending ++ user))
  | .read _ _ _ => True
  | .llseek _ _ _ _ => True
  | .ioctl _ _ _ _ => True

def OpClassified (device : OpenDevice) : Op → Prop
  | .write file user faults => Classified faults user device.kernel (device.fPos file)
  | .read _ _ _ => True
  | .llseek _ _ _ _ => True
  | .ioctl _ _ _ _ => True

/-- A loop that meets no failing descriptor does not depend on the others. -/
theorem writeLines_allocating (faults : WriteFaults) (fuel index : Nat) (working : Bytes)
    (kernel : Kernel) (met : ∀ line, firstLineFailure faults index (lines newline working) ≠
      some (.descriptor line)) :
    writeLines faults fuel index working kernel =
      writeLines faults.allocating fuel index working kernel := by
  induction fuel generalizing index working kernel with
  | zero => rfl
  | succ fuel ih =>
      cases found : memchr working newline with
      | none => simp only [writeLines, found]
      | some newLine =>
          rw [lines_of_idxOf? found, firstLineFailure] at met
          cases descriptor : faults.descriptorKmalloc index with
          | true =>
              rw [descriptor, if_pos rfl] at met
              exact absurd rfl (met index)
          | false =>
              rw [descriptor, if_neg Bool.false_ne_true] at met
              cases copy : faults.lineKmemdup index with
              | true =>
                  simp [writeLines, found, Slab.kmalloc, Slab.kmemdup, descriptor, copy,
                    WriteFaults.allocating]
              | false =>
                  rw [copy, if_neg Bool.false_ne_true] at met
                  simp only [writeLines, found, descriptor, copy, WriteFaults.allocating,
                    Slab.kmalloc, Slab.kmemdup, Bool.false_eq_true, if_false]
                  exact ih (index + 1) (working.drop (newLine + 1)) _ met

theorem aesdWrite_allocating {faults : WriteFaults} {user : Bytes} {kernel : Kernel} (fPos : Int)
    (reported : Reported (firstFailure faults (kernel.dev.pending ++ user))) :
    aesdWrite faults user kernel fPos = aesdWrite faults.allocating user kernel fPos := by
  have sameStage : writeStage faults.allocating user kernel = writeStage faults user kernel := rfl
  have sameLock : faults.allocating.lockInterrupted = faults.lockInterrupted := rfl
  have samePartial : faults.allocating.partialKmemdup = faults.partialKmemdup := rfl
  rw [aesdWrite, aesdWrite, sameStage, sameLock]
  by_cases failed : faults.stagingKmalloc = true ∨ faults.copyFromUser = true
  · have none := (writeStage_failed user kernel failed).2
    cases stage : writeStage faults user kernel with
    | mk staged result =>
        rw [stage] at none
        subst none
        rfl
  · obtain ⟨allocated, copied⟩ := not_or.mp failed
    rw [Bool.not_eq_true] at allocated copied
    obtain ⟨staging, present, bytes⟩ := writeStage_bytes user kernel allocated copied
    cases stage : writeStage faults user kernel with
    | mk staged result =>
        rw [stage] at present
        subst present
        cases interrupted : faults.lockInterrupted with
        | true => rfl
        | false =>
            rw [firstFailure, allocated, copied, interrupted, if_neg Bool.false_ne_true,
              if_neg Bool.false_ne_true, if_neg Bool.false_ne_true, lockedFailure,
              ← bytes] at reported
            have met : ∀ line, firstLineFailure faults 0 (lines newline staging.bytes) ≠
                some (.descriptor line) := by
              intro line first
              apply reported.2 line
              rw [first]
              rfl
            cases free : staged.dev.lock with
            | true => simp only [mutexLockInterruptible, free, Bool.false_eq_true, if_false, if_true]
            | false =>
                simp only [mutexLockInterruptible, free, Bool.false_eq_true, if_false]
                rw [writeLocked, writeLocked, writeLines_allocating faults _ _ _ _ met, samePartial]

theorem step_allocating {device : OpenDevice} {op : Op} (reported : OpReported device op) :
    device.step op = device.step op.allocating := by
  cases op with
  | write file user faults =>
      have same := aesdWrite_allocating (device.fPos file) reported
      simp only [OpenDevice.step, OpenDevice.call, Op.allocating, Op.file, same]
  | read file count faults => rfl
  | llseek file offset whence lockInterrupted => rfl
  | ioctl file cmd seekto faults => rfl

theorem run_allocating (ops : List Op)
    (reported : AtEachStep (fun before op => OpReported (OpenDevice.init.run before) op) ops) :
    OpenDevice.init.run ops = OpenDevice.init.run (ops.map Op.allocating) := by
  induction ops using List.reverseRecOn with
  | nil => rfl
  | append_singleton ops op ih =>
      obtain ⟨earlier, last⟩ := atEachStep_append.mp reported
      rw [List.map_append, OpenDevice.run, OpenDevice.run, List.foldl_append, List.foldl_append]
      change (OpenDevice.init.run ops).step op =
        (OpenDevice.init.run (ops.map Op.allocating)).step op.allocating
      rw [← ih earlier]
      exact step_allocating last

theorem run_unlocked (ops : List Op)
    (reported : AtEachStep (fun before op => OpReported (OpenDevice.init.run before) op) ops) :
    (OpenDevice.init.run ops).kernel.dev.lock = false := by
  have allocated : ∀ op ∈ ops.map Op.allocating, op.DescriptorsAllocated := by
    intro op member
    obtain ⟨original, _present, rfl⟩ := List.mem_map.mp member
    cases original with
    | write file user faults => exact fun _index => rfl
    | read file count faults => trivial
    | llseek file offset whence lockInterrupted => trivial
    | ioctl file cmd seekto faults => trivial
  rw [run_allocating ops reported]
  exact (run_inv init_inv _ allocated).unlocked

theorem run_classified (ops : List Op)
    (reported : AtEachStep (fun before op => OpReported (OpenDevice.init.run before) op) ops) :
    AtEachStep (fun before op => OpClassified (OpenDevice.init.run before) op) ops := by
  intro before op after split
  have here := reported before op after split
  have earlier := reported
  rw [split] at earlier
  have unlocked := run_unlocked before earlier.of_append
  cases op with
  | write file user faults => exact (classified_iff faults user _ _).mpr ⟨unlocked, here⟩
  | read file count faults => trivial
  | llseek file offset whence lockInterrupted => trivial
  | ioctl file cmd seekto faults => trivial

/-- A write is classified exactly when it finds the lock free and its first
failure is reported; in a run of such writes the lock is always free. -/
theorem write_outcomes_classified (faults : WriteFaults) (user : Bytes) (kernel : Kernel)
    (fPos : Int) (ops : List Op) :
    (Classified faults user kernel fPos ↔
      kernel.dev.lock = false ∧ Reported (firstFailure faults (kernel.dev.pending ++ user))) ∧
    (AtEachStep (fun before op => OpReported (OpenDevice.init.run before) op) ops →
      AtEachStep (fun before op => OpClassified (OpenDevice.init.run before) op) ops) :=
  ⟨classified_iff faults user kernel fPos, run_classified ops⟩

theorem plain_write_classified :
    Reported (firstFailure WriteFaults.none [97, 10]) ∧
      Classified WriteFaults.none [97, 10] OpenDevice.init.kernel 0 := by
  have nothing : firstFailure WriteFaults.none [97, 10] = none := by decide
  have reported : Reported (firstFailure WriteFaults.none [97, 10]) := by
    rw [nothing]
    exact ⟨by decide, fun line impossible => by cases impossible⟩
  obtain ⟨_exactly, classified⟩ := write_outcomes_classified WriteFaults.none [97, 10]
    OpenDevice.init.kernel 0 [.write 0 [97, 10] WriteFaults.none]
  exact ⟨reported, classified (atEachStep_cons.mpr ⟨reported, AtEachStep.nil _⟩) [] _ [] rfl⟩

def failingCopyFromUser : WriteFaults := { WriteFaults.none with copyFromUser := true }

def failingDescriptor : WriteFaults :=
  { WriteFaults.none with descriptorKmalloc := fun _ => true }

/-- A failed `copy_from_user` is reported as a failed allocation, and a failed
descriptor is stored through, with the lock held. -/
theorem write_outcomes_misreported :
    ¬ Classified failingCopyFromUser [97] OpenDevice.init.kernel 0 ∧
      (aesdWrite failingCopyFromUser [97] OpenDevice.init.kernel 0).outcome =
        .returned (-enomem) ∧
      ¬ Classified failingDescriptor [10] OpenDevice.init.kernel 0 ∧
      (aesdWrite failingDescriptor [10] OpenDevice.init.kernel 0).outcome = .oops ∧
      (aesdWrite failingDescriptor [10] OpenDevice.init.kernel 0).kernel.dev.lock = true := by
  refine ⟨?_, by decide, ?_, by decide, by decide⟩
  · intro classified
    have outcome := classified.efault_iff.mpr rfl
    exact absurd outcome (by decide)
  · intro classified
    exact classified.no_null_dereference (by decide)

end Aesd.Driver
