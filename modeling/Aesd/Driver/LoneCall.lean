/-
A call that nobody interrupts.

Taken statement by statement, such a call does what `aesd_write` and the other
operations do as one step: it leaves the same kernel and returns the same.
-/

import Aesd.Driver.CallMemory
import Aesd.Driver.WriteFailure

namespace Aesd.Driver

open CircularBuffer LineStream AesdCircularBuffer

section Write

variable (stale : Nat → Nat → UInt8) (faults : WriteFaults) (user : Bytes) (fPos : Int)

inductive WriteSteps : Kernel → CallPoint → Kernel → CallPoint → Prop where
  | refl (kernel : Kernel) (point : CallPoint) : WriteSteps kernel point kernel point
  | head {kernel next final : Kernel} {point follows last : CallPoint} {line : Option Bytes}
      (moves : writeMove stale faults user fPos kernel point = some ⟨next, follows, line⟩)
      (later : WriteSteps next follows final last) : WriteSteps kernel point final last

variable {stale faults user fPos}

theorem WriteSteps.trans {kernel middle final : Kernel} {point between last : CallPoint}
    (first : WriteSteps stale faults user fPos kernel point middle between)
    (second : WriteSteps stale faults user fPos middle between final last) :
    WriteSteps stale faults user fPos kernel point final last := by
  induction first with
  | refl kernel point => exact second
  | head moves later ih => exact .head moves (ih second)

/-! ### Under the lock -/

def afterLoop (buffer : Kbuf) (fPos : Int) (index : Nat) : LineExit → CallPoint
  | .finished working => .looping buffer index working
  | .release retval => .releasing buffer fPos retval
  | .oops => .oopsed buffer

/-- The rounds of the loop are those of `writeLines`. -/
theorem writeSteps_lines (stale : Nat → Nat → UInt8) (faults : WriteFaults) (user : Bytes)
    (fPos : Int) (buffer : Kbuf) (fuel index : Nat) (working : Bytes) (kernel : Kernel)
    (enough : working.length ≤ fuel) :
    ∃ last, WriteSteps stale faults user fPos kernel (.looping buffer index working)
        (writeLines faults fuel index working kernel).1
        (afterLoop buffer fPos last (writeLines faults fuel index working kernel).2) ∧
      ∀ rest, (writeLines faults fuel index working kernel).2 = .finished rest →
        memchr rest newline = none := by
  induction fuel generalizing index working kernel with
  | zero =>
      have empty : working = [] := List.eq_nil_of_length_eq_zero (Nat.le_zero.mp enough)
      subst empty
      refine ⟨index, .refl _ _, ?_⟩
      intro rest same
      cases same
      rfl
  | succ fuel ih =>
      cases found : memchr working newline with
      | none =>
          have left : writeLines faults (fuel + 1) index working kernel =
              (kernel, .finished working) := by
            simp only [writeLines, found]
          rw [left]
          refine ⟨index, .refl _ _, ?_⟩
          intro rest same
          cases same
          exact found
      | some newLine =>
          cases descriptor : faults.descriptorKmalloc index with
          | true =>
              have moves : writeMove stale faults user fPos kernel
                  (.looping buffer index working) =
                    some ⟨kernel.setSlab (kernel.slab.kmalloc (faults.lineKmemdup index)).1,
                      .oopsed buffer, none⟩ := by
                rw [writeMove, loopRound, found, writeLines_oops 0 kernel found descriptor]
              rw [writeLines_oops fuel kernel found descriptor]
              refine ⟨index, .head moves (.refl _ _), ?_⟩
              intro rest impossible
              cases impossible
          | false =>
              cases copied : faults.lineKmemdup index with
              | true =>
                  have left (more : Nat) : writeLines faults (more + 1) index working kernel =
                      (kernel.setSlab (kernel.slab.kmalloc false).1, .release (-einval)) := by
                    simp only [writeLines, found, descriptor, copied, Slab.kmalloc, Slab.kmemdup,
                      Bool.false_eq_true, if_false, if_true]
                    rfl
                  have moves : writeMove stale faults user fPos kernel
                      (.looping buffer index working) =
                        some ⟨kernel.setSlab (kernel.slab.kmalloc false).1,
                          .releasing buffer fPos (-einval), none⟩ := by
                    rw [writeMove, loopRound, found, left 0]
                  rw [left fuel]
                  refine ⟨index, .head moves (.refl _ _), ?_⟩
                  intro rest impossible
                  cases impossible
              | false =>
                  have shorter : (working.drop (newLine + 1)).length ≤ fuel := by
                    rw [List.length_drop]
                    omega
                  obtain ⟨last, steps, none⟩ := ih (index + 1) (working.drop (newLine + 1))
                    (kernel.addLine (working.take (newLine + 1)) (newLine + 1)) shorter
                  have moves : writeMove stale faults user fPos kernel
                      (.looping buffer index working) =
                        some ⟨kernel.addLine (working.take (newLine + 1)) (newLine + 1),
                          .looping buffer (index + 1) (working.drop (newLine + 1)),
                          some (working.take (newLine + 1))⟩ := by
                    rw [writeMove, loopRound, found,
                      writeLines_addLine 0 kernel found descriptor copied]
                    rfl
                  rw [writeLines_addLine fuel kernel found descriptor copied]
                  exact ⟨last, .head moves steps, none⟩

theorem writeSteps_release (buffer : Kbuf) (position retval : Int) (kernel : Kernel) :
    WriteSteps stale faults user fPos kernel (.releasing buffer position retval)
      (writeRelease buffer kernel) (.done position { outcome := .returned retval, data := [] }) :=
  .head rfl (.head rfl (.refl _ _))

/-- How a call has ended: it has returned, or it is stuck with the lock. -/
def Ended (result : CallResult) (point : CallPoint) : Prop :=
  point = .done result.fPos result.reply ∨
    result.outcome = .oops ∧ ∃ buffer, point = .oopsed buffer

theorem writeSteps_locked (buffer : Kbuf) (kernel : Kernel) :
    ∃ point, WriteSteps stale faults user fPos kernel (.looping buffer 0 buffer.bytes)
        (writeLocked faults user.length buffer kernel fPos).kernel point ∧
      Ended (writeLocked faults user.length buffer kernel fPos) point := by
  obtain ⟨index, rounds, ended⟩ := writeSteps_lines stale faults user fPos buffer
    buffer.bytes.length 0 buffer.bytes kernel (Nat.le_refl _)
  unfold writeLocked
  cases ran : writeLines faults buffer.bytes.length 0 buffer.bytes kernel with
  | mk after left =>
      rw [ran] at rounds ended
      cases left with
      | oops => exact ⟨_, rounds, Or.inr ⟨rfl, buffer, rfl⟩⟩
      | release retval => exact ⟨_, rounds.trans (writeSteps_release _ _ _ _), Or.inl rfl⟩
      | finished working =>
          have absent := ended working rfl
          dsimp only
          by_cases rest : 0 < working.length
          · rw [if_pos rest]
            cases failed : faults.partialKmemdup with
            | true =>
                have moves : writeMove stale faults user fPos after
                    (.looping buffer index working) =
                      some ⟨after.setPartial { after.dev.partialEntry with buffptr := none },
                        .releasing buffer fPos (-enomem), none⟩ := by
                  rw [writeMove, loopRound, absent]
                  dsimp only
                  rw [if_pos rest, failed]
                  rfl
                exact ⟨_, rounds.trans (.head moves (writeSteps_release _ _ _ _)), Or.inl rfl⟩
            | false =>
                have moves : writeMove stale faults user fPos after
                    (.looping buffer index working) =
                      some ⟨(after.setSlab (after.slab.kmalloc false).1).setPartial
                          { after.dev.partialEntry with
                            buffptr := some { id := after.slab.next, bytes := working } },
                        .keeping buffer working, none⟩ := by
                  rw [writeMove, loopRound, absent]
                  dsimp only
                  rw [if_pos rest, failed]
                  rfl
                exact ⟨_, rounds.trans (.head moves (.head rfl (writeSteps_release _ _ _ _))),
                  Or.inl rfl⟩
          · have moves : writeMove stale faults user fPos after (.looping buffer index working) =
                some ⟨after, .releasing buffer (fPos + user.length) user.length, none⟩ := by
              rw [writeMove, loopRound, absent]
              dsimp only
              rw [if_neg rest]
            rw [if_neg rest]
            exact ⟨_, rounds.trans (.head moves (writeSteps_release _ _ _ _)), Or.inl rfl⟩

/-! ### In front of the lock -/

theorem overwrite_front (memory bytes : Bytes) :
    overwrite memory 0 bytes = bytes ++ memory.drop bytes.length := by
  rw [overwrite, List.take_zero, List.nil_append, Nat.zero_add]

theorem overwrite_rest {front memory bytes : Bytes} (length : memory.length = bytes.length) :
    overwrite (front ++ memory) front.length bytes = front ++ bytes := by
  rw [overwrite, List.take_left', List.drop_of_length_le, List.append_nil]
  · rw [List.length_append, length]
  · rfl

theorem writeSteps_carried {kernel : Kernel} (stored : StoredPartial kernel.dev.partialEntry)
    (live : ∀ id ∈ partialOwned kernel.dev.partialEntry, id ∈ kernel.slab.live)
    (allocated : faults.stagingKmalloc = false) :
    ∃ rest, rest.length = user.length ∧
      WriteSteps stale faults user fPos kernel .entered
        (kernel.setSlab (kernel.slab.kmalloc false).1)
        (.carried ⟨kernel.slab.next, kernel.dev.pending ++ rest⟩) := by
  let slab := (kernel.slab.kmalloc false).1
  let memory := (List.range (kernel.dev.partialEntry.size + user.length)).map
    (stale kernel.slab.next)
  have room : memory.length = kernel.dev.partialEntry.size + user.length := by
    rw [List.length_map, List.length_range]
  have sizes : writeMove stale faults user fPos kernel .entered =
      some ⟨kernel.setSlab slab, .sized ⟨kernel.slab.next, memory⟩, none⟩ := by
    rw [writeMove, sizeStaging, allocated]
    rfl
  rcases stored with zero | ⟨buffptr, present, size, _nonempty, _absent⟩
  · have absent : kernel.dev.partialEntry.buffptr = none := by rw [zero]; rfl
    have empty : kernel.dev.partialEntry.size = 0 := by rw [zero]; rfl
    have carries : writeMove stale faults user fPos (kernel.setSlab slab)
        (.sized ⟨kernel.slab.next, memory⟩) =
          some ⟨kernel.setSlab slab, .carried ⟨kernel.slab.next, memory⟩, none⟩ := by
      change carryPartial _ (kernel.setSlab slab) = _
      simp only [carryPartial, Kernel.setSlab, absent]
    refine ⟨memory, by omega, ?_⟩
    rw [pending_of_zero zero]
    exact .head sizes (.head carries (.refl _ _))
  · have alive : buffptr.id ∈ slab.live := by
      apply List.mem_cons_of_mem
      apply live
      rw [partialOwned, present]
      exact List.mem_singleton.mpr rfl
    have whole : buffptr.bytes.take kernel.dev.partialEntry.size = buffptr.bytes := by
      rw [← size, List.take_length]
    have pending : kernel.dev.pending = buffptr.bytes := by
      simp only [AesdDev.pending, present, whole]
    have carries : writeMove stale faults user fPos (kernel.setSlab slab)
        (.sized ⟨kernel.slab.next, memory⟩) =
          some ⟨kernel.setSlab slab,
            .carried ⟨kernel.slab.next, buffptr.bytes ++ memory.drop buffptr.bytes.length⟩,
            none⟩ := by
      change carryPartial _ (kernel.setSlab slab) = _
      have allowed : buffptr.id ∈ slab.live ∧
          kernel.dev.partialEntry.size ≤ buffptr.bytes.length ∧
          kernel.dev.partialEntry.size ≤ memory.length := by
        refine ⟨alive, ?_, ?_⟩ <;> omega
      simp only [carryPartial, Kernel.setSlab, present, if_pos allowed, whole, overwrite_front]
    refine ⟨memory.drop buffptr.bytes.length, ?_, ?_⟩
    · rw [List.length_drop]
      omega
    · rw [pending]
      exact .head sizes (.head carries (.refl _ _))

theorem writeSteps_staged {kernel : Kernel} (stored : StoredPartial kernel.dev.partialEntry)
    (live : ∀ id ∈ partialOwned kernel.dev.partialEntry, id ∈ kernel.slab.live) {rest : Bytes}
    (length : rest.length = user.length) (allocated : faults.stagingKmalloc = false)
    (copied : faults.copyFromUser = false) :
    ∃ staging, (writeStage faults user kernel).2 = some staging ∧
      WriteSteps stale faults user fPos (kernel.setSlab (kernel.slab.kmalloc false).1)
        (.carried ⟨kernel.slab.next, kernel.dev.pending ++ rest⟩)
        (writeStage faults user kernel).1 (.staged staging) := by
  let slab := (kernel.slab.kmalloc false).1
  have size := stored.size_eq
  have fits : (kernel.setSlab slab).dev.partialEntry.size + user.length ≤
      (kernel.dev.pending ++ rest).length := by
    change kernel.dev.partialEntry.size + user.length ≤ _
    rw [size, List.length_append, length]
  have fills : writeMove stale faults user fPos (kernel.setSlab slab)
      (.carried ⟨kernel.slab.next, kernel.dev.pending ++ rest⟩) =
        some ⟨kernel.setSlab slab, .filled ⟨kernel.slab.next, kernel.dev.pending ++ user⟩,
          none⟩ := by
    rw [writeMove, fillStaging]
    dsimp only
    rw [if_pos fits, copied]
    change some (Move.mk _ (.filled ⟨_, overwrite _ kernel.dev.partialEntry.size _⟩) _) = _
    rw [size, overwrite_rest length]
  refine ⟨⟨kernel.slab.next, kernel.dev.pending ++ user⟩, ?_, ?_⟩
  · simp only [writeStage, Slab.kmalloc, allocated, copied, Bool.false_eq_true, if_false]
  · cases present : kernel.dev.partialEntry.buffptr with
    | none =>
        have frees : writeMove stale faults user fPos (kernel.setSlab slab)
            (.filled ⟨kernel.slab.next, kernel.dev.pending ++ user⟩) =
              some ⟨kernel.setSlab slab,
                .staged ⟨kernel.slab.next, kernel.dev.pending ++ user⟩, none⟩ := by
          change freePartial _ (kernel.setSlab slab) = _
          simp only [freePartial, Kernel.setSlab, present]
        have result : (writeStage faults user kernel).1 = kernel.setSlab slab := by
          simp only [writeStage, Slab.kmalloc, allocated, copied, Bool.false_eq_true, if_false,
            Kernel.releasePartial, present]
          rfl
        rw [result]
        exact .head fills (.head frees (.refl _ _))
    | some buffptr =>
        have alive : buffptr.id ∈ slab.live := by
          apply List.mem_cons_of_mem
          apply live
          rw [partialOwned, present]
          exact List.mem_singleton.mpr rfl
        have frees : writeMove stale faults user fPos (kernel.setSlab slab)
            (.filled ⟨kernel.slab.next, kernel.dev.pending ++ user⟩) =
              some ⟨kernel.setSlab (slab.kfreeConst buffptr.id),
                .freed ⟨kernel.slab.next, kernel.dev.pending ++ user⟩, none⟩ := by
          change freePartial _ (kernel.setSlab slab) = _
          simp only [freePartial, Kernel.setSlab, present]
          exact if_pos alive
        have result : (writeStage faults user kernel).1 =
            (kernel.setSlab (slab.kfreeConst buffptr.id)).setPartial AesdBufferEntry.zero := by
          simp only [writeStage, Slab.kmalloc, allocated, copied, Bool.false_eq_true, if_false,
            Kernel.releasePartial, present]
          rfl
        rw [result]
        exact .head fills (.head frees (.head rfl (.head rfl (.refl _ _))))

theorem writeSteps_fault {kernel : Kernel} (stored : StoredPartial kernel.dev.partialEntry)
    {rest : Bytes} (length : rest.length = user.length) (copied : faults.copyFromUser = true) :
    WriteSteps stale faults user fPos (kernel.setSlab (kernel.slab.kmalloc false).1)
      (.carried ⟨kernel.slab.next, kernel.dev.pending ++ rest⟩)
      (kernel.setSlab ((kernel.slab.kmalloc false).1.kfreeConst kernel.slab.next))
      (.done fPos { outcome := .returned (-enomem), data := [] }) := by
  have fits : (kernel.setSlab (kernel.slab.kmalloc false).1).dev.partialEntry.size +
      user.length ≤ (kernel.dev.pending ++ rest).length := by
    change kernel.dev.partialEntry.size + user.length ≤ _
    rw [stored.size_eq, List.length_append, length]
  have moves : writeMove stale faults user fPos (kernel.setSlab (kernel.slab.kmalloc false).1)
      (.carried ⟨kernel.slab.next, kernel.dev.pending ++ rest⟩) =
        some ⟨kernel.setSlab (kernel.slab.kmalloc false).1,
          .leaving ⟨kernel.slab.next, kernel.dev.pending ++ rest⟩ fPos (-enomem), none⟩ := by
    rw [writeMove, fillStaging]
    dsimp only
    rw [if_pos fits, copied]
    rfl
  exact .head moves (.head rfl (.refl _ _))

theorem writeSteps_alone {kernel : Kernel} (stored : StoredPartial kernel.dev.partialEntry)
    (free : kernel.dev.lock = false)
    (live : ∀ id ∈ partialOwned kernel.dev.partialEntry, id ∈ kernel.slab.live) :
    ∃ point, WriteSteps stale faults user fPos kernel .entered
        (aesdWrite faults user kernel fPos).kernel point ∧
      Ended (aesdWrite faults user kernel fPos) point := by
  unfold aesdWrite
  cases allocated : faults.stagingKmalloc with
  | true =>
      have moves : writeMove stale faults user fPos kernel .entered =
          some ⟨kernel, .done fPos { outcome := .returned (-enomem), data := [] }, none⟩ := by
        rw [writeMove, sizeStaging, allocated]
        rfl
      simp only [writeStage, Slab.kmalloc, allocated, if_true]
      exact ⟨_, .head moves (.refl _ _), Or.inl rfl⟩
  | false =>
      obtain ⟨rest, length, carries⟩ := writeSteps_carried stored live allocated
      cases copied : faults.copyFromUser with
      | true =>
          simp only [writeStage, Slab.kmalloc, allocated, copied, Bool.false_eq_true, if_false,
            if_true]
          exact ⟨_, carries.trans (writeSteps_fault stored length copied), Or.inl rfl⟩
      | false =>
          have devTaken := (writeStage_staged faults user stored allocated copied).1
          obtain ⟨staging, present, stages⟩ :=
            writeSteps_staged stored live length allocated copied
          have steps := carries.trans stages
          cases stage : writeStage faults user kernel with
          | mk taken result =>
              rw [stage] at devTaken present steps
              subst present
              have unlocked : taken.dev.lock = false := by
                rw [devTaken]
                exact free
              cases interrupted : faults.lockInterrupted with
              | true =>
                  have moves : writeMove stale faults user fPos taken (.staged staging) =
                      some ⟨taken, .leaving staging fPos (-erestartsys), none⟩ := by
                    rw [writeMove, lockSection, mutexLockInterruptible, interrupted]
                    rfl
                  simp only [mutexLockInterruptible, if_true]
                  exact ⟨_, steps.trans (.head moves (.head rfl (.refl _ _))), Or.inl rfl⟩
              | false =>
                  have moves : writeMove stale faults user fPos taken (.staged staging) =
                      some ⟨taken.setLock true, .looping staging 0 staging.bytes, none⟩ := by
                    rw [writeMove, lockSection, mutexLockInterruptible, interrupted, unlocked]
                    rfl
                  simp only [mutexLockInterruptible, unlocked, Bool.false_eq_true, if_false]
                  obtain ⟨point, inside, ended⟩ := writeSteps_locked staging (taken.setLock true)
                  exact ⟨point, steps.trans (.head moves inside), ended⟩

end Write

/-! ### Runs of one call -/

section Runs

variable {stale : Nat → Nat → UInt8} {request : Nat → Op} {fPos : Nat → Int} {call file : Nat}
  {user : Bytes} {faults : WriteFaults}

theorem WriteSteps.run (asked : request call = .write file user faults) {kernel final : Kernel}
    {point last : CallPoint}
    (steps : WriteSteps stale faults user (fPos call) kernel point final last) (state : Calls)
    (here : state.kernel = kernel) (stands : state.point call = point) :
    ∃ count after, state.run stale request fPos (List.replicate count call) = some after ∧
      after.kernel = final ∧ after.point call = last := by
  induction steps generalizing state with
  | refl kernel point => exact ⟨0, state, rfl, here, stands⟩
  | @head kernel next final point follows last line moves _later ih =>
      obtain ⟨count, after, ran, reached⟩ := ih (state.apply call ⟨next, follows, line⟩) rfl
        (Calls.apply_point_self _ _ _)
      have first : state.step stale request fPos call =
          some (state.apply call ⟨next, follows, line⟩) := by
        rw [Calls.step, asked, here, stands]
        exact Option.map_eq_some_iff.mpr ⟨_, moves, rfl⟩
      refine ⟨count + 1, after, ?_, reached⟩
      rw [List.replicate_succ, Calls.run, first, Option.bind_some]
      exact ran

end Runs

/-- Left to itself on a reachable device, every call comes to its end, and does what
it does as one step. -/
theorem lone_call (stale : Nat → Nat → UInt8) (request : Nat → Op) (fPos : Nat → Int)
    (kernel : Kernel) (reachable : Reachable kernel) (call : Nat) :
    ∃ count final,
      (Calls.start kernel).run stale request fPos (List.replicate count call) = some final ∧
      final.kernel =
        (OpenDevice.call { kernel := kernel, fPos := fun _ => fPos call } (request call)).kernel ∧
      Ended (OpenDevice.call { kernel := kernel, fPos := fun _ => fPos call } (request call))
        (final.point call) := by
  have inv := reachable.inv
  by_cases write : (request call).IsWrite
  · obtain ⟨file, user, faults, asked⟩ := write.request
    obtain ⟨held, stored, accounts⟩ := reachable.accounts
    have live : ∀ id ∈ partialOwned kernel.dev.partialEntry, id ∈ kernel.slab.live := by
      intro id member
      apply accounts.balanced.mem_live.mpr
      exact List.mem_append_left held (List.mem_append_right _ member)
    obtain ⟨last, steps, ended⟩ := writeSteps_alone inv.partialStored inv.unlocked live
    obtain ⟨count, final, ran, reached, stands⟩ := steps.run asked (Calls.start kernel) rfl rfl
    refine ⟨count, final, ran, ?_, ?_⟩
    · rw [asked]
      exact reached
    · rw [asked, stands]
      exact ended
  · have gives := answer_free (fPos call) write inv.ring inv.unlocked
    unfold CallResult.Gives at gives
    rw [gives]
    let answer := (request call).answer kernel.dev.lines (fPos call)
    have moves : sectionMove (request call) (fPos call) kernel .entered =
        { kernel, point := .done answer.fPos answer.reply } := by
      simp only [sectionMove, gives, reduceCtorEq, if_false]
      rfl
    refine ⟨1, (Calls.start kernel).apply call { kernel, point := .done answer.fPos answer.reply },
      ?_, rfl, Or.inl ?_⟩
    · rw [List.replicate_one, Calls.run, Calls.step_other write]
      change some ((Calls.start kernel).apply call (sectionMove _ _ kernel .entered)) = _
      rw [moves]
    · rw [Calls.apply_point_self]
      rfl

theorem lone_call_secondPiece :
    Reachable (OpenDevice.init.run [.write 0 [97] WriteFaults.none]).kernel ∧
      ∃ count final,
        (Calls.start (OpenDevice.init.run [.write 0 [97] WriteFaults.none]).kernel).run
            (fun _ _ => 0) twoPiecesAndRead (fun _ => 0) (List.replicate count 1) = some final ∧
          final.kernel.dev.pending = [97, 98] := by
  have reachable : Reachable (OpenDevice.init.run [.write 0 [97] WriteFaults.none]).kernel := by
    refine ⟨[.write 0 [97] WriteFaults.none], ?_, rfl⟩
    intro op member
    rw [List.mem_singleton.mp member]
    exact fun _index => rfl
  obtain ⟨count, final, ran, reached, _ended⟩ :=
    lone_call (fun _ _ => 0) twoPiecesAndRead (fun _ => 0) _ reachable 1
  refine ⟨reachable, count, final, ran, ?_⟩
  rw [reached]
  rfl

end Aesd.Driver
