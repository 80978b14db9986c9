/-
Who holds which allocation, from the initialisation of the module to its cleanup.

The live allocations are the buffers that the device owns and the descriptors of
the lines. Cleanup frees the former.
-/

import Aesd.Driver.Accounts

namespace Aesd.Driver

open CircularBuffer LineStream AesdCircularBuffer

/-! ### Cleanup -/

private theorem vacant_slot {ring : AesdCircularBuffer Kbuf} (wf : ring.WellFormed) {step : Nat}
    (past : ring.occupied ≤ step) (bound : step < maxWriteOperationsSupported) :
    ring.slot ((ring.outOffs + step) % maxWriteOperationsSupported) = AesdBufferEntry.zero := by
  apply wf.vacant _ (Nat.mod_lt _ (Nat.zero_lt_succ 9))
  rintro ⟨inside, insideBound, same⟩
  have few := Nat.lt_of_lt_of_le insideBound ring.occupied_le
  have equal := CircularWalk.offset_injective few bound same
  omega

private theorem walk_buffers {ring : AesdCircularBuffer Kbuf} (wf : ring.WellFormed) (extra : Nat)
    (bound : ring.occupied + extra ≤ maxWriteOperationsSupported) :
    (CircularWalk.walk ring.slot maxWriteOperationsSupported ring.outOffs
      (ring.occupied + extra)).filterMap AesdBufferEntry.buffptr =
        ring.logical.filterMap AesdBufferEntry.buffptr := by
  induction extra with
  | zero => rfl
  | succ extra ih =>
      rw [← Nat.add_assoc, CircularWalk.walk_snoc, List.filterMap_append, ih (by omega),
        vacant_slot wf (Nat.le_add_right _ extra) (by omega)]
      exact List.append_nil _

/-- The array visits each owned buffer once, in another order than a walk. -/
private theorem ringOwned_perm {ring : AesdCircularBuffer Kbuf} (wf : ring.WellFormed) :
    (ringOwned ring).Perm (((List.range maxWriteOperationsSupported).filterMap
      (fun index => (ring.slot index).buffptr)).map Kbuf.id) := by
  have turn := CircularWalk.walk_full_perm ring.slot (Nat.zero_lt_succ 9) ring.outOffs
  have whole := walk_buffers wf (maxWriteOperationsSupported - ring.occupied)
    (by have few := ring.occupied_le; omega)
  rw [Nat.add_sub_cancel' ring.occupied_le] at whole
  have buffers := (turn.filterMap AesdBufferEntry.buffptr).map Kbuf.id
  rw [List.filterMap_map] at buffers
  rw [ringOwned, ← whole]
  exact buffers

section FreeSlot

variable (kernel : Kernel)

private theorem freeSlot_partialEntry (index : Nat) :
    (freeSlot kernel index).dev.partialEntry = kernel.dev.partialEntry := by
  unfold freeSlot
  dsimp only
  split <;> rfl

private theorem freeSlot_slot_ne {index other : Nat} (different : other ≠ index) :
    (freeSlot kernel index).dev.circularBuffer.slot other =
      kernel.dev.circularBuffer.slot other := by
  unfold freeSlot
  dsimp only
  split
  · simp only [slot]
    rw [Vector.getElem?_setIfInBounds_ne (fun equal => different equal.symm)]
  · rfl

private theorem freeSlot_slot_self (index : Nat) :
    ((freeSlot kernel index).dev.circularBuffer.slot index).buffptr = none := by
  cases present : (kernel.dev.circularBuffer.slot index).buffptr with
  | none =>
      simp only [freeSlot, present]
  | some buffptr =>
      have inside : index < maxWriteOperationsSupported := by
        apply Nat.lt_of_not_le
        intro outside
        rw [slot, Vector.getElem?_eq_none outside] at present
        cases present
      simp only [freeSlot, present]
      rw [slot, Vector.getElem?_setIfInBounds_self_of_lt inside]
      rfl

private theorem freeSlot_slot_none {index other : Nat}
    (empty : (kernel.dev.circularBuffer.slot other).buffptr = none) :
    ((freeSlot kernel index).dev.circularBuffer.slot other).buffptr = none := by
  by_cases same : other = index
  · rw [same]
    exact freeSlot_slot_self kernel index
  · rw [freeSlot_slot_ne kernel same]
    exact empty

end FreeSlot

private theorem foldl_freeSlot_none (indices : List Nat) (kernel : Kernel) (index : Nat)
    (emptied : index ∈ indices ∨ (kernel.dev.circularBuffer.slot index).buffptr = none) :
    ((indices.foldl freeSlot kernel).dev.circularBuffer.slot index).buffptr = none := by
  induction indices generalizing kernel with
  | nil => exact emptied.resolve_left List.not_mem_nil
  | cons first later ih =>
      apply ih
      rcases emptied with member | empty
      · rcases List.mem_cons.mp member with same | inLater
        · rw [same]
          exact Or.inr (freeSlot_slot_self kernel first)
        · exact Or.inl inLater
      · exact Or.inr (freeSlot_slot_none kernel empty)

private theorem foldl_freeSlot_accounts (indices : List Nat) (distinct : indices.Nodup)
    (kernel : Kernel) {others held stored : List Nat}
    (accounts : Accounts kernel.slab
      ((indices.filterMap (fun index => (kernel.dev.circularBuffer.slot index).buffptr)).map
        Kbuf.id ++ others) held stored) :
    Accounts (indices.foldl freeSlot kernel).slab others held stored ∧
      (indices.foldl freeSlot kernel).dev.partialEntry = kernel.dev.partialEntry := by
  induction indices generalizing kernel with
  | nil => exact ⟨accounts, rfl⟩
  | cons first later ih =>
      obtain ⟨elsewhere, laterDistinct⟩ := List.nodup_cons.mp distinct
      have unchanged : later.filterMap
          (fun index => ((freeSlot kernel first).dev.circularBuffer.slot index).buffptr) =
            later.filterMap (fun index => (kernel.dev.circularBuffer.slot index).buffptr) := by
        apply List.filterMap_congr
        intro index member
        have different : index ≠ first := by
          intro same
          rw [same] at member
          exact elsewhere member
        rw [freeSlot_slot_ne kernel different]
      have freed : Accounts (freeSlot kernel first).slab ((later.filterMap (fun index =>
          ((freeSlot kernel first).dev.circularBuffer.slot index).buffptr)).map Kbuf.id ++
            others) held stored := by
        rw [unchanged]
        cases present : (kernel.dev.circularBuffer.slot first).buffptr with
        | none =>
            simp only [List.filterMap_cons, present] at accounts
            simp only [freeSlot, present]
            exact accounts
        | some buffptr =>
            simp only [List.filterMap_cons, present] at accounts
            simp only [freeSlot, present]
            exact accounts.kfree_owned
      obtain ⟨after, partialSame⟩ := ih laterDistinct (freeSlot kernel first) freed
      exact ⟨after, partialSame.trans (freeSlot_partialEntry kernel first)⟩

private theorem ringOwned_of_none {ring : AesdCircularBuffer Kbuf}
    (emptied : ∀ index < maxWriteOperationsSupported, (ring.slot index).buffptr = none) :
    ringOwned ring = [] := by
  have none : ring.logical.filterMap AesdBufferEntry.buffptr = [] := by
    apply List.filterMap_eq_nil_iff.mpr
    intro entry member
    obtain ⟨step, _bound, rfl⟩ := CircularWalk.mem_walk.mp member
    exact emptied _ (Nat.mod_lt _ (Nat.zero_lt_succ 9))
  rw [ringOwned, none, List.map_nil]

private theorem releasePartial_owned (kernel : Kernel) :
    kernel.releasePartial.dev.owned = ringOwned kernel.dev.circularBuffer := by
  unfold Kernel.releasePartial
  cases present : kernel.dev.partialEntry.buffptr with
  | none =>
      simp only [AesdDev.owned, partialOwned, present]
      exact List.append_nil _
  | some buffptr => exact List.append_nil _

/-- Cleanup frees what the device owns, and nothing refers to it any more. -/
theorem aesdCleanupModule_accounts {kernel : Kernel} (inv : DevInv kernel.dev)
    {held stored : List Nat} (accounts : Accounts kernel.slab kernel.dev.owned held stored) :
    Accounts (aesdCleanupModule kernel).slab [] held stored ∧
      (aesdCleanupModule kernel).dev.owned = [] := by
  obtain ⟨freed, partialSame⟩ := foldl_freeSlot_accounts (List.range maxWriteOperationsSupported)
    List.nodup_range kernel
    (accounts.of_perm ((ringOwned_perm inv.ring.wellFormed).append_right _))
  have emptied : ringOwned ((List.range maxWriteOperationsSupported).foldl freeSlot
      kernel).dev.circularBuffer = [] := by
    apply ringOwned_of_none
    intro index bound
    exact foldl_freeSlot_none _ kernel index (Or.inl (List.mem_range.mpr bound))
  rw [← partialSame, ← List.nil_append (partialOwned _), ← emptied] at freed
  have released := releasePartial_accounts freed
  rw [emptied] at released
  constructor
  · exact released
  · rw [aesdCleanupModule, releasePartial_owned, emptied]

/-! ### Runs -/

def OpenDevice.stores (device : OpenDevice) (op : Op) : List Nat :=
  match op with
  | .write _ user faults =>
      (writeCopies faults user device.kernel).map Kbuf.id ++
        partialOwned (device.step op).kernel.dev.partialEntry
  | .read _ _ _ => []
  | .llseek _ _ _ _ => []
  | .ioctl _ _ _ _ => []

def OpenDevice.stored : OpenDevice → List Op → List Nat
  | _, [] => []
  | device, op :: later => device.stores op ++ (device.step op).stored later

def Op.AllocatesDescriptor : Op → Prop
  | .write _ user faults => Driver.AllocatesDescriptor faults user
  | .read _ _ _ => False
  | .llseek _ _ _ _ => False
  | .ioctl _ _ _ _ => False

private theorem step_accounts {device : OpenDevice} {op : Op} (allocated : op.DescriptorsAllocated)
    (inv : DevInv device.kernel.dev) {held stored : List Nat}
    (accounts : Accounts device.kernel.slab device.kernel.dev.owned held stored) :
    ∃ leaked,
      Accounts (device.step op).kernel.slab (device.step op).kernel.dev.owned (leaked ++ held)
        (stored ++ device.stores op) ∧
      (leaked = [] ↔ ¬op.AllocatesDescriptor) := by
  cases op with
  | write file user faults =>
      exact aesdWrite_accounts faults allocated user (device.fPos file) inv accounts
  | read file count faults =>
      have same : (device.step (.read file count faults)).kernel = device.kernel :=
        aesdRead_kernel faults count _ inv
      refine ⟨[], ?_, by simp [Op.AllocatesDescriptor]⟩
      rw [same, OpenDevice.stores, List.append_nil]
      exact accounts
  | llseek file offset whence lockInterrupted =>
      have same : (device.step (.llseek file offset whence lockInterrupted)).kernel =
        device.kernel := aesdLlseek_kernel _ _ _ _ _
      refine ⟨[], ?_, by simp [Op.AllocatesDescriptor]⟩
      rw [same, OpenDevice.stores, List.append_nil]
      exact accounts
  | ioctl file cmd seekto faults =>
      have same : (device.step (.ioctl file cmd seekto faults)).kernel = device.kernel :=
        aesdIoctl_kernel _ _ _ _ _
      refine ⟨[], ?_, by simp [Op.AllocatesDescriptor]⟩
      rw [same, OpenDevice.stores, List.append_nil]
      exact accounts

theorem run_accounts {device : OpenDevice} (inv : DevInv device.kernel.dev) (ops : List Op)
    (allocated : ∀ op ∈ ops, op.DescriptorsAllocated) {held stored : List Nat}
    (accounts : Accounts device.kernel.slab device.kernel.dev.owned held stored) :
    ∃ leaked,
      Accounts (device.run ops).kernel.slab (device.run ops).kernel.dev.owned (leaked ++ held)
        (stored ++ device.stored ops) ∧
      (leaked = [] ↔ ∀ op ∈ ops, ¬op.AllocatesDescriptor) := by
  induction ops generalizing device held stored with
  | nil =>
      refine ⟨[], ?_, by simp⟩
      rw [OpenDevice.stored, List.append_nil]
      exact accounts
  | cons op later ih =>
      have first := allocated op List.mem_cons_self
      obtain ⟨here, after, hereNone⟩ := step_accounts first inv accounts
      obtain ⟨leaked, final, laterNone⟩ := ih (call_kernel_inv first inv)
        (fun next member => allocated next (List.mem_cons_of_mem op member)) after
      refine ⟨leaked ++ here, ?_, ?_⟩
      · rw [OpenDevice.stored, List.append_assoc, ← List.append_assoc stored]
        exact final
      · rw [List.append_eq_nil_iff, hereNone, laterNone, List.forall_mem_cons]
        exact and_comm

private theorem run_accounts_init (ops : List Op)
    (allocated : ∀ op ∈ ops, op.DescriptorsAllocated) :
    ∃ leaked,
      Accounts (OpenDevice.init.run ops).kernel.slab (OpenDevice.init.run ops).kernel.dev.owned
        leaked (OpenDevice.init.stored ops) ∧
      (leaked = [] ↔ ∀ op ∈ ops, ¬op.AllocatesDescriptor) := by
  have none : OpenDevice.init.kernel.dev.owned = [] := by decide
  have start : Accounts OpenDevice.init.kernel.slab OpenDevice.init.kernel.dev.owned [] [] := by
    rw [none]
    exact Accounts.init
  obtain ⟨leaked, accounts, leakless⟩ := run_accounts init_inv ops allocated start
  rw [List.append_nil] at accounts
  exact ⟨leaked, accounts, leakless⟩

private theorem allocated_of_initial {ops before : List Op} (initial : before <+: ops)
    (allocated : ∀ op ∈ ops, op.DescriptorsAllocated) :
    ∀ op ∈ before, op.DescriptorsAllocated := by
  intro op member
  exact allocated op (initial.subset member)

/-- What holds between two calls, where `stored` are the data buffers put into
the device so far. Whatever was freed is no longer referred to, and a stored
buffer that is no longer referred to has been freed once. -/
structure OwnsItsBuffers (kernel : Kernel) (stored : List Nat) : Prop where
  distinct : kernel.dev.owned.Nodup
  live : ∀ id ∈ kernel.dev.owned, id ∈ kernel.slab.live
  known : ∀ id ∈ kernel.dev.owned, id ∈ stored
  tame : kernel.slab.wild = []
  unreferenced : ∀ id ∈ kernel.slab.freed, id ∉ kernel.dev.owned
  released : ∀ id ∈ stored, id ∉ kernel.dev.owned → kernel.slab.freed.count id = 1

theorem Accounts.ownsItsBuffers {kernel : Kernel} {held stored : List Nat}
    (accounts : Accounts kernel.slab kernel.dev.owned held stored) :
    OwnsItsBuffers kernel stored := by
  constructor
  · exact accounts.balanced.nodup_held.of_append_left
  · intro id member
    exact accounts.balanced.mem_live.mpr (List.mem_append_left held member)
  · exact accounts.owned_stored
  · exact accounts.tame
  · intro id freed member
    exact accounts.balanced.not_freed_of_held (List.mem_append_left held member) freed
  · intro id member disowned
    apply accounts.balanced.count_freed (accounts.stored_lt id member)
    rw [List.mem_append]
    rintro (stillOwned | elsewhere)
    · exact disowned stillOwned
    · exact accounts.stored_apart id member elsewhere

/-- Every data buffer put into the device is freed once, when the device stops
referring to it or at the latest by the cleanup. -/
theorem data_buffers_freed_once (ops : List Op)
    (allocated : ∀ op ∈ ops, op.DescriptorsAllocated) :
    (∀ before, before <+: ops →
      OwnsItsBuffers (OpenDevice.init.run before).kernel (OpenDevice.init.stored before)) ∧
    let unloaded := aesdCleanupModule (OpenDevice.init.run ops).kernel
    OwnsItsBuffers unloaded (OpenDevice.init.stored ops) ∧ unloaded.dev.owned = [] ∧
      ∀ id ∈ OpenDevice.init.stored ops, unloaded.slab.freed.count id = 1 := by
  constructor
  · intro before initial
    obtain ⟨leaked, accounts, _none⟩ :=
      run_accounts_init before (allocated_of_initial initial allocated)
    exact accounts.ownsItsBuffers
  · obtain ⟨leaked, accounts, _none⟩ := run_accounts_init ops allocated
    obtain ⟨unloaded, emptied⟩ :=
      aesdCleanupModule_accounts (run_inv init_inv ops allocated) accounts
    have owns : OwnsItsBuffers (aesdCleanupModule (OpenDevice.init.run ops).kernel)
        (OpenDevice.init.stored ops) := by
      apply Accounts.ownsItsBuffers
      rw [emptied]
      exact unloaded
    refine ⟨owns, emptied, ?_⟩
    intro id member
    apply owns.released id member
    rw [emptied]
    exact List.not_mem_nil

/-- A line and an unfinished one, then a write that completes the second and
fails to copy the third. -/
def interruptedCopies : List Op :=
  [.write 0 [97, 10, 98] WriteFaults.none,
    .write 0 [10, 99, 10] { WriteFaults.none with lineKmemdup := fun index => index == 1 }]

theorem interruptedCopies_allocated : ∀ op ∈ interruptedCopies, op.DescriptorsAllocated := by
  intro op member
  simp only [interruptedCopies, List.mem_cons, List.not_mem_nil, or_false] at member
  rcases member with rfl | rfl
  · exact fun _index => rfl
  · exact fun _index => rfl

theorem data_buffers_freed_once_interruptedCopies :
    OpenDevice.init.stored interruptedCopies = [2, 3, 6] ∧
      ∀ id ∈ [2, 3, 6], (aesdCleanupModule
        (OpenDevice.init.run interruptedCopies).kernel).slab.freed.count id = 1 := by
  have stored : OpenDevice.init.stored interruptedCopies = [2, 3, 6] := by decide
  obtain ⟨_owned, _unloaded, _emptied, once⟩ :=
    data_buffers_freed_once interruptedCopies interruptedCopies_allocated
  rw [stored] at once
  exact ⟨stored, once⟩

/-! ### Leaks -/

/-- After each call the live allocations are the buffers the device refers to,
at most eleven, and after the cleanup there are none. -/
def LeakFree (ops : List Op) : Prop :=
  (∀ before, before <+: ops →
    let kernel := (OpenDevice.init.run before).kernel
    (∀ id, id ∈ kernel.slab.live ↔ id ∈ kernel.dev.owned) ∧
      kernel.slab.live.length ≤ maxWriteOperationsSupported + 1) ∧
  (aesdCleanupModule (OpenDevice.init.run ops).kernel).slab.live = []

/-- A run leaks nothing exactly when none of its calls adds a line: the
descriptor of every line stays allocated. -/
theorem leakFree_iff (ops : List Op) (allocated : ∀ op ∈ ops, op.DescriptorsAllocated) :
    LeakFree ops ↔ ∀ op ∈ ops, ¬op.AllocatesDescriptor := by
  constructor
  · rintro ⟨everywhere, _unloaded⟩
    obtain ⟨leaked, accounts, leakless⟩ := run_accounts_init ops allocated
    obtain ⟨same, _few⟩ := everywhere ops (List.prefix_refl ops)
    apply leakless.mp
    apply List.eq_nil_iff_forall_not_mem.mpr
    intro id member
    have live := accounts.balanced.mem_live.mpr (List.mem_append_right _ member)
    exact accounts.stored_apart id (accounts.owned_stored id ((same id).mp live)) member
  · intro quiet
    constructor
    · intro before initial
      obtain ⟨leaked, accounts, leakless⟩ :=
        run_accounts_init before (allocated_of_initial initial allocated)
      have none := leakless.mpr (fun op member => quiet op (initial.subset member))
      rw [none] at accounts
      have held := accounts.balanced.held
      rw [List.append_nil] at held
      constructor
      · exact fun id => held.mem_iff
      · rw [held.length_eq]
        exact AesdDev.owned_length_le _
    · obtain ⟨leaked, accounts, leakless⟩ := run_accounts_init ops allocated
      rw [leakless.mpr quiet] at accounts
      obtain ⟨unloaded, _emptied⟩ :=
        aesdCleanupModule_accounts (run_inv init_inv ops allocated) accounts
      exact unloaded.balanced.held.eq_nil

theorem leakFree_unfinished :
    LeakFree [.write 0 [97] WriteFaults.none, .write 1 [98, 99] WriteFaults.none] := by
  apply (leakFree_iff _ ?_).mpr
  · intro op member
    simp only [List.mem_cons, List.not_mem_nil, or_false] at member
    rcases member with rfl | rfl
    · exact fun allocates => absurd allocates.2.2.2 (by decide)
    · exact fun allocates => absurd allocates.2.2.2 (by decide)
  · intro op member
    simp only [List.mem_cons, List.not_mem_nil, or_false] at member
    rcases member with rfl | rfl
    · exact fun _index => rfl
    · exact fun _index => rfl

theorem descriptor_leaks :
    (∀ op ∈ [Op.write 0 [97, 10] WriteFaults.none], op.DescriptorsAllocated) ∧
      ¬LeakFree [.write 0 [97, 10] WriteFaults.none] := by
  constructor
  · intro op member
    rw [List.mem_singleton.mp member]
    exact fun _index => rfl
  · rintro ⟨everywhere, _unloaded⟩
    obtain ⟨same, _few⟩ := everywhere _ (List.prefix_refl _)
    have owned := (same 1).mp (by decide)
    exact absurd owned (by decide)

end Aesd.Driver
