/-
The allocations of a call of `aesd_write`.

Every slot of the ring and the partial entry own their buffer; what else is live
is held by the call, or by nobody: the descriptor that is allocated for each line
is copied into the ring and never freed.
-/

import Aesd.Driver.StreamLaw
import Aesd.Lib.Ledger

namespace Aesd.Driver

open CircularBuffer LineStream AesdCircularBuffer

/-! ### Owned buffers -/

def ringOwned (ring : AesdCircularBuffer Kbuf) : List Nat :=
  (ring.logical.filterMap AesdBufferEntry.buffptr).map Kbuf.id

def partialOwned (entry : AesdBufferEntry Kbuf) : List Nat := entry.buffptr.toList.map Kbuf.id

def AesdDev.owned (dev : AesdDev) : List Nat :=
  ringOwned dev.circularBuffer ++ partialOwned dev.partialEntry

/-- What the ring hands back is what it stops owning. -/
theorem ringOwned_addEntry {ring : AesdCircularBuffer Kbuf} (wf : ring.WellFormed) (copy : Kbuf)
    (size : Nat) :
    ringOwned ring ++ [copy.id] =
      (ring.addEntry { buffptr := some copy, size := size }).2.toList.map Kbuf.id ++
        ringOwned (ring.addEntry { buffptr := some copy, size := size }).1 := by
  have freed := addEntry_freed wf { buffptr := some copy, size := size }
  rw [ringOwned, ringOwned, addEntry_logical wf, freed]
  cases full : ring.full with
  | true =>
      have ten : ring.logical.length = maxWriteOperationsSupported := by
        rw [logical_length, occupied_of_full full]
      have oldest : ring.logical = ring.slot ring.outOffs :: ring.logical.tail := by
        have bound : ring.outOffs < 9 + 1 := wf.outOffs_lt
        rw [logical, occupied_of_full full, show maxWriteOperationsSupported = 9 + 1 from rfl,
          CircularWalk.walk_cons, List.tail_cons, Nat.mod_eq_of_lt bound]
      rw [retain_singleton_of_full (by decide) ten, if_pos rfl, List.filterMap_append,
        List.map_append, ← List.append_assoc]
      congr 1
      conv_lhs => rw [oldest]
      cases present : (ring.slot ring.outOffs).buffptr with
      | none => rw [List.filterMap_cons_none present]; rfl
      | some buffptr => rw [List.filterMap_cons_some present]; rfl
  | false =>
      have room := occupied_lt_of_not_full full
      rw [retain_of_fits, List.filterMap_append, List.map_append]
      · rfl
      · rw [logical_length, List.length_singleton]
        exact room

theorem ringOwned_length_le (ring : AesdCircularBuffer Kbuf) :
    (ringOwned ring).length ≤ maxWriteOperationsSupported := by
  rw [ringOwned, List.length_map]
  refine Nat.le_trans (List.length_filterMap_le _ _) ?_
  rw [logical_length]
  exact ring.occupied_le

theorem AesdDev.owned_length_le (dev : AesdDev) :
    dev.owned.length ≤ maxWriteOperationsSupported + 1 := by
  rw [AesdDev.owned, List.length_append]
  apply Nat.add_le_add (ringOwned_length_le _)
  rw [partialOwned, List.length_map]
  cases dev.partialEntry.buffptr with
  | none => exact Nat.zero_le 1
  | some buffptr => exact Nat.le_refl 1

/-! ### Accounts -/

/-- The live allocations are the owned buffers and what is held besides them,
nothing was freed that was not live, and `stored` lists the buffers that have
ever been owned, none of which is held by anybody else. -/
structure Accounts (slab : Slab) (owned held stored : List Nat) : Prop where
  balanced : Balanced slab.next slab.live slab.freed (owned ++ held)
  tame : slab.wild = []
  owned_stored : ∀ id ∈ owned, id ∈ stored
  stored_lt : ∀ id ∈ stored, id < slab.next
  stored_apart : ∀ id ∈ stored, id ∉ held

namespace Accounts

variable {slab : Slab} {owned held stored : List Nat} {id : Nat}

theorem init : Accounts Slab.empty [] [] [] :=
  { balanced := Balanced.init
    tame := rfl
    owned_stored := fun _id member => absurd member List.not_mem_nil
    stored_lt := fun _id member => absurd member List.not_mem_nil
    stored_apart := fun _id member => absurd member List.not_mem_nil }

theorem of_perm (accounts : Accounts slab owned held stored) {others : List Nat}
    (same : owned.Perm others) : Accounts slab others held stored :=
  { accounts with
    balanced := accounts.balanced.of_perm (same.append_right held)
    owned_stored := fun id member => accounts.owned_stored id (same.mem_iff.mpr member) }

theorem of_perm_held (accounts : Accounts slab owned held stored) {others : List Nat}
    (same : held.Perm others) : Accounts slab owned others stored :=
  { accounts with
    balanced := accounts.balanced.of_perm (same.append_left owned)
    stored_apart := fun id member inside =>
      accounts.stored_apart id member (same.mem_iff.mpr inside) }

theorem kmalloc (accounts : Accounts slab owned held stored) :
    Accounts (slab.kmalloc false).1 owned (slab.next :: held) stored := by
  constructor
  · exact accounts.balanced.alloc.of_perm List.perm_middle.symm
  · exact accounts.tame
  · exact accounts.owned_stored
  · intro id member
    exact Nat.lt_succ_of_lt (accounts.stored_lt id member)
  · intro id member inside
    rcases List.mem_cons.mp inside with same | earlier
    · exact absurd (accounts.stored_lt id member) (by omega)
    · exact accounts.stored_apart id member earlier

private theorem kfree_eq (accounts : Accounts slab owned held stored) (live : id ∈ owned ++ held) :
    slab.kfreeConst id =
      { slab with live := slab.live.erase id, freed := slab.freed ++ [id] } := by
  rw [Slab.kfreeConst, if_pos (accounts.balanced.mem_live.mpr live)]

theorem kfree_held (accounts : Accounts slab owned (id :: held) stored) :
    Accounts (slab.kfreeConst id) owned held stored := by
  rw [accounts.kfree_eq (List.mem_append_right owned List.mem_cons_self)]
  constructor
  · exact (accounts.balanced.of_perm List.perm_middle).free
  · exact accounts.tame
  · exact accounts.owned_stored
  · exact accounts.stored_lt
  · intro other member inside
    exact accounts.stored_apart other member (List.mem_cons_of_mem id inside)

theorem kfree_owned (accounts : Accounts slab (id :: owned) held stored) :
    Accounts (slab.kfreeConst id) owned held stored := by
  rw [accounts.kfree_eq List.mem_cons_self]
  exact
    { accounts with
      balanced := accounts.balanced.free
      owned_stored := fun other member =>
        accounts.owned_stored other (List.mem_cons_of_mem id member) }

theorem keep (accounts : Accounts slab owned (id :: held) stored) :
    Accounts slab (owned ++ [id]) held (stored ++ [id]) := by
  have fresh : id ∉ held := by
    have distinct := accounts.balanced.nodup_held.of_append_right
    exact (List.nodup_cons.mp distinct).1
  constructor
  · rw [List.append_assoc]
    exact accounts.balanced
  · exact accounts.tame
  · intro other member
    rcases List.mem_append.mp member with earlier | new
    · exact List.mem_append_left _ (accounts.owned_stored other earlier)
    · exact List.mem_append_right _ new
  · intro other member
    rcases List.mem_append.mp member with earlier | new
    · exact accounts.stored_lt other earlier
    · rw [List.mem_singleton.mp new]
      exact accounts.balanced.lt_of_held (List.mem_append_right owned List.mem_cons_self)
  · intro other member inside
    rcases List.mem_append.mp member with earlier | new
    · exact accounts.stored_apart other earlier (List.mem_cons_of_mem id inside)
    · rw [List.mem_singleton.mp new] at inside
      exact fresh inside

theorem record (accounts : Accounts slab owned held stored) (ids : List Nat)
    (present : ∀ id ∈ ids, id ∈ stored) : Accounts slab owned held (stored ++ ids) := by
  have same : ∀ id ∈ stored ++ ids, id ∈ stored := by
    intro id member
    exact (List.mem_append.mp member).elim (fun earlier => earlier) (present id)
  exact
    { accounts with
      owned_stored := fun id member =>
        List.mem_append_left ids (accounts.owned_stored id member)
      stored_lt := fun id member => accounts.stored_lt id (same id member)
      stored_apart := fun id member => accounts.stored_apart id (same id member) }

end Accounts

/-! ### The line loop -/

/-- The copies that the line loop puts into the ring, first to last; it follows
`writeLines` round by round. -/
def lineCopies (faults : WriteFaults) : Nat → Nat → Bytes → Kernel → List Kbuf
  | 0, _, _, _ => []
  | fuel + 1, index, working, kernel =>
      match memchr working newline with
      | none => []
      | some newLine =>
          let bytesToCopy := newLine + 1
          match kernel.slab.kmalloc (faults.descriptorKmalloc index) with
          | (_, none) => []
          | (slab, some _descriptor) =>
              match slab.kmemdup (faults.lineKmemdup index) (working.take bytesToCopy) with
              | (_, none) => []
              | (slab, some copy) =>
                  let (ring, garbage) := kernel.dev.circularBuffer.addEntry
                    { buffptr := some copy, size := bytesToCopy }
                  let slab :=
                    match garbage with
                    | some buffptr => slab.kfreeConst buffptr.id
                    | none => slab
                  copy :: lineCopies faults fuel (index + 1) (working.drop bytesToCopy)
                    { dev := { kernel.dev with circularBuffer := ring }, slab := slab }

private def freeGarbage (slab : Slab) : Option Kbuf → Slab
  | some buffptr => slab.kfreeConst buffptr.id
  | none => slab

/-- The state after a round in which nothing fails, and the copy it stores. -/
private def storeLine (kernel : Kernel) (line : Bytes) : Kernel × Kbuf :=
  let copy : Kbuf := { id := kernel.slab.next + 1, bytes := line }
  let added := kernel.dev.circularBuffer.addEntry { buffptr := some copy, size := line.length }
  let slab := ((kernel.slab.kmalloc false).1.kmalloc false).1
  ({ dev := { kernel.dev with circularBuffer := added.1 }, slab := freeGarbage slab added.2 }, copy)

private theorem Accounts.freeGarbage {slab : Slab} {owned held stored : List Nat}
    {garbage : Option Kbuf}
    (accounts : Accounts slab (garbage.toList.map Kbuf.id ++ owned) held stored) :
    Accounts (freeGarbage slab garbage) owned held stored := by
  cases garbage with
  | none => exact accounts
  | some buffptr => exact accounts.kfree_owned

section Round

variable {faults : WriteFaults} {index newLine : Nat} {working : Bytes}

private theorem round_eq (fuel : Nat) (kernel : Kernel)
    (found : memchr working newline = some newLine)
    (descriptor : faults.descriptorKmalloc index = false)
    (copied : faults.lineKmemdup index = false) :
    writeLines faults (fuel + 1) index working kernel =
        writeLines faults fuel (index + 1) (working.drop (newLine + 1))
          (storeLine kernel (working.take (newLine + 1))).1 ∧
      lineCopies faults (fuel + 1) index working kernel =
        (storeLine kernel (working.take (newLine + 1))).2 ::
          lineCopies faults fuel (index + 1) (working.drop (newLine + 1))
            (storeLine kernel (working.take (newLine + 1))).1 := by
  have length : (working.take (newLine + 1)).length = newLine + 1 :=
    List.length_take_of_le (idxOf?_lt_length found)
  simp only [writeLines, lineCopies, storeLine, found, descriptor, copied, length, Slab.kmalloc,
    Slab.kmemdup, Bool.false_eq_true, if_false]
  exact ⟨rfl, rfl⟩

private theorem round_failed (fuel : Nat) (kernel : Kernel)
    (found : memchr working newline = some newLine)
    (descriptor : faults.descriptorKmalloc index = false)
    (failed : faults.lineKmemdup index = true) :
    (writeLines faults (fuel + 1) index working kernel).1 =
        { kernel with slab := (kernel.slab.kmalloc false).1 } ∧
      lineCopies faults (fuel + 1) index working kernel = [] := by
  simp only [writeLines, lineCopies, found, descriptor, failed, Slab.kmalloc, Slab.kmemdup,
    Bool.false_eq_true, if_false, if_true]
  exact ⟨trivial, trivial⟩

end Round

private theorem storeLine_accounts {kernel : Kernel} {held stored : List Nat}
    (wf : kernel.dev.circularBuffer.WellFormed) (line : Bytes)
    (accounts : Accounts kernel.slab (ringOwned kernel.dev.circularBuffer) held stored) :
    Accounts (storeLine kernel line).1.slab
      (ringOwned (storeLine kernel line).1.dev.circularBuffer) (kernel.slab.next :: held)
      (stored ++ [(storeLine kernel line).2.id]) := by
  have stores := accounts.kmalloc.kmalloc.keep
  have exchange := ringOwned_addEntry wf { id := kernel.slab.next + 1, bytes := line } line.length
  change Accounts _ (ringOwned kernel.dev.circularBuffer ++ [kernel.slab.next + 1]) _ _ at stores
  rw [exchange] at stores
  exact stores.freeGarbage

private theorem storeLine_inv {kernel : Kernel} {line : Bytes} (closed : IsLine newline line)
    (inv : RingInv kernel.dev.circularBuffer) :
    RingInv (storeLine kernel line).1.dev.circularBuffer :=
  (inv.addEntry { id := kernel.slab.next + 1, bytes := line } line.length rfl closed).1

/-- The loop leaves one more held allocation for every line it begins. -/
theorem writeLines_accounts (faults : WriteFaults)
    (descriptors : ∀ index, faults.descriptorKmalloc index = false)
    (fuel index : Nat) (working : Bytes) (kernel : Kernel) (enough : working.length ≤ fuel)
    (inv : RingInv kernel.dev.circularBuffer) {held stored : List Nat}
    (accounts : Accounts kernel.slab (ringOwned kernel.dev.circularBuffer) held stored) :
    ∃ leaked,
      Accounts (writeLines faults fuel index working kernel).1.slab
        (ringOwned (writeLines faults fuel index working kernel).1.dev.circularBuffer)
        (leaked ++ held)
        (stored ++ (lineCopies faults fuel index working kernel).map Kbuf.id) ∧
      (leaked = [] ↔ newline ∉ working) := by
  induction fuel generalizing index working kernel held stored with
  | zero =>
      have empty : working = [] := List.eq_nil_of_length_eq_zero (Nat.le_zero.mp enough)
      subst working
      refine ⟨[], ?_, by simp⟩
      rw [lineCopies, List.map_nil, List.append_nil]
      exact accounts
  | succ fuel ih =>
      cases found : memchr working newline with
      | none =>
          have absent : newline ∉ working := List.idxOf?_eq_none_iff.mp found
          refine ⟨[], ?_, by simp [absent]⟩
          simp only [writeLines, lineCopies, found, List.map_nil, List.append_nil]
          exact accounts
      | some newLine =>
          have closed : IsLine newline (working.take (newLine + 1)) := isLine_take_of_idxOf? found
          have present : newline ∈ working := by
            apply Classical.byContradiction
            intro absent
            rw [memchr, List.idxOf?_eq_none_iff.mpr absent] at found
            cases found
          cases failed : faults.lineKmemdup index with
          | true =>
              obtain ⟨ran, none⟩ := round_failed fuel kernel found (descriptors index) failed
              refine ⟨[kernel.slab.next], ?_, by simp [present]⟩
              rw [ran, none, List.map_nil, List.append_nil]
              exact accounts.kmalloc
          | false =>
              have shorter : (working.drop (newLine + 1)).length ≤ fuel := by
                rw [List.length_drop]
                omega
              obtain ⟨ran, copies⟩ := round_eq fuel kernel found (descriptors index) failed
              obtain ⟨leaked, remaining, _none⟩ := ih (index + 1) (working.drop (newLine + 1)) _
                shorter (storeLine_inv closed inv)
                (storeLine_accounts inv.wellFormed (working.take (newLine + 1)) accounts)
              refine ⟨leaked ++ [kernel.slab.next], ?_, by simp [present]⟩
              rw [ran, copies, List.map_cons]
              simpa using remaining

/-! ### A call -/

def writeCopies (faults : WriteFaults) (user : Bytes) (kernel : Kernel) : List Kbuf :=
  match writeStage faults user kernel with
  | (_, none) => []
  | (kernel, some staging) =>
      match mutexLockInterruptible faults.lockInterrupted kernel.dev with
      | .interrupted => []
      | .blocked => []
      | .acquired dev =>
          lineCopies faults staging.bytes.length 0 staging.bytes { kernel with dev := dev }

private theorem writeLocked_accounts (faults : WriteFaults)
    (descriptors : ∀ index, faults.descriptorKmalloc index = false) (count : Nat)
    (staging : Kbuf) (kernel : Kernel) (fPos : Int) (inv : RingInv kernel.dev.circularBuffer)
    (cleared : kernel.dev.partialEntry.buffptr = none) {held stored : List Nat}
    (accounts : Accounts kernel.slab (ringOwned kernel.dev.circularBuffer) (staging.id :: held)
      stored) :
    ∃ leaked,
      Accounts (writeLocked faults count staging kernel fPos).kernel.slab
        (writeLocked faults count staging kernel fPos).kernel.dev.owned (leaked ++ held)
        (stored ++
          ((lineCopies faults staging.bytes.length 0 staging.bytes kernel).map Kbuf.id ++
            partialOwned (writeLocked faults count staging kernel fPos).kernel.dev.partialEntry)) ∧
      (leaked = [] ↔ newline ∉ staging.bytes) := by
  obtain ⟨middle, ran, _ring, _content, partialSame, _lock⟩ := writeLines_spec faults descriptors
    staging.bytes.length 0 staging.bytes kernel (Nat.le_refl _) inv
  obtain ⟨leaked, after, leakless⟩ := writeLines_accounts faults descriptors
    staging.bytes.length 0 staging.bytes kernel (Nat.le_refl _) inv accounts
  rw [ran] at after
  have atFront := after.of_perm_held List.perm_middle
  have emptied : partialOwned middle.dev.partialEntry = [] := by
    rw [partialOwned, partialSame, cleared]
    rfl
  refine ⟨leaked, ?_, leakless⟩
  rw [writeLocked, ran, ← List.append_assoc]
  have released := atFront.kfree_held
  have unchanged : Accounts (middle.slab.kfreeConst staging.id) middle.dev.owned (leaked ++ held)
      (stored ++ (lineCopies faults staging.bytes.length 0 staging.bytes kernel).map Kbuf.id ++
        partialOwned middle.dev.partialEntry) := by
    rw [AesdDev.owned, emptied, List.append_nil, List.append_nil]
    exact released
  rw [lineExit]
  by_cases all : committedLines faults.lineKmemdup 0 (lines newline staging.bytes) =
      lines newline staging.bytes
  · simp only [if_pos all]
    by_cases nonempty : 0 < (rest newline staging.bytes).length
    · simp only [if_pos nonempty]
      cases copyFails : faults.partialKmemdup with
      | true =>
          rw [AesdDev.owned, emptied] at unchanged
          exact unchanged
      | false => exact ((atFront.kmalloc.of_perm_held (List.Perm.swap _ _ _)).kfree_held).keep
    · simp only [if_neg nonempty]
      exact unchanged
  · simp only [if_neg all]
    exact unchanged

theorem releasePartial_accounts {kernel : Kernel} {held stored : List Nat}
    (accounts : Accounts kernel.slab kernel.dev.owned held stored) :
    Accounts kernel.releasePartial.slab (ringOwned kernel.dev.circularBuffer) held stored := by
  rw [AesdDev.owned, partialOwned] at accounts
  unfold Kernel.releasePartial
  cases present : kernel.dev.partialEntry.buffptr with
  | none =>
      rw [present, Option.toList_none, List.map_nil, List.append_nil] at accounts
      exact accounts
  | some buffptr =>
      rw [present, Option.toList_some, List.map_singleton] at accounts
      exact (accounts.of_perm (List.perm_append_singleton _ _)).kfree_owned

private theorem writeStage_accounts (faults : WriteFaults) (user : Bytes) {kernel : Kernel}
    (allocated : faults.stagingKmalloc = false) (copied : faults.copyFromUser = false)
    {held stored : List Nat} (accounts : Accounts kernel.slab kernel.dev.owned held stored) :
    ∃ staging, (writeStage faults user kernel).2 = some staging ∧
      staging.bytes = kernel.dev.pending ++ user ∧
      Accounts (writeStage faults user kernel).1.slab (ringOwned kernel.dev.circularBuffer)
        (staging.id :: held) stored := by
  have staged : Accounts ({ kernel with slab := (kernel.slab.kmalloc false).1 } : Kernel).slab
      ({ kernel with slab := (kernel.slab.kmalloc false).1 } : Kernel).dev.owned
      (kernel.slab.next :: held) stored := accounts.kmalloc
  simp only [writeStage, Slab.kmalloc, allocated, copied, Bool.false_eq_true, if_false]
  exact ⟨_, rfl, rfl, releasePartial_accounts staged⟩

/-- The call allocates a descriptor: it gets past the lock with a line to add. -/
def AllocatesDescriptor (faults : WriteFaults) (user : Bytes) : Prop :=
  faults.stagingKmalloc = false ∧ faults.copyFromUser = false ∧ faults.lockInterrupted = false ∧
    newline ∈ user

/-- Every call keeps the accounts; only its descriptors stay behind. -/
theorem aesdWrite_accounts (faults : WriteFaults)
    (descriptors : ∀ index, faults.descriptorKmalloc index = false) (user : Bytes)
    {kernel : Kernel} (fPos : Int) (inv : DevInv kernel.dev) {held stored : List Nat}
    (accounts : Accounts kernel.slab kernel.dev.owned held stored) :
    ∃ leaked,
      Accounts (aesdWrite faults user kernel fPos).kernel.slab
        (aesdWrite faults user kernel fPos).kernel.dev.owned (leaked ++ held)
        (stored ++ ((writeCopies faults user kernel).map Kbuf.id ++
          partialOwned (aesdWrite faults user kernel fPos).kernel.dev.partialEntry)) ∧
      (leaked = [] ↔ ¬AllocatesDescriptor faults user) := by
  have partialStored : ∀ id ∈ partialOwned kernel.dev.partialEntry, id ∈ stored := by
    intro id member
    exact accounts.owned_stored id (List.mem_append_right _ member)
  unfold aesdWrite writeCopies AllocatesDescriptor
  cases allocated : faults.stagingKmalloc with
  | true =>
      refine ⟨[], ?_, by simp⟩
      simp only [writeStage, allocated, Slab.kmalloc, if_true]
      exact accounts.record _ partialStored
  | false =>
      cases copied : faults.copyFromUser with
      | true =>
          refine ⟨[], ?_, by simp⟩
          simp only [writeStage, allocated, copied, Slab.kmalloc, if_true, Bool.false_eq_true,
            if_false]
          exact accounts.kmalloc.kfree_held.record _ partialStored
      | false =>
          have devTaken := (writeStage_staged faults user inv.partialStored allocated copied).1
          obtain ⟨staging, present, bytes, staged⟩ :=
            writeStage_accounts faults user allocated copied accounts
          have absent : newline ∉ kernel.dev.pending := inv.partialStored.newline_not_mem
          cases stage : writeStage faults user kernel with
          | mk taken result =>
              rw [stage] at devTaken present staged
              subst present
              have locked : taken.dev.lock = false := by
                rw [devTaken]
                exact inv.unlocked
              have sameRing : taken.dev.circularBuffer = kernel.dev.circularBuffer := by
                rw [devTaken]
              have cleared : taken.dev.partialEntry.buffptr = none := by
                rw [devTaken]
                rfl
              rw [← sameRing] at staged
              cases interrupted : faults.lockInterrupted with
              | true =>
                  refine ⟨[], ?_, by simp⟩
                  simp only [mutexLockInterruptible, if_true]
                  rw [AesdDev.owned, partialOwned, cleared, Option.toList_none, List.map_nil,
                    List.append_nil, List.append_nil, List.append_nil]
                  exact staged.kfree_held
              | false =>
                  simp only [mutexLockInterruptible, locked, Bool.false_eq_true, if_false]
                  obtain ⟨leaked, after, leakless⟩ := writeLocked_accounts faults descriptors
                    user.length staging { taken with dev := { taken.dev with lock := true } } fPos
                    (sameRing ▸ inv.ring) cleared staged
                  refine ⟨leaked, after, leakless.trans ?_⟩
                  rw [bytes, List.mem_append]
                  simp [absent]

end Aesd.Driver
