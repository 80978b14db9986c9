/-
The circular buffer of the character driver (aesd-circular-buffer.c).

The ring stores copies of entry descriptors and never looks behind their
pointers, so the type of pointers is left open. The read side of every result
is the logical content: the entries met on a walk from `outOffs`.
-/

import Aesd.Lib.CircularWalk
import Aesd.Lib.Segments
import Aesd.Lib.Journal

namespace Aesd.CircularBuffer

open CircularWalk Segments

def maxWriteOperationsSupported : Nat := 10

structure AesdBufferEntry (Ptr : Type) where
  buffptr : Option Ptr
  size : Nat
  deriving DecidableEq, Repr

/-- What `memset(…, 0, …)` leaves in a slot. -/
def AesdBufferEntry.zero {Ptr : Type} : AesdBufferEntry Ptr :=
  { buffptr := none, size := 0 }

structure AesdCircularBuffer (Ptr : Type) where
  entry : Vector (AesdBufferEntry Ptr) maxWriteOperationsSupported
  inOffs : Nat
  outOffs : Nat
  full : Bool
  deriving DecidableEq, Repr

variable {Ptr : Type}

namespace AesdCircularBuffer

/-- The array read `entry[index]`; the index is in range in every use. -/
def slot (buffer : AesdCircularBuffer Ptr) (index : Nat) : AesdBufferEntry Ptr :=
  (buffer.entry[index]?).getD AesdBufferEntry.zero

/-- The loop of `aesd_circular_buffer_find_entry_offset_for_fpos`. The result
is the slot number and the byte inside it, `some none` stands for the NULL
return, and `none` for a loop that has not ended after `fuel` evaluations of
its guard. -/
def findLoop (buffer : AesdCircularBuffer Ptr) :
    (fuel count offset charOffset : Nat) → Option (Option (Nat × Nat))
  | 0, _, _, _ => none
  | fuel + 1, count, offset, charOffset =>
      -- `full && count-- > 0` decrements the `uint8_t` only when `full` is set
      let counted := buffer.full && decide (0 < count)
      let count := if buffer.full then (count + 255) % 256 else count
      if counted || decide (offset ≠ buffer.inOffs) then
        if charOffset < (buffer.slot offset).size then some (some (offset, charOffset))
        else
          buffer.findLoop fuel count ((offset + 1) % maxWriteOperationsSupported)
            (charOffset - (buffer.slot offset).size)
      else some none

/-- One evaluation of the guard for each slot and one to leave the loop. -/
def findEntryOffsetForFpos (buffer : AesdCircularBuffer Ptr) (charOffset : Nat) :
    Option (Option (Nat × Nat)) :=
  buffer.findLoop (maxWriteOperationsSupported + 1) maxWriteOperationsSupported
    buffer.outOffs charOffset

/-- The second component is the returned pointer, which the caller has to free. -/
def addEntry (buffer : AesdCircularBuffer Ptr) (entry : AesdBufferEntry Ptr) :
    AesdCircularBuffer Ptr × Option Ptr :=
  let buffptr := if buffer.full then (buffer.slot buffer.inOffs).buffptr else none
  let stored :=
    { buffer with
      entry := buffer.entry.setIfInBounds buffer.inOffs entry
      inOffs := (buffer.inOffs + 1) % maxWriteOperationsSupported }
  if stored.full then
    ({ stored with outOffs := (stored.outOffs + 1) % maxWriteOperationsSupported }, buffptr)
  else if stored.inOffs = stored.outOffs then ({ stored with full := true }, none)
  else (stored, none)

def init : AesdCircularBuffer Ptr :=
  { entry := Vector.replicate maxWriteOperationsSupported AesdBufferEntry.zero
    inOffs := 0
    outOffs := 0
    full := false }

/-! ### Logical content -/

/-- The number of occupied slots; the flag alone tells full from empty. -/
def occupied (buffer : AesdCircularBuffer Ptr) : Nat :=
  if buffer.full then maxWriteOperationsSupported
  else (buffer.inOffs + maxWriteOperationsSupported - buffer.outOffs) % maxWriteOperationsSupported

def logical (buffer : AesdCircularBuffer Ptr) : List (AesdBufferEntry Ptr) :=
  walk buffer.slot maxWriteOperationsSupported buffer.outOffs buffer.occupied

def InWindow (buffer : AesdCircularBuffer Ptr) (index : Nat) : Prop :=
  ∃ step < buffer.occupied, (buffer.outOffs + step) % maxWriteOperationsSupported = index

structure WellFormed (buffer : AesdCircularBuffer Ptr) : Prop where
  inOffs_lt : buffer.inOffs < maxWriteOperationsSupported
  outOffs_lt : buffer.outOffs < maxWriteOperationsSupported
  full_same : buffer.full = true → buffer.inOffs = buffer.outOffs
  vacant : ∀ index < maxWriteOperationsSupported,
    ¬buffer.InWindow index → buffer.slot index = AesdBufferEntry.zero

theorem slot_init (index : Nat) :
    (init : AesdCircularBuffer Ptr).slot index = AesdBufferEntry.zero := by
  unfold slot init
  by_cases inside : index < maxWriteOperationsSupported
  · simp [inside]
  · simp [inside]

theorem wellFormed_init : (init : AesdCircularBuffer Ptr).WellFormed :=
  { inOffs_lt := Nat.zero_lt_succ 9
    outOffs_lt := Nat.zero_lt_succ 9
    full_same := fun impossible => by cases impossible
    vacant := fun index _bound _outside => slot_init index }

theorem logical_init : (init : AesdCircularBuffer Ptr).logical = [] := by
  have none : (init : AesdCircularBuffer Ptr).occupied = 0 := by
    simp [occupied, init, maxWriteOperationsSupported]
  rw [logical, none, walk_zero]

theorem logical_length (buffer : AesdCircularBuffer Ptr) :
    buffer.logical.length = buffer.occupied := by
  rw [logical, walk_length]

theorem occupied_le (buffer : AesdCircularBuffer Ptr) :
    buffer.occupied ≤ maxWriteOperationsSupported := by
  unfold occupied maxWriteOperationsSupported
  split
  · exact Nat.le_refl _
  · omega

theorem occupied_of_full {buffer : AesdCircularBuffer Ptr} (full : buffer.full = true) :
    buffer.occupied = maxWriteOperationsSupported := by
  rw [occupied, if_pos full]

theorem occupied_lt_of_not_full {buffer : AesdCircularBuffer Ptr}
    (notFull : buffer.full = false) : buffer.occupied < maxWriteOperationsSupported := by
  unfold occupied maxWriteOperationsSupported
  rw [notFull]
  simp only [Bool.false_eq_true, if_false]
  omega

theorem WellFormed.window_end {buffer : AesdCircularBuffer Ptr} (wf : buffer.WellFormed) :
    (buffer.outOffs + buffer.occupied) % maxWriteOperationsSupported = buffer.inOffs := by
  have inBound := wf.inOffs_lt
  have outBound := wf.outOffs_lt
  unfold occupied
  unfold maxWriteOperationsSupported at *
  by_cases full : buffer.full = true
  · have same := wf.full_same full
    rw [if_pos full]
    omega
  · rw [if_neg full]
    omega

/-! ### Insertion -/

private theorem slot_stored (buffer : AesdCircularBuffer Ptr) (wf : buffer.WellFormed)
    (entry : AesdBufferEntry Ptr) :
    (fun index => ((buffer.entry.setIfInBounds buffer.inOffs entry)[index]?).getD
      AesdBufferEntry.zero) = Function.update buffer.slot buffer.inOffs entry := by
  funext index
  by_cases same : index = buffer.inOffs
  · subst index
    rw [Function.update_self, Vector.getElem?_setIfInBounds_self_of_lt wf.inOffs_lt]
    rfl
  · rw [Function.update_of_ne same, Vector.getElem?_setIfInBounds_ne (fun equal => same equal.symm)]
    rfl

theorem addEntry_slot {buffer : AesdCircularBuffer Ptr} (wf : buffer.WellFormed)
    (entry : AesdBufferEntry Ptr) :
    (buffer.addEntry entry).1.slot = Function.update buffer.slot buffer.inOffs entry := by
  rw [← slot_stored buffer wf entry]
  unfold addEntry
  dsimp only
  split
  · rfl
  · split <;> rfl

theorem addEntry_of_full {buffer : AesdCircularBuffer Ptr} (full : buffer.full = true)
    (entry : AesdBufferEntry Ptr) :
    (buffer.addEntry entry).1.inOffs = (buffer.inOffs + 1) % maxWriteOperationsSupported ∧
      (buffer.addEntry entry).1.outOffs = (buffer.outOffs + 1) % maxWriteOperationsSupported ∧
      (buffer.addEntry entry).1.full = true ∧
      (buffer.addEntry entry).2 = (buffer.slot buffer.inOffs).buffptr := by
  unfold addEntry
  simp only [full, if_true, and_self]

theorem addEntry_of_not_full {buffer : AesdCircularBuffer Ptr} (wf : buffer.WellFormed)
    (notFull : buffer.full = false) (entry : AesdBufferEntry Ptr) :
    (buffer.addEntry entry).1.inOffs = (buffer.inOffs + 1) % maxWriteOperationsSupported ∧
      (buffer.addEntry entry).1.outOffs = buffer.outOffs ∧
      (buffer.addEntry entry).1.occupied = buffer.occupied + 1 ∧
      ((buffer.addEntry entry).1.full = true → (buffer.addEntry entry).1.inOffs = buffer.outOffs) ∧
      (buffer.addEntry entry).2 = none := by
  have inBound := wf.inOffs_lt
  have outBound := wf.outOffs_lt
  unfold addEntry occupied
  simp only [notFull, Bool.false_eq_true, if_false]
  unfold maxWriteOperationsSupported at *
  by_cases meets : (buffer.inOffs + 1) % 10 = buffer.outOffs
  · simp only [if_true, true_and, and_true, meets, implies_true]
    omega
  · simp only [if_neg meets, Bool.false_eq_true, if_false, true_and, and_true, false_implies]
    omega

/-- Adding an entry keeps the last ten entries. -/
theorem addEntry_logical {buffer : AesdCircularBuffer Ptr} (wf : buffer.WellFormed)
    (entry : AesdBufferEntry Ptr) :
    (buffer.addEntry entry).1.logical =
      retain maxWriteOperationsSupported buffer.logical [entry] := by
  cases full : buffer.full with
  | true =>
      obtain ⟨_inOffs, outOffs, stillFull, _freed⟩ := addEntry_of_full full entry
      have atIn := wf.full_same full
      rw [logical, addEntry_slot wf, outOffs, occupied_of_full stillFull, atIn,
        walk_rotate wf.outOffs_lt, retain_singleton_of_full (by decide)]
      · rw [logical, occupied_of_full full]
      · rw [logical_length, occupied_of_full full]
  | false =>
      obtain ⟨_inOffs, outOffs, count, _meets, _freed⟩ := addEntry_of_not_full wf full entry
      have room := occupied_lt_of_not_full full
      rw [logical, addEntry_slot wf, outOffs, count, ← wf.window_end, walk_push room,
        retain_of_fits]
      · rfl
      · rw [logical_length, List.length_singleton]
        exact room

theorem addEntry_wellFormed {buffer : AesdCircularBuffer Ptr} (wf : buffer.WellFormed)
    (entry : AesdBufferEntry Ptr) : (buffer.addEntry entry).1.WellFormed := by
  have positive : 0 < maxWriteOperationsSupported := by decide
  cases full : buffer.full with
  | true =>
      obtain ⟨inOffs, outOffs, stillFull, _freed⟩ := addEntry_of_full full entry
      refine ⟨?_, ?_, ?_, ?_⟩
      · rw [inOffs]
        exact Nat.mod_lt _ positive
      · rw [outOffs]
        exact Nat.mod_lt _ positive
      · intro _full
        rw [inOffs, outOffs, wf.full_same full]
      · intro index bound outside
        exfalso
        apply outside
        refine ⟨(index + maxWriteOperationsSupported - (buffer.addEntry entry).1.outOffs) %
          maxWriteOperationsSupported, ?_, ?_⟩
        · rw [occupied_of_full stillFull]
          exact Nat.mod_lt _ positive
        · have outBound : (buffer.addEntry entry).1.outOffs < maxWriteOperationsSupported := by
            rw [outOffs]
            exact Nat.mod_lt _ positive
          unfold maxWriteOperationsSupported at *
          omega
  | false =>
      obtain ⟨inOffs, outOffs, count, meets, _freed⟩ := addEntry_of_not_full wf full entry
      refine ⟨?_, ?_, ?_, ?_⟩
      · rw [inOffs]
        exact Nat.mod_lt _ positive
      · rw [outOffs]
        exact wf.outOffs_lt
      · intro nowFull
        rw [meets nowFull, outOffs]
      · intro index bound outside
        have elsewhere : index ≠ buffer.inOffs := by
          intro same
          apply outside
          refine ⟨buffer.occupied, by omega, ?_⟩
          rw [outOffs, wf.window_end, same]
        rw [addEntry_slot wf, Function.update_of_ne elsewhere]
        apply wf.vacant index bound
        rintro ⟨step, stepBound, reached⟩
        apply outside
        refine ⟨step, by omega, ?_⟩
        rw [outOffs]
        exact reached

/-- A full ring hands back the pointer of its oldest entry, any other ring nothing. -/
theorem addEntry_freed {buffer : AesdCircularBuffer Ptr} (wf : buffer.WellFormed)
    (entry : AesdBufferEntry Ptr) :
    (buffer.addEntry entry).2 =
      if buffer.full then (buffer.slot buffer.outOffs).buffptr else none := by
  cases full : buffer.full with
  | true =>
      rw [(addEntry_of_full full entry).2.2.2, wf.full_same full]
      rfl
  | false =>
      rw [(addEntry_of_not_full wf full entry).2.2.2.2]
      rfl

/-! ### Position lookup -/

/-- The variables of the lookup loop when `left` slots of the window are still
ahead: a full ring counts them down, any other ring stops at `inOffs`. -/
structure Ahead (buffer : AesdCircularBuffer Ptr) (left count offset : Nat) : Prop where
  offset_lt : offset < maxWriteOperationsSupported
  ends : (offset + left) % maxWriteOperationsSupported = buffer.inOffs
  counted : buffer.full = true → count = left ∧ left ≤ maxWriteOperationsSupported
  uncounted : buffer.full = false → left < maxWriteOperationsSupported

theorem WellFormed.ahead {buffer : AesdCircularBuffer Ptr} (wf : buffer.WellFormed) :
    buffer.Ahead buffer.occupied maxWriteOperationsSupported buffer.outOffs := by
  constructor
  · exact wf.outOffs_lt
  · exact wf.window_end
  · intro full
    exact ⟨(occupied_of_full full).symm, buffer.occupied_le⟩
  · exact occupied_lt_of_not_full

theorem Ahead.guard {buffer : AesdCircularBuffer Ptr} {left count offset : Nat}
    (ahead : buffer.Ahead left count offset) :
    (buffer.full && decide (0 < count) || decide (offset ≠ buffer.inOffs)) = decide (0 < left) := by
  have meets : offset = buffer.inOffs ↔ left % maxWriteOperationsSupported = 0 := by
    have bound := ahead.offset_lt
    rw [← ahead.ends]
    unfold maxWriteOperationsSupported at *
    omega
  cases full : buffer.full with
  | true =>
      obtain ⟨countLeft, _bounded⟩ := ahead.counted full
      cases left with
      | zero => simp [countLeft, meets]
      | succ left => simp [countLeft]
  | false =>
      have room := ahead.uncounted full
      rw [Nat.mod_eq_of_lt room] at meets
      simp [meets, Nat.pos_iff_ne_zero]

theorem Ahead.next {buffer : AesdCircularBuffer Ptr} {left count offset : Nat}
    (ahead : buffer.Ahead (left + 1) count offset) :
    buffer.Ahead left (if buffer.full then (count + 255) % 256 else count)
      ((offset + 1) % maxWriteOperationsSupported) := by
  constructor
  · exact Nat.mod_lt _ (by decide)
  · rw [Nat.mod_add_mod, ← ahead.ends]
    congr 1
    omega
  · intro full
    obtain ⟨countLeft, bounded⟩ := ahead.counted full
    rw [if_pos full, countLeft]
    unfold maxWriteOperationsSupported at bounded ⊢
    omega
  · intro notFull
    have room := ahead.uncounted notFull
    omega

private theorem findLoop_walk {buffer : AesdCircularBuffer Ptr}
    (left fuel count offset charOffset : Nat) (enough : left < fuel)
    (ahead : buffer.Ahead left count offset) :
    buffer.findLoop fuel count offset charOffset =
      some ((locate ((walk buffer.slot maxWriteOperationsSupported offset left).map
        AesdBufferEntry.size) charOffset).map
          (fun found => ((offset + found.1) % maxWriteOperationsSupported, found.2))) := by
  -- `left` counts the slots of the window not yet inspected
  induction left generalizing fuel count offset charOffset with
  | zero =>
      obtain ⟨fuel, rfl⟩ : ∃ more, fuel = more + 1 := ⟨fuel - 1, by omega⟩
      have leaves := ahead.guard
      rw [decide_eq_false (Nat.lt_irrefl 0), ← Bool.not_eq_true] at leaves
      rw [findLoop]
      exact if_neg leaves
  | succ left ih =>
      obtain ⟨fuel, rfl⟩ : ∃ more, fuel = more + 1 := ⟨fuel - 1, by omega⟩
      have enters := ahead.guard
      rw [decide_eq_true (Nat.succ_pos left)] at enters
      rw [walk_cons, Nat.mod_eq_of_lt ahead.offset_lt, List.map_cons, findLoop]
      rw [if_pos enters, locate]
      by_cases inside : charOffset < (buffer.slot offset).size
      · rw [if_pos inside, if_pos inside, Option.map_some, Nat.add_zero,
          Nat.mod_eq_of_lt ahead.offset_lt]
      · rw [if_neg inside, if_neg inside, ih fuel _ _ _ (by omega) ahead.next, Option.map_map]
        congr 3
        funext found
        simp only [Function.comp, Prod.mk.injEq, and_true]
        rw [Nat.mod_add_mod]
        congr 1
        omega

/-- The lookup always ends and agrees with the position table of the logical
content. -/
theorem findEntryOffsetForFpos_eq {buffer : AesdCircularBuffer Ptr} (wf : buffer.WellFormed)
    (charOffset : Nat) :
    buffer.findEntryOffsetForFpos charOffset =
      some ((locate (buffer.logical.map AesdBufferEntry.size) charOffset).map
        (fun found => ((buffer.outOffs + found.1) % maxWriteOperationsSupported, found.2))) := by
  apply findLoop_walk buffer.occupied
  · exact Nat.lt_succ_of_le buffer.occupied_le
  · exact wf.ahead

theorem slot_of_logical (buffer : AesdCircularBuffer Ptr) (index : Nat)
    (bound : index < buffer.logical.length) :
    buffer.slot ((buffer.outOffs + index) % maxWriteOperationsSupported) =
      buffer.logical.getD index AesdBufferEntry.zero := by
  rw [List.getD_eq_getElem?_getD, List.getElem?_eq_getElem bound]
  simp only [logical, walk, List.getElem_map, List.getElem_range, Option.getD_some]

end AesdCircularBuffer

end Aesd.CircularBuffer
