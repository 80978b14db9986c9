/-
The ring as a queue that is never emptied.

A sequence of calls of `aesd_circular_buffer_add_entry` is judged as a whole:
what it leaves in the ring, and which pointers it hands back for the caller to
free. Nothing is asked of the entries, so zero sizes, NULL pointers and
pointers added twice are covered.
-/

import Aesd.Driver.CircularBuffer

namespace Aesd.CircularBuffer.AesdCircularBuffer

open CircularWalk

variable {Ptr : Type}

/-- Calls of `addEntry` in order; the second component lists what they return. -/
def addEntries (buffer : AesdCircularBuffer Ptr) :
    List (AesdBufferEntry Ptr) → AesdCircularBuffer Ptr × List (Option Ptr)
  | [] => (buffer, [])
  | entry :: later =>
      let added := buffer.addEntry entry
      let rest := added.1.addEntries later
      (rest.1, added.2 :: rest.2)

theorem addEntries_wellFormed {buffer : AesdCircularBuffer Ptr} (wf : buffer.WellFormed)
    (entries : List (AesdBufferEntry Ptr)) : (buffer.addEntries entries).1.WellFormed := by
  induction entries generalizing buffer with
  | nil => exact wf
  | cons entry later ih => exact ih (addEntry_wellFormed wf entry)

theorem addEntries_logical {buffer : AesdCircularBuffer Ptr} (wf : buffer.WellFormed)
    (entries : List (AesdBufferEntry Ptr)) :
    (buffer.addEntries entries).1.logical =
      retain maxWriteOperationsSupported buffer.logical entries := by
  induction entries generalizing buffer with
  | nil =>
      rw [retain_nil]
      · rfl
      · rw [logical_length]
        exact occupied_le buffer
  | cons entry later ih =>
      rw [addEntries, ih (addEntry_wellFormed wf entry), addEntry_logical wf, retain_retain]
      rfl

theorem full_iff_occupied (buffer : AesdCircularBuffer Ptr) :
    buffer.full = true ↔ buffer.occupied = maxWriteOperationsSupported := by
  constructor
  · exact occupied_of_full
  · intro whole
    cases full : buffer.full with
    | true => rfl
    | false =>
        have room := occupied_lt_of_not_full full
        omega

/-! ### Returned pointers -/

theorem logical_of_full {buffer : AesdCircularBuffer Ptr} (wf : buffer.WellFormed)
    (full : buffer.full = true) :
    buffer.logical = buffer.slot buffer.outOffs :: buffer.logical.tail := by
  have opened : buffer.logical = buffer.slot (buffer.outOffs % maxWriteOperationsSupported) ::
      walk buffer.slot maxWriteOperationsSupported
        ((buffer.outOffs + 1) % maxWriteOperationsSupported) 9 := by
    rw [logical, occupied_of_full full]
    exact walk_cons buffer.slot _ _ 9
  rw [opened, List.tail_cons, Nat.mod_eq_of_lt wf.outOffs_lt]

/-- A ring with room left returns NULL until it is full; from then on it returns
the entries in the order in which they were added. -/
theorem addEntries_returned {buffer : AesdCircularBuffer Ptr} (wf : buffer.WellFormed)
    (entries : List (AesdBufferEntry Ptr)) :
    (buffer.addEntries entries).2 =
      List.replicate (min entries.length (maxWriteOperationsSupported - buffer.occupied)) none ++
        ((buffer.logical ++ entries).take
          (buffer.occupied + entries.length - maxWriteOperationsSupported)).map
            AesdBufferEntry.buffptr := by
  induction entries generalizing buffer with
  | nil =>
      have nothing : buffer.occupied + 0 - maxWriteOperationsSupported = 0 := by
        have bound := occupied_le buffer
        omega
      rw [List.length_nil, nothing, Nat.zero_min]
      rfl
  | cons entry later ih =>
      rw [addEntries, ih (addEntry_wellFormed wf entry), addEntry_freed wf entry,
        addEntry_logical wf entry, List.length_cons]
      cases full : buffer.full with
      | true =>
          obtain ⟨_inOffs, _outOffs, stillFull, _freed⟩ := addEntry_of_full full entry
          have whole : buffer.logical.length = maxWriteOperationsSupported := by
            rw [logical_length, occupied_of_full full]
          have more : maxWriteOperationsSupported + (later.length + 1) -
              maxWriteOperationsSupported = later.length + 1 := by
            omega
          rw [occupied_of_full stillFull, occupied_of_full full, Nat.sub_self, Nat.min_zero,
            Nat.min_zero, Nat.add_sub_cancel_left, more,
            retain_singleton_of_full (by decide) whole, logical_of_full wf full,
            List.tail_cons, List.append_assoc]
          rfl
      | false =>
          obtain ⟨_inOffs, _outOffs, count, _meets, _freed⟩ := addEntry_of_not_full wf full entry
          have room := occupied_lt_of_not_full full
          have nulls : min (later.length + 1) (maxWriteOperationsSupported - buffer.occupied) =
              min later.length (maxWriteOperationsSupported - (buffer.occupied + 1)) + 1 := by
            omega
          have taken : buffer.occupied + 1 + later.length = buffer.occupied + (later.length + 1) := by
            omega
          have fits : buffer.logical.length + [entry].length ≤ maxWriteOperationsSupported := by
            rw [logical_length, List.length_singleton]
            exact room
          rw [count, nulls, List.replicate_succ, retain_of_fits fits, taken, List.append_assoc]
          rfl

theorem addEntries_init_returned (entries : List (AesdBufferEntry Ptr)) :
    ((init : AesdCircularBuffer Ptr).addEntries entries).2 =
      List.replicate (min entries.length maxWriteOperationsSupported) none ++
        (entries.take (entries.length - maxWriteOperationsSupported)).map
          AesdBufferEntry.buffptr := by
  have empty : (init : AesdCircularBuffer Ptr).occupied = 0 := by
    rw [← logical_length, logical_init]
    rfl
  rw [addEntries_returned wellFormed_init entries, empty, logical_init, List.nil_append,
    Nat.zero_add, Nat.sub_zero]

theorem addEntries_init_logical (entries : List (AesdBufferEntry Ptr)) :
    ((init : AesdCircularBuffer Ptr).addEntries entries).1.logical =
      entries.drop (entries.length - maxWriteOperationsSupported) := by
  rw [addEntries_logical wellFormed_init, logical_init]
  rfl

theorem addEntries_init_full (entries : List (AesdBufferEntry Ptr)) :
    ((init : AesdCircularBuffer Ptr).addEntries entries).1.full = true ↔
      maxWriteOperationsSupported ≤ entries.length := by
  rw [full_iff_occupied, ← logical_length, addEntries_init_logical, List.length_drop]
  have positive : 0 < maxWriteOperationsSupported := by decide
  omega

/-! ### The law -/

/-- What `ring` and the list `returned` of returned pointers owe to the entries
added since `aesd_circular_buffer_init`. Calls are counted from 0. -/
structure FifoLaw (entries : List (AesdBufferEntry Ptr)) (ring : AesdCircularBuffer Ptr)
    (returned : List (Option Ptr)) : Prop where
  content : ring.logical = entries.drop (entries.length - maxWriteOperationsSupported)
  content_length : ring.logical.length = min entries.length maxWriteOperationsSupported
  full : ring.full = true ↔ maxWriteOperationsSupported ≤ entries.length
  calls : returned.length = entries.length
  filling : ∀ call, call < entries.length → call < maxWriteOperationsSupported →
    returned[call]? = some none
  displacing : ∀ call, call < entries.length → maxWriteOperationsSupported ≤ call →
    returned[call]? = (entries[call - maxWriteOperationsSupported]?).map AesdBufferEntry.buffptr
  conserved : returned.drop maxWriteOperationsSupported ++
    ring.logical.map AesdBufferEntry.buffptr = entries.map AesdBufferEntry.buffptr
  untouched : ∀ index < maxWriteOperationsSupported,
    ¬ring.InWindow index → ring.slot index = AesdBufferEntry.zero

private theorem returned_filling {entries : List (AesdBufferEntry Ptr)} {call : Nat}
    (made : call < entries.length) (early : call < maxWriteOperationsSupported) :
    ((init : AesdCircularBuffer Ptr).addEntries entries).2[call]? = some none := by
  have inside : call < min entries.length maxWriteOperationsSupported := by omega
  rw [addEntries_init_returned, List.getElem?_append_left]
  · rw [List.getElem?_replicate, if_pos inside]
  · rw [List.length_replicate]
    exact inside

private theorem returned_displacing {entries : List (AesdBufferEntry Ptr)} {call : Nat}
    (made : call < entries.length) (late : maxWriteOperationsSupported ≤ call) :
    ((init : AesdCircularBuffer Ptr).addEntries entries).2[call]? =
      (entries[call - maxWriteOperationsSupported]?).map AesdBufferEntry.buffptr := by
  have nulls : min entries.length maxWriteOperationsSupported = maxWriteOperationsSupported := by
    omega
  rw [addEntries_init_returned, nulls, List.getElem?_append_right]
  · rw [List.length_replicate, List.getElem?_map, List.getElem?_take_of_lt]
    omega
  · rw [List.length_replicate]
    exact late

private theorem returned_conserved (entries : List (AesdBufferEntry Ptr)) :
    ((init : AesdCircularBuffer Ptr).addEntries entries).2.drop maxWriteOperationsSupported ++
      ((init : AesdCircularBuffer Ptr).addEntries entries).1.logical.map AesdBufferEntry.buffptr =
        entries.map AesdBufferEntry.buffptr := by
  have dropped : ((init : AesdCircularBuffer Ptr).addEntries entries).2.drop
      maxWriteOperationsSupported =
        (entries.take (entries.length - maxWriteOperationsSupported)).map
          AesdBufferEntry.buffptr := by
    rw [addEntries_init_returned]
    by_cases short : entries.length ≤ maxWriteOperationsSupported
    · have nothing : entries.length - maxWriteOperationsSupported = 0 := by omega
      rw [nothing, List.take_zero, List.map_nil, List.append_nil, List.drop_eq_nil_of_le]
      rw [List.length_replicate]
      exact Nat.min_le_right _ _
    · have nulls : min entries.length maxWriteOperationsSupported =
          maxWriteOperationsSupported := by
        omega
      rw [nulls, List.drop_left']
      exact List.length_replicate
  rw [dropped, addEntries_init_logical, ← List.map_append, List.take_append_drop]

/-- The ring is a queue of ten entries that gives back the oldest one. -/
theorem addEntries_fifo (entries : List (AesdBufferEntry Ptr)) :
    FifoLaw entries ((init : AesdCircularBuffer Ptr).addEntries entries).1
      ((init : AesdCircularBuffer Ptr).addEntries entries).2 := by
  constructor
  · exact addEntries_init_logical entries
  · rw [addEntries_init_logical, List.length_drop]
    omega
  · exact addEntries_init_full entries
  · rw [addEntries_init_returned, List.length_append, List.length_replicate, List.length_map,
      List.length_take]
    omega
  · intro call made early
    exact returned_filling made early
  · intro call made late
    exact returned_displacing made late
  · exact returned_conserved entries
  · exact (addEntries_wellFormed wellFormed_init entries).vacant

end Aesd.CircularBuffer.AesdCircularBuffer
