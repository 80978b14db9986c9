/-
The position lookup on machine words, with a record of what it touches.

`findEntryOffsetForFpos` computes with natural numbers, so that a subtraction
cannot wrap there by definition. Here `char_offset` and the sizes are words of
`width` bits, the subtraction is the one of the machine, and the loop records
the slots it inspects and the subtractions it makes. The two loops are then
compared.
-/

import Aesd.Driver.RingLaw

namespace Aesd.CircularBuffer

open CircularWalk Segments

variable {Ptr : Type} {width : Nat}

/-- What one call of the lookup leaves behind. `returned` is the slot behind the
returned pointer, with `none` for NULL; `entryOffsetByteRtn` is what was stored
through the out parameter, if anything was. -/
structure LookupRun (width : Nat) where
  returned : Option Nat
  entryOffsetByteRtn : Option (BitVec width)
  inspected : List Nat
  -- minuend and subtrahend of each `char_offset -= size`
  subtracted : List (BitVec width × BitVec width)
  deriving DecidableEq, Repr

def LookupRun.passing (run : LookupRun width) (slot : Nat) (charOffset size : BitVec width) :
    LookupRun width :=
  { run with
    inspected := slot :: run.inspected
    subtracted := (charOffset, size) :: run.subtracted }

def sizedEntry (entry : Option Ptr × BitVec width) : AesdBufferEntry Ptr :=
  { buffptr := entry.1, size := entry.2.toNat }

namespace AesdCircularBuffer

def sizeWord (buffer : AesdCircularBuffer Ptr) (width slot : Nat) : BitVec width :=
  BitVec.ofNat width (buffer.slot slot).size

/-- The loop of `aesd_circular_buffer_find_entry_offset_for_fpos`; `none` stands
for a loop that has not ended after `fuel` evaluations of its guard. -/
def lookupLoop (buffer : AesdCircularBuffer Ptr) :
    (fuel count offset : Nat) → BitVec width → Option (LookupRun width)
  | 0, _, _, _ => none
  | fuel + 1, count, offset, charOffset =>
      let counted := buffer.full && decide (0 < count)
      let count := if buffer.full then (count + 255) % 256 else count
      -- the test `char_offset >= 0` of an unsigned word never fails
      if decide ((0 : BitVec width) ≤ charOffset) &&
          (counted || decide (offset ≠ buffer.inOffs)) then
        if charOffset < buffer.sizeWord width offset then
          some
            { returned := some offset
              entryOffsetByteRtn := some charOffset
              inspected := [offset]
              subtracted := [] }
        else
          (buffer.lookupLoop fuel count ((offset + 1) % maxWriteOperationsSupported)
            (charOffset - buffer.sizeWord width offset)).map
              (fun run => run.passing offset charOffset (buffer.sizeWord width offset))
      else
        some { returned := none, entryOffsetByteRtn := none, inspected := [], subtracted := [] }

def lookup (buffer : AesdCircularBuffer Ptr) (charOffset : BitVec width) :
    Option (LookupRun width) :=
  buffer.lookupLoop (maxWriteOperationsSupported + 1) maxWriteOperationsSupported
    buffer.outOffs charOffset

/-! ### Comparison with the loop on natural numbers -/

private theorem unsigned_nonneg (charOffset : BitVec width) :
    decide ((0 : BitVec width) ≤ charOffset) = true := by
  rw [decide_eq_true_iff, BitVec.le_def]
  simp

def SizesFit (buffer : AesdCircularBuffer Ptr) (width : Nat) : Prop :=
  ∀ index, (buffer.slot index).size < 2 ^ width

theorem SizesFit.toNat_sizeWord {buffer : AesdCircularBuffer Ptr} (fits : buffer.SizesFit width)
    (slot : Nat) : (buffer.sizeWord width slot).toNat = (buffer.slot slot).size := by
  rw [sizeWord, BitVec.toNat_ofNat, Nat.mod_eq_of_lt (fits slot)]

theorem SizesFit.addEntries {buffer : AesdCircularBuffer Ptr} (wf : buffer.WellFormed)
    (fits : buffer.SizesFit width) (entries : List (Option Ptr × BitVec width)) :
    (buffer.addEntries (entries.map sizedEntry)).1.SizesFit width := by
  induction entries generalizing buffer with
  | nil => exact fits
  | cons entry later ih =>
      apply ih (addEntry_wellFormed wf (sizedEntry entry))
      intro index
      rw [addEntry_slot wf]
      by_cases stored : index = buffer.inOffs
      · rw [stored, Function.update_self]
        exact entry.2.isLt
      · rw [Function.update_of_ne stored]
        exact fits index

theorem sizesFit_init : (init : AesdCircularBuffer Ptr).SizesFit width := by
  intro index
  rw [slot_init]
  exact Nat.two_pow_pos width

/-- The machine loop returns and stores what the loop on natural numbers finds. -/
theorem lookupLoop_findLoop {buffer : AesdCircularBuffer Ptr} (fits : buffer.SizesFit width)
    (fuel count offset : Nat) (charOffset : BitVec width) :
    (buffer.lookupLoop fuel count offset charOffset).map
        (fun run => (run.returned, run.entryOffsetByteRtn.map BitVec.toNat)) =
      (buffer.findLoop fuel count offset charOffset.toNat).map
        (fun found => (found.map Prod.fst, found.map Prod.snd)) := by
  induction fuel generalizing count offset charOffset with
  | zero => rfl
  | succ fuel ih =>
      have compared : charOffset < buffer.sizeWord width offset ↔
          charOffset.toNat < (buffer.slot offset).size := by
        rw [BitVec.lt_def, fits.toNat_sizeWord]
      rw [lookupLoop, findLoop, unsigned_nonneg, Bool.true_and]
      by_cases guard : (buffer.full && decide (0 < count) ||
          decide (offset ≠ buffer.inOffs)) = true
      · rw [if_pos guard, if_pos guard]
        by_cases inside : charOffset < buffer.sizeWord width offset
        · rw [if_pos inside, if_pos (compared.mp inside)]
          rfl
        · have later : (charOffset - buffer.sizeWord width offset).toNat =
              charOffset.toNat - (buffer.slot offset).size := by
            rw [BitVec.toNat_sub_of_le (BitVec.not_lt.mp inside), fits.toNat_sizeWord]
          rw [if_neg inside, if_neg (fun less => inside (compared.mpr less)), Option.map_map,
            ← later, ← ih]
          rfl
      · rw [if_neg guard, if_neg guard]
        rfl

/-- A subtraction is made only when the comparison before it has failed. -/
theorem lookupLoop_subtracted {buffer : AesdCircularBuffer Ptr} (fuel count offset : Nat)
    (charOffset : BitVec width) (run : LookupRun width)
    (ended : buffer.lookupLoop fuel count offset charOffset = some run) :
    ∀ step ∈ run.subtracted, step.2 ≤ step.1 := by
  induction fuel generalizing count offset charOffset run with
  | zero => cases ended
  | succ fuel ih =>
      rw [lookupLoop] at ended
      split at ended
      · by_cases inside : charOffset < buffer.sizeWord width offset
        · rw [if_pos inside, Option.some.injEq] at ended
          subst run
          intro step absent
          cases absent
        · rw [if_neg inside, Option.map_eq_some_iff] at ended
          obtain ⟨later, found, rfl⟩ := ended
          intro step member
          rcases List.mem_cons.mp member with rfl | member
          · exact BitVec.not_lt.mp inside
          · exact ih _ _ _ later found step member
      · rw [Option.some.injEq] at ended
        subst run
        intro step absent
        cases absent

/-- The slots inspected are met in the order of the window. -/
theorem lookupLoop_inspected {buffer : AesdCircularBuffer Ptr} (left fuel count offset : Nat)
    (charOffset : BitVec width) (run : LookupRun width)
    (ahead : buffer.Ahead left count offset)
    (ended : buffer.lookupLoop fuel count offset charOffset = some run) :
    ∃ met ≤ left, run.inspected = walk id maxWriteOperationsSupported offset met := by
  induction fuel generalizing left count offset charOffset run with
  | zero => cases ended
  | succ fuel ih =>
      have here : offset % maxWriteOperationsSupported = offset :=
        Nat.mod_eq_of_lt ahead.offset_lt
      rw [lookupLoop, unsigned_nonneg, Bool.true_and, ahead.guard] at ended
      cases left with
      | zero =>
          rw [decide_eq_false (Nat.lt_irrefl 0), if_neg Bool.false_ne_true,
            Option.some.injEq] at ended
          subst run
          exact ⟨0, Nat.le_refl 0, rfl⟩
      | succ left =>
          rw [decide_eq_true (Nat.succ_pos left), if_pos rfl] at ended
          by_cases inside : charOffset < buffer.sizeWord width offset
          · rw [if_pos inside, Option.some.injEq] at ended
            subst run
            refine ⟨1, by omega, ?_⟩
            rw [walk_cons, here]
            rfl
          · rw [if_neg inside, Option.map_eq_some_iff] at ended
            obtain ⟨later, found, rfl⟩ := ended
            obtain ⟨met, bound, slots⟩ := ih left _ _ _ later ahead.next found
            refine ⟨met + 1, by omega, ?_⟩
            rw [walk_cons, here, ← slots]
            rfl

/-! ### The lookup against its reference -/

/-- Byte `byte` of the entry with logical number `index` stands at `position` of
the concatenation. -/
structure Covers (buffer : AesdCircularBuffer Ptr) (position index byte : Nat) : Prop where
  index_lt : index < buffer.logical.length
  byte_lt : byte < (buffer.logical.getD index AesdBufferEntry.zero).size
  position_eq : ((buffer.logical.take index).map AesdBufferEntry.size).sum + byte = position

def total (buffer : AesdCircularBuffer Ptr) : Nat :=
  (buffer.logical.map AesdBufferEntry.size).sum

def entryBytes (memory : Option Ptr → Nat → UInt8) (entry : AesdBufferEntry Ptr) : List UInt8 :=
  (List.range entry.size).map (memory entry.buffptr)

def concatenation (buffer : AesdCircularBuffer Ptr) (memory : Option Ptr → Nat → UInt8) :
    List UInt8 :=
  (buffer.logical.map (entryBytes memory)).flatten

/-- What a call of the lookup owes: NULL and nothing stored behind the end, else
the one entry and byte that stand at the position. -/
structure LookupLaw (buffer : AesdCircularBuffer Ptr) (memory : Option Ptr → Nat → UInt8)
    (charOffset : BitVec width) (run : LookupRun width) : Prop where
  null_iff : run.returned = none ↔ buffer.total ≤ charOffset.toNat
  unwritten_iff : run.entryOffsetByteRtn = none ↔ buffer.total ≤ charOffset.toNat
  found : charOffset.toNat < buffer.total → ∃ index byte,
    run.returned = some ((buffer.outOffs + index) % maxWriteOperationsSupported) ∧
      run.entryOffsetByteRtn = some byte ∧
      buffer.Covers charOffset.toNat index byte.toNat ∧
      (∀ otherIndex otherByte, buffer.Covers charOffset.toNat otherIndex otherByte →
        otherIndex = index ∧ otherByte = byte.toNat) ∧
      (buffer.concatenation memory)[charOffset.toNat]? =
        some (memory (buffer.slot ((buffer.outOffs + index) %
          maxWriteOperationsSupported)).buffptr byte.toNat)
  no_wrap : ∀ step ∈ run.subtracted, step.2 ≤ step.1
  in_window : ∀ slot ∈ run.inspected, buffer.InWindow slot
  at_most_once : run.inspected.Nodup

theorem covers_iff_locate (buffer : AesdCircularBuffer Ptr) (position index byte : Nat) :
    buffer.Covers position index byte ↔
      locate (buffer.logical.map AesdBufferEntry.size) position = some (index, byte) := by
  have sized : (buffer.logical.map AesdBufferEntry.size).getD index 0 =
      (buffer.logical.getD index AesdBufferEntry.zero).size := by
    rw [List.getD_eq_getElem?_getD, List.getD_eq_getElem?_getD, List.getElem?_map]
    cases buffer.logical[index]? with
    | none => rfl
    | some entry => rfl
  constructor
  · intro covers
    have inside := covers.byte_lt
    rw [← sized] at inside
    rw [← covers.position_eq, List.map_take]
    exact locate_sum inside
  · intro found
    obtain ⟨bound, inside, place⟩ := locate_some found
    rw [List.length_map] at bound
    rw [sized] at inside
    rw [← List.map_take] at place
    exact ⟨bound, inside, place⟩

theorem Covers.concatenation {buffer : AesdCircularBuffer Ptr} {position index byte : Nat}
    (covers : buffer.Covers position index byte) (memory : Option Ptr → Nat → UInt8) :
    (buffer.concatenation memory)[position]? =
      some (memory (buffer.logical.getD index AesdBufferEntry.zero).buffptr byte) := by
  have lengths : (buffer.logical.map (entryBytes memory)).map List.length =
      buffer.logical.map AesdBufferEntry.size := by
    rw [List.map_map]
    apply List.map_congr_left
    intro entry _member
    rw [Function.comp_apply, entryBytes, List.length_map, List.length_range]
  have segment : (buffer.logical.map (entryBytes memory)).getD index [] =
      entryBytes memory (buffer.logical.getD index AesdBufferEntry.zero) := by
    rw [List.getD_eq_getElem?_getD, List.getD_eq_getElem?_getD, List.getElem?_map,
      List.getElem?_eq_getElem covers.index_lt]
    rfl
  have found := (covers_iff_locate buffer position index byte).mp covers
  rw [← lengths] at found
  have rest := drop_flatten_of_locate found
  rw [segment] at rest
  have first : (buffer.concatenation memory)[position]? =
      ((buffer.concatenation memory).drop position)[0]? := by
    rw [List.getElem?_drop, Nat.add_zero]
  have inside : byte < (List.range (buffer.logical.getD index AesdBufferEntry.zero).size).length := by
    rw [List.length_range]
    exact covers.byte_lt
  rw [first, AesdCircularBuffer.concatenation, rest, List.getElem?_append_left]
  · rw [List.getElem?_drop, Nat.add_zero, entryBytes, List.getElem?_map,
      List.getElem?_eq_getElem inside, List.getElem_range]
    rfl
  · rw [List.length_drop, entryBytes, List.length_map]
    omega

/-- The outcome of a lookup on a well-formed ring of `size_t` sizes. -/
theorem lookup_law {buffer : AesdCircularBuffer Ptr} (wf : buffer.WellFormed)
    (fits : buffer.SizesFit width) (memory : Option Ptr → Nat → UInt8)
    (charOffset : BitVec width) :
    ∃ run, buffer.lookup charOffset = some run ∧ buffer.LookupLaw memory charOffset run := by
  have simulated := lookupLoop_findLoop fits (maxWriteOperationsSupported + 1)
    maxWriteOperationsSupported buffer.outOffs charOffset
  have found := findEntryOffsetForFpos_eq wf charOffset.toNat
  rw [findEntryOffsetForFpos] at found
  rw [found, Option.map_some, Option.map_eq_some_iff] at simulated
  obtain ⟨run, ended, same⟩ := simulated
  rw [Prod.mk.injEq, Option.map_map, Option.map_map] at same
  obtain ⟨returned, stored⟩ := same
  refine ⟨run, ended, ?_⟩
  constructor
  · rw [returned, Option.map_eq_none_iff, locate_eq_none_iff, total]
  · rw [← Option.map_eq_none_iff, stored, Option.map_eq_none_iff, locate_eq_none_iff, total]
  · intro inside
    cases place : locate (buffer.logical.map AesdBufferEntry.size) charOffset.toNat with
    | none =>
        have outside := (locate_eq_none_iff _ _).mp place
        rw [total] at inside
        omega
    | some indexed =>
        obtain ⟨index, offset⟩ := indexed
        rw [place, Option.map_some] at returned stored
        rw [Option.map_eq_some_iff] at stored
        obtain ⟨byte, written, word⟩ := stored
        have here : offset = byte.toNat := word.symm
        subst here
        have covers := (covers_iff_locate buffer _ _ _).mpr place
        refine ⟨index, byte, returned, written, covers, ?_, ?_⟩
        · intro otherIndex otherByte other
          rw [covers_iff_locate, place, Option.some.injEq, Prod.mk.injEq] at other
          exact ⟨other.1.symm, other.2.symm⟩
        · rw [slot_of_logical buffer index covers.index_lt]
          exact covers.concatenation memory
  · exact lookupLoop_subtracted _ _ _ _ run ended
  · obtain ⟨met, bound, slots⟩ := lookupLoop_inspected _ _ _ _ _ run wf.ahead ended
    intro slot member
    rw [slots, mem_walk] at member
    obtain ⟨step, early, same⟩ := member
    exact ⟨step, by omega, same⟩
  · obtain ⟨met, bound, slots⟩ := lookupLoop_inspected _ _ _ _ _ run wf.ahead ended
    rw [slots]
    exact walk_nodup (Nat.le_trans bound buffer.occupied_le)

/-- Every ring reachable by `aesd_circular_buffer_init` and calls of
`aesd_circular_buffer_add_entry`, and every `size_t`. -/
theorem lookup_reference (memory : Option Ptr → Nat → UInt8)
    (entries : List (Option Ptr × BitVec width)) (charOffset : BitVec width) :
    ∃ run,
      ((init : AesdCircularBuffer Ptr).addEntries (entries.map sizedEntry)).1.lookup charOffset =
        some run ∧
      LookupLaw ((init : AesdCircularBuffer Ptr).addEntries (entries.map sizedEntry)).1 memory
        charOffset run :=
  lookup_law (addEntries_wellFormed wellFormed_init _)
    (sizesFit_init.addEntries wellFormed_init entries) memory charOffset

end AesdCircularBuffer

end Aesd.CircularBuffer
