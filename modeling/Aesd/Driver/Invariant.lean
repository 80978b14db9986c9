/-
The representation invariant of the device and its meaning as a journal.

Every exit of `aesd_write` is compared with a step on the journal of the
device: its last ten complete lines and the unfinished one.
-/

import Aesd.Driver.Device

namespace Aesd.Driver

open CircularBuffer LineStream AesdCircularBuffer

/-! ### The invariant -/

/-- An occupied slot owns the bytes of exactly one line. -/
def StoredLine (entry : AesdBufferEntry Kbuf) : Prop :=
  ∃ buffptr, entry.buffptr = some buffptr ∧ buffptr.bytes.length = entry.size ∧
    IsLine newline buffptr.bytes

/-- The partial entry is either all zero or owns a nonempty unfinished line. -/
def StoredPartial (entry : AesdBufferEntry Kbuf) : Prop :=
  entry = AesdBufferEntry.zero ∨
    ∃ buffptr, entry.buffptr = some buffptr ∧ buffptr.bytes.length = entry.size ∧
      buffptr.bytes ≠ [] ∧ newline ∉ buffptr.bytes

structure RingInv (ring : AesdCircularBuffer Kbuf) : Prop where
  wellFormed : ring.WellFormed
  stored : ∀ entry ∈ ring.logical, StoredLine entry

structure DevShape (dev : AesdDev) : Prop where
  ring : RingInv dev.circularBuffer
  partialStored : StoredPartial dev.partialEntry

structure DevInv (dev : AesdDev) : Prop extends DevShape dev where
  unlocked : dev.lock = false

def entryBytes (entry : AesdBufferEntry Kbuf) : Bytes :=
  match entry.buffptr with
  | some buffptr => buffptr.bytes.take entry.size
  | none => []

def ringLines (ring : AesdCircularBuffer Kbuf) : List Bytes := ring.logical.map entryBytes

def AesdDev.lines (dev : AesdDev) : List Bytes := ringLines dev.circularBuffer

def AesdDev.content (dev : AesdDev) : Bytes := dev.lines.flatten

theorem StoredLine.isLine {entry : AesdBufferEntry Kbuf} (stored : StoredLine entry) :
    IsLine newline (entryBytes entry) := by
  obtain ⟨buffptr, present, size, closed⟩ := stored
  rw [entryBytes, present]
  change IsLine newline (buffptr.bytes.take entry.size)
  rw [← size, List.take_length]
  exact closed

theorem StoredLine.length_entryBytes {entry : AesdBufferEntry Kbuf}
    (stored : StoredLine entry) : (entryBytes entry).length = entry.size := by
  obtain ⟨buffptr, present, size, _closed⟩ := stored
  rw [entryBytes, present]
  change (buffptr.bytes.take entry.size).length = entry.size
  rw [← size, List.take_length]

theorem RingInv.lines_isLine {ring : AesdCircularBuffer Kbuf} (inv : RingInv ring) :
    ∀ line ∈ ringLines ring, IsLine newline line := by
  intro line member
  obtain ⟨entry, present, rfl⟩ := List.mem_map.mp member
  exact (inv.stored entry present).isLine

theorem ringLines_length_le (ring : AesdCircularBuffer Kbuf) :
    (ringLines ring).length ≤ maxWriteOperationsSupported := by
  rw [ringLines, List.length_map, logical_length]
  exact ring.occupied_le

theorem RingInv.sizes {ring : AesdCircularBuffer Kbuf} (inv : RingInv ring) :
    ring.logical.map AesdBufferEntry.size = (ringLines ring).map List.length := by
  rw [ringLines, List.map_map]
  apply List.map_congr_left
  intro entry present
  exact ((inv.stored entry present).length_entryBytes).symm

private theorem StoredPartial.pending_of_some {dev : AesdDev} {buffptr : Kbuf}
    (present : dev.partialEntry.buffptr = some buffptr)
    (size : buffptr.bytes.length = dev.partialEntry.size) : dev.pending = buffptr.bytes := by
  rw [AesdDev.pending, present]
  change buffptr.bytes.take dev.partialEntry.size = buffptr.bytes
  rw [← size, List.take_length]

theorem pending_of_zero {dev : AesdDev} (zero : dev.partialEntry = AesdBufferEntry.zero) :
    dev.pending = [] := by
  rw [AesdDev.pending, zero]
  rfl

theorem StoredPartial.newline_not_mem {dev : AesdDev} (stored : StoredPartial dev.partialEntry) :
    newline ∉ dev.pending := by
  rcases stored with zero | ⟨buffptr, present, size, _nonempty, absent⟩
  · rw [pending_of_zero zero]
    exact List.not_mem_nil
  · rw [StoredPartial.pending_of_some present size]
    exact absent

theorem StoredPartial.pending_eq_nil_iff {dev : AesdDev}
    (stored : StoredPartial dev.partialEntry) :
    dev.pending = [] ↔ dev.partialEntry = AesdBufferEntry.zero := by
  constructor
  · intro empty
    rcases stored with zero | ⟨buffptr, present, size, nonempty, _absent⟩
    · exact zero
    · rw [StoredPartial.pending_of_some present size] at empty
      exact absurd empty nonempty
  · exact pending_of_zero

def DevShape.journal {dev : AesdDev} (shape : DevShape dev) :
    Journal newline maxWriteOperationsSupported :=
  { records := dev.lines
    unfinished := dev.pending
    bounded := ringLines_length_le _
    closed := shape.ring.lines_isLine
    pending := shape.partialStored.newline_not_mem }

@[simp] theorem DevShape.journal_records {dev : AesdDev} (shape : DevShape dev) :
    shape.journal.records = dev.lines := rfl

@[simp] theorem DevShape.journal_unfinished {dev : AesdDev} (shape : DevShape dev) :
    shape.journal.unfinished = dev.pending := rfl

theorem devInv_init : DevInv aesdInitModule :=
  { ring :=
      { wellFormed := wellFormed_init
        stored := by
          intro entry member
          rw [show aesdInitModule.circularBuffer = AesdCircularBuffer.init from rfl,
            logical_init] at member
          cases member }
    partialStored := Or.inl rfl
    unlocked := rfl }

theorem journal_init : devInv_init.journal = Journal.empty := by
  apply Journal.ext
  · change ringLines AesdCircularBuffer.init = []
    rw [ringLines, logical_init, List.map_nil]
  · rfl

/-! ### The line loop -/

/-- The lines that are added before the first copy that fails. -/
def committedLines (fails : Nat → Bool) : Nat → List Bytes → List Bytes
  | _, [] => []
  | index, line :: later =>
      if fails index then [] else line :: committedLines fails (index + 1) later

theorem committedLines_subset (fails : Nat → Bool) (index : Nat) (added : List Bytes) :
    ∀ line ∈ committedLines fails index added, line ∈ added := by
  induction added generalizing index with
  | nil => intro line member; exact member
  | cons first later ih =>
      intro line member
      cases failed : fails index with
      | true => simp [committedLines, failed] at member
      | false =>
          simp only [committedLines, failed, Bool.false_eq_true, if_false, List.mem_cons] at member
          rcases member with same | inLater
          · rw [same]
            exact List.mem_cons_self
          · exact List.mem_cons_of_mem first (ih (index + 1) line inLater)

theorem committedLines_of_no_fault {fails : Nat → Bool} (never : ∀ index, fails index = false)
    (index : Nat) (added : List Bytes) : committedLines fails index added = added := by
  induction added generalizing index with
  | nil => rfl
  | cons first later ih =>
      simp only [committedLines, never index, Bool.false_eq_true, if_false, ih]

/-- How the loop is left when every descriptor is allocated. -/
def lineExit (fails : Nat → Bool) (index : Nat) (working : Bytes) : LineExit :=
  if committedLines fails index (lines newline working) = lines newline working then
    .finished (rest newline working)
  else .release (-einval)

theorem RingInv.addEntry {ring : AesdCircularBuffer Kbuf} (inv : RingInv ring) (copy : Kbuf)
    (size : Nat) (length : copy.bytes.length = size) (closed : IsLine newline copy.bytes) :
    RingInv (ring.addEntry { buffptr := some copy, size := size }).1 ∧
      ringLines (ring.addEntry { buffptr := some copy, size := size }).1 =
        retain maxWriteOperationsSupported (ringLines ring) [copy.bytes] := by
  have content := addEntry_logical inv.wellFormed { buffptr := some copy, size := size }
  refine ⟨⟨addEntry_wellFormed inv.wellFormed _, ?_⟩, ?_⟩
  · intro entry member
    rw [content] at member
    rcases mem_of_mem_retain member with old | new
    · exact inv.stored entry old
    · rw [List.mem_singleton.mp new]
      exact ⟨copy, rfl, length, closed⟩
  · rw [ringLines, content, map_retain, List.map_singleton]
    congr 2
    change copy.bytes.take size = copy.bytes
    rw [← length, List.take_length]

/-- A round in which nothing fails adds the first line of the working span. -/
theorem writeLines_round {faults : WriteFaults} {index newLine : Nat} {working : Bytes}
    (fuel : Nat) (kernel : Kernel) (found : memchr working newline = some newLine)
    (descriptor : faults.descriptorKmalloc index = false)
    (copied : faults.lineKmemdup index = false) :
    ∃ copy slab, copy.bytes = working.take (newLine + 1) ∧
      writeLines faults (fuel + 1) index working kernel =
        writeLines faults fuel (index + 1) (working.drop (newLine + 1))
          { dev :=
              { kernel.dev with
                circularBuffer := (kernel.dev.circularBuffer.addEntry
                  { buffptr := some copy, size := newLine + 1 }).1 }
            slab := slab } := by
  refine ⟨{ id := kernel.slab.next + 1, bytes := working.take (newLine + 1) }, ?_⟩
  apply Exists.intro
  refine ⟨rfl, ?_⟩
  simp only [writeLines, found, descriptor, copied, Slab.kmalloc, Slab.kmemdup,
    Bool.false_eq_true, if_false]
  rfl

theorem writeLines_spec (faults : WriteFaults)
    (descriptors : ∀ index, faults.descriptorKmalloc index = false)
    (fuel index : Nat) (working : Bytes) (kernel : Kernel) (enough : working.length ≤ fuel)
    (inv : RingInv kernel.dev.circularBuffer) :
    ∃ result, writeLines faults fuel index working kernel =
        (result, lineExit faults.lineKmemdup index working) ∧
      RingInv result.dev.circularBuffer ∧
      result.dev.lines = retain maxWriteOperationsSupported kernel.dev.lines
        (committedLines faults.lineKmemdup index (lines newline working)) ∧
      result.dev.partialEntry = kernel.dev.partialEntry ∧
      result.dev.lock = kernel.dev.lock := by
  -- the fuel bounds the bytes still to be split
  induction fuel generalizing index working kernel with
  | zero =>
      have empty : working = [] := List.eq_nil_of_length_eq_zero (Nat.le_zero.mp enough)
      subst working
      exact ⟨kernel, rfl, inv, (retain_nil (ringLines_length_le _)).symm, rfl, rfl⟩
  | succ fuel ih =>
      cases found : memchr working newline with
      | none =>
          have absent : newline ∉ working := List.idxOf?_eq_none_iff.mp found
          refine ⟨kernel, ?_, inv, ?_, rfl, rfl⟩
          · simp only [writeLines, found, lineExit, lines_of_not_mem absent,
              rest_of_not_mem absent, committedLines, if_true]
          · rw [lines_of_not_mem absent]
            exact (retain_nil (ringLines_length_le _)).symm
      | some newLine =>
          have closed : IsLine newline (working.take (newLine + 1)) := isLine_take_of_idxOf? found
          have length : (working.take (newLine + 1)).length = newLine + 1 :=
            List.length_take_of_le (idxOf?_lt_length found)
          have split := lines_of_idxOf? found
          have unfinished := rest_of_idxOf? found
          cases failed : faults.lineKmemdup index with
          | true =>
              refine ⟨{ kernel with slab := (kernel.slab.kmalloc false).1 }, ?_, inv, ?_, rfl, rfl⟩
              · simp [writeLines, found, descriptors, Slab.kmalloc, Slab.kmemdup, failed,
                  lineExit, split, committedLines]
              · rw [split]
                simp only [committedLines, failed, if_true]
                exact (retain_nil (ringLines_length_le _)).symm
          | false =>
              have shorter : (working.drop (newLine + 1)).length ≤ fuel := by
                rw [List.length_drop]
                omega
              obtain ⟨copy, slab, bytes, round⟩ :=
                writeLines_round fuel kernel found (descriptors index) failed
              obtain ⟨added, content⟩ := inv.addEntry copy (newLine + 1)
                (by rw [bytes, length]) (by rw [bytes]; exact closed)
              obtain ⟨result, ran, ringInv, linesEq, partialEq, lockEq⟩ :=
                ih (index + 1) (working.drop (newLine + 1))
                  { dev := { kernel.dev with circularBuffer := _ }, slab := slab } shorter added
              have committed : committedLines faults.lineKmemdup index (lines newline working) =
                  working.take (newLine + 1) ::
                    committedLines faults.lineKmemdup (index + 1)
                      (lines newline (working.drop (newLine + 1))) := by
                rw [split]
                simp only [committedLines, failed, Bool.false_eq_true, if_false]
              refine ⟨result, ?_, ringInv, ?_, partialEq, lockEq⟩
              · rw [round, ran, lineExit, lineExit, committed, split, unfinished]
                simp only [List.cons.injEq, true_and]
              · rw [linesEq, AesdDev.lines, content, retain_retain, bytes, committed]
                rfl

end Aesd.Driver
