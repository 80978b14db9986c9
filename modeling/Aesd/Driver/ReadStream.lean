/-
Reading the device call by call.

Every call of `aesd_read` looks the position up again and returns at most the
rest of one line. Whatever counts the calls are given, they deliver the content
behind the first position, piece by piece, and then return 0.
-/

import Aesd.Driver.StreamLaw

namespace Aesd.Driver

open CircularBuffer AesdCircularBuffer

def ReadFaults.none : ReadFaults := { lockInterrupted := false, copyToUser := false }

def readerAfter (counts : Nat → Nat) (kernel : Kernel) (fPos : Int) : Nat → Kernel × Int
  | 0 => (kernel, fPos)
  | calls + 1 =>
      let before := readerAfter counts kernel fPos calls
      let result := aesdRead ReadFaults.none (counts calls) before.1 before.2
      (result.kernel, result.fPos)

def readCall (counts : Nat → Nat) (kernel : Kernel) (fPos : Int) (calls : Nat) : CallResult :=
  aesdRead ReadFaults.none (counts calls) (readerAfter counts kernel fPos calls).1
    (readerAfter counts kernel fPos calls).2

def delivered (counts : Nat → Nat) (kernel : Kernel) (fPos : Int) (calls : Nat) : Bytes :=
  ((List.range calls).map fun index => (readCall counts kernel fPos index).data).flatten

theorem readerAfter_succ (counts : Nat → Nat) (kernel : Kernel) (fPos : Int) (calls : Nat) :
    readerAfter counts kernel fPos (calls + 1) =
      ((readCall counts kernel fPos calls).kernel, (readCall counts kernel fPos calls).fPos) := rfl

theorem delivered_succ (counts : Nat → Nat) (kernel : Kernel) (fPos : Int) (calls : Nat) :
    delivered counts kernel fPos (calls + 1) =
      delivered counts kernel fPos calls ++ (readCall counts kernel fPos calls).data := by
  unfold delivered
  rw [List.range_succ, List.map_append, List.flatten_append]
  simp

/-! ### One call -/

theorem sizeOfLoff_natCast (position : Nat) : sizeOfLoff (position : Int) = position := by
  unfold sizeOfLoff
  rw [if_pos (Int.natCast_nonneg position), Int.toNat_natCast]

/-- What one call on a device with content `lines` does at `position`. -/
structure ReadExact (lines : List Bytes) (kernel : Kernel) (position : Nat) (result : CallResult) :
    Prop where
  kernel : result.kernel = kernel
  advances : result.fPos = position + result.data.length
  returned : result.outcome = .returned result.data.length
  oneEntry : result.data = [] ∨ ∃ line ∈ lines, result.data <:+: line
  piece : result.data <+: lines.flatten.drop position
  ends : result.data = [] ↔ lines.flatten.length ≤ position

theorem aesdRead_exact {count : Nat} (room : 0 < count) {kernel : Kernel} (inv : DevInv kernel.dev)
    (position : Nat) :
    ReadExact kernel.dev.lines kernel position
      (aesdRead ReadFaults.none count kernel position) := by
  cases found : Segments.locate (kernel.dev.lines.map List.length) position with
  | none =>
      have past : kernel.dev.content.length ≤ position := by
        rw [Segments.locate_eq_none_iff, ← content_length] at found
        exact found
      have behind : kernel.dev.content.length ≤ sizeOfLoff (position : Int) := by
        rw [sizeOfLoff_natCast]
        exact past
      rw [ReadFaults.none, aesdRead_at_end count inv behind]
      constructor
      · rfl
      · simp
      · rfl
      · exact Or.inl rfl
      · exact List.nil_prefix
      · exact ⟨fun _ => past, fun _ => rfl⟩
  | some place =>
      obtain ⟨member, inside⟩ := Segments.located_segment found
      have split := Segments.drop_flatten_of_locate found
      rw [← sizeOfLoff_natCast position] at found
      have nonempty : ((kernel.dev.lines.getD place.1 []).drop place.2).take count ≠ [] := by
        rw [Ne, List.take_eq_nil_iff, List.drop_eq_nil_iff]
        omega
      have before : ¬ kernel.dev.lines.flatten.length ≤ position := by
        intro past
        rw [List.drop_eq_nil_of_le past] at split
        have empty := (List.append_eq_nil_iff.mp split.symm).1
        rw [empty] at nonempty
        simp at nonempty
      rw [ReadFaults.none, aesdRead_inside inv room found]
      constructor
      · rfl
      · rfl
      · rfl
      · right
        refine ⟨_, member, ?_⟩
        exact (List.take_prefix _ _).isInfix.trans (List.drop_suffix _ _).isInfix
      · rw [split]
        exact (List.take_prefix _ _).trans (List.prefix_append _ _)
      · exact ⟨fun empty => absurd empty nonempty, fun past => absurd past before⟩

/-! ### All calls -/

section Calls

variable {counts : Nat → Nat} {kernel : Kernel} {position : Nat}

/-- Where the reader stands after some calls: what is delivered and what is left
make up the content behind the first position, and every call that has not
found the end has moved it. -/
structure ReaderAt (kernel : Kernel) (start : Nat) (got : Bytes) (calls : Nat)
    (reader : Kernel × Int) : Prop where
  device : reader.1 = kernel
  position : reader.2 = (start + got.length : Nat)
  left : got ++ kernel.dev.content.drop (start + got.length) = kernel.dev.content.drop start
  moved : calls ≤ got.length ∨ kernel.dev.content.length ≤ start + got.length

theorem readerAt (inv : DevInv kernel.dev) (room : ∀ index, 0 < counts index) (start calls : Nat) :
    ReaderAt kernel start (delivered counts kernel start calls) calls
      (readerAfter counts kernel start calls) := by
  induction calls with
  | zero =>
      constructor
      · rfl
      · simp [readerAfter, delivered]
      · simp [delivered]
      · exact Or.inl (Nat.zero_le _)
  | succ calls ih =>
      have reads := aesdRead_exact (room calls) inv
        (start + (delivered counts kernel start calls).length)
      have call : readCall counts kernel start calls = aesdRead ReadFaults.none (counts calls) kernel
          ((start + (delivered counts kernel start calls).length : Nat) : Int) := by
        rw [readCall, ih.device, ih.position]
      rw [← call] at reads
      rw [delivered_succ, readerAfter_succ]
      constructor
      · exact reads.kernel
      · rw [reads.advances, List.length_append]
        omega
      · obtain ⟨after, split⟩ := reads.piece
        change _ = kernel.dev.content.drop _ at split
        have later : kernel.dev.content.drop (start +
            ((delivered counts kernel start calls).length +
              (readCall counts kernel start calls).data.length)) = after := by
          rw [← Nat.add_assoc, ← List.drop_drop, ← split, List.drop_left]
        rw [List.length_append, later, List.append_assoc, split]
        exact ih.left
      · rw [List.length_append]
        by_cases past : kernel.dev.content.length ≤
            start + (delivered counts kernel start calls).length
        · right
          omega
        · left
          have some : (readCall counts kernel start calls).data ≠ [] := fun empty =>
            past (reads.ends.mp empty)
          have positive := List.length_pos_iff.mpr some
          have earlier := ih.moved.resolve_right past
          omega

theorem readCall_exact (inv : DevInv kernel.dev) (room : ∀ index, 0 < counts index)
    (start calls : Nat) :
    ReadExact kernel.dev.lines kernel (start + (delivered counts kernel start calls).length)
      (readCall counts kernel start calls) := by
  have stands := readerAt inv room start calls
  rw [readCall, stands.device, stands.position]
  exact aesdRead_exact (room calls) inv _

theorem readCall_zero_iff (inv : DevInv kernel.dev) (room : ∀ index, 0 < counts index)
    (start calls : Nat) :
    (readCall counts kernel start calls).outcome = .returned 0 ↔
      kernel.dev.content.length ≤ start + (delivered counts kernel start calls).length := by
  have call := readCall_exact inv room start calls
  have empty := call.ends
  rw [← List.length_eq_zero_iff] at empty
  rw [call.returned, Outcome.returned.injEq, Int.natCast_eq_zero]
  exact empty

theorem delivered_of_zero (inv : DevInv kernel.dev) (room : ∀ index, 0 < counts index)
    {start calls : Nat} (zero : (readCall counts kernel start calls).outcome = .returned 0) :
    delivered counts kernel start calls = kernel.dev.content.drop start := by
  have left := (readerAt inv room start calls).left
  rw [List.drop_eq_nil_of_le ((readCall_zero_iff inv room start calls).mp zero),
    List.append_nil] at left
  exact left

end Calls

/-- The reader's calls, for every device that satisfies the invariant, every
position and all positive counts: each is exact, after finitely many of them one
returns 0, and what has been delivered then is the content behind the position,
so it does not depend on the counts. -/
theorem reads_exact (kernel : Kernel) (inv : DevInv kernel.dev) (position : Nat)
    (counts : Nat → Nat) (room : ∀ index, 0 < counts index) :
    (∀ calls, ∃ before : Nat, readerAfter counts kernel position calls = (kernel, (before : Int)) ∧
      ReadExact kernel.dev.lines kernel before (readCall counts kernel position calls)) ∧
    (∃ calls, (readCall counts kernel position calls).outcome = .returned 0) ∧
    (∀ calls, (readCall counts kernel position calls).outcome = .returned 0 →
      delivered counts kernel position calls = kernel.dev.content.drop position ∧
        ∀ (others : Nat → Nat) (otherCalls : Nat), (∀ index, 0 < others index) →
          (readCall others kernel position otherCalls).outcome = .returned 0 →
            delivered others kernel position otherCalls =
              delivered counts kernel position calls) := by
  refine ⟨?_, ?_, ?_⟩
  · intro calls
    have stands := readerAt inv room position calls
    exact ⟨_, Prod.ext stands.device stands.position, readCall_exact inv room position calls⟩
  · refine ⟨kernel.dev.content.length, (readCall_zero_iff inv room position _).mpr ?_⟩
    rcases (readerAt inv room position kernel.dev.content.length).moved with moved | past
    · omega
    · exact past
  · intro calls zero
    have whole := delivered_of_zero inv room zero
    refine ⟨whole, ?_⟩
    intro others otherCalls otherRoom otherZero
    rw [delivered_of_zero inv otherRoom otherZero, whole]

def twoLines : Kernel :=
  (OpenDevice.init.run [.write 0 [97, 98, 10, 99, 100, 10] WriteFaults.none]).kernel

theorem reads_exact_twoLines :
    DevInv twoLines.dev ∧
      ∃ calls, (readCall (fun _ => 2) twoLines 1 calls).outcome = .returned 0 := by
  have inv : DevInv twoLines.dev := run_inv init_inv _ (by
    intro op member
    rw [List.mem_singleton.mp member]
    exact fun _index => rfl)
  exact ⟨inv, (reads_exact twoLines inv 1 (fun _ => 2) fun _ => Nat.succ_pos 1).2.1⟩

end Aesd.Driver
