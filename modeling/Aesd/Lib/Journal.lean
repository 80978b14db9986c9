/-
A bounded journal of a stream.

A journal keeps the most recent closed records of the stream it has been fed,
at most `capacity` of them, and the unfinished rest. Feeding is an action of
concatenation: two pieces fed in turn leave the journal that their
concatenation leaves.
-/

import Aesd.Lib.LineStream
import Mathlib.Data.List.DropRight

namespace Aesd

/-! ### Retaining the most recent elements -/

section Retain

variable {β : Type}

/-- Append, then forget all but the last `capacity` elements. -/
def retain (capacity : Nat) (held added : List β) : List β :=
  (held ++ added).rtake capacity

theorem retain_length_le (capacity : Nat) (held added : List β) :
    (retain capacity held added).length ≤ capacity := by
  simp only [retain, List.rtake, List.length_drop]
  omega

theorem mem_of_mem_retain {capacity : Nat} {held added : List β} {item : β}
    (member : item ∈ retain capacity held added) : item ∈ held ∨ item ∈ added :=
  List.mem_append.mp (List.mem_of_mem_drop member)

theorem map_retain {γ : Type} (f : β → γ) (capacity : Nat) (held added : List β) :
    (retain capacity held added).map f = retain capacity (held.map f) (added.map f) := by
  simp only [retain, List.rtake, List.map_drop, List.map_append, List.length_append,
    List.length_map]

theorem retain_of_fits {capacity : Nat} {held added : List β}
    (fits : held.length + added.length ≤ capacity) :
    retain capacity held added = held ++ added := by
  have nothing : (held ++ added).length - capacity = 0 := by
    rw [List.length_append]
    omega
  rw [retain, List.rtake, nothing, List.drop_zero]

@[simp] theorem retain_nil {capacity : Nat} {held : List β} (fits : held.length ≤ capacity) :
    retain capacity held [] = held := by
  rw [retain_of_fits (by simpa using fits), List.append_nil]

theorem retain_singleton_of_full {capacity : Nat} {held : List β} (positive : 0 < capacity)
    (full : held.length = capacity) (item : β) :
    retain capacity held [item] = held.tail ++ [item] := by
  cases held with
  | nil =>
      rw [List.length_nil] at full
      omega
  | cons head tail =>
      have one : (head :: tail ++ [item]).length - capacity = 1 := by
        simp only [List.cons_append, List.length_cons, List.length_append, List.length_nil] at full ⊢
        omega
      rw [retain, List.rtake, one]
      rfl

/-- Only the last elements matter, so earlier forgetting is invisible. -/
theorem retain_retain (capacity : Nat) (held first second : List β) :
    retain capacity (retain capacity held first) second =
      retain capacity held (first ++ second) := by
  unfold retain List.rtake
  have inside : (held ++ first).length - capacity ≤ (held ++ first).length := Nat.sub_le _ _
  rw [← List.drop_append_of_le_length inside, List.drop_drop, ← List.append_assoc]
  congr 1
  simp only [List.length_drop, List.length_append]
  omega

end Retain

/-! ### Journals -/

open LineStream

variable {α : Type} [DecidableEq α]

/-- The last records of a stream, with the proofs that they are records, that
there are few enough of them and that the rest is unfinished. -/
@[ext] structure Journal (sep : α) (capacity : Nat) where
  records : List (List α)
  unfinished : List α
  bounded : records.length ≤ capacity
  closed : ∀ record ∈ records, IsLine sep record
  pending : sep ∉ unfinished

namespace Journal

variable {sep : α} {capacity : Nat}

def empty : Journal sep capacity :=
  { records := []
    unfinished := []
    bounded := Nat.zero_le _
    closed := fun _record absent => absurd absent List.not_mem_nil
    pending := List.not_mem_nil }

/-- Records that were not added by a feed but by a step of one. -/
def commit (journal : Journal sep capacity) (added : List (List α))
    (closed : ∀ record ∈ added, IsLine sep record) : Journal sep capacity :=
  { records := retain capacity journal.records added
    unfinished := journal.unfinished
    bounded := retain_length_le capacity _ _
    closed := by
      intro record member
      rcases mem_of_mem_retain member with old | new
      · exact journal.closed record old
      · exact closed record new
    pending := journal.pending }

def setUnfinished (journal : Journal sep capacity) (unfinished : List α)
    (pending : sep ∉ unfinished) : Journal sep capacity :=
  { journal with unfinished := unfinished, pending := pending }

def feed (journal : Journal sep capacity) (piece : List α) : Journal sep capacity :=
  (journal.commit (lines sep (journal.unfinished ++ piece)) (isLine_of_mem_lines sep _)).setUnfinished
    (rest sep (journal.unfinished ++ piece)) (sep_not_mem_rest sep _)

theorem feed_records (journal : Journal sep capacity) (piece : List α) :
    (journal.feed piece).records =
      retain capacity journal.records (lines sep (journal.unfinished ++ piece)) := rfl

theorem feed_unfinished (journal : Journal sep capacity) (piece : List α) :
    (journal.feed piece).unfinished = rest sep (journal.unfinished ++ piece) := rfl

theorem feed_feed (journal : Journal sep capacity) (first second : List α) :
    (journal.feed first).feed second = journal.feed (first ++ second) := by
  apply Journal.ext
  · simp only [feed_records, feed_unfinished]
    rw [retain_retain, ← List.append_assoc, ← lines_append]
  · simp only [feed_unfinished]
    rw [← List.append_assoc, ← rest_append]

theorem feed_nil (journal : Journal sep capacity) : journal.feed [] = journal := by
  apply Journal.ext
  · rw [feed_records, List.append_nil, lines_of_not_mem journal.pending,
      retain_nil journal.bounded]
  · rw [feed_unfinished, List.append_nil, rest_of_not_mem journal.pending]

theorem feed_line_records (journal : Journal sep capacity) {line : List α}
    (clean : journal.unfinished = []) (closed : IsLine sep line) :
    (journal.feed line).records = retain capacity journal.records [line] := by
  rw [feed_records, clean, List.nil_append, lines_line closed]

theorem feed_line_unfinished (journal : Journal sep capacity) {line : List α}
    (clean : journal.unfinished = []) (closed : IsLine sep line) :
    (journal.feed line).unfinished = [] := by
  rw [feed_unfinished, clean, List.nil_append, rest_line closed]

end Journal

end Aesd
