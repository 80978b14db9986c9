/-
Positions in a concatenation.

A concatenation of segments is addressed either by one global position or by a
segment number and an offset inside it. `locate` computes the second form from
the first, using the segment sizes only.
-/

import Mathlib.Data.List.Basic
import Mathlib.Algebra.BigOperators.Group.List.Basic
import Mathlib.Algebra.GroupWithZero.Nat

namespace Aesd.Segments

def locate : List Nat → Nat → Option (Nat × Nat)
  | [], _position => none
  | size :: later, position =>
      if position < size then some (0, position)
      else (locate later (position - size)).map (fun found => (found.1 + 1, found.2))

theorem locate_eq_none_iff (sizes : List Nat) (position : Nat) :
    locate sizes position = none ↔ sizes.sum ≤ position := by
  induction sizes generalizing position with
  | nil => simp [locate]
  | cons size later ih =>
      by_cases inside : position < size
      · simp only [locate, if_pos inside, List.sum_cons, reduceCtorEq, false_iff]
        omega
      · simp only [locate, if_neg inside, Option.map_eq_none_iff, ih, List.sum_cons]
        omega

theorem locate_some {sizes : List Nat} {position index offset : Nat}
    (found : locate sizes position = some (index, offset)) :
    index < sizes.length ∧ offset < sizes.getD index 0 ∧
      (sizes.take index).sum + offset = position := by
  induction sizes generalizing position index offset with
  | nil => cases found
  | cons size later ih =>
      by_cases inside : position < size
      · simp only [locate, if_pos inside, Option.some.injEq, Prod.mk.injEq] at found
        obtain ⟨rfl, rfl⟩ := found
        simpa using inside
      · simp only [locate, if_neg inside, Option.map_eq_some_iff, Prod.exists,
          Prod.mk.injEq] at found
        obtain ⟨index', offset', foundLater, rfl, rfl⟩ := found
        obtain ⟨bound, inSegment, total⟩ := ih foundLater
        refine ⟨?_, ?_, ?_⟩
        · simpa using bound
        · simpa using inSegment
        · rw [List.take_succ_cons, List.sum_cons]
          omega

theorem locate_sum {sizes : List Nat} {index offset : Nat}
    (inside : offset < sizes.getD index 0) :
    locate sizes ((sizes.take index).sum + offset) = some (index, offset) := by
  induction sizes generalizing index with
  | nil => simp at inside
  | cons size later ih =>
      cases index with
      | zero =>
          have here : offset < size := inside
          rw [List.take_zero, List.sum_nil, Nat.zero_add, locate, if_pos here]
      | succ index =>
          have further : offset < later.getD index 0 := inside
          have beyond : ¬ ((size :: later).take (index + 1)).sum + offset < size := by
            rw [List.take_succ_cons, List.sum_cons]
            omega
          have shifted : ((size :: later).take (index + 1)).sum + offset - size =
              (later.take index).sum + offset := by
            rw [List.take_succ_cons, List.sum_cons]
            omega
          rw [locate, if_neg beyond, shifted, ih further, Option.map_some]

variable {α : Type}

theorem getD_length (segments : List (List α)) (index : Nat) :
    (segments.map List.length).getD index 0 = (segments.getD index []).length := by
  rw [List.getD_eq_getElem?_getD, List.getD_eq_getElem?_getD, List.getElem?_map]
  cases segments[index]? with
  | none => rfl
  | some segment => rfl

theorem located_segment {segments : List (List α)} {position index offset : Nat}
    (found : locate (segments.map List.length) position = some (index, offset)) :
    segments.getD index [] ∈ segments ∧ offset < (segments.getD index []).length := by
  obtain ⟨bound, inside, _total⟩ := locate_some found
  rw [List.length_map] at bound
  rw [getD_length] at inside
  refine ⟨?_, inside⟩
  rw [List.getD_eq_getElem?_getD, List.getElem?_eq_getElem bound, Option.getD_some]
  exact List.getElem_mem bound

/-- Dropping up to a position keeps the rest of the covering segment and all
later segments. -/
theorem drop_flatten_of_locate {segments : List (List α)} {position index offset : Nat}
    (found : locate (segments.map List.length) position = some (index, offset)) :
    segments.flatten.drop position =
      (segments.getD index []).drop offset ++ (segments.drop (index + 1)).flatten := by
  induction segments generalizing position index offset with
  | nil => cases found
  | cons first later ih =>
      rw [List.map_cons] at found
      by_cases inside : position < first.length
      · simp only [locate, if_pos inside, Option.some.injEq, Prod.mk.injEq] at found
        obtain ⟨rfl, rfl⟩ := found
        rw [List.flatten_cons, List.drop_append_of_le_length (Nat.le_of_lt inside)]
        rfl
      · simp only [locate, if_neg inside, Option.map_eq_some_iff, Prod.exists,
          Prod.mk.injEq] at found
        obtain ⟨index', offset', foundLater, rfl, rfl⟩ := found
        have beyond : first.length ≤ position := Nat.le_of_not_lt inside
        rw [List.flatten_cons, List.drop_append, List.drop_eq_nil_of_le beyond, List.nil_append,
          ih foundLater]
        rfl

end Aesd.Segments
