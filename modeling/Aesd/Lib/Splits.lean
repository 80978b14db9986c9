/-
Properties of the places of a list.

`AtEachStep P items` says that `P` holds of every item together with what stands
before it. It is checked item by item from the end.
-/

import Mathlib.Data.List.Basic

namespace Aesd

variable {α : Type*}

def AtEachStep (P : List α → α → Prop) (items : List α) : Prop :=
  ∀ before item after, items = before ++ item :: after → P before item

theorem AtEachStep.nil (P : List α → α → Prop) : AtEachStep P [] := by
  intro before item after split
  cases before <;> cases split

theorem AtEachStep.of_append {P : List α → α → Prop} {items later : List α}
    (every : AtEachStep P (items ++ later)) : AtEachStep P items := by
  intro before item after split
  apply every before item (after ++ later)
  rw [split, List.append_assoc, List.cons_append]

theorem atEachStep_append {P : List α → α → Prop} {items : List α} {last : α} :
    AtEachStep P (items ++ [last]) ↔ AtEachStep P items ∧ P items last := by
  constructor
  · intro every
    constructor
    · exact every.of_append
    · exact every items last [] rfl
  · rintro ⟨earlier, closing⟩ before item after split
    rcases List.eq_nil_or_concat after with none | ⟨initial, ending, shape⟩
    · subst none
      obtain ⟨same, equal⟩ := List.append_inj' split rfl
      rw [← same]
      rwa [← (List.cons.inj equal).1]
    · subst shape
      have shifted : items ++ [last] = (before ++ item :: initial) ++ [ending] := by
        rw [split]
        simp
      exact earlier before item initial (List.append_inj' shifted rfl).1

theorem atEachStep_cons {P : List α → α → Prop} {first : α} {items : List α} :
    AtEachStep P (first :: items) ↔
      P [] first ∧ AtEachStep (fun before => P (first :: before)) items := by
  constructor
  · intro every
    constructor
    · exact every [] first items rfl
    · intro before item after split
      exact every (first :: before) item after (congrArg (first :: ·) split)
  · rintro ⟨opening, later⟩ before item after split
    cases before with
    | nil =>
        obtain ⟨same, _rest⟩ := List.cons.inj split
        rw [← same]
        exact opening
    | cons head before =>
        obtain ⟨same, rest⟩ := List.cons.inj split
        rw [← same]
        exact later before item after rest

instance AtEachStep.decidable : (P : List α → α → Prop) →
    [∀ before item, Decidable (P before item)] → (items : List α) →
      Decidable (AtEachStep P items)
  | P, _, [] => isTrue (AtEachStep.nil P)
  | P, _, first :: items =>
      have := AtEachStep.decidable (fun before => P (first :: before)) items
      decidable_of_iff _ atEachStep_cons.symm

theorem flatMap_length_le_pieces {β : Type*} {short long : α → List β}
    (shorter : ∀ item, short item <+: long item) (items : List α) :
    (items.flatMap short).length ≤ (items.flatMap long).length := by
  induction items with
  | nil => exact Nat.le_refl _
  | cons item later ih =>
      rw [List.flatMap_cons, List.flatMap_cons, List.length_append, List.length_append]
      exact Nat.add_le_add (shorter item).length_le ih

/-- Concatenations of shorter pieces are equal only piece by piece. -/
theorem flatMap_eq_iff_pieces {β : Type*} {short long : α → List β}
    (shorter : ∀ item, short item <+: long item) (items : List α) :
    items.flatMap short = items.flatMap long ↔ ∀ item ∈ items, short item = long item := by
  constructor
  · intro equal
    induction items with
    | nil => simp
    | cons item later ih =>
        rw [List.flatMap_cons, List.flatMap_cons] at equal
        have laterShorter := flatMap_length_le_pieces shorter later
        have total := congrArg List.length equal
        rw [List.length_append, List.length_append] at total
        have here := (shorter item).length_le
        obtain ⟨same, rest⟩ := List.append_inj equal (by omega)
        intro other member
        rcases List.mem_cons.mp member with rfl | inside
        · exact same
        · exact ih rest other inside
  · intro same
    rw [List.flatMap_def, List.flatMap_def, List.map_congr_left same]

end Aesd
