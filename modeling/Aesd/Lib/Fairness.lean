/-
Infinite schedules in which everybody gets a turn again and again.

`Fair schedule who` says that `who` is scheduled after every time. What only
`who` changes is then iterated as often as one likes, and a number that falls
sooner or later until something is done shows that it gets done.
-/

import Mathlib.Logic.Function.Iterate
import Mathlib.Data.Nat.Find

namespace Fairness

variable {State ι View : Type}

/-- The state after so many moves of the schedule. -/
def along (step : State → ι → State) (start : State) (schedule : Nat → ι) : Nat → State
  | 0 => start
  | time + 1 => step (along step start schedule time) (schedule time)

theorem along_eq_foldl (step : State → ι → State) (start : State) (schedule : Nat → ι)
    (time : Nat) :
    along step start schedule time = ((List.range time).map schedule).foldl step start := by
  induction time with
  | zero => rfl
  | succ time ih =>
      rw [along, ih, List.range_succ, List.map_append, List.foldl_append]
      rfl

def Fair (schedule : Nat → ι) (who : ι) : Prop :=
  ∀ time, ∃ later, time ≤ later ∧ schedule later = who

section Turns

variable {schedule : Nat → ι} {who : ι} {views : Nat → View}

/-- What does not change without a turn of `who` is the same at the next turn. -/
theorem Fair.turn (fair : Fair schedule who) (time : Nat)
    (others : ∀ later, time ≤ later → schedule later ≠ who → views (later + 1) = views later) :
    ∃ later, time ≤ later ∧ schedule later = who ∧ views later = views time := by
  classical
  have first := Nat.find_spec (fair time)
  refine ⟨Nat.find (fair time), first.1, first.2, ?_⟩
  have unchanged : ∀ gap, time + gap ≤ Nat.find (fair time) → views (time + gap) = views time := by
    intro gap
    induction gap with
    | zero => exact fun _bound => rfl
    | succ gap ih =>
        intro bound
        have earlier : time + gap < Nat.find (fair time) := bound
        have missed : schedule (time + gap) ≠ who :=
          fun turn => Nat.find_min (fair time) earlier ⟨Nat.le_add_right time gap, turn⟩
        exact (others (time + gap) (Nat.le_add_right time gap) missed).trans
          (ih (Nat.le_of_lt earlier))
  have reached := unchanged (Nat.find (fair time) - time)
  rw [Nat.add_sub_cancel' first.1] at reached
  exact reached (Nat.le_refl _)

theorem Fair.iterates (fair : Fair schedule who) (views : Nat → View) (next : View → View)
    (time : Nat)
    (own : ∀ later, time ≤ later → schedule later = who → views (later + 1) = next (views later))
    (others : ∀ later, time ≤ later → schedule later ≠ who → views (later + 1) = views later)
    (rounds : Nat) : ∃ later, time ≤ later ∧ views later = next^[rounds] (views time) := by
  induction rounds with
  | zero => exact ⟨time, Nat.le_refl time, rfl⟩
  | succ rounds ih =>
      obtain ⟨middle, after, reached⟩ := ih
      obtain ⟨later, waited, turn, same⟩ := fair.turn middle
        fun later onward missed => others later (Nat.le_trans after onward) missed
      have onward := Nat.le_trans after waited
      refine ⟨later + 1, Nat.le_succ_of_le onward, ?_⟩
      rw [own later onward turn, same, reached, Function.iterate_succ_apply']

end Turns

/-- A number that falls as long as something is not done cannot fall for ever. -/
theorem eventually_done (measure : Nat → Nat) (Done : Nat → Prop)
    (falls : ∀ time, Done time ∨ ∃ later, measure later < measure time) : ∃ time, Done time := by
  have reaches : ∀ bound time, measure time = bound → ∃ time, Done time := by
    intro bound
    induction bound using Nat.strong_induction_on with
    | _ bound ih =>
        intro time same
        rcases falls time with done | ⟨later, less⟩
        · exact ⟨time, done⟩
        · rw [same] at less
          exact ih (measure later) less later rfl
  exact reaches (measure 0) 0 rfl

end Fairness
