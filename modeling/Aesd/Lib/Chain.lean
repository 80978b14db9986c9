/-
Singly linked lists in a store.

A store maps the addresses of live nodes to their contents. `Linked` says that
the links, followed from a start, meet the listed addresses and then NULL. The
lemmas say what redirecting one link and deleting a node do to the list.
-/

import Mathlib.Data.List.Nodup
import Mathlib.Logic.Function.Basic

namespace Aesd.Chain

variable {α ν : Type}

inductive Linked (next : ν → Option α) (store : α → Option ν) : Option α → List α → Prop where
  | nil : Linked next store none []
  | cons {address : α} {node : ν} {later : List α} (live : store address = some node)
      (tail : Linked next store (next node) later) :
      Linked next store (some address) (address :: later)

variable {next : ν → Option α} {store : α → Option ν}

theorem Linked.unique {start : Option α} {left right : List α} (first : Linked next store start left)
    (second : Linked next store start right) : left = right := by
  induction first generalizing right with
  | nil =>
      cases second
      rfl
  | cons live _tail ih =>
      cases second with
      | cons liveToo tailToo =>
          rw [live, Option.some.injEq] at liveToo
          subst liveToo
          rw [ih tailToo]

theorem Linked.of_append {start : Option α} {before after : List α}
    (linked : Linked next store start (before ++ after)) : ∃ middle, Linked next store middle after := by
  induction before generalizing start with
  | nil => exact ⟨start, linked⟩
  | cons address before ih =>
      cases linked with
      | cons _live tail => exact ih tail

theorem Linked.start_of_cons {start : Option α} {address : α} {later : List α}
    (linked : Linked next store start (address :: later)) : start = some address := by
  cases linked with
  | cons _live _tail => rfl

theorem Linked.tail_of_cons {start : Option α} {address : α} {later : List α} {node : ν}
    (linked : Linked next store start (address :: later)) (live : store address = some node) :
    Linked next store (next node) later := by
  cases linked with
  | cons liveToo tail =>
      rw [live, Option.some.injEq] at liveToo
      subst liveToo
      exact tail

/-- The list does not start with a later address: the rest behind that address
would be its own proper part. -/
theorem Linked.start_ne_of_append {start : Option α} {before after : List α} {address : α}
    (linked : Linked next store start (before ++ address :: after)) (later : before ≠ []) :
    start ≠ some address := by
  intro begins
  obtain ⟨middle, met⟩ := linked.of_append
  rw [begins, ← met.start_of_cons] at linked
  have same := congrArg List.length (linked.unique met)
  have positive := List.length_pos_iff.mpr later
  rw [List.length_append] at same
  omega

theorem Linked.nodup {start : Option α} {addresses : List α}
    (linked : Linked next store start addresses) : addresses.Nodup := by
  induction linked with
  | nil => exact List.nodup_nil
  | @cons address node later live tail ih =>
      rw [List.nodup_cons]
      refine ⟨?_, ih⟩
      intro again
      obtain ⟨before, after, split⟩ := List.append_of_mem again
      rw [split] at tail
      have whole : Linked next store (some address) ((address :: before) ++ address :: after) :=
        .cons live tail
      exact whole.start_ne_of_append (List.cons_ne_nil address before) rfl

theorem Linked.live_of_mem {start : Option α} {addresses : List α}
    (linked : Linked next store start addresses) {address : α} (member : address ∈ addresses) :
    ∃ node, store address = some node := by
  induction linked with
  | nil => cases member
  | @cons first node later live _tail ih =>
      rcases List.mem_cons.mp member with same | inside
      · rw [same]
        exact ⟨node, live⟩
      · exact ih inside

/-- Only the nodes of a list matter for its links. -/
theorem Linked.frame {other : α → Option ν} {start : Option α} {addresses : List α}
    (linked : Linked next store start addresses)
    (same : ∀ address ∈ addresses, other address = store address) :
    Linked next other start addresses := by
  induction linked with
  | nil => exact .nil
  | @cons address node later live tail ih =>
      have kept := same address List.mem_cons_self
      apply Linked.cons (kept.trans live)
      apply ih
      intro inner member
      exact same inner (List.mem_cons_of_mem address member)

variable [DecidableEq α]

/-- Directing the link of `previous` past the node behind it takes that node out. -/
theorem Linked.unlink {start : Option α} {before after : List α} {previous removed : α}
    {node gone redirected : ν}
    (linked : Linked next store start (before ++ previous :: removed :: after))
    (live : store previous = some node) (goneLive : store removed = some gone)
    (link : next redirected = next gone) :
    Linked next (Function.update store previous (some redirected)) start
      (before ++ previous :: after) := by
  induction before generalizing start with
  | nil =>
      have distinct := (List.nodup_cons.mp linked.nodup).1
      have outside : ∀ address ∈ after,
          Function.update store previous (some redirected) address = store address := by
        intro address member
        apply Function.update_of_ne
        intro same
        subst same
        exact distinct (List.mem_cons_of_mem removed member)
      have rest := (linked.tail_of_cons live).tail_of_cons goneLive
      rw [linked.start_of_cons]
      apply Linked.cons (Function.update_self previous (some redirected) store)
      rw [link]
      exact rest.frame outside
  | cons first before ih =>
      have distinct := linked.nodup
      cases linked with
      | @cons _first head _later firstLive tail =>
          have elsewhere : first ≠ previous := by
            intro same
            subst same
            apply (List.nodup_cons.mp distinct).1
            exact List.mem_append_right before List.mem_cons_self
          have kept : Function.update store previous (some redirected) first = some head := by
            rw [Function.update_of_ne elsewhere]
            exact firstLive
          exact .cons kept (ih tail)

theorem Linked.delete {start : Option α} {addresses : List α} {removed : α}
    (linked : Linked next store start addresses) (absent : removed ∉ addresses) :
    Linked next (Function.update store removed none) start addresses := by
  apply linked.frame
  intro address member
  apply Function.update_of_ne
  intro same
  subst same
  exact absent member

end Aesd.Chain
