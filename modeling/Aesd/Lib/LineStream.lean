/-
Splitting a stream at a separator.

A stream over any alphabet is read as a sequence of records, each closed by
one separator, followed by an unfinished rest. The decomposition is unique, so
the records of a stream do not depend on the pieces in which it arrives.
-/

import Mathlib.Data.List.Basic

namespace Aesd.LineStream

variable {α : Type}

/-- A record is closed by its only separator. -/
def IsLine (sep : α) (line : List α) : Prop :=
  ∃ body, line = body ++ [sep] ∧ sep ∉ body

theorem IsLine.ne_nil {sep : α} {line : List α} (closed : IsLine sep line) : line ≠ [] := by
  obtain ⟨body, rfl, _absent⟩ := closed
  simp

theorem IsLine.mem {sep : α} {line : List α} (closed : IsLine sep line) : sep ∈ line := by
  obtain ⟨body, rfl, _absent⟩ := closed
  simp

private theorem IsLine.singleton (sep : α) : IsLine sep [sep] :=
  ⟨[], rfl, List.not_mem_nil⟩

private theorem IsLine.cons {sep head : α} {line : List α} (other : head ≠ sep)
    (closed : IsLine sep line) : IsLine sep (head :: line) := by
  obtain ⟨body, rfl, absent⟩ := closed
  refine ⟨head :: body, rfl, ?_⟩
  intro member
  rcases List.mem_cons.mp member with same | later
  · exact other same.symm
  · exact absent later

/-! ### Existence of the decomposition -/

variable [DecidableEq α]

/-- The closed records of a stream, and what follows the last of them. -/
def split (sep : α) : List α → List (List α) × List α
  | [] => ([], [])
  | head :: tail =>
      if head = sep then ([head] :: (split sep tail).1, (split sep tail).2)
      else
        match (split sep tail).1 with
        | [] => ([], head :: (split sep tail).2)
        | first :: later => ((head :: first) :: later, (split sep tail).2)

def lines (sep : α) (stream : List α) : List (List α) := (split sep stream).1

def rest (sep : α) (stream : List α) : List α := (split sep stream).2

theorem lines_flatten_append_rest (sep : α) (stream : List α) :
    (lines sep stream).flatten ++ rest sep stream = stream := by
  unfold lines rest
  induction stream with
  | nil => rfl
  | cons head tail ih =>
      by_cases same : head = sep
      · simp only [split, if_pos same, List.flatten_cons, List.cons_append, List.nil_append, ih]
      · cases found : (split sep tail).1 with
        | nil =>
            rw [found] at ih
            simpa [split, if_neg same, found] using ih
        | cons first later =>
            rw [found] at ih
            simpa [split, if_neg same, found] using ih

theorem isLine_of_mem_lines (sep : α) (stream : List α) :
    ∀ line ∈ lines sep stream, IsLine sep line := by
  unfold lines
  induction stream with
  | nil => simp [split]
  | cons head tail ih =>
      intro line member
      by_cases same : head = sep
      · simp only [split, if_pos same, List.mem_cons] at member
        rcases member with first | later
        · rw [first, same]
          exact IsLine.singleton sep
        · exact ih line later
      · cases found : (split sep tail).1 with
        | nil => simp [split, if_neg same, found] at member
        | cons first later =>
            rw [found] at ih
            simp only [split, if_neg same, found, List.mem_cons] at member
            rcases member with atHead | inTail
            · rw [atHead]
              exact IsLine.cons same (ih first List.mem_cons_self)
            · exact ih line (List.mem_cons_of_mem first inTail)

theorem sep_not_mem_rest (sep : α) (stream : List α) : sep ∉ rest sep stream := by
  unfold rest
  induction stream with
  | nil => simp [split]
  | cons head tail ih =>
      by_cases same : head = sep
      · simpa only [split, if_pos same] using ih
      · cases found : (split sep tail).1 with
        | nil =>
            simp only [split, if_neg same, found, List.mem_cons, not_or]
            exact ⟨fun equal => same equal.symm, ih⟩
        | cons first later => simpa only [split, if_neg same, found] using ih

/-! ### Uniqueness of the decomposition -/

private theorem split_of_not_mem (sep : α) (stream : List α) (absent : sep ∉ stream) :
    split sep stream = ([], stream) := by
  induction stream with
  | nil => rfl
  | cons head tail ih =>
      obtain ⟨other, later⟩ := not_or.mp (fun either => absent (List.mem_cons.mpr either))
      simp only [split, if_neg (fun equal : head = sep => other equal.symm), ih later]

private theorem split_line_append (sep : α) (body tail : List α) (absent : sep ∉ body) :
    split sep (body ++ [sep] ++ tail) =
      ((body ++ [sep]) :: (split sep tail).1, (split sep tail).2) := by
  induction body with
  | nil => simp [split]
  | cons head later ih =>
      obtain ⟨other, absentLater⟩ := not_or.mp (fun either => absent (List.mem_cons.mpr either))
      simp only [List.cons_append, split, if_neg (fun equal : head = sep => other equal.symm),
        ih absentLater]

/-- Any list of records followed by a separator-free rest is the decomposition. -/
theorem split_flatten_append (sep : α) (records : List (List α)) (unfinished : List α)
    (closed : ∀ record ∈ records, IsLine sep record) (absent : sep ∉ unfinished) :
    split sep (records.flatten ++ unfinished) = (records, unfinished) := by
  induction records with
  | nil => exact split_of_not_mem sep unfinished absent
  | cons first later ih =>
      obtain ⟨body, rfl, absentBody⟩ := closed first List.mem_cons_self
      have tail := ih (fun record member => closed record (List.mem_cons_of_mem _ member))
      rw [List.flatten_cons, List.append_assoc, split_line_append sep body _ absentBody, tail]

theorem lines_of_not_mem {sep : α} {stream : List α} (absent : sep ∉ stream) :
    lines sep stream = [] := by
  rw [lines, split_of_not_mem sep stream absent]

theorem rest_of_not_mem {sep : α} {stream : List α} (absent : sep ∉ stream) :
    rest sep stream = stream := by
  rw [rest, split_of_not_mem sep stream absent]

theorem lines_line_append {sep : α} {line : List α} (closed : IsLine sep line)
    (stream : List α) : lines sep (line ++ stream) = line :: lines sep stream := by
  obtain ⟨body, rfl, absent⟩ := closed
  simp only [lines, split_line_append sep body stream absent]

theorem rest_line_append {sep : α} {line : List α} (closed : IsLine sep line)
    (stream : List α) : rest sep (line ++ stream) = rest sep stream := by
  obtain ⟨body, rfl, absent⟩ := closed
  simp only [rest, split_line_append sep body stream absent]

theorem lines_line {sep : α} {line : List α} (closed : IsLine sep line) :
    lines sep line = [line] := by
  simpa [lines, split] using lines_line_append closed []

theorem rest_line {sep : α} {line : List α} (closed : IsLine sep line) :
    rest sep line = [] := by
  simpa [rest, split] using rest_line_append closed []

/-! ### Arrival in pieces -/

private theorem split_append (sep : α) (left right : List α) :
    split sep (left ++ right) =
      (lines sep left ++ lines sep (rest sep left ++ right),
        rest sep (rest sep left ++ right)) := by
  have whole : left ++ right =
      (lines sep left ++ lines sep (rest sep left ++ right)).flatten ++
        rest sep (rest sep left ++ right) := by
    rw [List.flatten_append, List.append_assoc, lines_flatten_append_rest, ← List.append_assoc,
      lines_flatten_append_rest]
  rw [whole]
  apply split_flatten_append
  · intro record member
    rcases List.mem_append.mp member with first | second
    · exact isLine_of_mem_lines sep left record first
    · exact isLine_of_mem_lines sep _ record second
  · exact sep_not_mem_rest sep _

theorem lines_append (sep : α) (left right : List α) :
    lines sep (left ++ right) = lines sep left ++ lines sep (rest sep left ++ right) := by
  rw [lines, split_append]

theorem rest_append (sep : α) (left right : List α) :
    rest sep (left ++ right) = rest sep (rest sep left ++ right) := by
  rw [rest, split_append]

theorem rest_append_of_mem {sep : α} (left : List α) {right : List α} (member : sep ∈ right) :
    rest sep (left ++ right) = rest sep right := by
  obtain ⟨body, behind, rfl, absent⟩ := List.eq_append_cons_of_mem member
  have first : IsLine sep (body ++ [sep]) := ⟨body, rfl, absent⟩
  have joined : IsLine sep (rest sep left ++ (body ++ [sep])) := by
    refine ⟨rest sep left ++ body, by rw [List.append_assoc], ?_⟩
    intro inside
    rcases List.mem_append.mp inside with before | after
    · exact sep_not_mem_rest sep left before
    · exact absent after
  have shape : body ++ sep :: behind = (body ++ [sep]) ++ behind := by simp
  calc rest sep (left ++ (body ++ sep :: behind))
      = rest sep (rest sep left ++ (body ++ sep :: behind)) := rest_append sep left _
    _ = rest sep ((rest sep left ++ (body ++ [sep])) ++ behind) := by
        rw [shape, List.append_assoc (rest sep left)]
    _ = rest sep behind := rest_line_append joined behind
    _ = rest sep (body ++ sep :: behind) := by rw [shape, rest_line_append first]

theorem lines_flatten_length (sep : α) (stream : List α) :
    (lines sep stream).flatten.length + (rest sep stream).length = stream.length := by
  rw [← List.length_append, lines_flatten_append_rest]

/-! ### Scanning for the separator -/

theorem isLine_take_of_idxOf? {sep : α} {stream : List α} {position : Nat}
    (found : stream.idxOf? sep = some position) : IsLine sep (stream.take (position + 1)) := by
  induction stream generalizing position with
  | nil => simp at found
  | cons head tail ih =>
      rw [List.idxOf?_cons] at found
      by_cases same : head = sep
      · simp only [same, beq_self_eq_true, if_true, Option.some.injEq] at found
        subst position
        rw [same]
        exact IsLine.singleton sep
      · have differs : (head == sep) = false := beq_false_of_ne same
        simp only [differs, Bool.false_eq_true, if_false, Option.map_eq_some_iff] at found
        obtain ⟨later, foundLater, rfl⟩ := found
        exact IsLine.cons same (ih foundLater)

theorem lines_of_idxOf? {sep : α} {stream : List α} {position : Nat}
    (found : stream.idxOf? sep = some position) :
    lines sep stream = stream.take (position + 1) :: lines sep (stream.drop (position + 1)) := by
  rw [← lines_line_append (isLine_take_of_idxOf? found), List.take_append_drop]

theorem rest_of_idxOf? {sep : α} {stream : List α} {position : Nat}
    (found : stream.idxOf? sep = some position) :
    rest sep stream = rest sep (stream.drop (position + 1)) := by
  rw [← rest_line_append (isLine_take_of_idxOf? found) (stream.drop (position + 1)),
    List.take_append_drop]

theorem idxOf?_line_append {sep : α} {line : List α} (closed : IsLine sep line)
    (stream : List α) : (line ++ stream).idxOf? sep = some (line.length - 1) := by
  obtain ⟨body, rfl, absent⟩ := closed
  rw [List.idxOf?_eq_some_iff]
  refine ⟨by simp, by simp, ?_⟩
  intro index before same
  have inside : index < body.length := by simpa using before
  simp only [List.append_assoc] at same
  rw [List.getElem_append_left inside] at same
  rw [← same] at absent
  exact absent (List.getElem_mem inside)

theorem idxOf?_lt_length {sep : α} {stream : List α} {position : Nat}
    (found : stream.idxOf? sep = some position) : position < stream.length := by
  obtain ⟨bound, _value, _first⟩ := List.idxOf?_eq_some_iff.mp found
  exact bound

end Aesd.LineStream
