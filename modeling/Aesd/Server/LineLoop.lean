/-
The head of the line loop of `handle_client_connection`.

The lines the loop will see are the lines of the C string it stands before. One
lemma for each way out of the loop head says which line is taken and where the
thread goes with it.
-/

import Aesd.Lib.LineStream
import Aesd.Server.Connection

namespace Aesd.Server

open Driver LineStream

/-! ### Strings inside the buffer -/

theorem cstr_take {memory : Bytes} {count : Nat} (within : count ≤ (cstr memory).length) :
    memory.take count = (cstr memory).take count := by
  have whole : cstr memory ++ memory.dropWhile (fun byte => byte ≠ 0) = memory :=
    List.takeWhile_append_dropWhile
  calc memory.take count
      = (cstr memory ++ memory.dropWhile (fun byte => byte ≠ 0)).take count := by rw [whole]
    _ = (cstr memory).take count := List.take_append_of_le_length within

theorem cstr_drop {memory : Bytes} {count : Nat} (within : count ≤ (cstr memory).length) :
    cstr (memory.drop count) = (cstr memory).drop count := by
  induction count generalizing memory with
  | zero => rfl
  | succ count ih =>
      cases memory with
      | nil => rfl
      | cons head tail =>
          by_cases zero : head = 0
          · simp [cstr, zero] at within
          · rw [cstr_cons_of_ne zero] at within ⊢
            exact ih (Nat.le_of_succ_le_succ within)

/-! ### Lines of the text -/

def Connection.textLines (conn : Connection) : List Bytes := lines newline (cstr conn.text)

def IsSeek (line : Bytes) : Prop := seekCommand <+: line

instance (line : Bytes) : Decidable (IsSeek line) := inferInstanceAs (Decidable (_ <+: _))

def Connection.scanned (conn : Connection) (newlineChar : Nat) : Connection :=
  { conn with length := newlineChar + 1 }

def Connection.skipped (conn : Connection) : Connection :=
  { conn with prevNewline := conn.prevNewline + conn.length }

theorem textLines_of_strchr_none {conn : Connection} (none : strchr conn.text newline = none) :
    conn.textLines = [] := by
  apply lines_of_not_mem
  intro member
  rw [strchr, List.idxOf?_eq_none_iff] at none
  exact none member

theorem scanned_line {conn : Connection} {newlineChar : Nat}
    (found : strchr conn.text newline = some newlineChar) :
    (conn.scanned newlineChar).line = (cstr conn.text).take (newlineChar + 1) :=
  cstr_take (idxOf?_lt_length found)

theorem scanned_line_isLine {conn : Connection} {newlineChar : Nat}
    (found : strchr conn.text newline = some newlineChar) :
    IsLine newline (conn.scanned newlineChar).line := by
  rw [scanned_line found]
  exact isLine_take_of_idxOf? found

theorem scanned_line_length {conn : Connection} {newlineChar : Nat}
    (found : strchr conn.text newline = some newlineChar) :
    (conn.scanned newlineChar).line.length = newlineChar + 1 := by
  rw [scanned_line found, List.length_take]
  have within : newlineChar < (cstr conn.text).length := idxOf?_lt_length found
  omega

theorem textLines_of_strchr_some {conn : Connection} {newlineChar : Nat}
    (found : strchr conn.text newline = some newlineChar) :
    conn.textLines =
      (conn.scanned newlineChar).line :: (conn.scanned newlineChar).skipped.textLines := by
  have within : newlineChar + 1 ≤ (cstr conn.text).length := idxOf?_lt_length found
  have behind : (conn.scanned newlineChar).skipped.text = conn.text.drop (newlineChar + 1) := by
    simp [Connection.text, Connection.skipped, Connection.scanned]
  unfold Connection.textLines
  rw [behind, cstr_drop within]
  conv_lhs => rw [← List.take_append_drop (newlineChar + 1) (cstr conn.text)]
  rw [lines_line_append (isLine_take_of_idxOf? found), scanned_line found]

/-! ### The seek test -/

theorem newline_not_mem_seekCommand : newline ∉ seekCommand := by decide

/-- `MIN(length, 18)` bytes of the text are those of the command exactly when the
line starts with it: a shorter line has its newline among them. -/
theorem strncmp_seekCommand {conn : Connection} {newlineChar : Nat}
    (found : strchr conn.text newline = some newlineChar) :
    strncmpZero conn.text seekCommand (min (newlineChar + 1) 18) = true ↔
      IsSeek (conn.scanned newlineChar).line := by
  have size : seekCommand.length = 18 := rfl
  have clean : 0 ∉ seekCommand := by decide
  rw [strncmpZero_iff clean (by omega), IsSeek]
  change _ ↔ seekCommand <+: conn.text.take (newlineChar + 1)
  rw [List.prefix_take_iff, size]
  by_cases long : 18 ≤ newlineChar + 1
  · rw [Nat.min_eq_right long, List.take_of_length_le (by omega)]
    simp [long]
  · rw [Nat.min_eq_left (by omega)]
    constructor
    · intro starts
      have shared : conn.text.take (newlineChar + 1) = seekCommand.take (newlineChar + 1) := by
        obtain ⟨after, shape⟩ := starts
        rw [← shape, List.take_append_of_le_length (by rw [List.length_take]; omega),
          List.take_take, Nat.min_self]
      have member := (scanned_line_isLine found).mem
      change newline ∈ conn.text.take (newlineChar + 1) at member
      rw [shared] at member
      exact absurd (List.mem_of_mem_take member) newline_not_mem_seekCommand
    · rintro ⟨_, short⟩
      exact absurd short long

/-! ### The ways out of the loop head -/

theorem nextLine_none {conn : Connection} (none : strchr conn.text newline = none) :
    conn.nextLine = { conn with pc := .unlock } := by
  unfold Connection.nextLine
  rw [none]

theorem nextLine_data {conn : Connection} {newlineChar : Nat}
    (found : strchr conn.text newline = some newlineChar)
    (data : ¬ IsSeek (conn.scanned newlineChar).line) :
    conn.nextLine =
      { conn.scanned newlineChar with
        pc := .storeLine 0
        passed := conn.passed ++ [(conn.scanned newlineChar).line] } := by
  unfold Connection.nextLine
  rw [found]
  exact if_neg fun same => data ((strncmp_seekCommand found).mp same)

theorem nextLine_seek {conn : Connection} {newlineChar : Nat}
    (found : strchr conn.text newline = some newlineChar)
    (seek : IsSeek (conn.scanned newlineChar).line) {writeCmd writeCmdOffset : Int}
    (converted : sscanf seekFormat conn.text = [writeCmd, writeCmdOffset]) :
    conn.nextLine =
      { conn.scanned newlineChar with
        pc := .ioctl
          { writeCmd := storeInt writeCmd, writeCmdOffset := storeInt writeCmdOffset } } := by
  have same := (strncmp_seekCommand found).mpr seek
  have values : sscanf seekFormat (Connection.text { conn with length := newlineChar + 1 }) =
      [writeCmd, writeCmdOffset] := converted
  unfold Connection.nextLine
  rw [found]
  refine (if_pos same).trans ?_
  rw [values]
  rfl

/-- Without two conversions the thread goes straight to the read loop. -/
theorem nextLine_unconverted {conn : Connection} {newlineChar : Nat}
    (found : strchr conn.text newline = some newlineChar)
    (seek : IsSeek (conn.scanned newlineChar).line)
    (unconverted : ∀ writeCmd writeCmdOffset,
      sscanf seekFormat conn.text ≠ [writeCmd, writeCmdOffset]) :
    conn.nextLine = { conn.scanned newlineChar with pc := .readBack } := by
  have same := (strncmp_seekCommand found).mpr seek
  unfold Connection.nextLine
  rw [found]
  refine (if_pos same).trans ?_
  split
  · next converted => exact absurd converted (unconverted _ _)
  · rfl

inductive NextLine (conn : Connection) : Connection → Prop
  | done (absent : strchr conn.text newline = none) : NextLine conn { conn with pc := .unlock }
  | data {newlineChar : Nat} (found : strchr conn.text newline = some newlineChar)
      (data : ¬ IsSeek (conn.scanned newlineChar).line) :
      NextLine conn
        { conn.scanned newlineChar with
          pc := .storeLine 0
          passed := conn.passed ++ [(conn.scanned newlineChar).line] }
  | seek {newlineChar : Nat} (found : strchr conn.text newline = some newlineChar)
      (seek : IsSeek (conn.scanned newlineChar).line) (seekto : AesdSeekto) :
      NextLine conn { conn.scanned newlineChar with pc := .ioctl seekto }
  | unconverted {newlineChar : Nat} (found : strchr conn.text newline = some newlineChar)
      (seek : IsSeek (conn.scanned newlineChar).line) :
      NextLine conn { conn.scanned newlineChar with pc := .readBack }

theorem nextLine_cases (conn : Connection) : NextLine conn conn.nextLine := by
  cases found : strchr conn.text newline with
  | none =>
      rw [nextLine_none found]
      exact NextLine.done found
  | some newlineChar =>
      by_cases seek : IsSeek (conn.scanned newlineChar).line
      · by_cases converted : ∃ writeCmd writeCmdOffset,
            sscanf seekFormat conn.text = [writeCmd, writeCmdOffset]
        · obtain ⟨writeCmd, writeCmdOffset, values⟩ := converted
          rw [nextLine_seek found seek values]
          exact NextLine.seek found seek _
        · rw [nextLine_unconverted found seek fun writeCmd writeCmdOffset values =>
            converted ⟨writeCmd, writeCmdOffset, values⟩]
          exact NextLine.unconverted found seek
      · rw [nextLine_data found seek]
        exact NextLine.data found seek

end Aesd.Server
