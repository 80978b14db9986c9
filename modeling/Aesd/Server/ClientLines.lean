/-
The lines of one client, from its chunks to its answers.

At its read a thread has answered every line of the chunks it has received, up
to the first NUL of each chunk, and has handed those that are no seek commands to
the file; in its section the lines it has not answered are those it still has in the
buffer.
-/

import Aesd.Lib.Splits
import Aesd.Server.Segmentation

namespace Aesd.Server

open Driver LineStream

/-! ### Received lines -/

/-- The lines the server sees in the result of a read. -/
def SockRead.lines : SockRead → List Bytes
  | .chunk received => received.textLines
  | _ => []

/-- What a thread has answered of the lines `seen`, and what it still has to. -/
def Progress (seen : List Bytes) (conn : Connection) : Prop :=
  match conn.pc with
  | .receive => conn.answers.map Answer.line = seen
  | .lock inBytesRead =>
      0 ≤ inBytesRead ∧ conn.answers.map Answer.line ++
        LineStream.lines newline (cstr (conn.inBuffer.take inBytesRead.toNat)) = seen
  | .unlock => conn.answers.map Answer.line = seen
  | .unlockRefused => conn.answers.map Answer.line <+: seen
  | .returned => conn.answers.map Answer.line <+: seen
  | _ => conn.answers.map Answer.line ++ conn.line :: conn.skipped.textLines = seen

theorem cstr_set (memory : Bytes) (index : Nat) :
    cstr (memory.set index 0) = cstr (memory.take index) := by
  by_cases inside : index ≤ memory.length
  · have size : (memory.take index).length = index := by
      rw [List.length_take, Nat.min_eq_left inside]
    have terminated := cstr_set_terminator (memory.take index) (memory.drop index)
    rwa [size, List.take_append_drop] at terminated
  · have outside := Nat.le_of_not_le inside
    rw [List.set_eq_of_length_le outside, List.take_of_length_le outside]

section Steps

variable {seen : List Bytes} {conn : Connection}

theorem Progress.nextLine (left : conn.answers.map Answer.line ++ conn.textLines = seen) :
    Progress seen conn.nextLine := by
  have head := nextLine_cases conn
  generalize conn.nextLine = next at head ⊢
  cases head with
  | done absent =>
      rw [textLines_of_strchr_none absent, List.append_nil] at left
      exact left
  | data found isData =>
      rw [textLines_of_strchr_some found] at left
      exact left
  | seek found seek seekto =>
      rw [textLines_of_strchr_some found] at left
      exact left
  | unconverted found seek =>
      rw [textLines_of_strchr_some found] at left
      exact left

theorem Progress.finishLine
    (left : conn.answers.map Answer.line ++ conn.line :: conn.skipped.textLines = seen) :
    Progress seen conn.finishLine := by
  apply Progress.nextLine
  rw [List.map_append, List.append_assoc]
  exact left

/-- Whatever a call returns, no line is skipped or answered twice. -/
theorem Progress.resume (progress : Progress seen conn) (receiving : conn.pc ≠ .receive)
    (ret : Ret) : Progress seen (conn.resume ret) := by
  have resumed := resume_cases conn ret
  generalize conn.resume ret = next at resumed ⊢
  cases resumed with
  | hangsUp place | waits place | fills place => exact absurd place receiving
  | stays place => exact progress
  | @enters inBytesRead place =>
      simp only [Progress, place] at progress
      apply Progress.nextLine
      rw [if_pos progress.1]
      have same : Connection.textLines
          { conn with
            inBuffer := conn.inBuffer.set inBytesRead.toNat 0
            prevNewline := 0 } =
          LineStream.lines newline (cstr (conn.inBuffer.take inBytesRead.toNat)) := by
        rw [← cstr_set]
        rfl
      rw [same]
      exact progress.2
  | finishes place =>
      simp only [Progress, place] at progress
      exact Progress.finishLine progress
  | refused place | breaks place =>
      simp only [Progress, place] at progress
      rw [← progress]
      exact List.prefix_append _ _
  | sought place | stores place | stored place | rewound place | reads place | responds place
  | responded place | unlocks place | leaves place =>
      simp only [Progress, place] at progress
      exact progress

end Steps

namespace Session

variable {device : FileModel} {seen : List Bytes} {session : Session device}

theorem progress_step (progress : Progress seen session.conn)
    (receiving : session.conn.pc ≠ .receive) : Progress seen session.step.conn := by
  rcases session.step_conn with same | ⟨ret, returned⟩
  · rw [same]
    exact progress
  · rw [returned]
    exact progress.resume receiving ret

theorem progress_receive (progress : Progress seen session.conn)
    (place : session.conn.pc = .receive) {result : SockRead} {later : List SockRead}
    (arrives : session.reads = result :: later) :
    Progress (seen ++ result.lines) session.step.conn := by
  simp only [Progress, place] at progress
  rw [step_receive place arrives]
  cases result with
  | chunk chunk =>
      rw [received_chunk]
      refine ⟨Int.natCast_nonneg _, ?_⟩
      change session.conn.answers.map Answer.line ++ LineStream.lines newline
        (cstr ((chunk.bytes ++ session.conn.inBuffer.drop chunk.bytes.length).take
          (chunk.bytes.length : Int).toNat)) = _
      rw [Int.toNat_natCast, List.take_left, progress]
      rfl
  | notReady =>
      rw [received_notReady]
      simp only [Progress, place, SockRead.lines, List.append_nil]
      exact progress
  | closed =>
      rw [received_closed]
      change session.conn.answers.map Answer.line <+: seen ++ []
      rw [progress, List.append_nil]

end Session

/-! ### Lines handed to the file -/

def dataOf (lines : List Bytes) : List Bytes := lines.filter fun line => !decide (IsSeek line)

theorem dataOf_append (first second : List Bytes) :
    dataOf (first ++ second) = dataOf first ++ dataOf second := List.filter_append first second

theorem dataOf_cons_data {line : Bytes} (data : ¬ IsSeek line) (later : List Bytes) :
    dataOf (line :: later) = line :: dataOf later := by
  simp [dataOf, data]

theorem dataOf_cons_seek {line : Bytes} (seek : IsSeek line) (later : List Bytes) :
    dataOf (line :: later) = dataOf later := by
  simp [dataOf, seek]

/-- What a thread has handed to `write_buffer(file_fd, …)` of the lines `seen`, and what
it still has to. -/
def Handed (seen : List Bytes) (conn : Connection) : Prop :=
  match conn.pc with
  | .receive => conn.passed = dataOf seen
  | .lock inBytesRead =>
      0 ≤ inBytesRead ∧ conn.passed ++
        dataOf (LineStream.lines newline (cstr (conn.inBuffer.take inBytesRead.toNat))) = dataOf seen
  | .unlock => conn.passed = dataOf seen
  | .unlockRefused => conn.passed <+: dataOf seen
  | .returned => conn.passed <+: dataOf seen
  | _ => conn.passed ++ dataOf conn.skipped.textLines = dataOf seen

section Handed

variable {seen : List Bytes} {conn : Connection}

theorem Handed.nextLine (left : conn.passed ++ dataOf conn.textLines = dataOf seen) :
    Handed seen conn.nextLine := by
  have head := nextLine_cases conn
  generalize conn.nextLine = next at head ⊢
  cases head with
  | done absent =>
      rw [textLines_of_strchr_none absent] at left
      exact (List.append_nil _).symm.trans left
  | data found isData =>
      rw [textLines_of_strchr_some found, dataOf_cons_data isData, List.append_cons] at left
      exact left
  | seek found seek seekto =>
      rw [textLines_of_strchr_some found, dataOf_cons_seek seek] at left
      exact left
  | unconverted found seek =>
      rw [textLines_of_strchr_some found, dataOf_cons_seek seek] at left
      exact left

/-- Whatever a call returns, no data line is left out or handed on twice. -/
theorem Handed.resume (handed : Handed seen conn) (receiving : conn.pc ≠ .receive)
    (ret : Ret) : Handed seen (conn.resume ret) := by
  have resumed := resume_cases conn ret
  generalize conn.resume ret = next at resumed ⊢
  cases resumed with
  | hangsUp place | waits place | fills place => exact absurd place receiving
  | stays place => exact handed
  | @enters inBytesRead place =>
      simp only [Handed, place] at handed
      apply Handed.nextLine
      rw [if_pos handed.1]
      have same : Connection.textLines
          { conn with
            inBuffer := conn.inBuffer.set inBytesRead.toNat 0
            prevNewline := 0 } =
          LineStream.lines newline (cstr (conn.inBuffer.take inBytesRead.toNat)) := by
        rw [← cstr_set]
        rfl
      rw [same]
      exact handed.2
  | finishes place =>
      simp only [Handed, place] at handed
      exact Handed.nextLine handed
  | refused place | breaks place =>
      simp only [Handed, place] at handed
      rw [Handed, ← handed]
      exact List.prefix_append _ _
  | sought place | stores place | stored place | rewound place | reads place | responds place
  | responded place | unlocks place | leaves place =>
      simp only [Handed, place] at handed
      exact handed

/-- Also a thread that has broken off has handed on nothing else. -/
theorem Handed.within (handed : Handed seen conn) : conn.passed <+: dataOf seen := by
  unfold Handed at handed
  split at handed
  · rw [handed]
  · rw [← handed.2]
    exact List.prefix_append _ _
  · rw [handed]
  · exact handed
  · exact handed
  · rw [← handed]
    exact List.prefix_append _ _

end Handed

namespace Session

variable {device : FileModel} {seen : List Bytes} {session : Session device}

theorem handed_step (handed : Handed seen session.conn)
    (receiving : session.conn.pc ≠ .receive) : Handed seen session.step.conn := by
  rcases session.step_conn with same | ⟨ret, returned⟩
  · rw [same]
    exact handed
  · rw [returned]
    exact handed.resume receiving ret

theorem handed_receive (handed : Handed seen session.conn)
    (place : session.conn.pc = .receive) {result : SockRead} {later : List SockRead}
    (arrives : session.reads = result :: later) :
    Handed (seen ++ result.lines) session.step.conn := by
  simp only [Handed, place] at handed
  rw [step_receive place arrives]
  cases result with
  | chunk chunk =>
      rw [received_chunk]
      refine ⟨Int.natCast_nonneg _, ?_⟩
      change session.conn.passed ++ dataOf (LineStream.lines newline
        (cstr ((chunk.bytes ++ session.conn.inBuffer.drop chunk.bytes.length).take
          (chunk.bytes.length : Int).toNat))) = _
      rw [Int.toNat_natCast, List.take_left, handed, dataOf_append]
      rfl
  | notReady =>
      rw [received_notReady]
      simp only [Handed, place, SockRead.lines, List.append_nil]
      exact handed
  | closed =>
      rw [received_closed]
      change session.conn.passed <+: dataOf (seen ++ [])
      rw [handed, List.append_nil]

end Session

/-! ### Data lines and NULs -/

def nulFree (line : Bytes) : Bool := decide (0 ∉ line)

theorem nulFree_iff {line : Bytes} : nulFree line = true ↔ 0 ∉ line := decide_eq_true_iff

def isDataLine (line : Bytes) : Bool := decide (0 ∉ line ∧ ¬ IsSeek line)

def SockRead.dataLines : SockRead → List Bytes
  | .chunk received => (LineStream.lines newline received.bytes).filter isDataLine
  | _ => []

/-- No line with a NUL stands before a data line of the chunk. -/
def Chunk.DataBeforeNul (chunk : Chunk) : Prop :=
  AtEachStep (fun before line => isDataLine line = true → ∀ earlier ∈ before, 0 ∉ earlier)
    (lines newline chunk.bytes)

theorem zero_mem_of_stop {records later : List Bytes} {line : Bytes}
    (stop : records.dropWhile nulFree = line :: later) : 0 ∈ line := by
  have head := List.head?_dropWhile_not nulFree records
  rw [stop] at head
  simpa [nulFree] using head

/-- The server sees the lines before the first one with a NUL. -/
theorem lines_cstr_eq_takeWhile (bytes : Bytes) :
    lines newline (cstr bytes) = (lines newline bytes).takeWhile nulFree := by
  have parts : (lines newline bytes).takeWhile nulFree ++ (lines newline bytes).dropWhile nulFree =
      lines newline bytes := List.takeWhile_append_dropWhile
  have clean : 0 ∉ ((lines newline bytes).takeWhile nulFree).flatten := by
    intro member
    obtain ⟨line, inside, zero⟩ := List.mem_flatten.mp member
    exact nulFree_iff.mp (List.mem_takeWhile_imp inside) zero
  cases stop : (lines newline bytes).dropWhile nulFree with
  | nil =>
      rw [stop, List.append_nil] at parts
      rw [parts] at clean ⊢
      exact lines_cstr clean
  | cons line later =>
      rw [stop] at parts
      have zero := zero_mem_of_stop stop
      obtain ⟨body, rfl, absent⟩ : IsLine newline line := by
        apply isLine_of_mem_lines newline bytes
        rw [← parts]
        simp
      have zeroBody : 0 ∈ body := by
        rcases List.mem_append.mp zero with inside | last
        · exact inside
        · simp [newline] at last
      have string : cstr bytes =
          ((lines newline bytes).takeWhile nulFree).flatten ++ cstr body := by
        conv_lhs => rw [← lines_flatten_append_rest newline bytes, ← parts]
        rw [List.flatten_append, List.append_assoc, cstr_append_of_not_mem clean,
          List.flatten_cons, List.append_assoc, List.append_assoc,
          (cstr_append_of_mem zeroBody _).1]
      have absentString : newline ∉ cstr body := fun member =>
        absent ((List.takeWhile_prefix _).subset member)
      rw [string, lines, split_flatten_append newline _ _ ?_ absentString]
      intro record member
      exact isLine_of_mem_lines newline bytes record ((List.takeWhile_prefix _).subset member)

/-- The data lines in front of the first NUL, which are those the server sees. -/
def SockRead.seenData (result : SockRead) : List Bytes :=
  result.lines.filter fun line => !decide (IsSeek line)

theorem dataOf_flatMap (results : List SockRead) :
    dataOf (results.flatMap SockRead.lines) = results.flatMap SockRead.seenData :=
  List.filter_flatMap

theorem dataLines_chunk (chunk : Chunk) :
    (SockRead.chunk chunk).dataLines = (SockRead.chunk chunk).seenData ++
      ((lines newline chunk.bytes).dropWhile nulFree).filter isDataLine := by
  have seen : (SockRead.chunk chunk).seenData =
      ((lines newline chunk.bytes).takeWhile nulFree).filter isDataLine := by
    change (lines newline (cstr chunk.bytes)).filter _ = _
    rw [lines_cstr_eq_takeWhile]
    apply List.filter_congr
    intro line member
    have clean := nulFree_iff.mp (List.mem_takeWhile_imp member)
    simp [isDataLine, clean]
  rw [seen, ← List.filter_append, List.takeWhile_append_dropWhile]
  rfl

theorem seenData_prefix (result : SockRead) : result.seenData <+: result.dataLines := by
  cases result with
  | chunk chunk =>
      rw [dataLines_chunk]
      exact List.prefix_append _ _
  | notReady => exact List.prefix_refl _
  | closed => exact List.prefix_refl _

/-- All data lines of a chunk are seen exactly when none stands behind a NUL. -/
theorem seenData_eq_iff (chunk : Chunk) :
    (SockRead.chunk chunk).seenData = (SockRead.chunk chunk).dataLines ↔ chunk.DataBeforeNul := by
  rw [dataLines_chunk]
  constructor
  · intro equal
    have none := List.append_cancel_left ((List.append_nil _).trans equal)
    intro before line after split isData earlier member zero
    have dirty : ¬ ((before.dropWhile nulFree).isEmpty = true) := by
      rw [List.isEmpty_iff, List.dropWhile_eq_nil_iff]
      intro clean
      exact nulFree_iff.mp (clean earlier member) zero
    rw [split, List.dropWhile_append, if_neg dirty, eq_comm, List.filter_eq_nil_iff] at none
    exact none line (by simp) isData
  · intro ordered
    have nothing : ((lines newline chunk.bytes).dropWhile nulFree).filter isDataLine = [] := by
      rw [List.filter_eq_nil_iff]
      intro line member isData
      obtain ⟨front, back, split⟩ := List.append_of_mem member
      have whole : lines newline chunk.bytes =
          ((lines newline chunk.bytes).takeWhile nulFree ++ front) ++ line :: back := by
        rw [List.append_assoc, ← split, List.takeWhile_append_dropWhile]
      cases front with
      | nil =>
          have clean : 0 ∉ line := (of_decide_eq_true isData).1
          exact clean (zero_mem_of_stop split)
      | cons first others =>
          have zero := zero_mem_of_stop split
          exact ordered _ line back whole isData first (by simp) zero
    rw [nothing, List.append_nil]

end Aesd.Server
