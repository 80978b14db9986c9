/-
How the socket cuts a client's stream.

The server looks at every chunk alone, as a C string, and forgets what follows
its last newline. What it passes to the file is therefore the lines of the
stream exactly when the cuts that matter fall behind newlines and no NUL stands
in a line.
-/

import Mathlib.Data.List.Flatten
import Aesd.Server.Readiness

namespace Aesd.Server

open Driver LineStream

/-! ### Chunks as strings -/

theorem cstr_append_of_mem {left : Bytes} (member : 0 ∈ left) (right : Bytes) :
    cstr (left ++ right) = cstr left ∧ (cstr left).length < left.length := by
  have start : cstr left <+: left := List.takeWhile_prefix _
  have shorter : (cstr left).length ≠ left.length := by
    intro same
    have whole := start.eq_of_length same
    rw [← whole] at member
    exact zero_not_mem_cstr left member
  constructor
  · unfold cstr at shorter ⊢
    rw [List.takeWhile_append, if_neg shorter]
  · exact Nat.lt_of_le_of_ne start.length_le shorter

theorem cstr_append_of_not_mem {left : Bytes} (clean : 0 ∉ left) (right : Bytes) :
    cstr (left ++ right) = left ++ cstr right := by
  apply List.takeWhile_append_of_pos
  intro byte member
  simp only [ne_eq, decide_eq_true_eq]
  rintro rfl
  exact clean member

theorem lines_cstr {bytes : Bytes} (clean : 0 ∉ (lines newline bytes).flatten) :
    lines newline (cstr bytes) = lines newline bytes := by
  have string : cstr bytes = (lines newline bytes).flatten ++ cstr (rest newline bytes) := by
    rw [← cstr_append_of_not_mem clean, lines_flatten_append_rest]
  have absent : newline ∉ cstr (rest newline bytes) := fun member =>
    sep_not_mem_rest newline bytes ((List.takeWhile_prefix _).subset member)
  rw [string, lines, split_flatten_append newline _ _ (isLine_of_mem_lines newline bytes) absent]

theorem lines_cstr_length_lt {bytes : Bytes} (dirty : 0 ∈ (lines newline bytes).flatten) :
    (lines newline (cstr bytes)).flatten.length < (lines newline bytes).flatten.length := by
  obtain ⟨string, shorter⟩ := cstr_append_of_mem dirty (rest newline bytes)
  rw [lines_flatten_append_rest] at string
  have total := lines_flatten_length newline (cstr bytes)
  rw [string] at total ⊢
  omega

theorem lines_cstr_length_le (bytes : Bytes) :
    (lines newline (cstr bytes)).flatten.length ≤ (lines newline bytes).flatten.length := by
  by_cases dirty : 0 ∈ (lines newline bytes).flatten
  · exact Nat.le_of_lt (lines_cstr_length_lt dirty)
  · rw [lines_cstr dirty]

/-! ### Alignment -/

/-- No NUL stands in a line of a chunk, and every chunk before the stream's last
newline ends in a newline. -/
def Aligned : List Bytes → Prop
  | [] => True
  | chunk :: later =>
      0 ∉ (lines newline chunk).flatten ∧
        (newline ∈ later.flatten → rest newline chunk = []) ∧ Aligned later

def seenLines (chunks : List Bytes) : List Bytes :=
  chunks.flatMap fun chunk => lines newline (cstr chunk)

theorem seenLines_cons (chunk : Bytes) (later : List Bytes) :
    seenLines (chunk :: later) = lines newline (cstr chunk) ++ seenLines later :=
  List.flatMap_cons

theorem seenLines_of_not_mem {chunks : List Bytes} (absent : newline ∉ chunks.flatten) :
    seenLines chunks = [] := by
  induction chunks with
  | nil => rfl
  | cons chunk later ih =>
      rw [List.flatten_cons, List.mem_append, not_or] at absent
      rw [seenLines_cons, ih absent.2, lines_of_not_mem]
      · rfl
      · exact fun member => absent.1 ((List.takeWhile_prefix _).subset member)

theorem Aligned.seenLines_eq {chunks : List Bytes} (aligned : Aligned chunks) :
    seenLines chunks = lines newline chunks.flatten := by
  induction chunks with
  | nil => rfl
  | cons chunk later ih =>
      obtain ⟨clean, ends, alignedLater⟩ := aligned
      rw [seenLines_cons, lines_cstr clean, List.flatten_cons, lines_append]
      congr 1
      by_cases more : newline ∈ later.flatten
      · rw [ends more, List.nil_append]
        exact ih alignedLater
      · rw [seenLines_of_not_mem more, lines_of_not_mem]
        intro member
        rcases List.mem_append.mp member with before | after
        · exact sep_not_mem_rest newline chunk before
        · exact more after

theorem lines_append_length (left : Bytes) {right : Bytes} (member : newline ∈ right) :
    (lines newline (left ++ right)).flatten.length =
      left.length + (lines newline right).flatten.length := by
  have whole := lines_flatten_length newline (left ++ right)
  have part := lines_flatten_length newline right
  rw [rest_append_of_mem left member, List.length_append] at whole
  omega

theorem lines_append_length_of_not_mem (left : Bytes) {right : Bytes}
    (absent : newline ∉ right) :
    (lines newline (left ++ right)).flatten.length = (lines newline left).flatten.length := by
  have nothing : lines newline (rest newline left ++ right) = [] := by
    apply lines_of_not_mem
    intro member
    rcases List.mem_append.mp member with before | after
    · exact sep_not_mem_rest newline left before
    · exact absent after
  rw [lines_append, nothing, List.append_nil]

theorem seenLines_length_le (chunks : List Bytes) :
    (seenLines chunks).flatten.length ≤ (lines newline chunks.flatten).flatten.length := by
  induction chunks with
  | nil => exact Nat.le_refl _
  | cons chunk later ih =>
      have seen := lines_cstr_length_le chunk
      have chunkLength := lines_flatten_length newline chunk
      rw [seenLines_cons, List.flatten_append, List.length_append, List.flatten_cons]
      by_cases more : newline ∈ later.flatten
      · rw [lines_append_length chunk more]
        omega
      · rw [lines_append_length_of_not_mem chunk more, seenLines_of_not_mem more]
        simpa using seen

/-- Bytes are lost unless the chunks are aligned. -/
theorem aligned_of_length_le {chunks : List Bytes}
    (all : (lines newline chunks.flatten).flatten.length ≤ (seenLines chunks).flatten.length) :
    Aligned chunks := by
  induction chunks with
  | nil => trivial
  | cons chunk later ih =>
      have seen := lines_cstr_length_le chunk
      have chunkLength := lines_flatten_length newline chunk
      have laterSeen := seenLines_length_le later
      have clean (whole : (lines newline chunk).flatten.length ≤
          (lines newline (cstr chunk)).flatten.length) : 0 ∉ (lines newline chunk).flatten :=
        fun dirty => absurd (lines_cstr_length_lt dirty) (Nat.not_lt.mpr whole)
      rw [seenLines_cons, List.flatten_append, List.length_append, List.flatten_cons] at all
      by_cases more : newline ∈ later.flatten
      · rw [lines_append_length chunk more] at all
        refine ⟨clean (by omega), ?_, ih (by omega)⟩
        intro _
        exact List.eq_nil_of_length_eq_zero (by omega)
      · rw [lines_append_length_of_not_mem chunk more, seenLines_of_not_mem more] at all
        refine ⟨clean (by simpa using all), fun member => absurd member more, ih ?_⟩
        rw [lines_of_not_mem more]
        exact Nat.zero_le _

/-! ### What is passed to the file -/

namespace Session

variable {device : FileModel}

def sending (tid : Nat) (file : device.State) (chunks : List Chunk) (taken : Nat → Nat) :
    Session device :=
  accepted tid file (chunks.map .chunk) fun index => .accepts (taken index)

/-- All chunks are received, and the strings passed to `write_buffer(file_fd, …)`
are the lines of the stream. -/
def PassesLines (session : Session device) (stream : Bytes) : Prop :=
  ∃ final, Reaches step session final ∧ final.conn.pc = .receive ∧ final.reads = [] ∧
    final.conn.passed = lines newline stream

theorem flatMap_textLines (chunks : List Chunk) :
    chunks.flatMap Chunk.textLines = seenLines (chunks.map Chunk.bytes) := by
  unfold seenLines
  rw [List.flatMap_map]
  rfl

theorem sending_ends (tid : Nat) (file : device.State) (chunks : List Chunk) (taken : Nat → Nat) :
    ∃ last, Reaches step (sending tid file chunks taken) last ∧
      StreamEnd chunks Connection.accepted last := by
  have ready : (chunks.map SockRead.chunk).filter SockRead.ready = chunks.map .chunk := by
    rw [List.filter_eq_self]
    intro result member
    obtain ⟨chunk, _, rfl⟩ := List.mem_map.mp member
    rfl
  have accepting : (sending tid file chunks taken).Accepting :=
    ⟨fun _ impossible => (by cases impossible), rfl⟩
  obtain ⟨final, run, ends⟩ := stream_reaches chunks (sending tid file chunks taken).idealised
    rfl rfl rfl ready
  obtain ⟨last, reached, finished, same⟩ :=
    accepting_ends accepting accepted_responding run ends.finished
  refine ⟨last, reached, finished, ?_, ?_⟩
  · rw [same.conn]
    exact ends.passed
  · rw [same.conn]
    exact ends.plain

/-- What the server passes to the file is the lines of the stream, each once and
in order, exactly when the chunks are aligned. -/
theorem passes_lines_iff_aligned (tid : Nat) (file : device.State) (chunks : List Chunk)
    (taken : Nat → Nat)
    (plain : ∀ line ∈ lines newline (chunks.map Chunk.bytes).flatten, ¬ IsSeek line) :
    (sending tid file chunks taken).PassesLines (chunks.map Chunk.bytes).flatten ↔
      Aligned (chunks.map Chunk.bytes) := by
  obtain ⟨last, reached, ends⟩ := sending_ends tid file chunks taken
  constructor
  · rintro ⟨final, run, place, nothing, passed⟩
    have same : final = last := Reaches.end_unique run reached
      (step_finished (Or.inr ⟨place, nothing⟩)) (step_finished ends.finished)
    subst same
    obtain ⟨some, more, order⟩ := ends.passed
    apply aligned_of_length_le
    rw [passed.symm.trans more, ← flatMap_textLines]
    exact order.flatten.length_le
  · intro aligned
    have seen : chunks.flatMap Chunk.textLines =
        lines newline (chunks.map Chunk.bytes).flatten := by
      rw [flatMap_textLines, aligned.seenLines_eq]
    obtain ⟨place, passed⟩ := ends.plain (by rw [seen]; exact plain)
    refine ⟨last, reached, place, ?_, ?_⟩
    · rcases ends.finished with left | ⟨_, nothing⟩
      · rw [place] at left
        cases left
      · exact nothing
    · rw [passed, seen]
      rfl

def alignedChunks : List Chunk :=
  [ { bytes := [97, 10, 98, 10], nonempty := by decide, fits := by decide },
    { bytes := [99, 10, 100], nonempty := by decide, fits := by decide } ]

theorem passes_lines_aligned :
    (∀ line ∈ lines newline (alignedChunks.map Chunk.bytes).flatten, ¬ IsSeek line) ∧
      ((sending 0 OpenFile.init alignedChunks fun _ => 0 : Session charDevice).PassesLines
          (alignedChunks.map Chunk.bytes).flatten ↔
        Aligned (alignedChunks.map Chunk.bytes)) := by
  have plain : ∀ line ∈ lines newline (alignedChunks.map Chunk.bytes).flatten, ¬ IsSeek line := by
    decide
  exact ⟨plain, passes_lines_iff_aligned 0 _ alignedChunks (fun _ => 0) plain⟩

def cutChunks : List Chunk :=
  [ { bytes := [97], nonempty := by decide, fits := by decide },
    { bytes := [98, 10], nonempty := by decide, fits := by decide } ]

/-- The first piece of a line that arrives in two is lost. -/
theorem cut_line_not_passed :
    ¬ ∀ (device : FileModel) (tid : Nat) (file : device.State) (chunks : List Chunk)
        (taken : Nat → Nat),
      (∀ line ∈ lines newline (chunks.map Chunk.bytes).flatten, ¬ IsSeek line) →
      (sending tid file chunks taken).PassesLines (chunks.map Chunk.bytes).flatten := by
  intro passes
  obtain ⟨final, run, place, nothing, passed⟩ :=
    passes charDevice 0 OpenFile.init cutChunks (fun _ => 0) (by decide)
  have same : final = step^[13] (sending 0 OpenFile.init cutChunks fun _ => 0) :=
    Reaches.end_unique run ⟨13, rfl⟩ (step_finished (Or.inr ⟨place, nothing⟩))
      (step_finished (by decide))
  rw [same] at passed
  exact absurd passed (by decide)

end Session

end Aesd.Server
