/-
The critical section of one session.

Against a peer that takes everything at once, a section is followed line by
line: a data line is stored and the file read back, a seek command moves the
position and the file is read back from there, or the command is refused and
the section ends.
-/

import Aesd.Server.LineLoop
import Aesd.Server.Session

namespace Aesd.Server

open Driver LineStream

def Connection.answered (conn : Connection) (outBuffer sent : Bytes) : Connection :=
  { conn.skipped with
    outBuffer := outBuffer
    answers := conn.answers ++ [{ line := conn.line, sent := sent }]
    sent := [] }

namespace Session

variable {device : FileModel}

/-- The peer takes any response in one piece. -/
def Ideal (session : Session device) : Prop :=
  session.writes = fun _ => .accepts outBufferSize

/-! ### The read loop -/

theorem respond_ideal {session : Session device} (ideal : session.Ideal)
    (place : session.conn.pc = .respond 0) (nonempty : session.conn.outBuffer ≠ [])
    (fits : session.conn.outBuffer.length ≤ outBufferSize) :
    session.step =
      { session with
        conn := { session.conn with
          pc := .readBack
          sent := session.conn.sent ++ session.conn.outBuffer } } := by
  have positive := List.length_pos_iff.mpr nonempty
  have whole : min (outBufferSize + 1) session.conn.outBuffer.length
      = session.conn.outBuffer.length := Nat.min_eq_right (by omega)
  have accepted : writeBufferStep session.conn.outBuffer.length 0
      (session.conn.outBuffer.length : Int) = .written := by
    simp [writeBufferStep]
  rw [step_respond place]
  unfold Ideal at ideal
  rw [ideal]
  simp only [Connection.resume, place, SockWrite.ret, List.drop_zero, whole, accepted,
    Int.toNat_natCast, List.take_length]
  simp

theorem readBack_reaches {file final : device.State} {bytes : Bytes}
    (drains : Drains device file bytes final) (session : Session device) (ideal : session.Ideal)
    (opened : session.file = file) (place : session.conn.pc = .readBack) :
    ∃ operations outBuffer, Reaches step session
      { session with
        file := final
        operations := operations
        conn := (session.conn.answered outBuffer (session.conn.sent ++ bytes)).nextLine } := by
  induction drains generalizing session with
  | @done file next ret served none =>
      subst opened
      have calls : session.conn.call = some (.file (.read outBufferSize)) := by
        rw [Connection.call, place]
      have finishes : session.conn.resume ret =
          (session.conn.answered session.conn.outBuffer session.conn.sent).nextLine := by
        simp only [Connection.resume, place, none, lt_irrefl, if_false]
        rfl
      refine ⟨session.operations ++ [.read outBufferSize], session.conn.outBuffer, ?_⟩
      apply Reaches.one
      rw [step_file calls, served, finishes, List.append_nil]
  | @more file next final bytes ret served some later ih =>
      subst opened
      have calls : session.conn.call = Option.some (.file (.read outBufferSize)) := by
        rw [Connection.call, place]
      have counts := device.readCounts session.file
      have fits := device.readFits session.file
      rw [served] at counts fits
      have nonempty : ret.data ≠ [] := by
        intro empty
        rw [counts, empty] at some
        simp at some
      have first := step_file calls
      rw [served] at first
      simp only [Connection.resume, place, some, if_true] at first
      obtain ⟨operations, outBuffer, reached⟩ := ih
        { session with
          file := next
          operations := session.operations ++ [.read outBufferSize]
          conn := { session.conn with
            pc := .readBack
            outBuffer := ret.data
            sent := session.conn.sent ++ ret.data } }
        ideal rfl rfl
      rw [List.append_assoc] at reached
      refine ⟨operations, outBuffer, Reaches.head first (Reaches.head ?_ reached)⟩
      exact respond_ideal ideal rfl nonempty fits

/-! ### Storing a line -/

theorem store_reaches {file final : device.State} {bytes : Bytes}
    (stores : Stores device file bytes final) (session : Session device)
    (opened : session.file = file) (written : Nat)
    (place : session.conn.pc = .storeLine written)
    (left : session.conn.line.drop written = bytes)
    (size : session.conn.line.length = session.conn.length)
    (inside : written < session.conn.length) :
    ∃ operations, Reaches step session
      { session with
        file := final
        operations := operations
        conn := { session.conn with pc := .rewind } } := by
  induction stores generalizing session written with
  | @last file next bytes ret served all =>
      subst opened left
      have calls : session.conn.call = some (.file (.write (session.conn.line.drop written))) := by
        rw [Connection.call, place]
      rw [List.length_drop, size] at all
      have whole : ¬ written + ret.value.toNat < session.conn.length := by omega
      refine ⟨session.operations ++ [.write (session.conn.line.drop written)], ?_⟩
      apply Reaches.one
      rw [step_file calls, served]
      by_cases negative : ret.value < 0
      · simp [Connection.resume, place, writeBufferStep, negative]
      · simp [Connection.resume, place, writeBufferStep, negative, whole]
  | @more file next final bytes ret served some later ih =>
      subst opened left
      have calls : session.conn.call =
          Option.some (.file (.write (session.conn.line.drop written))) := by
        rw [Connection.call, place]
      have nonempty : session.conn.line.drop written ≠ [] := by
        rw [Ne, List.drop_eq_nil_iff]
        omega
      have progress := device.writeAccepts session.file _ nonempty
      rw [served] at progress
      change 0 < ret.value at progress
      rw [List.length_drop, size] at some
      have partly : written + ret.value.toNat < session.conn.length := by omega
      have nonnegative : ¬ ret.value < 0 := by omega
      have first := step_file calls
      rw [served] at first
      simp only [Connection.resume, place, writeBufferStep, nonnegative, partly, if_true,
        if_false] at first
      have reached := ih session.step
      rw [first] at reached
      obtain ⟨operations, finished⟩ := reached rfl _ rfl (by rw [List.drop_drop]; rfl) size partly
      exact ⟨operations, Reaches.head first finished⟩

theorem step_rewind {session : Session device} (place : session.conn.pc = .rewind) :
    session.step =
      { session with
        file := (device.serve session.file .lseekSet).1
        operations := session.operations ++ [.lseekSet]
        conn := { session.conn with pc := .readBack } } := by
  have calls : session.conn.call = some (.file .lseekSet) := by rw [Connection.call, place]
  rw [step_file calls, Connection.resume, place]

/-! ### One line -/

/-- A data line is stored, the file rewound and read back. -/
theorem data_reaches {session : Session device} (ideal : session.Ideal) {conn : Connection}
    {newlineChar : Nat}
    (head : session.conn =
      { conn.scanned newlineChar with
        pc := .storeLine 0
        passed := conn.passed ++ [(conn.scanned newlineChar).line] })
    (found : strchr conn.text newline = some newlineChar)
    {stored final : device.State} {bytes : Bytes}
    (stores : Stores device session.file (conn.scanned newlineChar).line stored)
    (drains : Drains device (device.serve stored .lseekSet).1 bytes final) :
    ∃ operations outBuffer, Reaches step session
      { session with
        file := final
        operations := operations
        conn := Connection.nextLine
          { (conn.scanned newlineChar).answered outBuffer (conn.sent ++ bytes) with
            passed := conn.passed ++ [(conn.scanned newlineChar).line] } } := by
  obtain ⟨storing, afterStore⟩ := store_reaches stores session rfl 0
    (by rw [head]) (by rw [head]; rfl)
    (by rw [head]; exact scanned_line_length found) (by rw [head]; exact Nat.succ_pos _)
  rw [head] at afterStore
  obtain ⟨operations, outBuffer, finished⟩ := readBack_reaches drains
    { session with
      file := (device.serve stored .lseekSet).1
      operations := storing ++ [.lseekSet]
      conn :=
        { conn.scanned newlineChar with
          pc := .readBack
          passed := conn.passed ++ [(conn.scanned newlineChar).line] } }
    ideal rfl rfl
  exact ⟨operations, outBuffer, afterStore.trans (Reaches.head (step_rewind rfl) finished)⟩

theorem seek_reaches (session : Session device) (ideal : session.Ideal) {conn : Connection}
    {newlineChar : Nat} {seekto : AesdSeekto}
    (head : session.conn = { conn.scanned newlineChar with pc := .ioctl seekto })
    {next final : device.State} {ret : Ret} {bytes : Bytes}
    (served : device.serve session.file (.ioctl seekto) = (next, ret))
    (accepts : ¬ ret.value < 0) (drains : Drains device next bytes final) :
    ∃ operations outBuffer, Reaches step session
      { session with
        file := final
        operations := operations
        conn := ((conn.scanned newlineChar).answered outBuffer (conn.sent ++ bytes)).nextLine } := by
  have calls : session.conn.call = some (.file (.ioctl seekto)) := by rw [head]; rfl
  have first := step_file calls
  rw [head, served] at first
  simp only [Connection.resume, accepts, if_false] at first
  obtain ⟨operations, outBuffer, finished⟩ := readBack_reaches drains
    { session with
      file := next
      operations := session.operations ++ [.ioctl seekto]
      conn := { conn.scanned newlineChar with pc := .readBack } }
    ideal rfl rfl
  exact ⟨operations, outBuffer, Reaches.head first finished⟩

theorem refused_reaches (session : Session device) {conn : Connection} {newlineChar : Nat}
    {seekto : AesdSeekto}
    (head : session.conn = { conn.scanned newlineChar with pc := .ioctl seekto })
    {next : device.State} {ret : Ret}
    (served : device.serve session.file (.ioctl seekto) = (next, ret)) (refuses : ret.value < 0) :
    Reaches step session
      { session with
        file := next
        operations := session.operations ++ [.ioctl seekto]
        conn := { conn.scanned newlineChar with pc := .unlockRefused } } := by
  have calls : session.conn.call = some (.file (.ioctl seekto)) := by rw [head]; rfl
  apply Reaches.one
  rw [step_file calls, head, served]
  simp only [Connection.resume, refuses, if_true]

/-! ### The whole section -/

structure SectionEnd (start final : Connection) : Prop where
  place : final.pc = .unlock ∨ final.pc = .unlockRefused
  passed : ∃ passed, final.passed = start.passed ++ passed ∧ passed.Sublist start.textLines
  plain : (∀ line ∈ start.textLines, ¬ IsSeek line) →
    final.pc = .unlock ∧ final.passed = start.passed ++ start.textLines

theorem SectionEnd.data {start next final : Connection} {line : Bytes}
    (later : SectionEnd next final) (taken : start.textLines = line :: next.textLines)
    (stored : next.passed = start.passed ++ [line]) :
    SectionEnd start final := by
  constructor
  · exact later.place
  · obtain ⟨passed, more, order⟩ := later.passed
    refine ⟨line :: passed, ?_, ?_⟩
    · rw [more, stored, List.append_assoc]
      rfl
    · rw [taken]
      exact List.Sublist.cons_cons line order
  · intro plain
    rw [taken] at plain
    obtain ⟨place, more⟩ := later.plain fun other member =>
      plain other (List.mem_cons_of_mem line member)
    refine ⟨place, ?_⟩
    rw [more, stored, taken, List.append_assoc]
    rfl

theorem SectionEnd.seek {start next final : Connection} {line : Bytes}
    (later : SectionEnd next final) (taken : start.textLines = line :: next.textLines)
    (seek : IsSeek line) (same : next.passed = start.passed) :
    SectionEnd start final := by
  constructor
  · exact later.place
  · obtain ⟨passed, more, order⟩ := later.passed
    rw [same] at more
    refine ⟨passed, more, ?_⟩
    rw [taken]
    exact List.Sublist.cons line order
  · intro plain
    rw [taken] at plain
    exact absurd seek (plain line List.mem_cons_self)

theorem SectionEnd.none {start : Connection} (absent : strchr start.text newline = none) :
    SectionEnd start { start with pc := .unlock } := by
  have nothing := textLines_of_strchr_none absent
  constructor
  · exact Or.inl rfl
  · exact ⟨[], by simp, List.nil_sublist _⟩
  · intro _
    simp [nothing]

theorem SectionEnd.refused {start : Connection} {newlineChar : Nat}
    (found : strchr start.text newline = some newlineChar)
    (seek : IsSeek (start.scanned newlineChar).line) :
    SectionEnd start { start.scanned newlineChar with pc := .unlockRefused } := by
  constructor
  · exact Or.inr rfl
  · exact ⟨[], by simp [Connection.scanned], List.nil_sublist _⟩
  · intro plain
    rw [textLines_of_strchr_some found] at plain
    exact absurd seek (plain _ List.mem_cons_self)

/-- Where a round of the line loop leads: to the end of the section, or to the
head of the loop with one line less. -/
inductive RoundEnd (start : Connection) : Connection → Prop
  | ended {final : Connection} (ends : SectionEnd start final) : RoundEnd start final
  | again {next : Connection} {line : Bytes} (taken : start.textLines = line :: next.textLines)
      (extending : ∀ final, SectionEnd next final → SectionEnd start final) :
      RoundEnd start next.nextLine

theorem round_reaches (session : Session device) (ideal : session.Ideal) (conn : Connection)
    (head : session.conn = conn.nextLine) :
    ∃ file operations final,
      Reaches step session
        { session with file := file, operations := operations, conn := final } ∧
      RoundEnd conn final := by
  have round := nextLine_cases conn
  generalize conn.nextLine = first at head round
  cases round with
  | done absent =>
      refine ⟨session.file, session.operations, session.conn, Reaches.refl _ _, ?_⟩
      rw [head]
      exact RoundEnd.ended (SectionEnd.none absent)
  | @data newlineChar found isData =>
      have taken := textLines_of_strchr_some found
      obtain ⟨stored, stores⟩ := exists_stores device session.file
        (conn.scanned newlineChar).line (scanned_line_isLine found).ne_nil
      obtain ⟨bytes, drained, drains⟩ := exists_drains device (device.serve stored .lseekSet).1
      obtain ⟨operations, outBuffer, answered⟩ := data_reaches ideal head found stores drains
      exact ⟨_, _, _, answered, RoundEnd.again taken fun final ends => ends.data taken rfl⟩
  | @seek newlineChar found seek seekto =>
      have taken := textLines_of_strchr_some found
      by_cases refuses : (device.serve session.file (.ioctl seekto)).2.value < 0
      · exact ⟨_, _, _, refused_reaches session head rfl refuses,
          RoundEnd.ended (SectionEnd.refused found seek)⟩
      · obtain ⟨bytes, drained, drains⟩ := exists_drains device
          (device.serve session.file (.ioctl seekto)).1
        obtain ⟨operations, outBuffer, answered⟩ :=
          seek_reaches session ideal head rfl refuses drains
        exact ⟨_, _, _, answered, RoundEnd.again taken fun final ends => ends.seek taken seek rfl⟩
  | @unconverted newlineChar found seek =>
      have taken := textLines_of_strchr_some found
      obtain ⟨bytes, drained, drains⟩ := exists_drains device session.file
      obtain ⟨operations, outBuffer, answered⟩ := readBack_reaches drains session ideal rfl
        (by rw [head])
      rw [head] at answered
      exact ⟨_, _, _, answered, RoundEnd.again taken fun final ends => ends.seek taken seek rfl⟩

/-- From the head of the line loop the section comes to its end. -/
theorem section_reaches (conn : Connection) (session : Session device) (ideal : session.Ideal)
    (head : session.conn = conn.nextLine) :
    ∃ file operations final,
      Reaches step session
        { session with file := file, operations := operations, conn := final } ∧
      SectionEnd conn final := by
  induction remaining : conn.textLines generalizing conn session with
  | nil =>
      obtain ⟨file, operations, final, reached, round⟩ := round_reaches session ideal conn head
      cases round with
      | ended ends => exact ⟨file, operations, final, reached, ends⟩
      | again taken extending =>
          rw [remaining] at taken
          cases taken
  | cons line later ih =>
      obtain ⟨file, operations, final, reached, round⟩ := round_reaches session ideal conn head
      cases round with
      | ended ends => exact ⟨file, operations, final, reached, ends⟩
      | @again next line taken extending =>
          rw [remaining] at taken
          obtain ⟨lastFile, lastOperations, last, finished, ends⟩ := ih next
            { session with file := file, operations := operations, conn := next.nextLine }
            ideal rfl (List.cons.inj taken).2.symm
          exact ⟨lastFile, lastOperations, last, reached.trans finished, extending last ends⟩

end Session

end Aesd.Server
