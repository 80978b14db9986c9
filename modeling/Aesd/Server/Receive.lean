/-
The receive loop of one session.

A chunk is scanned up to its first NUL. Against an ideal peer every chunk is
followed by the next read or by the return of the function, so the session
uses up all that the peer sends.
-/

import Aesd.Server.Section

namespace Aesd.Server

open Driver LineStream

/-! ### Arrival of a chunk -/

def Chunk.textLines (chunk : Chunk) : List Bytes := lines newline (cstr chunk.bytes)

theorem cstr_set_terminator (bytes behind : Bytes) :
    cstr ((bytes ++ behind).set bytes.length 0) = cstr bytes := by
  induction bytes with
  | nil =>
      cases behind with
      | nil => rfl
      | cons head tail => rfl
  | cons head tail ih =>
      by_cases zero : head = 0
      · simp [cstr, zero]
      · change cstr (head :: (tail ++ behind).set tail.length 0) = cstr (head :: tail)
        rw [cstr_cons_of_ne zero, cstr_cons_of_ne zero, ih]

def Connection.entered (conn : Connection) (chunk : Chunk) : Connection :=
  { conn with
    inBuffer :=
      (chunk.bytes ++ conn.inBuffer.drop chunk.bytes.length).set chunk.bytes.length 0
    prevNewline := 0 }

theorem entered_textLines (conn : Connection) (chunk : Chunk) :
    (conn.entered chunk).textLines = chunk.textLines := by
  unfold Connection.textLines Chunk.textLines
  have same : cstr (conn.entered chunk).text = cstr chunk.bytes := cstr_set_terminator _ _
  rw [same]

theorem entered_text {conn : Connection} {chunk : Chunk}
    (room : chunk.bytes.length < conn.inBuffer.length) :
    (conn.entered chunk).text =
      chunk.bytes ++ 0 :: conn.inBuffer.drop (chunk.bytes.length + 1) := by
  change (chunk.bytes ++ conn.inBuffer.drop chunk.bytes.length).set chunk.bytes.length 0 = _
  rw [List.set_append_right _ _ (Nat.le_refl _), Nat.sub_self,
    List.drop_eq_getElem_cons room, List.set_cons_zero]

theorem received_chunk (conn : Connection) (chunk : Chunk) :
    conn.received (SockRead.chunk chunk).ret =
      { conn with
        pc := .lock chunk.bytes.length
        inBuffer := chunk.bytes ++ conn.inBuffer.drop chunk.bytes.length } := by
  have positive := List.length_pos_iff.mpr chunk.nonempty
  have nonzero : ¬ (SockRead.chunk chunk).ret.value = 0 := by
    change ¬ (chunk.bytes.length : Int) = 0
    omega
  have succeeded : ¬ ((SockRead.chunk chunk).ret.value = -1 ∧
      ((SockRead.chunk chunk).ret.errno = eagain ∨
        (SockRead.chunk chunk).ret.errno = ewouldblock)) := by
    rintro ⟨failed, _⟩
    change (chunk.bytes.length : Int) = -1 at failed
    omega
  rw [Connection.received, if_neg nonzero, if_neg succeeded]
  rfl

theorem received_notReady (conn : Connection) : conn.received SockRead.notReady.ret = conn := rfl

theorem received_closed (conn : Connection) : conn.received SockRead.closed.ret = conn.leave := rfl

theorem locked_chunk (conn : Connection) (chunk : Chunk) :
    Connection.locked
      { conn with
        pc := .lock chunk.bytes.length
        inBuffer := chunk.bytes ++ conn.inBuffer.drop chunk.bytes.length }
      chunk.bytes.length = (conn.entered chunk).nextLine := by
  unfold Connection.locked
  rw [if_pos (Int.natCast_nonneg _), Int.toNat_natCast]
  rfl

namespace Session

variable {device : FileModel}

/-! ### Chunks -/

structure ChunkEnd (chunk : Chunk) (start final : Connection) : Prop where
  place : final.pc = .receive ∨ final.pc = .returned
  passed : ∃ passed, final.passed = start.passed ++ passed ∧ passed.Sublist chunk.textLines
  plain : (∀ line ∈ chunk.textLines, ¬ IsSeek line) →
    final.pc = .receive ∧ final.passed = start.passed ++ chunk.textLines

/-- From the read that returns a chunk to the end of its section. -/
theorem entered_reaches {session : Session device} (ideal : session.Ideal)
    (place : session.conn.pc = .receive) (free : session.fileLock = none) {chunk : Chunk}
    {later : List SockRead} (arrives : session.reads = .chunk chunk :: later) :
    ∃ file operations final,
      Reaches step session
        { session with
          reads := later
          fileLock := some session.tid
          file := file
          operations := operations
          conn := final } ∧
      SectionEnd (session.conn.entered chunk) final := by
  have receives := step_receive place arrives
  rw [received_chunk] at receives
  obtain ⟨file, operations, final, finished, ends⟩ := section_reaches
    (session.conn.entered chunk)
    { session with
      reads := later
      fileLock := some session.tid
      conn := (session.conn.entered chunk).nextLine }
    ideal rfl
  refine ⟨file, operations, final, Reaches.head receives (Reaches.head ?_ finished), ends⟩
  refine (step_lock rfl ?_).trans ?_
  · exact free
  · rw [locked_chunk]

theorem chunk_reaches {session : Session device} (ideal : session.Ideal)
    (place : session.conn.pc = .receive) (free : session.fileLock = none) {chunk : Chunk}
    {later : List SockRead} (arrives : session.reads = .chunk chunk :: later) :
    ∃ file operations final,
      Reaches step session
        { session with
          reads := later, file := file, operations := operations, conn := final } ∧
      ChunkEnd chunk session.conn final := by
  obtain ⟨file, operations, final, entered, ends⟩ := entered_reaches ideal place free arrives
  obtain ⟨passed, more, order⟩ := ends.passed
  rw [entered_textLines] at order
  have plain := ends.plain
  rw [entered_textLines] at plain
  rcases ends.place with unlock | refused
  · refine ⟨file, operations, { final with pc := .receive },
      entered.trans (Reaches.one ?_), ?_⟩
    · refine (step_unlock ?_).trans ?_
      · exact unlock
      · rw [free]
    · constructor
      · exact Or.inl rfl
      · exact ⟨passed, more, order⟩
      · exact fun data => ⟨rfl, (plain data).2⟩
  · refine ⟨file, operations, final.leave, entered.trans (Reaches.one ?_), ?_⟩
    · refine (step_unlockRefused ?_).trans ?_
      · exact refused
      · rw [free]
    · constructor
      · exact Or.inr rfl
      · exact ⟨passed, more, order⟩
      · intro data
        have place := (plain data).1
        rw [refused] at place
        cases place

/-! ### The whole stream -/

theorem exists_finished (session : Session device) (ideal : session.Ideal)
    (place : session.conn.pc = .receive) (free : session.fileLock = none) :
    ∃ final, Reaches step session final ∧ final.Finished := by
  induction reads : session.reads generalizing session with
  | nil => exact ⟨session, Reaches.refl step session, Or.inr ⟨place, reads⟩⟩
  | cons result later ih =>
      cases result with
      | notReady =>
          have waits := step_receive place reads
          rw [received_notReady] at waits
          obtain ⟨final, finished, done⟩ := ih { session with reads := later } ideal place free rfl
          exact ⟨final, Reaches.head waits finished, done⟩
      | closed =>
          have leaves := step_receive place reads
          rw [received_closed] at leaves
          exact ⟨_, Reaches.one leaves, Or.inl rfl⟩
      | chunk chunk =>
          obtain ⟨file, operations, conn, reached, ends⟩ := chunk_reaches ideal place free reads
          rcases ends.place with next | left
          · obtain ⟨final, finished, done⟩ := ih
              { session with
                reads := later, file := file, operations := operations, conn := conn }
              ideal next free rfl
            exact ⟨final, reached.trans finished, done⟩
          · exact ⟨_, reached, Or.inl left⟩

/-- How the connection stands when all chunks have been received, or a seek
command has been refused. -/
structure StreamEnd (chunks : List Chunk) (start : Connection) (final : Session device) : Prop where
  finished : final.Finished
  passed : ∃ passed, final.conn.passed = start.passed ++ passed ∧
    passed.Sublist (chunks.flatMap Chunk.textLines)
  plain : (∀ line ∈ chunks.flatMap Chunk.textLines, ¬ IsSeek line) →
    final.conn.pc = .receive ∧
      final.conn.passed = start.passed ++ chunks.flatMap Chunk.textLines

theorem stream_reaches (chunks : List Chunk) (session : Session device) (ideal : session.Ideal)
    (place : session.conn.pc = .receive) (free : session.fileLock = none)
    (reads : session.reads = chunks.map .chunk) :
    ∃ final, Reaches step session final ∧ StreamEnd chunks session.conn final := by
  induction chunks generalizing session with
  | nil =>
      refine ⟨session, Reaches.refl step session, Or.inr ⟨place, reads⟩, ?_, ?_⟩
      · exact ⟨[], by simp, List.nil_sublist _⟩
      · simp [place]
  | cons chunk later ih =>
      obtain ⟨file, operations, conn, reached, ends⟩ := chunk_reaches ideal place free reads
      obtain ⟨passed, more, order⟩ := ends.passed
      rcases ends.place with next | left
      · obtain ⟨final, finished, laterEnds⟩ := ih
          { session with
            reads := later.map .chunk, file := file, operations := operations, conn := conn }
          ideal next free rfl
        refine ⟨final, reached.trans finished, laterEnds.finished, ?_, ?_⟩
        · obtain ⟨laterPassed, laterMore, laterOrder⟩ := laterEnds.passed
          refine ⟨passed ++ laterPassed, ?_, ?_⟩
          · rw [laterMore, more, List.append_assoc]
          · rw [List.flatMap_cons]
            exact order.append laterOrder
        · intro data
          rw [List.flatMap_cons] at data ⊢
          have here := ends.plain fun line member => data line (List.mem_append_left _ member)
          obtain ⟨receiving, allPassed⟩ := laterEnds.plain fun line member =>
            data line (List.mem_append_right _ member)
          refine ⟨receiving, ?_⟩
          rw [allPassed, here.2, List.append_assoc]
      · refine ⟨_, reached, Or.inl left, ?_, ?_⟩
        · refine ⟨passed, more, ?_⟩
          rw [List.flatMap_cons]
          exact order.trans (List.sublist_append_left _ _)
        · intro data
          rw [List.flatMap_cons] at data
          have here := ends.plain fun line member => data line (List.mem_append_left _ member)
          rw [left] at here
          cases here.1

end Session

end Aesd.Server
