/-
The line loop on one chunk.

A chunk of at most 1023 bytes is received and terminated, and the loop runs to
its end. The invariants say, at every place of the loop, how far it has come in
the text of the chunk, which lines it has taken up and which of them it has
passed to the file. What stands in the buffer behind the terminator is
exchanged to see that nothing depends on it.
-/

import Aesd.Server.ClientLines

namespace Aesd.Server

open Driver LineStream

def Pc.inLine : Pc → Bool
  | .ioctl _ => true
  | .storeLine _ => true
  | .rewind => true
  | .readBack => true
  | .respond _ => true
  | _ => false

/-! ### Inside the text -/

structure AtText (text : Bytes) (conn : Connection) : Prop where
  buffer : cstr conn.inBuffer = text
  start : conn.prevNewline ≤ text.length

structure Inside (text : Bytes) (conn : Connection) : Prop extends AtText text conn where
  line : conn.pc.inLine = true → conn.prevNewline + conn.length ≤ text.length

section Inside

variable {text : Bytes} {conn : Connection}

theorem AtText.cstr_text (atText : AtText text conn) :
    cstr conn.text = text.drop conn.prevNewline := by
  have within := atText.start
  rw [← atText.buffer] at within
  rw [Connection.text, cstr_drop within, atText.buffer]

theorem AtText.nextLine (atText : AtText text conn) : Inside text conn.nextLine := by
  have bound : ∀ newlineChar, strchr conn.text newline = some newlineChar →
      conn.prevNewline + (newlineChar + 1) ≤ text.length := by
    intro newlineChar found
    have within : newlineChar < (cstr conn.text).length := idxOf?_lt_length found
    rw [atText.cstr_text, List.length_drop] at within
    omega
  have head := nextLine_cases conn
  generalize conn.nextLine = next at head ⊢
  cases head with
  | done absent =>
      constructor
      · exact ⟨atText.buffer, atText.start⟩
      · intro impossible
        cases impossible
  | data found isData => exact ⟨⟨atText.buffer, atText.start⟩, fun _ => bound _ found⟩
  | seek found seek seekto => exact ⟨⟨atText.buffer, atText.start⟩, fun _ => bound _ found⟩
  | unconverted found seek => exact ⟨⟨atText.buffer, atText.start⟩, fun _ => bound _ found⟩

theorem Inside.leaving {next : Connection} (inside : Inside text conn)
    (buffer : next.inBuffer = conn.inBuffer) (start : next.prevNewline = conn.prevNewline)
    (outside : next.pc.inLine = false) : Inside text next := by
  constructor
  · constructor
    · rw [buffer]
      exact inside.buffer
    · rw [start]
      exact inside.start
  · intro impossible
    rw [outside] at impossible
    cases impossible

theorem Inside.resume (inside : Inside text conn) (receiving : conn.pc ≠ .receive)
    (locking : ∀ inBytesRead, conn.pc ≠ .lock inBytesRead) (ret : Ret) :
    Inside text (conn.resume ret) := by
  have line := inside.line
  have resumed := resume_cases conn ret
  generalize conn.resume ret = next at resumed ⊢
  cases resumed with
  | hangsUp place | waits place | fills place => exact absurd place receiving
  | enters place => exact absurd place (locking _)
  | stays place => exact inside
  | refused | breaks | unlocks | leaves => exact inside.leaving rfl rfl rfl
  | finishes place =>
      rw [place] at line
      apply AtText.nextLine
      exact ⟨inside.buffer, line rfl⟩
  | sought place | stores place | stored place | rewound place | reads place | responds place
  | responded place =>
      rw [place] at line
      exact ⟨⟨inside.buffer, inside.start⟩, fun _ => line rfl⟩

/-- The terminator cuts off what stood in the buffer behind the chunk. -/
theorem Inside.entered {chunk : Chunk} (place : conn.pc = .lock chunk.bytes.length)
    (taken : conn.inBuffer.take chunk.bytes.length = chunk.bytes) (ret : Ret) :
    Inside (cstr chunk.bytes) (conn.resume ret) := by
  have terminated : cstr (conn.inBuffer.set chunk.bytes.length 0) = cstr chunk.bytes := by
    rw [cstr_set, taken]
  simp only [Connection.resume, place, Connection.locked,
    if_pos (Int.natCast_nonneg chunk.bytes.length), Int.toNat_natCast]
  apply AtText.nextLine
  exact ⟨terminated, Nat.zero_le _⟩

end Inside

/-! ### Lines taken up and lines passed on -/

def isDataVisit (line : Bytes) : Bool := !decide (IsSeek line)

def Connection.visited (conn : Connection) : List Bytes :=
  conn.answers.map Answer.line ++ if conn.pc.inLine then [conn.line] else []

/-- Of the lines visited since `earlier`, the data lines have been passed on. -/
def Filed (earlier filed : List Bytes) (conn : Connection) : Prop :=
  ∃ handled, conn.visited = earlier ++ handled ∧
    conn.passed = filed ++ handled.filter isDataVisit

section Filed

variable {earlier filed : List Bytes} {conn : Connection}

theorem Filed.taking {next : Connection} (handled : List Bytes) (line : Bytes)
    (lines : conn.answers.map Answer.line = earlier ++ handled)
    (stored : conn.passed = filed ++ handled.filter isDataVisit)
    (visited : next.visited = conn.answers.map Answer.line ++ [line])
    (passed : next.passed = conn.passed ++ [line].filter isDataVisit) :
    Filed earlier filed next := by
  refine ⟨handled ++ [line], ?_, ?_⟩
  · rw [visited, lines, List.append_assoc]
  · rw [passed, stored, List.filter_append, List.append_assoc]

theorem filter_seek {line : Bytes} (seek : IsSeek line) : [line].filter isDataVisit = [] := by
  simp [isDataVisit, seek]

theorem filter_data {line : Bytes} (data : ¬ IsSeek line) :
    [line].filter isDataVisit = [line] := by
  simp [isDataVisit, data]

theorem Filed.nextLine (handled : List Bytes)
    (lines : conn.answers.map Answer.line = earlier ++ handled)
    (stored : conn.passed = filed ++ handled.filter isDataVisit) :
    Filed earlier filed conn.nextLine := by
  have head := nextLine_cases conn
  generalize conn.nextLine = next at head ⊢
  cases head with
  | done absent =>
      refine ⟨handled, ?_, stored⟩
      rw [← lines]
      exact List.append_nil _
  | @data newlineChar found isData =>
      apply Filed.taking handled (conn.scanned newlineChar).line lines stored rfl
      rw [filter_data isData]
  | @seek newlineChar found seek seekto =>
      apply Filed.taking handled (conn.scanned newlineChar).line lines stored rfl
      rw [filter_seek seek, List.append_nil]
      rfl
  | @unconverted newlineChar found seek =>
      apply Filed.taking handled (conn.scanned newlineChar).line lines stored rfl
      rw [filter_seek seek, List.append_nil]
      rfl

theorem Filed.resume (filing : Filed earlier filed conn) (receiving : conn.pc ≠ .receive)
    (ret : Ret) (kept : (conn.resume ret).pc ≠ .unlockRefused)
    (stays : (conn.resume ret).pc ≠ .returned) : Filed earlier filed (conn.resume ret) := by
  obtain ⟨handled, lines, stored⟩ := filing
  unfold Connection.visited at lines
  have resumed := resume_cases conn ret
  generalize conn.resume ret = next at resumed kept stays ⊢
  cases resumed with
  | hangsUp place | waits place | fills place => exact absurd place receiving
  | refused => exact absurd rfl kept
  | breaks | leaves => exact absurd rfl stays
  | stays place => exact absurd place stays
  | enters place =>
      rw [place] at lines
      exact Filed.nextLine handled ((List.append_nil _).symm.trans lines) stored
  | finishes place =>
      rw [place] at lines
      apply Filed.nextLine handled
      · rw [List.map_append]
        exact lines
      · exact stored
  | sought place | stores place | stored place | rewound place | reads place | responds place
  | responded place | unlocks place =>
      rw [place] at lines
      exact ⟨handled, lines, stored⟩

end Filed

/-! ### What stands behind the terminator -/

def Connection.rebuffered (conn : Connection) (buffer : Bytes) : Connection :=
  { conn with inBuffer := buffer }

/-- The buffers have the same received bytes, and then the same text. -/
structure Agrees (conn : Connection) (buffer : Bytes) : Prop where
  received : ∀ inBytesRead, conn.pc = .lock inBytesRead → 0 ≤ inBytesRead ∧
    buffer.take inBytesRead.toNat = conn.inBuffer.take inBytesRead.toNat
  inside : conn.pc.inLine = true → Inside (cstr buffer) conn

section Rebuffered

variable {conn : Connection} {buffer : Bytes}

theorem rebuffered_line (inside : Inside (cstr buffer) conn) (working : conn.pc.inLine = true) :
    (conn.rebuffered buffer).line = conn.line := by
  have other : AtText (cstr buffer) (conn.rebuffered buffer) := ⟨rfl, inside.start⟩
  have same : cstr (conn.rebuffered buffer).text = cstr conn.text := by
    rw [other.cstr_text, inside.cstr_text]
    rfl
  have within : conn.length ≤ (cstr conn.text).length := by
    have bound := inside.line working
    rw [inside.cstr_text, List.length_drop]
    omega
  rw [Connection.line, Connection.line, cstr_take within, ← same]
  apply cstr_take
  rw [same]
  exact within

theorem literal_zero_not_mem_seekFormat : Directive.literal 0 ∉ seekFormat := by decide

theorem nextLine_rebuffered (conn : Connection) (buffer : Bytes)
    (same : cstr (conn.rebuffered buffer).text = cstr conn.text) :
    (conn.rebuffered buffer).nextLine = conn.nextLine.rebuffered buffer := by
  have scan : strchr (conn.rebuffered buffer).text newline = strchr conn.text newline := by
    rw [strchr, strchr, same]
  cases found : strchr conn.text newline with
  | none =>
      rw [nextLine_none found, nextLine_none (scan.trans found)]
      rfl
  | some newlineChar =>
      have foundToo := scan.trans found
      have line : ((conn.rebuffered buffer).scanned newlineChar).line =
          (conn.scanned newlineChar).line := by
        rw [scanned_line found, scanned_line foundToo, same]
      have values : sscanf seekFormat (conn.rebuffered buffer).text =
          sscanf seekFormat conn.text := by
        rw [← sscanf_cstr literal_zero_not_mem_seekFormat, same,
          sscanf_cstr literal_zero_not_mem_seekFormat]
      by_cases seek : IsSeek (conn.scanned newlineChar).line
      · have seekToo := seek
        rw [← line] at seekToo
        by_cases converted : ∃ writeCmd writeCmdOffset,
            sscanf seekFormat conn.text = [writeCmd, writeCmdOffset]
        · obtain ⟨writeCmd, writeCmdOffset, result⟩ := converted
          rw [nextLine_seek found seek result, nextLine_seek foundToo seekToo (values.trans result)]
          rfl
        · have unconverted : ∀ writeCmd writeCmdOffset,
              sscanf seekFormat conn.text ≠ [writeCmd, writeCmdOffset] := by
            intro writeCmd writeCmdOffset result
            exact converted ⟨writeCmd, writeCmdOffset, result⟩
          have unconvertedToo := unconverted
          rw [← values] at unconvertedToo
          rw [nextLine_unconverted found seek unconverted,
            nextLine_unconverted foundToo seekToo unconvertedToo]
          rfl
      · have dataToo := seek
        rw [← line] at dataToo
        rw [nextLine_data found seek, nextLine_data foundToo dataToo, line]
        rfl

theorem nextLine_not_lock (conn : Connection) (inBytesRead : Int) :
    conn.nextLine.pc ≠ .lock inBytesRead := by
  have head := nextLine_cases conn
  generalize conn.nextLine = next at head ⊢
  cases head <;> simp

theorem Agrees.nextLine (atText : AtText (cstr buffer) conn) : Agrees conn.nextLine buffer := by
  constructor
  · intro inBytesRead locks
    exact absurd locks (nextLine_not_lock conn inBytesRead)
  · intro _working
    exact atText.nextLine

theorem Agrees.idle (unlocked : ∀ inBytesRead, conn.pc ≠ .lock inBytesRead)
    (idle : conn.pc.inLine = false) : Agrees conn buffer := by
  constructor
  · intro inBytesRead locks
    exact absurd locks (unlocked inBytesRead)
  · intro working
    rw [idle] at working
    cases working

theorem finishLine_rebuffered (inside : Inside (cstr buffer) conn)
    (working : conn.pc.inLine = true) :
    (conn.rebuffered buffer).finishLine = conn.finishLine.rebuffered buffer := by
  have line := rebuffered_line inside working
  have atText : AtText (cstr buffer) conn.skipped := ⟨inside.buffer, inside.line working⟩
  have other : AtText (cstr buffer) (conn.skipped.rebuffered buffer) := ⟨rfl, inside.line working⟩
  have same : cstr (conn.skipped.rebuffered buffer).text = cstr conn.skipped.text := by
    rw [atText.cstr_text, other.cstr_text]
    rfl
  unfold Connection.finishLine
  rw [line]
  exact nextLine_rebuffered (conn.answered conn.outBuffer conn.sent) buffer same

theorem resume_rebuffered_unlocked (agrees : Agrees conn buffer) (receiving : conn.pc ≠ .receive)
    (locking : ∀ inBytesRead, conn.pc ≠ .lock inBytesRead) (ret : Ret) :
    (conn.rebuffered buffer).resume ret = (conn.resume ret).rebuffered buffer := by
  have samePlace : (conn.rebuffered buffer).pc = conn.pc := rfl
  unfold Connection.resume
  rw [samePlace]
  cases place : conn.pc with
  | receive => exact absurd place receiving
  | lock inBytesRead => exact absurd place (locking inBytesRead)
  | ioctl seekto =>
      dsimp only
      split <;> rfl
  | storeLine written =>
      have length : (conn.rebuffered buffer).length = conn.length := rfl
      dsimp only
      rw [length]
      split <;> rfl
  | rewind => rfl
  | readBack =>
      have working : conn.pc.inLine = true := by
        rw [place]
        rfl
      dsimp only
      split
      · rfl
      · exact finishLine_rebuffered (agrees.inside working) working
  | respond written =>
      have outBuffer : (conn.rebuffered buffer).outBuffer = conn.outBuffer := rfl
      dsimp only
      rw [outBuffer]
      split <;> rfl
  | unlock => rfl
  | unlockRefused => rfl
  | returned => rfl

/-- The terminator makes the texts equal, and the loop starts on both alike. -/
theorem resume_rebuffered_lock (agrees : Agrees conn buffer) {inBytesRead : Int}
    (place : conn.pc = .lock inBytesRead) (ret : Ret) :
    (conn.rebuffered buffer).resume ret =
        (conn.resume ret).rebuffered (buffer.set inBytesRead.toNat 0) ∧
      Agrees (conn.resume ret) (buffer.set inBytesRead.toNat 0) := by
  obtain ⟨nonnegative, taken⟩ := agrees.received inBytesRead place
  have text : cstr (conn.inBuffer.set inBytesRead.toNat 0) =
      cstr (buffer.set inBytesRead.toNat 0) := by
    rw [cstr_set, cstr_set, taken]
  have locked : conn.resume ret = Connection.nextLine
      { conn with inBuffer := conn.inBuffer.set inBytesRead.toNat 0, prevNewline := 0 } := by
    simp only [Connection.resume, place, Connection.locked, if_pos nonnegative]
  have lockedToo : (conn.rebuffered buffer).resume ret = Connection.nextLine
      { conn with inBuffer := buffer.set inBytesRead.toNat 0, prevNewline := 0 } := by
    have placeToo : (conn.rebuffered buffer).pc = .lock inBytesRead := place
    simp only [Connection.resume, placeToo, Connection.locked, if_pos nonnegative]
    rfl
  constructor
  · rw [locked, lockedToo]
    exact nextLine_rebuffered
      { conn with inBuffer := conn.inBuffer.set inBytesRead.toNat 0, prevNewline := 0 }
      (buffer.set inBytesRead.toNat 0) text.symm
  · rw [locked]
    apply Agrees.nextLine
    exact ⟨text, Nat.zero_le _⟩

theorem resume_not_lock (receiving : conn.pc ≠ .receive) (ret : Ret) (inBytesRead : Int) :
    (conn.resume ret).pc ≠ .lock inBytesRead := by
  have resumed := resume_cases conn ret
  generalize conn.resume ret = next at resumed ⊢
  cases resumed with
  | hangsUp place | waits place | fills place => exact absurd place receiving
  | enters | finishes => exact nextLine_not_lock _ inBytesRead
  | stays place => simp [place]
  | _ => simp [Connection.leave]

theorem nextLine_not_refused (conn : Connection) : conn.nextLine.pc ≠ .unlockRefused := by
  have head := nextLine_cases conn
  generalize conn.nextLine = next at head ⊢
  cases head <;> simp

theorem ioctl_of_refused {ret : Ret} (gaveUp : (conn.resume ret).pc = .unlockRefused) :
    ∃ seekto, conn.pc = .ioctl seekto ∧ ret.value < 0 := by
  have resumed := resume_cases conn ret
  generalize conn.resume ret = next at resumed gaveUp
  cases resumed with
  | refused place negative => exact ⟨_, place, negative⟩
  | enters | finishes => exact absurd gaveUp (nextLine_not_refused _)
  | waits place | stays place =>
      rw [place] at gaveUp
      cases gaveUp
  | _ => cases gaveUp

theorem resume_idle (idle : conn.pc.inLine = false) (receiving : conn.pc ≠ .receive)
    (locking : ∀ inBytesRead, conn.pc ≠ .lock inBytesRead) (ret : Ret) :
    (conn.resume ret).pc.inLine = false := by
  have resumed := resume_cases conn ret
  generalize conn.resume ret = next at resumed ⊢
  cases resumed with
  | hangsUp place | waits place | fills place => exact absurd place receiving
  | enters place => exact absurd place (locking _)
  | unlocks | leaves => rfl
  | stays place => exact idle
  | refused place | sought place | stores place | stored place | rewound place | reads place
  | finishes place | responds place | responded place | breaks place =>
      rw [place] at idle
      cases idle

theorem Agrees.resume (agrees : Agrees conn buffer) (receiving : conn.pc ≠ .receive)
    (locking : ∀ inBytesRead, conn.pc ≠ .lock inBytesRead) (ret : Ret) :
    Agrees (conn.resume ret) buffer := by
  constructor
  · intro inBytesRead locks
    exact absurd locks (resume_not_lock receiving ret inBytesRead)
  · intro workingNext
    cases working : conn.pc.inLine with
    | true => exact (agrees.inside working).resume receiving locking ret
    | false =>
        rw [resume_idle working receiving locking ret] at workingNext
        cases workingNext

/-- Whatever a call returns, the code behind it does the same with both buffers. -/
theorem resume_rebuffered (agrees : Agrees conn buffer) (receiving : conn.pc ≠ .receive)
    (ret : Ret) :
    ∃ other, (conn.rebuffered buffer).resume ret = (conn.resume ret).rebuffered other ∧
      Agrees (conn.resume ret) other := by
  by_cases locking : ∃ inBytesRead, conn.pc = .lock inBytesRead
  · obtain ⟨inBytesRead, place⟩ := locking
    exact ⟨_, resume_rebuffered_lock agrees place ret⟩
  · have unlocked := not_exists.mp locking
    exact ⟨buffer, resume_rebuffered_unlocked agrees receiving unlocked ret,
      agrees.resume receiving unlocked ret⟩

theorem call_rebuffered (agrees : Agrees conn buffer) :
    (conn.rebuffered buffer).call = conn.call := by
  have same : (conn.rebuffered buffer).pc = conn.pc := rfl
  unfold Connection.call
  rw [same]
  cases place : conn.pc with
  | storeLine written =>
      have working : conn.pc.inLine = true := by
        rw [place]
        rfl
      have line := rebuffered_line (agrees.inside working) working
      simp only [line]
  | _ => rfl

theorem received_rebuffered (place : conn.pc = .receive) (result : SockRead) :
    ∃ other, (conn.rebuffered buffer).received result.ret =
        (conn.received result.ret).rebuffered other ∧
      Agrees (conn.received result.ret) other := by
  cases result with
  | chunk chunk =>
      refine ⟨chunk.bytes ++ buffer.drop chunk.bytes.length, ?_, ?_⟩
      · rw [received_chunk, received_chunk]
        rfl
      · rw [received_chunk]
        constructor
        · intro inBytesRead locks
          have count := Pc.lock.inj locks
          subst count
          refine ⟨Int.natCast_nonneg _, ?_⟩
          rw [Int.toNat_natCast, List.take_left]
          exact List.take_left.symm
        · intro working
          cases working
  | notReady =>
      refine ⟨buffer, rfl, ?_⟩
      rw [received_notReady]
      apply Agrees.idle
      · intro inBytesRead locks
        rw [place] at locks
        cases locks
      · rw [place]
        rfl
  | closed =>
      refine ⟨buffer, rfl, ?_⟩
      rw [received_closed]
      apply Agrees.idle
      · simp [Connection.leave]
      · rfl

end Rebuffered

namespace Session

variable {device : FileModel}

def rebuffered (session : Session device) (buffer : Bytes) : Session device :=
  { session with conn := session.conn.rebuffered buffer }

theorem returns_rebuffered (session : Session device) {buffer : Bytes}
    (agrees : Agrees session.conn buffer) (receiving : session.conn.pc ≠ .receive) (ret : Ret) :
    ∃ other, (session.rebuffered buffer).returns ret = (session.returns ret).rebuffered other ∧
      Agrees (session.returns ret).conn other := by
  obtain ⟨other, resumed, after⟩ := resume_rebuffered agrees receiving ret
  have call : (session.rebuffered buffer).conn.call = session.conn.call := call_rebuffered agrees
  have resumes : (session.rebuffered buffer).conn.resume ret =
      (session.conn.resume ret).rebuffered other := resumed
  unfold returns advance
  rw [call, resumes]
  split
  · by_cases free : session.fileLock = none
    · have freeToo : (session.rebuffered buffer).fileLock = none := free
      rw [if_pos free, if_pos freeToo]
      exact ⟨other, rfl, after⟩
    · have heldToo : ¬ (session.rebuffered buffer).fileLock = none := free
      rw [if_neg free, if_neg heldToo]
      exact ⟨buffer, rfl, agrees⟩
  · exact ⟨other, rfl, after⟩
  · exact ⟨other, rfl, after⟩

theorem step_rebuffered {session : Session device} {buffer : Bytes}
    (agrees : Agrees session.conn buffer) :
    ∃ other, (session.rebuffered buffer).step = session.step.rebuffered other ∧
      Agrees session.step.conn other := by
  by_cases receiving : session.conn.pc = .receive
  · have receivingToo : (session.rebuffered buffer).conn.pc = .receive := receiving
    cases reads : session.reads with
    | nil =>
        have readsToo : (session.rebuffered buffer).reads = [] := reads
        rw [step_finished (Or.inr ⟨receiving, reads⟩),
          step_finished (Or.inr ⟨receivingToo, readsToo⟩)]
        exact ⟨buffer, rfl, agrees⟩
    | cons result later =>
        have readsToo : (session.rebuffered buffer).reads = result :: later := reads
        obtain ⟨other, filled, after⟩ := received_rebuffered receiving result
        rw [step_receive receiving reads, step_receive receivingToo readsToo]
        refine ⟨other, ?_, after⟩
        have conn : (session.rebuffered buffer).conn.received result.ret =
            (session.conn.received result.ret).rebuffered other := filled
        rw [conn]
        rfl
  · have call : (session.rebuffered buffer).conn.call = session.conn.call := call_rebuffered agrees
    unfold step
    rw [call]
    split
    · exact ⟨buffer, rfl, agrees⟩
    · next calls => exact absurd (receive_of_sockRead calls) receiving
    · next request _calls =>
        exact returns_rebuffered
          { session with
            file := (device.serve session.file request).1
            operations := session.operations ++ [request] }
          agrees receiving _
    · exact returns_rebuffered
        { session with
          writes := fun index => session.writes (index + 1)
          writeNotReady :=
            session.writeNotReady || decide (session.writes 0 = SockWrite.notReady) }
        agrees receiving _
    · exact returns_rebuffered session agrees receiving _

/-- A connection that waits for the peer may have anything in its buffer: whatever
it is, the session runs the same. -/
theorem run_rebuffered {session : Session device} (place : session.conn.pc = .receive)
    (buffer : Bytes) (count : Nat) :
    ∃ other, step^[count] (session.rebuffered buffer) = (step^[count] session).rebuffered other := by
  have initially : Agrees session.conn buffer := by
    apply Agrees.idle
    · intro inBytesRead locks
      rw [place] at locks
      cases locks
    · rw [place]
      rfl
  have runs : ∃ other, step^[count] (session.rebuffered buffer) =
      (step^[count] session).rebuffered other ∧ Agrees (step^[count] session).conn other := by
    induction count with
    | zero => exact ⟨buffer, rfl, initially⟩
    | succ count ih =>
        obtain ⟨other, reached, agrees⟩ := ih
        rw [Function.iterate_succ_apply', Function.iterate_succ_apply', reached]
        exact step_rebuffered agrees
  obtain ⟨other, reached, _agrees⟩ := runs
  exact ⟨other, reached⟩

/-! ### One chunk -/

/-- A connection at its read, with a chunk to come and a peer that takes what it
is sent, in pieces of its own choice. -/
def receiving (tid : Nat) (file : device.State) (conn : Connection) (chunk : Chunk)
    (extra : Nat → Nat) : Session device :=
  { conn := { conn with pc := .receive }
    reads := [.chunk chunk]
    writes := fun index => .accepts (extra index)
    tid := tid
    fileLock := none
    file := file
    operations := []
    writeNotReady := false }

/-- How far a connection has come with a chunk, as long as it has not broken off. -/
structure InChunk (chunk : Chunk) (start : Connection) (session : Session device) : Prop where
  reads : session.reads = []
  progress : Progress (start.answers.map Answer.line ++ chunk.textLines) session.conn
  filed : session.conn.pc ≠ .unlockRefused → session.conn.pc ≠ .returned →
    Filed (start.answers.map Answer.line) start.passed session.conn
  terminator : ∀ inBytesRead, session.conn.pc = .lock inBytesRead →
    inBytesRead = chunk.bytes.length ∧
      session.conn.inBuffer.take chunk.bytes.length = chunk.bytes
  inside : (∀ inBytesRead, session.conn.pc ≠ .lock inBytesRead) →
    Inside (cstr chunk.bytes) session.conn

theorem receiving_step (tid : Nat) (file : device.State) (conn : Connection) (chunk : Chunk)
    (extra : Nat → Nat) : InChunk chunk conn (receiving tid file conn chunk extra).step := by
  have waits : Progress (conn.answers.map Answer.line)
      (receiving tid file conn chunk extra).conn := rfl
  have received : (receiving tid file conn chunk extra).step =
      { receiving tid file conn chunk extra with
        reads := []
        conn :=
          { conn with
            pc := .lock chunk.bytes.length
            inBuffer := chunk.bytes ++ conn.inBuffer.drop chunk.bytes.length } } := by
    rw [step_receive rfl rfl]
    exact congrArg
      (fun next => { receiving tid file conn chunk extra with reads := [], conn := next })
      (received_chunk { conn with pc := .receive } chunk)
  constructor
  · rw [received]
  · exact progress_receive waits rfl rfl
  · rw [received]
    intro _kept _stays
    exact ⟨[], rfl, (List.append_nil _).symm⟩
  · rw [received]
    intro inBytesRead locks
    refine ⟨(Pc.lock.inj locks).symm, ?_⟩
    exact List.take_left
  · rw [received]
    intro unlocked
    exact absurd rfl (unlocked chunk.bytes.length)

theorem InChunk.step {chunk : Chunk} {start : Connection} {session : Session device}
    (inChunk : InChunk chunk start session) : InChunk chunk start session.step := by
  by_cases receiving : session.conn.pc = .receive
  · rw [step_finished (Or.inr ⟨receiving, inChunk.reads⟩)]
    exact inChunk
  · have reads : session.step.reads = [] := (step_reads receiving).trans inChunk.reads
    have progress := progress_step inChunk.progress receiving
    rcases session.step_conn with same | ⟨ret, resumed⟩
    · refine ⟨reads, progress, ?_, ?_, ?_⟩
      · rw [same]
        exact inChunk.filed
      · rw [same]
        exact inChunk.terminator
      · rw [same]
        exact inChunk.inside
    · refine ⟨reads, progress, ?_, ?_, ?_⟩
      · rw [resumed]
        intro kept stays
        refine Filed.resume (inChunk.filed ?_ ?_) receiving ret kept stays
        · intro refused
          apply stays
          rw [Connection.resume, refused]
          rfl
        · intro left
          apply stays
          rw [Connection.resume, left]
          exact left
      · rw [resumed]
        intro inBytesRead locks
        exact absurd locks (resume_not_lock receiving ret inBytesRead)
      · rw [resumed]
        intro _unlocked
        by_cases locking : ∃ inBytesRead, session.conn.pc = .lock inBytesRead
        · obtain ⟨inBytesRead, place⟩ := locking
          obtain ⟨count, taken⟩ := inChunk.terminator inBytesRead place
          subst count
          exact Inside.entered place taken ret
        · have unlocked := not_exists.mp locking
          exact (inChunk.inside unlocked).resume receiving unlocked ret

theorem reached_inChunk {tid : Nat} {file : device.State} {conn : Connection} {chunk : Chunk}
    {extra : Nat → Nat} {state : Session device}
    (reached : Reaches step (receiving tid file conn chunk extra) state)
    (moved : state.conn.pc ≠ .receive) : InChunk chunk conn state := by
  obtain ⟨count, rfl⟩ := reached
  cases count with
  | zero => exact absurd rfl moved
  | succ count =>
      rw [Function.iterate_succ_apply]
      exact Reaches.invariant (fun _state inChunk => inChunk.step)
        (receiving_step tid file conn chunk extra) ⟨count, rfl⟩

/-! ### Seeks that succeed -/

def SeeksSucceed (session : Session device) : Prop :=
  ∀ state seekto, Reaches step session state → state.conn.pc = .ioctl seekto →
    0 ≤ (device.serve state.file (.ioctl seekto)).2.value

theorem step_refused {session : Session device} (moved : session.conn.pc ≠ .unlockRefused)
    (refused : session.step.conn.pc = .unlockRefused) :
    ∃ seekto, session.conn.pc = .ioctl seekto ∧
      (device.serve session.file (.ioctl seekto)).2.value < 0 := by
  rcases session.step_conn with same | ⟨ret, resumed⟩
  · rw [same] at refused
    exact absurd refused moved
  · obtain ⟨seekto, place, _negative⟩ := ioctl_of_refused (by rw [← resumed]; exact refused)
    have calls : session.conn.call = some (.file (.ioctl seekto)) := by rw [Connection.call, place]
    rw [step_file calls] at refused
    obtain ⟨_seekto, _place, negative⟩ := ioctl_of_refused refused
    exact ⟨seekto, place, negative⟩

theorem SeeksSucceed.not_refused {session state : Session device} (seeks : SeeksSucceed session)
    (moved : session.conn.pc ≠ .unlockRefused) (reached : Reaches step session state) :
    state.conn.pc ≠ .unlockRefused := by
  obtain ⟨count, rfl⟩ := reached
  induction count with
  | zero => exact moved
  | succ count ih =>
      rw [Function.iterate_succ_apply']
      intro refused
      obtain ⟨seekto, place, negative⟩ := step_refused ih refused
      have succeeds := seeks _ seekto ⟨count, rfl⟩ place
      omega

theorem nextLine_ioctl {conn : Connection} {seekto : AesdSeekto}
    (place : conn.nextLine.pc = .ioctl seekto) : IsSeek conn.nextLine.line := by
  have head := nextLine_cases conn
  generalize conn.nextLine = next at head place ⊢
  cases head with
  | done absent => cases place
  | data found isData => cases place
  | seek found seek seekto => exact seek
  | unconverted found seek => cases place

theorem resume_ioctl {conn : Connection} {ret : Ret} {seekto : AesdSeekto}
    (asks : (conn.resume ret).pc = .ioctl seekto) : IsSeek (conn.resume ret).line := by
  have resumed := resume_cases conn ret
  generalize conn.resume ret = next at resumed asks ⊢
  cases resumed with
  | enters | finishes => exact nextLine_ioctl asks
  | waits place | stays place =>
      rw [place] at asks
      cases asks
  | _ => cases asks

theorem seek_of_ioctl {session state : Session device} {seekto : AesdSeekto}
    (idle : ∀ seekto, session.conn.pc ≠ .ioctl seekto) (reached : Reaches step session state)
    (place : state.conn.pc = .ioctl seekto) : IsSeek state.conn.line := by
  obtain ⟨count, rfl⟩ := reached
  induction count generalizing seekto with
  | zero => exact absurd place (idle seekto)
  | succ count ih =>
      rw [Function.iterate_succ_apply'] at place ⊢
      rcases step_conn (step^[count] session) with same | ⟨ret, resumed⟩
      · rw [same] at place ⊢
        exact ih place
      · rw [resumed] at place ⊢
        exact resume_ioctl place

theorem seeksSucceed_of_data {tid : Nat} {file : device.State} {conn : Connection}
    {chunk : Chunk} {extra : Nat → Nat} (fresh : conn.answers = [])
    (data : ∀ line ∈ chunk.textLines, ¬ IsSeek line) :
    SeeksSucceed (receiving tid file conn chunk extra) := by
  intro state seekto reached place
  have seek : IsSeek state.conn.line := seek_of_ioctl (by simp [receiving]) reached place
  have progress := (reached_inChunk reached (by simp [place])).progress
  simp only [Progress, place, fresh, List.map_nil, List.nil_append] at progress
  refine absurd seek (data _ ?_)
  rw [← progress]
  exact List.mem_append_right _ List.mem_cons_self

/-! ### The result -/

/-- The lines are closed, and they make up the longest part of the text that
starts with it and ends in a newline. -/
structure SplitsText (text : Bytes) (visited : List Bytes) : Prop where
  closed : ∀ line ∈ visited, IsLine newline line
  starts : visited.flatten <+: text
  longest : ∀ initial, initial <+: text → initial.getLast? = some newline →
    initial <+: visited.flatten

theorem splitsText_lines (text : Bytes) : SplitsText text (lines newline text) := by
  have whole := lines_flatten_append_rest newline text
  have starts : (lines newline text).flatten <+: text := ⟨rest newline text, whole⟩
  constructor
  · exact isLine_of_mem_lines newline text
  · exact starts
  · intro initial before last
    apply List.prefix_of_prefix_length_le before starts
    by_contra longer
    obtain ⟨part, rfl⟩ := List.prefix_of_prefix_length_le starts before (by omega)
    have some : part ≠ [] := by
      intro none
      rw [none, List.append_nil] at longer
      exact longer (Nat.le_refl _)
    rw [List.getLast?_append_of_ne_nil _ some] at last
    obtain ⟨behind, shape⟩ := before
    rw [List.append_assoc] at shape
    have inRest := List.append_cancel_left (shape.trans whole.symm)
    apply sep_not_mem_rest newline text
    rw [← inRest]
    exact List.mem_append_left behind (List.mem_of_getLast? last)

/-- What the loop has done with a chunk when it ends. -/
structure ChunkSplit (chunk : Chunk) (start final : Connection) : Prop where
  ended : final.pc = .unlock
  visited : final.answers.map Answer.line = start.answers.map Answer.line ++ chunk.textLines
  passed : final.passed = start.passed ++ chunk.textLines.filter isDataVisit

theorem InChunk.split {chunk : Chunk} {start : Connection} {session : Session device}
    (inChunk : InChunk chunk start session) (ended : session.conn.pc = .unlock) :
    ChunkSplit chunk start session.conn := by
  have progress := inChunk.progress
  simp only [Progress, ended] at progress
  obtain ⟨handled, lines, stored⟩ := inChunk.filed (by simp [ended]) (by simp [ended])
  have answered : session.conn.visited = session.conn.answers.map Answer.line := by
    rw [Connection.visited, ended]
    exact List.append_nil _
  rw [answered, progress] at lines
  have same := List.append_cancel_left lines
  subst same
  exact ⟨ended, progress, stored⟩

theorem receiving_ends (tid : Nat) (file : device.State) (conn : Connection) (chunk : Chunk)
    (extra : Nat → Nat) :
    ∃ final, Reaches step (receiving tid file conn chunk extra) final ∧
      (final.conn.pc = .unlock ∨ final.conn.pc = .unlockRefused) := by
  have accepting : (receiving tid file conn chunk extra).Accepting := by
    constructor
    · intro index
      simp [receiving]
    · rfl
  have responding : (receiving tid file conn chunk extra).conn.Responding := by
    intro written responds
    cases responds
  have ideal : (receiving tid file conn chunk extra).idealised.Ideal := rfl
  obtain ⟨_file, _operations, _final, reached, ends⟩ := entered_reaches ideal rfl rfl rfl
  obtain ⟨last, arrived, follows⟩ := accepting_follows accepting responding reached
  refine ⟨last, arrived, ?_⟩
  rw [follows.same]
  exact ends.place

/-- The line loop on any chunk, with any file, whatever the connection has done
before and however the peer takes its answers. -/
theorem chunk_lines_split (device : FileModel) (tid : Nat) (file : device.State)
    (conn : Connection) (chunk : Chunk) (extra : Nat → Nat)
    (seeks : SeeksSucceed (receiving tid file conn chunk extra)) :
    (∃ final, Reaches step (receiving tid file conn chunk extra) final ∧
      ChunkSplit chunk conn final.conn) ∧
    SplitsText (cstr chunk.bytes) chunk.textLines ∧
    (∀ state, Reaches step (receiving tid file conn chunk extra) state →
      state.conn.pc.inLine = true →
        state.conn.prevNewline + state.conn.length ≤ (cstr chunk.bytes).length) ∧
    ∀ buffer count, ∃ other,
      step^[count] ((receiving tid file conn chunk extra).rebuffered buffer) =
        (step^[count] (receiving tid file conn chunk extra)).rebuffered other := by
  refine ⟨?_, splitsText_lines _, ?_, ?_⟩
  · obtain ⟨final, reached, ended⟩ := receiving_ends tid file conn chunk extra
    have kept := seeks.not_refused (by simp [receiving]) reached
    have unlock : final.conn.pc = .unlock := by
      rcases ended with unlock | refused
      · exact unlock
      · exact absurd refused kept
    refine ⟨final, reached, ?_⟩
    exact (reached_inChunk reached (by simp [unlock])).split unlock
  · intro state reached working
    have moved : state.conn.pc ≠ .receive := by
      intro place
      rw [place] at working
      cases working
    have unlocked : ∀ inBytesRead, state.conn.pc ≠ .lock inBytesRead := by
      intro inBytesRead place
      rw [place] at working
      cases working
    exact ((reached_inChunk reached moved).inside unlocked).line working
  · intro buffer count
    exact run_rebuffered rfl buffer count

def emptyLineThenNul : Chunk :=
  { bytes := [10, 100, 0, 10], nonempty := by decide, fits := by decide }

theorem emptyLineThenNul_seeks :
    SeeksSucceed
      (receiving 0 OpenFile.init Connection.accepted emptyLineThenNul fun _ => 0 :
        Session charDevice) :=
  seeksSucceed_of_data rfl (by decide)

theorem chunk_lines_split_emptyLine :
    ∃ final : Session charDevice,
      Reaches step (receiving 0 OpenFile.init Connection.accepted emptyLineThenNul fun _ => 0)
        final ∧
      final.conn.answers.map Answer.line = [[10]] ∧ final.conn.passed = [[10]] := by
  obtain ⟨⟨final, reached, split⟩, _rest⟩ := chunk_lines_split charDevice 0 OpenFile.init
    Connection.accepted emptyLineThenNul (fun _ => 0) emptyLineThenNul_seeks
  exact ⟨final, reached, split.visited, split.passed⟩

end Session

end Aesd.Server
