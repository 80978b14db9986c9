/-
The data file of a server built without the character device.

All threads share one position. Nobody seeks to the end before a write, so the
file is a log only as long as every critical section leaves the position there.
-/

import Aesd.Server.Responses

namespace Aesd.Server

open Driver LineStream

/-! ### Regular files -/

structure RegularFile where
  content : Bytes
  position : Nat
  deriving DecidableEq, Repr

namespace RegularFile

def empty : RegularFile := { content := [], position := 0 }

/-- A write behind the end fills the gap with zeros; an `ioctl` is not for this
kind of file. -/
def serve (file : RegularFile) : FileCall → RegularFile × Ret
  | .write bytes =>
      ({ content :=
          file.content.take file.position ++
            List.replicate (file.position - file.content.length) 0 ++ bytes ++
            file.content.drop (file.position + bytes.length)
         position := file.position + bytes.length },
        { value := bytes.length, data := [], errno := 0 })
  | .lseekSet => ({ file with position := 0 }, Ret.zero)
  | .read count =>
      let data := (file.content.drop file.position).take count
      ({ file with position := file.position + data.length },
        { value := data.length, data := data, errno := 0 })
  | .ioctl _ => (file, { value := -1, data := [], errno := enotty })

def Settled (file : RegularFile) : Prop := file.position = file.content.length

theorem serve_write_settled {file : RegularFile} (settled : file.Settled) (bytes : Bytes) :
    file.serve (.write bytes) =
      ({ content := file.content ++ bytes, position := file.position + bytes.length },
        { value := bytes.length, data := [], errno := 0 }) := by
  have whole : file.content.take file.position = file.content := by
    rw [settled, List.take_length]
  have nothing : file.content.drop (file.position + bytes.length) = [] := by
    rw [settled]
    exact List.drop_of_length_le (Nat.le_add_right _ _)
  have noGap : file.position - file.content.length = 0 := by rw [settled, Nat.sub_self]
  simp only [serve, whole, nothing, noGap, List.replicate_zero, List.append_nil]

theorem settled_write {file : RegularFile} (settled : file.Settled) (bytes : Bytes) :
    (file.serve (.write bytes)).1.Settled := by
  rw [serve_write_settled settled, Settled, List.length_append]
  exact congrArg (· + bytes.length) settled

theorem take_append_drop_taken (bytes : Bytes) (count : Nat) :
    bytes.take count ++ bytes.drop (bytes.take count).length = bytes := by
  have same : bytes.drop (bytes.take count).length = bytes.drop count := by
    rw [List.length_take]
    by_cases inside : count ≤ bytes.length
    · rw [Nat.min_eq_left inside]
    · have outside := Nat.le_of_not_le inside
      rw [Nat.min_eq_right outside, List.drop_length, List.drop_of_length_le outside]
  rw [same, List.take_append_drop]

theorem reads_end (file : RegularFile) :
    ∃ rounds, (((fun file : RegularFile => (file.serve (.read outBufferSize)).1)^[rounds]
      file).serve (.read outBufferSize)).2.value = 0 := by
  -- every read that returns something leaves fewer bytes behind the position
  induction left : file.content.length - file.position using Nat.strong_induction_on
    generalizing file with
  | _ size ih =>
      by_cases before : file.position < file.content.length
      · have shorter : (file.serve (.read outBufferSize)).1.content.length -
            (file.serve (.read outBufferSize)).1.position < size := by
          simp only [serve, List.length_take, List.length_drop, outBufferSize]
          omega
        obtain ⟨rounds, ends⟩ := ih _ shorter _ rfl
        exact ⟨rounds + 1, ends⟩
      · refine ⟨0, ?_⟩
        simp [serve, List.drop_of_length_le (Nat.le_of_not_lt before)]

end RegularFile

def regularFile : FileModel :=
  { State := RegularFile
    serve := RegularFile.serve
    writeAccepts := by
      intro file bytes nonempty
      exact Int.natCast_pos.mpr (List.length_pos_iff.mpr nonempty)
    readCounts := fun _file => rfl
    readFits := fun _file => List.length_take_le _ _
    readEnds := RegularFile.reads_end }

/-! ### The log -/

inductive Writer where
  | client (tid : Nat)
  | timer
  deriving DecidableEq, Repr

structure Written where
  writer : Writer
  line : Bytes
  deriving DecidableEq, Repr

def contentOf (log : List Written) : Bytes := (log.map Written.line).flatten

def linesBy (writer : Writer) (log : List Written) : List Bytes :=
  (log.filter (fun entry => entry.writer = writer)).map Written.line

/-- The answers due to a writer: each of its lines with the whole file as of that
line. -/
def dueAnswers (writer : Writer) : Bytes → List Written → List Answer
  | _, [] => []
  | before, entry :: later =>
      (if entry.writer = writer then
        [{ line := entry.line, sent := before ++ entry.line }]
      else []) ++ dueAnswers writer (before ++ entry.line) later

theorem contentOf_append (log : List Written) (entry : Written) :
    contentOf (log ++ [entry]) = contentOf log ++ entry.line := by
  simp [contentOf]

theorem linesBy_append (writer : Writer) (log : List Written) (entry : Written) :
    linesBy writer (log ++ [entry]) =
      linesBy writer log ++ if entry.writer = writer then [entry.line] else [] := by
  unfold linesBy
  rw [List.filter_append, List.map_append]
  by_cases same : entry.writer = writer
  · simp [same]
  · simp [same]

theorem dueAnswers_append (writer : Writer) (before : Bytes) (log : List Written)
    (entry : Written) :
    dueAnswers writer before (log ++ [entry]) =
      dueAnswers writer before log ++
        if entry.writer = writer then
          [{ line := entry.line, sent := before ++ contentOf log ++ entry.line }]
        else [] := by
  induction log generalizing before with
  | nil => simp [dueAnswers, contentOf]
  | cons first later ih =>
      rw [List.cons_append, dueAnswers, ih, dueAnswers, List.append_assoc]
      simp only [contentOf, List.map_cons, List.flatten_cons, List.append_assoc]

theorem linesBy_eq_due (writer : Writer) (before : Bytes) (log : List Written) :
    linesBy writer log = (dueAnswers writer before log).map Answer.line := by
  induction log generalizing before with
  | nil => rfl
  | cons entry later ih =>
      unfold linesBy at ih ⊢
      rw [dueAnswers, List.map_append, ← ih, List.filter_cons]
      by_cases same : entry.writer = writer
      · simp [same]
      · simp [same]

/-! ### Threads and the log -/

def Connection.dataAnswers (conn : Connection) : List Answer := conn.answers.filter Answer.isData

def Connection.unwritten (conn : Connection) : List Bytes :=
  match conn.pc with
  | .storeLine _ => [conn.line]
  | _ => []

/-- A thread has given the answers due to it, except for the line it is about to
answer; one that has broken off may owe one. -/
def Due (due : List Answer) (content : Bytes) (conn : Connection) : Prop :=
  if conn.pc = .returned then conn.dataAnswers <+: due
  else
    due = conn.dataAnswers ++ conn.storedLine.map fun line => { line := line, sent := content }

def FilePlace (file : RegularFile) (conn : Connection) : Prop :=
  match conn.pc with
  | .ioctl _ => conn.sent = [] ∧ file.Settled
  | .storeLine written =>
      (written = 0 ∧ IsLine newline conn.line ∧ conn.line.length = conn.length) ∧
        ¬ IsSeek conn.line ∧ conn.sent = [] ∧ file.Settled
  | .rewind => ¬ IsSeek conn.line ∧ conn.sent = [] ∧ file.Settled
  | .readBack =>
      file.position ≤ file.content.length ∧ (IsSeek conn.line → file.Settled) ∧
        (¬ IsSeek conn.line → conn.sent ++ file.content.drop file.position = file.content)
  | .respond written =>
      file.position ≤ file.content.length ∧ ¬ IsSeek conn.line ∧
        written < conn.outBuffer.length ∧
        conn.sent ++ conn.outBuffer.drop written ++ file.content.drop file.position = file.content
  | .unlock => conn.sent = [] ∧ file.Settled
  | .unlockRefused => file.Settled
  | .returned => True
  | _ => conn.sent = []

structure FileSession (log : List Written) (tid : Nat) (session : Session regularFile) : Prop where
  content : session.file.content = contentOf log
  due : Due (dueAnswers (.client tid) [] log) (contentOf log) session.conn
  passed : linesBy (.client tid) log ++ session.conn.unwritten = session.conn.passed
  place : FilePlace session.file session.conn

/-- The section belongs to the holder of the lock, and the lock is free only
with the position at the end. -/
structure FileThread (log : List Written) (tid : Nat) (session : Session regularFile) : Prop
    extends FileSession log tid session where
  holds : session.conn.pc.inSection = true → session.fileLock = some session.tid
  settled : session.fileLock = none → session.file.Settled

def entriesOf (tid : Nat) (operations : List FileCall) : List Written :=
  (operations.filterMap FileCall.written).map fun line => { writer := .client tid, line := line }

theorem FileSession.held {log : List Written} {tid : Nat} {session : Session regularFile}
    (inv : FileSession log tid session) (held : session.fileLock = some session.tid) :
    FileThread log tid session := by
  constructor
  · exact inv
  · exact fun _inside => held
  · intro free
    rw [held] at free
    cases free

theorem Due.answered {due : List Answer} {content : Bytes} {conn : Connection}
    (owed : Due due content conn) : conn.dataAnswers <+: due := by
  unfold Due at owed
  split at owed
  · exact owed
  · rw [owed]
    exact List.prefix_append _ _

section Steps

variable {log : List Written} {tid : Nat} {session : Session regularFile}

def Connection.account (conn : Connection) :
    Bool × List Answer × List Bytes × List Bytes × List Bytes :=
  (decide (conn.pc = .returned), conn.dataAnswers, conn.storedLine, conn.unwritten, conn.passed)

def Pc.answering : Pc → Bool
  | .rewind => true
  | .readBack => true
  | .respond _ => true
  | _ => false

def Pc.idle : Pc → Bool
  | .storeLine _ => false
  | .returned => false
  | place => !place.answering

theorem account_answering {conn : Connection} (answering : conn.pc.answering = true) :
    conn.account =
      (false, conn.dataAnswers, if IsSeek conn.line then [] else [conn.line], [],
        conn.passed) := by
  unfold Connection.account Connection.storedLine Connection.unwritten
  cases place : conn.pc with
  | rewind => rfl
  | readBack => rfl
  | respond written => rfl
  | _ =>
      rw [place] at answering
      cases answering

theorem account_idle {conn : Connection} (idle : conn.pc.idle = true) :
    conn.account = (false, conn.dataAnswers, [], [], conn.passed) := by
  unfold Connection.account Connection.storedLine Connection.unwritten
  cases place : conn.pc with
  | receive => rfl
  | lock inBytesRead => rfl
  | ioctl seekto => rfl
  | unlock => rfl
  | unlockRefused => rfl
  | _ =>
      rw [place] at idle
      cases idle

theorem FileSession.moves (inv : FileSession log tid session) {other : Session regularFile}
    (content : other.file.content = session.file.content)
    (account : other.conn.account = session.conn.account)
    (place : FilePlace other.file other.conn) : FileSession log tid other := by
  obtain ⟨ended, given⟩ := Prod.mk.inj account
  obtain ⟨answers, owed⟩ := Prod.mk.inj given
  obtain ⟨stored, written⟩ := Prod.mk.inj owed
  obtain ⟨unwritten, passed⟩ := Prod.mk.inj written
  have returned := decide_eq_decide.mp ended
  constructor
  · exact content.trans inv.content
  · have due := inv.due
    simp only [Due, returned, answers, stored] at due ⊢
    exact due
  · rw [unwritten, passed]
    exact inv.passed
  · exact place

theorem FileSession.leaves (inv : FileSession log tid session) {other : Session regularFile}
    (content : other.file.content = session.file.content)
    (left : other.conn = session.conn.leave) (written : session.conn.unwritten = []) :
    FileSession log tid other := by
  constructor
  · exact content.trans inv.content
  · rw [left]
    exact inv.due.answered
  · rw [left]
    have passed := inv.passed
    rw [written] at passed
    exact passed
  · rw [left]
    exact trivial

theorem FileSession.nextLine (session : Session regularFile) (conn : Connection)
    (content : session.file.content = contentOf log)
    (due : dueAnswers (.client tid) [] log = conn.dataAnswers)
    (passed : linesBy (.client tid) log = conn.passed) (fresh : conn.sent = [])
    (settled : session.file.Settled) :
    FileSession log tid { session with conn := conn.nextLine } := by
  have head := nextLine_cases conn
  generalize conn.nextLine = next at head ⊢
  cases head with
  | done absent =>
      constructor
      · exact content
      · exact due.trans (List.append_nil _).symm
      · exact (List.append_nil _).trans passed
      · exact ⟨fresh, settled⟩
  | data found isData =>
      constructor
      · exact content
      · exact due.trans (List.append_nil _).symm
      · exact congrArg (· ++ [_]) passed
      · exact ⟨⟨rfl, scanned_line_isLine found, scanned_line_length found⟩, isData, fresh, settled⟩
  | seek found seek seekto =>
      constructor
      · exact content
      · exact due.trans (List.append_nil _).symm
      · exact (List.append_nil _).trans passed
      · exact ⟨fresh, settled⟩
  | @unconverted newlineChar found seek =>
      constructor
      · exact content
      · have none : Connection.storedLine { conn.scanned newlineChar with pc := .readBack } = [] :=
          if_pos seek
        change _ = _ ++ List.map _ (Connection.storedLine _)
        rw [none]
        exact due.trans (List.append_nil _).symm
      · exact (List.append_nil _).trans passed
      · exact ⟨Nat.le_of_eq settled, fun _ => settled, fun isData => absurd seek isData⟩

private theorem silent_call {request : FileCall} (quiet : session.operations = [])
    (silent : request.written = none) (log : List Written) (tid : Nat) :
    log ++ entriesOf tid (session.operations ++ [request]) = log := by
  rw [quiet, entriesOf, List.nil_append, List.filterMap_cons_none silent]
  exact List.append_nil log

private theorem no_call (quiet : session.operations = []) (log : List Written) (tid : Nat) :
    log ++ entriesOf tid session.operations = log := by
  rw [quiet]
  exact List.append_nil log

theorem FileThread.ioctl (inv : FileThread log tid session) (quiet : session.operations = [])
    {seekto : AesdSeekto} (place : session.conn.pc = .ioctl seekto) :
    FileThread (log ++ entriesOf tid session.step.operations) tid session.step := by
  have held := inv.holds (by rw [place]; rfl)
  have stands := inv.place
  simp only [FilePlace, place] at stands
  have calls : session.conn.call = some (.file (.ioctl seekto)) := by
    rw [Connection.call, place]
  have resumes : session.conn.resume (regularFile.serve session.file (.ioctl seekto)).2 =
      { session.conn with pc := .unlockRefused } := by
    rw [Connection.resume, place]
    rfl
  rw [Session.step_file calls, resumes, silent_call quiet rfl]
  refine FileSession.held ?_ held
  apply inv.toFileSession.moves
  · rfl
  · exact (account_idle rfl).trans (account_idle (by rw [place]; rfl)).symm
  · exact stands.2

theorem FileThread.storeLine (inv : FileThread log tid session) (quiet : session.operations = [])
    {written : Nat} (place : session.conn.pc = .storeLine written) :
    FileThread (log ++ entriesOf tid session.step.operations) tid session.step := by
  have held := inv.holds (by rw [place]; rfl)
  obtain ⟨content, due, passed, stands⟩ := inv.toFileSession
  simp only [Due, Connection.storedLine, place, reduceCtorEq, if_false, List.map_nil,
    List.append_nil] at due
  simp only [Connection.unwritten, place] at passed
  simp only [FilePlace, place] at stands
  obtain ⟨⟨rfl, _closed, size⟩, isData, fresh, settled⟩ := stands
  have calls : session.conn.call = some (.file (.write session.conn.line)) := by
    rw [Connection.call, place]
    rfl
  have served : regularFile.serve session.file (.write session.conn.line) = _ :=
    RegularFile.serve_write_settled settled session.conn.line
  have resumes : session.conn.resume { value := session.conn.line.length, data := [], errno := 0 } =
      { session.conn with pc := .rewind } := by
    have all : writeBufferStep session.conn.length 0 (session.conn.line.length : Int) =
        .written := by
      rw [size]
      simp [writeBufferStep]
    simp only [Connection.resume, place, all]
  have logged : entriesOf tid (session.operations ++ [.write session.conn.line]) =
      [{ writer := .client tid, line := session.conn.line }] := by
    rw [quiet]
    rfl
  rw [Session.step_file calls, served, resumes, logged]
  refine FileSession.held ?_ held
  constructor
  · rw [contentOf_append]
    exact congrArg (· ++ session.conn.line) content
  · have stored : Connection.storedLine { session.conn with pc := .rewind } =
        [session.conn.line] := if_neg isData
    change _ = _ ++ List.map _ (Connection.storedLine _)
    rw [stored, dueAnswers_append, if_pos rfl, due, contentOf_append]
    rfl
  · rw [linesBy_append, if_pos rfl, passed]
    exact List.append_nil _
  · refine ⟨isData, fresh, ?_⟩
    have moved := RegularFile.settled_write settled session.conn.line
    rwa [RegularFile.serve_write_settled settled] at moved

theorem FileThread.rewind (inv : FileThread log tid session) (quiet : session.operations = [])
    (place : session.conn.pc = .rewind) :
    FileThread (log ++ entriesOf tid session.step.operations) tid session.step := by
  have held := inv.holds (by rw [place]; rfl)
  have stands := inv.place
  simp only [FilePlace, place] at stands
  rw [Session.step_rewind place, silent_call quiet rfl]
  refine FileSession.held ?_ held
  apply inv.toFileSession.moves
  · rfl
  · exact (account_answering rfl).trans (account_answering (by rw [place]; rfl)).symm
  · refine ⟨Nat.zero_le _, fun seek => absurd seek stands.1, ?_⟩
    intro _isData
    rw [stands.2.1]
    rfl

/-- The read that finds nothing more ends the answer; it leaves the position at
the end. -/
theorem FileThread.answer (inv : FileThread log tid session) (quiet : session.operations = [])
    (place : session.conn.pc = .readBack)
    (past : session.file.content.length ≤ session.file.position) :
    FileThread (log ++ entriesOf tid session.step.operations) tid session.step := by
  have held := inv.holds (by rw [place]; rfl)
  obtain ⟨content, due, passed, stands⟩ := inv.toFileSession
  simp only [Due, Connection.storedLine, place, reduceCtorEq, if_false] at due
  simp only [Connection.unwritten, place, List.append_nil] at passed
  simp only [FilePlace, place] at stands
  obtain ⟨inside, _atEnd, whole⟩ := stands
  have settled : session.file.Settled := Nat.le_antisymm inside past
  rw [List.drop_of_length_le past, List.append_nil] at whole
  have calls : session.conn.call = some (.file (.read outBufferSize)) := by
    rw [Connection.call, place]
  have reading : RegularFile.serve session.file (.read outBufferSize) =
      (session.file, Ret.zero) := by
    simp only [RegularFile.serve, List.drop_of_length_le past]
    rfl
  have served : regularFile.serve session.file (.read outBufferSize) =
      (session.file, Ret.zero) := reading
  have resumes : session.conn.resume Ret.zero = session.conn.finishLine := by
    rw [Connection.resume, place]
    rfl
  rw [Session.step_file calls, served, resumes, silent_call quiet rfl, Connection.finishLine]
  refine FileSession.held ?_ held
  refine FileSession.nextLine
    { session with operations := session.operations ++ [.read outBufferSize] } _ content ?_ passed
    rfl settled
  rw [due, Connection.dataAnswers, Connection.dataAnswers, List.filter_append]
  congr 1
  by_cases seek : IsSeek session.conn.line
  · simp [Answer.isData, seek]
  · simp only [if_neg seek, List.map_cons, List.map_nil, ← content, ← whole seek]
    simp [Answer.isData, seek]

theorem FileThread.readPiece (inv : FileThread log tid session) (quiet : session.operations = [])
    (place : session.conn.pc = .readBack)
    (before : session.file.position < session.file.content.length) :
    FileThread (log ++ entriesOf tid session.step.operations) tid session.step := by
  have held := inv.holds (by rw [place]; rfl)
  have stands := inv.place
  simp only [FilePlace, place] at stands
  obtain ⟨_inside, atEnd, whole⟩ := stands
  have isData : ¬ IsSeek session.conn.line := by
    intro seek
    have settled : session.file.position = session.file.content.length := atEnd seek
    omega
  have calls : session.conn.call = some (.file (.read outBufferSize)) := by
    rw [Connection.call, place]
  have size : ((session.file.content.drop session.file.position).take outBufferSize).length =
      min outBufferSize (session.file.content.length - session.file.position) := by
    rw [List.length_take, List.length_drop]
  have some : 0 < ((session.file.content.drop session.file.position).take outBufferSize).length := by
    rw [size, outBufferSize]
    omega
  have resumes : session.conn.resume (regularFile.serve session.file (.read outBufferSize)).2 =
      { session.conn with
        pc := .respond 0
        outBuffer := (session.file.content.drop session.file.position).take outBufferSize } := by
    rw [Connection.resume, place]
    exact if_pos (Int.natCast_pos.mpr some)
  rw [Session.step_file calls, resumes, silent_call quiet rfl]
  refine FileSession.held ?_ held
  apply inv.toFileSession.moves
  · rfl
  · exact (account_answering rfl).trans (account_answering (by rw [place]; rfl)).symm
  · refine ⟨?_, isData, some, ?_⟩
    · change session.file.position + _ ≤ session.file.content.length
      rw [size]
      omega
    · change session.conn.sent ++ (session.file.content.drop session.file.position).take
        outBufferSize ++ session.file.content.drop (session.file.position + _) = _
      rw [← List.drop_drop, List.append_assoc, RegularFile.take_append_drop_taken]
      exact whole isData

theorem FileThread.respond (inv : FileThread log tid session) (quiet : session.operations = [])
    {written : Nat} (place : session.conn.pc = .respond written) :
    FileThread (log ++ entriesOf tid session.step.operations) tid session.step := by
  have held := inv.holds (by rw [place]; rfl)
  have stands := inv.place
  simp only [FilePlace, place] at stands
  obtain ⟨inside, isData, before, whole⟩ := stands
  rw [Session.step_respond place, no_call quiet]
  refine FileSession.held ?_ held
  cases session.writes 0 with
  | notReady =>
      rw [resume_notReady place]
      apply inv.toFileSession.leaves
      · rfl
      · rfl
      · rw [Connection.unwritten, place]
  | accepts extra =>
      by_cases remains : written + (extra + 1) < session.conn.outBuffer.length
      · rw [resume_accepts_more place remains]
        apply inv.toFileSession.moves
        · rfl
        · exact (account_answering rfl).trans (account_answering (by rw [place]; rfl)).symm
        · refine ⟨inside, isData, remains, ?_⟩
          change session.conn.sent ++ (session.conn.outBuffer.drop written).take (extra + 1) ++
            session.conn.outBuffer.drop (written + (extra + 1)) ++ _ = _
          rw [← List.drop_drop, List.append_assoc session.conn.sent, List.take_append_drop]
          exact whole
      · rw [resume_accepts_last place before (Nat.le_of_not_lt remains)]
        apply inv.toFileSession.moves
        · rfl
        · exact (account_answering rfl).trans (account_answering (by rw [place]; rfl)).symm
        · exact ⟨inside, fun seek => absurd seek isData, fun _ => whole⟩

theorem FileThread.unlock (inv : FileThread log tid session) (quiet : session.operations = [])
    (place : session.conn.pc = .unlock) :
    FileThread (log ++ entriesOf tid session.step.operations) tid session.step := by
  have stands := inv.place
  simp only [FilePlace, place] at stands
  rw [Session.step_unlock place, no_call quiet]
  constructor
  · apply inv.toFileSession.moves
    · rfl
    · exact (account_idle rfl).trans (account_idle (by rw [place]; rfl)).symm
    · exact stands.1
  · intro inside
    cases inside
  · exact fun _free => stands.2

theorem FileThread.unlockRefused (inv : FileThread log tid session)
    (quiet : session.operations = []) (place : session.conn.pc = .unlockRefused) :
    FileThread (log ++ entriesOf tid session.step.operations) tid session.step := by
  have stands := inv.place
  simp only [FilePlace, place] at stands
  rw [Session.step_unlockRefused place, no_call quiet]
  constructor
  · apply inv.toFileSession.leaves
    · rfl
    · rfl
    · rw [Connection.unwritten, place]
  · intro inside
    cases inside
  · exact fun _free => stands

theorem FileThread.receive (inv : FileThread log tid session) (quiet : session.operations = [])
    (place : session.conn.pc = .receive) :
    FileThread (log ++ entriesOf tid session.step.operations) tid session.step := by
  cases arrives : session.reads with
  | nil =>
      rw [Session.step_finished (Or.inr ⟨place, arrives⟩), no_call quiet]
      exact inv
  | cons result later =>
      have stands := inv.place
      simp only [FilePlace, place] at stands
      rw [Session.step_receive place arrives, no_call quiet]
      cases result with
      | chunk chunk =>
          rw [received_chunk]
          constructor
          · apply inv.toFileSession.moves
            · rfl
            · exact (account_idle rfl).trans (account_idle (by rw [place]; rfl)).symm
            · exact stands
          · intro inside
            cases inside
          · exact inv.settled
      | notReady =>
          rw [received_notReady]
          constructor
          · exact ⟨inv.content, inv.due, inv.passed, inv.place⟩
          · exact inv.holds
          · exact inv.settled
      | closed =>
          rw [received_closed]
          constructor
          · apply inv.toFileSession.leaves
            · rfl
            · rfl
            · rw [Connection.unwritten, place]
          · intro inside
            cases inside
          · exact inv.settled

theorem FileThread.lock (inv : FileThread log tid session) (quiet : session.operations = [])
    {inBytesRead : Int} (place : session.conn.pc = .lock inBytesRead)
    (free : session.fileLock = none) :
    FileThread (log ++ entriesOf tid session.step.operations) tid session.step := by
  have settled := inv.settled free
  obtain ⟨content, due, passed, stands⟩ := inv.toFileSession
  simp only [Due, Connection.storedLine, place, reduceCtorEq, if_false, List.map_nil,
    List.append_nil] at due
  simp only [Connection.unwritten, place, List.append_nil] at passed
  simp only [FilePlace, place] at stands
  rw [Session.step_lock place free, no_call quiet]
  refine FileSession.held ?_ rfl
  exact FileSession.nextLine { session with fileLock := some session.tid } _ content due passed
    stands settled

end Steps

/-! ### One step of a thread -/

section Step

variable {log : List Written} {tid : Nat} {session : Session regularFile}

theorem step_idle
    (idle : session.conn.pc = .returned ∨
      (∃ inBytesRead, session.conn.pc = .lock inBytesRead) ∧ session.fileLock ≠ none) :
    session.step = session := by
  rcases idle with place | ⟨⟨inBytesRead, place⟩, taken⟩
  · exact Session.step_finished (Or.inl place)
  · simp [Session.step, Session.returns, advance, Connection.call, place, taken]

theorem FileThread.step (inv : FileThread log tid session) (quiet : session.operations = []) :
    FileThread (log ++ entriesOf tid session.step.operations) tid session.step := by
  have stays (same : session.step = session) :
      FileThread (log ++ entriesOf tid session.step.operations) tid session.step := by
    rw [same, no_call quiet]
    exact inv
  cases place : session.conn.pc with
  | receive => exact inv.receive quiet place
  | lock inBytesRead =>
      by_cases free : session.fileLock = none
      · exact inv.lock quiet place free
      · exact stays (step_idle (Or.inr ⟨⟨inBytesRead, place⟩, free⟩))
  | ioctl seekto => exact inv.ioctl quiet place
  | storeLine written => exact inv.storeLine quiet place
  | rewind => exact inv.rewind quiet place
  | readBack =>
      by_cases before : session.file.position < session.file.content.length
      · exact inv.readPiece quiet place before
      · exact inv.answer quiet place (Nat.le_of_not_lt before)
  | respond written => exact inv.respond quiet place
  | unlock => exact inv.unlock quiet place
  | unlockRefused => exact inv.unlockRefused quiet place
  | returned => exact stays (step_idle (Or.inl place))

theorem step_operations (quiet : session.operations = []) {request : FileCall}
    (made : request ∈ session.step.operations) : session.conn.call = some (.file request) := by
  unfold Session.step at made
  cases calls : session.conn.call with
  | none =>
      rw [calls, quiet] at made
      cases made
  | some call =>
      rw [calls] at made
      cases call with
      | sockRead count =>
          cases arrives : session.reads with
          | nil =>
              rw [arrives] at made
              change request ∈ session.operations at made
              rw [quiet] at made
              cases made
          | cons result later =>
              rw [arrives] at made
              change request ∈ session.operations at made
              rw [quiet] at made
              cases made
      | file other =>
          change request ∈ session.operations ++ [other] at made
          rw [quiet, List.nil_append, List.mem_singleton] at made
          rw [made]
      | _ =>
          change request ∈ session.operations at made
          rw [quiet] at made
          cases made

theorem FileThread.entries_isLine (inv : FileThread log tid session)
    (quiet : session.operations = []) :
    ∀ entry ∈ entriesOf tid session.step.operations, IsLine newline entry.line := by
  intro entry member
  obtain ⟨line, written, rfl⟩ := List.mem_map.mp member
  obtain ⟨request, made, writes⟩ := List.mem_filterMap.mp written
  have calls := step_operations quiet made
  have stands := inv.place
  unfold Connection.call at calls
  cases place : session.conn.pc with
  | storeLine count =>
      simp only [FilePlace, place] at stands
      obtain ⟨⟨rfl, closed, _size⟩, _others⟩ := stands
      rw [place, Option.some.injEq, Call.file.injEq, List.drop_zero] at calls
      rw [← calls, FileCall.written, Option.some.injEq] at writes
      rw [← writes]
      exact closed
  | _ =>
      rw [place] at calls
      cases calls <;> cases writes

theorem step_outside (outside : session.conn.pc.inSection = false)
    (quiet : session.operations = []) (taken : session.fileLock ≠ none) :
    session.step.file = session.file ∧ session.step.fileLock = session.fileLock ∧
      session.step.operations = [] := by
  cases place : session.conn.pc with
  | receive =>
      cases arrives : session.reads with
      | nil =>
          rw [Session.step_finished (Or.inr ⟨place, arrives⟩)]
          exact ⟨rfl, rfl, quiet⟩
      | cons result later =>
          rw [Session.step_receive place arrives]
          exact ⟨rfl, rfl, quiet⟩
  | lock inBytesRead =>
      rw [step_idle (Or.inr ⟨⟨inBytesRead, place⟩, taken⟩)]
      exact ⟨rfl, rfl, quiet⟩
  | returned =>
      rw [step_idle (Or.inl place)]
      exact ⟨rfl, rfl, quiet⟩
  | _ =>
      rw [place] at outside
      cases outside

end Step

end Aesd.Server
