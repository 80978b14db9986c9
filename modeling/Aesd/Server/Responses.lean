/-
What the clients are sent when the server is the only user of the device.

Whoever holds `file_lock` stands at a known place between the device and the
answers given so far. Every step of the holder keeps this relation, the other
threads do not touch the file, so every data line is answered with the lines
the device holds after it, in the order in which the lines were dispatched.
-/

import Aesd.Lib.Splits
import Aesd.Server.Readiness
import Aesd.Server.World

namespace Aesd.Server

open Driver CircularBuffer AesdCircularBuffer LineStream

/-! ### Answers and the device -/

def Answer.isData (answer : Answer) : Bool := !decide (IsSeek answer.line)

/-- Each answer is the last lines of the device after the line was appended. -/
def AnswersRight (stored : List Bytes) (data : List Answer) : Prop :=
  AtEachStep (fun before answer => answer.sent =
    (retain maxWriteOperationsSupported stored
      ((before ++ [answer]).map Answer.line)).flatten) data

def FileCall.written : FileCall → Option Bytes
  | .write bytes => some bytes
  | _ => none

/-- The device holds what it held at the start and the data lines since then:
those answered, and `extra`. -/
structure DeviceInv (stored : List Bytes) (data : List Answer) (extra : List Bytes)
    (file : OpenFile) (operations : List FileCall) : Prop where
  clean : file.kernel.dev.pending = []
  right : AnswersRight stored data
  held : file.lines = retain maxWriteOperationsSupported stored (data.map Answer.line ++ extra)
  writes : operations.filterMap FileCall.written = data.map Answer.line ++ extra

def Connection.storedLine (conn : Connection) : List Bytes :=
  match conn.pc with
  | .rewind => if IsSeek conn.line then [] else [conn.line]
  | .readBack => if IsSeek conn.line then [] else [conn.line]
  | .respond _ => if IsSeek conn.line then [] else [conn.line]
  | _ => []

def Place (file : OpenFile) (conn : Connection) : Prop :=
  match conn.pc with
  | .ioctl _ => IsSeek conn.line ∧ conn.sent = []
  | .storeLine written =>
      written = 0 ∧ IsLine newline conn.line ∧ conn.line.length = conn.length ∧
        ¬ IsSeek conn.line ∧ conn.sent = []
  | .readBack =>
      ¬ IsSeek conn.line → conn.sent ++ file.content.drop file.fPos.toNat = file.content
  | .respond written =>
      written < conn.outBuffer.length ∧ (¬ IsSeek conn.line →
        conn.sent ++ conn.outBuffer.drop written ++ file.content.drop file.fPos.toNat =
          file.content)
  | .unlockRefused => True
  | .returned => True
  | _ => conn.sent = []

structure SectionInv (stored : List Bytes) (data : List Answer) (session : Session charDevice) :
    Prop where
  device : DeviceInv stored data session.conn.storedLine session.file session.operations
  place : Place session.file session.conn

theorem storedLine_outside {conn : Connection} (outside : conn.pc.inSection = false) :
    conn.storedLine = [] := by
  unfold Connection.storedLine
  cases place : conn.pc with
  | rewind =>
      rw [place] at outside
      cases outside
  | readBack =>
      rw [place] at outside
      cases outside
  | respond written =>
      rw [place] at outside
      cases outside
  | _ => rfl

theorem Place.idle {file : OpenFile} {conn : Connection} (stands : Place file conn)
    (outside : conn.pc.inSection = false) (stays : conn.pc ≠ .returned) : conn.sent = [] := by
  cases place : conn.pc with
  | receive => simpa only [Place, place] using stands
  | lock inBytesRead => simpa only [Place, place] using stands
  | returned => exact absurd place stays
  | _ =>
      rw [place] at outside
      cases outside

/-! ### The steps of the holder -/

section Steps

variable {stored : List Bytes} {data : List Answer} {session : Session charDevice}

theorem SectionInv.nextLine (session : Session charDevice) (conn : Connection)
    (device : DeviceInv stored data [] session.file session.operations) (fresh : conn.sent = []) :
    SectionInv stored data { session with conn := conn.nextLine } := by
  have head := nextLine_cases conn
  generalize conn.nextLine = next at head ⊢
  cases head with
  | done absent => exact ⟨device, fresh⟩
  | data found isData =>
      exact ⟨device, rfl, scanned_line_isLine found, scanned_line_length found, isData, fresh⟩
  | seek found seek seekto => exact ⟨device, seek, fresh⟩
  | @unconverted newlineChar found seek =>
      constructor
      · rw [show Connection.storedLine { conn.scanned newlineChar with pc := .readBack } = []
          from if_pos seek]
        exact device
      · exact fun isData => absurd seek isData

theorem SectionInv.ioctl (inv : SectionInv stored data session) {seekto : AesdSeekto}
    (place : session.conn.pc = .ioctl seekto) :
    session.step.conn.answers = session.conn.answers ∧ SectionInv stored data session.step := by
  obtain ⟨device, stands⟩ := inv
  rw [Connection.storedLine, place] at device
  simp only [Place, place] at stands
  have calls : session.conn.call = some (.file (.ioctl seekto)) := by
    rw [Connection.call, place]
  have writes : (session.operations ++ [FileCall.ioctl seekto]).filterMap FileCall.written =
      session.operations.filterMap FileCall.written := by
    simp [FileCall.written]
  rw [Session.step_file calls]
  by_cases accepts : session.file.Accepts seekto
  · have served : charDevice.serve session.file (.ioctl seekto) = _ := serve_ioctl_accepted accepts
    have resumes : session.conn.resume Ret.zero = { session.conn with pc := .readBack } := by
      rw [Connection.resume, place]
      rfl
    rw [served, resumes]
    refine ⟨rfl, ⟨?_, ?_⟩⟩
    · rw [show Connection.storedLine { session.conn with pc := .readBack } = [] from
        if_pos stands.1]
      exact ⟨device.clean, device.right, device.held, writes.trans device.writes⟩
    · exact fun data => absurd stands.1 data
  · have served : charDevice.serve session.file (.ioctl seekto) = _ := serve_ioctl_refused accepts
    have resumes : session.conn.resume { value := -1, data := [], errno := einval } =
        { session.conn with pc := .unlockRefused } := by
      rw [Connection.resume, place]
      rfl
    rw [served, resumes]
    exact ⟨rfl, ⟨⟨device.clean, device.right, device.held, writes.trans device.writes⟩, trivial⟩⟩

theorem SectionInv.storeLine (inv : SectionInv stored data session) {written : Nat}
    (place : session.conn.pc = .storeLine written) :
    session.step.conn.answers = session.conn.answers ∧ SectionInv stored data session.step := by
  obtain ⟨device, stands⟩ := inv
  rw [Connection.storedLine, place] at device
  simp only [Place, place] at stands
  obtain ⟨rfl, closed, size, isData, fresh⟩ := stands
  have calls : session.conn.call = some (.file (.write session.conn.line)) := by
    rw [Connection.call, place]
    rfl
  have value := (serve_write session.file session.conn.line).1
  obtain ⟨clean, held⟩ := serve_line device.clean closed
  have resumes : session.conn.resume (charDevice.serve session.file
      (.write session.conn.line)).2 = { session.conn with pc := .rewind } := by
    have all : writeBufferStep session.conn.length 0 (charDevice.serve session.file
        (.write session.conn.line)).2.value = .written := by
      change writeBufferStep session.conn.length 0
        (session.file.serve (.write session.conn.line)).2.value = .written
      rw [value, size]
      simp [writeBufferStep]
    simp only [Connection.resume, place, all]
  rw [Session.step_file calls, resumes]
  refine ⟨rfl, ⟨?_, ?_⟩⟩
  · rw [show Connection.storedLine { session.conn with pc := .rewind } = [session.conn.line] from
      if_neg isData]
    constructor
    · exact clean
    · exact device.right
    · refine held.trans ?_
      rw [device.held, retain_retain, List.append_nil]
    · rw [List.filterMap_append, device.writes, List.append_nil]
      rfl
  · exact fresh

theorem SectionInv.rewind (inv : SectionInv stored data session)
    (place : session.conn.pc = .rewind) :
    session.step.conn.answers = session.conn.answers ∧ SectionInv stored data session.step := by
  obtain ⟨device, stands⟩ := inv
  rw [Connection.storedLine, place] at device
  simp only [Place, place] at stands
  have served : (charDevice.serve session.file .lseekSet).1 = session.file.moveTo 0 :=
    serve_lseekSet session.file
  rw [Session.step_rewind place, served]
  refine ⟨rfl, ⟨?_, ?_⟩⟩
  · refine ⟨device.clean, device.right, device.held, ?_⟩
    rw [List.filterMap_append, device.writes]
    exact List.append_nil _
  · intro _
    rw [stands]
    rfl

/-- The read that finds nothing more ends the answer. -/
theorem SectionInv.answer (inv : SectionInv stored data session)
    (place : session.conn.pc = .readBack)
    (past : session.file.content.length ≤ session.file.fPos.toNat) :
    ∃ added, session.step.conn.answers = session.conn.answers ++ added ∧
      SectionInv stored (data ++ added.filter Answer.isData) session.step := by
  obtain ⟨device, stands⟩ := inv
  rw [Connection.storedLine, place] at device
  simp only [Place, place] at stands
  rw [List.drop_of_length_le past, List.append_nil] at stands
  have calls : session.conn.call = some (.file (.read outBufferSize)) := by
    rw [Connection.call, place]
  have served : charDevice.serve session.file (.read outBufferSize) = _ := serve_read_end past
  have resumes : session.conn.resume Ret.zero = session.conn.finishLine := by
    rw [Connection.resume, place]
    rfl
  have reads : (session.operations ++ [FileCall.read outBufferSize]).filterMap FileCall.written =
      session.operations.filterMap FileCall.written := by
    simp [FileCall.written]
  rw [Session.step_file calls, served, resumes, Connection.finishLine]
  refine ⟨[{ line := session.conn.line, sent := session.conn.sent }], ?_, ?_⟩
  · exact (nextLine_sent _).1
  · refine SectionInv.nextLine
      { session with operations := session.operations ++ [.read outBufferSize] } _ ?_ rfl
    by_cases seek : IsSeek session.conn.line
    · have none : [({ line := session.conn.line, sent := session.conn.sent } : Answer)].filter
          Answer.isData = [] := by
        simp [Answer.isData, seek]
      rw [none, List.append_nil]
      rw [if_pos seek] at device
      exact ⟨device.clean, device.right, device.held, reads.trans device.writes⟩
    · have one : [({ line := session.conn.line, sent := session.conn.sent } : Answer)].filter
          Answer.isData = [{ line := session.conn.line, sent := session.conn.sent }] := by
        simp [Answer.isData, seek]
      rw [one]
      rw [if_neg seek] at device
      have lines : (data ++ [({ line := session.conn.line, sent := session.conn.sent } :
          Answer)]).map Answer.line = data.map Answer.line ++ [session.conn.line] := by
        rw [List.map_append]
        rfl
      constructor
      · exact device.clean
      · refine atEachStep_append.mpr ⟨device.right, ?_⟩
        change session.conn.sent = _
        rw [lines, ← device.held, stands seek]
        rfl
      · rw [lines, List.append_nil]
        exact device.held
      · rw [lines, List.append_nil]
        exact reads.trans device.writes

theorem SectionInv.readPiece (inv : SectionInv stored data session)
    (place : session.conn.pc = .readBack)
    (before : session.file.fPos.toNat < session.file.content.length) :
    session.step.conn.answers = session.conn.answers ∧ SectionInv stored data session.step := by
  obtain ⟨device, stands⟩ := inv
  rw [Connection.storedLine, place] at device
  simp only [Place, place] at stands
  have calls : session.conn.call = some (.file (.read outBufferSize)) := by
    rw [Connection.call, place]
  obtain ⟨piece, positive, _, inside, reading⟩ := serve_read_before before
  have served : charDevice.serve session.file (.read outBufferSize) = _ := reading
  rw [Session.step_file calls, served]
  simp only [Connection.resume, place, Int.natCast_pos.mpr positive, if_true]
  refine ⟨trivial, ⟨?_, ?_⟩⟩
  · refine ⟨device.clean, device.right, device.held, ?_⟩
    rw [List.filterMap_append, device.writes]
    exact List.append_nil _
  · constructor
    · change 0 < ((session.file.content.drop session.file.fPos.toNat).take piece).length
      rw [List.length_take, List.length_drop]
      omega
    · intro isData
      change session.conn.sent ++ (session.file.content.drop session.file.fPos.toNat).take piece ++
        session.file.content.drop (session.file.fPos.toNat + piece) = session.file.content
      rw [← List.drop_drop, List.append_assoc, List.take_append_drop]
      exact stands isData

theorem SectionInv.respond (inv : SectionInv stored data session) {written : Nat}
    (place : session.conn.pc = .respond written) (ready : session.writes 0 ≠ .notReady) :
    session.step.conn.answers = session.conn.answers ∧ SectionInv stored data session.step := by
  obtain ⟨device, stands⟩ := inv
  rw [Connection.storedLine, place] at device
  simp only [Place, place] at stands
  obtain ⟨inside, whole⟩ := stands
  rw [Session.step_respond place]
  cases result : session.writes 0 with
  | notReady => exact absurd result ready
  | accepts extra =>
      by_cases remains : written + (extra + 1) < session.conn.outBuffer.length
      · rw [resume_accepts_more place remains]
        refine ⟨rfl, ⟨device, remains, ?_⟩⟩
        intro isData
        change session.conn.sent ++ (session.conn.outBuffer.drop written).take (extra + 1) ++
          session.conn.outBuffer.drop (written + (extra + 1)) ++ _ = _
        rw [← List.drop_drop, List.append_assoc session.conn.sent, List.take_append_drop]
        exact whole isData
      · rw [resume_accepts_last place inside (Nat.le_of_not_lt remains)]
        exact ⟨rfl, ⟨device, whole⟩⟩

theorem SectionInv.unlock (inv : SectionInv stored data session)
    (place : session.conn.pc = .unlock) :
    session.step.conn.answers = session.conn.answers ∧ SectionInv stored data session.step := by
  obtain ⟨device, stands⟩ := inv
  rw [Connection.storedLine, place] at device
  simp only [Place, place] at stands
  rw [Session.step_unlock place]
  exact ⟨rfl, ⟨device, stands⟩⟩

theorem SectionInv.unlockRefused (inv : SectionInv stored data session)
    (place : session.conn.pc = .unlockRefused) :
    session.step.conn.answers = session.conn.answers ∧ SectionInv stored data session.step := by
  obtain ⟨device, stands⟩ := inv
  rw [Connection.storedLine, place] at device
  rw [Session.step_unlockRefused place]
  exact ⟨rfl, ⟨device, trivial⟩⟩

theorem SectionInv.step (inv : SectionInv stored data session)
    (inside : session.conn.pc.inSection = true) (ready : session.writes 0 ≠ .notReady) :
    ∃ added, session.step.conn.answers = session.conn.answers ++ added ∧
      SectionInv stored (data ++ added.filter Answer.isData) session.step := by
  have unanswered (kept : session.step.conn.answers = session.conn.answers ∧
      SectionInv stored data session.step) :
      ∃ added, session.step.conn.answers = session.conn.answers ++ added ∧
        SectionInv stored (data ++ added.filter Answer.isData) session.step := by
    refine ⟨[], ?_, ?_⟩
    · rw [kept.1, List.append_nil]
    · rw [List.filter_nil, List.append_nil]
      exact kept.2
  cases place : session.conn.pc with
  | receive =>
      rw [place] at inside
      cases inside
  | lock inBytesRead =>
      rw [place] at inside
      cases inside
  | returned =>
      rw [place] at inside
      cases inside
  | ioctl seekto => exact unanswered (inv.ioctl place)
  | storeLine written => exact unanswered (inv.storeLine place)
  | rewind => exact unanswered (inv.rewind place)
  | readBack =>
      by_cases before : session.file.fPos.toNat < session.file.content.length
      · exact unanswered (inv.readPiece place before)
      · exact inv.answer place (Nat.le_of_not_lt before)
  | respond written => exact unanswered (inv.respond place ready)
  | unlock => exact unanswered (inv.unlock place)
  | unlockRefused => exact unanswered (inv.unlockRefused place)

end Steps

/-! ### The section ends -/

namespace Session

variable {device : FileModel} {session : Session device}

theorem Accepting.reached (accepting : session.Accepting) {final : Session device}
    (reached : Reaches step session final) : final.Accepting :=
  Reaches.invariant (fun _ ready => accepting_step ready) accepting reached

theorem unlocks (session : Session device)
    (place : session.conn.pc = .unlock ∨ session.conn.pc = .unlockRefused) :
    ∃ final, Reaches step session final ∧ final.fileLock = none := by
  rcases place with unlock | refused
  · exact ⟨_, Reaches.one (step_unlock unlock), rfl⟩
  · exact ⟨_, Reaches.one (step_unlockRefused refused), rfl⟩

theorem head_unlocks (accepting : session.Accepting) {conn : Connection}
    (head : session.conn = conn.nextLine) :
    ∃ final, Reaches step session final ∧ final.fileLock = none := by
  have responding : session.conn.Responding := by
    intro written responds
    rw [head] at responds
    exact absurd responds (nextLine_not_respond conn written)
  obtain ⟨file, operations, final, run, ends⟩ :=
    section_reaches conn session.idealised rfl head
  obtain ⟨last, reached, follows⟩ := accepting_follows accepting responding run
  have place : last.conn.pc = .unlock ∨ last.conn.pc = .unlockRefused := by
    rw [follows.same]
    exact ends.place
  obtain ⟨unlocked, unlocking, free⟩ := unlocks last place
  exact ⟨unlocked, reached.trans unlocking, free⟩

theorem readBack_unlocks (accepting : session.Accepting)
    (place : session.conn.pc = .readBack) :
    ∃ final, Reaches step session final ∧ final.fileLock = none := by
  have responding : session.conn.Responding := by
    intro written responds
    rw [place] at responds
    cases responds
  obtain ⟨bytes, drained, drains⟩ := exists_drains device session.file
  obtain ⟨operations, outBuffer, run⟩ := readBack_reaches drains session.idealised rfl rfl place
  obtain ⟨last, reached, follows⟩ := accepting_follows accepting responding run
  have head : last.conn =
      (session.conn.answered outBuffer (session.conn.sent ++ bytes)).nextLine := by
    rw [follows.same]
    rfl
  obtain ⟨final, unlocking, free⟩ := head_unlocks (accepting.reached reached) head
  exact ⟨final, reached.trans unlocking, free⟩

/-- Whoever holds the lock gives it back after finitely many steps of its own. -/
theorem section_unlocks {session : Session charDevice} (accepting : session.Accepting)
    (stands : Place session.file session.conn) (inside : session.conn.pc.inSection = true) :
    ∃ final, Reaches step session final ∧ final.fileLock = none := by
  have continues {next : Session charDevice} (reached : Reaches step session next)
      (place : next.conn.pc = .readBack) :
      ∃ final, Reaches step session final ∧ final.fileLock = none := by
    obtain ⟨final, unlocking, free⟩ := readBack_unlocks (accepting.reached reached) place
    exact ⟨final, reached.trans unlocking, free⟩
  cases place : session.conn.pc with
  | receive =>
      rw [place] at inside
      cases inside
  | lock inBytesRead =>
      rw [place] at inside
      cases inside
  | returned =>
      rw [place] at inside
      cases inside
  | unlock => exact unlocks session (Or.inl place)
  | unlockRefused => exact unlocks session (Or.inr place)
  | readBack => exact continues (Reaches.refl step session) place
  | rewind => exact continues (Reaches.one (step_rewind place)) rfl
  | ioctl seekto =>
      have calls : session.conn.call = some (.file (.ioctl seekto)) := by
        rw [Connection.call, place]
      have moves := step_file calls
      simp only [Connection.resume, place] at moves
      split at moves
      · have refused : session.step.conn.pc = .unlockRefused := by rw [moves]
        obtain ⟨final, unlocking, free⟩ := unlocks session.step (Or.inr refused)
        exact ⟨final, Reaches.head rfl unlocking, free⟩
      · exact continues (Reaches.one moves) rfl
  | storeLine written =>
      simp only [Place, place] at stands
      obtain ⟨rfl, closed, size, _⟩ := stands
      have positive : 0 < session.conn.length := by
        rw [← size]
        exact List.length_pos_iff.mpr closed.ne_nil
      obtain ⟨operations, stored⟩ := store_reaches
        (charDevice_stores session.file session.conn.line) session rfl 0 place rfl size positive
      exact continues (stored.trans (Reaches.one (step_rewind rfl))) rfl
  | respond written =>
      simp only [Place, place] at stands
      rcases respond_reaches session written place stands.1 with
        ⟨writes, reached⟩ | ⟨writes, part, reached, _⟩
      · exact continues reached rfl
      · have ready := (accepting.reached reached).2
        cases ready

end Session

end Aesd.Server
