/-
Readiness of the socket.

A session follows the ideal one, in which the peer takes everything at once and
every read finds something: not-ready results of reads change nothing, and a
response may be taken in pieces. A not-ready result of a write breaks the
session off.
-/

import Aesd.Server.CharDevice
import Aesd.Server.Receive

namespace Aesd.Server

open Driver LineStream

def SockRead.ready : SockRead → Bool
  | .notReady => false
  | _ => true

def Connection.Responding (conn : Connection) : Prop :=
  ∀ written, conn.pc = .respond written →
    written = 0 ∧ conn.outBuffer ≠ [] ∧ conn.outBuffer.length ≤ outBufferSize

theorem nextLine_not_respond (conn : Connection) (written : Nat) :
    conn.nextLine.pc ≠ .respond written := by
  have head := nextLine_cases conn
  generalize conn.nextLine = next at head ⊢
  cases head <;> simp

theorem nextLine_sent (conn : Connection) :
    conn.nextLine.answers = conn.answers ∧ conn.nextLine.sent = conn.sent := by
  have head := nextLine_cases conn
  generalize conn.nextLine = next at head ⊢
  cases head <;> exact ⟨rfl, rfl⟩

/-! ### What the peer has been sent -/

theorem nextLine_delivered (conn : Connection) : conn.nextLine.delivered = conn.delivered := by
  unfold Connection.delivered
  rw [(nextLine_sent conn).1, (nextLine_sent conn).2]

theorem finishLine_delivered (conn : Connection) : conn.finishLine.delivered = conn.delivered := by
  rw [Connection.finishLine, nextLine_delivered]
  simp [Connection.delivered]

/-- No answer is withdrawn and nothing is taken back from the peer. -/
structure Grows (before after : Connection) : Prop where
  answers : before.answers <+: after.answers
  delivered : before.delivered <+: after.delivered

theorem Grows.of_same {before after : Connection} (answers : after.answers = before.answers)
    (sent : before.sent <+: after.sent) : Grows before after := by
  constructor
  · rw [answers]
  · unfold Connection.delivered
    rw [answers]
    exact (List.prefix_append_right_inj _).mpr sent

theorem Grows.nextLine (conn : Connection) : Grows conn conn.nextLine := by
  apply Grows.of_same (nextLine_sent conn).1
  rw [(nextLine_sent conn).2]

theorem Grows.finishLine (conn : Connection) : Grows conn conn.finishLine := by
  constructor
  · rw [Connection.finishLine, (nextLine_sent _).1]
    exact List.prefix_append _ _
  · rw [finishLine_delivered]

theorem resume_grows (conn : Connection) (ret : Ret) : Grows conn (conn.resume ret) := by
  have unsent : conn.sent <+: conn.sent := List.prefix_refl _
  have resumed := resume_cases conn ret
  generalize conn.resume ret = next at resumed ⊢
  cases resumed with
  | @enters inBytesRead =>
      have entered := Grows.nextLine
        { conn with
          inBuffer :=
            if 0 ≤ inBytesRead then conn.inBuffer.set inBytesRead.toNat 0 else conn.inBuffer
          prevNewline := 0 }
      exact ⟨entered.answers, entered.delivered⟩
  | finishes => exact Grows.finishLine conn
  | responds | responded =>
      apply Grows.of_same
      · rfl
      · exact List.prefix_append _ _
  | _ => exact Grows.of_same rfl unsent

/-! ### Responses -/

theorem resume_responding {conn : Connection} (idle : ∀ written, conn.pc ≠ .respond written)
    {ret : Ret} (data : conn.pc = .readBack → 0 < ret.value →
      ret.data ≠ [] ∧ ret.data.length ≤ outBufferSize) :
    (conn.resume ret).Responding := by
  have resumed := resume_cases conn ret
  generalize conn.resume ret = next at resumed ⊢
  intro written responding
  cases resumed with
  | responds place | responded place | breaks place => exact absurd place (idle _)
  | reads place some => exact ⟨(Pc.respond.inj responding).symm, data place some⟩
  | enters | finishes => exact absurd responding (nextLine_not_respond _ written)
  | waits place | stays place =>
      rw [place] at responding
      cases responding
  | _ => cases responding

theorem resume_notReady {conn : Connection} {written : Nat} (place : conn.pc = .respond written)
    (bytes : Bytes) : conn.resume (SockWrite.notReady.ret bytes) = conn.leave := by
  simp [Connection.resume, place, SockWrite.ret, writeBufferStep]

theorem resume_accepts_more {conn : Connection} {written : Nat}
    (place : conn.pc = .respond written) {extra : Nat}
    (remains : written + (extra + 1) < conn.outBuffer.length) :
    conn.resume ((SockWrite.accepts extra).ret (conn.outBuffer.drop written)) =
      { conn with
        pc := .respond (written + (extra + 1))
        sent := conn.sent ++ (conn.outBuffer.drop written).take (extra + 1) } := by
  have taken : min (extra + 1) (conn.outBuffer.drop written).length = extra + 1 := by
    rw [List.length_drop]
    omega
  have continues : writeBufferStep conn.outBuffer.length written ((extra + 1 : Nat) : Int) =
      .more (written + (extra + 1)) := by
    rw [writeBufferStep, if_neg (by omega), Int.toNat_natCast, if_pos remains]
  simp only [Connection.resume, place, SockWrite.ret, taken, continues, Int.toNat_natCast]

theorem resume_accepts_last {conn : Connection} {written : Nat}
    (place : conn.pc = .respond written) {extra : Nat}
    (inside : written < conn.outBuffer.length)
    (last : conn.outBuffer.length ≤ written + (extra + 1)) :
    conn.resume ((SockWrite.accepts extra).ret (conn.outBuffer.drop written)) =
      { conn with
        pc := .readBack
        sent := conn.sent ++ conn.outBuffer.drop written } := by
  have taken : min (extra + 1) (conn.outBuffer.drop written).length =
      (conn.outBuffer.drop written).length := by
    rw [List.length_drop]
    omega
  have ends : writeBufferStep conn.outBuffer.length written
      ((conn.outBuffer.drop written).length : Int) = .written := by
    rw [writeBufferStep, if_neg (by omega), Int.toNat_natCast, List.length_drop,
      if_neg (by omega)]
  simp only [Connection.resume, place, SockWrite.ret, taken, ends, Int.toNat_natCast,
    List.take_length]

namespace Session

variable {device : FileModel}

theorem step_grows (session : Session device) : Grows session.conn session.step.conn := by
  rcases session.step_conn with same | ⟨ret, returned⟩
  · rw [same]
    exact Grows.of_same rfl (List.prefix_refl _)
  · rw [returned]
    exact resume_grows session.conn ret

theorem step_peer {session : Session device} (reads : List SockRead) (writes : Nat → SockWrite)
    (receiving : session.conn.pc ≠ .receive)
    (idle : ∀ written, session.conn.pc ≠ .respond written) :
    { session with reads := reads, writes := writes }.step =
      { session.step with reads := reads, writes := writes } := by
  unfold step Connection.call
  cases place : session.conn.pc with
  | receive => exact absurd place receiving
  | respond written => exact absurd place (idle written)
  | _ => simp only [returns]

theorem step_quiet {session : Session device} (receiving : session.conn.pc ≠ .receive)
    (idle : ∀ written, session.conn.pc ≠ .respond written) :
    session.step.reads = session.reads ∧ session.step.writes = session.writes ∧
      session.step.writeNotReady = session.writeNotReady := by
  unfold step Connection.call
  cases place : session.conn.pc with
  | receive => exact absurd place receiving
  | respond written => exact absurd place (idle written)
  | _ => exact ⟨rfl, rfl, rfl⟩

/-! ### Reads that find nothing -/

theorem skip_notReady (session : Session device) (place : session.conn.pc = .receive)
    {result : SockRead} {later : List SockRead}
    (next : session.reads.filter SockRead.ready = result :: later) :
    ∃ behind, Reaches step session { session with reads := result :: behind } ∧
      behind.filter SockRead.ready = later := by
  induction reads : session.reads generalizing session with
  | nil =>
      rw [reads] at next
      cases next
  | cons head tail ih =>
      rw [reads] at next
      cases head with
      | notReady =>
          have waits := step_receive place reads
          rw [received_notReady] at waits
          obtain ⟨behind, reached, rest⟩ := ih { session with reads := tail } place
            next rfl
          exact ⟨behind, Reaches.head waits reached, rest⟩
      | closed =>
          obtain ⟨rfl, rfl⟩ := List.cons.inj next
          exact ⟨tail, by rw [← reads]; exact Reaches.refl step session, rfl⟩
      | chunk chunk =>
          obtain ⟨rfl, rfl⟩ := List.cons.inj next
          exact ⟨tail, by rw [← reads]; exact Reaches.refl step session, rfl⟩

theorem skip_all (session : Session device) (place : session.conn.pc = .receive)
    (none : session.reads.filter SockRead.ready = []) :
    Reaches step session { session with reads := [] } := by
  induction reads : session.reads generalizing session with
  | nil =>
      rw [← reads]
      exact Reaches.refl step session
  | cons head tail ih =>
      rw [reads] at none
      cases head with
      | notReady =>
          have waits := step_receive place reads
          rw [received_notReady] at waits
          exact Reaches.head waits (ih { session with reads := tail } place none rfl)
      | closed => cases none
      | chunk chunk => cases none

/-! ### A response in pieces -/

/-- The rest of a response is sent, or a write that is not ready ends the
function before its last byte. -/
theorem respond_reaches (session : Session device) (written : Nat)
    (place : session.conn.pc = .respond written)
    (inside : written < session.conn.outBuffer.length) :
    (∃ writes, Reaches step session
      { session with
        writes := writes
        conn := { session.conn with
          pc := .readBack
          sent := session.conn.sent ++ session.conn.outBuffer.drop written } }) ∨
    (∃ writes part, Reaches step session
      { session with
        writes := writes
        writeNotReady := true
        conn := Connection.leave { session.conn with sent := session.conn.sent ++ part } } ∧
      part.length < (session.conn.outBuffer.drop written).length) := by
  induction left : session.conn.outBuffer.length - written using Nat.strong_induction_on
    generalizing session written with
  | _ size ih =>
      have first := step_respond place
      cases result : session.writes 0 with
      | notReady =>
          rw [result, resume_notReady place] at first
          right
          refine ⟨fun index => session.writes (index + 1), [], Reaches.one ?_, ?_⟩
          · rw [first, List.append_nil]
            simp
          · rw [List.length_drop, List.length_nil]
            omega
      | accepts extra =>
          rw [result] at first
          simp only [reduceCtorEq, decide_false, Bool.or_false] at first
          by_cases remains : written + (extra + 1) < session.conn.outBuffer.length
          · rw [resume_accepts_more place remains] at first
            have split := List.take_append_drop (extra + 1) (session.conn.outBuffer.drop written)
            rw [List.drop_drop] at split
            have shorter : session.conn.outBuffer.length - (written + (extra + 1)) < size := by
              omega
            rcases ih _ shorter
              { session with
                writes := fun index => session.writes (index + 1)
                conn := { session.conn with
                  pc := .respond (written + (extra + 1))
                  sent := session.conn.sent ++
                    (session.conn.outBuffer.drop written).take (extra + 1) } }
              _ rfl remains rfl with ⟨writes, reached⟩ | ⟨writes, part, reached, short⟩
            · left
              refine ⟨writes, Reaches.head first ?_⟩
              rw [List.append_assoc, split] at reached
              exact reached
            · right
              rw [List.append_assoc] at reached
              refine ⟨writes, _, Reaches.head first reached, ?_⟩
              have whole := congrArg List.length split
              change part.length <
                (session.conn.outBuffer.drop (written + (extra + 1))).length at short
              rw [List.length_append] at whole ⊢
              omega
          · rw [resume_accepts_last place inside (Nat.le_of_not_lt remains)] at first
            left
            exact ⟨_, Reaches.one first⟩

/-! ### Following the ideal session -/

/-- The session stands where the ideal one does, with its own peer. -/
structure Follows (ideal session : Session device) : Prop where
  takesAll : ideal.Ideal
  same : session = { ideal with reads := session.reads, writes := session.writes }
  reads : ideal.reads = session.reads.filter SockRead.ready
  ready : ideal.writeNotReady = false
  responding : ideal.conn.Responding

/-- The session has ended in the middle of a response that the ideal one sends. -/
structure BrokenOff (ideal session : Session device) : Prop where
  left : session.conn.pc = .returned
  notReady : session.writeNotReady = true
  short : session.conn.delivered.length < ideal.conn.delivered.length

theorem BrokenOff.step {ideal session : Session device} (broken : BrokenOff ideal session) :
    BrokenOff ideal.step session := by
  constructor
  · exact broken.left
  · exact broken.notReady
  · exact Nat.lt_of_lt_of_le broken.short (step_grows ideal).delivered.length_le

theorem step_responding {session : Session device}
    (idle : ∀ written, session.conn.pc ≠ .respond written) : session.step.conn.Responding := by
  by_cases reading : session.conn.pc = .readBack
  · have calls : session.conn.call = some (.file (.read outBufferSize)) := by
      rw [Connection.call, reading]
    rw [step_file calls]
    apply resume_responding idle
    intro _ positive
    have counts := device.readCounts session.file
    constructor
    · intro empty
      rw [counts, empty] at positive
      simp at positive
    · exact device.readFits session.file
  · rcases session.step_conn with same | ⟨ret, returned⟩
    · intro written responds
      rw [same] at responds
      exact absurd responds (idle written)
    · rw [returned]
      exact resume_responding idle fun place => absurd place reading

section Matched

variable {ideal session : Session device}

theorem Follows.matched_receive (follows : Follows ideal session)
    (receiving : ideal.conn.pc = .receive) :
    ∃ next, Reaches step session next ∧ Follows ideal.step next := by
  obtain ⟨takesAll, same, reads, ready, responding⟩ := follows
  have here : session.conn.pc = .receive := by rw [same]; exact receiving
  have idle : ∀ written, ideal.conn.pc ≠ .respond written := by simp [receiving]
  cases next : ideal.reads with
  | nil =>
      refine ⟨session, Reaches.refl step session, ?_⟩
      rw [step_finished (Or.inr ⟨receiving, next⟩)]
      exact ⟨takesAll, same, reads, ready, responding⟩
  | cons result later =>
      rw [next] at reads
      obtain ⟨behind, reached, rest⟩ := skip_notReady session here reads.symm
      have moves : { session with reads := result :: behind }.step =
          { session with reads := behind, conn := session.conn.received result.ret } := by
        apply step_receive
        · exact here
        · rfl
      have responds := step_responding idle
      rw [step_receive receiving next] at responds ⊢
      refine ⟨_, reached.trans (Reaches.one moves), takesAll, ?_, ?_, ready, responds⟩
      · rw [same]
      · exact rest.symm

theorem Follows.matched_respond (follows : Follows ideal session) {written : Nat}
    (place : ideal.conn.pc = .respond written) :
    ∃ next, Reaches step session next ∧
      (Follows ideal.step next ∨ BrokenOff ideal.step next) := by
  obtain ⟨takesAll, same, reads, ready, responding⟩ := follows
  obtain ⟨rfl, nonempty, fits⟩ := responding written place
  have here : session.conn.pc = .respond 0 := by rw [same]; exact place
  have buffer : session.conn.outBuffer = ideal.conn.outBuffer := by rw [same]
  have inside : 0 < session.conn.outBuffer.length := by
    rw [buffer]
    exact List.length_pos_iff.mpr nonempty
  have moves := respond_ideal takesAll place nonempty fits
  rcases respond_reaches session 0 here inside with
    ⟨writes, reached⟩ | ⟨writes, part, reached, short⟩
  · refine ⟨_, reached, Or.inl ?_⟩
    rw [moves]
    constructor
    · exact takesAll
    · rw [same, List.drop_zero]
    · exact reads
    · exact ready
    · intro written responds
      cases responds
  · refine ⟨_, reached, Or.inr ?_⟩
    rw [moves]
    constructor
    · rfl
    · rfl
    · rw [List.drop_zero, buffer] at short
      rw [same]
      simp only [Connection.delivered, Connection.leave, List.length_append]
      omega

theorem Follows.step_quiet (follows : Follows ideal session) (waiting : ideal.conn.pc ≠ .receive)
    (idle : ∀ written, ideal.conn.pc ≠ .respond written) : Follows ideal.step session.step := by
  obtain ⟨takesAll, same, reads, ready, _responding⟩ := follows
  have steps := step_peer session.reads session.writes waiting idle
  rw [← same] at steps
  obtain ⟨sameReads, sameWrites, sameReady⟩ := Session.step_quiet waiting idle
  constructor
  · exact sameWrites.trans takesAll
  · rw [steps]
  · rw [steps, sameReads]
    exact reads
  · exact sameReady.trans ready
  · exact step_responding idle

theorem Follows.matched (follows : Follows ideal session) :
    ∃ next, Reaches step session next ∧
      (Follows ideal.step next ∨ BrokenOff ideal.step next) := by
  by_cases receiving : ideal.conn.pc = .receive
  · obtain ⟨next, reached, after⟩ := follows.matched_receive receiving
    exact ⟨next, reached, Or.inl after⟩
  · by_cases sending : ∃ written, ideal.conn.pc = .respond written
    · obtain ⟨written, place⟩ := sending
      exact follows.matched_respond place
    · have after := follows.step_quiet receiving fun written place => sending ⟨written, place⟩
      exact ⟨session.step, Reaches.one rfl, Or.inl after⟩

end Matched

/-! ### Whole runs -/

def idealised (session : Session device) : Session device :=
  { session with
    reads := session.reads.filter SockRead.ready
    writes := fun _ => .accepts outBufferSize }

theorem follows_or_breaks {session final : Session device}
    (ready : session.writeNotReady = false) (responding : session.conn.Responding)
    (run : Reaches step session.idealised final) :
    ∃ last, Reaches step session last ∧ (Follows final last ∨ BrokenOff final last) := by
  have follows : Follows session.idealised session := ⟨rfl, rfl, rfl, ready, responding⟩
  exact Reaches.simulate (fun _ _ follows => Follows.matched follows)
    (fun _ _ broken => broken.step) follows run

structure EndsAs (final last : Session device) : Prop where
  conn : last.conn = final.conn
  operations : last.operations = final.operations
  ready : last.writeNotReady = false

/-- Every session ends, as the ideal one does or broken off. -/
theorem ends_or_breaks {session final : Session device} (ready : session.writeNotReady = false)
    (responding : session.conn.Responding) (run : Reaches step session.idealised final)
    (finished : final.Finished) :
    ∃ last, Reaches step session last ∧ last.Finished ∧
      (EndsAs final last ∨ BrokenOff final last) := by
  obtain ⟨next, reached, followed | broken⟩ := follows_or_breaks ready responding run
  · have sameConn : next.conn = final.conn := by rw [followed.same]
    have ends : EndsAs final next := by
      constructor
      · exact sameConn
      · rw [followed.same]
      · rw [followed.same]
        exact followed.ready
    rcases finished with left | ⟨place, nothing⟩
    · refine ⟨next, reached, Or.inl ?_, Or.inl ends⟩
      rw [sameConn, left]
    · have here : next.conn.pc = .receive := by rw [sameConn, place]
      have none : next.reads.filter SockRead.ready = [] := by rw [← followed.reads, nothing]
      refine ⟨_, reached.trans (skip_all next here none), Or.inr ⟨here, rfl⟩, Or.inl ?_⟩
      exact ⟨ends.conn, ends.operations, ends.ready⟩
  · exact ⟨next, reached, Or.inl broken.left, Or.inr broken⟩

/-- A peer that is always ready to take bytes. -/
def Accepting (session : Session device) : Prop :=
  (∀ index, session.writes index ≠ .notReady) ∧ session.writeNotReady = false

theorem accepting_step {session : Session device} (accepting : session.Accepting) :
    session.step.Accepting := by
  by_cases receiving : session.conn.pc = .receive
  · cases reads : session.reads with
    | nil =>
        rw [step_finished (Or.inr ⟨receiving, reads⟩)]
        exact accepting
    | cons result later =>
        rw [step_receive receiving reads]
        exact accepting
  · by_cases sending : ∃ written, session.conn.pc = .respond written
    · obtain ⟨written, place⟩ := sending
      rw [step_respond place]
      constructor
      · exact fun index => accepting.1 (index + 1)
      · simp [accepting.1 0, accepting.2]
    · obtain ⟨_, sameWrites, sameReady⟩ := step_quiet receiving fun written place =>
        sending ⟨written, place⟩
      rw [Accepting, sameWrites, sameReady]
      exact accepting

theorem Accepting.not_broken {session last final : Session device}
    (accepting : session.Accepting) (reached : Reaches step session last) :
    ¬ BrokenOff final last := by
  have stays : last.Accepting :=
    Reaches.invariant (fun _ ready => accepting_step ready) accepting reached
  intro broken
  have notReady := broken.notReady
  rw [stays.2] at notReady
  cases notReady

theorem accepting_follows {session final : Session device} (accepting : session.Accepting)
    (responding : session.conn.Responding) (run : Reaches step session.idealised final) :
    ∃ last, Reaches step session last ∧ Follows final last := by
  obtain ⟨last, reached, follows | broken⟩ := follows_or_breaks accepting.2 responding run
  · exact ⟨last, reached, follows⟩
  · exact absurd broken (accepting.not_broken reached)

theorem accepting_ends {session final : Session device} (accepting : session.Accepting)
    (responding : session.conn.Responding) (run : Reaches step session.idealised final)
    (finished : final.Finished) :
    ∃ last, Reaches step session last ∧ last.Finished ∧ EndsAs final last := by
  obtain ⟨last, reached, done, ends | broken⟩ :=
    ends_or_breaks accepting.2 responding run finished
  · exact ⟨last, reached, done, ends⟩
  · exact absurd broken (accepting.not_broken reached)

theorem accepted_responding : Connection.accepted.Responding := by
  intro written responds
  cases responds

/-- Two schedules of a connection that differ in not-ready results and in how
many bytes the writes take: both runs end, and they do the same to the file and
send the same bytes exactly when no write of the second one finds the socket
not ready, provided that none of the first one does. -/
theorem readiness_invisible_iff (device : FileModel) (tid : Nat) (file : device.State)
    (firstReads secondReads : List SockRead) (firstWrites secondWrites : Nat → SockWrite)
    (same : firstReads.filter SockRead.ready = secondReads.filter SockRead.ready) :
    ∃ first second : Session device,
      Reaches step (accepted tid file firstReads firstWrites) first ∧ first.Finished ∧
      Reaches step (accepted tid file secondReads secondWrites) second ∧ second.Finished ∧
      (first.writeNotReady = false →
        (first.operations = second.operations ∧ first.conn.delivered = second.conn.delivered ↔
          second.writeNotReady = false)) := by
  obtain ⟨final, run, finished⟩ := exists_finished
    (accepted tid file firstReads firstWrites).idealised rfl rfl rfl
  have sameRun : Reaches step (accepted tid file secondReads secondWrites).idealised final := by
    have equal : (accepted tid file secondReads secondWrites).idealised =
        (accepted tid file firstReads firstWrites).idealised := by
      unfold idealised accepted
      rw [same]
    rw [equal]
    exact run
  obtain ⟨first, firstReached, firstDone, firstEnds⟩ :=
    ends_or_breaks rfl accepted_responding run finished
  obtain ⟨second, secondReached, secondDone, secondEnds⟩ :=
    ends_or_breaks rfl accepted_responding sameRun finished
  refine ⟨first, second, firstReached, firstDone, secondReached, secondDone, ?_⟩
  intro firstReady
  rcases firstEnds with firstSame | broken
  · rcases secondEnds with secondSame | broken
    · constructor
      · exact fun _ => secondSame.ready
      · intro _
        rw [firstSame.operations, secondSame.operations, firstSame.conn, secondSame.conn]
        exact ⟨rfl, rfl⟩
    · constructor
      · rintro ⟨_, sent⟩
        have short := broken.short
        rw [← firstSame.conn, sent] at short
        exact absurd short (Nat.lt_irrefl _)
      · intro ready
        rw [broken.notReady] at ready
        cases ready
  · rw [broken.notReady] at firstReady
    cases firstReady

def oneLine : Chunk := { bytes := [97, 10], nonempty := by decide, fits := by decide }

theorem readiness_invisible_oneLine :
    ∃ first second : Session charDevice,
      Reaches step (accepted 0 OpenFile.init [.chunk oneLine] fun _ => .accepts 0) first ∧
      first.Finished ∧
      Reaches step (accepted 0 OpenFile.init [.notReady, .chunk oneLine] fun _ => .accepts 9)
        second ∧
      second.Finished ∧
      (first.writeNotReady = false →
        (first.operations = second.operations ∧ first.conn.delivered = second.conn.delivered ↔
          second.writeNotReady = false)) :=
  readiness_invisible_iff charDevice 0 OpenFile.init [.chunk oneLine] [.notReady, .chunk oneLine]
    (fun _ => .accepts 0) (fun _ => .accepts 9) rfl

/-- A peer that is not ready for the first byte of the response gets nothing. -/
theorem readiness_visible_at_write :
    ¬ ∀ (device : FileModel) (tid : Nat) (file : device.State)
        (firstReads secondReads : List SockRead) (firstWrites secondWrites : Nat → SockWrite),
      firstReads.filter SockRead.ready = secondReads.filter SockRead.ready →
      ∀ first second : Session device,
        Reaches step (accepted tid file firstReads firstWrites) first → first.Finished →
        Reaches step (accepted tid file secondReads secondWrites) second → second.Finished →
        first.operations = second.operations ∧
          first.conn.delivered = second.conn.delivered := by
  intro invisible
  have same := invisible charDevice 0 OpenFile.init [.chunk oneLine] [.chunk oneLine]
    (fun _ => .accepts 0) (fun index => if index = 0 then .notReady else .accepts 0) rfl _ _
    ⟨10, rfl⟩ (by decide) ⟨6, rfl⟩ (by decide)
  exact absurd same.2 (by decide)

end Session

end Aesd.Server
