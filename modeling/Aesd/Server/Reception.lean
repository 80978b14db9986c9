/-
Which read a dispatched line came from.

The buffer is not cleared between reads, and the receive loop takes any error
but EAGAIN for data. As long as there is no such error, what is dispatched
between two reads are lines of the first of them, each at most once.
-/

import Aesd.Server.ClientLines

namespace Aesd.Server

open Driver LineStream

/-! ### Results of reads -/

inductive ReadResult where
  | sock (result : SockRead)
  | failed (errno : Int)
  deriving DecidableEq

def ReadResult.ret : ReadResult → Ret
  | .sock result => result.ret
  | .failed errno => { value := -1, data := [], errno := errno }

/-- An error that the receive loop does not take for an idle socket. -/
def ReadResult.Fails : ReadResult → Prop
  | .sock _ => False
  | .failed errno => errno ≠ eagain ∧ errno ≠ ewouldblock

def ReadResult.delivers : ReadResult → List Bytes
  | .sock (.chunk received) => [received.bytes]
  | _ => []

/-! ### A connection and its record -/

/-- The places behind which the head of the line loop stands. -/
def Pc.runsLineLoop : Pc → Bool
  | .lock _ => true
  | .readBack => true
  | _ => false

/-- The line that is sent to the device or executed as a seek. -/
def Connection.dispatching (conn : Connection) : List Bytes :=
  match conn.pc with
  | .storeLine _ => [conn.line]
  | .ioctl _ => [conn.line]
  | _ => []

/-- The return of a call: of the read of the socket, or of any other call, which
may return anything. -/
inductive Happening where
  | read (result : ReadResult)
  | other (ret : Ret)

/-- A connection with the bytes of its successful reads and the lines it has
dispatched, each with the number of successful reads made before. -/
structure Reception where
  conn : Connection
  chunks : List Bytes
  dispatched : List (Nat × Bytes)
  deriving DecidableEq

namespace Reception

def start : Reception := { conn := Connection.accepted, chunks := [], dispatched := [] }

/-- The number of a line is that of the most recent successful read. -/
def dispatch (state : Reception) (next : Connection) : List (Nat × Bytes) :=
  if state.conn.pc.runsLineLoop then
    next.dispatching.map (fun line => (state.chunks.length, line))
  else []

/-- A return of another call than the one being made does not happen. -/
def step (state : Reception) : Happening → Reception
  | .read result =>
      if state.conn.pc = .receive then
        { state with
          conn := state.conn.resume result.ret
          chunks := state.chunks ++ result.delivers }
      else state
  | .other ret =>
      if state.conn.pc = .receive then state
      else
        { state with
          conn := state.conn.resume ret
          dispatched := state.dispatched ++ state.dispatch (state.conn.resume ret) }

def run (state : Reception) (happenings : List Happening) : Reception :=
  happenings.foldl step state

end Reception

/-- The lines of the chunks with the number of their chunk, as `linesOf` sees
them. -/
def numbered (linesOf : Bytes → List Bytes) : Nat → List Bytes → List (Nat × Bytes)
  | _, [] => []
  | number, chunk :: later =>
      (linesOf chunk).map (fun line => (number, line)) ++ numbered linesOf (number + 1) later

/-- The terminator is stored inside the buffer, and what has been dispatched are
lines of the reads named with them, each line at most once and in order. -/
structure Faithful (state : Reception) : Prop where
  terminator : ∀ inBytesRead, state.conn.pc = .lock inBytesRead →
    0 ≤ inBytesRead ∧ inBytesRead ≤ inBufferSize - 1
  received : state.dispatched.Sublist (numbered (lines newline) 1 state.chunks)

/-! ### Numbered lines -/

theorem numbered_append (linesOf : Bytes → List Bytes) (number : Nat) (chunks : List Bytes)
    (chunk : Bytes) :
    numbered linesOf number (chunks ++ [chunk]) =
      numbered linesOf number chunks ++
        (linesOf chunk).map (fun line => (number + chunks.length, line)) := by
  induction chunks generalizing number with
  | nil => simp [numbered]
  | cons first later ih =>
      rw [List.cons_append, numbered, numbered, ih, List.append_assoc, List.length_cons]
      congr 4
      funext line
      rw [Nat.add_assoc, Nat.add_comm 1]

theorem numbered_sublist {seen whole : Bytes → List Bytes}
    (fewer : ∀ chunk, (seen chunk).Sublist (whole chunk)) (number : Nat) (chunks : List Bytes) :
    (numbered seen number chunks).Sublist (numbered whole number chunks) := by
  induction chunks generalizing number with
  | nil => exact List.Sublist.refl _
  | cons chunk later ih => exact ((fewer chunk).map _).append (ih (number + 1))

def seenIn (chunk : Bytes) : List Bytes := lines newline (cstr chunk)

theorem seenIn_sublist (chunk : Bytes) : (seenIn chunk).Sublist (lines newline chunk) := by
  rw [seenIn, lines_cstr_eq_takeWhile]
  exact List.takeWhile_sublist _

/-! ### The invariant -/

/-- Of the lines `total` seen so far, the thread has dealt with `handled`, which
in its section includes the current line. -/
def Covers (handled total : List (Nat × Bytes)) (number : Nat) (conn : Connection) : Prop :=
  match conn.pc with
  | .receive => handled = total
  | .lock inBytesRead =>
      (0 ≤ inBytesRead ∧ inBytesRead ≤ inBufferSize - 1) ∧
        handled ++ (seenIn (conn.inBuffer.take inBytesRead.toNat)).map (fun line => (number, line)) =
          total
  | .unlock => handled = total
  | .unlockRefused => handled <+: total
  | .returned => handled <+: total
  | _ => handled ++ conn.skipped.textLines.map (fun line => (number, line)) = total

def Traced (dispatched total : List (Nat × Bytes)) (number : Nat) (conn : Connection) : Prop :=
  ∃ handled, dispatched.Sublist handled ∧ Covers handled total number conn

section Steps

variable {dispatched handled total : List (Nat × Bytes)} {number : Nat} {conn : Connection}

theorem Traced.nextLine (inside : dispatched.Sublist handled)
    (left : handled ++ conn.textLines.map (fun line => (number, line)) = total) :
    Traced (dispatched ++ conn.nextLine.dispatching.map (fun line => (number, line))) total number
      conn.nextLine := by
  have head := nextLine_cases conn
  generalize conn.nextLine = next at head ⊢
  cases head with
  | done absent =>
      rw [textLines_of_strchr_none absent, List.map_nil, List.append_nil] at left
      refine ⟨handled, ?_, left⟩
      exact (List.append_nil dispatched).symm ▸ inside
  | data found isData =>
      rw [textLines_of_strchr_some found, List.map_cons, List.append_cons] at left
      refine ⟨_, ?_, left⟩
      exact inside.append (List.Sublist.refl _)
  | seek found seek seekto =>
      rw [textLines_of_strchr_some found, List.map_cons, List.append_cons] at left
      refine ⟨_, ?_, left⟩
      exact inside.append (List.Sublist.refl _)
  | unconverted found seek =>
      rw [textLines_of_strchr_some found, List.map_cons, List.append_cons] at left
      refine ⟨_, ?_, left⟩
      exact inside.append (List.nil_sublist _)

theorem Covers.resume (covers : Covers handled total number conn)
    (outside : conn.pc.runsLineLoop = false) (receiving : conn.pc ≠ .receive) (ret : Ret) :
    Covers handled total number (conn.resume ret) := by
  have resumed := resume_cases conn ret
  generalize conn.resume ret = next at resumed ⊢
  cases resumed with
  | hangsUp place | waits place | fills place => exact absurd place receiving
  | enters place | reads place | finishes place =>
      rw [place] at outside
      cases outside
  | stays place => exact covers
  | refused place | breaks place =>
      simp only [Covers, place] at covers
      exact ⟨_, covers⟩
  | sought place | stores place | stored place | rewound place | responds place
  | responded place | unlocks place | leaves place =>
      simp only [Covers, place] at covers
      exact covers

/-- Whatever a call other than the read of the socket returns, no line is
dispatched twice. -/
theorem Traced.resume (traced : Traced dispatched total number conn)
    (receiving : conn.pc ≠ .receive) (ret : Ret) :
    Traced (dispatched ++ if conn.pc.runsLineLoop then
        (conn.resume ret).dispatching.map (fun line => (number, line)) else [])
      total number (conn.resume ret) := by
  obtain ⟨handled, inside, covers⟩ := traced
  cases loop : conn.pc.runsLineLoop with
  | false =>
      rw [if_neg Bool.false_ne_true, List.append_nil]
      exact ⟨handled, inside, covers.resume loop receiving ret⟩
  | true =>
      rw [if_pos rfl]
      unfold Connection.resume
      cases place : conn.pc with
      | lock inBytesRead =>
          simp only [Covers, place] at covers
          apply Traced.nextLine inside
          rw [if_pos covers.1.1]
          have same : Connection.textLines
              { conn with
                inBuffer := conn.inBuffer.set inBytesRead.toNat 0
                prevNewline := 0 } = seenIn (conn.inBuffer.take inBytesRead.toNat) := by
            rw [seenIn, ← cstr_set]
            rfl
          rw [same]
          exact covers.2
      | readBack =>
          simp only [Covers, place] at covers
          dsimp only
          split
          · refine ⟨handled, ?_, covers⟩
            exact (List.append_nil dispatched).symm ▸ inside
          · exact Traced.nextLine inside covers
      | _ =>
          rw [place] at loop
          cases loop

end Steps

namespace Reception

def FailedRead (state : Reception) : Happening → Prop
  | .read result => state.conn.pc = .receive ∧ result.Fails
  | .other _ => False

def IsTraced (state : Reception) : Prop :=
  Traced state.dispatched (numbered seenIn 1 state.chunks) state.chunks.length state.conn

theorem IsTraced.faithful {state : Reception} (traced : state.IsTraced) : Faithful state := by
  obtain ⟨handled, inside, covers⟩ := traced
  constructor
  · intro inBytesRead place
    simp only [Covers, place] at covers
    exact covers.1
  · have dealt : handled.Sublist (numbered seenIn 1 state.chunks) := by
      unfold Covers at covers
      split at covers
      · rw [covers]
      · rw [← covers.2]
        exact List.sublist_append_left _ _
      · rw [covers]
      · exact covers.sublist
      · exact covers.sublist
      · rw [← covers]
        exact List.sublist_append_left _ _
    exact inside.trans (dealt.trans (numbered_sublist seenIn_sublist 1 state.chunks))

theorem received_again {conn : Connection} {errno : Int}
    (idle : errno = eagain ∨ errno = ewouldblock) :
    conn.received (ReadResult.failed errno).ret = conn := by
  have nonzero : ¬ (ReadResult.failed errno).ret.value = 0 := by
    change ¬ (-1 : Int) = 0
    decide
  rw [Connection.received, if_neg nonzero, if_pos ⟨rfl, idle⟩]

theorem received_failed {conn : Connection} {result : ReadResult} (fails : result.Fails) :
    (conn.received result.ret).pc = .lock (-1) := by
  cases result with
  | sock result => cases fails
  | failed errno =>
      have nonzero : ¬ (ReadResult.failed errno).ret.value = 0 := by
        change ¬ (-1 : Int) = 0
        decide
      have other : ¬ ((ReadResult.failed errno).ret.value = -1 ∧
          ((ReadResult.failed errno).ret.errno = eagain ∨
            (ReadResult.failed errno).ret.errno = ewouldblock)) := by
        rintro ⟨_, idle⟩
        rcases idle with again | block
        · exact fails.1 again
        · exact fails.2 block
      rw [Connection.received, if_neg nonzero, if_neg other]
      rfl

theorem IsTraced.read {state : Reception} (traced : state.IsTraced)
    (place : state.conn.pc = .receive) {result : ReadResult} (succeeds : ¬ result.Fails) :
    ({ state with
        conn := state.conn.received result.ret
        chunks := state.chunks ++ result.delivers } : Reception).IsTraced := by
  obtain ⟨handled, inside, covers⟩ := traced
  simp only [Covers, place] at covers
  cases result with
  | failed errno =>
      have idle : errno = eagain ∨ errno = ewouldblock := by
        apply Classical.byContradiction
        intro neither
        exact succeeds (not_or.mp neither)
      rw [received_again idle]
      refine ⟨handled, inside, ?_⟩
      simp only [Covers, place, ReadResult.delivers, List.append_nil]
      exact covers
  | sock result =>
      cases result with
      | chunk chunk =>
          refine ⟨handled, inside, ?_⟩
          change Covers handled (numbered seenIn 1 (state.chunks ++ [chunk.bytes]))
            (state.chunks ++ [chunk.bytes]).length (state.conn.received (SockRead.chunk chunk).ret)
          rw [received_chunk, numbered_append, List.length_append, List.length_singleton, covers]
          have fits := chunk.fits
          constructor
          · unfold inBufferSize at fits ⊢
            omega
          · simp only [Int.toNat_natCast, List.take_left]
            rw [Nat.add_comm 1]
      | notReady =>
          refine ⟨handled, inside, ?_⟩
          simp only [Covers, place, ReadResult.delivers, List.append_nil, ReadResult.ret,
            received_notReady]
          exact covers
      | closed =>
          refine ⟨handled, inside, ?_⟩
          change handled <+: numbered seenIn 1 (state.chunks ++ [])
          rw [List.append_nil, covers]

theorem IsTraced.step {state : Reception} (traced : state.IsTraced) {happening : Happening}
    (succeeds : ¬ state.FailedRead happening) : (state.step happening).IsTraced := by
  cases happening with
  | read result =>
      unfold Reception.step
      by_cases place : state.conn.pc = .receive
      · simp only [place, if_true]
        have received : state.conn.resume result.ret = state.conn.received result.ret := by
          rw [Connection.resume, place]
        rw [received]
        exact traced.read place (fun fails => succeeds ⟨place, fails⟩)
      · simp only [place, if_false]
        exact traced
  | other ret =>
      unfold Reception.step
      by_cases place : state.conn.pc = .receive
      · simp only [place, if_true]
        exact traced
      · simp only [place, if_false]
        exact Traced.resume traced place ret

theorem start_isTraced : start.IsTraced := ⟨[], List.Sublist.refl _, rfl⟩

theorem run_append (state : Reception) (happenings : List Happening) (happening : Happening) :
    state.run (happenings ++ [happening]) = (state.run happenings).step happening := by
  rw [run, List.foldl_append]
  rfl

def ReadsSucceed (happenings : List Happening) : Prop :=
  AtEachStep (fun before happening => ¬ (start.run before).FailedRead happening) happenings

theorem run_isTraced (happenings : List Happening) (succeeds : ReadsSucceed happenings) :
    (start.run happenings).IsTraced := by
  induction happenings using List.reverseRecOn with
  | nil => exact start_isTraced
  | append_singleton happenings happening ih =>
      obtain ⟨earlier, last⟩ := atEachStep_append.mp succeeds
      rw [run_append]
      exact (ih earlier).step last

theorem failedRead_breaks {state : Reception} {happening : Happening}
    (failed : state.FailedRead happening) : ¬ Faithful (state.step happening) := by
  cases happening with
  | other ret => cases failed
  | read result =>
      obtain ⟨place, fails⟩ := failed
      intro faithful
      have index : (state.step (.read result)).conn.pc = .lock (-1) := by
        simp only [step, place, if_true, Connection.resume]
        exact received_failed fails
      have inside := (faithful.terminator (-1) index).1
      exact absurd inside (by decide)

/-- A run stores the terminator inside the buffer and dispatches lines of the
most recent read only, each at most once, exactly when no read fails with
another error than EAGAIN. -/
theorem faithful_iff_reads_succeed (happenings : List Happening) :
    (∀ before, before <+: happenings → Faithful (start.run before)) ↔
      ReadsSucceed happenings := by
  constructor
  · induction happenings using List.reverseRecOn with
    | nil => exact fun _faithful => AtEachStep.nil _
    | append_singleton happenings happening ih =>
        intro faithful
        rw [ReadsSucceed, atEachStep_append]
        constructor
        · apply ih
          intro before initial
          exact faithful before (initial.trans (List.prefix_append _ _))
        · intro failed
          have last := faithful _ (List.prefix_refl _)
          rw [run_append] at last
          exact failedRead_breaks failed last
  · rintro succeeds before ⟨after, rfl⟩
    exact (run_isTraced before (AtEachStep.of_append succeeds)).faithful

end Reception

def firstLine : Chunk := { bytes := [113, 10], nonempty := by decide, fits := by decide }

def resetPeer : List Happening :=
  [ .read (.sock (.chunk firstLine)), .other Ret.zero,
    .other { value := 2, data := [], errno := 0 }, .other Ret.zero, .other Ret.zero,
    .other Ret.zero, .read (.failed 104), .other Ret.zero ]

/-- The failed read stores the terminator in front of the buffer and dispatches
the line of the read before it again. -/
theorem failed_read_dispatches_again :
    (Reception.start.run resetPeer).dispatched = [(1, [113, 10]), (1, [113, 10])] ∧
      ¬ ∀ happenings, Faithful (Reception.start.run happenings) := by
  constructor
  · decide
  · intro faithful
    have inside := (faithful (resetPeer.take 7)).terminator (-1) (by decide)
    exact absurd inside.1 (by decide)

end Aesd.Server
