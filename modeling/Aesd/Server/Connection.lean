/-
`handle_client_connection` as an automaton (aesdsocket.c).

A connection thread is in one of the places where the function makes a system
call. `call` is that call and `resume` runs the code from its return to the
next one. Logging, `fdatasync` and `usleep` have no effect on the data.
-/

import Aesd.Server.CString

namespace Aesd.Server

open Driver

/-! ### System calls -/

structure Ret where
  value : Int
  data : Bytes
  errno : Int
  deriving DecidableEq, Repr

def Ret.zero : Ret := { value := 0, data := [], errno := 0 }

def eagain : Int := 11

def ewouldblock : Int := 11

/-- Calls on `file_fd`; `lseekSet` is `lseek(file_fd, 0, SEEK_SET)`. -/
inductive FileCall where
  | write (bytes : Bytes)
  | lseekSet
  | read (count : Nat)
  | ioctl (seekto : AesdSeekto)
  deriving DecidableEq, Repr

inductive Call where
  | sockRead (count : Nat)
  | lock
  | file (request : FileCall)
  | sockWrite (bytes : Bytes)
  | unlock
  deriving DecidableEq, Repr

/-! ### write_buffer -/

/-- The loop of `write_buffer` after one `write`: another round, or a return. -/
inductive WriteBuffer where
  | more (bytesWritten : Nat)
  | written
  | failed
  deriving DecidableEq, Repr

def writeBufferStep (bufferLen bytesWritten : Nat) (ret : Int) : WriteBuffer :=
  if ret < 0 then .failed
  else if bytesWritten + ret.toNat < bufferLen then .more (bytesWritten + ret.toNat)
  else .written

/-! ### Local state -/

/-- The places of the calls; `lock` holds `in_bytes_read`, which is not used
after the terminator has been stored. -/
inductive Pc where
  | receive
  | lock (inBytesRead : Int)
  | ioctl (seekto : AesdSeekto)
  | storeLine (bytesWritten : Nat)
  | rewind
  | readBack
  | respond (bytesWritten : Nat)
  | unlock
  | unlockRefused
  | returned
  deriving DecidableEq, Repr

/-- A line that has been dispatched, with the bytes sent back for it. -/
structure Answer where
  line : Bytes
  sent : Bytes
  deriving DecidableEq, Repr

/-- The locals of the function. The last three fields are a record of what it
has done: the strings passed to `write_buffer(file_fd, …)`, the answered lines
and the bytes sent for the current line. -/
structure Connection where
  pc : Pc
  inBuffer : Bytes
  prevNewline : Nat
  length : Nat
  outBuffer : Bytes
  closed : Bool
  threadComplete : Bool
  passed : List Bytes
  answers : List Answer
  sent : Bytes
  deriving DecidableEq, Repr

def inBufferSize : Nat := 1024

def outBufferSize : Nat := 1024

def Connection.accepted : Connection :=
  { pc := .receive
    inBuffer := List.replicate inBufferSize 0
    prevNewline := 0
    length := 0
    outBuffer := []
    closed := false
    threadComplete := false
    passed := []
    answers := []
    sent := [] }

/-- `close(conn->fd)`, `thread_complete = 1` and the return. -/
def Connection.leave (conn : Connection) : Connection :=
  { conn with pc := .returned, closed := true, threadComplete := true }

def Connection.delivered (conn : Connection) : Bytes :=
  (conn.answers.map Answer.sent).flatten ++ conn.sent

/-! ### The line loop -/

def seekCommand : Bytes := [65, 69, 83, 68, 67, 72, 65, 82, 95, 73, 79, 67, 83, 69, 69, 75, 84, 79]

def seekFormat : List Directive :=
  seekCommand.map Directive.literal ++ [.literal 58, .decimal, .literal 44, .decimal]

/-- Storing an `int` conversion in a `uint32_t` field. -/
def storeInt (value : Int) : UInt32 := UInt32.ofInt value

def Connection.text (conn : Connection) : Bytes := conn.inBuffer.drop conn.prevNewline

def Connection.line (conn : Connection) : Bytes := conn.text.take conn.length

/-- The head of the line loop: the next line and what is done with it. A seek
command that `sscanf` does not convert goes straight to the read loop. -/
def Connection.nextLine (conn : Connection) : Connection :=
  match strchr conn.text newline with
  | none => { conn with pc := .unlock }
  | some newlineChar =>
      let conn := { conn with length := newlineChar + 1 }
      if strncmpZero conn.text seekCommand (min conn.length 18) then
        match sscanf seekFormat conn.text with
        | [writeCmd, writeCmdOffset] =>
            { conn with
              pc := .ioctl
                { writeCmd := storeInt writeCmd, writeCmdOffset := storeInt writeCmdOffset } }
        | _ => { conn with pc := .readBack }
      else { conn with pc := .storeLine 0, passed := conn.passed ++ [conn.line] }

def Connection.finishLine (conn : Connection) : Connection :=
  Connection.nextLine
    { conn with
      prevNewline := conn.prevNewline + conn.length
      answers := conn.answers ++ [{ line := conn.line, sent := conn.sent }]
      sent := [] }

/-! ### Calls and returns -/

def Connection.call (conn : Connection) : Option Call :=
  match conn.pc with
  | .receive => some (.sockRead (inBufferSize - 1))
  | .lock _ => some .lock
  | .ioctl seekto => some (.file (.ioctl seekto))
  | .storeLine bytesWritten => some (.file (.write (conn.line.drop bytesWritten)))
  | .rewind => some (.file .lseekSet)
  | .readBack => some (.file (.read outBufferSize))
  | .respond bytesWritten => some (.sockWrite (conn.outBuffer.drop bytesWritten))
  | .unlock => some .unlock
  | .unlockRefused => some .unlock
  | .returned => none

/-- The body of the receive loop up to the lock. -/
def Connection.received (conn : Connection) (ret : Ret) : Connection :=
  if ret.value = 0 then conn.leave
  else if ret.value = -1 ∧ (ret.errno = eagain ∨ ret.errno = ewouldblock) then conn
  else
    -- an error other than these two falls through with the old buffer contents
    { conn with
      pc := .lock ret.value
      inBuffer := ret.data ++ conn.inBuffer.drop ret.data.length }

/-- `in_buffer[in_bytes_read] = '\0'` and the entry of the line loop. A negative
index stores outside the buffer. -/
def Connection.locked (conn : Connection) (inBytesRead : Int) : Connection :=
  Connection.nextLine
    { conn with
      inBuffer :=
        if 0 ≤ inBytesRead then conn.inBuffer.set inBytesRead.toNat 0 else conn.inBuffer
      prevNewline := 0 }

def Connection.resume (conn : Connection) (ret : Ret) : Connection :=
  match conn.pc with
  | .receive => conn.received ret
  | .lock inBytesRead => conn.locked inBytesRead
  | .ioctl _ =>
      if ret.value < 0 then { conn with pc := .unlockRefused } else { conn with pc := .readBack }
  | .storeLine bytesWritten =>
      -- the result of `write_buffer` on the file is not looked at
      match writeBufferStep conn.length bytesWritten ret.value with
      | .more bytesWritten => { conn with pc := .storeLine bytesWritten }
      | .written => { conn with pc := .rewind }
      | .failed => { conn with pc := .rewind }
  | .rewind => { conn with pc := .readBack }
  | .readBack =>
      if 0 < ret.value then { conn with pc := .respond 0, outBuffer := ret.data }
      else conn.finishLine
  | .respond bytesWritten =>
      let sent := conn.sent ++ (conn.outBuffer.drop bytesWritten).take ret.value.toNat
      match writeBufferStep conn.outBuffer.length bytesWritten ret.value with
      | .more bytesWritten => { conn with pc := .respond bytesWritten, sent := sent }
      | .written => { conn with pc := .readBack, sent := sent }
      -- the function returns here without `pthread_mutex_unlock`
      | .failed => conn.leave
  | .unlock => { conn with pc := .receive }
  | .unlockRefused => conn.leave
  | .returned => conn

inductive Resumed (conn : Connection) (ret : Ret) : Connection → Prop
  | hangsUp (place : conn.pc = .receive) (empty : ret.value = 0) : Resumed conn ret conn.leave
  | waits (place : conn.pc = .receive)
      (again : ret.value = -1 ∧ (ret.errno = eagain ∨ ret.errno = ewouldblock)) :
      Resumed conn ret conn
  | fills (place : conn.pc = .receive) (some : ret.value ≠ 0) :
      Resumed conn ret
        { conn with
          pc := .lock ret.value
          inBuffer := ret.data ++ conn.inBuffer.drop ret.data.length }
  | enters {inBytesRead : Int} (place : conn.pc = .lock inBytesRead) :
      Resumed conn ret (conn.locked inBytesRead)
  | refused {seekto : AesdSeekto} (place : conn.pc = .ioctl seekto) (negative : ret.value < 0) :
      Resumed conn ret { conn with pc := .unlockRefused }
  | sought {seekto : AesdSeekto} (place : conn.pc = .ioctl seekto) (accepted : 0 ≤ ret.value) :
      Resumed conn ret { conn with pc := .readBack }
  | stores {written next : Nat} (place : conn.pc = .storeLine written)
      (more : writeBufferStep conn.length written ret.value = .more next) :
      Resumed conn ret { conn with pc := .storeLine next }
  | stored {written : Nat} (place : conn.pc = .storeLine written) :
      Resumed conn ret { conn with pc := .rewind }
  | rewound (place : conn.pc = .rewind) : Resumed conn ret { conn with pc := .readBack }
  | reads (place : conn.pc = .readBack) (some : 0 < ret.value) :
      Resumed conn ret { conn with pc := .respond 0, outBuffer := ret.data }
  | finishes (place : conn.pc = .readBack) (none : ¬ 0 < ret.value) :
      Resumed conn ret conn.finishLine
  | responds {written next : Nat} (place : conn.pc = .respond written)
      (more : writeBufferStep conn.outBuffer.length written ret.value = .more next) :
      Resumed conn ret
        { conn with
          pc := .respond next
          sent := conn.sent ++ (conn.outBuffer.drop written).take ret.value.toNat }
  | responded {written : Nat} (place : conn.pc = .respond written)
      (all : writeBufferStep conn.outBuffer.length written ret.value = .written) :
      Resumed conn ret
        { conn with
          pc := .readBack
          sent := conn.sent ++ (conn.outBuffer.drop written).take ret.value.toNat }
  | breaks {written : Nat} (place : conn.pc = .respond written)
      (failed : writeBufferStep conn.outBuffer.length written ret.value = .failed) :
      Resumed conn ret conn.leave
  | unlocks (place : conn.pc = .unlock) : Resumed conn ret { conn with pc := .receive }
  | leaves (place : conn.pc = .unlockRefused) : Resumed conn ret conn.leave
  | stays (place : conn.pc = .returned) : Resumed conn ret conn

theorem resume_cases (conn : Connection) (ret : Ret) : Resumed conn ret (conn.resume ret) := by
  unfold Connection.resume
  cases place : conn.pc with
  | receive =>
      dsimp only
      unfold Connection.received
      split
      · next empty => exact Resumed.hangsUp place empty
      · next some =>
          split
          · next again => exact Resumed.waits place again
          · exact Resumed.fills place some
  | lock inBytesRead => exact Resumed.enters place
  | ioctl seekto =>
      dsimp only
      split
      · next negative => exact Resumed.refused place negative
      · next accepted => exact Resumed.sought place (Int.not_lt.mp accepted)
  | storeLine written =>
      dsimp only
      split
      · next more => exact Resumed.stores place more
      · exact Resumed.stored place
      · exact Resumed.stored place
  | rewind => exact Resumed.rewound place
  | readBack =>
      dsimp only
      split
      · next some => exact Resumed.reads place some
      · next none => exact Resumed.finishes place none
  | respond written =>
      dsimp only
      split
      · next more => exact Resumed.responds place more
      · next all => exact Resumed.responded place all
      · next failed => exact Resumed.breaks place failed
  | unlock => exact Resumed.unlocks place
  | unlockRefused => exact Resumed.leaves place
  | returned => exact Resumed.stays place

end Aesd.Server
