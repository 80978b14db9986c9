/-
The timer thread.

Every ten seconds `timer` formats the local time behind the preamble of its
buffer and writes the buffer to the file in one call under `file_lock`.
-/

import Aesd.Server.SeekCommand

namespace Aesd.Server

open Driver LineStream

/-! ### strftime -/

structure Tm where
  tmYear : Int
  tmMon : Fin 12
  tmMday : Fin 32
  tmHour : Fin 24
  tmMin : Fin 60
  tmSec : Fin 61
  yearFits : -2 ^ 31 ≤ tmYear ∧ tmYear < 2 ^ 31

/-- `%Y`: the year as a decimal number. -/
def yearDigits (year : Int) : Bytes :=
  if year < 0 then 45 :: decimal year.natAbs else decimal year.natAbs

def twoDigits (number : Nat) : Bytes :=
  [UInt8.ofNat (48 + number / 10), UInt8.ofNat (48 + number % 10)]

/-- `%Y-%m-%d %H:%M:%S` without the newline that ends the format. The year is an `int`. -/
def localTime (now : Tm) : Bytes :=
  yearDigits ((now.tmYear + 1900).bmod (2 ^ 32)) ++ 45 :: twoDigits (now.tmMon + 1) ++
    45 :: twoDigits now.tmMday ++ 32 :: twoDigits now.tmHour ++ 58 :: twoDigits now.tmMin ++
      58 :: twoDigits now.tmSec

/-- The text and its terminator have to fit into `max` bytes; a return of 0
leaves the buffer undefined. -/
def strftime (max : Nat) (now : Tm) : Option Bytes :=
  if (localTime now ++ [newline]).length < max then some (localTime now ++ [newline]) else none

/-! ### timer -/

/-- `timestamp:` -/
def preamble : Bytes := [116, 105, 109, 101, 115, 116, 97, 109, 112, 58]

/-- `sizeof(out_buffer) - sizeof(preamble) - 1` -/
def timestampRoom : Nat := 64 - 11 - 1

inductive TimerPc where
  | tick
  | lock
  | write
  | unlock
  deriving DecidableEq, Repr

/-- `timestamp` holds the bytes behind the preamble up to the terminator. -/
structure Timer where
  pc : TimerPc
  timestamp : Bytes
  deriving DecidableEq, Repr

def Timer.start : Timer := { pc := .tick, timestamp := [] }

/-- The head of the loop up to the lock. A failure of `strftime` is only logged. -/
def Timer.format (timer : Timer) (now : Tm) : Timer :=
  { pc := .lock, timestamp := (strftime timestampRoom now).getD timer.timestamp }

/-- The argument of `write`: `strlen(out_buffer)` bytes. -/
def Timer.outBuffer (timer : Timer) : Bytes := cstr (preamble ++ timer.timestamp ++ [0])

def timestampLine (now : Tm) : Bytes := preamble ++ localTime now ++ [newline]

/-! ### Timestamps are lines -/

def Visible (bytes : Bytes) : Prop := ∀ byte ∈ bytes, 32 ≤ byte.toNat

theorem Visible.append {left right : Bytes} (leftVisible : Visible left)
    (rightVisible : Visible right) : Visible (left ++ right) := by
  intro byte member
  rcases List.mem_append.mp member with inLeft | inRight
  · exact leftVisible byte inLeft
  · exact rightVisible byte inRight

theorem Visible.cons {byte : UInt8} {bytes : Bytes} (visible : 32 ≤ byte.toNat)
    (later : Visible bytes) : Visible (byte :: bytes) := by
  intro other member
  rcases List.mem_cons.mp member with same | inLater
  · rw [same]
    exact visible
  · exact later other inLater

theorem visible_decimal (number : Nat) : Visible (decimal number) := by
  intro byte member
  exact Nat.le_trans (by decide) (isDigit_of_mem_decimal member).1

theorem visible_yearDigits (year : Int) : Visible (yearDigits year) := by
  unfold yearDigits
  split
  · exact Visible.cons (by decide) (visible_decimal _)
  · exact visible_decimal _

theorem visible_twoDigits {number : Nat} (small : number < 100) : Visible (twoDigits number) := by
  intro byte member
  simp only [twoDigits, List.mem_cons, List.not_mem_nil, or_false] at member
  rcases member with rfl | rfl
  · rw [UInt8.toNat_ofNat']
    omega
  · rw [UInt8.toNat_ofNat']
    omega

theorem visible_localTime (now : Tm) : Visible (localTime now) := by
  have month := now.tmMon.isLt
  have day := now.tmMday.isLt
  have hour := now.tmHour.isLt
  have minute := now.tmMin.isLt
  have second := now.tmSec.isLt
  unfold localTime
  refine Visible.append (Visible.append (Visible.append (Visible.append (Visible.append
    (visible_yearDigits _) ?_) ?_) ?_) ?_) ?_
  · exact Visible.cons (by decide) (visible_twoDigits (by omega))
  · exact Visible.cons (by decide) (visible_twoDigits (by omega))
  · exact Visible.cons (by decide) (visible_twoDigits (by omega))
  · exact Visible.cons (by decide) (visible_twoDigits (by omega))
  · exact Visible.cons (by decide) (visible_twoDigits (by omega))

theorem timestampLine_isLine (now : Tm) : IsLine newline (timestampLine now) := by
  refine ⟨preamble ++ localTime now, rfl, ?_⟩
  intro member
  rcases List.mem_append.mp member with inPreamble | inTime
  · exact absurd inPreamble (by decide)
  · exact absurd (visible_localTime now newline inTime) (by decide)

theorem zero_not_mem_timestampLine (now : Tm) : 0 ∉ timestampLine now := by
  intro member
  rcases List.mem_append.mp member with inBody | inEnd
  · rcases List.mem_append.mp inBody with inPreamble | inTime
    · exact absurd inPreamble (by decide)
    · exact absurd (visible_localTime now 0 inTime) (by decide)
  · exact absurd inEnd (by decide)

/-! ### The buffer is large enough -/

theorem yearDigits_length {year : Int} (fits : year.natAbs < 10 ^ 10) :
    (yearDigits year).length ≤ 11 := by
  have digits : (decimal year.natAbs).length ≤ 10 := by
    rw [decimal, List.length_map]
    exact (Nat.length_toDigits_le_iff (by decide) (by decide)).mpr fits
  unfold yearDigits
  split
  · exact Nat.succ_le_succ digits
  · exact Nat.le_succ_of_le digits

theorem strftime_fits (now : Tm) :
    strftime timestampRoom now = some (localTime now ++ [newline]) := by
  have year : (yearDigits ((now.tmYear + 1900).bmod (2 ^ 32))).length ≤ 11 := by
    apply yearDigits_length
    have lower := Int.le_bmod (x := now.tmYear + 1900) (m := 2 ^ 32) (by decide)
    have upper := Int.bmod_lt (x := now.tmYear + 1900) (m := 2 ^ 32) (by decide)
    omega
  apply if_pos
  simp only [localTime, List.length_append, List.length_cons, twoDigits, List.length_nil,
    timestampRoom]
  omega

/-- What the timer writes is one whole line. -/
theorem outBuffer_format (timer : Timer) (now : Tm) :
    (timer.format now).outBuffer = timestampLine now := by
  have text : preamble ++ (timer.format now).timestamp = timestampLine now := by
    rw [Timer.format, strftime_fits, Option.getD_some, timestampLine, List.append_assoc]
  rw [Timer.outBuffer, text]
  exact cstr_of_terminated (zero_not_mem_timestampLine now)

/-- `timestamp:2026-02-03 04:05:06` -/
example :
    timestampLine
        { tmYear := 126, tmMon := 1, tmMday := 3, tmHour := 4, tmMin := 5, tmSec := 6
          yearFits := by decide } =
      preamble ++ [50, 48, 50, 54, 45, 48, 50, 45, 48, 51, 32, 48, 52, 58, 48, 53, 58, 48, 54, 10] := by
  decide

end Aesd.Server
