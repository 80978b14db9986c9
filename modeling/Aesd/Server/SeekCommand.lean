/-
The seek command, from the client's line to the bytes sent back.

`sscanf` reads back the decimal numbers of the line, whatever follows it in the
buffer; the driver moves the position or refuses; the read loop sends what
stands behind the new position.
-/

import Aesd.Server.Readiness

namespace Aesd.Server

open Driver CircularBuffer AesdCircularBuffer LineStream

/-! ### Decimal numbers -/

def decimal (number : Nat) : Bytes :=
  (Nat.toDigits 10 number).map fun digit => UInt8.ofNat digit.toNat

theorem digit_byte {digit : Char} (shown : digit.isDigit = true) :
    (UInt8.ofNat digit.toNat).toNat = digit.toNat ∧ 48 ≤ digit.toNat ∧ digit.toNat ≤ 57 := by
  obtain ⟨lower, upper⟩ := Char.isDigit_iff_toNat.mp shown
  change 48 ≤ digit.toNat at lower
  change digit.toNat ≤ 57 at upper
  refine ⟨?_, lower, upper⟩
  rw [UInt8.toNat_ofNat']
  omega

theorem digitsValue_map {digits : List Char} (shown : ∀ digit ∈ digits, digit.isDigit = true)
    (value : Nat) :
    (digits.map fun digit => UInt8.ofNat digit.toNat).foldl
        (fun value digit => 10 * value + (digit.toNat - 48)) value =
      Nat.ofDigitChars 10 digits value := by
  induction digits generalizing value with
  | nil => rfl
  | cons digit later ih =>
      have byte := (digit_byte (shown digit List.mem_cons_self)).1
      rw [List.map_cons, List.foldl_cons, ih fun other member =>
        shown other (List.mem_cons_of_mem digit member), Nat.ofDigitChars_cons, byte]
      rfl

theorem digitsValue_decimal (number : Nat) : digitsValue (decimal number) = number := by
  have shown : ∀ digit ∈ Nat.toDigits 10 number, digit.isDigit = true := fun digit member =>
    Nat.isDigit_of_mem_toDigits (by decide) (by decide) member
  unfold digitsValue decimal
  rw [digitsValue_map shown, Nat.ofDigitChars_ten_toDigits]

theorem isDigit_of_mem_decimal {number : Nat} {byte : UInt8} (member : byte ∈ decimal number) :
    48 ≤ byte.toNat ∧ byte.toNat ≤ 57 := by
  obtain ⟨digit, inside, rfl⟩ := List.mem_map.mp member
  obtain ⟨byte, lower, upper⟩ := digit_byte
    (Nat.isDigit_of_mem_toDigits (by decide) (by decide) inside)
  rw [byte]
  exact ⟨lower, upper⟩

theorem decimal_ne_nil (number : Nat) : decimal number ≠ [] := by
  unfold decimal
  rw [Ne, List.map_eq_nil_iff]
  exact Nat.toDigits_ne_nil

/-! ### Scanning the command -/

theorem isDigit_iff {byte : UInt8} : isDigit byte = true ↔ 48 ≤ byte.toNat ∧ byte.toNat ≤ 57 := by
  simp [isDigit, UInt8.le_iff_toNat_le]

theorem not_isSpace_of_digit {byte : UInt8} (digit : 48 ≤ byte.toNat ∧ byte.toNat ≤ 57) :
    isSpace byte = false := by
  have notBlank : byte ≠ 32 := by
    rintro rfl
    exact absurd digit.1 (by decide)
  have large : ¬ byte.toNat ≤ 13 := by omega
  simp [isSpace, notBlank, UInt8.le_iff_toNat_le, large]

theorem scanSign_digit {byte : UInt8} (digit : 48 ≤ byte.toNat ∧ byte.toNat ≤ 57)
    (behind : Bytes) : scanSign (byte :: behind) = (1, byte :: behind) := by
  unfold scanSign
  split
  · next minus =>
      rw [(List.cons.inj minus).1] at digit
      exact absurd digit.1 (by decide)
  · next plus =>
      rw [(List.cons.inj plus).1] at digit
      exact absurd digit.1 (by decide)
  · rfl

/-- A number that does not exceed an `int` is read back up to the first byte that
is not a digit. -/
theorem scanDecimal_decimal {number : Nat} (small : number < 2 ^ 31) {stop : UInt8}
    (ends : isDigit stop = false) (behind : Bytes) :
    scanDecimal (decimal number ++ stop :: behind) = some ((number : Int), stop :: behind) := by
  obtain ⟨first, later, shape⟩ := List.exists_cons_of_ne_nil (decimal_ne_nil number)
  have firstDigit : 48 ≤ first.toNat ∧ first.toNat ≤ 57 :=
    isDigit_of_mem_decimal (by rw [shape]; exact List.mem_cons_self)
  have unspaced : (decimal number ++ stop :: behind).dropWhile isSpace =
      decimal number ++ stop :: behind := by
    rw [shape, List.cons_append]
    exact List.dropWhile_cons_of_neg (by rw [not_isSpace_of_digit firstDigit]; simp)
  have unsigned : scanSign (decimal number ++ stop :: behind) =
      (1, decimal number ++ stop :: behind) := by
    rw [shape, List.cons_append]
    exact scanSign_digit firstDigit _
  have digits : (decimal number ++ stop :: behind).takeWhile isDigit = decimal number := by
    rw [List.takeWhile_append_of_pos fun byte member =>
      isDigit_iff.mpr (isDigit_of_mem_decimal member)]
    simp [ends]
  have rest : (decimal number ++ stop :: behind).dropWhile isDigit = stop :: behind := by
    rw [List.dropWhile_append_of_pos fun byte member =>
      isDigit_iff.mpr (isDigit_of_mem_decimal member)]
    simp [ends]
  simp only [scanDecimal, unspaced, unsigned, digits, rest, decimal_ne_nil, if_false,
    digitsValue_decimal]
  congr 2
  omega

theorem sscanf_literals (literals : Bytes) (later : List Directive) (input : Bytes) :
    sscanf (literals.map Directive.literal ++ later) (literals ++ input) = sscanf later input := by
  induction literals with
  | nil => rfl
  | cons byte others ih =>
      rw [List.map_cons, List.cons_append, List.cons_append, sscanf, if_pos rfl, ih]

def seekLine (writeCmd writeCmdOffset : Nat) : Bytes :=
  seekCommand ++ 58 :: (decimal writeCmd ++ 44 :: (decimal writeCmdOffset ++ [newline]))

theorem sscanf_seekLine {writeCmd writeCmdOffset : Nat} (small : writeCmd < 2 ^ 31)
    (smallOffset : writeCmdOffset < 2 ^ 31) (behind : Bytes) :
    sscanf seekFormat (seekLine writeCmd writeCmdOffset ++ behind) =
      [(writeCmd : Int), (writeCmdOffset : Int)] := by
  have input : seekLine writeCmd writeCmdOffset ++ behind =
      seekCommand ++ 58 :: (decimal writeCmd ++ 44 ::
        (decimal writeCmdOffset ++ newline :: behind)) := by
    simp [seekLine]
  unfold seekFormat
  rw [input, sscanf_literals, sscanf, if_pos rfl]
  simp only [sscanf, scanDecimal_decimal small (by decide : isDigit 44 = false),
    scanDecimal_decimal smallOffset (by decide : isDigit newline = false), if_true]

theorem seekLine_isLine (writeCmd writeCmdOffset : Nat) :
    IsLine newline (seekLine writeCmd writeCmdOffset) := by
  refine ⟨seekCommand ++ 58 :: (decimal writeCmd ++ 44 :: decimal writeCmdOffset), ?_, ?_⟩
  · simp [seekLine]
  · intro member
    have digitNewline (number : Nat) : newline ∉ decimal number := fun inside =>
      absurd (isDigit_of_mem_decimal inside).1 (by decide)
    simp only [List.mem_append, List.mem_cons] at member
    rcases member with command | colon | digits | comma | digits
    · exact newline_not_mem_seekCommand command
    · exact absurd colon (by decide)
    · exact digitNewline writeCmd digits
    · exact absurd comma (by decide)
    · exact digitNewline writeCmdOffset digits

theorem zero_not_mem_seekLine (writeCmd writeCmdOffset : Nat) :
    0 ∉ seekLine writeCmd writeCmdOffset := by
  have digitZero (number : Nat) : 0 ∉ decimal number := fun inside =>
    absurd (isDigit_of_mem_decimal inside).1 (by decide)
  have commandZero : 0 ∉ seekCommand := by decide
  simp [seekLine, digitZero, commandZero, newline]

/-! ### The command in the line loop -/

theorem storeInt_toNat {value : Nat} (small : value < 2 ^ 31) :
    (storeInt (value : Int)).toNat = value := by
  simp [storeInt, UInt32.ofInt]
  omega

def seektoOf (writeCmd writeCmdOffset : Nat) : AesdSeekto :=
  { writeCmd := storeInt (writeCmd : Int), writeCmdOffset := storeInt (writeCmdOffset : Int) }

/-- What `aesd_adjust_file_offset` accepts. -/
def OpenFile.InRange (file : OpenFile) (writeCmd writeCmdOffset : Nat) : Prop :=
  writeCmd < maxWriteOperationsSupported ∧
    writeCmdOffset ≤ (file.kernel.dev.circularBuffer.slot
      ((file.kernel.dev.circularBuffer.outOffs + writeCmd) % maxWriteOperationsSupported)).size

theorem accepts_seektoOf {writeCmd writeCmdOffset : Nat} (small : writeCmd < 2 ^ 31)
    (smallOffset : writeCmdOffset < 2 ^ 31) (file : OpenFile) :
    file.Accepts (seektoOf writeCmd writeCmdOffset) ↔ file.InRange writeCmd writeCmdOffset := by
  unfold OpenFile.Accepts OpenFile.InRange seektoOf
  rw [storeInt_toNat small, storeInt_toNat smallOffset]

section Command

variable {conn : Connection} {writeCmd writeCmdOffset : Nat} {after behind : Bytes}

theorem cstr_seekLine (text : conn.text = seekLine writeCmd writeCmdOffset ++ after ++ 0 :: behind)
    (clean : 0 ∉ after) : cstr conn.text = seekLine writeCmd writeCmdOffset ++ after := by
  rw [text]
  apply cstr_of_terminated
  rw [List.mem_append, not_or]
  exact ⟨zero_not_mem_seekLine writeCmd writeCmdOffset, clean⟩

theorem strchr_seekLine
    (text : conn.text = seekLine writeCmd writeCmdOffset ++ after ++ 0 :: behind)
    (clean : 0 ∉ after) :
    strchr conn.text newline = some ((seekLine writeCmd writeCmdOffset).length - 1) := by
  unfold strchr
  rw [cstr_seekLine text clean]
  exact idxOf?_line_append (seekLine_isLine writeCmd writeCmdOffset) after

theorem scanned_seekLine
    (text : conn.text = seekLine writeCmd writeCmdOffset ++ after ++ 0 :: behind)
    (clean : 0 ∉ after) :
    (conn.scanned ((seekLine writeCmd writeCmdOffset).length - 1)).line =
      seekLine writeCmd writeCmdOffset := by
  have positive := List.length_pos_iff.mpr (seekLine_isLine writeCmd writeCmdOffset).ne_nil
  rw [scanned_line (strchr_seekLine text clean), cstr_seekLine text clean,
    Nat.sub_add_cancel positive]
  exact List.take_left

theorem skipped_seekLine
    (text : conn.text = seekLine writeCmd writeCmdOffset ++ after ++ 0 :: behind) :
    (conn.scanned ((seekLine writeCmd writeCmdOffset).length - 1)).skipped.text =
      after ++ 0 :: behind := by
  have positive := List.length_pos_iff.mpr (seekLine_isLine writeCmd writeCmdOffset).ne_nil
  have moved : (conn.scanned ((seekLine writeCmd writeCmdOffset).length - 1)).skipped.text =
      conn.text.drop (seekLine writeCmd writeCmdOffset).length := by
    simp only [Connection.text, Connection.skipped, Connection.scanned, List.drop_drop]
    rw [Nat.sub_add_cancel positive]
  rw [moved, text, List.append_assoc, List.drop_left]

theorem nextLine_seekLine (small : writeCmd < 2 ^ 31) (smallOffset : writeCmdOffset < 2 ^ 31)
    (text : conn.text = seekLine writeCmd writeCmdOffset ++ after ++ 0 :: behind)
    (clean : 0 ∉ after) :
    conn.nextLine =
      { conn.scanned ((seekLine writeCmd writeCmdOffset).length - 1) with
        pc := .ioctl (seektoOf writeCmd writeCmdOffset) } := by
  have seek : IsSeek (conn.scanned ((seekLine writeCmd writeCmdOffset).length - 1)).line := by
    rw [scanned_seekLine text clean]
    exact List.prefix_append _ _
  apply nextLine_seek (strchr_seekLine text clean) seek
  rw [text, List.append_assoc]
  exact sscanf_seekLine small smallOffset _

end Command

/-! ### End to end -/

namespace Session

/-- The line has been answered: the device is as before, the client has been sent
what stands behind `position` and the thread is at what follows the line. -/
structure SeekServed (session final : Session charDevice) (line after : Bytes)
    (position : Nat) : Prop where
  kernel : final.file.kernel = session.file.kernel
  delivered : final.conn.delivered =
    session.conn.delivered ++ session.file.content.drop position
  answered : final.conn.answers = session.conn.answers ++
    [{ line := line, sent := session.conn.sent ++ session.file.content.drop position }]
  continues : ∃ next : Connection, final.conn = next.nextLine ∧ next.text = after

/-- The command has been refused: the file is as before, the lock is free, the
connection is closed, and nothing has been dispatched or sent. -/
structure SeekClosed (session final : Session charDevice) : Prop where
  file : final.file = session.file
  fileLock : final.fileLock = none
  place : final.conn.pc = .returned
  closed : final.conn.closed = true
  passed : final.conn.passed = session.conn.passed
  answers : final.conn.answers = session.conn.answers
  delivered : final.conn.delivered = session.conn.delivered

theorem answered_delivered (conn : Connection) (newlineChar : Nat) (outBuffer bytes : Bytes) :
    ((conn.scanned newlineChar).answered outBuffer (conn.sent ++ bytes)).delivered =
      conn.delivered ++ bytes := by
  simp [Connection.delivered, Connection.answered, Connection.skipped, Connection.scanned]

theorem seek_served {session : Session charDevice} (accepting : session.Accepting)
    {conn : Connection} (head : session.conn = conn.nextLine) {newlineChar : Nat}
    {seekto : AesdSeekto}
    (place : conn.nextLine = { conn.scanned newlineChar with pc := .ioctl seekto })
    (accepts : session.file.Accepts seekto) :
    ∃ final, Reaches step session final ∧
      SeekServed session final (conn.scanned newlineChar).line
        (conn.scanned newlineChar).skipped.text
        (sizeBefore session.file.kernel.dev.circularBuffer seekto.writeCmd.toNat +
          seekto.writeCmdOffset.toNat) := by
  have responding : session.conn.Responding := by
    intro written responds
    rw [head] at responds
    exact absurd responds (nextLine_not_respond conn written)
  obtain ⟨operations, outBuffer, run⟩ := seek_reaches session.idealised rfl (head.trans place)
    (serve_ioctl_accepted accepts) (Int.lt_irrefl 0) (charDevice_drains _)
  obtain ⟨last, reached, follows⟩ := accepting_follows accepting responding run
  refine ⟨last, reached, ?_⟩
  constructor
  · rw [follows.same]
    rfl
  · rw [follows.same]
    change (Connection.nextLine _).delivered = _
    rw [nextLine_delivered, answered_delivered, head, nextLine_delivered]
    rfl
  · rw [follows.same]
    change (Connection.nextLine _).answers = _
    rw [(nextLine_sent _).1, head, (nextLine_sent conn).1, (nextLine_sent conn).2]
    rfl
  · rw [follows.same]
    exact ⟨_, rfl, rfl⟩

theorem seek_closed {session : Session charDevice} {conn : Connection}
    (head : session.conn = conn.nextLine) {newlineChar : Nat} {seekto : AesdSeekto}
    (place : conn.nextLine = { conn.scanned newlineChar with pc := .ioctl seekto })
    (refuses : ¬ session.file.Accepts seekto) :
    ∃ final, Reaches step session final ∧ SeekClosed session final := by
  have refused := refused_reaches session (head.trans place) (serve_ioctl_refused refuses)
    (by decide)
  refine ⟨_, refused.trans (Reaches.one (step_unlockRefused rfl)), ?_⟩
  constructor
  · rfl
  · rfl
  · rfl
  · rfl
  · rw [head, place]
    rfl
  · rw [head, place]
    rfl
  · rw [head, place]
    rfl

/-- A line `AESDCHAR_IOCSEEKTO:X,Y` at the head of the line loop, whatever follows
it: the server issues the `ioctl` with `X` and `Y`; in range, the client is sent
the content behind the position they denote and the device is unchanged; out of
range, the file is unchanged and the connection is closed without the lock. -/
theorem seek_command_end_to_end (session : Session charDevice) (accepting : session.Accepting)
    (conn : Connection) (head : session.conn = conn.nextLine) (writeCmd writeCmdOffset : Nat)
    (small : writeCmd < 2 ^ 31) (smallOffset : writeCmdOffset < 2 ^ 31) (after behind : Bytes)
    (clean : 0 ∉ after)
    (text : conn.text = seekLine writeCmd writeCmdOffset ++ after ++ 0 :: behind) :
    (∃ seekto, session.conn.call = some (.file (.ioctl seekto)) ∧
      seekto.writeCmd.toNat = writeCmd ∧ seekto.writeCmdOffset.toNat = writeCmdOffset) ∧
    (session.file.InRange writeCmd writeCmdOffset →
      ∃ final, Reaches step session final ∧
        SeekServed session final (seekLine writeCmd writeCmdOffset) (after ++ 0 :: behind)
          (sizeBefore session.file.kernel.dev.circularBuffer writeCmd + writeCmdOffset)) ∧
    (¬ session.file.InRange writeCmd writeCmdOffset →
      ∃ final, Reaches step session final ∧ SeekClosed session final) := by
  have place := nextLine_seekLine small smallOffset text clean
  have range := accepts_seektoOf small smallOffset session.file
  have command : (seektoOf writeCmd writeCmdOffset).writeCmd.toNat = writeCmd :=
    storeInt_toNat small
  have offset : (seektoOf writeCmd writeCmdOffset).writeCmdOffset.toNat = writeCmdOffset :=
    storeInt_toNat smallOffset
  refine ⟨⟨seektoOf writeCmd writeCmdOffset, ?_, command, offset⟩, ?_, ?_⟩
  · rw [head, place]
    rfl
  · intro inRange
    have served := seek_served accepting head place (range.mpr inRange)
    rwa [command, offset, scanned_seekLine text clean, skipped_seekLine text] at served
  · intro outside
    exact seek_closed head place fun accepts => outside (range.mp accepts)

def seekChunk : Chunk :=
  { bytes := seekLine 1 2 ++ [120], nonempty := by decide, fits := by decide }

def seekClient : Session charDevice :=
  { accepted 0 ((OpenFile.init.serve (.write [97, 98, 10, 99, 100, 101, 10])).1 : OpenFile) []
      (fun _ => .accepts 0) with
    fileLock := some 0
    conn := (Connection.accepted.entered seekChunk).nextLine }

theorem seek_command_second_line :
    ∃ final, Reaches step seekClient final ∧
      SeekServed seekClient final (seekLine 1 2)
        ([120] ++ 0 :: Connection.accepted.inBuffer.drop (seekChunk.bytes.length + 1))
        (sizeBefore seekClient.file.kernel.dev.circularBuffer 1 + 2) := by
  have accepting : seekClient.Accepting := ⟨fun _ impossible => (by cases impossible), rfl⟩
  have room : seekChunk.bytes.length < Connection.accepted.inBuffer.length := by
    change _ < (List.replicate inBufferSize 0).length
    rw [List.length_replicate]
    exact Nat.lt_of_le_of_lt seekChunk.fits (by decide)
  exact (seek_command_end_to_end seekClient accepting (Connection.accepted.entered seekChunk) rfl
    1 2 (by decide) (by decide) [120] _ (by decide) (entered_text room)).2.1
    ⟨by decide, by decide⟩

end Session

end Aesd.Server
