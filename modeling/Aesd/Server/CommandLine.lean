/-
How far `sscanf` reads and what becomes of a command line.

`%d` skips white space, newlines included, so a command whose line ends before
a number is completed from the next line. A line that starts like a command and
is none is neither stored nor executed.
-/

import Aesd.Server.SeekCommand
import Aesd.Server.Segmentation

namespace Aesd.Server

open Driver LineStream

/-! ### Scanning inside a line -/

def Terminated (bytes : Bytes) : Prop := [newline] <:+ bytes

theorem Terminated.of_suffix {bytes behind : Bytes} (terminated : Terminated bytes)
    (ending : behind <:+ bytes) (nonempty : behind ≠ []) : Terminated behind :=
  List.suffix_of_suffix_length_le terminated ending (List.length_pos_iff.mpr nonempty)

theorem Terminated.mem {bytes : Bytes} (terminated : Terminated bytes) : newline ∈ bytes :=
  terminated.subset List.mem_cons_self

theorem Terminated.exists_cons {bytes : Bytes} (terminated : Terminated bytes) :
    ∃ head tail, bytes = head :: tail ∧ (head ≠ newline → Terminated tail) := by
  cases bytes with
  | nil => exact absurd terminated.mem List.not_mem_nil
  | cons head tail =>
      refine ⟨head, tail, rfl, ?_⟩
      intro different
      rcases List.suffix_cons_iff.mp terminated with same | behind
      · exact absurd (List.cons.inj same).1.symm different
      · exact behind

theorem terminated_of_isLine {line : Bytes} (closed : IsLine newline line) : Terminated line := by
  obtain ⟨body, rfl, _absent⟩ := closed
  exact List.suffix_append body [newline]

section Stops

variable {accepts : UInt8 → Bool} {bytes : Bytes} {stop : UInt8}

theorem scan_append (member : stop ∈ bytes) (stops : accepts stop = false) (behind : Bytes) :
    (bytes ++ behind).takeWhile accepts = bytes.takeWhile accepts ∧
      (bytes ++ behind).dropWhile accepts = bytes.dropWhile accepts ++ behind := by
  induction bytes with
  | nil => cases member
  | cons head tail ih =>
      rw [List.cons_append]
      cases accepted : accepts head with
      | false => simp [accepted]
      | true =>
          have inTail : stop ∈ tail := by
            rcases List.mem_cons.mp member with same | later
            · rw [same, accepted] at stops
              cases stops
            · exact later
          obtain ⟨taken, dropped⟩ := ih inTail
          simp [accepted, taken, dropped]

theorem dropWhile_ne_nil (member : stop ∈ bytes) (stops : accepts stop = false) :
    bytes.dropWhile accepts ≠ [] := by
  intro nothing
  have accepted := List.dropWhile_eq_nil_iff.mp nothing stop member
  rw [stops] at accepted
  cases accepted

end Stops

def Blank (bytes : Bytes) : Prop := ∀ byte ∈ bytes, isSpace byte = true

instance (bytes : Bytes) : Decidable (Blank bytes) :=
  inferInstanceAs (Decidable (∀ byte ∈ bytes, _))

theorem scanSign_append {bytes : Bytes} (terminated : Terminated bytes)
    (unspaced : ∀ head tail, bytes = head :: tail → isSpace head = false) (behind : Bytes) :
    scanSign (bytes ++ behind) = ((scanSign bytes).1, (scanSign bytes).2 ++ behind) ∧
      Terminated (scanSign bytes).2 := by
  obtain ⟨head, tail, rfl, ending⟩ := terminated.exists_cons
  have different : head ≠ newline := by
    intro same
    have unspacedHead := unspaced head tail rfl
    rw [same] at unspacedHead
    exact absurd unspacedHead (by decide)
  by_cases minus : head = 45
  · subst minus
    exact ⟨rfl, ending different⟩
  · by_cases plus : head = 43
    · subst plus
      exact ⟨rfl, ending different⟩
    · have unsigned (rest : Bytes) : scanSign (head :: rest) = (1, head :: rest) := by
        unfold scanSign
        split
        · next same => exact absurd (List.cons.inj same).1 minus
        · next same => exact absurd (List.cons.inj same).1 plus
        · rfl
      rw [List.cons_append, unsigned, unsigned]
      exact ⟨rfl, terminated⟩

/-- A number that begins inside a line ends inside it. -/
theorem scanDecimal_append {bytes : Bytes} (terminated : Terminated bytes)
    (visible : ¬ Blank bytes) (behind : Bytes) :
    scanDecimal (bytes ++ behind) =
        (scanDecimal bytes).map (fun found => (found.1, found.2 ++ behind)) ∧
      ∀ value tail, scanDecimal bytes = some (value, tail) → Terminated tail := by
  obtain ⟨stop, member, unspaced⟩ : ∃ stop ∈ bytes, isSpace stop = false := by
    simpa [Blank] using visible
  have skipped := (scan_append member unspaced behind).2
  have ending : Terminated (bytes.dropWhile isSpace) :=
    terminated.of_suffix (List.dropWhile_suffix _) (dropWhile_ne_nil member unspaced)
  have headUnspaced : ∀ head tail, bytes.dropWhile isSpace = head :: tail →
      isSpace head = false := by
    intro head tail shape
    have stops := List.head_dropWhile_not isSpace (dropWhile_ne_nil member unspaced)
    simpa [shape] using stops
  obtain ⟨signed, unsignedEnds⟩ := scanSign_append ending headUnspaced behind
  have notDigit : isDigit newline = false := by decide
  obtain ⟨digits, rest⟩ := scan_append unsignedEnds.mem notDigit behind
  have restEnds : Terminated ((scanSign (bytes.dropWhile isSpace)).2.dropWhile isDigit) :=
    unsignedEnds.of_suffix (List.dropWhile_suffix _) (dropWhile_ne_nil unsignedEnds.mem notDigit)
  constructor
  · simp only [scanDecimal, skipped, signed, digits, rest]
    split <;> rfl
  · intro value tail found
    simp only [scanDecimal] at found
    split at found
    · cases found
    · rw [Option.some.injEq, Prod.mk.injEq] at found
      rw [← found.2]
      exact restEnds

theorem scanDecimal_blank {bytes : Bytes} (blank : Blank bytes) (behind : Bytes) :
    scanDecimal (bytes ++ behind) = scanDecimal behind := by
  unfold scanDecimal
  rw [List.dropWhile_append_of_pos blank]

theorem zero_not_mem_takeWhile {accepts : UInt8 → Bool} (stops : accepts 0 = false)
    (bytes : Bytes) : 0 ∉ bytes.takeWhile accepts := by
  intro member
  have accepted := List.mem_takeWhile_imp member
  rw [stops] at accepted
  cases accepted

theorem scanSign_split (bytes : Bytes) :
    ∃ sign, bytes = sign ++ (scanSign bytes).2 ∧ 0 ∉ sign := by
  unfold scanSign
  split
  · exact ⟨[45], rfl, by decide⟩
  · exact ⟨[43], rfl, by decide⟩
  · exact ⟨[], rfl, List.not_mem_nil⟩

theorem scanDecimal_consumes {bytes tail : Bytes} {value : Int}
    (found : scanDecimal bytes = some (value, tail)) (terminated : 0 ∈ bytes) :
    0 ∈ tail ∧ tail.length < bytes.length := by
  have spaced := List.takeWhile_append_dropWhile (p := isSpace) (l := bytes)
  obtain ⟨sign, signed, cleanSign⟩ := scanSign_split (bytes.dropWhile isSpace)
  have numbered := List.takeWhile_append_dropWhile (p := isDigit)
    (l := (scanSign (bytes.dropWhile isSpace)).2)
  simp only [scanDecimal] at found
  split at found
  · cases found
  · next digits =>
      rw [Option.some.injEq, Prod.mk.injEq] at found
      rw [← numbered] at signed
      rw [signed] at spaced
      rw [← spaced] at terminated
      have positive := List.length_pos_iff.mpr digits
      have total := congrArg List.length spaced
      rw [found.2] at terminated total
      simp only [List.length_append] at total
      constructor
      · simp only [List.mem_append, cleanSign, zero_not_mem_takeWhile (by decide : isSpace 0 = false),
          zero_not_mem_takeWhile (by decide : isDigit 0 = false), false_or] at terminated
        exact terminated
      · omega

/-! ### The arguments of a command -/

/-- Only white space stands behind the colon. -/
def BothMissing (line : Bytes) : Prop :=
  ∃ arguments, line = seekCommand ++ 58 :: arguments ∧ Blank arguments

/-- A number and a comma stand behind the colon, and then only white space. -/
def SecondMissing (line : Bytes) : Prop :=
  ∃ arguments value later, line = seekCommand ++ 58 :: arguments ∧
    scanDecimal arguments = some (value, 44 :: later) ∧ Blank later

/-- The line ends where `sscanf` still looks for a number. -/
def ArgumentMissing (line : Bytes) : Prop := BothMissing line ∨ SecondMissing line

/-- The buffer has room behind the line for what is missing, which is at least
`0,0` or `0`, and for a terminator. -/
def Completable (line : Bytes) : Prop :=
  BothMissing line ∧ line.length + 4 ≤ inBufferSize ∨
    SecondMissing line ∧ line.length + 2 ≤ inBufferSize

theorem Completable.missing {line : Bytes} (completable : Completable line) :
    ArgumentMissing line := by
  rcases completable with ⟨both, _room⟩ | ⟨second, _room⟩
  · exact Or.inl both
  · exact Or.inr second

def argumentFormat : List Directive := [.literal 58, .decimal, .literal 44, .decimal]

theorem sscanf_command (text : Bytes) :
    sscanf seekFormat (seekCommand ++ text) = sscanf argumentFormat text :=
  sscanf_literals seekCommand argumentFormat text

theorem sscanf_literal_ne {head byte : UInt8} (different : head ≠ byte) (later : List Directive)
    (tail : Bytes) : sscanf (.literal byte :: later) (head :: tail) = [] := by
  rw [sscanf, if_neg different]

theorem IsSeek.rest_terminated {line : Bytes} (closed : IsLine newline line) (seek : IsSeek line) :
    ∃ rest, line = seekCommand ++ rest ∧ Terminated rest := by
  obtain ⟨rest, rfl⟩ := seek
  refine ⟨rest, rfl, ?_⟩
  apply (terminated_of_isLine closed).of_suffix (List.suffix_append _ _)
  intro nothing
  have member := closed.mem
  rw [nothing, List.append_nil] at member
  exact newline_not_mem_seekCommand member

/-- A command whose numbers both begin in its line is read from its line alone. -/
theorem sscanf_own_bytes {line : Bytes} (closed : IsLine newline line) (seek : IsSeek line)
    (complete : ¬ ArgumentMissing line) (behind : Bytes) :
    sscanf seekFormat (line ++ behind) = sscanf seekFormat line := by
  obtain ⟨rest, rfl, ending⟩ := seek.rest_terminated closed
  rw [List.append_assoc, sscanf_command, sscanf_command]
  obtain ⟨colon, arguments, rfl, argumentsEnd⟩ := ending.exists_cons
  rw [List.cons_append]
  by_cases named : colon = 58
  · subst named
    have argumentsEnd := argumentsEnd (by decide)
    have visible : ¬ Blank arguments := by
      intro blank
      exact complete (Or.inl ⟨arguments, rfl, blank⟩)
    obtain ⟨first, tailEnds⟩ := scanDecimal_append argumentsEnd visible behind
    simp only [argumentFormat, sscanf, if_true, first]
    cases found : scanDecimal arguments with
    | none => rfl
    | some result =>
        obtain ⟨value, tail⟩ := result
        obtain ⟨comma, later, rfl, laterEnds⟩ := (tailEnds value tail found).exists_cons
        simp only [Option.map_some, List.cons_append]
        by_cases separated : comma = 44
        · subst separated
          have laterEnds := laterEnds (by decide)
          have laterVisible : ¬ Blank later := by
            intro blank
            exact complete (Or.inr ⟨arguments, value, later, rfl, found, blank⟩)
          obtain ⟨second, _ends⟩ := scanDecimal_append laterEnds laterVisible behind
          simp only [if_true, second]
          cases scanDecimal later with
          | none => rfl
          | some result => rfl
        · simp only [if_neg separated]
  · rw [argumentFormat, sscanf_literal_ne named, sscanf_literal_ne named]

theorem sscanf_bothMissing {line : Bytes} (missing : BothMissing line) (behind : Bytes) :
    sscanf seekFormat (line ++ behind) = sscanf [.decimal, .literal 44, .decimal] behind := by
  obtain ⟨arguments, rfl, blank⟩ := missing
  rw [List.append_assoc, sscanf_command, List.cons_append, argumentFormat]
  simp only [sscanf, if_true, scanDecimal_blank blank]

theorem sscanf_secondMissing {line : Bytes} (closed : IsLine newline line)
    (missing : SecondMissing line) :
    ∃ first, ∀ behind, sscanf seekFormat (line ++ behind) = first :: sscanf [.decimal] behind := by
  obtain ⟨arguments, first, later, rfl, found, blank⟩ := missing
  have argumentsEnd : Terminated arguments := by
    have ending := (terminated_of_isLine closed).of_suffix (List.suffix_append _ _)
      (List.cons_ne_nil 58 arguments)
    obtain ⟨head, tail, same, tailEnds⟩ := ending.exists_cons
    obtain ⟨rfl, rfl⟩ := List.cons.inj same
    exact tailEnds (by decide)
  have visible : ¬ Blank arguments := by
    intro allBlank
    have none := scanDecimal_blank allBlank []
    rw [List.append_nil, found] at none
    cases none
  refine ⟨first, ?_⟩
  intro behind
  rw [List.append_assoc, sscanf_command, List.cons_append, argumentFormat]
  simp only [sscanf, if_true, (scanDecimal_append argumentsEnd visible behind).1, found,
    Option.map_some, List.cons_append, scanDecimal_blank blank]

/-- Two numbers are converted from the bytes of the line. -/
def WellFormed (line : Bytes) : Prop :=
  ∃ writeCmd writeCmdOffset, sscanf seekFormat line = [writeCmd, writeCmdOffset]

theorem WellFormed.complete {line : Bytes} (closed : IsLine newline line)
    (formed : WellFormed line) : ¬ ArgumentMissing line := by
  obtain ⟨writeCmd, writeCmdOffset, converted⟩ := formed
  rw [← List.append_nil line] at converted
  rintro (both | second)
  · rw [sscanf_bothMissing both] at converted
    cases converted
  · obtain ⟨first, continues⟩ := sscanf_secondMissing closed second
    rw [continues] at converted
    cases converted

theorem number_length {behind : Bytes} {value : Int} (converted : sscanf [.decimal] behind = [value])
    (terminated : 0 ∈ behind) : 2 ≤ behind.length := by
  cases found : scanDecimal behind with
  | none => simp [sscanf, found] at converted
  | some result =>
      obtain ⟨inTail, shorter⟩ := scanDecimal_consumes found terminated
      have positive := List.length_pos_of_mem inTail
      omega

theorem two_numbers_length {behind : Bytes} {value other : Int}
    (converted : sscanf [.decimal, .literal 44, .decimal] behind = [value, other])
    (terminated : 0 ∈ behind) : 4 ≤ behind.length := by
  cases found : scanDecimal behind with
  | none => simp [sscanf, found] at converted
  | some result =>
      obtain ⟨first, tail⟩ := result
      obtain ⟨inTail, shorter⟩ := scanDecimal_consumes found terminated
      rw [sscanf, found, List.cons.injEq] at converted
      cases tail with
      | nil => cases inTail
      | cons comma later =>
          by_cases separated : comma = 44
          · have inLater : 0 ∈ later := by
              rcases List.mem_cons.mp inTail with same | inside
              · rw [separated] at same
                cases same
              · exact inside
            have second : sscanf [.decimal] later = [other] := by
              have rest := converted.2
              rw [sscanf, if_pos separated] at rest
              exact rest
            have enough := number_length second inLater
            rw [List.length_cons] at shorter
            omega
          · have rest := converted.2
            rw [sscanf, if_neg separated] at rest
            cases rest

/-! ### The decision on a command line -/

/-- The `ioctl` issued for the line at the head of the loop, if any. -/
def Connection.seekDecision (conn : Connection) : Option AesdSeekto :=
  match conn.nextLine.pc with
  | .ioctl seekto => some seekto
  | _ => none

/-- The memory from `prev_newline_char` on is the line, other bytes and a
terminator. -/
def Connection.StandsAt (conn : Connection) (line : Bytes) : Prop :=
  ∃ behind, conn.text = line ++ behind ∧ 0 ∈ behind

def Connection.BufferedAt (conn : Connection) (line : Bytes) : Prop :=
  conn.inBuffer.length = inBufferSize ∧ conn.StandsAt line

/-- Whatever stands behind the line in the buffer, the decision is the same. -/
def DecidedByItself (line : Bytes) : Prop :=
  ∀ left right : Connection, left.BufferedAt line → right.BufferedAt line →
    left.seekDecision = right.seekDecision

section Decision

variable {conn : Connection} {line behind : Bytes}

theorem strchr_line (closed : IsLine newline line) (clean : 0 ∉ line)
    (text : conn.text = line ++ behind) :
    strchr conn.text newline = some (line.length - 1) ∧
      (conn.scanned (line.length - 1)).line = line := by
  have positive := List.length_pos_iff.mpr closed.ne_nil
  have found : strchr conn.text newline = some (line.length - 1) := by
    rw [strchr, text, cstr_append_of_not_mem clean]
    exact idxOf?_line_append closed (cstr behind)
  refine ⟨found, ?_⟩
  change conn.text.take (line.length - 1 + 1) = line
  rw [text, Nat.sub_add_cancel positive]
  exact List.take_left

theorem seekDecision_converted (closed : IsLine newline line) (clean : 0 ∉ line)
    (seek : IsSeek line) (text : conn.text = line ++ behind) {writeCmd writeCmdOffset : Int}
    (converted : sscanf seekFormat (line ++ behind) = [writeCmd, writeCmdOffset]) :
    conn.seekDecision = some
      { writeCmd := storeInt writeCmd, writeCmdOffset := storeInt writeCmdOffset } := by
  obtain ⟨found, same⟩ := strchr_line closed clean text
  rw [← text] at converted
  rw [Connection.seekDecision, nextLine_seek found (same.symm ▸ seek) converted]

theorem seekDecision_unconverted (closed : IsLine newline line) (clean : 0 ∉ line)
    (seek : IsSeek line) (text : conn.text = line ++ behind)
    (unconverted : ∀ writeCmd writeCmdOffset,
      sscanf seekFormat (line ++ behind) ≠ [writeCmd, writeCmdOffset]) :
    conn.seekDecision = none := by
  obtain ⟨found, same⟩ := strchr_line closed clean text
  rw [← text] at unconverted
  rw [Connection.seekDecision, nextLine_unconverted found (same.symm ▸ seek) unconverted]

theorem seekDecision_complete (closed : IsLine newline line) (clean : 0 ∉ line)
    (seek : IsSeek line) (complete : ¬ ArgumentMissing line) {left right : Connection}
    (leftStands : left.StandsAt line) (rightStands : right.StandsAt line) :
    left.seekDecision = right.seekDecision := by
  obtain ⟨leftBehind, leftText, _terminated⟩ := leftStands
  obtain ⟨rightBehind, rightText, _terminated⟩ := rightStands
  have leftOwn := sscanf_own_bytes closed seek complete leftBehind
  have rightOwn := sscanf_own_bytes closed seek complete rightBehind
  by_cases converted : ∃ writeCmd writeCmdOffset,
      sscanf seekFormat line = [writeCmd, writeCmdOffset]
  · obtain ⟨writeCmd, writeCmdOffset, values⟩ := converted
    rw [seekDecision_converted closed clean seek leftText (leftOwn.trans values),
      seekDecision_converted closed clean seek rightText (rightOwn.trans values)]
  · have unconverted : ∀ writeCmd writeCmdOffset,
        sscanf seekFormat line ≠ [writeCmd, writeCmdOffset] := by
      intro writeCmd writeCmdOffset values
      exact converted ⟨writeCmd, writeCmdOffset, values⟩
    rw [seekDecision_unconverted closed clean seek leftText (leftOwn ▸ unconverted),
      seekDecision_unconverted closed clean seek rightText (rightOwn ▸ unconverted)]

theorem seekDecision_crowded (closed : IsLine newline line) (clean : 0 ∉ line)
    (seek : IsSeek line) (missing : ArgumentMissing line) (crowded : ¬ Completable line)
    (stands : conn.BufferedAt line) : conn.seekDecision = none := by
  obtain ⟨size, behind, text, terminated⟩ := stands
  have room : line.length + behind.length ≤ inBufferSize := by
    rw [← size, ← List.length_append, ← text]
    exact (List.drop_sublist _ _).length_le
  apply seekDecision_unconverted closed clean seek text
  intro writeCmd writeCmdOffset converted
  apply crowded
  rcases missing with both | second
  · rw [sscanf_bothMissing both] at converted
    have needed := two_numbers_length converted terminated
    exact Or.inl ⟨both, by omega⟩
  · obtain ⟨first, continues⟩ := sscanf_secondMissing closed second
    rw [continues behind, List.cons.injEq] at converted
    have needed := number_length converted.2 terminated
    exact Or.inr ⟨second, by omega⟩

end Decision

def Connection.holding (bytes : Bytes) : Connection :=
  { Connection.accepted with
    inBuffer := bytes ++ List.replicate (inBufferSize - bytes.length) 0 }

theorem holding_text (line behind : Bytes) :
    (Connection.holding (line ++ behind)).text =
      line ++ (behind ++ List.replicate (inBufferSize - (line ++ behind).length) 0) :=
  List.append_assoc _ _ _

theorem holding_bufferedAt {line behind : Bytes}
    (room : line.length + behind.length < inBufferSize) :
    (Connection.holding (line ++ behind)).BufferedAt line := by
  rw [← List.length_append] at room
  constructor
  · change (line ++ behind ++ List.replicate _ 0).length = inBufferSize
    rw [List.length_append, List.length_replicate]
    exact Nat.add_sub_cancel' (Nat.le_of_lt room)
  · refine ⟨_, holding_text line behind, ?_⟩
    apply List.mem_append_right
    exact List.mem_replicate.mpr ⟨Nat.sub_ne_zero_of_lt room, rfl⟩

theorem sscanf_zero (count : Nat) (positive : 0 < count) :
    sscanf [.decimal] (48 :: List.replicate count 0) = [0] ∧
      sscanf [.decimal] (List.replicate count 0) = [] ∧
      sscanf [.decimal, .literal 44, .decimal] (List.replicate count 0) = [] := by
  obtain ⟨fewer, rfl⟩ := Nat.exists_eq_succ_of_ne_zero (Nat.ne_of_gt positive)
  rw [List.replicate_succ]
  exact ⟨rfl, rfl, rfl⟩

/-- Bytes that complete the command decide it, when there is room for them. -/
theorem undecided_of_completed {line : Bytes} (behind : Bytes) (closed : IsLine newline line)
    (clean : 0 ∉ line) (seek : IsSeek line) (room : line.length + behind.length < inBufferSize)
    {value other : Int}
    (converted : ∀ count, 0 < count →
      sscanf seekFormat (line ++ (behind ++ List.replicate count 0)) = [value, other])
    (unconverted : ∀ count, 0 < count → ∀ first second,
      sscanf seekFormat (line ++ ([] ++ List.replicate count 0)) ≠ [first, second]) :
    ¬ DecidedByItself line := by
  intro decided
  have bareRoom : line.length + ([] : Bytes).length < inBufferSize :=
    Nat.lt_of_le_of_lt (Nat.le_add_right _ _) room
  have same := decided _ _ (holding_bufferedAt room) (holding_bufferedAt bareRoom)
  rw [← List.length_append] at room bareRoom
  rw [seekDecision_converted closed clean seek (holding_text line behind)
      (converted _ (Nat.sub_pos_of_lt room)),
    seekDecision_unconverted closed clean seek (holding_text line [])
      (unconverted _ (Nat.sub_pos_of_lt bareRoom))] at same
  cases same

theorem completable_undecided {line : Bytes} (closed : IsLine newline line) (clean : 0 ∉ line)
    (seek : IsSeek line) (completable : Completable line) : ¬ DecidedByItself line := by
  rcases completable with ⟨both, room⟩ | ⟨second, room⟩
  · apply undecided_of_completed [48, 44, 48] closed clean seek (Nat.lt_of_succ_le room)
    · intro count positive
      rw [sscanf_bothMissing both]
      exact congrArg (0 :: ·) (sscanf_zero count positive).1
    · intro count positive first second
      rw [sscanf_bothMissing both, List.nil_append, (sscanf_zero count positive).2.2]
      intro impossible
      cases impossible
  · obtain ⟨first, continues⟩ := sscanf_secondMissing closed second
    apply undecided_of_completed [48] closed clean seek (Nat.lt_of_succ_le room)
    · intro count positive
      rw [continues]
      exact congrArg (first :: ·) (sscanf_zero count positive).1
    · intro count positive value other
      rw [continues, List.nil_append, (sscanf_zero count positive).2.1]
      intro impossible
      cases impossible

/-- The decision on a command line depends on that line only, exactly when the
line does not end where a number is still missing, or leaves no room for it. -/
theorem decided_by_itself_iff (line : Bytes) (closed : IsLine newline line) (clean : 0 ∉ line)
    (seek : IsSeek line) : DecidedByItself line ↔ ¬ Completable line := by
  constructor
  · intro decided completable
    exact completable_undecided closed clean seek completable decided
  · intro crowded left right leftStands rightStands
    by_cases missing : ArgumentMissing line
    · rw [seekDecision_crowded closed clean seek missing crowded leftStands,
        seekDecision_crowded closed clean seek missing crowded rightStands]
    · exact seekDecision_complete closed clean seek missing leftStands.2 rightStands.2

theorem decided_by_itself_seekLine : DecidedByItself (seekLine 1 2) := by
  have formed : WellFormed (seekLine 1 2) := ⟨1, 2, by decide⟩
  apply (decided_by_itself_iff (seekLine 1 2) (seekLine_isLine 1 2) (zero_not_mem_seekLine 1 2)
    (List.prefix_append _ _)).mpr
  intro completable
  exact formed.complete (seekLine_isLine 1 2) completable.missing

def cutCommand : Bytes := seekCommand ++ [58, 49, 44, 10]

/-- Followed by the line `2` the command is executed with that number, and the
number is dispatched as data too; followed by `x` nothing is executed. -/
theorem cut_command_takes_next_line :
    (Connection.holding (cutCommand ++ [50, 10, 0])).seekDecision =
        some { writeCmd := 1, writeCmdOffset := 2 } ∧
      (Connection.holding (cutCommand ++ [50, 10, 0])).textLines = [cutCommand, [50, 10]] ∧
      (Connection.holding (cutCommand ++ [120, 10, 0])).seekDecision = none ∧
      ¬ ∀ line, IsLine newline line → 0 ∉ line → IsSeek line → DecidedByItself line := by
  have completed : (Connection.holding (cutCommand ++ [50, 10, 0])).seekDecision =
      some { writeCmd := 1, writeCmdOffset := 2 } := by decide
  have ended : (Connection.holding (cutCommand ++ [120, 10, 0])).seekDecision = none := by decide
  refine ⟨completed, by decide, ended, ?_⟩
  intro decided
  have closed : IsLine newline cutCommand := ⟨seekCommand ++ [58, 49, 44], by decide, by decide⟩
  have same := decided cutCommand closed (by decide) (by decide)
    (Connection.holding (cutCommand ++ [50, 10, 0]))
    (Connection.holding (cutCommand ++ [120, 10, 0]))
    (holding_bufferedAt (by decide)) (holding_bufferedAt (by decide))
  rw [completed, ended] at same
  cases same

/-! ### What becomes of a line -/

def OpenFile.journal (file : OpenFile) : DeviceJournal := file.inv.journal

namespace Session

/-- The line loop has taken the line, which holds no NUL. -/
structure AtLine (session : Session charDevice) (line : Bytes) : Prop where
  closed : IsLine newline line
  clean : 0 ∉ line
  head : ∃ conn : Connection, session.conn = conn.nextLine ∧ conn.StandsAt line

/-- The line is written to the device, which appends it as it stands. -/
def Stored (session : Session charDevice) (line : Bytes) : Prop :=
  session.conn.call = some (.file (.write line)) ∧
    OpenFile.journal session.step.file = (OpenFile.journal session.file).feed line

/-- The `ioctl` is issued with the two numbers that `sscanf` reads at the line;
it is accepted, or refused and the connection closed. -/
def Executed (session : Session charDevice) : Prop :=
  ∃ writeCmd writeCmdOffset,
    sscanf seekFormat session.conn.text = [writeCmd, writeCmdOffset] ∧
    let seekto : AesdSeekto :=
      { writeCmd := storeInt writeCmd, writeCmdOffset := storeInt writeCmdOffset }
    session.conn.call = some (.file (.ioctl seekto)) ∧
      (OpenFile.Accepts session.file seekto ∧ session.step.conn.pc = .readBack ∨
        ¬ OpenFile.Accepts session.file seekto ∧ session.step.step.conn.pc = .returned ∧
          session.step.step.conn.closed = true)

/-- The line is either stored or executed, and stored when it is no command. -/
def Dispatched (session : Session charDevice) (line : Bytes) : Prop :=
  Xor (session.Stored line) session.Executed ∧
    (IsSeek line → ¬ WellFormed line → session.Stored line)

section Fate

variable {session : Session charDevice} {line : Bytes}

theorem AtLine.stored (atLine : session.AtLine line) (data : ¬ IsSeek line) :
    session.Stored line ∧ ¬ session.Executed := by
  obtain ⟨conn, head, behind, text, _terminated⟩ := atLine.head
  obtain ⟨found, same⟩ := strchr_line atLine.closed atLine.clean text
  rw [nextLine_data found (same.symm ▸ data)] at head
  have calls : session.conn.call = some (.file (.write line)) := by
    rw [head]
    change some (Call.file (.write ((conn.scanned (line.length - 1)).line.drop 0))) = _
    rw [same, List.drop_zero]
  constructor
  · refine ⟨calls, ?_⟩
    rw [step_file calls]
    exact (serve_write session.file line).2
  · rintro ⟨writeCmd, writeCmdOffset, _values, executes, _outcome⟩
    rw [calls] at executes
    cases executes

theorem AtLine.executed (atLine : session.AtLine line) (seek : IsSeek line)
    (formed : WellFormed line) : session.Executed ∧ ¬ session.Stored line := by
  obtain ⟨conn, head, behind, text, _terminated⟩ := atLine.head
  obtain ⟨found, same⟩ := strchr_line atLine.closed atLine.clean text
  obtain ⟨writeCmd, writeCmdOffset, values⟩ := id formed
  have converted : sscanf seekFormat conn.text = [writeCmd, writeCmdOffset] := by
    rw [text, sscanf_own_bytes atLine.closed seek (formed.complete atLine.closed), values]
  rw [nextLine_seek found (same.symm ▸ seek) converted] at head
  have calls : session.conn.call = some (.file (.ioctl
      { writeCmd := storeInt writeCmd, writeCmdOffset := storeInt writeCmdOffset })) := by
    rw [head]
    rfl
  constructor
  · refine ⟨writeCmd, writeCmdOffset, ?_, calls, ?_⟩
    · rw [head]
      exact converted
    · by_cases accepts : OpenFile.Accepts session.file
        { writeCmd := storeInt writeCmd, writeCmdOffset := storeInt writeCmdOffset }
      · have served : charDevice.serve session.file _ = _ := serve_ioctl_accepted accepts
        refine Or.inl ⟨accepts, ?_⟩
        rw [step_file calls, served, head]
        rfl
      · have served : charDevice.serve session.file _ = _ := serve_ioctl_refused accepts
        have refused : session.step.conn.pc = .unlockRefused := by
          rw [step_file calls, served, head]
          rfl
        refine Or.inr ⟨accepts, ?_⟩
        rw [step_unlockRefused refused]
        exact ⟨rfl, rfl⟩
  · rintro ⟨stores, _appended⟩
    rw [calls] at stores
    cases stores

theorem AtLine.not_stored (atLine : session.AtLine line) (seek : IsSeek line) :
    ¬ session.Stored line := by
  obtain ⟨conn, head, behind, text, _terminated⟩ := atLine.head
  obtain ⟨found, same⟩ := strchr_line atLine.closed atLine.clean text
  have round := nextLine_cases conn
  rintro ⟨stores, _appended⟩
  rw [head] at stores
  generalize conn.nextLine = next at round stores
  cases round with
  | done absent => cases stores
  | data foundAgain data =>
      rw [found, Option.some.injEq] at foundAgain
      rw [← foundAgain, same] at data
      exact data seek
  | seek _ _ seekto => cases stores
  | unconverted _ _ => cases stores

end Fate

/-- A line that the loop reaches is dispatched exactly when it does not start
like a command or is one. -/
theorem dispatched_iff (session : Session charDevice) (line : Bytes)
    (atLine : session.AtLine line) :
    session.Dispatched line ↔ (IsSeek line → WellFormed line) := by
  constructor
  · rintro ⟨_once, malformed⟩ seek
    apply Classical.byContradiction
    intro unformed
    exact atLine.not_stored seek (malformed seek unformed)
  · intro formed
    by_cases seek : IsSeek line
    · obtain ⟨executed, unstored⟩ := atLine.executed seek (formed seek)
      exact ⟨Or.inr ⟨executed, unstored⟩, fun _ unformed => absurd (formed seek) unformed⟩
    · obtain ⟨stored, unexecuted⟩ := atLine.stored seek
      exact ⟨Or.inl ⟨stored, unexecuted⟩, fun isSeek => absurd isSeek seek⟩

theorem first_line_reached {start : Session charDevice} (place : start.conn.pc = .receive)
    (free : start.fileLock = none) (room : start.conn.inBuffer.length = inBufferSize)
    {chunk : Chunk} {later : List SockRead} (arrives : start.reads = .chunk chunk :: later)
    {line after : Bytes} (cut : chunk.bytes = line ++ after) (closed : IsLine newline line)
    (clean : 0 ∉ line) :
    ∃ session, Reaches step start session ∧ session.AtLine line := by
  have receives := step_receive place arrives
  rw [received_chunk] at receives
  have enters : step
      { start with
        reads := later
        conn :=
          { start.conn with
            pc := .lock chunk.bytes.length
            inBuffer := chunk.bytes ++ start.conn.inBuffer.drop chunk.bytes.length } } =
      { start with
        reads := later
        fileLock := some start.tid
        conn := (start.conn.entered chunk).nextLine } := by
    refine (step_lock rfl ?_).trans ?_
    · exact free
    · rw [locked_chunk]
  have fits : chunk.bytes.length < start.conn.inBuffer.length := by
    rw [room]
    exact Nat.lt_of_le_of_lt chunk.fits (Nat.lt_succ_self _)
  refine ⟨_, Reaches.head receives (Reaches.one enters), closed, clean, ?_⟩
  refine ⟨start.conn.entered chunk, rfl, ?_⟩
  refine ⟨after ++ 0 :: start.conn.inBuffer.drop (chunk.bytes.length + 1), ?_, by simp⟩
  rw [entered_text fits, cut, List.append_assoc]

def sendingOne (chunk : Chunk) : Session charDevice :=
  accepted 0 OpenFile.init [.chunk chunk] (fun _ => .accepts outBufferSize)

theorem sendingOne_reaches (chunk : Chunk) {line after : Bytes}
    (cut : chunk.bytes = line ++ after) (closed : IsLine newline line) (clean : 0 ∉ line) :
    ∃ session, Reaches step (sendingOne chunk) session ∧ session.AtLine line :=
  first_line_reached rfl rfl List.length_replicate rfl cut closed clean

def plainChunk : Chunk := { bytes := [97, 98, 10], nonempty := by decide, fits := by decide }

theorem dispatched_plainChunk :
    ∃ session, Reaches step (sendingOne plainChunk) session ∧
      session.Dispatched plainChunk.bytes := by
  have closed : IsLine newline plainChunk.bytes := ⟨[97, 98], rfl, by decide⟩
  obtain ⟨session, reached, atLine⟩ := sendingOne_reaches plainChunk
    (List.append_nil plainChunk.bytes).symm closed (by decide)
  refine ⟨session, reached, (dispatched_iff session plainChunk.bytes atLine).mpr ?_⟩
  intro seek
  exact absurd seek (by decide)

def bareCommand : Chunk :=
  { bytes := seekCommand ++ [10], nonempty := by decide, fits := by decide }

/-- The line is reached and dispatched to nothing: all that is done on the
device until the thread waits for the next chunk is one read. -/
theorem bare_command_swallowed :
    (∃ session, Reaches step (sendingOne bareCommand) session ∧
      session.AtLine bareCommand.bytes ∧ ¬ session.Dispatched bareCommand.bytes) ∧
    ∃ final, Reaches step (sendingOne bareCommand) final ∧ final.Finished ∧
      final.operations = [.read outBufferSize] := by
  constructor
  · have closed : IsLine newline bareCommand.bytes := ⟨seekCommand, rfl, by decide⟩
    obtain ⟨session, reached, atLine⟩ := sendingOne_reaches bareCommand
      (List.append_nil bareCommand.bytes).symm closed (by decide)
    refine ⟨session, reached, atLine, ?_⟩
    rintro ⟨_once, malformed⟩
    have unformed : ¬ WellFormed bareCommand.bytes := by
      rintro ⟨writeCmd, writeCmdOffset, values⟩
      rw [show sscanf seekFormat bareCommand.bytes = [] by decide] at values
      cases values
    exact atLine.not_stored (by decide) (malformed (by decide) unformed)
  · refine ⟨step^[4] (sendingOne bareCommand), ⟨4, rfl⟩, ?_, ?_⟩
    · exact Or.inr ⟨by decide, by decide⟩
    · decide

end Session

end Aesd.Server
