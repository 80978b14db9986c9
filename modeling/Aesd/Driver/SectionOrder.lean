/-
What the lock protects.

However the statements of the calls are interleaved, as long as no forbidden
access has been made: the sections of the writes follow one another, each adds
its lines as one block, and every other call answers as if it ran between two of
them.
-/

import Aesd.Driver.Interleaving

namespace Aesd.Driver

open CircularBuffer LineStream AesdCircularBuffer

/-! ### Who holds the lock -/

def CallPoint.Holds : CallPoint → Prop
  | .looping _ _ _ => True
  | .keeping _ _ => True
  | .releasing _ _ _ => True
  | .oopsed _ => True
  | _ => False

def CallPoint.Left : CallPoint → Prop
  | .leaving _ _ _ => True
  | .done _ _ => True
  | _ => False

/-- What a call that does not write answers where the device shows these lines. -/
def Op.answer : Op → List Bytes → Int → LineAnswer
  | .read _ count faults, lines, fPos => lineRead faults count lines fPos
  | .llseek _ offset whence lockInterrupted, lines, fPos =>
      lineLlseek lockInterrupted offset whence lines fPos
  | .ioctl _ cmd seekto faults, lines, fPos => lineIoctl faults cmd seekto lines fPos
  | .write _ _ _, _, fPos => { fPos, retval := 0, data := [] }

/-- All lines of the staging buffer were added, as one block. -/
def AddedAll (call : Nat) (finished : List Section) : Prop :=
  ∃ block ∈ finished, block.call = call ∧ block.added = lines newline block.staging

/-- Where a write stands between the lines it has added and those it has to add. -/
def CallPoint.Stands (fails : Nat → Bool) (call : Nat) (finished : List Section)
    (current : List Bytes) : CallPoint → Prop
  | .looping buffer index working =>
      lines newline buffer.bytes = current ++ lines newline working ∧
        committedLines fails 0 (lines newline buffer.bytes) =
          current ++ committedLines fails index (lines newline working)
  | .keeping buffer _ =>
      current = lines newline buffer.bytes ∧
        current = committedLines fails 0 (lines newline buffer.bytes)
  | .releasing buffer _ retval =>
      current = committedLines fails 0 (lines newline buffer.bytes) ∧
        (0 ≤ retval → current = lines newline buffer.bytes)
  | .leaving _ _ retval => 0 ≤ retval → AddedAll call finished
  | .done _ reply =>
      ∀ retval, reply.outcome = .returned retval → 0 ≤ retval → AddedAll call finished
  | _ => True

/-- The lines that the sections have added, less those the ring has given up. -/
def Calls.shown (start : List Bytes) (finished : List Section) (current : List Bytes) :
    List Bytes :=
  retain maxWriteOperationsSupported start (finished.flatMap Section.added ++ current)

structure Ordered (request : Nat → Op) (start : List Bytes) (state : Calls) : Prop where
  ring : RingInv state.kernel.dev.circularBuffer
  content : state.kernel.dev.lines = Calls.shown start state.finished state.current
  lock : state.kernel.dev.lock = true ↔ ∃ call, (state.point call).Holds
  holder : ∀ first second, (state.point first).Holds → (state.point second).Holds → first = second
  quiet : state.kernel.dev.lock = false → state.current = []
  once : (state.finished.map Section.call).Nodup
  left : ∀ block ∈ state.finished, (state.point block.call).Left
  whole : ∀ block ∈ state.finished, ∃ file user faults,
    request block.call = .write file user faults ∧
      block.added = committedLines faults.lineKmemdup 0 (lines newline block.staging)
  stands : ∀ call file user faults, request call = .write file user faults →
    (state.point call).Stands faults.lineKmemdup call state.finished state.current
  others : ∀ call, ¬(request call).IsWrite →
    state.point call = .entered ∨ ∃ fPos reply, state.point call = .done fPos reply

theorem Ordered.initial (request : Nat → Op) {kernel : Kernel} (inv : DevInv kernel.dev) :
    Ordered request kernel.dev.lines (Calls.start kernel) := by
  constructor
  · exact inv.ring
  · exact (retain_nil (ringLines_length_le _)).symm
  · rw [Calls.start, inv.unlocked]
    simp [CallPoint.Holds]
  · intro first second impossible
    cases impossible
  · intro _free
    rfl
  · exact List.nodup_nil
  · intro block absent
    cases absent
  · intro block absent
    cases absent
  · intro call file user faults _write
    trivial
  · intro call _other
    exact Or.inl rfl

/-! ### Moves keep the order -/

structure Move.Quiet (move : Move) (kernel : Kernel) : Prop where
  ring : move.kernel.dev.circularBuffer = kernel.dev.circularBuffer
  lock : move.kernel.dev.lock = kernel.dev.lock
  line : move.line = none

theorem CallPoint.Stands.mono {fails : Nat → Bool} {call : Nat} {finished later : List Section}
    {current other : List Bytes} {point : CallPoint} (free : ¬point.Holds)
    (more : finished ⊆ later) (stands : point.Stands fails call finished current) :
    point.Stands fails call later other := by
  have kept (added : AddedAll call finished) : AddedAll call later := by
    obtain ⟨block, member, same, all⟩ := added
    exact ⟨block, more member, same, all⟩
  cases point with
  | leaving buffer fPos retval => exact fun positive => kept (stands positive)
  | done fPos reply =>
      exact fun retval returned positive => kept (stands retval returned positive)
  | looping buffer index working => exact absurd trivial free
  | keeping buffer working => exact absurd trivial free
  | releasing buffer fPos retval => exact absurd trivial free
  | entered => trivial
  | sized buffer => trivial
  | carried buffer => trivial
  | filled buffer => trivial
  | freed buffer => trivial
  | nulled buffer => trivial
  | staged buffer => trivial
  | oopsed buffer => trivial

section Steps

variable {request : Nat → Op} {start : List Bytes} {state : Calls} {call : Nat} {move : Move}

def CallPoint.Releases : CallPoint → Prop
  | .releasing _ _ _ => True
  | _ => False

theorem finishedAfter_eq (stays : ¬(state.point call).Releases) :
    state.finishedAfter call = state.finished := by
  unfold Calls.finishedAfter
  split
  · rename_i point
    rw [point] at stays
    exact absurd trivial stays
  · rfl

theorem currentAfter_eq (stays : ¬(state.point call).Releases) (line : Option Bytes) :
    state.currentAfter call line = state.current ++ line.toList := by
  unfold Calls.currentAfter
  split
  · rename_i point
    rw [point] at stays
    exact absurd trivial stays
  · rfl

theorem CallPoint.Releases.holds {point : CallPoint} (releases : point.Releases) :
    point.Holds := by
  cases point with
  | releasing buffer fPos retval => trivial
  | _ => cases releases

theorem Ordered.aside (ordered : Ordered request start state) (quiet : move.Quiet state.kernel)
    (before : ¬(state.point call).Holds) (after : ¬move.point.Holds)
    (left : (state.point call).Left → move.point.Left)
    (stands : ∀ file user faults, request call = .write file user faults →
      move.point.Stands faults.lineKmemdup call state.finished state.current)
    (other : ¬(request call).IsWrite →
      move.point = .entered ∨ ∃ fPos reply, move.point = .done fPos reply) :
    Ordered request start (state.apply call move) := by
  have stays : ¬(state.point call).Releases := fun releases => before releases.holds
  have finished : (state.apply call move).finished = state.finished := finishedAfter_eq stays
  have current : (state.apply call move).current = state.current := by
    change state.currentAfter call move.line = state.current
    rw [currentAfter_eq stays, quiet.line, Option.toList_none, List.append_nil]
  have holds (someCall : Nat) :
      ((state.apply call move).point someCall).Holds ↔ (state.point someCall).Holds := by
    by_cases same : someCall = call
    · rw [same, Calls.apply_point_self]
      exact iff_of_false after before
    · rw [Calls.apply_point_of_ne _ _ same]
  constructor
  · rw [Calls.apply_kernel, quiet.ring]
    exact ordered.ring
  · rw [finished, current, ← ordered.content, AesdDev.lines, AesdDev.lines, Calls.apply_kernel,
      quiet.ring]
  · rw [Calls.apply_kernel, quiet.lock, ordered.lock]
    simp only [holds]
  · intro first second
    rw [holds, holds]
    exact ordered.holder first second
  · rw [Calls.apply_kernel, quiet.lock, current]
    exact ordered.quiet
  · rw [finished]
    exact ordered.once
  · intro block member
    rw [finished] at member
    by_cases same : block.call = call
    · rw [same, Calls.apply_point_self]
      apply left
      rw [← same]
      exact ordered.left block member
    · rw [Calls.apply_point_of_ne _ _ same]
      exact ordered.left block member
  · rw [finished]
    exact ordered.whole
  · rw [finished, current]
    apply Calls.apply_points
      (P := fun other point => ∀ file user faults, request other = .write file user faults →
        point.Stands faults.lineKmemdup other state.finished state.current)
    · exact stands
    · exact fun other _different => ordered.stands other
  · apply Calls.apply_points
      (P := fun other point => ¬(request other).IsWrite →
        point = .entered ∨ ∃ fPos reply, point = .done fPos reply)
    · exact other
    · exact fun other _different => ordered.others other

theorem Ordered.inside (ordered : Ordered request start state)
    (held : (state.point call).Holds ∨ state.kernel.dev.lock = false)
    (notYet : ¬(state.point call).Left)
    (stays : ¬(state.point call).Releases) (after : move.point.Holds)
    (lock : move.kernel.dev.lock = true) (ring : RingInv move.kernel.dev.circularBuffer)
    (content : move.kernel.dev.lines = retain maxWriteOperationsSupported
      state.kernel.dev.lines move.line.toList)
    (write : (request call).IsWrite)
    (stands : ∀ file user faults, request call = .write file user faults →
      move.point.Stands faults.lineKmemdup call state.finished
        (state.current ++ move.line.toList)) :
    Ordered request start (state.apply call move) := by
  have finished : (state.apply call move).finished = state.finished := finishedAfter_eq stays
  have current : (state.apply call move).current = state.current ++ move.line.toList :=
    currentAfter_eq stays move.line
  have alone (other : Nat) (different : other ≠ call) : ¬(state.point other).Holds := by
    intro holds
    rcases held with own | free
    · exact different (ordered.holder other call holds own)
    · rw [ordered.lock.mpr ⟨other, holds⟩] at free
      cases free
  have holdsOnly (other : Nat) (holds : ((state.apply call move).point other).Holds) :
      other = call := by
    apply Classical.byContradiction
    intro different
    rw [Calls.apply_point_of_ne _ _ different] at holds
    exact alone other different holds
  constructor
  · exact ring
  · rw [finished, current, Calls.apply_kernel, content, ordered.content, Calls.shown, Calls.shown,
      retain_retain, List.append_assoc]
  · rw [Calls.apply_kernel]
    apply iff_of_true lock
    refine ⟨call, ?_⟩
    rw [Calls.apply_point_self]
    exact after
  · intro first second firstHolds secondHolds
    rw [holdsOnly first firstHolds, holdsOnly second secondHolds]
  · intro free
    rw [Calls.apply_kernel, lock] at free
    cases free
  · rw [finished]
    exact ordered.once
  · intro block member
    rw [finished] at member
    have different : block.call ≠ call := by
      intro same
      have past := ordered.left block member
      rw [same] at past
      exact notYet past
    rw [Calls.apply_point_of_ne _ _ different]
    exact ordered.left block member
  · rw [finished]
    exact ordered.whole
  · rw [finished, current]
    apply Calls.apply_points
      (P := fun other point => ∀ file user faults, request other = .write file user faults →
        point.Stands faults.lineKmemdup other state.finished (state.current ++ move.line.toList))
    · exact stands
    · intro other different file user faults asked
      exact (ordered.stands other file user faults asked).mono (alone other different)
        (fun _block member => member)
  · apply Calls.apply_points
      (P := fun other point => ¬(request other).IsWrite →
        point = .entered ∨ ∃ fPos reply, point = .done fPos reply)
    · intro notWrite
      exact absurd write notWrite
    · exact fun other _different => ordered.others other

/-- The step that releases the lock ends the section. -/
theorem Ordered.release (ordered : Ordered request start state) {buffer : Kbuf}
    {fPos retval : Int} (point : state.point call = .releasing buffer fPos retval)
    (write : (request call).IsWrite) :
    Ordered request start (state.apply call
      { kernel := state.kernel.unlock, point := .leaving buffer fPos retval }) := by
  have own : (state.point call).Holds := by
    rw [point]
    trivial
  have alone (other : Nat) (different : other ≠ call) : ¬(state.point other).Holds := by
    intro holds
    exact different (ordered.holder other call holds own)
  have fresh : ∀ block ∈ state.finished, block.call ≠ call := by
    intro block member same
    have past := ordered.left block member
    rw [same, point] at past
    exact past
  obtain ⟨file, user, faults, asked⟩ := write.request
  obtain ⟨committed, all⟩ := by
    have stands := ordered.stands call file user faults asked
    rw [point] at stands
    exact stands
  let next := state.apply call
    { kernel := state.kernel.unlock, point := .leaving buffer fPos retval }
  have finished : next.finished = state.finished ++
      [{ call := call, staging := buffer.bytes, added := state.current }] := by
    change state.finishedAfter call = _
    rw [Calls.finishedAfter, point]
  have current : next.current = [] := by
    change state.currentAfter call none = _
    rw [Calls.currentAfter, point]
  have free (other : Nat) : ¬(next.point other).Holds := by
    by_cases same : other = call
    · rw [same, Calls.apply_point_self]
      exact id
    · rw [Calls.apply_point_of_ne _ _ same]
      exact alone other same
  constructor
  · exact ordered.ring
  · rw [finished, current, Calls.shown, List.flatMap_append, List.append_nil,
      List.flatMap_singleton]
    exact ordered.content
  · apply iff_of_false
    · exact Bool.false_ne_true
    · rintro ⟨other, holds⟩
      exact free other holds
  · intro first second holds
    exact absurd holds (free first)
  · intro _free
    exact current
  · rw [finished, List.map_append, List.map_singleton]
    apply List.nodup_append_comm.mp
    rw [List.singleton_append, List.nodup_cons]
    constructor
    · intro member
      obtain ⟨block, inside, same⟩ := List.mem_map.mp member
      exact fresh block inside same
    · exact ordered.once
  · intro block member
    rw [finished] at member
    rcases List.mem_append.mp member with earlier | new
    · rw [Calls.apply_point_of_ne _ _ (fresh block earlier)]
      exact ordered.left block earlier
    · rw [List.mem_singleton.mp new, Calls.apply_point_self]
      trivial
  · intro block member
    rw [finished] at member
    rcases List.mem_append.mp member with earlier | new
    · exact ordered.whole block earlier
    · rw [List.mem_singleton.mp new]
      exact ⟨file, user, faults, asked, committed⟩
  · rw [finished, current]
    apply Calls.apply_points
      (P := fun other point => ∀ file user faults, request other = .write file user faults →
        point.Stands faults.lineKmemdup other
          (state.finished ++ [Section.mk call buffer.bytes state.current]) [])
    · intro file user faults _asked positive
      exact ⟨_, List.mem_append_right _ (List.mem_singleton.mpr rfl), rfl, all positive⟩
    · intro other different file user faults asked
      exact (ordered.stands other file user faults asked).mono (alone other different)
        (List.subset_append_left _ _)
  · apply Calls.apply_points
      (P := fun other point => ¬(request other).IsWrite →
        point = .entered ∨ ∃ fPos reply, point = .done fPos reply)
    · intro notWrite
      exact absurd write notWrite
    · exact fun other _different => ordered.others other

/-! ### The steps of a write -/

section Write

variable {stale : Nat → Nat → UInt8} {file : Nat} {user : Bytes} {faults : WriteFaults}
  {fPos : Int}

private theorem negative_enomem : ¬(0 : Int) ≤ -enomem := by decide

private theorem negative_einval : ¬(0 : Int) ≤ -einval := by decide

private theorem negative_erestartsys : ¬(0 : Int) ≤ -erestartsys := by decide

private theorem Ordered.aside_write (ordered : Ordered request start state)
    (asked : request call = .write file user faults) (quiet : move.Quiet state.kernel)
    {before after : CallPoint} (point : state.point call = before) (next : move.point = after)
    (outside : ¬before.Holds) (stays : ¬after.Holds) (left : before.Left → after.Left)
    (stands : after.Stands faults.lineKmemdup call state.finished state.current) :
    Ordered request start (state.apply call move) := by
  subst point next
  apply ordered.aside quiet outside stays left
  · intro otherFile otherUser otherFaults again
    rw [asked, Op.write.injEq] at again
    rw [← again.2.2]
    exact stands
  · intro notWrite
    rw [asked] at notWrite
    exact absurd trivial notWrite

private theorem Ordered.inside_write (ordered : Ordered request start state)
    (asked : request call = .write file user faults) (quiet : move.Quiet state.kernel)
    {before after : CallPoint} (point : state.point call = before) (next : move.point = after)
    (held : before.Holds) (notYet : ¬before.Left) (stays : ¬before.Releases)
    (holds : after.Holds)
    (stands : after.Stands faults.lineKmemdup call state.finished state.current) :
    Ordered request start (state.apply call move) := by
  subst point next
  apply ordered.inside (Or.inl held) notYet stays holds
  · rw [quiet.lock]
    exact ordered.lock.mpr ⟨call, held⟩
  · rw [quiet.ring]
    exact ordered.ring
  · rw [quiet.line, AesdDev.lines, AesdDev.lines, quiet.ring]
    exact (retain_nil (ringLines_length_le _)).symm
  · rw [asked]
    trivial
  · intro otherFile otherUser otherFaults again
    rw [asked, Op.write.injEq] at again
    rw [← again.2.2, quiet.line, Option.toList_none, List.append_nil]
    exact stands

private theorem Ordered.round (ordered : Ordered request start state)
    (asked : request call = .write file user faults) {buffer : Kbuf} {index newLine : Nat}
    {working : Bytes} (point : state.point call = .looping buffer index working)
    (found : memchr working newline = some newLine)
    (copied : faults.lineKmemdup index = false) :
    Ordered request start (state.apply call
      { kernel := state.kernel.addLine (working.take (newLine + 1)) (newLine + 1)
        point := .looping buffer (index + 1) (working.drop (newLine + 1))
        line := some (working.take (newLine + 1)) }) := by
  have held : (state.point call).Holds := by rw [point]; trivial
  have stands := ordered.stands call file user faults asked
  rw [point] at stands
  obtain ⟨all, committed⟩ := stands
  have closed : IsLine newline (working.take (newLine + 1)) := isLine_take_of_idxOf? found
  have split := lines_of_idxOf? found
  obtain ⟨ring, content⟩ := ordered.ring.addEntry
    { id := state.kernel.slab.next + 1, bytes := working.take (newLine + 1) } (newLine + 1)
    (List.length_take_of_le (idxOf?_lt_length found)) closed
  apply ordered.inside (Or.inl held)
  · rw [point]
    exact id
  · rw [point]
    exact id
  · trivial
  · exact ordered.lock.mpr ⟨call, held⟩
  · exact ring
  · exact content
  · rw [asked]
    trivial
  · intro otherFile otherUser otherFaults again
    rw [asked, Op.write.injEq] at again
    rw [← again.2.2, Option.toList_some]
    constructor
    · rw [all, split, List.append_assoc, List.singleton_append]
    · rw [committed, split, List.append_assoc, List.singleton_append]
      simp only [committedLines, copied, Bool.false_eq_true, if_false]

private theorem Ordered.loop (ordered : Ordered request start state)
    (asked : request call = .write file user faults) {buffer : Kbuf} {index : Nat}
    {working : Bytes} (point : state.point call = .looping buffer index working)
    (moves : LoopMove faults user fPos buffer index working state.kernel move) :
    Ordered request start (state.apply call move) := by
  have stands := ordered.stands call file user faults asked
  rw [point] at stands
  obtain ⟨all, committed⟩ := stands
  cases moves with
  | added newLine found copied => exact ordered.round asked point found copied
  | oopsed newLine found descriptor =>
      exact ordered.inside_write asked ⟨rfl, rfl, rfl⟩ point rfl trivial id id trivial trivial
  | failed newLine found copy =>
      apply ordered.inside_write asked ⟨rfl, rfl, rfl⟩ point rfl trivial id id
      · trivial
      · constructor
        · rw [committed, lines_of_idxOf? found]
          simp only [committedLines, copy, if_true, List.append_nil]
        · intro positive
          exact absurd positive negative_einval
  | lost absent =>
      rw [lines_of_not_mem absent] at committed
      apply ordered.inside_write asked ⟨rfl, rfl, rfl⟩ point rfl trivial id id
      · trivial
      · constructor
        · rw [committed, committedLines, List.append_nil]
        · intro positive
          exact absurd positive negative_enomem
  | kept absent =>
      rw [lines_of_not_mem absent] at committed all
      apply ordered.inside_write asked ⟨rfl, rfl, rfl⟩ point rfl trivial id id
      · trivial
      · constructor
        · rw [all, List.append_nil]
        · rw [committed, committedLines, List.append_nil]
  | ended empty =>
      rw [empty] at committed all
      apply ordered.inside_write asked ⟨rfl, rfl, rfl⟩ point rfl trivial id id
      · trivial
      · constructor
        · rw [committed]
          exact (List.append_nil _).symm
        · intro _positive
          rw [all]
          exact (List.append_nil _).symm

theorem Ordered.write_step (ordered : Ordered request start state)
    (asked : request call = .write file user faults)
    (moves : writeMove stale faults user fPos state.kernel (state.point call) = some move) :
    Ordered request start (state.apply call move) := by
  have stands := ordered.stands call file user faults asked
  cases point : state.point call with
  | entered =>
      rw [point] at moves
      cases moves
      rcases sizeStaging_cases stale faults user fPos state.kernel with failed | sized
      · rw [failed]
        apply ordered.aside_write asked ⟨rfl, rfl, rfl⟩ point rfl id id
        · intro impossible
          cases impossible
        · intro retval returned positive
          cases returned
          exact absurd positive negative_enomem
      · rw [sized]
        exact ordered.aside_write asked ⟨rfl, rfl, rfl⟩ point rfl id id id trivial
  | sized buffer =>
      rw [point] at moves
      rcases carryPartial_cases moves with ⟨_absent, rfl⟩ | ⟨stored, _present, _live, _long, _fits, rfl⟩
      · exact ordered.aside_write asked ⟨rfl, rfl, rfl⟩ point rfl id id id trivial
      · exact ordered.aside_write asked ⟨rfl, rfl, rfl⟩ point rfl id id id trivial
  | carried buffer =>
      rw [point] at moves
      rcases fillStaging_cases moves with rfl | ⟨_fits, rfl⟩
      · apply ordered.aside_write asked ⟨rfl, rfl, rfl⟩ point rfl id id
        · intro impossible
          cases impossible
        · intro positive
          exact absurd positive negative_enomem
      · exact ordered.aside_write asked ⟨rfl, rfl, rfl⟩ point rfl id id id trivial
  | filled buffer =>
      rw [point] at moves
      rcases freePartial_cases moves with ⟨_absent, rfl⟩ | ⟨stored, _present, _live, rfl⟩
      · exact ordered.aside_write asked ⟨rfl, rfl, rfl⟩ point rfl id id id trivial
      · exact ordered.aside_write asked ⟨rfl, rfl, rfl⟩ point rfl id id id trivial
  | freed buffer =>
      rw [point] at moves
      cases moves
      exact ordered.aside_write asked ⟨rfl, rfl, rfl⟩ point rfl id id id trivial
  | nulled buffer =>
      rw [point] at moves
      cases moves
      exact ordered.aside_write asked ⟨rfl, rfl, rfl⟩ point rfl id id id trivial
  | staged buffer =>
      rw [point] at moves
      cases moves
      rcases lockSection_cases faults fPos buffer state.kernel with
        interrupted | blocked | ⟨free, acquired⟩
      · rw [interrupted]
        apply ordered.aside_write asked ⟨rfl, rfl, rfl⟩ point rfl id id
        · intro impossible
          cases impossible
        · intro positive
          exact absurd positive negative_erestartsys
      · rw [blocked]
        exact ordered.aside_write asked ⟨rfl, rfl, rfl⟩ point rfl id id id trivial
      · rw [acquired]
        apply ordered.inside (Or.inr free)
        · rw [point]
          exact id
        · rw [point]
          exact id
        · trivial
        · rfl
        · exact ordered.ring
        · exact (retain_nil (ringLines_length_le _)).symm
        · rw [asked]
          trivial
        · intro otherFile otherUser otherFaults _again
          rw [Option.toList_none, List.append_nil, ordered.quiet free]
          exact ⟨rfl, rfl⟩
  | looping buffer index working =>
      rw [point] at moves
      cases moves
      exact ordered.loop asked point (loopRound_cases faults user fPos buffer index working _)
  | keeping buffer working =>
      rw [point] at moves stands
      cases moves
      exact ordered.inside_write asked ⟨rfl, rfl, rfl⟩ point rfl trivial id id trivial
        ⟨stands.2, fun _positive => stands.1⟩
  | releasing buffer fPos retval =>
      rw [point] at moves
      cases moves
      apply ordered.release point
      rw [asked]
      trivial
  | leaving buffer fPos retval =>
      rw [point] at moves stands
      cases moves
      apply ordered.aside_write asked ⟨rfl, rfl, rfl⟩ point rfl id id
      · intro _left
        trivial
      · intro returned same positive
        cases same
        exact stands positive
  | oopsed buffer =>
      rw [point] at moves
      cases moves
      exact ordered.inside_write asked ⟨rfl, rfl, rfl⟩ point rfl trivial id id trivial trivial
  | done fPos reply =>
      rw [point] at moves stands
      cases moves
      exact ordered.aside_write asked ⟨rfl, rfl, rfl⟩ point rfl id id id stands

end Write

end Steps

/-! ### Calls that are under the lock for all they do -/

section Answers

variable {op : Op} {kernel : Kernel} (fPos : Int)

/-- While somebody else is under the lock a call waits, or returns without looking
at the lines. -/
theorem answer_held (other : ¬op.IsWrite) (held : kernel.dev.lock = true) :
    (OpenDevice.call { kernel := kernel, fPos := fun _ => fPos } op).outcome = .stuck ∨
      ∀ lines, (OpenDevice.call { kernel := kernel, fPos := fun _ => fPos } op).Gives kernel
        (op.answer lines fPos) := by
  cases op with
  | write file user faults => exact absurd trivial other
  | read file count faults =>
      simp only [OpenDevice.call, Op.answer, aesdRead, lineRead, mutexLockInterruptible]
      cases faults.lockInterrupted with
      | true => exact Or.inr fun _lines => rfl
      | false =>
          rw [held]
          exact Or.inl rfl
  | llseek file offset whence lockInterrupted =>
      simp only [OpenDevice.call, Op.answer, aesdLlseek, lineLlseek, mutexLockInterruptible]
      cases lockInterrupted with
      | true => exact Or.inr fun _lines => rfl
      | false =>
          rw [held]
          exact Or.inl rfl
  | ioctl file cmd seekto faults =>
      simp only [OpenDevice.call, Op.answer, aesdIoctl_eq, lineIoctl]
      split
      · split
        · exact Or.inr fun _lines => rfl
        · simp only [aesdAdjustFileOffset, lineSeekto, mutexLockInterruptible]
          split
          · exact Or.inr fun _lines => rfl
          · cases faults.lockInterrupted with
            | true => exact Or.inr fun _lines => rfl
            | false => exact Or.inl rfl
      · exact Or.inr fun _lines => rfl

theorem answer_free (other : ¬op.IsWrite) (ring : RingInv kernel.dev.circularBuffer)
    (free : kernel.dev.lock = false) :
    (OpenDevice.call { kernel := kernel, fPos := fun _ => fPos } op).Gives kernel
      (op.answer kernel.dev.lines fPos) := by
  cases op with
  | write file user faults => exact absurd trivial other
  | read file count faults => exact aesdRead_gives faults count fPos ring free
  | llseek file offset whence lockInterrupted =>
      exact aesdLlseek_gives lockInterrupted offset whence fPos ring free
  | ioctl file cmd seekto faults => exact aesdIoctl_gives faults cmd seekto fPos ring free

end Answers

section Steps

variable {stale : Nat → Nat → UInt8} {request : Nat → Op} {fPos : Nat → Int} {start : List Bytes}
  {state next : Calls} {call : Nat}

theorem Ordered.sectionMove_cases (ordered : Ordered request start state) (fPos : Nat → Int)
    (other : ¬(request call).IsWrite) (point : state.point call = .entered) :
    sectionMove (request call) (fPos call) state.kernel (state.point call) =
        { kernel := state.kernel, point := .entered } ∨
      sectionMove (request call) (fPos call) state.kernel (state.point call) =
        { kernel := state.kernel
          point := .done
            ((request call).answer (Calls.shown start state.finished []) (fPos call)).fPos
            ((request call).answer (Calls.shown start state.finished []) (fPos call)).reply } := by
  have answered (lines : List Bytes)
      (gives : (OpenDevice.call { kernel := state.kernel, fPos := fun _ => fPos call }
        (request call)).Gives state.kernel ((request call).answer lines (fPos call))) :
      sectionMove (request call) (fPos call) state.kernel .entered =
        { kernel := state.kernel
          point := .done ((request call).answer lines (fPos call)).fPos
            ((request call).answer lines (fPos call)).reply } := by
    unfold CallResult.Gives at gives
    simp only [sectionMove, gives, reduceCtorEq, if_false]
    rfl
  rw [point]
  cases lock : state.kernel.dev.lock with
  | true =>
      rcases answer_held (fPos call) other lock with stuck | gives
      · left
        simp only [sectionMove, stuck, if_true]
      · exact Or.inr (answered _ (gives _))
  | false =>
      right
      have shown : state.kernel.dev.lines = Calls.shown start state.finished [] := by
        rw [ordered.content, ordered.quiet lock]
      rw [← shown]
      exact answered _ (answer_free (fPos call) other ordered.ring lock)

private theorem Ordered.aside_other (ordered : Ordered request start state)
    (other : ¬(request call).IsWrite) {before after : CallPoint}
    (point : state.point call = before) (outside : ¬before.Holds) (stays : ¬after.Holds)
    (left : before.Left → after.Left)
    (points : after = .entered ∨ ∃ fPos reply, after = .done fPos reply) :
    Ordered request start (state.apply call { kernel := state.kernel, point := after }) := by
  subst point
  apply ordered.aside ⟨rfl, rfl, rfl⟩ outside stays left
  · intro file user faults asked
    rw [asked] at other
    exact absurd trivial other
  · exact fun _other => points

theorem Ordered.step (ordered : Ordered request start state)
    (steps : state.step stale request fPos call = some next) : Ordered request start next := by
  by_cases write : (request call).IsWrite
  · obtain ⟨file, user, faults, move, asked, moves, rfl⟩ := Calls.step_write write steps
    exact ordered.write_step asked moves
  · rw [Calls.step_other write, Option.some.injEq] at steps
    subst steps
    rcases ordered.others call write with point | ⟨position, reply, point⟩
    · rcases ordered.sectionMove_cases fPos write point with waits | answers
      · rw [waits]
        exact ordered.aside_other write point id id id (Or.inl rfl)
      · rw [answers]
        apply ordered.aside_other write point id id
        · intro impossible
          cases impossible
        · exact Or.inr ⟨_, _, rfl⟩
    · rw [point]
      exact ordered.aside_other write point id id id (Or.inr ⟨position, reply, rfl⟩)

theorem Ordered.run {schedule : List Nat} {final : Calls} (ordered : Ordered request start state)
    (ran : state.run stale request fPos schedule = some final) :
    Ordered request start final := by
  induction schedule generalizing state with
  | nil =>
      cases ran
      exact ordered
  | cons call later ih =>
      obtain ⟨next, steps, rest⟩ := Option.bind_eq_some_iff.mp ran
      exact ih (ordered.step steps) rest

theorem step_finished (steps : state.step stale request fPos call = some next) :
    state.finished <+: next.finished := by
  obtain ⟨move, rfl⟩ := Calls.step_applies steps
  exact state.finished_prefix_after call

theorem run_finished {schedule : List Nat} {final : Calls}
    (ran : state.run stale request fPos schedule = some final) :
    state.finished <+: final.finished := by
  induction schedule generalizing state with
  | nil =>
      cases ran
      exact List.prefix_refl _
  | cons call later ih =>
      obtain ⟨next, steps, rest⟩ := Option.bind_eq_some_iff.mp ran
      exact (step_finished steps).trans (ih rest)

private theorem step_point_other {other : Nat}
    (steps : state.step stale request fPos call = some next) (different : other ≠ call) :
    next.point other = state.point other := by
  obtain ⟨move, rfl⟩ := Calls.step_applies steps
  exact Calls.apply_point_of_ne _ _ different

private theorem step_answered (other : ¬(request call).IsWrite) {position : Int} {reply : Reply}
    (point : state.point call = .done position reply)
    (steps : state.step stale request fPos call = some next) :
    next.point call = .done position reply := by
  rw [Calls.step_other other, Option.some.injEq, point] at steps
  rw [← steps, Calls.apply_point_self]
  rfl

private theorem run_answered (other : ¬(request call).IsWrite) {position : Int} {reply : Reply}
    {schedule : List Nat} {final : Calls} (point : state.point call = .done position reply)
    (ran : state.run stale request fPos schedule = some final) :
    final.point call = .done position reply := by
  induction schedule generalizing state with
  | nil =>
      cases ran
      exact point
  | cons moving later ih =>
      obtain ⟨next, steps, rest⟩ := Option.bind_eq_some_iff.mp ran
      apply ih _ rest
      by_cases same : call = moving
      · subst same
        exact step_answered other point steps
      · rw [step_point_other steps same]
        exact point

/-- A call that does not write answers from a number of whole sections, among them
all that were over when it was made. -/
theorem Ordered.answered (ordered : Ordered request start state) (other : ¬(request call).IsWrite)
    {schedule : List Nat} {final : Calls} (made : state.point call = .entered)
    (ran : state.run stale request fPos schedule = some final) {position : Int} {reply : Reply}
    (done : final.point call = .done position reply) :
    ∃ seen, state.finished <+: seen ∧ seen <+: final.finished ∧
      position = ((request call).answer (Calls.shown start seen []) (fPos call)).fPos ∧
      reply = ((request call).answer (Calls.shown start seen []) (fPos call)).reply := by
  induction schedule generalizing state with
  | nil =>
      cases ran
      rw [made] at done
      cases done
  | cons moving later ih =>
      obtain ⟨next, steps, rest⟩ := Option.bind_eq_some_iff.mp ran
      have after := ordered.step steps
      have longer := step_finished steps
      have tail (waiting : next.point call = .entered) : ∃ seen, state.finished <+: seen ∧
          seen <+: final.finished ∧
          position = ((request call).answer (Calls.shown start seen []) (fPos call)).fPos ∧
          reply = ((request call).answer (Calls.shown start seen []) (fPos call)).reply := by
        obtain ⟨seen, since, before, answers⟩ := ih after waiting rest
        exact ⟨seen, longer.trans since, before, answers⟩
      by_cases same : call = moving
      · subst same
        rcases ordered.sectionMove_cases fPos other made with waits | answers
        · apply tail
          rw [Calls.step_other other, Option.some.injEq, waits] at steps
          rw [← steps, Calls.apply_point_self]
        · have now := steps
          rw [Calls.step_other other, Option.some.injEq, answers] at now
          have point := Calls.apply_point_self state call
            { kernel := state.kernel
              point := .done
                ((request call).answer (Calls.shown start state.finished []) (fPos call)).fPos
                ((request call).answer (Calls.shown start state.finished []) (fPos call)).reply }
          rw [now] at point
          rw [run_answered other point rest, CallPoint.done.injEq] at done
          exact ⟨state.finished, List.prefix_refl _, longer.trans (run_finished rest),
            done.1.symm, done.2.symm⟩
      · apply tail
        rw [step_point_other steps same]
        exact made

end Steps

/-- However the statements of the calls are interleaved and whatever fails in them,
up to a forbidden access to the partial line: at most one call is under the lock;
the lines are those of the sections in the order of the lock, each a block of the
lines at the front of its staging buffer, all of them when the write reports
success; and every read, seek and ioctl answers from whole sections, among them
all that were over before it began. -/
theorem sections_linearised (stale : Nat → Nat → UInt8) (request : Nat → Op) (fPos : Nat → Int)
    (kernel : Kernel) (reachable : Reachable kernel) (first second : List Nat)
    (middle final : Calls)
    (ran : (Calls.start kernel).run stale request fPos first = some middle)
    (continued : middle.run stale request fPos second = some final) :
    (final.kernel.dev.lock = true ↔ ∃ call, (final.point call).Holds) ∧
      (∀ call other, (final.point call).Holds → (final.point other).Holds → call = other) ∧
      final.kernel.dev.lines =
        Calls.shown kernel.dev.lines final.finished final.current ∧
      middle.finished <+: final.finished ∧
      (final.finished.map Section.call).Nodup ∧
      (∀ block ∈ final.finished, ∃ file user faults,
        request block.call = .write file user faults ∧
          block.added = committedLines faults.lineKmemdup 0 (lines newline block.staging)) ∧
      (∀ call position retval data, (request call).IsWrite →
        final.point call = .done position { outcome := .returned retval, data := data } →
        0 ≤ retval → AddedAll call final.finished) ∧
      ∀ call position reply, ¬(request call).IsWrite → middle.point call = .entered →
        final.point call = .done position reply →
        ∃ seen, middle.finished <+: seen ∧ seen <+: final.finished ∧
          position =
            ((request call).answer (Calls.shown kernel.dev.lines seen []) (fPos call)).fPos ∧
          reply =
            ((request call).answer (Calls.shown kernel.dev.lines seen []) (fPos call)).reply := by
  have begun : Ordered request kernel.dev.lines middle :=
    (Ordered.initial request reachable.inv).run ran
  have ordered : Ordered request kernel.dev.lines final := begun.run continued
  refine ⟨ordered.lock, ordered.holder, ordered.content, run_finished continued, ordered.once,
    ordered.whole, ?_, ?_⟩
  · intro call position retval data write done positive
    obtain ⟨file, user, faults, asked⟩ := write.request
    have stands := ordered.stands call file user faults asked
    rw [done] at stands
    exact stands retval rfl positive
  · intro call position reply other made done
    exact begun.answered other made continued done

def twoLinesAndReads : Nat → Op
  | 0 => .write 0 [97, 10, 98, 10] WriteFaults.none
  | call => .read call 8 { lockInterrupted := false, copyToUser := false }

/-- The first read is made when one line has been added and waits; it sees both. -/
theorem sections_linearised_twoLines :
    Reachable OpenDevice.init.kernel ∧
      ∃ middle final, (Calls.start OpenDevice.init.kernel).run (fun _ _ => 0) twoLinesAndReads
          (fun _ => 0) [0, 0, 0, 0, 0, 0, 1] = some middle ∧
        middle.run (fun _ _ => 0) twoLinesAndReads (fun _ => 0) [0, 0, 1, 0, 1] = some final ∧
        middle.current = [[97, 10]] ∧
        final.kernel.dev.lines = [[97, 10], [98, 10]] ∧
        final.point 1 = .done 2 { outcome := .returned 2, data := [97, 10] } := by
  have reachable : Reachable OpenDevice.init.kernel :=
    ⟨[], fun _op member => absurd member List.not_mem_nil, rfl⟩
  refine ⟨reachable, _, _, rfl, rfl, rfl, ?_, rfl⟩
  obtain ⟨_lock, _holder, content, _rest⟩ := sections_linearised (fun _ _ => 0) twoLinesAndReads
    (fun _ => 0) _ reachable [0, 0, 0, 0, 0, 0, 1] [0, 0, 1, 0, 1] _ _ rfl rfl
  exact content.trans rfl

end Aesd.Driver
