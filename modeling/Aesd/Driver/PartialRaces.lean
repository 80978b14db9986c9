/-
Calls that do not disturb one another.

In front of the lock `aesd_write` takes the size of `partial`, copies what it
points to, frees it and clears it, in separate statements. These statements make
no forbidden access as long as no other call changes `partial` between the first
and the last of them, and none of them is taken while another call has made one
of two assignments to it.
-/

import Aesd.Driver.CallMemory

namespace Aesd.Driver

open CircularBuffer LineStream AesdCircularBuffer

/-- Between the first and the last access to `partial` in front of the lock. -/
def CallPoint.InFront : CallPoint → Prop
  | .sized _ => True
  | .carried _ => True
  | .filled _ => True
  | .freed _ => True
  | .nulled _ => True
  | _ => False

/-- Between two assignments to `partial`, or between its free and the first. -/
def CallPoint.Changing : CallPoint → Prop
  | .freed _ => True
  | .nulled _ => True
  | .keeping _ _ => True
  | _ => False

def CallPoint.Looks : CallPoint → Prop
  | .entered => True
  | .sized _ => True
  | .carried _ => True
  | .filled _ => True
  | _ => False

section Undisturbed

variable (stale : Nat → Nat → UInt8) (request : Nat → Op) (fPos : Nat → Int)

/-- No step looks at `partial` while another call is changing it, and none changes
it while another call is in front of the lock. -/
def Undisturbed : Calls → List Nat → Prop
  | _, [] => True
  | state, call :: later =>
      ((request call).IsWrite → (state.point call).Looks →
        ∀ other, other ≠ call → ¬(state.point other).Changing) ∧
      ∀ next, state.step stale request fPos call = some next →
        (next.kernel.dev.partialEntry ≠ state.kernel.dev.partialEntry →
          ∀ other, other ≠ call → ¬(state.point other).InFront) ∧
        Undisturbed next later

end Undisturbed

/-! ### The invariant -/

/-- The staging buffer has room for the partial line and for the user's bytes. -/
def CallPoint.Sized (entry : AesdBufferEntry Kbuf) (user : Bytes) : CallPoint → Prop
  | .sized buffer => buffer.bytes.length = entry.size + user.length
  | .carried buffer => buffer.bytes.length = entry.size + user.length
  | _ => True

def Intact (kernel : Kernel) : Prop :=
  ∀ stored, kernel.dev.partialEntry.buffptr = some stored →
    stored.id ∈ kernel.slab.live ∧ kernel.dev.partialEntry.size ≤ stored.bytes.length

/-- What is left to do to `partial`. -/
def CallPoint.Repairs (kernel : Kernel) : CallPoint → Prop
  | .nulled _ => kernel.dev.partialEntry.buffptr = none
  | .keeping _ working =>
      ∃ copy, kernel.dev.partialEntry.buffptr = some copy ∧ copy.id ∈ kernel.slab.live ∧
        copy.bytes = working
  | _ => True

structure Calm (request : Nat → Op) (state : Calls) : Prop where
  sized : ∀ call file user faults, request call = .write file user faults →
    (state.point call).Sized state.kernel.dev.partialEntry user
  intact : (∀ call, ¬(state.point call).Changing) → Intact state.kernel
  repairs : ∀ call, (state.point call).Repairs state.kernel
  alone : ∀ call other, (state.point call).Changing → (state.point other).Changing →
    call = other

theorem CallPoint.Sized.of_not_inFront {entry : AesdBufferEntry Kbuf} {user : Bytes}
    {point : CallPoint} (elsewhere : ¬point.InFront) : point.Sized entry user := by
  cases point with
  | sized buffer => exact absurd trivial elsewhere
  | carried buffer => exact absurd trivial elsewhere
  | _ => trivial

section Moves

variable {request : Nat → Op} {state : Calls} {call : Nat} {move : Move}

/-- A move keeps the calm when it does so for the call that moves, and what is
behind `partial` stays live unless that call is about to clear it. -/
theorem Calm.after_move (calm : Calm request state)
    (unchanged : move.kernel.dev.partialEntry ≠ state.kernel.dev.partialEntry →
      ∀ other, other ≠ call → ¬(state.point other).InFront ∧ ¬(state.point other).Changing)
    (live : ∀ stored, state.kernel.dev.partialEntry.buffptr = some stored →
      stored.id ∈ state.kernel.slab.live →
        stored.id ∈ move.kernel.slab.live ∨
          ∀ other, other ≠ call → ¬(state.point other).Changing)
    (sized : ∀ file user faults, request call = .write file user faults →
      move.point.Sized move.kernel.dev.partialEntry user)
    (repairs : move.point.Repairs move.kernel)
    (intact : (∀ other, other ≠ call → ¬(state.point other).Changing) →
      ¬move.point.Changing → Intact move.kernel)
    (changing : move.point.Changing → (state.point call).Changing ∨
      ∀ other, other ≠ call → ¬(state.point other).Changing) :
    Calm request (state.apply call move) := by
  constructor
  · apply Calls.apply_points
      (P := fun other point => ∀ file user faults, request other = .write file user faults →
        point.Sized move.kernel.dev.partialEntry user)
    · exact sized
    · intro other different file user faults asked
      by_cases same : move.kernel.dev.partialEntry = state.kernel.dev.partialEntry
      · rw [same]
        exact calm.sized other file user faults asked
      · exact .of_not_inFront (unchanged same other different).1
  · intro settled
    apply intact
    · intro other different
      have still := settled other
      rw [Calls.apply_point_of_ne _ _ different] at still
      exact still
    · have still := settled call
      rw [Calls.apply_point_self] at still
      exact still
  · apply Calls.apply_points (P := fun _other point => point.Repairs move.kernel)
    · exact repairs
    · intro other different
      have before := calm.repairs other
      cases point : state.point other with
      | nulled buffer =>
          rw [point] at before
          have same : move.kernel.dev.partialEntry = state.kernel.dev.partialEntry := by
            apply Classical.byContradiction
            intro changed
            have away := (unchanged changed other different).1
            rw [point] at away
            exact away trivial
          change move.kernel.dev.partialEntry.buffptr = none
          rw [same]
          exact before
      | keeping buffer working =>
          rw [point] at before
          obtain ⟨copy, present, alive, bytes⟩ := before
          have same : move.kernel.dev.partialEntry = state.kernel.dev.partialEntry := by
            apply Classical.byContradiction
            intro changed
            have away := (unchanged changed other different).2
            rw [point] at away
            exact away trivial
          refine ⟨copy, ?_, ?_, bytes⟩
          · rw [same]
            exact present
          · rcases live copy present alive with still | none
            · exact still
            · have away := none other different
              rw [point] at away
              exact absurd trivial away
      | _ => trivial
  · intro first second
    by_cases firstMoved : first = call
    · by_cases secondMoved : second = call
      · intro _first _second
        rw [firstMoved, secondMoved]
      · rw [firstMoved, Calls.apply_point_self, Calls.apply_point_of_ne _ _ secondMoved]
        intro moved still
        rcases changing moved with before | none
        · exact calm.alone call second before still
        · exact absurd still (none second secondMoved)
    · rw [Calls.apply_point_of_ne _ _ firstMoved]
      by_cases secondMoved : second = call
      · rw [secondMoved, Calls.apply_point_self]
        intro still moved
        rcases changing moved with before | none
        · exact calm.alone first call still before
        · exact absurd still (none first firstMoved)
      · rw [Calls.apply_point_of_ne _ _ secondMoved]
        exact calm.alone first second

theorem Calm.after_same (calm : Calm request state)
    (entry : move.kernel.dev.partialEntry = state.kernel.dev.partialEntry)
    (live : ∀ stored, state.kernel.dev.partialEntry.buffptr = some stored →
      stored.id ∈ state.kernel.slab.live → stored.id ∈ move.kernel.slab.live)
    (sized : ∀ file user faults, request call = .write file user faults →
      move.point.Sized move.kernel.dev.partialEntry user)
    (before : ¬(state.point call).Changing) (after : ¬move.point.Changing) :
    Calm request (state.apply call move) := by
  apply calm.after_move
  · intro changed
    exact absurd entry changed
  · exact fun stored present alive => Or.inl (live stored present alive)
  · exact sized
  · cases point : move.point with
    | nulled buffer =>
        rw [point] at after
        exact absurd trivial after
    | keeping buffer working =>
        rw [point] at after
        exact absurd trivial after
    | _ => trivial
  · intro settled _after stored present
    rw [entry] at present
    have all : ∀ other, ¬(state.point other).Changing := by
      intro other
      by_cases same : other = call
      · rw [same]
        exact before
      · exact settled other same
    obtain ⟨alive, long⟩ := calm.intact all stored present
    rw [entry]
    exact ⟨live stored present alive, long⟩
  · intro changes
    exact absurd changes after

/-! ### Frees that leave `partial` alone -/

theorem mem_kfreeConst {slab : Slab} {id freed : Nat} (alive : id ∈ slab.live)
    (different : id ≠ freed) : id ∈ (slab.kfreeConst freed).live := by
  unfold Slab.kfreeConst
  split
  · exact (List.mem_erase_of_ne different).mpr alive
  · exact alive

theorem Ledger.kept_refers {stored : Kbuf}
    (present : state.kernel.dev.partialEntry.buffptr = some stored) :
    Refers state.kernel.dev state.point stored.id .kept := by
  change stored.id ∈ partialOwned _
  rw [partialOwned, present]
  exact List.mem_singleton.mpr rfl

theorem Ledger.kept_not_staging (ledger : Ledger state) {stored staging : Kbuf}
    (present : state.kernel.dev.partialEntry.buffptr = some stored)
    (buffer : (state.point call).buffer = some staging) : stored.id ≠ staging.id := by
  intro same
  cases ledger.guarded.sheltered.apart stored.id .kept (.staging call)
    (Ledger.kept_refers present) ⟨staging, buffer, same.symm⟩

theorem Ledger.kept_added (ledger : Ledger state)
    (wf : state.kernel.dev.circularBuffer.WellFormed) (bytes : Bytes) (size : Nat) {stored : Kbuf}
    (present : state.kernel.dev.partialEntry.buffptr = some stored)
    (alive : stored.id ∈ state.kernel.slab.live) :
    stored.id ∈ (state.kernel.addLine bytes size).slab.live := by
  have exchange := ringOwned_addEntry wf { id := state.kernel.slab.next + 1, bytes := bytes } size
  have refers := Ledger.kept_refers present
  have allocated : stored.id ∈ ((state.kernel.slab.kmalloc false).1.kmalloc false).1.live :=
    List.mem_cons_of_mem _ (List.mem_cons_of_mem _ alive)
  unfold Kernel.addLine
  dsimp only
  cases garbage : (state.kernel.dev.circularBuffer.addEntry
      { buffptr := some { id := state.kernel.slab.next + 1, bytes := bytes }
        size := size }).2 with
  | none => exact allocated
  | some freed =>
      apply mem_kfreeConst allocated
      intro same
      have member : freed.id ∈ ringOwned state.kernel.dev.circularBuffer ++
          [state.kernel.slab.next + 1] := by
        rw [exchange, garbage]
        exact List.mem_cons_self
      rcases List.mem_append.mp member with inRing | new
      · rw [← same] at inRing
        cases ledger.guarded.sheltered.apart stored.id .kept .ring refers inRing
      · have bound := ledger.guarded.sheltered.handed _ _ refers
        rw [same, List.mem_singleton.mp new] at bound
        omega

theorem length_overwrite {memory bytes : Bytes} {offset : Nat}
    (fits : offset + bytes.length ≤ memory.length) :
    (overwrite memory offset bytes).length = memory.length := by
  unfold overwrite
  rw [List.length_append, List.length_append, List.length_take, List.length_drop]
  omega

/-! ### Steps -/

section Steps

variable {stale : Nat → Nat → UInt8} {fPos : Int} {file : Nat} {user : Bytes}
  {faults : WriteFaults} {start : List Bytes}

/-- While `partial` is looked at, nobody is changing it. -/
private theorem Calm.intact_now (calm : Calm request state) {before : CallPoint}
    (point : state.point call = before)
    (unseen : ∀ other, other ≠ call → ¬(state.point other).Changing)
    (still : ¬before.Changing) : Intact state.kernel := by
  apply calm.intact
  intro other
  by_cases same : other = call
  · rw [same, point]
    exact still
  · exact unseen other same

/-- No statement of an undisturbed call makes a forbidden access. -/
theorem Calm.moves (calm : Calm request state) (stale : Nat → Nat → UInt8) (fPos : Int)
    (asked : request call = .write file user faults)
    (unseen : (state.point call).Looks → ∀ other, other ≠ call → ¬(state.point other).Changing) :
    ∃ move, writeMove stale faults user fPos state.kernel (state.point call) = some move := by
  have sized := calm.sized call file user faults asked
  cases point : state.point call with
  | sized buffer =>
      rw [point] at sized unseen
      have intact := calm.intact_now point (unseen trivial) id
      change ∃ move, carryPartial buffer state.kernel = some move
      unfold carryPartial
      dsimp only
      split
      · exact ⟨_, rfl⟩
      · rename_i stored present
        obtain ⟨alive, long⟩ := intact stored present
        have fits : state.kernel.dev.partialEntry.size ≤ buffer.bytes.length := by
          change buffer.bytes.length = _ at sized
          omega
        rw [if_pos ⟨alive, long, fits⟩]
        exact ⟨_, rfl⟩
  | carried buffer =>
      rw [point] at sized
      change ∃ move, fillStaging faults user fPos buffer state.kernel = some move
      unfold fillStaging
      dsimp only
      have fits : state.kernel.dev.partialEntry.size + user.length ≤ buffer.bytes.length :=
        Nat.le_of_eq sized.symm
      rw [if_pos fits]
      split
      · exact ⟨_, rfl⟩
      · exact ⟨_, rfl⟩
  | filled buffer =>
      rw [point] at unseen
      have intact := calm.intact_now point (unseen trivial) id
      change ∃ move, freePartial buffer state.kernel = some move
      unfold freePartial
      split
      · exact ⟨_, rfl⟩
      · rename_i stored present
        rw [if_pos (intact stored present).1]
        exact ⟨_, rfl⟩
  | _ => exact ⟨_, rfl⟩

private theorem sized_of_asked {point : CallPoint} {entry : AesdBufferEntry Kbuf}
    (asked : request call = .write file user faults) (sized : point.Sized entry user) :
    ∀ file user faults, request call = .write file user faults → point.Sized entry user := by
  intro otherFile otherUser otherFaults again
  rw [asked, Op.write.injEq] at again
  rw [← again.2.1]
  exact sized

private theorem Calm.after_nothing (calm : Calm request state)
    (asked : request call = .write file user faults) {before after : CallPoint}
    (point : state.point call = before) {kernel : Kernel}
    (entry : kernel.dev.partialEntry = state.kernel.dev.partialEntry)
    (slab : kernel.slab = state.kernel.slab)
    (sized : after.Sized state.kernel.dev.partialEntry user)
    (settled : ¬before.Changing) (stays : ¬after.Changing) :
    Calm request (state.apply call { kernel := kernel, point := after }) := by
  subst point
  apply calm.after_same entry
  · intro stored _present alive
    rw [slab]
    exact alive
  · rw [entry]
    exact sized_of_asked asked sized
  · exact settled
  · exact stays

private theorem Calm.loop (calm : Calm request state) (ledger : Ledger state)
    (ordered : Ordered request start state) (asked : request call = .write file user faults)
    {buffer : Kbuf} {index : Nat} {working : Bytes}
    (point : state.point call = .looping buffer index working)
    (moves : LoopMove faults user fPos buffer index working state.kernel move)
    (unchanged : move.kernel.dev.partialEntry ≠ state.kernel.dev.partialEntry →
      ∀ other, other ≠ call → ¬(state.point other).InFront) :
    Calm request (state.apply call move) := by
  have before : ¬(state.point call).Changing := by
    rw [point]
    exact id
  have settled (changed : move.kernel.dev.partialEntry ≠ state.kernel.dev.partialEntry) :
      ∀ other, other ≠ call → ¬(state.point other).InFront ∧ ¬(state.point other).Changing := by
    intro other different
    have away := unchanged changed other different
    refine ⟨away, ?_⟩
    intro changes
    cases theirs : state.point other with
    | keeping held kept =>
        apply different
        apply ordered.holder other call
        · rw [theirs]
          trivial
        · rw [point]
          trivial
    | freed held =>
        rw [theirs] at away
        exact away trivial
    | nulled held =>
        rw [theirs] at away
        exact away trivial
    | _ =>
        rw [theirs] at changes
        exact changes
  cases moves with
  | added newLine found copied =>
      apply calm.after_same
      · rfl
      · exact fun stored present alive => ledger.kept_added ordered.ring.wellFormed _ _ present alive
      · exact fun _file _user _faults _asked => trivial
      · exact before
      · exact id
  | oopsed newLine found descriptor =>
      apply calm.after_same
      · rfl
      · exact fun stored _present alive => Slab.live_kmalloc _ _ alive
      · exact fun _file _user _faults _asked => trivial
      · exact before
      · exact id
  | failed newLine found copy =>
      apply calm.after_same
      · rfl
      · exact fun stored _present alive => List.mem_cons_of_mem _ alive
      · exact fun _file _user _faults _asked => trivial
      · exact before
      · exact id
  | lost absent =>
      apply calm.after_move settled
      · exact fun stored _present alive => Or.inl alive
      · exact fun _file _user _faults _asked => trivial
      · trivial
      · intro _settled _after stored impossible
        cases impossible
      · intro impossible
        cases impossible
  | kept absent =>
      have changed : ({ state.kernel.dev.partialEntry with
          buffptr := some { id := state.kernel.slab.next, bytes := working } } :
            AesdBufferEntry Kbuf) ≠ state.kernel.dev.partialEntry := by
        intro same
        have present := congrArg AesdBufferEntry.buffptr same
        have bound := ledger.guarded.sheltered.handed _ _ (Ledger.kept_refers present.symm)
        exact absurd bound (Nat.lt_irrefl _)
      apply calm.after_move settled
      · exact fun stored _present alive => Or.inl (List.mem_cons_of_mem _ alive)
      · exact fun _file _user _faults _asked => trivial
      · exact ⟨_, rfl, List.mem_cons_self, rfl⟩
      · intro _settled after
        exact absurd trivial after
      · intro _changing
        exact Or.inr fun other different => (settled changed other different).2
  | ended empty => exact calm.after_nothing asked point rfl rfl trivial id id

private theorem Calm.entered (calm : Calm request state)
    (asked : request call = .write file user faults) (point : state.point call = .entered)
    (moves : writeMove stale faults user fPos state.kernel .entered = some move) :
    Calm request (state.apply call move) := by
  cases moves
  rcases sizeStaging_cases stale faults user fPos state.kernel with failed | staged
  · rw [failed]
    exact calm.after_nothing asked point rfl rfl trivial id id
  · rw [staged]
    apply calm.after_same
    · rfl
    · exact fun stored _present alive => List.mem_cons_of_mem _ alive
    · apply sized_of_asked asked
      change (List.map _ (List.range _)).length = _
      rw [List.length_map, List.length_range]
      rfl
    · rw [point]
      exact id
    · exact id

private theorem Calm.sized_step (calm : Calm request state)
    (asked : request call = .write file user faults) {buffer : Kbuf}
    (point : state.point call = .sized buffer)
    (moves : writeMove stale faults user fPos state.kernel (.sized buffer) = some move) :
    Calm request (state.apply call move) := by
  have sized := calm.sized call file user faults asked
  rw [point] at sized
  rcases carryPartial_cases moves with ⟨_absent, rfl⟩ | ⟨stored, _present, _live, long, fits, rfl⟩
  · exact calm.after_nothing asked point rfl rfl sized id id
  · apply calm.after_nothing asked point rfl rfl _ id id
    change (overwrite _ _ _).length = _
    rw [length_overwrite]
    · exact sized
    · rw [List.length_take]
      omega

private theorem Calm.filled (calm : Calm request state) {buffer : Kbuf}
    (asked : request call = .write file user faults) (point : state.point call = .filled buffer)
    (moves : writeMove stale faults user fPos state.kernel (.filled buffer) = some move)
    (unseen : ∀ other, other ≠ call → ¬(state.point other).Changing) :
    Calm request (state.apply call move) := by
  rcases freePartial_cases moves with ⟨_absent, rfl⟩ | ⟨stored, _present, _live, rfl⟩
  · exact calm.after_nothing asked point rfl rfl trivial id id
  · apply calm.after_move
    · intro changed
      exact absurd rfl changed
    · exact fun _stored _present _alive => Or.inr unseen
    · exact fun _file _user _faults _asked => trivial
    · trivial
    · intro _settled after
      exact absurd trivial after
    · exact fun _changing => Or.inr unseen

private theorem Calm.assigns (calm : Calm request state)
    (changing : (state.point call).Changing) (slab : move.kernel.slab = state.kernel.slab)
    (unchanged : move.kernel.dev.partialEntry ≠ state.kernel.dev.partialEntry →
      ∀ other, other ≠ call → ¬(state.point other).InFront)
    (sized : move.point.Sized move.kernel.dev.partialEntry user)
    (asked : request call = .write file user faults)
    (repairs : move.point.Repairs move.kernel)
    (intact : ¬move.point.Changing → Intact move.kernel) :
    Calm request (state.apply call move) := by
  apply calm.after_move
  · intro changed other different
    refine ⟨unchanged changed other different, ?_⟩
    exact fun theirs => different (calm.alone other call theirs changing)
  · intro stored _present alive
    left
    rw [slab]
    exact alive
  · exact sized_of_asked asked sized
  · exact repairs
  · exact fun _settled => intact
  · exact fun _changing => Or.inl changing

private theorem Calm.nulled (calm : Calm request state) {buffer : Kbuf}
    (asked : request call = .write file user faults) (point : state.point call = .nulled buffer)
    (moves : writeMove stale faults user fPos state.kernel (.nulled buffer) = some move)
    (unchanged : move.kernel.dev.partialEntry ≠ state.kernel.dev.partialEntry →
      ∀ other, other ≠ call → ¬(state.point other).InFront) :
    Calm request (state.apply call move) := by
  cases moves
  have absent := calm.repairs call
  rw [point] at absent
  apply calm.assigns (by rw [point]; trivial) rfl unchanged trivial asked trivial
  intro _after stored present
  change state.kernel.dev.partialEntry.buffptr = some stored at present
  rw [absent] at present
  cases present

private theorem Calm.keeping (calm : Calm request state) {buffer : Kbuf} {working : Bytes}
    (asked : request call = .write file user faults)
    (point : state.point call = .keeping buffer working)
    (moves : writeMove stale faults user fPos state.kernel (.keeping buffer working) = some move)
    (unchanged : move.kernel.dev.partialEntry ≠ state.kernel.dev.partialEntry →
      ∀ other, other ≠ call → ¬(state.point other).InFront) :
    Calm request (state.apply call move) := by
  cases moves
  have repairs := calm.repairs call
  rw [point] at repairs
  obtain ⟨copy, present, alive, bytes⟩ := repairs
  apply calm.assigns (by rw [point]; trivial) rfl unchanged trivial asked trivial
  intro _after stored same
  change state.kernel.dev.partialEntry.buffptr = some stored at same
  rw [present, Option.some.injEq] at same
  subst same
  refine ⟨alive, ?_⟩
  rw [bytes]
  exact Nat.le_refl _

private theorem Calm.staged (calm : Calm request state) {buffer : Kbuf}
    (asked : request call = .write file user faults) (point : state.point call = .staged buffer)
    (moves : writeMove stale faults user fPos state.kernel (.staged buffer) = some move) :
    Calm request (state.apply call move) := by
  cases moves
  rcases lockSection_cases faults fPos buffer state.kernel with
    interrupted | blocked | ⟨_free, acquired⟩
  · rw [interrupted]
    exact calm.after_nothing asked point rfl rfl trivial id id
  · rw [blocked]
    exact calm.after_nothing asked point rfl rfl trivial id id
  · rw [acquired]
    exact calm.after_nothing asked point rfl rfl trivial id id

private theorem Calm.leaving (calm : Calm request state) (ledger : Ledger state) {buffer : Kbuf}
    {position : Int} {retval : Int} (point : state.point call = .leaving buffer position retval)
    (moves : writeMove stale faults user fPos state.kernel (.leaving buffer position retval) =
      some move) : Calm request (state.apply call move) := by
  cases moves
  apply calm.after_same
  · rfl
  · intro stored present alive
    apply mem_kfreeConst alive
    apply ledger.kept_not_staging present
    rw [point]
    rfl
  · exact fun _file _user _faults _asked => trivial
  · rw [point]
    exact id
  · exact id

theorem Calm.write_step (calm : Calm request state) (ledger : Ledger state)
    (ordered : Ordered request start state) (asked : request call = .write file user faults)
    (moves : writeMove stale faults user fPos state.kernel (state.point call) = some move)
    (unseen : (state.point call).Looks → ∀ other, other ≠ call → ¬(state.point other).Changing)
    (unchanged : move.kernel.dev.partialEntry ≠ state.kernel.dev.partialEntry →
      ∀ other, other ≠ call → ¬(state.point other).InFront) :
    Calm request (state.apply call move) := by
  cases point : state.point call with
  | entered =>
      rw [point] at moves
      exact calm.entered asked point moves
  | sized buffer =>
      rw [point] at moves
      exact calm.sized_step asked point moves
  | carried buffer =>
      rw [point] at moves
      rcases fillStaging_cases moves with rfl | ⟨_fits, rfl⟩
      · exact calm.after_nothing asked point rfl rfl trivial id id
      · exact calm.after_nothing asked point rfl rfl trivial id id
  | filled buffer =>
      rw [point] at moves unseen
      exact calm.filled asked point moves (unseen trivial)
  | freed buffer =>
      rw [point] at moves
      cases moves
      exact calm.assigns (by rw [point]; trivial) rfl unchanged trivial asked rfl
        fun after => absurd trivial after
  | nulled buffer =>
      rw [point] at moves
      exact calm.nulled asked point moves unchanged
  | staged buffer =>
      rw [point] at moves
      exact calm.staged asked point moves
  | looping buffer index working =>
      rw [point] at moves
      cases moves
      exact calm.loop ledger ordered asked point
        (loopRound_cases faults user fPos buffer index working _) unchanged
  | keeping buffer working =>
      rw [point] at moves
      exact calm.keeping asked point moves unchanged
  | leaving buffer position retval =>
      rw [point] at moves
      exact calm.leaving ledger point moves
  | releasing | oopsed | done =>
      rw [point] at moves
      cases moves
      exact calm.after_nothing asked point rfl rfl trivial id id

end Steps

end Moves

/-! ### Runs -/

section Runs

variable {stale : Nat → Nat → UInt8} {request : Nat → Op} {fPos : Nat → Int} {start : List Bytes}
  {state : Calls}

theorem Calm.other_step {call : Nat} (calm : Calm request state)
    (ordered : Ordered request start state) (other : ¬(request call).IsWrite) :
    Calm request (state.apply call
      (sectionMove (request call) (fPos call) state.kernel (state.point call))) := by
  have notAsked {point : CallPoint} {entry : AesdBufferEntry Kbuf} : ∀ file user faults,
      request call = .write file user faults → point.Sized entry user := by
    intro file user faults asked
    rw [asked] at other
    exact absurd trivial other
  rcases ordered.others call other with point | ⟨position, reply, point⟩
  · have settled : ¬(state.point call).Changing := by
      rw [point]
      exact id
    rcases ordered.sectionMove_cases fPos other point with waits | answers
    · rw [waits]
      exact calm.after_same rfl (fun _stored _present alive => alive) notAsked settled id
    · rw [answers]
      exact calm.after_same rfl (fun _stored _present alive => alive) notAsked settled id
  · have settled : ¬(state.point call).Changing := by
      rw [point]
      exact id
    rw [point]
    exact calm.after_same rfl (fun _stored _present alive => alive) notAsked settled id

theorem Calm.run (calm : Calm request state) (ledger : Ledger state)
    (ordered : Ordered request start state) (schedule : List Nat)
    (undisturbed : Undisturbed stale request fPos state schedule) :
    ∃ final, state.run stale request fPos schedule = some final := by
  induction schedule generalizing state with
  | nil => exact ⟨state, rfl⟩
  | cons call later ih =>
      obtain ⟨unseen, follows⟩ := undisturbed
      have continued (next : Calls) (steps : state.step stale request fPos call = some next)
          (after : Calm request next) :
          ∃ final, state.run stale request fPos (call :: later) = some final := by
        obtain ⟨final, ran⟩ := ih after (ledger.step ordered steps) (ordered.step steps)
          (follows next steps).2
        refine ⟨final, ?_⟩
        rw [Calls.run, steps, Option.bind_some]
        exact ran
      by_cases write : (request call).IsWrite
      · obtain ⟨file, user, faults, asked⟩ := write.request
        obtain ⟨move, moves⟩ := calm.moves stale (fPos call) asked (unseen write)
        have steps : state.step stale request fPos call = some (state.apply call move) := by
          rw [Calls.step, asked]
          exact Option.map_eq_some_iff.mpr ⟨move, moves, rfl⟩
        apply continued _ steps
        exact calm.write_step ledger ordered asked moves (unseen write) (follows _ steps).1
      · exact continued _ (Calls.step_other write) (calm.other_step ordered write)

theorem Calm.initial {kernel : Kernel} {held stored : List Nat} (inv : DevInv kernel.dev)
    (accounts : Accounts kernel.slab kernel.dev.owned held stored) :
    Calm request (Calls.start kernel) := by
  constructor
  · exact fun _call _file _user _faults _asked => trivial
  · intro _settled buffer present
    change kernel.dev.partialEntry.buffptr = some buffer at present
    constructor
    · apply accounts.balanced.mem_live.mpr
      apply List.mem_append_left held
      apply List.mem_append_right
      rw [partialOwned, present]
      exact List.mem_singleton.mpr rfl
    · rcases inv.partialStored with zero | ⟨stored, same, size, _nonempty, _absent⟩
      · rw [zero] at present
        cases present
      · rw [same, Option.some.injEq] at present
        rw [← present]
        exact Nat.le_of_eq size.symm
  · exact fun _call => trivial
  · intro call other impossible
    cases impossible

end Runs

/-- Whatever the calls are and whatever fails in them: in a schedule in which no
call changes `partial` while another one is in front of the lock, and none looks
at it while it is being changed, no forbidden access is made. -/
theorem undisturbed_calls_safe (stale : Nat → Nat → UInt8) (request : Nat → Op)
    (fPos : Nat → Int) (kernel : Kernel) (reachable : Reachable kernel) (schedule : List Nat)
    (undisturbed : Undisturbed stale request fPos (Calls.start kernel) schedule) :
    ∃ final, (Calls.start kernel).run stale request fPos schedule = some final ∧
      ∀ call buffer, final.point call = .oopsed buffer → ¬(request call).DescriptorsAllocated := by
  obtain ⟨held, stored, accounts⟩ := reachable.accounts
  have ordered := Ordered.initial request reachable.inv
  obtain ⟨final, ran⟩ := (Calm.initial reachable.inv accounts).run reachable.ledger ordered schedule
    undisturbed
  exact ⟨final, ran, (OopsExplained.initial request kernel).run ordered ran⟩

theorem Undisturbed.cons {stale : Nat → Nat → UInt8} {request : Nat → Op} {fPos : Nat → Int}
    {state next : Calls} {call : Nat} {later : List Nat}
    (steps : state.step stale request fPos call = some next)
    (settled : ∀ other, ¬(state.point other).Changing)
    (same : next.kernel.dev.partialEntry = state.kernel.dev.partialEntry)
    (after : Undisturbed stale request fPos next later) :
    Undisturbed stale request fPos state (call :: later) := by
  refine ⟨fun _write _looks other _different => settled other, ?_⟩
  intro reached again
  rw [steps, Option.some.injEq] at again
  subst again
  exact ⟨fun changed => absurd same changed, after⟩

theorem undisturbed_calls_safe_overlapping :
    Reachable OpenDevice.init.kernel ∧
      Undisturbed (fun _ _ => 0) twoPiecesAndRead (fun _ => 0)
        (Calls.start OpenDevice.init.kernel) [0, 1, 0] ∧
      ∃ final, (Calls.start OpenDevice.init.kernel).run (fun _ _ => 0) twoPiecesAndRead
          (fun _ => 0) [0, 1, 0] = some final ∧
        ∀ call buffer, final.point call = .oopsed buffer →
          ¬(twoPiecesAndRead call).DescriptorsAllocated := by
  have reachable : Reachable OpenDevice.init.kernel :=
    ⟨[], fun _op member => absurd member List.not_mem_nil, rfl⟩
  have undisturbed : Undisturbed (fun _ _ => 0) twoPiecesAndRead (fun _ => 0)
      (Calls.start OpenDevice.init.kernel) [0, 1, 0] := by
    apply Undisturbed.cons
    · rfl
    · exact fun _other => id
    · rfl
    apply Undisturbed.cons
    · rfl
    · rintro (_ | other) <;> exact id
    · rfl
    apply Undisturbed.cons
    · rfl
    · rintro (_ | _ | other) <;> exact id
    · rfl
    · trivial
  exact ⟨reachable, undisturbed, undisturbed_calls_safe _ _ _ _ reachable _ undisturbed⟩

/-- Two pieces written while a piece is stored: both calls free it. -/
example :
    (Calls.start (OpenDevice.init.run [.write 0 [97] WriteFaults.none]).kernel).run
      (fun _ _ => 0) twoPiecesAndRead (fun _ => 0) [0, 1, 0, 1, 0, 1, 0, 1] = none := rfl

end Aesd.Driver
