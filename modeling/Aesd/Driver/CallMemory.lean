/-
The memory of overlapping calls.

However the calls are interleaved, up to a forbidden access to the partial line:
nothing is freed that is not live, and the buffers of the ring and the staging
buffers of the calls are live and distinct. Only the buffer behind `partial` can
be freed while it is referred to, so the statements that can make a forbidden access
are the three that follow it in front of the lock, and the store through a
descriptor that could not be allocated.
-/

import Aesd.Lib.Referrers
import Aesd.Driver.Ownership
import Aesd.Driver.SectionOrder

namespace Aesd.Driver

open CircularBuffer LineStream AesdCircularBuffer

/-! ### References -/

inductive BufferHolder where
  | ring
  | staging (call : Nat)
  | kept
  deriving DecidableEq, Repr

/-- The staging buffer that a call has to free. -/
def CallPoint.buffer : CallPoint → Option Kbuf
  | .entered => none
  | .sized buffer => some buffer
  | .carried buffer => some buffer
  | .filled buffer => some buffer
  | .freed buffer => some buffer
  | .nulled buffer => some buffer
  | .staged buffer => some buffer
  | .looping buffer _ _ => some buffer
  | .keeping buffer _ => some buffer
  | .releasing buffer _ _ => some buffer
  | .leaving buffer _ _ => some buffer
  | .oopsed buffer => some buffer
  | .done _ _ => none

def Refers (dev : AesdDev) (point : Nat → CallPoint) (id : Nat) : BufferHolder → Prop
  | .ring => id ∈ ringOwned dev.circularBuffer
  | .staging call => ∃ buffer, (point call).buffer = some buffer ∧ buffer.id = id
  | .kept => id ∈ partialOwned dev.partialEntry

/-- Nothing wild was freed, and what is referred to is live, with the exception of
the buffer behind `partial`. -/
structure Guarded (slab : Slab) (Referrer : Nat → BufferHolder → Prop) : Prop where
  tame : slab.wild = []
  sheltered : Sheltered slab.next slab.live slab.freed (· ≠ BufferHolder.kept) Referrer

namespace Guarded

variable {slab : Slab} {Referrer Others : Nat → BufferHolder → Prop} {id : Nat}

theorem of_imp (guarded : Guarded slab Referrer)
    (fewer : ∀ id holder, Others id holder → Referrer id holder) : Guarded slab Others :=
  { tame := guarded.tame
    sheltered := guarded.sheltered.of_imp fewer }

theorem kmalloc (guarded : Guarded slab Referrer) (owner : BufferHolder)
    (given : ∀ id holder, Others id holder →
      Referrer id holder ∨ id = slab.next ∧ holder = owner) :
    Guarded (slab.kmalloc false).1 Others :=
  { tame := guarded.tame
    sheltered := guarded.sheltered.alloc owner given }

theorem kmalloc_lost (guarded : Guarded slab Referrer) (fails : Bool) :
    Guarded (slab.kmalloc fails).1 Referrer := by
  cases fails with
  | true => exact guarded
  | false => exact guarded.kmalloc .kept fun _id _holder refers => Or.inl refers

theorem kfree (guarded : Guarded slab Referrer) (alive : id ∈ slab.live)
    (unused : ∀ holder, Others id holder → holder = .kept)
    (fewer : ∀ id holder, Others id holder → Referrer id holder) :
    Guarded (slab.kfreeConst id) Others := by
  rw [Slab.kfreeConst, if_pos alive]
  constructor
  · exact guarded.tame
  · apply guarded.sheltered.free alive _ fewer
    intro holder refers trusted
    exact trusted (unused holder refers)

end Guarded

theorem refers_update (dev : AesdDev) {after : AesdDev} {point : Nat → CallPoint} {call id : Nat}
    {next : CallPoint} {holder : BufferHolder}
    (refers : Refers after (Function.update point call next) id holder) :
    (holder = .ring ∧ id ∈ ringOwned after.circularBuffer) ∨
      (holder = .kept ∧ id ∈ partialOwned after.partialEntry) ∨
      (holder = .staging call ∧ ∃ buffer, next.buffer = some buffer ∧ buffer.id = id) ∨
      ∃ other, other ≠ call ∧ holder = .staging other ∧ Refers dev point id holder := by
  cases holder with
  | ring => exact Or.inl ⟨rfl, refers⟩
  | kept => exact Or.inr (Or.inl ⟨rfl, refers⟩)
  | staging other =>
      obtain ⟨buffer, present, same⟩ := refers
      right
      right
      by_cases moved : other = call
      · subst moved
        rw [Function.update_self] at present
        exact Or.inl ⟨rfl, buffer, present, same⟩
      · rw [Function.update_of_ne moved] at present
        exact Or.inr ⟨other, moved, rfl, buffer, present, same⟩

structure Ledger (state : Calls) : Prop where
  guarded : Guarded state.kernel.slab (Refers state.kernel.dev state.point)
  distinct : (ringOwned state.kernel.dev.circularBuffer).Nodup

theorem Ledger.initial {kernel : Kernel} {held stored : List Nat}
    (accounts : Accounts kernel.slab kernel.dev.owned held stored) :
    Ledger (Calls.start kernel) := by
  have nodup : kernel.dev.owned.Nodup := accounts.balanced.nodup_held.of_append_left
  have owned (id : Nat) (holder : BufferHolder)
      (refers : Refers kernel.dev (Calls.start kernel).point id holder) :
      id ∈ kernel.dev.owned := by
    cases holder with
    | ring => exact List.mem_append_left _ refers
    | kept => exact List.mem_append_right _ refers
    | staging call =>
        obtain ⟨buffer, impossible, _same⟩ := refers
        cases impossible
  constructor
  · constructor
    · exact accounts.tame
    · constructor
      · exact accounts.balanced.of_perm accounts.balanced.held.symm
      · intro id holder refers
        exact accounts.balanced.lt_of_held (List.mem_append_left held (owned id holder refers))
      · intro id holder refers _trusted
        exact accounts.balanced.mem_live.mpr (List.mem_append_left held (owned id holder refers))
      · intro id first second left right
        have disjoint := List.disjoint_of_nodup_append nodup
        cases first with
        | staging call =>
            obtain ⟨buffer, impossible, _same⟩ := left
            cases impossible
        | ring =>
            cases second with
            | ring => rfl
            | kept => exact absurd right (disjoint left)
            | staging call =>
                obtain ⟨buffer, impossible, _same⟩ := right
                cases impossible
        | kept =>
            cases second with
            | ring => exact absurd left (disjoint right)
            | kept => rfl
            | staging call =>
                obtain ⟨buffer, impossible, _same⟩ := right
                cases impossible
  · exact nodup.of_append_left

/-! ### Moves -/

section Moves

variable {state : Calls} {call : Nat} {move : Move}

def SameBuffer (before after : CallPoint) : Prop :=
  ∀ buffer, after.buffer = some buffer → ∃ old, before.buffer = some old ∧ old.id = buffer.id

theorem SameBuffer.of_id {point before after : CallPoint} (stands : point = before)
    (same : after.buffer.map Kbuf.id = before.buffer.map Kbuf.id) : SameBuffer point after := by
  subst stands
  intro buffer present
  rw [present, Option.map_some] at same
  exact Option.map_eq_some_iff.mp same.symm

private theorem refers_same {dev after : AesdDev} {next : CallPoint}
    (ring : after.circularBuffer = dev.circularBuffer)
    (kept : ∀ id ∈ partialOwned after.partialEntry, id ∈ partialOwned dev.partialEntry)
    (buffer : SameBuffer (state.point call) next) :
    ∀ id holder, Refers after (Function.update state.point call next) id holder →
      Refers dev state.point id holder := by
  intro id holder refers
  rcases refers_update dev refers with
    ⟨rfl, member⟩ | ⟨rfl, member⟩ | ⟨rfl, held, present, same⟩ | ⟨_other, _different, _holder, old⟩
  · rw [ring] at member
    exact member
  · exact kept id member
  · obtain ⟨old, oldPresent, oldSame⟩ := buffer held present
    exact ⟨old, oldPresent, oldSame.trans same⟩
  · exact old

theorem Ledger.same (ledger : Ledger state) (slab : move.kernel.slab = state.kernel.slab)
    (ring : move.kernel.dev.circularBuffer = state.kernel.dev.circularBuffer)
    (kept : ∀ id ∈ partialOwned move.kernel.dev.partialEntry,
      id ∈ partialOwned state.kernel.dev.partialEntry)
    (buffer : SameBuffer (state.point call) move.point) : Ledger (state.apply call move) := by
  constructor
  · change Guarded move.kernel.slab
      (Refers move.kernel.dev (Function.update state.point call move.point))
    rw [slab]
    exact ledger.guarded.of_imp (refers_same ring kept buffer)
  · rw [Calls.apply_kernel, ring]
    exact ledger.distinct

theorem Ledger.lost (ledger : Ledger state) (fails : Bool) {next : CallPoint}
    (buffer : SameBuffer (state.point call) next) :
    Ledger (state.apply call
      { kernel := state.kernel.setSlab (state.kernel.slab.kmalloc fails).1, point := next }) := by
  constructor
  · exact (ledger.guarded.kmalloc_lost fails).of_imp
      (refers_same rfl (fun _id member => member) buffer)
  · exact ledger.distinct

theorem Ledger.stage (ledger : Ledger state) (bytes : Bytes) :
    Ledger (state.apply call
      { kernel := state.kernel.setSlab (state.kernel.slab.kmalloc false).1
        point := .sized { id := state.kernel.slab.next, bytes := bytes } }) := by
  constructor
  · apply ledger.guarded.kmalloc (.staging call)
    intro id holder refers
    rcases refers_update state.kernel.dev refers with
      ⟨rfl, member⟩ | ⟨rfl, member⟩ | ⟨rfl, held, present, same⟩ | ⟨_other, _different, _holder, old⟩
    · exact Or.inl member
    · exact Or.inl member
    · cases present
      exact Or.inr ⟨same.symm, rfl⟩
    · exact Or.inl old
  · exact ledger.distinct

/-- A copy is kept behind `partial`; what was there is forgotten. -/
theorem Ledger.keep (ledger : Ledger state) (bytes : Bytes) (size : Nat) {next : CallPoint}
    (buffer : SameBuffer (state.point call) next) :
    Ledger (state.apply call
      { kernel := (state.kernel.setSlab (state.kernel.slab.kmalloc false).1).setPartial
          { buffptr := some { id := state.kernel.slab.next, bytes := bytes }, size := size }
        point := next }) := by
  constructor
  · apply ledger.guarded.kmalloc .kept
    intro id holder refers
    rcases refers_update state.kernel.dev refers with
      ⟨rfl, member⟩ | ⟨rfl, member⟩ | ⟨rfl, held, present, same⟩ | ⟨_other, _different, _holder, old⟩
    · exact Or.inl member
    · exact Or.inr ⟨List.mem_singleton.mp member, rfl⟩
    · obtain ⟨old, oldPresent, oldSame⟩ := buffer held present
      exact Or.inl ⟨old, oldPresent, oldSame.trans same⟩
    · exact Or.inl old
  · exact ledger.distinct

/-- The buffer behind `partial` is freed, and still referred to. -/
theorem Ledger.free_kept (ledger : Ledger state) {stored : Kbuf}
    (present : state.kernel.dev.partialEntry.buffptr = some stored)
    (live : stored.id ∈ state.kernel.slab.live) {next : CallPoint}
    (buffer : SameBuffer (state.point call) next) :
    Ledger (state.apply call
      { kernel := state.kernel.setSlab (state.kernel.slab.kfreeConst stored.id)
        point := next }) := by
  have owner : Refers state.kernel.dev state.point stored.id .kept := by
    change stored.id ∈ partialOwned _
    rw [partialOwned, present]
    exact List.mem_singleton.mpr rfl
  have fewer : ∀ id holder,
      Refers state.kernel.dev (Function.update state.point call next) id holder →
        Refers state.kernel.dev state.point id holder :=
    refers_same rfl (fun _id member => member) buffer
  constructor
  · apply ledger.guarded.kfree live _ fewer
    intro holder refers
    exact ledger.guarded.sheltered.apart _ _ _ (fewer _ _ refers) owner
  · exact ledger.distinct

theorem Ledger.free_staging (ledger : Ledger state) {staging : Kbuf}
    (present : (state.point call).buffer = some staging) {next : CallPoint}
    (given : next.buffer = none) :
    Ledger (state.apply call
      { kernel := state.kernel.setSlab (state.kernel.slab.kfreeConst staging.id)
        point := next }) := by
  have owner : Refers state.kernel.dev state.point staging.id (.staging call) :=
    ⟨staging, present, rfl⟩
  have live := ledger.guarded.sheltered.live _ _ owner (by intro same; cases same)
  have nothing : SameBuffer (state.point call) next := by
    intro buffer impossible
    rw [given] at impossible
    cases impossible
  have fewer : ∀ id holder,
      Refers state.kernel.dev (Function.update state.point call next) id holder →
        Refers state.kernel.dev state.point id holder :=
    refers_same rfl (fun _id member => member) nothing
  constructor
  · apply ledger.guarded.kfree live _ fewer
    intro holder refers
    have same := ledger.guarded.sheltered.apart _ _ _ (fewer _ _ refers) owner
    subst same
    obtain ⟨buffer, impossible, _id⟩ := refers
    rw [Function.update_self, given] at impossible
    cases impossible
  · exact ledger.distinct

/-- A round takes the copy into the ring and frees what the ring gives back. -/
theorem Ledger.add (ledger : Ledger state) (wf : state.kernel.dev.circularBuffer.WellFormed)
    (bytes : Bytes) (size : Nat) {next : CallPoint} (line : Option Bytes)
    (buffer : SameBuffer (state.point call) next) :
    Ledger (state.apply call
      { kernel := state.kernel.addLine bytes size, point := next, line := line }) := by
  have exchange := ringOwned_addEntry wf { id := state.kernel.slab.next + 1, bytes := bytes } size
  -- the copy belongs to the ring before the ring gives a buffer back
  let Both : Nat → BufferHolder → Prop := fun id holder =>
    Refers state.kernel.dev state.point id holder ∨
      id = state.kernel.slab.next + 1 ∧ holder = .ring
  have allocated : Guarded ((state.kernel.slab.kmalloc false).1.kmalloc false).1 Both :=
    (ledger.guarded.kmalloc_lost false).kmalloc .ring fun _id _holder refers => refers
  have ringIds : ∀ id ∈ ringOwned state.kernel.dev.circularBuffer ++ [state.kernel.slab.next + 1],
      Both id .ring := by
    intro id member
    rcases List.mem_append.mp member with old | new
    · exact Or.inl old
    · exact Or.inr ⟨List.mem_singleton.mp new, rfl⟩
  have nodup : (ringOwned state.kernel.dev.circularBuffer ++
      [state.kernel.slab.next + 1]).Nodup := by
    apply List.nodup_append_comm.mp
    rw [List.singleton_append, List.nodup_cons]
    constructor
    · intro member
      have bound := ledger.guarded.sheltered.handed _ BufferHolder.ring member
      omega
    · exact ledger.distinct
  rw [exchange] at ringIds nodup
  have fewer : ∀ id holder, Refers (state.kernel.addLine bytes size).dev
      (Function.update state.point call next) id holder → Both id holder := by
    intro id holder refers
    rcases refers_update state.kernel.dev refers with
      ⟨rfl, member⟩ | ⟨rfl, member⟩ | ⟨rfl, held, present, same⟩ | ⟨_other, _different, _holder, old⟩
    · exact ringIds id (List.mem_append_right _ member)
    · exact Or.inl member
    · obtain ⟨old, oldPresent, oldSame⟩ := buffer held present
      exact Or.inl ⟨old, oldPresent, oldSame.trans same⟩
    · exact Or.inl old
  constructor
  · change Guarded (state.kernel.addLine bytes size).slab _
    unfold Kernel.addLine
    dsimp only
    cases garbage : (state.kernel.dev.circularBuffer.addEntry
        { buffptr := some { id := state.kernel.slab.next + 1, bytes := bytes }
          size := size }).2 with
    | none => exact allocated.of_imp fewer
    | some freed =>
        rw [garbage] at ringIds nodup
        have owner : Both freed.id .ring := ringIds freed.id List.mem_cons_self
        have live := allocated.sheltered.live _ _ owner (by intro same; cases same)
        apply allocated.kfree live _ fewer
        intro holder refers
        have same := allocated.sheltered.apart _ _ _ (fewer _ _ refers) owner
        subst same
        exact absurd refers (List.nodup_cons.mp nodup).1
  · exact nodup.of_append_right

/-! ### Steps -/

section Steps

variable {stale : Nat → Nat → UInt8} {request : Nat → Op} {fPos : Nat → Int} {start : List Bytes}
  {next : Calls}

theorem Ledger.write_step {faults : WriteFaults} {user : Bytes} {position : Int}
    (ledger : Ledger state) (ring : RingInv state.kernel.dev.circularBuffer)
    (moves : writeMove stale faults user position state.kernel (state.point call) = some move) :
    Ledger (state.apply call move) := by
  have nothing {entry : AesdBufferEntry Kbuf} {owned : List Nat} (absent : entry.buffptr = none) :
      ∀ id ∈ partialOwned entry, id ∈ owned := by
    intro id member
    rw [partialOwned, absent] at member
    cases member
  cases point : state.point call with
  | entered =>
      rw [point] at moves
      cases moves
      rcases sizeStaging_cases stale faults user position state.kernel with failed | sized
      · rw [failed]
        exact ledger.same rfl rfl (fun _id member => member) (.of_id point rfl)
      · rw [sized]
        exact ledger.stage _
  | sized buffer =>
      rw [point] at moves
      rcases carryPartial_cases moves with
        ⟨_absent, rfl⟩ | ⟨stored, _present, _live, _long, _fits, rfl⟩
      · exact ledger.same rfl rfl (fun _id member => member) (.of_id point rfl)
      · exact ledger.same rfl rfl (fun _id member => member) (.of_id point rfl)
  | carried buffer =>
      rw [point] at moves
      rcases fillStaging_cases moves with rfl | ⟨_fits, rfl⟩
      · exact ledger.same rfl rfl (fun _id member => member) (.of_id point rfl)
      · exact ledger.same rfl rfl (fun _id member => member) (.of_id point rfl)
  | filled buffer =>
      rw [point] at moves
      rcases freePartial_cases moves with ⟨_absent, rfl⟩ | ⟨stored, present, live, rfl⟩
      · exact ledger.same rfl rfl (fun _id member => member) (.of_id point rfl)
      · exact ledger.free_kept present live (.of_id point rfl)
  | freed buffer =>
      rw [point] at moves
      cases moves
      exact ledger.same rfl rfl (nothing rfl) (.of_id point rfl)
  | nulled buffer =>
      rw [point] at moves
      cases moves
      exact ledger.same rfl rfl (fun _id member => member) (.of_id point rfl)
  | staged buffer =>
      rw [point] at moves
      cases moves
      rcases lockSection_cases faults position buffer state.kernel with
        interrupted | blocked | ⟨_free, acquired⟩
      · rw [interrupted]
        exact ledger.same rfl rfl (fun _id member => member) (.of_id point rfl)
      · rw [blocked]
        exact ledger.same rfl rfl (fun _id member => member) (.of_id point rfl)
      · rw [acquired]
        exact ledger.same rfl rfl (fun _id member => member) (.of_id point rfl)
  | looping buffer index working =>
      rw [point] at moves
      cases moves
      generalize result : loopRound faults user position buffer index working state.kernel = move
      have cases_ := loopRound_cases faults user position buffer index working state.kernel
      rw [result] at cases_
      cases cases_ with
      | added newLine found copied => exact ledger.add ring.wellFormed _ _ _ (.of_id point rfl)
      | oopsed newLine found descriptor => exact ledger.lost _ (.of_id point rfl)
      | failed newLine found copy => exact ledger.lost _ (.of_id point rfl)
      | lost absent => exact ledger.same rfl rfl (nothing rfl) (.of_id point rfl)
      | kept absent => exact ledger.keep working _ (.of_id point rfl)
      | ended empty => exact ledger.same rfl rfl (fun _id member => member) (.of_id point rfl)
  | keeping buffer working =>
      rw [point] at moves
      cases moves
      exact ledger.same rfl rfl (fun _id member => member) (.of_id point rfl)
  | releasing buffer position retval =>
      rw [point] at moves
      cases moves
      exact ledger.same rfl rfl (fun _id member => member) (.of_id point rfl)
  | leaving buffer position retval =>
      rw [point] at moves
      cases moves
      apply ledger.free_staging _ rfl
      rw [point]
      rfl
  | oopsed buffer =>
      rw [point] at moves
      cases moves
      exact ledger.same rfl rfl (fun _id member => member) (.of_id point rfl)
  | done position reply =>
      rw [point] at moves
      cases moves
      exact ledger.same rfl rfl (fun _id member => member) (.of_id point rfl)

theorem Ledger.step (ledger : Ledger state) (ordered : Ordered request start state)
    (steps : state.step stale request fPos call = some next) : Ledger next := by
  by_cases write : (request call).IsWrite
  · obtain ⟨_file, _user, _faults, move, _asked, moves, rfl⟩ := Calls.step_write write steps
    exact ledger.write_step ordered.ring moves
  · rw [Calls.step_other write, Option.some.injEq] at steps
    subst steps
    rcases ordered.others call write with point | ⟨position, reply, point⟩
    · rcases ordered.sectionMove_cases fPos write point with waits | answers
      · rw [waits]
        exact ledger.same rfl rfl (fun _id member => member) (.of_id point rfl)
      · rw [answers]
        exact ledger.same rfl rfl (fun _id member => member) (.of_id point rfl)
    · rw [point]
      exact ledger.same rfl rfl (fun _id member => member) (.of_id point rfl)

theorem Ledger.run {schedule : List Nat} {final : Calls} (ledger : Ledger state)
    (ordered : Ordered request start state)
    (ran : state.run stale request fPos schedule = some final) : Ledger final := by
  induction schedule generalizing state with
  | nil =>
      cases ran
      exact ledger
  | cons call later ih =>
      obtain ⟨next, steps, rest⟩ := Option.bind_eq_some_iff.mp ran
      exact ih (ledger.step ordered steps) (ordered.step steps) rest

/-- A call comes to the store through NULL when `kmalloc` of a descriptor has failed. -/
theorem writeMove_oopsed {faults : WriteFaults} {user : Bytes} {position : Int} {kernel : Kernel}
    {point : CallPoint} {buffer : Kbuf}
    (moves : writeMove stale faults user position kernel point = some move)
    (oopsed : move.point = .oopsed buffer) :
    point = .oopsed buffer ∨ ∃ index, faults.descriptorKmalloc index = true := by
  cases point with
  | entered =>
      cases moves
      rcases sizeStaging_cases stale faults user position kernel with failed | sized
      · rw [failed] at oopsed
        cases oopsed
      · rw [sized] at oopsed
        cases oopsed
  | sized held =>
      rcases carryPartial_cases moves with
        ⟨_absent, rfl⟩ | ⟨stored, _present, _live, _long, _fits, rfl⟩
      · cases oopsed
      · cases oopsed
  | carried held =>
      rcases fillStaging_cases moves with rfl | ⟨_fits, rfl⟩
      · cases oopsed
      · cases oopsed
  | filled held =>
      rcases freePartial_cases moves with ⟨_absent, rfl⟩ | ⟨stored, _present, _live, rfl⟩
      · cases oopsed
      · cases oopsed
  | staged held =>
      cases moves
      rcases lockSection_cases faults position held kernel with
        interrupted | blocked | ⟨_free, acquired⟩
      · rw [interrupted] at oopsed
        cases oopsed
      · rw [blocked] at oopsed
        cases oopsed
      · rw [acquired] at oopsed
        cases oopsed
  | looping held index working =>
      cases moves
      have round := loopRound_cases faults user position held index working kernel
      generalize loopRound faults user position held index working kernel = move at round oopsed
      cases round with
      | oopsed newLine found descriptor => exact Or.inr ⟨index, descriptor⟩
      | added | failed | lost | kept | ended => cases oopsed
  | freed | nulled | keeping | releasing | leaving | done =>
      cases moves
      cases oopsed
  | oopsed held =>
      cases moves
      exact Or.inl oopsed

/-- Only calls with a failing `kmalloc` of a descriptor are stuck in the store. -/
def OopsExplained (request : Nat → Op) (state : Calls) : Prop :=
  ∀ call buffer, state.point call = .oopsed buffer → ¬(request call).DescriptorsAllocated

theorem OopsExplained.step (explained : OopsExplained request state)
    (ordered : Ordered request start state)
    (steps : state.step stale request fPos call = some next) : OopsExplained request next := by
  intro other
  by_cases same : other = call
  · subst same
    intro buffer oopsed
    by_cases write : (request other).IsWrite
    · obtain ⟨_file, _user, faults, move, asked, moves, rfl⟩ := Calls.step_write write steps
      rw [Calls.apply_point_self] at oopsed
      rcases writeMove_oopsed moves oopsed with before | ⟨index, failed⟩
      · exact explained other buffer before
      · rw [asked]
        intro allocated
        have succeeded : faults.descriptorKmalloc index = false := allocated index
        rw [failed] at succeeded
        cases succeeded
    · rw [Calls.step_other write, Option.some.injEq] at steps
      subst steps
      rw [Calls.apply_point_self] at oopsed
      rcases ordered.others other write with point | ⟨position, reply, point⟩
      · rcases ordered.sectionMove_cases fPos write point with waits | answers
        · rw [waits] at oopsed
          cases oopsed
        · rw [answers] at oopsed
          cases oopsed
      · rw [point] at oopsed
        cases oopsed
  · obtain ⟨move, rfl⟩ := Calls.step_applies steps
    rw [Calls.apply_point_of_ne _ _ same]
    exact explained other

theorem OopsExplained.run {schedule : List Nat} {final : Calls}
    (explained : OopsExplained request state) (ordered : Ordered request start state)
    (ran : state.run stale request fPos schedule = some final) : OopsExplained request final := by
  induction schedule generalizing state with
  | nil =>
      cases ran
      exact explained
  | cons call later ih =>
      obtain ⟨next, steps, rest⟩ := Option.bind_eq_some_iff.mp ran
      exact ih (explained.step ordered steps) (ordered.step steps) rest

theorem OopsExplained.initial (request : Nat → Op) (kernel : Kernel) :
    OopsExplained request (Calls.start kernel) := by
  intro call buffer impossible
  cases impossible

end Steps

end Moves

theorem Reachable.accounts {kernel : Kernel} (reachable : Reachable kernel) :
    ∃ held stored, Accounts kernel.slab kernel.dev.owned held stored := by
  obtain ⟨ops, allocated, rfl⟩ := reachable
  have start : Accounts OpenDevice.init.kernel.slab OpenDevice.init.kernel.dev.owned [] [] :=
    Accounts.init
  obtain ⟨leaked, accounts, _none⟩ := run_accounts init_inv ops allocated start
  exact ⟨_, _, accounts⟩

theorem Reachable.ledger {kernel : Kernel} (reachable : Reachable kernel) :
    Ledger (Calls.start kernel) := by
  obtain ⟨held, stored, accounts⟩ := reachable.accounts
  exact Ledger.initial accounts

/-- The statements that follow the pointer behind `partial`: `memcpy`, the place
`copy_from_user` writes to and `kfree_const`. -/
def CallPoint.FollowsPartial : CallPoint → Prop
  | .sized _ => True
  | .carried _ => True
  | .filled _ => True
  | _ => False

/-- However the statements of the calls are interleaved, the allocations stay apart
up to a forbidden access, and only these statements can make one. -/
theorem overlapping_calls_memory (stale : Nat → Nat → UInt8) (request : Nat → Op)
    (fPos : Nat → Int) (kernel : Kernel) (reachable : Reachable kernel) (schedule : List Nat)
    (state : Calls) (ran : (Calls.start kernel).run stale request fPos schedule = some state) :
    state.kernel.slab.wild = [] ∧
      (ringOwned state.kernel.dev.circularBuffer).Nodup ∧
      (∀ id ∈ ringOwned state.kernel.dev.circularBuffer, id ∈ state.kernel.slab.live) ∧
      (∀ call buffer, (state.point call).buffer = some buffer →
        buffer.id ∈ state.kernel.slab.live ∧
          buffer.id ∉ ringOwned state.kernel.dev.circularBuffer ∧
          buffer.id ∉ partialOwned state.kernel.dev.partialEntry ∧
          ∀ other theirs, (state.point other).buffer = some theirs → theirs.id = buffer.id →
            other = call) ∧
      (∀ id ∈ partialOwned state.kernel.dev.partialEntry,
        id ∉ ringOwned state.kernel.dev.circularBuffer) ∧
      (∀ call, state.step stale request fPos call = none → (state.point call).FollowsPartial) ∧
      ∀ call buffer, state.point call = .oopsed buffer →
        ¬(request call).DescriptorsAllocated := by
  have ledger : Ledger state :=
    reachable.ledger.run (Ordered.initial request reachable.inv) ran
  have sheltered := ledger.guarded.sheltered
  refine ⟨ledger.guarded.tame, ledger.distinct, ?_, ?_, ?_, ?_,
    (OopsExplained.initial request kernel).run (Ordered.initial request reachable.inv) ran⟩
  · intro id member
    exact sheltered.live id .ring member (by intro same; cases same)
  · intro call buffer present
    have own : Refers state.kernel.dev state.point buffer.id (.staging call) :=
      ⟨buffer, present, rfl⟩
    refine ⟨?_, ?_, ?_, ?_⟩
    · exact sheltered.live _ _ own (by intro same; cases same)
    · intro member
      cases sheltered.apart buffer.id .ring _ member own
    · intro member
      cases sheltered.apart buffer.id .kept _ member own
    · intro other theirs theirsPresent same
      cases sheltered.apart buffer.id (.staging other) _ ⟨theirs, theirsPresent, same⟩ own
      rfl
  · intro id kept member
    cases sheltered.apart id .kept .ring kept member
  · intro call fails
    by_cases write : (request call).IsWrite
    · obtain ⟨file, user, faults, asked⟩ := write.request
      rw [Calls.step, asked] at fails
      replace fails := Option.map_eq_none_iff.mp fails
      cases point : state.point call with
      | sized buffer => trivial
      | carried buffer => trivial
      | filled buffer => trivial
      | _ =>
          rw [point] at fails
          cases fails
    · rw [Calls.step_other write] at fails
      cases fails

def twoPiecesAndRead : Nat → Op
  | 0 => .write 0 [97] WriteFaults.none
  | 1 => .write 1 [98] WriteFaults.none
  | call => .read call 8 { lockInterrupted := false, copyToUser := false }

/-- Two writes overlap from the first statement to the last. -/
theorem overlapping_calls_memory_twoPieces :
    Reachable OpenDevice.init.kernel ∧
      ∃ state, (Calls.start OpenDevice.init.kernel).run (fun _ _ => 0) twoPiecesAndRead
          (fun _ => 0) [0, 1, 0, 1, 0, 1, 0, 1, 0, 0, 0, 0, 1, 0, 1, 2] = some state ∧
        state.kernel.slab.wild = [] := by
  have reachable : Reachable OpenDevice.init.kernel :=
    ⟨[], fun _op member => absurd member List.not_mem_nil, rfl⟩
  refine ⟨reachable, _, rfl, ?_⟩
  exact (overlapping_calls_memory (fun _ _ => 0) twoPiecesAndRead (fun _ => 0) _ reachable
    [0, 1, 0, 1, 0, 1, 0, 1, 0, 0, 0, 0, 1, 0, 1, 2] _ rfl).1

end Aesd.Driver
