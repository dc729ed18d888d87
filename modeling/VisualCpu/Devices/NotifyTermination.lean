import VisualCpu.Devices.VirtioBlk

/-!
# The rounds of a notify come to an end

A round pops one entry of the available ring, and the loop goes on until its own index has
reached the one of the driver, which it reads from memory again in every round. As long as
the device does not write the index of the driver itself, the distance of the two shrinks. A
used ring in the place of the available ring moves the index of the driver along, and the
loop never ends.
-/

namespace VisualCpu

open List BitVec VirtQueue NotifyState VirtioBlk Ram

open VirtQueue (Descriptor Chain)

theorem Ram.store_eq_self {ram : Ram} {addr value : BitVec 64} {size : ℕ}
    (h : ∀ i < size, byteOf value i = ram (addr + BitVec.ofNat 64 i)) :
    ram.store addr value size = ram := by
  funext a
  unfold store
  split_ifs with hlt
  · rw [h _ hlt, ofNat_toNat, setWidth_eq, BitVec.add_comm, BitVec.sub_add_cancel]
  · rfl

theorem Ram.store_store (ram : Ram) (addr value value' : BitVec 64) (size : ℕ) :
    (ram.store addr value size).store addr value' size = ram.store addr value' size := by
  funext a
  unfold store
  split_ifs <;> rfl

variable {bytes : List (BitVec 8)}

theorem Ram.storeBytes_eq_of_not_mem {ram : Ram} {addr a : BitVec 64}
    (h : ∀ i < bytes.length, a ≠ addr + BitVec.ofNat 64 i) : ram.storeBytes addr bytes a =
      ram a := by
  have hnone : bytes[(a - addr).toNat]? = none := by
    rw [List.getElem?_eq_none_iff, ← not_lt]
    intro hlt
    apply h _ hlt
    rw [ofNat_toNat, setWidth_eq, BitVec.add_comm, BitVec.sub_add_cancel]
  rw [storeBytes, hnone, Option.getD_none]

theorem Ram.dmaStoreBytes_eq_some {ram after : Ram} {addr : BitVec 64}
    (h : ram.dmaStoreBytes addr bytes = some after) : after = ram.storeBytes addr bytes := by
  unfold dmaStoreBytes at h
  split_ifs at h
  exact (Option.some.inj h).symm

namespace VirtioBlk

/-- The byte at an address is outside the buffers that the device may write. -/
def Unwritable (descriptors : List Descriptor) (a : BitVec 64) : Prop :=
  ∀ desc ∈ descriptors, desc.flags &&& virtqDescWrite ≠ 0 →
    ∀ i < desc.len.toNat, a ≠ desc.addr + BitVec.ofNat 64 i

variable {ram : Ram} {a : BitVec 64} {statusDesc : Descriptor}

theorem completeWithStatus_frame (ram : Ram) (status : BitVec 8)
    (len : BitVec 32) (ha : a ≠ statusDesc.addr) :
    (completeWithStatus ram statusDesc status len).2 a = ram a := by
  unfold completeWithStatus
  cases hstore : ram.dmaStoreBytes statusDesc.addr [status] with
  | none => rfl
  | some stored =>
    rw [dmaStoreBytes_eq_some hstore]
    apply storeBytes_eq_of_not_mem
    intro i hi
    obtain rfl : i = 0 := by simpa using hi
    simpa using ha

variable {descriptors : List Descriptor}

theorem copyToGuest_frame (data : List (BitVec 8)) (offset : ℕ)
    (ram : Ram) (ha : ∀ desc ∈ descriptors, ∀ i < desc.len.toNat,
      a ≠ desc.addr + BitVec.ofNat 64 i) :
    (copyToGuest data descriptors offset ram).2 a = ram a := by
  induction descriptors generalizing offset ram with
  | nil => rfl
  | cons desc rest ih =>
    unfold copyToGuest
    cases hstore : ram.dmaStoreBytes desc.addr ((data.drop offset).take desc.len.toNat) with
    | none => rfl
    | some stored =>
      rw [ih _ _ fun desc hdesc => ha desc (mem_cons_of_mem _ hdesc), dmaStoreBytes_eq_some hstore]
      apply storeBytes_eq_of_not_mem
      intro i hi
      apply ha desc mem_cons_self
      exact lt_of_lt_of_le hi (length_take_le _ _)

theorem writable_of_directionError
    (h : directionError virtioBlkIn descriptors = none) :
    ∀ desc ∈ descriptors, desc.flags &&& virtqDescWrite ≠ 0 := by
  induction descriptors with
  | nil =>
    intro desc hdesc
    cases hdesc
  | cons desc rest ih =>
    unfold directionError at h
    dsimp only at h
    split_ifs at h with hread hwrite
    intro other hother
    cases hother with
    | head =>
      intro hflag
      exact hread ⟨rfl, not_not.2 hflag⟩
    | tail _ hrest => exact ih h other hrest

theorem transfer_frame (blk : VirtioBlk) {header : RequestHeader} {data : List Descriptor}
    (hstatus : a ≠ statusDesc.addr)
    (hdata : header.type = virtioBlkIn →
      ∀ desc ∈ data, ∀ i < desc.len.toNat, a ≠ desc.addr + BitVec.ofNat 64 i) :
    (blk.transfer ram header data statusDesc).2.2 a = ram a := by
  unfold transfer
  dsimp only
  by_cases hin : header.type = virtioBlkIn
  · have hfilled := copyToGuest_frame blk.data (header.sector * virtioBlkSectorSize).toNat ram
      (hdata hin)
    split_ifs <;> rw [completeWithStatus_frame _ _ _ hstatus]
    · exact hfilled
    · exact hfilled
  · split_ifs <;> exact completeWithStatus_frame ram _ _ hstatus

theorem processChain_frame (blk : VirtioBlk)
    (ha : Unwritable descriptors a) : (blk.processChain ram descriptors).2.2 a = ram a := by
  match descriptors with
  | [] | [_] => rfl
  | headerDesc :: next :: more =>
    simp only [processChain]
    split_ifs with hheader hstatus
    · rfl
    · rfl
    obtain ⟨hwrite, hlen⟩ := not_or.1 hstatus
    have hbyte : a ≠ ((next :: more).getLast (by simp)).addr := by
      have hpos : 0 < ((next :: more).getLast (by simp)).len.toNat := by
        bv_omega
      simpa using ha _ (mem_cons_of_mem _ (getLast_mem _)) hwrite 0 hpos
    cases hload : loadHeader ram headerDesc.addr with
    | none => exact completeWithStatus_frame ram _ _ hbyte
    | some header =>
      dsimp only
      cases hdirection : directionError header.type (next :: more).dropLast with
      | some error => rfl
      | none =>
        apply transfer_frame blk hbyte
        intro hin desc hdesc
        rw [hin] at hdirection
        exact ha desc (mem_cons_of_mem _ (dropLast_subset _ hdesc))
          (writable_of_directionError hdirection desc hdesc)

end VirtioBlk

namespace VirtQueue

variable {queue : VirtQueue} {descriptors : List Descriptor}

/-- Serving a chain does not write the index of the driver: neither the used ring nor a buffer
of the chain that the device may write shares a byte with it. -/
structure LeavesIndex (queue : VirtQueue) (descriptors : List Descriptor) : Prop where
  buffers : ∀ desc ∈ descriptors, desc.flags &&& virtqDescWrite ≠ 0 →
    Ram.Disjoint (queue.availAddr + 2) 2 desc.addr desc.len.toNat
  elements : ∀ index, Ram.Disjoint (queue.availAddr + 2) 2 (queue.usedElement index) 8
  usedIdx : Ram.Disjoint (queue.availAddr + 2) 2 (queue.usedAddr + 2) 2

theorem LeavesIndex.processChain (h : queue.LeavesIndex descriptors) (blk : VirtioBlk) (ram : Ram) :
    queue.availIdx (blk.processChain ram descriptors).2.2 = queue.availIdx ram := by
  unfold availIdx
  congr 1
  apply load_congr
  intro i hi
  apply processChain_frame
  intro desc hdesc hwrite j hj
  exact h.buffers desc hdesc hwrite i hi j hj

theorem LeavesIndex.published (h : queue.LeavesIndex descriptors) {headIndex : BitVec 16}
    {ram after : Ram} (hpublished : queue.Published headIndex ram after) :
    queue.availIdx after = queue.availIdx ram := by
  unfold availIdx
  congr 1
  apply load_congr
  intro i hi
  apply hpublished.frame
  · exact h.elements _ i hi
  · exact h.usedIdx i hi

end VirtQueue

namespace NotifyState

variable {state after : NotifyState}

theorem round_eq_served (h : state.round = .served after) :
    state.queue.availIdx state.ram ≠ state.queue.nextAvailIdx ∧
      ∃ chain, state.queue.popChain state.ram = .ok chain ∧
        state.queue.Published chain.headIndex
          (state.blk.processChain state.ram chain.descriptors).2.2 after.ram ∧
        after.queue = { state.queue with nextAvailIdx := state.queue.nextAvailIdx + 1 } := by
  unfold round at h
  cases hpending : state.queue.hasPending state.ram with
  | error error =>
    rw [hpending] at h
    cases h
  | ok pending =>
    rw [hpending] at h
    cases pending with
    | false => cases h
    | true =>
      have havail := ((hasPending_eq_ok hpending).1 rfl).2
      cases hpop : state.queue.popChain state.ram with
      | error error =>
        rw [hpop] at h
        cases h
      | ok chain =>
        refine ⟨havail, chain, rfl, ?_⟩
        rcases hprocess : state.blk.processChain state.ram chain.descriptors with
          ⟨processed, blk, ram⟩
        simp only [hpop, hprocess] at h
        cases processed with
        | error error => cases h
        | ok usedLen =>
          rcases hpush : state.queue.pushUsed ram chain.headIndex usedLen with ⟨pushed, published⟩
          simp only [hpush] at h
          cases pushed with
          | error error => cases h
          | ok =>
            cases hcommit : state.queue.commitChain chain with
            | error error =>
              rw [hcommit] at h
              cases h
            | ok queue =>
              rw [hcommit] at h
              cases h
              exact ⟨pushUsed_published hpush, commitChain_eq_ok hcommit⟩

/-- The state after a number of requests, while the loop goes on. -/
def afterRounds : ℕ → NotifyState → Option NotifyState
  | 0, state => some state
  | n + 1, state =>
    match state.round with
    | .served next => afterRounds n next
    | _ => none

/-- The request at the head of the queue does not make the device write the index of the
driver. -/
def LeavesIndex (state : NotifyState) : Prop :=
  ∀ chain, state.queue.popChain state.ram = .ok chain → state.queue.LeavesIndex chain.descriptors

/-- The number of entries that the driver is ahead. -/
def distance (state : NotifyState) : ℕ :=
  (state.queue.availIdx state.ram - state.queue.nextAvailIdx).toNat

theorem distance_served (hleaves : state.LeavesIndex) (h : state.round = .served after) :
    after.distance < state.distance := by
  obtain ⟨havail, chain, hpop, hpublished, hqueue⟩ := round_eq_served h
  have hapart := hleaves chain hpop
  have hindex : after.queue.availIdx after.ram = state.queue.availIdx state.ram := by
    rw [hqueue]
    exact (hapart.published hpublished).trans (hapart.processChain state.blk state.ram)
  unfold distance
  rw [hindex, hqueue]
  have hne : (state.queue.availIdx state.ram - state.queue.nextAvailIdx).toNat ≠ 0 := by
    intro hzero
    apply havail
    bv_omega
  bv_omega

theorem afterRounds_add (m n : ℕ) (state : NotifyState) :
    state.afterRounds (m + n) = (state.afterRounds m).bind (afterRounds n) := by
  induction m generalizing state with
  | zero => rw [Nat.zero_add, afterRounds, Option.bind_some]
  | succ m ih =>
    rw [Nat.succ_add, afterRounds, afterRounds]
    cases state.round with
    | served next => exact ih next
    | drained => rfl
    | failed error after => rfl

theorem loop_isSome_iff (fuel : ℕ) (state : NotifyState) :
    (loop fuel state).isSome ↔ state.afterRounds fuel = none := by
  induction fuel generalizing state with
  | zero => simp [loop, afterRounds]
  | succ fuel ih =>
    rw [loop, afterRounds]
    cases state.round with
    | served next => exact ih next
    | drained => simp
    | failed error after => simp

theorem afterRounds_eq_none (hleaves : ∀ n s, state.afterRounds n = some s → s.LeavesIndex) :
    ∃ n, state.afterRounds n = none := by
  induction hdistance : state.distance using Nat.strong_induction_on generalizing state with
  | _ distance ih =>
    cases hround : state.round with
    | served next =>
      have hlt := distance_served (hleaves 0 state rfl) hround
      have hlater : ∀ n s, next.afterRounds n = some s → s.LeavesIndex := by
        intro n s hs
        apply hleaves (n + 1)
        rw [afterRounds, hround]
        exact hs
      obtain ⟨n, hn⟩ := ih _ (hdistance ▸ hlt) hlater rfl
      refine ⟨n + 1, ?_⟩
      rw [afterRounds, hround]
      exact hn
    | drained => exact ⟨1, by rw [afterRounds, hround]⟩
    | failed error after => exact ⟨1, by rw [afterRounds, hround]⟩

end NotifyState

/-- The guest memory under the rings: a request of a header and a status byte, and elements
of the used ring that also make every entry of the available ring the head of the request. -/
def sharedRingBase : Ram := fun a =>
  let bytes : List (ℕ × BitVec 8) :=
    [(0x1001, 0x40), (0x1003, 0x80), (0x1008, 16), (0x100c, 1), (0x100e, 1),
      (0x1011, 0x50), (0x1013, 0x80), (0x1018, 1), (0x101c, 2),
      (0x2008, 1), (0x2010, 1), (0x5000, 1)]
  (bytes.lookup (a.toNat - memBase.toNat)).getD 0

def sharedRingRam (index : BitVec 16) : Ram :=
  sharedRingBase.store 0x80002002 (index.setWidth 64) 2

def sharedRingQueue (nextAvailIdx : BitVec 16) : VirtQueue :=
  { maxSize := virtioBlkQueueSize, size := 2, descAddr := 0x80001000, availAddr := 0x80002000,
    usedAddr := 0x80002000, ready := true, nextAvailIdx }

def sharedRingChain (availIndex : BitVec 16) : Chain :=
  { headIndex := 0, availIndex,
    descriptors := [{ addr := 0x80004000, len := 16, flags := 1, next := 1 },
      { addr := 0x80005000, len := 1, flags := 2, next := 0 }] }

namespace SharedRing

theorem load_index (index : BitVec 16) : loadU16 (sharedRingRam index) 0x80002002 = .ok index := by
  have hvisible : dmaVisible 0x80002002 2 := by decide
  have hload : (sharedRingRam index).load 0x80002002 2 = index.setWidth 64 :=
    load_store_setWidth _ _ _ (by decide) (by decide)
  rw [loadU16, dmaLoad, if_pos hvisible, hload]
  simp

theorem load_eq (index : BitVec 16) {addr : BitVec 64} {size : ℕ}
    (h : Ram.Disjoint addr size 0x80002002 2) :
    (sharedRingRam index).load addr size = sharedRingBase.load addr size :=
  load_store_disjoint _ h

theorem byte_eq (index : BitVec 16) {a : BitVec 64}
    (h : ∀ j < 2, a ≠ 0x80002002 + BitVec.ofNat 64 j) :
    sharedRingRam index a = sharedRingBase a :=
  store_of_not_mem _ h

theorem mod_two (index : BitVec 16) : index % 2 = 0 ∨ index % 2 = 1 := by
  rcases Nat.mod_two_eq_zero_or_one index.toNat with h | h
  · left
    apply eq_of_toNat_eq
    rw [toNat_umod]
    exact h
  · right
    apply eq_of_toNat_eq
    rw [toNat_umod]
    exact h

variable (index next : BitVec 16)

theorem hasPending_eq (hne : index ≠ next) :
    (sharedRingQueue next).hasPending (sharedRingRam index) = .ok true := by
  have hload : loadU16 (sharedRingRam index) ((sharedRingQueue next).availAddr + 2) =
      .ok index := load_index index
  have hconfigured : (sharedRingQueue next).configured := rfl
  unfold hasPending
  rw [hconfigured, hload]
  simpa [sharedRingQueue] using hne

theorem load_entry :
    loadU16 (sharedRingRam index) ((sharedRingQueue next).availEntry next) = .ok 0 := by
  have hentry : ∀ addr : BitVec 64, dmaVisible addr 2 →
      Ram.Disjoint addr 2 0x80002002 2 → sharedRingBase.load addr 2 = 0 →
        loadU16 (sharedRingRam index) addr = .ok 0 := by
    intro addr hvisible hdisjoint hzero
    rw [loadU16, dmaLoad, if_pos hvisible, load_eq index hdisjoint, hzero]
    rfl
  have haddr : (sharedRingQueue next).availEntry next = 0x80002004 + 2 * (next % 2).setWidth 64 :=
    rfl
  rw [haddr]
  rcases mod_two next with hslot | hslot <;> rw [hslot]
  · exact hentry _ (by decide) (by unfold Ram.Disjoint; decide) (by decide)
  · exact hentry _ (by decide) (by unfold Ram.Disjoint; decide) (by decide)

theorem loadDescriptor_eq (i : BitVec 16)
    (hi : Ram.Disjoint (0x80001000 + 16 * i.setWidth 64) 16 0x80002002 2) :
    (sharedRingQueue next).loadDescriptor (sharedRingRam index) i =
      (sharedRingQueue 0).loadDescriptor sharedRingBase i := by
  have haddr : (sharedRingQueue next).descAddr + 16 * i.setWidth 64 =
    0x80001000 + 16 * i.setWidth 64 :=
    rfl
  have hbase : (sharedRingQueue 0).descAddr + 16 * i.setWidth 64 =
    0x80001000 + 16 * i.setWidth 64 :=
    rfl
  unfold VirtQueue.loadDescriptor
  rw [haddr, hbase]
  generalize (0x80001000 : BitVec 64) + 16 * i.setWidth 64 = addr at hi ⊢
  have hpart : ∀ offset size, offset + size ≤ 16 →
      (sharedRingRam index).load (addr + BitVec.ofNat 64 offset) size =
        sharedRingBase.load (addr + BitVec.ofNat 64 offset) size := by
    intro offset size hsize
    apply load_eq
    intro k hk
    rw [BitVec.add_assoc, ← ofNat_add]
    exact hi (offset + k) (by omega)
  have hstart := hpart 0 8 (by decide)
  rw [BitVec.add_zero] at hstart
  have hlen : (sharedRingRam index).load (addr + 8) 4 = sharedRingBase.load (addr + 8) 4 :=
    hpart 8 4 (by decide)
  have hflags : (sharedRingRam index).load (addr + 12) 2 = sharedRingBase.load (addr + 12) 2 :=
    hpart 12 2 (by decide)
  have hnext : (sharedRingRam index).load (addr + 14) 2 = sharedRingBase.load (addr + 14) 2 :=
    hpart 14 2 (by decide)
  dsimp only
  rw [hstart, hlen, hflags, hnext]

theorem walkChain_eq : (sharedRingQueue next).walkChain (sharedRingRam index) 3 [] 0 =
      .ok (sharedRingChain next).descriptors := by
  have hsize : (sharedRingQueue next).size = 2 := rfl
  have hheader := (loadDescriptor_eq index next 0 (by unfold Ram.Disjoint; decide)).trans
    (by decide : _ = .ok { addr := 0x80004000, len := 16, flags := 1, next := 1 })
  have hstatus := (loadDescriptor_eq index next 1 (by unfold Ram.Disjoint; decide)).trans
    (by decide : _ = .ok { addr := 0x80005000, len := 1, flags := 2, next := 0 })
  unfold walkChain
  rw [hheader, hsize]
  unfold walkChain
  dsimp only
  rw [hstatus, hsize]
  rfl

theorem popChain_eq (hne : index ≠ next) :
    (sharedRingQueue next).popChain (sharedRingRam index) = .ok (sharedRingChain next) := by
  have hindex : loadU16 (sharedRingRam index) ((sharedRingQueue next).availAddr + 2) =
      .ok index := load_index index
  have hentry : loadU16 (sharedRingRam index)
      ((sharedRingQueue next).availEntry (sharedRingQueue next).nextAvailIdx) = .ok 0 :=
    load_entry index next
  have hconfigured : (sharedRingQueue next).configured := rfl
  have hsize : (sharedRingQueue next).size.toNat + 1 = 3 := rfl
  unfold popChain
  rw [hconfigured, hindex, hentry, hsize]
  dsimp only
  rw [walkChain_eq]
  have hnext : (sharedRingQueue next).nextAvailIdx = next := rfl
  rw [hnext, if_neg hne]
  rfl

theorem store_eq (index : BitVec 16) {addr value : BitVec 64} {size : ℕ}
    (hdisjoint : Ram.Disjoint addr size 0x80002002 2)
    (h : ∀ i < size, byteOf value i = sharedRingBase (addr + BitVec.ofNat 64 i)) :
    (sharedRingRam index).store addr value size = sharedRingRam index := by
  apply store_eq_self
  intro i hi
  rw [byte_eq index (hdisjoint i hi)]
  exact h i hi

theorem processChain_eq :
    ({} : VirtioBlk).processChain (sharedRingRam index) (sharedRingChain next).descriptors =
      (.ok 1, {}, sharedRingRam index) := by
  have hheader : loadHeader (sharedRingRam index) 0x80004000 = some { type := 0, sector := 0 } := by
    have hvisible : dmaVisible 0x80004000 16 := by decide
    rw [loadHeader, if_pos hvisible, load_eq index (by unfold Ram.Disjoint; decide),
      load_eq index (by unfold Ram.Disjoint; decide)]
    decide
  have hstatus : (sharedRingRam index).dmaStoreBytes 0x80005000 [virtioBlkIoErr] =
      some (sharedRingRam index) := by
    have hstore : (sharedRingRam index).dmaStore 0x80005000 1 1 = some (sharedRingRam index) := by
      have hvisible : dmaVisible 0x80005000 1 := by decide
      rw [dmaStore, if_pos hvisible, store_eq index (by unfold Ram.Disjoint; decide) (by decide)]
    rw [dmaStore_eq] at hstore
    exact hstore
  simp only [processChain, sharedRingChain, getLast_singleton, dropLast_singleton,
    hheader, directionError, transfer, completeWithStatus, hstatus]
  rfl

theorem pushUsed_eq :
    (sharedRingQueue next).pushUsed (sharedRingRam index) 0 1 =
      (.ok (), sharedRingRam (index + 1)) := by
  have hindex : loadU16 (sharedRingRam index) ((sharedRingQueue next).usedAddr + 2) =
      .ok index := load_index index
  have hconfigured : (sharedRingQueue next).configured := rfl
  have haddr : (sharedRingQueue next).usedElement index =
    0x80002004 + 8 * (index % 2).setWidth 64 := rfl
  have helement : (sharedRingRam index).dmaStore ((sharedRingQueue next).usedElement index) 0 4 =
        some (sharedRingRam index) ∧
      (sharedRingRam index).dmaStore ((sharedRingQueue next).usedElement index + 4) 1 4 =
        some (sharedRingRam index) := by
    have hstore : ∀ addr value : BitVec 64, dmaVisible addr 4 →
        Ram.Disjoint addr 4 0x80002002 2 →
          (∀ i < 4, byteOf value i = sharedRingBase (addr + BitVec.ofNat 64 i)) →
            (sharedRingRam index).dmaStore addr value 4 = some (sharedRingRam index) := by
      intro addr value hvisible hdisjoint hbytes
      rw [dmaStore, if_pos hvisible, store_eq index hdisjoint hbytes]
    rw [haddr]
    rcases mod_two index with hslot | hslot <;> rw [hslot]
    · exact ⟨hstore _ _ (by decide) (by unfold Ram.Disjoint; decide) (by decide),
        hstore _ _ (by decide) (by unfold Ram.Disjoint; decide) (by decide)⟩
    exact ⟨hstore _ _ (by decide) (by unfold Ram.Disjoint; decide) (by decide),
      hstore _ _ (by decide) (by unfold Ram.Disjoint; decide) (by decide)⟩
  have hadvance : (sharedRingRam index).dmaStore ((sharedRingQueue next).usedAddr + 2)
      ((index + 1).setWidth 64) 2 = some (sharedRingRam (index + 1)) := by
    have hvisible : dmaVisible ((sharedRingQueue next).usedAddr + 2) 2 := by
      have hused : (sharedRingQueue next).usedAddr + 2 = 0x80002002 := rfl
      rw [hused]
      decide
    rw [dmaStore, if_pos hvisible]
    exact congrArg some (store_store _ _ _ _ _)
  have hhead : (sharedRingRam index).dmaStore ((sharedRingQueue next).usedElement index)
      ((0 : BitVec 16).setWidth 64) 4 = some (sharedRingRam index) := helement.1
  have hlen : (sharedRingRam index).dmaStore ((sharedRingQueue next).usedElement index + 4)
      ((1 : BitVec 32).setWidth 64) 4 = some (sharedRingRam index) := helement.2
  unfold pushUsed
  rw [hconfigured, hindex]
  dsimp only [Bool.not_true]
  unfold storeUsed
  rw [hhead]
  dsimp only
  rw [hlen]
  dsimp only
  rw [hadvance]
  rfl

/-- The loop before a request: the shared index is one ahead of the device. -/
def state (next : BitVec 16) (completed : BitVec 32) : NotifyState :=
  { blk := {}, ram := sharedRingRam (next + 1), queue := sharedRingQueue next, completed }

theorem round_eq (next : BitVec 16) (completed : BitVec 32) :
    (state next completed).round = .served (state (next + 1) (completed + 1)) := by
  have hne : next + 1 ≠ next := by bv_omega
  have hcommit : (sharedRingQueue next).commitChain (sharedRingChain next) =
      .ok (sharedRingQueue (next + 1)) := by
    have hconfigured : (sharedRingQueue next).configured := rfl
    have hhead : ¬(sharedRingQueue next).size ≤ (sharedRingChain next).headIndex := by
      have hsize : (sharedRingQueue next).size = 2 := rfl
      have hzero : (sharedRingChain next).headIndex = 0 := rfl
      rw [hsize, hzero]
      decide
    have hindex : ¬(sharedRingChain next).availIndex ≠ (sharedRingQueue next).nextAvailIdx :=
      not_not.2 rfl
    unfold commitChain
    rw [hconfigured, if_neg hhead, if_neg hindex]
    rfl
  have hpush : (sharedRingQueue next).pushUsed (sharedRingRam (next + 1))
      (sharedRingChain next).headIndex 1 = (.ok (), sharedRingRam (next + 1 + 1)) :=
    pushUsed_eq (next + 1) next
  unfold NotifyState.round state
  rw [hasPending_eq _ _ hne]
  rw [popChain_eq _ _ hne]
  dsimp only
  rw [processChain_eq]
  dsimp only
  rw [hpush]
  rw [hcommit]

theorem loop_eq_none (fuel : ℕ) (next : BitVec 16) (completed : BitVec 32) :
    (state next completed).loop fuel = none := by
  induction fuel generalizing next completed with
  | zero => rfl
  | succ fuel ih =>
    rw [loop, round_eq]
    exact ih _ _

end SharedRing

end VisualCpu
