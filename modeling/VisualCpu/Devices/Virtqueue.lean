import VisualCpu.Devices.Dma

/-!
# The rings of a virtual device

`VirtQueue` reads the available ring and the descriptor table and writes the used ring
by DMA. The sixteen-bit indices of the rings run freely; an index modulo the queue size
is a slot.
-/

namespace VisualCpu

open BitVec

def virtqDescNext : BitVec 16 := 0x1
def virtqDescWrite : BitVec 16 := 0x2
def virtqDescIndirect : BitVec 16 := 0x4

structure VirtQueue where
  maxSize : BitVec 16
  size : BitVec 16 := 0
  descAddr : BitVec 64 := 0
  availAddr : BitVec 64 := 0
  usedAddr : BitVec 64 := 0
  ready : Bool := false
  nextAvailIdx : BitVec 16 := 0
deriving DecidableEq

namespace VirtQueue

structure Descriptor where
  addr : BitVec 64
  len : BitVec 32
  (flags next : BitVec 16)
deriving DecidableEq

structure Chain where
  (headIndex availIndex : BitVec 16)
  descriptors : List Descriptor
deriving DecidableEq

variable (queue : VirtQueue)

def reset : VirtQueue := { maxSize := queue.maxSize }

/-- `set_size`; a size above the maximum is ignored. -/
def setSize (size : BitVec 16) : VirtQueue :=
  if queue.maxSize < size then queue else { queue with size, nextAvailIdx := 0 }

def setReady (ready : Bool) : VirtQueue :=
  if ready then { queue with ready } else { queue with ready, nextAvailIdx := 0 }

def configured : Bool :=
  queue.ready && queue.size != 0 && queue.descAddr != 0 && queue.availAddr != 0 &&
    queue.usedAddr != 0

variable (ram : Ram)

def loadU16 (addr : BitVec 64) : Except String (BitVec 16) :=
  match ram.dmaLoad addr 2 with
  | none => .error "virtqueue DMA load failed"
  | some value => .ok (value.setWidth 16)

def loadDescriptor (index : BitVec 16) : Except String Descriptor :=
  let addr := queue.descAddr + 16 * index.setWidth 64
  if !Ram.dmaVisible addr 16 then .error "virtqueue descriptor DMA load failed"
  else
    let flags := (ram.load (addr + 12) 2).setWidth 16
    if flags &&& virtqDescIndirect ≠ 0 then
      .error "virtqueue indirect descriptors are not supported yet"
    else
      .ok {
        addr := ram.load addr 8
        len := (ram.load (addr + 8) 4).setWidth 32
        flags
        next := (ram.load (addr + 14) 2).setWidth 16 }

def availEntry (index : BitVec 16) : BitVec 64 :=
  queue.availAddr + 4 + 2 * (index % queue.size).setWidth 64

def usedElement (index : BitVec 16) : BitVec 64 :=
  queue.usedAddr + 4 + 8 * (index % queue.size).setWidth 64

/-- There is an entry of the available ring that the device has not popped. -/
def hasPending : Except String Bool :=
  if !queue.configured then .ok false
  else
    match loadU16 ram (queue.availAddr + 2) with
    | .error error => .error error
    | .ok availIdx => .ok (availIdx != queue.nextAvailIdx)

/-- The loop of `pop_chain` over the descriptors of a chain. The first argument counts
the descriptors that still fit under the limit on the length of a chain. -/
def walkChain (ram : Ram) : ℕ → List (BitVec 16) → BitVec 16 → Except String (List Descriptor)
  | 0, _, _ => .error "virtqueue descriptor chain exceeds queue size"
  | room + 1, visited, current =>
    if queue.size ≤ current then .error "virtqueue descriptor next index out of range"
    else if current ∈ visited then .error "virtqueue descriptor chain contains a loop"
    else
      match queue.loadDescriptor ram current with
      | .error error => .error error
      | .ok descriptor =>
        if descriptor.flags &&& virtqDescNext = 0 then .ok [descriptor]
        else
          match walkChain ram room (current :: visited) descriptor.next with
          | .error error => .error error
          | .ok rest => .ok (descriptor :: rest)

/-- `pop_chain`; the error is empty when nothing is pending. -/
def popChain : Except String Chain :=
  if !queue.configured then .error "virtqueue is not configured"
  else
    match loadU16 ram (queue.availAddr + 2) with
    | .error error => .error error
    | .ok availIdx =>
      if availIdx = queue.nextAvailIdx then .error ""
      else
        match loadU16 ram (queue.availEntry queue.nextAvailIdx) with
        | .error error => .error error
        | .ok headIndex =>
          if queue.size ≤ headIndex then .error "virtqueue avail head out of range"
          else
            match queue.walkChain ram (queue.size.toNat + 1) [] headIndex with
            | .error error => .error error
            | .ok descriptors =>
              .ok { headIndex, availIndex := queue.nextAvailIdx, descriptors }

def commitChain (chain : Chain) : Except String VirtQueue :=
  if !queue.configured then .error "virtqueue is not configured"
  else if queue.size ≤ chain.headIndex then .error "virtqueue commit head out of range"
  else if chain.availIndex ≠ queue.nextAvailIdx then .error "virtqueue commit index mismatch"
  else .ok { queue with nextAvailIdx := queue.nextAvailIdx + 1 }

/-- The stores of `push_used`, each of which may fail after the ones before it. -/
def storeUsed (usedIdx headIndex : BitVec 16) (len : BitVec 32) :
    Except String Unit × Ram :=
  let error := "virtqueue DMA store failed"
  match ram.dmaStore (queue.usedElement usedIdx) (headIndex.setWidth 64) 4 with
  | none => (.error error, ram)
  | some ram =>
    match ram.dmaStore (queue.usedElement usedIdx + 4) (len.setWidth 64) 4 with
    | none => (.error error, ram)
    | some ram =>
      match ram.dmaStore (queue.usedAddr + 2) ((usedIdx + 1).setWidth 64) 2 with
      | none => (.error error, ram)
      | some ram => (.ok (), ram)

def pushUsed (headIndex : BitVec 16) (len : BitVec 32) : Except String Unit × Ram :=
  if !queue.configured then (.error "virtqueue is not configured", ram)
  else
    match loadU16 ram (queue.usedAddr + 2) with
    | .error error => (.error error, ram)
    | .ok usedIdx => queue.storeUsed ram usedIdx headIndex len

variable {queue} {headIndex : BitVec 16} {len : BitVec 32} {chain : Chain}

/-- The index that the driver has made available in memory. -/
def availIdx (queue : VirtQueue) (ram : Ram) : BitVec 16 :=
  (ram.load (queue.availAddr + 2) 2).setWidth 16

/-- The number of used elements that memory says are published. -/
def usedIdx (queue : VirtQueue) (ram : Ram) : BitVec 16 :=
  (ram.load (queue.usedAddr + 2) 2).setWidth 16

theorem loadU16_eq_ok {ram : Ram} {addr : BitVec 64} {value : BitVec 16}
    (h : loadU16 ram addr = .ok value) : (ram.load addr 2).setWidth 16 = value := by
  unfold loadU16 at h
  cases hload : ram.dmaLoad addr 2 with
  | none =>
    rw [hload] at h
    cases h
  | some word =>
    rw [hload] at h
    rw [← ram.dmaLoad_eq_some hload]
    exact Except.ok.inj h

theorem hasPending_eq_ok {ram : Ram} {pending : Bool} (h : queue.hasPending ram = .ok pending) :
    pending ↔ queue.configured ∧ queue.availIdx ram ≠ queue.nextAvailIdx := by
  unfold hasPending at h
  cases hconfigured : queue.configured with
  | false =>
    rw [hconfigured] at h
    cases h
    simp
  | true =>
    rw [hconfigured] at h
    cases hload : loadU16 ram (queue.availAddr + 2) with
    | error error =>
      rw [hload] at h
      cases h
    | ok availIdx =>
      rw [hload] at h
      have havail : queue.availIdx ram = availIdx := loadU16_eq_ok hload
      cases h
      simp [havail]

theorem popChain_eq_ok {ram : Ram} (h : queue.popChain ram = .ok chain) :
    chain.availIndex = queue.nextAvailIdx ∧
      chain.headIndex = (ram.load (queue.availEntry queue.nextAvailIdx) 2).setWidth 16 := by
  unfold popChain at h
  split_ifs at h
  cases havail : loadU16 ram (queue.availAddr + 2) with
  | error error =>
    rw [havail] at h
    cases h
  | ok availIdx =>
    simp only [havail] at h
    split_ifs at h
    cases hhead : loadU16 ram (queue.availEntry queue.nextAvailIdx) with
    | error error =>
      rw [hhead] at h
      cases h
    | ok headIndex =>
      simp only [hhead] at h
      split_ifs at h
      cases hwalk : queue.walkChain ram (queue.size.toNat + 1) [] headIndex with
      | error error =>
        rw [hwalk] at h
        cases h
      | ok descriptors =>
        rw [hwalk] at h
        cases h
        exact ⟨rfl, (loadU16_eq_ok hhead).symm⟩

theorem commitChain_eq_ok {after : VirtQueue} (h : queue.commitChain chain = .ok after) :
    after = { queue with nextAvailIdx := queue.nextAvailIdx + 1 } := by
  unfold commitChain at h
  split_ifs at h
  exact (Except.ok.inj h).symm

/-- The used element of a head is published: the slot of the used index holds the head,
the index has advanced by one, and the rest of memory is as before. -/
structure Published (queue : VirtQueue) (headIndex : BitVec 16) (ram after : Ram) : Prop where
  element : after.load (queue.usedElement (queue.usedIdx ram)) 4 = headIndex.setWidth 64
  advanced : queue.usedIdx after = queue.usedIdx ram + 1
  frame : ∀ a, (∀ i < 8, a ≠ queue.usedElement (queue.usedIdx ram) + BitVec.ofNat 64 i) →
    (∀ i < 2, a ≠ queue.usedAddr + 2 + BitVec.ofNat 64 i) → after a = ram a

theorem usedElement_eq (queue : VirtQueue) (index : BitVec 16) :
    queue.usedElement index =
      queue.usedAddr + BitVec.ofNat 64 (4 + 8 * (index % queue.size).toNat) := by
  unfold usedElement
  rw [add_assoc, ofNat_add]
  congr 2

theorem usedIdx_disjoint (queue : VirtQueue) (index : BitVec 16) :
    Ram.Disjoint (queue.usedElement index) 4 (queue.usedAddr + 2) 2 := by
  have hslot : (index % queue.size).toNat < 2 ^ 16 := (index % queue.size).isLt
  rw [usedElement_eq]
  exact Ram.disjoint_of_offsets queue.usedAddr 2 _ (by omega) (by omega)

theorem halves_disjoint (addr : BitVec 64) : Ram.Disjoint addr 4 (addr + 4) 4 := by
  have hzero : addr = addr + BitVec.ofNat 64 0 := (BitVec.add_zero addr).symm
  have hhalves : Ram.Disjoint (addr + BitVec.ofNat 64 4) 4 (addr + BitVec.ofNat 64 0) 4 :=
    Ram.disjoint_of_offsets addr 0 4 (by decide) (by decide)
  rw [← hzero] at hhalves
  exact hhalves.symm

theorem storeUsed_published {ram after : Ram}
    (h : queue.storeUsed ram (queue.usedIdx ram) headIndex len = (.ok (), after)) :
    queue.Published headIndex ram after := by
  set index := queue.usedIdx ram with hindex
  unfold storeUsed at h
  cases hhead : ram.dmaStore (queue.usedElement index) (headIndex.setWidth 64) 4 with
  | none =>
    rw [hhead] at h
    cases h
  | some ram₁ =>
    simp only [hhead] at h
    cases hlen : ram₁.dmaStore (queue.usedElement index + 4) (len.setWidth 64) 4 with
    | none =>
      rw [hlen] at h
      cases h
    | some ram₂ =>
      simp only [hlen] at h
      cases hidx : ram₂.dmaStore (queue.usedAddr + 2) ((index + 1).setWidth 64) 2 with
      | none =>
        rw [hidx] at h
        cases h
      | some ram₃ =>
        simp only [hidx, Prod.mk.injEq, true_and] at h
        subst h
        have hram₁ := (ram.dmaStore_eq_some hhead).2
        have hram₂ := (ram₁.dmaStore_eq_some hlen).2
        have hram₃ := (ram₂.dmaStore_eq_some hidx).2
        refine ⟨?_, ?_, ?_⟩
        · rw [← hindex, hram₃, Ram.load_store_disjoint _ (queue.usedIdx_disjoint index), hram₂,
            Ram.load_store_disjoint _ (halves_disjoint _), hram₁,
            Ram.load_store_setWidth _ _ _ (by decide) (by decide)]
        · unfold usedIdx
          rw [hram₃, Ram.load_store_setWidth _ _ _ (by decide) (by decide),
            setWidth_setWidth_of_le _ (by decide), setWidth_eq]
          rfl
        · intro a helem hidx
          rw [hram₃, Ram.store_of_not_mem _ hidx, hram₂, Ram.store_of_not_mem, hram₁,
            Ram.store_of_not_mem]
          · exact fun i hi => helem i (by omega)
          intro i hi
          have hadd : queue.usedElement index + 4 + BitVec.ofNat 64 i =
              queue.usedElement index + BitVec.ofNat 64 (4 + i) := by
            rw [ofNat_add, add_assoc]
            rfl
          rw [hadd]
          exact helem _ (by omega)

theorem pushUsed_published {ram after : Ram}
    (h : queue.pushUsed ram headIndex len = (.ok (), after)) :
    queue.Published headIndex ram after := by
  unfold pushUsed at h
  split_ifs at h
  · cases h
  cases hload : loadU16 ram (queue.usedAddr + 2) with
  | error error =>
    rw [hload] at h
    cases h
  | ok index =>
    simp only [hload] at h
    have hindex : queue.usedIdx ram = index := loadU16_eq_ok hload
    rw [← hindex] at h
    exact storeUsed_published h

end VirtQueue

end VisualCpu
