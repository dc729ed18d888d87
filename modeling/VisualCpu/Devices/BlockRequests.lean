import Mathlib.Data.List.TakeWhile
import VisualCpu.Devices.NotifyTermination

/-!
# Block requests and the bounds of the disk

A request names a sector and, by its data buffers, a number of bytes. The byte offset of the
sector is computed with 64 bits, so that a sector from 2^55 on may come out inside the disk.
The requests whose range is judged right are exactly those whose status and transfers are as
the range demands.
-/

namespace VisualCpu

open List Ram

open VirtQueue (Descriptor)

namespace Ram

variable {ram : Ram}

theorem bytes_congr {ram' : Ram} {addr : BitVec 64} {size : ℕ}
    (h : ∀ i < size, ram' (addr + BitVec.ofNat 64 i) = ram (addr + BitVec.ofNat 64 i)) :
    ram'.bytes addr size = ram.bytes addr size :=
  map_congr_left fun i hi => h i (mem_range.1 hi)

theorem bytes_storeBytes_self (addr : BitVec 64) {data : List (BitVec 8)}
    (hlen : data.length ≤ 2 ^ 64) : (ram.storeBytes addr data).bytes addr data.length = data := by
  apply ext_getElem
  · exact length_bytes _ _ _
  intro i hi hdata
  have hoffset : (addr + BitVec.ofNat 64 i - addr).toNat = i := offset_eq addr (by omega)
  simp only [bytes, getElem_map, getElem_range, storeBytes, hoffset,
    List.getElem?_eq_getElem hdata, Option.getD_some]

end Ram

namespace VirtioBlk

/-- The buffers of a request, one after the other. -/
def gather (ram : Ram) (descriptors : List Descriptor) : List (BitVec 8) :=
  descriptors.flatMap fun desc => ram.bytes desc.addr desc.len.toNat

/-- A buffer that the device can reach. -/
def visible (desc : Descriptor) : Bool := dmaVisible desc.addr desc.len.toNat

def splice (disk : List (BitVec 8)) (offset : ℕ) (bytes : List (BitVec 8)) : List (BitVec 8) :=
  disk.take offset ++ bytes ++ disk.drop (offset + bytes.length)

/-- Two buffers without a common byte. -/
def Apart (desc other : Descriptor) : Prop :=
  Ram.Disjoint desc.addr desc.len.toNat other.addr other.len.toNat

variable {ram : Ram} {disk : List (BitVec 8)}

@[simp] theorem totalLen_nil : totalLen [] = 0 := rfl

@[simp] theorem totalLen_cons (desc : Descriptor) (rest : List Descriptor) :
    totalLen (desc :: rest) = desc.len.toNat + totalLen rest := by
  simp [totalLen]

@[simp] theorem gather_nil (ram : Ram) : gather ram [] = [] := rfl

@[simp] theorem gather_cons (ram : Ram) (desc : Descriptor) (rest : List Descriptor) :
    gather ram (desc :: rest) = ram.bytes desc.addr desc.len.toNat ++ gather ram rest := rfl

@[simp] theorem length_gather (ram : Ram) (descriptors : List Descriptor) :
    (gather ram descriptors).length = totalLen descriptors := by
  induction descriptors with
  | nil => rfl
  | cons desc rest ih => simp [ih]

variable {descriptors : List Descriptor}

theorem gather_eq_iff {ram' : Ram} : gather ram' descriptors = gather ram descriptors ↔
      ∀ desc ∈ descriptors,
        ram'.bytes desc.addr desc.len.toNat = ram.bytes desc.addr desc.len.toNat := by
  induction descriptors with
  | nil => simp
  | cons desc rest ih =>
    rw [gather_cons, gather_cons, forall_mem_cons, ← ih]
    constructor
    · intro h
      exact append_inj h (by simp)
    rintro ⟨hfirst, hrest⟩
    rw [hfirst, hrest]

theorem totalLen_takeWhile_le (p : Descriptor → Bool) (descriptors : List Descriptor) :
    totalLen (descriptors.takeWhile p) ≤ totalLen descriptors := by
  induction descriptors with
  | nil => exact le_rfl
  | cons desc rest ih =>
    rw [takeWhile_cons]
    split <;> simp [ih]

/-- A read request is carried out up to the first buffer that cannot be reached. -/
theorem copyToGuest_takeWhile (disk : List (BitVec 8)) (descriptors : List Descriptor) (offset : ℕ)
    (ram : Ram) (hfits : offset + totalLen descriptors ≤ disk.length) :
    copyToGuest disk descriptors offset ram =
      (descriptors.all visible,
        (copyToGuest disk (descriptors.takeWhile visible) offset ram).2) := by
  induction descriptors generalizing offset ram with
  | nil => rfl
  | cons desc rest ih =>
    rw [totalLen_cons] at hfits
    have hlen : ((disk.drop offset).take desc.len.toNat).length = desc.len.toNat := by
      rw [length_take, length_drop]
      omega
    cases hvisible : visible desc with
    | false =>
      have hrefused : ram.dmaStoreBytes desc.addr ((disk.drop offset).take desc.len.toNat) =
        none := by
        unfold visible at hvisible
        rw [dmaStoreBytes, hlen, hvisible]
        rfl
      rw [copyToGuest, hrefused, takeWhile_cons, hvisible, all_cons, hvisible]
      rfl
    | true =>
      have hstored : ram.dmaStoreBytes desc.addr ((disk.drop offset).take desc.len.toNat) =
          some (ram.storeBytes desc.addr ((disk.drop offset).take desc.len.toNat)) := by
        unfold visible at hvisible
        rw [dmaStoreBytes, hlen, hvisible]
        rfl
      rw [takeWhile_cons, hvisible, all_cons, hvisible, Bool.true_and, if_pos rfl,
        copyToGuest, hstored, copyToGuest, hstored]
      exact ih _ _ (by omega)

theorem gather_copyToGuest (offset : ℕ) (ram : Ram)
    (hfits : offset + totalLen descriptors ≤ disk.length) (hvisible : descriptors.all visible)
    (hapart : descriptors.Pairwise Apart) :
    gather (copyToGuest disk descriptors offset ram).2 descriptors =
      (disk.drop offset).take (totalLen descriptors) := by
  induction descriptors generalizing offset ram with
  | nil => simp
  | cons desc rest ih =>
    rw [all_cons, Bool.and_eq_true] at hvisible
    rw [totalLen_cons] at hfits ⊢
    rw [pairwise_cons] at hapart
    have hlen : ((disk.drop offset).take desc.len.toNat).length = desc.len.toNat := by
      rw [length_take, length_drop]
      omega
    have hstored : ram.dmaStoreBytes desc.addr ((disk.drop offset).take desc.len.toNat) =
        some (ram.storeBytes desc.addr ((disk.drop offset).take desc.len.toNat)) := by
      have hspan : dmaVisible desc.addr desc.len.toNat := hvisible.1
      rw [dmaStoreBytes, hlen, hspan]
      rfl
    rw [copyToGuest, hstored, gather_cons]
    rw [ih _ _ (by omega) hvisible.2 hapart.2]
    -- the later transfers leave the first buffer
    have hframe : ∀ i < desc.len.toNat, (copyToGuest disk rest (offset + desc.len.toNat)
        (ram.storeBytes desc.addr ((disk.drop offset).take desc.len.toNat))).2
          (desc.addr + BitVec.ofNat 64 i) =
        ram.storeBytes desc.addr ((disk.drop offset).take desc.len.toNat)
          (desc.addr + BitVec.ofNat 64 i) := by
      intro i hi
      apply copyToGuest_frame
      intro other hother j hj
      exact hapart.1 other hother i hi j hj
    have hself : (ram.storeBytes desc.addr ((disk.drop offset).take desc.len.toNat)).bytes desc.addr
        desc.len.toNat = (disk.drop offset).take desc.len.toNat := by
      have hbytes := @bytes_storeBytes_self ram desc.addr
        ((disk.drop offset).take desc.len.toNat) (by omega)
      rwa [hlen] at hbytes
    rw [bytes_congr hframe, hself, take_add, drop_drop]

theorem copyFromGuest_takeWhile (ram : Ram) (descriptors : List Descriptor) (offset : ℕ)
    (disk : List (BitVec 8)) :
    copyFromGuest ram descriptors offset disk =
      (descriptors.all visible,
        (copyFromGuest ram (descriptors.takeWhile visible) offset disk).2) := by
  induction descriptors generalizing offset disk with
  | nil => rfl
  | cons desc rest ih =>
    cases hvisible : visible desc with
    | false =>
      have hrefused : ram.dmaLoadBytes desc.addr desc.len.toNat = none := by
        unfold visible at hvisible
        rw [dmaLoadBytes, hvisible]
        rfl
      rw [copyFromGuest, hrefused, takeWhile_cons, hvisible, all_cons, hvisible]
      rfl
    | true =>
      have hloaded : ram.dmaLoadBytes desc.addr desc.len.toNat =
          some (ram.bytes desc.addr desc.len.toNat) := by
        unfold visible at hvisible
        rw [dmaLoadBytes, hvisible]
        rfl
      rw [takeWhile_cons, hvisible, all_cons, hvisible, Bool.true_and, if_pos rfl,
        copyFromGuest, hloaded, copyFromGuest, hloaded]
      exact ih _ _

theorem copyFromGuest_splice (offset : ℕ) (disk : List (BitVec 8))
    (hfits : offset + totalLen descriptors ≤ disk.length) (hvisible : descriptors.all visible) :
    (copyFromGuest ram descriptors offset disk).2 =
      splice disk offset (gather ram descriptors) := by
  induction descriptors generalizing offset disk with
  | nil => simp [copyFromGuest, splice]
  | cons desc rest ih =>
    rw [all_cons, Bool.and_eq_true] at hvisible
    rw [totalLen_cons] at hfits
    have hloaded : ram.dmaLoadBytes desc.addr desc.len.toNat =
        some (ram.bytes desc.addr desc.len.toNat) := by
      have hspan : dmaVisible desc.addr desc.len.toNat := hvisible.1
      rw [dmaLoadBytes, hspan]
      rfl
    have hoffset : (disk.take offset).length = offset := by
      rw [length_take]
      omega
    have hhead : (disk.take offset ++ ram.bytes desc.addr desc.len.toNat).length =
        offset + desc.len.toNat := by
      rw [length_append, hoffset, length_bytes]
    rw [copyFromGuest, hloaded]
    rw [ih _ _ _ hvisible.2]
    · unfold splice
      rw [take_left' hhead, gather_cons, length_append, length_bytes, length_gather,
        ← Nat.add_assoc, drop_append, hhead, Nat.add_sub_cancel_left, drop_drop,
        drop_of_length_le (by omega), nil_append, List.append_assoc (disk.take offset)]
    · rw [length_append, hhead, length_drop]
      omega

theorem splice_eq_self_iff {offset : ℕ} {bytes : List (BitVec 8)}
    (hfits : offset + bytes.length ≤ disk.length) :
    splice disk offset bytes = disk ↔ bytes = (disk.drop offset).take bytes.length := by
  have hsplit : disk = disk.take offset ++ (disk.drop offset).take bytes.length ++
      disk.drop (offset + bytes.length) := by
    rw [List.append_assoc, ← drop_drop, take_append_drop, take_append_drop]
  constructor
  · intro h
    have hparts : disk.take offset ++ bytes ++ disk.drop (offset + bytes.length) =
        disk.take offset ++ (disk.drop offset).take bytes.length ++
          disk.drop (offset + bytes.length) := h.trans hsplit
    exact append_cancel_left (append_cancel_right hparts)
  · intro h
    unfold splice
    rw [h, length_take, length_drop, Nat.min_eq_left (by omega)]
    exact hsplit.symm

end VirtioBlk

open VirtioBlk

/-- The chain of a request: its header, its data buffers and its status byte. -/
structure BlockRequest where
  headerDesc : Descriptor
  dataDescs : List Descriptor
  statusDesc : Descriptor

namespace BlockRequest

variable (request : BlockRequest) (ram : Ram)

def descriptors : List Descriptor :=
  request.headerDesc :: (request.dataDescs ++ [request.statusDesc])

def type : BitVec 32 := (ram.load request.headerDesc.addr 4).setWidth 32

def sector : BitVec 64 := ram.load (request.headerDesc.addr + 8) 8

/-- The exact offset of the request on the disk. -/
def offset : ℕ := 512 * (request.sector ram).toNat

def imageOffset : ℕ := (request.sector ram * virtioBlkSectorSize).toNat

def length : ℕ := totalLen request.dataDescs

/-- The data buffers before the first one that cannot be reached. -/
def reached : List Descriptor := request.dataDescs.takeWhile visible

/-- A read or a write request whose header and status byte are in RAM and whose data buffers
overlap neither of them nor each other. -/
structure WellFormed : Prop where
  headerReadable : request.headerDesc.flags &&& virtqDescWrite = 0
  headerLen : 16 ≤ request.headerDesc.len
  headerInRam : contains request.headerDesc.addr 16
  statusWritable : request.statusDesc.flags &&& virtqDescWrite ≠ 0
  statusLen : 1 ≤ request.statusDesc.len
  statusInRam : contains request.statusDesc.addr 1
  kind : request.type ram = virtioBlkIn ∨ request.type ram = virtioBlkOut
  direction : directionError (request.type ram) request.dataDescs = none
  headerApart : ∀ desc ∈ request.dataDescs,
    Ram.Disjoint desc.addr desc.len.toNat request.headerDesc.addr 16
  statusApart : ∀ desc ∈ request.dataDescs,
    Ram.Disjoint desc.addr desc.len.toNat request.statusDesc.addr 1
  dataApart : request.dataDescs.Pairwise Apart

/-- What a request is to do with its exact range. -/
structure KeepsBounds (blk : VirtioBlk) (result : Except String (BitVec 32)) (blk' : VirtioBlk)
    (ram' : Ram) : Prop where
  completed : ∃ usedLen, result = .ok usedLen
  outside : blk.data.length < request.offset ram + request.length →
    ram' request.statusDesc.addr = virtioBlkIoErr ∧ blk'.data = blk.data ∧
      ∀ desc ∈ request.dataDescs,
        ram'.bytes desc.addr desc.len.toNat = ram.bytes desc.addr desc.len.toNat
  inside : request.offset ram + request.length ≤ blk.data.length →
    ram' request.statusDesc.addr = virtioBlkOk ∧
      (request.type ram = virtioBlkIn → blk'.data = blk.data ∧
        gather ram' request.dataDescs =
          (blk.data.drop (request.offset ram)).take request.length) ∧
      (request.type ram = virtioBlkOut →
        blk'.data = splice blk.data (request.offset ram) (gather ram request.dataDescs))

/-- The range as computed is inside the disk, and a disk is attached. -/
def Accepted (blk : VirtioBlk) : Prop :=
  blk.attached ∧ request.imageOffset ram + request.length ≤ blk.data.length

/-- The transfers before the first buffer that cannot be reached move bytes that are there
already. -/
def Idle (blk : VirtioBlk) : Prop :=
  ¬request.dataDescs.all visible ∧ gather ram request.reached =
    (blk.data.drop (request.imageOffset ram)).take (totalLen request.reached)

instance (blk : VirtioBlk) : Decidable (request.Accepted ram blk) :=
  inferInstanceAs (Decidable (_ ∧ _))

instance (blk : VirtioBlk) : Decidable (request.Idle ram blk) :=
  inferInstanceAs (Decidable (_ ∧ _))

variable {request ram} {blk : VirtioBlk}

theorem length_reached_le : totalLen request.reached ≤ request.length :=
  totalLen_takeWhile_le _ _

theorem processChain_eq_transfer (h : request.WellFormed ram) (blk : VirtioBlk) :
    blk.processChain ram request.descriptors =
      blk.transfer ram { type := request.type ram, sector := request.sector ram }
        request.dataDescs request.statusDesc := by
  have hheader : loadHeader ram request.headerDesc.addr =
      some { type := request.type ram, sector := request.sector ram } := by
    have hvisible : dmaVisible request.headerDesc.addr 16 := h.headerInRam
    rw [loadHeader, if_pos hvisible]
    rfl
  have hheaderDesc : ¬(request.headerDesc.flags &&& virtqDescWrite ≠ 0 ∨
      request.headerDesc.len < 16) := by
    rintro (hwrite | hlen)
    · exact hwrite h.headerReadable
    · exact absurd h.headerLen (BitVec.not_le.2 hlen)
  have hstatusDesc : ¬(request.statusDesc.flags &&& virtqDescWrite = 0 ∨
      request.statusDesc.len < 1) := by
    rintro (hread | hlen)
    · exact h.statusWritable hread
    · exact absurd h.statusLen (BitVec.not_le.2 hlen)
  unfold descriptors
  cases hdata : request.dataDescs with
  | nil =>
    have hdirection := h.direction
    rw [hdata] at hdirection
    simp only [nil_append, processChain, getLast_singleton, dropLast_singleton,
      if_neg hheaderDesc, if_neg hstatusDesc, hheader, hdirection]
  | cons first rest =>
    have hdirection := h.direction
    rw [hdata] at hdirection
    have hlast : (first :: (rest ++ [request.statusDesc])).getLast (by simp) = request.statusDesc :=
      getLast_append_singleton (first :: rest)
    have hinit : (first :: (rest ++ [request.statusDesc])).dropLast = first :: rest := by
      rw [← List.cons_append, dropLast_concat]
    simp only [List.cons_append, processChain, hlast, hinit, if_neg hheaderDesc,
      if_neg hstatusDesc, hheader, hdirection]

theorem completeWithStatus_eq (h : request.WellFormed ram) (ram' : Ram) (status : BitVec 8)
    (len : BitVec 32) :
    completeWithStatus ram' request.statusDesc status len =
      (.ok (len + 1), ram'.storeBytes request.statusDesc.addr [status]) := by
  have hvisible : dmaVisible request.statusDesc.addr [status].length := h.statusInRam
  rw [completeWithStatus, dmaStoreBytes, if_pos hvisible]

theorem status_stored (ram' : Ram) (status : BitVec 8) :
    ram'.storeBytes request.statusDesc.addr [status] request.statusDesc.addr = status := by
  simp [storeBytes]

theorem bytes_status (h : request.WellFormed ram) (ram' : Ram) (status : BitVec 8) :
    ∀ desc ∈ request.dataDescs,
      (ram'.storeBytes request.statusDesc.addr [status]).bytes desc.addr desc.len.toNat =
        ram'.bytes desc.addr desc.len.toNat := by
  intro desc hdesc
  apply bytes_congr
  intro i hi
  apply storeBytes_eq_of_not_mem
  exact fun j hj => h.statusApart desc hdesc i hi j hj

theorem imageOffset_eq (h : request.offset ram < 2 ^ 64) :
    request.imageOffset ram = request.offset ram := by
  have hsector : virtioBlkSectorSize.toNat = 512 := rfl
  unfold offset at h
  rw [imageOffset, BitVec.toNat_mul, hsector, Nat.mul_comm, Nat.mod_eq_of_lt h, offset]

theorem processChain_refused (h : request.WellFormed ram) (hrefused : ¬request.Accepted ram blk) :
    blk.processChain ram request.descriptors =
      (.ok 1, blk, ram.storeBytes request.statusDesc.addr [virtioBlkIoErr]) := by
  have hrange : (!blk.attached || decide (request.imageOffset ram > blk.data.length) ||
      decide (request.length > blk.data.length - request.imageOffset ram)) := by
    rw [Bool.or_eq_true, Bool.or_eq_true, decide_eq_true_eq, decide_eq_true_eq, Bool.not_eq_true']
    by_contra hnot
    obtain ⟨⟨hattached, hoffset⟩, hlength⟩ := by simpa only [not_or] using hnot
    exact hrefused ⟨by simpa using hattached, by omega⟩
  unfold imageOffset length at hrange
  rw [processChain_eq_transfer h, transfer]
  rw [completeWithStatus_eq h, if_pos hrange]
  rfl

def transferStatus (request : BlockRequest) : BitVec 8 :=
  if request.dataDescs.all visible then virtioBlkOk else virtioBlkIoErr

theorem range_accepted (haccepted : request.Accepted ram blk) :
    ¬(!blk.attached || decide (request.imageOffset ram > blk.data.length) ||
      decide (request.length > blk.data.length - request.imageOffset ram)) := by
  obtain ⟨hattached, hfits⟩ := haccepted
  have hoffset : ¬request.imageOffset ram > blk.data.length := by omega
  have hlength : ¬request.length > blk.data.length - request.imageOffset ram := by omega
  simp [hattached, hoffset, hlength]

theorem processChain_read (h : request.WellFormed ram) (haccepted : request.Accepted ram blk)
    (hin : request.type ram = virtioBlkIn) :
    ∃ usedLen, blk.processChain ram request.descriptors = (.ok usedLen, blk,
      (copyToGuest blk.data request.reached (request.imageOffset ram) ram).2.storeBytes
        request.statusDesc.addr [request.transferStatus]) := by
  have hcopy := copyToGuest_takeWhile blk.data request.dataDescs (request.imageOffset ram) ram
    haccepted.2
  have hkind : ¬(request.type ram ≠ virtioBlkIn ∧ request.type ram ≠ virtioBlkOut) :=
    fun hne => hne.1 hin
  have hrange := range_accepted haccepted
  rw [processChain_eq_transfer h, transfer]
  unfold imageOffset length at hrange
  unfold imageOffset at hcopy
  rw [if_neg hrange, if_neg hkind, if_pos hin, hcopy]
  unfold transferStatus
  cases hall : request.dataDescs.all visible with
  | false =>
    refine ⟨1, ?_⟩
    simp only [Bool.false_eq_true, if_false, completeWithStatus_eq h]
    rfl
  | true =>
    refine ⟨BitVec.ofNat 32 request.length + 1, ?_⟩
    simp only [if_true, completeWithStatus_eq h]
    rfl

theorem processChain_write (h : request.WellFormed ram) (haccepted : request.Accepted ram blk)
    (hout : request.type ram = virtioBlkOut) :
    blk.processChain ram request.descriptors = (.ok 1,
      { blk with data := splice blk.data (request.imageOffset ram) (gather ram request.reached) },
      ram.storeBytes request.statusDesc.addr [request.transferStatus]) := by
  have hcopy := copyFromGuest_takeWhile ram request.dataDescs (request.imageOffset ram) blk.data
  have hvisible : request.reached.all visible := all_takeWhile
  have hsplice : (copyFromGuest ram request.reached (request.imageOffset ram) blk.data).2 =
      splice blk.data (request.imageOffset ram) (gather ram request.reached) :=
    copyFromGuest_splice _ blk.data
      (le_trans (Nat.add_le_add_left length_reached_le _) haccepted.2) hvisible
  have hkind : ¬(request.type ram ≠ virtioBlkIn ∧ request.type ram ≠ virtioBlkOut) :=
    fun hne => hne.2 hout
  have hnotIn : ¬request.type ram = virtioBlkIn := by
    rw [hout]
    decide
  have hrange := range_accepted haccepted
  rw [processChain_eq_transfer h, transfer]
  unfold imageOffset length at hrange
  unfold imageOffset at hcopy
  unfold imageOffset reached at hsplice
  dsimp only
  rw [if_neg hrange, if_neg hkind, if_neg hnotIn, hcopy, hsplice, completeWithStatus_eq h]
  rfl

theorem read_unchanged_iff (h : request.WellFormed ram) (haccepted : request.Accepted ram blk) :
    (∀ desc ∈ request.dataDescs,
      (copyToGuest blk.data request.reached (request.imageOffset ram) ram).2.bytes desc.addr
        desc.len.toNat = ram.bytes desc.addr desc.len.toNat) ↔
      gather ram request.reached =
        (blk.data.drop (request.imageOffset ram)).take (totalLen request.reached) := by
  have hsplit : request.dataDescs = request.reached ++ request.dataDescs.dropWhile visible :=
    takeWhile_append_dropWhile.symm
  have hapart := h.dataApart
  rw [hsplit, pairwise_append] at hapart
  obtain ⟨hreached, -, hrest⟩ := hapart
  have hvisible : request.reached.all visible := all_takeWhile
  have hfilled := gather_copyToGuest (request.imageOffset ram) ram
    (le_trans (Nat.add_le_add_left length_reached_le _) haccepted.2) hvisible hreached
  rw [← hfilled]
  constructor
  · intro hall
    apply Eq.symm
    rw [gather_eq_iff]
    intro desc hdesc
    apply hall
    rw [hsplit]
    exact mem_append_left _ hdesc
  · intro hsame desc hdesc
    rw [hsplit, mem_append] at hdesc
    rcases hdesc with hdesc | hdesc
    · exact gather_eq_iff.1 hsame.symm desc hdesc
    apply bytes_congr
    intro i hi
    apply copyToGuest_frame
    intro other hother j hj heq
    exact hrest other hother desc hdesc j hj i hi heq.symm

/-- The requests for which the device does what their exact range demands. -/
def JudgedRight (request : BlockRequest) (ram : Ram) (blk : VirtioBlk) : Prop :=
  (request.offset ram + request.length ≤ blk.data.length ∧ blk.attached ∧
      request.dataDescs.all visible) ∨
    (blk.data.length < request.offset ram + request.length ∧
      (¬request.Accepted ram blk ∨ request.Idle ram blk))

theorem keepsBounds_refused (h : request.WellFormed ram) (hdisk : blk.data.length < 2 ^ 64)
    (hrefused : ¬request.Accepted ram blk) :
    request.KeepsBounds ram blk (.ok 1) blk
        (ram.storeBytes request.statusDesc.addr [virtioBlkIoErr]) ↔
      request.JudgedRight ram blk := by
  constructor
  · intro hkeeps
    right
    refine ⟨?_, .inl hrefused⟩
    by_contra hinside
    have hstatus := (hkeeps.inside (not_lt.1 hinside)).1
    rw [status_stored] at hstatus
    exact absurd hstatus (by decide)
  · intro hjudged
    have houtside : blk.data.length < request.offset ram + request.length := by
      rcases hjudged with ⟨hinside, hattached, -⟩ | ⟨houtside, -⟩
      · rw [← imageOffset_eq (by omega)] at hinside
        exact absurd ⟨hattached, hinside⟩ hrefused
      · exact houtside
    exact {
      completed := ⟨1, rfl⟩
      outside := fun _ => ⟨status_stored ram _, rfl, bytes_status h ram _⟩
      inside := fun hinside => absurd houtside (not_lt.2 hinside) }

theorem transferStatus_eq_ok_iff :
    request.transferStatus = virtioBlkOk ↔ request.dataDescs.all visible := by
  unfold transferStatus
  split_ifs with hall
  · simp [hall]
  simp only [hall]
  decide

theorem transferStatus_eq_ioErr_iff :
    request.transferStatus = virtioBlkIoErr ↔ ¬request.dataDescs.all visible := by
  unfold transferStatus
  split_ifs with hall
  · simp only [hall]
    decide
  · simp [hall]

theorem reached_of_all (hall : request.dataDescs.all visible) :
    request.reached = request.dataDescs := by
  rw [reached, takeWhile_eq_self_iff]
  exact fun desc hdesc => all_eq_true.1 hall desc hdesc

theorem imageOffset_inside (hdisk : blk.data.length < 2 ^ 64)
    (hinside : request.offset ram + request.length ≤ blk.data.length) :
    request.imageOffset ram = request.offset ram :=
  imageOffset_eq (by omega)

theorem keepsBounds_read (h : request.WellFormed ram) (hdisk : blk.data.length < 2 ^ 64)
    (haccepted : request.Accepted ram blk) (hin : request.type ram = virtioBlkIn)
    (usedLen : BitVec 32) :
    request.KeepsBounds ram blk (.ok usedLen) blk
        ((copyToGuest blk.data request.reached (request.imageOffset ram) ram).2.storeBytes
          request.statusDesc.addr [request.transferStatus]) ↔
      request.JudgedRight ram blk := by
  set filled := (copyToGuest blk.data request.reached (request.imageOffset ram) ram).2 with hfilled
  have hsame := read_unchanged_iff h haccepted
  rw [← hfilled] at hsame
  have hstored := bytes_status h filled request.transferStatus
  constructor
  · intro hkeeps
    by_cases hinside : request.offset ram + request.length ≤ blk.data.length
    · left
      have hstatus := (hkeeps.inside hinside).1
      rw [status_stored, transferStatus_eq_ok_iff] at hstatus
      exact ⟨hinside, haccepted.1, hstatus⟩
    right
    obtain ⟨hstatus, -, hunchanged⟩ := hkeeps.outside (not_le.1 hinside)
    rw [status_stored, transferStatus_eq_ioErr_iff] at hstatus
    refine ⟨not_le.1 hinside, .inr ⟨hstatus, hsame.1 ?_⟩⟩
    intro desc hdesc
    rw [← hstored desc hdesc]
    exact hunchanged desc hdesc
  · rintro (⟨hinside, -, hall⟩ | ⟨houtside, hnot | ⟨hunreached, hidle⟩⟩)
    · have hgather : gather filled request.dataDescs =
          (blk.data.drop (request.offset ram)).take request.length := by
        rw [hfilled, reached_of_all hall, ← imageOffset_inside hdisk hinside]
        exact gather_copyToGuest _ ram haccepted.2 hall h.dataApart
      exact {
        completed := ⟨usedLen, rfl⟩
        outside := fun houtside => absurd houtside (not_lt.2 hinside)
        inside := by
          intro _
          refine ⟨?_, fun _ => ⟨rfl, ?_⟩, ?_⟩
          · rw [status_stored, transferStatus_eq_ok_iff]
            exact hall
          · rw [gather_eq_iff.2 hstored, hgather]
          · intro hout
            rw [hin] at hout
            exact absurd hout (by decide) }
    · exact absurd haccepted hnot
    · exact {
        completed := ⟨usedLen, rfl⟩
        outside := by
          intro _
          refine ⟨?_, rfl, ?_⟩
          · rw [status_stored, transferStatus_eq_ioErr_iff]
            exact hunreached
          intro desc hdesc
          rw [hstored desc hdesc]
          exact hsame.2 hidle desc hdesc
        inside := fun hinside => absurd houtside (not_lt.2 hinside) }

theorem keepsBounds_write (h : request.WellFormed ram) (hdisk : blk.data.length < 2 ^ 64)
    (haccepted : request.Accepted ram blk) (hout : request.type ram = virtioBlkOut) :
    request.KeepsBounds ram blk (.ok 1)
        { blk with data := splice blk.data (request.imageOffset ram) (gather ram request.reached) }
        (ram.storeBytes request.statusDesc.addr [request.transferStatus]) ↔
      request.JudgedRight ram blk := by
  have hsame : splice blk.data (request.imageOffset ram) (gather ram request.reached) = blk.data ↔
      gather ram request.reached =
        (blk.data.drop (request.imageOffset ram)).take (totalLen request.reached) := by
    have hlength : (gather ram request.reached).length = totalLen request.reached :=
      length_gather _ _
    rw [← hlength]
    apply splice_eq_self_iff
    rw [hlength]
    exact le_trans (Nat.add_le_add_left length_reached_le _) haccepted.2
  constructor
  · intro hkeeps
    by_cases hinside : request.offset ram + request.length ≤ blk.data.length
    · left
      have hstatus := (hkeeps.inside hinside).1
      rw [status_stored, transferStatus_eq_ok_iff] at hstatus
      exact ⟨hinside, haccepted.1, hstatus⟩
    · right
      obtain ⟨hstatus, hunchanged, -⟩ := hkeeps.outside (not_le.1 hinside)
      rw [status_stored, transferStatus_eq_ioErr_iff] at hstatus
      exact ⟨not_le.1 hinside, .inr ⟨hstatus, hsame.1 hunchanged⟩⟩
  · rintro (⟨hinside, -, hall⟩ | ⟨houtside, hnot | ⟨hunreached, hidle⟩⟩)
    · exact {
        completed := ⟨1, rfl⟩
        outside := fun houtside => absurd houtside (not_lt.2 hinside)
        inside := by
          intro _
          refine ⟨?_, ?_, ?_⟩
          · rw [status_stored, transferStatus_eq_ok_iff]
            exact hall
          · intro hin
            rw [hout] at hin
            exact absurd hin (by decide)
          · intro _
            rw [reached_of_all hall, imageOffset_inside hdisk hinside] }
    · exact absurd haccepted hnot
    · exact {
        completed := ⟨1, rfl⟩
        outside := by
          intro _
          refine ⟨?_, hsame.2 hidle, bytes_status h ram _⟩
          rw [status_stored, transferStatus_eq_ioErr_iff]
          exact hunreached
        inside := fun hinside => absurd houtside (not_lt.2 hinside) }

/-- The device does what the exact range of a request demands exactly when it judges the
range right and reaches the buffers that are to be moved. -/
theorem processChain_keepsBounds_iff (h : request.WellFormed ram)
    (hdisk : blk.data.length < 2 ^ 64) :
    request.KeepsBounds ram blk (blk.processChain ram request.descriptors).1
        (blk.processChain ram request.descriptors).2.1
        (blk.processChain ram request.descriptors).2.2 ↔
      request.JudgedRight ram blk := by
  by_cases haccepted : request.Accepted ram blk
  · rcases h.kind with hin | hout
    · obtain ⟨usedLen, hprocess⟩ := processChain_read h haccepted hin
      rw [hprocess]
      exact keepsBounds_read h hdisk haccepted hin usedLen
    · rw [processChain_write h haccepted hout]
      exact keepsBounds_write h hdisk haccepted hout
  · rw [processChain_refused h haccepted]
    exact keepsBounds_refused h hdisk haccepted

end BlockRequest

def readRequestRam (sector : BitVec 64) : Ram :=
  store (fun _ => 0) (memBase + 8) sector 8

def readRequest : BlockRequest where
  headerDesc := { addr := memBase, len := 16, flags := virtqDescNext, next := 1 }
  dataDescs :=
    [{ addr := memBase + 16, len := 4, flags := virtqDescNext ||| virtqDescWrite, next := 2 }]
  statusDesc := { addr := memBase + 32, len := 1, flags := virtqDescWrite, next := 0 }

def sectorDisk : VirtioBlk := { data := List.replicate 512 0xA5, attached := true }

theorem readRequest_wellFormed {sector : BitVec 64}
    (htype : readRequest.type (readRequestRam sector) = virtioBlkIn) :
    readRequest.WellFormed (readRequestRam sector) where
  headerReadable := by decide
  headerLen := by decide
  headerInRam := by decide
  statusWritable := by decide
  statusLen := by decide
  statusInRam := by decide
  kind := .inl htype
  direction := by
    rw [htype]
    decide
  headerApart := by
    unfold Ram.Disjoint
    decide
  statusApart := by
    unfold Ram.Disjoint
    decide
  dataApart := pairwise_singleton _ _

/-- A request of the first sector is carried out. -/
theorem readRequest_keepsBounds : readRequest.KeepsBounds (readRequestRam 0) sectorDisk
      (sectorDisk.processChain (readRequestRam 0) readRequest.descriptors).1
      (sectorDisk.processChain (readRequestRam 0) readRequest.descriptors).2.1
      (sectorDisk.processChain (readRequestRam 0) readRequest.descriptors).2.2 :=
  (BlockRequest.processChain_keepsBounds_iff (readRequest_wellFormed (by decide))
    (by decide +kernel)).2 (.inl ⟨by decide +kernel, rfl, by decide⟩)

/-- A request of sector 2^55 reads the start of the disk. -/
theorem readRequest_wraps : readRequest.WellFormed (readRequestRam (2 ^ 55)) ∧
      ¬readRequest.KeepsBounds (readRequestRam (2 ^ 55)) sectorDisk
        (sectorDisk.processChain (readRequestRam (2 ^ 55)) readRequest.descriptors).1
        (sectorDisk.processChain (readRequestRam (2 ^ 55)) readRequest.descriptors).2.1
        (sectorDisk.processChain (readRequestRam (2 ^ 55)) readRequest.descriptors).2.2 := by
  refine ⟨readRequest_wellFormed (by decide), fun hkeeps => ?_⟩
  have hstatus := (hkeeps.outside (by decide +kernel)).1
  exact absurd hstatus (by decide +kernel)

end VisualCpu
