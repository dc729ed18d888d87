import VisualCpu.Devices.Virtqueue

/-!
# The block device

`VirtioBlk::notify_queue` serves the chains of its queue one after the other: pop,
process, publish, commit. The loop ends when nothing is pending or a chain fails; as the
transfers of a chain may write the rings, it has a fuel.
-/

namespace VisualCpu

open BitVec

def virtioBlkIn : BitVec 32 := 0
def virtioBlkOut : BitVec 32 := 1
def virtioBlkOk : BitVec 8 := 0
def virtioBlkIoErr : BitVec 8 := 1
def virtioBlkUnsupp : BitVec 8 := 2
def virtioBlkSectorSize : BitVec 64 := 512
def virtioBlkQueueSize : BitVec 16 := 8

open VirtQueue (Descriptor Chain)

structure VirtioBlk where
  data : List (BitVec 8) := []
  attached : Bool := false
deriving DecidableEq

namespace VirtioBlk

structure RequestHeader where
  type : BitVec 32
  sector : BitVec 64
deriving DecidableEq

def loadHeader (ram : Ram) (addr : BitVec 64) : Option RequestHeader :=
  if Ram.dmaVisible addr 16 then
    some { type := (ram.load addr 4).setWidth 32, sector := ram.load (addr + 8) 8 }
  else none

/-- `complete_with_status`: the status byte is written and counted. -/
def completeWithStatus (ram : Ram) (statusDesc : Descriptor) (status : BitVec 8)
    (usedLen : BitVec 32) : Except String (BitVec 32) × Ram :=
  match ram.dmaStoreBytes statusDesc.addr [status] with
  | none => (.error "virtio-blk failed to DMA-store status byte", ram)
  | some ram => (.ok (usedLen + 1), ram)

def directionError (type : BitVec 32) : List Descriptor → Option String
  | [] => none
  | desc :: rest =>
    let writable := desc.flags &&& virtqDescWrite ≠ 0
    if type = virtioBlkIn ∧ ¬writable then
      some "virtio-blk read request requires writable data descriptors"
    else if type = virtioBlkOut ∧ writable then
      some "virtio-blk write request requires readable data descriptors"
    else directionError type rest

def totalLen (descriptors : List Descriptor) : ℕ := (descriptors.map (·.len.toNat)).sum

/-- The transfers of a read request; the flag tells whether all of them succeeded. -/
def copyToGuest (data : List (BitVec 8)) : List Descriptor → ℕ → Ram → Bool × Ram
  | [], _, ram => (true, ram)
  | desc :: rest, offset, ram =>
    match ram.dmaStoreBytes desc.addr ((data.drop offset).take desc.len.toNat) with
    | none => (false, ram)
    | some ram => copyToGuest data rest (offset + desc.len.toNat) ram

/-- The transfers of a write request. -/
def copyFromGuest (ram : Ram) : List Descriptor → ℕ → List (BitVec 8) → Bool × List (BitVec 8)
  | [], _, data => (true, data)
  | desc :: rest, offset, data =>
    match ram.dmaLoadBytes desc.addr desc.len.toNat with
    | none => (false, data)
    | some bytes =>
      copyFromGuest ram rest (offset + desc.len.toNat)
        (data.take offset ++ bytes ++ data.drop (offset + desc.len.toNat))

/-- The part of `process_chain` after the header and the descriptors are checked. -/
def transfer (blk : VirtioBlk) (ram : Ram) (header : RequestHeader)
    (dataDescs : List Descriptor) (statusDesc : Descriptor) :
    Except String (BitVec 32) × VirtioBlk × Ram :=
  let imageOffset := (header.sector * virtioBlkSectorSize).toNat
  let total := totalLen dataDescs
  if !blk.attached || imageOffset > blk.data.length || total > blk.data.length - imageOffset then
    let (result, ram) := completeWithStatus ram statusDesc virtioBlkIoErr 0
    (result, blk, ram)
  else if header.type ≠ virtioBlkIn ∧ header.type ≠ virtioBlkOut then
    let (result, ram) := completeWithStatus ram statusDesc virtioBlkUnsupp 0
    (result, blk, ram)
  else if header.type = virtioBlkIn then
    let (copied, ram) := copyToGuest blk.data dataDescs imageOffset ram
    let (result, ram) :=
      if copied then completeWithStatus ram statusDesc virtioBlkOk (BitVec.ofNat 32 total)
      else completeWithStatus ram statusDesc virtioBlkIoErr 0
    (result, blk, ram)
  else
    let (copied, data) := copyFromGuest ram dataDescs imageOffset blk.data
    let (result, ram) :=
      completeWithStatus ram statusDesc (if copied then virtioBlkOk else virtioBlkIoErr) 0
    (result, { blk with data }, ram)

/-- `process_chain`: the length of the used element, or an error. -/
def processChain (blk : VirtioBlk) (ram : Ram) (descriptors : List Descriptor) :
    Except String (BitVec 32) × VirtioBlk × Ram :=
  match descriptors with
  | headerDesc :: next :: more =>
    let statusDesc := (next :: more).getLast (by simp)
    let dataDescs := (next :: more).dropLast
    if headerDesc.flags &&& virtqDescWrite ≠ 0 ∨ headerDesc.len < 16 then
      (.error "virtio-blk request header descriptor is invalid", blk, ram)
    else if statusDesc.flags &&& virtqDescWrite = 0 ∨ statusDesc.len < 1 then
      (.error "virtio-blk status descriptor is invalid", blk, ram)
    else
      match loadHeader ram headerDesc.addr with
      | none =>
        let (result, ram) := completeWithStatus ram statusDesc virtioBlkIoErr 0
        (result, blk, ram)
      | some header =>
        match directionError header.type dataDescs with
        | some error => (.error error, blk, ram)
        | none => blk.transfer ram header dataDescs statusDesc
  | _ => (.error "virtio-blk request chain is too short", blk, ram)

end VirtioBlk

/-- The state of the loop of `notify_queue`. -/
structure NotifyState where
  blk : VirtioBlk
  ram : Ram
  queue : VirtQueue
  completed : BitVec 32

namespace NotifyState

inductive Round where
  | drained
  | failed (error : String) (state : NotifyState)
  | served (state : NotifyState)

def round (state : NotifyState) : Round :=
  match state.queue.hasPending state.ram with
  | .error error => .failed error state
  | .ok false => .drained
  | .ok true =>
    match state.queue.popChain state.ram with
    | .error error => .failed error state
    | .ok chain =>
      let (processed, blk, ram) := state.blk.processChain state.ram chain.descriptors
      match processed with
      | .error error => .failed error { state with blk, ram }
      | .ok usedLen =>
        let (pushed, ram) := state.queue.pushUsed ram chain.headIndex usedLen
        match pushed with
        | .error error => .failed error { state with blk, ram }
        | .ok () =>
          match state.queue.commitChain chain with
          | .error error => .failed error { state with blk, ram }
          | .ok queue => .served { blk, ram, queue, completed := state.completed + 1 }

def loop : ℕ → NotifyState → Option (Except String Unit × NotifyState)
  | 0, _ => none
  | fuel + 1, state =>
    match state.round with
    | .drained => some (.ok (), state)
    | .failed error after => some (.error error, after)
    | .served after => loop fuel after

end NotifyState

/-- `VirtioBlk::notify_queue`. -/
def VirtioBlk.notifyQueue (fuel : ℕ) (blk : VirtioBlk) (ram : Ram) (queueIndex : BitVec 32)
    (queue : VirtQueue) : Option (Except String Unit × NotifyState) :=
  let state : NotifyState := { blk, ram, queue, completed := 0 }
  if queueIndex ≠ 0 then some (.error "virtio-blk only exposes queue 0", state)
  else NotifyState.loop fuel state

/-- What one request of a queue was: its entry of the available ring, the head that the
entry held and the index of its used element. -/
structure Service where
  (availIndex headIndex usedIndex : BitVec 16)
deriving DecidableEq

namespace NotifyState

/-- One entry of the available ring has been served: the next one was popped, its used
element is published with the same head, and the queue has moved by one entry. -/
structure Serves (state : NotifyState) (service : Service) (after : NotifyState) : Prop where
  available : state.queue.availIdx state.ram ≠ state.queue.nextAvailIdx
  popped : service.availIndex = state.queue.nextAvailIdx
  head : service.headIndex =
    (state.ram.load (state.queue.availEntry service.availIndex) 2).setWidth 16
  published : ∃ ram, service.usedIndex = state.queue.usedIdx ram ∧
    state.queue.Published service.headIndex ram after.ram
  advanced : after.queue = { state.queue with nextAvailIdx := state.queue.nextAvailIdx + 1 }
  counted : after.completed = state.completed + 1

def Round.Spec (state : NotifyState) : Round → Prop
  | .drained => state.queue.configured → state.queue.availIdx state.ram = state.queue.nextAvailIdx
  | .failed _ after => after.queue = state.queue
  | .served after => ∃ service, state.Serves service after

theorem round_spec (state : NotifyState) : state.round.Spec state := by
  unfold round
  cases hpending : state.queue.hasPending state.ram with
  | error error => rfl
  | ok pending =>
    have hready := VirtQueue.hasPending_eq_ok hpending
    cases pending with
    | false =>
      intro hconfigured
      by_contra hne
      cases hready.2 ⟨hconfigured, hne⟩
    | true =>
      cases hpop : state.queue.popChain state.ram with
      | error error => rfl
      | ok chain =>
        obtain ⟨havail, hhead⟩ := VirtQueue.popChain_eq_ok hpop
        rcases hprocess : state.blk.processChain state.ram chain.descriptors with
          ⟨processed, blk, ram⟩
        simp only [hprocess]
        cases processed with
        | error error => rfl
        | ok usedLen =>
          rcases hpush : state.queue.pushUsed ram chain.headIndex usedLen with ⟨pushed, published⟩
          simp only [hpush]
          cases pushed with
          | error error => rfl
          | ok =>
            cases hcommit : state.queue.commitChain chain with
            | error error => rfl
            | ok queue =>
              refine ⟨⟨chain.availIndex, chain.headIndex, state.queue.usedIdx ram⟩, ?_⟩
              exact {
                available := (hready.1 rfl).2
                popped := havail
                head := by rw [hhead, havail]
                published := ⟨ram, rfl, VirtQueue.pushUsed_published hpush⟩
                advanced := VirtQueue.commitChain_eq_ok hcommit
                counted := rfl }

/-- The requests that are served one after the other. -/
inductive ServesAll : NotifyState → List Service → NotifyState → Prop
  | nil (state : NotifyState) : ServesAll state [] state
  | cons {state middle after : NotifyState} {service : Service} {rest : List Service}
      (hround : state.round = .served middle) (hserves : state.Serves service middle)
      (hrest : ServesAll middle rest after) : ServesAll state (service :: rest) after

/-- How a loop ends in its last state: it finds the queue drained or fails. -/
def Ends (last : NotifyState) (result : Except String Unit) (after : NotifyState) : Prop :=
  match result with
  | .ok () => last.round = .drained ∧ after = last
  | .error error => last.round = .failed error after

variable {state after : NotifyState}

theorem loop_eq_some {fuel : ℕ} {result : Except String Unit}
    (h : loop fuel state = some (result, after)) :
    ∃ services last, state.ServesAll services last ∧ last.Ends result after := by
  induction fuel generalizing state with
  | zero => cases h
  | succ fuel ih =>
    rw [loop] at h
    have hspec := state.round_spec
    cases hround : state.round with
    | drained =>
      rw [hround] at h
      cases h
      exact ⟨[], after, .nil after, hround, rfl⟩
    | failed error failed =>
      rw [hround] at h
      cases h
      exact ⟨[], _, .nil _, hround⟩
    | served middle =>
      rw [hround] at h hspec
      obtain ⟨services, last, hall, hend⟩ := ih h
      obtain ⟨service, hserves⟩ := hspec
      exact ⟨service :: services, last, .cons hround hserves hall, hend⟩

theorem ServesAll.numbered {services : List Service} (h : state.ServesAll services after) :
    (∀ i (hi : i < services.length),
      services[i].availIndex = state.queue.nextAvailIdx + BitVec.ofNat 16 i) ∧
      after.queue =
        { state.queue with nextAvailIdx :=
          state.queue.nextAvailIdx + BitVec.ofNat 16 services.length } ∧
      after.completed = state.completed + BitVec.ofNat 32 services.length := by
  induction h with
  | nil state => simp
  | cons hround hserves hrest ih =>
    obtain ⟨hnumber, hqueue, hcompleted⟩ := ih
    rw [hserves.advanced] at hnumber hqueue
    rw [hserves.counted] at hcompleted
    refine ⟨?_, ?_, ?_⟩
    · intro i hi
      cases i with
      | zero => simpa using hserves.popped
      | succ i =>
        have hlater := hnumber i (by simpa using hi)
        rw [List.getElem_cons_succ, hlater, Nat.add_comm i 1, ofNat_add, ← add_assoc]
        rfl
    · rw [hqueue, List.length_cons, Nat.add_comm _ 1, ofNat_add, ← add_assoc]
      rfl
    · rw [hcompleted, List.length_cons, Nat.add_comm _ 1, ofNat_add, ← add_assoc]
      rfl

theorem ServesAll.end_unique {state last last' : NotifyState} {services services' : List Service}
    (h : state.ServesAll services last) (h' : state.ServesAll services' last')
    (hlast : ∀ next, last.round ≠ .served next) (hlast' : ∀ next, last'.round ≠ .served next) :
    last = last' ∧ services.length = services'.length := by
  induction h generalizing services' with
  | nil state =>
    cases h' with
    | nil => exact ⟨rfl, rfl⟩
    | cons hround => exact absurd hround (hlast _)
  | cons hround hserves hrest ih =>
    cases h' with
    | nil => exact absurd hround (hlast' _)
    | cons hround' hserves' hrest' =>
      rw [hround, NotifyState.Round.served.injEq] at hround'
      subst hround'
      obtain ⟨hend, hlength⟩ := ih hrest' hlast
      exact ⟨hend, by simp [hlength]⟩

theorem Ends.not_served {last notified : NotifyState} {failure : Except String Unit}
    (h : last.Ends failure notified) : ∀ next, last.round ≠ .served next := by
  intro next hround
  cases failure with
  | error error =>
    have hfailed : last.round = .failed error notified := h
    rw [hround] at hfailed
    cases hfailed
  | ok =>
    have hdrained : last.round = .drained := h.1
    rw [hround] at hdrained
    cases hdrained

end NotifyState

end VisualCpu
