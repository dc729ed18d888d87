import VisualCpu.Devices.Plic
import VisualCpu.Devices.VirtioBlk

/-!
# The transport of the block device

`VirtioMmio::store` with the interrupt status and the line to the interrupt controller,
and the runs of a guest that changes its memory and accesses the two devices. Every entry
of the available ring is served once and in order; a notify that fails after it has served
a chain leaves without raising the interrupt.
-/

namespace VisualCpu

open List

def virtioMmioBase : BitVec 64 := 0x10001000
def virtioMmioInterruptUsedBuffer : BitVec 32 := 0x1

/-- `VIRTIO_MMIO_PLIC_SOURCE`. -/
def virtioMmioPlicSource : BitVec 32 := 1

def virtioMmioConfigSpaceOffset : BitVec 32 := 0x100

/-- The registers that can be stored to. -/
inductive VirtioMmioReg where
  | deviceFeaturesSel | driverFeaturesSel | driverFeatures | queueSel | queueNum | queueReady
  | queueNotify | interruptAck | status | queueDescLow | queueDescHigh | queueDriverLow
  | queueDriverHigh | queueDeviceLow | queueDeviceHigh
deriving DecidableEq

namespace VirtioMmioReg

def offset : VirtioMmioReg → BitVec 32
  | deviceFeaturesSel => 0x014
  | driverFeatures => 0x020
  | driverFeaturesSel => 0x024
  | queueSel => 0x030
  | queueNum => 0x038
  | queueReady => 0x044
  | queueNotify => 0x050
  | interruptAck => 0x064
  | status => 0x070
  | queueDescLow => 0x080
  | queueDescHigh => 0x084
  | queueDriverLow => 0x090
  | queueDriverHigh => 0x094
  | queueDeviceLow => 0x0a0
  | queueDeviceHigh => 0x0a4

def all : List VirtioMmioReg :=
  [deviceFeaturesSel, driverFeaturesSel, driverFeatures, queueSel, queueNum, queueReady,
    queueNotify, interruptAck, status, queueDescLow, queueDescHigh, queueDriverLow,
    queueDriverHigh, queueDeviceLow, queueDeviceHigh]

def ofOffset (offset : BitVec 32) : Option VirtioMmioReg :=
  all.find? fun reg => reg.offset == offset

end VirtioMmioReg

structure VirtioMmio where
  blk : VirtioBlk
  queues : List VirtQueue := [{ maxSize := virtioBlkQueueSize }]
  deviceFeaturesSel : BitVec 32 := 0
  driverFeaturesSel : BitVec 32 := 0
  driverFeatures : BitVec 64 := 0
  queueSel : BitVec 32 := 0
  interruptStatus : BitVec 32 := 0
  status : BitVec 32 := 0

/-- The block device with what it is wired to: the interrupt controller and RAM. -/
structure VirtioSystem where
  mmio : VirtioMmio
  plic : Plic
  ram : Ram

namespace VirtioSystem

variable (system : VirtioSystem)

def updateInterruptLine : VirtioSystem :=
  { system with
    plic := system.plic.setSourceLevel virtioMmioPlicSource (system.mmio.interruptStatus != 0) }

def updateSelectedQueue (update : VirtQueue → VirtQueue) : VirtioSystem :=
  let queues := system.mmio.queues.modify system.mmio.queueSel.toNat update
  { system with mmio := { system.mmio with queues } }

def writeLow (current : BitVec 64) (value : BitVec 32) : BitVec 64 :=
  current &&& 0xffffffff00000000 ||| value.setWidth 64

def writeHigh (current : BitVec 64) (value : BitVec 32) : BitVec 64 :=
  current &&& 0xffffffff ||| value.setWidth 64 <<< 32

def resetTransport : VirtioSystem :=
  updateInterruptLine { system with
    mmio := { system.mmio with
      deviceFeaturesSel := 0
      driverFeaturesSel := 0
      driverFeatures := 0
      queueSel := 0
      interruptStatus := 0
      queues := system.mmio.queues.map VirtQueue.reset } }

def afterNotify (index : ℕ) (result : Except String Unit) (notified : NotifyState) :
    VirtioSystem :=
  let mmio := { system.mmio with
    blk := notified.blk
    queues := system.mmio.queues.set index notified.queue }
  let system := { system with mmio, ram := notified.ram }
  match result with
  | .error _ => system
  | .ok () =>
    if notified.completed = 0 then system
    else
      updateInterruptLine { system with
        mmio := { mmio with
          interruptStatus := mmio.interruptStatus ||| virtioMmioInterruptUsedBuffer } }

/-- The store to `QUEUE_NOTIFY`; it has no result when the loop of the device does not
end within the fuel. -/
def notify (fuel : ℕ) (queueIndex : BitVec 32) : Option (Except String Unit × VirtioSystem) :=
  match system.mmio.queues[queueIndex.toNat]? with
  | none => some (.ok (), system)
  | some queue =>
    match system.mmio.blk.notifyQueue fuel system.ram queueIndex queue with
    | none => none
    | some (result, notified) =>
      let result :=
        match result with
        | .ok () => .ok ()
        | .error error =>
          .error (if error = "" then "virtio-mmio queue notify failed" else error)
      some (result, system.afterNotify queueIndex.toNat result notified)

/-- The store to a register other than `QUEUE_NOTIFY`. -/
def storeReg (reg : VirtioMmioReg) (value : BitVec 32) (nonzero : Bool) : VirtioSystem :=
  match reg with
  | .deviceFeaturesSel => { system with mmio := { system.mmio with deviceFeaturesSel := value } }
  | .driverFeaturesSel => { system with mmio := { system.mmio with driverFeaturesSel := value } }
  | .driverFeatures =>
    let features := system.mmio.driverFeatures
    let driverFeatures :=
      if system.mmio.driverFeaturesSel &&& 1 = 0 then writeLow features value
      else writeHigh features value
    { system with mmio := { system.mmio with driverFeatures } }
  | .queueSel => { system with mmio := { system.mmio with queueSel := value } }
  | .queueNum => system.updateSelectedQueue fun queue => queue.setSize (value.setWidth 16)
  | .queueReady => system.updateSelectedQueue fun queue => queue.setReady nonzero
  | .queueNotify => system
  | .interruptAck =>
    let interruptStatus := system.mmio.interruptStatus &&& ~~~value
    updateInterruptLine { system with mmio := { system.mmio with interruptStatus } }
  | .status =>
    let status := value &&& 0xff
    let system := { system with mmio := { system.mmio with status } }
    if status = 0 then system.resetTransport else system
  | .queueDescLow => system.updateSelectedQueue fun queue =>
      { queue with descAddr := writeLow queue.descAddr value }
  | .queueDescHigh => system.updateSelectedQueue fun queue =>
      { queue with descAddr := writeHigh queue.descAddr value }
  | .queueDriverLow => system.updateSelectedQueue fun queue =>
      { queue with availAddr := writeLow queue.availAddr value }
  | .queueDriverHigh => system.updateSelectedQueue fun queue =>
      { queue with availAddr := writeHigh queue.availAddr value }
  | .queueDeviceLow => system.updateSelectedQueue fun queue =>
      { queue with usedAddr := writeLow queue.usedAddr value }
  | .queueDeviceHigh => system.updateSelectedQueue fun queue =>
      { queue with usedAddr := writeHigh queue.usedAddr value }

/-- `VirtioMmio::store`. The configuration space of the device cannot be written. -/
def store (fuel : ℕ) (addr value : BitVec 64) (size : ℕ) :
    Option (Except String Unit × VirtioSystem) :=
  let offset := (addr - virtioMmioBase).setWidth 32
  if virtioMmioConfigSpaceOffset ≤ offset ∨ size ≠ 4 then
    some (.error "invalid MMIO access", system)
  else
    match VirtioMmioReg.ofOffset offset with
    | none => some (.error "invalid MMIO access", system)
    | some .queueNotify => system.notify fuel (value.setWidth 32)
    | some reg => some (.ok (), system.storeReg reg (value.setWidth 32) (value != 0))

def queue : VirtQueue := system.mmio.queues.headD { maxSize := virtioBlkQueueSize }

def notifyState : NotifyState :=
  { blk := system.mmio.blk, ram := system.ram, queue := system.queue, completed := 0 }

/-- A notify of the queue has served some requests and has ended. -/
structure Notified (services : List Service) (result : Except String Unit)
    (after : VirtioSystem) : Prop where
  ended : ∃ last failure notified, system.notifyState.ServesAll services last ∧
    last.Ends failure notified ∧ (result = .ok () ↔ failure = .ok ()) ∧
    after = system.afterNotify 0 failure notified

/-- The states that a guest reaches by changing its memory in any way and by accessing the
registers of the two devices, each with the requests served since the queue was last
started. -/
inductive Reaches : VirtioSystem → List Service → Prop
  | start (blk : VirtioBlk) (ram : Ram) : Reaches { mmio := { blk }, plic := Plic.reset, ram } []
  | memory {system : VirtioSystem} {log : List Service} (h : Reaches system log) (ram : Ram) :
      Reaches { system with ram } log
  | plicLoad {system : VirtioSystem} {log : List Service} (h : Reaches system log)
      (addr : BitVec 64) (size : ℕ) :
      Reaches { system with plic := (PlicOp.load addr size).run system.plic } log
  | plicStore {system : VirtioSystem} {log : List Service} (h : Reaches system log)
      (addr value : BitVec 64) (size : ℕ) :
      Reaches { system with plic := (PlicOp.store addr value size).run system.plic } log
  | register {system : VirtioSystem} {log : List Service} (h : Reaches system log)
      (reg : VirtioMmioReg) (value : BitVec 32) (nonzero : Bool) :
      Reaches (system.storeReg reg value nonzero)
        (if (system.storeReg reg value nonzero).queue.nextAvailIdx = system.queue.nextAvailIdx
          then log else [])
  | notify {system after : VirtioSystem} {log services : List Service}
      {result : Except String Unit} (h : Reaches system log)
      (hnotified : system.Notified services result after) : Reaches after (log ++ services)

def usedBuffer : Bool := system.mmio.interruptStatus.getLsbD 0

/-- The interrupt of a used buffer: the bit of the status and the line. -/
def Signalled : Prop := system.usedBuffer ∧ system.plic.levels 1

/-- The condition on the state before a notify: the interrupt is raised already, or the
rounds from this state do not fail after a request has been served, and they do not end
after a multiple of 2^32 requests. -/
def EndsWell : Prop :=
  system.usedBuffer ∨
    ∀ services last, system.notifyState.ServesAll services last → services ≠ [] →
      (∀ error after, last.round ≠ .failed error after) ∧
        (last.round = .drained → services.length % 2 ^ 32 ≠ 0)

variable {system}

/-- What holds in every state that is reached. -/
structure Invariant (system : VirtioSystem) (log : List Service) : Prop where
  single : system.mmio.queues = [system.queue]
  next : system.queue.nextAvailIdx = BitVec.ofNat 16 log.length
  numbered : ∀ i (hi : i < log.length), log[i].availIndex = BitVec.ofNat 16 i
  line : system.plic.levels 1 = (system.mmio.interruptStatus != 0)

theorem levels_updateInterruptLine (system : VirtioSystem) :
    system.updateInterruptLine.plic.levels 1 = (system.mmio.interruptStatus != 0) := by
  have hsource : Plic.source virtioMmioPlicSource = some 1 := by decide
  simp [updateInterruptLine, Plic.setSourceLevel, hsource]

@[simp] theorem mmio_updateInterruptLine (system : VirtioSystem) :
    system.updateInterruptLine.mmio = system.mmio := rfl

/-- An update of a queue moves the next index nowhere or back to the start. -/
def KeepsNext (update : VirtQueue → VirtQueue) : Prop :=
  ∀ queue, (update queue).nextAvailIdx = queue.nextAvailIdx ∨ (update queue).nextAvailIdx = 0

/-- What a register store may do to the queue and the line. -/
structure Restarts (system after : VirtioSystem) : Prop where
  single : after.mmio.queues = [after.queue]
  next : after.queue.nextAvailIdx = system.queue.nextAvailIdx ∨ after.queue.nextAvailIdx = 0
  line : after.plic.levels 1 = (after.mmio.interruptStatus != 0)

variable {after : VirtioSystem}

theorem Restarts.of_queues (hqueues : after.mmio.queues = system.mmio.queues)
    (hsingle : system.mmio.queues = [system.queue])
    (hline : after.plic.levels 1 = (after.mmio.interruptStatus != 0)) :
    system.Restarts after where
  single := by
    have hqueue : after.queue = system.queue := by rw [queue, queue, hqueues]
    rw [hqueues, hqueue, ← hsingle]
  next := by
    have hqueue : after.queue = system.queue := by rw [queue, queue, hqueues]
    exact .inl (by rw [hqueue])
  line := hline

theorem Restarts.updateSelectedQueue (hsingle : system.mmio.queues = [system.queue])
    (hline : system.plic.levels 1 = (system.mmio.interruptStatus != 0))
    {update : VirtQueue → VirtQueue} (hkeeps : KeepsNext update) :
    system.Restarts (system.updateSelectedQueue update) := by
  have hqueues : (system.updateSelectedQueue update).mmio.queues =
      if system.mmio.queueSel.toNat = 0 then [update system.queue] else [system.queue] := by
    unfold VirtioSystem.updateSelectedQueue
    rw [hsingle]
    cases system.mmio.queueSel.toNat <;> simp
  by_cases hsel : system.mmio.queueSel.toNat = 0
  · rw [if_pos hsel] at hqueues
    have hqueue : (system.updateSelectedQueue update).queue = update system.queue := by
      rw [queue, hqueues, headD_cons]
    exact ⟨by rw [hqueue, hqueues], by rw [hqueue]; exact hkeeps _, hline⟩
  · rw [if_neg hsel, ← hsingle] at hqueues
    exact .of_queues hqueues hsingle hline

theorem keepsNext_setSize (size : BitVec 16) : KeepsNext fun queue => queue.setSize size := by
  intro queue
  unfold VirtQueue.setSize
  dsimp only
  split_ifs
  · exact .inl rfl
  · exact .inr rfl

theorem keepsNext_setReady (ready : Bool) : KeepsNext fun queue => queue.setReady ready := by
  intro queue
  unfold VirtQueue.setReady
  split_ifs
  · exact .inl rfl
  · exact .inr rfl

theorem restarts_resetTransport (hsingle : system.mmio.queues = [system.queue]) :
    system.Restarts system.resetTransport := by
  have hqueues : system.resetTransport.mmio.queues = [system.queue.reset] := by
    simp [resetTransport, hsingle]
  have hqueue : system.resetTransport.queue = system.queue.reset := by
    rw [queue, hqueues, headD_cons]
  exact ⟨by rw [hqueue, hqueues], .inr (by rw [hqueue]; rfl), levels_updateInterruptLine _⟩

theorem restarts_storeReg (hsingle : system.mmio.queues = [system.queue])
    (hline : system.plic.levels 1 = (system.mmio.interruptStatus != 0)) (reg : VirtioMmioReg)
    (value : BitVec 32) (nonzero : Bool) : system.Restarts (system.storeReg reg value nonzero) := by
  cases reg with
  | deviceFeaturesSel => exact .of_queues rfl hsingle hline
  | driverFeaturesSel => exact .of_queues rfl hsingle hline
  | driverFeatures => exact .of_queues rfl hsingle hline
  | queueSel => exact .of_queues rfl hsingle hline
  | queueNotify => exact .of_queues rfl hsingle hline
  | queueNum => exact .updateSelectedQueue hsingle hline (keepsNext_setSize _)
  | queueReady => exact .updateSelectedQueue hsingle hline (keepsNext_setReady _)
  | interruptAck => exact .of_queues rfl hsingle (levels_updateInterruptLine _)
  | status =>
    unfold storeReg
    dsimp only
    split_ifs
    · have hreset := restarts_resetTransport hsingle
      exact ⟨hreset.single, hreset.next, hreset.line⟩
    · exact .of_queues rfl hsingle hline
  | queueDescLow => exact .updateSelectedQueue hsingle hline fun _ => .inl rfl
  | queueDescHigh => exact .updateSelectedQueue hsingle hline fun _ => .inl rfl
  | queueDriverLow => exact .updateSelectedQueue hsingle hline fun _ => .inl rfl
  | queueDriverHigh => exact .updateSelectedQueue hsingle hline fun _ => .inl rfl
  | queueDeviceLow => exact .updateSelectedQueue hsingle hline fun _ => .inl rfl
  | queueDeviceHigh => exact .updateSelectedQueue hsingle hline fun _ => .inl rfl

theorem usedBuffer_ne_zero (h : system.usedBuffer) : system.mmio.interruptStatus ≠ 0 := by
  intro hzero
  simp [usedBuffer, hzero] at h

variable (failure : Except String Unit) (notified : NotifyState)

theorem afterNotify_queues (hsingle : system.mmio.queues = [system.queue]) :
    (system.afterNotify 0 failure notified).mmio.queues = [notified.queue] := by
  unfold afterNotify
  cases failure with
  | error error => simp [hsingle]
  | ok =>
    split_ifs <;> simp [hsingle]

theorem afterNotify_line (hline : system.plic.levels 1 = (system.mmio.interruptStatus != 0)) :
    (system.afterNotify 0 failure notified).plic.levels 1 =
      ((system.afterNotify 0 failure notified).mmio.interruptStatus != 0) := by
  unfold afterNotify
  cases failure with
  | error error => exact hline
  | ok =>
    split_ifs
    · exact hline
    · exact levels_updateInterruptLine _

/-- The bit is set when it was set before, or requests were counted and none failed. -/
theorem afterNotify_usedBuffer : (system.afterNotify 0 failure notified).usedBuffer ↔
      system.usedBuffer ∨ failure = .ok () ∧ notified.completed ≠ 0 := by
  unfold afterNotify
  cases failure with
  | error error => simp [usedBuffer]
  | ok =>
    split_ifs with hzero
    · simp [usedBuffer, hzero]
    have hne : ¬notified.completed = 0#32 := hzero
    simp [usedBuffer, hne, virtioMmioInterruptUsedBuffer]

theorem Notified.numbered {services : List Service} {last notified : NotifyState}
    {failure : Except String Unit} (hall : system.notifyState.ServesAll services last)
    (hend : last.Ends failure notified) :
    notified.queue.nextAvailIdx = system.queue.nextAvailIdx + BitVec.ofNat 16 services.length ∧
      (failure = .ok () → notified.completed = BitVec.ofNat 32 services.length) := by
  obtain ⟨-, hqueue, hcompleted⟩ := hall.numbered
  cases failure with
  | error error =>
    have hspec := last.round_spec
    rw [show last.round = .failed error notified from hend] at hspec
    have hsame : notified.queue = last.queue := hspec
    rw [hsame, hqueue]
    exact ⟨rfl, fun hok => by cases hok⟩
  | ok =>
    obtain ⟨-, rfl⟩ := hend
    rw [hqueue]
    exact ⟨rfl, fun _ => by simpa [notifyState] using hcompleted⟩

variable {result : Except String Unit}

theorem Invariant.notify {log services : List Service} (h : system.Invariant log)
    (hnotified : system.Notified services result after) :
    after.Invariant (log ++ services) := by
  obtain ⟨last, failure, notified, hall, hend, -, rfl⟩ := hnotified.ended
  obtain ⟨hnext, -⟩ := Notified.numbered hall hend
  have hqueues := afterNotify_queues failure notified h.single
  have hqueue : (system.afterNotify 0 failure notified).queue = notified.queue := by
    rw [queue, hqueues, headD_cons]
  refine ⟨by rw [hqueue, hqueues], ?_, ?_, afterNotify_line _ _ h.line⟩
  · rw [hqueue, hnext, h.next, length_append, BitVec.ofNat_add]
  intro i hi
  by_cases hlog : i < log.length
  · rw [getElem_append_left hlog, h.numbered i hlog]
  have hservice := hall.numbered.1 (i - log.length) (by
    rw [length_append] at hi
    omega)
  rw [getElem_append_right (by omega), hservice]
  have hstart : system.notifyState.queue.nextAvailIdx = BitVec.ofNat 16 log.length := h.next
  rw [hstart, ← BitVec.ofNat_add]
  congr 1
  omega

variable {log : List Service}

theorem Reaches.invariant (h : Reaches system log) : system.Invariant log := by
  induction h with
  | start blk ram => exact ⟨rfl, rfl, by simp, rfl⟩
  | memory h ram ih => exact ⟨ih.single, ih.next, ih.numbered, ih.line⟩
  | @plicLoad system log h addr size ih =>
    refine ⟨ih.single, ih.next, ih.numbered, ?_⟩
    rw [Plic.levels_run (by simp)]
    exact ih.line
  | @plicStore system log h addr value size ih =>
    refine ⟨ih.single, ih.next, ih.numbered, ?_⟩
    rw [Plic.levels_run (by simp)]
    exact ih.line
  | @register system log h reg value nonzero ih =>
    have hrestarts := restarts_storeReg ih.single ih.line reg value nonzero
    split_ifs with hsame
    · exact ⟨hrestarts.single, hsame.trans ih.next, ih.numbered, hrestarts.line⟩
    · exact ⟨hrestarts.single, hrestarts.next.resolve_left hsame, by simp, hrestarts.line⟩
  | notify h hnotified ih => exact ih.notify hnotified

theorem signalled_iff {log services : List Service} {last notified : NotifyState}
    {failure : Except String Unit} (hreaches : Reaches system log)
    (hall : system.notifyState.ServesAll services last) (hend : last.Ends failure notified) :
    (services ≠ [] → (system.afterNotify 0 failure notified).Signalled) ↔ system.EndsWell := by
  have hline := afterNotify_line failure notified hreaches.invariant.line
  have hsignalled : (system.afterNotify 0 failure notified).Signalled ↔
      system.usedBuffer ∨ failure = .ok () ∧ notified.completed ≠ 0 := by
    rw [← afterNotify_usedBuffer]
    constructor
    · exact fun h => h.1
    intro h
    exact ⟨h, by rw [hline]; simpa using usedBuffer_ne_zero h⟩
  have hcount := (Notified.numbered hall hend).2
  have hzero : BitVec.ofNat 32 services.length = 0 ↔ services.length % 2 ^ 32 = 0 := by
    rw [← BitVec.toNat_inj]
    simp
  rw [hsignalled, EndsWell]
  constructor
  · intro h
    by_cases hbuffer : system.usedBuffer
    · exact .inl hbuffer
    right
    intro services' last' hall' hne
    have hwell : ∀ (_ : ∀ next, last'.round ≠ .served next),
        last = last' ∧ services.length = services'.length :=
      fun hstop => hall.end_unique hall' (hend.not_served) hstop
    have hraised : services'.length = services.length →
        failure = .ok () ∧ notified.completed ≠ 0 := by
      intro hlength
      have hservices : services ≠ [] := by
        intro hnil
        rw [hnil, length_nil] at hlength
        exact hne (eq_nil_of_length_eq_zero hlength)
      exact (h hservices).resolve_left hbuffer
    constructor
    · intro error after hfailed
      obtain ⟨hsame, hlength⟩ := hwell fun next hserved => by
        rw [hserved] at hfailed
        cases hfailed
      obtain ⟨hok, -⟩ := hraised hlength.symm
      rw [hok, hsame] at hend
      rw [hend.1] at hfailed
      cases hfailed
    · intro hdrained
      obtain ⟨-, hlength⟩ := hwell fun next hserved => by
        rw [hserved] at hdrained
        cases hdrained
      obtain ⟨hok, hne'⟩ := hraised hlength.symm
      rw [hcount hok, Ne, hzero, hlength] at hne'
      exact hne'
  · rintro (hbuffer | hwell) hne
    · exact .inl hbuffer
    obtain ⟨hfails, hwraps⟩ := hwell services last hall hne
    cases failure with
    | error error => exact absurd hend (hfails _ _)
    | ok =>
      refine .inr ⟨rfl, ?_⟩
      rw [hcount rfl, Ne, hzero]
      exact hwraps hend.1

def queueNotifyAddr : BitVec 64 := virtioMmioBase + 0x050

theorem store_queueNotify (fuel : ℕ) (value : BitVec 64) :
    system.store fuel queueNotifyAddr value 4 = system.notify fuel (value.setWidth 32) := by
  have hoffset : (queueNotifyAddr - virtioMmioBase).setWidth 32 = (0x050 : BitVec 32) := by decide
  have hreg : VirtioMmioReg.ofOffset 0x050 = some .queueNotify := by decide
  unfold store
  rw [hoffset]
  dsimp only
  rw [hreg, if_neg (by decide)]

/-- What a notify has done with the entries of the available ring, after the requests of the
log: each was served once and in order, and none is left when it ends without an error. -/
structure ServesInOrder (system : VirtioSystem) (log services : List Service)
    (result : Except String Unit) (after : VirtioSystem) : Prop where
  each : ∃ last, system.notifyState.ServesAll services last ∧
    (result = .ok () → after.queue = last.queue ∧ after.ram = last.ram)
  once : ∀ i (hi : i < (log ++ services).length),
    (log ++ services)[i].availIndex = BitVec.ofNat 16 i
  next : after.queue.nextAvailIdx = BitVec.ofNat 16 (log ++ services).length
  drained : result = .ok () → after.queue.configured →
    after.queue.availIdx after.ram = after.queue.nextAvailIdx

theorem notify_zero {fuel : ℕ} (hsingle : system.mmio.queues = [system.queue])
    (h : system.notify fuel 0 = some (result, after)) :
    ∃ services, system.Notified services result after := by
  have hselect : system.mmio.queues[(0 : BitVec 32).toNat]? = some system.queue := by
    rw [hsingle]
    rfl
  unfold notify at h
  rw [hselect] at h
  dsimp only at h
  cases hloop : VirtioBlk.notifyQueue fuel system.mmio.blk system.ram 0 system.queue with
  | none =>
    rw [hloop] at h
    cases h
  | some ended =>
    obtain ⟨failure, notified⟩ := ended
    have hend : NotifyState.loop fuel system.notifyState = some (failure, notified) := hloop
    obtain ⟨services, last, hall, hends⟩ := NotifyState.loop_eq_some hend
    rw [hloop] at h
    cases failure with
    | error error =>
      cases h
      exact ⟨services, ⟨last, .error error, notified, hall, hends, by simp, rfl⟩⟩
    | ok =>
      cases h
      exact ⟨services, ⟨last, .ok (), notified, hall, hends, by simp, rfl⟩⟩

/-- The guest memory of two requests: the chain of the first has a header and a status
byte, that of the second is the header alone. -/
def failingBatchRam : Ram := fun a =>
  let bytes : List (ℕ × BitVec 8) :=
    [(0x1001, 0x40), (0x1003, 0x80), (0x1008, 16), (0x100c, 1), (0x100e, 1),
      (0x1011, 0x50), (0x1013, 0x80), (0x1018, 1), (0x101c, 2),
      (0x1021, 0x40), (0x1023, 0x80), (0x1028, 16),
      (0x2002, 2), (0x2006, 2)]
  (bytes.lookup (a.toNat - memBase.toNat)).getD 0

def driverSetup : List (VirtioMmioReg × BitVec 32) :=
  [(.queueNum, 8), (.queueDescLow, 0x80001000), (.queueDriverLow, 0x80002000),
    (.queueDeviceLow, 0x80003000), (.queueReady, 1)]

def failingBatch : VirtioSystem :=
  driverSetup.foldl (fun system reg => system.storeReg reg.1 reg.2 (reg.2 != 0))
    { mmio := { blk := {} }, plic := Plic.reset, ram := failingBatchRam }

theorem Reaches.registers (h : Reaches system log) (regs : List (VirtioMmioReg × BitVec 32)) :
    ∃ log', Reaches
      (regs.foldl (fun system reg => system.storeReg reg.1 reg.2 (reg.2 != 0)) system) log' := by
  induction regs generalizing system log with
  | nil => exact ⟨log, h⟩
  | cons reg rest ih => exact ih (h.register reg.1 reg.2 _)

theorem reaches_failingBatch : ∃ log, Reaches failingBatch log :=
  (Reaches.start {} failingBatchRam).registers driverSetup

end VirtioSystem

end VisualCpu
