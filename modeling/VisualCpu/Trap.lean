import VisualCpu.Mem.AddressSpace

/-!
# The processor state and its trap controller

`Cpu` gathers the registers, the CSRs, the trap controller's own fields and the
address space. The trap controller raises pending bits from platform events,
chooses the interrupt to service, enters traps and returns from them; the
functions follow `trap.cpp`.
-/

namespace VisualCpu

open Mie

/-- The address and size of an outstanding load reservation. -/
structure Reservation where
  paddr : BitVec 64
  size : ℕ
deriving DecidableEq

structure TrapState where
  /-- The `mip` bit that the last timer event raised. -/
  timerPendingMask : BitVec 64
  reservation : Option Reservation
deriving DecidableEq

structure Cpu (D : Type) where
  core : CoreState
  csr : CsrFile
  trap : TrapState
  addressSpace : AddressSpace D

def causeIntBit : BitVec 64 := 1#64 <<< 63

def isInterruptCause (cause : BitVec 64) : Bool := testMask cause causeIntBit

def interruptCauseCode (cause : BitVec 64) : BitVec 64 := cause &&& ~~~causeIntBit

def trapVectorBase (tvec cause : BitVec 64) : BitVec 64 :=
  if tvec &&& 3 = 1 ∧ isInterruptCause cause then (tvec &&& ~~~3) + 4 * interruptCauseCode cause
  else tvec &&& ~~~3

structure PendingInterrupt where
  (cause mipMask : BitVec 64)
deriving DecidableEq

variable (mode : PrivilegeMode)

variable (mstatus : BitVec 64)

def machineInterruptsEnabled : Bool :=
  match mode with
  | .machine => testMask mstatus Mstatus.mie
  | .supervisor | .user => true

def supervisorInterruptsEnabled : Bool :=
  match mode with
  | .machine => false
  | .supervisor => testMask mstatus Mstatus.sie
  | .user => true

/-- `select_serviceable_interrupt` on the values of the four registers it reads. -/
def selectServiceableInterrupt (mstatus mie mip mideleg : BitVec 64) :
    Option PendingInterrupt :=
  if testMask mie meie && testMask mip meie && machineInterruptsEnabled mode mstatus then
    some ⟨causeIntBit ||| 11, meie⟩
  else if testMask mie mtie && testMask mip mtie && machineInterruptsEnabled mode mstatus
  then some ⟨causeIntBit ||| 7, mtie⟩
  else if testMask mideleg seie && testMask mie seie && testMask mip seie &&
      supervisorInterruptsEnabled mode mstatus then some ⟨causeIntBit ||| 9, seie⟩
  else if testMask mideleg stie && testMask mie stie && testMask mip stie &&
      supervisorInterruptsEnabled mode mstatus then some ⟨causeIntBit ||| 5, stie⟩
  else none

def rangesOverlap (lhsAddr : BitVec 64) (lhsSize : ℕ) (rhsAddr : BitVec 64) (rhsSize : ℕ) : Bool :=
  decide (lhsAddr < rhsAddr + BitVec.ofNat 64 rhsSize ∧ rhsAddr < lhsAddr + BitVec.ofNat 64 lhsSize)

/-- `mstatus` after a trap into supervisor mode from `mode`. -/
def supervisorTrapStatus (mode : PrivilegeMode) : BitVec 64 :=
  let sie : BitVec 64 := if testMask mstatus Mstatus.sie then 1 else 0
  let saved := ((mstatus &&& ~~~Mstatus.spie) ||| (sie <<< 5)) &&& ~~~Mstatus.sie
  if mode = .supervisor then saved ||| Mstatus.spp else saved &&& ~~~Mstatus.spp

/-- `mstatus` after a trap into machine mode from `mode`. -/
def machineTrapStatus (mode : PrivilegeMode) : BitVec 64 :=
  let mie := (mstatus >>> 3) &&& 1
  let saved := ((mstatus &&& ~~~Mstatus.mpie) ||| (mie <<< 7)) &&& ~~~Mstatus.mie
  (saved &&& ~~~Mstatus.mppMask) ||| (mode.encode <<< 11)

namespace Cpu

variable {D : Type}

/-- Change the registers only. -/
def mapCore (cpu : Cpu D) (f : CoreState → CoreState) : Cpu D := { cpu with core := f cpu.core }

def setPc (cpu : Cpu D) (pc : BitVec 64) : Cpu D := cpu.mapCore (·.setPc pc)

/-- `csr_write`: a write to `satp` also flushes the translation buffer. -/
def writeCsr (cpu : Cpu D) (addr : BitVec 12) (value : BitVec 64) : Cpu D :=
  { cpu with
    csr := (cpu.csr.write addr value cpu.core).1
    core := (cpu.csr.write addr value cpu.core).2
    addressSpace := if addr = Csr.satp then cpu.addressSpace.flushTlb else cpu.addressSpace }

def clearReservation (cpu : Cpu D) : Cpu D :=
  { cpu with trap := { cpu.trap with reservation := none } }

def setReservation (cpu : Cpu D) (paddr : BitVec 64) (size : ℕ) : Cpu D :=
  { cpu with trap := { cpu.trap with reservation := some ⟨paddr, size⟩ } }

def reservationMatches (cpu : Cpu D) (paddr : BitVec 64) (size : ℕ) : Bool :=
  cpu.trap.reservation == some ⟨paddr, size⟩

def invalidateReservation (cpu : Cpu D) (paddr : BitVec 64) (size : ℕ) : Cpu D :=
  match cpu.trap.reservation with
  | none => cpu
  | some reservation =>
    if rangesOverlap reservation.paddr reservation.size paddr size
    then cpu.clearReservation else cpu

variable [Devices D] (cpu : Cpu D)

def readCsr (addr : BitVec 12) : BitVec 64 :=
  cpu.csr.read addr cpu.core cpu.addressSpace.bus.mtime

/-- The context of memory accesses made in the current state. -/
def accessContext : AccessContext :=
  ⟨cpu.readCsr Csr.satp, cpu.readCsr Csr.mstatus, cpu.core.privilegeMode⟩

/-- The trap is handled in supervisor mode. -/
def delegatedToSupervisor (cause : BitVec 64) : Bool :=
  cpu.core.privilegeMode != .machine &&
    if isInterruptCause cause then
      testMask (cpu.readCsr Csr.mideleg) (1#64 <<< (interruptCauseCode cause).toNat)
    else testMask (cpu.readCsr Csr.medeleg) (1#64 <<< cause.toNat)

variable (cause tval : BitVec 64)

/-- `enter_trap` for a trap handled in supervisor mode. -/
def enterSupervisorTrap : Cpu D :=
  let status := supervisorTrapStatus (cpu.readCsr Csr.mstatus) cpu.core.privilegeMode
  let cpu := (((cpu.writeCsr Csr.mstatus status).writeCsr Csr.sepc cpu.core.pc).writeCsr
    Csr.scause cause).writeCsr Csr.stval tval
  (cpu.mapCore (·.setPrivilegeMode .supervisor)).setPc
    (trapVectorBase (cpu.readCsr Csr.stvec) cause)

/-- `enter_trap` for a trap handled in machine mode. -/
def enterMachineTrap : Cpu D :=
  let status := machineTrapStatus (cpu.readCsr Csr.mstatus) cpu.core.privilegeMode
  let cpu := (((cpu.writeCsr Csr.mstatus status).writeCsr Csr.mepc cpu.core.pc).writeCsr
    Csr.mcause cause).writeCsr Csr.mtval tval
  (cpu.mapCore (·.setPrivilegeMode .machine)).setPc (trapVectorBase (cpu.readCsr Csr.mtvec) cause)

def enterTrap : Cpu D :=
  if cpu.delegatedToSupervisor cause then cpu.clearReservation.enterSupervisorTrap cause tval
  else cpu.clearReservation.enterMachineTrap cause tval

def enterException (trap : TrapRequest) : Cpu D := cpu.enterTrap trap.cause trap.tval

def enterInterrupt (cause : BitVec 64) : Cpu D := cpu.enterTrap cause 0

def returnFromMret : Cpu D :=
  let mstatus := cpu.readCsr Csr.mstatus
  let mpie := (mstatus >>> 7) &&& 1
  let nextMode := PrivilegeMode.decode ((mstatus &&& Mstatus.mppMask) >>> 11)
  let restored := (((mstatus &&& ~~~Mstatus.mie) ||| (mpie <<< 3)) ||| Mstatus.mpie) &&&
    ~~~Mstatus.mppMask
  let status := if nextMode ≠ .machine then restored &&& ~~~Mstatus.mprv else restored
  let cpu := (cpu.writeCsr Csr.mstatus status).mapCore (·.setPrivilegeMode nextMode)
  cpu.setPc (cpu.readCsr Csr.mepc)

def returnFromSret : Cpu D :=
  let mstatus := cpu.readCsr Csr.mstatus
  let spie : BitVec 64 := if testMask mstatus Mstatus.spie then 1 else 0
  let nextMode := if testMask mstatus Mstatus.spp then PrivilegeMode.supervisor else .user
  let status := ((((mstatus &&& ~~~Mstatus.sie) ||| (spie <<< 1)) ||| Mstatus.spie) &&&
    ~~~Mstatus.spp) &&& ~~~Mstatus.mprv
  let cpu := (cpu.writeCsr Csr.mstatus status).mapCore (·.setPrivilegeMode nextMode)
  cpu.setPc (cpu.readCsr Csr.sepc)

/-- A timer event raises one timer bit and clears the other. -/
def raiseTimerInterrupt : Cpu D :=
  let mip := cpu.readCsr Csr.mip
  if testMask (cpu.readCsr Csr.mideleg) stie then
    let cpu := cpu.writeCsr Csr.mip ((mip ||| stie) &&& ~~~mtie)
    { cpu with trap := { cpu.trap with timerPendingMask := stie } }
  else
    let cpu := cpu.writeCsr Csr.mip ((mip ||| mtie) &&& ~~~stie)
    { cpu with trap := { cpu.trap with timerPendingMask := mtie } }

/-- Withdraw the bit of an earlier timer event. -/
def clearTimerInterrupt : Cpu D :=
  if cpu.trap.timerPendingMask ≠ 0 then
    let cpu' := cpu.writeCsr Csr.mip (cpu.readCsr Csr.mip &&& ~~~cpu.trap.timerPendingMask)
    { cpu' with trap := { cpu'.trap with timerPendingMask := 0 } }
  else cpu

variable (events : PlatformEvents)

def syncExternalInterrupts : Cpu D :=
  let mip := cpu.readCsr Csr.mip
  let mip := if events.machineExternalInterruptPending then mip ||| meie
    else mip &&& ~~~meie
  let mip := if events.supervisorExternalInterruptPending then mip ||| seie
    else mip &&& ~~~seie
  cpu.writeCsr Csr.mip mip

def syncPlatformEvents : Cpu D :=
  (if events.timerInterruptPending then cpu.raiseTimerInterrupt
    else cpu.clearTimerInterrupt).syncExternalInterrupts events

/-- The interrupt that would be serviced in this state. -/
def serviceableInterrupt : Option PendingInterrupt :=
  selectServiceableInterrupt cpu.core.privilegeMode (cpu.readCsr Csr.mstatus)
    (cpu.readCsr Csr.mie) (cpu.readCsr Csr.mip) (cpu.readCsr Csr.mideleg)

def hasServiceableInterrupt : Bool := cpu.serviceableInterrupt.isSome

/-- `service_pending_interrupts`: the state after the trap, when one is taken. -/
def servicePendingInterrupts : Option (Cpu D) :=
  cpu.serviceableInterrupt.map fun pending =>
    (cpu.writeCsr Csr.mip (cpu.readCsr Csr.mip &&& ~~~pending.mipMask)).enterInterrupt pending.cause

def handlePlatformEvents : Cpu D :=
  let cpu := cpu.syncPlatformEvents events
  cpu.servicePendingInterrupts.getD cpu

def tickBus : PlatformEvents × Cpu D :=
  let (events, bus) := cpu.addressSpace.bus.tick
  (events, { cpu with addressSpace := { cpu.addressSpace with bus } })

end Cpu

end VisualCpu
