import VisualCpu.Isa.Decode

/-!
# Architectural register state

`CoreState` holds the registers a program sees apart from the CSRs. Register
numbers wrap at 32, as the masks in `core_state.cpp` do, and `x0` is never
written.
-/

namespace VisualCpu

inductive PrivilegeMode where
  | user | supervisor | machine
deriving DecidableEq

def PrivilegeMode.encode : PrivilegeMode → BitVec 64
  | .user => 0
  | .supervisor => 1
  | .machine => 3

def PrivilegeMode.decode (encoded : BitVec 64) : PrivilegeMode :=
  match (encoded &&& 3).toNat with
  | 0 => .user
  | 1 => .supervisor
  | 3 => .machine
  | _ => .user

namespace VectorState

def isValidSewBytes (sewBytes : ℕ) : Bool :=
  sewBytes == 1 || sewBytes == 2 || sewBytes == 4 || sewBytes == 8

def maxVlForSew (sewBytes : ℕ) : ℕ := if isValidSewBytes sewBytes then 16 / sewBytes else 0

def isValidConfig (sewBytes vl : ℕ) (allowZeroVl : Bool) : Bool :=
  if maxVlForSew sewBytes = 0 then false
  else if allowZeroVl ∧ vl = 0 then true
  else decide (1 ≤ vl ∧ vl ≤ maxVlForSew sewBytes)

end VectorState

structure VectorState where
  regs : Fin 32 → VectorReg
  (sewBytes vl : ℕ)

namespace VectorState

def reset : VectorState := ⟨fun _ => Vector.replicate 16 0, 1, 0⟩

def readReg (v : VectorState) (idx : ℕ) : VectorReg := v.regs (Fin.ofNat 32 idx)

def writeReg (v : VectorState) (idx : ℕ) (value : VectorReg) : VectorState :=
  { v with regs := Function.update v.regs (Fin.ofNat 32 idx) value }

/-- Install a configuration, or refuse an invalid one. -/
def setConfig (v : VectorState) (sewBytes vl : ℕ) : Option VectorState :=
  if isValidConfig sewBytes vl false then some { v with sewBytes, vl } else none

end VectorState

structure CoreState where
  gpr : Fin 32 → BitVec 64
  fpr : Fin 32 → BitVec 64
  (pc cycle instret : BitVec 64)
  vector : VectorState
  halted : Bool
  privilegeMode : PrivilegeMode

namespace CoreState

def reset (entry : BitVec 64) : CoreState where
  gpr := fun _ => 0
  fpr := fun _ => 0
  pc := entry
  cycle := 0
  instret := 0
  vector := VectorState.reset
  halted := false
  privilegeMode := .machine

variable (core : CoreState)

def readGpr (idx : ℕ) : BitVec 64 := core.gpr (Fin.ofNat 32 idx)

def writeGpr (idx : ℕ) (value : BitVec 64) : CoreState :=
  if Fin.ofNat 32 idx ≠ 0 then
    { core with gpr := Function.update core.gpr (Fin.ofNat 32 idx) value }
  else core

def readFpr (idx : ℕ) : BitVec 64 := core.fpr (Fin.ofNat 32 idx)

def writeFpr (idx : ℕ) (value : BitVec 64) : CoreState :=
  { core with fpr := Function.update core.fpr (Fin.ofNat 32 idx) value }

def setPc (pc : BitVec 64) : CoreState := { core with pc }

def advanceCycle : CoreState := { core with cycle := core.cycle + 1 }

def advanceInstret : CoreState := { core with instret := core.instret + 1 }

def setPrivilegeMode (mode : PrivilegeMode) : CoreState := { core with privilegeMode := mode }

end CoreState

end VisualCpu
