import Mathlib.Data.Fintype.Basic
import VisualCpu.Library.IndexTypes

/-!
# Register renaming

`RenameMap` keeps an architectural and a speculative map from the integer
registers to physical register numbers, a free list for each, and the next
number never used. Physical register numbers are 32-bit in the source, so the
allocation counter wraps.
-/

namespace VisualCpu

structure RenameCheckpoint where
  speculativeMap : Fin 32 → ℕ
  freeList : List ℕ
  nextPhys : ℕ

structure RenameDestResult where
  (phys previousPhys : ℕ)
deriving DecidableEq

structure RenameMap where
  architecturalMap : Fin 32 → ℕ
  speculativeMap : Fin 32 → ℕ
  /-- Free lists are stacks: the last element is taken first. -/
  (committedFreeList speculativeFreeList : List ℕ)
  nextPhys : ℕ

namespace RenameMap

/-- The map of a fresh pipeline: every register to the number it has. -/
def init : RenameMap := ⟨fun i => i, fun i => i, [], [], 32⟩

/-- Successor of a physical register number, as a 32-bit counter. -/
def succPhys (phys : ℕ) : ℕ := (phys + 1) % 2 ^ 32

def recyclePhys (phys : ℕ) (freeList : List ℕ) : List ℕ :=
  if phys = 0 then freeList else if phys ∈ freeList then freeList else freeList ++ [phys]

def removeFromFreeList (phys : ℕ) (freeList : List ℕ) : List ℕ := freeList.filter (· ≠ phys)

/-- The bound after one more register number. -/
def raiseNextPhys (nextPhys phys : ℕ) : ℕ := if nextPhys ≤ phys then succPhys phys else nextPhys

/-- `committed_next_phys`: one more than every number in use, and at least 32. -/
def committedNextPhys (map : Fin 32 → ℕ) (freeList : List ℕ) : ℕ :=
  freeList.foldl raiseNextPhys (((List.finRange 32).map map).foldl raiseNextPhys 32)

variable (m : RenameMap)

def committedCheckpoint : RenameCheckpoint where
  speculativeMap := m.architecturalMap
  freeList := m.committedFreeList
  nextPhys := committedNextPhys m.architecturalMap m.committedFreeList

variable (arch : Fin 32)

def mapSource : ℕ := m.speculativeMap arch

def architecturalSource : ℕ := m.architecturalMap arch

/-- Allocate a destination: the top of the free list, or a new number. -/
def renameDest : RenameDestResult × RenameMap :=
  if arch = 0 then (⟨0, 0⟩, m)
  else
    match m.speculativeFreeList.getLast? with
    | some phys =>
      (⟨phys, m.speculativeMap arch⟩,
        { m with
          speculativeFreeList := m.speculativeFreeList.dropLast
          speculativeMap := Function.update m.speculativeMap arch phys })
    | none =>
      (⟨m.nextPhys, m.speculativeMap arch⟩,
        { m with
          nextPhys := succPhys m.nextPhys
          speculativeMap := Function.update m.speculativeMap arch m.nextPhys })

/-- Make `phys` the architectural register of `arch`, and recycle the one it
replaces. The recycled number is returned, zero for none. -/
def commitDest (phys : ℕ) : ℕ × RenameMap :=
  if arch = 0 then (0, m)
  else
    let previous := m.architecturalMap arch
    let committed := removeFromFreeList phys m.committedFreeList
    let speculative := removeFromFreeList phys m.speculativeFreeList
    let map := Function.update m.architecturalMap arch phys
    if previous ≠ 0 ∧ previous ≠ phys then
      (previous,
        { m with
          architecturalMap := map
          committedFreeList := recyclePhys previous committed
          speculativeFreeList := recyclePhys previous speculative })
    else
      (0,
        { m with
          architecturalMap := map
          committedFreeList := committed
          speculativeFreeList := speculative })

def rollback (checkpoint : RenameCheckpoint) : RenameMap :=
  { m with
    speculativeMap := checkpoint.speculativeMap
    speculativeFreeList := checkpoint.freeList
    nextPhys := checkpoint.nextPhys }

end RenameMap

end VisualCpu
