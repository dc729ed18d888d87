import Mathlib.Data.Fintype.Card
import VisualCpu.Kernel.LinuxDescriptors

/-!
# The open counts of the overlay

A node counts the open descriptors that point to it, and it is used while it has a link or such
a descriptor. Each part of a call that moves a descriptor or a link keeps this, when it moves
the count along.
-/

namespace VisualCpu

open Function LinuxCompat Finset

/-- The overlay node of a descriptor, if it is open on one. -/
def LinuxFd.target (fd : LinuxFd) : Option OverlaySlot :=
  match fd.isOpen, fd.node with
  | true, some (.overlay i) => some i
  | _, _ => none

def LinuxRuntime.descriptorsOf (runtime : LinuxRuntime) (i : OverlaySlot) : Finset LinuxFdSlot :=
  univ.filter fun slot => (runtime.fds slot).target = some i

/-- The node counts its descriptors, and is used while it has a link or one of them. -/
structure NodeCounted (node : LinuxOverlayNode) (descriptors : Finset LinuxFdSlot) : Prop where
  counts : node.used → node.openCount = BitVec.ofNat 32 descriptors.card
  linked : node.used ↔ node.nlink ≠ 0 ∨ descriptors.Nonempty

/-- Every overlay node counts its descriptors. -/
def OpenCounts (runtime : LinuxRuntime) : Prop :=
  ∀ i, NodeCounted (runtime.overlayNodes i) (runtime.descriptorsOf i)

namespace NodeCounted

variable {node : LinuxOverlayNode} {descriptors : Finset LinuxFdSlot} {slot : LinuxFdSlot}

theorem card_le (descriptors : Finset LinuxFdSlot) : descriptors.card ≤ 8 :=
  (card_le_univ descriptors).trans_eq (Fintype.card_fin 8)

theorem ofNat_card_eq_zero (descriptors : Finset LinuxFdSlot) :
    BitVec.ofNat 32 descriptors.card = 0 ↔ descriptors = ∅ := by
  have hle := card_le descriptors
  rw [← card_eq_zero]
  constructor
  · intro h
    have hval := congrArg BitVec.toNat h
    simp only [BitVec.toNat_ofNat, BitVec.ofNat_eq_ofNat] at hval
    omega
  · intro h
    rw [h]
    rfl

variable {node' : LinuxOverlayNode}

section

variable (h : NodeCounted node descriptors)

include h

theorem congr (hused : node'.used = node.used) (hcount : node'.openCount = node.openCount)
    (hlink : node'.nlink = node.nlink) : NodeCounted node' descriptors where
  counts hnode := by
    rw [hcount]
    exact h.counts (hused ▸ hnode)
  linked := by
    rw [hused, hlink]
    exact h.linked

theorem empty_of_unused (hused : node.used = false) : descriptors = ∅ := by
  rw [← not_nonempty_iff_eq_empty]
  intro hnonempty
  have := h.linked.2 (.inr hnonempty)
  rw [hused] at this
  cases this

theorem created (hused : node.used = false) (hused' : node'.used) (hcount : node'.openCount = 0)
    (hlink : node'.nlink = 1) : NodeCounted node' descriptors where
  counts _ := by
    rw [h.empty_of_unused hused, hcount]
    rfl
  linked := by
    rw [hused', hlink]
    exact ⟨fun _ => .inl (by decide), fun _ => rfl⟩

theorem opened (hused : node.used) (hslot : slot ∉ descriptors) :
    NodeCounted { node with openCount := node.openCount + 1 } (insert slot descriptors) where
  counts _ := by
    rw [h.counts hused, card_insert_of_notMem hslot]
    exact (BitVec.ofNat_add _ 1).symm
  linked := by
    exact ⟨fun _ => .inr (insert_nonempty slot descriptors), fun _ => hused⟩

theorem released (hslot : slot ∈ descriptors) : NodeCounted { node with
      openCount := if node.openCount ≠ 0 then node.openCount - 1 else node.openCount
      used := if (if node.openCount ≠ 0 then node.openCount - 1 else node.openCount) = 0 ∧
        node.nlink = 0 then false else node.used } (descriptors.erase slot) := by
  have hused : node.used := h.linked.2 (.inr ⟨slot, hslot⟩)
  have hpositive : 1 ≤ descriptors.card := card_pos.2 ⟨slot, hslot⟩
  have hcount : (if node.openCount ≠ 0 then node.openCount - 1 else node.openCount) =
      BitVec.ofNat 32 (descriptors.erase slot).card := by
    have hne : node.openCount ≠ 0 := by
      rw [h.counts hused]
      intro hzero
      rw [(ofNat_card_eq_zero descriptors).1 hzero] at hslot
      exact notMem_empty slot hslot
    obtain ⟨rest, hrest⟩ := Nat.exists_eq_add_of_le' hpositive
    rw [if_pos hne, h.counts hused, card_erase_of_mem hslot, hrest, Nat.add_sub_cancel,
      BitVec.ofNat_add]
    exact BitVec.add_sub_cancel _ 1
  rw [hcount]
  constructor
  · intro _
    rfl
  split
  · rename_i hlast
    rw [ofNat_card_eq_zero] at hlast
    rw [hlast.1, hlast.2]
    simp
  · rename_i hlast
    rw [ofNat_card_eq_zero, not_and_or, ← ne_eq, ← nonempty_iff_ne_empty] at hlast
    exact ⟨fun _ => hlast.symm, fun _ => hused⟩

theorem dropped (hused : node.used) (hlink : node'.nlink = 0)
    (hcount : node'.openCount = node.openCount)
    (hused' : node'.used = if node.openCount = 0 then false else node.used) :
    NodeCounted node' descriptors where
  counts _ := by rw [hcount, h.counts hused]
  linked := by
    rw [hused', hlink, h.counts hused]
    split
    · rename_i hempty
      rw [ofNat_card_eq_zero] at hempty
      simp [hempty]
    · rename_i hempty
      rw [ofNat_card_eq_zero] at hempty
      exact ⟨fun _ => .inr (nonempty_iff_ne_empty.2 hempty), fun _ => hused⟩

theorem relinked (hused : node.used) (hlink : node'.nlink = 1)
    (hcount : node'.openCount = node.openCount)
    (hused' : node'.used = node.used) : NodeCounted node' descriptors where
  counts _ := by rw [hcount, h.counts hused]
  linked := by
    rw [hused', hused, hlink]
    exact ⟨fun _ => .inl (by decide), fun _ => rfl⟩

end

end NodeCounted

namespace LinuxRuntime

variable {runtime runtime' : LinuxRuntime}

variable {i : OverlaySlot}

variable {slot : LinuxFdSlot}

theorem mem_descriptorsOf :
    slot ∈ runtime.descriptorsOf i ↔ (runtime.fds slot).target = some i := by
  rw [descriptorsOf, mem_filter]
  exact ⟨fun h => h.2, fun h => ⟨mem_univ slot, h⟩⟩

theorem setFd_target (slot other : LinuxFdSlot) (fd : LinuxFd) :
    ((runtime.setFd slot fd).fds other).target =
      if other = slot then fd.target else (runtime.fds other).target := by
  simp only [setFd, update_apply]
  split <;> rfl

variable {fd : LinuxFd} {runtime'' : LinuxRuntime}

theorem descriptorsOf_insert (h : fd.target = some i) :
    (runtime.setFd slot fd).descriptorsOf i = insert slot (runtime.descriptorsOf i) := by
  ext other
  rw [mem_descriptorsOf, setFd_target, mem_insert, mem_descriptorsOf]
  by_cases hother : other = slot
  · simp [hother, h]
  · simp [hother]

theorem descriptorsOf_erase (h : fd.target ≠ some i) :
    (runtime.setFd slot fd).descriptorsOf i = (runtime.descriptorsOf i).erase slot := by
  ext other
  rw [mem_descriptorsOf, setFd_target, mem_erase, mem_descriptorsOf]
  by_cases hother : other = slot
  · simp [hother, h]
  · simp [hother]

theorem descriptorsOf_other
    (h : fd.target ≠ some i) (hslot : (runtime.fds slot).target ≠ some i) :
    (runtime.setFd slot fd).descriptorsOf i = runtime.descriptorsOf i := by
  rw [descriptorsOf_erase h, erase_eq_of_notMem]
  rw [mem_descriptorsOf]
  exact hslot

theorem target_of_closed (h : fd.isOpen = false) : fd.target = none := by
  simp only [LinuxFd.target, h]

theorem target_some (h : fd.target = some i) : fd.isOpen ∧ fd.node = some (.overlay i) := by
  unfold LinuxFd.target at h
  split at h
  · rename_i hopen hnode
    rw [Option.some.injEq] at h
    exact ⟨hopen, h ▸ hnode⟩
  · cases h

/-- The nodes that are used before a change keep the number of their file. -/
def KeepsFiles (before after : LinuxRuntime) : Prop :=
  ∀ i, (before.overlayNodes i).used →
    (after.overlayNodes i).inode = (before.overlayNodes i).inode

/-- No node gets another file. -/
def SameFiles (before after : LinuxRuntime) : Prop :=
  ∀ i, (after.overlayNodes i).inode = (before.overlayNodes i).inode

theorem SameFiles.refl : SameFiles runtime runtime := fun _ => rfl

theorem SameFiles.trans (h : SameFiles runtime runtime')
    (h' : SameFiles runtime' runtime'') : SameFiles runtime runtime'' :=
  fun i => (h' i).trans (h i)

theorem SameFiles.keeps (h : SameFiles runtime runtime') : KeepsFiles runtime runtime' :=
  fun i _ => h i

theorem KeepsFiles.then_same (h : KeepsFiles runtime runtime')
    (h' : SameFiles runtime' runtime'') : KeepsFiles runtime runtime'' :=
  fun i hused => (h' i).trans (h i hused)

section

variable {node : LinuxOverlayNode} (h : node.inode = (runtime.overlayNodes i).inode)

include h

theorem setNode_same : SameFiles runtime (runtime.setNode i node) := by
  intro j
  simp only [setNode, update_apply]
  split
  · rename_i hj
    rw [hj, h]
  · rfl

theorem touchWith_same : SameFiles runtime (runtime.touchWith i node) :=
  (@setNode_same runtime i { node with mtime := runtime.nextOverlayMtime } h).trans fun _ => rfl

end

theorem overlayRetainOpen_same (i : OverlaySlot) :
    SameFiles runtime (runtime.overlayRetainOpen i) := setNode_same rfl

theorem overlayReleaseOpen_same (i : OverlaySlot) :
    SameFiles runtime (runtime.overlayReleaseOpen i) := setNode_same rfl

theorem overlayDropLink_same (i : OverlaySlot) :
    SameFiles runtime (runtime.overlayDropLink i) := touchWith_same rfl

end LinuxRuntime

namespace OpenCounts

open LinuxRuntime

variable {runtime : LinuxRuntime}

variable {i : OverlaySlot}

section

variable (h : OpenCounts runtime) {slot : LinuxFdSlot} {fd : LinuxFd}

include h

section

variable {node : LinuxOverlayNode} (hnode : NodeCounted node (runtime.descriptorsOf i))

include hnode

theorem setNode : OpenCounts (runtime.setNode i node) := by
  intro j
  change NodeCounted (update runtime.overlayNodes i node j) (runtime.descriptorsOf j)
  by_cases hj : j = i
  · rw [hj, update_self]
    exact hnode
  rw [update_of_ne hj]
  exact h j

theorem touchWith : OpenCounts (runtime.touchWith i node) :=
  h.setNode (hnode.congr rfl rfl rfl)

end

theorem setFd
    (hbefore : (runtime.fds slot).target = none) (hafter : fd.target = none) :
    OpenCounts (runtime.setFd slot fd) := by
  intro i
  rw [descriptorsOf_other (by rw [hafter]; exact nofun) (by rw [hbefore]; exact nofun)]
  exact h i

theorem openFd
    (hbefore : (runtime.fds slot).target = none) (hafter : fd.target = some i)
    (hused : (runtime.overlayNodes i).used) :
    OpenCounts ((runtime.setFd slot fd).overlayRetainOpen i) := by
  intro j
  change NodeCounted (update runtime.overlayNodes i _ j)
    ((runtime.setFd slot fd).descriptorsOf j)
  by_cases hj : j = i
  · rw [hj, update_self, descriptorsOf_insert hafter]
    refine (h i).opened hused ?_
    rw [mem_descriptorsOf, hbefore]
    exact nofun
  · rw [update_of_ne hj, descriptorsOf_other ?_ (by rw [hbefore]; exact nofun)]
    · exact h j
    rw [hafter, ne_eq, Option.some.injEq]
    exact fun heq => hj heq.symm

/-- A descriptor of a node is closed, and the node is released. -/
theorem closeFd (hbefore : (runtime.fds slot).target = some i) :
    OpenCounts ((runtime.overlayReleaseOpen i).setFd slot {}) := by
  intro j
  have hafter : ({} : LinuxFd).target ≠ some j := nofun
  change NodeCounted (update runtime.overlayNodes i _ j)
    ((runtime.setFd slot {}).descriptorsOf j)
  rw [descriptorsOf_erase hafter]
  by_cases hj : j = i
  · rw [hj, update_self]
    exact (h i).released (mem_descriptorsOf.2 hbefore)
  rw [update_of_ne hj, erase_eq_of_notMem]
  · exact h j
  rw [mem_descriptorsOf, hbefore, Option.some.injEq]
  exact fun heq => hj heq.symm

theorem overlayDropLink (hused : (runtime.overlayNodes i).used) :
    OpenCounts (runtime.overlayDropLink i) :=
  h.touchWith ((h i).dropped hused rfl rfl rfl)

theorem allocOverlayNode {path : LinuxPath} {directory : Bool}
    {mode : BitVec 32} {runtime' : LinuxRuntime}
    (halloc : runtime.allocOverlayNode path directory mode = some (i, runtime')) :
    OpenCounts runtime' ∧ (runtime'.overlayNodes i).used ∧ runtime'.fds = runtime.fds ∧
      KeepsFiles runtime runtime' := by
  unfold LinuxRuntime.allocOverlayNode at halloc
  split at halloc
  · cases halloc
  split at halloc
  · cases halloc
  rename_i found hfound
  simp only [Option.some.injEq, Prod.mk.injEq] at halloc
  obtain ⟨rfl, rfl⟩ := halloc
  have hunused : (runtime.overlayNodes found).used = false := by
    have htest := firstSlot_some hfound
    simpa using htest
  refine ⟨h.setNode ((h found).created hunused rfl rfl rfl), ?_, rfl, fun j hj => ?_⟩
  · simp only [LinuxRuntime.setNode, update_self]
  have hne : j ≠ found := by
    rintro rfl
    rw [hunused] at hj
    cases hj
  simp only [LinuxRuntime.setNode, update_of_ne hne]

end

end OpenCounts
end VisualCpu
