import VisualCpu.Kernel.LinuxOpenCounts
import VisualCpu.Kernel.LinuxPipes

/-!
# Open counts in every run

As long as `F_DUPFD` copies no descriptor of the overlay and no program starts while one is
open, the open counts are right, and a node with an open descriptor keeps its file.
-/

namespace VisualCpu

open LinuxCompat LinuxIo

namespace LinuxRuntime

/-- A closed descriptor points nowhere. -/
def BlankFds (runtime : LinuxRuntime) : Prop :=
  ∀ slot, (runtime.fds slot).isOpen = false → (runtime.fds slot).node = none

/-- The open counts are right after a call, closed descriptors point nowhere, and no used node
got another file. -/
structure Counted (before after : LinuxRuntime) : Prop where
  counts : OpenCounts after
  blank : BlankFds after
  files : KeepsFiles before after

variable {runtime before : LinuxRuntime}

variable {slot : LinuxFdSlot} {fd : LinuxFd}

theorem BlankFds.setFd (h : BlankFds runtime)
    (hfd : fd.isOpen = false → fd.node = none) : BlankFds (runtime.setFd slot fd) := by
  intro other hclosed
  simp only [LinuxRuntime.setFd, Function.update_apply] at hclosed ⊢
  split at hclosed
  · rename_i hother
    rw [if_pos hother]
    exact hfd hclosed
  · rename_i hother
    rw [if_neg hother]
    exact h other hclosed

theorem blank_of_open (hopen : fd.isOpen) (hclosed : fd.isOpen = false) : fd.node = none :=
  absurd (hopen.symm.trans hclosed) (by decide)

theorem Counted.refl (hcounts : OpenCounts runtime) (hblank : BlankFds runtime) :
    Counted runtime runtime := ⟨hcounts, hblank, SameFiles.refl.keeps⟩

theorem freeFd_closed (h : runtime.freeFd = some slot) : (runtime.fds slot).isOpen = false := by
  have htest := firstSlot_some h
  simp only [Bool.and_eq_true, Bool.not_eq_true'] at htest
  exact htest.2

theorem freeFd_target (h : runtime.freeFd = some slot) :
    (runtime.fds slot).target = none := target_of_closed (freeFd_closed h)

section

variable (h : Counted before runtime)

include h

theorem Counted.touchWith {i : OverlaySlot}
    {node : LinuxOverlayNode} (hused : node.used = (runtime.overlayNodes i).used)
    (hcount : node.openCount = (runtime.overlayNodes i).openCount)
    (hlink : node.nlink = (runtime.overlayNodes i).nlink)
    (hinode : node.inode = (runtime.overlayNodes i).inode) :
    Counted before (runtime.touchWith i node) :=
  ⟨h.counts.touchWith ((h.counts i).congr hused hcount hlink), h.blank,
    h.files.then_same (touchWith_same hinode)⟩

theorem Counted.openOther {slot : LinuxFdSlot} {fd : LinuxFd}
    (hbefore : (runtime.fds slot).target = none) (hopen : fd.isOpen)
    (hafter : fd.target = none) : Counted before (runtime.setFd slot fd) :=
  ⟨h.counts.setFd hbefore hafter, h.blank.setFd (blank_of_open hopen),
    h.files.then_same fun _ => rfl⟩

theorem Counted.openNode {slot : LinuxFdSlot} {fd : LinuxFd}
    {i : OverlaySlot} (hbefore : (runtime.fds slot).target = none) (hafter : fd.target = some i)
    (hused : (runtime.overlayNodes i).used) :
    Counted before ((runtime.setFd slot fd).overlayRetainOpen i) :=
  ⟨h.counts.openFd hbefore hafter hused, h.blank.setFd (blank_of_open (target_some hafter).1),
    h.files.then_same (overlayRetainOpen_same i)⟩

theorem Counted.openTarget (path : LinuxPath) (flags : BitVec 32) (target : LinuxNodeRef)
    (hused : ∀ i, target = .overlay i → (runtime.overlayNodes i).used) :
    Counted before (runtime.openTarget path flags target).1 := by
  cases target with
  | lower node =>
    dsimp only [LinuxRuntime.openTarget]
    split
    · exact h
    rename_i slot hslot
    exact h.openOther (freeFd_target hslot) rfl rfl
  | overlay i =>
    dsimp only [LinuxRuntime.openTarget]
    split
    · exact h
    have hnode := hused i rfl
    by_cases htrunc : has flags oTrunc
    · rw [if_pos htrunc]
      have htouched := @Counted.touchWith runtime before h i
        { runtime.overlayNodes i with size := 0, dirty := true } rfl rfl rfl rfl
      split
      · exact htouched
      rename_i slot hslot
      refine htouched.openNode (freeFd_target hslot) rfl ?_
      simpa [LinuxRuntime.touchWith, LinuxRuntime.setNode] using hnode
    · rw [if_neg htrunc]
      split
      · exact h
      rename_i slot hslot
      exact h.openNode (freeFd_target hslot) rfl hnode

theorem Counted.copyUp (i : OverlaySlot) (node : LinuxRootfsNode) :
    Counted before (runtime.copyUp i node) :=
  ⟨h.counts.setNode ((h.counts i).congr rfl rfl rfl), h.blank, h.files.then_same (setNode_same rfl)⟩

end

variable {i : OverlaySlot} {path : LinuxPath}

theorem Counted.alloc (h : Counted runtime runtime) {directory : Bool}
    {mode : BitVec 32} {runtime' : LinuxRuntime}
    (halloc : runtime.allocOverlayNode path directory mode = some (i, runtime')) :
    Counted runtime runtime' ∧ (runtime'.overlayNodes i).used := by
  obtain ⟨hcounts, hused, hfds, hfiles⟩ := h.counts.allocOverlayNode halloc
  refine ⟨⟨hcounts, fun slot hclosed => ?_, hfiles⟩, hused⟩
  rw [hfds] at hclosed ⊢
  exact h.blank slot hclosed

theorem findOverlayNode_used
    (h : runtime.findOverlayNode path = some i) : (runtime.overlayNodes i).used := by
  have htest := firstSlot_some h
  rw [Bool.and_eq_true] at htest
  exact htest.1

variable (rootfs : List LinuxRootfsNode)

namespace Counted

theorem openPath (h : Counted runtime runtime) (path : LinuxPath) (flags : BitVec 32) :
    Counted runtime (runtime.openPath rootfs path flags).1 := by
  unfold LinuxRuntime.openPath
  split
  · rename_i i hfound
    split
    · exact h
    split
    · exact h
    refine h.openTarget path flags _ fun j hj => ?_
    cases hj
    exact findOverlayNode_used hfound
  · split
    · rename_i node _
      split
      · exact h
      split
      · exact h
      split
      · split
        · exact h
        split
        · exact h
        rename_i i runtime' halloc
        obtain ⟨hnew, hused⟩ := h.alloc halloc
        by_cases htrunc : has flags oTrunc
        · rw [if_pos htrunc]
          refine hnew.openTarget path flags _ fun j hj => ?_
          cases hj
          exact hused
        · rw [if_neg htrunc]
          refine (hnew.copyUp i node).openTarget path flags _ fun j hj => ?_
          cases hj
          simpa [LinuxRuntime.copyUp, LinuxRuntime.setNode] using hused
      · exact h.openTarget path flags _ fun j hj => by cases hj
    · split
      · exact h
      split
      · exact h
      split
      · exact h
      rename_i i runtime' halloc
      obtain ⟨hnew, hused⟩ := h.alloc halloc
      refine hnew.openTarget path flags _ fun j hj => ?_
      cases hj
      exact hused

theorem openDevice (h : Counted before runtime) (path : LinuxPath)
    (message : String) (hopen : fd.isOpen) (htarget : fd.target = none) :
    Counted before (runtime.openDevice path fd message).1 := by
  unfold LinuxRuntime.openDevice
  split
  · exact h
  rename_i slot hslot
  exact h.openOther (freeFd_target hslot) hopen htarget

theorem openat (h : Counted runtime runtime) (dirfd : ℤ) (path : LinuxPath)
    (flags : BitVec 32) : Counted runtime (runtime.openat rootfs dirfd path flags).1 := by
  unfold LinuxRuntime.openat
  split
  · exact h
  split
  · exact h
  split
  · exact h
  split
  · exact h
  split
  · split
    · exact h
    · exact h.openDevice _ _ rfl rfl
  split
  · split
    · exact h
    split
    · exact h
    · exact h.openDevice _ _ rfl rfl
  · exact h.openPath rootfs _ flags

theorem overlayDropLink (h : Counted before runtime) (hused : (runtime.overlayNodes i).used) :
    Counted before (runtime.overlayDropLink i) :=
  ⟨h.counts.overlayDropLink hused, h.blank, h.files.then_same (overlayDropLink_same i)⟩

theorem unlinkat (h : Counted runtime runtime) (dirfd : ℤ) (path : LinuxPath) :
    Counted runtime (runtime.unlinkat rootfs dirfd path).1 := by
  unfold LinuxRuntime.unlinkat
  split
  · exact h
  split
  · exact h
  split
  · rename_i i hfound
    split
    · exact h
    · exact h.overlayDropLink (findOverlayNode_used hfound)
  · split <;> exact h

theorem relink (h : Counted before runtime)
    (hused : (runtime.overlayNodes i).used) (path : LinuxPath) :
    Counted before (runtime.touchWith i { runtime.overlayNodes i with
      path := path
      nlink := 1
      dirty := true }) :=
  ⟨h.counts.touchWith ((h.counts i).relinked hused rfl rfl rfl), h.blank,
    h.files.then_same (touchWith_same rfl)⟩

theorem moveNode (h : Counted runtime runtime) {source : OverlaySlot}
    (hused : (runtime.overlayNodes source).used) (path : LinuxPath) :
    Counted runtime (runtime.moveNode source path) := by
  unfold LinuxRuntime.moveNode
  split
  · rename_i target hfound
    by_cases htarget : target = source
    · rw [if_neg (not_not.2 htarget)]
      exact h.relink hused path
    rw [if_pos htarget]
    refine (h.overlayDropLink (findOverlayNode_used hfound)).relink ?_ path
    simpa [LinuxRuntime.overlayDropLink, LinuxRuntime.touchWith, LinuxRuntime.setNode,
      Function.update_of_ne (Ne.symm htarget)] using hused
  · exact h.relink hused path

theorem renameat (h : Counted runtime runtime) (dirfd : ℤ) (oldPath newPath : LinuxPath) :
    Counted runtime (runtime.renameat rootfs dirfd oldPath newPath).1 := by
  unfold LinuxRuntime.renameat
  split
  · exact h
  split
  · split
    · exact h
    split
    · split <;> exact h
    rename_i source hsource
    split
    · exact h
    split
    · exact h
    · exact h.moveNode (findOverlayNode_used hsource) _
  · exact h

end Counted

end LinuxRuntime

inductive OpenAction where
  | openat (dirfd : ℤ) (path : LinuxPath) (flags : BitVec 32)
  | dup3 (oldFd newFd : ℤ) (flags : BitVec 32)
  | dupFd (fd : ℤ) (arg : ℕ)
  | close (fd : ℤ)
  | execve (path : LinuxPath)
  | unlinkat (dirfd : ℤ) (path : LinuxPath)
  | renameat (dirfd : ℤ) (oldPath newPath : LinuxPath)
  | run (cwd : Option LinuxPath) (stdinText : Option (List UInt8)) (loads : Bool)
  | gccOutput (image : List UInt8) (output : LinuxPath)

open OpenAction

namespace OpenAction

variable (rootfs : List LinuxRootfsNode) (io : LinuxIo)

/-- The runtime after a call; `run` and `gccOutput` are the start and the end of
`linux_compat_run`. -/
def perform : OpenAction → LinuxIo
  | openat dirfd path flags => (io.lift (io.runtime.openat rootfs dirfd path flags)).1
  | dup3 oldFd newFd flags => (io.dup3 oldFd newFd flags).1
  | dupFd fd arg => (io.dupFd fd arg).1
  | close fd => (io.close fd).1
  | execve path => (io.execve rootfs path).1
  | unlinkat dirfd path => (io.lift (io.runtime.unlinkat rootfs dirfd path)).1
  | renameat dirfd oldPath newPath =>
    (io.lift (io.runtime.renameat rootfs dirfd oldPath newPath)).1
  | run cwd stdinText loads => io.runBegin cwd stdinText loads
  | gccOutput image output => io.synthesizeGccOutput rootfs image output

/-- `F_DUPFD` copies no descriptor that is open on an overlay node, and no program starts while
there is one. -/
def KeepsCounts : OpenAction → Prop
  | dupFd fd arg => ∀ old new, io.fdValid fd = some old → arg < 8 →
      io.freeFdFrom arg = some new → (io.runtime.fds old).target = none
  | run cwd _ loads => loads = true → (cwd.elim (some io) io.setCwd).isSome →
      ∀ slot, (io.runtime.fds slot).target = none
  | _ => True

def performAll (io : LinuxIo) (actions : List OpenAction) : LinuxIo :=
  actions.foldl (fun io action => action.perform rootfs io) io

def KeepsAll : LinuxIo → List OpenAction → Prop
  | _, [] => True
  | io, action :: actions => action.KeepsCounts io ∧ KeepsAll (action.perform rootfs io) actions

end OpenAction

/-- After a call the open counts are right, and a node is free exactly without links and
descriptors; a node with a descriptor before the call was used and keeps its file. -/
structure OpenNodesSound (rootfs : List LinuxRootfsNode) (io : LinuxIo) (action : OpenAction) :
    Prop where
  counts : ∀ i, ((action.perform rootfs io).runtime.overlayNodes i).used →
    ((action.perform rootfs io).runtime.overlayNodes i).openCount =
      BitVec.ofNat 32 ((action.perform rootfs io).runtime.descriptorsOf i).card
  free : ∀ i, ((action.perform rootfs io).runtime.overlayNodes i).used = false ↔
    ((action.perform rootfs io).runtime.overlayNodes i).nlink = 0 ∧
      (action.perform rootfs io).runtime.descriptorsOf i = ∅
  ownFile : ∀ slot i, (io.runtime.fds slot).target = some i →
    (io.runtime.overlayNodes i).used ∧
      ((action.perform rootfs io).runtime.overlayNodes i).inode =
        (io.runtime.overlayNodes i).inode

namespace LinuxIo

open LinuxRuntime

variable {io : LinuxIo} {before : LinuxRuntime} {runtime : LinuxRuntime} {slot : LinuxFdSlot}
  {i : OverlaySlot}

theorem closeFdSlot_counted (h : Counted before io.runtime) (slot : LinuxFdSlot) :
    Counted before (io.closeFdSlot slot).runtime := by
  unfold closeFdSlot
  split
  · exact h
  rename_i hopen
  have hopen : (io.runtime.fds slot).isOpen := by simpa [isOpen] using hopen
  have hblank : ∀ runtime : LinuxRuntime, BlankFds runtime → BlankFds (runtime.setFd slot {}) :=
    fun runtime hruntime => hruntime.setFd fun _ => rfl
  dsimp only [putFd]
  split
  · rename_i i hnode
    have htarget : (io.runtime.fds slot).target = some i := by
      simp only [LinuxFd.target, hopen, hnode]
    exact ⟨h.counts.closeFd htarget, hblank _ h.blank,
      h.files.then_same (overlayReleaseOpen_same i)⟩
  · rename_i hnode
    have htarget : (io.runtime.fds slot).target = none := by
      unfold LinuxFd.target
      split
      · rename_i i _ hoverlay
        exact absurd hoverlay (hnode i)
      · rfl
    exact ⟨h.counts.setFd htarget rfl, hblank _ h.blank, h.files⟩

theorem closeFdSlot_closed (slot : LinuxFdSlot) :
    ((io.closeFdSlot slot).runtime.fds slot).isOpen = false := by
  unfold closeFdSlot
  split
  · rename_i hclosed
    simpa [isOpen] using hclosed
  · simp [putFd, LinuxRuntime.setFd]

theorem used_of_target (h : OpenCounts runtime) (htarget : (runtime.fds slot).target = some i) :
    (runtime.overlayNodes i).used :=
  (h i).linked.2 (.inr ⟨slot, mem_descriptorsOf.2 htarget⟩)

theorem target_of_node (h : BlankFds runtime)
    (hnode : (runtime.fds slot).node = some (.overlay i)) :
    (runtime.fds slot).target = some i := by
  cases hopen : (runtime.fds slot).isOpen with
  | true => simp only [LinuxFd.target, hopen, hnode]
  | false =>
    rw [h slot hopen] at hnode
    cases hnode

section

variable (h : Counted io.runtime io.runtime)

include h

theorem dup3_counted (oldFd newFd : ℤ) (flags : BitVec 32) :
    Counted io.runtime (io.dup3 oldFd newFd flags).1.runtime := by
  unfold dup3
  split
  · rename_i old new _ _
    split
    · exact h
    have hclosed := closeFdSlot_counted h new
    have hfree := target_of_closed (@closeFdSlot_closed io new)
    generalize io.closeFdSlot new = closed at hclosed hfree ⊢
    dsimp only [retainFd, putFd]
    simp only [LinuxRuntime.setFd, Function.update_self]
    split
    · rename_i i hnode
      refine hclosed.openNode hfree ?_ (used_of_target hclosed.counts
        (target_of_node hclosed.blank hnode))
      simp only [LinuxFd.target, hnode]
    rename_i hnode
    refine hclosed.openOther hfree rfl ?_
    unfold LinuxFd.target
    split
    · rename_i i _ hoverlay
      exact absurd hoverlay (hnode i)
    · rfl
  · exact h

theorem close_counted (fd : ℤ) : Counted io.runtime (io.close fd).1.runtime := by
  unfold close
  split
  · exact h
  split
  · exact h
  · exact closeFdSlot_counted h _

theorem dupFd_counted {fd : ℤ} {arg : ℕ} (hkeeps : (OpenAction.dupFd fd arg).KeepsCounts io) :
    Counted io.runtime (io.dupFd fd arg).1.runtime := by
  unfold dupFd
  split
  · exact h
  rename_i old hold
  split
  · exact h
  rename_i harg
  split
  · exact h
  rename_i new hnew
  have hfree : (io.runtime.fds new).isOpen = false := (freeFdFrom_some hnew).2.2
  refine h.openOther (target_of_closed hfree) rfl ?_
  have htarget := hkeeps old new hold (not_le.1 harg) hnew
  unfold LinuxFd.target
  split
  · rename_i i _ hoverlay
    rw [target_of_node h.blank hoverlay] at htarget
    cases htarget
  · rfl

end

theorem closeOnExec_counted (h : Counted before io.runtime) (slots : List LinuxFdSlot) :
    Counted before (closeOnExec slots io).1.runtime := by
  induction slots generalizing io with
  | nil => exact h
  | cons slot slots ih =>
    unfold closeOnExec
    split
    · exact ih (closeFdSlot_counted h slot)
    · exact ih h

variable (rootfs : List LinuxRootfsNode) {actions : List OpenAction}

section

variable (h : Counted io.runtime io.runtime) {cwd : Option LinuxPath}

include h

theorem execve_counted (path : LinuxPath) :
    Counted io.runtime (io.execve rootfs path).1.runtime := by
  unfold execve
  split
  · exact h
  split
  · exact h
  · exact closeOnExec_counted h _

theorem setCwd_counted {placed : LinuxIo} (hplaced : cwd.elim (some io) io.setCwd = some placed) :
    Counted io.runtime placed.runtime ∧ placed.runtime.fds = io.runtime.fds := by
  cases cwd with
  | none =>
    cases hplaced
    exact ⟨h, rfl⟩
  | some path =>
    simp only [Option.elim_some, setCwd] at hplaced
    split at hplaced
    · cases hplaced
    cases hplaced
    exact ⟨⟨h.counts, h.blank, h.files⟩, rfl⟩

theorem runBegin_counted {stdinText : Option (List UInt8)} {loads : Bool}
    (hkeeps : (run cwd stdinText loads).KeepsCounts io) :
    Counted io.runtime (io.runBegin cwd stdinText loads).runtime := by
  unfold runBegin
  split
  · exact h
  rename_i placed hplaced
  obtain ⟨hcounted, hfds⟩ := setCwd_counted h hplaced
  split
  · rename_i hloads
    have hnone := hkeeps hloads (by rw [hplaced]; rfl)
    refine ⟨fun i => ?_, fun _ _ => rfl, hcounted.files⟩
    have hbefore : placed.runtime.descriptorsOf i = ∅ := by
      rw [Finset.eq_empty_iff_forall_notMem]
      intro slot hslot
      rw [mem_descriptorsOf, hfds, hnone slot] at hslot
      cases hslot
    have hnode := hcounted.counts i
    rw [hbefore] at hnode
    have hafter : (placed.resetForExec.runtime).descriptorsOf i = ∅ := by
      rw [Finset.eq_empty_iff_forall_notMem]
      intro slot hslot
      rw [mem_descriptorsOf] at hslot
      cases hslot
    exact hafter ▸ hnode
  · exact hcounted

end

theorem fillOutput_counted (h : Counted before io.runtime) (image : List UInt8)
    (i : OverlaySlot) : Counted before (io.fillOutput image i).runtime := by
  unfold fillOutput
  split
  · exact h
  · exact h.touchWith rfl rfl rfl rfl

theorem synthesizeGccOutput_counted (h : Counted io.runtime io.runtime) (image : List UInt8)
    (output : LinuxPath) :
    Counted io.runtime (io.synthesizeGccOutput rootfs image output).runtime := by
  unfold synthesizeGccOutput
  split
  · exact h
  split
  · split
    · exact h
    · exact fillOutput_counted h image _
  split
  · exact h
  split
  · exact h
  rename_i i runtime halloc
  exact @fillOutput_counted { io with runtime := runtime } _ (h.alloc halloc).1 image i

theorem init_counted (vm : Bool) (stdinText : Option (List UInt8)) (uart : List UInt8) :
    Counted (init vm stdinText uart).runtime (init vm stdinText uart).runtime := by
  refine Counted.refl (fun i => ?_) fun _ _ => rfl
  have hnone : (init vm stdinText uart).runtime.descriptorsOf i = ∅ := by
    rw [Finset.eq_empty_iff_forall_notMem]
    intro slot hslot
    rw [mem_descriptorsOf] at hslot
    cases hslot
  rw [hnone]
  constructor
  · intro hused
    cases hused
  constructor
  · intro hused
    cases hused
  rintro (hlink | hnonempty)
  · exact absurd rfl hlink
  · exact absurd hnonempty Finset.not_nonempty_empty

theorem perform_counted (h : Counted io.runtime io.runtime) (action : OpenAction)
    (hkeeps : action.KeepsCounts io) :
    Counted io.runtime (action.perform rootfs io).runtime := by
  cases action with
  | openat dirfd path flags => exact h.openat rootfs dirfd path flags
  | dup3 oldFd newFd flags => exact dup3_counted h oldFd newFd flags
  | dupFd fd arg => exact dupFd_counted h hkeeps
  | close fd => exact close_counted h fd
  | execve path => exact execve_counted rootfs h path
  | unlinkat dirfd path => exact h.unlinkat rootfs dirfd path
  | renameat dirfd oldPath newPath => exact h.renameat rootfs dirfd oldPath newPath
  | run cwd stdinText loads => exact runBegin_counted h hkeeps
  | gccOutput image output => exact synthesizeGccOutput_counted rootfs h image output

theorem performAll_counted (h : Counted io.runtime io.runtime)
    (hkeeps : OpenAction.KeepsAll rootfs io actions) :
    Counted (performAll rootfs io actions).runtime
      (performAll rootfs io actions).runtime := by
  induction actions generalizing io with
  | nil => exact h
  | cons action actions ih =>
    have hstep := perform_counted rootfs h action hkeeps.1
    exact ih (Counted.refl hstep.counts hstep.blank) hkeeps.2

theorem keepsAll_append {action : OpenAction}
    (h : OpenAction.KeepsAll rootfs io (actions ++ [action])) :
    OpenAction.KeepsAll rootfs io actions ∧ action.KeepsCounts (performAll rootfs io actions) := by
  induction actions generalizing io with
  | nil => exact ⟨trivial, h.1⟩
  | cons first actions ih => exact ⟨⟨h.1, (ih h.2).1⟩, (ih h.2).2⟩

theorem counted_sound (h : Counted io.runtime io.runtime) (action : OpenAction)
    (hkeeps : action.KeepsCounts io) : OpenNodesSound rootfs io action := by
  have hafter := perform_counted rootfs h action hkeeps
  refine ⟨fun i => (hafter.counts i).counts, fun i => ?_, fun slot i htarget => ?_⟩
  · have hlinked := (hafter.counts i).linked
    rw [← Bool.not_eq_true, hlinked, not_or, not_not, Finset.not_nonempty_iff_eq_empty]
  have hused := used_of_target h.counts htarget
  exact ⟨hused, hafter.files i hused⟩

end LinuxIo

/-- In a run that keeps the counts they are right after every call, and no open node is
recycled. -/
theorem run_openNodesSound (rootfs : List LinuxRootfsNode) (vm : Bool)
    (stdinText : Option (List UInt8)) (uart : List UInt8) (actions : List OpenAction)
    (action : OpenAction)
    (hkeeps : OpenAction.KeepsAll rootfs (init vm stdinText uart) (actions ++ [action])) :
    OpenNodesSound rootfs
      (performAll rootfs (init vm stdinText uart) actions) action := by
  obtain ⟨hbefore, hlast⟩ := keepsAll_append rootfs hkeeps
  exact counted_sound rootfs
    (performAll_counted rootfs (init_counted vm stdinText uart) hbefore)
    action hlast

/-- A root directory and nothing else. -/
def emptyRoot : List LinuxRootfsNode := [⟨[47], [], false, true, 1, dirMode⟩]

/-- The file `/x` is created and opened for reading and writing. -/
def createX : OpenAction := .openat atFdcwd [47, 120] (oCreat ||| oRdwr)

/-- A file with two descriptors is removed and closed before the next program starts. -/
theorem dupUnlinkRun_sound : OpenNodesSound emptyRoot
    (performAll emptyRoot (init false none [])
      [createX, .dup3 3 5 0, .unlinkat atFdcwd [47, 120], .close 3, .close 5])
    (.run none none true) :=
  run_openNodesSound emptyRoot false none [] [createX, .dup3 3 5 0,
    .unlinkat atFdcwd [47, 120], .close 3, .close 5] (.run none none true)
    ⟨trivial, trivial, trivial, trivial, trivial, fun _ _ => by decide +kernel, trivial⟩

/-- A copy by `F_DUPFD` is not counted, so its node is recycled below it; a program that starts
leaves the count of an open file. -/
theorem dupFd_uncounted : ¬OpenNodesSound emptyRoot
      (performAll emptyRoot (init false none []) [createX]) (.dupFd 3 3) ∧
    ¬OpenNodesSound emptyRoot
      (performAll emptyRoot (init false none [])
        [createX, .dupFd 3 3, .unlinkat atFdcwd [47, 120], .close 3])
      (.openat atFdcwd [47, 121] (oCreat ||| oRdwr)) ∧
    ¬OpenNodesSound emptyRoot
      (performAll emptyRoot (init false none []) [createX])
      (.run none none true) := by
  refine ⟨fun h => ?_, fun h => ?_, fun h => ?_⟩
  · have hcount := h.counts 0 (by decide +kernel)
    revert hcount
    decide +kernel
  · have hused := (h.ownFile 4 0 (by decide +kernel)).1
    revert hused
    decide +kernel
  · have hcount := h.counts 0 (by decide +kernel)
    revert hcount
    decide +kernel

end VisualCpu
