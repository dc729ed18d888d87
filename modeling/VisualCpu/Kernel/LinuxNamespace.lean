import Mathlib.Data.List.TakeWhile
import VisualCpu.Kernel.LinuxOverlay
import VisualCpu.Library.PathTree

/-!
# What a path names

A path names the overlay node that carries it, else the rootfs node. Every call changes the
nodes one at a time; a changed node concerns the paths that it had and has, and no others.
-/

namespace VisualCpu

open Function LinuxCompat

/-- What is behind a path: an overlay node with its slot, or a rootfs node. -/
structure LinuxNamed where
  slot : Option OverlaySlot
  (directory executable : Bool)
  inode : BitVec 64
  mode : BitVec 32
  content : List UInt8

def LinuxOverlayNode.named (node : LinuxOverlayNode) (i : OverlaySlot) : LinuxNamed :=
  ⟨some i, node.directory, node.executable, node.inode, node.mode,
    (List.ofFn node.data).take node.size⟩

def LinuxRootfsNode.named (node : LinuxRootfsNode) : LinuxNamed :=
  ⟨none, node.directory, node.executable, node.inode, node.mode, node.data⟩

/-- A node with one link and an absolute path other than the root, or without both. -/
def LinuxOverlayNode.LinkSound (node : LinuxOverlayNode) : Prop :=
  (node.nlink = 1 ∧ node.path.head? = some slash ∧ node.path ≠ [slash]) ∨
    (node.nlink = 0 ∧ node.path = [])

namespace LinuxRuntime

variable (rootfs : List LinuxRootfsNode) (runtime : LinuxRuntime)

def lowerNamed (path : LinuxPath) : Option LinuxNamed :=
  (findNode rootfs path).map LinuxRootfsNode.named

/-- The overlay first, then the rootfs. -/
def resolve (path : LinuxPath) : Option LinuxNamed :=
  match runtime.findOverlayNode path with
  | some i => some ((runtime.overlayNodes i).named i)
  | none => lowerNamed rootfs path

/-- Linked nodes have absolute paths of their own, and none is over a rootfs directory. -/
structure SlotsSound : Prop where
  linked : ∀ i, (runtime.overlayNodes i).used → (runtime.overlayNodes i).LinkSound
  distinct : ∀ i j, (runtime.overlayNodes i).used → (runtime.overlayNodes j).used →
    (runtime.overlayNodes i).path = (runtime.overlayNodes j).path →
    (runtime.overlayNodes i).path ≠ [] → i = j
  cover : ∀ i node, (runtime.overlayNodes i).used →
    findNode rootfs (runtime.overlayNodes i).path = some node → node.directory = false

variable {rootfs runtime} {runtime' : LinuxRuntime} {path : LinuxPath} {i : OverlaySlot}

theorem findOverlayNode_some (h : runtime.findOverlayNode path = some i) :
    (runtime.overlayNodes i).used ∧ (runtime.overlayNodes i).path = path := by
  have hi := firstSlot_some h
  simpa using hi

theorem findOverlayNode_none (h : runtime.findOverlayNode path = none) (i : OverlaySlot)
    (hused : (runtime.overlayNodes i).used) : (runtime.overlayNodes i).path ≠ path := by
  have hi := firstSlot_none h i
  simpa [hused] using hi

theorem findOverlayNode_eq_none (h : ∀ i, (runtime.overlayNodes i).used →
    (runtime.overlayNodes i).path ≠ path) : runtime.findOverlayNode path = none := by
  cases hfind : runtime.findOverlayNode path with
  | none => rfl
  | some i =>
    obtain ⟨hused, hpath⟩ := findOverlayNode_some hfind
    exact absurd hpath (h i hused)

theorem SlotsSound.find_eq (h : SlotsSound rootfs runtime)
    (hused : (runtime.overlayNodes i).used) (hpath : (runtime.overlayNodes i).path = path)
    (hne : path ≠ []) : runtime.findOverlayNode path = some i := by
  cases hfind : runtime.findOverlayNode path with
  | none => exact absurd hpath (findOverlayNode_none hfind i hused)
  | some j =>
    obtain ⟨hj, hjpath⟩ := findOverlayNode_some hfind
    rw [h.distinct j i hj hused (hjpath.trans hpath.symm) (by rw [hjpath]; exact hne)]

theorem SlotsSound.resolve_eq (h : SlotsSound rootfs runtime)
    (hused : (runtime.overlayNodes i).used) (hpath : (runtime.overlayNodes i).path = path)
    (hne : path ≠ []) :
    resolve rootfs runtime path = some ((runtime.overlayNodes i).named i) := by
  rw [resolve, h.find_eq hused hpath hne]

theorem resolve_lower (h : ∀ i, (runtime.overlayNodes i).used →
    (runtime.overlayNodes i).path ≠ path) :
    resolve rootfs runtime path = lowerNamed rootfs path := by
  rw [resolve, findOverlayNode_eq_none h]

theorem ne_nil_of_head {path : LinuxPath} (h : path.head? = some slash) : path ≠ [] := by
  rintro rfl
  cases h

section update

variable {node : LinuxOverlayNode}
  (hnodes : runtime'.overlayNodes = Function.update runtime.overlayNodes i node)
include hnodes

variable (h : SlotsSound rootfs runtime)

include h

theorem SlotsSound.update
    (hlinked : node.used → node.LinkSound)
    (hdistinct : node.used → node.path ≠ [] → ∀ j, j ≠ i →
      (runtime.overlayNodes j).used → (runtime.overlayNodes j).path ≠ node.path)
    (hcover : node.used → ∀ lower, findNode rootfs node.path = some lower →
      lower.directory = false) : SlotsSound rootfs runtime' := by
  have hself : runtime'.overlayNodes i = node := by rw [hnodes, update_self]
  have hother : ∀ j, j ≠ i → runtime'.overlayNodes j = runtime.overlayNodes j := fun j hj => by
    rw [hnodes, update_of_ne hj]
  refine ⟨fun j hused => ?_, fun j k hj hk hpath hne => ?_, fun j lower hused hfind => ?_⟩
  · by_cases hji : j = i
    · subst hji
      rw [hself] at hused ⊢
      exact hlinked hused
    · rw [hother j hji] at hused ⊢
      exact h.linked j hused
  · by_cases hji : j = i
    · by_cases hki : k = i
      · rw [hji, hki]
      subst hji
      rw [hself] at hj hpath hne
      rw [hother k hki] at hk hpath
      exact absurd hpath.symm (hdistinct hj hne k hki hk)
    · by_cases hki : k = i
      · subst hki
        rw [hself] at hk hpath
        rw [hother j hji] at hj hpath hne
        exact absurd hpath (hdistinct hk (by rw [← hpath]; exact hne) j hji hj)
      · rw [hother j hji] at hj hpath hne
        rw [hother k hki] at hk hpath
        exact h.distinct j k hj hk hpath hne
  · by_cases hji : j = i
    · subst hji
      rw [hself] at hused hfind
      exact hcover hused lower hfind
    · rw [hother j hji] at hused hfind
      exact h.cover j lower hused hfind

theorem SlotsSound.resolve_other (h' : SlotsSound rootfs runtime')
    (hne : path ≠ []) (hold : (runtime.overlayNodes i).used → (runtime.overlayNodes i).path ≠ path)
    (hnew : node.used → node.path ≠ path) :
    resolve rootfs runtime' path = resolve rootfs runtime path := by
  have hself : runtime'.overlayNodes i = node := by rw [hnodes, update_self]
  have hother : ∀ j, j ≠ i → runtime'.overlayNodes j = runtime.overlayNodes j := fun j hj => by
    rw [hnodes, update_of_ne hj]
  cases hfind : runtime.findOverlayNode path with
  | none =>
    rw [resolve_lower (findOverlayNode_none hfind)]
    refine resolve_lower fun j hused => ?_
    by_cases hji : j = i
    · subst hji
      rw [hself] at hused ⊢
      exact hnew hused
    · rw [hother j hji] at hused ⊢
      exact findOverlayNode_none hfind j hused
  | some j =>
    obtain ⟨hj, hpath⟩ := findOverlayNode_some hfind
    have hji : j ≠ i := by
      rintro rfl
      exact hold hj hpath
    have hsame := hother j hji
    rw [h.resolve_eq hj hpath hne,
      h'.resolve_eq (by rw [hsame]; exact hj) (by rw [hsame]; exact hpath) hne, hsame]

theorem SlotsSound.resolve_lost (hne : path ≠ [])
    (hused : (runtime.overlayNodes i).used) (hpath : (runtime.overlayNodes i).path = path)
    (hnew : node.used → node.path ≠ path) :
    resolve rootfs runtime' path = lowerNamed rootfs path := by
  refine resolve_lower fun j hj heq => ?_
  by_cases hji : j = i
  · subst hji
    rw [hnodes, update_self] at hj heq
    exact hnew hj heq
  · rw [hnodes, update_of_ne hji] at hj heq
    exact hji (h.distinct j i hj hused (heq.trans hpath.symm) (by rw [heq]; exact hne))

end update

/-- No node changes its path, its links or its kind; a node without a path may be freed. -/
structure Quiet (runtime runtime' : LinuxRuntime) : Prop where
  used : ∀ i, (runtime'.overlayNodes i).used → (runtime.overlayNodes i).used
  kept : ∀ i, (runtime.overlayNodes i).used → (runtime'.overlayNodes i).used ∨
    (runtime.overlayNodes i).nlink = 0
  path : ∀ i, (runtime'.overlayNodes i).path = (runtime.overlayNodes i).path
  nlink : ∀ i, (runtime'.overlayNodes i).nlink = (runtime.overlayNodes i).nlink
  directory : ∀ i, (runtime'.overlayNodes i).directory = (runtime.overlayNodes i).directory

open Quiet

theorem Quiet.refl : Quiet runtime runtime :=
  ⟨fun _ h => h, fun _ h => .inl h, fun _ => rfl, fun _ => rfl, fun _ => rfl⟩

theorem Quiet.trans {runtime'' : LinuxRuntime} (h : Quiet runtime runtime')
    (h' : Quiet runtime' runtime'') : Quiet runtime runtime'' := by
  refine ⟨fun i hused => h.used i (h'.used i hused), fun i hused => ?_,
    fun i => (h'.path i).trans (h.path i), fun i => (h'.nlink i).trans (h.nlink i),
    fun i => (h'.directory i).trans (h.directory i)⟩
  rcases h.kept i hused with hkept | hlost
  · rw [← h.nlink]
    exact h'.kept i hkept
  · exact .inr hlost

theorem Quiet.node {node : LinuxOverlayNode}
    (hnodes : runtime'.overlayNodes = Function.update runtime.overlayNodes i node)
    (hused : node.used → (runtime.overlayNodes i).used)
    (hkept : (runtime.overlayNodes i).used → node.used ∨ (runtime.overlayNodes i).nlink = 0)
    (hpath : node.path = (runtime.overlayNodes i).path)
    (hnlink : node.nlink = (runtime.overlayNodes i).nlink)
    (hdirectory : node.directory = (runtime.overlayNodes i).directory) :
    Quiet runtime runtime' := by
  constructor <;> intro j <;> by_cases hji : j = i
  all_goals first
    | (subst hji; rw [hnodes, update_self]; assumption)
    | rw [hnodes, update_of_ne hji]
  · exact fun h => h
  · exact fun h => .inl h

theorem Quiet.sound (hq : Quiet runtime runtime') (h : SlotsSound rootfs runtime) :
    SlotsSound rootfs runtime' := by
  refine ⟨fun i hused => ?_, fun i j hi hj hpath hne => ?_, fun i node hused hfind => ?_⟩
  · rw [LinuxOverlayNode.LinkSound, hq.nlink, hq.path]
    exact h.linked i (hq.used i hused)
  · rw [hq.path] at hpath hne
    rw [hq.path] at hpath
    exact h.distinct i j (hq.used i hi) (hq.used j hj) hpath hne
  · rw [hq.path] at hfind
    exact h.cover i node (hq.used i hused) hfind

def kind (rootfs : List LinuxRootfsNode) (runtime : LinuxRuntime) (path : LinuxPath) :
    Option Bool :=
  if path.head? = some slash then (resolve rootfs runtime path).map LinuxNamed.directory else none

theorem Quiet.kind_eq (hq : Quiet runtime runtime') (h : SlotsSound rootfs runtime) :
    kind rootfs runtime' = kind rootfs runtime := by
  funext path
  rw [kind, kind]
  split
  · rename_i hhead
    have hne := ne_nil_of_head hhead
    cases hfind : runtime.findOverlayNode path with
    | none =>
      rw [resolve_lower (findOverlayNode_none hfind), resolve_lower fun i hused => ?_]
      rw [hq.path]
      exact findOverlayNode_none hfind i (hq.used i hused)
    | some i =>
      obtain ⟨hused, hpath⟩ := findOverlayNode_some hfind
      have hlink : (runtime.overlayNodes i).nlink ≠ 0 := by
        rcases h.linked i hused with ⟨hlink, -⟩ | ⟨-, hempty⟩
        · rw [hlink]
          decide
        · exact absurd (hpath.symm.trans hempty) hne
      have hstill := (hq.kept i hused).resolve_right hlink
      rw [h.resolve_eq hused hpath hne,
        (hq.sound h).resolve_eq hstill ((hq.path i).trans hpath) hne]
      simp only [Option.map_some, LinuxOverlayNode.named, hq.directory]
  · rfl

theorem setFd_quiet (slot : LinuxFdSlot) (fd : LinuxFd) : Quiet runtime (runtime.setFd slot fd) :=
  ⟨fun _ h => h, fun _ h => .inl h, fun _ => rfl, fun _ => rfl, fun _ => rfl⟩

theorem touchWith_quiet {node : LinuxOverlayNode}
    (hused : node.used = (runtime.overlayNodes i).used)
    (hpath : node.path = (runtime.overlayNodes i).path)
    (hnlink : node.nlink = (runtime.overlayNodes i).nlink)
    (hdirectory : node.directory = (runtime.overlayNodes i).directory) :
    Quiet runtime (runtime.touchWith i node) :=
  Quiet.node rfl (fun h => hused.symm.trans h) (fun h => .inl (hused.trans h))
    hpath hnlink hdirectory

theorem overlayRetainOpen_quiet (i : OverlaySlot) : Quiet runtime (runtime.overlayRetainOpen i) :=
  node rfl (fun h => h) (fun h => .inl h) rfl rfl rfl

theorem copyUp_quiet (i : OverlaySlot) (node : LinuxRootfsNode) :
    Quiet runtime (runtime.copyUp i node) :=
  Quiet.node rfl (fun h => h) (fun h => .inl h) rfl rfl rfl

theorem overlayReleaseOpen_quiet (i : OverlaySlot) :
    Quiet runtime (runtime.overlayReleaseOpen i) := by
  rw [overlayReleaseOpen]
  generalize (if (runtime.overlayNodes i).openCount ≠ 0 then (runtime.overlayNodes i).openCount - 1
    else (runtime.overlayNodes i).openCount) = openCount
  by_cases hlost : openCount = 0 ∧ (runtime.overlayNodes i).nlink = 0
  · rw [if_pos hlost]
    exact node rfl (fun h => by cases h) (fun _ => .inr hlost.2) rfl rfl rfl
  rw [if_neg hlost]
  exact node rfl (fun h => h) (fun h => .inl h) rfl rfl rfl

theorem close_quiet (fd : ℤ) : Quiet runtime (runtime.close fd).1 := by
  rw [close]
  cases fdSlot fd with
  | none => exact refl
  | some slot =>
    simp only
    split
    · exact refl
    refine trans ?_ (setFd_quiet slot {})
    split
    · exact overlayReleaseOpen_quiet _
    · exact refl

theorem writeOverlay_quiet (slot : LinuxFdSlot) (i : OverlaySlot) (buffer : List UInt8)
    (readable : ℕ) : Quiet runtime (runtime.writeOverlay slot i buffer readable).1 := by
  rw [writeOverlay]
  split
  · exact refl
  simp only
  generalize (if has (runtime.fds slot).flags oAppend then (runtime.overlayNodes i).size
    else (runtime.fds slot).offset) = offset
  split
  · exact setFd_quiet ..
  split
  · exact node rfl (fun h => h) (fun h => .inl h) rfl rfl rfl
  · exact node rfl (fun h => h) (fun h => .inl h) rfl rfl rfl

theorem write_quiet (fd : ℤ) (buffer : List UInt8) (readable : ℕ) :
    Quiet runtime (runtime.write fd buffer readable).1 := by
  have hstdout : ∀ stdout, Quiet runtime { runtime with stdout := stdout } := fun _ =>
    ⟨fun _ h => h, fun _ h => .inl h, fun _ => rfl, fun _ => rfl, fun _ => rfl⟩
  rw [write]
  split
  · split
    · exact refl
    simp only
    split
    · split
      · exact refl
      · split <;> exact refl
    split
    · exact refl
    · exact refl
    split
    · exact refl
    · exact writeOverlay_quiet ..
  · split
    · exact refl
    simp only
    split <;> exact hstdout _

theorem openDevice_quiet (path : LinuxPath) (fd : LinuxFd) (message : String) :
    Quiet runtime (runtime.openDevice path fd message).1 := by
  rw [openDevice]
  split
  · exact refl
  · exact setFd_quiet ..

theorem openTarget_quiet (path : LinuxPath) (flags : BitVec 32) (target : LinuxNodeRef) :
    Quiet runtime (runtime.openTarget path flags target).1 := by
  cases target with
  | lower node =>
    rw [openTarget]
    split
    · exact refl
    · exact setFd_quiet ..
  | overlay i =>
    rw [openTarget]
    split
    · exact refl
    have htruncated : Quiet runtime (if has flags oTrunc then
        runtime.touchWith i { runtime.overlayNodes i with size := 0, dirty := true }
        else runtime) := by
      split
      · exact touchWith_quiet rfl rfl rfl rfl
      · exact refl
    simp only
    split
    · exact htruncated
    · exact htruncated.trans ((setFd_quiet ..).trans (overlayRetainOpen_quiet _))

end LinuxRuntime
end VisualCpu
