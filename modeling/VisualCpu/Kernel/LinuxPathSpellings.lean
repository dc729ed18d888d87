import VisualCpu.Kernel.LinuxNamespaceRuns
import VisualCpu.Library.LexicalPath

/-!
# Spellings of a path

A node is keyed by the string that `resolve_runtime_path` gives: an absolute path as it stands, a
relative one behind the working directory without the `./` at its front.
-/

namespace VisualCpu

open LinuxCompat LexicalPath LinuxRuntime List

namespace LinuxCompat

/-- The components of a relative path come behind those of the working directory. -/
def normalForm (cwd path : LinuxPath) : LinuxPath :=
  render slash ((if path.head? = some slash then [] else parts slash dot cwd) ++
    parts slash dot path)

variable (path : LinuxPath)

def NoParent : Prop := [dot, dot] ∉ path.splitOn slash

def AllProper : Prop := ∀ part ∈ path.splitOn slash, Proper dot part

/-- Of a relative path: it is the working directory. -/
abbrev IsHere : Prop :=
  skipDotSlashPrefixes path = [] ∨ skipDotSlashPrefixes path = [dot]

/-- Without empty and dot parts, but for `./` at the front of a relative path. -/
def Plain : Prop :=
  if path.head? = some slash then path = [slash] ∨ AllProper path.tail
  else path ≠ [] ∧ (IsHere path ∨ AllProper (skipDotSlashPrefixes path))

end LinuxCompat

namespace LinuxRuntime

variable (runtime : LinuxRuntime) (path : LinuxPath)

/-- What the path calls look up. -/
def spelled : LinuxPath :=
  if path.head? = some slash then path
  else if IsHere path then runtime.cwd
  else runtime.cwd ++ (if 1 < runtime.cwd.length then [slash] else []) ++ skipDotSlashPrefixes path

/-- The path and what is made of it fit the buffers. -/
def Fits : Prop :=
  path.length + 1 ≤ (if runtime.vm then maxPath - 1 else maxPath) ∧
    (path.head? = some slash ∨
      if IsHere path then runtime.cwd.length + 1 ≤ maxPath
      else runtime.cwd.length + (skipDotSlashPrefixes path).length + 2 ≤ maxPath)

variable {runtime path}

theorem copyInPath_spelled {resolved : LinuxPath} (hcwd : runtime.cwd.head? = some slash)
    (h : runtime.copyInPath path = some resolved) : resolved = runtime.spelled path := by
  unfold copyInPath resolveRuntimePath at h
  dsimp only at h
  rw [if_pos hcwd] at h
  unfold spelled
  split_ifs at h ⊢ <;> cases h <;> rfl

theorem copyInPath_fits (hcwd : runtime.cwd.head? = some slash) (hne : path ≠ [])
    (hparent : pathHasParentReference path = false) (hfits : runtime.Fits path) :
    runtime.copyInPath path = some (runtime.spelled path) := by
  obtain ⟨hraw, hresult⟩ := hfits
  have hok : ¬(path = [] ∨ pathHasParentReference path) := by simp [hne, hparent]
  have hvm : path.length + 1 ≤ maxPath := by
    split at hraw <;> omega
  unfold copyInPath resolveRuntimePath spelled
  dsimp only
  rw [if_neg (Nat.not_lt.2 hraw), if_pos hcwd, if_neg hok]
  by_cases habsolute : path.head? = some slash
  · rw [if_pos habsolute, if_pos habsolute, if_neg (Nat.not_lt.2 hvm)]
  have hroom := hresult.resolve_left habsolute
  rw [if_neg habsolute, if_neg habsolute]
  split_ifs at hroom ⊢ <;> first | rfl | omega

theorem mem_splitOn_of_startsWithParent (h : startsWithParent path) :
    [dot, dot] ∈ path.splitOn slash := by
  unfold startsWithParent at h
  obtain ⟨htake, hnext⟩ : path.take 2 = [dot, dot] ∧ (path.drop 2).head?.getD slash = slash := by
    simpa using h
  rw [← path.take_append_drop 2, htake]
  cases hdrop : path.drop 2 with
  | nil => decide
  | cons next rest =>
    rw [hdrop] at hnext
    obtain rfl : next = slash := hnext
    rw [splitOn_append_cons_self]
    exact mem_append_left _ (by decide)

theorem pathHasParentReference_eq (h : NoParent path) : pathHasParentReference path = false := by
  unfold pathHasParentReference
  rw [Bool.or_eq_false_iff, any_eq_false]
  refine ⟨Bool.eq_false_iff.2 fun hstart => h (mem_splitOn_of_startsWithParent hstart),
    fun rest hmem hfound => ?_⟩
  obtain ⟨hhead, hstart⟩ : rest.head? = some slash ∧ startsWithParent rest.tail := by
    simpa using hfound
  obtain ⟨pre, rfl⟩ := (mem_tails _ _).1 hmem
  obtain ⟨below, rfl⟩ := head?_eq_some_iff.1 hhead
  refine h ?_
  rw [splitOn_append_cons_self]
  exact mem_append_right _ (mem_splitOn_of_startsWithParent hstart)

theorem parts_skip (path : LinuxPath) :
    parts slash dot (skipDotSlashPrefixes path) = parts slash dot path := by
  induction path using skipDotSlashPrefixes.induct with
  | case1 a b rest hskip ih =>
    rw [skipDotSlashPrefixes, if_pos hskip, ih, hskip.1, hskip.2]
    exact (@parts_append _ _ slash dot [dot] rest).symm
  | case2 a b rest hkeep => rw [skipDotSlashPrefixes, if_neg hkeep]
  | case3 path hshort => rw [skipDotSlashPrefixes]; exact hshort

theorem spelled_eq_iff (hcwd : Normal slash dot runtime.cwd) (hne : path ≠ []) :
    runtime.spelled path = normalForm runtime.cwd path ↔ Plain path := by
  unfold spelled normalForm Plain
  by_cases habsolute : path.head? = some slash
  · rw [if_pos habsolute, if_pos habsolute, if_pos habsolute]
    obtain ⟨rest, rfl⟩ := head?_eq_some_iff.1 habsolute
    exact normal_cons_iff.trans (by simp [AllProper])
  rw [if_neg habsolute, if_neg habsolute, if_neg habsolute, ← parts_skip path, and_iff_right hne]
  by_cases hhere : IsHere path
  · rw [if_pos hhere]
    have hnone : parts slash dot (skipDotSlashPrefixes path) = [] := by
      rcases hhere with hhere | hhere <;> rw [hhere] <;> decide
    rw [hnone, append_nil]
    exact iff_of_true hcwd (.inl hhere)
  · rw [if_neg hhere, or_iff_right hhere]
    exact hcwd.append_eq_iff fun hnil => hhere (.inl hnil)

theorem spelled_normal (hcwd : Normal slash dot runtime.cwd) (hplain : Plain path) :
    Normal slash dot (runtime.spelled path) := by
  unfold spelled
  unfold Plain at hplain
  by_cases habsolute : path.head? = some slash
  · rw [if_pos habsolute] at hplain ⊢
    obtain ⟨rest, rfl⟩ := head?_eq_some_iff.1 habsolute
    exact normal_cons_iff.2 (by simpa [AllProper] using hplain)
  rw [if_neg habsolute] at hplain ⊢
  by_cases hhere : IsHere path
  · rw [if_pos hhere]
    exact hcwd
  rw [if_neg hhere]
  exact hcwd.append (hplain.2.resolve_left hhere)

theorem Normal.head? (h : Normal slash dot path) : path.head? = some slash := by
  obtain ⟨rest, rfl⟩ := h.exists_cons
  rfl

variable (rootfs : List LinuxRootfsNode) (runtime)

/-- `linux_compat_chdir`. -/
def chdir (path : LinuxPath) : LinuxRuntime × LinuxReply :=
  match runtime.copyInPath path with
  | none => (runtime, .refuse [] 14 "linux-compat: chdir: bad path")
  | some resolved =>
    if !runtime.pathExists rootfs resolved then
      (runtime, .refuse resolved 2 "linux-compat: chdir: no such directory")
    else if !runtime.pathIsDirectory rootfs resolved then
      (runtime, .refuse resolved 20 "linux-compat: chdir: not directory")
    else if resolved.head? ≠ some slash ∨ maxPath ≤ resolved.length ∨
        pathHasParentReference resolved then
      (runtime, .refuse resolved 22 "linux-compat: chdir: invalid cwd")
    else ({ runtime with cwd := resolved }, .ok 0 resolved "linux-compat: chdir")

end LinuxRuntime

inductive PathAction where
  | call (action : NamespaceAction)
  | chdir (path : LinuxPath)

namespace PathAction

variable (rootfs : List LinuxRootfsNode) (runtime : LinuxRuntime)

def perform : PathAction → LinuxRuntime
  | call action => (action.perform rootfs runtime).1
  | chdir path => (runtime.chdir rootfs path).1

def run (actions : List PathAction) : LinuxRuntime :=
  actions.foldl (fun runtime action => action.perform rootfs runtime) runtime

/-- The paths of a call are plain. -/
def Plain : PathAction → Prop
  | call (.openat _ path _) => LinuxCompat.Plain path
  | call (.mkdirat _ path) => LinuxCompat.Plain path
  | call (.unlinkat _ path) => LinuxCompat.Plain path
  | call (.renameat _ oldPath newPath) => LinuxCompat.Plain oldPath ∧ LinuxCompat.Plain newPath
  | call (.close _) => True
  | call (.write _ _ _) => True
  | chdir path => LinuxCompat.Plain path

end PathAction

namespace LinuxRuntime

/-- The working directory is normal, and what is said of paths holds of those of the nodes. -/
structure Named (P : LinuxPath → Prop) (runtime : LinuxRuntime) : Prop where
  cwd : Normal slash dot runtime.cwd
  nodes : ∀ i, (runtime.overlayNodes i).used → P (runtime.overlayNodes i).path

variable {P : LinuxPath → Prop} {rootfs : List LinuxRootfsNode} {runtime runtime' : LinuxRuntime}
  {path resolved : LinuxPath}

section

variable (h : Named P runtime) {i : OverlaySlot}

include h

theorem Named.copyInPath_normal (hplain : Plain path)
    (hcopy : runtime.copyInPath path = some resolved) : Normal slash dot resolved := by
  rw [copyInPath_spelled (Normal.head? h.cwd) hcopy]
  exact spelled_normal h.cwd hplain

theorem Named.quiet (hq : Quiet runtime runtime')
    (hcwd : runtime'.cwd = runtime.cwd) : Named P runtime' := by
  refine ⟨by rw [hcwd]; exact h.cwd, fun i hused => ?_⟩
  rw [hq.path]
  exact h.nodes i (hq.used i hused)

theorem Named.update {node : LinuxOverlayNode}
    (hnodes : runtime'.overlayNodes = Function.update runtime.overlayNodes i node)
    (hcwd : runtime'.cwd = runtime.cwd) (hnode : P node.path) : Named P runtime' := by
  refine ⟨by rw [hcwd]; exact h.cwd, fun j hused => ?_⟩
  rw [hnodes] at hused ⊢
  by_cases hj : j = i
  · subst hj
    rw [Function.update_self]
    exact hnode
  · rw [Function.update_of_ne hj] at hused ⊢
    exact h.nodes j hused

theorem Named.alloc {directory : Bool} {mode : BitVec 32}
    (halloc : runtime.allocOverlayNode path directory mode = some (i, runtime'))
    (hpath : P path) : Named P runtime' := by
  obtain ⟨-, node, hnodes, -, hnode, -⟩ := allocOverlayNode_some halloc
  refine h.update hnodes ?_ (by rw [hnode]; exact hpath)
  unfold allocOverlayNode at halloc
  split at halloc
  · cases halloc
  split at halloc
  · cases halloc
  cases halloc
  rfl

theorem Named.openTarget (flags : BitVec 32) (target : LinuxNodeRef) :
    Named P (runtime.openTarget path flags target).1 := by
  refine h.quiet (openTarget_quiet ..) ?_
  unfold LinuxRuntime.openTarget
  cases target with
  | lower node =>
    dsimp only
    split <;> rfl
  | overlay i =>
    by_cases htruncate : has flags oTrunc
    · simp only [htruncate]
      repeat' split
      all_goals rfl
    · simp only [htruncate]
      repeat' split
      all_goals rfl

theorem Named.openPath (hpath : P path) (flags : BitVec 32) :
    Named P (runtime.openPath rootfs path flags).1 := by
  unfold LinuxRuntime.openPath
  repeat' split
  all_goals first
    | exact h
    | exact h.openTarget ..
    | exact (h.alloc ‹_› hpath).openTarget ..
    | exact ((h.alloc ‹_› hpath).quiet (copyUp_quiet ..) rfl).openTarget ..

theorem Named.dropLink (hnil : P []) (i : OverlaySlot) :
    Named P (runtime.overlayDropLink i) := h.update rfl rfl hnil

theorem Named.unlinkat (hnil : P []) (dirfd : ℤ) (path : LinuxPath) :
    Named P (runtime.unlinkat rootfs dirfd path).1 := by
  unfold LinuxRuntime.unlinkat
  repeat' split
  all_goals first
    | exact h
    | exact h.dropLink hnil _

theorem Named.chdir (hplain : Plain path) : Named P (runtime.chdir rootfs path).1 := by
  unfold LinuxRuntime.chdir
  split
  · exact h
  rename_i hcopy
  split_ifs
  all_goals first
    | exact h
    | exact ⟨h.copyInPath_normal hplain hcopy, h.nodes⟩

end

section

variable (hP : ∀ path, Normal slash dot path → P path)

include hP

variable (h : Named P runtime)

include h

theorem Named.openat (hplain : Plain path) (dirfd : ℤ) (flags : BitVec 32) :
    Named P (runtime.openat rootfs dirfd path flags).1 := by
  unfold LinuxRuntime.openat
  split
  · exact h
  split
  · exact h
  rename_i hcopy
  split_ifs
  all_goals first
    | exact h
    | exact h.quiet (openDevice_quiet ..) (by unfold openDevice; split <;> rfl)
    | exact h.openPath (hP _ (h.copyInPath_normal hplain hcopy)) flags

theorem Named.mkdirat (hplain : Plain path) (dirfd : ℤ) : Named P (runtime.mkdirat rootfs dirfd path).1 := by
  unfold LinuxRuntime.mkdirat
  split
  · exact h
  split
  · exact h
  rename_i hcopy
  split_ifs
  all_goals first
    | exact h
    | split
  · exact h
  · exact h.alloc ‹_› (hP _ (h.copyInPath_normal hplain hcopy))

theorem Named.renameat (hnil : P []) (hplain : Plain path) (dirfd : ℤ)
    (oldPath : LinuxPath) : Named P (runtime.renameat rootfs dirfd oldPath path).1 := by
  unfold LinuxRuntime.renameat moveNode
  split
  · exact h
  split
  · rename_i hcopy
    have hnew := hP _ (h.copyInPath_normal hplain hcopy)
    have hmoved : ∀ cleared source, Named P cleared → Named P (cleared.touchWith source
        { cleared.overlayNodes source with path := _, nlink := 1, dirty := true }) :=
      fun cleared source hcleared => hcleared.update rfl rfl hnew
    repeat' split
    all_goals first
      | exact h
      | exact hmoved _ _ h
      | exact hmoved _ _ (h.dropLink hnil _)
  · exact h

theorem Named.perform (hnil : P []) {action : PathAction}
    (hplain : action.Plain) : Named P (action.perform rootfs runtime) := by
  match action with
  | .call (.openat dirfd path flags) => exact h.openat hP hplain dirfd flags
  | .call (.mkdirat dirfd path) => exact h.mkdirat hP hplain dirfd
  | .call (.unlinkat dirfd path) => exact h.unlinkat hnil dirfd path
  | .call (.renameat dirfd oldPath newPath) => exact h.renameat hP hnil hplain.2 dirfd oldPath
  | .call (.close fd) =>
    refine h.quiet (close_quiet fd) ?_
    unfold PathAction.perform NamespaceAction.perform close
    dsimp only
    repeat' split
    all_goals rfl
  | .call (.write fd buffer readable) =>
    refine h.quiet (write_quiet ..) ?_
    simp only [PathAction.perform, NamespaceAction.perform, write, writeOverlay]
    repeat' split
    all_goals rfl
  | .chdir path => exact h.chdir hplain

theorem Named.run (hnil : P []) (actions : List PathAction)
    (hplain : ∀ action ∈ actions, action.Plain) :
    Named P (PathAction.run rootfs runtime actions) := by
  induction actions generalizing runtime with
  | nil => exact h
  | cons action actions ih =>
    exact ih (h.perform hP hnil (hplain action mem_cons_self))
      fun other hmem => hplain other (mem_cons_of_mem _ hmem)

end

theorem copyInPath_iff (hcwd : Normal slash dot runtime.cwd) (hparent : NoParent path)
    (hfits : runtime.Fits path) :
    runtime.copyInPath path = some (normalForm runtime.cwd path) ↔ Plain path := by
  by_cases hne : path = []
  · subst hne
    refine iff_of_false (fun hcopy => ?_) fun hplain => ?_
    · unfold copyInPath resolveRuntimePath at hcopy
      split at hcopy
      · cases hcopy
      · cases hcopy
    · exact hplain.1 rfl
  · rw [copyInPath_fits (Normal.head? hcwd) hne (pathHasParentReference_eq hparent) hfits,
      Option.some_inj]
    exact spelled_eq_iff hcwd hne

/-- The path calls do the same with both paths. -/
structure SameCalls (rootfs : List LinuxRootfsNode) (runtime : LinuxRuntime)
    (path path' : LinuxPath) : Prop where
  openat : ∀ flags, runtime.openat rootfs atFdcwd path flags =
    runtime.openat rootfs atFdcwd path' flags
  mkdirat : runtime.mkdirat rootfs atFdcwd path = runtime.mkdirat rootfs atFdcwd path'
  unlinkat : runtime.unlinkat rootfs atFdcwd path = runtime.unlinkat rootfs atFdcwd path'
  renameat : ∀ other, runtime.renameat rootfs atFdcwd path other =
      runtime.renameat rootfs atFdcwd path' other ∧
    runtime.renameat rootfs atFdcwd other path = runtime.renameat rootfs atFdcwd other path'
  chdir : runtime.chdir rootfs path = runtime.chdir rootfs path'

theorem sameCalls {path' : LinuxPath} (h : runtime.copyInPath path = runtime.copyInPath path') :
    SameCalls rootfs runtime path path' := by
  refine ⟨fun flags => ?_, ?_, ?_, fun other => ⟨?_, ?_⟩, ?_⟩
  · simp [openat, h]
  · simp [mkdirat, h]
  · simp [unlinkat, h]
  · simp [renameat, h]
  · simp [renameat, h]
  · simp [chdir, h]

/-- The paths that a run from a state may leave in the nodes. -/
def Left (runtime : LinuxRuntime) (path : LinuxPath) : Prop :=
  path = [] ∨ Normal slash dot path ∨
    ∃ i, (runtime.overlayNodes i).used ∧ (runtime.overlayNodes i).path = path

/-- Exactly the plain spellings are looked up in normal form; two of them name the same node, and
calls with plain paths leave normal paths in the nodes. -/
theorem pathCalls_spellings (rootfs : List LinuxRootfsNode) (runtime : LinuxRuntime)
    (hcwd : Normal slash dot runtime.cwd) :
    (∀ path, NoParent path → runtime.Fits path →
      (runtime.copyInPath path = some (normalForm runtime.cwd path) ↔ Plain path)) ∧
    (∀ path path', NoParent path ∧ runtime.Fits path ∧ Plain path →
      NoParent path' ∧ runtime.Fits path' ∧ Plain path' →
      normalForm runtime.cwd path = normalForm runtime.cwd path' →
      SameCalls rootfs runtime path path') ∧
    ∀ actions : List PathAction, (∀ action ∈ actions, action.Plain) →
      Named (Left runtime) (PathAction.run rootfs runtime actions) := by
  refine ⟨fun path hparent hfits => copyInPath_iff hcwd hparent hfits,
    fun path path' hpath hpath' hsame => sameCalls ?_, fun actions hplain => ?_⟩
  · rw [(copyInPath_iff hcwd hpath.1 hpath.2.1).2 hpath.2.2,
      (copyInPath_iff hcwd hpath'.1 hpath'.2.1).2 hpath'.2.2, hsame]
  have hstart : Named (Left runtime) runtime :=
    ⟨hcwd, fun i hused => .inr (.inr ⟨i, hused, rfl⟩)⟩
  exact hstart.run (fun _ hnormal => .inr (.inl hnormal)) (.inl rfl) actions hplain

theorem root_spellings :
    (init false).copyInPath [46, 47, 97] = some (normalForm (init false).cwd [46, 47, 97]) ∧
      SameCalls oneFile (init false) [46, 47, 97] [47, 97] := by
  obtain ⟨hlooked, hcalls, -⟩ := pathCalls_spellings oneFile (init false) (by decide)
  have hdotted : NoParent [46, 47, 97] ∧ (init false).Fits [46, 47, 97] ∧ Plain [46, 47, 97] := by
    unfold NoParent Fits Plain AllProper
    decide
  have hdirect : NoParent [47, 97] ∧ (init false).Fits [47, 97] ∧ Plain [47, 97] := by
    unfold NoParent Fits Plain AllProper
    decide
  exact ⟨(hlooked _ hdotted.1 hdotted.2.1).2 hdotted.2.2, hcalls _ _ hdotted hdirect (by decide)⟩

/-- `//a` is not found where `/a` is, and `//b` is created. -/
theorem doubledSlash_differs :
    Normal slash dot (init false).cwd ∧ NoParent [47, 47, 97] ∧ (init false).Fits [47, 47, 97] ∧
      (init false).copyInPath [47, 47, 97] ≠ some (normalForm (init false).cwd [47, 47, 97]) ∧
      ((init false).openat oneFile atFdcwd [47, 97] 0).2.value = 3 ∧
      ((init false).openat oneFile atFdcwd [47, 47, 97] 0).2.value = -2 ∧
      (((init false).mkdirat oneFile atFdcwd [47, 47, 98]).1.overlayNodes 0).path = [47, 47, 98] ∧
      ¬Normal slash dot [47, 47, 98] := by
  unfold NoParent Fits
  decide +kernel

end LinuxRuntime
end VisualCpu
