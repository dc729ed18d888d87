import VisualCpu.Kernel.LinuxRename

/-!
# Runs over the namespace

Over a rootfs that is a tree the namespace stays a tree, a removed path stays away and a
renamed path takes its node along, as long as a removed or renamed file is not a copy of a
rootfs file and a renamed directory is empty.
-/

namespace VisualCpu

open Function LinuxCompat List Option

inductive NamespaceAction where
  | openat (dirfd : ℤ) (path : LinuxPath) (flags : BitVec 32)
  | mkdirat (dirfd : ℤ) (path : LinuxPath)
  | unlinkat (dirfd : ℤ) (path : LinuxPath)
  | renameat (dirfd : ℤ) (oldPath newPath : LinuxPath)
  | close (fd : ℤ)
  | write (fd : ℤ) (buffer : List UInt8) (readable : ℕ)

/-- A rootfs table: distinct paths, a directory as the root, and above every other node. -/
structure RootfsTree (rootfs : List LinuxRootfsNode) : Prop where
  distinct : (rootfs.map LinuxRootfsNode.path).Nodup
  placed : ∀ node ∈ rootfs, (node.path = [slash] ∧ node.directory) ∨
    ∃ parent ∈ rootfs, parentOf node.path = some parent.path ∧ parent.directory

namespace NamespaceAction

variable (rootfs : List LinuxRootfsNode) (runtime : LinuxRuntime)

def perform : NamespaceAction → LinuxRuntime × LinuxReply
  | openat dirfd path flags => runtime.openat rootfs dirfd path flags
  | mkdirat dirfd path => runtime.mkdirat rootfs dirfd path
  | unlinkat dirfd path => runtime.unlinkat rootfs dirfd path
  | renameat dirfd oldPath newPath => runtime.renameat rootfs dirfd oldPath newPath
  | close fd => runtime.close fd
  | write fd buffer readable => runtime.write fd buffer readable

def Absolute : NamespaceAction → Prop
  | openat _ path _ => path.head? = some slash
  | mkdirat _ path => path.head? = some slash
  | unlinkat _ path => path.head? = some slash
  | renameat _ oldPath newPath => oldPath.head? = some slash ∧ newPath.head? = some slash
  | close _ => True
  | write _ _ _ => True

instance : (action : NamespaceAction) → Decidable action.Absolute
  | openat _ path _ => inferInstanceAs (Decidable (path.head? = some slash))
  | mkdirat _ path => inferInstanceAs (Decidable (path.head? = some slash))
  | unlinkat _ path => inferInstanceAs (Decidable (path.head? = some slash))
  | renameat _ _ _ => inferInstanceAs (Decidable (_ ∧ _))
  | close _ => inferInstanceAs (Decidable True)
  | write _ _ _ => inferInstanceAs (Decidable True)

/-- The calls that may bring a path about. -/
def Makes (path : LinuxPath) : NamespaceAction → Prop
  | openat _ opened flags => opened = path ∧ has flags oCreat
  | mkdirat _ made => made = path
  | renameat _ _ newPath => newPath = path
  | _ => False

/-- No node of overlay or rootfs lies under the path. -/
def NothingBelow (path : LinuxPath) : Prop :=
  (∀ i, (runtime.overlayNodes i).used → ¬Below path (runtime.overlayNodes i).path) ∧
    ∀ node ∈ rootfs, ¬Below path node.path

instance (path : LinuxPath) : Decidable (NothingBelow rootfs runtime path) :=
  inferInstanceAs (Decidable (_ ∧ _))

def moves : NamespaceAction → Option OverlaySlot
  | unlinkat dirfd path =>
    if dirfd = atFdcwd ∧ runtime.copyInPath path = some path then
      (runtime.findOverlayNode path).filter fun i => !(runtime.overlayNodes i).directory
    else none
  | renameat dirfd oldPath newPath =>
    if dirfd = atFdcwd ∧ runtime.copyInPath oldPath = some oldPath ∧
        runtime.copyInPath newPath = some newPath ∧ oldPath ≠ newPath ∧
        runtime.parentDirectoryExists rootfs newPath ∧
        (LinuxRuntime.findNode rootfs newPath = none ∨
          (runtime.findOverlayNode newPath).isSome) then
      runtime.findOverlayNode oldPath
    else none
  | _ => none

/-- A file that is removed or renamed is no copy of a rootfs file; nothing lies below a renamed
path, nor does its new path, and no file takes the place of a directory with children. -/
def Harmless (i : OverlaySlot) : NamespaceAction → Prop
  | unlinkat _ path => LinuxRuntime.findNode rootfs path = none
  | renameat _ oldPath newPath => LinuxRuntime.findNode rootfs oldPath = none ∧
      NothingBelow rootfs runtime oldPath ∧ ¬Below oldPath newPath ∧
      ((runtime.overlayNodes i).directory ∨ NothingBelow rootfs runtime newPath)
  | _ => True

instance (i : OverlaySlot) : (action : NamespaceAction) →
    Decidable (action.Harmless rootfs runtime i)
  | openat _ _ _ => inferInstanceAs (Decidable True)
  | mkdirat _ _ => inferInstanceAs (Decidable True)
  | unlinkat _ _ => inferInstanceAs (Decidable (_ = _))
  | renameat _ _ _ => inferInstanceAs (Decidable (_ ∧ _ ∧ _ ∧ (_ ∨ _)))
  | close _ => inferInstanceAs (Decidable True)
  | write _ _ _ => inferInstanceAs (Decidable True)

/-- If the call takes a node from its path, it is harmless. -/
def Spares (action : NamespaceAction) : Prop :=
  ∀ i, action.moves rootfs runtime = some i → action.Harmless rootfs runtime i

instance (action : NamespaceAction) : Decidable (action.Spares rootfs runtime) :=
  inferInstanceAs (Decidable (∀ _, _))

/-- Every call of the run spares the names it is not about. -/
def Spared (runtime : LinuxRuntime) : List NamespaceAction → Prop
  | [] => True
  | action :: rest => action.Spares rootfs runtime ∧ Spared (action.perform rootfs runtime).1 rest

instance decideSpared : (actions : List NamespaceAction) → (runtime : LinuxRuntime) →
    Decidable (Spared rootfs runtime actions)
  | [], _ => inferInstanceAs (Decidable True)
  | action :: rest, runtime =>
    have := decideSpared rest (action.perform rootfs runtime).1
    inferInstanceAs (Decidable (_ ∧ _))

end NamespaceAction

namespace LinuxRuntime

/-- Every path but the root lies in a directory, and linked nodes have paths of their own. -/
structure NamespaceSound (rootfs : List LinuxRootfsNode) (runtime : LinuxRuntime) : Prop where
  tree : ∀ path : LinuxPath, path.head? = some slash → path ≠ [slash] →
    (resolve rootfs runtime path).isSome → ∃ parent named, parentOf path = some parent ∧
      resolve rootfs runtime parent = some named ∧ named.directory
  distinct : ∀ i j, (runtime.overlayNodes i).used → (runtime.overlayNodes i).nlink ≠ 0 →
    (runtime.overlayNodes j).used → (runtime.overlayNodes j).nlink ≠ 0 →
    (runtime.overlayNodes i).path = (runtime.overlayNodes j).path → i = j

/-- What a rename is to do. -/
structure Moved (rootfs : List LinuxRootfsNode) (runtime runtime' : LinuxRuntime)
    (oldPath newPath : LinuxPath) : Prop where
  gone : resolve rootfs runtime' oldPath = none
  named : resolve rootfs runtime' newPath = resolve rootfs runtime oldPath
  below : ∀ rest, (resolve rootfs runtime (oldPath ++ slash :: rest)).isSome = true →
    resolve rootfs runtime' (newPath ++ slash :: rest) =
      resolve rootfs runtime (oldPath ++ slash :: rest)
  others : ∀ path : LinuxPath, path.head? = some slash → path ≠ oldPath → path ≠ newPath →
    ¬Below oldPath path → (∀ rest, path = newPath ++ slash :: rest →
      resolve rootfs runtime (oldPath ++ slash :: rest) = none) →
    resolve rootfs runtime' path = resolve rootfs runtime path

/-- The path names nothing until a call may bring it about. -/
def StaysGone (rootfs : List LinuxRootfsNode) (path : LinuxPath) (runtime : LinuxRuntime) :
    List NamespaceAction → Prop
  | [] => resolve rootfs runtime path = none
  | action :: rest => resolve rootfs runtime path = none ∧
      (action.Makes path ∨ StaysGone rootfs path (action.perform rootfs runtime).1 rest)

/-- What the claim asks of one call with the calls after it. -/
def CallObeys (rootfs : List LinuxRootfsNode) (runtime : LinuxRuntime) (action : NamespaceAction)
    (rest : List NamespaceAction) : Prop :=
  (action.perform rootfs runtime).2.value = 0 →
    match action with
    | .unlinkat _ path => StaysGone rootfs path (action.perform rootfs runtime).1 rest
    | .renameat _ oldPath newPath => oldPath ≠ newPath →
        Moved rootfs runtime (action.perform rootfs runtime).1 oldPath newPath
    | _ => True

/-- Every state of the run is a tree and every call does what it is to do. -/
def Obeys (rootfs : List LinuxRootfsNode) (runtime : LinuxRuntime) : List NamespaceAction → Prop
  | [] => NamespaceSound rootfs runtime
  | action :: rest => NamespaceSound rootfs runtime ∧ CallObeys rootfs runtime action rest ∧
      Obeys rootfs (action.perform rootfs runtime).1 rest

variable {rootfs : List LinuxRootfsNode} {runtime : LinuxRuntime} {path : LinuxPath}
  {node : LinuxRootfsNode}

theorem Sound.namespaceSound (h : Sound rootfs runtime) : NamespaceSound rootfs runtime := by
  refine ⟨fun path hhead hroot hsome => ?_, fun i j hi hilink hj _ hpath => ?_⟩
  · have hkind : (kind rootfs runtime path).isSome := by
      rw [kind_of_head hhead, isSome_map]
      exact hsome
    obtain ⟨parent, hof, hdirectory⟩ := h.tree path hroot hkind
    rw [kind_of_head (parentOf_some hof).2.1, map_eq_some_iff] at hdirectory
    obtain ⟨named, hresolve, hnamed⟩ := hdirectory
    exact ⟨parent, named, hof, hresolve, hnamed⟩
  · refine h.slots.distinct i j hi hj hpath fun hempty => ?_
    rcases h.slots.linked i hi with ⟨-, hhead, -⟩ | ⟨hlink, -⟩
    · exact ne_nil_of_head hhead hempty
    · exact hilink hlink

theorem findNode_mem (h : findNode rootfs path = some node) : node ∈ rootfs ∧ node.path = path := by
  rw [findNode] at h
  split at h
  · cases h
  have hpath := find?_some h
  exact ⟨mem_of_find?_eq_some h, by simpa using (eq_of_beq hpath).symm⟩

theorem resolve_below (h : NamespaceAction.NothingBelow rootfs runtime path) {below : LinuxPath}
    (hbelow : Below path below) : resolve rootfs runtime below = none := by
  obtain ⟨hoverlay, hlower⟩ := h
  have hnone : findNode rootfs below = none := by
    cases hfind : findNode rootfs below with
    | none => rfl
    | some node =>
      obtain ⟨hmem, hpath⟩ := findNode_mem hfind
      exact absurd (by rw [hpath]; exact hbelow) (hlower node hmem)
  rw [resolve_lower fun i hused hpath => hoverlay i hused (by rw [hpath]; exact hbelow), lowerNamed,
    hnone]
  rfl

theorem kind_child (h : NamespaceAction.NothingBelow rootfs runtime path) (hroot : path ≠ [slash])
    {child : LinuxPath} (hchild : parentOf child = some path) :
    kind rootfs runtime child = none := by
  rw [kind]
  split
  · rw [resolve_below h ((parentOf_some hchild).2.2.2.resolve_left hroot)]
    rfl
  · rfl

variable {action : NamespaceAction} {runtime' : LinuxRuntime} {dirfd : ℤ}

theorem unlinkat_step (h : Sound rootfs runtime) (hhead : path.head? = some slash)
    (hspares : (NamespaceAction.unlinkat dirfd path).Spares rootfs runtime) :
    Sound rootfs (runtime.unlinkat rootfs dirfd path).1 ∧
      ((runtime.unlinkat rootfs dirfd path).2.value = 0 →
        resolve rootfs (runtime.unlinkat rootfs dirfd path).1 path = none) ∧
      ∀ q, q.head? = some slash → q ≠ path →
        resolve rootfs (runtime.unlinkat rootfs dirfd path).1 q = resolve rootfs runtime q := by
  rcases @unlinkat_cases rootfs runtime path hhead dirfd with
    ⟨hsame, hvalue⟩ | ⟨hdirfd, hcopy, i, hfind, hfile, hdrop⟩
  · rw [hsame]
    exact ⟨h, fun hzero => absurd hzero hvalue, fun _ _ _ => rfl⟩
  obtain ⟨hused, hpath⟩ := findOverlayNode_some hfind
  have hlower : findNode rootfs path = none :=
    hspares i (by simp [NamespaceAction.moves, hdirfd, hcopy, hfind, hfile])
  obtain ⟨hslots, hnone, hothers⟩ := overlayDropLink_sound h.slots hused hpath hhead
  have hgone : resolve rootfs (runtime.overlayDropLink i) path = none := by
    rw [resolve_lower hnone, lowerNamed, hlower]
    rfl
  rw [hdrop]
  refine ⟨⟨hslots, ?_⟩, fun _ => hgone, hothers⟩
  have hkind : kind rootfs (runtime.overlayDropLink i) =
      update (kind rootfs runtime) path none := by
    funext q
    by_cases hq : q = path
    · subst hq
      rw [update_self, kind_of_head hhead, hgone]
      rfl
    rw [update_of_ne hq, kind, kind]
    split
    · rename_i hqhead
      rw [hothers q hqhead hq]
    · rfl
  rw [hkind]
  refine h.tree.remove fun c hc => h.tree.no_children (p := path) ?_ (parentOf_some hc).1 hc
  rw [kind_of_head hhead, h.slots.resolve_eq hused hpath (ne_nil_of_head hhead)]
  simp [LinuxOverlayNode.named, hfile]

theorem below_append (path rest : LinuxPath) : Below path (path ++ slash :: rest) :=
  ⟨rest, by simp⟩

theorem renameat_step (h : Sound rootfs runtime) {oldPath newPath : LinuxPath}
    (hold : oldPath.head? = some slash) (hnew : newPath.head? = some slash)
    (hspares : (NamespaceAction.renameat dirfd oldPath newPath).Spares rootfs runtime) :
    Sound rootfs (runtime.renameat rootfs dirfd oldPath newPath).1 ∧
      ((runtime.renameat rootfs dirfd oldPath newPath).2.value = 0 → oldPath ≠ newPath →
        Moved rootfs runtime (runtime.renameat rootfs dirfd oldPath newPath).1 oldPath newPath) ∧
      ∀ q, q.head? = some slash → resolve rootfs runtime q = none → q ≠ newPath →
        resolve rootfs (runtime.renameat rootfs dirfd oldPath newPath).1 q = none := by
  rcases @renameat_cases rootfs runtime oldPath newPath hold hnew dirfd with
    ⟨hsame, hvalue⟩ | ⟨hdirfd, hcopyOld, hcopyNew, i, hfind, hparent, hcover, hmove⟩
  · rw [hsame]
    exact ⟨h, fun hzero => absurd hzero hvalue, fun _ _ hnone _ => hnone⟩
  obtain ⟨hused, hpath⟩ := findOverlayNode_some hfind
  rw [hmove]
  by_cases hne : oldPath = newPath
  · subst hne
    have hq := moveNode_self h.slots hused hpath hold
    refine ⟨h.quiet hq, fun _ hno => absurd rfl hno, fun q hqhead hnone _ => ?_⟩
    have hkind := congrFun (hq.kind_eq h.slots) q
    rw [kind_of_head hqhead, kind_of_head hqhead, hnone] at hkind
    exact map_eq_none_iff.1 hkind
  · obtain ⟨hlower, hbelow, hapart, hreplace⟩ := hspares i (by
      simp only [NamespaceAction.moves]
      rw [if_pos ⟨hdirfd, hcopyOld, hcopyNew, hne, hparent, hcover⟩, hfind])
    obtain ⟨parent, hof, hdirectory⟩ := parentDirectoryExists_kind hparent
    have hcovered : ∀ lower, findNode rootfs newPath = some lower → lower.directory = false := by
      intro lower hl
      rcases hcover with hnone | htarget
      · rw [hnone] at hl
        cases hl
      obtain ⟨target, htarget⟩ := isSome_iff_exists.1 htarget
      obtain ⟨htused, htpath⟩ := findOverlayNode_some htarget
      exact h.slots.cover target lower htused (by rw [htpath]; exact hl)
    obtain ⟨hslots, hgone, hnamed, hothers⟩ := moveNode_sound h.slots hused hpath hold hnew
      (parentOf_some hof).1 hcovered hne
    have hoff : resolve rootfs (runtime.moveNode i newPath) oldPath = none := by
      rw [hgone, lowerNamed, hlower]
      rfl
    refine ⟨⟨hslots, ?_⟩,
      fun _ _ => ⟨hoff, hnamed, fun rest hsome => ?_, fun q hqhead hqo hqn _ _ =>
      hothers q hqhead hqo hqn⟩, fun q hqhead hnone hqn => ?_⟩
    · have hself : resolve rootfs runtime oldPath = some ((runtime.overlayNodes i).named i) :=
        h.slots.resolve_eq hused hpath (ne_nil_of_head hold)
      have hkind : kind rootfs (runtime.moveNode i newPath) =
          update (update (kind rootfs runtime) oldPath none) newPath
            (some (runtime.overlayNodes i).directory) := by
        funext q
        by_cases hqn : q = newPath
        · subst hqn
          rw [update_self, kind_of_head hnew, hnamed, hself]
          rfl
        rw [update_of_ne hqn]
        by_cases hqo : q = oldPath
        · subst hqo
          rw [update_self, kind_of_head hold, hoff]
          rfl
        rw [update_of_ne hqo, kind, kind]
        split
        · rename_i hqhead
          rw [hothers q hqhead hqo hqn]
        · rfl
      have hroot : oldPath ≠ [slash] := by
        rcases h.slots.linked i hused with ⟨-, -, hroot⟩ | ⟨-, hempty⟩
        · rw [← hpath]
          exact hroot
        · exact absurd (hpath.symm.trans hempty) (ne_nil_of_head hold)
      have hparentNe : parent ≠ oldPath := by
        rintro rfl
        exact hapart ((parentOf_some hof).2.2.2.resolve_left hroot)
      rw [hkind]
      refine (h.tree.remove fun c hc => kind_child hbelow hroot hc).put hof
        (by rw [update_of_ne hparentNe, hdirectory]) (parentOf_some hof).2.2.1 ?_
      refine hreplace.imp_right fun hempty c hc => ?_
      by_cases hco : c = oldPath
      · rw [hco, update_self]
      rw [update_of_ne hco]
      exact kind_child hempty (parentOf_some hof).1 hc
    · rw [resolve_below hbelow (below_append _ _)] at hsome
      cases hsome
    · by_cases hqo : q = oldPath
      · rw [hqo]
        exact hoff
      rw [hothers q hqhead hqo hqn]
      exact hnone

theorem findNode_root (h : RootfsTree rootfs)
    (hfind : findNode rootfs [slash] = some node) : node.directory := by
  obtain ⟨hmem, hpath⟩ := findNode_mem hfind
  rcases h.placed node hmem with ⟨-, hdirectory⟩ | ⟨parent, -, hof, -⟩
  · exact hdirectory
  · exact absurd hpath (parentOf_some hof).1

theorem resolve_of_kind (hhead : path.head? = some slash)
    (hkind : kind rootfs runtime' path = kind rootfs runtime path)
    (hnone : resolve rootfs runtime path = none) : resolve rootfs runtime' path = none := by
  rw [kind_of_head hhead, kind_of_head hhead, hnone] at hkind
  exact map_eq_none_iff.1 hkind

theorem Creates.stays {made : LinuxPath} {directory : Bool}
    (hc : Creates rootfs runtime runtime' made directory) (hhead : path.head? = some slash)
    (hne : path ≠ made) (hnone : resolve rootfs runtime path = none) :
    resolve rootfs runtime' path = none := by
  refine resolve_of_kind hhead ?_ hnone
  rw [hc.2.2.2, update_of_ne hne]

section

variable (hrootfs : RootfsTree rootfs)

include hrootfs

theorem perform_sound (h : Sound rootfs runtime)
    (habsolute : action.Absolute) (hspares : action.Spares rootfs runtime) :
    Sound rootfs (action.perform rootfs runtime).1 ∧
      ∀ path : LinuxPath, path.head? = some slash → ¬action.Makes path →
        resolve rootfs runtime path = none →
        resolve rootfs (action.perform rootfs runtime).1 path = none := by
  have hquiet : ∀ runtime', Quiet runtime runtime' → Sound rootfs runtime' ∧
      ∀ path : LinuxPath, path.head? = some slash → ¬action.Makes path →
        resolve rootfs runtime path = none → resolve rootfs runtime' path = none :=
    fun runtime' hq => ⟨h.quiet hq, fun path hhead _ hnone =>
      resolve_of_kind hhead (by rw [hq.kind_eq h.slots]) hnone⟩
  cases action with
  | openat dirfd opened flags =>
    rcases openat_cases h.slots habsolute (fun node hfind => findNode_root hrootfs hfind)
      dirfd flags with
      ⟨hslots, hkind⟩ | ⟨hcreate, hcreates⟩
    · refine ⟨⟨hslots, ?_⟩, fun path hhead _ hnone => resolve_of_kind hhead (congrFun hkind path)
        hnone⟩
      show PathTree.IsTree parentOf [slash]
        (kind rootfs (runtime.openat rootfs dirfd opened flags).1)
      rw [hkind]
      exact h.tree
    · exact ⟨hcreates.sound h, fun path hhead hmakes hnone =>
        hcreates.stays hhead (fun heq => hmakes ⟨heq.symm, hcreate⟩) hnone⟩
  | mkdirat dirfd made =>
    rcases mkdirat_cases h.slots habsolute dirfd with hsame | hcreates
    · refine hquiet _ ?_
      rw [NamespaceAction.perform, hsame]
      exact Quiet.refl
    · exact ⟨hcreates.sound h, fun path hhead hmakes hnone =>
        hcreates.stays hhead (fun heq => hmakes heq.symm) hnone⟩
  | unlinkat dirfd removed =>
    obtain ⟨hsound, -, hothers⟩ := unlinkat_step h habsolute hspares
    refine ⟨hsound, fun path hhead _ hnone => ?_⟩
    by_cases heq : path = removed
    · subst heq
      rcases @unlinkat_cases rootfs runtime path hhead dirfd with
        ⟨hsame, -⟩ | ⟨-, -, i, hfind, -, -⟩
      · rw [NamespaceAction.perform, hsame]
        exact hnone
      rw [resolve, hfind] at hnone
      cases hnone
    · exact (hothers path hhead heq).trans hnone
  | renameat dirfd oldPath newPath =>
    obtain ⟨hsound, -, hothers⟩ := renameat_step h habsolute.1 habsolute.2 hspares
    exact ⟨hsound, fun path hhead hmakes hnone =>
      hothers path hhead hnone fun heq => hmakes heq.symm⟩
  | close fd => exact hquiet _ (close_quiet fd)
  | write fd buffer readable => exact hquiet _ (write_quiet fd buffer readable)

theorem staysGone (hhead : path.head? = some slash)
    (actions : List NamespaceAction) (runtime : LinuxRuntime) (h : Sound rootfs runtime)
    (habsolute : ∀ action ∈ actions, action.Absolute)
    (hspared : NamespaceAction.Spared rootfs runtime actions)
    (hnone : resolve rootfs runtime path = none) : StaysGone rootfs path runtime actions := by
  induction actions generalizing runtime with
  | nil => exact hnone
  | cons action rest ih =>
    refine ⟨hnone, ?_⟩
    by_cases hmakes : action.Makes path
    · exact .inl hmakes
    obtain ⟨hsound, hstays⟩ :=
      perform_sound hrootfs h (habsolute action mem_cons_self) hspared.1
    exact .inr (ih _ hsound (fun other hmem => habsolute other (mem_cons_of_mem _ hmem))
      hspared.2 (hstays path hhead hmakes hnone))

theorem obeys (actions : List NamespaceAction) (runtime : LinuxRuntime) (h : Sound rootfs runtime)
    (habsolute : ∀ action ∈ actions, action.Absolute)
    (hspared : NamespaceAction.Spared rootfs runtime actions) : Obeys rootfs runtime actions := by
  induction actions generalizing runtime with
  | nil => exact h.namespaceSound
  | cons action rest ih =>
    have hrest : ∀ other ∈ rest, other.Absolute := fun other hmem =>
      habsolute other (mem_cons_of_mem _ hmem)
    have hnow := habsolute action mem_cons_self
    obtain ⟨hsound, -⟩ := perform_sound hrootfs h hnow hspared.1
    refine ⟨h.namespaceSound, fun hvalue => ?_, ih _ hsound hrest hspared.2⟩
    cases action with
    | unlinkat dirfd path =>
      obtain ⟨-, hgone, -⟩ := unlinkat_step h hnow hspared.1
      exact staysGone hrootfs hnow rest _ hsound hrest hspared.2 (hgone hvalue)
    | renameat dirfd oldPath newPath =>
      obtain ⟨-, hmoved, -⟩ := renameat_step h hnow.1 hnow.2 hspared.1
      exact hmoved hvalue
    | openat dirfd path flags => trivial
    | mkdirat dirfd path => trivial
    | close fd => trivial
    | write fd buffer readable => trivial

theorem init_sound (vm : Bool) : Sound rootfs (init vm) := by
  have hslots : SlotsSound rootfs (init vm) :=
    ⟨fun i hused => (by cases hused), fun i j hused => (by cases hused),
      fun i node hused => (by cases hused)⟩
  have hresolve : ∀ path, resolve rootfs (init vm) path = lowerNamed rootfs path := fun path =>
    resolve_lower fun i hused => by cases hused
  refine ⟨hslots, fun path hroot hsome => ?_⟩
  rw [kind] at hsome
  split at hsome
  · rw [hresolve, isSome_map, lowerNamed, isSome_map] at hsome
    obtain ⟨node, hfind⟩ := isSome_iff_exists.1 hsome
    obtain ⟨hmem, hpath⟩ := findNode_mem hfind
    rcases hrootfs.placed node hmem with ⟨hslash, -⟩ | ⟨parent, hparent, hof, hdirectory⟩
    · exact absurd (hpath.symm.trans hslash) hroot
    rw [hpath] at hof
    refine ⟨parent.path, hof, ?_⟩
    have hhead := (parentOf_some hof).2.1
    rw [kind_of_head hhead, hresolve, lowerNamed]
    have hfound : findNode rootfs parent.path = some parent := by
      cases hother : findNode rootfs parent.path with
      | none =>
        rw [findNode, if_neg (ne_nil_of_head hhead), find?_eq_none] at hother
        exact absurd (beq_self_eq_true _) (hother parent hparent)
      | some other =>
        obtain ⟨hotherMem, hotherPath⟩ := findNode_mem hother
        rw [inj_on_of_nodup_map hrootfs.distinct hotherMem hparent hotherPath]
    rw [hfound]
    exact congrArg some hdirectory
  · cases hsome

end

/-- Every run over a rootfs tree whose calls spare the names obeys. -/
theorem run_obeys (hrootfs : RootfsTree rootfs) (vm : Bool) (actions : List NamespaceAction)
    (habsolute : ∀ action ∈ actions, action.Absolute)
    (hspared : NamespaceAction.Spared rootfs (init vm) actions) :
    Obeys rootfs (init vm) actions :=
  obeys hrootfs actions (init vm) (init_sound hrootfs vm) habsolute hspared

/-- A root with one file, `/a`. -/
def oneFile : List LinuxRootfsNode :=
  [⟨[47], [], false, true, 1, dirMode⟩, ⟨[47, 97], [7], false, false, 2, fileMode false⟩]

theorem oneFile_tree : RootfsTree oneFile := by
  refine ⟨by decide, fun node hmem => ?_⟩
  rw [oneFile, mem_cons, mem_singleton] at hmem
  rcases hmem with rfl | rfl
  · exact .inl ⟨rfl, rfl⟩
  · exact .inr ⟨_, mem_cons_self, by decide, rfl⟩

/-- A file `/d/x` is created, written, renamed to `/d/y` and removed. -/
def makeAndMove : List NamespaceAction :=
  [.mkdirat atFdcwd [47, 100], .openat atFdcwd [47, 100, 47, 120] (oCreat ||| oWronly),
    .write 3 [1, 2] 2, .renameat atFdcwd [47, 100, 47, 120] [47, 100, 47, 121],
    .unlinkat atFdcwd [47, 100, 47, 121], .close 3]

theorem makeAndMove_obeys : Obeys oneFile (init false) makeAndMove :=
  run_obeys oneFile_tree false makeAndMove (by decide) (by decide +kernel)

/-- The file of the rootfs is opened for writing and then removed. -/
def removeCopy : List NamespaceAction :=
  [.openat atFdcwd [47, 97] oWronly, .unlinkat atFdcwd [47, 97]]

/-- The removed path names the rootfs file again. -/
theorem removeCopy_reappears : RootfsTree oneFile ∧ (∀ action ∈ removeCopy, action.Absolute) ∧
    ¬Obeys oneFile (init false) removeCopy := by
  refine ⟨oneFile_tree, by decide, fun h => ?_⟩
  have hgone : resolve oneFile (((init false).openat oneFile atFdcwd [47, 97] oWronly).1.unlinkat
      oneFile atFdcwd [47, 97]).1 [47, 97] = none := h.2.2.2.1 (by decide +kernel)
  have hthere : (resolve oneFile (((init false).openat oneFile atFdcwd [47, 97] oWronly).1.unlinkat
      oneFile atFdcwd [47, 97]).1 [47, 97]).isSome := by decide +kernel
  rw [hgone] at hthere
  cases hthere

end LinuxRuntime
end VisualCpu
