import VisualCpu.Kernel.LinuxNamespace

/-!
# Creating, removing and renaming

What the calls that change names do to what the paths name, and how far they keep the
namespace a tree.
-/

namespace VisualCpu

open Function LinuxCompat

namespace LinuxCompat

/-- A path under another one. -/
def Below (a path : LinuxPath) : Prop := a ++ [slash] <+: path

instance (a path : LinuxPath) : Decidable (Below a path) :=
  inferInstanceAs (Decidable (_ <+: _))

def parentOf (path : LinuxPath) : Option LinuxPath := (splitParent path).map Prod.fst

theorem splitParent_some {path parent name : LinuxPath}
    (h : splitParent path = some (parent, name)) :
    path ≠ [slash] ∧ parent.head? = some slash ∧ parent ≠ path ∧
      (parent = [slash] ∨ path = parent ++ slash :: name) := by
  rw [splitParent] at h
  split at h
  · cases h
  rename_i hbad
  push Not at hbad
  obtain ⟨hhead, hlength, -⟩ := hbad
  have hroot : path ≠ [slash] := by
    rintro rfl
    simp at hlength
  have hmem : slash ∈ path.reverse := by
    rw [List.mem_reverse]
    exact List.mem_of_mem_head? (by rw [hhead]; rfl)
  have hparts := List.takeWhile_append_dropWhile (p := (· != slash)) (l := path.reverse)
  cases hdrop : path.reverse.dropWhile (· != slash) with
  | nil =>
    have hno := List.dropWhile_eq_nil_iff.1 hdrop slash hmem
    simp at hno
  | cons c rest =>
    have hc : c = slash := by
      have hfirst := List.head?_dropWhile_not (· != slash) path.reverse
      rw [hdrop] at hfirst
      simpa using hfirst
    subst hc
    rw [hdrop] at h hparts
    have hpath : path = rest.reverse ++ slash ::
      (path.reverse.takeWhile (· != slash)).reverse := by
      have hreverse := congrArg List.reverse hparts
      simpa using hreverse.symm
    by_cases hne : (slash :: rest).tail.reverse = []
    · rw [if_pos hne] at h
      cases h
      exact ⟨hroot, rfl, hroot.symm, .inl rfl⟩
    rw [if_neg hne] at h
    by_cases hlong : maxPath ≤ (slash :: rest).tail.reverse.length + 1 ∨
        maxPath < path.length - (slash :: rest).tail.reverse.length
    · rw [if_pos hlong] at h
      cases h
    rw [if_neg hlong] at h
    cases h
    refine ⟨hroot, ?_, fun heq => ?_, .inr hpath⟩
    · rw [hpath, List.head?_append] at hhead
      cases hrest : rest.reverse with
      | nil => exact absurd hrest hne
      | cons d tail =>
        rw [hrest] at hhead
        rw [List.tail_cons, hrest]
        exact hhead
    · have hlen := congrArg List.length hpath
      rw [← heq] at hlen
      simp at hlen

theorem parentOf_some {path parent : LinuxPath} (h : parentOf path = some parent) :
    path ≠ [slash] ∧ parent.head? = some slash ∧ parent ≠ path ∧
      (parent = [slash] ∨ Below parent path) := by
  rw [parentOf, Option.map_eq_some_iff] at h
  obtain ⟨⟨parent', name⟩, hsplit, rfl⟩ := h
  obtain ⟨hroot, hhead, hne, hcases⟩ := splitParent_some hsplit
  refine ⟨hroot, hhead, hne, hcases.imp_right fun hpath => ⟨name, ?_⟩⟩
  rw [hpath]
  simp

end LinuxCompat

namespace LinuxRuntime

variable {rootfs : List LinuxRootfsNode} {runtime runtime' : LinuxRuntime} {path : LinuxPath}
  {i : OverlaySlot}

/-- The names of a sound runtime are a tree. -/
structure Sound (rootfs : List LinuxRootfsNode) (runtime : LinuxRuntime) : Prop where
  slots : SlotsSound rootfs runtime
  tree : PathTree.IsTree parentOf [slash] (kind rootfs runtime)

theorem Sound.quiet (h : Sound rootfs runtime) (hq : Quiet runtime runtime') :
    Sound rootfs runtime' := by
  refine ⟨hq.sound h.slots, ?_⟩
  rw [hq.kind_eq h.slots]
  exact h.tree

theorem kind_of_head (h : path.head? = some slash) :
    kind rootfs runtime path = (resolve rootfs runtime path).map LinuxNamed.directory :=
  if_pos h

theorem pathIsDirectory_kind (hhead : path.head? = some slash)
    (h : runtime.pathIsDirectory rootfs path) : kind rootfs runtime path = some true := by
  rw [kind_of_head hhead, resolve]
  rw [pathIsDirectory] at h
  cases hfind : runtime.findOverlayNode path with
  | some i =>
    rw [hfind] at h
    exact congrArg some h
  | none =>
    rw [hfind] at h
    cases hlower : findNode rootfs path with
    | none =>
      rw [hlower] at h
      cases h
    | some node =>
      rw [hlower] at h
      rw [lowerNamed, hlower]
      exact congrArg some h

theorem parentDirectoryExists_kind (h : runtime.parentDirectoryExists rootfs path) :
    ∃ parent, parentOf path = some parent ∧ kind rootfs runtime parent = some true := by
  rw [parentDirectoryExists] at h
  cases hsplit : splitParent path with
  | none =>
    rw [hsplit] at h
    cases h
  | some parts =>
    obtain ⟨parent, name⟩ := parts
    rw [hsplit] at h
    refine ⟨parent, by rw [parentOf, hsplit]; rfl, ?_⟩
    exact pathIsDirectory_kind (splitParent_some hsplit).2.1 h

theorem copyInPath_eq {resolved : LinuxPath} (hhead : path.head? = some slash)
    (h : runtime.copyInPath path = some resolved) : resolved = path := by
  rw [copyInPath] at h
  by_cases hlong : (if runtime.vm then maxPath - 1 else maxPath) < path.length + 1
  · rw [if_pos hlong] at h
    cases h
  rw [if_neg hlong] at h
  simp only [resolveRuntimePath, hhead, if_true] at h
  split at h
  · cases h
  split at h
  · cases h
  cases h
  rfl

variable {directory : Bool} {mode : BitVec 32}

theorem allocOverlayNode_some
    (h : runtime.allocOverlayNode path directory mode = some (i, runtime')) :
    (runtime.overlayNodes i).used = false ∧ ∃ node : LinuxOverlayNode,
      runtime'.overlayNodes = Function.update runtime.overlayNodes i node ∧ node.used ∧
      node.path = path ∧ node.nlink = 1 ∧ node.directory = directory := by
  rw [allocOverlayNode] at h
  split at h
  · cases h
  cases hfree : firstSlot fun i => !(runtime.overlayNodes i).used with
  | none =>
    rw [hfree] at h
    cases h
  | some k =>
    rw [hfree] at h
    cases h
    exact ⟨by simpa using firstSlot_some hfree, _, rfl, rfl, rfl, rfl, rfl⟩

theorem allocOverlayNode_sound
    (h : SlotsSound rootfs runtime) (hhead : path.head? = some slash) (hroot : path ≠ [slash])
    (hfind : runtime.findOverlayNode path = none)
    (hlower : ∀ node, findNode rootfs path = some node → node.directory = false)
    (halloc : runtime.allocOverlayNode path directory mode = some (i, runtime')) :
    SlotsSound rootfs runtime' ∧
      kind rootfs runtime' = Function.update (kind rootfs runtime) path (some directory) := by
  obtain ⟨hfree, node, hnodes, hused, hpath, hnlink, hdirectory⟩ := allocOverlayNode_some halloc
  have hsound : SlotsSound rootfs runtime' := by
    refine h.update hnodes (fun _ => .inl ⟨hnlink, ?_, ?_⟩) (fun _ _ j _ hj => ?_)
      fun _ lower hl => ?_
    · rw [hpath]
      exact hhead
    · rw [hpath]
      exact hroot
    · rw [hpath]
      exact findOverlayNode_none hfind j hj
    · rw [hpath] at hl
      exact hlower lower hl
  refine ⟨hsound, ?_⟩
  funext q
  by_cases hq : q = path
  · subst hq
    have hself : runtime'.overlayNodes i = node := by rw [hnodes, update_self]
    rw [update_self, kind_of_head hhead, hsound.resolve_eq (by rw [hself]; exact hused)
      (by rw [hself]; exact hpath) (ne_nil_of_head hhead), hself]
    exact congrArg some hdirectory
  · rw [update_of_ne hq, kind, kind]
    split
    · rename_i hqhead
      rw [h.resolve_other hnodes hsound (ne_nil_of_head hqhead) (fun hno => ?_) fun _ => ?_]
      · rw [hfree] at hno
        cases hno
      rw [hpath]
      exact fun heq => hq heq.symm
    · rfl

def Creates (rootfs : List LinuxRootfsNode) (runtime runtime' : LinuxRuntime) (path : LinuxPath)
    (directory : Bool) : Prop :=
  kind rootfs runtime path = none ∧ runtime.parentDirectoryExists rootfs path ∧
    SlotsSound rootfs runtime' ∧
    kind rootfs runtime' = Function.update (kind rootfs runtime) path (some directory)

theorem Creates.sound (hc : Creates rootfs runtime runtime' path directory)
    (h : Sound rootfs runtime) : Sound rootfs runtime' := by
  obtain ⟨hnone, hparent, hslots, hkind⟩ := hc
  obtain ⟨parent, hof, hdirectory⟩ := parentDirectoryExists_kind hparent
  refine ⟨hslots, ?_⟩
  rw [hkind]
  refine h.tree.put hof hdirectory (parentOf_some hof).2.2.1 (.inr fun c hc => ?_)
  refine h.tree.no_children (p := path) ?_ (parentOf_some hc).1 hc
  rw [hnone]
  exact fun hno => by cases hno

theorem Creates.quiet {runtime'' : LinuxRuntime}
    (hc : Creates rootfs runtime runtime' path directory) (hq : Quiet runtime' runtime'') :
    Creates rootfs runtime runtime'' path directory := by
  obtain ⟨hnone, hparent, hslots, hkind⟩ := hc
  exact ⟨hnone, hparent, hq.sound hslots, (hq.kind_eq hslots).trans hkind⟩

theorem kind_none (hhead : path.head? = some slash) (hfind : runtime.findOverlayNode path = none)
    (hlower : findNode rootfs path = none) : kind rootfs runtime path = none := by
  rw [kind_of_head hhead, resolve, hfind]
  simp only [lowerNamed, hlower]
  rfl

section

variable (h : SlotsSound rootfs runtime)

include h

section

variable (hhead : path.head? = some slash)

include hhead

section

variable (hroot : ∀ node, findNode rootfs [slash] = some node → node.directory)

include hroot

theorem openPath_cases
    (flags : BitVec 32) :
    (SlotsSound rootfs (runtime.openPath rootfs path flags).1 ∧
      kind rootfs (runtime.openPath rootfs path flags).1 = kind rootfs runtime) ∨
    (has flags oCreat ∧
      Creates rootfs runtime (runtime.openPath rootfs path flags).1 path false) := by
  have hsame : SlotsSound rootfs runtime ∧ kind rootfs runtime = kind rootfs runtime := ⟨h, rfl⟩
  have hopen : ∀ target, SlotsSound rootfs (runtime.openTarget path flags target).1 ∧
      kind rootfs (runtime.openTarget path flags target).1 = kind rootfs runtime := fun target =>
    have hq := openTarget_quiet path flags target
    ⟨hq.sound h, hq.kind_eq h⟩
  rw [openPath]
  cases hfind : runtime.findOverlayNode path with
  | some i =>
    simp only
    split
    · exact .inl hsame
    split
    · exact .inl hsame
    · exact .inl (hopen _)
  | none =>
    cases hlower : findNode rootfs path with
    | some node =>
      simp only
      split
      · exact .inl hsame
      split
      · exact .inl hsame
      split
      · cases hdirectory : node.directory with
        | true => exact .inl hsame
        | false =>
          cases halloc : runtime.allocOverlayNode path false node.mode with
          | none => exact .inl hsame
          | some made =>
            obtain ⟨i, runtime'⟩ := made
            have hne : path ≠ [slash] := by
              rintro rfl
              rw [hroot node hlower] at hdirectory
              cases hdirectory
            obtain ⟨hslots, hkind⟩ := allocOverlayNode_sound h hhead hne hfind
              (fun other hother => by rw [hlower] at hother; cases hother; exact hdirectory)
                halloc
            have hcopied : kind rootfs runtime' = kind rootfs runtime := by
              have hwas : kind rootfs runtime path = some false := by
                rw [kind_of_head hhead, resolve, hfind]
                simp only [lowerNamed, hlower]
                exact congrArg some hdirectory
              rw [hkind, ← hwas, update_eq_self]
            have hq : Quiet runtime' (if has flags oTrunc then runtime'
                else runtime'.copyUp i node) := by
              split
              · exact Quiet.refl
              · exact copyUp_quiet i node
            have hall := hq.trans (openTarget_quiet path flags (.overlay i))
            exact .inl ⟨hall.sound hslots, (hall.kind_eq hslots).trans hcopied⟩
      · exact .inl (hopen _)
    | none =>
      cases hcreate : has flags oCreat with
      | false => exact .inl hsame
      | true =>
        cases hparent : runtime.parentDirectoryExists rootfs path with
        | false => exact .inl hsame
        | true =>
          simp only [Bool.not_true, Bool.false_eq_true, if_false]
          cases halloc : runtime.allocOverlayNode path false (fileMode false) with
          | none => exact .inl hsame
          | some made =>
            obtain ⟨i, runtime'⟩ := made
            obtain ⟨parent, hof, -⟩ := parentDirectoryExists_kind hparent
            obtain ⟨hslots, hkind⟩ := allocOverlayNode_sound h hhead (parentOf_some hof).1 hfind
              (fun other hother => by rw [hlower] at hother; cases hother) halloc
            have hcreates : Creates rootfs runtime runtime' path false :=
              ⟨kind_none hhead hfind hlower, hparent, hslots, hkind⟩
            exact .inr ⟨trivial, hcreates.quiet (openTarget_quiet path flags (.overlay i))⟩

theorem openat_cases
 (dirfd : ℤ)
    (flags : BitVec 32) :
    (SlotsSound rootfs (runtime.openat rootfs dirfd path flags).1 ∧
      kind rootfs (runtime.openat rootfs dirfd path flags).1 = kind rootfs runtime) ∨
    (has flags oCreat ∧
      Creates rootfs runtime (runtime.openat rootfs dirfd path flags).1 path false) := by
  have hsame : SlotsSound rootfs runtime ∧ kind rootfs runtime = kind rootfs runtime := ⟨h, rfl⟩
  rw [openat]
  split
  · exact .inl hsame
  cases hcopy : runtime.copyInPath path with
  | none => exact .inl hsame
  | some resolved =>
    have heq := copyInPath_eq hhead hcopy
    subst heq
    simp only [hhead, ne_eq, not_true_eq_false, if_false]
    split
    · exact .inl hsame
    have hdevice : ∀ fd message, SlotsSound rootfs (runtime.openDevice resolved fd message).1 ∧
        kind rootfs (runtime.openDevice resolved fd message).1 = kind rootfs runtime :=
      fun fd message =>
        have hq := openDevice_quiet resolved fd message
        ⟨hq.sound h, hq.kind_eq h⟩
    split
    · split
      · exact .inl hsame
      · exact .inl (hdevice _ _)
    split
    · split
      · exact .inl hsame
      split
      · exact .inl hsame
      · exact .inl (hdevice _ _)
    · exact openPath_cases h hhead hroot flags

end

theorem mkdirat_cases (dirfd : ℤ) :
    (runtime.mkdirat rootfs dirfd path).1 = runtime ∨
      Creates rootfs runtime (runtime.mkdirat rootfs dirfd path).1 path true := by
  rw [mkdirat]
  split
  · exact .inl rfl
  cases hcopy : runtime.copyInPath path with
  | none => exact .inl rfl
  | some resolved =>
    have heq := copyInPath_eq hhead hcopy
    subst heq
    simp only [hhead, ne_eq, not_true_eq_false, if_false]
    cases hexists : runtime.pathExists rootfs resolved with
    | true => exact .inl rfl
    | false =>
      cases hparent : runtime.parentDirectoryExists rootfs resolved with
      | false => exact .inl rfl
      | true =>
        cases halloc : runtime.allocOverlayNode resolved true dirMode with
        | none => exact .inl rfl
        | some made =>
          obtain ⟨i, runtime'⟩ := made
          simp only [pathExists, Bool.or_eq_false_iff, Option.isSome_eq_false_iff,
            Option.isNone_iff_eq_none] at hexists
          obtain ⟨parent, hof, -⟩ := parentDirectoryExists_kind hparent
          obtain ⟨hslots, hkind⟩ := allocOverlayNode_sound h hhead (parentOf_some hof).1 hexists.1
            (fun other hother => by rw [hexists.2] at hother; cases hother) halloc
          exact .inr ⟨kind_none hhead hexists.1 hexists.2, hparent, hslots, hkind⟩

end

theorem overlayDropLink_sound
    (hused : (runtime.overlayNodes i).used) (hpath : (runtime.overlayNodes i).path = path)
    (hhead : path.head? = some slash) :
    SlotsSound rootfs (runtime.overlayDropLink i) ∧
      (∀ j, ((runtime.overlayDropLink i).overlayNodes j).used →
        ((runtime.overlayDropLink i).overlayNodes j).path ≠ path) ∧
      ∀ q, q.head? = some slash → q ≠ path →
        resolve rootfs (runtime.overlayDropLink i) q = resolve rootfs runtime q := by
  have hne := ne_nil_of_head hhead
  obtain ⟨node, hnodes, hlink, hempty⟩ : ∃ node : LinuxOverlayNode,
      (runtime.overlayDropLink i).overlayNodes = Function.update runtime.overlayNodes i node ∧
      node.nlink = 0 ∧ node.path = [] := ⟨_, rfl, rfl, rfl⟩
  have hslots : SlotsSound rootfs (runtime.overlayDropLink i) := by
    refine h.update hnodes (fun _ => .inr ⟨hlink, hempty⟩) (fun _ hno => absurd hempty hno)
      fun _ lower hl => ?_
    rw [hempty, findNode, if_pos rfl] at hl
    cases hl
  refine ⟨hslots, fun j hj heq => ?_, fun q hq hqp => ?_⟩
  · by_cases hji : j = i
    · subst hji
      rw [hnodes, update_self, hempty] at heq
      exact hne heq.symm
    · rw [hnodes, update_of_ne hji] at hj heq
      exact hji (h.distinct j i hj hused (heq.trans hpath.symm) (by rw [heq]; exact hne))
  · refine h.resolve_other hnodes hslots (ne_nil_of_head hq) (fun _ => ?_) fun _ => ?_
    · rw [hpath]
      exact fun heq => hqp heq.symm
    rw [hempty]
    exact (ne_nil_of_head hq).symm

end

theorem refuse_value {path : LinuxPath} {errno : ℕ} {message : String} (h : errno ≠ 0) :
    (LinuxReply.refuse path errno message).value ≠ 0 := by
  rw [LinuxReply.refuse]
  simp only
  omega

theorem unlinkat_cases (hhead : path.head? = some slash) (dirfd : ℤ) :
    ((runtime.unlinkat rootfs dirfd path).1 = runtime ∧
      (runtime.unlinkat rootfs dirfd path).2.value ≠ 0) ∨
    (dirfd = atFdcwd ∧ runtime.copyInPath path = some path ∧
      ∃ i, runtime.findOverlayNode path = some i ∧ (runtime.overlayNodes i).directory = false ∧
      (runtime.unlinkat rootfs dirfd path).1 = runtime.overlayDropLink i) := by
  rw [unlinkat]
  split
  · exact .inl ⟨rfl, refuse_value (by decide)⟩
  rename_i hdirfd
  cases hcopy : runtime.copyInPath path with
  | none => exact .inl ⟨rfl, refuse_value (by decide)⟩
  | some resolved =>
    have heq := copyInPath_eq hhead hcopy
    subst heq
    simp only
    cases hfind : runtime.findOverlayNode resolved with
    | none =>
      simp only
      split <;> exact .inl ⟨rfl, refuse_value (by decide)⟩
    | some i =>
      simp only
      cases hdirectory : (runtime.overlayNodes i).directory with
      | true => exact .inl ⟨rfl, refuse_value (by decide)⟩
      | false => exact .inr ⟨not_not.1 hdirfd, trivial, i, rfl, hdirectory, rfl⟩

/-- What `moveNode` leaves of the node at the new path. -/
def cleared (runtime : LinuxRuntime) (i : OverlaySlot) (newPath : LinuxPath) : LinuxRuntime :=
  match runtime.findOverlayNode newPath with
  | some target => if target ≠ i then runtime.overlayDropLink target else runtime
  | none => runtime

theorem moveNode_sound (h : SlotsSound rootfs runtime) {newPath : LinuxPath}
    (hused : (runtime.overlayNodes i).used) (hpath : (runtime.overlayNodes i).path = path)
    (hhead : path.head? = some slash) (hnew : newPath.head? = some slash)
    (hroot : newPath ≠ [slash])
    (hlower : ∀ lower, findNode rootfs newPath = some lower → lower.directory = false)
    (hne : path ≠ newPath) :
    SlotsSound rootfs (runtime.moveNode i newPath) ∧
      resolve rootfs (runtime.moveNode i newPath) path = lowerNamed rootfs path ∧
      resolve rootfs (runtime.moveNode i newPath) newPath = resolve rootfs runtime path ∧
      ∀ q, q.head? = some slash → q ≠ path → q ≠ newPath →
        resolve rootfs (runtime.moveNode i newPath) q = resolve rootfs runtime q := by
  obtain ⟨cleared, hcleared⟩ : ∃ cleared, cleared = runtime.cleared i newPath := ⟨_, rfl⟩
  have hfree : SlotsSound rootfs cleared ∧ cleared.overlayNodes i = runtime.overlayNodes i ∧
      (∀ j, (cleared.overlayNodes j).used → (cleared.overlayNodes j).path ≠ newPath) ∧
      ∀ q, q.head? = some slash → q ≠ newPath →
        resolve rootfs cleared q = resolve rootfs runtime q := by
    cases hfind : runtime.findOverlayNode newPath with
    | none =>
      rw [LinuxRuntime.cleared, hfind] at hcleared
      subst hcleared
      exact ⟨h, rfl, findOverlayNode_none hfind, fun _ _ _ => rfl⟩
    | some target =>
      obtain ⟨htarget, htpath⟩ := findOverlayNode_some hfind
      have hti : target ≠ i := by
        rintro rfl
        exact hne (hpath.symm.trans htpath)
      rw [LinuxRuntime.cleared, hfind] at hcleared
      simp only [if_pos hti] at hcleared
      subst hcleared
      obtain ⟨hslots, hnone, hothers⟩ := overlayDropLink_sound h htarget htpath hnew
      exact ⟨hslots, update_of_ne hti.symm _ _, hnone, hothers⟩
  obtain ⟨hslots, hsame, hnone, hothers⟩ := hfree
  have hmoved : runtime.moveNode i newPath = cleared.touchWith i { cleared.overlayNodes i with
      path := newPath, nlink := 1, dirty := true } := by rw [hcleared]; rfl
  rw [hmoved]
  obtain ⟨node, hnodes, hnused, hnpath, hnlink, hnamed⟩ : ∃ node : LinuxOverlayNode,
      (cleared.touchWith i { cleared.overlayNodes i with
        path := newPath, nlink := 1, dirty := true }).overlayNodes =
          Function.update cleared.overlayNodes i node ∧
      node.used = (cleared.overlayNodes i).used ∧ node.path = newPath ∧ node.nlink = 1 ∧
      node.named i = (cleared.overlayNodes i).named i := ⟨_, rfl, rfl, rfl, rfl, rfl⟩
  generalize cleared.touchWith i { cleared.overlayNodes i with
    path := newPath, nlink := 1, dirty := true } = moved at hnodes ⊢
  rw [hsame] at hnused hnamed
  have hsound : SlotsSound rootfs moved := by
    refine hslots.update hnodes (fun _ => .inl ⟨hnlink, ?_, ?_⟩) (fun _ _ j _ hj => ?_)
      fun _ lower hl => ?_
    · rw [hnpath]
      exact hnew
    · rw [hnpath]
      exact hroot
    · rw [hnpath]
      exact hnone j hj
    · rw [hnpath] at hl
      exact hlower lower hl
  have hself : moved.overlayNodes i = node := by rw [hnodes, update_self]
  have hcused : (cleared.overlayNodes i).used := by rw [hsame]; exact hused
  have hcpath : (cleared.overlayNodes i).path = path := by rw [hsame]; exact hpath
  refine ⟨hsound, ?_, ?_, fun q hq hqp hqn => ?_⟩
  · refine hslots.resolve_lost hnodes (ne_nil_of_head hhead) hcused hcpath fun _ => ?_
    rw [hnpath]
    exact hne.symm
  · rw [hsound.resolve_eq (by rw [hself, hnused]; exact hused) (by rw [hself]; exact hnpath)
      (ne_nil_of_head hnew), hself, hnamed, h.resolve_eq hused hpath (ne_nil_of_head hhead)]
  · rw [← hothers q hq hqn]
    refine hslots.resolve_other hnodes hsound (ne_nil_of_head hq) (fun _ => ?_) fun _ => ?_
    · rw [hcpath]
      exact fun heq => hqp heq.symm
    rw [hnpath]
    exact fun heq => hqn heq.symm

theorem moveNode_self (h : SlotsSound rootfs runtime)
    (hused : (runtime.overlayNodes i).used) (hpath : (runtime.overlayNodes i).path = path)
    (hhead : path.head? = some slash) : Quiet runtime (runtime.moveNode i path) := by
  have hfind := h.find_eq hused hpath (ne_nil_of_head hhead)
  have hlink : (runtime.overlayNodes i).nlink = 1 := by
    rcases h.linked i hused with ⟨hlink, -⟩ | ⟨-, hempty⟩
    · exact hlink
    · exact absurd (hpath.symm.trans hempty) (ne_nil_of_head hhead)
  rw [moveNode, hfind]
  simp only [ne_eq, not_true_eq_false, if_false]
  exact touchWith_quiet rfl hpath.symm hlink.symm rfl

theorem renameat_cases {oldPath newPath : LinuxPath} (hold : oldPath.head? = some slash)
    (hnew : newPath.head? = some slash) (dirfd : ℤ) :
    ((runtime.renameat rootfs dirfd oldPath newPath).1 = runtime ∧
      (runtime.renameat rootfs dirfd oldPath newPath).2.value ≠ 0) ∨
    (dirfd = atFdcwd ∧ runtime.copyInPath oldPath = some oldPath ∧
      runtime.copyInPath newPath = some newPath ∧ ∃ i, runtime.findOverlayNode oldPath = some i ∧
      runtime.parentDirectoryExists rootfs newPath ∧
      (findNode rootfs newPath = none ∨ (runtime.findOverlayNode newPath).isSome) ∧
      (runtime.renameat rootfs dirfd oldPath newPath).1 = runtime.moveNode i newPath) := by
  rw [renameat]
  split
  · exact .inl ⟨rfl, refuse_value (by decide)⟩
  rename_i hdirfd
  cases hcopyOld : runtime.copyInPath oldPath with
  | none => exact .inl ⟨rfl, refuse_value (by decide)⟩
  | some oldResolved =>
    cases hcopyNew : runtime.copyInPath newPath with
    | none => exact .inl ⟨rfl, refuse_value (by decide)⟩
    | some newResolved =>
      have holdEq := copyInPath_eq hold hcopyOld
      have hnewEq := copyInPath_eq hnew hcopyNew
      subst holdEq hnewEq
      simp only [hold, hnew, ne_eq, not_true_eq_false, or_self, if_false]
      cases hfind : runtime.findOverlayNode oldResolved with
      | none =>
        simp only
        split <;> exact .inl ⟨rfl, refuse_value (by decide)⟩
      | some i =>
        cases hparent : runtime.parentDirectoryExists rootfs newResolved with
        | false => exact .inl ⟨rfl, refuse_value (by decide)⟩
        | true =>
          simp only [Bool.not_true, Bool.false_eq_true, if_false]
          split
          · exact .inl ⟨rfl, refuse_value (by decide)⟩
          rename_i hcovered
          refine .inr ⟨not_not.1 hdirfd, trivial, trivial, i, rfl, trivial, ?_, rfl⟩
          cases hlower : findNode rootfs newResolved with
          | none => exact .inl rfl
          | some node =>
            right
            cases htarget : runtime.findOverlayNode newResolved with
            | some target => rfl
            | none =>
              rw [hlower, htarget] at hcovered
              exact absurd rfl hcovered

end LinuxRuntime
end VisualCpu
