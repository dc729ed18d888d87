import Mathlib.Data.Fintype.Card
import VisualCpu.Kernel.CourseFsIndex
import VisualCpu.Kernel.FileTree

/-!
# The file system refines the tree

Every used node stands for one path of the tree: the root for the empty path, any other for
the path of its parent with its name behind. Under this relation each call answers as the
tree does and leads to states that are related again.
-/

namespace VisualCpu

open List Function

namespace CourseFs

def Holds (fs : CourseFs) (i : CourseFsNodeIndex) : TreeEntry → Prop
  | .dir => (fs.nodes i).isDir = true
  | .file writes => (fs.nodes i).isDir = false ∧ (fs.nodes i).size = fileEnd writes ∧
      ∀ k < fileEnd writes, fs.storage i k = fileByte writes k

def usedNodes (fs : CourseFs) : Finset CourseFsNodeIndex :=
  Finset.univ.filter fun i => (fs.nodes i).used = true

/-- Every directory lists its children in order; nothing else lists any. -/
structure Indexed (fs : CourseFs) : Prop where
  lists : ∀ d, (fs.nodes d).used → (fs.nodes d).isDir →
    ∀ c, c ∈ (fs.nodes d).dirIndex ↔ (fs.nodes c).used ∧ (fs.nodes c).parent = some d
  sorted : ∀ d, (fs.nodes d).dirIndex.Pairwise fun a b => (fs.nodes a).name < (fs.nodes b).name
  leaves : ∀ d,
    (fs.nodes d).leaves = leafSegments courseFsBtreeMaxLeaves 0 (fs.nodes d).dirIndex.length
  vacant : ∀ d, ¬((fs.nodes d).used ∧ (fs.nodes d).isDir) →
    (fs.nodes d).dirIndex = []

/-- The used nodes stand for the paths of the tree. -/
structure Represents (fs : CourseFs) (pathOf : CourseFsNodeIndex → TreePath) (tree : FileTree) :
    Prop where
  indexed : fs.Indexed
  rootUsed : (fs.nodes 0).used
  rootDir : (fs.nodes 0).isDir
  rootParent : (fs.nodes 0).parent = none
  rootPath : pathOf 0 = []
  child : ∀ i, (fs.nodes i).used → i ≠ 0 → ∃ p, (fs.nodes i).parent = some p ∧
    (fs.nodes p).used ∧ (fs.nodes p).isDir ∧ (fs.nodes i).name ≠ [] ∧
      pathOf i = pathOf p ++ [(fs.nodes i).name]
  injective : ∀ i j, (fs.nodes i).used → (fs.nodes j).used →
    pathOf i = pathOf j → i = j
  holds : ∀ i, (fs.nodes i).used → ∃ entry, tree.entry (pathOf i) = some entry ∧
    fs.Holds i entry
  covers : ∀ path entry, tree.entry path = some entry →
    ∃ i, (fs.nodes i).used ∧ pathOf i = path
  count : tree.count = fs.usedNodes.card

variable {fs : CourseFs} {pathOf : CourseFsNodeIndex → TreePath} {tree : FileTree}

theorem Indexed.sortedDir (h : fs.Indexed) (d : CourseFsNodeIndex) : fs.SortedDir (fs.nodes d) where
  sorted := h.sorted d
  leaves := h.leaves d
  small := by
    have hnodup : (fs.nodes d).dirIndex.Nodup :=
      (h.sorted d).imp fun hlt heq => (by rw [heq] at hlt; exact absurd hlt (lt_irrefl _))
    have hcard := hnodup.length_le_card
    simpa [courseFsMaxNodes] using hcard

section

variable (h : Represents fs pathOf tree) {name : List CourseChar}
include h

theorem Represents.findChild_iff {d c : CourseFsNodeIndex}
    (hused : (fs.nodes d).used) (hdir : (fs.nodes d).isDir) (hname : name ≠ []) :
    fs.findChild d name = some c ↔ (fs.nodes c).used ∧ pathOf c = pathOf d ++ [name] := by
  rw [findChild_some_iff (h.indexed.sortedDir d) hused hdir hname, h.indexed.lists d hused hdir]
  constructor
  · rintro ⟨⟨hc, hparent⟩, rfl⟩
    have hne : c ≠ 0 := by
      rintro rfl
      rw [h.rootParent] at hparent
      cases hparent
    obtain ⟨p, hp, -, -, -, hpath⟩ := h.child c hc hne
    rw [hparent] at hp
    cases hp
    exact ⟨hc, hpath⟩
  · rintro ⟨hc, hpath⟩
    have hne : c ≠ 0 := by
      rintro rfl
      rw [h.rootPath] at hpath
      exact absurd hpath.symm (by simp)
    obtain ⟨p, hp, hpused, -, -, hpath'⟩ := h.child c hc hne
    rw [hpath] at hpath'
    obtain ⟨hsame, hlast⟩ := append_inj' hpath' rfl
    rw [h.injective d p hused hpused hsame]
    exact ⟨⟨hc, hp⟩, by simpa using hlast.symm⟩

variable {below : TreePath}

theorem Represents.isDir_of_below {d i : CourseFsNodeIndex}
    (hd : (fs.nodes d).used) (hi : (fs.nodes i).used)
    (hpath : pathOf i = pathOf d ++ below) (hne : below ≠ []) : (fs.nodes d).isDir := by
  induction below using reverseRecOn generalizing i with
  | nil => exact absurd rfl hne
  | append_singleton before name ih =>
    have hroot : i ≠ 0 := by
      rintro rfl
      rw [h.rootPath] at hpath
      exact absurd hpath.symm (by simp)
    obtain ⟨p, hp, hpused, hpdir, -, hpath'⟩ := h.child i hi hroot
    rw [hpath, ← List.append_assoc] at hpath'
    obtain ⟨hsame, -⟩ := append_inj' hpath' rfl
    by_cases hbefore : before = []
    · rw [hbefore, append_nil] at hsame
      rw [h.injective d p hd hpused hsame]
      exact hpdir
    · exact ih hpused hsame.symm hbefore

theorem Represents.passes {d i : CourseFsNodeIndex}
    (hd : (fs.nodes d).used) (hi : (fs.nodes i).used)
    (hpath : pathOf i = pathOf d ++ name :: below) :
    ∃ c, (fs.nodes c).used ∧ pathOf c = pathOf d ++ [name] := by
  induction below using reverseRecOn generalizing i with
  | nil => exact ⟨i, hi, hpath⟩
  | append_singleton before last ih =>
    have hroot : i ≠ 0 := by
      rintro rfl
      rw [h.rootPath] at hpath
      exact absurd hpath.symm (by simp)
    obtain ⟨p, -, hpused, -, -, hpath'⟩ := h.child i hi hroot
    rw [hpath, ← List.cons_append, ← List.append_assoc] at hpath'
    obtain ⟨hsame, -⟩ := append_inj' hpath' rfl
    exact ih hpused hsame.symm

/-- What the resolution of components below a directory must tell. -/
structure Resolves (fs : CourseFs) (pathOf : CourseFsNodeIndex → TreePath)
    (d : CourseFsNodeIndex) (below : TreePath) (found : CourseFsResolution) : Prop where
  node : ∀ i, found.node = some i ↔ (fs.nodes i).used ∧ pathOf i = pathOf d ++ below
  parent : below ≠ [] → ∀ p, found.parent = some p ↔ (fs.nodes p).used ∧
    (fs.nodes p).isDir ∧ pathOf p = pathOf d ++ below.dropLast
  leaf : below ≠ [] → ∀ p, found.parent = some p → found.leaf = below.getLastD []

omit h in
theorem components_ne_nil {rest : List CourseChar} (hne : rest ≠ [])
    (hlast : rest.getLast? ≠ some courseSlash) : components rest ≠ [] := by
  intro hnil
  cases hnext : nextComponent rest with
  | none =>
    have hall := (nextComponent_none hnext).2
    obtain ⟨before, last, rfl⟩ := eq_nil_or_concat rest |>.resolve_left hne
    rw [hall last (by simp)] at hlast
    simp at hlast
  | some next =>
    rw [(nextComponent_some hnext).2.1] at hnil
    cases hnil

variable {d : CourseFsNodeIndex}

omit h in
theorem resolveFrom_eq {cursor name rest : List CourseChar}
    (hnext : nextComponent cursor = some (name, rest)) :
    fs.resolveFrom d cursor =
      if rest = [] then { node := fs.findChild d name, parent := some d, leaf := name }
      else
        match fs.findChild d name with
        | none => { node := none }
        | some child =>
          if (fs.nodes child).isDir then fs.resolveFrom child rest else { node := none } := by
  rw [CourseFs.resolveFrom]
  split
  · rename_i hnone
    rw [hnext] at hnone
    cases hnone
  rename_i name' rest' hsome
  rw [hnext] at hsome
  cases hsome
  rfl

theorem Represents.resolves_none
    (hnone : ∀ i, (fs.nodes i).used → pathOf i ≠ pathOf d ++ below)
    (hparent : ∀ p, (fs.nodes p).used → (fs.nodes p).isDir →
      pathOf p ≠ pathOf d ++ below.dropLast) :
    Resolves fs pathOf d below { node := none } where
  node i := ⟨fun hfound => (by cases hfound), fun ⟨hi, hpath⟩ => absurd hpath (hnone i hi)⟩
  parent _ p := ⟨fun hfound => (by cases hfound),
    fun ⟨hp, hdir, hpath⟩ => absurd hpath (hparent p hp hdir)⟩
  leaf _ p hfound := by cases hfound

theorem Represents.resolveFrom {cursor : List CourseChar}
    (hused : (fs.nodes d).used) (hdir : (fs.nodes d).isDir)
    (hne : cursor ≠ []) (hlast : cursor.getLast? ≠ some courseSlash) :
    Resolves fs pathOf d (components cursor) (fs.resolveFrom d cursor) := by
  induction d, cursor using CourseFs.resolveFrom.induct fs with
  | case1 d cursor hnext =>
    obtain ⟨hnil, -⟩ := nextComponent_none hnext
    exact absurd hnil (components_ne_nil hne hlast)
  | case2 d cursor name hnext =>
    obtain ⟨hname, hcomponents, -⟩ := nextComponent_some hnext
    rw [resolveFrom_eq hnext, if_pos rfl, hcomponents, components_nil]
    refine ⟨fun i => h.findChild_iff hused hdir hname, fun _ p => ?_, fun _ p _ => rfl⟩
    rw [dropLast_singleton, append_nil]
    constructor
    · rintro ⟨⟩
      exact ⟨hused, hdir, rfl⟩
    rintro ⟨hp, -, hpath⟩
    rw [h.injective p d hp hused hpath]
  | case3 d cursor name rest hnext hrest hfind =>
    obtain ⟨hname, hcomponents, hend⟩ := nextComponent_some hnext
    have hbelow : components rest ≠ [] := components_ne_nil hrest (by rw [hend hrest]; exact hlast)
    rw [resolveFrom_eq hnext, if_neg hrest, hfind, hcomponents]
    have hmiss : ∀ c, ¬((fs.nodes c).used ∧ pathOf c = pathOf d ++ [name]) := by
      intro c hc
      rw [(h.findChild_iff hused hdir hname).2 hc] at hfind
      cases hfind
    refine Represents.resolves_none h (fun i hi hpath => ?_) (fun p hp _ hpath => ?_)
    · obtain ⟨c, hc⟩ := h.passes hused hi hpath
      exact hmiss c hc
    rw [dropLast_cons_of_ne_nil hbelow] at hpath
    obtain ⟨c, hc⟩ := h.passes hused hp hpath
    exact hmiss c hc
  | case4 d cursor name rest hnext hrest child hfind hchildDir ih =>
    obtain ⟨hname, hcomponents, hend⟩ := nextComponent_some hnext
    have hlast' : rest.getLast? ≠ some courseSlash := by rw [hend hrest]; exact hlast
    have hbelow : components rest ≠ [] := components_ne_nil hrest hlast'
    obtain ⟨hchild, hpath⟩ := (h.findChild_iff hused hdir hname).1 hfind
    obtain ⟨hnode, hparent, hleaf⟩ := ih hchild hchildDir hrest hlast'
    have hunder : ∀ below : TreePath, pathOf child ++ below = pathOf d ++ name :: below := by
      intro below
      rw [hpath, List.append_assoc, singleton_append]
    rw [resolveFrom_eq hnext, if_neg hrest, hfind, hcomponents]
    simp only [hchildDir, if_true]
    refine ⟨fun i => ?_, fun _ p => ?_, fun _ p hp => ?_⟩
    · rw [hnode i, hunder]
    · rw [hparent hbelow p, hunder, dropLast_cons_of_ne_nil hbelow]
    rw [hleaf hbelow p hp]
    obtain ⟨first, more, hsplit⟩ := exists_cons_of_ne_nil hbelow
    rw [hsplit, getLastD_cons, getLastD_cons, getLastD_cons]
  | case5 d cursor name rest hnext hrest child hfind hchildDir =>
    obtain ⟨hname, hcomponents, hend⟩ := nextComponent_some hnext
    have hbelow : components rest ≠ [] := components_ne_nil hrest (by rw [hend hrest]; exact hlast)
    obtain ⟨hchild, hpath⟩ := (h.findChild_iff hused hdir hname).1 hfind
    have hunder : ∀ below : TreePath, pathOf d ++ name :: below = pathOf child ++ below := by
      intro below
      rw [hpath, List.append_assoc, singleton_append]
    rw [resolveFrom_eq hnext, if_neg hrest, hfind, hcomponents]
    simp only [hchildDir]
    refine Represents.resolves_none h (fun i hi hbelowPath => ?_) (fun p hp hpdir hbelowPath => ?_)
    · rw [hunder] at hbelowPath
      exact hchildDir (h.isDir_of_below hchild hi hbelowPath hbelow)
    rw [dropLast_cons_of_ne_nil hbelow, hunder] at hbelowPath
    by_cases hempty : (components rest).dropLast = []
    · rw [hempty, append_nil] at hbelowPath
      rw [h.injective p child hp hchild hbelowPath] at hpdir
      exact hchildDir hpdir
    · exact hchildDir (h.isDir_of_below hchild hp hbelowPath hempty)

/-- What a call learns from resolving a path without trailing slash. -/
structure Found (fs : CourseFs) (pathOf : CourseFsNodeIndex → TreePath) (path : TreePath)
    (found : CourseFsResolution) : Prop where
  node : ∀ i, found.node = some i ↔ (fs.nodes i).used ∧ pathOf i = path
  parent : ∀ p, found.parent = some p ↔ path ≠ [] ∧ (fs.nodes p).used ∧
    (fs.nodes p).isDir ∧ pathOf p = path.dropLast
  leaf : ∀ p, found.parent = some p → found.leaf = path.getLastD []

theorem Represents.resolvePath {path : List CourseChar} (hpath : PathOk path) :
    Found fs pathOf (components path) (fs.resolvePath path) := by
  obtain ⟨hhead, hend⟩ := hpath
  rw [CourseFs.resolvePath, if_neg (not_not.2 hhead)]
  by_cases hroot : path = [courseSlash]
  · rw [if_pos hroot, hroot, components_slash, components_nil]
    refine ⟨fun i => ?_, fun p => ?_, fun p hp => by cases hp⟩
    · rw [← h.rootPath]
      constructor
      · rintro ⟨⟩
        exact ⟨h.rootUsed, rfl⟩
      rintro ⟨hi, hsame⟩
      rw [h.injective i 0 hi h.rootUsed hsame]
    · exact ⟨fun hp => (by cases hp), fun hp => absurd rfl hp.1⟩
  · have hne : path ≠ [] := by
      rintro rfl
      cases hhead
    have hlast := hend.resolve_left hroot
    have hcomponents := components_ne_nil hne hlast
    rw [if_neg hroot]
    obtain ⟨hnode, hparent, hleaf⟩ := h.resolveFrom h.rootUsed h.rootDir hne hlast
    rw [h.rootPath] at hnode hparent
    exact ⟨hnode, fun p => (hparent hcomponents p).trans (and_iff_right hcomponents).symm,
      hleaf hcomponents⟩

end

section

variable {path : List CourseChar}

section

variable (h : Represents fs pathOf tree)

include h

section

variable (hpath : PathOk path)

include hpath

theorem Represents.entry_of_node
    {i : CourseFsNodeIndex} (hnode : (fs.resolvePath path).node = some i) :
    (fs.nodes i).used ∧ pathOf i = components path ∧
      ∃ entry, tree.entry (components path) = some entry ∧ fs.Holds i entry := by
  obtain ⟨hi, hsame⟩ := ((h.resolvePath hpath).node i).1 hnode
  have hholds := h.holds i hi
  rw [hsame] at hholds
  exact ⟨hi, hsame, hholds⟩

theorem Represents.entry_of_none
    (hnode : (fs.resolvePath path).node = none) : tree.entry (components path) = none := by
  cases hentry : tree.entry (components path) with
  | none => rfl
  | some entry =>
    obtain ⟨i, hi, hsame⟩ := h.covers _ _ hentry
    rw [((h.resolvePath hpath).node i).2 ⟨hi, hsame⟩] at hnode
    cases hnode

theorem Represents.lookup : fs.lookup path = tree.lookup (components path) := by
  rw [CourseFs.lookup, FileTree.lookup]
  cases hnode : (fs.resolvePath path).node with
  | none => rw [h.entry_of_none hpath hnode]; rfl
  | some i =>
    obtain ⟨-, -, entry, hentry, -⟩ := h.entry_of_node hpath hnode
    rw [hentry]
    rfl

theorem Represents.fileSize : fs.fileSize path = tree.fileSize (components path) := by
  rw [CourseFs.fileSize, FileTree.fileSize]
  cases hnode : (fs.resolvePath path).node with
  | none => rw [h.entry_of_none hpath hnode]
  | some i =>
    obtain ⟨-, -, entry, hentry, hholds⟩ := h.entry_of_node hpath hnode
    cases entry with
    | dir =>
      have hdir : (fs.nodes i).isDir := hholds
      simp [hentry, hdir]
    | file writes =>
      obtain ⟨hdir, hsize, -⟩ := hholds
      simp [hentry, hdir, hsize]

theorem Represents.read (offset size : ℕ) :
    fs.read path offset size = tree.read (components path) offset size := by
  rw [CourseFs.read, FileTree.read]
  cases hnode : (fs.resolvePath path).node with
  | none => rw [h.entry_of_none hpath hnode]
  | some i =>
    obtain ⟨-, -, entry, hentry, hholds⟩ := h.entry_of_node hpath hnode
    cases entry with
    | dir =>
      have hdir : (fs.nodes i).isDir := hholds
      simp [hentry, hdir]
    | file writes =>
      obtain ⟨hdir, hsize, hbytes⟩ := hholds
      simp only [hentry, hdir, hsize, Bool.false_eq_true, false_or]
      by_cases hfits : offset + size ≤ fileEnd writes
      · rw [if_neg (by omega), if_pos hfits, readBytes]
        congr 1
        refine map_congr_left fun k hk => hbytes _ ?_
        have hk' := mem_range.1 hk
        omega
      · rw [if_pos (by omega), if_neg hfits]

end

end

/-- The nodes are the same but for their sizes. -/
structure SameShape (fs fs' : CourseFs) : Prop where
  used : ∀ i, (fs'.nodes i).used = (fs.nodes i).used
  isDir : ∀ i, (fs'.nodes i).isDir = (fs.nodes i).isDir
  parent : ∀ i, (fs'.nodes i).parent = (fs.nodes i).parent
  name : ∀ i, (fs'.nodes i).name = (fs.nodes i).name
  dirIndex : ∀ i, (fs'.nodes i).dirIndex = (fs.nodes i).dirIndex
  leaves : ∀ i, (fs'.nodes i).leaves = (fs.nodes i).leaves

section

variable {fs' : CourseFs} (hshape : SameShape fs fs')
include hshape

theorem SameShape.indexed (h : fs.Indexed) : fs'.Indexed where
  lists d hused hdir c := by
    rw [hshape.used] at hused
    rw [hshape.isDir] at hdir
    rw [hshape.dirIndex, hshape.used, hshape.parent]
    exact h.lists d hused hdir c
  sorted d := by
    simp only [hshape.dirIndex, hshape.name]
    exact h.sorted d
  leaves d := by
    rw [hshape.leaves, hshape.dirIndex]
    exact h.leaves d
  vacant d hvacant := by
    rw [hshape.used, hshape.isDir] at hvacant
    rw [hshape.dirIndex]
    exact h.vacant d hvacant

theorem SameShape.represents {tree' : FileTree} (h : Represents fs pathOf tree)
    (hholds : ∀ i, (fs.nodes i).used →
      ∃ entry, tree'.entry (pathOf i) = some entry ∧ fs'.Holds i entry)
    (hcovers : ∀ path, (tree'.entry path).isSome → (tree.entry path).isSome)
    (hcount : tree'.count = tree.count) : Represents fs' pathOf tree' where
  indexed := hshape.indexed h.indexed
  rootUsed := by rw [hshape.used]; exact h.rootUsed
  rootDir := by rw [hshape.isDir]; exact h.rootDir
  rootParent := by rw [hshape.parent]; exact h.rootParent
  rootPath := h.rootPath
  child i hi hne := by
    rw [hshape.used] at hi
    obtain ⟨p, hp⟩ := h.child i hi hne
    refine ⟨p, ?_⟩
    rw [hshape.parent, hshape.used, hshape.isDir, hshape.name]
    exact hp
  injective i j hi hj := by
    rw [hshape.used] at hi hj
    exact h.injective i j hi hj
  holds i hi := by
    rw [hshape.used] at hi
    exact hholds i hi
  covers path entry hentry := by
    obtain ⟨entry', hentry'⟩ := Option.isSome_iff_exists.1 (hcovers path (by rw [hentry]; rfl))
    obtain ⟨i, hi, hpath⟩ := h.covers path entry' hentry'
    exact ⟨i, by rw [hshape.used]; exact hi, hpath⟩
  count := by
    have hused : fs'.usedNodes = fs.usedNodes := by
      simp only [usedNodes, hshape.used]
    rw [hcount, h.count, hused]

end

theorem writtenData_eq {data : ℕ → CourseChar} {writes : List FileWrite} {offset : ℕ}
    {bytes : List CourseChar} (hdata : ∀ k < fileEnd writes, data k = fileByte writes k) :
    ∀ k < fileEnd ({ offset := offset, bytes := bytes } :: writes),
      writtenData data (fileEnd writes) offset bytes k =
        fileByte ({ offset := offset, bytes := bytes } :: writes) k := by
  intro k hk
  rw [fileEnd] at hk
  rw [writtenData, copyBytes, fileByte]
  simp only at hk ⊢
  split
  · rfl
  rename_i hoff
  by_cases hold : k < fileEnd writes
  · rw [← hdata k hold]
    split
    · rw [zeroBytes, if_neg (by omega)]
    · rfl
  · rw [if_pos (by omega), zeroBytes, if_pos (by omega)]
    exact (fileByte_beyond (by omega)).symm

theorem Represents.write (h : Represents fs pathOf tree) {path : List CourseChar}
    (hpath : PathOk path) (offset : ℕ) (data : List CourseChar) :
    (fs.write path offset data).2 = (tree.write (components path) offset data).2 ∧
      Represents (fs.write path offset data).1 pathOf
        (tree.write (components path) offset data).1 := by
  rw [CourseFs.write, FileTree.write]
  cases hnode : (fs.resolvePath path).node with
  | none =>
    rw [h.entry_of_none hpath hnode]
    exact ⟨rfl, h⟩
  | some i =>
    obtain ⟨hi, hsame, entry, hentry, hholds⟩ := h.entry_of_node hpath hnode
    cases entry with
    | dir =>
      have hdir : (fs.nodes i).isDir := hholds
      simp only [hentry, hdir, true_or, if_true]
      exact ⟨trivial, h⟩
    | file writes =>
      obtain ⟨hdir, hsize, hbytes⟩ := hholds
      simp only [hentry]
      by_cases hfits : offset + data.length ≤ courseFsMaxData
      · rw [if_neg (by rw [hdir]; simp only [Bool.false_eq_true, false_or]; omega), if_pos hfits]
        refine ⟨rfl, ?_⟩
        have hshape : SameShape fs
            { nodes := update fs.nodes i { fs.nodes i with
                size := if (fs.nodes i).size < offset + data.length then offset + data.length
                  else (fs.nodes i).size }
              storage := update fs.storage i
                (writtenData (fs.storage i) (fs.nodes i).size offset data) } := by
          constructor <;> intro j <;> by_cases hj : j = i <;> simp [hj]
        refine hshape.represents h ?_ ?_ ?_
        · intro j hj
          by_cases hne : j = i
          · refine ⟨.file ({ offset := offset, bytes := data } :: writes), ?_, ?_⟩
            · rw [hne, hsame]
              exact update_self ..
            rw [hne]
            refine ⟨?_, ?_, ?_⟩
            · simp [hdir]
            · simp only [update_self, hsize, fileEnd]
              split <;> omega
            · simp only [update_self, hsize]
              exact writtenData_eq hbytes
          · obtain ⟨entry, hold, hstill⟩ := h.holds j hj
            have hother : pathOf j ≠ components path := fun heq =>
              hne (h.injective j i hj hi (heq.trans hsame.symm))
            refine ⟨entry, (update_of_ne hother _ _).trans hold, ?_⟩
            cases entry with
            | dir => simpa [Holds, update_of_ne hne] using hstill
            | file writes' => simpa [Holds, update_of_ne hne] using hstill
        · intro path' hsome
          by_cases hp : path' = components path
          · rw [hp, hentry]
            rfl
          · simpa [update_of_ne hp] using hsome
        · rfl
      · rw [if_pos (by omega), if_neg hfits]
        exact ⟨rfl, h⟩

end

end CourseFs
end VisualCpu
