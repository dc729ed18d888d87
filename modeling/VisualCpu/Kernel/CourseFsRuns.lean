import VisualCpu.Kernel.CourseFsRefinement

/-!
# Runs of the file system

Creating and removing nodes keep the relation to the tree, so every run answers as the tree
does, and in every state reached the directories list their children in order under leaves
that partition them.
-/

namespace VisualCpu

open List Function FileTree

namespace CourseFs

variable {fs : CourseFs} {pathOf : CourseFsNodeIndex → TreePath} {tree : FileTree}

theorem Indexed.mem_used (h : fs.Indexed) {d c : CourseFsNodeIndex}
    (hc : c ∈ (fs.nodes d).dirIndex) :
    (fs.nodes c).used ∧ (fs.nodes c).parent = some d := by
  by_cases hd : (fs.nodes d).used ∧ (fs.nodes d).isDir
  · exact (h.lists d hd.1 hd.2 c).1 hc
  rw [h.vacant d hd] at hc
  cases hc

theorem Indexed.nodup (h : fs.Indexed) (d : CourseFsNodeIndex) : (fs.nodes d).dirIndex.Nodup :=
  (h.sorted d).imp fun hlt heq => by
    rw [heq] at hlt
    exact absurd hlt (lt_irrefl _)

theorem allocNode_some {n : CourseFsNodeIndex} (h : fs.allocNode = some n) :
    (fs.nodes n).used = false := by
  simpa using firstSlot_some h

theorem allocNode_none (h : fs.allocNode = none) (n : CourseFsNodeIndex) : (fs.nodes n).used := by
  simpa using firstSlot_none h n

section

variable (p n : CourseFsNodeIndex) (leaf : List CourseChar) (directory : Bool)

/-- A free slot taken for a new node of a directory. -/
def taken (fs : CourseFs) : CourseFs :=
  fs.setNode n { fs.nodes n with
    used := true, isDir := directory, parent := some p, size := 0, dirIndex := [], name := leaf }

/-- The new node entered into its directory. -/
def added (fs : CourseFs) : CourseFs :=
  (fs.taken p n leaf directory).setNode p (rebuildChildBtree { fs.nodes p with
    dirIndex := (fs.taken p n leaf directory).insertEntry n (fs.nodes p).dirIndex })

variable {p n leaf directory} (hpn : p ≠ n)

theorem added_storage : (fs.added p n leaf directory).storage = fs.storage := rfl

variable (j : CourseFsNodeIndex)

theorem taken_name :
    ((fs.taken p n leaf directory).nodes j).name = if j = n then leaf else (fs.nodes j).name := by
  by_cases hj : j = n <;> simp [taken, setNode, hj]

include hpn

theorem added_used :
    ((fs.added p n leaf directory).nodes j).used = if j = n then true else (fs.nodes j).used := by
  by_cases hj : j = n
  · simp [added, taken, setNode, rebuildChildBtree, hj, hpn.symm]
  by_cases hp : j = p <;>
    simp [added, taken, setNode, rebuildChildBtree, hj, hp, hpn]

theorem added_isDir : ((fs.added p n leaf directory).nodes j).isDir =
      if j = n then directory else (fs.nodes j).isDir := by
  by_cases hj : j = n
  · simp [added, taken, setNode, rebuildChildBtree, hj, hpn.symm]
  by_cases hp : j = p <;>
    simp [added, taken, setNode, rebuildChildBtree, hj, hp, hpn]

theorem added_parent : ((fs.added p n leaf directory).nodes j).parent =
      if j = n then some p else (fs.nodes j).parent := by
  by_cases hj : j = n
  · simp [added, taken, setNode, rebuildChildBtree, hj, hpn.symm]
  by_cases hp : j = p <;>
    simp [added, taken, setNode, rebuildChildBtree, hj, hp, hpn]

theorem added_name :
    ((fs.added p n leaf directory).nodes j).name = if j = n then leaf else (fs.nodes j).name := by
  by_cases hj : j = n
  · simp [added, taken, setNode, rebuildChildBtree, hj, hpn.symm]
  by_cases hp : j = p <;>
    simp [added, taken, setNode, rebuildChildBtree, hj, hp, hpn]

theorem added_size :
    ((fs.added p n leaf directory).nodes j).size = if j = n then 0 else (fs.nodes j).size := by
  by_cases hj : j = n
  · simp [added, taken, setNode, rebuildChildBtree, hj, hpn.symm]
  by_cases hp : j = p <;>
    simp [added, taken, setNode, rebuildChildBtree, hj, hp, hpn]

theorem added_dirIndex : ((fs.added p n leaf directory).nodes j).dirIndex =
      if j = p then (fs.taken p n leaf directory).insertEntry n (fs.nodes p).dirIndex
      else if j = n then [] else (fs.nodes j).dirIndex := by
  by_cases hp : j = p
  · simp [added, setNode, rebuildChildBtree, hp]
  by_cases hj : j = n <;>
    simp [added, taken, setNode, hj, hp, hpn.symm]

theorem added_leaves : ((fs.added p n leaf directory).nodes j).leaves =
      if j = p then leafSegments courseFsBtreeMaxLeaves 0
        ((fs.taken p n leaf directory).insertEntry n (fs.nodes p).dirIndex).length
      else (fs.nodes j).leaves := by
  by_cases hp : j = p
  · simp [added, setNode, rebuildChildBtree, hp]
  by_cases hj : j = n <;>
    simp [added, taken, setNode, hj, hp, hpn.symm]

end

theorem insertChildIndex_taken (h : fs.Indexed) {p n : CourseFsNodeIndex} {leaf : List CourseChar}
    {directory : Bool} (hp : (fs.nodes p).used) (hdir : (fs.nodes p).isDir)
    (hn : (fs.nodes n).used = false) :
    (fs.taken p n leaf directory).insertChildIndex p n = (fs.added p n leaf directory, true) := by
  have hpn : p ≠ n := by
    rintro rfl
    rw [hp] at hn
    cases hn
  have hparent : (fs.taken p n leaf directory).nodes p = fs.nodes p := by
    simp [taken, setNode, update_of_ne hpn]
  have hchild : ((fs.taken p n leaf directory).nodes n).used := by
    simp [taken, setNode]
  have hnew : n ∉ (fs.nodes p).dirIndex := by
    intro hmem
    rw [(h.mem_used hmem).1] at hn
    cases hn
  have hroom : (fs.nodes p).dirIndex.length < courseFsMaxNodes := by
    have hcard := (nodup_cons.2 ⟨hnew, h.nodup p⟩).length_le_card
    rw [length_cons, Fintype.card_fin] at hcard
    exact hcard
  rw [insertChildIndex, hparent, if_neg]
  · rfl
  simp only [hp, hdir, hchild, Bool.true_eq_false, false_or]
  omega

theorem added_indexed (h : Represents fs pathOf tree) {p n : CourseFsNodeIndex}
    {leaf : List CourseChar} {directory : Bool} (hp : (fs.nodes p).used)
    (hdir : (fs.nodes p).isDir) (hn : (fs.nodes n).used = false)
    (hleaf : ∀ c ∈ (fs.nodes p).dirIndex, (fs.nodes c).name ≠ leaf) :
    (fs.added p n leaf directory).Indexed := by
  have hpn : p ≠ n := by
    rintro rfl
    rw [hp] at hn
    cases hn
  have hold : ∀ {d c}, c ∈ (fs.nodes d).dirIndex → c ≠ n := by
    rintro d c hc rfl
    rw [(h.indexed.mem_used hc).1] at hn
    cases hn
  have hchildless : ∀ c, (fs.nodes c).used → (fs.nodes c).parent ≠ some n := by
    intro c hc hparent
    have hne : c ≠ 0 := by
      rintro rfl
      rw [h.rootParent] at hparent
      cases hparent
    obtain ⟨q, hq, hqused, -⟩ := h.child c hc hne
    rw [hparent] at hq
    cases hq
    rw [hqused] at hn
    cases hn
  constructor
  · intro d hused hisDir c
    rw [added_used hpn] at hused
    rw [added_isDir hpn] at hisDir
    rw [added_dirIndex hpn, added_used hpn, added_parent hpn]
    by_cases hd : d = p
    · subst hd
      rw [if_pos rfl, mem_insertEntry]
      by_cases hc : c = n
      · simp [hc]
      simp only [hc, if_false, false_or]
      exact h.indexed.lists d hp hdir c
    · by_cases hdn : d = n
      · rw [if_neg hd, if_pos hdn, hdn]
        constructor
        · intro hmem
          cases hmem
        rintro ⟨hc, hparent⟩
        by_cases hcn : c = n
        · rw [if_pos hcn] at hparent
          exact absurd (Option.some.inj hparent) hpn
        rw [if_neg hcn] at hc hparent
        exact absurd hparent (hchildless c hc)
      · rw [if_neg hdn] at hused hisDir
        rw [if_neg hd, if_neg hdn]
        by_cases hc : c = n
        · subst hc
          simp only [if_true, true_and, Option.some.injEq]
          exact ⟨fun hmem => absurd rfl (hold hmem), fun hpd => absurd hpd.symm hd⟩
        · simp only [hc, if_false]
          exact h.indexed.lists d hused hisDir c
  · intro d
    simp only [added_dirIndex hpn, added_name hpn]
    by_cases hd : d = p
    · subst hd
      rw [if_pos rfl]
      have hsorted : ((fs.taken d n leaf directory).insertEntry n (fs.nodes d).dirIndex).Pairwise
          fun a b => ((fs.taken d n leaf directory).nodes a).name <
            ((fs.taken d n leaf directory).nodes b).name := by
        refine insertEntry_sorted ?_ fun c hc => ?_
        · simp only [taken_name]
          refine (h.indexed.sorted d).imp_of_mem fun ha hb hlt => ?_
          rw [if_neg (hold ha), if_neg (hold hb)]
          exact hlt
        · rw [taken_name, taken_name, if_neg (hold hc), if_pos rfl]
          exact hleaf c hc
      simpa only [taken_name] using hsorted
    · rw [if_neg hd]
      by_cases hdn : d = n
      · rw [if_pos hdn]
        exact List.Pairwise.nil
      rw [if_neg hdn]
      refine (h.indexed.sorted d).imp_of_mem fun ha hb hlt => ?_
      rw [if_neg (hold ha), if_neg (hold hb)]
      exact hlt
  · intro d
    rw [added_leaves hpn, added_dirIndex hpn]
    by_cases hd : d = p
    · rw [if_pos hd, if_pos hd]
    rw [if_neg hd, if_neg hd, h.indexed.leaves d]
    by_cases hdn : d = n
    · rw [if_pos hdn, hdn, h.indexed.vacant n (by simp [hn])]
    · rw [if_neg hdn]
  · intro d hvacant
    rw [added_used hpn, added_isDir hpn] at hvacant
    rw [added_dirIndex hpn]
    by_cases hd : d = p
    · subst hd
      rw [if_neg hpn, if_neg hpn] at hvacant
      exact absurd ⟨hp, hdir⟩ hvacant
    rw [if_neg hd]
    by_cases hdn : d = n
    · rw [if_pos hdn]
    rw [if_neg hdn, if_neg hdn] at hvacant
    rw [if_neg hdn]
    exact h.indexed.vacant d hvacant

theorem added_represents (h : Represents fs pathOf tree) {p n : CourseFsNodeIndex}
    {leaf : List CourseChar} {directory : Bool} {path : TreePath}
    (hp : (fs.nodes p).used) (hdir : (fs.nodes p).isDir)
    (hn : (fs.nodes n).used = false) (hleaf : leaf ≠ []) (hpath : pathOf p ++ [leaf] = path)
    (hfree : tree.entry path = none) :
    Represents (fs.added p n leaf directory) (update pathOf n path)
      (tree.add path (if directory then .dir else .file [])) := by
  have hpn : p ≠ n := by
    rintro rfl
    rw [hp] at hn
    cases hn
  have hzero : (0 : CourseFsNodeIndex) ≠ n := by
    rintro rfl
    rw [h.rootUsed] at hn
    cases hn
  have hused : ∀ {j}, (fs.nodes j).used → j ≠ n := by
    rintro j hj rfl
    rw [hj] at hn
    cases hn
  have hother : ∀ {j}, (fs.nodes j).used → pathOf j ≠ path := by
    intro j hj hsame
    obtain ⟨entry, hentry, -⟩ := h.holds j hj
    rw [hsame, hfree] at hentry
    cases hentry
  have hnames : ∀ c ∈ (fs.nodes p).dirIndex, (fs.nodes c).name ≠ leaf := by
    intro c hc hname
    obtain ⟨hcused, hcparent⟩ := h.indexed.mem_used hc
    have hne : c ≠ 0 := by
      rintro rfl
      rw [h.rootParent] at hcparent
      cases hcparent
    obtain ⟨q, hq, -, -, -, hcpath⟩ := h.child c hcused hne
    rw [hcparent] at hq
    cases hq
    rw [hname, hpath] at hcpath
    exact hother hcused hcpath
  have hback : ∀ {j}, ((fs.added p n leaf directory).nodes j).used → j ≠ n → (fs.nodes j).used := by
    intro j hj hne
    rw [added_used hpn, if_neg hne] at hj
    exact hj
  refine ⟨added_indexed h hp hdir hn hnames, ?_, ?_, ?_, ?_, ?_, ?_, ?_, ?_, ?_⟩
  · rw [added_used hpn, if_neg hzero]
    exact h.rootUsed
  · rw [added_isDir hpn, if_neg hzero]
    exact h.rootDir
  · rw [added_parent hpn, if_neg hzero]
    exact h.rootParent
  · rw [update_of_ne hzero]
    exact h.rootPath
  · intro i hi hne
    rw [added_parent hpn, added_name hpn]
    by_cases hin : i = n
    · refine ⟨p, by rw [if_pos hin], ?_, ?_, ?_, ?_⟩
      · rw [added_used hpn, if_neg hpn]
        exact hp
      · rw [added_isDir hpn, if_neg hpn]
        exact hdir
      · rw [if_pos hin]
        exact hleaf
      · rw [if_pos hin, hin, update_self, update_of_ne hpn]
        exact hpath.symm
    · obtain ⟨q, hparent, hqused, hqdir, hname, hipath⟩ := h.child i (hback hi hin) hne
      refine ⟨q, by rw [if_neg hin]; exact hparent, ?_, ?_, ?_, ?_⟩
      · rw [added_used hpn, if_neg (hused hqused)]
        exact hqused
      · rw [added_isDir hpn, if_neg (hused hqused)]
        exact hqdir
      · rw [if_neg hin]
        exact hname
      · rw [if_neg hin, update_of_ne hin, update_of_ne (hused hqused)]
        exact hipath
  · intro i j hi hj hsame
    by_cases hin : i = n
    · by_cases hjn : j = n
      · rw [hin, hjn]
      rw [hin, update_self, update_of_ne hjn] at hsame
      exact absurd hsame.symm (hother (hback hj hjn))
    · by_cases hjn : j = n
      · rw [hjn, update_self, update_of_ne hin] at hsame
        exact absurd hsame (hother (hback hi hin))
      rw [update_of_ne hin, update_of_ne hjn] at hsame
      exact h.injective i j (hback hi hin) (hback hj hjn) hsame
  · intro i hi
    by_cases hin : i = n
    · refine ⟨_, by rw [hin, update_self]; exact update_self .., ?_⟩
      cases directory with
      | true => simp [Holds, added_isDir hpn, hin]
      | false => simp [Holds, added_isDir hpn, added_size hpn, hin, fileEnd]
    obtain ⟨entry, hentry, hholds⟩ := h.holds i (hback hi hin)
    refine ⟨entry, ?_, ?_⟩
    · rw [update_of_ne hin]
      exact (update_of_ne (hother (hback hi hin)) _ _).trans hentry
    cases entry with
    | dir => simpa [Holds, added_isDir hpn, hin] using hholds
    | file writes =>
      simpa [Holds, added_isDir hpn, added_size hpn, added_storage, hin] using hholds
  · intro path' entry hentry
    by_cases hsame : path' = path
    · refine ⟨n, ?_, by rw [update_self, hsame]⟩
      rw [added_used hpn, if_pos rfl]
    have hold : tree.entry path' = some entry :=
      (update_of_ne hsame _ _).symm.trans hentry
    obtain ⟨i, hi, hipath⟩ := h.covers path' entry hold
    refine ⟨i, ?_, by rw [update_of_ne (hused hi)]; exact hipath⟩
    rw [added_used hpn, if_neg (hused hi)]
    exact hi
  · have hnodes : (fs.added p n leaf directory).usedNodes = insert n fs.usedNodes := by
      ext j
      simp only [usedNodes, Finset.mem_filter, Finset.mem_univ, true_and, added_used hpn,
        Finset.mem_insert]
      by_cases hj : j = n <;> simp [hj]
    rw [hnodes, Finset.card_insert_of_notMem (by simp [usedNodes, hn]), ← h.count]
    rfl

theorem mem_components_ne_nil {path name : List CourseChar} (h : name ∈ components path) :
    name ≠ [] := by
  rw [components, mem_filter] at h
  simpa using h.2

variable {path : List CourseChar} {p i : CourseFsNodeIndex}

theorem Represents.parent_of_found (h : Represents fs pathOf tree)
    (hpath : PathOk path) (p : CourseFsNodeIndex) :
    (fs.resolvePath path).parent = some p ↔ components path ≠ [] ∧ (fs.nodes p).used ∧
      pathOf p = (components path).dropLast ∧
        tree.entry (components path).dropLast = some .dir := by
  rw [(h.resolvePath hpath).parent p]
  constructor
  · rintro ⟨hne, hp, hdir, hsame⟩
    obtain ⟨entry, hentry, hholds⟩ := h.holds p hp
    rw [hsame] at hentry
    cases entry with
    | dir => exact ⟨hne, hp, hsame, hentry⟩
    | file writes =>
      rw [hholds.1] at hdir
      cases hdir
  · rintro ⟨hne, hp, hsame, hentry⟩
    obtain ⟨entry, hentry', hholds⟩ := h.holds p hp
    rw [hsame, hentry] at hentry'
    cases hentry'
    exact ⟨hne, hp, hholds, hsame⟩

theorem Represents.create (h : Represents fs pathOf tree) (hpath : PathOk path) (directory : Bool) :
    (fs.create path directory).2 = (tree.create (components path) directory).2 ∧
      ∃ pathOf', Represents (fs.create path directory).1 pathOf'
        (tree.create (components path) directory).1 := by
  have hrefused : ¬tree.CanCreate (components path) → fs.create path directory = (fs, false) →
      (fs.create path directory).2 = (tree.create (components path) directory).2 ∧
        ∃ pathOf', Represents (fs.create path directory).1 pathOf'
          (tree.create (components path) directory).1 := by
    intro hcannot hsame
    rw [FileTree.create, if_neg hcannot, hsame]
    exact ⟨rfl, pathOf, h⟩
  cases hnode : (fs.resolvePath path).node with
  | some i =>
    obtain ⟨-, -, entry, hentry, -⟩ := h.entry_of_node hpath hnode
    refine hrefused (fun hcan => ?_) (by simp only [CourseFs.create, hnode])
    rw [hcan.2.1] at hentry
    cases hentry
  | none =>
    have hfree := h.entry_of_none hpath hnode
    cases hparent : (fs.resolvePath path).parent with
    | none =>
      refine hrefused (fun hcan => ?_) (by simp only [CourseFs.create, hnode, hparent])
      obtain ⟨hne, -, hdir, -⟩ := hcan
      obtain ⟨p, hp, hsame⟩ := h.covers _ _ hdir
      rw [(h.parent_of_found hpath p).2 ⟨hne, hp, hsame, hdir⟩] at hparent
      cases hparent
    | some p =>
      obtain ⟨hne, hp, hsame, hentry⟩ := (h.parent_of_found hpath p).1 hparent
      have hdir := (((h.resolvePath hpath).parent p).1 hparent).2.2.1
      have hleaf := (h.resolvePath hpath).leaf p hparent
      have hlast : (components path).dropLast ++ [(components path).getLastD []] =
        components path := by
        rw [List.getLastD_eq_getLast?, List.getLast?_eq_some_getLast hne]
        exact dropLast_concat_getLast hne
      have hname : (components path).getLastD [] ≠ [] := by
        have hmem := mem_append_right (components path).dropLast
          (mem_singleton_self ((components path).getLastD []))
        rw [hlast] at hmem
        exact mem_components_ne_nil hmem
      by_cases hlong : courseFsMaxName ≤ ((components path).getLastD []).length
      · refine hrefused (fun hcan => ?_) ?_
        · have hshort := hcan.2.2.2.1
          omega
        · simp only [CourseFs.create, hnode, hparent, hleaf, hlong, or_true, if_true]
      cases halloc : fs.allocNode with
      | none =>
        refine hrefused (fun hcan => ?_) ?_
        · have hfull : fs.usedNodes = Finset.univ := by
            ext j
            simp [usedNodes, allocNode_none halloc j]
          have hroom := hcan.2.2.2.2
          rw [h.count, hfull, Finset.card_univ, Fintype.card_fin] at hroom
          exact absurd hroom (by decide)
        · simp only [CourseFs.create, hnode, hparent, hleaf, hname, hlong, or_self, if_false,
            halloc]
      | some n =>
        have hn := allocNode_some halloc
        have hroom : tree.count < courseFsMaxNodes := by
          have hcard := Finset.card_lt_card (Finset.ssubset_univ_iff.2
            (show fs.usedNodes ≠ Finset.univ from fun hall => by
              have hmem : n ∈ fs.usedNodes := by rw [hall]; exact Finset.mem_univ n
              rw [usedNodes, Finset.mem_filter, hn] at hmem
              cases hmem.2))
          rw [h.count]
          simpa [courseFsMaxNodes] using hcard
        have hcan : tree.CanCreate (components path) :=
          ⟨hne, hfree, hentry, not_le.1 hlong, hroom⟩
        have hcreate : fs.create path directory =
            (fs.added p n ((components path).getLastD []) directory, true) := by
          have hinsert := @insertChildIndex_taken fs h.indexed p n ((components path).getLastD [])
            directory hp hdir hn
          simp only [CourseFs.create, hnode, hparent, hleaf, hname, hlong, or_self, if_false,
            halloc]
          rw [taken] at hinsert
          rw [hinsert]
        rw [hcreate, FileTree.create, if_pos hcan]
        exact ⟨rfl, _, added_represents h hp hdir hn hname (by rw [hsame, hlast]) hfree⟩

/-- What removing a node leaves: its directory lists it no longer and its slot is free. -/
def removed (fs : CourseFs) (p i : CourseFsNodeIndex) : CourseFs :=
  (fs.setNode p (rebuildChildBtree { fs.nodes p with
    dirIndex := (fs.nodes p).dirIndex.erase i })).setNode i { fs.nodes i with used := false }

section

variable {p i : CourseFsNodeIndex} (hpi : p ≠ i)
include hpi

variable (j : CourseFsNodeIndex)

theorem removed_used :
    ((fs.removed p i).nodes j).used = if j = i then false else (fs.nodes j).used := by
  by_cases hj : j = i
  · simp [removed, setNode, hj]
  by_cases hp : j = p <;>
    simp [removed, setNode, rebuildChildBtree, hj, hp, hpi]

theorem removed_isDir : ((fs.removed p i).nodes j).isDir = (fs.nodes j).isDir := by
  by_cases hj : j = i
  · simp [removed, setNode, hj]
  by_cases hp : j = p <;>
    simp [removed, setNode, rebuildChildBtree, hj, hp, hpi]

theorem removed_parent : ((fs.removed p i).nodes j).parent = (fs.nodes j).parent := by
  by_cases hj : j = i
  · simp [removed, setNode, hj]
  by_cases hp : j = p <;>
    simp [removed, setNode, rebuildChildBtree, hj, hp, hpi]

theorem removed_name : ((fs.removed p i).nodes j).name = (fs.nodes j).name := by
  by_cases hj : j = i
  · simp [removed, setNode, hj]
  by_cases hp : j = p <;>
    simp [removed, setNode, rebuildChildBtree, hj, hp, hpi]

theorem removed_size : ((fs.removed p i).nodes j).size = (fs.nodes j).size := by
  by_cases hj : j = i
  · simp [removed, setNode, hj]
  by_cases hp : j = p <;>
    simp [removed, setNode, rebuildChildBtree, hj, hp, hpi]

theorem removed_dirIndex : ((fs.removed p i).nodes j).dirIndex =
      if j = p then (fs.nodes p).dirIndex.erase i else (fs.nodes j).dirIndex := by
  by_cases hp : j = p
  · simp [removed, setNode, rebuildChildBtree, hp, hpi]
  · by_cases hj : j = i <;> simp [removed, setNode, hj, hp, hpi.symm]

theorem removed_leaves : ((fs.removed p i).nodes j).leaves =
      if j = p then leafSegments courseFsBtreeMaxLeaves 0 ((fs.nodes p).dirIndex.erase i).length
      else (fs.nodes j).leaves := by
  by_cases hp : j = p
  · simp [removed, setNode, rebuildChildBtree, hp, hpi]
  · by_cases hj : j = i <;> simp [removed, setNode, hj, hp, hpi.symm]

end

/-- A used node other than the root, in its directory and without children. -/
structure Removable (fs : CourseFs) (p i : CourseFsNodeIndex) : Prop where
  used : (fs.nodes i).used
  root : i ≠ 0
  parent : (fs.nodes i).parent = some p
  parentUsed : (fs.nodes p).used
  parentDir : (fs.nodes p).isDir
  childless : ∀ c, (fs.nodes c).used → (fs.nodes c).parent ≠ some i

theorem Removable.ne (hr : Removable fs p i) : p ≠ i := by
  rintro rfl
  exact hr.childless p hr.used hr.parent

theorem removeNode_eq (h : fs.Indexed) (hr : Removable fs p i) :
    fs.removeNode i = fs.removed p i := by
  have hmem := (h.lists p hr.parentUsed hr.parentDir i).2 ⟨hr.used, hr.parent⟩
  rw [removeNode, hr.parent, removeChildIndex, if_neg, if_pos hmem, removed]
  · simp only [setNode, update_of_ne hr.ne.symm]
  · simp [hr.parentUsed, hr.parentDir]

theorem removed_indexed (h : fs.Indexed) (hr : Removable fs p i) : (fs.removed p i).Indexed := by
  constructor
  · intro d hused hdir c
    rw [removed_used hr.ne] at hused
    rw [removed_isDir hr.ne] at hdir
    rw [removed_dirIndex hr.ne, removed_used hr.ne, removed_parent hr.ne]
    have hdi : d ≠ i := by
      rintro rfl
      simp at hused
    rw [if_neg hdi] at hused
    by_cases hd : d = p
    · rw [if_pos hd, (h.nodup p).mem_erase_iff, ← hd, h.lists d hused hdir]
      by_cases hc : c = i <;> simp [hc]
    rw [if_neg hd, h.lists d hused hdir]
    by_cases hc : c = i
    · rw [hc, hr.parent]
      simp [Ne.symm hd]
    · rw [if_neg hc]
  · intro d
    simp only [removed_name hr.ne, removed_dirIndex hr.ne]
    by_cases hd : d = p
    · rw [if_pos hd]
      exact (h.sorted p).sublist erase_sublist
    rw [if_neg hd]
    exact h.sorted d
  · intro d
    rw [removed_leaves hr.ne, removed_dirIndex hr.ne]
    by_cases hd : d = p
    · rw [if_pos hd, if_pos hd]
    rw [if_neg hd, if_neg hd]
    exact h.leaves d
  · intro d hvacant
    rw [removed_used hr.ne, removed_isDir hr.ne] at hvacant
    rw [removed_dirIndex hr.ne]
    by_cases hd : d = p
    · rw [hd, if_neg hr.ne] at hvacant
      exact absurd ⟨hr.parentUsed, hr.parentDir⟩ hvacant
    rw [if_neg hd]
    by_cases hdi : d = i
    · by_cases hdir : (fs.nodes i).isDir
      · rw [hdi]
        refine eq_nil_iff_forall_not_mem.2 fun c hc => ?_
        obtain ⟨hcused, hcparent⟩ := (h.lists i hr.used hdir c).1 hc
        exact hr.childless c hcused hcparent
      · rw [hdi]
        exact h.vacant i fun hboth => hdir hboth.2
    · rw [if_neg hdi] at hvacant
      exact h.vacant d hvacant

theorem removed_represents (h : Represents fs pathOf tree)
    (hr : Removable fs p i) : Represents (fs.removed p i) pathOf (tree.remove (pathOf i)) := by
  have hpi := hr.ne
  have hback : ∀ {j}, ((fs.removed p i).nodes j).used → j ≠ i ∧ (fs.nodes j).used =
    true := by
    intro j hj
    rw [removed_used hpi] at hj
    split at hj
    · cases hj
    · exact ⟨‹_›, hj⟩
  have hother : ∀ {j}, (fs.nodes j).used → j ≠ i → pathOf j ≠ pathOf i :=
    fun hj hne hsame => hne (h.injective _ _ hj hr.used hsame)
  refine ⟨removed_indexed h.indexed hr, ?_, ?_, ?_, h.rootPath, ?_, ?_, ?_, ?_, ?_⟩
  · rw [removed_used hpi, if_neg hr.root.symm]
    exact h.rootUsed
  · rw [removed_isDir hpi]
    exact h.rootDir
  · rw [removed_parent hpi]
    exact h.rootParent
  · intro j hj hne
    obtain ⟨hji, hjused⟩ := hback hj
    obtain ⟨q, hq, hqused, hqdir, hname, hjpath⟩ := h.child j hjused hne
    have hqi : q ≠ i := by
      rintro rfl
      exact hr.childless j hjused hq
    refine ⟨q, ?_⟩
    rw [removed_parent hpi, removed_used hpi, if_neg hqi, removed_isDir hpi, removed_name hpi]
    exact ⟨hq, hqused, hqdir, hname, hjpath⟩
  · intro j k hj hk hsame
    exact h.injective j k (hback hj).2 (hback hk).2 hsame
  · intro j hj
    obtain ⟨hji, hjused⟩ := hback hj
    obtain ⟨entry, hentry, hholds⟩ := h.holds j hjused
    refine ⟨entry, (update_of_ne (hother hjused hji) _ _).trans hentry, ?_⟩
    cases entry with
    | dir => simpa only [Holds, removed_isDir hpi] using hholds
    | file writes =>
      have hstorage : (fs.removed p i).storage = fs.storage := rfl
      simpa only [Holds, removed_isDir hpi, removed_size hpi, hstorage] using hholds
  · intro path entry hentry
    by_cases hsame : path = pathOf i
    · rw [hsame] at hentry
      have hgone : (tree.remove (pathOf i)).entry (pathOf i) = none := update_self ..
      rw [hgone] at hentry
      cases hentry
    have hold : tree.entry path = some entry := (update_of_ne hsame _ _).symm.trans hentry
    obtain ⟨j, hj, hjpath⟩ := h.covers path entry hold
    refine ⟨j, ?_, hjpath⟩
    rw [removed_used hpi, if_neg]
    · exact hj
    rintro rfl
    exact hsame hjpath.symm
  · have hnodes : (fs.removed p i).usedNodes = fs.usedNodes.erase i := by
      ext j
      simp only [usedNodes, Finset.mem_filter, Finset.mem_univ, true_and, removed_used hpi,
        Finset.mem_erase]
      by_cases hj : j = i <;> simp [hj]
    rw [hnodes, Finset.card_erase_of_mem (by simp [usedNodes, hr.used]), ← h.count]
    rfl

theorem nodeHasChildren_false {i : CourseFsNodeIndex} : fs.nodeHasChildren i = false ↔
      ∀ c, (fs.nodes c).used → (fs.nodes c).parent ≠ some i := by
  rw [nodeHasChildren]
  cases hsearch : firstSlot fun c => (fs.nodes c).used && (fs.nodes c).parent == some i with
  | none =>
    refine ⟨fun _ c hc hparent => ?_, fun _ => rfl⟩
    have hmiss := firstSlot_none hsearch c
    simp [hc, hparent] at hmiss
  | some c =>
    have hhit := firstSlot_some hsearch
    simp only [Bool.and_eq_true, beq_iff_eq] at hhit
    exact ⟨fun hfalse => (by cases hfalse), fun hall => absurd hhit.2 (hall c hhit.1)⟩

section

variable (h : Represents fs pathOf tree)

include h

section

variable {i : CourseFsNodeIndex} (hi : (fs.nodes i).used)

include hi

theorem Represents.childless_iff : (∀ c, (fs.nodes c).used → (fs.nodes c).parent ≠ some i) ↔
      ∀ name, tree.entry (pathOf i ++ [name]) = none := by
  constructor
  · intro hchildless name
    cases hentry : tree.entry (pathOf i ++ [name]) with
    | none => rfl
    | some entry =>
      obtain ⟨c, hc, hpath⟩ := h.covers _ _ hentry
      have hne : c ≠ 0 := by
        rintro rfl
        rw [h.rootPath] at hpath
        exact absurd hpath.symm (by simp)
      obtain ⟨q, hq, hqused, -, -, hpath'⟩ := h.child c hc hne
      rw [hpath] at hpath'
      obtain ⟨hsame, -⟩ := append_inj' hpath' rfl
      rw [← h.injective i q hi hqused hsame] at hq
      exact absurd hq (hchildless c hc)
  · intro hnone c hc hparent
    have hne : c ≠ 0 := by
      rintro rfl
      rw [h.rootParent] at hparent
      cases hparent
    obtain ⟨q, hq, -, -, -, hpath⟩ := h.child c hc hne
    rw [hparent] at hq
    cases hq
    obtain ⟨entry, hentry, -⟩ := h.holds c hc
    rw [hpath, hnone] at hentry
    cases hentry

theorem Represents.removable (hne : i ≠ 0)
    (hchildless : ∀ c, (fs.nodes c).used → (fs.nodes c).parent ≠ some i) :
    ∃ p, Removable fs p i := by
  obtain ⟨p, hparent, hp, hdir, -, -⟩ := h.child i hi hne
  exact ⟨p, hi, hne, hparent, hp, hdir, hchildless⟩

theorem Represents.root_iff : i = 0 ↔ pathOf i = [] := by
  constructor
  · rintro rfl
    exact h.rootPath
  intro hnil
  exact h.injective i 0 hi h.rootUsed (hnil.trans h.rootPath.symm)

end

theorem Represents.rmdir (hpath : PathOk path) :
    (fs.rmdir path).2 = (tree.rmdir (components path)).2 ∧
      Represents (fs.rmdir path).1 pathOf (tree.rmdir (components path)).1 := by
  rw [CourseFs.rmdir, FileTree.rmdir]
  cases hnode : (fs.resolvePath path).node with
  | none =>
    rw [if_neg]
    · exact ⟨rfl, h⟩
    rintro ⟨-, hdir, -⟩
    rw [h.entry_of_none hpath hnode] at hdir
    cases hdir
  | some i =>
    obtain ⟨hi, hsame, entry, hentry, hholds⟩ := h.entry_of_node hpath hnode
    have hroot := h.root_iff hi
    have hempty := (@nodeHasChildren_false fs i).trans (h.childless_iff hi)
    rw [hsame] at hroot hempty
    by_cases hcan : tree.CanRmdir (components path)
    · obtain ⟨hne, hdir, hnone⟩ := id hcan
      rw [hdir] at hentry
      cases hentry
      have hisDir : (fs.nodes i).isDir := hholds
      have hzero : i ≠ 0 := fun hzero => hne (hroot.1 hzero)
      have hchildless := hempty.2 hnone
      obtain ⟨p, hr⟩ := h.removable hi hzero (nodeHasChildren_false.1 hchildless)
      rw [if_pos hcan]
      simp only [hzero, hisDir, hchildless, Bool.false_eq_true, Bool.true_eq_false, or_self,
        if_false]
      refine ⟨trivial, ?_⟩
      rw [removeNode_eq h.indexed hr, ← hsame]
      exact removed_represents h hr
    · rw [if_neg hcan]
      simp only
      rw [if_pos]
      · exact ⟨rfl, h⟩
      by_contra hgo
      simp only [not_or, Bool.not_eq_false, Bool.not_eq_true] at hgo
      obtain ⟨hzero, hisDir, hchildless⟩ := hgo
      refine hcan ⟨fun hnil => hzero (hroot.2 hnil), ?_, hempty.1 hchildless⟩
      cases entry with
      | dir => exact hentry
      | file writes =>
        rw [hholds.1] at hisDir
        cases hisDir

theorem Represents.unlink (hpath : PathOk path) :
    (fs.unlink path).2 = (tree.unlink (components path)).2 ∧
      Represents (fs.unlink path).1 pathOf (tree.unlink (components path)).1 := by
  rw [CourseFs.unlink, FileTree.unlink]
  cases hnode : (fs.resolvePath path).node with
  | none =>
    rw [h.entry_of_none hpath hnode]
    exact ⟨rfl, h⟩
  | some i =>
    obtain ⟨hi, hsame, entry, hentry, hholds⟩ := h.entry_of_node hpath hnode
    cases entry with
    | dir =>
      have hisDir : (fs.nodes i).isDir := hholds
      simp only [hentry, hisDir, or_true, if_true]
      exact ⟨trivial, h⟩
    | file writes =>
      obtain ⟨hfile, -, -⟩ := hholds
      have hzero : i ≠ 0 := by
        rintro rfl
        rw [h.rootDir] at hfile
        cases hfile
      have hchildless : ∀ c, (fs.nodes c).used → (fs.nodes c).parent ≠ some i := by
        intro c hc hparent
        have hne : c ≠ 0 := by
          rintro rfl
          rw [h.rootParent] at hparent
          cases hparent
        obtain ⟨q, hq, -, hqdir, -, -⟩ := h.child c hc hne
        rw [hparent] at hq
        cases hq
        rw [hqdir] at hfile
        cases hfile
      obtain ⟨p, hr⟩ := h.removable hi hzero hchildless
      simp only [hentry, hzero, hfile, Bool.false_eq_true, or_self, if_false]
      refine ⟨trivial, ?_⟩
      rw [removeNode_eq h.indexed hr, ← hsame]
      exact removed_represents h hr

end

theorem init_represents (storage : CourseFsStorage) :
    Represents (init storage) (fun _ => []) empty := by
  have hused : ∀ i, ((init storage).nodes i).used ↔ i = 0 := by
    intro i
    by_cases hi : i = 0 <;> simp [init, hi]
  have hparent : ∀ i, ((init storage).nodes i).parent = none := by
    intro i
    by_cases hi : i = 0 <;> simp [init, hi]
  have hentries : ∀ i, ((init storage).nodes i).dirIndex = [] := by
    intro i
    by_cases hi : i = 0 <;> simp [init, hi]
  have hleaves : ∀ i, ((init storage).nodes i).leaves = [] := by
    intro i
    by_cases hi : i = 0 <;> simp [init, hi]
  refine ⟨⟨?_, ?_, ?_, fun d _ => hentries d⟩, (hused 0).2 rfl, ?_, hparent 0, rfl, ?_, ?_, ?_,
    ?_, ?_⟩
  · intro d _ _ c
    rw [hentries, hparent]
    simp
  · intro d
    rw [hentries]
    exact List.Pairwise.nil
  · intro d
    rw [hleaves, hentries]
    rfl
  · simp [init]
  · intro i hi hne
    exact absurd ((hused i).1 hi) hne
  · intro i j hi hj _
    rw [(hused i).1 hi, (hused j).1 hj]
  · intro i hi
    refine ⟨.dir, rfl, ?_⟩
    rw [(hused i).1 hi]
    simp [Holds, init]
  · intro path entry hentry
    refine ⟨0, (hused 0).2 rfl, ?_⟩
    by_contra hne
    rw [empty] at hentry
    simp [Ne.symm hne] at hentry
  · have hnodes : (init storage).usedNodes = {0} := by
      ext i
      simp only [usedNodes, Finset.mem_filter, Finset.mem_univ, true_and, Finset.mem_singleton,
        hused]
    rw [hnodes, Finset.card_singleton]
    rfl

end CourseFs

/-- The path of a call, when it has one, is absolute and without trailing slash. -/
def CourseFsAction.PathOk : CourseFsAction → Prop
  | .mkfs _ => True
  | .create path _ => VisualCpu.PathOk path
  | .mkdir path => VisualCpu.PathOk path
  | .rmdir path => VisualCpu.PathOk path
  | .unlink path => VisualCpu.PathOk path
  | .write path _ _ => VisualCpu.PathOk path
  | .read path _ _ => VisualCpu.PathOk path
  | .size path => VisualCpu.PathOk path
  | .lookup path => VisualCpu.PathOk path

namespace CourseFs

section

variable {fs : CourseFs} {pathOf : CourseFsNodeIndex → TreePath} {tree : FileTree}
  (h : Represents fs pathOf tree)

include h

theorem Represents.perform {action : CourseFsAction} (hpath : action.PathOk) :
    (fs.perform action).2 = (tree.perform action).2 ∧
      ∃ pathOf', Represents (fs.perform action).1 pathOf' (tree.perform action).1 := by
  cases action with
  | mkfs storage => exact ⟨rfl, _, init_represents storage⟩
  | create path directory =>
    obtain ⟨hanswer, hafter⟩ := h.create hpath directory
    exact ⟨congrArg CourseFsResult.done hanswer, hafter⟩
  | mkdir path =>
    obtain ⟨hanswer, hafter⟩ := h.create hpath true
    exact ⟨congrArg CourseFsResult.done hanswer, hafter⟩
  | rmdir path =>
    obtain ⟨hanswer, hafter⟩ := h.rmdir hpath
    exact ⟨congrArg CourseFsResult.done hanswer, _, hafter⟩
  | unlink path =>
    obtain ⟨hanswer, hafter⟩ := h.unlink hpath
    exact ⟨congrArg CourseFsResult.done hanswer, _, hafter⟩
  | write path offset data =>
    obtain ⟨hanswer, hafter⟩ := h.write hpath offset data
    exact ⟨congrArg CourseFsResult.done hanswer, _, hafter⟩
  | read path offset size =>
    exact ⟨congrArg CourseFsResult.bytes (h.read hpath offset size), _, h⟩
  | size path => exact ⟨congrArg CourseFsResult.size (h.fileSize hpath), _, h⟩
  | lookup path => exact ⟨congrArg CourseFsResult.done (h.lookup hpath), _, h⟩

theorem Represents.run {actions : List CourseFsAction}
    (hpaths : ∀ action ∈ actions, action.PathOk) :
    fs.results actions = tree.results actions ∧
      ∃ pathOf', Represents (fs.run actions) pathOf' (tree.run actions) := by
  induction actions generalizing fs pathOf tree with
  | nil => exact ⟨rfl, pathOf, h⟩
  | cons action rest ih =>
    obtain ⟨hfirst, hrest⟩ := forall_mem_cons.1 hpaths
    obtain ⟨hanswer, pathOf', hafter⟩ := h.perform hfirst
    obtain ⟨hanswers, hreached⟩ := ih hafter hrest
    exact ⟨by rw [results, FileTree.results, hanswer, hanswers], hreached⟩

end

/-- Every directory lists exactly its children by strictly increasing names, its leaves hold
one to four entries each and cover the entries in order, and the bisection finds what a scan
of the entries finds. -/
def IndexSound (fs : CourseFs) : Prop :=
  ∀ d, (fs.nodes d).used → (fs.nodes d).isDir →
    (∀ c, c ∈ (fs.nodes d).dirIndex ↔ (fs.nodes c).used ∧ (fs.nodes c).parent = some d) ∧
    ((fs.nodes d).dirIndex.map fun c => (fs.nodes c).name).Pairwise (· < ·) ∧
    (∀ leaf ∈ (fs.nodes d).leaves, 1 ≤ leaf.2 ∧ leaf.2 ≤ courseFsBtreeLeafCapacity) ∧
    ((fs.nodes d).leaves.flatMap fun leaf => ((fs.nodes d).dirIndex.drop leaf.1).take leaf.2) =
      (fs.nodes d).dirIndex ∧
    ∀ name, fs.findChild d name =
      (fs.nodes d).dirIndex.find? fun c => (fs.nodes c).name == name

theorem Represents.indexSound {fs : CourseFs} {pathOf : CourseFsNodeIndex → TreePath}
    {tree : FileTree} (h : Represents fs pathOf tree) : fs.IndexSound := by
  intro d hused hdir
  have hsorted := h.indexed.sortedDir d
  refine ⟨h.indexed.lists d hused hdir, pairwise_map.2 (h.indexed.sorted d), ?_, ?_, ?_⟩
  · rw [h.indexed.leaves d]
    exact leafSegments_counts
  · rw [h.indexed.leaves d, leafSegments_cover, drop_zero]
    have hsmall := hsorted.small
    simp only [courseFsMaxNodes, courseFsBtreeMaxLeaves, courseFsBtreeLeafCapacity] at hsmall ⊢
    omega
  · intro name
    refine findChild_eq_find? hsorted hused hdir fun c hc => ?_
    obtain ⟨hcused, hcparent⟩ := h.indexed.mem_used hc
    have hne : c ≠ 0 := by
      rintro rfl
      rw [h.rootParent] at hcparent
      cases hcparent
    obtain ⟨-, -, -, -, hname, -⟩ := h.child c hcused hne
    exact hname

/-- From a fresh file system, any calls by absolute paths without trailing slash answer as
the tree of byte files does, and the directory indices are sound in the state they reach. -/
theorem run_refines (storage : CourseFsStorage) (actions : List CourseFsAction)
    (hpaths : ∀ action ∈ actions, action.PathOk) :
    (init storage).results actions = empty.results actions ∧
      ((init storage).run actions).IndexSound := by
  obtain ⟨hanswers, _, hreached⟩ := (init_represents storage).run hpaths
  exact ⟨hanswers, hreached.indexSound⟩

/-- A directory `/d` with a file `/d/f` written behind a hole, read and removed again. -/
def holeAndRemoval : List CourseFsAction :=
  [.mkdir [47, 100], .create [47, 100, 47, 102] false, .write [47, 100, 47, 102] 3 [7],
    .read [47, 100, 47, 102] 0 4, .rmdir [47, 100], .unlink [47, 100, 47, 102], .rmdir [47, 100]]

instance decidablePathOk : (action : CourseFsAction) → Decidable action.PathOk
  | .mkfs _ => inferInstanceAs (Decidable True)
  | .create path _ => inferInstanceAs (Decidable (VisualCpu.PathOk path))
  | .mkdir path => inferInstanceAs (Decidable (VisualCpu.PathOk path))
  | .rmdir path => inferInstanceAs (Decidable (VisualCpu.PathOk path))
  | .unlink path => inferInstanceAs (Decidable (VisualCpu.PathOk path))
  | .write path _ _ => inferInstanceAs (Decidable (VisualCpu.PathOk path))
  | .read path _ _ => inferInstanceAs (Decidable (VisualCpu.PathOk path))
  | .size path => inferInstanceAs (Decidable (VisualCpu.PathOk path))
  | .lookup path => inferInstanceAs (Decidable (VisualCpu.PathOk path))

theorem holeAndRemoval_refines : (∀ action ∈ holeAndRemoval, action.PathOk) ∧
      (init fun _ _ => 9).results holeAndRemoval = empty.results holeAndRemoval ∧
        ((init fun _ _ => 9).run holeAndRemoval).IndexSound :=
  ⟨by decide, run_refines (fun _ _ => 9) holeAndRemoval (by decide)⟩

end CourseFs
end VisualCpu
