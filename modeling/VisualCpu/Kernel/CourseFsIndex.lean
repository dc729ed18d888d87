import Mathlib.Data.List.GetD
import Mathlib.Data.List.Lex
import VisualCpu.Kernel.CourseFs

/-!
# The directory index

A directory keeps its entries in strictly increasing order of their names, and its leaves
are consecutive runs of at most four entries. Under this order the bisection over leaves
and then entries finds exactly what a linear scan finds.
-/

namespace VisualCpu

open List Bisection

variable {a b : List CourseChar}

theorem cmpCstrLen_eq : cmpCstrLen a b = .eq ↔ a = b := by
  induction a, b using cmpCstrLen.induct with
  | case1 => simp [cmpCstrLen]
  | case2 c cs => simp [cmpCstrLen]
  | case3 c cs => simp [cmpCstrLen]
  | case4 a as b bs hlt => simp [cmpCstrLen, hlt, hlt.ne]
  | case5 a as b bs hge hgt => simp [cmpCstrLen, hge, hgt, hgt.ne']
  | case6 a as b bs hge hle ih =>
    have heq : a = b := le_antisymm (not_lt.1 hle) (not_lt.1 hge)
    simp [cmpCstrLen, heq, ih]

theorem cmpCstrLen_lt : cmpCstrLen a b = .lt ↔ a < b := by
  induction a, b using cmpCstrLen.induct with
  | case1 => simp [cmpCstrLen]
  | case2 c cs => simp [cmpCstrLen]
  | case3 c cs => simp [cmpCstrLen]
  | case4 a as b bs hlt => simp [cmpCstrLen, hlt, cons_lt_cons_iff]
  | case5 a as b bs hge hgt => simp [cmpCstrLen, hge, hgt, cons_lt_cons_iff, hgt.ne']
  | case6 a as b bs hge hle ih =>
    have heq : a = b := le_antisymm (not_lt.1 hle) (not_lt.1 hge)
    simp [cmpCstrLen, heq, ih]

theorem cmpCstrLen_gt : cmpCstrLen a b = .gt ↔ b < a := by
  have hlt := @cmpCstrLen_lt a b
  have heq := @cmpCstrLen_eq a b
  rcases lt_trichotomy a b with h | h | h
  · simp [hlt.2 h, h.le]
  · subst h
    simp [heq.2 rfl]
  have hne : cmpCstrLen a b ≠ .lt := fun hless => absurd (hlt.1 hless) h.not_gt
  have hne' : cmpCstrLen a b ≠ .eq := fun hsame => absurd (heq.1 hsame) h.ne'
  cases hcmp : cmpCstrLen a b with
  | lt => exact absurd hcmp hne
  | eq => exact absurd hcmp hne'
  | gt => simp [h]

namespace CourseFs

theorem leafSegments_getElem? (room entry count j : ℕ) : (leafSegments room entry count)[j]? =
      if entry + 4 * j < count ∧ j < room then
        some (entry + 4 * j, min (count - (entry + 4 * j)) 4) else none := by
  induction room generalizing entry j with
  | zero => simp [leafSegments]
  | succ room ih =>
    rw [leafSegments]
    by_cases hentry : entry < count
    · rw [if_pos hentry]
      cases j with
      | zero => simp [hentry, courseFsBtreeLeafCapacity]
      | succ j =>
        rw [List.getElem?_cons_succ, ih, courseFsBtreeLeafCapacity]
        by_cases hfull : 4 ≤ count - entry
        · have hnext : entry + min (count - entry) 4 + 4 * j = entry + 4 * (j + 1) := by omega
          rw [hnext]
          simp only [Nat.add_lt_add_iff_right]
        · rw [if_neg (by omega), if_neg (by omega)]
    · rw [if_neg hentry, if_neg (by omega), List.getElem?_nil]

theorem leafSegments_cover {α : Type} (entries : List α) (room entry : ℕ)
    (hroom : entries.length ≤ entry + 4 * room) :
    (leafSegments room entry entries.length).flatMap
      (fun leaf => (entries.drop leaf.1).take leaf.2) = entries.drop entry := by
  induction room generalizing entry with
  | zero =>
    rw [leafSegments, flatMap_nil, drop_eq_nil_of_le (by omega)]
  | succ room ih =>
    rw [leafSegments]
    by_cases hentry : entry < entries.length
    · rw [if_pos hentry, flatMap_cons, courseFsBtreeLeafCapacity, ih _ (by omega),
        ← drop_drop, take_append_drop]
    · rw [if_neg hentry, flatMap_nil, drop_eq_nil_of_le (by omega)]

theorem leafSegments_counts {room entry count : ℕ} :
    ∀ leaf ∈ leafSegments room entry count, 1 ≤ leaf.2 ∧ leaf.2 ≤ courseFsBtreeLeafCapacity := by
  intro leaf hleaf
  obtain ⟨j, hj⟩ := List.getElem?_of_mem hleaf
  rw [leafSegments_getElem?] at hj
  split at hj
  · cases hj
    simp only [courseFsBtreeLeafCapacity]
    omega
  · cases hj

/-- The entries of a directory are sorted and its leaves are cut from them. -/
structure SortedDir (fs : CourseFs) (node : CourseFsNode) : Prop where
  sorted : node.dirIndex.Pairwise fun a b => (fs.nodes a).name < (fs.nodes b).name
  leaves : node.leaves = leafSegments courseFsBtreeMaxLeaves 0 node.dirIndex.length
  small : node.dirIndex.length ≤ courseFsMaxNodes

section

variable {fs : CourseFs} {node : CourseFsNode} {name : List CourseChar}

def nameAt (fs : CourseFs) (node : CourseFsNode) (position : ℕ) : List CourseChar :=
  (fs.nodes (node.dirIndex.getD position 0)).name

section

variable (h : SortedDir fs node)

include h

namespace SortedDir

theorem nameAt_lt {i j : ℕ} (hij : i < j)
    (hj : j < node.dirIndex.length) : fs.nameAt node i < fs.nameAt node j := by
  have hsorted := pairwise_iff_getElem.1 h.sorted i j (by omega) hj hij
  rw [nameAt, nameAt, getD_eq_getElem _ _ (by omega), getD_eq_getElem _ _ hj]
  exact hsorted

theorem nameAt_le {i j : ℕ} (hij : i ≤ j)
    (hj : j < node.dirIndex.length) : fs.nameAt node i ≤ fs.nameAt node j := by
  rcases Nat.lt_or_eq_of_le hij with hlt | rfl
  · exact (h.nameAt_lt hlt hj).le
  · exact le_rfl

theorem leaf (leaf : ℕ) :
    node.leaves[leaf]? = if 4 * leaf < node.dirIndex.length then
      some (4 * leaf, min (node.dirIndex.length - 4 * leaf) 4) else none := by
  have hsmall := h.small
  rw [h.leaves, leafSegments_getElem?]
  simp only [Nat.zero_add, courseFsBtreeMaxLeaves, courseFsMaxNodes, courseFsBtreeLeafCapacity]
    at hsmall ⊢
  by_cases hleaf : 4 * leaf < node.dirIndex.length
  · rw [if_pos ⟨hleaf, by omega⟩, if_pos hleaf]
  · rw [if_neg (fun hboth => hleaf hboth.1), if_neg hleaf]

theorem leaf_lt {leaf : ℕ} : leaf < node.leaves.length ↔ 4 * leaf < node.dirIndex.length := by
  have hleaf := h.leaf leaf
  split at hleaf
  · exact ⟨fun _ => ‹_›, fun _ => (List.getElem?_eq_some_iff.1 hleaf).1⟩
  have hlen := List.getElem?_eq_none_iff.1 hleaf
  exact ⟨fun _ => by omega, fun _ => by omega⟩

theorem cmpLeaf_eq {leaf : ℕ} (hleaf : 4 * leaf < node.dirIndex.length) :
    fs.cmpLeaf node name leaf =
      cmpCstrLen (fs.nameAt node (4 * leaf + min (node.dirIndex.length - 4 * leaf) 4 - 1))
        name := by
  have hget := h.leaf leaf
  rw [if_pos hleaf] at hget
  rw [cmpLeaf, List.getD_eq_getElem?_getD, hget]
  rfl

theorem descending :
    Bisection.Descending (fun mid => fs.cmpLeaf node name mid == .lt) node.leaves.length := by
  intro i j hij hj hbelow
  have hj' := h.leaf_lt.1 hj
  simp only [beq_iff_eq] at hbelow ⊢
  rw [h.cmpLeaf_eq hj', cmpCstrLen_lt] at hbelow
  rw [h.cmpLeaf_eq (by omega), cmpCstrLen_lt]
  exact lt_of_le_of_lt (h.nameAt_le (by omega) (by omega)) hbelow

theorem ascending {high : ℕ} (hhigh : high ≤ node.dirIndex.length) :
    Bisection.Ascending (fs.cmpEntry node name) high where
  less i j hij hj hless := by
    rw [cmpEntry, cmpCstrLen_lt] at hless ⊢
    exact lt_of_le_of_lt (h.nameAt_le hij (by omega)) hless
  greater i j hij hj hgreater := by
    rw [cmpEntry, cmpCstrLen_gt] at hgreater ⊢
    exact lt_of_lt_of_le hgreater (h.nameAt_le hij (by omega))

end SortedDir

end

theorem findChild_eq {parent : CourseFsNodeIndex} (hused : (fs.nodes parent).used)
    (hdir : (fs.nodes parent).isDir) (hname : name ≠ [])
    (hentries : (fs.nodes parent).dirIndex ≠ []) :
    fs.findChild parent name =
      match (fs.nodes parent).leaves[bisect
        (fun mid => cmpLeaf fs (fs.nodes parent) name mid == .lt) 0
          (fs.nodes parent).leaves.length]? with
      | none => none
      | some (start, count) =>
        (bisectFind (cmpEntry fs (fs.nodes parent) name) start (start + count)).map
          fun position => (fs.nodes parent).dirIndex.getD position 0 := by
  have hguard : ¬(name = [] ∨ (fs.nodes parent).used = false ∨
      (fs.nodes parent).isDir = false) := by simp [hname, hused, hdir]
  exact (if_neg hguard).trans (if_neg hentries)

variable {parent c : CourseFsNodeIndex} {entries : List CourseFsNodeIndex}

theorem findChild_mem (h : SortedDir fs (fs.nodes parent))
    (hfind : fs.findChild parent name = some c) :
    c ∈ (fs.nodes parent).dirIndex ∧ (fs.nodes c).name = name := by
  by_cases hused : (fs.nodes parent).used
  · by_cases hdir : (fs.nodes parent).isDir
    · by_cases hname : name = []
      · simp [findChild, hname] at hfind
      by_cases hentries : (fs.nodes parent).dirIndex = []
      · simp [findChild, hentries] at hfind
      rw [findChild_eq hused hdir hname hentries, h.leaf] at hfind
      split at hfind
      · cases hfind
      rename_i start count hleaf
      split at hleaf
      · cases hleaf
        obtain ⟨position, hposition, rfl⟩ := Option.map_eq_some_iff.1 hfind
        obtain ⟨-, hhigh, hequal⟩ := bisectFind_some hposition
        have hlt : position < (fs.nodes parent).dirIndex.length := by omega
        rw [cmpEntry, cmpCstrLen_eq] at hequal
        refine ⟨?_, hequal⟩
        rw [getD_eq_getElem _ _ hlt]
        exact getElem_mem hlt
      · cases hleaf
    · simp [findChild, hdir] at hfind
  · simp [findChild, hused] at hfind

theorem findChild_ne_none (h : SortedDir fs (fs.nodes parent))
    (hused : (fs.nodes parent).used) (hdir : (fs.nodes parent).isDir)
    (hname : name ≠ []) (hmem : c ∈ (fs.nodes parent).dirIndex)
    (hc : (fs.nodes c).name = name) : fs.findChild parent name ≠ none := by
  intro hnone
  obtain ⟨position, hlt, hposition⟩ := getElem_of_mem hmem
  have hentries : (fs.nodes parent).dirIndex ≠ [] := ne_nil_of_mem hmem
  have hnameAt : fs.nameAt (fs.nodes parent) position = name := by
    rw [nameAt, getD_eq_getElem _ _ hlt, hposition, hc]
  rw [findChild_eq hused hdir hname hentries] at hnone
  have hdescending : Bisection.Descending
      (fun mid => fs.cmpLeaf (fs.nodes parent) name mid == .lt) (fs.nodes parent).leaves.length :=
    h.descending
  have hspec := @bisect_spec _ 0 _ hdescending
  generalize bisect (fun mid => cmpLeaf fs (fs.nodes parent) name mid == .lt) 0
    (fs.nodes parent).leaves.length = leaf at hspec hnone
  -- the leaf that holds the position ends at or after the name
  have hholds : 4 * (position / 4) < (fs.nodes parent).dirIndex.length := by omega
  have hafter : leaf ≤ position / 4 := by
    by_contra hbelow
    have htest := (hspec (position / 4) (Nat.zero_le _) (h.leaf_lt.2 hholds)).2 (by omega)
    simp only [beq_iff_eq] at htest
    rw [h.cmpLeaf_eq hholds, cmpCstrLen_lt, ← hnameAt] at htest
    exact absurd (h.nameAt_le (by omega) (by omega)) (not_le.2 htest)
  have hleaf : 4 * leaf < (fs.nodes parent).dirIndex.length := by omega
  -- and the leaf found ends there too
  have hend : position ≤ 4 * leaf + min ((fs.nodes parent).dirIndex.length - 4 * leaf) 4 - 1 := by
    by_contra hbefore
    have hless : fs.nameAt (fs.nodes parent)
        (4 * leaf + min ((fs.nodes parent).dirIndex.length - 4 * leaf) 4 - 1) < name := by
      rw [← hnameAt]
      exact h.nameAt_lt (by omega) hlt
    have htest : (cmpLeaf fs (fs.nodes parent) name leaf == .lt) = true := by
      rw [beq_iff_eq, h.cmpLeaf_eq hleaf, cmpCstrLen_lt]
      exact hless
    exact absurd ((hspec leaf (Nat.zero_le _) (h.leaf_lt.2 hleaf)).1 htest) (by omega)
  rw [h.leaf, if_pos hleaf] at hnone
  have hmissed := bisectFind_none (h.ascending (by omega))
    (Option.map_eq_none_iff.1 hnone)
    position (by omega) (by omega)
  exact hmissed (cmpCstrLen_eq.2 hnameAt)

theorem SortedDir.name_injective (h : SortedDir fs node) {a b : CourseFsNodeIndex}
    (ha : a ∈ node.dirIndex) (hb : b ∈ node.dirIndex)
    (hname : (fs.nodes a).name = (fs.nodes b).name) : a = b := by
  obtain ⟨i, hi, rfl⟩ := getElem_of_mem ha
  obtain ⟨j, hj, rfl⟩ := getElem_of_mem hb
  have hsorted := pairwise_iff_getElem.1 h.sorted
  rcases Nat.lt_trichotomy i j with hlt | heq | hgt
  · exact absurd hname (hsorted i j hi hj hlt).ne
  · simp only [heq]
  · exact absurd hname (hsorted j i hj hi hgt).ne'

theorem findChild_some_iff (h : SortedDir fs (fs.nodes parent))
    (hused : (fs.nodes parent).used) (hdir : (fs.nodes parent).isDir) (hname : name ≠ []) :
    fs.findChild parent name = some c ↔
      c ∈ (fs.nodes parent).dirIndex ∧ (fs.nodes c).name = name := by
  constructor
  · exact findChild_mem h
  rintro ⟨hmem, hc⟩
  cases hfind : fs.findChild parent name with
  | none => exact absurd hfind (findChild_ne_none h hused hdir hname hmem hc)
  | some c' =>
    obtain ⟨hmem', hc'⟩ := findChild_mem h hfind
    rw [h.name_injective hmem' hmem (hc'.trans hc.symm)]

/-- The bisection agrees with a linear scan of the entries. -/
theorem findChild_eq_find? {parent : CourseFsNodeIndex} (h : SortedDir fs (fs.nodes parent))
    (hused : (fs.nodes parent).used) (hdir : (fs.nodes parent).isDir)
    (hnames : ∀ c ∈ (fs.nodes parent).dirIndex, (fs.nodes c).name ≠ []) :
    fs.findChild parent name =
      (fs.nodes parent).dirIndex.find? fun c => (fs.nodes c).name == name := by
  by_cases hname : name = []
  · have hscan : (fs.nodes parent).dirIndex.find? (fun c => (fs.nodes c).name == name) = none := by
      rw [List.find?_eq_none]
      intro c hc
      simp [hname, hnames c hc]
    rw [hscan, findChild]
    simp [hname]
  · cases hscan : (fs.nodes parent).dirIndex.find? (fun c => (fs.nodes c).name == name) with
    | some c =>
      have hc := List.find?_some hscan
      rw [findChild_some_iff h hused hdir hname]
      exact ⟨List.mem_of_find?_eq_some hscan, by simpa using hc⟩
    | none =>
      cases hfind : fs.findChild parent name with
      | none => rfl
      | some c =>
        obtain ⟨hmem, hc⟩ := findChild_mem h hfind
        have hmiss := List.find?_eq_none.1 hscan c hmem
        simp [hc] at hmiss

theorem mem_insertEntry {child c : CourseFsNodeIndex} :
    c ∈ fs.insertEntry child entries ↔ c = child ∨ c ∈ entries := by
  induction entries with
  | nil => simp [insertEntry]
  | cons entry rest ih =>
    rw [insertEntry]
    split
    · simp only [mem_cons, ih]
      tauto
    · simp only [mem_cons]

theorem insertEntry_sorted {child : CourseFsNodeIndex}
    (h : entries.Pairwise fun a b => (fs.nodes a).name < (fs.nodes b).name)
    (hnew : ∀ c ∈ entries, (fs.nodes c).name ≠ (fs.nodes child).name) :
    (fs.insertEntry child entries).Pairwise fun a b => (fs.nodes a).name < (fs.nodes b).name := by
  induction entries with
  | nil => simp [insertEntry]
  | cons entry rest ih =>
    obtain ⟨hfirst, hrest⟩ := pairwise_cons.1 h
    rw [insertEntry]
    split
    · rename_i hless
      rw [cmpCstr, cmpCstrLen_lt] at hless
      refine pairwise_cons.2 ⟨fun c hc => ?_, ih hrest fun c hc =>
        hnew c (mem_cons_of_mem _ hc)⟩
      rcases mem_insertEntry.1 hc with rfl | hold
      · exact hless
      · exact hfirst c hold
    · rename_i hless
      rw [cmpCstr, cmpCstrLen_lt, not_lt] at hless
      have hbefore : (fs.nodes child).name < (fs.nodes entry).name :=
        lt_of_le_of_ne hless (hnew entry mem_cons_self).symm
      refine pairwise_cons.2 ⟨fun c hc => ?_, h⟩
      rcases mem_cons.1 hc with rfl | hold
      · exact hbefore
      · exact hbefore.trans (hfirst c hold)

end

end CourseFs
end VisualCpu
