import VisualCpu.Kernel.CourseFsRuns
import VisualCpu.Kernel.FdStreams

/-!
# Descriptors refine streams

Under every table stands a table of streams on the tree the file system represents. As long
as no absolute request is cut off by the path buffer, each call answers as the streams do.
-/

namespace VisualCpu

open List FileTree StreamTable CourseFdAnswer Function

namespace CourseFs

variable {fs : CourseFs} {pathOf : CourseFsNodeIndex → TreePath} {tree : FileTree}

theorem nextComponent_rest_ne_nil {cursor name rest : List CourseChar}
    (h : nextComponent cursor = some (name, rest)) (hlast : cursor.getLast? = some courseSlash) :
    rest ≠ [] := by
  rintro rfl
  rw [nextComponent] at h
  cases hdrop : cursor.dropWhile (· == courseSlash) with
  | nil =>
    rw [hdrop] at h
    cases h
  | cons c tail =>
    rw [hdrop] at h
    have hdone : (c :: tail).dropWhile (· != courseSlash) = [] := by
      simp only [Option.some.injEq, Prod.mk.injEq] at h
      exact h.2
    have hsuffix := getLast?_of_suffix (by rw [hdrop]; exact cons_ne_nil _ _)
      (dropWhile_suffix (l := cursor) (· == courseSlash))
    rw [hdrop, hlast] at hsuffix
    have hmem := List.mem_of_getLast? hsuffix
    have hnot := dropWhile_eq_nil_iff.1 hdone courseSlash hmem
    simp at hnot

theorem Represents.resolveFrom_slash (h : Represents fs pathOf tree) {d : CourseFsNodeIndex}
    {cursor : List CourseChar} (hused : (fs.nodes d).used)
    (hdir : (fs.nodes d).isDir) (hlast : cursor.getLast? = some courseSlash) :
    (∀ i, (fs.resolveFrom d cursor).node = some i ↔ (fs.nodes i).used ∧
      (fs.nodes i).isDir ∧ pathOf i = pathOf d ++ components cursor) ∧
      (fs.resolveFrom d cursor).parent = none := by
  induction d, cursor using CourseFs.resolveFrom.induct fs with
  | case1 d cursor hnext =>
    obtain ⟨hnil, -⟩ := nextComponent_none hnext
    rw [CourseFs.resolveFrom]
    split
    · refine ⟨fun i => ?_, rfl⟩
      rw [hnil, append_nil]
      constructor
      · rintro ⟨⟩
        exact ⟨hused, hdir, rfl⟩
      rintro ⟨hi, -, hsame⟩
      rw [h.injective i d hi hused hsame]
    · rename_i hsome
      rw [hnext] at hsome
      cases hsome
  | case2 d cursor name hnext => exact absurd rfl (nextComponent_rest_ne_nil hnext hlast)
  | case3 d cursor name rest hnext hrest hfind =>
    obtain ⟨hname, hcomponents, -⟩ := nextComponent_some hnext
    rw [resolveFrom_eq hnext, if_neg hrest, hfind, hcomponents]
    refine ⟨fun i => ⟨fun hnone => (by cases hnone), fun hi => ?_⟩, rfl⟩
    obtain ⟨hi, -, hsame⟩ := hi
    obtain ⟨c, hc⟩ := h.passes hused hi hsame
    rw [(h.findChild_iff hused hdir hname).2 hc] at hfind
    cases hfind
  | case4 d cursor name rest hnext hrest child hfind hchildDir ih =>
    obtain ⟨hname, hcomponents, hend⟩ := nextComponent_some hnext
    obtain ⟨hchild, hpath⟩ := (h.findChild_iff hused hdir hname).1 hfind
    obtain ⟨hnode, hparent⟩ := ih hchild hchildDir (by rw [hend hrest]; exact hlast)
    rw [resolveFrom_eq hnext, if_neg hrest, hfind, hcomponents]
    simp only [hchildDir, if_true]
    refine ⟨fun i => ?_, hparent⟩
    rw [hnode i, hpath, List.append_assoc, singleton_append]
  | case5 d cursor name rest hnext hrest child hfind hchildDir =>
    obtain ⟨hname, hcomponents, -⟩ := nextComponent_some hnext
    obtain ⟨hchild, hpath⟩ := (h.findChild_iff hused hdir hname).1 hfind
    rw [resolveFrom_eq hnext, if_neg hrest, hfind, hcomponents]
    simp only [hchildDir]
    refine ⟨fun i => ⟨fun hnone => (by cases hnone), fun hi => ?_⟩, rfl⟩
    obtain ⟨hi, hisDir, hsame⟩ := hi
    have hunder : pathOf i = pathOf child ++ components rest := by
      rw [hsame, hpath, List.append_assoc, singleton_append]
    by_cases hempty : components rest = []
    · rw [hempty, append_nil] at hunder
      rw [h.injective i child hi hchild hunder] at hisDir
      exact absurd hisDir hchildDir
    · exact absurd (h.isDir_of_below hchild hi hunder hempty) hchildDir

variable {path : List CourseChar}

section

variable (h : Represents fs pathOf tree)

include h

section

variable (hhead : path.head? = some courseSlash)

include hhead

theorem Represents.resolvePath_slash (hbad : ¬PathOk path) :
    (∀ i, (fs.resolvePath path).node = some i ↔ (fs.nodes i).used ∧
      (fs.nodes i).isDir ∧ pathOf i = components path) ∧
      (fs.resolvePath path).parent = none := by
  have hroot : path ≠ [courseSlash] := fun hsame => hbad ⟨hhead, .inl hsame⟩
  have hlast : path.getLast? = some courseSlash := by
    by_contra hother
    exact hbad ⟨hhead, .inr hother⟩
  rw [CourseFs.resolvePath, if_neg (not_not.2 hhead), if_neg hroot]
  have hfound := h.resolveFrom_slash h.rootUsed h.rootDir hlast
  rw [h.rootPath] at hfound
  exact hfound

theorem Represents.lookup_names : fs.lookup path = tree.names path := by
  by_cases hpath : PathOk path
  · rw [h.lookup hpath, FileTree.lookup, FileTree.names]
    cases tree.entry (components path) with
    | none => rfl
    | some entry => cases entry <;> simp [hpath]
  obtain ⟨hnode, -⟩ := h.resolvePath_slash hhead hpath
  rw [CourseFs.lookup, names]
  cases hentry : tree.entry (components path) with
  | none =>
    cases hfound : (fs.resolvePath path).node with
    | none => rfl
    | some i =>
      obtain ⟨hi, -, hsame⟩ := (hnode i).1 hfound
      obtain ⟨entry, hentry', -⟩ := h.holds i hi
      rw [hsame, hentry] at hentry'
      cases hentry'
  | some entry =>
    obtain ⟨i, hi, hsame⟩ := h.covers _ _ hentry
    obtain ⟨entry', hentry', hholds⟩ := h.holds i hi
    rw [hsame, hentry] at hentry'
    cases hentry'
    cases entry with
    | dir =>
      rw [(hnode i).2 ⟨hi, hholds, hsame⟩]
      rfl
    | file writes =>
      simp only [hpath, decide_false]
      cases hfound : (fs.resolvePath path).node with
      | none => rfl
      | some j =>
        obtain ⟨hj, hjdir, hjsame⟩ := (hnode j).1 hfound
        rw [h.injective j i hj hi (hjsame.trans hsame.symm), hholds.1] at hjdir
        cases hjdir

theorem Represents.dir_refuses (hentry : tree.entry (components path) = some .dir) :
    fs.fileSize path = none ∧ ∀ offset data, fs.write path offset data = (fs, false) := by
  have hdir : ∀ i, (fs.resolvePath path).node = some i → (fs.nodes i).isDir := by
    intro i hfound
    by_cases hpath : PathOk path
    · obtain ⟨-, -, entry, hentry', hholds⟩ := h.entry_of_node hpath hfound
      rw [hentry] at hentry'
      cases hentry'
      exact hholds
    · exact (((h.resolvePath_slash hhead hpath).1 i).1 hfound).2.1
  rw [CourseFs.fileSize]
  constructor
  · split
    · rfl
    rename_i i hfound
    rw [if_pos (hdir i hfound)]
  intro offset data
  rw [CourseFs.write]
  split
  · rfl
  rename_i i hfound
  simp [hdir i hfound]

theorem Represents.create_slash (hbad : ¬PathOk path) (directory : Bool) :
    fs.create path directory = (fs, false) := by
  obtain ⟨-, hparent⟩ := h.resolvePath_slash hhead hbad
  simp only [CourseFs.create, hparent]
  cases (fs.resolvePath path).node <;> rfl

end

end

end CourseFs

variable {cwd path : List CourseChar}

theorem fullPath_head (hcwd : cwd.head? = some courseSlash) :
    (fullPath cwd path).head? = some courseSlash := by
  obtain ⟨rest, rfl⟩ : ∃ rest, cwd = courseSlash :: rest := by
    cases cwd with
    | nil => cases hcwd
    | cons c rest => exact ⟨rest, by rw [Option.some.inj hcwd]⟩
  rw [fullPath]
  split
  · assumption
  · split <;> rfl

theorem fdCopyStr_of_fits {value : List CourseChar} (h : value.length < courseFdMaxPath) :
    fdCopyStr courseFdMaxPath value = value := by
  rw [fdCopyStr, take_of_length_le (by omega)]

theorem put_behind (out path : List CourseChar) (outSize : ℕ) :
    (if out.length + path.length < outSize then some (out ++ path) else none) =
      if outSize ≤ (out ++ path).length then none else some (out ++ path) := by
  rw [length_append]
  by_cases hroom : out.length + path.length < outSize
  · rw [if_pos hroom, if_neg (by omega)]
  · rw [if_neg hroom, if_pos (by omega)]

theorem courseFdResolvePath_eq (hcwd : cwd.head? = some courseSlash)
    (hfits : cwd.length < courseFdMaxPath)
    (hshort : ¬(path.head? = some courseSlash ∧ courseFdMaxPath ≤ path.length)) :
    courseFdResolvePath cwd path courseFdMaxPath =
      if courseFdMaxPath ≤ (fullPath cwd path).length then none else some (fullPath cwd path) := by
  rw [courseFdResolvePath, fullPath]
  by_cases habsolute : path.head? = some courseSlash
  · have hlength : path.length < courseFdMaxPath := by
      by_contra hlong
      exact hshort ⟨habsolute, by omega⟩
    rw [if_pos habsolute, if_pos habsolute, if_neg (by omega), fdCopyStr_of_fits hlength]
  have hne : cwd ≠ [] := by
    rintro rfl
    cases hcwd
  have hpos := length_pos_iff.2 hne
  rw [if_neg habsolute, if_neg habsolute, fdCopyStr_of_fits hfits]
  simp only [hne, hcwd, ne_eq, not_true_eq_false, or_self, if_false]
  rw [put_behind]
  by_cases hjoin : 1 < cwd.length ∧ cwd.length + 1 < courseFdMaxPath
  · have hslash : ¬(cwd.length ≤ 1 ∨ path = [] ∧ courseFdMaxPath ≤ cwd.length + 1) := by omega
    rw [if_pos hjoin, if_neg hslash, List.append_assoc, singleton_append]
  rw [if_neg hjoin]
  by_cases hplain : cwd.length ≤ 1 ∨ path = [] ∧ courseFdMaxPath ≤ cwd.length + 1
  · rw [if_pos hplain]
  have hsome : 0 < path.length := by
    by_contra hzero
    exact hplain (by rw [← length_eq_zero_iff]; omega)
  rw [if_neg hplain, length_append, length_append, length_cons,
    if_pos (by omega), if_pos (by omega)]

def StreamOf (tree : FileTree) (entry : CourseFdEntry) : Option Stream → Prop
  | none => entry.kind = .unused
  | some stream => stream.flags = entry.flags ∧ stream.offset = entry.offset ∧
    match stream.target with
    | .stdio => entry.kind = .stdio
    | .proc name => entry.kind = .proc ∧ name = entry.path
    | .file path => entry.kind = .file ∧ path = components entry.path ∧
      entry.path.head? = some courseSlash ∧ tree.names entry.path

/-- A descriptor table over a file system stands for streams over its tree. -/
structure CourseFdTable.Matches (table : CourseFdTable)
    (pathOf : CourseFsNodeIndex → TreePath) (streams : StreamTable) : Prop where
  fs : table.fs.Represents pathOf streams.tree
  cwd : table.cwd = streams.cwd
  cwdHead : streams.cwd.head? = some courseSlash
  cwdFits : streams.cwd.length < courseFdMaxPath
  entries : ∀ slot, StreamOf streams.tree (table.entries slot) (streams.streams slot)

theorem FileTree.names_create {tree : FileTree} {path : TreePath} {full : List CourseChar}
    (h : tree.names full) : (tree.create path false).1.names full := by
  rw [create]
  split
  · rename_i hcan
    have hne : components full ≠ path := by
      intro hsame
      rw [names, hsame, hcan.2.1] at h
      cases h
    rw [names, add]
    simp only [update_of_ne hne]
    exact h
  · exact h

theorem FileTree.names_write {tree : FileTree} {path : TreePath} {full : List CourseChar}
    (offset : ℕ) (data : List CourseChar) (h : tree.names full) :
    (tree.write path offset data).1.names full := by
  rw [write]
  split
  · rename_i writes hentry
    split
    · by_cases hsame : components full = path
      · rw [names, hsame, hentry] at h
        rw [names, hsame]
        simpa using h
      · rw [names]
        simp only [update_of_ne hsame]
        exact h
    · exact h
  · exact h

theorem StreamOf.tree {tree tree' : FileTree} {entry : CourseFdEntry} {stream : Option Stream}
    (h : StreamOf tree entry stream) (hnames : ∀ full, tree.names full → tree'.names full) :
    StreamOf tree' entry stream := by
  cases stream with
  | none => exact h
  | some stream =>
    obtain ⟨hflags, hoffset, htarget⟩ := h
    refine ⟨hflags, hoffset, ?_⟩
    split at htarget
    · exact htarget
    · exact htarget
    obtain ⟨hkind, hpath, hhead, hnamed⟩ := htarget
    exact ⟨hkind, hpath, hhead, hnames _ hnamed⟩

namespace CourseFdTable

variable {table : CourseFdTable} {pathOf : CourseFsNodeIndex → TreePath} {streams : StreamTable}

section

variable (h : table.Matches pathOf streams) {slot : FdSlot}

include h

theorem Matches.set {fs' : CourseFs} {tree' : FileTree}
    {pathOf' : CourseFsNodeIndex → TreePath} (hfs : fs'.Represents pathOf' tree')
    (hnames : ∀ full, streams.tree.names full → tree'.names full)
    {entry : CourseFdEntry} {stream : Option Stream} (hentry : StreamOf tree' entry stream) :
    Matches { table with fs := fs', entries := update table.entries slot entry } pathOf'
      { streams with tree := tree', streams := update streams.streams slot stream } where
  fs := hfs
  cwd := h.cwd
  cwdHead := h.cwdHead
  cwdFits := h.cwdFits
  entries slot' := by
    by_cases hsame : slot' = slot
    · rw [hsame]
      simpa using hentry
    simp only [update_of_ne hsame]
    exact (h.entries slot').tree hnames

theorem Matches.setSame {stream : Stream} (hstream : streams.streams slot = some stream) :
    table.Matches pathOf (streams.setStream slot stream) := by
  have hsame : streams.setStream slot stream = streams := by
    rw [setStream, ← hstream, update_eq_self]
  rw [hsame]
  exact h

theorem Matches.unused (slot : FdSlot) :
    (table.entries slot).kind = .unused ↔ streams.streams slot = none := by
  have hentry := h.entries slot
  cases hstream : streams.streams slot with
  | none =>
    rw [hstream] at hentry
    exact ⟨fun _ => rfl, fun _ => hentry⟩
  | some stream =>
    rw [hstream] at hentry
    obtain ⟨-, -, htarget⟩ := hentry
    refine ⟨fun hkind => ?_, fun hnone => by cases hnone⟩
    split at htarget
    · rw [hkind] at htarget
      cases htarget
    · rw [hkind] at htarget
      cases htarget.1
    · rw [hkind] at htarget
      cases htarget.1

theorem Matches.free : table.findFreeFd = streams.freeSlot := by
  rw [findFreeFd, freeSlot]
  congr 1
  funext slot
  have hunused := h.unused slot
  cases hstream : streams.streams slot with
  | none =>
    rw [hunused.2 hstream]
    rfl
  | some stream =>
    have hkind : (table.entries slot).kind ≠ .unused := by
      intro hkind
      rw [hunused.1 hkind] at hstream
      cases hstream
    rw [beq_eq_false_iff_ne.2 hkind]
    rfl

theorem Matches.fdEntry (fd : ℤ) : (table.fdEntry fd = none ∧ streams.streamAt fd = none) ∨
      ∃ slot stream, table.fdEntry fd = some slot ∧ streams.streamAt fd = some (slot, stream) ∧
        streams.streams slot = some stream := by
  by_cases hrange : 0 ≤ fd ∧ fd < 16
  · have hunused := h.unused ⟨fd.toNat, by omega⟩
    rw [CourseFdTable.fdEntry, streamAt, dif_pos hrange, dif_pos hrange]
    cases hstream : streams.streams ⟨fd.toNat, by omega⟩ with
    | none => exact .inl ⟨if_pos (hunused.2 hstream), rfl⟩
    | some stream =>
      refine .inr ⟨⟨fd.toNat, by omega⟩, stream, if_neg fun hkind => ?_, rfl, hstream⟩
      rw [hunused.1 hkind] at hstream
      cases hstream
  · rw [CourseFdTable.fdEntry, streamAt, dif_neg hrange, dif_neg hrange]
    exact .inl ⟨rfl, rfl⟩

end

/-- An absolute request that the buffer cuts off to something the call then uses. -/
def Misnames (table : CourseFdTable) : CourseFdAction → Prop
  | .openFd path _ => path.head? = some courseSlash ∧ courseFdMaxPath ≤ path.length
  | .setCwd path => path.head? = some courseSlash ∧ courseFdMaxPath ≤ path.length ∧
      table.fs.lookup (fdCopyStr courseFdMaxPath path)
  | _ => False

variable {path : List CourseChar}

section

variable (h : table.Matches pathOf streams)

include h

section

variable (hshort : ¬(path.head? = some courseSlash ∧ courseFdMaxPath ≤ path.length))

include hshort

theorem Matches.resolvePath : courseFdResolvePath table.cwd path courseFdMaxPath =
      if courseFdMaxPath ≤ (fullPath streams.cwd path).length then none
      else some (fullPath streams.cwd path) := by
  rw [h.cwd]
  exact courseFdResolvePath_eq h.cwdHead h.cwdFits hshort

theorem Matches.openFd (flags : BitVec 32) :
    (table.openFd path flags).2 = (streams.openFd path flags).2 ∧
      ∃ pathOf', Matches (table.openFd path flags).1 pathOf' (streams.openFd path flags).1 := by
  have hhead := @fullPath_head streams.cwd path h.cwdHead
  rw [CourseFdTable.openFd, StreamTable.openFd, h.resolvePath hshort]
  generalize fullPath streams.cwd path = full at hhead
  by_cases hlong : courseFdMaxPath ≤ full.length
  · rw [if_pos hlong, if_pos hlong]
    exact ⟨rfl, pathOf, h⟩
  have hcopy : fdCopyStr courseFdMaxPath full = full := fdCopyStr_of_fits (by omega)
  rw [if_neg hlong, if_neg hlong, h.free]
  simp only
  rw [hcopy]
  cases hfree : streams.freeSlot with
  | none => exact ⟨rfl, pathOf, h⟩
  | some slot =>
    simp only
    by_cases hproc : isProcPath full
    · rw [if_pos hproc, if_pos hproc]
      by_cases hwrite : flags &&& courseFdOpenWrite ≠ 0
      · rw [if_pos hwrite, if_pos hwrite]
        exact ⟨rfl, pathOf, h⟩
      rw [if_neg hwrite, if_neg hwrite]
      exact ⟨rfl, pathOf, h.set h.fs (fun _ hnamed => hnamed) ⟨rfl, rfl, rfl, rfl⟩⟩
    · rw [if_neg hproc, if_neg hproc, h.fs.lookup_names hhead]
      by_cases hnamed : streams.tree.names full
      · rw [if_pos hnamed, if_pos hnamed]
        exact ⟨rfl, pathOf, h.set h.fs (fun _ hstill => hstill)
          ⟨rfl, rfl, rfl, rfl, hhead, hnamed⟩⟩
      rw [if_neg hnamed, if_neg hnamed]
      by_cases hcreate : flags &&& courseFdOpenCreate = 0
      · rw [if_pos hcreate, if_pos (.inl hcreate)]
        exact ⟨rfl, pathOf, h⟩
      rw [if_neg hcreate]
      by_cases hpath : PathOk full
      · have hmade : ¬ (flags &&& courseFdOpenCreate = 0 ∨ ¬ PathOk full) := by
          simp only [hcreate, hpath, not_true_eq_false, or_self, not_false_eq_true]
        rw [if_neg hmade]
        obtain ⟨hanswer, pathOf', hafter⟩ := h.fs.create hpath false
        cases hfs : table.fs.create full false with
        | mk fs' ok =>
          cases htree : streams.tree.create (components full) false with
          | mk tree' ok' =>
            rw [hfs, htree] at hanswer hafter
            subst hanswer
            cases ok with
            | false =>
              have hsame : tree' = streams.tree := by
                have hresult := congrArg Prod.fst htree
                have hfailed := congrArg Prod.snd htree
                rw [create] at hresult hfailed
                split at hfailed
                · cases hfailed
                rename_i hcannot
                rw [if_neg hcannot] at hresult
                exact hresult.symm
              rw [hsame] at hafter
              exact ⟨rfl, pathOf', hafter, h.cwd, h.cwdHead, h.cwdFits, h.entries⟩
            | true =>
              have hgrown : ∀ full', streams.tree.names full' → tree'.names full' := by
                intro full' hold
                have hstill := @names_create _ (components full) _ hold
                rw [htree] at hstill
                exact hstill
              have hnew : tree'.names full := by
                have hresult := congrArg Prod.fst htree
                have hdone := congrArg Prod.snd htree
                rw [create] at hresult hdone
                split at hdone
                · rename_i hcan
                  rw [if_pos hcan] at hresult
                  simp only at hresult
                  rw [← hresult, names, add]
                  simp [hpath]
                · cases hdone
              have hstream : StreamOf tree'
                { kind := .file, flags := flags, offset := 0, path := full }
                  (some { target := .file (components full), flags := flags, offset := 0 }) :=
                ⟨rfl, rfl, rfl, rfl, hhead, hnew⟩
              exact ⟨rfl, pathOf', h.set hafter hgrown hstream⟩
      · rw [if_pos (.inr hpath), h.fs.create_slash hhead hpath]
        exact ⟨rfl, pathOf, h⟩

end

theorem Matches.close (fd : ℤ) : (table.close fd).2 = (streams.close fd).2 ∧
      Matches (table.close fd).1 pathOf (streams.close fd).1 := by
  rw [CourseFdTable.close, StreamTable.close]
  rcases h.fdEntry fd with ⟨hnone, hnone'⟩ | ⟨slot, stream, hsome, hsome', -⟩
  · rw [hnone, hnone']
    exact ⟨rfl, h⟩
  rw [hsome, hsome']
  simp only
  by_cases hstd : fd < 3
  · rw [if_pos hstd, if_pos hstd]
    exact ⟨rfl, h⟩
  rw [if_neg hstd, if_neg hstd]
  exact ⟨rfl, h.set h.fs (fun _ hnamed => hnamed) rfl⟩

theorem Matches.seek (fd : ℤ) (offset : ℕ) : (table.seek fd offset).2 = (streams.seek fd offset).2 ∧
      Matches (table.seek fd offset).1 pathOf (streams.seek fd offset).1 := by
  rw [CourseFdTable.seek, StreamTable.seek]
  rcases h.fdEntry fd with ⟨hnone, hnone'⟩ | ⟨slot, stream, hsome, hsome', hstream⟩
  · rw [hnone, hnone']
    exact ⟨rfl, h⟩
  have hentry := h.entries slot
  rw [hstream] at hentry
  obtain ⟨hflags, -, htarget⟩ := hentry
  rw [hsome, hsome']
  cases hkind : stream.target with
  | stdio =>
    rw [hkind] at htarget
    simp only [htarget, hkind, ne_eq, reduceCtorEq, not_false_eq_true, if_true]
    exact ⟨trivial, h⟩
  | proc name =>
    rw [hkind] at htarget
    simp only [htarget.1, hkind, ne_eq, reduceCtorEq, not_false_eq_true, if_true]
    exact ⟨trivial, h⟩
  | file path =>
    rw [hkind] at htarget
    simp only [htarget.1, hkind, ne_eq, not_true_eq_false, if_false]
    refine ⟨trivial, ?_⟩
    exact h.set h.fs (fun _ hnamed => hnamed) ⟨hflags, rfl, rfl, htarget.2⟩

theorem Matches.setCwd (hnames : ¬table.Misnames (.setCwd path)) :
    (table.setCwd path).2 = (streams.setCwd path).2 ∧
      Matches (table.setCwd path).1 pathOf (streams.setCwd path).1 := by
  rw [CourseFdTable.setCwd, StreamTable.setCwd]
  by_cases hcut : path.head? = some courseSlash ∧ courseFdMaxPath ≤ path.length
  · have hmiss : ¬table.fs.lookup (fdCopyStr courseFdMaxPath path) :=
      fun hfound => hnames ⟨hcut.1, hcut.2, hfound⟩
    rw [fullPath, courseFdResolvePath, if_pos hcut.1, if_pos hcut.1, if_pos hcut.2]
    simp only [hmiss]
    exact ⟨rfl, h⟩
  · have hhead := @fullPath_head streams.cwd path h.cwdHead
    rw [h.resolvePath hcut]
    generalize fullPath streams.cwd path = full at hhead
    by_cases hlong : courseFdMaxPath ≤ full.length
    · rw [if_pos hlong, if_pos hlong]
      exact ⟨rfl, h⟩
    have hcopy : fdCopyStr courseFdMaxPath full = full := fdCopyStr_of_fits (by omega)
    rw [if_neg hlong, if_neg hlong]
    simp only
    rw [h.fs.lookup_names hhead, hcopy]
    by_cases hnamed : streams.tree.names full
    · rw [if_pos hnamed, if_pos hnamed]
      exact ⟨rfl, h.fs, rfl, hhead, by simp only; omega, h.entries⟩
    rw [if_neg hnamed, if_neg hnamed]
    exact ⟨rfl, h⟩

end

theorem entry_of_names {tree : FileTree} (hnamed : tree.names path) :
    tree.entry (components path) = some .dir ∨
      ∃ writes, tree.entry (components path) = some (.file writes) ∧ PathOk path := by
  rw [names] at hnamed
  split at hnamed
  · exact .inl ‹_›
  · rename_i writes hentry
    exact .inr ⟨writes, hentry, of_decide_eq_true hnamed⟩
  · cases hnamed

section

variable (h : table.Matches pathOf streams)

include h

theorem Matches.readFd (fd : ℤ) (size : ℕ) (procfs : List CourseChar → Option (List CourseChar)) :
    (table.readFd fd size procfs).2 = (streams.readFd fd size procfs).2 ∧
      Matches (table.readFd fd size procfs).1 pathOf (streams.readFd fd size procfs).1 := by
  rw [CourseFdTable.readFd, StreamTable.readFd]
  rcases h.fdEntry fd with ⟨hnone, hnone'⟩ | ⟨slot, ⟨target, flags, offset⟩, hsome, hsome', hstream⟩
  · rw [hnone, hnone']
    exact ⟨rfl, h⟩
  have hentry := h.entries slot
  rw [hstream] at hentry
  obtain ⟨hflags, hoffset, htarget⟩ := hentry
  rw [hsome, hsome']
  simp only
  rw [← hflags, ← hoffset]
  by_cases hread : flags &&& courseFdOpenRead = 0
  · rw [if_pos hread, if_pos hread]
    exact ⟨rfl, h⟩
  rw [if_neg hread, if_neg hread]
  cases target with
  | stdio =>
    simp only at htarget
    simp only [htarget]
    exact ⟨trivial, h⟩
  | proc name =>
    obtain ⟨hproc, rfl⟩ := htarget
    simp only [hproc]
    cases procfs (table.entries slot).path with
    | none => exact ⟨rfl, h⟩
    | some text =>
      simp only
      by_cases hbeyond : text.length < offset
      · have hnone : text.length - offset = 0 := by omega
        rw [if_pos hbeyond, hnone, Nat.min_zero, drop_eq_nil_of_le (by omega)]
        exact ⟨by simp only [take_nil], h.setSame hstream⟩
      have hsize : (if text.length - offset < size then text.length - offset else size) =
          min size (text.length - offset) := by
        split <;> omega
      rw [if_neg hbeyond, hsize]
      refine ⟨?_, h.set h.fs (fun _ hnamed => hnamed) ⟨rfl, rfl, rfl, rfl⟩⟩
      congr 1
      rw [← length_drop, ← take_eq_take_min]
  | file path =>
    obtain ⟨hfile, rfl, hhead, hnamed⟩ := htarget
    simp only [hfile]
    rcases entry_of_names hnamed with hdir | ⟨writes, hentry, hpath⟩
    · rw [(h.fs.dir_refuses hhead hdir).1, hdir]
      exact ⟨rfl, h⟩
    rw [h.fs.fileSize hpath, fileSize, hentry]
    simp only
    by_cases hend : fileEnd writes ≤ offset
    · have hnone : fileEnd writes - offset = 0 := by omega
      rw [if_pos hend, hnone, Nat.min_zero]
      exact ⟨rfl, h.setSame hstream⟩
    have hsize :
        (if fileEnd writes - offset < size then fileEnd writes - offset else size) =
        min size (fileEnd writes - offset) := by
      split <;> omega
    rw [if_neg hend, hsize, h.fs.read hpath, FileTree.read, hentry]
    simp only
    rw [if_pos (by omega)]
    exact ⟨rfl, h.set h.fs (fun _ hstill => hstill) ⟨rfl, rfl, rfl, rfl, hhead, hnamed⟩⟩

theorem Matches.writeFd (fd : ℤ) (data : List CourseChar) :
    (table.writeFd fd data).2 = (streams.writeFd fd data).2 ∧
      Matches (table.writeFd fd data).1 pathOf (streams.writeFd fd data).1 := by
  rw [CourseFdTable.writeFd, StreamTable.writeFd]
  rcases h.fdEntry fd with ⟨hnone, hnone'⟩ | ⟨slot, ⟨target, flags, offset⟩, hsome, hsome', hstream⟩
  · rw [hnone, hnone']
    exact ⟨rfl, h⟩
  have hentry := h.entries slot
  rw [hstream] at hentry
  obtain ⟨hflags, hoffset, htarget⟩ := hentry
  rw [hsome, hsome']
  simp only
  rw [← hflags, ← hoffset]
  cases target with
  | stdio =>
    simp only at htarget
    simp only [htarget, reduceCtorEq, or_false, ne_eq, not_false_eq_true, if_true]
    split
    · exact ⟨rfl, h⟩
    · exact ⟨rfl, h⟩
  | proc name =>
    simp only [htarget.1, or_true, if_true]
    exact ⟨trivial, h⟩
  | file path =>
    obtain ⟨hfile, rfl, hhead, hnamed⟩ := htarget
    simp only [hfile, reduceCtorEq, or_false, ne_eq, not_true_eq_false, if_false]
    by_cases hwrite : flags &&& courseFdOpenWrite = 0
    · rw [if_pos hwrite, if_pos hwrite]
      exact ⟨rfl, h⟩
    rw [if_neg hwrite, if_neg hwrite]
    rcases entry_of_names hnamed with hdir | ⟨writes, hentry, hpath⟩
    · rw [(h.fs.dir_refuses hhead hdir).2, write, hdir]
      exact ⟨rfl, h⟩
    obtain ⟨hanswer, hafter⟩ := h.fs.write hpath offset data
    have hstill : ∀ full, streams.tree.names full → _ :=
      fun full hold => @names_write _ (components (table.entries slot).path) full
        offset data hold
    cases hfs : table.fs.write (table.entries slot).path offset data with
    | mk fs' ok =>
      cases htree : streams.tree.write (components (table.entries slot).path) offset data with
      | mk tree' ok' =>
        rw [hfs, htree] at hanswer hafter
        rw [htree] at hstill
        subst hanswer
        cases ok with
        | false =>
          have hsame : tree' = streams.tree := by
            rw [write, hentry] at htree
            simp only at htree
            split at htree
            · cases htree
            cases htree
            rfl
          rw [hsame] at hafter
          exact ⟨rfl, hafter, h.cwd, h.cwdHead, h.cwdFits, h.entries⟩
        | true =>
          refine ⟨rfl, ?_⟩
          have hstream' : StreamOf tree'
              { kind := .file, flags := flags, offset := offset + data.length
                path := (table.entries slot).path }
              (some { target := .file (components (table.entries slot).path), flags := flags
                      offset := offset + data.length }) :=
            ⟨rfl, rfl, rfl, rfl, hhead, hstill _ hnamed⟩
          exact h.set hafter hstill hstream'

theorem Matches.perform {action : CourseFdAction} (hnames : ¬table.Misnames action) :
    (table.perform action).2 = (streams.perform action).2 ∧
      ∃ pathOf', Matches (table.perform action).1 pathOf' (streams.perform action).1 := by
  cases action with
  | openFd path flags =>
    obtain ⟨hanswer, hafter⟩ := h.openFd hnames flags
    exact ⟨congrArg (Except.map slot) hanswer, hafter⟩
  | close fd =>
    obtain ⟨hanswer, hafter⟩ := h.close fd
    exact ⟨congrArg (Except.map fun _ => done) hanswer, _, hafter⟩
  | read fd size procfs =>
    obtain ⟨hanswer, hafter⟩ := h.readFd fd size procfs
    exact ⟨congrArg (Except.map bytes) hanswer, _, hafter⟩
  | write fd data =>
    obtain ⟨hanswer, hafter⟩ := h.writeFd fd data
    exact ⟨congrArg (Except.map written) hanswer, _, hafter⟩
  | seek fd offset =>
    obtain ⟨hanswer, hafter⟩ := h.seek fd offset
    exact ⟨congrArg (Except.map fun _ => done) hanswer, _, hafter⟩
  | setCwd path =>
    obtain ⟨hanswer, hafter⟩ := h.setCwd hnames
    exact ⟨congrArg (Except.map fun _ => done) hanswer, _, hafter⟩

end

end CourseFdTable
end VisualCpu
