import VisualCpu.Kernel.FdRefinement

/-!
# Runs of the descriptor table

In a run in which no absolute request is cut off, the descriptors answer as streams on the
tree do from the first call to the last; only a successful call about a descriptor touches
its entry, and consecutive reads continue each other.
-/

namespace VisualCpu

open StreamTable
namespace CourseFdTable

variable {table : CourseFdTable}

variable {slot : FdSlot} {fd : ℤ} {pathOf : CourseFsNodeIndex → TreePath} {streams : StreamTable}

theorem fdEntry_some (h : table.fdEntry fd = some slot) : fd = slot.val := by
  rw [fdEntry] at h
  split at h
  · split at h
    · cases h
    cases h
    simp only
    omega
  · cases h

theorem setEntry_ne {slot slot' : FdSlot} {entry : CourseFdEntry}
    (h : (table.setEntry slot entry).entries slot' ≠ table.entries slot') : slot = slot' := by
  by_contra hne
  exact h (Function.update_of_ne (Ne.symm hne) _ _)

theorem openFd_entries {path : List CourseChar} {flags : BitVec 32}
    (h : (table.openFd path flags).1.entries slot ≠ table.entries slot) :
    table.findFreeFd = some slot ∧ ∃ fd, (table.openFd path flags).2 = .ok fd := by
  rw [openFd] at h ⊢
  split at h
  · exact absurd rfl h
  split at h
  · exact absurd rfl h
  rename_i free hfree
  rw [hfree]
  split at h
  · split at h
    · exact absurd rfl h
    rename_i hproc hwrite
    rw [setEntry_ne h]
    exact ⟨rfl, slot, by simp only [hproc, if_true, if_neg hwrite]⟩
  · split at h
    · rename_i hproc hfound
      rw [setEntry_ne h]
      exact ⟨rfl, slot, by simp only [if_neg hproc, hfound, if_true]⟩
    split at h
    · exact absurd rfl h
    rename_i hproc hfound hcreate
    split at h
    · exact absurd rfl h
    rename_i fs' hfs
    rw [setEntry_ne h]
    exact ⟨rfl, slot, by simp only [if_neg hproc, if_neg hfound, if_neg hcreate]⟩

theorem close_entries (h : (table.close fd).1.entries slot ≠ table.entries slot) :
    fd = slot.val ∧ ∃ done, (table.close fd).2 = .ok done := by
  rw [close] at h ⊢
  split at h
  · exact absurd rfl h
  rename_i slot' hslot
  split at h
  · exact absurd rfl h
  rw [← setEntry_ne h, if_neg ‹_›]
  exact ⟨fdEntry_some hslot, _, rfl⟩

theorem readFd_entries {size : ℕ} {procfs : List CourseChar → Option (List CourseChar)}
    (h : (table.readFd fd size procfs).1.entries slot ≠ table.entries slot) :
    fd = slot.val ∧ ∃ out, (table.readFd fd size procfs).2 = .ok out := by
  rw [readFd] at h ⊢
  cases hslot : table.fdEntry fd with
  | none =>
    rw [hslot] at h
    exact absurd rfl h
  | some slot' =>
    rw [hslot] at h
    simp only at h ⊢
    split at h
    · exact absurd rfl h
    rename_i hread
    rw [if_neg hread]
    split at h
    · split at h
      · exact absurd rfl h
      split at h
      · exact absurd rfl h
      split at h
      · exact absurd rfl h
      rename_i hend _ out hbytes
      rw [← setEntry_ne h, if_neg hend]
      exact ⟨fdEntry_some hslot, out, rfl⟩
    · split at h
      · exact absurd rfl h
      split at h
      · exact absurd rfl h
      rename_i hbeyond
      rw [← setEntry_ne h, if_neg hbeyond]
      exact ⟨fdEntry_some hslot, _, rfl⟩
    · exact absurd rfl h

theorem writeFd_entries {data : List CourseChar}
    (h : (table.writeFd fd data).1.entries slot ≠ table.entries slot) :
    fd = slot.val ∧ ∃ size, (table.writeFd fd data).2 = .ok size := by
  rw [writeFd] at h ⊢
  split at h
  · exact absurd rfl h
  rename_i slot' hslot
  simp only at h ⊢
  split at h
  · exact absurd rfl h
  split at h
  · exact absurd rfl h
  rename_i hallowed hfile
  split at h
  · exact absurd rfl h
  rename_i fs' hfs
  rw [← setEntry_ne h]
  rw [if_neg hallowed, if_neg hfile]
  exact ⟨fdEntry_some hslot, _, rfl⟩

theorem seek_entries {offset : ℕ} (h : (table.seek fd offset).1.entries slot ≠ table.entries slot) :
    fd = slot.val ∧ ∃ done, (table.seek fd offset).2 = .ok done := by
  rw [seek] at h ⊢
  split at h
  · exact absurd rfl h
  rename_i slot' hslot
  split at h
  · exact absurd rfl h
  rw [← setEntry_ne h, if_neg ‹_›]
  exact ⟨fdEntry_some hslot, _, rfl⟩

theorem setCwd_entries (path : List CourseChar) : (table.setCwd path).1.entries =
    table.entries := by
  rw [setCwd]
  split
  · rfl
  · split <;> rfl

/-- An entry changes only in a call about its descriptor, and one that succeeds. -/
theorem perform_entries {action : CourseFdAction}
    (h : (table.perform action).1.entries slot ≠ table.entries slot) :
    action.Addresses table.findFreeFd slot ∧ ∃ answer, (table.perform action).2 = .ok answer := by
  cases action with
  | openFd path flags =>
    obtain ⟨hfree, fd, hok⟩ := openFd_entries h
    exact ⟨hfree, .slot fd, by rw [perform, hok]; rfl⟩
  | close fd =>
    obtain ⟨hfd, done, hok⟩ := close_entries h
    exact ⟨hfd, .done, by rw [perform, hok]; rfl⟩
  | read fd size procfs =>
    obtain ⟨hfd, out, hok⟩ := readFd_entries h
    exact ⟨hfd, .bytes out, by rw [perform, hok]; rfl⟩
  | write fd data =>
    obtain ⟨hfd, size, hok⟩ := writeFd_entries h
    exact ⟨hfd, .written size, by rw [perform, hok]; rfl⟩
  | seek fd offset =>
    obtain ⟨hfd, done, hok⟩ := seek_entries h
    exact ⟨hfd, .done, by rw [perform, hok]; rfl⟩
  | setCwd path =>
    have hsame : (table.perform (.setCwd path)).1.entries = table.entries := setCwd_entries path
    exact absurd (congrFun hsame slot) h

/-- No call of the list is about a request that the buffer cuts off. -/
def Fits (table : CourseFdTable) : List CourseFdAction → Prop
  | [] => True
  | action :: rest => ¬table.Misnames action ∧ (table.perform action).1.Fits rest

theorem Fits.split {before after : List CourseFdAction} (h : table.Fits (before ++ after)) :
    table.Fits before ∧ (table.run before).Fits after := by
  induction before generalizing table with
  | nil => exact ⟨trivial, h⟩
  | cons action rest ih =>
    obtain ⟨hrest, hafter⟩ := ih h.2
    exact ⟨⟨h.1, hrest⟩, hafter⟩

theorem reads_fit (slot : FdSlot) (sizes : List ℕ)
    (procfs : List CourseChar → Option (List CourseChar)) :
    table.Fits (sizes.map fun size => .read slot.val size procfs) := by
  induction sizes generalizing table with
  | nil => trivial
  | cons size rest ih => exact ⟨id, ih⟩

theorem Matches.run
    (h : table.Matches pathOf streams) {actions : List CourseFdAction}
    (hfits : table.Fits actions) :
    table.results actions = streams.results actions ∧
      ∃ pathOf', (table.run actions).Matches pathOf' (streams.run actions) := by
  induction actions generalizing table pathOf streams with
  | nil => exact ⟨rfl, pathOf, h⟩
  | cons action rest ih =>
    obtain ⟨hanswer, pathOf', hafter⟩ := h.perform hfits.1
    obtain ⟨hanswers, hreached⟩ := ih hafter hfits.2
    exact ⟨by rw [results, StreamTable.results, hanswer, hanswers], hreached⟩

variable (storage : CourseFsStorage)

variable (setup : List CourseFsAction)

/-- The table of a fresh process over the file system that some calls have built. -/
def start : CourseFdTable :=
  init ((CourseFs.init storage).run setup)

/-- The streams of a fresh process over the tree that the same calls build. -/
noncomputable def startStreams : StreamTable :=
  StreamTable.init (FileTree.empty.run setup)

theorem start_matches {setup : List CourseFsAction} (hsetup : ∀ action ∈ setup, action.PathOk) :
    ∃ pathOf, (start storage setup).Matches pathOf (startStreams setup) := by
  obtain ⟨-, pathOf, hfs⟩ := (CourseFs.init_represents storage).run hsetup
  refine ⟨pathOf, hfs, rfl, rfl, (by decide : [courseSlash].length < courseFdMaxPath), fun slot =>
    ?_⟩
  simp only [start, startStreams, init, StreamTable.init]
  by_cases hin : slot = 0
  · simp only [hin, if_true]
    exact ⟨rfl, rfl, rfl⟩
  by_cases hout : slot = 1 ∨ slot = 2
  · simp only [if_neg hin, if_pos hout]
    exact ⟨rfl, rfl, rfl⟩
  simp only [if_neg hin, if_neg hout]
  rfl

/-- Descriptors are independent streams on the named files: every call of the run answers as
on the streams, an entry changes only in a successful call about it, a failing call leaves
the files as they are, and reads of any sizes through a descriptor give the bytes of its file
from its offset on. -/
def StreamsSound
    (actions : List CourseFdAction) : Prop :=
  (start storage setup).results actions = (startStreams setup).results actions ∧
  (∀ before after, actions = before ++ after →
    ∃ pathOf, ((start storage setup).run before).Matches pathOf ((startStreams setup).run before)) ∧
  (∀ before action after slot, actions = before ++ action :: after →
    (((start storage setup).run before).perform action).1.entries slot ≠
      ((start storage setup).run before).entries slot →
    action.Addresses ((start storage setup).run before).findFreeFd slot ∧
      ∃ answer, (((start storage setup).run before).perform action).2 = .ok answer) ∧
  (∀ before action after error, actions = before ++ action :: after →
    (((start storage setup).run before).perform action).2 = .error error →
    (((startStreams setup).run before).perform action).1.tree =
      ((startStreams setup).run before).tree) ∧
  ∀ before after slot writes (sizes : List ℕ) procfs, actions = before ++ after →
    (((start storage setup).run before).entries slot).kind = .file →
    (((start storage setup).run before).entries slot).flags &&& courseFdOpenRead ≠ 0 →
    ((startStreams setup).run before).tree.entry
      (components (((start storage setup).run before).entries slot).path) = some (.file writes) →
    (((start storage setup).run before).results
        (sizes.map fun size => .read slot.val size procfs)).flatMap answerBytes =
      (List.range (min sizes.sum
        (fileEnd writes - (((start storage setup).run before).entries slot).offset))).map fun k =>
          fileByte writes ((((start storage setup).run before).entries slot).offset + k)

theorem Matches.reads
    (h : table.Matches pathOf streams) {writes : List FileWrite}
    (hkind : (table.entries slot).kind = .file)
    (hflags : (table.entries slot).flags &&& courseFdOpenRead ≠ 0)
    (hentry : streams.tree.entry (components (table.entries slot).path) = some (.file writes))
    (sizes : List ℕ) (procfs : List CourseChar → Option (List CourseChar)) :
    (table.results (sizes.map fun size => .read slot.val size procfs)).flatMap
        answerBytes =
      (List.range (min sizes.sum (fileEnd writes - (table.entries slot).offset))).map fun k =>
        fileByte writes ((table.entries slot).offset + k) := by
  rw [(h.run (reads_fit slot sizes procfs)).1]
  have hstream := h.entries slot
  cases hslot : streams.streams slot with
  | none =>
    rw [hslot] at hstream
    have hunused : (table.entries slot).kind = .unused := hstream
    rw [hunused] at hkind
    cases hkind
  | some stream =>
    rw [hslot] at hstream
    obtain ⟨hsameFlags, hoffset, htarget⟩ := hstream
    cases htype : stream.target with
    | stdio =>
      rw [htype] at htarget
      have hstdio : (table.entries slot).kind = .stdio := htarget
      rw [hstdio] at hkind
      cases hkind
    | proc name =>
      rw [htype] at htarget
      rw [htarget.1] at hkind
      cases hkind
    | file path =>
      rw [htype] at htarget
      obtain ⟨-, hpath, -, -⟩ := htarget
      rw [← hpath] at hentry
      rw [← hsameFlags] at hflags
      rw [← hoffset]
      exact reads_concat hslot htype hflags hentry sizes procfs

/-- In every run whose absolute requests fit the path buffer, or are cut off to nothing that
is used, the descriptors are streams on the named files. -/
theorem streamsSound_of_fits (storage : CourseFsStorage) (setup : List CourseFsAction)
    (hsetup : ∀ action ∈ setup, action.PathOk) (actions : List CourseFdAction)
    (hfits : (start storage setup).Fits actions) : StreamsSound storage setup actions := by
  obtain ⟨pathOf, hstart⟩ := start_matches storage hsetup
  have hreached : ∀ before after, actions = before ++ after →
      ∃ pathOf, ((start storage setup).run before).Matches pathOf
        ((startStreams setup).run before) ∧
        ((start storage setup).run before).Fits after := by
    intro before after hsplit
    rw [hsplit] at hfits
    obtain ⟨hbefore, hafter⟩ := hfits.split
    obtain ⟨-, pathOf', hmatches⟩ := hstart.run hbefore
    exact ⟨pathOf', hmatches, hafter⟩
  refine ⟨(hstart.run hfits).1, ?_, ?_, ?_, ?_⟩
  · intro before after hsplit
    obtain ⟨pathOf', hmatches, -⟩ := hreached before after hsplit
    exact ⟨pathOf', hmatches⟩
  · intro before action after slot _ hchanged
    exact perform_entries hchanged
  · intro before action after error hsplit herror
    obtain ⟨pathOf', hmatches, hfits', -⟩ := hreached before (action :: after) hsplit
    rw [(hmatches.perform hfits').1] at herror
    exact perform_error herror
  · intro before after slot writes sizes procfs hsplit hkind hflags hentry
    obtain ⟨pathOf', hmatches, -⟩ := hreached before after hsplit
    exact hmatches.reads hkind hflags hentry sizes procfs

/-- A file `f` created by its relative name, written and read back in part. -/
def writeAndReread : List CourseFdAction :=
  [.openFd [102] 7, .write 3 [1, 2, 3], .seek 3 1, .read 3 9 fun _ => none]

theorem writeAndReread_streamsSound :
    StreamsSound (fun _ _ => 0) [.mkdir [47, 100]] writeAndReread :=
  streamsSound_of_fits (fun _ _ => 0) [.mkdir [47, 100]] (by decide) writeAndReread
    ⟨fun hcut => absurd hcut.1 (by decide), id, id, id, trivial⟩

/-- Ninety slashes and `abcdefgh`: the buffer holds the path up to `abcde`. -/
def overlongPath : List CourseChar :=
  List.replicate 90 courseSlash ++ [97, 98, 99, 100, 101, 102, 103, 104]

/-- Opened to create and write, the overlong path is cut off and another file is created,
where the request should have been refused. -/
theorem overlongPath_cutOff :
    ¬∀ (storage : CourseFsStorage) (setup : List CourseFsAction)
      (_ : ∀ action ∈ setup, action.PathOk)
      (actions : List CourseFdAction), StreamsSound storage setup actions := by
  intro h
  have hanswers := (h (fun _ _ => 0) [] (by decide) [.openFd overlongPath 6]).1
  have hopened : ((start (fun _ _ => 0) []).openFd overlongPath 6).2.toOption = some 3 := by
    decide +kernel
  have hrefused : ((startStreams []).openFd overlongPath 6).2 = .error .invalidPath := by
    rw [StreamTable.openFd, if_pos (by decide)]
  simp only [results, results, perform, perform, hrefused, List.cons.injEq, and_true] at hanswers
  cases hresult : ((start (fun _ _ => 0) []).openFd overlongPath 6).2 with
  | error error =>
    rw [hresult] at hopened
    cases hopened
  | ok slot =>
    rw [hresult] at hanswers
    cases hanswers

end CourseFdTable
end VisualCpu
