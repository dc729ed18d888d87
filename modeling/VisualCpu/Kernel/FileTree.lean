import Mathlib.Data.List.TakeWhile
import VisualCpu.Kernel.CourseFs

/-!
# A tree of byte files

What the file system is for: a finite tree whose leaves are byte files. A path is the list
of its components, a file is the list of the writes done to it since its creation, and the
tree knows no node slots, no index and no data areas.
-/

namespace VisualCpu

open List

abbrev TreePath := List (List CourseChar)

variable (path : List CourseChar) {name : List CourseChar}

/-- The components of a path string: what stands between its slashes, empty parts left out. -/
def components : TreePath :=
  (path.splitOn courseSlash).filter fun component => !component.isEmpty

/-- An absolute path, the root itself or one that does not end in a slash. -/
def PathOk : Prop :=
  path.head? = some courseSlash ∧ (path = [courseSlash] ∨ path.getLast? ≠ some courseSlash)

instance (path : List CourseChar) : Decidable (PathOk path) :=
  inferInstanceAs (Decidable (_ ∧ (_ ∨ _)))

/-- A write done to a file. -/
structure FileWrite where
  offset : ℕ
  bytes : List CourseChar
  deriving DecidableEq

def fileEnd : List FileWrite → ℕ
  | [] => 0
  | latest :: earlier => max (latest.offset + latest.bytes.length) (fileEnd earlier)

/-- The byte at an offset: of the last write there, or zero where none was. -/
def fileByte : List FileWrite → ℕ → CourseChar
  | [], _ => 0
  | latest :: earlier, k =>
    if latest.offset ≤ k ∧ k < latest.offset + latest.bytes.length then
      latest.bytes.getD (k - latest.offset) 0
    else fileByte earlier k

theorem fileByte_beyond {writes : List FileWrite} {k : ℕ} (h : fileEnd writes ≤ k) :
    fileByte writes k = 0 := by
  induction writes with
  | nil => rfl
  | cons latest earlier ih =>
    rw [fileEnd] at h
    rw [fileByte, if_neg (by omega)]
    exact ih (by omega)

/-- A directory, or a file with its writes, the latest first. -/
inductive TreeEntry
  | dir
  | file (writes : List FileWrite)
  deriving DecidableEq

/-- The entries under their paths, and how many there are. -/
structure FileTree where
  entry : TreePath → Option TreeEntry
  count : ℕ

namespace FileTree

def empty : FileTree where
  entry path := if path = [] then some .dir else none
  count := 1

variable (tree : FileTree)

def add (path : TreePath) (entry : TreeEntry) : FileTree where
  entry := Function.update tree.entry path (some entry)
  count := tree.count + 1

def remove (path : TreePath) : FileTree where
  entry := Function.update tree.entry path none
  count := tree.count - 1

/-- A new entry needs a directory to be in, a name that fits and room. -/
def CanCreate (path : TreePath) : Prop :=
  path ≠ [] ∧ tree.entry path = none ∧ tree.entry path.dropLast = some .dir ∧
    (path.getLastD []).length < courseFsMaxName ∧ tree.count < courseFsMaxNodes

/-- Only an empty directory other than the root can be removed. -/
def CanRmdir (path : TreePath) : Prop :=
  path ≠ [] ∧ tree.entry path = some .dir ∧ ∀ name, tree.entry (path ++ [name]) = none

open Classical in
noncomputable def create (path : TreePath) (directory : Bool) :
    FileTree × Bool :=
  if tree.CanCreate path then (tree.add path (if directory then .dir else .file []), true)
  else (tree, false)

open Classical in
noncomputable def rmdir (path : TreePath) : FileTree × Bool :=
  if tree.CanRmdir path then (tree.remove path, true) else (tree, false)

def unlink (path : TreePath) : FileTree × Bool :=
  match tree.entry path with
  | some (.file _) => (tree.remove path, true)
  | _ => (tree, false)

def write (path : TreePath) (offset : ℕ) (data : List CourseChar) :
    FileTree × Bool :=
  match tree.entry path with
  | some (.file writes) =>
    if offset + data.length ≤ courseFsMaxData then
      ({ entry := Function.update tree.entry path
          (some (.file ({ offset := offset, bytes := data } :: writes)))
         count := tree.count }, true)
    else (tree, false)
  | _ => (tree, false)

def read (path : TreePath) (offset size : ℕ) : Option (List CourseChar) :=
  match tree.entry path with
  | some (.file writes) =>
    if offset + size ≤ fileEnd writes then
      some ((List.range size).map fun k => fileByte writes (offset + k))
    else none
  | _ => none

def fileSize (path : TreePath) : Option ℕ :=
  match tree.entry path with
  | some (.file writes) => some (fileEnd writes)
  | _ => none

def lookup (path : TreePath) : Bool := (tree.entry path).isSome

noncomputable def perform : CourseFsAction → FileTree × CourseFsResult
  | .mkfs _ => (empty, .none)
  | .create path directory =>
    ((tree.create (components path) directory).1, .done (tree.create (components path) directory).2)
  | .mkdir path => ((tree.create (components path) true).1,
    .done (tree.create (components path) true).2)
  | .rmdir path => ((tree.rmdir (components path)).1, .done (tree.rmdir (components path)).2)
  | .unlink path => ((tree.unlink (components path)).1, .done (tree.unlink (components path)).2)
  | .write path offset data =>
    ((tree.write (components path) offset data).1,
      .done (tree.write (components path) offset data).2)
  | .read path offset size => (tree, .bytes (tree.read (components path) offset size))
  | .size path => (tree, .size (tree.fileSize (components path)))
  | .lookup path => (tree, .done (tree.lookup (components path)))

noncomputable def run (actions : List CourseFsAction) : FileTree :=
  actions.foldl (fun tree action => (tree.perform action).1) tree

noncomputable def results (tree : FileTree) : List CourseFsAction → List CourseFsResult
  | [] => []
  | action :: rest => (tree.perform action).2 :: (tree.perform action).1.results rest

end FileTree

theorem components_nil : components [] = [] := rfl

theorem components_slash : components (courseSlash :: path) = components path := by
  rw [components, splitOn_cons_eq_if_modifyHead, if_pos (by simp)]
  rfl

theorem components_dropWhile (cursor : List CourseChar) :
    components (cursor.dropWhile (· == courseSlash)) = components cursor := by
  induction cursor with
  | nil => rfl
  | cons c rest ih =>
    by_cases hc : c = courseSlash
    · rw [hc, components_slash, ← ih, dropWhile_cons, if_pos (by simp)]
    · rw [dropWhile_cons, if_neg (by simpa using hc)]

theorem components_append_slash (hne : name ≠ []) (hname : courseSlash ∉ name)
    (rest : List CourseChar) : components (name ++ courseSlash :: rest) =
      name :: components rest := by
  rw [components, splitOn_append_cons_self_of_not_mem hname, filter_cons_of_pos]
  · rfl
  · simpa using hne

theorem components_name (hne : name ≠ []) (hname : courseSlash ∉ name) :
    components name = [name] := by
  rw [components, splitOn_eq_singleton hname, filter_cons_of_pos]
  · rfl
  · simpa using hne

theorem nextComponent_none {cursor : List CourseChar} (h : nextComponent cursor = none) :
    components cursor = [] ∧ ∀ c ∈ cursor, c = courseSlash := by
  rw [nextComponent] at h
  cases hdrop : cursor.dropWhile (· == courseSlash) with
  | nil =>
    refine ⟨?_, fun c hc => ?_⟩
    · rw [← components_dropWhile, hdrop, components_nil]
    have hall := dropWhile_eq_nil_iff.1 hdrop c hc
    simpa using hall
  | cons c tail =>
    rw [hdrop] at h
    cases h

theorem getLast?_of_suffix {rest cursor : List CourseChar} (hne : rest ≠ []) (h : rest <:+ cursor) :
    rest.getLast? = cursor.getLast? := by
  obtain ⟨before, rfl⟩ := h
  rw [List.getLast?_append_of_ne_nil _ hne]

theorem nextComponent_some {cursor name rest : List CourseChar}
    (h : nextComponent cursor = some (name, rest)) :
    name ≠ [] ∧ components cursor = name :: components rest ∧
      (rest ≠ [] → rest.getLast? = cursor.getLast?) := by
  rw [nextComponent] at h
  cases hdrop : cursor.dropWhile (· == courseSlash) with
  | nil =>
    rw [hdrop] at h
    cases h
  | cons c tail =>
    rw [hdrop] at h
    obtain ⟨rfl, rfl⟩ : (c :: tail).takeWhile (· != courseSlash) = name ∧
        (c :: tail).dropWhile (· != courseSlash) = rest := by simpa using h
    have hc : (c != courseSlash) = true := by
      have hhead := List.head?_dropWhile_not (· == courseSlash) cursor
      rw [hdrop] at hhead
      simpa [bne] using hhead
    have hne : (c :: tail).takeWhile (· != courseSlash) ≠ [] := by
      rw [takeWhile_cons, if_pos hc]
      exact cons_ne_nil _ _
    have hname : courseSlash ∉ (c :: tail).takeWhile (· != courseSlash) := by
      intro hmem
      have hpasses := mem_takeWhile_imp hmem
      simp at hpasses
    have hsplit := @takeWhile_append_dropWhile _ (· != courseSlash) (c :: tail)
    refine ⟨hne, ?_, fun hrest => ?_⟩
    · rw [← components_dropWhile, hdrop]
      cases hrest : (c :: tail).dropWhile (· != courseSlash) with
      | nil =>
        rw [hrest, append_nil] at hsplit
        rw [hsplit] at hname hne ⊢
        rw [components_name hne hname, components_nil]
      | cons d more =>
        have hd : d = courseSlash := by
          have hhead := List.head?_dropWhile_not (· != courseSlash) (c :: tail)
          rw [hrest] at hhead
          simpa using hhead
        rw [hrest, hd] at hsplit
        rw [hd, components_slash, ← components_append_slash hne hname more, hsplit]
    · rw [getLast?_of_suffix hrest (dropWhile_suffix _), ← hdrop,
        getLast?_of_suffix (by rw [hdrop]; exact cons_ne_nil _ _) (dropWhile_suffix _)]

end VisualCpu
