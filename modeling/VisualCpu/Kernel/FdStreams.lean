import VisualCpu.Kernel.CourseFd
import VisualCpu.Kernel.FileTree

/-!
# Streams on a tree of files

What descriptors are for: each is a stream, a position in the file that its full path names
in the tree. Paths have any length here, and a request is refused when its full path does
not fit.
-/

namespace VisualCpu

open List

/-- What a stream reads and writes. -/
inductive StreamTarget
  | stdio
  | file (path : TreePath)
  | proc (name : List CourseChar)

structure Stream where
  target : StreamTarget
  flags : BitVec 32
  offset : ℕ

structure StreamTable where
  tree : FileTree
  cwd : List CourseChar
  streams : FdSlot → Option Stream

/-- A string names a directory, or without trailing slash a file. -/
def FileTree.names (tree : FileTree) (full : List CourseChar) : Bool :=
  match tree.entry (components full) with
  | some .dir => true
  | some (.file _) => decide (PathOk full)
  | none => false

/-- The full path of a request: itself when absolute, else the working directory and the
request with a slash between; the root needs no slash, nor does an empty request when no
room is left for one. -/
def fullPath (cwd path : List CourseChar) : List CourseChar :=
  if path.head? = some courseSlash then path
  else if cwd.length ≤ 1 ∨ path = [] ∧ courseFdMaxPath ≤ cwd.length + 1 then cwd ++ path
  else cwd ++ courseSlash :: path

namespace StreamTable

variable (table : StreamTable)

def setStream (slot : FdSlot) (stream : Stream) : StreamTable :=
  { table with streams := Function.update table.streams slot (some stream) }

def init (tree : FileTree) : StreamTable where
  tree := tree
  cwd := [courseSlash]
  streams slot :=
    if slot = 0 then some { target := .stdio, flags := courseFdOpenRead, offset := 0 }
    else if slot = 1 ∨ slot = 2 then
      some { target := .stdio, flags := courseFdOpenWrite, offset := 0 }
    else none

def freeSlot : Option FdSlot :=
  firstSlot fun slot => 3 ≤ slot.val && (table.streams slot).isNone

def streamAt (fd : ℤ) : Option (FdSlot × Stream) :=
  if h : 0 ≤ fd ∧ fd < 16 then
    (table.streams ⟨fd.toNat, CourseFdTable.fd_lt h⟩).map fun stream =>
      (⟨fd.toNat, CourseFdTable.fd_lt h⟩, stream)
  else none

noncomputable def openFd (path : List CourseChar) (flags : BitVec 32) :
    StreamTable × Except CourseFdError FdSlot :=
  if courseFdMaxPath ≤ (fullPath table.cwd path).length then (table, .error .invalidPath)
  else
    match table.freeSlot with
    | none => (table, .error .noSlot)
    | some slot =>
      if isProcPath (fullPath table.cwd path) then
        if flags &&& courseFdOpenWrite ≠ 0 then (table, .error .permissionDenied)
        else
          (table.setStream slot { target := .proc (fullPath table.cwd path)
                                  flags := courseFdOpenRead, offset := 0 }, .ok slot)
      else if table.tree.names (fullPath table.cwd path) then
        (table.setStream slot { target := .file (components (fullPath table.cwd path))
                                flags := flags, offset := 0 }, .ok slot)
      else if flags &&& courseFdOpenCreate = 0 ∨ ¬PathOk (fullPath table.cwd path) then
        (table, .error .noSuchFile)
      else
        match table.tree.create (components (fullPath table.cwd path)) false with
        | (_, false) => (table, .error .noSuchFile)
        | (tree', true) =>
          (({ table with tree := tree' } : StreamTable).setStream slot
            { target := .file (components (fullPath table.cwd path))
              flags := flags, offset := 0 }, .ok slot)

def close (fd : ℤ) : StreamTable × Except CourseFdError Unit :=
  match table.streamAt fd with
  | none => (table, .error .badFd)
  | some (slot, _) =>
    if fd < 3 then (table, .error .badFd)
    else ({ table with streams := Function.update table.streams slot none }, .ok ())

/-- The bytes from the position on, as many as asked for and there. -/
def readFd (fd : ℤ) (size : ℕ)
    (procfs : List CourseChar → Option (List CourseChar)) :
    StreamTable × Except CourseFdError (List CourseChar) :=
  match table.streamAt fd with
  | none => (table, .error .badFd)
  | some (slot, stream) =>
    if stream.flags &&& courseFdOpenRead = 0 then (table, .error .permissionDenied)
    else
      match stream.target with
      | .stdio => (table, .error .badFd)
      | .file path =>
        match table.tree.entry path with
        | some (.file writes) =>
          (table.setStream slot
            { stream with offset := stream.offset + min size (fileEnd writes - stream.offset) },
            .ok ((List.range (min size (fileEnd writes - stream.offset))).map fun k =>
              fileByte writes (stream.offset + k)))
        | _ => (table, .error .noSuchFile)
      | .proc name =>
        match procfs name with
        | none => (table, .error .noSuchFile)
        | some text =>
          (table.setStream slot
            { stream with offset := stream.offset + min size (text.length - stream.offset) },
            .ok ((text.drop stream.offset).take size))

def writeFd (fd : ℤ) (data : List CourseChar) :
    StreamTable × Except CourseFdError ℕ :=
  match table.streamAt fd with
  | none => (table, .error .badFd)
  | some (slot, stream) =>
    match stream.target with
    | .proc _ => (table, .error .permissionDenied)
    | .stdio =>
      if stream.flags &&& courseFdOpenWrite = 0 then (table, .error .permissionDenied)
      else (table, .error .noSuchFile)
    | .file path =>
      if stream.flags &&& courseFdOpenWrite = 0 then (table, .error .permissionDenied)
      else
        match table.tree.write path stream.offset data with
        | (_, false) => (table, .error .noSuchFile)
        | (tree', true) =>
          (({ table with tree := tree' } : StreamTable).setStream slot
            { stream with offset := stream.offset + data.length }, .ok data.length)

def seek (fd : ℤ) (offset : ℕ) : StreamTable × Except CourseFdError Unit :=
  match table.streamAt fd with
  | none => (table, .error .badFd)
  | some (slot, stream) =>
    match stream.target with
    | .file _ => (table.setStream slot { stream with offset := offset }, .ok ())
    | _ => (table, .error .permissionDenied)

def setCwd (path : List CourseChar) :
    StreamTable × Except CourseFdError Unit :=
  if courseFdMaxPath ≤ (fullPath table.cwd path).length then (table, .error .invalidPath)
  else if table.tree.names (fullPath table.cwd path) then
    ({ table with cwd := fullPath table.cwd path }, .ok ())
  else (table, .error .invalidPath)

noncomputable def perform : CourseFdAction → StreamTable × CourseFdResult
  | .openFd path flags => ((table.openFd path flags).1, (table.openFd path flags).2.map .slot)
  | .close fd => ((table.close fd).1, (table.close fd).2.map fun _ => .done)
  | .read fd size procfs =>
    ((table.readFd fd size procfs).1, (table.readFd fd size procfs).2.map .bytes)
  | .write fd data => ((table.writeFd fd data).1, (table.writeFd fd data).2.map .written)
  | .seek fd offset => ((table.seek fd offset).1, (table.seek fd offset).2.map fun _ => .done)
  | .setCwd path => ((table.setCwd path).1, (table.setCwd path).2.map fun _ => .done)

noncomputable def run (actions : List CourseFdAction) : StreamTable :=
  actions.foldl (fun table action => (table.perform action).1) table

noncomputable def results (table : StreamTable) : List CourseFdAction → List CourseFdResult
  | [] => []
  | action :: rest => (table.perform action).2 :: (table.perform action).1.results rest

end StreamTable

/-- A call is about one descriptor: the one it names, or the free one it takes. -/
def CourseFdAction.Addresses (free : Option FdSlot) (slot : FdSlot) : CourseFdAction → Prop
  | .openFd _ _ => free = some slot
  | .close fd => fd = slot.val
  | .read fd _ _ => fd = slot.val
  | .write fd _ => fd = slot.val
  | .seek fd _ => fd = slot.val
  | .setCwd _ => False

namespace StreamTable

variable {table : StreamTable}

theorem streamAt_of {slot : FdSlot} {stream : Stream} (h : table.streams slot = some stream) :
    table.streamAt slot.val = some (slot, stream) := by
  have hrange : (0 : ℤ) ≤ slot.val ∧ (slot.val : ℤ) < 16 := by omega
  rw [streamAt, dif_pos hrange]
  simp only [Int.toNat_natCast, Fin.eta, h, Option.map_some]

theorem openFd_tree (path : List CourseChar) (flags : BitVec 32) :
    (table.openFd path flags).1.tree = table.tree ∨
      ∃ slot, (table.openFd path flags).2 = .ok slot := by
  rw [openFd]
  split
  · exact .inl rfl
  split
  · exact .inl rfl
  split
  · split
    · exact .inl rfl
    · exact .inl rfl
  split
  · exact .inl rfl
  split
  · exact .inl rfl
  split
  · exact .inl rfl
  · exact .inr ⟨_, rfl⟩

theorem writeFd_tree (fd : ℤ) (data : List CourseChar) :
    (table.writeFd fd data).1.tree = table.tree ∨ ∃ size, (table.writeFd fd data).2 = .ok size := by
  rw [writeFd]
  split
  · exact .inl rfl
  split
  · exact .inl rfl
  · split
    · exact .inl rfl
    · exact .inl rfl
  · split
    · exact .inl rfl
    split
    · exact .inl rfl
    · exact .inr ⟨_, rfl⟩

theorem readFd_tree (fd : ℤ) (size : ℕ) (procfs : List CourseChar → Option (List CourseChar)) :
    (table.readFd fd size procfs).1.tree = table.tree := by
  rw [readFd]
  split
  · rfl
  split
  · rfl
  split
  · rfl
  · split <;> rfl
  · split <;> rfl

theorem close_tree (fd : ℤ) : (table.close fd).1.tree = table.tree := by
  rw [close]
  split
  · rfl
  · split <;> rfl

theorem seek_tree (fd : ℤ) (offset : ℕ) : (table.seek fd offset).1.tree = table.tree := by
  rw [seek]
  split
  · rfl
  · split <;> rfl

theorem setCwd_tree (path : List CourseChar) : (table.setCwd path).1.tree = table.tree := by
  rw [setCwd]
  split
  · rfl
  · split <;> rfl

theorem perform_error {action : CourseFdAction} {error : CourseFdError}
    (h : (table.perform action).2 = .error error) : (table.perform action).1.tree = table.tree := by
  cases action with
  | openFd path flags =>
    refine (openFd_tree path flags).resolve_right fun ⟨slot, hok⟩ => ?_
    simp only [perform, hok, Except.map] at h
    cases h
  | close fd => exact close_tree fd
  | read fd size procfs => exact readFd_tree fd size procfs
  | write fd data =>
    refine (writeFd_tree fd data).resolve_right fun ⟨size, hok⟩ => ?_
    simp only [perform, hok, Except.map] at h
    cases h
  | seek fd offset => exact seek_tree fd offset
  | setCwd path => exact setCwd_tree path

def answerBytes : CourseFdResult → List CourseChar
  | .ok (.bytes out) => out
  | _ => []

theorem results_cons (action : CourseFdAction) (rest : List CourseFdAction) :
    table.results (action :: rest) =
      (table.perform action).2 :: (table.perform action).1.results rest := rfl

section

variable {slot : FdSlot} {stream : Stream} (hstream : table.streams slot = some stream)
  {writes : List FileWrite} {path : TreePath}

include hstream

theorem readFd_file
    (htarget : stream.target = .file path) (hflags : stream.flags &&& courseFdOpenRead ≠ 0)
    (hentry : table.tree.entry path = some (.file writes)) (size : ℕ)
    (procfs : List CourseChar → Option (List CourseChar)) :
    table.readFd slot.val size procfs =
      (table.setStream slot
        { stream with offset := stream.offset + min size (fileEnd writes - stream.offset) },
        .ok ((range (min size (fileEnd writes - stream.offset))).map fun k =>
          fileByte writes (stream.offset + k))) := by
  simp only [readFd, streamAt_of hstream, if_neg hflags, htarget, hentry]

theorem reads_concat
    (htarget : stream.target = .file path) (hflags : stream.flags &&& courseFdOpenRead ≠ 0)
    (hentry : table.tree.entry path = some (.file writes)) (sizes : List ℕ)
    (procfs : List CourseChar → Option (List CourseChar)) :
    (table.results (sizes.map fun size => .read slot.val size procfs)).flatMap answerBytes =
      (range (min sizes.sum (fileEnd writes - stream.offset))).map fun k =>
        fileByte writes (stream.offset + k) := by
  induction sizes generalizing table stream with
  | nil => simp [results]
  | cons size rest ih =>
    have hread := readFd_file hstream htarget hflags hentry size procfs
    have hafter := @ih (table.setStream slot
      { stream with offset := stream.offset + min size (fileEnd writes - stream.offset) }) _
      (Function.update_self ..) htarget hflags hentry
    rw [map_cons, results_cons, flatMap_cons, perform, hread]
    rw [hafter]
    have hsplit : min (size :: rest).sum (fileEnd writes - stream.offset) =
        min size (fileEnd writes - stream.offset) +
          min rest.sum (fileEnd writes -
            (stream.offset + min size (fileEnd writes - stream.offset))) := by
      rw [sum_cons]
      omega
    rw [hsplit, range_add, map_append, map_map]
    congr 1
    refine map_congr_left fun k _ => ?_
    rw [Function.comp_apply, Nat.add_assoc]

end

end StreamTable
end VisualCpu
