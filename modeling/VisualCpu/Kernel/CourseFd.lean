import VisualCpu.Kernel.CourseFs

/-!
# The descriptor table

Sixteen descriptors over the course file system and the read-only `/proc` nodes. A request
is resolved against the working directory in a buffer of 96 characters; a descriptor keeps
the resolved string, its flags and its own offset.
-/

namespace VisualCpu

abbrev FdSlot := Fin 16

def courseFdMaxPath : ℕ := 96
def courseFdOpenRead : BitVec 32 := 1
def courseFdOpenWrite : BitVec 32 := 2
def courseFdOpenCreate : BitVec 32 := 4

inductive CourseFdError
  | badFd | noSlot | noSuchFile | permissionDenied | invalidPath
  deriving DecidableEq

inductive CourseFdKind
  | unused | stdio | file | proc
  deriving DecidableEq

structure CourseFdEntry where
  kind : CourseFdKind := .unused
  flags : BitVec 32 := 0
  offset : ℕ := 0
  path : List CourseChar := []

structure CourseFdTable where
  fs : CourseFs
  cwd : List CourseChar
  entries : FdSlot → CourseFdEntry

/-- `copy_str` into a buffer: what does not fit is cut off. -/
def fdCopyStr (outSize : ℕ) (value : List CourseChar) : List CourseChar := value.take (outSize - 1)

/-- The string `/proc/`. -/
def procPrefix : List CourseChar := [47, 112, 114, 111, 99, 47]

def isProcPath (path : List CourseChar) : Bool := procPrefix.isPrefixOf path

/-- `course_fd_resolve_path`: an absolute path is copied, a relative one is put behind the
working directory when it fits. -/
def courseFdResolvePath (cwd path : List CourseChar) (outSize : ℕ) : Option (List CourseChar) :=
  if path.head? = some courseSlash then some (fdCopyStr outSize path)
  else
    let out := fdCopyStr outSize cwd
    if out = [] ∨ out.head? ≠ some courseSlash then none
    else
      let joined := if 1 < out.length ∧ out.length + 1 < outSize then out ++ [courseSlash] else out
      if joined.length + path.length < outSize then some (joined ++ path) else none

namespace CourseFdTable

variable (table : CourseFdTable)

def setEntry (slot : FdSlot) (entry : CourseFdEntry) : CourseFdTable :=
  { table with entries := Function.update table.entries slot entry }

/-- `course_fd_table_init`. -/
def init (fs : CourseFs) : CourseFdTable where
  fs := fs
  cwd := [courseSlash]
  entries slot :=
    if slot = 0 then { kind := .stdio, flags := courseFdOpenRead }
    else if slot = 1 ∨ slot = 2 then { kind := .stdio, flags := courseFdOpenWrite }
    else {}

def findFreeFd : Option FdSlot :=
  firstSlot fun slot => 3 ≤ slot.val && (table.entries slot).kind == .unused

/-- The slot of a descriptor that is in range and used. -/
theorem fd_lt {fd : ℤ} (h : 0 ≤ fd ∧ fd < 16) : fd.toNat < 16 := by omega

def fdEntry (fd : ℤ) : Option FdSlot :=
  if h : 0 ≤ fd ∧ fd < 16 then
    if (table.entries ⟨fd.toNat, fd_lt h⟩).kind = .unused then none
    else some ⟨fd.toNat, fd_lt h⟩
  else none

def openFd (path : List CourseChar) (flags : BitVec 32) :
    CourseFdTable × Except CourseFdError FdSlot :=
  match courseFdResolvePath table.cwd path courseFdMaxPath with
  | none => (table, .error .invalidPath)
  | some resolved =>
    match table.findFreeFd with
    | none => (table, .error .noSlot)
    | some slot =>
      if isProcPath resolved then
        if flags &&& courseFdOpenWrite ≠ 0 then (table, .error .permissionDenied)
        else
          (table.setEntry slot { kind := .proc, flags := courseFdOpenRead, offset := 0
                                 path := fdCopyStr courseFdMaxPath resolved }, .ok slot)
      else if table.fs.lookup resolved then
        (table.setEntry slot { kind := .file, flags := flags, offset := 0
                               path := fdCopyStr courseFdMaxPath resolved }, .ok slot)
      else if flags &&& courseFdOpenCreate = 0 then (table, .error .noSuchFile)
      else
        match table.fs.create resolved false with
        | (fs', false) => ({ table with fs := fs' }, .error .noSuchFile)
        | (fs', true) =>
          (({ table with fs := fs' } : CourseFdTable).setEntry slot
            { kind := .file, flags := flags, offset := 0
              path := fdCopyStr courseFdMaxPath resolved }, .ok slot)

def close (fd : ℤ) : CourseFdTable × Except CourseFdError Unit :=
  match table.fdEntry fd with
  | none => (table, .error .badFd)
  | some slot => if fd < 3 then (table, .error .badFd) else (table.setEntry slot {}, .ok ())

/-- `course_fd_read`; `procfs` is what `procfs_read` answers at the moment of the call. -/
def readFd (fd : ℤ) (size : ℕ)
    (procfs : List CourseChar → Option (List CourseChar)) :
    CourseFdTable × Except CourseFdError (List CourseChar) :=
  match table.fdEntry fd with
  | none => (table, .error .badFd)
  | some slot =>
    let entry := table.entries slot
    if entry.flags &&& courseFdOpenRead = 0 then (table, .error .permissionDenied)
    else
      match entry.kind with
      | .file =>
        match table.fs.fileSize entry.path with
        | none => (table, .error .noSuchFile)
        | some fileSize =>
          if fileSize ≤ entry.offset then (table, .ok [])
          else
            let size := if fileSize - entry.offset < size then fileSize - entry.offset else size
            match table.fs.read entry.path entry.offset size with
            | none => (table, .error .noSuchFile)
            | some out =>
              (table.setEntry slot { entry with offset := entry.offset + size }, .ok out)
      | .proc =>
        match procfs entry.path with
        | none => (table, .error .noSuchFile)
        | some text =>
          if text.length < entry.offset then (table, .ok [])
          else
            let size := if text.length - entry.offset < size then text.length - entry.offset else
              size
            (table.setEntry slot { entry with offset := entry.offset + size },
              .ok ((text.drop entry.offset).take size))
      | _ => (table, .error .badFd)

def writeFd (fd : ℤ) (data : List CourseChar) :
    CourseFdTable × Except CourseFdError ℕ :=
  match table.fdEntry fd with
  | none => (table, .error .badFd)
  | some slot =>
    let entry := table.entries slot
    if entry.flags &&& courseFdOpenWrite = 0 ∨ entry.kind = .proc then
      (table, .error .permissionDenied)
    else if entry.kind ≠ .file then (table, .error .noSuchFile)
    else
      match table.fs.write entry.path entry.offset data with
      | (fs', false) => ({ table with fs := fs' }, .error .noSuchFile)
      | (fs', true) =>
        (({ table with fs := fs' } : CourseFdTable).setEntry slot
          { entry with offset := entry.offset + data.length }, .ok data.length)

def seek (fd : ℤ) (offset : ℕ) :
    CourseFdTable × Except CourseFdError Unit :=
  match table.fdEntry fd with
  | none => (table, .error .badFd)
  | some slot =>
    if (table.entries slot).kind ≠ .file then (table, .error .permissionDenied)
    else (table.setEntry slot { table.entries slot with offset := offset }, .ok ())

def setCwd (path : List CourseChar) :
    CourseFdTable × Except CourseFdError Unit :=
  match courseFdResolvePath table.cwd path courseFdMaxPath with
  | none => (table, .error .invalidPath)
  | some resolved =>
    if table.fs.lookup resolved then
      ({ table with cwd := fdCopyStr courseFdMaxPath resolved }, .ok ())
    else (table, .error .invalidPath)

end CourseFdTable

/-- The calls on descriptors; a read comes with what the `/proc` nodes say then. -/
inductive CourseFdAction
  | openFd (path : List CourseChar) (flags : BitVec 32)
  | close (fd : ℤ)
  | read (fd : ℤ) (size : ℕ) (procfs : List CourseChar → Option (List CourseChar))
  | write (fd : ℤ) (data : List CourseChar)
  | seek (fd : ℤ) (offset : ℕ)
  | setCwd (path : List CourseChar)

/-- What a call answers. -/
inductive CourseFdAnswer
  | slot (fd : FdSlot)
  | done
  | bytes (out : List CourseChar)
  | written (size : ℕ)
  deriving DecidableEq

abbrev CourseFdResult := Except CourseFdError CourseFdAnswer

namespace CourseFdTable

def perform (table : CourseFdTable) : CourseFdAction → CourseFdTable × CourseFdResult
  | .openFd path flags => ((table.openFd path flags).1, (table.openFd path flags).2.map .slot)
  | .close fd => ((table.close fd).1, (table.close fd).2.map fun _ => .done)
  | .read fd size procfs =>
    ((table.readFd fd size procfs).1, (table.readFd fd size procfs).2.map .bytes)
  | .write fd data => ((table.writeFd fd data).1, (table.writeFd fd data).2.map .written)
  | .seek fd offset => ((table.seek fd offset).1, (table.seek fd offset).2.map fun _ => .done)
  | .setCwd path => ((table.setCwd path).1, (table.setCwd path).2.map fun _ => .done)

def run (table : CourseFdTable) (actions : List CourseFdAction) : CourseFdTable :=
  actions.foldl (fun table action => (table.perform action).1) table

def results (table : CourseFdTable) : List CourseFdAction → List CourseFdResult
  | [] => []
  | action :: rest => (table.perform action).2 :: (table.perform action).1.results rest

end CourseFdTable
end VisualCpu
