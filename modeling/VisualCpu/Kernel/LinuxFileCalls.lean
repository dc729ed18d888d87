import VisualCpu.Kernel.LinuxDescriptors

/-!
# Offsets, lengths and directory entries

The calls of the Linux layer that move the offset of a descriptor, change the length of a file
or list a directory, and those that read and write at a given offset.
-/

namespace VisualCpu

namespace LinuxCompat

/-- The size of a directory entry in the user buffer. -/
def direntSize : ℕ := 152

def dtDir : ℕ := 4
def dtReg : ℕ := 8

/-- `copy_basename_if_child`: the name of a path directly below another one. -/
def basenameIfChild (parent child : LinuxPath) : Option LinuxPath :=
  let start := if parent = [slash] then 1 else parent.length + 1
  let name := child.drop start
  if parent = child ∨ name = [] ∨ slash ∈ name ∨ maxPath ≤ name.length ∨
      child.take start ≠ (if parent = [slash] then [slash] else parent ++ [slash]) then none
  else some name

end LinuxCompat

structure LinuxDirent where
  inode : BitVec 64
  (offset recordLength type : ℕ)
  name : LinuxPath

namespace LinuxIo

open LinuxCompat LinuxRuntime

variable (rootfs : List LinuxRootfsNode) (io : LinuxIo)

/-- `fd_is_valid_file`, with the node of the descriptor. -/
def validFile (slot : LinuxFdSlot) : Option LinuxNodeRef :=
  if io.isOpen slot && !(io.ends slot).pipeNode then (io.runtime.fds slot).node else none

/-- `linux_compat_lseek`. -/
def lseek (fd offset : ℤ) (whence : ℕ) : LinuxIo × LinuxResult :=
  match fdSlot fd with
  | none => (io, ⟨.refuse [] 9 "linux-compat: lseek: bad fd", []⟩)
  | some slot =>
    match io.validFile slot with
    | none => (io, ⟨.refuse [] 9 "linux-compat: lseek: bad fd", []⟩)
    | some node =>
      let path := io.runtime.fdPath (io.runtime.fds slot)
      if io.nodeIsDirectory node then
        (io, ⟨.refuse path 22 "linux-compat: lseek: is directory", []⟩)
      else if 2 < whence then (io, ⟨.refuse path 22 "linux-compat: lseek: bad whence", []⟩)
      else
        let base : ℕ :=
          if whence = 0 then 0
          else if whence = 1 then (io.runtime.fds slot).offset
          else (io.nodeBytes node).length
        if base + offset < 0 then (io, ⟨.refuse path 22 "linux-compat: lseek: bad offset", []⟩)
        else
          (io.setOffset slot (base + offset).toNat,
            ⟨.ok (base + offset) path "linux-compat: lseek: ok", []⟩)

def writableNode (slot : LinuxFdSlot) : Option OverlaySlot :=
  match io.validFile slot with
  | some (.overlay i) => if flagsWritable (io.runtime.fds slot).flags then some i else none
  | _ => none

/-- `linux_compat_ftruncate`: the bytes behind a shorter length stay in the node. -/
def ftruncate (fd : ℤ) (length : ℕ) : LinuxIo × LinuxResult :=
  match (fdSlot fd).bind fun slot => (io.writableNode slot).map fun i => (slot, i) with
  | none => (io, ⟨.refuse [] 9 "linux-compat: ftruncate: bad fd", []⟩)
  | some (slot, i) =>
    let node := io.runtime.overlayNodes i
    if node.directory then (io, ⟨.refuse node.path 22 "linux-compat: ftruncate: is directory", []⟩)
    else if maxOverlayFileSize < length then
      (io, ⟨.refuse node.path 27 "linux-compat: ftruncate: too large", []⟩)
    else
      let resized := { node with
        data := fun k => if node.size ≤ k.val ∧ k.val < length then 0 else node.data k
        size := length
        dirty := true }
      (({ io with runtime := io.runtime.touchWith i resized }).setOffset slot
          (min (io.runtime.fds slot).offset length),
        ⟨.ok 0 node.path "linux-compat: ftruncate", []⟩)

/-- The entries of a directory: those of the rootfs that no overlay node covers, then those of
the overlay, with inode, kind and name. -/
def directoryEntries (path : LinuxPath) : List (BitVec 64 × Bool × LinuxPath) :=
  (rootfs.filterMap fun child =>
    if (io.runtime.findOverlayNode child.path).isSome then none
    else (basenameIfChild path child.path).map fun name => (child.inode, child.directory, name)) ++
  (List.finRange 32).filterMap fun i =>
    if !(io.runtime.overlayNodes i).used then none
    else (basenameIfChild path (io.runtime.overlayNodes i).path).map fun name =>
      ((io.runtime.overlayNodes i).inode, (io.runtime.overlayNodes i).directory, name)

def direntRecords (start : ℕ) (entries : List (BitVec 64 × Bool × LinuxPath)) :
    List LinuxDirent :=
  entries.mapIdx fun k entry => {
    inode := entry.1
    offset := start + k + 1
    recordLength := direntSize
    type := if entry.2.1 then dtDir else dtReg
    name := entry.2.2 }

/-- `linux_compat_getdents64` with the records that it puts into the buffer of a given size. -/
def getdents64 (fd : ℤ) (dest : UserDest) (size : ℕ) :
    LinuxIo × LinuxResult × List LinuxDirent :=
  match fdSlot fd with
  | none => (io, ⟨.refuse [] 9 "linux-compat: getdents64: bad fd", []⟩, [])
  | some slot =>
    match io.validFile slot with
    | none => (io, ⟨.refuse [] 9 "linux-compat: getdents64: bad fd", []⟩, [])
    | some node =>
      let path := io.runtime.fdPath (io.runtime.fds slot)
      let start := (io.runtime.fds slot).offset
      if !io.nodeIsDirectory node then
        (io, ⟨.refuse path 20 "linux-compat: getdents64: not directory", []⟩, [])
      else if dest.null || decide (size < direntSize) then
        (io, ⟨.refuse path 22 "linux-compat: getdents64: bad buffer", []⟩, [])
      else
        let entries :=
          ((io.directoryEntries rootfs path).drop start).take (size / direntSize)
        if !io.writeResultBuffer dest 0 (entries.length * direntSize) then
          (io, ⟨.refuse path 14 "linux-compat: getdents64: bad buffer", []⟩, [])
        else
          (io.setOffset slot (start + entries.length),
            ⟨.ok (entries.length * direntSize : ℕ) path "linux-compat: getdents64: ok", []⟩,
            direntRecords start entries)

end LinuxIo
end VisualCpu
