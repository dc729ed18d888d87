import VisualCpu.Library.Lists

/-!
# The overlay of the Linux layer

The read-only rootfs table with the thirty-two overlay nodes over it, the descriptors of the
runtime, and the calls that open, create, remove, rename, write and close files. A file of
the rootfs is copied into the overlay when it is first opened for writing.
-/

namespace VisualCpu

abbrev OverlaySlot := Fin 32
abbrev LinuxFdSlot := Fin 8
abbrev LinuxPath := List UInt8

namespace LinuxCompat

def slash : UInt8 := 47
def dot : UInt8 := 46

def maxPath : ℕ := 128
def maxOverlayFileSize : ℕ := 2048
def maxStdout : ℕ := 512
def atFdcwd : ℤ := -100

/-- `/dev/null`, `/dev/urandom` and `/dev/random`. -/
def devNullPath : LinuxPath := [47, 100, 101, 118, 47, 110, 117, 108, 108]
def devUrandomPath : LinuxPath := [47, 100, 101, 118, 47, 117, 114, 97, 110, 100, 111, 109]
def devRandomPath : LinuxPath := [47, 100, 101, 118, 47, 114, 97, 110, 100, 111, 109]

def oAccmode : BitVec 32 := 0o3
def oWronly : BitVec 32 := 0o1
def oRdwr : BitVec 32 := 0o2
def oCreat : BitVec 32 := 0o100
def oExcl : BitVec 32 := 0o200
def oTrunc : BitVec 32 := 0o1000
def oAppend : BitVec 32 := 0o2000
def oNonblock : BitVec 32 := 0o4000
def oLargefile : BitVec 32 := 0o100000
def oDirectory : BitVec 32 := 0o200000
def oNofollow : BitVec 32 := 0o400000
def oCloexec : BitVec 32 := 0o2000000
def fdCloexec : BitVec 32 := 1

def has (flags flag : BitVec 32) : Bool := flags &&& flag != 0

def openFlagsSupported (flags : BitVec 32) : Bool :=
  let supported := oAccmode ||| oCreat ||| oExcl ||| oTrunc ||| oAppend ||| oNonblock |||
    oLargefile ||| oDirectory ||| oNofollow ||| oCloexec
  flags &&& ~~~supported == 0 && (flags &&& oAccmode) ≤ oRdwr

def flagsWritable (flags : BitVec 32) : Bool :=
  flags &&& oAccmode == oWronly || flags &&& oAccmode == oRdwr

/-- `S_IFREG` with rw-r--r--, and `x` for all. -/
def fileMode (executable : Bool) : BitVec 32 :=
  if executable then 0o100755 else 0o100644

/-- `S_IFDIR` with rwxr-xr-x. -/
def dirMode : BitVec 32 := 0o040755

def sIxusr : BitVec 32 := 0o100

/-- `..` at the start of a string, at its end or before a slash. -/
def startsWithParent (path : LinuxPath) : Bool :=
  path.take 2 == [dot, dot] && (path.drop 2).head?.getD slash == slash

/-- `path_has_parent_reference`. -/
def pathHasParentReference (path : LinuxPath) : Bool :=
  startsWithParent path ||
    path.tails.any fun rest => rest.head? == some slash && startsWithParent rest.tail

/-- `skip_dot_slash_prefixes`. -/
def skipDotSlashPrefixes : LinuxPath → LinuxPath
  | a :: b :: rest => if a = dot ∧ b = slash then skipDotSlashPrefixes rest else a :: b :: rest
  | path => path

/-- `linux_compat_split_parent`: the part before the last slash and the name after it. -/
def splitParent (path : LinuxPath) : Option (LinuxPath × LinuxPath) :=
  if path.head? ≠ some slash ∨ path.length ≤ 1 ∨ path.getLast? = some slash then none
  else
    let name := (path.reverse.takeWhile (· != slash)).reverse
    let parent := (path.reverse.dropWhile (· != slash)).tail.reverse
    if parent = [] then some ([slash], name)
    else if maxPath ≤ parent.length + 1 ∨ maxPath < path.length - parent.length then none
    else some (parent, name)

end LinuxCompat

structure LinuxRootfsNode where
  path : LinuxPath
  data : List UInt8
  (executable directory : Bool)
  inode : BitVec 64
  mode : BitVec 32
deriving DecidableEq

structure LinuxOverlayNode where
  used : Bool := false
  directory : Bool := false
  executable : Bool := false
  dirty : Bool := false
  inode : BitVec 64 := 0
  mode : BitVec 32 := 0
  nlink : BitVec 32 := 0
  openCount : BitVec 32 := 0
  mtime : BitVec 64 := 0
  path : LinuxPath := []
  data : Fin LinuxCompat.maxOverlayFileSize → UInt8 := fun _ => 0
  size : ℕ := 0

/-- What a descriptor points to. -/
inductive LinuxNodeRef where
  | overlay (i : OverlaySlot)
  | lower (node : LinuxRootfsNode)

structure LinuxFd where
  isOpen : Bool := false
  node : Option LinuxNodeRef := none
  offset : ℕ := 0
  flags : BitVec 32 := 0
  fdFlags : BitVec 32 := 0
  devNull : Bool := false
  devRandom : Bool := false

/-- With a guest address space, `vm`, paths and buffers are read from user memory. -/
structure LinuxRuntime where
  vm : Bool
  fds : LinuxFdSlot → LinuxFd
  stdout : List UInt8
  overlayNodes : OverlaySlot → LinuxOverlayNode
  (nextOverlayInode nextOverlayMtime : BitVec 64)
  cwd : LinuxPath

/-- The value of a call with the trace that it leaves. -/
structure LinuxReply where
  value : ℤ
  path : LinuxPath
  errno : ℕ
  message : String

def LinuxReply.refuse (path : LinuxPath) (errno : ℕ) (message : String) : LinuxReply :=
  ⟨-errno, path, errno, message⟩

def LinuxReply.ok (value : ℤ) (path : LinuxPath) (message : String) : LinuxReply :=
  ⟨value, path, 0, message⟩

namespace LinuxRuntime

open LinuxCompat

/-- `linux_compat_runtime_init`, for the parts that the calls below use. -/
def init (vm : Bool) : LinuxRuntime where
  vm := vm
  fds _ := {}
  stdout := []
  overlayNodes _ := {}
  nextOverlayInode := 0x100000
  nextOverlayMtime := 1
  cwd := [slash]

/-- `find_node`. -/
def findNode (rootfs : List LinuxRootfsNode) (path : LinuxPath) : Option LinuxRootfsNode :=
  if path = [] then none else rootfs.find? fun node => path == node.path

variable (rootfs : List LinuxRootfsNode) (runtime : LinuxRuntime)

variable (i : OverlaySlot)

def setNode (node : LinuxOverlayNode) : LinuxRuntime :=
  { runtime with overlayNodes := Function.update runtime.overlayNodes i node }

def setFd (i : LinuxFdSlot) (fd : LinuxFd) : LinuxRuntime :=
  { runtime with fds := Function.update runtime.fds i fd }

/-- `resolve_runtime_path`. -/
def resolveRuntimePath (raw : LinuxPath) : Option LinuxPath :=
  let cwd := if runtime.cwd.head? = some slash then runtime.cwd else [slash]
  let relative := skipDotSlashPrefixes raw
  if raw = [] ∨ pathHasParentReference raw then none
  else if raw.head? = some slash then
    if maxPath < raw.length + 1 then none else some raw
  else if relative = [] ∨ relative = [dot] then
    if maxPath < cwd.length + 1 then none else some cwd
  else if maxPath < cwd.length + relative.length + 2 then none
  else some (cwd ++ (if 1 < cwd.length then [slash] else []) ++ relative)

variable (path : LinuxPath)

/-- `linux_compat_copy_in_path`; from user memory one byte less fits. -/
def copyInPath : Option LinuxPath :=
  if (if runtime.vm then maxPath - 1 else maxPath) < path.length + 1 then none
  else runtime.resolveRuntimePath path

/-- `find_overlay_node`. -/
def findOverlayNode : Option OverlaySlot :=
  firstSlot fun i => (runtime.overlayNodes i).used && (runtime.overlayNodes i).path == path

/-- `path_is_directory`. -/
def pathIsDirectory : Bool :=
  match runtime.findOverlayNode path with
  | some i => (runtime.overlayNodes i).directory
  | none =>
    match findNode rootfs path with
    | some node => node.directory
    | none => false

/-- `path_exists`. -/
def pathExists : Bool :=
  (runtime.findOverlayNode path).isSome || (findNode rootfs path).isSome

/-- `parent_directory_exists`. -/
def parentDirectoryExists : Bool :=
  match splitParent path with
  | none => false
  | some (parent, _) => runtime.pathIsDirectory rootfs parent

/-- `alloc_overlay_node`: the first node that is not used gets the path and one link. -/
def allocOverlayNode (directory : Bool) (mode : BitVec 32) :
    Option (OverlaySlot × LinuxRuntime) :=
  if maxPath ≤ path.length then none
  else
    match firstSlot fun i => !(runtime.overlayNodes i).used with
    | none => none
    | some i =>
      let node : LinuxOverlayNode := {
        used := true
        directory := directory
        executable := has mode sIxusr
        dirty := true
        inode := runtime.nextOverlayInode
        mode := mode
        nlink := 1
        mtime := runtime.nextOverlayMtime
        path := path }
      some (i, { runtime.setNode i node with
        nextOverlayInode := runtime.nextOverlayInode + 1
        nextOverlayMtime := runtime.nextOverlayMtime + 1 })

/-- A node changed, with `overlay_touch`. -/
def touchWith (node : LinuxOverlayNode) : LinuxRuntime :=
  { runtime.setNode i { node with mtime := runtime.nextOverlayMtime } with
    nextOverlayMtime := runtime.nextOverlayMtime + 1 }

/-- `overlay_retain_open`. -/
def overlayRetainOpen : LinuxRuntime :=
  runtime.setNode i { runtime.overlayNodes i with
    openCount := (runtime.overlayNodes i).openCount + 1 }

/-- `overlay_release_open`: the last close of a node without a link frees it. -/
def overlayReleaseOpen : LinuxRuntime :=
  let node := runtime.overlayNodes i
  let openCount := if node.openCount ≠ 0 then node.openCount - 1 else node.openCount
  runtime.setNode i { node with
    openCount := openCount
    used := if openCount = 0 ∧ node.nlink = 0 then false else node.used }

/-- `overlay_drop_link`: the node loses its path; it stays while it is open. -/
def overlayDropLink : LinuxRuntime :=
  let node := runtime.overlayNodes i
  runtime.touchWith i { node with
    nlink := 0
    path := []
    dirty := true
    used := if node.openCount = 0 then false else node.used }

/-- The first free descriptor above the three standard ones. -/
def freeFd : Option LinuxFdSlot :=
  firstSlot fun i => decide (3 ≤ i.val) && !(runtime.fds i).isOpen

def openedFd (flags : BitVec 32) : LinuxFd where
  isOpen := true
  flags := flags &&& ~~~oCloexec
  fdFlags := if has flags oCloexec then fdCloexec else 0

/-- A descriptor of one of the devices. -/
def openDevice (fd : LinuxFd) (message : String) : LinuxRuntime × LinuxReply :=
  match runtime.freeFd with
  | none => (runtime, .refuse path 24 "linux-compat: openat: fd table full")
  | some i => (runtime.setFd i fd, .ok i.val path message)

/-- The end of `linux_compat_openat`, from the test of overlay directories on. -/
def openTarget (flags : BitVec 32) :
    LinuxNodeRef → LinuxRuntime × LinuxReply
  | .lower node =>
    match runtime.freeFd with
    | none => (runtime, .refuse path 24 "linux-compat: openat: fd table full")
    | some fd =>
      (runtime.setFd fd { openedFd flags with node := some (.lower node) },
        .ok fd.val path "linux-compat: openat: ok")
  | .overlay i =>
    if (runtime.overlayNodes i).directory && flagsWritable flags then
      (runtime, .refuse path 21 "linux-compat: openat: is directory")
    else
      let truncated :=
        if has flags oTrunc then
          runtime.touchWith i { runtime.overlayNodes i with size := 0, dirty := true }
        else runtime
      match truncated.freeFd with
      | none => (truncated, .refuse path 24 "linux-compat: openat: fd table full")
      | some fd =>
        ((truncated.setFd fd { openedFd flags with node := some (.overlay i) }).overlayRetainOpen i,
          .ok fd.val path "linux-compat: openat: overlay")

def copyUp (node : LinuxRootfsNode) : LinuxRuntime :=
  runtime.setNode i { runtime.overlayNodes i with
    size := min node.data.length maxOverlayFileSize
    data := fun k => if k.val < min node.data.length maxOverlayFileSize then node.data.getD k.val 0
      else (runtime.overlayNodes i).data k }

/-- The part of `linux_compat_openat` for a path that is no device. -/
def openPath (flags : BitVec 32) : LinuxRuntime × LinuxReply :=
  match runtime.findOverlayNode path with
  | some i =>
    if has flags oCreat && has flags oExcl then
      (runtime, .refuse path 17 "linux-compat: openat: exclusive exists")
    else if has flags oDirectory && !(runtime.overlayNodes i).directory then
      (runtime, .refuse path 20 "linux-compat: openat: not directory")
    else runtime.openTarget path flags (.overlay i)
  | none =>
    match findNode rootfs path with
    | some node =>
      if has flags oCreat && has flags oExcl then
        (runtime, .refuse path 17 "linux-compat: openat: exclusive exists")
      else if has flags oDirectory && !node.directory then
        (runtime, .refuse path 20 "linux-compat: openat: not directory")
      else if flagsWritable flags then
        if node.directory then (runtime, .refuse path 21 "linux-compat: openat: is directory")
        else
          match runtime.allocOverlayNode path false node.mode with
          | none => (runtime, .refuse path 28 "linux-compat: openat: overlay full")
          | some (i, runtime') =>
            (if has flags oTrunc then runtime' else runtime'.copyUp i node).openTarget path flags
              (.overlay i)
      else runtime.openTarget path flags (.lower node)
    | none =>
      if !has flags oCreat then (runtime, .refuse path 2 "linux-compat: openat: no such file")
      else if !runtime.parentDirectoryExists rootfs path then
        (runtime, .refuse path 2 "linux-compat: openat: parent missing")
      else
        match runtime.allocOverlayNode path false (fileMode false) with
        | none => (runtime, .refuse path 28 "linux-compat: openat: overlay full")
        | some (i, runtime') => runtime'.openTarget path flags (.overlay i)

/-- `linux_compat_openat`. -/
def openat (dirfd : ℤ) (path : LinuxPath) (flags : BitVec 32) : LinuxRuntime × LinuxReply :=
  if dirfd ≠ atFdcwd then
    (runtime, .refuse path 22 "linux-compat: openat: unsupported path base")
  else
    match runtime.copyInPath path with
    | none => (runtime, .refuse [] 14 "linux-compat: openat: bad path")
    | some resolved =>
      if resolved.head? ≠ some slash then
        (runtime, .refuse resolved 22 "linux-compat: openat: unsupported path base")
      else if !openFlagsSupported flags then
        (runtime, .refuse resolved 22 "linux-compat: openat: unsupported flags")
      else if resolved = devNullPath then
        if has flags oDirectory then
          (runtime, .refuse resolved 20 "linux-compat: openat: not directory")
        else
          runtime.openDevice resolved { openedFd flags with devNull := true }
            "linux-compat: openat: dev-null"
      else if resolved = devUrandomPath ∨ resolved = devRandomPath then
        if has flags oDirectory then
          (runtime, .refuse resolved 20 "linux-compat: openat: not directory")
        else if flagsWritable flags then
          (runtime, .refuse resolved 13 "linux-compat: openat: random not writable")
        else
          runtime.openDevice resolved { openedFd flags with devRandom := true }
            "linux-compat: openat: dev-random"
      else runtime.openPath rootfs resolved flags

/-- `linux_compat_mkdirat`; the mode argument is not used. -/
def mkdirat (dirfd : ℤ) (path : LinuxPath) : LinuxRuntime × LinuxReply :=
  if dirfd ≠ atFdcwd then
    (runtime, .refuse path 22 "linux-compat: mkdirat: unsupported path base")
  else
    match runtime.copyInPath path with
    | none => (runtime, .refuse [] 14 "linux-compat: mkdirat: bad path")
    | some resolved =>
      if resolved.head? ≠ some slash then
        (runtime, .refuse resolved 22 "linux-compat: mkdirat: unsupported path base")
      else if runtime.pathExists rootfs resolved then
        (runtime, .refuse resolved 17 "linux-compat: mkdirat: exists")
      else if !runtime.parentDirectoryExists rootfs resolved then
        (runtime, .refuse resolved 2 "linux-compat: mkdirat: parent missing")
      else
        match runtime.allocOverlayNode resolved true dirMode with
        | none => (runtime, .refuse resolved 28 "linux-compat: mkdirat: overlay full")
        | some (_, runtime') => (runtime', .ok 0 resolved "linux-compat: mkdirat")

/-- `linux_compat_unlinkat`. -/
def unlinkat (dirfd : ℤ) (path : LinuxPath) : LinuxRuntime × LinuxReply :=
  if dirfd ≠ atFdcwd then
    (runtime, .refuse path 22 "linux-compat: unlinkat: unsupported path base")
  else
    match runtime.copyInPath path with
    | none => (runtime, .refuse [] 14 "linux-compat: unlinkat: bad path")
    | some resolved =>
      match runtime.findOverlayNode resolved with
      | some i =>
        if (runtime.overlayNodes i).directory then
          (runtime, .refuse resolved 21 "linux-compat: unlinkat: is directory")
        else (runtime.overlayDropLink i, .ok 0 resolved "linux-compat: unlinkat")
      | none =>
        if (findNode rootfs resolved).isSome then
          (runtime, .refuse resolved 30 "linux-compat: unlinkat: readonly lower")
        else (runtime, .refuse resolved 2 "linux-compat: unlinkat: no such file")

def moveNode (source : OverlaySlot) (path : LinuxPath) : LinuxRuntime :=
  let cleared :=
    match runtime.findOverlayNode path with
    | some target => if target ≠ source then runtime.overlayDropLink target else runtime
    | none => runtime
  cleared.touchWith source { cleared.overlayNodes source with
    path := path
    nlink := 1
    dirty := true }

/-- `linux_compat_renameat`. -/
def renameat (dirfd : ℤ) (oldPath newPath : LinuxPath) : LinuxRuntime × LinuxReply :=
  if dirfd ≠ atFdcwd then
    (runtime, .refuse oldPath 22 "linux-compat: renameat: unsupported path base")
  else
    match runtime.copyInPath oldPath, runtime.copyInPath newPath with
    | some oldResolved, some newResolved =>
      if oldResolved.head? ≠ some slash ∨ newResolved.head? ≠ some slash then
        (runtime, .refuse oldResolved 22 "linux-compat: renameat: unsupported path base")
      else
        match runtime.findOverlayNode oldResolved with
        | none =>
          if (findNode rootfs oldResolved).isSome then
            (runtime, .refuse oldResolved 30 "linux-compat: renameat: readonly lower")
          else (runtime, .refuse oldResolved 2 "linux-compat: renameat: no such file")
        | some source =>
          if !runtime.parentDirectoryExists rootfs newResolved then
            (runtime, .refuse newResolved 2 "linux-compat: renameat: parent missing")
          else if (findNode rootfs newResolved).isSome &&
              (runtime.findOverlayNode newResolved).isNone then
            (runtime, .refuse newResolved 30 "linux-compat: renameat: readonly lower target")
          else
            (runtime.moveNode source newResolved,
              .ok 0 oldResolved "linux-compat: renameat")
    | _, _ => (runtime, .refuse [] 14 "linux-compat: renameat: bad path")

/-- The descriptor of a number from three on. -/
def fdSlot (fd : ℤ) : Option LinuxFdSlot :=
  if h : 3 ≤ fd ∧ fd < 8 then some ⟨fd.toNat, by omega⟩ else none

/-- `fd_path`. -/
def fdPath (fd : LinuxFd) : LinuxPath :=
  if fd.isOpen && fd.devNull then devNullPath
  else if fd.isOpen && fd.devRandom then devUrandomPath
  else if fd.isOpen then
    match fd.node with
    | some (.overlay i) => (runtime.overlayNodes i).path
    | some (.lower node) => node.path
    | none => []
  else []

/-- How many bytes of a buffer are copied in chunks of 64 before one cannot be read; all of a
buffer without a guest address space. -/
def copiedLength (length readable : ℕ) : ℕ :=
  if runtime.vm = false ∨ length ≤ readable then length else readable / 64 * 64

/-- The branch of `linux_compat_write` for an overlay file. -/
def writeOverlay (slot : LinuxFdSlot) (i : OverlaySlot) (buffer : List UInt8) (readable : ℕ) :
    LinuxRuntime × LinuxReply :=
  let fd := runtime.fds slot
  let node := runtime.overlayNodes i
  if node.directory then (runtime, .refuse node.path 21 "linux-compat: write: is directory")
  else
    let offset := if has fd.flags oAppend then node.size else fd.offset
    let placed := runtime.setFd slot { fd with offset := offset }
    if maxOverlayFileSize < offset ∨ maxOverlayFileSize - offset < buffer.length then
      (placed, .refuse node.path 28 "linux-compat: write: overlay file full")
    else
      let copied := runtime.copiedLength buffer.length readable
      let filled := { node with
        data := fun k =>
          if offset ≤ k.val ∧ k.val < offset + copied then buffer.getD (k.val - offset) 0
          else node.data k }
      if copied < buffer.length then
        (placed.setNode i filled, .refuse node.path 14 "linux-compat: write: bad user buffer")
      else
        let stop := offset + buffer.length
        let grown := { filled with size := max stop node.size, dirty := true }
        ((placed.setFd slot { fd with offset := stop }).touchWith i grown,
          .ok buffer.length node.path "linux-compat: write: overlay")

/-- `linux_compat_write` on a runtime without pipes; `readable` bytes of the buffer can be read
from user memory. -/
def write (fd : ℤ) (buffer : List UInt8) (readable : ℕ) : LinuxRuntime × LinuxReply :=
  if 3 ≤ fd then
    match fdSlot fd with
    | none => (runtime, .refuse [] 9 "linux-compat: write: bad fd")
    | some slot =>
      let entry := runtime.fds slot
      if entry.isOpen && entry.devNull then
        if !flagsWritable entry.flags then
          (runtime, .refuse devNullPath 9 "linux-compat: write: fd not writable")
        else if runtime.copiedLength buffer.length readable < buffer.length then
          (runtime, .refuse devNullPath 14 "linux-compat: write: bad user buffer")
        else (runtime, .ok buffer.length devNullPath "linux-compat: write: dev-null")
      else
        match if entry.isOpen then entry.node else none with
        | none => (runtime, .refuse [] 9 "linux-compat: write: bad fd")
        | some (.lower _) =>
          (runtime, .refuse (runtime.fdPath entry) 9 "linux-compat: write: fd not writable")
        | some (.overlay i) =>
          if !flagsWritable entry.flags then
            (runtime, .refuse (runtime.fdPath entry) 9 "linux-compat: write: fd not writable")
          else runtime.writeOverlay slot i buffer readable
  else if fd ≠ 1 ∧ fd ≠ 2 then (runtime, .refuse [] 9 "linux-compat: write: bad fd")
  else
    let copied := runtime.copiedLength buffer.length readable
    let shown := { runtime with
      stdout := (runtime.stdout ++ buffer.take copied).take (maxStdout - 1) }
    if copied < buffer.length then
      (shown, .refuse [] 14 "linux-compat: write: bad user buffer")
    else (shown, .ok buffer.length [] "linux-compat: write: ok")

/-- `linux_compat_close`. -/
def close (fd : ℤ) : LinuxRuntime × LinuxReply :=
  match fdSlot fd with
  | none => (runtime, .refuse [] 9 "linux-compat: close: bad fd")
  | some slot =>
    if !(runtime.fds slot).isOpen then (runtime, .refuse [] 9 "linux-compat: close: bad fd")
    else
      let released :=
        match (runtime.fds slot).node with
        | some (.overlay i) => runtime.overlayReleaseOpen i
        | _ => runtime
      (released.setFd slot {}, .ok 0 [] "linux-compat: close: ok")

end LinuxRuntime
end VisualCpu
