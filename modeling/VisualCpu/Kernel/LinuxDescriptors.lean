import VisualCpu.Kernel.LinuxOverlay

/-!
# Descriptors of the Linux layer

The descriptor table with its pipe ends, the four pipes and the standard input, over the files
of the overlay. A descriptor is duplicated by copying its slot.
-/

namespace VisualCpu

abbrev PipeSlot := Fin 4

namespace LinuxCompat

def maxPipeSize : ℕ := 512

def flagsReadable (flags : BitVec 32) : Bool :=
  flags &&& oAccmode == 0 || flags &&& oAccmode == oRdwr

/-- `stdin`, the name in the traces of the standard input. -/
def stdinName : LinuxPath := [115, 116, 100, 105, 110]

end LinuxCompat

/-- The pipe fields of a descriptor. -/
structure LinuxPipeEnd where
  pipeNode : Bool := false
  pipeRead : Bool := false
  pipeWrite : Bool := false
  pipeIndex : PipeSlot := 0

/-- `data` is the part of the buffer below `size`; `readOffset` is where the next read starts. -/
structure LinuxPipe where
  used : Bool := false
  data : List UInt8 := []
  readOffset : ℕ := 0

/-- A user buffer that a call fills: `writable` bytes of it can be written. -/
structure UserDest where
  null : Bool
  writable : ℕ

/-- A user buffer that a call reads: `readable` bytes of it can be read. -/
structure UserSource where
  null : Bool
  bytes : List UInt8
  readable : ℕ

/-- The runtime with its pipe ends, the pipes and the inputs. Without a text the standard input
is what waits at the UART. -/
structure LinuxIo where
  runtime : LinuxRuntime
  ends : LinuxFdSlot → LinuxPipeEnd
  pipes : PipeSlot → LinuxPipe
  stdinText : Option (List UInt8)
  stdinOffset : ℕ
  uart : List UInt8
  random : BitVec 32

/-- The value of a call with its trace, and the bytes that it put into the user buffer. -/
structure LinuxResult where
  reply : LinuxReply
  bytes : List UInt8 := []

namespace LinuxIo

open LinuxCompat LinuxRuntime

variable (io : LinuxIo)

/-- `linux_compat_runtime_init`. -/
def init (vm : Bool) (stdinText : Option (List UInt8)) (uart : List UInt8) : LinuxIo where
  runtime := LinuxRuntime.init vm
  ends _ := {}
  pipes _ := {}
  stdinText := stdinText
  stdinOffset := 0
  uart := uart
  random := 0x4d594350

variable (slot : LinuxFdSlot)

def isOpen : Bool := (io.runtime.fds slot).isOpen

variable (dest : UserDest)

/-- `linux_compat_write_result_buffer` for the bytes from `start` on. -/
def writeResultBuffer (start count : ℕ) : Bool :=
  if io.runtime.vm then decide (start + count ≤ dest.writable) else !dest.null || count == 0

/-- `linux_compat_fd_valid`. -/
def fdValid (fd : ℤ) : Option LinuxFdSlot :=
  if h : 0 ≤ fd ∧ fd < 8 then
    let slot : LinuxFdSlot := ⟨fd.toNat, by omega⟩
    if fd < 3 ∨ io.isOpen slot then some slot else none
  else none

/-- `fd_is_valid_pipe` with the pipe of the descriptor. -/
def fdIsValidPipe : Bool :=
  io.isOpen slot && (io.ends slot).pipeNode && (io.pipes (io.ends slot).pipeIndex).used

def setPipe (i : PipeSlot) (pipe : LinuxPipe) : LinuxIo :=
  { io with pipes := Function.update io.pipes i pipe }

/-- A slot gets other contents. -/
def putFd (fd : LinuxFd) (ends : LinuxPipeEnd) : LinuxIo :=
  { io with
    runtime := io.runtime.setFd slot fd
    ends := Function.update io.ends slot ends }

/-- `linux_compat_close_fd_slot`. -/
def closeFdSlot : LinuxIo :=
  if !io.isOpen slot then io
  else
    let released :=
      match (io.runtime.fds slot).node with
      | some (.overlay i) => io.runtime.overlayReleaseOpen i
      | _ => io.runtime
    { io with runtime := released }.putFd slot {} {}

/-- `linux_compat_close`. -/
def close (fd : ℤ) : LinuxIo × LinuxResult :=
  match fdSlot fd with
  | none => (io, ⟨.refuse [] 9 "linux-compat: close: bad fd", []⟩)
  | some slot =>
    if !io.isOpen slot then (io, ⟨.refuse [] 9 "linux-compat: close: bad fd", []⟩)
    else (io.closeFdSlot slot, ⟨.ok 0 [] "linux-compat: close: ok", []⟩)

/-- A descriptor that points to an overlay node takes a reference to it. -/
def retainFd : LinuxIo :=
  match (io.runtime.fds slot).node with
  | some (.overlay i) => { io with runtime := io.runtime.overlayRetainOpen i }
  | _ => io

/-- `linux_compat_dup3`. -/
def dup3 (oldFd newFd : ℤ) (flags : BitVec 32) : LinuxIo × LinuxResult :=
  match io.fdValid oldFd, fdSlot newFd with
  | some old, some new =>
    if oldFd = newFd ∨ flags &&& ~~~oCloexec ≠ 0 then
      (io, ⟨.refuse [] 22 "linux-compat: dup3: bad args", []⟩)
    else
      let closed := io.closeFdSlot new
      let copied := closed.putFd new { closed.runtime.fds old with
        isOpen := true
        fdFlags := if has flags oCloexec then fdCloexec else 0 } (closed.ends old)
      (copied.retainFd new, ⟨.ok newFd [] "linux-compat: dup3", []⟩)
  | _, _ => (io, ⟨.refuse [] 9 "linux-compat: dup3: bad fd", []⟩)

/-- The first free descriptor from a number on, never one of the standard three. -/
def freeFdFrom (start : ℕ) : Option LinuxFdSlot :=
  firstSlot fun i => decide (start ≤ i.val) && decide (3 ≤ i.val) && !io.isOpen i

/-- `linux_compat_fcntl` with `F_DUPFD`. The slot is copied as it is: an overlay node gets no
further reference. -/
def dupFd (fd : ℤ) (arg : ℕ) : LinuxIo × LinuxResult :=
  match io.fdValid fd with
  | none => (io, ⟨.refuse [] 9 "linux-compat: fcntl: bad fd", []⟩)
  | some old =>
    if 8 ≤ arg then (io, ⟨.refuse [] 22 "linux-compat: fcntl: bad dup base", []⟩)
    else
      match io.freeFdFrom arg with
      | none => (io, ⟨.refuse [] 24 "linux-compat: fcntl: fd table full", []⟩)
      | some new =>
        (io.putFd new { io.runtime.fds old with isOpen := true } (io.ends old),
          ⟨.ok new.val [] "linux-compat: fcntl: dupfd", []⟩)

/-- `alloc_pipe_slot`. -/
def allocPipeSlot : Option PipeSlot := firstSlot fun i => !(io.pipes i).used

/-- The other fields of a free slot are kept. -/
def openPipeEnd (access flags : BitVec 32) (ends : LinuxPipeEnd) :
    LinuxIo :=
  io.putFd slot { io.runtime.fds slot with
    isOpen := true
    flags := access ||| (flags &&& oNonblock)
    fdFlags := if has flags oCloexec then fdCloexec else 0 } ends

/-- `linux_compat_pipe2`; the two numbers take eight bytes of the user buffer. -/
def pipe2 (flags : BitVec 32) : LinuxIo × LinuxResult :=
  if dest.null then (io, ⟨.refuse [] 14 "linux-compat: pipe2: bad buffer", []⟩)
  else if flags &&& ~~~(oNonblock ||| oCloexec) ≠ 0 then
    (io, ⟨.refuse [] 22 "linux-compat: pipe2: bad flags", []⟩)
  else
    match io.freeFdFrom 3, io.allocPipeSlot with
    | some readFd, some pipe =>
      match io.freeFdFrom (readFd.val + 1) with
      | none => (io, ⟨.refuse [] 24 "linux-compat: pipe2: fd table full", []⟩)
      | some writeFd =>
        if !io.writeResultBuffer dest 0 8 then
          (io, ⟨.refuse [] 14 "linux-compat: pipe2: bad buffer", []⟩)
        else
          let placed := io.setPipe pipe { used := true, data := [], readOffset := 0 }
          let opened := placed.openPipeEnd readFd 0 flags ⟨true, true, false, pipe⟩
          (opened.openPipeEnd writeFd oWronly flags ⟨true, false, true, pipe⟩,
            ⟨.ok 0 [] "linux-compat: pipe2", []⟩)
    | _, _ => (io, ⟨.refuse [] 24 "linux-compat: pipe2: table full", []⟩)

/-- `linux_compat_pipe_read`. -/
def pipeRead (dest : UserDest) (length : ℕ) : LinuxIo × LinuxResult :=
  let i := (io.ends slot).pipeIndex
  let pipe := io.pipes i
  let count := min length (pipe.data.length - pipe.readOffset)
  if !io.fdIsValidPipe slot || !(io.ends slot).pipeRead then
    (io, ⟨.refuse [] 9 "linux-compat: pipe read: bad fd", []⟩)
  else if (dest.null && length != 0) || !io.writeResultBuffer dest 0 count then
    (io, ⟨.refuse [] 14 "linux-compat: pipe read: bad buffer", []⟩)
  else
    let next := pipe.readOffset + count
    (io.setPipe i (if next = pipe.data.length then { pipe with data := [], readOffset := 0 }
        else { pipe with readOffset := next }),
      ⟨.ok count [] "linux-compat: pipe read", (pipe.data.drop pipe.readOffset).take count⟩)

/-- `linux_compat_pipe_write`: the chunks before one that cannot be read stay in the pipe. -/
def pipeWrite (source : UserSource) : LinuxIo × LinuxResult :=
  let i := (io.ends slot).pipeIndex
  let pipe := io.pipes i
  if !io.fdIsValidPipe slot || !(io.ends slot).pipeWrite then
    (io, ⟨.refuse [] 9 "linux-compat: pipe write: bad fd", []⟩)
  else if source.null && source.bytes != [] then
    (io, ⟨.refuse [] 14 "linux-compat: pipe write: bad buffer", []⟩)
  else if maxPipeSize - pipe.data.length < source.bytes.length then
    (io, ⟨.refuse [] 28 "linux-compat: pipe write: full", []⟩)
  else
    let copied := io.runtime.copiedLength source.bytes.length source.readable
    let filled := io.setPipe i { pipe with data := pipe.data ++ source.bytes.take copied }
    if copied < source.bytes.length then
      (filled, ⟨.refuse [] 14 "linux-compat: pipe write: bad buffer", []⟩)
    else (filled, ⟨.ok source.bytes.length [] "linux-compat: pipe write", []⟩)

/-- `linux_compat_read_stdin`. What was taken from the UART for a chunk of 64 that cannot be
delivered is gone. -/
def readStdin (length : ℕ) : LinuxIo × LinuxResult :=
  if length = 0 then (io, ⟨.ok 0 stdinName "linux-compat: read: stdin", []⟩)
  else if dest.null then (io, ⟨.refuse stdinName 14 "linux-compat: read: bad buffer", []⟩)
  else
    match io.stdinText with
    | some text =>
      let count := min (text.length - io.stdinOffset) length
      if count = 0 then (io, ⟨.ok 0 stdinName "linux-compat: read: stdin eof", []⟩)
      else if !io.writeResultBuffer dest 0 count then
        (io, ⟨.refuse stdinName 14 "linux-compat: read: bad buffer", []⟩)
      else
        ({ io with stdinOffset := io.stdinOffset + count },
          ⟨.ok count stdinName "linux-compat: read: stdin", (text.drop io.stdinOffset).take count⟩)
    | none =>
      let count := min io.uart.length length
      if count = 0 then (io, ⟨.refuse stdinName 11 "linux-compat: read: stdin empty", []⟩)
      else if !io.writeResultBuffer dest 0 count then
        ({ io with uart := io.uart.drop (min count (dest.writable / 64 * 64 + 64)) },
          ⟨.refuse stdinName 14 "linux-compat: read: bad buffer", []⟩)
      else
        ({ io with uart := io.uart.drop count },
          ⟨.ok count stdinName "linux-compat: read: stdin", io.uart.take count⟩)

def randomStates (state : BitVec 32) : ℕ → List (BitVec 32)
  | 0 => []
  | count + 1 =>
    let next := state * 1664525 + 1013904223
    next :: randomStates next count

/-- `linux_compat_getrandom`: the state advances also when the buffer is bad. -/
def getrandom (length : ℕ) (message : String) : LinuxIo × LinuxResult :=
  let count := min length 256
  if dest.null && length != 0 then
    (io, ⟨.refuse [] 14 "linux-compat: getrandom: bad buffer", []⟩)
  else
    let states := randomStates io.random count
    let stepped := { io with random := states.getLast?.getD io.random }
    if !io.writeResultBuffer dest 0 count then
      (stepped, ⟨.refuse [] 14 "linux-compat: getrandom: bad buffer", []⟩)
    else
      (stepped, ⟨.ok count devUrandomPath message,
        states.map fun state : BitVec 32 => UInt8.ofNat (state >>> 24).toNat⟩)

/-- `fd_size` and `fd_data` as a byte string, for a file. -/
def nodeBytes : LinuxNodeRef → List UInt8
  | .lower node => node.data
  | .overlay i => (List.ofFn (io.runtime.overlayNodes i).data).take (io.runtime.overlayNodes i).size

def nodeIsDirectory : LinuxNodeRef → Bool
  | .lower node => node.directory
  | .overlay i => (io.runtime.overlayNodes i).directory

def setOffset (offset : ℕ) : LinuxIo :=
  { io with runtime := io.runtime.setFd slot { io.runtime.fds slot with offset := offset } }

/-- The end of `linux_compat_read`, for a descriptor of a file. -/
def readFile (node : LinuxNodeRef) (dest : UserDest) (length : ℕ) :
    LinuxIo × LinuxResult :=
  let fd := io.runtime.fds slot
  let path := io.runtime.fdPath fd
  if !flagsReadable fd.flags then
    (io, ⟨.refuse path 9 "linux-compat: read: fd not readable", []⟩)
  else if io.nodeIsDirectory node then
    (io, ⟨.refuse path 21 "linux-compat: read: is directory", []⟩)
  else if dest.null && length != 0 then
    (io, ⟨.refuse path 14 "linux-compat: read: bad buffer", []⟩)
  else
    let data := io.nodeBytes node
    let count := min length (data.length - fd.offset)
    if data.length ≤ fd.offset then (io, ⟨.ok 0 path "linux-compat: read: eof", []⟩)
    else if !io.writeResultBuffer dest 0 count then
      (io, ⟨.refuse path 14 "linux-compat: read: bad buffer", []⟩)
    else
      (io.setOffset slot (fd.offset + count),
        ⟨.ok count path "linux-compat: read: ok", (data.drop fd.offset).take count⟩)

/-- `linux_compat_read`. -/
def read (fd : ℤ) (dest : UserDest) (length : ℕ) : LinuxIo × LinuxResult :=
  if fd = 0 then io.readStdin dest length
  else
    match fdSlot fd with
    | none => (io, ⟨.refuse [] 9 "linux-compat: read: bad fd", []⟩)
    | some slot =>
      let entry := io.runtime.fds slot
      if io.fdIsValidPipe slot then io.pipeRead slot dest length
      else if entry.isOpen && entry.devNull then
        if !flagsReadable entry.flags then
          (io, ⟨.refuse devNullPath 9 "linux-compat: read: fd not readable", []⟩)
        else (io, ⟨.ok 0 devNullPath "linux-compat: read: eof", []⟩)
      else if entry.isOpen && entry.devRandom then
        if !flagsReadable entry.flags then
          (io, ⟨.refuse devUrandomPath 9 "linux-compat: read: fd not readable", []⟩)
        else io.getrandom dest length "linux-compat: read: dev-random"
      else
        match if entry.isOpen && !(io.ends slot).pipeNode then entry.node else none with
        | none => (io, ⟨.refuse [] 9 "linux-compat: read: bad fd", []⟩)
        | some node => io.readFile slot node dest length

/-- What a call on the files does to the whole. -/
def lift (outcome : LinuxRuntime × LinuxReply) : LinuxIo × LinuxResult :=
  ({ io with runtime := outcome.1 }, ⟨outcome.2, []⟩)

/-- `linux_compat_write`. -/
def write (fd : ℤ) (source : UserSource) : LinuxIo × LinuxResult :=
  if source.null && source.bytes != [] then
    (io, ⟨.refuse [] 14 "linux-compat: write: bad buffer", []⟩)
  else
    match fdSlot fd with
    | none => io.lift (io.runtime.write fd source.bytes source.readable)
    | some slot =>
      if io.fdIsValidPipe slot then io.pipeWrite slot source
      else if (io.ends slot).pipeNode && !(io.runtime.fds slot).devNull then
        (io, ⟨.refuse [] 9 "linux-compat: write: bad fd", []⟩)
      else io.lift (io.runtime.write fd source.bytes source.readable)

end LinuxIo

/-!
## Starting programs in the Linux layer

`execve` closes descriptors, and `linux_compat_run` starts a program on the runtime of a
session: it clears the descriptors and the pipes and keeps the overlay.
-/

namespace LinuxIo

open LinuxCompat LinuxRuntime

variable (rootfs : List LinuxRootfsNode) (io : LinuxIo)

def closeOnExec : List LinuxFdSlot → LinuxIo → LinuxIo × ℕ
  | [], io => (io, 0)
  | slot :: slots, io =>
    if io.isOpen slot && has (io.runtime.fds slot).fdFlags fdCloexec then
      let rest := closeOnExec slots (io.closeFdSlot slot)
      (rest.1, rest.2 + 1)
    else closeOnExec slots io

/-- `linux_compat_execve`. -/
def execve (path : LinuxPath) : LinuxIo × LinuxResult :=
  match io.runtime.copyInPath path with
  | none => (io, ⟨.refuse [] 14 "linux-compat: execve: bad path", []⟩)
  | some resolved =>
    if !io.runtime.pathExists rootfs resolved || io.runtime.pathIsDirectory rootfs resolved then
      (io, ⟨.refuse resolved 2 "linux-compat: execve: no such file", []⟩)
    else
      let closed := closeOnExec [3, 4, 5, 6, 7] io
      (closed.1,
        ⟨.ok 0 resolved ("linux-compat: execve cloexec_closed=" ++ toString closed.2), []⟩)

/-- `linux_compat_runtime_set_cwd`. -/
def setCwd (cwd : LinuxPath) : Option LinuxIo :=
  if cwd.head? ≠ some slash ∨ maxPath ≤ cwd.length ∨ pathHasParentReference cwd then none
  else some { io with runtime := { io.runtime with cwd := cwd } }

/-- `linux_compat_runtime_reset_for_exec`: the descriptors are cleared as they are, without
`overlay_release_open`. -/
def resetForExec : LinuxIo :=
  { io with
    runtime := { io.runtime with vm := false, fds := fun _ => {}, stdout := [] }
    ends := fun _ => {}
    pipes := fun _ => {}
    stdinText := none
    stdinOffset := 0 }

/-- `linux_compat_run` on the runtime of a session, up to the start of the program; `loads` when
the path names an image with a load plan and the request has a context to run it in. -/
def runBegin (cwd : Option LinuxPath) (stdinText : Option (List UInt8)) (loads : Bool) : LinuxIo :=
  match cwd.elim (some io) io.setCwd with
  | none => io
  | some placed =>
    if loads then
      { placed.resetForExec with
        runtime := { placed.resetForExec.runtime with vm := true }
        stdinText := stdinText }
    else placed

/-- The output file of `linux_compat_synthesize_gcc_output` gets the image. -/
def fillOutput (image : List UInt8) (i : OverlaySlot) : LinuxIo :=
  let node := io.runtime.overlayNodes i
  if maxOverlayFileSize < image.length then io
  else
    { io with
      runtime := io.runtime.touchWith i { node with
        data := fun k => if k.val < image.length then image.getD k.val 0 else node.data k
        size := image.length
        mode := fileMode true
        executable := true
        dirty := true } }

/-- `linux_compat_synthesize_gcc_output`, for a request of gcc that links, with the path that
its arguments give and the image that it writes. -/
def synthesizeGccOutput (image : List UInt8) (output : LinuxPath) : LinuxIo :=
  match io.runtime.resolveRuntimePath output with
  | none => io
  | some path =>
    match io.runtime.findOverlayNode path with
    | some i => if (io.runtime.overlayNodes i).directory then io else io.fillOutput image i
    | none =>
      if (findNode rootfs path).isSome || !io.runtime.parentDirectoryExists rootfs path then io
      else
        match io.runtime.allocOverlayNode path false (fileMode true) with
        | none => io
        | some (i, runtime) => { io with runtime := runtime }.fillOutput image i

end LinuxIo
end VisualCpu
