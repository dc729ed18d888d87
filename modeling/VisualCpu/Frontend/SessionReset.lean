import VisualCpu.Debug.SessionCommands

/-!
# Loading and resetting on the server

A load request is resolved to an image: an entry of the manifest, a local ELF, or one that the
server writes to a temporary file and removes once the load has ended. A reset reads the image
again, so it brings back what the load has shown exactly where the image is still there.
-/

namespace VisualCpu

structure HttpError where
  statusCode : ℕ
  code : Option String
  message : String
deriving DecidableEq

/-- What a session reads of an entry; an empty boot text stands for an absent one. -/
structure LoadEntry where
  (name image : String)
  flat : Bool
  loadAddr : Option (BitVec 64)
  disk : Option String
  blockTransport : Option BlockTransport
  (diskReady diskMagicValid : Bool)
  backend : Option BackendKind
  (payloads gprSeeds : List (String × BitVec 64))
  bootUntilUartText : List Char
  bootMaxSteps : ℕ
deriving DecidableEq

/-- A request body; absent texts are empty. -/
structure LoadBody where
  (elfPath elfBase64 elfName test : String)
  backend : Option BackendKind
deriving DecidableEq

/-- The server's host beside its files. `tempImage` joins a new temporary directory with the
name of an image. -/
structure ServerHost where
  resolvePath : String → String
  allowed : String → Bool
  isFile : String → Bool
  readable : String → Bool
  decodeBase64 : String → List UInt8
  tempImage : String → String
  maxBytes : ℕ

def httpError (statusCode : ℕ) (code message : String) : HttpError :=
  { statusCode := statusCode, code := some code, message := message }

def basename (path : String) : String :=
  String.ofList (((path.toList.reverse.dropWhile (· = '/')).takeWhile (· ≠ '/')).reverse)

def isSafeElfNameChar (c : Char) : Bool :=
  c.isAlphanum || c = '.' || c = '_' || c = '-'

def sanitizeElfName (rawName : String) : String :=
  let base := (basename (if rawName = "" then "custom.elf" else rawName)).toList
  let sanitized := base.map fun c => if isSafeElfNameChar c then c else '_'
  if sanitized = [] then "custom.elf" else String.ofList sanitized

def hasElfMagic (bytes : List UInt8) : Bool := decide ([0x7f, 0x45, 0x4c, 0x46] <+: bytes)

def customElfEntry (image name source : String) : LoadEntry where
  name := "custom_" ++ source ++ "_" ++ name
  image := image
  flat := false
  loadAddr := none
  disk := none
  blockTransport := none
  diskReady := true
  diskMagicValid := true
  backend := none
  payloads := []
  gprSeeds := []
  bootUntilUartText := []
  bootMaxSteps := 0

def invalidMagic : HttpError :=
  httpError 400 "custom_elf_invalid_magic" "custom ELF payload is not an ELF file"

def tooLarge : HttpError :=
  httpError 413 "custom_elf_too_large" "custom ELF payload exceeds the configured size limit"

def resolveCustomElfPath (host : ServerHost) (files : HostFiles) (rawPath : String) :
    Except HttpError LoadEntry :=
  let resolved := host.resolvePath rawPath
  if !host.allowed resolved then
    .error (httpError 403 "custom_elf_path_forbidden"
      "custom ELF path is outside the allowed roots")
  else
    match files resolved with
    | none => .error (httpError 404 "custom_elf_not_found" "custom ELF file was not found")
    | some bytes =>
      if !host.isFile resolved then
        .error (httpError 400 "custom_elf_not_file" "custom ELF path is not a file")
      else if host.maxBytes < bytes.length then .error tooLarge
      else if !host.readable resolved then
        .error (httpError 403 "custom_elf_not_readable" "custom ELF file is not readable")
      else if !hasElfMagic bytes then .error invalidMagic
      else .ok (customElfEntry resolved (sanitizeElfName (basename resolved)) "elfPath")

/-- The entry and the temporary image, with the bytes written to it. -/
def resolveCustomElfBase64 (host : ServerHost) (body : LoadBody) :
    Except HttpError (LoadEntry × String × List UInt8) :=
  let buffer := host.decodeBase64 body.elfBase64
  if !hasElfMagic buffer then .error invalidMagic
  else if host.maxBytes < buffer.length then .error tooLarge
  else
    let name := sanitizeElfName body.elfName
    let image := host.tempImage name
    .ok (customElfEntry image name "elfBase64", image, buffer)

/-- The entry of a request, and the temporary image to write for it. -/
def resolveSessionLoadEntry (host : ServerHost) (tests : List LoadEntry) (files : HostFiles)
    (body : LoadBody) : Except HttpError (LoadEntry × Option (String × List UInt8)) :=
  if body.elfPath ≠ "" then
    (resolveCustomElfPath host files body.elfPath).map fun entry => (entry, none)
  else if body.elfBase64 ≠ "" then
    (resolveCustomElfBase64 host body).map fun resolved => (resolved.1, some resolved.2)
  else
    match tests.find? fun entry => entry.name = body.test with
    | none => .error (httpError 404 "unknown_test" ("unknown test: " ++ body.test))
    | some entry => .ok (entry, none)

/-- The request brings its own image. -/
def LoadBody.isBase64 (body : LoadBody) : Prop := body.elfPath = "" ∧ body.elfBase64 ≠ ""

/-- The session of a debug process, which ends at the first call that throws. -/
structure DebugCli (M : Type) where
  session : DebugSession M
  alive : Bool

/-- What a load or a reset shows: the machine, all of whose snapshot is read off it, and the
terminal's text. -/
structure Shown (M : Type) where
  machine : M
  text : List Char

namespace DebugCli

variable {M : Type} (ops : MachineOps M)

def start : DebugCli M := { session := DebugSession.init, alive := true }

def ask (files : HostFiles) (cli : DebugCli M) (command : SessionCommand) :
    Except String Unit × DebugCli M :=
  if cli.alive then
    let result := cli.session.perform ops files command
    (result.1, { session := result.2, alive := result.1.isOk })
  else (.error "debug cli exited with code 1", cli)

/-- The commands in order up to the first that fails. -/
def askAll (files : HostFiles) : DebugCli M → List SessionCommand →
    Except String Unit × DebugCli M
  | cli, [] => (.ok (), cli)
  | cli, command :: commands =>
    match cli.ask ops files command with
    | (.error message, cli) => (.error message, cli)
    | (.ok (), cli) => askAll files cli commands

/-- The snapshot and the terminal's text after the last command. -/
def shown (cli : DebugCli M) : Except String (Shown M) :=
  match cli.session.machine with
  | none => .error DebugSession.notLoaded
  | some machine => .ok { machine := machine, text := ops.output machine }

variable (entry : LoadEntry)

def loadCommand (backend : BackendKind) : SessionCommand :=
  let options : LoadOptions :=
    { backendKind := backend
      blockTransport := entry.blockTransport.getD .simpleStorage
      diskImage := entry.disk.getD ""
      diskReady := entry.diskReady
      diskMagicValid := entry.diskMagicValid
      l1dEnabled := false }
  if entry.flat then
    .loadBinary entry.image (entry.loadAddr.getD LoadConfig.memBase) options
  else .loadElf entry.image options

/-- The snapshot after the boot text, or at once, and the terminal's output. -/
def bootCommands : List SessionCommand :=
  [if entry.bootUntilUartText ≠ [] then
      .runUntilUartContains entry.bootUntilUartText entry.bootMaxSteps
    else .snapshot, .uartOutput 0]

def imageCommands (backend : BackendKind) : List SessionCommand :=
  loadCommand entry backend ::
    (entry.payloads.map (fun payload => .loadBinaryPayload payload.1 payload.2) ++
      entry.gprSeeds.map fun seed => .setGpr seed.1 seed.2)

def initializeSessionState (files : HostFiles) (entry : LoadEntry) (backend : BackendKind) :
    Except String (Shown M) × DebugCli M :=
  match (start : DebugCli M).askAll ops files (imageCommands entry backend ++ bootCommands entry)
    with
  | (.error message, cli) => (.error message, cli)
  | (.ok (), cli) => (cli.shown ops, cli)

def shouldRearmSessionOnReset : Bool :=
  !entry.payloads.isEmpty || !entry.gprSeeds.isEmpty || !entry.bootUntilUartText.isEmpty

def resetSession (files : HostFiles) (cli : DebugCli M) (entry : LoadEntry) :
    Except String (Shown M) × DebugCli M :=
  match cli.askAll ops files
      (.reset :: if shouldRearmSessionOnReset entry then bootCommands entry else [.uartOutput 0])
    with
  | (.error message, cli) => (.error message, cli)
  | (.ok (), cli) => (cli.shown ops, cli)

end DebugCli

/-- The files of the host, and the session with its entry once one is loaded. -/
structure LoadServer (M : Type) where
  files : HostFiles
  current : Option (DebugCli M × LoadEntry)

/-- A file written, or removed. -/
def HostFiles.set (files : HostFiles) (path : String) (bytes : Option (List UInt8)) : HostFiles :=
  fun other => if other = path then bytes else files other

def serverError (message : String) : HttpError :=
  { statusCode := 500, code := none, message := message }

namespace LoadServer

variable {M : Type} (ops : MachineOps M)

/-- A load request: the new session replaces the old one when it has loaded, and the temporary
image is removed in any case. -/
def postLoad (host : ServerHost) (tests : List LoadEntry) (server : LoadServer M)
    (body : LoadBody) : Except HttpError (Shown M) × LoadServer M :=
  match resolveSessionLoadEntry host tests server.files body with
  | .error error => (.error error, server)
  | .ok (entry, temporary) =>
    let written := match temporary with
      | none => server.files
      | some (image, bytes) => server.files.set image (some bytes)
    let cleaned := match temporary with
      | none => server.files
      | some (image, _) => written.set image none
    match DebugCli.initializeSessionState ops written entry
        (body.backend.getD (entry.backend.getD .pipeline)) with
    | (.error message, _) => (.error (serverError message), { server with files := cleaned })
    | (.ok shown, cli) => (.ok shown, { files := cleaned, current := some (cli, entry) })

variable (server : LoadServer M)

def after (commands : List SessionCommand) : LoadServer M :=
  { server with current := server.current.map fun current =>
      (commands.foldl (fun cli command => (cli.ask ops server.files command).2) current.1,
        current.2) }

/-- The debug process of the session is still there. -/
def alive : Bool :=
  match server.current with
  | none => false
  | some current => current.1.alive

def postReset : Except HttpError (Shown M) × LoadServer M :=
  match server.current with
  | none =>
    (.error { statusCode := 400, code := none, message := "session not loaded" }, server)
  | some (cli, entry) =>
    match DebugCli.resetSession ops server.files cli entry with
    | (.error message, cli) =>
      (.error (serverError message), { server with current := some (cli, entry) })
    | (.ok shown, cli) => (.ok shown, { server with current := some (cli, entry) })

end LoadServer

end VisualCpu
