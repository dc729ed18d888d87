import VisualCpu.Frontend.SessionReset

/-!
# What a reset brings back

After a load the session is the one that its configuration alone would give. A reset rebuilds
that session whatever happened in between, if the image can still be read and the debug
process has not ended.
-/

namespace VisualCpu

open List DebugSession DebugCli LoadServer

namespace DebugSession

variable {M : Type} {ops : MachineOps M} {files : HostFiles} {s : DebugSession M}

theorem ext_fields {s s' : DebugSession M} (hmachine : s.machine = s'.machine)
    (hconfig : s.config = s'.config) (hevents : s.events = s'.events)
    (hbreakpoints : s.breakpoints = s'.breakpoints) : s = s' := by
  cases s
  cases s'
  cases hmachine
  cases hconfig
  cases hevents
  cases hbreakpoints
  rfl

/-- The session as its configuration gives it. -/
structure Rebuilt (ops : MachineOps M) (files : HostFiles) (s : DebugSession M) : Prop where
  machine : ∃ image machine, loadImage ops files s.config = .ok image ∧
    replay ops files image s.config.postLoadActions = (.ok (), machine) ∧ s.machine = some machine
  events : s.events = []
  breakpoints : s.breakpoints = []

theorem replay_append (machine : M) (actions : List PostLoadAction) (action : PostLoadAction) :
    replay ops files machine (actions ++ [action]) =
      match replay ops files machine actions with
      | (.error message, machine) => (.error message, machine)
      | (.ok (), machine) =>
        match runPostLoadAction ops files machine action with
        | .error message => (.error message, machine)
        | .ok machine => (.ok (), machine) := by
  induction actions generalizing machine with
  | nil => rfl
  | cons first actions ih =>
    simp only [List.cons_append, replay]
    cases runPostLoadAction ops files machine first with
    | error message => rfl
    | ok machine => exact ih machine

theorem loadWith_rebuilt {config : LoadConfig} (hactions : config.postLoadActions = [])
    (hok : (s.loadWith ops files config).1 = .ok ()) :
    Rebuilt ops files (s.loadWith ops files config).2 ∧
      (s.loadWith ops files config).2.config = config := by
  unfold loadWith recreateMachine at hok ⊢
  cases himage : loadImage ops files config with
  | error message =>
    rw [himage] at hok
    cases hok
  | ok image =>
    have hreplay : replay ops files image config.postLoadActions = (.ok (), image) := by
      rw [hactions]
      rfl
    simp only [hreplay]
    exact ⟨⟨⟨image, image, himage, hreplay, rfl⟩, rfl, rfl⟩, trivial⟩

theorem recorded_rebuilt (h : Rebuilt ops files s) (action : PostLoadAction)
    (hok : (recorded action (s.onMachine fun machine =>
      runPostLoadAction ops files machine action)).1 = .ok ()) :
    Rebuilt ops files (recorded action (s.onMachine fun machine =>
      runPostLoadAction ops files machine action)).2 := by
  obtain ⟨image, machine, himage, hreplay, hmachine⟩ := h.machine
  unfold onMachine at hok ⊢
  simp only [hmachine] at hok ⊢
  cases haction : runPostLoadAction ops files machine action with
  | error message =>
    rw [haction] at hok
    cases hok
  | ok machine' =>
    refine ⟨⟨image, machine', himage, ?_, rfl⟩, h.events, h.breakpoints⟩
    change replay ops files image (s.config.postLoadActions ++ [action]) = _
    rw [replay_append, hreplay]
    simp only [haction]

theorem reset_rebuilt {s' : DebugSession M} (h : Rebuilt ops files s) (h' : Continues s s') :
    s'.reset ops files = (.ok (), s) := by
  obtain ⟨image, machine, himage, hreplay, hmachine⟩ := h.machine
  have hloaded : s'.machine ≠ none := h'.loaded (by rw [hmachine]; exact Option.some_ne_none _)
  obtain ⟨machine', hmachine'⟩ := Option.ne_none_iff_exists'.1 hloaded
  unfold reset recreateMachine
  rw [hmachine', h'.config, himage]
  simp only [hreplay]
  congr 1
  exact ext_fields hmachine.symm rfl h.events.symm h'.breakpoints

end DebugSession

namespace DebugCli

variable {M : Type} {ops : MachineOps M} {files : HostFiles} {cli : DebugCli M}

theorem askAll_append (first second : List SessionCommand) :
    cli.askAll ops files (first ++ second) =
      match cli.askAll ops files first with
      | (.error message, cli) => (.error message, cli)
      | (.ok (), cli) => cli.askAll ops files second := by
  induction first generalizing cli with
  | nil => rfl
  | cons command first ih =>
    simp only [List.cons_append, askAll]
    cases cli.ask ops files command with
    | mk result cli' =>
      cases result with
      | error message => rfl
      | ok => exact ih

variable {cli' : DebugCli M} {command : SessionCommand}

theorem ask_ok (h : cli.ask ops files command = (.ok (), cli')) :
    cli.alive ∧ (cli.session.perform ops files command).1 = .ok () ∧
      cli' = { session := (cli.session.perform ops files command).2, alive := true } := by
  unfold ask at h
  cases halive : cli.alive with
  | false =>
    rw [halive] at h
    cases h
  | true =>
    rw [halive, if_pos rfl] at h
    obtain ⟨hresult, hcli⟩ := Prod.mk.inj h
    refine ⟨rfl, hresult, ?_⟩
    rw [← hcli, hresult]
    rfl

theorem ask_continues (hkeeps : command.keepsConfig) :
    (cli.session).Continues (cli.ask ops files command).2.session := by
  unfold ask
  split
  · exact perform_continues ops files cli.session hkeeps
  · exact .refl _

variable {commands : List SessionCommand}

theorem foldl_continues (hkeeps : ∀ command ∈ commands, command.keepsConfig) :
    (cli.session).Continues
      (commands.foldl (fun cli command => (cli.ask ops files command).2) cli).session := by
  induction commands generalizing cli with
  | nil => exact .refl _
  | cons command commands ih =>
    have hfirst := @ask_continues M ops files cli command (hkeeps command mem_cons_self)
    exact hfirst.trans (ih fun other hother => hkeeps other (mem_cons_of_mem _ hother))

theorem askAll_rebuilt (h : cli.session.Rebuilt ops files) (halive : cli.alive)
    (hrecorded : ∀ command ∈ commands, (∃ path addr, command = .loadBinaryPayload path addr) ∨
      ∃ reg value, command = .setGpr reg value)
    (hok : cli.askAll ops files commands = (.ok (), cli')) :
    cli'.session.Rebuilt ops files ∧ cli'.alive := by
  induction commands generalizing cli with
  | nil =>
    cases hok
    exact ⟨h, halive⟩
  | cons command commands ih =>
    unfold askAll at hok
    cases hask : cli.ask ops files command with
    | mk result next =>
      rw [hask] at hok
      cases result with
      | error message => cases hok
      | ok =>
        obtain ⟨_, hperform, hnext⟩ := ask_ok hask
        have hrebuilt : next.session.Rebuilt ops files := by
          rw [hnext]
          rcases hrecorded command mem_cons_self with ⟨path, addr, rfl⟩ | ⟨reg, value, rfl⟩
          · exact recorded_rebuilt h (.payload path addr) hperform
          · exact recorded_rebuilt h (.setGpr reg value) hperform
        have hlive : next.alive := by rw [hnext]
        exact ih hrebuilt hlive
          (fun other hother => hrecorded other (mem_cons_of_mem _ hother)) hok

def loadConfig (entry : LoadEntry) (backend : BackendKind) : LoadConfig where
  imageKind := if entry.flat then .binary else .elf
  imagePath := entry.image
  binaryAddr := if entry.flat then entry.loadAddr.getD LoadConfig.memBase else LoadConfig.memBase
  backendKind := backend
  blockTransport := entry.blockTransport.getD .simpleStorage
  diskImage := if entry.disk.getD "" = "" then none else some (entry.disk.getD "")
  diskReady := entry.diskReady
  diskMagicValid := entry.diskMagicValid
  l1dEnabled := false
  postLoadActions := []

theorem perform_loadCommand (s : DebugSession M) (entry : LoadEntry) (backend : BackendKind) :
    s.perform ops files (loadCommand entry backend) =
      s.loadWith ops files (loadConfig entry backend) := by
  unfold loadCommand loadConfig
  cases entry.flat <;> rfl

variable {entry : LoadEntry} {backend : BackendKind} {shown : Shown M}

theorem imageCommands_rebuilt
    (hok : (start : DebugCli M).askAll ops files (imageCommands entry backend) = (.ok (), cli')) :
    cli'.session.Rebuilt ops files ∧ cli'.alive := by
  unfold imageCommands askAll at hok
  cases hask : (start : DebugCli M).ask ops files (loadCommand entry backend) with
  | mk result next =>
    rw [hask] at hok
    cases result with
    | error message => cases hok
    | ok =>
      obtain ⟨_, hperform, hnext⟩ := ask_ok hask
      rw [perform_loadCommand] at hperform hnext
      have hrebuilt : next.session.Rebuilt ops files := by
        rw [hnext]
        exact (loadWith_rebuilt rfl hperform).1
      have hlive : next.alive := by rw [hnext]
      refine askAll_rebuilt hrebuilt hlive ?_ hok
      intro command hcommand
      rcases mem_append.1 hcommand with hpayload | hseed
      · obtain ⟨payload, _, rfl⟩ := mem_map.1 hpayload
        exact .inl ⟨_, _, rfl⟩
      obtain ⟨seed, _, rfl⟩ := mem_map.1 hseed
      exact .inr ⟨_, _, rfl⟩

theorem bootCommands_keepsConfig (entry : LoadEntry) :
    ∀ command ∈ bootCommands entry, command.keepsConfig := by
  intro command hcommand
  rcases mem_cons.1 hcommand with rfl | hcommand
  · split <;> rfl
  rw [mem_singleton.1 hcommand]
  rfl

theorem askAll_continues (hkeeps : ∀ command ∈ commands, command.keepsConfig) :
    (cli.session).Continues (cli.askAll ops files commands).2.session := by
  induction commands generalizing cli with
  | nil => exact .refl _
  | cons command commands ih =>
    have hfirst := @ask_continues M ops files cli command (hkeeps command mem_cons_self)
    unfold askAll
    cases hask : cli.ask ops files command with
    | mk result next =>
      rw [hask] at hfirst
      cases result with
      | error message => exact hfirst
      | ok =>
        exact hfirst.trans (ih fun other hother => hkeeps other (mem_cons_of_mem _ hother))

theorem initializeSessionState_ok
    (hok : initializeSessionState ops files entry backend = (.ok shown, cli')) :
    ∃ loaded : DebugCli M,
      (start : DebugCli M).askAll ops files (imageCommands entry backend) = (.ok (), loaded) ∧
      loaded.askAll ops files (bootCommands entry) = (.ok (), cli') ∧
      cli'.shown ops = .ok shown := by
  unfold initializeSessionState at hok
  rw [askAll_append] at hok
  cases hload : (start : DebugCli M).askAll ops files (imageCommands entry backend) with
  | mk result loaded =>
    rw [hload] at hok
    cases result with
    | error message => cases hok
    | ok =>
      dsimp only at hok
      cases hboot : loaded.askAll ops files (bootCommands entry) with
      | mk result booted =>
        rw [hboot] at hok
        cases result with
        | error message => cases hok
        | ok =>
          obtain ⟨hshown, rfl⟩ := Prod.mk.inj hok
          exact ⟨loaded, rfl, hboot, hshown⟩

theorem bootCommands_show (halive : cli.alive)
    (hrebuilt : cli.session.Rebuilt ops files) (htext : entry.bootUntilUartText = []) :
    cli.askAll ops files (bootCommands entry) = (.ok (), cli) ∧
      cli.askAll ops files [.uartOutput 0] = (.ok (), cli) := by
  obtain ⟨_, machine, _, _, hmachine⟩ := hrebuilt.machine
  have hsnapshot : cli.ask ops files .snapshot = (.ok (), cli) := by
    unfold ask perform snapshot
    rw [halive, if_pos rfl, hmachine]
    cases cli
    cases halive
    rfl
  have houtput : cli.ask ops files (.uartOutput 0) = (.ok (), cli) := by
    unfold ask perform uartOutput
    rw [halive, if_pos rfl, hmachine]
    cases cli
    cases halive
    rfl
  have hlast : cli.askAll ops files [.uartOutput 0] = (.ok (), cli) := by
    simp only [askAll, houtput]
  refine ⟨?_, hlast⟩
  unfold bootCommands
  rw [if_neg (not_not_intro htext)]
  unfold askAll
  rw [hsnapshot]
  exact hlast

theorem resetSession_restores {booted : DebugCli M}
    (hok : initializeSessionState ops files entry backend = (.ok shown, booted))
    (hcontinues : (booted.session).Continues cli.session) (halive : cli.alive) :
    (resetSession ops files cli entry).1 = .ok shown := by
  obtain ⟨loaded, himage, hboot, hshown⟩ := initializeSessionState_ok hok
  obtain ⟨hrebuilt, hlive⟩ := imageCommands_rebuilt himage
  have hbooted : (loaded.session).Continues booted.session := by
    have hkept := @askAll_continues M ops files loaded _ (bootCommands_keepsConfig entry)
    rw [hboot] at hkept
    exact hkept
  have hreset : cli.ask ops files .reset = (.ok (), loaded) := by
    have hperform := reset_rebuilt hrebuilt (hbooted.trans hcontinues)
    unfold ask perform
    rw [halive, if_pos rfl, hperform]
    cases loaded
    cases hlive
    rfl
  unfold resetSession askAll
  rw [hreset]
  dsimp only
  by_cases htext : entry.bootUntilUartText = []
  · obtain ⟨hshow, hlast⟩ := bootCommands_show hlive hrebuilt htext
    rw [hshow] at hboot
    cases hboot
    cases shouldRearmSessionOnReset entry with
    | true =>
      rw [if_pos rfl, hshow]
      exact hshown
    | false =>
      rw [if_neg Bool.false_ne_true, hlast]
      exact hshown
  · have hrearm : shouldRearmSessionOnReset entry := by
      unfold shouldRearmSessionOnReset
      cases htext' : entry.bootUntilUartText with
      | nil => exact absurd htext' htext
      | cons c text => simp
    rw [if_pos hrearm, hboot]
    exact hshown

theorem resetSession_fails
    (hgone : ∃ message, loadImage ops files cli.session.config = .error message) :
    ∃ message, (resetSession ops files cli entry).1 = .error message := by
  obtain ⟨message, himage⟩ := hgone
  have hreset : ∃ message cli', cli.ask ops files .reset = (.error message, cli') := by
    unfold ask perform reset recreateMachine
    cases cli.alive with
    | false => exact ⟨_, _, rfl⟩
    | true =>
      rw [if_pos rfl]
      cases cli.session.machine with
      | none => exact ⟨_, _, rfl⟩
      | some machine =>
        rw [himage]
        exact ⟨_, _, rfl⟩
  obtain ⟨text, cli', hreset⟩ := hreset
  unfold resetSession askAll
  rw [hreset]
  exact ⟨text, rfl⟩

theorem resetSession_dead (hdead : cli.alive = false) :
    ∃ message, (resetSession ops files cli entry).1 = .error message := by
  unfold resetSession askAll ask
  rw [hdead, if_neg Bool.false_ne_true]
  exact ⟨_, rfl⟩

end DebugCli

namespace LoadServer

variable {M : Type} {ops : MachineOps M} {commands : List SessionCommand} {tests : List LoadEntry}
  {host : ServerHost} {files : HostFiles} {body : LoadBody} {shown : Shown M}

theorem resolve_cases
    {entry : LoadEntry} {temporary : Option (String × List UInt8)}
    (hresolve : resolveSessionLoadEntry host tests files body = .ok (entry, temporary)) :
    (¬ body.isBase64 ∧ temporary = none) ∨
      (body.isBase64 ∧ ∃ image name bytes, temporary = some (image, bytes) ∧
        entry = customElfEntry image name "elfBase64") := by
  unfold resolveSessionLoadEntry at hresolve
  by_cases hpath : body.elfPath ≠ ""
  · rw [if_pos hpath] at hresolve
    refine .inl ⟨fun h => hpath h.1, ?_⟩
    cases hentry : resolveCustomElfPath host files body.elfPath with
    | error error =>
      rw [hentry] at hresolve
      cases hresolve
    | ok entry' =>
      rw [hentry] at hresolve
      cases hresolve
      rfl
  · rw [if_neg hpath] at hresolve
    by_cases hbase : body.elfBase64 ≠ ""
    · rw [if_pos hbase] at hresolve
      refine .inr ⟨⟨not_not.1 hpath, hbase⟩, ?_⟩
      unfold resolveCustomElfBase64 at hresolve
      dsimp only at hresolve
      split at hresolve
      · cases hresolve
      split at hresolve
      · cases hresolve
      cases hresolve
      exact ⟨_, _, _, rfl, rfl⟩
    · rw [if_neg hbase] at hresolve
      refine .inl ⟨fun h => hbase h.2, ?_⟩
      split at hresolve
      · cases hresolve
      cases hresolve
      rfl

theorem postReset_eq (files : HostFiles) (cli : DebugCli M) (entry : LoadEntry) :
    (postReset ops { files := files, current := some (cli, entry) }).1 =
      (resetSession ops files cli entry).1.mapError serverError := by
  unfold postReset
  dsimp only
  cases resetSession ops files cli entry with
  | mk result cli' => cases result <;> rfl

theorem customElf_gone {image name : String} {bytes : List UInt8}
    {backend : BackendKind} {booted : DebugCli M}
    (hinit : initializeSessionState ops (files.set image (some bytes))
      (customElfEntry image name "elfBase64") backend = (.ok shown, booted))
    (hcommands : ∀ command ∈ commands, command.keepsConfig) :
    ∃ message, loadImage ops ((files.set image (some bytes)).set image none)
      (commands.foldl (fun cli command => (cli.ask ops
        ((files.set image (some bytes)).set image none) command).2) booted).session.config =
      .error message := by
  obtain ⟨loaded, himage, hboot, _⟩ := initializeSessionState_ok hinit
  have hbooted : (loaded.session).Continues booted.session := by
    have hkept := @askAll_continues M ops (files.set image (some bytes)) loaded _
      (DebugCli.bootCommands_keepsConfig (customElfEntry image name "elfBase64"))
    rw [hboot] at hkept
    exact hkept
  have hlater := @foldl_continues M ops ((files.set image (some bytes)).set image none)
    booted commands hcommands
  have hconfig : loaded.session.config =
      DebugCli.loadConfig (customElfEntry image name "elfBase64") backend := by
    change askAll ops _ _ [loadCommand _ backend] = _ at himage
    unfold askAll at himage
    cases hask : (start : DebugCli M).ask ops (files.set image (some bytes))
        (DebugCli.loadCommand (customElfEntry image name "elfBase64") backend) with
    | mk result next =>
      rw [hask] at himage
      cases result with
      | error message => cases himage
      | ok =>
        cases himage
        obtain ⟨_, hperform, hnext⟩ := ask_ok hask
        rw [perform_loadCommand] at hperform hnext
        rw [hnext]
        exact (loadWith_rebuilt rfl hperform).2
  rw [hlater.config, hbooted.config, hconfig]
  refine ⟨"failed to open ELF: " ++ image, ?_⟩
  have hremoved : (files.set image (some bytes)).set image none image = none := by
    simp [HostFiles.set]
  simp only [loadImage, loadConfig, customElfEntry, openFile,
    Option.getD_none, hremoved, if_true, Bool.false_eq_true, if_false]
  rfl

theorem postReset_iff {server loaded : LoadServer M}
    (hload : postLoad ops host tests server body = (.ok shown, loaded))
    (hcommands : ∀ command ∈ commands, command.keepsConfig) :
    (postReset ops (loaded.after ops commands)).1 = .ok shown ↔
      ¬ body.isBase64 ∧ (loaded.after ops commands).alive := by
  unfold postLoad at hload
  cases hresolve : resolveSessionLoadEntry host tests server.files body with
  | error error =>
    rw [hresolve] at hload
    cases hload
  | ok resolved =>
    obtain ⟨entry, temporary⟩ := resolved
    rw [hresolve] at hload
    dsimp only at hload
    split at hload
    · cases hload
    rename_i shown' booted hinit
    cases hload
    rcases resolve_cases hresolve with
      ⟨hlocal, rfl⟩ | ⟨hbase, image, name, bytes, rfl, rfl⟩
    · have hcontinues := @foldl_continues M ops server.files booted commands hcommands
      constructor
      · intro hreset
        refine ⟨hlocal, ?_⟩
        cases halive : alive (after ops { files := server.files
                                          current := some (booted, entry) } commands) with
        | true => rfl
        | false =>
          obtain ⟨message, herror⟩ :=
            @resetSession_dead M ops server.files _ entry halive
          change (postReset ops { files := server.files, current := some (_, entry) }).1 = _
            at hreset
          rw [postReset_eq, herror] at hreset
          cases hreset
      · rintro ⟨_, halive⟩
        change (postReset ops { files := server.files, current := some (_, entry) }).1 = _
        rw [postReset_eq, resetSession_restores hinit hcontinues halive]
        rfl
    · refine ⟨fun hreset => ?_, fun h => absurd hbase h.1⟩
      have hgone := customElf_gone hinit hcommands
      obtain ⟨message, herror⟩ := @resetSession_fails M ops _ _
        (customElfEntry image name "elfBase64") hgone
      change (postReset ops { files := (server.files.set image (some bytes)).set image none
                              current := some (_, customElfEntry image name "elfBase64") }).1 = _
        at hreset
      rw [postReset_eq, herror] at hreset
      cases hreset

end LoadServer

/-- What a load has shown a later reset brings back, and a load or a reset that throws loses
nothing. -/
def SessionRestored {M : Type} (ops : MachineOps M) : Prop :=
  (∀ host tests server body shown loaded,
    postLoad ops host tests server body = (.ok shown, loaded) →
    ∀ commands : List SessionCommand, (∀ command ∈ commands, command.keepsConfig) →
      (postReset ops (loaded.after ops commands)).1 = .ok shown) ∧
  ∀ files (s : DebugSession M) (command : SessionCommand) message, command.replaces →
    (s.perform ops files command).1 = .error message →
    s.KeepsLoaded (s.perform ops files command).2

/-- Exactly when a reset brings back what the load has shown, and exactly when a load or a reset
that throws keeps the machine that was loaded. -/
theorem sessionRestored_iff {M : Type} (ops : MachineOps M) :
    (∀ host tests server body shown loaded,
      postLoad ops host tests server body = (.ok shown, loaded) →
      ∀ commands : List SessionCommand, (∀ command ∈ commands, command.keepsConfig) →
        ((postReset ops (loaded.after ops commands)).1 = .ok shown ↔
          ¬ body.isBase64 ∧ (loaded.after ops commands).alive)) ∧
    ∀ files (s : DebugSession M) (command : SessionCommand) message, command.replaces →
      (s.perform ops files command).1 = .error message →
      (s.KeepsLoaded (s.perform ops files command).2 ↔
        s.machine = none ∨ (command = .reset ∧ s.RebuiltAlike ops files)) :=
  ⟨fun _ _ _ _ _ _ hload _ hcommands => postReset_iff hload hcommands,
    fun files s _ _ hreplaces hthrows =>
      perform_throws ops files s hreplaces hthrows⟩

/-- A host on which every path may be read and every text decodes to an ELF header. -/
def plainHost : ServerHost where
  resolvePath path := path
  allowed _ := true
  isFile _ := true
  readable _ := true
  decodeBase64 _ := [0x7f, 0x45, 0x4c, 0x46]
  tempImage name := "/tmp/mycpu-custom-elf-0/" ++ name
  maxBytes := 16777216

def oneImage : LoadServer ℕ where
  files path := if path = "/images/a.elf" then some [0x7f, 0x45, 0x4c, 0x46] else none
  current := none

def pathBody : LoadBody where
  elfPath := "/images/a.elf"
  elfBase64 := ""
  elfName := ""
  test := ""
  backend := none

def base64Body : LoadBody where
  elfPath := ""
  elfBase64 := "f0VMRg=="
  elfName := "a.elf"
  test := ""
  backend := none

theorem postLoad_accepted {body : LoadBody}
    (h : (postLoad counterOps plainHost [] oneImage body).1.isOk) :
    ∃ shown loaded, postLoad counterOps plainHost [] oneImage body = (.ok shown, loaded) := by
  cases hload : postLoad counterOps plainHost [] oneImage body with
  | mk result loaded =>
    rw [hload] at h
    cases result with
    | error error => cases h
    | ok shown => exact ⟨shown, loaded, rfl⟩

def missingImage : SessionCommand :=
  .loadElf "/images/missing.elf"
    { backendKind := .pipeline, blockTransport := .simpleStorage, diskImage := ""
      diskReady := true, diskMagicValid := true, l1dEnabled := false }

/-- A local image is brought back after steps, and a load that throws keeps an empty session. -/
theorem pathBody_restored : (∃ shown loaded,
    postLoad counterOps plainHost [] oneImage pathBody = (.ok shown, loaded) ∧
      (postReset counterOps
        (loaded.after counterOps [.stepCycle, .stepCommit])).1 = .ok shown) ∧
    (init : DebugSession ℕ).KeepsLoaded
      (perform counterOps oneImage.files init missingImage).2 := by
  refine ⟨?_, ((sessionRestored_iff counterOps).2 oneImage.files init missingImage
    "failed to open ELF: /images/missing.elf" rfl rfl).2 (.inl rfl)⟩
  obtain ⟨shown, loaded, hload⟩ := @postLoad_accepted pathBody (by decide)
  refine ⟨shown, loaded, hload, ?_⟩
  have halive : ((postLoad counterOps plainHost [] oneImage pathBody).2.after
      counterOps [.stepCycle, .stepCommit]).alive := by decide
  rw [hload] at halive
  exact ((sessionRestored_iff counterOps).1 plainHost [] oneImage pathBody shown loaded hload
    [.stepCycle, .stepCommit] (by decide)).2 ⟨fun h => absurd h.1 (by decide), halive⟩

/-- An uploaded image is gone when the reset reads it again, and a load of a missing image loses
the machine loaded before. -/
theorem base64Body_notRestored : ¬ SessionRestored counterOps ∧
    ¬ DebugSession.KeepsLoaded { (init : DebugSession ℕ) with machine := some 3 }
      (perform counterOps oneImage.files
        { (init : DebugSession ℕ) with machine := some 3 } missingImage).2 := by
  constructor
  · intro hall
    obtain ⟨shown, loaded, hload⟩ := @postLoad_accepted base64Body (by decide)
    have hreset := hall.1 plainHost [] oneImage base64Body shown loaded hload [] (by simp)
    have hbase := ((postReset_iff hload (by simp)).1 hreset).1
    exact hbase ⟨by decide, by decide⟩
  · intro hkeeps
    have hnone : (perform counterOps oneImage.files
        { (init : DebugSession ℕ) with machine := some 3 }
        missingImage).2.machine = none := by decide
    rw [(hkeeps 3 rfl).1] at hnone
    cases hnone

end VisualCpu
