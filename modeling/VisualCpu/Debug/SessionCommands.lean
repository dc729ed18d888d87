import VisualCpu.Debug.DebugSession

/-!
# Sequences of session calls

Every call of a session as a command, and the command line that ends at the first call that
throws. A load or a reset that throws with a machine loaded loses that machine.
-/

namespace VisualCpu

/-- What the load commands say beside the image. -/
structure LoadOptions where
  backendKind : BackendKind
  blockTransport : BlockTransport
  diskImage : String
  (diskReady diskMagicValid l1dEnabled : Bool)
deriving DecidableEq

inductive SessionCommand
  | loadElf (path : String) (options : LoadOptions)
  | loadBinary (path : String) (addr : BitVec 64) (options : LoadOptions)
  | loadBinaryPayload (path : String) (addr : BitVec 64)
  | setGpr (reg : String) (value : BitVec 64)
  | setMemory (addr value : BitVec 64) (size : ℕ) (virtualAddress : Bool)
  | setCsr (csr : String) (value : BitVec 64)
  | breakAt (addr : BitVec 64)
  | reset | stepCycle | stepCommit
  | runUntilUartContains (text : List Char) (maxSteps : ℕ)
  | runUntilNewUartContains (offset : ℕ) (text : List Char) (maxSteps : ℕ)
  | runUntilHalt (maxSteps : ℕ)
  | uartInput (text : List Char)
  | uartOutput (offset : ℕ)
  | debugStepRaw | jitDispatch | snapshot
deriving DecidableEq

/-- The commands that put a new machine in place. -/
def SessionCommand.replaces : SessionCommand → Bool
  | .loadElf _ _ | .loadBinary _ _ _ | .reset => true
  | _ => false

/-- The commands that change neither the configuration nor the breakpoints. -/
def SessionCommand.keepsConfig : SessionCommand → Bool
  | .loadElf _ _ | .loadBinary _ _ _ | .loadBinaryPayload _ _ | .setGpr _ _ | .breakAt _
  | .reset => false
  | _ => true

namespace DebugSession

variable {M : Type} (ops : MachineOps M)

variable (files : HostFiles) {command : SessionCommand}

/-- A command as a call of the session; what it shows is left to its state. -/
def perform (s : DebugSession M) :
    SessionCommand → Except String Unit × DebugSession M
  | .loadElf path options =>
    s.loadElf ops files path options.backendKind options.blockTransport options.diskImage
      options.diskReady options.diskMagicValid options.l1dEnabled
  | .loadBinary path addr options =>
    s.loadBinary ops files path addr options.backendKind options.blockTransport
      options.diskImage options.diskReady options.diskMagicValid options.l1dEnabled
  | .loadBinaryPayload path addr => s.loadBinaryPayload ops files path addr
  | .setGpr reg value => s.setGpr ops files reg value
  | .setMemory addr value size virtualAddress => s.setMemory ops addr value size virtualAddress
  | .setCsr csr value => s.setCsr ops csr value
  | .breakAt addr => s.breakAt addr
  | .reset => s.reset ops files
  | .stepCycle => s.stepCycle ops
  | .stepCommit => s.stepCommit ops
  | .runUntilUartContains text maxSteps => s.runUntilUartContains ops text maxSteps
  | .runUntilNewUartContains offset text maxSteps =>
    let result := s.runUntilNewUartContains ops offset text maxSteps
    (result.1.map fun _ => (), result.2)
  | .runUntilHalt maxSteps => s.runUntilHalt ops maxSteps
  | .uartInput text => s.uartInput ops text
  | .uartOutput offset => ((s.uartOutput ops offset).map fun _ => (), s)
  | .debugStepRaw => s.debugStepRaw ops
  | .jitDispatch => s.jitDispatch ops
  | .snapshot => ((s.snapshot ops).map fun _ => (), s)

/-- Configuration and breakpoints are the same, and a loaded machine stays loaded. -/
structure Continues (s s' : DebugSession M) : Prop where
  config : s'.config = s.config
  breakpoints : s'.breakpoints = s.breakpoints
  loaded : s.machine ≠ none → s'.machine ≠ none

theorem Continues.refl (s : DebugSession M) : Continues s s := ⟨rfl, rfl, fun h => h⟩

theorem Continues.trans {s s' s'' : DebugSession M} (h : Continues s s') (h' : Continues s' s'') :
    Continues s s'' :=
  ⟨h'.config.trans h.config, h'.breakpoints.trans h.breakpoints,
    fun hloaded => h'.loaded (h.loaded hloaded)⟩

section

variable (s : DebugSession M)

include s

theorem Continues.moved (machine : M) : Continues s { s with machine := some machine } :=
  ⟨rfl, rfl, fun _ => Option.some_ne_none machine⟩

theorem Continues.onMachine (call : M → Except String M) : Continues s (s.onMachine call).2 := by
  unfold DebugSession.onMachine
  split
  · exact .refl s
  split
  · exact .refl s
  · exact .moved s _

theorem Continues.stepMachine (machine : M) : Continues s (s.stepMachine ops machine) := by
  refine ⟨by simp, by simp, fun _ => ?_⟩
  rw [stepMachine_machine]
  exact Option.some_ne_none _

theorem Continues.recordHit (machine : M) :
    Continues s (s.recordCurrentBreakpointHit ops machine).2 := by
  unfold recordCurrentBreakpointHit recordBreakpointHit
  split
  · refine ⟨by simp, by simp, fun hloaded => ?_⟩
    rwa [appendEvent_machine]
  · exact .refl s

theorem Continues.stepCycle : Continues s (s.stepCycle ops).2 := by
  unfold DebugSession.stepCycle
  split
  · exact .refl s
  · exact Continues.stepMachine ops s _

end

namespace Continues

theorem stepToCommit (instretBefore : BitVec 64) (budget : ℕ) (s : DebugSession M) :
    Continues s (s.stepToCommit ops instretBefore budget).2 := by
  induction budget generalizing s with
  | zero => exact .refl s
  | succ budget ih =>
    have hstep := stepCycle ops s
    unfold DebugSession.stepToCommit
    cases hresult : s.stepCycle ops with
    | mk result s' =>
      rw [hresult] at hstep
      cases result with
      | error message => exact hstep
      | ok =>
        dsimp only
        split
        · exact hstep
        split
        · exact hstep
        · exact hstep.trans (ih s')

theorem stepUntil (found : M → M → Bool) (exceeded : String) (steps : ℕ) (machine : M)
    (s : DebugSession M) :
    Continues s (s.stepUntil ops found exceeded steps machine).2 := by
  induction steps generalizing machine s with
  | zero => exact .refl s
  | succ steps ih =>
    have hhit := (moved s (ops.step machine)).trans
      (recordHit ops { s with machine := some (ops.step machine) } (ops.step machine))
    unfold DebugSession.stepUntil
    dsimp only
    split
    · rename_i hresult
      rw [hresult] at hhit
      exact hhit
    rename_i hresult
    rw [hresult] at hhit
    split
    · exact hhit
    split
    · exact hhit
    · exact hhit.trans (ih _ _)

theorem stepToHalt (steps : ℕ) (machine : M) (s : DebugSession M) :
    Continues s (s.stepToHalt ops steps machine).2 := by
  induction steps generalizing machine s with
  | zero => exact .refl s
  | succ steps ih =>
    have hhit := (moved s (ops.step machine)).trans
      (recordHit ops { s with machine := some (ops.step machine) } (ops.step machine))
    unfold DebugSession.stepToHalt
    dsimp only
    split
    · exact .moved s _
    split
    · rename_i hresult
      rw [hresult] at hhit
      exact hhit
    · rename_i hresult
      rw [hresult] at hhit
      exact hhit.trans (ih _ _)

theorem runUntilUartContains (s : DebugSession M) (text : List Char) (maxSteps : ℕ) :
    Continues s (s.runUntilUartContains ops text maxSteps).2 := by
  unfold DebugSession.runUntilUartContains
  split
  · exact .refl s
  rename_i machine _
  have hhit := recordHit ops s machine
  split
  · exact .refl s
  split
  · rename_i hresult
    rw [hresult] at hhit
    exact hhit
  · rename_i hresult
    rw [hresult] at hhit
    exact hhit.trans (stepUntil ops _ _ _ _ _)

theorem runUntilNewUartContains (s : DebugSession M) (offset : ℕ) (text : List Char)
    (maxSteps : ℕ) : Continues s (s.runUntilNewUartContains ops offset text maxSteps).2 := by
  unfold DebugSession.runUntilNewUartContains
  split
  · exact .refl s
  rename_i machine _
  have hhit := recordHit ops s machine
  split
  · exact .refl s
  split
  · rename_i hresult
    rw [hresult] at hhit
    exact hhit
  · rename_i hresult
    rw [hresult] at hhit
    exact hhit.trans (stepUntil ops _ _ _ _ _)

theorem runUntilHalt (s : DebugSession M) (maxSteps : ℕ) :
    Continues s (s.runUntilHalt ops maxSteps).2 := by
  unfold DebugSession.runUntilHalt
  split
  · exact .refl s
  rename_i machine _
  have hhit := recordHit ops s machine
  split
  · exact .refl s
  split
  · rename_i hresult
    rw [hresult] at hhit
    exact hhit
  · rename_i hresult
    rw [hresult] at hhit
    exact hhit.trans (stepToHalt ops _ _ _)

end Continues

theorem perform_continues (s : DebugSession M)
    (hkeeps : command.keepsConfig) : Continues s (s.perform ops files command).2 := by
  cases command with
  | loadElf path options => cases hkeeps
  | loadBinary path addr options => cases hkeeps
  | loadBinaryPayload path addr => cases hkeeps
  | setGpr reg value => cases hkeeps
  | breakAt addr => cases hkeeps
  | reset => cases hkeeps
  | setMemory addr value size virtualAddress => exact Continues.onMachine s _
  | setCsr csr value => exact Continues.onMachine s _
  | stepCycle => exact Continues.stepCycle ops s
  | stepCommit =>
    change Continues s (s.stepCommit ops).2
    unfold DebugSession.stepCommit
    split
    · exact .refl s
    · exact Continues.stepToCommit ops _ _ s
  | runUntilUartContains text maxSteps => exact Continues.runUntilUartContains ops s text maxSteps
  | runUntilNewUartContains offset text maxSteps =>
    exact Continues.runUntilNewUartContains ops s offset text maxSteps
  | runUntilHalt maxSteps => exact Continues.runUntilHalt ops s maxSteps
  | uartInput text => exact Continues.onMachine s _
  | uartOutput offset => exact .refl s
  | debugStepRaw => exact Continues.onMachine s _
  | jitDispatch => exact Continues.onMachine s _
  | snapshot => exact .refl s

/-- The machine that was loaded is still loaded, with its configuration, its post-load actions
and its breakpoints. -/
def KeepsLoaded (s s' : DebugSession M) : Prop :=
  ∀ machine, s.machine = some machine →
    s'.machine = some machine ∧ s'.config = s.config ∧ s'.breakpoints = s.breakpoints

/-- A reset rebuilds the machine up to a post-load action, and it is the one loaded before. -/
def RebuiltAlike (s : DebugSession M) : Prop :=
  ∃ image, loadImage ops files s.config = .ok image ∧
    s.machine = some (replay ops files image s.config.postLoadActions).2

variable {message : String}

theorem loadWith_throws (s : DebugSession M) {config : LoadConfig}
    (hactions : config.postLoadActions = [])
    (hthrows : (s.loadWith ops files config).1 = .error message) :
    (s.loadWith ops files config).2.machine = none := by
  unfold loadWith recreateMachine at hthrows ⊢
  cases himage : loadImage ops files config with
  | error text => rfl
  | ok image =>
    rw [himage] at hthrows
    simp only [hactions, replay] at hthrows
    cases hthrows

theorem reset_throws (s : DebugSession M) (hthrows : (s.reset ops files).1 = .error message) :
    KeepsLoaded s (s.reset ops files).2 ↔ s.machine = none ∨ RebuiltAlike ops files s := by
  cases hmachine : s.machine with
  | none =>
    refine ⟨fun _ => .inl rfl, fun _ machine hsome => ?_⟩
    rw [hmachine] at hsome
    cases hsome
  | some machine =>
    unfold reset recreateMachine at hthrows ⊢
    rw [hmachine] at hthrows ⊢
    cases himage : loadImage ops files s.config with
    | error text =>
      constructor
      · intro hkeeps
        cases (hkeeps machine hmachine).1
      rintro (hnone | ⟨image, hok, _⟩)
      · cases hnone
      rw [himage] at hok
      cases hok
    | ok image =>
      rw [himage] at hthrows
      dsimp only at hthrows ⊢
      cases hresult : (replay ops files image s.config.postLoadActions).1 with
      | ok =>
        rw [hresult] at hthrows
        cases hthrows
      | error text =>
        constructor
        · intro hkeeps
          have hsame := (hkeeps machine hmachine).1
          exact .inr ⟨image, himage, hmachine.trans hsame.symm⟩
        rintro (hnone | ⟨other, hok, hsame⟩)
        · cases hnone
        rw [himage] at hok
        cases hok
        intro machine' hsome
        exact ⟨hsame.symm.trans hsome, rfl, rfl⟩

theorem perform_throws (s : DebugSession M) (hreplaces : command.replaces)
    (hthrows : (s.perform ops files command).1 = .error message) :
    KeepsLoaded s (s.perform ops files command).2 ↔
      s.machine = none ∨ (command = .reset ∧ RebuiltAlike ops files s) := by
  have hload : ∀ {config : LoadConfig}, config.postLoadActions = [] →
      (s.loadWith ops files config).1 = .error message → command ≠ .reset →
      (KeepsLoaded s (s.loadWith ops files config).2 ↔
        s.machine = none ∨ (command = .reset ∧ RebuiltAlike ops files s)) := by
    intro config hactions herror hother
    have hnone := loadWith_throws ops files s hactions herror
    constructor
    · intro hkeeps
      cases hmachine : s.machine with
      | none => exact .inl rfl
      | some machine =>
        rw [(hkeeps machine hmachine).1] at hnone
        cases hnone
    · rintro (hmachine | ⟨hreset, _⟩)
      · intro machine hsome
        rw [hmachine] at hsome
        cases hsome
      · exact absurd hreset hother
  cases command with
  | loadElf path options => exact hload rfl hthrows (by simp)
  | loadBinary path addr options => exact hload rfl hthrows (by simp)
  | reset =>
    rw [eq_self, true_and]
    exact reset_throws ops files s hthrows
  | _ => cases hreplaces

end DebugSession

end VisualCpu
