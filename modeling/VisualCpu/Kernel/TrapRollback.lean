import VisualCpu.Kernel.TrapRuntime

/-!
# The rollback of a failed preparation

Binding a runtime touches the runtime itself, at most three others that the target's policies
name, and the policies of at most two contexts. A rollback has room for exactly these.
-/

namespace VisualCpu

open List Function TrapContext TrapMemory

variable (context : TrapContext) {c c' c'' : TrapContext}

def TrapContext.Refers (runtime : ℕ) : Prop :=
  context.supervisorTimerPolicy.userRuntime = some runtime ∨
    context.supervisorExternalPolicy.userRuntime = some runtime ∨
    context.userEcallPolicy.userRuntime = some runtime

instance (context : TrapContext) (runtime : ℕ) : Decidable (context.Refers runtime) :=
  inferInstanceAs (Decidable (_ ∨ _ ∨ _))

def SameButBinding (context context' : TrapContext) : Prop :=
  ∀ binding, context'.restoreBinding binding = context.restoreBinding binding

def SameButStandard (context context' : TrapContext) : Prop :=
  ∀ binding handlers, (context'.restoreBinding binding).restoreHandlers handlers =
    (context.restoreBinding binding).restoreHandlers handlers

@[simp] theorem TrapContext.restore_capture :
    context.restoreBinding context.captureBinding = context := rfl

@[simp] theorem TrapContext.restoreHandlers_capture :
    context.restoreHandlers context.captureHandlers = context := by
  unfold restoreHandlers captureHandlers
  simp

theorem SameButBinding.refl : SameButBinding context context :=
  fun _ => rfl

theorem SameButBinding.trans (h : SameButBinding c c')
    (h' : SameButBinding c' c'') : SameButBinding c c'' :=
  fun binding => (h' binding).trans (h binding)

theorem SameButBinding.standard {c c' : TrapContext} (h : SameButBinding c c') :
    SameButStandard c c' := fun binding handlers => by rw [h binding]

theorem SameButStandard.trans (h : SameButStandard c c')
    (h' : SameButStandard c' c'') : SameButStandard c c'' :=
  fun binding handlers => (h' binding handlers).trans (h binding handlers)

theorem TrapContext.clearRuntimePolicyRefs_same (runtime : ℕ) :
    SameButBinding context (context.clearRuntimePolicyRefs runtime) := fun _ => rfl

/-- Everything but the processes and the active runtime, which a rollback always restores. -/
structure BindFrame (m : TrapMemory) (runtime context : ℕ) (m' : TrapMemory) : Prop where
  runtimes : ∀ r, r ≠ runtime → ¬ (m.contexts context).Refers r → m'.runtimes r = m.runtimes r
  contexts : ∀ c, c ≠ context → (m.runtimes runtime).trapContext ≠ some c →
    m'.contexts c = m.contexts c
  binding : ∀ c, c ≠ context → SameButBinding (m.contexts c) (m'.contexts c)
  spaces : m'.spaces = m.spaces
  activeTrapContext : m'.activeTrapContext = m.activeTrapContext
  activeProcess : m'.activeProcess = m.activeProcess
  activeAddressSpace : m'.activeAddressSpace = m.activeAddressSpace

namespace BindRollback

variable {m m' : TrapMemory} {runtime context : ℕ}

/-- What a rollback restores is a snapshot. -/
def Snapshots (m : TrapMemory) (entries : List (ℕ × TrapUserRuntime)) : Prop :=
  ∀ entry ∈ entries, entry.2 = m.runtimes entry.1

variable {entries : List (ℕ × TrapUserRuntime)}

theorem Snapshots.capture (h : Snapshots m entries)
    (runtime : Option ℕ) : Snapshots m (captureRuntime m entries runtime) := by
  unfold captureRuntime
  cases runtime with
  | none => exact h
  | some runtime =>
    simp only
    split_ifs
    · exact h
    · exact h
    intro entry hentry
    rcases mem_append.1 hentry with hold | hnew
    · exact h entry hold
    · rw [mem_singleton.1 hnew]

theorem captureRuntime_subset (entries : List (ℕ × TrapUserRuntime)) (runtime : Option ℕ) :
    ∀ r ∈ entries.map Prod.fst, r ∈ (captureRuntime m entries runtime).map Prod.fst := by
  intro r hr
  unfold captureRuntime
  cases runtime with
  | none => exact hr
  | some runtime =>
    simp only
    split_ifs
    · exact hr
    · exact hr
    rw [map_append]
    exact mem_append_left _ hr

theorem captureRuntime_mem {r : ℕ} (hroom : entries.length < rollbackEntryCount) :
    r ∈ (captureRuntime m entries (some r)).map Prod.fst := by
  simp only [captureRuntime]
  split_ifs with hknown hfull
  · exact hknown
  · omega
  · simp

theorem captureRuntime_length (entries : List (ℕ × TrapUserRuntime)) (runtime : Option ℕ) :
    (captureRuntime m entries runtime).length ≤ entries.length + 1 := by
  unfold captureRuntime
  cases runtime with
  | none => exact Nat.le_succ _
  | some runtime =>
    simp only
    split_ifs
    · exact Nat.le_succ _
    · exact Nat.le_succ _
    · simp

theorem capture_snapshots (m : TrapMemory) (runtime context : ℕ) :
    Snapshots m (capture m runtime context).entries := by
  have hnil : Snapshots m [] := fun entry hentry => by cases hentry
  exact (((hnil.capture _).capture _).capture _).capture _

theorem capture_covers (m : TrapMemory) (runtime context : ℕ) {r : ℕ}
    (h : r = runtime ∨ (m.contexts context).Refers r) :
    r ∈ (capture m runtime context).entries.map Prod.fst := by
  have h₁ := @captureRuntime_length m [] (some runtime)
  have h₂ := @captureRuntime_length m (captureRuntime m [] (some runtime))
    (m.contexts context).supervisorTimerPolicy.userRuntime
  have h₃ := @captureRuntime_length m
    (captureRuntime m (captureRuntime m [] (some runtime))
      (m.contexts context).supervisorTimerPolicy.userRuntime)
    (m.contexts context).supervisorExternalPolicy.userRuntime
  simp only [length_nil] at h₁
  unfold capture
  rcases h with rfl | htimer | hexternal | hecall
  · refine captureRuntime_subset _ _ _
      (captureRuntime_subset _ _ _ (captureRuntime_subset _ _ _ ?_))
    exact captureRuntime_mem (by simp [rollbackEntryCount])
  · refine captureRuntime_subset _ _ _ (captureRuntime_subset _ _ _ ?_)
    rw [htimer]
    exact captureRuntime_mem (by unfold rollbackEntryCount; omega)
  · refine captureRuntime_subset _ _ _ ?_
    rw [hexternal]
    exact captureRuntime_mem (by unfold rollbackEntryCount; omega)
  · rw [hecall]
    exact captureRuntime_mem (by unfold rollbackEntryCount; omega)

theorem restoreRuntimes_other (entries : List (ℕ × TrapUserRuntime)) (m' : TrapMemory) :
    ∃ runtimes, restoreRuntimes m' entries = { m' with runtimes := runtimes } := by
  induction entries generalizing m' with
  | nil => exact ⟨m'.runtimes, rfl⟩
  | cons entry entries ih =>
    obtain ⟨runtimes, h⟩ := ih (m'.updateRuntime entry.1 fun _ => entry.2)
    exact ⟨runtimes, h⟩

theorem restoreRuntimes_runtimes (hsnapshots : Snapshots m entries) (r : ℕ) (m' : TrapMemory)
    (h : r ∈ entries.map Prod.fst ∨ m'.runtimes r = m.runtimes r) :
    (restoreRuntimes m' entries).runtimes r = m.runtimes r := by
  induction entries generalizing m' with
  | nil =>
    rcases h with h | h
    · cases h
    · exact h
  | cons entry entries ih =>
    refine ih (fun other hother => hsnapshots other (mem_cons_of_mem _ hother)) _ ?_
    by_cases hentry : r = entry.1
    · right
      simp only [updateRuntime, hentry, update_self]
      exact hsnapshots entry mem_cons_self
    rcases h with h | h
    · rw [map_cons, mem_cons] at h
      exact .inl (h.resolve_left hentry)
    right
    simp only [updateRuntime, update_of_ne hentry]
    exact h

theorem restore_eq (h : BindFrame m runtime context m') : (capture m runtime context).restore m' =
      { m with
        processes := m'.processes
        contexts := update m.contexts context
          ((m'.contexts context).restoreBinding (m.contexts context).captureBinding) } := by
  have hruntimes : ∀ r, (restoreRuntimes m' (capture m runtime context).entries).runtimes r =
      m.runtimes r := by
    intro r
    refine restoreRuntimes_runtimes (capture_snapshots m runtime context) r m' ?_
    by_cases hr : r = runtime ∨ (m.contexts context).Refers r
    · exact .inl (capture_covers m runtime context hr)
    rw [not_or] at hr
    exact .inr (h.runtimes r hr.1 hr.2)
  obtain ⟨runtimes, hrest⟩ := restoreRuntimes_other (capture m runtime context).entries m'
  rw [hrest] at hruntimes
  have hall : runtimes = m.runtimes := funext hruntimes
  unfold restore
  rw [hrest, hall]
  -- the other context that was bound before is restored first
  have hcontexts : ∀ contexts : ℕ → TrapContext,
      (∀ c, c ≠ context → contexts c = m.contexts c) → contexts context = m'.contexts context →
      update contexts context
          ((contexts context).restoreBinding (m.contexts context).captureBinding) =
        update m.contexts context
          ((m'.contexts context).restoreBinding (m.contexts context).captureBinding) := by
    intro contexts hothers hsame
    funext c
    by_cases hc : c = context
    · rw [hc, update_self, update_self, hsame]
    · rw [update_of_ne hc, update_of_ne hc, hothers c hc]
  simp only [capture]
  cases hprevious : (m.runtimes runtime).trapContext with
  | none =>
    simp only [updateContext, h.spaces, h.activeTrapContext, h.activeProcess,
      h.activeAddressSpace]
    rw [hcontexts m'.contexts (fun c hc => h.contexts c hc (by rw [hprevious]; simp)) rfl]
  | some previous =>
    by_cases hsame : previous = context
    · simp only [hsame, if_true, updateContext, h.spaces, h.activeTrapContext,
        h.activeProcess, h.activeAddressSpace]
      rw [hcontexts m'.contexts (fun c hc => h.contexts c hc ?_) rfl]
      rw [hprevious, hsame, ne_eq, Option.some.injEq]
      exact fun heq => hc heq.symm
    · simp only [hsame, if_false, updateContext, h.spaces, h.activeTrapContext,
        h.activeProcess, h.activeAddressSpace]
      rw [hcontexts]
      · intro c hc
        by_cases hp : c = previous
        · rw [hp, update_self, h.binding previous hsame, restore_capture]
        rw [update_of_ne hp]
        refine h.contexts c hc ?_
        rw [hprevious, ne_eq, Option.some.injEq]
        exact fun heq => hp heq.symm
      · rw [update_of_ne (fun heq => hsame heq.symm)]

end BindRollback

end VisualCpu
