import VisualCpu.Kernel.TrapBindings

/-!
# Binding a runtime to a context
-/

namespace VisualCpu

open Function TrapMemory

namespace TrapMemory

variable {m : TrapMemory} {runtime context process : ℕ}

/-- The runtime leaves its context, and the target's policies let go of theirs. -/
def detachAll (m : TrapMemory) (runtime context : ℕ) : TrapMemory :=
  let m := m.detachRuntimeFromContextBinding (some runtime) (m.runtimes runtime).trapContext
  let m := m.detachRuntimeFromContextBinding
    (m.contexts context).supervisorTimerPolicy.userRuntime (some context)
  let m := m.detachRuntimeFromContextBinding
    (m.contexts context).supervisorExternalPolicy.userRuntime (some context)
  m.detachRuntimeFromContextBinding (m.contexts context).userEcallPolicy.userRuntime
    (some context)

def rebind (m : TrapMemory) (runtime context process : ℕ) (arg0 : KernelWord) : TrapMemory :=
  ((m.detachAll runtime context).updateRuntime runtime fun r =>
    { r with trapContext := some context, process := some process, arg0 := arg0 }
    ).resetPreparedRuntimeState runtime

theorem bind_eq (h : (m.processes process).addressSpace ≠ none) (arg0 : KernelWord) :
    m.trapUserRuntimeBind (some runtime) (some context) (some process) arg0 =
      (true, m.rebind runtime context process arg0) := if_neg h

theorem rebind_self (m : TrapMemory) (runtime context process : ℕ) (arg0 : KernelWord) :
    ((m.rebind runtime context process arg0).runtimes runtime).trapContext = some context ∧
      ((m.rebind runtime context process arg0).runtimes runtime).process = some process ∧
      ((m.rebind runtime context process arg0).runtimes runtime).expectedEcallPc = 0 := by
  simp [rebind, resetPreparedRuntimeState, updateRuntime, dropActive, TrapUserRuntime.reset]

theorem rebind_other (m : TrapMemory) (runtime context process : ℕ) (arg0 : KernelWord) {r : ℕ}
    (hr : r ≠ runtime) :
    (m.rebind runtime context process arg0).runtimes r =
      (m.detachAll runtime context).runtimes r := by
  simp [rebind, resetPreparedRuntimeState, updateRuntime, dropActive, hr]

theorem dropActive_active {r : ℕ} (h : (m.dropActive runtime).activeUserRuntime = some r) :
    r ≠ runtime ∧ m.activeUserRuntime = some r := by
  simp only [dropActive] at h
  by_cases hdrop : m.activeUserRuntime = some runtime
  · rw [if_pos hdrop] at h
    cases h
  rw [if_neg hdrop] at h
  exact ⟨fun heq => hdrop (by rw [h, heq]), h⟩

theorem detachAll_induction {P : TrapMemory → Prop}
    (hdetach : ∀ m t c, P m → P (m.detachRuntimeFromContextBinding t c)) (h : P m)
    (runtime context : ℕ) : P (m.detachAll runtime context) :=
  hdetach _ _ _ (hdetach _ _ _ (hdetach _ _ _ (hdetach _ _ _ h)))

theorem detachAll_loosened (m : TrapMemory) (runtime context r : ℕ) :
    Loosened (m.runtimes r) ((m.detachAll runtime context).runtimes r) :=
  detachAll_induction (P := fun m' => Loosened (m.runtimes r) (m'.runtimes r))
    (fun m' t c h => h.trans (m'.detach_loosened t c r)) (.inl rfl) runtime context

theorem detachAll_self (m : TrapMemory) (runtime context : ℕ) :
    ((m.detachAll runtime context).runtimes runtime).trapContext = none := by
  have hfirst : ((m.detachRuntimeFromContextBinding (some runtime)
      (m.runtimes runtime).trapContext).runtimes runtime).trapContext = none := by
    cases hbound : (m.runtimes runtime).trapContext with
    | none => exact hbound
    | some c =>
      rw [detach_runtimes]
      simp [hbound]
  have hstays : ∀ (m' : TrapMemory) t c, (m'.runtimes runtime).trapContext = none →
      ((m'.detachRuntimeFromContextBinding t c).runtimes runtime).trapContext = none := by
    intro m' t c hnone
    rcases m'.detach_loosened t c runtime with hsame | ⟨hnone', _⟩
    · rw [hsame]
      exact hnone
    · exact hnone'
  exact hstays _ _ _ (hstays _ _ _ (hstays _ _ _ hfirst))

theorem detachAll_named (m : TrapMemory) {runtime context r : ℕ}
    (hbound : ((m.detachAll runtime context).runtimes r).trapContext = some context) :
    ¬ (m.contexts context).Refers r := by
  have hback : ∀ (m' : TrapMemory) t c,
      ((m'.detachRuntimeFromContextBinding t c).runtimes r).trapContext = some context →
      (m'.runtimes r).trapContext = some context := by
    intro m' t c hafter
    rw [← (m'.detach_loosened t c r).trapContext hafter]
    exact hafter
  simp only [detachAll] at hbound
  have hthird := hback _ _ _ hbound
  have hsecond := hback _ _ _ hthird
  have hfirst := hback _ _ _ hsecond
  obtain ⟨htimer₁, hexternal₁, hecall₁⟩ := detach_slots _ _ _ hfirst
  obtain ⟨_, hexternal₂, hecall₂⟩ := detach_slots _ _ _ hsecond
  obtain ⟨_, _, hecall₃⟩ := detach_slots _ _ _ hthird
  rintro (htimer | hexternal | hecall)
  · rw [htimer₁ htimer] at hsecond
    exact detach_unbinds _ _ _ hsecond
  · rw [hexternal₂ (hexternal₁ hexternal)] at hthird
    exact detach_unbinds _ _ _ hthird
  · rw [hecall₃ (hecall₂ (hecall₁ hecall))] at hbound
    exact detach_unbinds _ _ _ hbound

end TrapMemory

namespace TrapBindings

variable {m : TrapMemory} {runtime context process : ℕ} {arg0 : KernelWord}

theorem detachAll (h : TrapBindings m) (runtime context : ℕ) :
    TrapBindings (m.detachAll runtime context) :=
  TrapMemory.detachAll_induction (fun _ t c h => h.detach t c) h runtime context

theorem rebind_unprepared {r c : ℕ}
    (h : PreparedFor (m.rebind runtime context process arg0) r c) : r ≠ runtime := by
  rintro rfl
  exact h.2 (m.rebind_self r context process arg0).2.2

theorem rebind (h : TrapBindings m) (runtime context process : ℕ) (arg0 : KernelWord) :
    TrapBindings (m.rebind runtime context process arg0) := by
  have hall := h.detachAll runtime context
  have hself := m.detachAll_self runtime context
  refine ⟨fun c r href => ?_, fun r hactive => ?_, fun c r r' hr hr' => ?_⟩
  · have hold := hall.refs c r href
    have hne : r ≠ runtime := by
      intro heq
      rw [heq, hself] at hold
      cases hold
    rw [m.rebind_other runtime context process arg0 hne]
    exact hold
  · have hdropped : ((m.detachAll runtime context).dropActive runtime).activeUserRuntime = some r :=
      hactive
    obtain ⟨hne, hold⟩ := TrapMemory.dropActive_active hdropped
    rw [m.rebind_other runtime context process arg0 hne]
    exact hall.active r hold
  · have hne := rebind_unprepared hr
    have hne' := rebind_unprepared hr'
    unfold PreparedFor at hr hr'
    rw [m.rebind_other runtime context process arg0 hne] at hr
    rw [m.rebind_other runtime context process arg0 hne'] at hr'
    exact hall.onePrepared c r r' hr hr'

theorem rebind_prepared {r : ℕ}
    (h : PreparedFor (m.rebind runtime context process arg0) r context) :
    r ≠ runtime ∧ PreparedFor m r context ∧ ¬ (m.contexts context).Refers r := by
  have hne := rebind_unprepared h
  unfold PreparedFor at h
  rw [m.rebind_other runtime context process arg0 hne] at h
  exact ⟨hne, TrapBindings.prepared_loosened (m.detachAll_loosened runtime context) h,
    m.detachAll_named h.1⟩

end TrapBindings

namespace BindFrame

variable {m m' : TrapMemory} {runtime context : ℕ}

theorem refl (m : TrapMemory) (runtime context : ℕ) : BindFrame m runtime context m :=
  ⟨fun _ _ _ => rfl, fun _ _ _ => rfl, fun _ _ => SameButBinding.refl _, rfl, rfl, rfl, rfl⟩

section

variable (h : BindFrame m runtime context m')

include h

theorem detach {t c : ℕ} (ht : t = runtime ∨ (m.contexts context).Refers t)
    (hc : c = context ∨ (m.runtimes runtime).trapContext = some c) :
    BindFrame m runtime context (m'.detachRuntimeFromContextBinding (some t) (some c)) := by
  obtain ⟨runtimes, contexts, active, hrest⟩ := m'.detach_rest (some t) (some c)
  refine ⟨fun r hr hnamed => ?_, fun c' hc' hbound => ?_, fun c' hc' => ?_, ?_, ?_, ?_, ?_⟩
  · have hne : r ≠ t := by
      rintro rfl
      rcases ht with heq | href
      · exact hr heq
      · exact hnamed href
    rw [TrapMemory.detach_runtimes, if_neg (fun hand => hne hand.1)]
    exact h.runtimes r hr hnamed
  · have hne : c' ≠ c := by
      rintro rfl
      rcases hc with heq | hsome
      · exact hc' heq
      · exact hbound hsome
    rw [detach_contexts, update_of_ne hne]
    exact h.contexts c' hc' hbound
  · rw [detach_contexts]
    by_cases heq : c' = c
    · subst heq
      rw [update_self]
      exact (h.binding c' hc').trans (TrapContext.clearRuntimePolicyRefs_same _ t)
    · rw [update_of_ne heq]
      exact h.binding c' hc'
  · rw [hrest]
    exact h.spaces
  · rw [hrest]
    exact h.activeTrapContext
  · rw [hrest]
    exact h.activeProcess
  · rw [hrest]
    exact h.activeAddressSpace

theorem updateRuntime (f : TrapUserRuntime → TrapUserRuntime) :
    BindFrame m runtime context (m'.updateRuntime runtime f) := by
  refine ⟨fun r hr hnamed => ?_, h.contexts, h.binding, h.spaces, h.activeTrapContext,
    h.activeProcess, h.activeAddressSpace⟩
  simp only [TrapMemory.updateRuntime, update_of_ne hr]
  exact h.runtimes r hr hnamed

theorem dropActive (r : ℕ) : BindFrame m runtime context (m'.dropActive r) :=
  ⟨h.runtimes, h.contexts, h.binding, h.spaces, h.activeTrapContext, h.activeProcess,
    h.activeAddressSpace⟩

theorem updateContext (f : TrapContext → TrapContext) :
    BindFrame m runtime context (m'.updateContext context f) := by
  refine ⟨h.runtimes, fun c hc hbound => ?_, fun c hc => ?_, h.spaces, h.activeTrapContext,
    h.activeProcess, h.activeAddressSpace⟩
  · simp only [TrapMemory.updateContext, update_of_ne hc]
    exact h.contexts c hc hbound
  simp only [TrapMemory.updateContext, update_of_ne hc]
  exact h.binding c hc

theorem updateProcess (p : ℕ) (f : VmProcess → VmProcess) :
    BindFrame m runtime context (m'.updateProcess p f) :=
  ⟨h.runtimes, h.contexts, h.binding, h.spaces, h.activeTrapContext, h.activeProcess,
    h.activeAddressSpace⟩

theorem detachAll (hruntimes : m'.runtimes = m.runtimes) (hcontexts : m'.contexts = m.contexts) :
    BindFrame m runtime context (m'.detachAll runtime context) := by
  -- the slots of the target name only runtimes that they named at first
  have hslot : ∀ (m₁ : TrapMemory) (slot : Option ℕ), BindFrame m runtime context m₁ →
      (∀ t, slot = some t → (m.contexts context).Refers t) →
      BindFrame m runtime context
        (m₁.detachRuntimeFromContextBinding slot (some context)) := by
    intro m₁ slot h₁ hnames
    cases slot with
    | none => exact h₁
    | some t => exact h₁.detach (.inr (hnames t rfl)) (.inl rfl)
  have hown : BindFrame m runtime context (m'.detachRuntimeFromContextBinding (some runtime)
      (m'.runtimes runtime).trapContext) := by
    rw [hruntimes]
    cases hbound : (m.runtimes runtime).trapContext with
    | none => exact h
    | some c => exact h.detach (.inl rfl) (.inr hbound)
  have hrefs₀ : ∀ t, (m'.contexts context).Refers t → (m.contexts context).Refers t := by
    rw [hcontexts]
    exact fun t ht => ht
  refine hslot _ _ (hslot _ _ (hslot _ _ hown fun t ht => ?_) fun t ht => ?_) fun t ht => ?_
  · exact hrefs₀ t (detach_refs _ _ _ (.inl ht))
  · exact hrefs₀ t (detach_refs _ _ _ (detach_refs _ _ _
      (.inr (.inl ht))))
  · exact hrefs₀ t (detach_refs _ _ _ (detach_refs _ _ _
      (detach_refs _ _ _ (.inr (.inr ht)))))

end

end BindFrame

end VisualCpu
