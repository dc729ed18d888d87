import VisualCpu.Kernel.TrapRollback

/-!
# The bindings between contexts and runtimes

A policy names only runtimes that are bound to its context. Binding a runtime detaches those
that the target's policies name, so a context keeps one prepared runtime as long as each of
them is named by a policy when the next one is prepared.
-/

namespace VisualCpu

open Function TrapMemory

/-- The runtime is ready to run under the context. -/
def PreparedFor (m : TrapMemory) (runtime context : ℕ) : Prop :=
  (m.runtimes runtime).trapContext = some context ∧ (m.runtimes runtime).expectedEcallPc ≠ 0

/-- The same binding is recorded in every place. -/
structure TrapBindings (m : TrapMemory) : Prop where
  refs : ∀ c r, (m.contexts c).Refers r → (m.runtimes r).trapContext = some c
  active : ∀ r, m.activeUserRuntime = some r → ∃ c, (m.runtimes r).trapContext = some c ∧
    (m.runtimes r).process.isSome ∧ m.activeTrapContext = some c
  onePrepared : ∀ c r r', PreparedFor m r c → PreparedFor m r' c → r = r'

/-- The runtime is detached, or as it was. -/
def Loosened (r r' : TrapUserRuntime) : Prop :=
  r' = r ∨ r'.trapContext = none ∧ r'.expectedEcallPc = 0

theorem Loosened.trans {r r' r'' : TrapUserRuntime} (h : Loosened r r') (h' : Loosened r' r'') :
    Loosened r r'' := by
  rcases h' with rfl | h'
  · exact h
  · exact .inr h'

theorem Loosened.trapContext {r r' : TrapUserRuntime} (h : Loosened r r') {c : ℕ}
    (hc : r'.trapContext = some c) : r' = r := by
  rcases h with h | ⟨hnone, _⟩
  · exact h
  rw [hnone] at hc
  cases hc

theorem TrapContext.refers_clear {context : TrapContext} {t r : ℕ}
    (h : (context.clearRuntimePolicyRefs t).Refers r) : context.Refers r ∧ r ≠ t := by
  unfold TrapContext.Refers TrapContext.clearRuntimePolicyRefs at h
  simp only at h
  rcases h with h | h | h
  · split_ifs at h with hslot
    exact ⟨.inl h, fun heq => hslot (by rw [h, heq])⟩
  · split_ifs at h with hslot
    exact ⟨.inr (.inl h), fun heq => hslot (by rw [h, heq])⟩
  · split_ifs at h with hslot
    exact ⟨.inr (.inr h), fun heq => hslot (by rw [h, heq])⟩

namespace TrapMemory

variable {m : TrapMemory} {t c : ℕ}

theorem detach_bound (h : (m.runtimes t).trapContext = some c) :
    m.detachRuntimeFromContextBinding (some t) (some c) =
      ((m.clearRuntimePolicyRefs (some c) t).resetPreparedRuntimeState t).updateRuntime t fun r =>
        { r with trapContext := none } := if_pos h

theorem detach_unbound (h : (m.runtimes t).trapContext ≠ some c) :
    m.detachRuntimeFromContextBinding (some t) (some c) =
      m.clearRuntimePolicyRefs (some c) t := if_neg h

theorem detach_runtimes (m : TrapMemory) (t c r : ℕ) :
    (m.detachRuntimeFromContextBinding (some t) (some c)).runtimes r =
      if r = t ∧ (m.runtimes t).trapContext = some c then
        { (m.runtimes t).reset with trapContext := none }
      else m.runtimes r := by
  by_cases hbound : (m.runtimes t).trapContext = some c
  · rw [detach_bound hbound]
    by_cases hr : r = t
    · simp [clearRuntimePolicyRefs, updateContext, resetPreparedRuntimeState, dropActive,
        updateRuntime, hr, hbound]
    simp [clearRuntimePolicyRefs, updateContext, resetPreparedRuntimeState, dropActive,
      updateRuntime, hr]
  · rw [detach_unbound hbound]
    simp [clearRuntimePolicyRefs, updateContext, hbound]

theorem detach_contexts (m : TrapMemory) (t c : ℕ) :
    (m.detachRuntimeFromContextBinding (some t) (some c)).contexts =
      update m.contexts c ((m.contexts c).clearRuntimePolicyRefs t) := by
  by_cases hbound : (m.runtimes t).trapContext = some c
  · rw [detach_bound hbound]
    rfl
  rw [detach_unbound hbound]
  rfl

theorem detach_active (m : TrapMemory) (t c : ℕ) :
    (m.detachRuntimeFromContextBinding (some t) (some c)).activeUserRuntime =
      if m.activeUserRuntime = some t ∧ (m.runtimes t).trapContext = some c then none
      else m.activeUserRuntime := by
  by_cases hbound : (m.runtimes t).trapContext = some c
  · rw [detach_bound hbound]
    by_cases hactive : m.activeUserRuntime = some t
    · simp [clearRuntimePolicyRefs, updateContext, resetPreparedRuntimeState, dropActive,
        updateRuntime, hbound, hactive]
    simp [clearRuntimePolicyRefs, updateContext, resetPreparedRuntimeState, dropActive,
      updateRuntime, hactive]
  · rw [detach_unbound hbound]
    simp [clearRuntimePolicyRefs, updateContext, hbound]

theorem detach_rest (m : TrapMemory) (t c : Option ℕ) :
    ∃ runtimes contexts active, m.detachRuntimeFromContextBinding t c =
      { m with runtimes := runtimes, contexts := contexts, activeUserRuntime := active } := by
  cases t with
  | none => exact ⟨_, _, _, rfl⟩
  | some t =>
    cases c with
    | none => exact ⟨_, _, _, rfl⟩
    | some c =>
      by_cases hbound : (m.runtimes t).trapContext = some c
      · exact ⟨_, _, _, detach_bound hbound⟩
      · exact ⟨_, _, _, detach_unbound hbound⟩

theorem detach_loosened (m : TrapMemory) (t c : Option ℕ) (r : ℕ) :
    Loosened (m.runtimes r) ((m.detachRuntimeFromContextBinding t c).runtimes r) := by
  cases t with
  | none => exact .inl rfl
  | some t =>
    cases c with
    | none => exact .inl rfl
    | some c =>
      rw [detach_runtimes]
      split_ifs
      · exact .inr ⟨rfl, rfl⟩
      · exact .inl rfl

theorem detach_refs (m : TrapMemory) (t c : Option ℕ) {c' r : ℕ}
    (h : ((m.detachRuntimeFromContextBinding t c).contexts c').Refers r) :
    (m.contexts c').Refers r := by
  cases t with
  | none => exact h
  | some t =>
    cases c with
    | none => exact h
    | some c =>
      rw [detach_contexts] at h
      by_cases hc : c' = c
      · rw [hc, update_self] at h
        rw [hc]
        exact (TrapContext.refers_clear h).1
      · rw [update_of_ne hc] at h
        exact h

theorem detach_unbinds (m : TrapMemory) (t c : ℕ) :
    ((m.detachRuntimeFromContextBinding (some t) (some c)).runtimes t).trapContext ≠ some c := by
  rw [detach_runtimes]
  by_cases hbound : (m.runtimes t).trapContext = some c
  · simp [hbound]
  · simp [hbound]

theorem detach_slots (m : TrapMemory) (t c' : Option ℕ) {r : ℕ}
    (hbound : ((m.detachRuntimeFromContextBinding t c').runtimes r).trapContext = some c) :
    ((m.contexts c).supervisorTimerPolicy.userRuntime = some r →
      ((m.detachRuntimeFromContextBinding t c').contexts c).supervisorTimerPolicy.userRuntime =
        some r) ∧
    ((m.contexts c).supervisorExternalPolicy.userRuntime = some r →
      ((m.detachRuntimeFromContextBinding t c').contexts c).supervisorExternalPolicy.userRuntime =
        some r) ∧
    ((m.contexts c).userEcallPolicy.userRuntime = some r →
      ((m.detachRuntimeFromContextBinding t c').contexts c).userEcallPolicy.userRuntime =
        some r) := by
  cases t with
  | none => exact ⟨id, id, id⟩
  | some t =>
    cases c' with
    | none => exact ⟨id, id, id⟩
    | some c' =>
      rw [detach_contexts]
      by_cases hc : c = c'
      · subst hc
        have hne : r ≠ t := by
          intro heq
          rw [heq] at hbound
          exact detach_unbinds m t c hbound
        rw [update_self]
        simp only [TrapContext.clearRuntimePolicyRefs]
        refine ⟨fun h => ?_, fun h => ?_, fun h => ?_⟩
        all_goals
          rw [if_neg (by rw [h, Option.some.injEq]; exact hne)]
          exact h
      · rw [update_of_ne hc]
        exact ⟨id, id, id⟩

end TrapMemory

namespace TrapBindings

variable {m : TrapMemory} {m' : TrapMemory}

theorem init (processes : ℕ → VmProcess) (spaces : ℕ → VmAddressSpace) :
    TrapBindings (init processes spaces) := by
  refine ⟨fun c r h => ?_, fun r h => ?_, fun c r r' h => ?_⟩
  · rcases h with h | h | h <;> cases h
  · cases h
  · cases h.1

theorem prepared_loosened
    (h : ∀ r, Loosened (m.runtimes r) (m'.runtimes r)) {r c : ℕ} (hprepared : PreparedFor m' r c) :
    PreparedFor m r c := by
  have hsame := (h r).trapContext hprepared.1
  unfold PreparedFor at hprepared ⊢
  rw [hsame] at hprepared
  exact hprepared

variable (h : TrapBindings m)

include h

theorem detach (t c : Option ℕ) : TrapBindings (m.detachRuntimeFromContextBinding t c) := by
  cases t with
  | none => exact h
  | some t =>
    cases c with
    | none => exact h
    | some c =>
      obtain ⟨_, _, _, hrest⟩ := m.detach_rest (some t) (some c)
      refine ⟨fun c' r href => ?_, fun r hactive => ?_, fun c' r r' hr hr' => ?_⟩
      · have hold := h.refs c' r (m.detach_refs _ _ href)
        rw [detach_runtimes]
        rw [if_neg]
        · exact hold
        rintro ⟨hrt, hbound⟩
        rw [hrt, hbound, Option.some.injEq] at hold
        rw [detach_contexts, ← hold, update_self] at href
        exact (TrapContext.refers_clear href).2 hrt
      · rw [detach_active] at hactive
        split_ifs at hactive with hdrop
        obtain ⟨c', hcontext, hprocess, hcurrent⟩ := h.active r hactive
        have hsame : (m.detachRuntimeFromContextBinding (some t) (some c)).runtimes r =
            m.runtimes r := by
          rw [detach_runtimes, if_neg]
          rintro ⟨hrt, hbound⟩
          exact hdrop ⟨by rw [hactive, hrt], hbound⟩
        rw [hsame]
        refine ⟨c', hcontext, hprocess, ?_⟩
        rw [hrest]
        exact hcurrent
      · exact h.onePrepared c' r r'
          (prepared_loosened (fun r => m.detach_loosened _ _ r) hr)
          (prepared_loosened (fun r => m.detach_loosened _ _ r) hr')

theorem install (hruntimes : m'.runtimes = m.runtimes)
    (hactive : m'.activeUserRuntime = m.activeUserRuntime)
    (hcontext : m'.activeTrapContext = m.activeTrapContext)
    (hrefs : ∀ c r, (m'.contexts c).Refers r →
      (m.contexts c).Refers r ∨ (m.runtimes r).trapContext = some c) : TrapBindings m' := by
  refine ⟨fun c r href => ?_, ?_, ?_⟩
  · rw [hruntimes]
    rcases hrefs c r href with hold | hbound
    · exact h.refs c r hold
    · exact hbound
  · rw [hruntimes, hactive, hcontext]
    exact h.active
  · unfold PreparedFor
    rw [hruntimes]
    exact h.onePrepared

theorem updateContext (c : ℕ) (f : TrapContext → TrapContext)
    (hrefs : ∀ r, (f (m.contexts c)).Refers r →
      (m.contexts c).Refers r ∨ (m.runtimes r).trapContext = some c) :
    TrapBindings (m.updateContext c f) := by
  refine h.install rfl rfl rfl fun c' r href => ?_
  simp only [TrapMemory.updateContext] at href
  by_cases hc : c' = c
  · rw [hc, update_self] at href
    rw [hc]
    exact hrefs r href
  · rw [update_of_ne hc] at href
    exact .inl href

theorem updateRuntime (r : ℕ) (f : TrapUserRuntime → TrapUserRuntime)
    (htrapContext : (f (m.runtimes r)).trapContext = (m.runtimes r).trapContext)
    (hprocess : (f (m.runtimes r)).process = (m.runtimes r).process)
    (hprepared : (f (m.runtimes r)).expectedEcallPc = (m.runtimes r).expectedEcallPc ∨
      ∀ c r', (m.runtimes r).trapContext = some c → PreparedFor m r' c → r' = r) :
    TrapBindings (m.updateRuntime r f) := by
  have hcontexts : ∀ r', ((m.updateRuntime r f).runtimes r').trapContext =
      (m.runtimes r').trapContext := by
    intro r'
    by_cases hr : r' = r
    · rw [hr]
      simpa [TrapMemory.updateRuntime] using htrapContext
    · simp [TrapMemory.updateRuntime, hr]
  have hothers : ∀ r', r' ≠ r → ∀ c, PreparedFor (m.updateRuntime r f) r' c →
      PreparedFor m r' c := by
    intro r' hr c hprepared
    simpa [PreparedFor, TrapMemory.updateRuntime, hr] using hprepared
  refine ⟨fun c r' href => ?_, fun r' hactive => ?_, fun c r₁ r₂ h₁ h₂ => ?_⟩
  · rw [hcontexts]
    exact h.refs c r' href
  · rw [hcontexts]
    obtain ⟨c, hc, hsome, hcurrent⟩ := h.active r' hactive
    refine ⟨c, hc, ?_, hcurrent⟩
    by_cases hr : r' = r
    · rw [hr] at hsome ⊢
      simpa [TrapMemory.updateRuntime, hprocess] using hsome
    · simpa [TrapMemory.updateRuntime, hr] using hsome
  · rcases hprepared with hsame | halone
    · have hall : ∀ r', PreparedFor (m.updateRuntime r f) r' c → PreparedFor m r' c := by
        intro r' hr'
        by_cases hr : r' = r
        · rw [hr] at hr' ⊢
          simpa [PreparedFor, TrapMemory.updateRuntime, htrapContext, hsame] using hr'
        · exact hothers r' hr c hr'
      exact h.onePrepared c r₁ r₂ (hall r₁ h₁) (hall r₂ h₂)
    · by_cases hr₁ : r₁ = r
      · by_cases hr₂ : r₂ = r
        · rw [hr₁, hr₂]
        have hbound := h₁.1
        rw [hr₁, hcontexts] at hbound
        rw [hr₁, halone c r₂ hbound (hothers r₂ hr₂ c h₂)]
      · by_cases hr₂ : r₂ = r
        · have hbound := h₂.1
          rw [hr₂, hcontexts] at hbound
          rw [hr₂, halone c r₁ hbound (hothers r₁ hr₁ c h₁)]
        · exact h.onePrepared c r₁ r₂ (hothers r₁ hr₁ c h₁) (hothers r₂ hr₂ c h₂)

end TrapBindings

end VisualCpu
