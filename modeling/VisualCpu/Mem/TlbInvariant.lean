import VisualCpu.Mem.TlbTransparency

/-!
# Translations through the buffer

Every translation keeps the agreement between the buffer and the page tables,
and returns what a walk from scratch returns.
-/

namespace VisualCpu.AddressSpace

open BitVec CsrFile Pte

variable {D : Type} [Devices D] {tables : Set (BitVec 64)} {pteAddr pte : BitVec 64}

def afterRead (as : AddressSpace D) : AddressSpace D :=
  { as with bus := { as.bus with lastAccessMmio := false } }

def markAccess (bus : Bus D) (pteAddr pte : BitVec 64) (type : AccessType) : Bus D :=
  if Pte.withAccessBits pte type = pte then bus
  else
    { bus with
      ram := bus.ram.store pteAddr (Pte.withAccessBits pte type) 8
      lastAccessMmio := false }

theorem updatePteAccessBits_ram (bus : Bus D) {pteAddr : BitVec 64} (pte : BitVec 64)
    (type : AccessType) (h : Ram.contains pteAddr 8) :
    updatePteAccessBits bus pteAddr pte type =
      (some (withAccessBits pte type), markAccess bus pteAddr pte type) := by
  simp only [updatePteAccessBits, markAccess, Bus.tryStore_ram bus _ h]
  split_ifs with heq
  · rw [heq]
  · rfl

theorem TableMemory.disjoint (htables : TableMemory tables) {a b : BitVec 64} (ha : a ∈ tables)
    (hb : b ∈ tables) (hne : a ≠ b) : Ram.Disjoint a 8 b 8 := by
  intro i hi j hj heq
  have halign := htables.aligned a ha
  have hblign := htables.aligned b hb
  have hlta := a.isLt
  have hltb := b.isLt
  have heq' := congrArg BitVec.toNat heq
  simp only [toNat_add, toNat_ofNat] at heq'
  apply hne
  apply eq_of_toNat_eq
  omega

omit [Devices D] in
theorem markAccess_sameTables (htables : TableMemory tables) (bus : Bus D)
    (type : AccessType) (hmem : pteAddr ∈ tables) (hleaf : isLeaf (bus.ram.load pteAddr 8))
    (hsame : Pte.SameButAccess pte (bus.ram.load pteAddr 8)) :
    SameTables tables bus.ram (markAccess bus pteAddr pte type).ram := by
  unfold markAccess
  split_ifs with heq
  · exact .of_eq fun _ _ => rfl
  intro addr haddr
  by_cases hne : addr = pteAddr
  · subst hne
    have hload : (bus.ram.store addr (withAccessBits pte type) 8).load addr 8 =
        withAccessBits pte type := Ram.load_store_eight _ _ _
    rw [hload]
    refine ⟨(withAccessBits_same pte type).trans hsame, fun hnot => ?_⟩
    rw [hnot] at hleaf
    cases hleaf
  · have hload : (bus.ram.store pteAddr (withAccessBits pte type) 8).load addr 8 =
        bus.ram.load addr 8 := Ram.load_store_disjoint _ (htables.disjoint haddr hmem hne)
    rw [hload]
    exact ⟨rfl, fun _ => rfl⟩

/-- The entry agrees with the page tables on every address of its page. -/
structure EntryAgrees (tables : Set (BitVec 64)) (ram : Ram) (entry : TlbEntry) : Prop where
  walks : ∃ level < 3, entry.pageShift = 12 + 9 * level ∧
    misalignedSuperpage level entry.pte = false ∧
    ∀ vaddr, vaddr &&& ~~~pageMask entry.pageShift = entry.vpageBase →
      WalksTo tables ram vaddr 3 (entry.satp &&& satpPpnMask) level entry.pteAddr
  mem : entry.pteAddr ∈ tables
  leaf : Pte.isLeaf (ram.load entry.pteAddr 8)
  pte_same : Pte.SameButAccess entry.pte (ram.load entry.pteAddr 8)
  frame : entry.ppageBase = Pte.ppn entry.pte <<< 12

/-- The invariant: every valid entry agrees with the page tables. -/
def TlbSound (tables : Set (BitVec 64)) (as : AddressSpace D) : Prop :=
  ∀ i, (as.tlb i).valid → EntryAgrees tables as.bus.ram (as.tlb i)

variable {entry : TlbEntry} {ram : Ram} {level : ℕ}

theorem EntryAgrees.mono {ram ram' : Ram} (h : EntryAgrees tables ram entry)
    (hsame : SameTables tables ram ram') : EntryAgrees tables ram' entry := by
  obtain ⟨level, hlevel, hshift, haligned, hwalk⟩ := h.walks
  have hpte := (hsame _ h.mem).1
  refine ⟨⟨level, hlevel, hshift, haligned, fun vaddr hv => (hwalk vaddr hv).mono hsame⟩, h.mem,
    ?_, h.pte_same.trans hpte.symm, h.frame⟩
  rw [hpte.isLeaf]
  exact h.leaf

theorem EntryAgrees.setPte (h : EntryAgrees tables ram entry)
    {pte : BitVec 64} (hpte : Pte.SameButAccess pte entry.pte) :
    EntryAgrees tables ram { entry with pte } := by
  obtain ⟨level, hlevel, hshift, haligned, hwalk⟩ := h.walks
  refine ⟨⟨level, hlevel, hshift, ?_, hwalk⟩, h.mem, h.leaf, hpte.trans h.pte_same, ?_⟩
  · rw [hpte.misalignedSuperpage]
    exact haligned
  rw [hpte.ppn]
  exact h.frame

/-- The entry that a successful walk installs. -/
def leafEntry (ctx : AccessContext) (vaddr pteAddr pte : BitVec 64) (level : ℕ) : TlbEntry where
  valid := true
  satp := ctx.satp
  vpageBase := vaddr &&& ~~~pageMask (12 + 9 * level)
  ppageBase := ((Pte.ppn pte <<< 12) ||| (vaddr &&& pageMask (12 + 9 * level))) &&&
    ~~~pageMask (12 + 9 * level)
  pte
  pteAddr
  pageShift := 12 + 9 * level

theorem leafEntry_agrees {ctx : AccessContext} {vaddr pteAddr pte : BitVec 64}
    (hlevel : level < 3) (haligned : misalignedSuperpage level pte = false)
    (hwalk : WalksTo tables ram vaddr 3 (ctx.satp &&& satpPpnMask) level pteAddr)
    (hpte : Pte.SameButAccess pte (ram.load pteAddr 8)) :
    EntryAgrees tables ram (leafEntry ctx vaddr pteAddr pte level) where
  walks := ⟨level, hlevel, rfl, haligned, fun _ hv =>
    hwalk.congr fun _ hk => vpn_congr hlevel hk hv⟩
  mem := hwalk.mem
  leaf := hwalk.isLeaf
  pte_same := hpte
  frame := by
    have hzero := frame_and_pageMask hlevel haligned
    change ((ppn pte <<< 12) ||| (vaddr &&& pageMask (12 + 9 * level))) &&&
      ~~~pageMask (12 + 9 * level) = ppn pte <<< 12
    generalize ppn pte <<< 12 = frame at hzero ⊢
    ext i hi
    have hbit := congrArg (·[i]) hzero
    simp only [getElem_and, ofNat_eq_ofNat, BitVec.getElem_zero] at hbit
    cases hf : frame[i] <;> cases hm : (pageMask (12 + 9 * level))[i] <;> simp_all

omit [Devices D] in
theorem fillTlb_eq (as : AddressSpace D) (ctx : AccessContext) (vaddr pteAddr pte : BitVec 64)
    (level : ℕ) :
    (as.fillTlb ctx.satp vaddr ((ppn pte <<< 12) ||| (vaddr &&& pageMask (12 + 9 * level))) pte
      pteAddr (12 + 9 * level)).tlb =
      Function.update as.tlb as.nextTlbVictim (leafEntry ctx vaddr pteAddr pte level) := rfl

variable {i : Fin 32}

omit [Devices D] in
theorem TlbSound.update {as as' : AddressSpace D} (h : TlbSound tables as)
    (hsame : SameTables tables as.bus.ram as'.bus.ram)
    (htlb : as'.tlb = Function.update as.tlb i entry)
    (hentry : EntryAgrees tables as'.bus.ram entry) : TlbSound tables as' := by
  intro j hj
  rw [htlb] at hj ⊢
  by_cases hji : j = i
  · subst hji
    simpa using hentry
  rw [Function.update_of_ne hji] at hj ⊢
  exact (h j hj).mono hsame

omit [Devices D] in
theorem TlbSound.mono {as as' : AddressSpace D} (h : TlbSound tables as)
    (hsame : SameTables tables as.bus.ram as'.bus.ram) (htlb : as'.tlb = as.tlb) :
    TlbSound tables as' := by
  intro i hi
  rw [htlb] at hi ⊢
  exact (h i hi).mono hsame

def leafAddress (vaddr pte : BitVec 64) (level : ℕ) : BitVec 64 :=
  (Pte.ppn pte <<< 12) ||| (vaddr &&& pageMask (12 + 9 * level))

/-- What a walk returns at a leaf of RAM. -/
def leafResult (ctx : AccessContext) (vaddr : BitVec 64) (type : AccessType) (level : ℕ)
    (pte : BitVec 64) : Except TrapRequest (BitVec 64) :=
  if !checkLeafPermissions ctx type pte then .error (type.pageFault vaddr)
  else if misalignedSuperpage level pte then .error (type.pageFault vaddr)
  else .ok (leafAddress vaddr pte level)

variable (ctx : AccessContext) (vaddr : BitVec 64) (type : AccessType) (updateAccessBits : Bool)

theorem finishLeaf_result (as : AddressSpace D) (hram : Ram.contains pteAddr 8) :
    (as.finishLeaf ctx vaddr type updateAccessBits level pteAddr pte).1 =
      leafResult ctx vaddr type level pte := by
  simp only [finishLeaf, leafResult, leafAddress, updatePteAccessBits_ram as.bus pte type hram]
  split_ifs <;> rfl

variable {as : AddressSpace D}

theorem finishLeaf_sound (htables : TableMemory tables)
    (h : TlbSound tables as) {pteAddr : BitVec 64} (hlevel : level < 3)
    (hwalk : WalksTo tables as.bus.ram vaddr 3 (ctx.satp &&& satpPpnMask) level pteAddr) :
    TlbSound tables (as.finishLeaf ctx vaddr type updateAccessBits level pteAddr
      (as.bus.ram.load pteAddr 8)).2 := by
  have hram := htables.in_ram _ hwalk.mem
  simp only [finishLeaf, updatePteAccessBits_ram as.bus _ type hram]
  split_ifs with hperm hmis hupd
  · exact h
  · exact h
  · -- the access bits are written before the entry is installed
    have hsame := markAccess_sameTables htables as.bus type hwalk.mem hwalk.isLeaf rfl
    have hbits := withAccessBits_same (as.bus.ram.load pteAddr 8) type
    have hentry : EntryAgrees tables
        (markAccess as.bus pteAddr (as.bus.ram.load pteAddr 8) type).ram
        (leafEntry ctx vaddr pteAddr
          (withAccessBits (as.bus.ram.load pteAddr 8) type) level) := by
      refine leafEntry_agrees hlevel ?_ (hwalk.mono hsame) ?_
      · rw [hbits.misalignedSuperpage]
        simpa using hmis
      · exact hbits.trans (hsame _ hwalk.mem).1.symm
    refine TlbSound.update (i := as.nextTlbVictim) h hsame ?_ hentry
    rw [← hbits.ppn]
    rfl
  · exact h.update (.of_eq fun _ _ => rfl) (fillTlb_eq as ctx vaddr pteAddr _ level)
      (leafEntry_agrees hlevel (by simpa using hmis) hwalk rfl)

/-- The entry is a pointer that a walk follows to the next level. -/
def isPointer (pte : BitVec 64) : Bool :=
  testMask pte Pte.v && !testMask pte Pte.reservedMask && !Pte.isLeaf pte &&
    !testMask pte (Pte.u ||| Pte.a ||| Pte.d)

/-- Every entry that a walk reads, from its first level on, is a word of the tables
or lies outside physical memory. -/
def ReadsTables (D : Type) [Devices D] (tables : Set (BitVec 64)) (ram : Ram) (vaddr : BitVec 64) :
    ℕ → BitVec 64 → Prop
  | 0, _ => True
  | levels + 1, ppn =>
    Bus.describeRegion D (pteAddrAt vaddr ppn levels) 8 = .unmapped ∨
      pteAddrAt vaddr ppn levels ∈ tables ∧
        (isPointer (ram.load (pteAddrAt vaddr ppn levels) 8) →
          ReadsTables D tables ram vaddr levels
            (Pte.ppn (ram.load (pteAddrAt vaddr ppn levels) 8)))

theorem walkFrom_of_walksTo (htables : TableMemory tables) (as : AddressSpace D) {levels level : ℕ}
    {ppn addr : BitVec 64} (hwalk : WalksTo tables as.bus.ram vaddr levels ppn level addr) :
    walkFrom ctx as vaddr type updateAccessBits levels ppn =
      as.afterRead.finishLeaf ctx vaddr type updateAccessBits level addr
        (as.bus.ram.load addr 8) := by
  generalize hr : as.bus.ram = ram at hwalk
  induction hwalk generalizing as with
  | @leaf level ppn hmem hvalid hreserved hleaf =>
    subst hr
    have hload := Bus.tryLoad_ram as.bus (htables.in_ram _ hmem)
    have hram := (pteAddrAt vaddr ppn level)
    unfold pteAddrAt at *
    simp only [walkFrom, hload, hvalid, hreserved, hleaf]
    rfl
  | @step levels level ppn addr hmem hvalid hreserved hleaf hbits hrest ih =>
    subst hr
    have hload := Bus.tryLoad_ram as.bus (htables.in_ram _ hmem)
    have htail := ih as.afterRead rfl
    unfold pteAddrAt at *
    simp only [walkFrom, hload, hvalid, hreserved, hleaf, hbits]
    exact htail

theorem walkFrom_cases (htables : TableMemory tables) (as : AddressSpace D) {levels : ℕ}
    {ppn : BitVec 64} (hreads : ReadsTables D tables as.bus.ram vaddr levels ppn) :
    (∃ level addr, WalksTo tables as.bus.ram vaddr levels ppn level addr) ∨
      (walkFrom ctx as vaddr type updateAccessBits levels ppn).2.tlb = as.tlb ∧
      (walkFrom ctx as vaddr type updateAccessBits levels ppn).2.bus.ram = as.bus.ram ∧
      ∃ fault, (walkFrom ctx as vaddr type updateAccessBits levels ppn).1 = .error fault := by
  induction levels generalizing as ppn with
  | zero => exact .inr ⟨rfl, rfl, _, rfl⟩
  | succ levels ih =>
    rcases hreads with hunmapped | ⟨hmem, hrest⟩
    · have hload : as.bus.tryLoad ((ppn <<< 12) ||| (vpn vaddr levels <<< 3)) 8 =
          (none, { as.bus with lastAccessMmio := false }) := by
        change Bus.describeRegion D ((ppn <<< 12) ||| (vpn vaddr levels <<< 3)) 8 = _ at hunmapped
        simp [Bus.tryLoad, hunmapped]
      refine .inr ⟨?_, ?_, type.accessFault vaddr, ?_⟩ <;> simp only [walkFrom, hload]
    · have hload : as.bus.tryLoad ((ppn <<< 12) ||| (vpn vaddr levels <<< 3)) 8 = _ :=
        Bus.tryLoad_ram as.bus (htables.in_ram _ hmem)
      simp only [walkFrom, hload]
      by_cases hvalid : testMask (as.bus.ram.load (pteAddrAt vaddr ppn levels) 8) v
      · by_cases hres : testMask (as.bus.ram.load (pteAddrAt vaddr ppn levels) 8)
            reservedMask
        · exact .inr (by unfold pteAddrAt at hvalid hres; simp [hvalid, hres])
        rw [Bool.not_eq_true] at hres
        by_cases hleaf : isLeaf (as.bus.ram.load (pteAddrAt vaddr ppn levels) 8)
        · exact .inl ⟨levels, _, .leaf hmem hvalid hres hleaf⟩
        rw [Bool.not_eq_true] at hleaf
        by_cases hbits : testMask (as.bus.ram.load (pteAddrAt vaddr ppn levels) 8)
            (u ||| a ||| d) = true
        · exact .inr (by
            unfold pteAddrAt at hvalid hres hleaf hbits
            simp [hvalid, hres, hleaf, hbits])
        rw [Bool.not_eq_true] at hbits
        have hpointer : isPointer (as.bus.ram.load (pteAddrAt vaddr ppn levels) 8) := by
          simp [isPointer, hvalid, hres, hleaf, hbits]
        rcases ih as.afterRead (hrest hpointer) with ⟨level, addr, hwalk⟩ | hsame
        · exact .inl ⟨level, addr, .step hmem hvalid hres hleaf hbits hwalk⟩
        unfold pteAddrAt at hvalid hres hleaf hbits hsame
        simp only [hvalid, hres, hleaf, hbits]
        exact .inr hsame
      · exact .inr (by unfold pteAddrAt at hvalid; simp [hvalid])

def rootPpn (ctx : AccessContext) : BitVec 64 := ctx.satp &&& satpPpnMask

theorem walkPageTable_sound (htables : TableMemory tables) (h : TlbSound tables as)
    (hreads : ReadsTables D tables as.bus.ram vaddr 3 (rootPpn ctx)) :
    TlbSound tables (as.walkPageTable ctx vaddr type updateAccessBits).2 := by
  rcases walkFrom_cases ctx vaddr type updateAccessBits htables as hreads with
    ⟨level, addr, hwalk⟩ | ⟨htlb, hram, -⟩
  · rw [walkPageTable, ← rootPpn,
      walkFrom_of_walksTo ctx vaddr type updateAccessBits htables as hwalk]
    have hread : TlbSound tables as.afterRead := h.mono (.of_eq fun _ _ => rfl) rfl
    exact finishLeaf_sound ctx vaddr type updateAccessBits htables hread hwalk.level_lt hwalk
  · exact h.mono (.of_eq fun _ _ => by rw [walkPageTable, ← rootPpn, hram]) htlb

theorem EntryAgrees.walk (h : EntryAgrees tables ram entry) (hsatp : entry.satp = ctx.satp)
    (hpage : vaddr &&& ~~~pageMask entry.pageShift = entry.vpageBase) :
    ∃ level, WalksTo tables ram vaddr 3 (rootPpn ctx) level entry.pteAddr ∧
      misalignedSuperpage level entry.pte = false ∧
      leafAddress vaddr entry.pte level =
        entry.ppageBase ||| (vaddr &&& pageMask entry.pageShift) := by
  obtain ⟨level, hlevel, hshift, haligned, hwalk⟩ := h.walks
  have hw := hwalk vaddr hpage
  rw [hsatp] at hw
  refine ⟨level, hw, haligned, ?_⟩
  rw [leafAddress, h.frame, hshift]

theorem translateHit_result (htables : TableMemory tables)
    (hentry : EntryAgrees tables as.bus.ram (as.tlb i)) (hsatp : (as.tlb i).satp = ctx.satp)
    (hpage : vaddr &&& ~~~pageMask (as.tlb i).pageShift = (as.tlb i).vpageBase) :
    (as.translateHit ctx i vaddr type updateAccessBits).1 =
      (as.walkPageTable ctx vaddr type updateAccessBits).1 := by
  obtain ⟨level, hwalk, haligned, haddr⟩ := hentry.walk ctx vaddr hsatp hpage
  have hram := htables.in_ram _ hentry.mem
  have hmis : misalignedSuperpage level (as.bus.ram.load (as.tlb i).pteAddr 8) = false := by
    rw [← hentry.pte_same.misalignedSuperpage]
    exact haligned
  have haddr' : leafAddress vaddr (as.bus.ram.load (as.tlb i).pteAddr 8) level =
      (as.tlb i).ppageBase ||| (vaddr &&& pageMask (as.tlb i).pageShift) := by
    rw [← haddr, leafAddress, leafAddress, hentry.pte_same.ppn]
  have hwalked : (as.walkPageTable ctx vaddr type updateAccessBits).1 =
      leafResult ctx vaddr type level (as.bus.ram.load (as.tlb i).pteAddr 8) := by
    rw [walkPageTable, ← rootPpn,
      walkFrom_of_walksTo ctx vaddr type updateAccessBits htables as hwalk]
    exact finishLeaf_result ctx vaddr type updateAccessBits as.afterRead hram
  rw [hwalked, leafResult, hmis, haddr', ← hentry.pte_same.checkLeafPermissions]
  simp only [translateHit, updatePteAccessBits_ram as.bus (as.tlb i).pte type hram]
  split_ifs <;> first | rfl | simp_all

theorem translateHit_sound (htables : TableMemory tables)
    (h : TlbSound tables as) (hvalid : (as.tlb i).valid) :
    TlbSound tables (as.translateHit ctx i vaddr type updateAccessBits).2 := by
  have hentry := h i hvalid
  have hram := htables.in_ram _ hentry.mem
  simp only [translateHit, updatePteAccessBits_ram as.bus (as.tlb i).pte type hram]
  split_ifs
  · exact h
  · exact h
  have hsame := markAccess_sameTables htables as.bus type hentry.mem hentry.leaf hentry.pte_same
  exact h.update hsame rfl ((hentry.mono hsame).setPte (withAccessBits_same _ type))

omit [Devices D] in
theorem lookupTlb_spec {satp : BitVec 64}
    (h : as.lookupTlb satp vaddr = some i) : (as.tlb i).valid ∧ (as.tlb i).satp = satp ∧
      vaddr &&& ~~~pageMask (as.tlb i).pageShift = (as.tlb i).vpageBase := by
  have hmatch := List.find?_some h
  simp only [entryMatches, Bool.and_eq_true, beq_iff_eq] at hmatch
  exact ⟨hmatch.1.1, hmatch.1.2, hmatch.2⟩

/-- The translation goes through the page tables: Sv39 is on, the effective mode is
below machine mode and the address is canonical. -/
def Walked (ctx : AccessContext) (vaddr : BitVec 64) (type : AccessType) : Prop :=
  ctx.satpMode = satpModeSv39 ∧ ctx.effectiveMode type ≠ .machine ∧ isSv39Canonical vaddr

theorem translate_of_walked (as : AddressSpace D) {ctx : AccessContext} {vaddr : BitVec 64}
    {type : AccessType} (h : Walked ctx vaddr type) (updateAccessBits : Bool) :
    as.translate ctx vaddr type updateAccessBits =
      match as.lookupTlb ctx.satp vaddr with
      | some i => as.translateHit ctx i vaddr type updateAccessBits
      | none => as.walkPageTable ctx vaddr type updateAccessBits := by
  obtain ⟨hmode, hbelow, hcanonical⟩ := h
  have hbare : ctx.satpMode ≠ satpModeBare := by
    rw [hmode]
    decide
  have hnot : ¬ (ctx.satpMode = satpModeBare ∨ ctx.effectiveMode type = .machine) := by
    rintro (h | h)
    · exact hbare h
    · exact hbelow h
  have hsv39 : ¬ ctx.satpMode ≠ satpModeSv39 := fun hne => hne hmode
  have hcanon : ¬ (!isSv39Canonical vaddr) = true := by simp [hcanonical]
  exact (if_neg hnot).trans ((if_neg hsv39).trans (if_neg hcanon))

theorem translate_of_not_walked {ctx : AccessContext} {vaddr : BitVec 64} {type : AccessType}
    (h : ¬ Walked ctx vaddr type) (updateAccessBits : Bool) :
    ∃ result : Except TrapRequest (BitVec 64),
      ∀ as : AddressSpace D, as.translate ctx vaddr type updateAccessBits = (result, as) := by
  unfold translate
  by_cases hbare : ctx.satpMode = satpModeBare ∨ ctx.effectiveMode type = .machine
  · exact ⟨_, fun as => if_pos hbare⟩
  by_cases hmode : ctx.satpMode ≠ satpModeSv39
  · exact ⟨_, fun as => by rw [if_neg hbare, if_pos hmode]⟩
  by_cases hcanonical : isSv39Canonical vaddr
  · exact absurd ⟨not_not.1 hmode, fun hm => hbare (.inr hm), hcanonical⟩ h
  · exact ⟨_, fun as => by rw [if_neg hbare, if_neg hmode, if_pos (by simp [hcanonical])]⟩

theorem translate_sound (htables : TableMemory tables) (h : TlbSound tables as)
    (hreads : Walked ctx vaddr type → ReadsTables D tables as.bus.ram vaddr 3 (rootPpn ctx)) :
    TlbSound tables (as.translate ctx vaddr type updateAccessBits).2 := by
  by_cases hwalked : Walked ctx vaddr type
  · rw [translate_of_walked as hwalked]
    cases hlookup : as.lookupTlb ctx.satp vaddr with
    | some i =>
      exact translateHit_sound ctx vaddr type updateAccessBits htables h
        (lookupTlb_spec vaddr hlookup).1
    | none =>
      exact walkPageTable_sound ctx vaddr type updateAccessBits htables h (hreads hwalked)
  · obtain ⟨result, hresult⟩ := translate_of_not_walked (D := D) hwalked updateAccessBits
    rw [hresult]
    exact h

theorem translate_result (htables : TableMemory tables)
    (h : TlbSound tables as) (hwalked : Walked ctx vaddr type) :
    (as.translate ctx vaddr type updateAccessBits).1 =
      (as.walkPageTable ctx vaddr type updateAccessBits).1 := by
  rw [translate_of_walked as hwalked]
  cases hlookup : as.lookupTlb ctx.satp vaddr with
  | some i =>
    obtain ⟨hvalid, hsatp, hpage⟩ := lookupTlb_spec vaddr hlookup
    exact translateHit_result ctx vaddr type updateAccessBits htables (h i hvalid) hsatp hpage
  | none => rfl

end VisualCpu.AddressSpace
