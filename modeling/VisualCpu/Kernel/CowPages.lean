import Mathlib.Data.Fintype.Prod
import VisualCpu.Kernel.CourseProcess

/-!
# Copy-on-write pages

Each used page counts the mapped references to it over all process slots. Every page
operation changes one reference at a time; what it must do to the counts is stated once, and
the content behind the other references stays as it was.
-/

namespace VisualCpu

open Finset
namespace CourseProcessTable

def userRef (table : CourseProcessTable) (i : ProcessSlot) (j : UserPageIndex) :
    CourseProcessUserPageRef :=
  (table.processes i).userPages j

def refs (table : CourseProcessTable) (id : ℕ) : Finset (ProcessSlot × UserPageIndex) :=
  univ.filter fun p =>
    (table.userRef p.1 p.2).mapped ∧ (table.userRef p.1 p.2).cowPageId = id

def uses (table : CourseProcessTable) (i : ProcessSlot) (j : UserPageIndex) (id : ℕ) : ℕ :=
  if (table.userRef i j).mapped = true ∧ (table.userRef i j).cowPageId = id then 1 else 0

/-- The bytes behind a reference. -/
def content (table : CourseProcessTable) (i : ProcessSlot) (j : UserPageIndex) :
    Option (Fin courseProcessUserPageSize → UInt8) :=
  if (table.userRef i j).mapped then
    (table.findCowPageById (table.userRef i j).cowPageId).map fun k => (table.cowPages k).data
  else none

/-- Used pages have distinct ids below the next one and count their references, of which
there is at least one; a reference that may write without a copy is the only one. -/
structure CowSound (table : CourseProcessTable) : Prop where
  positive : ∀ k, (table.cowPages k).used → 0 < (table.cowPages k).id
  bound : ∀ k, (table.cowPages k).used → table.nextCowPageId ≠ 0 →
    (table.cowPages k).id < table.nextCowPageId
  unique : ∀ k l, (table.cowPages k).used → (table.cowPages l).used →
    (table.cowPages k).id = (table.cowPages l).id → k = l
  lt : table.nextCowPageId < 2 ^ 32
  mapped : ∀ i j, (table.userRef i j).mapped → ∃ k, (table.cowPages k).used ∧
    (table.cowPages k).id = (table.userRef i j).cowPageId
  counts : ∀ k, (table.cowPages k).used →
    (table.cowPages k).refcount = (table.refs (table.cowPages k).id).card
  counted : ∀ k, (table.cowPages k).used → 0 < (table.cowPages k).refcount
  owned : ∀ i j, (table.userRef i j).mapped → (table.userRef i j).cow = false →
    (table.userRef i j).writable →
    table.refs (table.userRef i j).cowPageId = {(i, j)}

variable {table table' : CourseProcessTable} {i : ProcessSlot} {j : UserPageIndex}

variable {id : ℕ} {p : ProcessSlot × UserPageIndex}

theorem mem_refs : p ∈ table.refs id ↔
      (table.userRef p.1 p.2).mapped ∧ (table.userRef p.1 p.2).cowPageId = id := by
  simp [refs]

theorem uses_eq_one (h : (i, j) ∈ table.refs id) : table.uses i j id = 1 :=
  if_pos (mem_refs.1 h)

theorem uses_eq_zero (h : (i, j) ∉ table.refs id) : table.uses i j id = 0 :=
  if_neg fun hmem => h (mem_refs.2 hmem)

theorem uses_le (id : ℕ) : table.uses i j id ≤ 1 := by
  rw [uses]
  split <;> omega

theorem card_refs_le (id : ℕ) : (table.refs id).card ≤ 128 := by
  have hcard := card_le_univ (table.refs id)
  simpa using hcard

variable {k : CowPageSlot}

theorem findCowPageById_some (h : table.findCowPageById id = some k) :
    (table.cowPages k).used ∧ (table.cowPages k).id = id := by
  rw [findCowPageById] at h
  split at h
  · cases h
  have hk := firstSlot_some h
  simpa using hk

theorem CowSound.find_eq (h : table.CowSound)
    (hused : (table.cowPages k).used) (hid : (table.cowPages k).id = id) :
    table.findCowPageById id = some k := by
  have hpos := h.positive k hused
  cases hfind : table.findCowPageById id with
  | none =>
    rw [findCowPageById, if_neg (by omega)] at hfind
    have hmiss := firstSlot_none hfind k
    simp [hused, hid] at hmiss
  | some l =>
    obtain ⟨hl, hlid⟩ := findCowPageById_some hfind
    rw [h.unique l k hl hused (hlid.trans hid.symm)]

theorem CowSound.find_mapped (h : table.CowSound) (hmapped : (table.userRef i j).mapped) :
    ∃ k, (table.cowPages k).used ∧ (table.cowPages k).id = (table.userRef i j).cowPageId ∧
      table.findCowPageById (table.userRef i j).cowPageId = some k ∧
        table.content i j = some (table.cowPages k).data := by
  obtain ⟨k, hk, hid⟩ := h.mapped i j hmapped
  have hfind := h.find_eq hk hid
  refine ⟨k, hk, hid, hfind, ?_⟩
  rw [content, if_pos hmapped, hfind]
  rfl

theorem content_unmapped (h : (table.userRef i j).mapped = false) : table.content i j = none := by
  rw [content, if_neg (by simp [h])]

/-- The references other than one are the same. -/
def RefsBut (table table' : CourseProcessTable) (i : ProcessSlot) (j : UserPageIndex) : Prop :=
  ∀ i' j', (i', j') ≠ (i, j) → table'.userRef i' j' = table.userRef i' j'

theorem RefsBut.mem (h : RefsBut table table' i j)
    (hp : p ≠ (i, j)) : p ∈ table'.refs id ↔ p ∈ table.refs id := by
  rw [mem_refs, mem_refs, h p.1 p.2 hp]

theorem RefsBut.card (h : RefsBut table table' i j) (id : ℕ) :
    (table'.refs id).card + table.uses i j id = (table.refs id).card + table'.uses i j id := by
  have herase : (table'.refs id).erase (i, j) = (table.refs id).erase (i, j) := by
    ext p
    by_cases hp : p = (i, j)
    · simp [hp]
    · simp [hp, h.mem hp]
  have hcard : ∀ t : CourseProcessTable,
      (t.refs id).card = ((t.refs id).erase (i, j)).card + t.uses i j id := by
    intro t
    by_cases hmem : (i, j) ∈ t.refs id
    · rw [uses_eq_one hmem, card_erase_add_one hmem]
    rw [uses_eq_zero hmem, erase_eq_of_notMem hmem]
    rfl
  rw [hcard table, hcard table', herase]
  omega

/-- What an operation on one reference may do: used pages keep their ids and count the change
of the reference, one free page `n` may be taken under the next id, and a page is given back
only by its last reference. -/
structure RefStep (table table' : CourseProcessTable) (i : ProcessSlot) (j : UserPageIndex)
    (n : CowPageSlot) : Prop where
  others : RefsBut table table' i j
  pages : ∀ k, (table'.cowPages k).used →
    ((table.cowPages k).used ∧ (table'.cowPages k).id = (table.cowPages k).id ∧
      (table'.cowPages k).refcount + table.uses i j (table.cowPages k).id =
        (table.cowPages k).refcount + table'.uses i j (table.cowPages k).id) ∨
    (k = n ∧ (table.cowPages k).used = false ∧ (table'.cowPages k).id = table.nextCowPageId ∧
      table.nextCowPageId ≠ 0 ∧ table'.nextCowPageId = succ32 table.nextCowPageId ∧
      (table'.cowPages k).refcount = table'.uses i j table.nextCowPageId)
  kept : ∀ k, (table.cowPages k).used → (table'.cowPages k).used ∨
    (table.cowPages k).refcount = table.uses i j (table.cowPages k).id
  next : table'.nextCowPageId = table.nextCowPageId ∨
    (table.nextCowPageId ≠ 0 ∧ table'.nextCowPageId = succ32 table.nextCowPageId)
  counted : ∀ k, (table'.cowPages k).used → 0 < (table'.cowPages k).refcount
  self : (table'.userRef i j).mapped → ∃ k, (table'.cowPages k).used ∧
    (table'.cowPages k).id = (table'.userRef i j).cowPageId
  owned : (table'.userRef i j).mapped → (table'.userRef i j).cow = false →
    (table'.userRef i j).writable →
    ∀ k, (table'.cowPages k).used →
      (table'.cowPages k).id = (table'.userRef i j).cowPageId → (table'.cowPages k).refcount = 1
  shared : ∀ i' j', (i', j') ≠ (i, j) → (table.userRef i' j').mapped →
    (table.userRef i' j').cow = false → (table.userRef i' j').writable →
    table'.uses i j (table.userRef i' j').cowPageId = 0

variable {n : CowPageSlot} {j' : UserPageIndex} {i' : ProcessSlot}

theorem succ32_of_ne {m : ℕ} (h : succ32 m ≠ 0) (hlt : m < 2 ^ 32) : succ32 m = m + 1 := by
  rw [succ32] at h ⊢
  omega

theorem RefStep.stays (hs : RefStep table table' i j n) (h : table.CowSound)
    (hother : (i', j') ≠ (i, j))
    (hk : (table.cowPages k).used) (hmapped : (table.userRef i' j').mapped)
    (hid : (table.cowPages k).id = (table.userRef i' j').cowPageId) :
    (table'.cowPages k).used ∧ (table'.cowPages k).id = (table.cowPages k).id := by
  have hmem : (i', j') ∈ table.refs (table.cowPages k).id := mem_refs.2 ⟨hmapped, hid.symm⟩
  have hused : (table'.cowPages k).used := by
    refine (hs.kept k hk).resolve_right fun hlast => ?_
    rw [h.counts k hk] at hlast
    have hpos := card_pos.2 ⟨_, hmem⟩
    by_cases hself : (i, j) ∈ table.refs (table.cowPages k).id
    · rw [uses_eq_one hself] at hlast
      obtain ⟨p, hp⟩ := card_eq_one.1 hlast
      rw [hp, mem_singleton] at hmem hself
      exact hother (hmem.trans hself.symm)
    · rw [uses_eq_zero hself] at hlast
      omega
  rcases hs.pages k hused with ⟨-, hsame, -⟩ | ⟨-, hfree, -⟩
  · exact ⟨hused, hsame⟩
  rw [hk] at hfree
  cases hfree

theorem CowSound.refs_next (h : table.CowSound) (hne : table.nextCowPageId ≠ 0) :
    table.refs table.nextCowPageId = ∅ := by
  refine eq_empty_of_forall_notMem fun p hp => ?_
  obtain ⟨hmapped, hid⟩ := mem_refs.1 hp
  obtain ⟨k, hk, hkid⟩ := h.mapped p.1 p.2 hmapped
  have hlt := h.bound k hk hne
  omega

theorem RefStep.sound (hs : RefStep table table' i j n) (h : table.CowSound) : table'.CowSound := by
  have hother : ∀ {i' j'}, (i', j') ≠ (i, j) → (table'.userRef i' j').mapped →
      ∃ k, (table'.cowPages k).used ∧
        (table'.cowPages k).id = (table'.userRef i' j').cowPageId := by
    intro i' j' hne hmapped
    rw [hs.others i' j' hne] at hmapped ⊢
    obtain ⟨k, hk, hid⟩ := h.mapped i' j' hmapped
    obtain ⟨hused, hsame⟩ := hs.stays h hne hk hmapped hid
    exact ⟨k, hused, hsame.trans hid⟩
  have hcounts : ∀ k, (table'.cowPages k).used →
      (table'.cowPages k).refcount = (table'.refs (table'.cowPages k).id).card := by
    intro k hk
    rcases hs.pages k hk with ⟨hold, hid, hcount⟩ | ⟨-, -, hid, hne, -, hcount⟩
    · have hcard := hs.others.card (table.cowPages k).id
      have hbefore := h.counts k hold
      rw [hid]
      omega
    have hcard := hs.others.card table.nextCowPageId
    have hself : (i, j) ∉ table.refs table.nextCowPageId := by
      rw [h.refs_next hne]
      exact notMem_empty _
    rw [h.refs_next hne, card_empty, uses_eq_zero hself] at hcard
    rw [hid, hcount]
    omega
  refine ⟨?_, ?_, ?_, ?_, ?_, hcounts, hs.counted, ?_⟩
  · intro k hk
    rcases hs.pages k hk with ⟨hold, hid, -⟩ | ⟨-, -, hid, hne, -, -⟩
    · rw [hid]
      exact h.positive k hold
    rw [hid]
    exact Nat.pos_of_ne_zero hne
  · intro k hk hne
    rcases hs.next with hnext | ⟨hpos, hnext⟩
    · rw [hnext] at hne
      rcases hs.pages k hk with ⟨hold, hid, -⟩ | ⟨-, -, hid, -, hnew, -⟩
      · rw [hid, hnext]
        exact h.bound k hold hne
      rw [hnext] at hnew
      have hlt := h.lt
      rw [succ32] at hnew
      omega
    · have hsucc : succ32 table.nextCowPageId = table.nextCowPageId + 1 := by
        rw [hnext] at hne
        exact succ32_of_ne hne h.lt
      rw [hnext, hsucc]
      rcases hs.pages k hk with ⟨hold, hid, -⟩ | ⟨-, -, hid, -, -, -⟩
      · have hlt := h.bound k hold hpos
        omega
      · omega
  · intro k l hk hl hsame
    rcases hs.pages k hk with ⟨hkold, hkid, -⟩ | ⟨hkn, -, hkid, hkne, -, -⟩
    · rcases hs.pages l hl with ⟨hlold, hlid, -⟩ | ⟨-, -, hlid, hne, -, -⟩
      · exact h.unique k l hkold hlold (by rw [← hkid, ← hlid, hsame])
      have hlt := h.bound k hkold hne
      omega
    · rcases hs.pages l hl with ⟨hlold, hlid, -⟩ | ⟨hln, -⟩
      · have hlt := h.bound l hlold hkne
        omega
      · rw [hkn, hln]
  · rcases hs.next with hnext | ⟨-, hnext⟩
    · rw [hnext]
      exact h.lt
    rw [hnext]
    exact Nat.mod_lt _ (by decide)
  · intro i' j' hmapped
    by_cases hself : (i', j') = (i, j)
    · cases hself
      exact hs.self hmapped
    · exact hother hself hmapped
  · intro i' j' hmapped hcow hwritable
    by_cases hself : (i', j') = (i, j)
    · cases hself
      obtain ⟨k, hk, hid⟩ := hs.self hmapped
      have hone := hs.owned hmapped hcow hwritable k hk hid
      rw [hcounts k hk, hid] at hone
      obtain ⟨p, hp⟩ := card_eq_one.1 hone
      have hmem : (i, j) ∈ table'.refs (table'.userRef i j).cowPageId := mem_refs.2 ⟨hmapped, rfl⟩
      rw [hp, mem_singleton] at hmem
      rw [hp, hmem]
    · have hsame := hs.others i' j' hself
      rw [hsame] at hmapped hcow hwritable ⊢
      have hbefore := h.owned i' j' hmapped hcow hwritable
      have hzero := hs.shared i' j' hself hmapped hcow hwritable
      have hmiss : (i, j) ∉ table.refs (table.userRef i' j').cowPageId := by
        rw [hbefore, mem_singleton]
        exact fun heq => hself heq.symm
      have hcard := hs.others.card (table.userRef i' j').cowPageId
      rw [hbefore, card_singleton, hzero, uses_eq_zero hmiss] at hcard
      obtain ⟨p, hp⟩ := card_eq_one.1 (show (table'.refs _).card = 1 by omega)
      have hmem : (i', j') ∈ table'.refs (table.userRef i' j').cowPageId :=
        mem_refs.2 ⟨by rw [hsame]; exact hmapped, by rw [hsame]⟩
      rw [hp, mem_singleton] at hmem
      rw [hp, hmem]

theorem RefStep.content_other (hs : RefStep table table' i j n) (h : table.CowSound)
    (hne : (i', j') ≠ (i, j))
    (hdata : ∀ k, (table.cowPages k).used → (i', j') ∈ table.refs (table.cowPages k).id →
      (table'.cowPages k).used → (table'.cowPages k).data = (table.cowPages k).data) :
    table'.content i' j' = table.content i' j' := by
  have hsame := hs.others i' j' hne
  cases hmapped : (table.userRef i' j').mapped with
  | false =>
    rw [content_unmapped hmapped, content_unmapped (by rw [hsame]; exact hmapped)]
  | true =>
    obtain ⟨k, hk, hid, -, hcontent⟩ := h.find_mapped hmapped
    obtain ⟨hused, hkid⟩ := hs.stays h hne hk hmapped hid
    have hfind := (hs.sound h).find_eq hused (hkid.trans hid)
    rw [content, hsame, if_pos hmapped, hfind, hcontent]
    exact congrArg some (hdata k hk (mem_refs.2 ⟨hmapped, hid.symm⟩) hused)

end CourseProcessTable
end VisualCpu
