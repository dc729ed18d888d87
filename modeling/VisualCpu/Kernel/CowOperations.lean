import VisualCpu.Kernel.CowPages

/-!
# The page operations

Releasing, mapping, copying, sharing and writing a page each keep the reference counts, and
each says what it does to the content behind the reference it is about.
-/

namespace VisualCpu

open List Function

namespace CourseProcessTable

variable {table : CourseProcessTable} {i : ProcessSlot} {j : UserPageIndex}

theorem setUserPage_userRef (ref : CourseProcessUserPageRef) (i' : ProcessSlot)
    (j' : UserPageIndex) : (table.setUserPage i j ref).userRef i' j' =
      if (i', j') = (i, j) then ref else table.userRef i' j' := by
  by_cases hi : i' = i
  · by_cases hj : j' = j <;> simp [setUserPage, setProcess, userRef, hi, hj]
  · simp [setUserPage, setProcess, userRef, hi]

theorem setUserPage_self (ref : CourseProcessUserPageRef) :
    (table.setUserPage i j ref).userRef i j = ref := by
  rw [setUserPage_userRef, if_pos rfl]

/-- The same mapped references and pages. -/
structure SamePages (table table' : CourseProcessTable) : Prop where
  userRef : ∀ i j, table'.userRef i j = table.userRef i j ∨
    (table'.userRef i j).mapped = false ∧ (table.userRef i j).mapped = false
  cowPages : table'.cowPages = table.cowPages
  next : table'.nextCowPageId = table.nextCowPageId

section

variable {table' : CourseProcessTable} (hs : SamePages table table')

include hs

theorem SamePages.mapped
    (h : (table'.userRef i j).mapped) : table'.userRef i j = table.userRef i j :=
  (hs.userRef i j).resolve_right fun hno => by
    rw [h] at hno
    cases hno.1

theorem SamePages.sound (h : table.CowSound) : table'.CowSound := by
  have hrefs : ∀ id, table'.refs id = table.refs id := by
    intro id
    ext p
    rw [mem_refs, mem_refs]
    rcases hs.userRef p.1 p.2 with hsame | ⟨hno, hnot⟩
    · rw [hsame]
    rw [hno, hnot]
    simp
  constructor
  · rw [hs.cowPages]
    exact h.positive
  · rw [hs.cowPages, hs.next]
    exact h.bound
  · rw [hs.cowPages]
    exact h.unique
  · rw [hs.next]
    exact h.lt
  · intro i j hmapped
    have hsame := hs.mapped hmapped
    rw [hsame] at hmapped ⊢
    rw [hs.cowPages]
    exact h.mapped i j hmapped
  · simp only [hs.cowPages, hrefs]
    exact h.counts
  · rw [hs.cowPages]
    exact h.counted
  · intro i j hmapped hcow hwritable
    have hsame := hs.mapped hmapped
    rw [hsame] at hmapped hcow hwritable ⊢
    rw [hrefs]
    exact h.owned i j hmapped hcow hwritable

theorem SamePages.content
    (i : ProcessSlot) (j : UserPageIndex) : table'.content i j = table.content i j := by
  rcases hs.userRef i j with hsame | ⟨hno, hnot⟩
  · simp only [CourseProcessTable.content, hsame, findCowPageById, hs.cowPages]
  · rw [content_unmapped hno, content_unmapped hnot]

end

theorem init_cowSound : init.CowSound where
  positive k hk := by cases hk
  bound k hk := by cases hk
  unique k l hk := by cases hk
  lt := by decide
  mapped i j hmapped := by cases hmapped
  counts k hk := by cases hk
  counted k hk := by cases hk
  owned i j hmapped := by cases hmapped

/-- What an operation about one reference does to soundness and to the other contents. -/
structure Keeps (table table' : CourseProcessTable) (i : ProcessSlot) (j : UserPageIndex) :
    Prop where
  sound : table'.CowSound
  others : RefsBut table table' i j
  content : ∀ i' j', (i', j') ≠ (i, j) → table'.content i' j' = table.content i' j'

theorem Keeps.refl (h : table.CowSound) : Keeps table table i j :=
  ⟨h, fun _ _ _ => rfl, fun _ _ _ => rfl⟩

variable {table' : CourseProcessTable} {n : CowPageSlot}

theorem RefStep.keeps
    (hs : RefStep table table' i j n) (h : table.CowSound)
    (hdata : ∀ i' j', (i', j') ≠ (i, j) → ∀ k, (table.cowPages k).used →
      (i', j') ∈ table.refs (table.cowPages k).id →
      (table'.cowPages k).used → (table'.cowPages k).data = (table.cowPages k).data) :
    Keeps table table' i j :=
  ⟨hs.sound h, hs.others, fun i' j' hne => hs.content_other h hne (hdata i' j' hne)⟩

theorem releaseCowPageRef_eq {id : ℕ} {k : CowPageSlot} (hfind : table.findCowPageById id = some k)
    (hcount : 0 < (table.cowPages k).refcount) :
    (table.releaseCowPageRef id).processes = table.processes ∧
      (table.releaseCowPageRef id).nextCowPageId = table.nextCowPageId ∧
      (table.releaseCowPageRef id).cowPages = update table.cowPages k
        (if (table.cowPages k).refcount = 1 then {}
        else { table.cowPages k with refcount := (table.cowPages k).refcount - 1 }) := by
  simp only [releaseCowPageRef, hfind]
  rw [if_neg (by omega)]
  by_cases hone : (table.cowPages k).refcount = 1
  · rw [if_pos (by omega), if_pos hone]
    exact ⟨rfl, rfl, rfl⟩
  rw [if_neg (by omega), if_neg hone]
  exact ⟨rfl, rfl, rfl⟩

theorem releaseUserPage_keeps (h : table.CowSound) (i : ProcessSlot) (j : UserPageIndex) :
    Keeps table (table.releaseUserPage i j) i j ∧
      ((table.releaseUserPage i j).userRef i j).mapped = false := by
  cases hmapped : (table.userRef i j).mapped with
  | false =>
    have hsame : table.releaseUserPage i j = table := by
      rw [userRef] at hmapped
      simp [releaseUserPage, hmapped]
    rw [hsame]
    exact ⟨Keeps.refl h, hmapped⟩
  | true =>
    obtain ⟨k, hk, hid, hfind, -⟩ := h.find_mapped hmapped
    have hcount := h.counted k hk
    have huses : table.uses i j (table.cowPages k).id = 1 :=
      uses_eq_one (mem_refs.2 ⟨hmapped, hid.symm⟩)
    have hstep : table.releaseUserPage i j =
        (table.releaseCowPageRef (table.userRef i j).cowPageId).setUserPage i j {} := by
      rw [userRef] at hmapped ⊢
      simp [releaseUserPage, hmapped]
    obtain ⟨hprocesses, hnext, hpages⟩ := releaseCowPageRef_eq hfind hcount
    have hrefs : ∀ i' j', (table.releaseUserPage i j).userRef i' j' =
        if (i', j') = (i, j) then {} else table.userRef i' j' := by
      intro i' j'
      have hsame : (table.releaseCowPageRef (table.userRef i j).cowPageId).userRef i' j' =
          table.userRef i' j' := congrArg (fun processes => (processes i').userPages j') hprocesses
      rw [hstep, setUserPage_userRef, hsame]
    have hcow : (table.releaseUserPage i j).cowPages =
        (table.releaseCowPageRef (table.userRef i j).cowPageId).cowPages := by
      rw [hstep]
      rfl
    have hnext' : (table.releaseUserPage i j).nextCowPageId = table.nextCowPageId := by
      rw [hstep]
      exact hnext
    have hself : (table.releaseUserPage i j).userRef i j = {} := by rw [hrefs, if_pos rfl]
    have hfree : ∀ id, (table.releaseUserPage i j).uses i j id = 0 := by
      intro id
      rw [uses, hself]
      simp
    have hother : ∀ k', k' ≠ k → (table.releaseUserPage i j).cowPages k' = table.cowPages k' := by
      intro k' hne
      rw [hcow, hpages, update_of_ne hne]
    have hpage : (table.releaseUserPage i j).cowPages k =
        if (table.cowPages k).refcount = 1 then {}
        else { table.cowPages k with refcount := (table.cowPages k).refcount - 1 } := by
      rw [hcow, hpages, update_self]
    have hstill : ((table.releaseUserPage i j).cowPages k).used →
        (table.cowPages k).refcount ≠ 1 := by
      intro hused hone
      rw [hpage, if_pos hone] at hused
      cases hused
    have hrs : RefStep table (table.releaseUserPage i j) i j k := by
      refine ⟨fun i' j' hne => ?_, fun k' hk' => .inl ?_, fun k' hk' => ?_, .inl hnext',
        fun k' hk' => ?_, fun hno => ?_, fun hno => ?_, fun i' j' _ _ _ _ => hfree _⟩
      · rw [hrefs, if_neg hne]
      · by_cases hkk : k' = k
        · subst hkk
          have hne := hstill hk'
          rw [hpage, if_neg hne, huses, hfree]
          exact ⟨hk, rfl, by simp only; omega⟩
        rw [hother k' hkk] at hk' ⊢
        refine ⟨hk', rfl, ?_⟩
        have hzero : table.uses i j (table.cowPages k').id = 0 :=
          uses_eq_zero fun hmem =>
            hkk (h.unique k' k hk' hk ((mem_refs.1 hmem).2.symm.trans hid.symm))
        rw [hzero, hfree]
      · by_cases hkk : k' = k
        · subst hkk
          by_cases hone : (table.cowPages k').refcount = 1
          · exact .inr (hone.trans huses.symm)
          left
          rw [hpage, if_neg hone]
          exact hk
        · exact .inl (by rw [hother k' hkk]; exact hk')
      · by_cases hkk : k' = k
        · subst hkk
          have hne := hstill hk'
          rw [hpage, if_neg hne]
          simp only
          omega
        · rw [hother k' hkk] at hk' ⊢
          exact h.counted k' hk'
      · rw [hself] at hno
        cases hno
      · rw [hself] at hno
        cases hno
    refine ⟨hrs.keeps h fun i' j' _ k' _ _ hk' => ?_, by rw [hself]⟩
    by_cases hkk : k' = k
    · subst hkk
      rw [hpage, if_neg (hstill hk')]
    · rw [hother k' hkk]

theorem releaseProcessUserPages_keeps (h : table.CowSound) (i : ProcessSlot) :
    (table.releaseProcessUserPages i).CowSound ∧
      (∀ i' j', i' ≠ i → (table.releaseProcessUserPages i).userRef i' j' = table.userRef i' j' ∧
        (table.releaseProcessUserPages i).content i' j' = table.content i' j') ∧
      ∀ j', ((table.releaseProcessUserPages i).userRef i j').mapped = false := by
  have hfold : ∀ (js : List UserPageIndex) (table : CourseProcessTable), table.CowSound →
      (js.foldl (fun table j => table.releaseUserPage i j) table).CowSound ∧
        (∀ i' j', i' ≠ i →
          (js.foldl (fun table j => table.releaseUserPage i j) table).userRef i' j' =
            table.userRef i' j' ∧
          (js.foldl (fun table j => table.releaseUserPage i j) table).content i' j' =
            table.content i' j') ∧
        ∀ j', j' ∈ js ∨ (table.userRef i j').mapped = false →
          ((js.foldl (fun table j => table.releaseUserPage i j) table).userRef i j').mapped =
            false := by
    intro js
    induction js with
    | nil =>
      intro table h
      refine ⟨h, fun _ _ _ => ⟨rfl, rfl⟩, fun j' hj' => ?_⟩
      rcases hj' with hmem | hfree
      · cases hmem
      · exact hfree
    | cons j js ih =>
      intro table h
      obtain ⟨hkeeps, hfree⟩ := releaseUserPage_keeps h i j
      obtain ⟨hsound, hsame, hall⟩ := ih _ hkeeps.sound
      refine ⟨hsound, fun i' j' hne => ?_, fun j' hj' => hall j' ?_⟩
      · have hpair : (i', j') ≠ (i, j) := fun heq => hne (congrArg Prod.fst heq)
        obtain ⟨hrefs, hcontent⟩ := hsame i' j' hne
        exact ⟨hrefs.trans (hkeeps.others i' j' hpair), hcontent.trans (hkeeps.content i' j' hpair)⟩
      by_cases hjj : j' = j
      · rw [hjj]
        exact .inr hfree
      rcases hj' with hmem | hunmapped
      · exact .inl ((mem_cons.1 hmem).resolve_left hjj)
      right
      rw [hkeeps.others i j' fun heq => hjj (congrArg Prod.snd heq)]
      exact hunmapped
  obtain ⟨hsound, hsame, hall⟩ := hfold (finRange 8) table h
  exact ⟨hsound, hsame, fun j' => hall j' (.inl (mem_finRange j'))⟩

theorem allocCowPage_some
    (h : table.allocCowPage = some (n, table')) :
    table.nextCowPageId ≠ 0 ∧ (table.cowPages n).used = false ∧
      table'.processes = table.processes ∧ table'.nextCowPageId = succ32 table.nextCowPageId ∧
      table'.cowPages = update table.cowPages n
        { used := true, id := table.nextCowPageId, refcount := 1 } := by
  rw [allocCowPage] at h
  split at h
  · cases h
  rename_i hne
  cases hfree : table.freeCowPage with
  | none =>
    rw [hfree] at h
    cases h
  | some k =>
    rw [hfree] at h
    cases h
    have hunused := firstSlot_some hfree
    exact ⟨hne, by simpa using hunused, rfl, rfl, rfl⟩

section

variable (h : table.CowSound)

include h

theorem newPage_keeps {table' : CourseProcessTable} {n : CowPageSlot}
    {ref : CourseProcessUserPageRef} {data : Fin courseProcessUserPageSize → UInt8}
    (hnext : table.nextCowPageId ≠ 0) (hfree : (table.cowPages n).used = false)
    (hmapped : ref.mapped) (hid : ref.cowPageId = table.nextCowPageId)
    (hrefs : ∀ i' j', table'.userRef i' j' = if (i', j') = (i, j) then ref else table.userRef i' j')
    (hnew : table'.cowPages n =
      { used := true, id := table.nextCowPageId, refcount := 1, data := data })
    (hused : ∀ k, k ≠ n → (table'.cowPages k).used = (table.cowPages k).used)
    (hold : ∀ k, (table.cowPages k).used → table'.cowPages k = { table.cowPages k with
      refcount := (table.cowPages k).refcount - table.uses i j (table.cowPages k).id })
    (hshared : ∀ k, (table.cowPages k).used →
      table.uses i j (table.cowPages k).id < (table.cowPages k).refcount)
    (hsucc : table'.nextCowPageId = succ32 table.nextCowPageId) :
    Keeps table table' i j ∧ table'.content i j = some data := by
  have hself : table'.userRef i j = ref := by rw [hrefs, if_pos rfl]
  have huses : ∀ id, table'.uses i j id = if table.nextCowPageId = id then 1 else 0 := by
    intro id
    rw [uses, hself]
    simp only [hmapped, hid, true_and]
  have hbelow : ∀ k, (table.cowPages k).used → table'.uses i j (table.cowPages k).id =
    0 := by
    intro k hk
    have hlt := h.bound k hk hnext
    rw [huses, if_neg (by omega)]
  have hrs : RefStep table table' i j n := by
    refine ⟨fun i' j' hother => ?_, fun k hk => ?_, fun k hk => .inl ?_, .inr ⟨hnext, hsucc⟩,
      fun k hk => ?_, fun _ => ⟨n, ?_, ?_⟩, fun _ _ _ k hk hkid => ?_, fun i' j' _ hm _ _ => ?_⟩
    · rw [hrefs, if_neg hother]
    · by_cases hkn : k = n
      · subst hkn
        refine .inr ⟨rfl, hfree, by rw [hnew], hnext, hsucc, ?_⟩
        rw [hnew, huses, if_pos rfl]
      rw [hused k hkn] at hk
      have hlt := hshared k hk
      rw [hbelow k hk, hold k hk]
      exact .inl ⟨hk, rfl, by simp only; omega⟩
    · rw [hold k hk]
      exact hk
    · by_cases hkn : k = n
      · rw [hkn, hnew]
        exact Nat.one_pos
      rw [hused k hkn] at hk
      have hlt := hshared k hk
      rw [hold k hk]
      simp only
      omega
    · rw [hnew]
    · rw [hnew, hself, hid]
    · by_cases hkn : k = n
      · rw [hkn, hnew]
      rw [hused k hkn] at hk
      rw [hold k hk, hself, hid] at hkid
      have hlt := h.bound k hk hnext
      simp only at hkid
      omega
    · obtain ⟨k, hk, hkid⟩ := h.mapped i' j' hm
      rw [← hkid]
      exact hbelow k hk
  refine ⟨hrs.keeps h fun i' j' _ k hk _ _ => by rw [hold k hk], ?_⟩
  have hnewUsed : (table'.cowPages n).used := by rw [hnew]
  have hfind := (hrs.sound h).find_eq hnewUsed
    (show (table'.cowPages n).id = table.nextCowPageId by rw [hnew])
  rw [content, hself, if_pos hmapped, hid, hfind, Option.map_some, hnew]

theorem mapUserPage_cases (pid pageIndex : ℕ) (fillValue : UInt8) :
    table.mapUserPage pid pageIndex fillValue = (table, false) ∨
      ∃ (i : ProcessSlot) (j : UserPageIndex), table.find pid = some i ∧ j.val = pageIndex ∧
        (table.mapUserPage pid pageIndex fillValue).2 ∧
        Keeps table (table.mapUserPage pid pageIndex fillValue).1 i j ∧
        (table.mapUserPage pid pageIndex fillValue).1.content i j = some fun _ => fillValue := by
  rw [mapUserPage]
  cases hfind : table.find pid with
  | none => exact .inl rfl
  | some i =>
    simp only
    by_cases hj : pageIndex < 8
    · rw [dif_pos hj]
      cases hmapped : ((table.processes i).userPages ⟨pageIndex, hj⟩).mapped with
      | true =>
        left
        simp only [if_true]
      | false =>
        simp only [Bool.false_eq_true, if_false]
        cases halloc : table.allocCowPage with
        | none => exact .inl rfl
        | some taken =>
          obtain ⟨n, table'⟩ := taken
          obtain ⟨hnext, hfree, hprocesses, hsucc, hpages⟩ := allocCowPage_some halloc
          have hunmapped : ∀ id, table.uses i ⟨pageIndex, hj⟩ id = 0 := by
            intro id
            have hno : (table.userRef i ⟨pageIndex, hj⟩).mapped = false := hmapped
            rw [uses, hno]
            simp
          have hnew : table'.cowPages n =
            { used := true, id := table.nextCowPageId, refcount := 1 } := by
            rw [hpages, update_self]
          have hne : ∀ k, (table.cowPages k).used → k ≠ n := by
            rintro k hk rfl
            rw [hk] at hfree
            cases hfree
          refine .inr ⟨i, ⟨pageIndex, hj⟩, rfl, rfl, rfl, ?_⟩
          have hrefs : ∀ i' j', table'.userRef i' j' = table.userRef i' j' := fun i' j' =>
            congrArg (fun processes => (processes i').userPages j') hprocesses
          refine @newPage_keeps table i ⟨pageIndex, hj⟩ h _ n
            { mapped := true, cowPageId := table.nextCowPageId, writable := true }
            (fun _ => fillValue) hnext hfree rfl rfl (fun i' j' => ?_) ?_ (fun k hk => ?_)
            (fun k hk => ?_) (fun k hk => ?_) hsucc
          · rw [← hrefs, ← setUserPage_userRef]
            simp only [setCowPage, update_self, hnew]
            rfl
          · simp only [setUserPage, setProcess, setCowPage, update_self, hnew]
          · simp only [setUserPage, setProcess, setCowPage, update_of_ne hk, hpages]
          · rw [hunmapped]
            simp only [setUserPage, setProcess, setCowPage, update_of_ne (hne k hk), hpages]
            rfl
          · rw [hunmapped]
            exact h.counted k hk
    · rw [dif_neg hj]
      exact .inl rfl

theorem setRef_keeps {table' : CourseProcessTable} {k : CowPageSlot}
    {ref : CourseProcessUserPageRef} {data : Fin courseProcessUserPageSize → UInt8}
    (hk : (table.cowPages k).used) (hmapped : ref.mapped)
    (hid : ref.cowPageId = (table.cowPages k).id)
    (hwas : (table.userRef i j).mapped → (table.userRef i j).cowPageId = ref.cowPageId)
    (hrefs : ∀ i' j', table'.userRef i' j' = if (i', j') = (i, j) then ref else table.userRef i' j')
    (hpage : table'.cowPages k = { table.cowPages k with
      refcount := (table.cowPages k).refcount + 1 - table.uses i j (table.cowPages k).id
      data := data })
    (hold : ∀ k', k' ≠ k → table'.cowPages k' = table.cowPages k')
    (hnext : table'.nextCowPageId = table.nextCowPageId)
    (hown : ref.cow = false → ref.writable → (table'.cowPages k).refcount = 1)
    (hshared : ∀ i' j', (i', j') ≠ (i, j) → (table.userRef i' j').mapped →
      (table.userRef i' j').cow = false → (table.userRef i' j').writable →
      (table.userRef i' j').cowPageId ≠ (table.cowPages k).id)
    (hdata : data = (table.cowPages k).data ∨ ∀ p ∈ table.refs (table.cowPages k).id, p = (i, j)) :
    Keeps table table' i j ∧ table'.content i j = some data := by
  have hself : table'.userRef i j = ref := by rw [hrefs, if_pos rfl]
  have huses : ∀ id, table'.uses i j id = if (table.cowPages k).id = id then 1 else 0 := by
    intro id
    rw [uses, hself]
    simp only [hmapped, hid, true_and]
  have hmiss : ∀ k', (table.cowPages k').used → k' ≠ k →
      table.uses i j (table.cowPages k').id = 0 ∧ table'.uses i j (table.cowPages k').id = 0 := by
    intro k' hk' hne
    have hids : (table.cowPages k).id ≠ (table.cowPages k').id := fun heq =>
      hne (h.unique k' k hk' hk heq.symm)
    refine ⟨uses_eq_zero fun hmem => ?_, by rw [huses, if_neg hids]⟩
    obtain ⟨hm, heq⟩ := mem_refs.1 hmem
    exact hids ((hid.symm.trans (hwas hm).symm).trans heq)
  have hused : (table'.cowPages k).used := by rw [hpage, hk]
  have hle := @uses_le table i j (table.cowPages k).id
  have hrs : RefStep table table' i j k := by
    refine ⟨fun i' j' hother => ?_, fun k' hk' => .inl ?_, fun k' hk' => .inl ?_, .inl hnext,
      fun k' hk' => ?_, fun _ => ⟨k, hused, ?_⟩, fun _ hc hw k' hk' hkid => ?_,
      fun i' j' hne hm hc hw => ?_⟩
    · rw [hrefs, if_neg hother]
    · by_cases hkk : k' = k
      · subst hkk
        refine ⟨hk, by rw [hpage], ?_⟩
        rw [hpage, huses, if_pos rfl]
        simp only
        omega
      · rw [hold k' hkk] at hk' ⊢
        obtain ⟨hbefore, hafter⟩ := hmiss k' hk' hkk
        exact ⟨hk', rfl, by rw [hbefore, hafter]⟩
    · by_cases hkk : k' = k
      · rw [hkk]
        exact hused
      rw [hold k' hkk]
      exact hk'
    · by_cases hkk : k' = k
      · subst hkk
        have hpos := h.counted k' hk
        rw [hpage]
        simp only
        omega
      · rw [hold k' hkk] at hk' ⊢
        exact h.counted k' hk'
    · rw [hpage, hself, hid]
    · rw [hself] at hc hw hkid
      by_cases hkk : k' = k
      · rw [hkk]
        exact hown hc hw
      rw [hold k' hkk] at hk' hkid
      exact absurd (h.unique k' k hk' hk (hkid.trans hid)) hkk
    · rw [huses, if_neg (hshared i' j' hne hm hc hw).symm]
  refine ⟨hrs.keeps h fun i' j' hne k' hk' hmem _ => ?_, ?_⟩
  · by_cases hkk : k' = k
    · subst hkk
      rw [hpage]
      exact hdata.resolve_right fun hall => hne (hall _ hmem)
    · rw [hold k' hkk]
  · have hfind := (hrs.sound h).find_eq hused
      (show (table'.cowPages k).id = (table.cowPages k).id by
      rw [hpage])
    rw [content, hself, if_pos hmapped, hid, hfind, Option.map_some, hpage]

theorem CowSound.not_owned {id : ℕ} (hmem : (i, j) ∈ table.refs id)
    {i' : ProcessSlot} {j' : UserPageIndex} (hne : (i', j') ≠ (i, j))
    (hmapped : (table.userRef i' j').mapped) (hcow : (table.userRef i' j').cow = false)
    (hwritable : (table.userRef i' j').writable) :
    (table.userRef i' j').cowPageId ≠ id := by
  intro heq
  have hrefs := h.owned i' j' hmapped hcow hwritable
  rw [heq] at hrefs
  rw [hrefs, Finset.mem_singleton] at hmem
  exact hne hmem.symm

theorem CowSound.sole {k : CowPageSlot} (hk : (table.cowPages k).used)
    (hmem : (i, j) ∈ table.refs (table.cowPages k).id) (hone : (table.cowPages k).refcount = 1) :
    ∀ p ∈ table.refs (table.cowPages k).id, p = (i, j) := by
  intro p hp
  rw [h.counts k hk] at hone
  obtain ⟨q, hq⟩ := Finset.card_eq_one.1 hone
  rw [hq, Finset.mem_singleton] at hp hmem
  rw [hp, hmem]

end

theorem duplicated_eq {k n : CowPageSlot}
    (hfind : table.findCowPageById (table.userRef i j).cowPageId = some k)
    (hcount : 1 < (table.cowPages k).refcount)
    (hprivate : ¬(!(table.userRef i j).cow && (table.userRef i j).writable) = true)
    (hkn : k ≠ n) (halloc : table.allocCowPage = some (n, table')) :
    ∃ copy : CourseProcessTable, table.duplicateCowPage i j = (copy, true) ∧
      (∀ i' j', copy.userRef i' j' = if (i', j') = (i, j) then
        { table.userRef i j with
          cowPageId := table.nextCowPageId
          cow := false
          writable := true }
        else table.userRef i' j') ∧
      copy.cowPages n = { used := true
                          id := table.nextCowPageId
                          refcount := 1
                          data := (table.cowPages k).data } ∧
      copy.cowPages k = { table.cowPages k with refcount := (table.cowPages k).refcount - 1 } ∧
      (∀ k', k' ≠ n → k' ≠ k → copy.cowPages k' = table.cowPages k') ∧
      copy.nextCowPageId = succ32 table.nextCowPageId := by
  obtain ⟨-, -, hprocesses, hsucc, hpages⟩ := allocCowPage_some halloc
  rw [duplicateCowPage]
  simp only [show (table.processes i).userPages j = table.userRef i j from rfl, hfind]
  rw [if_neg (by omega), if_neg hprivate, if_neg (by omega)]
  simp only [halloc]
  refine ⟨_, rfl, fun i' j' => ?_, ?_, ?_, fun k' hn hk => ?_, hsucc⟩
  · have hsame : table'.userRef i' j' = table.userRef i' j' :=
      congrArg (fun processes => (processes i').userPages j') hprocesses
    rw [← hsame]
    refine (setUserPage_userRef ..).trans ?_
    simp [setCowPage, hpages, hkn.symm]
    rfl
  · simp [setUserPage, setProcess, setCowPage, hpages, hkn.symm]
  · simp [setUserPage, setProcess, setCowPage, hpages, hkn]
  · simp [setUserPage, setProcess, setCowPage, hpages, hn, hk]

theorem duplicateCowPage_keeps (h : table.CowSound) (hmapped : (table.userRef i j).mapped) :
    Keeps table (table.duplicateCowPage i j).1 i j ∧
      (table.duplicateCowPage i j).1.content i j = table.content i j ∧
      ((table.duplicateCowPage i j).1.userRef i j).mapped ∧
      ((table.duplicateCowPage i j).2 → ((table.duplicateCowPage i j).1.userRef i j).cow = false ∧
        ((table.duplicateCowPage i j).1.userRef i j).writable) := by
  obtain ⟨k, hk, hid, hfind, hcontent⟩ := h.find_mapped hmapped
  have hcount := h.counted k hk
  have hmem : (i, j) ∈ table.refs (table.cowPages k).id := mem_refs.2 ⟨hmapped, hid.symm⟩
  by_cases hprivate : (!(table.userRef i j).cow && (table.userRef i j).writable) = true
  · have hsame : table.duplicateCowPage i j = (table, true) := by
      rw [duplicateCowPage]
      simp only [show (table.processes i).userPages j = table.userRef i j from rfl, hfind]
      rw [if_neg (by omega), if_pos hprivate]
    rw [hsame]
    rw [Bool.and_eq_true, Bool.not_eq_true'] at hprivate
    exact ⟨Keeps.refl h, rfl, hmapped, fun _ => hprivate⟩
  · by_cases hone : (table.cowPages k).refcount = 1
    · have hsole := h.sole hk hmem hone
      obtain ⟨hkeeps, hsome⟩ := @setRef_keeps table i j h
        (table.setUserPage i j { table.userRef i j with cow := false, writable := true }) k
        { table.userRef i j with cow := false, writable := true } (table.cowPages k).data
        hk hmapped hid.symm (fun _ => rfl) (fun i' j' => setUserPage_userRef ..)
        (by rw [uses_eq_one hmem]; rfl) (fun k' _ => rfl) rfl (fun _ _ => hone)
        (fun i' j' hne => h.not_owned hmem hne) (.inl rfl)
      have hset : table.duplicateCowPage i j =
          (table.setUserPage i j { table.userRef i j with cow := false, writable := true },
            true) := by
        rw [duplicateCowPage]
        simp only [show (table.processes i).userPages j = table.userRef i j from rfl, hfind]
        rw [if_neg (by omega), if_neg hprivate, if_pos hone]
      rw [hset]
      refine ⟨hkeeps, hsome.trans hcontent.symm, ?_, fun _ => ?_⟩
      · rw [setUserPage_self]
        exact hmapped
      rw [setUserPage_self]
      exact ⟨rfl, rfl⟩
    · cases halloc : table.allocCowPage with
      | none =>
        have hsame : table.duplicateCowPage i j = (table, false) := by
          rw [duplicateCowPage]
          simp only [show (table.processes i).userPages j = table.userRef i j from rfl, hfind]
          rw [if_neg (by omega), if_neg hprivate, if_neg hone]
          simp only [halloc]
        rw [hsame]
        exact ⟨Keeps.refl h, rfl, hmapped, fun hno => by cases hno⟩
      | some taken =>
        obtain ⟨n, table'⟩ := taken
        obtain ⟨hnext, hfree, -⟩ := allocCowPage_some halloc
        have hne : ∀ k', (table.cowPages k').used → k' ≠ n := by
          rintro k' hk' rfl
          rw [hk'] at hfree
          cases hfree
        obtain ⟨copy, hcopy, hrefs, hnew, hless, hother, hsucc⟩ :=
          duplicated_eq hfind (by omega) hprivate (hne k hk) halloc
        have hmiss : ∀ k', (table.cowPages k').used → k' ≠ k →
            table.uses i j (table.cowPages k').id = 0 := fun k' hk' hkk =>
          uses_eq_zero fun hin =>
            hkk (h.unique k' k hk' hk ((mem_refs.1 hin).2.symm.trans hid.symm))
        rw [hcopy]
        have hused : ∀ k', k' ≠ n → (copy.cowPages k').used = (table.cowPages k').used := by
          intro k' hkn
          by_cases hkk : k' = k
          · rw [hkk, hless]
          · rw [hother k' hkn hkk]
        have hold : ∀ k', (table.cowPages k').used → copy.cowPages k' =
            { table.cowPages k' with
              refcount :=
                (table.cowPages k').refcount - table.uses i j (table.cowPages k').id } := by
          intro k' hk'
          by_cases hkk : k' = k
          · rw [hkk, hless, uses_eq_one hmem]
          rw [hother k' (hne k' hk') hkk, hmiss k' hk' hkk]
          rfl
        have hshared : ∀ k', (table.cowPages k').used →
            table.uses i j (table.cowPages k').id < (table.cowPages k').refcount := by
          intro k' hk'
          by_cases hkk : k' = k
          · rw [hkk, uses_eq_one hmem]
            omega
          rw [hmiss k' hk' hkk]
          exact h.counted k' hk'
        obtain ⟨hkeeps, hsome⟩ := newPage_keeps h hnext hfree
          (show CourseProcessUserPageRef.mapped { table.userRef i j with
            cowPageId := table.nextCowPageId
            cow := false
            writable := true } from hmapped) rfl hrefs hnew hused hold hshared hsucc
        refine ⟨hkeeps, hsome.trans hcontent.symm, ?_, fun _ => ?_⟩
        · rw [hrefs, if_pos rfl]
          exact hmapped
        rw [hrefs, if_pos rfl]
        exact ⟨rfl, rfl⟩

theorem Keeps.trans {table₁ table₂ : CourseProcessTable} (h₁ : Keeps table table₁ i j)
    (h₂ : Keeps table₁ table₂ i j) : Keeps table table₂ i j :=
  ⟨h₂.sound, fun i' j' hne => (h₂.others i' j' hne).trans (h₁.others i' j' hne),
    fun i' j' hne => (h₂.content i' j' hne).trans (h₁.content i' j' hne)⟩

theorem writeUserByte_cases (h : table.CowSound) (pid pageIndex offset : ℕ) (value : UInt8) :
    table.writeUserByte pid pageIndex offset value = (table, false) ∨
      ∃ (i : ProcessSlot) (j : UserPageIndex), table.find pid = some i ∧ j.val = pageIndex ∧
        Keeps table (table.writeUserByte pid pageIndex offset value).1 i j ∧
        ((table.writeUserByte pid pageIndex offset value).1.userRef i j).mapped ∧
        (((table.writeUserByte pid pageIndex offset value).2 = false ∧
          (table.writeUserByte pid pageIndex offset value).1.content i j = table.content i j) ∨
        ((table.writeUserByte pid pageIndex offset value).2 ∧
          ∃ (bytes : Fin courseProcessUserPageSize → UInt8) (o : Fin courseProcessUserPageSize),
            o.val = offset ∧ table.content i j = some bytes ∧
            (table.writeUserByte pid pageIndex offset value).1.content i j =
              some (update bytes o value))) := by
  rw [writeUserByte]
  cases hfind : table.find pid with
  | none => exact .inl rfl
  | some i =>
    simp only
    by_cases hj : pageIndex < 8
    · rw [dif_pos hj]
      by_cases ho : offset < courseProcessUserPageSize
      · rw [dif_pos ho]
        cases hmapped : ((table.processes i).userPages ⟨pageIndex, hj⟩).mapped with
        | false =>
          left
          rfl
        | true =>
          right
          refine ⟨i, ⟨pageIndex, hj⟩, rfl, rfl, ?_⟩
          simp only [Bool.not_true, Bool.false_eq_true, if_false]
          obtain ⟨hkeeps, hsame, hstill, hfree⟩ :=
            @duplicateCowPage_keeps table i ⟨pageIndex, hj⟩ h hmapped
          cases hdup : table.duplicateCowPage i ⟨pageIndex, hj⟩ with
          | mk own ok =>
            rw [hdup] at hkeeps hsame hstill hfree
            cases ok with
            | false => exact ⟨hkeeps, hstill, .inl ⟨rfl, hsame⟩⟩
            | true =>
              obtain ⟨hcow, hwritable⟩ := hfree rfl
              obtain ⟨k, hk, hid, hpage, hcontent⟩ := hkeeps.sound.find_mapped hstill
              have hrefs := hkeeps.sound.owned i ⟨pageIndex, hj⟩ hstill hcow hwritable
              have hmem : (i, (⟨pageIndex, hj⟩ : UserPageIndex)) ∈ own.refs (own.cowPages k).id :=
                mem_refs.2 ⟨hstill, hid.symm⟩
              have hlook : own.findCowPageById
                  ((own.processes i).userPages ⟨pageIndex, hj⟩).cowPageId = some k := hpage
              simp only [hlook]
              have hwriter : ∀ i' j', own.userRef i' j' =
                  if (i', j') = (i, (⟨pageIndex, hj⟩ : UserPageIndex)) then
                    own.userRef i ⟨pageIndex, hj⟩ else own.userRef i' j' := by
                intro i' j'
                split
                · rename_i heq
                  cases heq
                  rfl
                · rfl
              have hone : (own.cowPages k).refcount = 1 := by
                rw [hkeeps.sound.counts k hk, hid, hrefs, Finset.card_singleton]
              obtain ⟨hwritten, hsome⟩ := @setRef_keeps own i ⟨pageIndex, hj⟩ hkeeps.sound
                (own.setCowPage k { own.cowPages k with
                  data := update (own.cowPages k).data ⟨offset, ho⟩ value }) k
                (own.userRef i ⟨pageIndex, hj⟩)
                (update (own.cowPages k).data ⟨offset, ho⟩ value) hk hstill hid.symm
                (fun _ => rfl) hwriter (by rw [uses_eq_one hmem]; exact update_self ..)
                (fun k' hne => update_of_ne hne _ _) rfl
                (fun _ _ => by simpa [setCowPage] using hone)
                (fun i' j' hne => hkeeps.sound.not_owned hmem hne)
                (.inr (hkeeps.sound.sole hk hmem hone))
              refine ⟨hkeeps.trans hwritten, hstill, .inr ⟨trivial, (own.cowPages k).data,
                ⟨offset, ho⟩, rfl, ?_, hsome⟩⟩
              rw [← hsame, hcontent]
      · rw [dif_neg ho]
        exact .inl rfl
    · rw [dif_neg hj]
      exact .inl rfl

theorem handleCowStoreFault_cases (h : table.CowSound) (pid pageIndex offset : ℕ) :
    (table.handleCowStoreFault pid pageIndex offset).1 = table ∨
      ∃ (i : ProcessSlot) (j : UserPageIndex), table.find pid = some i ∧
        Keeps table (table.handleCowStoreFault pid pageIndex offset).1 i j ∧
        ((table.handleCowStoreFault pid pageIndex offset).1.userRef i j).mapped ∧
        (table.handleCowStoreFault pid pageIndex offset).1.content i j = table.content i j := by
  rw [handleCowStoreFault]
  cases hfind : table.find pid with
  | none => exact .inl rfl
  | some i =>
    simp only
    by_cases hj : pageIndex < 8
    · rw [dif_pos hj]
      by_cases ho : offset < courseProcessUserPageSize
      · rw [if_pos ho]
        cases hmapped : ((table.processes i).userPages ⟨pageIndex, hj⟩).mapped with
        | false => exact .inl rfl
        | true =>
          obtain ⟨hkeeps, hsame, hstill, -⟩ :=
            @duplicateCowPage_keeps table i ⟨pageIndex, hj⟩ h hmapped
          exact .inr ⟨i, ⟨pageIndex, hj⟩, rfl, hkeeps, hstill, hsame⟩
      · rw [if_neg ho]
        exact .inl rfl
    · rw [dif_neg hj]
      exact .inl rfl

variable {parent child : ProcessSlot}

theorem forkPage_eq {k : CowPageSlot} (hmapped : (table.userRef parent j).mapped)
    (hfind : table.findCowPageById (table.userRef parent j).cowPageId = some k) :
    ∃ shared, table.forkPage parent child j = some shared ∧
      (∀ i' j', shared.userRef i' j' =
        if (i', j') = (child, j) then
          { table.userRef parent j with writable := false, cow := true }
        else if (i', j') = (parent, j) then
          { table.userRef parent j with writable := false, cow := true }
        else table.userRef i' j') ∧
      shared.cowPages = update table.cowPages k
        { table.cowPages k with refcount := succ32 (table.cowPages k).refcount } ∧
      shared.nextCowPageId = table.nextCowPageId := by
  rw [forkPage]
  simp only [show (table.processes parent).userPages j = table.userRef parent j from rfl, hfind]
  rw [if_neg (by simp [hmapped])]
  refine ⟨_, rfl, fun i' j' => ?_, rfl, rfl⟩
  refine (setUserPage_userRef ..).trans ?_
  rw [setUserPage_userRef]
  rfl

theorem forkPage_shares (h : table.CowSound) (hne : child ≠ parent)
    (hfree : (table.userRef child j).mapped = false) :
    ∃ table', table.forkPage parent child j = some table' ∧ table'.CowSound ∧
      table'.content child j = table.content parent j ∧
      ∀ i' j', (i', j') ≠ (child, j) → table'.content i' j' = table.content i' j' ∧
        (table'.userRef i' j').mapped = (table.userRef i' j').mapped := by
  cases hmapped : (table.userRef parent j).mapped with
  | false =>
    have hskip : table.forkPage parent child j = some table := by
      rw [userRef] at hmapped
      simp [forkPage, hmapped]
    refine ⟨table, hskip, h, ?_, fun _ _ _ => ⟨rfl, rfl⟩⟩
    rw [content_unmapped hfree, content_unmapped hmapped]
  | true =>
    obtain ⟨k, hk, hid, hfind, hcontent⟩ := h.find_mapped hmapped
    have hmem : (parent, j) ∈ table.refs (table.cowPages k).id := mem_refs.2 ⟨hmapped, hid.symm⟩
    -- first the parent gives up writing, then the child's reference is added
    obtain ⟨ref, href⟩ : ∃ ref : CourseProcessUserPageRef,
      ref = { table.userRef parent j with writable := false, cow := true } := ⟨_, rfl⟩
    obtain ⟨given, hgiven⟩ : ∃ given, given = table.setUserPage parent j ref := ⟨_, rfl⟩
    have hrefMapped : ref.mapped := by rw [href]; exact hmapped
    have hrefId : ref.cowPageId = (table.cowPages k).id := by rw [href]; exact hid.symm
    have hrefCow : ref.cow := by rw [href]
    have hgivenRefs : ∀ i' j', given.userRef i' j' =
        if (i', j') = (parent, j) then ref else table.userRef i' j' := by
      rw [hgiven]
      exact fun i' j' => setUserPage_userRef ..
    have hgivenPages : given.cowPages = table.cowPages := by rw [hgiven]; rfl
    obtain ⟨hkeeps, hsame⟩ := @setRef_keeps table parent j h given k ref (table.cowPages k).data
      hk hrefMapped hrefId (fun _ => hid.symm.trans hrefId.symm) hgivenRefs
      (by rw [uses_eq_one hmem, hgivenPages]; rfl) (fun _ _ => by rw [hgivenPages])
      (by rw [hgiven]; rfl) (fun hno => by rw [hrefCow] at hno; cases hno)
      (fun i' j' hother => h.not_owned hmem hother) (.inl rfl)
    have hother : (child, j) ≠ (parent, j) := fun heq => hne (congrArg Prod.fst heq)
    have hchild : (given.userRef child j).mapped = false := by
      rw [hgivenRefs, if_neg hother]
      exact hfree
    have hgivenMem : (parent, j) ∈ given.refs (table.cowPages k).id := by
      rw [mem_refs, hgivenRefs, if_pos rfl]
      exact ⟨hrefMapped, hrefId⟩
    have huses : ∀ id, given.uses child j id = 0 := by
      intro id
      rw [uses, hchild]
      simp
    have hcount : succ32 (table.cowPages k).refcount = (table.cowPages k).refcount + 1 := by
      have hle := @card_refs_le table (table.cowPages k).id
      have hcounts := h.counts k hk
      rw [succ32]
      omega
    obtain ⟨shared, hfork, hrefs, hpages, hnext⟩ :=
      @forkPage_eq table j parent child k hmapped hfind
    rw [hcount] at hpages
    have hone : shared.cowPages k = { given.cowPages k with
        refcount := (given.cowPages k).refcount + 1 - given.uses child j (given.cowPages k).id
        data := (table.cowPages k).data } := by
      rw [hpages, update_self, huses, hgivenPages]
      rfl
    have hrest : ∀ k', k' ≠ k → shared.cowPages k' = given.cowPages k' := fun k' hkk => by
      rw [hpages, update_of_ne hkk, hgivenPages]
    have hsharedRefs : ∀ i' j', shared.userRef i' j' =
        if (i', j') = (child, j) then ref else given.userRef i' j' := by
      intro i' j'
      rw [hrefs, hgivenRefs, href]
    obtain ⟨hadded, hnew⟩ := setRef_keeps hkeeps.sound (by rw [hgivenPages]; exact hk) hrefMapped
      (by rw [hgivenPages]; exact hrefId) (fun hno => by rw [hchild] at hno; cases hno) hsharedRefs
      hone hrest (by rw [hnext, hgiven]; rfl) (fun hno => by rw [hrefCow] at hno; cases hno)
      (fun i' j' _ hm hc hw => by
        rw [hgivenPages]
        refine hkeeps.sound.not_owned hgivenMem (fun heq => ?_) hm hc hw
        cases heq
        rw [hgivenRefs, if_pos rfl, hrefCow] at hc
        cases hc)
      (.inl (by rw [hgivenPages]))
    refine ⟨shared, hfork, hadded.sound, hnew.trans hcontent.symm, fun i' j' hi' => ?_⟩
    rw [hadded.content i' j' hi', hadded.others i' j' hi']
    by_cases hparent : (i', j') = (parent, j)
    · cases hparent
      rw [hsame, hcontent, hgivenRefs, if_pos rfl, hrefMapped, hmapped]
      exact ⟨rfl, rfl⟩
    · rw [hkeeps.content i' j' hparent, hkeeps.others i' j' hparent]
      exact ⟨rfl, rfl⟩

theorem forkPages_shares (hne : child ≠ parent) (js : List UserPageIndex) (hnodup : js.Nodup)
    (table : CourseProcessTable) (h : table.CowSound)
    (hfree : ∀ j ∈ js, (table.userRef child j).mapped = false) :
    (table.forkPages parent child js).2 ∧ (table.forkPages parent child js).1.CowSound ∧
      (∀ j ∈ js, (table.forkPages parent child js).1.content child j = table.content parent j) ∧
      ∀ i' j', (i' ≠ child ∨ j' ∉ js) →
        (table.forkPages parent child js).1.content i' j' = table.content i' j' ∧
        ((table.forkPages parent child js).1.userRef i' j').mapped =
          (table.userRef i' j').mapped := by
  induction js generalizing table with
  | nil => exact ⟨rfl, h, fun _ hno => (by cases hno), fun _ _ _ => ⟨rfl, rfl⟩⟩
  | cons j js ih =>
    obtain ⟨hnew, hrest⟩ := nodup_cons.1 hnodup
    obtain ⟨shared, hfork, hsound, hchild, hothers⟩ :=
      forkPage_shares h hne (hfree j mem_cons_self)
    have hlater : ∀ j' ∈ js, (child, j') ≠ (child, j) := by
      intro j' hj' heq
      cases heq
      exact hnew hj'
    obtain ⟨hok, hall, hcontent, hsame⟩ := ih hrest shared hsound fun j' hj' => by
      rw [(hothers child j' (hlater j' hj')).2]
      exact hfree j' (mem_cons_of_mem _ hj')
    have hparent : ∀ j', (parent, j') ≠ (child, j) := fun j' heq => hne (congrArg Prod.fst heq).symm
    simp only [forkPages, hfork]
    refine ⟨hok, hall, fun j' hj' => ?_, fun i' j' hi' => ?_⟩
    · rcases mem_cons.1 hj' with rfl | hmem
      · rw [(hsame child j' (.inr hnew)).1, hchild]
      · rw [hcontent j' hmem, (hothers parent j' (hparent j')).1]
    have hpair : (i', j') ≠ (child, j) := by
      rintro heq
      cases heq
      exact hi'.elim (fun hno => hno rfl) fun hno => hno mem_cons_self
    have hi'' : i' ≠ child ∨ j' ∉ js := hi'.imp_right fun hno hmem => hno (mem_cons_of_mem _ hmem)
    obtain ⟨hone, htwo⟩ := hothers i' j' hpair
    obtain ⟨hthree, hfour⟩ := hsame i' j' hi''
    exact ⟨hthree.trans hone, hfour.trans htwo⟩

end CourseProcessTable
end VisualCpu
