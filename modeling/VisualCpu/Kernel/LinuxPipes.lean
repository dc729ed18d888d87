import VisualCpu.Kernel.LinuxDescriptors

/-!
# What the calls do to the pipes

Closing and duplicating a descriptor leave the pipes alone, a read takes bytes from the front
of the unread ones, and a write appends the chunks that it could copy.
-/

namespace VisualCpu

open Function LinuxCompat LinuxRuntime LinuxReply

/-- The bytes that are written and not yet read. -/
def LinuxPipe.unread (pipe : LinuxPipe) : List UInt8 := pipe.data.drop pipe.readOffset

namespace LinuxIo

variable (io io' : LinuxIo)

def pipeOf (fd : ℤ) : Option PipeSlot :=
  match fdSlot fd with
  | none => none
  | some slot => if io.fdIsValidPipe slot then some (io.ends slot).pipeIndex else none

/-- A descriptor is open on a pipe. -/
def Holds (slot : LinuxFdSlot) (i : PipeSlot) : Prop :=
  io.isOpen slot ∧ (io.ends slot).pipeNode ∧ (io.ends slot).pipeIndex = i

instance (slot : LinuxFdSlot) (i : PipeSlot) : Decidable (io.Holds slot i) :=
  inferInstanceAs (Decidable (_ ∧ _))

/-- Some descriptor is open on the pipe. -/
def PipeInUse (i : PipeSlot) : Prop := ∃ slot, io.Holds slot i

/-- Two descriptors are free, one for each end of a pipe. -/
def TwoFree : Prop :=
  ∃ a b : LinuxFdSlot, 3 ≤ a.val ∧ a < b ∧ io.isOpen a = false ∧ io.isOpen b = false

instance (i : PipeSlot) : Decidable (io.PipeInUse i) :=
  inferInstanceAs (Decidable (∃ _, _))

instance : Decidable io.TwoFree := inferInstanceAs (Decidable (∃ _ _ : LinuxFdSlot, _))

/-- The pipes, the pipe ends and the open descriptors are the same. -/
structure SamePipes : Prop where
  pipes : io'.pipes = io.pipes
  ends : io'.ends = io.ends
  opened : ∀ slot, io'.isOpen slot = io.isOpen slot

open SamePipes

variable {io io'}

theorem SamePipes.refl : SamePipes io io := ⟨rfl, rfl, fun _ => rfl⟩

variable {i : PipeSlot} {start : ℕ}

theorem SamePipes.holds (h : SamePipes io io') {slot : LinuxFdSlot} :
    io'.Holds slot i ↔ io.Holds slot i := by
  rw [Holds, Holds, h.opened, h.ends]

theorem PipeInUse.mono (h : io.PipeInUse i)
    (hholds : ∀ slot, io.Holds slot i → io'.Holds slot i) : io'.PipeInUse i := by
  obtain ⟨slot, hslot⟩ := h
  exact ⟨slot, hholds slot hslot⟩

/-- The descriptors other than one are the same, and so are the pipes. -/
structure FdChanged (io io' : LinuxIo) (changed : LinuxFdSlot) : Prop where
  pipes : io'.pipes = io.pipes
  ends : ∀ slot, slot ≠ changed → io'.ends slot = io.ends slot
  opened : ∀ slot, slot ≠ changed → io'.isOpen slot = io.isOpen slot

theorem FdChanged.holds {changed slot : LinuxFdSlot} (h : FdChanged io io' changed)
    (hslot : slot ≠ changed) : io'.Holds slot i ↔ io.Holds slot i := by
  rw [Holds, Holds, h.opened slot hslot, h.ends slot hslot]

section

variable (slot : LinuxFdSlot)

include slot

@[simp] theorem putFd_ends (fd : LinuxFd) (ends : LinuxPipeEnd) :
    (io.putFd slot fd ends).ends = update io.ends slot ends := rfl

@[simp] theorem putFd_fds (fd : LinuxFd) (ends : LinuxPipeEnd) :
    (io.putFd slot fd ends).runtime.fds = update io.runtime.fds slot fd := rfl

theorem putFd_changed (fd : LinuxFd) (ends : LinuxPipeEnd) :
    FdChanged io (io.putFd slot fd ends) slot where
  pipes := rfl
  ends other hother := by rw [putFd_ends, update_of_ne hother]
  opened other hother := by rw [isOpen, isOpen, putFd_fds, update_of_ne hother]

theorem closeFdSlot_changed : FdChanged io (io.closeFdSlot slot) slot := by
  unfold closeFdSlot
  split
  · exact ⟨rfl, fun _ _ => rfl, fun _ _ => rfl⟩
  refine ⟨rfl, fun other hother => update_of_ne hother _ _, fun other hother => ?_⟩
  rw [isOpen, isOpen, putFd_fds, update_of_ne hother]
  split <;> rfl

theorem retainFd_same : SamePipes io (io.retainFd slot) := by
  unfold retainFd
  split <;> exact ⟨rfl, rfl, fun _ => rfl⟩

end

theorem fdSlot_val {fd : ℤ} {slot : LinuxFdSlot} (h : fdSlot fd = some slot) :
    (slot.val : ℤ) = fd := by
  unfold fdSlot at h
  split at h
  · rename_i hrange
    cases h
    simp only [Int.toNat_of_nonneg (show 0 ≤ fd by omega)]
  · cases h

theorem fdValid_val {fd : ℤ} {slot : LinuxFdSlot} (h : io.fdValid fd = some slot) :
    (slot.val : ℤ) = fd ∧ (3 ≤ fd → io.isOpen slot) := by
  unfold fdValid at h
  split at h
  · rename_i hrange
    dsimp only at h
    split at h
    · rename_i hopen
      cases h
      refine ⟨by simp only [Int.toNat_of_nonneg hrange.1], fun hfd => ?_⟩
      rcases hopen with hlow | hopen
      · omega
      · exact hopen
    · cases h
  · cases h

/-- One descriptor has become a copy of another. -/
structure Duplicated (io io' : LinuxIo) (old new : LinuxFdSlot) : Prop where
  changed : FdChanged io io' new
  copied : io'.ends new = io.ends old
  opened : io'.isOpen new
  distinct : old ≠ new

theorem close_cases (fd : ℤ) : (io.close fd).1 = io ∨ ∃ slot,
    fdSlot fd = some slot ∧ (io.close fd).1 = io.closeFdSlot slot := by
  unfold close
  split
  · exact .inl rfl
  rename_i slot hslot
  split
  · exact .inl rfl
  · exact .inr ⟨slot, hslot, rfl⟩

theorem dup3_cases (oldFd newFd : ℤ) (flags : BitVec 32) : (io.dup3 oldFd newFd flags).1 = io ∨
    ∃ old new, io.fdValid oldFd = some old ∧ fdSlot newFd = some new ∧
      oldFd ≠ newFd ∧ flags &&& ~~~oCloexec = 0 ∧
      Duplicated io (io.dup3 oldFd newFd flags).1 old new := by
  unfold dup3
  split
  · rename_i old new hold hnew
    split
    · exact .inl rfl
    rename_i hargs
    rw [not_or, not_not] at hargs
    have hne : old ≠ new := by
      rintro rfl
      exact hargs.1 ((fdValid_val hold).1.symm.trans (fdSlot_val hnew))
    refine .inr ⟨old, new, hold, hnew, hargs.1, hargs.2, ?_⟩
    have hclosed := @closeFdSlot_changed io new
    have hput := @putFd_changed (io.closeFdSlot new) new
      { (io.closeFdSlot new).runtime.fds old with
        isOpen := true
        fdFlags := if has flags oCloexec then fdCloexec else 0 } ((io.closeFdSlot new).ends old)
    have hretain := @retainFd_same ((io.closeFdSlot new).putFd new
      { (io.closeFdSlot new).runtime.fds old with
        isOpen := true
        fdFlags := if has flags oCloexec then fdCloexec else 0 } ((io.closeFdSlot new).ends old))
          new
    refine ⟨⟨?_, fun slot hslot => ?_, fun slot hslot => ?_⟩, ?_, ?_, hne⟩
    · rw [hretain.pipes, hput.pipes, hclosed.pipes]
    · rw [hretain.ends, hput.ends slot hslot, hclosed.ends slot hslot]
    · rw [hretain.opened, hput.opened slot hslot, hclosed.opened slot hslot]
    · rw [hretain.ends, putFd_ends, update_self, hclosed.ends old hne]
    · rw [hretain.opened, isOpen, putFd_fds, update_self]
  · exact .inl rfl

theorem freeFdFrom_some {slot : LinuxFdSlot} (h : io.freeFdFrom start = some slot) :
    start ≤ slot.val ∧ 3 ≤ slot.val ∧ io.isOpen slot = false := by
  have htest := firstSlot_some h
  simp only [Bool.and_eq_true, decide_eq_true_eq, Bool.not_eq_true'] at htest
  exact ⟨htest.1.1, htest.1.2, htest.2⟩

theorem freeFdFrom_none (h : io.freeFdFrom start = none) {slot : LinuxFdSlot}
    (hstart : start ≤ slot.val) (hlow : 3 ≤ slot.val) : io.isOpen slot := by
  have htest := firstSlot_none h slot
  simpa [hstart, hlow] using htest

theorem freeFdFrom_first {slot other : LinuxFdSlot}
    (h : io.freeFdFrom start = some slot) (hstart : start ≤ other.val) (hlow : 3 ≤ other.val)
    (hfree : io.isOpen other = false) : slot ≤ other := by
  by_contra hlt
  have htest := firstSlot_before h (not_le.1 hlt)
  simp [hstart, hlow, hfree] at htest

theorem dupFd_cases (fd : ℤ) (arg : ℕ) : (io.dupFd fd arg).1 = io ∨ ∃ old new,
    io.fdValid fd = some old ∧ io.isOpen new = false ∧
      Duplicated io (io.dupFd fd arg).1 old new := by
  unfold dupFd
  split
  · exact .inl rfl
  rename_i old hold
  split
  · exact .inl rfl
  split
  · exact .inl rfl
  rename_i new hnew
  obtain ⟨_, hlow, hfree⟩ := freeFdFrom_some hnew
  refine .inr ⟨old, new, hold, hfree, putFd_changed new _ _, ?_, ?_, ?_⟩
  · rw [putFd_ends, update_self]
  · rw [isOpen, putFd_fds, update_self]
  rintro rfl
  have hvalid := fdValid_val hold
  rw [hvalid.2 (by omega)] at hfree
  cases hfree

/-- A free pipe slot has become an empty pipe with two new descriptors. -/
structure PipeMade (io io' : LinuxIo) (i : PipeSlot) (readFd writeFd : LinuxFdSlot) : Prop where
  pipes : io'.pipes = update io.pipes i { used := true, data := [], readOffset := 0 }
  fresh : (io.pipes i).used = false
  free : io.isOpen readFd = false ∧ io.isOpen writeFd = false
  holds : io'.Holds readFd i
  others : ∀ slot, slot ≠ readFd → slot ≠ writeFd →
    io'.ends slot = io.ends slot ∧ io'.isOpen slot = io.isOpen slot

variable (slot : LinuxFdSlot)

theorem openPipeEnd_self (access flags : BitVec 32) (ends : LinuxPipeEnd) :
    (io.openPipeEnd slot access flags ends).isOpen slot ∧
      (io.openPipeEnd slot access flags ends).ends slot = ends := by
  constructor
  · rw [isOpen, openPipeEnd, putFd_fds, update_self]
  · rw [openPipeEnd, putFd_ends, update_self]

theorem openPipeEnd_changed (access flags : BitVec 32)
    (ends : LinuxPipeEnd) : FdChanged io (io.openPipeEnd slot access flags ends) slot :=
  putFd_changed slot _ _

theorem not_twoFree_of_first {slot : LinuxFdSlot} (hfirst : io.freeFdFrom 3 = some slot)
    (hnext : io.freeFdFrom (slot.val + 1) = none) : ¬io.TwoFree := by
  rintro ⟨a, b, hlow, hlt, hfreeA, hfreeB⟩
  have hle : slot.val ≤ a.val := freeFdFrom_first hfirst hlow hlow hfreeA
  have hlt : a.val < b.val := hlt
  have hopen := freeFdFrom_none hnext (show slot.val + 1 ≤ b.val by omega) (by omega)
  rw [hopen] at hfreeB
  cases hfreeB

theorem not_twoFree_of_none (hnone : io.freeFdFrom 3 = none) : ¬io.TwoFree := by
  rintro ⟨a, _, hlow, _, hfree, _⟩
  rw [freeFdFrom_none hnone hlow hlow] at hfree
  cases hfree

theorem allocPipeSlot_none (hnone : io.allocPipeSlot = none) (i : PipeSlot) :
    (io.pipes i).used := by
  have htest := firstSlot_none hnone i
  simpa using htest

theorem pipe2_cases (dest : UserDest) (flags : BitVec 32) :
    ((io.pipe2 dest flags).1 = io ∧ (io.pipe2 dest flags).2.reply.value ≠ 0 ∧
      ((io.pipe2 dest flags).2.reply.value = -24 → ¬io.TwoFree ∨ ∀ i, (io.pipes i).used)) ∨
    ((io.pipe2 dest flags).2.reply.value = 0 ∧ ∃ i readFd writeFd, io.allocPipeSlot = some i ∧
      PipeMade io (io.pipe2 dest flags).1 i readFd writeFd) := by
  unfold pipe2
  split
  · exact .inl ⟨rfl, by simp [refuse], fun h => absurd h (by simp [refuse])⟩
  split
  · exact .inl ⟨rfl, by simp [refuse], fun h => absurd h (by simp [refuse])⟩
  split
  · rename_i readFd i hread halloc
    split
    · rename_i hwrite
      exact .inl ⟨rfl, by simp [refuse], fun _ =>
        .inl (not_twoFree_of_first hread hwrite)⟩
    rename_i writeFd hwrite
    split
    · exact .inl ⟨rfl, by simp [refuse], fun h =>
        absurd h (by simp [refuse])⟩
    right
    refine ⟨rfl, i, readFd, writeFd, halloc, ?_⟩
    obtain ⟨_, _, hfreeRead⟩ := freeFdFrom_some hread
    obtain ⟨hlater, _, hfreeWrite⟩ := freeFdFrom_some hwrite
    have hne : readFd ≠ writeFd := by
      rintro rfl
      omega
    have hfirst := @openPipeEnd_changed
      (io.setPipe i { used := true, data := [], readOffset := 0 }) readFd 0 flags
      ⟨true, true, false, i⟩
    have hself := @openPipeEnd_self
      (io.setPipe i { used := true, data := [], readOffset := 0 }) readFd 0 flags
      ⟨true, true, false, i⟩
    have hsecond := @openPipeEnd_changed
      ((io.setPipe i { used := true, data := [], readOffset := 0 }).openPipeEnd readFd 0
        flags ⟨true, true, false, i⟩) writeFd oWronly flags ⟨true, false, true, i⟩
    refine ⟨rfl, ?_, ⟨hfreeRead, hfreeWrite⟩, ?_, fun slot hslot hslot' => ⟨?_, ?_⟩⟩
    · have htest := firstSlot_some halloc
      simpa using htest
    · rw [hsecond.holds hne, Holds, hself.1, hself.2]
      exact ⟨rfl, rfl, rfl⟩
    · rw [hsecond.ends slot hslot', hfirst.ends slot hslot]
      rfl
    · rw [hsecond.opened slot hslot', hfirst.opened slot hslot]
      rfl
  · rename_i hnone
    refine .inl ⟨rfl, by simp [refuse], fun _ => ?_⟩
    cases hread : io.freeFdFrom 3 with
    | none => exact .inl (not_twoFree_of_none hread)
    | some readFd =>
      cases halloc : io.allocPipeSlot with
      | none => exact .inr (allocPipeSlot_none halloc)
      | some i => exact absurd halloc (hnone readFd i hread)

variable (runtime : LinuxRuntime)

theorem setFd_isOpen (slot other : LinuxFdSlot) (fd : LinuxFd)
    (h : fd.isOpen = (runtime.fds slot).isOpen) :
    ((runtime.setFd slot fd).fds other).isOpen = (runtime.fds other).isOpen := by
  simp only [LinuxRuntime.setFd]
  by_cases hother : other = slot
  · rw [hother, update_self, h]
  · rw [update_of_ne hother]

theorem writeOverlay_isOpen (slot other : LinuxFdSlot)
    (i : OverlaySlot) (buffer : List UInt8) (readable : ℕ) :
    ((runtime.writeOverlay slot i buffer readable).1.fds other).isOpen =
      (runtime.fds other).isOpen := by
  unfold writeOverlay
  dsimp only
  generalize (if has (runtime.fds slot).flags oAppend then (runtime.overlayNodes i).size
    else (runtime.fds slot).offset) = offset
  split
  · rfl
  split
  · exact setFd_isOpen runtime slot other _ rfl
  split
  · exact setFd_isOpen runtime slot other _ rfl
  refine (setFd_isOpen _ slot other _ ?_).trans (setFd_isOpen runtime slot other _ rfl)
  simp only [LinuxRuntime.setFd, update_self]

theorem write_isOpen (fd : ℤ) (other : LinuxFdSlot) (buffer : List UInt8) (readable : ℕ) :
    ((runtime.write fd buffer readable).1.fds other).isOpen = (runtime.fds other).isOpen := by
  unfold LinuxRuntime.write
  dsimp only
  split
  · split
    · rfl
    split
    · split
      · rfl
      · split <;> rfl
    split
    · rfl
    · rfl
    split
    · rfl
    · exact writeOverlay_isOpen runtime _ other _ buffer readable
  · split
    · rfl
    · split <;> rfl

theorem lift_write_same (fd : ℤ) (buffer : List UInt8) (readable : ℕ) :
    SamePipes io (io.lift (io.runtime.write fd buffer readable)).1 :=
  ⟨rfl, rfl, fun slot => write_isOpen io.runtime fd slot buffer readable⟩

theorem readStdin_same (dest : UserDest) (length : ℕ) :
    SamePipes io (io.readStdin dest length).1 := by
  unfold readStdin
  split
  · exact refl
  split
  · exact refl
  split <;> dsimp only <;> split
  · exact refl
  · split <;> exact ⟨rfl, rfl, fun _ => rfl⟩
  · exact refl
  · split <;> exact ⟨rfl, rfl, fun _ => rfl⟩

theorem getrandom_same (dest : UserDest) (length : ℕ) (message : String) :
    SamePipes io (io.getrandom dest length message).1 := by
  unfold getrandom
  dsimp only
  split
  · exact refl
  · split <;> exact ⟨rfl, rfl, fun _ => rfl⟩

theorem readFile_same (node : LinuxNodeRef) (dest : UserDest)
    (length : ℕ) : SamePipes io (io.readFile slot node dest length).1 := by
  unfold readFile
  dsimp only
  split
  · exact refl
  split
  · exact refl
  split
  · exact refl
  split
  · exact refl
  split
  · exact refl
  · exact ⟨rfl, rfl, fun other => setFd_isOpen io.runtime slot other _ rfl⟩

theorem read_cases (fd : ℤ) (dest : UserDest) (length : ℕ) :
    (io.pipeOf fd = none ∧ SamePipes io (io.read fd dest length).1) ∨
    ∃ slot, fdSlot fd = some slot ∧ io.fdIsValidPipe slot ∧
      io.read fd dest length = io.pipeRead slot dest length := by
  unfold read pipeOf
  by_cases hzero : fd = 0
  · rw [if_pos hzero, hzero]
    exact .inl ⟨rfl, readStdin_same dest length⟩
  rw [if_neg hzero]
  cases hslot : fdSlot fd with
  | none => exact .inl ⟨rfl, refl⟩
  | some slot =>
    dsimp only
    by_cases hvalid : io.fdIsValidPipe slot
    · rw [if_pos hvalid, if_pos hvalid]
      exact .inr ⟨slot, rfl, hvalid, rfl⟩
    rw [if_neg hvalid, if_neg hvalid]
    refine .inl ⟨rfl, ?_⟩
    split
    · split <;> exact refl
    split
    · split
      · exact refl
      · exact getrandom_same dest length _
    · split
      · exact refl
      · exact readFile_same slot _ dest length

theorem write_cases (fd : ℤ) (source : UserSource) :
    ((source.null ∧ source.bytes ≠ []) ∧ (io.write fd source).1 = io ∧
      (io.write fd source).2.reply.value = -14) ∨
    (io.pipeOf fd = none ∧ SamePipes io (io.write fd source).1) ∨
    ((source.null = false ∨ source.bytes = []) ∧ ∃ slot,
      fdSlot fd = some slot ∧ io.fdIsValidPipe slot ∧
      io.write fd source = io.pipeWrite slot source) := by
  unfold write pipeOf
  by_cases hnull : (source.null && source.bytes != []) = true
  · rw [if_pos hnull]
    rw [Bool.and_eq_true, bne_iff_ne] at hnull
    exact .inl ⟨hnull, rfl, rfl⟩
  rw [if_neg hnull]
  right
  cases hslot : fdSlot fd with
  | none => exact .inl ⟨rfl, lift_write_same fd source.bytes source.readable⟩
  | some slot =>
    dsimp only
    by_cases hvalid : io.fdIsValidPipe slot
    · rw [if_pos hvalid, if_pos hvalid]
      refine .inr ⟨?_, slot, rfl, hvalid, rfl⟩
      cases hsource : source.null with
      | false => exact .inl rfl
      | true => exact .inr (by simpa [hsource] using hnull)
    · rw [if_neg hvalid, if_neg hvalid]
      refine .inl ⟨rfl, ?_⟩
      split
      · exact refl
      · exact lift_write_same fd source.bytes source.readable

/-- One pipe has changed and is still in use. -/
structure PipeChanged (io io' : LinuxIo) (i : PipeSlot) (pipe : LinuxPipe) : Prop where
  pipes : io'.pipes = update io.pipes i pipe
  used : pipe.used = (io.pipes i).used
  ends : io'.ends = io.ends
  opened : ∀ slot, io'.isOpen slot = io.isOpen slot

theorem setPipe_changed (i : PipeSlot) (pipe : LinuxPipe) (hused : pipe.used = (io.pipes i).used) :
    PipeChanged io (io.setPipe i pipe) i pipe := ⟨rfl, hused, rfl, fun _ => rfl⟩

theorem pipeRead_cases (dest : UserDest) (length : ℕ)
    (hoffset : (io.pipes (io.ends slot).pipeIndex).readOffset ≤
      (io.pipes (io.ends slot).pipeIndex).data.length) :
    ((io.pipeRead slot dest length).1 = io ∧ (io.pipeRead slot dest length).2.bytes = []) ∨
    ∃ count pipe, PipeChanged io (io.pipeRead slot dest length).1 (io.ends slot).pipeIndex pipe ∧
      (io.pipeRead slot dest length).2.bytes =
        (io.pipes (io.ends slot).pipeIndex).unread.take count ∧
      pipe.unread = (io.pipes (io.ends slot).pipeIndex).unread.drop count ∧
      pipe.readOffset ≤ pipe.data.length ∧
      pipe.data.length ≤ (io.pipes (io.ends slot).pipeIndex).data.length := by
  unfold pipeRead
  dsimp only
  split
  · exact .inl ⟨rfl, rfl⟩
  split
  · exact .inl ⟨rfl, rfl⟩
  right
  generalize hpipe : io.pipes (io.ends slot).pipeIndex = pipe at hoffset ⊢
  set count := min length (pipe.data.length - pipe.readOffset) with hcount
  by_cases hdrained : pipe.readOffset + count = pipe.data.length
  · rw [if_pos hdrained]
    refine ⟨count, _, setPipe_changed _ _ (by rw [hpipe]), rfl, ?_, Nat.le_refl _, Nat.zero_le _⟩
    simp [LinuxPipe.unread, hdrained]
  rw [if_neg hdrained]
  refine ⟨count, _, setPipe_changed _ _ (by rw [hpipe]), rfl, ?_, ?_, Nat.le_refl _⟩
  · simp [LinuxPipe.unread]
  dsimp only
  omega

theorem pipeWrite_cases (source : UserSource) :
    ((io.pipeWrite slot source).1 = io ∧ (io.pipeWrite slot source).2.reply.value < 0 ∧
      ((io.pipeWrite slot source).2.reply.value = -28 → (io.ends slot).pipeWrite ∧
        maxPipeSize - (io.pipes (io.ends slot).pipeIndex).data.length < source.bytes.length)) ∨
    ((io.ends slot).pipeWrite ∧
      source.bytes.length ≤ maxPipeSize - (io.pipes (io.ends slot).pipeIndex).data.length ∧
      PipeChanged io (io.pipeWrite slot source).1 (io.ends slot).pipeIndex
        { io.pipes (io.ends slot).pipeIndex with
          data := (io.pipes (io.ends slot).pipeIndex).data ++ source.bytes.take
            (io.runtime.copiedLength source.bytes.length source.readable) } ∧
      (io.pipeWrite slot source).2.reply.value =
        if io.runtime.copiedLength source.bytes.length source.readable < source.bytes.length
        then (-14 : ℤ) else source.bytes.length) := by
  unfold pipeWrite
  dsimp only
  by_cases hvalid : (!io.fdIsValidPipe slot || !(io.ends slot).pipeWrite) = true
  · rw [if_pos hvalid]
    exact .inl ⟨rfl, by simp [refuse], fun h => absurd h (by simp [refuse])⟩
  rw [if_neg hvalid]
  have hwrite : (io.ends slot).pipeWrite := by
    cases hend : (io.ends slot).pipeWrite with
    | true => rfl
    | false => simp [hend] at hvalid
  split
  · exact .inl ⟨rfl, by simp [refuse], fun h =>
      absurd h (by simp [refuse])⟩
  split
  · rename_i hfull
    exact .inl ⟨rfl, by simp [refuse], fun _ => ⟨hwrite, hfull⟩⟩
  rename_i hroom
  right
  refine ⟨hwrite, not_lt.1 hroom, ?_, ?_⟩
  · split <;> exact setPipe_changed _ _ rfl
  · split <;> simp [refuse, ok]

end LinuxIo
end VisualCpu
