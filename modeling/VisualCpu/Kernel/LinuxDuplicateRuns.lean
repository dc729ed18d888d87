import VisualCpu.Kernel.LinuxDuplicates
import VisualCpu.Kernel.LinuxOpenCountRuns

/-!
# Two descriptors for one file

Runs over a descriptor and its copy, beside the run that makes every call through the first
one. They agree as long as each call through a file meets the offset where that run is.
-/

namespace VisualCpu

open Function LinuxCompat LinuxRuntime LinuxReply

namespace LinuxIo

open LinuxRuntime

variable {rootfs : List LinuxRootfsNode} {io : LinuxIo}

/-- Descriptors have moved in nothing but their offsets. -/
structure Moved (io io' : LinuxIo) : Prop where
  ends : io'.ends = io.ends
  still : ∀ slot, (io'.runtime.fds slot).still = (io.runtime.fds slot).still

open Moved

theorem Moved.refl : Moved io io := ⟨rfl, fun _ => rfl⟩

theorem setFd_still (runtime : LinuxRuntime) (slot other : LinuxFdSlot) {fd : LinuxFd}
    (h : fd.still = (runtime.fds slot).still) :
    ((runtime.setFd slot fd).fds other).still = (runtime.fds other).still := by
  simp only [setFd, update_apply]
  split
  · rename_i hother
    rw [hother, h]
  · rfl

variable (slot : LinuxFdSlot)

theorem setOffset_moved (offset : ℕ) : Moved io (io.setOffset slot offset) :=
  ⟨rfl, fun other => setFd_still io.runtime slot other rfl⟩

theorem pipeRead_moved (dest : UserDest) (length : ℕ) :
    Moved io (io.pipeRead slot dest length).1 := by
  unfold pipeRead
  dsimp only
  split
  · exact refl
  · split <;> exact ⟨rfl, fun _ => rfl⟩

theorem pipeWrite_moved (source : UserSource) : Moved io (io.pipeWrite slot source).1 := by
  unfold pipeWrite
  dsimp only
  split
  · exact refl
  split
  · exact refl
  split
  · exact refl
  · split <;> exact ⟨rfl, fun _ => rfl⟩

theorem readStdin_moved (dest : UserDest) (length : ℕ) : Moved io (io.readStdin dest length).1 := by
  unfold readStdin
  split
  · exact refl
  split
  · exact refl
  split <;> dsimp only <;> split
  · exact refl
  · split <;> exact ⟨rfl, fun _ => rfl⟩
  · exact refl
  · split <;> exact ⟨rfl, fun _ => rfl⟩

theorem getrandom_moved (dest : UserDest) (length : ℕ) (message : String) :
    Moved io (io.getrandom dest length message).1 := by
  unfold getrandom
  dsimp only
  split
  · exact refl
  · split <;> exact ⟨rfl, fun _ => rfl⟩

theorem readFile_moved (node : LinuxNodeRef) (dest : UserDest)
    (length : ℕ) : Moved io (io.readFile slot node dest length).1 := by
  unfold readFile
  dsimp only
  split
  · exact refl
  split
  · exact refl
  split
  · exact refl
  split
  · exact refl
  split
  · exact refl
  · exact setOffset_moved slot _

variable (fd : ℤ)

theorem read_moved (dest : UserDest) (length : ℕ) : Moved io (io.read fd dest length).1 := by
  unfold read
  split
  · exact readStdin_moved dest length
  split
  · exact refl
  dsimp only
  split
  · exact pipeRead_moved _ dest length
  split
  · split <;> exact refl
  split
  · split
    · exact refl
    · exact getrandom_moved dest length _
  · split
    · exact refl
    · exact readFile_moved _ _ dest length

theorem writeOverlay_moved (i : OverlaySlot) (buffer : List UInt8)
    (readable : ℕ) : Moved io (io.lift (io.runtime.writeOverlay slot i buffer readable)).1 := by
  refine ⟨rfl, fun other => ?_⟩
  unfold writeOverlay
  dsimp only
  generalize (if has (io.runtime.fds slot).flags oAppend then (io.runtime.overlayNodes i).size
    else (io.runtime.fds slot).offset) = offset
  split
  · rfl
  split
  · exact setFd_still io.runtime slot other rfl
  split
  · exact setFd_still io.runtime slot other rfl
  refine (setFd_still _ slot other ?_).trans (setFd_still io.runtime slot other rfl)
  simp only [setFd, update_self]
  rfl

theorem write_moved (source : UserSource) : Moved io (io.write fd source).1 := by
  have hruntime : Moved io (io.lift (io.runtime.write fd source.bytes source.readable)).1 := by
    unfold LinuxRuntime.write
    dsimp only
    split
    · split
      · exact refl
      split
      · split
        · exact refl
        · split <;> exact refl
      split
      · exact refl
      · exact refl
      split
      · exact refl
      · exact writeOverlay_moved _ _ _ _
    · split
      · exact refl
      · split <;> exact ⟨rfl, fun _ => rfl⟩
  unfold write
  split
  · exact refl
  split
  · exact hruntime
  split
  · exact pipeWrite_moved _ source
  split
  · exact refl
  · exact hruntime

theorem lseek_moved (fd offset : ℤ) (whence : ℕ) : Moved io (io.lseek fd offset whence).1 := by
  unfold lseek
  split
  · exact refl
  split
  · exact refl
  dsimp only
  split
  · exact refl
  split
  · exact refl
  generalize (if whence = 0 then 0 else if whence = 1 then _ else _ : ℕ) = base
  split
  · exact refl
  · exact setOffset_moved _ _

theorem ftruncate_moved (length : ℕ) : Moved io (io.ftruncate fd length).1 := by
  unfold ftruncate
  split
  · exact refl
  dsimp only
  split
  · exact refl
  split
  · exact refl
  · exact ⟨rfl, fun other => setFd_still io.runtime _ other rfl⟩

theorem getdents64_moved (dest : UserDest) (size : ℕ) :
    Moved io (io.getdents64 rootfs fd dest size).1 := by
  unfold getdents64
  split
  · exact refl
  split
  · exact refl
  dsimp only
  split
  · exact refl
  split
  · exact refl
  split
  · exact refl
  · exact setOffset_moved _ _

theorem perform_moved (call : FileCall) : Moved io (io.perform rootfs fd call).1 := by
  cases call with
  | read dest length => exact read_moved fd dest length
  | write source => exact write_moved fd source
  | lseek offset whence => exact lseek_moved fd offset whence
  | getdents64 dest size => exact getdents64_moved fd dest size
  | ftruncate length => exact ftruncate_moved fd length

/-- One slot is a copy of another, up to the offset. -/
structure Twin (io : LinuxIo) (d e : LinuxFdSlot) : Prop where
  still : (io.runtime.fds e).still = (io.runtime.fds d).still
  ends : io.ends e = io.ends d

variable {d e : LinuxFdSlot} {dFd eFd : ℤ}

theorem Twin.moved {io' : LinuxIo} (h : Twin io d e) (hmoved : Moved io io') : Twin io' d e := by
  refine ⟨?_, ?_⟩
  · rw [hmoved.still, hmoved.still, h.still]
  · rw [hmoved.ends, h.ends]

/-- A slot that points to no file, device or pipe. -/
structure BlankSlot (io : LinuxIo) (slot : LinuxFdSlot) : Prop where
  node : (io.runtime.fds slot).node = none
  devNull : (io.runtime.fds slot).devNull = false
  devRandom : (io.runtime.fds slot).devRandom = false
  pipe : (io.ends slot).pipeNode = false

def ByNumber : FileCall → Prop
  | .read _ _ => fd = 0
  | .write source => (fd = 1 ∨ fd = 2) ∧ (source.null = false ∨ source.bytes = [])
  | _ => False

/-- The descriptor of a call on one of two. -/
def pick (dFd eFd : ℤ) (copy : Bool) : ℤ := if copy then eFd else dFd

/-- A call through one of two descriptors that share a file meets the offset at which the calls
before left the file, if it uses one; through the copy of a standard descriptor it is none that
the number decides. Beside the state stands that of the run through the first descriptor. -/
def Fits (m d : LinuxIo) (dFd eFd : ℤ) (copy : Bool) (call : FileCall) : Prop :=
  (∀ first slot, fdSlot dFd = some first → fdSlot (pick dFd eFd copy) = some slot →
    d.UsesOffset first call → (m.runtime.fds slot).offset = (d.runtime.fds first).offset) ∧
  (∀ slot, fdSlot dFd = none → copy → fdSlot eFd = some slot →
    m.BlankSlot slot ∧ ¬ByNumber dFd call)

def performAll (rootfs : List LinuxRootfsNode) : LinuxIo → List (ℤ × FileCall) →
    LinuxIo × List FileAnswer
  | io, [] => (io, [])
  | io, (fd, call) :: calls =>
    let first := io.perform rootfs fd call
    let rest := performAll rootfs first.1 calls
    (rest.1, first.2 :: rest.2)

/-- Calls through the copy where they say so. -/
def mixed (dFd eFd : ℤ) (calls : List (Bool × FileCall)) : List (ℤ × FileCall) :=
  calls.map fun call => (pick dFd eFd call.1, call.2)

/-- The same calls, all through the first descriptor. -/
def single (dFd : ℤ) (calls : List (Bool × FileCall)) : List (ℤ × FileCall) :=
  calls.map fun call => (dFd, call.2)

def FitsRun (rootfs : List LinuxRootfsNode) (dFd eFd : ℤ) :
    LinuxIo → LinuxIo → List (Bool × FileCall) → Prop
  | _, _, [] => True
  | m, d, (copy, call) :: calls => Fits m d dFd eFd copy call ∧
      FitsRun rootfs dFd eFd (m.perform rootfs (pick dFd eFd copy) call).1
        (d.perform rootfs dFd call).1 calls

theorem twin_run (hd : fdSlot dFd = some d)
    (he : fdSlot eFd = some e) (calls : List (Bool × FileCall)) :
    ∀ m io : LinuxIo, Apart m io → Twin io d e → FitsRun rootfs dFd eFd m io calls →
      Agree (performAll rootfs m (mixed dFd eFd calls))
        (performAll rootfs io (single dFd calls)) := by
  induction calls with
  | nil => exact fun m io happart _ _ => ⟨rfl, happart⟩
  | cons first calls ih =>
    obtain ⟨copy, call⟩ := first
    intro m io happart htwin hfits
    obtain ⟨fds, rfl, hfds⟩ := happart
    have hstep : Agree ((io.withFds fds).perform rootfs (pick dFd eFd copy) call)
        (io.perform rootfs dFd call) := by
      cases copy with
      | true =>
        exact perform_agree rootfs ⟨(hfds e).trans htwin.still, htwin.ends, hfds⟩ he hd call
          (hfits.1.1 d e hd he)
      | false => exact perform_agree rootfs ⟨hfds d, rfl, hfds⟩ hd hd call (hfits.1.1 d d hd hd)
    have hrest := ih _ _ hstep.2 (htwin.moved (perform_moved dFd call)) hfits.2
    exact ⟨congrArg₂ List.cons hstep.1 hrest.1, hrest.2⟩

section Standard

variable {fds : LinuxFdSlot → LinuxFd}
  (hfds : ∀ slot, (fds slot).still = (io.runtime.fds slot).still)

include hfds

theorem refuse_agree {α : Type} (answer : α) : Agree (io.withFds fds, answer) (io, answer) :=
  ⟨rfl, fds, rfl, hfds⟩

theorem readStdin_agree (dest : UserDest) (length : ℕ) :
    Agree ((io.withFds fds).readStdin dest length) (io.readStdin dest length) := by
  refine agree_ite Iff.rfl (fun _ => refuse_agree hfds _) fun _ =>
    agree_ite Iff.rfl (fun _ => refuse_agree hfds _) fun _ => ?_
  rw [show (io.withFds fds).stdinText = io.stdinText from rfl]
  cases io.stdinText with
  | some text =>
    exact agree_ite Iff.rfl (fun _ => refuse_agree hfds _) fun _ =>
      agree_ite Iff.rfl (fun _ => refuse_agree hfds _) fun _ => ⟨rfl, fds, rfl, hfds⟩
  | none =>
    exact agree_ite Iff.rfl (fun _ => refuse_agree hfds _) fun _ =>
      agree_ite Iff.rfl (fun _ => ⟨rfl, fds, rfl, hfds⟩) fun _ => ⟨rfl, fds, rfl, hfds⟩

theorem standardWrite_agree {fd : ℤ} (hfd : fdSlot fd = none) (source : UserSource) :
    Agree ((io.withFds fds).write fd source) (io.write fd source) := by
  refine agree_ite Iff.rfl (fun _ => refuse_agree hfds _) fun _ => ?_
  rw [hfd]
  unfold LinuxRuntime.write
  rw [hfd]
  exact agree_lift_ite Iff.rfl (fun _ => refuse_agree hfds _) fun _ =>
    agree_lift_ite Iff.rfl (fun _ => refuse_agree hfds _) fun _ =>
      agree_lift_ite Iff.rfl (fun _ => ⟨rfl, fds, rfl, hfds⟩) fun _ => ⟨rfl, fds, rfl, hfds⟩

theorem standard_agree {fd : ℤ} (hfd : fdSlot fd = none) (call : FileCall) :
    Agree ((io.withFds fds).perform rootfs fd call) (io.perform rootfs fd call) := by
  cases call with
  | read dest length =>
    have hread : Agree ((io.withFds fds).read fd dest length) (io.read fd dest length) := by
      unfold read
      rw [hfd]
      exact agree_ite Iff.rfl (fun _ => readStdin_agree hfds dest length) fun _ =>
        refuse_agree hfds _
    exact hread.answer (FileAnswer.mk · [])
  | write source => exact (standardWrite_agree hfds hfd source).answer (FileAnswer.mk · [])
  | lseek offset whence =>
    simp only [perform, lseek, hfd]
    exact refuse_agree hfds _
  | getdents64 dest size =>
    simp only [perform, getdents64, hfd]
    exact refuse_agree hfds _
  | ftruncate length =>
    simp only [perform, ftruncate, hfd, Option.bind_none]
    exact refuse_agree hfds _

/-- The copy of a standard descriptor refuses what the standard descriptor refuses. -/
theorem blank_agree {d eFd : ℤ} {e : LinuxFdSlot} (hd : fdSlot d = none) (he : fdSlot eFd = some e)
    (hblank : (io.withFds fds).BlankSlot e) (call : FileCall) (hcall : ¬ByNumber d call) :
    Agree ((io.withFds fds).perform rootfs eFd call) (io.perform rootfs d call) := by
  have hvalid : (io.withFds fds).validFile e = none := by
    unfold validFile
    rw [hblank.node, ite_self]
  have hpipe : (io.withFds fds).fdIsValidPipe e = false := by
    simp only [fdIsValidPipe, hblank.pipe, Bool.and_false, Bool.false_and]
  cases call with
  | read dest length =>
    have hread : Agree ((io.withFds fds).read eFd dest length) (io.read d dest length) := by
      have hne : d ≠ 0 := hcall
      have hrange := fdSlot_range he
      unfold read
      rw [if_neg (show ¬eFd = 0 by omega), if_neg hne, he, hd]
      simp only [hpipe, hblank.devNull, hblank.devRandom, Bool.and_false, Bool.false_eq_true,
        if_false, hblank.node, ite_self]
      exact refuse_agree hfds _
    exact hread.answer (FileAnswer.mk · [])
  | write source =>
    have hwrite : Agree ((io.withFds fds).write eFd source) (io.write d source) := by
      refine agree_ite Iff.rfl (fun _ => refuse_agree hfds _) fun hsource => ?_
      have hbuffer : source.null = false ∨ source.bytes = [] := by
        rcases Bool.eq_false_or_eq_true source.null with hnull | hnull
        · exact .inr (by simpa [hnull] using hsource)
        · exact .inl hnull
      have hnumber : d ≠ 1 ∧ d ≠ 2 := by
        refine ⟨fun h => hcall ⟨.inl h, hbuffer⟩, fun h => hcall ⟨.inr h, hbuffer⟩⟩
      rw [he, hd]
      simp only [hpipe, hblank.pipe, Bool.false_and, Bool.false_eq_true, if_false]
      have hleft : (io.withFds fds).runtime.write eFd source.bytes source.readable =
          ((io.withFds fds).runtime, .refuse [] 9 "linux-compat: write: bad fd") := by
        unfold LinuxRuntime.write
        rw [if_pos (fdSlot_range he), he]
        simp only [hblank.devNull, Bool.and_false, Bool.false_eq_true, if_false, hblank.node,
          ite_self]
      have hright : io.runtime.write d source.bytes source.readable =
          (io.runtime, .refuse [] 9 "linux-compat: write: bad fd") := by
        unfold LinuxRuntime.write
        rw [hd]
        split
        · rfl
        · rfl
      rw [hleft, hright]
      exact refuse_agree hfds _
    exact hwrite.answer (FileAnswer.mk · [])
  | lseek offset whence =>
    simp only [perform, lseek, hd, he, hvalid]
    exact refuse_agree hfds _
  | getdents64 dest size =>
    simp only [perform, getdents64, hd, he, hvalid]
    exact refuse_agree hfds _
  | ftruncate length =>
    simp only [perform, ftruncate, hd, he, writableNode, hvalid, Option.bind_some, Option.map_none,
      Option.bind_none]
    exact refuse_agree hfds _

end Standard

theorem standard_run {e : LinuxFdSlot} (hd : fdSlot dFd = none)
    (he : fdSlot eFd = some e) (calls : List (Bool × FileCall)) :
    ∀ m io : LinuxIo, Apart m io → FitsRun rootfs dFd eFd m io calls →
      Agree (performAll rootfs m (mixed dFd eFd calls))
        (performAll rootfs io (single dFd calls)) := by
  induction calls with
  | nil => exact fun m io happart _ => ⟨rfl, happart⟩
  | cons first calls ih =>
    obtain ⟨copy, call⟩ := first
    intro m io happart hfits
    obtain ⟨fds, rfl, hfds⟩ := happart
    have hstep : Agree ((io.withFds fds).perform rootfs (pick dFd eFd copy) call)
        (io.perform rootfs dFd call) := by
      cases copy with
      | true =>
        obtain ⟨hblank, hnumber⟩ := hfits.1.2 e hd rfl he
        exact blank_agree hfds hd he hblank call hnumber
      | false => exact standard_agree hfds hd call
    have hrest := ih _ _ hstep.2 hfits.2
    exact ⟨congrArg₂ List.cons hstep.1 hrest.1, hrest.2⟩

/-- The two calls that duplicate a descriptor. -/
inductive DupCall where
  | dup3 (newFd : ℤ) (flags : BitVec 32)
  | dupFd (arg : ℕ)

def duplicate (io : LinuxIo) (fd : ℤ) : DupCall → LinuxIo × LinuxResult
  | .dup3 newFd flags => io.dup3 fd newFd flags
  | .dupFd arg => io.dupFd fd arg

theorem closeFdSlot_fds {slot other : LinuxFdSlot} (h : other ≠ slot) :
    (io.closeFdSlot slot).runtime.fds other = io.runtime.fds other := by
  unfold closeFdSlot
  split
  · rfl
  simp only [putFd, setFd, update_of_ne h]
  split <;> rfl

theorem retainFd_fds : (io.retainFd slot).runtime.fds = io.runtime.fds := by
  unfold retainFd
  split <;> rfl

theorem fdSlot_coe {slot : LinuxFdSlot} (h : 3 ≤ slot.val) : fdSlot (slot.val : ℤ) = some slot := by
  unfold fdSlot
  rw [dif_pos ⟨by omega, by omega⟩]
  simp

theorem putFd_twin {fdFlags : BitVec 32} (hne : d ≠ e) (hopen : (io.runtime.fds d).isOpen) :
    Twin (io.putFd e { io.runtime.fds d with isOpen := true, fdFlags := fdFlags } (io.ends d)) d
      e := by
  refine ⟨?_, ?_⟩
  · rw [putFd_fds, update_self, update_of_ne hne]
    simp only [LinuxFd.still, hopen]
  · rw [putFd_ends, update_self, update_of_ne hne]

theorem duplicate_twin {fd : ℤ} {how : DupCall}
    (haccepted : 0 ≤ (io.duplicate fd how).2.reply.value) :
    ∃ e, fdSlot (io.duplicate fd how).2.reply.value = some e ∧
      ∀ d, fdSlot fd = some d → d ≠ e ∧ Twin (io.duplicate fd how).1 d e := by
  cases how with
  | dup3 newFd flags =>
    simp only [duplicate] at haccepted ⊢
    unfold dup3 at haccepted ⊢
    split at haccepted
    · rename_i old new hold hnew
      split at haccepted
      · simp [refuse] at haccepted
      rename_i hargs
      rw [if_neg hargs]
      refine ⟨new, hnew, fun d hd => ?_⟩
      obtain ⟨hval, hopen⟩ := fdValid_val hold
      have hsame : d = old := Fin.ext (by have := fdSlot_val hd; omega)
      have hne : old ≠ new := by
        rintro rfl
        exact hargs (.inl (hval.symm.trans (fdSlot_val hnew)))
      subst hsame
      have hclosed : (io.closeFdSlot new).runtime.fds d = io.runtime.fds d := closeFdSlot_fds hne
      have htwin := @putFd_twin (io.closeFdSlot new) d new
        (if has flags oCloexec then fdCloexec else 0) hne
        (by rw [hclosed]; exact hopen (fdSlot_range hd))
      exact ⟨hne, by rw [retainFd_fds]; exact htwin.still,
        by rw [(retainFd_same new).ends]; exact htwin.ends⟩
    · simp [refuse] at haccepted
  | dupFd arg =>
    simp only [duplicate] at haccepted ⊢
    unfold dupFd at haccepted ⊢
    split at haccepted
    · simp [refuse] at haccepted
    rename_i old hold
    split at haccepted
    · simp [refuse] at haccepted
    rename_i harg
    rw [if_neg harg]
    split at haccepted
    · simp [refuse] at haccepted
    rename_i new hnew
    obtain ⟨_, hlow, hfree⟩ := freeFdFrom_some hnew
    refine ⟨new, fdSlot_coe hlow, fun d hd => ?_⟩
    obtain ⟨hval, hopen⟩ := fdValid_val hold
    have hsame : d = old := Fin.ext (by have := fdSlot_val hd; omega)
    subst hsame
    have hopen := hopen (fdSlot_range hd)
    have hne : d ≠ new := by
      rintro rfl
      rw [hopen] at hfree
      cases hfree
    exact ⟨hne, @putFd_twin io d new (io.runtime.fds d).fdFlags hne hopen⟩

/-- Closing a descriptor does not free its node: the node has a link or another reference. -/
def CloseKeeps (m : LinuxIo) (fd : ℤ) : Prop :=
  ∀ slot i, fdSlot fd = some slot → (m.runtime.fds slot).target = some i →
    (m.runtime.overlayNodes i).nlink ≠ 0 ∨ 2 ≤ (m.runtime.overlayNodes i).openCount.toNat

instance (m : LinuxIo) (fd : ℤ) : Decidable (m.CloseKeeps fd) :=
  inferInstanceAs (Decidable (∀ _ _, _ → _ → _))

/-- Closing one descriptor leaves another one as it is, with the pipes and all nodes but their
open counts. -/
structure SurvivesClose (m : LinuxIo) (closed other : ℤ) : Prop where
  slot : ∀ slot, fdSlot other = some slot →
    (m.close closed).1.runtime.fds slot = m.runtime.fds slot ∧
      (m.close closed).1.ends slot = m.ends slot
  pipes : (m.close closed).1.pipes = m.pipes
  nodes : ∀ i, { (m.close closed).1.runtime.overlayNodes i with openCount := 0 } =
    { m.runtime.overlayNodes i with openCount := 0 }

theorem release_keeps {runtime : LinuxRuntime} {i : OverlaySlot}
    (h : (runtime.overlayNodes i).nlink ≠ 0 ∨ 2 ≤ (runtime.overlayNodes i).openCount.toNat)
    (j : OverlaySlot) : { (runtime.overlayReleaseOpen i).overlayNodes j with openCount := 0 } =
      { runtime.overlayNodes j with openCount := 0 } := by
  by_cases hj : j = i
  · subst hj
    have hused : ¬((if (runtime.overlayNodes j).openCount ≠ 0
        then (runtime.overlayNodes j).openCount - 1
        else (runtime.overlayNodes j).openCount) = 0 ∧ (runtime.overlayNodes j).nlink = 0) := by
      rintro ⟨hzero, hlink⟩
      rcases h with hnlink | hcount
      · exact hnlink hlink
      · split at hzero <;> bv_omega
    simp only [overlayReleaseOpen, setNode, update_self, if_neg hused]
  · simp only [overlayReleaseOpen, setNode, update_of_ne hj]

theorem close_survives {m : LinuxIo} {closed other : ℤ} (hne : closed ≠ other)
    (hkeeps : CloseKeeps m closed) : SurvivesClose m closed other := by
  have hcase : (m.close closed).1 = m ∨ ∃ slot, fdSlot closed = some slot ∧
      m.isOpen slot ∧ (m.close closed).1 = m.closeFdSlot slot := by
    unfold close
    split
    · exact .inl rfl
    rename_i slot hslot
    split
    · exact .inl rfl
    rename_i hopen
    exact .inr ⟨slot, hslot, by simpa using hopen, rfl⟩
  rcases hcase with hsame | ⟨slot, hslot, hopen, hclosed⟩
  · exact ⟨fun _ _ => by rw [hsame]; exact ⟨rfl, rfl⟩, by rw [hsame], fun _ => by rw [hsame]⟩
  have hchanged := @closeFdSlot_changed m slot
  refine ⟨fun s hs => ?_, ?_, fun i => ?_⟩
  · have hother : s ≠ slot := by
      rintro rfl
      exact hne ((fdSlot_val hslot).symm.trans (fdSlot_val hs))
    rw [hclosed]
    exact ⟨closeFdSlot_fds hother, hchanged.ends s hother⟩
  · rw [hclosed, hchanged.pipes]
  · rw [hclosed]
    unfold closeFdSlot
    rw [if_neg (by rw [hopen]; decide)]
    cases hnode : (m.runtime.fds slot).node with
    | none => rfl
    | some node =>
      cases node with
      | lower node => rfl
      | overlay j =>
        refine release_keeps (hkeeps slot j hslot ?_) i
        have hopen' : (m.runtime.fds slot).isOpen := hopen
        simp only [LinuxFd.target, hopen', hnode]

end LinuxIo

open LinuxIo LinuxRuntime

/-- Two descriptors are one open file: the calls through both answer like the calls through the
first one and leave the same files and pipes, and each of them survives the other. -/
structure OneDescription (rootfs : List LinuxRootfsNode) (io : LinuxIo) (dFd eFd : ℤ)
    (calls : List (Bool × FileCall)) : Prop where
  answers : (performAll rootfs io (mixed dFd eFd calls)).2 =
    (performAll rootfs io (single dFd calls)).2
  files : (performAll rootfs io (mixed dFd eFd calls)).1.runtime.overlayNodes =
    (performAll rootfs io (single dFd calls)).1.runtime.overlayNodes
  pipes : (performAll rootfs io (mixed dFd eFd calls)).1.pipes =
    (performAll rootfs io (single dFd calls)).1.pipes
  stdout : (performAll rootfs io (mixed dFd eFd calls)).1.runtime.stdout =
    (performAll rootfs io (single dFd calls)).1.runtime.stdout
  closeFirst : SurvivesClose (performAll rootfs io (mixed dFd eFd calls)).1 dFd eFd
  closeCopy : SurvivesClose (performAll rootfs io (mixed dFd eFd calls)).1 eFd dFd

/-- In a run whose calls fit, and in which a close frees no node, an accepted duplicate and its
descriptor are one open file. -/
theorem duplicate_oneDescription (rootfs : List LinuxRootfsNode) (io : LinuxIo) (fd : ℤ)
    (how : DupCall) (calls : List (Bool × FileCall))
    (haccepted : 0 ≤ (io.duplicate fd how).2.reply.value)
    (hfits : FitsRun rootfs fd (io.duplicate fd how).2.reply.value (io.duplicate fd how).1
      (io.duplicate fd how).1 calls)
    (hcloseFirst : CloseKeeps (performAll rootfs (io.duplicate fd how).1
      (mixed fd (io.duplicate fd how).2.reply.value calls)).1 fd)
    (hcloseCopy : CloseKeeps (performAll rootfs (io.duplicate fd how).1
      (mixed fd (io.duplicate fd how).2.reply.value calls)).1
        (io.duplicate fd how).2.reply.value) :
    OneDescription rootfs (io.duplicate fd how).1 fd (io.duplicate fd how).2.reply.value
      calls := by
  obtain ⟨e, he, htwin⟩ := duplicate_twin haccepted
  have happart : Apart (io.duplicate fd how).1 (io.duplicate fd how).1 := ⟨_, rfl, fun _ => rfl⟩
  have hne : fd ≠ (io.duplicate fd how).2.reply.value := by
    intro heq
    rw [← heq] at he
    exact (htwin e he).1 rfl
  have hagree : Agree (performAll rootfs (io.duplicate fd how).1
      (mixed fd (io.duplicate fd how).2.reply.value calls))
      (performAll rootfs (io.duplicate fd how).1 (single fd calls)) := by
    cases hd : fdSlot fd with
    | none => exact standard_run hd he calls _ _ happart hfits
    | some d => exact twin_run hd he calls _ _ happart (htwin d hd).2 hfits
  obtain ⟨hanswers, fds, hstate, _⟩ := hagree
  refine ⟨hanswers, ?_, ?_, ?_, close_survives hne hcloseFirst, close_survives hne.symm hcloseCopy⟩
  · rw [hstate]
    rfl
  · rw [hstate]
    rfl
  · rw [hstate]
    rfl

/-- The file `/x` is created and open as 3. -/
def withX : LinuxIo := createX.perform emptyRoot (LinuxIo.init false none [])

/-- Two bytes are written through one descriptor; the other goes to the start and reads them. -/
def writeSeekRead : List (Bool × FileCall) :=
  [(false, .write ⟨false, [1, 2], 2⟩), (true, .lseek 0 0), (true, .read ⟨false, 2⟩ 2)]

theorem writeSeekRead_oneDescription : OneDescription emptyRoot
    (withX.duplicate 3 (.dup3 5 0)).1 3 (withX.duplicate 3 (.dup3 5 0)).2.reply.value
      writeSeekRead := by
  have hslot : fdSlot 3 ≠ none := by decide
  refine duplicate_oneDescription emptyRoot withX 3 (.dup3 5 0) writeSeekRead (by decide +kernel)
    ⟨⟨fun first slot hfirst hpicked huses => ?_, fun _ hnone => absurd hnone hslot⟩,
      ⟨fun _ _ _ _ huses => absurd huses.1 (by decide), fun _ hnone => absurd hnone hslot⟩,
      ⟨fun first slot hfirst hpicked huses => ?_, fun _ hnone => absurd hnone hslot⟩, trivial⟩
    (by decide +kernel) (by decide +kernel)
  · clear huses
    revert first slot
    decide +kernel
  · clear huses
    revert first slot
    decide +kernel

/-- The copy of a file writes at its own offset; the copy of the standard output is no output. -/
theorem duplicate_writesApart : (0 ≤ (withX.duplicate 3 (.dupFd 3)).2.reply.value ∧
      ¬OneDescription emptyRoot (withX.duplicate 3 (.dupFd 3)).1 3
        (withX.duplicate 3 (.dupFd 3)).2.reply.value
        [(false, .write ⟨false, [1, 2], 2⟩), (true, .write ⟨false, [3], 1⟩)]) ∧
    (0 ≤ (withX.duplicate 1 (.dup3 5 0)).2.reply.value ∧
      ¬OneDescription emptyRoot (withX.duplicate 1 (.dup3 5 0)).1 1
        (withX.duplicate 1 (.dup3 5 0)).2.reply.value [(true, .write ⟨false, [1], 1⟩)]) := by
  refine ⟨⟨by decide +kernel, fun h => ?_⟩, by decide +kernel, fun h => ?_⟩
  · have hsize := congrArg (fun nodes => (nodes 0).size) h.files
    revert hsize
    decide +kernel
  · have hvalue := congrArg (List.map fun answer => answer.result.reply.value) h.answers
    revert hvalue
    decide +kernel

end VisualCpu
