import VisualCpu.Kernel.LinuxFileCalls

/-!
# Two slots for one file

A duplicated descriptor is a second slot with the contents of the first one. The calls through
the two slots agree as long as they meet the same offset or do not use it; a standard
descriptor is known by its number, and a copy of it is nothing.
-/

namespace VisualCpu

open LinuxCompat LinuxRuntime

/-- The calls of the claim on one descriptor. -/
inductive FileCall where
  | read (dest : UserDest) (length : ℕ)
  | write (source : UserSource)
  | lseek (offset : ℤ) (whence : ℕ)
  | getdents64 (dest : UserDest) (size : ℕ)
  | ftruncate (length : ℕ)

/-- What a call gives back. -/
structure FileAnswer where
  result : LinuxResult
  entries : List LinuxDirent := []

/-- The part of a descriptor that calls do not move. -/
def LinuxFd.still (fd : LinuxFd) : LinuxFd := { fd with offset := 0, fdFlags := 0 }

namespace LinuxIo

open LinuxRuntime

variable (rootfs : List LinuxRootfsNode) (io : LinuxIo)

def perform (fd : ℤ) : FileCall → LinuxIo × FileAnswer
  | .read dest length => ((io.read fd dest length).1, ⟨(io.read fd dest length).2, []⟩)
  | .write source => ((io.write fd source).1, ⟨(io.write fd source).2, []⟩)
  | .lseek offset whence => ((io.lseek fd offset whence).1, ⟨(io.lseek fd offset whence).2, []⟩)
  | .getdents64 dest size =>
    ((io.getdents64 rootfs fd dest size).1,
      ⟨(io.getdents64 rootfs fd dest size).2.1, (io.getdents64 rootfs fd dest size).2.2⟩)
  | .ftruncate length => ((io.ftruncate fd length).1, ⟨(io.ftruncate fd length).2, []⟩)

/-- The same runtime with other descriptors. -/
def withFds (fds : LinuxFdSlot → LinuxFd) : LinuxIo :=
  { io with runtime := { io.runtime with fds := fds } }

/-- A slot of another table is a copy of a slot of this one, up to its offset, and the tables
agree up to the offsets. -/
structure Mirrors (fds : LinuxFdSlot → LinuxFd) (x d : LinuxFdSlot) : Prop where
  same : (fds x).still = (io.runtime.fds d).still
  ends : io.ends x = io.ends d
  others : ∀ slot, (fds slot).still = (io.runtime.fds slot).still

/-- Two runtimes that differ at most in the offsets of their descriptors. -/
def Apart (m d : LinuxIo) : Prop :=
  ∃ fds, m = d.withFds fds ∧ ∀ slot, (fds slot).still = (d.runtime.fds slot).still

/-- Two calls that answer alike and leave runtimes that differ at most in the offsets. -/
def Agree {α : Type} (m d : LinuxIo × α) : Prop := m.2 = d.2 ∧ Apart m.1 d.1

variable {io} {fds : LinuxFdSlot → LinuxFd} {x d : LinuxFdSlot} {p q : Prop}

namespace Mirrors

section

variable (h : Mirrors io fds x d)

include h

theorem opened : (fds x).isOpen = (io.runtime.fds d).isOpen := by
  simpa only [LinuxFd.still] using congrArg LinuxFd.isOpen h.same

theorem node : (fds x).node = (io.runtime.fds d).node := by
  simpa only [LinuxFd.still] using congrArg LinuxFd.node h.same

theorem flags : (fds x).flags = (io.runtime.fds d).flags := by
  simpa only [LinuxFd.still] using congrArg LinuxFd.flags h.same

theorem devNull : (fds x).devNull = (io.runtime.fds d).devNull := by
  simpa only [LinuxFd.still] using congrArg LinuxFd.devNull h.same

theorem devRandom : (fds x).devRandom = (io.runtime.fds d).devRandom := by
  simpa only [LinuxFd.still] using congrArg LinuxFd.devRandom h.same

theorem apart : Apart (io.withFds fds) io := ⟨fds, rfl, h.others⟩

theorem valid_pipe : (io.withFds fds).fdIsValidPipe x = io.fdIsValidPipe d := by
  simp only [fdIsValidPipe, isOpen, withFds, h.opened, h.ends]

theorem valid_end : ((io.withFds fds).isOpen x && !((io.withFds fds).ends x).pipeNode) =
      (io.isOpen d && !(io.ends d).pipeNode) := by
  simp only [isOpen, withFds, h.opened, h.ends]

theorem validFile : (io.withFds fds).validFile x = io.validFile d := by
  unfold LinuxIo.validFile
  rw [h.valid_end, show ((io.withFds fds).runtime.fds x).node = _ from h.node]

theorem fdPath :
    (io.withFds fds).runtime.fdPath (fds x) = io.runtime.fdPath (io.runtime.fds d) := by
  simp only [LinuxRuntime.fdPath, withFds, h.opened, h.node, h.devNull, h.devRandom]

theorem writableNode : (io.withFds fds).writableNode x = io.writableNode d := by
  unfold LinuxIo.writableNode
  rw [h.validFile, show ((io.withFds fds).runtime.fds x).flags = _ from h.flags]

end

end Mirrors

section

variable {m io : LinuxIo} (h : Apart m io)

include h

theorem Apart.setFd {x d : LinuxFdSlot} {fd fd' : LinuxFd}
    (hx : fd.still = (m.runtime.fds x).still) (hd : fd'.still = (io.runtime.fds d).still) :
    Apart { m with runtime := m.runtime.setFd x fd }
      { io with runtime := io.runtime.setFd d fd' } := by
  obtain ⟨fds, rfl, hfds⟩ := h
  refine ⟨Function.update fds x fd, rfl, fun slot => ?_⟩
  have hleft : (Function.update fds x fd slot).still = (fds slot).still := by
    rw [Function.update_apply]
    split
    · rename_i hslot
      rw [hslot, hx]
      rfl
    · rfl
  have hright : ((io.runtime.setFd d fd').fds slot).still = (io.runtime.fds slot).still := by
    simp only [setFd, Function.update_apply]
    split
    · rename_i hslot
      rw [hslot, hd]
    · rfl
  rw [hleft, hfds slot]
  exact hright.symm

theorem Apart.setOffset (x d : LinuxFdSlot)
    (offset offset' : ℕ) : Apart (m.setOffset x offset) (io.setOffset d offset') :=
  h.setFd rfl rfl

theorem Apart.setNode (i : OverlaySlot) (node : LinuxOverlayNode) :
    Apart { m with runtime := m.runtime.setNode i node }
      { io with runtime := io.runtime.setNode i node } := by
  obtain ⟨fds, rfl, hfds⟩ := h
  exact ⟨fds, rfl, hfds⟩

theorem Apart.touchWith (i : OverlaySlot) (node : LinuxOverlayNode) :
    Apart { m with runtime := m.runtime.touchWith i node }
      { io with runtime := io.runtime.touchWith i node } := by
  obtain ⟨fds, rfl, hfds⟩ := h
  exact ⟨fds, rfl, hfds⟩

end

theorem agree_ite {α : Type} [Decidable p] [Decidable q] {m m' d d' : LinuxIo × α}
    (hpq : p ↔ q) (hthen : q → Agree m d) (helse : ¬q → Agree m' d') :
    Agree (if p then m else m') (if q then d else d') := by
  by_cases hq : q
  · rw [if_pos hq, if_pos (hpq.2 hq)]
    exact hthen hq
  rw [if_neg hq, if_neg fun hp => hq (hpq.1 hp)]
  exact helse hq

theorem agree_lift_ite {m d : LinuxIo} [Decidable p] [Decidable q]
    {a a' b b' : LinuxRuntime × LinuxReply} (hpq : p ↔ q)
    (hthen : q → Agree (m.lift a) (d.lift b)) (helse : ¬q → Agree (m.lift a') (d.lift b')) :
    Agree (m.lift (if p then a else a')) (d.lift (if q then b else b')) := by
  rw [apply_ite m.lift, apply_ite d.lift]
  exact agree_ite hpq hthen helse

section

variable (h : Mirrors io fds x d)

include h

theorem Mirrors.refuse {α : Type} (answer : α) :
    Agree (io.withFds fds, answer) (io, answer) := ⟨rfl, h.apart⟩

theorem pipeRead_agree (dest : UserDest) (length : ℕ) :
    Agree ((io.withFds fds).pipeRead x dest length) (io.pipeRead d dest length) := by
  unfold pipeRead
  rw [h.valid_pipe, show (io.withFds fds).ends x = io.ends d from h.ends]
  exact agree_ite Iff.rfl (fun _ => h.refuse _) fun _ =>
    agree_ite Iff.rfl (fun _ => h.refuse _) fun _ => ⟨rfl, fds, rfl, h.others⟩

theorem pipeWrite_agree (source : UserSource) :
    Agree ((io.withFds fds).pipeWrite x source) (io.pipeWrite d source) := by
  unfold pipeWrite
  rw [h.valid_pipe, show (io.withFds fds).ends x = io.ends d from h.ends]
  exact agree_ite Iff.rfl (fun _ => h.refuse _) fun _ =>
    agree_ite Iff.rfl (fun _ => h.refuse _) fun _ =>
      agree_ite Iff.rfl (fun _ => h.refuse _) fun _ =>
        agree_ite Iff.rfl (fun _ => ⟨rfl, fds, rfl, h.others⟩) fun _ =>
          ⟨rfl, fds, rfl, h.others⟩

theorem getrandom_agree (dest : UserDest) (length : ℕ) (message : String) :
    Agree ((io.withFds fds).getrandom dest length message) (io.getrandom dest length message) := by
  exact agree_ite Iff.rfl (fun _ => h.refuse _) fun _ =>
    agree_ite Iff.rfl (fun _ => ⟨rfl, fds, rfl, h.others⟩) fun _ => ⟨rfl, fds, rfl, h.others⟩

end

/-- Whether a read of a file comes to its bytes. -/
def ReadsAtOffset (io : LinuxIo) (slot : LinuxFdSlot) (node : LinuxNodeRef) (dest : UserDest)
    (length : ℕ) : Prop :=
  flagsReadable (io.runtime.fds slot).flags ∧ io.nodeIsDirectory node = false ∧
    (dest.null = false ∨ length = 0)

theorem readFile_agree (h : Mirrors io fds x d) (node : LinuxNodeRef) (dest : UserDest)
    (length : ℕ) (hoffset : io.ReadsAtOffset d node dest length →
      (fds x).offset = (io.runtime.fds d).offset) :
    Agree ((io.withFds fds).readFile x node dest length) (io.readFile d node dest length) := by
  unfold readFile
  dsimp only
  rw [show (io.withFds fds).runtime.fds x = fds x from rfl, h.flags, h.fdPath]
  refine agree_ite Iff.rfl (fun _ => h.refuse _) fun hreadable =>
    agree_ite Iff.rfl (fun _ => h.refuse _) fun hfile =>
      agree_ite Iff.rfl (fun _ => h.refuse _) fun hbuffer => ?_
  have heq := hoffset ⟨by simpa using hreadable, by simpa using hfile, by
    rcases Bool.eq_false_or_eq_true dest.null with hnull | hnull
    · exact .inr (by simpa [hnull] using hbuffer)
    · exact .inl hnull⟩
  rw [heq]
  exact agree_ite Iff.rfl (fun _ => h.refuse _) fun _ =>
    agree_ite Iff.rfl (fun _ => h.refuse _) fun _ => ⟨rfl, h.apart.setOffset x d _ _⟩

/-- Whether a write into a file starts at the offset of its descriptor. -/
def WritesAtOffset (io : LinuxIo) (slot : LinuxFdSlot) (i : OverlaySlot) : Prop :=
  (io.runtime.overlayNodes i).directory = false ∧
    has (io.runtime.fds slot).flags oAppend = false

theorem writeOverlay_agree (h : Mirrors io fds x d) (i : OverlaySlot) (buffer : List UInt8)
    (readable : ℕ) (hoffset : io.WritesAtOffset d i → (fds x).offset = (io.runtime.fds d).offset) :
    Agree ((io.withFds fds).lift ((io.withFds fds).runtime.writeOverlay x i buffer readable))
      (io.lift (io.runtime.writeOverlay d i buffer readable)) := by
  unfold writeOverlay
  dsimp only
  rw [show (io.withFds fds).runtime.fds x = fds x from rfl,
    show has (fds x).flags oAppend = has (io.runtime.fds d).flags oAppend by rw [h.flags]]
  refine agree_lift_ite Iff.rfl (fun _ => h.refuse _) fun hfile => ?_
  have heq : (if has (io.runtime.fds d).flags oAppend
      then ((io.withFds fds).runtime.overlayNodes i).size else (fds x).offset) =
      if has (io.runtime.fds d).flags oAppend then (io.runtime.overlayNodes i).size
      else (io.runtime.fds d).offset := by
    cases happend : has (io.runtime.fds d).flags oAppend with
    | true => rfl
    | false => exact hoffset ⟨by simpa using hfile, happend⟩
  rw [heq]
  generalize (if has (io.runtime.fds d).flags oAppend then (io.runtime.overlayNodes i).size
      else (io.runtime.fds d).offset) = offset
  have hplaced := h.apart.setOffset x d offset offset
  refine agree_lift_ite Iff.rfl (fun _ => ⟨rfl, hplaced⟩) fun _ =>
    agree_lift_ite Iff.rfl (fun _ => ⟨rfl, hplaced.setNode i _⟩) fun _ => ⟨rfl, ?_⟩
  refine (hplaced.setFd ?_ ?_).touchWith i _
  · simp [LinuxIo.setOffset, setFd, LinuxFd.still, withFds]
  · simp [LinuxIo.setOffset, setFd, LinuxFd.still]

def UsesOffset (io : LinuxIo) (slot : LinuxFdSlot) : FileCall → Prop
  | .read dest length => ∃ node, io.validFile slot = some node ∧
      io.ReadsAtOffset slot node dest length
  | .write source => (source.null = false ∨ source.bytes = []) ∧
      ∃ i, io.writableNode slot = some i ∧ io.WritesAtOffset slot i
  | .lseek _ whence => whence = 1 ∧ ∃ node, io.validFile slot = some node ∧
      io.nodeIsDirectory node = false
  | .getdents64 dest size => (dest.null = false ∧ direntSize ≤ size) ∧
      ∃ node, io.validFile slot = some node ∧ io.nodeIsDirectory node
  | .ftruncate _ => False

theorem fdSlot_range {fd : ℤ} {slot : LinuxFdSlot} (h : fdSlot fd = some slot) : 3 ≤ fd := by
  unfold fdSlot at h
  split at h
  · rename_i hrange
    exact hrange.1
  · cases h

variable {xFd dFd : ℤ}

section

variable (h : Mirrors io fds x d)

include h

section

variable (hx : fdSlot xFd = some x)

include hx

variable (hd : fdSlot dFd = some d)

include hd

theorem read_agree (dest : UserDest) (length : ℕ)
    (hoffset : io.UsesOffset d (.read dest length) → (fds x).offset = (io.runtime.fds d).offset) :
    Agree ((io.withFds fds).read xFd dest length) (io.read dFd dest length) := by
  have hxRange := fdSlot_range hx
  have hdRange := fdSlot_range hd
  unfold read
  rw [if_neg (show ¬xFd = 0 by omega), if_neg (show ¬dFd = 0 by omega), hx, hd]
  dsimp only
  rw [h.valid_pipe, show (io.withFds fds).runtime.fds x = fds x from rfl, h.opened, h.devNull,
    h.devRandom, h.flags, show (io.withFds fds).ends x = io.ends d from h.ends, h.node]
  refine agree_ite Iff.rfl (fun _ => pipeRead_agree h dest length) fun _ =>
    agree_ite Iff.rfl (fun _ => agree_ite Iff.rfl (fun _ => h.refuse _) fun _ => h.refuse _)
      fun _ => agree_ite Iff.rfl (fun _ => agree_ite Iff.rfl (fun _ => h.refuse _)
        fun _ => getrandom_agree h dest length _) fun _ => ?_
  have hvalid : (if (io.runtime.fds d).isOpen && !(io.ends d).pipeNode then
      (io.runtime.fds d).node else none) = io.validFile d := rfl
  rw [hvalid]
  cases hnode : io.validFile d with
  | none => exact h.refuse _
  | some node => exact readFile_agree h node dest length fun hreads => hoffset ⟨node, hnode, hreads⟩

theorem runtimeWrite_agree (buffer : List UInt8) (readable : ℕ)
    (hpipe : (io.ends d).pipeNode = false ∨ (io.runtime.fds d).devNull)
    (hoffset : ∀ i, io.writableNode d = some i → io.WritesAtOffset d i →
      (fds x).offset = (io.runtime.fds d).offset) :
    Agree ((io.withFds fds).lift ((io.withFds fds).runtime.write xFd buffer readable))
      (io.lift (io.runtime.write dFd buffer readable)) := by
  unfold LinuxRuntime.write
  rw [if_pos (fdSlot_range hx), if_pos (fdSlot_range hd), hx, hd]
  dsimp only
  rw [show (io.withFds fds).runtime.fds x = fds x from rfl, h.opened, h.devNull, h.node, h.fdPath,
    h.flags]
  refine agree_lift_ite Iff.rfl (fun _ => agree_lift_ite Iff.rfl (fun _ => h.refuse _) fun _ =>
    agree_lift_ite Iff.rfl (fun _ => h.refuse _) fun _ => h.refuse _) fun hdevice => ?_
  cases hopen : (io.runtime.fds d).isOpen with
  | false => exact h.refuse _
  | true =>
    have hfile : (io.ends d).pipeNode = false := by
      rcases hpipe with hpipe | hnull
      · exact hpipe
      · simp [hopen, hnull] at hdevice
    rw [if_pos rfl]
    cases hnode : (io.runtime.fds d).node with
    | none => exact h.refuse _
    | some node =>
      have hvalid : io.validFile d = some node := by
        simp only [LinuxIo.validFile, isOpen, hopen, hfile, hnode]
        rfl
      cases node with
      | lower node => exact h.refuse _
      | overlay i =>
        refine agree_lift_ite Iff.rfl (fun _ => h.refuse _) fun hwritable => ?_
        refine writeOverlay_agree h i buffer readable (hoffset i ?_)
        have hflags : flagsWritable (io.runtime.fds d).flags := by simpa using hwritable
        unfold LinuxIo.writableNode
        rw [hvalid]
        exact if_pos hflags

theorem write_agree (source : UserSource)
    (hoffset : io.UsesOffset d (.write source) → (fds x).offset = (io.runtime.fds d).offset) :
    Agree ((io.withFds fds).write xFd source) (io.write dFd source) := by
  refine agree_ite Iff.rfl (fun _ => h.refuse _) fun hsource => ?_
  have hbuffer : source.null = false ∨ source.bytes = [] := by
    rcases Bool.eq_false_or_eq_true source.null with hnull | hnull
    · exact .inr (by simpa [hnull] using hsource)
    · exact .inl hnull
  rw [hx, hd]
  dsimp only
  rw [h.valid_pipe, show (io.withFds fds).runtime.fds x = fds x from rfl, h.devNull,
    show (io.withFds fds).ends x = io.ends d from h.ends]
  refine agree_ite Iff.rfl (fun _ => pipeWrite_agree h source) fun _ =>
    agree_ite Iff.rfl (fun _ => h.refuse _) fun hpipe => ?_
  refine runtimeWrite_agree h hx hd source.bytes source.readable ?_ fun i hwritable hwrites =>
    hoffset ⟨hbuffer, i, hwritable, hwrites⟩
  cases hnode : (io.ends d).pipeNode with
  | false => exact .inl rfl
  | true => exact .inr (by simpa [hnode] using hpipe)

theorem lseek_agree (offset : ℤ) (whence : ℕ)
    (hoffset : io.UsesOffset d (.lseek offset whence) →
      (fds x).offset = (io.runtime.fds d).offset) :
    Agree ((io.withFds fds).lseek xFd offset whence) (io.lseek dFd offset whence) := by
  unfold lseek
  rw [hx, hd]
  dsimp only
  rw [h.validFile, show (io.withFds fds).runtime.fds x = fds x from rfl, h.fdPath]
  cases hnode : io.validFile d with
  | none => exact h.refuse _
  | some node =>
    refine agree_ite Iff.rfl (fun _ => h.refuse _) fun hfile =>
      agree_ite Iff.rfl (fun _ => h.refuse _) fun _ => ?_
    have hbase : (if whence = 0 then 0 else if whence = 1 then (fds x).offset
        else ((io.withFds fds).nodeBytes node).length) =
        if whence = 0 then 0 else if whence = 1 then (io.runtime.fds d).offset
        else (io.nodeBytes node).length := by
      by_cases hone : whence = 1
      · rw [if_pos hone, if_pos hone, hoffset ⟨hone, node, hnode, by simpa using hfile⟩]
      rw [if_neg hone, if_neg hone]
      rfl
    rw [hbase]
    exact agree_ite Iff.rfl (fun _ => h.refuse _) fun _ => ⟨rfl, h.apart.setOffset x d _ _⟩

theorem ftruncate_agree (length : ℕ) :
    Agree ((io.withFds fds).ftruncate xFd length) (io.ftruncate dFd length) := by
  unfold ftruncate
  rw [hx, hd]
  simp only [Option.bind_some]
  rw [h.writableNode]
  cases hnode : io.writableNode d with
  | none => exact h.refuse _
  | some i =>
    refine agree_ite Iff.rfl (fun _ => h.refuse _) fun _ =>
      agree_ite Iff.rfl (fun _ => h.refuse _) fun _ => ⟨rfl, ?_⟩
    exact (h.apart.touchWith i _).setOffset x d _ _

theorem getdents64_agree (dest : UserDest) (size : ℕ)
    (hoffset : io.UsesOffset d (.getdents64 dest size) →
      (fds x).offset = (io.runtime.fds d).offset) :
    Agree ((io.withFds fds).getdents64 rootfs xFd dest size)
      (io.getdents64 rootfs dFd dest size) := by
  unfold getdents64
  rw [hx, hd]
  dsimp only
  rw [h.validFile, show (io.withFds fds).runtime.fds x = fds x from rfl, h.fdPath]
  cases hnode : io.validFile d with
  | none => exact h.refuse _
  | some node =>
    refine agree_ite Iff.rfl (fun _ => h.refuse _) fun hdirectory =>
      agree_ite Iff.rfl (fun _ => h.refuse _) fun hbuffer => ?_
    have hgood : dest.null = false ∧ direntSize ≤ size := by simpa using hbuffer
    rw [hoffset ⟨hgood, node, hnode, by simpa using hdirectory⟩]
    exact agree_ite Iff.rfl (fun _ => h.refuse _) fun _ => ⟨rfl, h.apart.setOffset x d _ _⟩

end

end

theorem Agree.answer {α β : Type} {m d : LinuxIo × α} (h : Agree m d) (f : α → β) :
    Agree (m.1, f m.2) (d.1, f d.2) := ⟨congrArg f h.1, h.2⟩

theorem perform_agree (h : Mirrors io fds x d) (hx : fdSlot xFd = some x)
    (hd : fdSlot dFd = some d) (call : FileCall)
    (hoffset : io.UsesOffset d call → (fds x).offset = (io.runtime.fds d).offset) :
    Agree ((io.withFds fds).perform rootfs xFd call) (io.perform rootfs dFd call) := by
  cases call with
  | read dest length => exact (read_agree h hx hd dest length hoffset).answer (FileAnswer.mk · [])
  | write source => exact (write_agree h hx hd source hoffset).answer (FileAnswer.mk · [])
  | lseek offset whence =>
    exact (lseek_agree h hx hd offset whence hoffset).answer (FileAnswer.mk · [])
  | getdents64 dest size =>
    exact (getdents64_agree rootfs h hx hd dest size hoffset).answer fun answer =>
      FileAnswer.mk answer.1 answer.2
  | ftruncate length => exact (ftruncate_agree h hx hd length).answer (FileAnswer.mk · [])

end LinuxIo
end VisualCpu
