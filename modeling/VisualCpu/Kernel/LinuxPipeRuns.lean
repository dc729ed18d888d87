import VisualCpu.Kernel.LinuxPipes

/-!
# Pipes in every run

Beside each pipe stands what was written to it and what was read from it since it was created.
As long as no write loses the buffer between two chunks, no write meets the end of the buffer
while its front is free, and no pipe loses its last descriptor, a pipe is a bounded queue of
bytes.
-/

namespace VisualCpu

open Function LinuxCompat List

inductive PipeAction where
  | pipe2 (dest : UserDest) (flags : BitVec 32)
  | read (fd : ℤ) (dest : UserDest) (length : ℕ)
  | write (fd : ℤ) (source : UserSource)
  | dup3 (oldFd newFd : ℤ) (flags : BitVec 32)
  | dupFd (fd : ℤ) (arg : ℕ)
  | close (fd : ℤ)

namespace PipeAction

variable (io : LinuxIo)

def perform : PipeAction → LinuxIo × LinuxResult
  | pipe2 dest flags => io.pipe2 dest flags
  | read fd dest length => io.read fd dest length
  | write fd source => io.write fd source
  | dup3 oldFd newFd flags => io.dup3 oldFd newFd flags
  | dupFd fd arg => io.dupFd fd arg
  | close fd => io.close fd

end PipeAction

namespace LinuxIo

variable (io : LinuxIo)

def KeepsPipe (slot : LinuxFdSlot) : Prop :=
  ∀ i, io.Holds slot i → ∃ other, other ≠ slot ∧ io.Holds other i

instance (slot : LinuxFdSlot) : Decidable (io.KeepsPipe slot) :=
  inferInstanceAs (Decidable (∀ _, _ → ∃ _, _))

/-- The room behind the bytes of a pipe suffices when its free bytes do, and a buffer that fits
is read to its end or not at all. -/
def WholeWrite (pipe : LinuxPipe) (source : UserSource) : Prop :=
  (source.bytes.length ≤ maxPipeSize - pipe.unread.length →
    source.bytes.length ≤ maxPipeSize - pipe.data.length) ∧
  (source.bytes.length ≤ maxPipeSize - pipe.data.length →
    io.runtime.copiedLength source.bytes.length source.readable = 0 ∨
    source.bytes.length ≤ io.runtime.copiedLength source.bytes.length source.readable)

instance (pipe : LinuxPipe) (source : UserSource) : Decidable (io.WholeWrite pipe source) :=
  inferInstanceAs (Decidable (_ ∧ _))

/-- A call that no defect of the pipes concerns. -/
def Careful : PipeAction → Prop
  | .write fd source => ∀ slot, LinuxRuntime.fdSlot fd = some slot →
      io.fdIsValidPipe slot → (io.ends slot).pipeWrite →
      (source.null = false ∨ source.bytes = []) →
      io.WholeWrite (io.pipes (io.ends slot).pipeIndex) source
  | .dup3 oldFd newFd flags => ∀ old new, io.fdValid oldFd = some old →
      LinuxRuntime.fdSlot newFd = some new → oldFd ≠ newFd → flags &&& ~~~oCloexec = 0 →
      io.KeepsPipe new
  | .close fd => ∀ slot, LinuxRuntime.fdSlot fd = some slot → io.KeepsPipe slot
  | _ => True

instance : (action : PipeAction) → Decidable (io.Careful action)
  | .pipe2 _ _ => inferInstanceAs (Decidable True)
  | .read _ _ _ => inferInstanceAs (Decidable True)
  | .write _ _ => inferInstanceAs (Decidable (∀ _, _ → _ → _ → _ → _))
  | .dup3 _ _ _ => inferInstanceAs (Decidable (∀ _ _, _ → _ → _ → _ → _))
  | .dupFd _ _ => inferInstanceAs (Decidable True)
  | .close _ => inferInstanceAs (Decidable (∀ _, _ → _))

end LinuxIo

/-- The runtime with the bytes of the successful writes to each pipe and of the reads from it,
since it was created. -/
structure PipeWorld where
  io : LinuxIo
  sent : PipeSlot → List UInt8
  received : PipeSlot → List UInt8

namespace PipeWorld

/-- `linux_compat_runtime_init`. -/
def start (vm : Bool) (stdinText : Option (List UInt8)) (uart : List UInt8) : PipeWorld where
  io := LinuxIo.init vm stdinText uart
  sent _ := []
  received _ := []

def appendAt (log : PipeSlot → List UInt8) (bytes : List UInt8) :
    Option PipeSlot → PipeSlot → List UInt8
  | some i => update log i (log i ++ bytes)
  | none => log

def clearAt (log : PipeSlot → List UInt8) : Option PipeSlot → PipeSlot → List UInt8
  | some i => update log i []
  | none => log

variable (w : PipeWorld)

def step (action : PipeAction) : PipeWorld :=
  let outcome := action.perform w.io
  match action with
  | .pipe2 _ _ =>
    let made := if outcome.2.reply.value = 0 then w.io.allocPipeSlot else none
    ⟨outcome.1, clearAt w.sent made, clearAt w.received made⟩
  | .read fd _ _ => ⟨outcome.1, w.sent, appendAt w.received outcome.2.bytes (w.io.pipeOf fd)⟩
  | .write fd source =>
    let written := if 0 ≤ outcome.2.reply.value then w.io.pipeOf fd else none
    ⟨outcome.1, appendAt w.sent source.bytes written, w.received⟩
  | .dup3 _ _ _ => ⟨outcome.1, w.sent, w.received⟩
  | .dupFd _ _ => ⟨outcome.1, w.sent, w.received⟩
  | .close _ => ⟨outcome.1, w.sent, w.received⟩

theorem step_pipe2 (dest : UserDest) (flags : BitVec 32) : w.step (.pipe2 dest flags) =
    ⟨(w.io.pipe2 dest flags).1,
      clearAt w.sent (if (w.io.pipe2 dest flags).2.reply.value = 0 then w.io.allocPipeSlot
        else none),
      clearAt w.received (if (w.io.pipe2 dest flags).2.reply.value = 0 then w.io.allocPipeSlot
        else none)⟩ := rfl

theorem step_write (fd : ℤ) (source : UserSource) : w.step (.write fd source) =
    ⟨(w.io.write fd source).1,
      appendAt w.sent source.bytes (if 0 ≤ (w.io.write fd source).2.reply.value then w.io.pipeOf fd
        else none),
      w.received⟩ := rfl

def run (actions : List PipeAction) : PipeWorld := actions.foldl step w

/-- Every call is careful in the state before it. -/
def CarefulRun : PipeWorld → List PipeAction → Prop
  | _, [] => True
  | w, action :: actions => w.io.Careful action ∧ CarefulRun (w.step action) actions

end PipeWorld

/-- What a pipe holds is what was written and not yet read, and a used pipe is open. -/
structure PipeQueues (w : PipeWorld) : Prop where
  offset : ∀ i, (w.io.pipes i).readOffset ≤ (w.io.pipes i).data.length
  bounded : ∀ i, (w.io.pipes i).data.length ≤ maxPipeSize
  queue : ∀ i, w.sent i = w.received i ++ (w.io.pipes i).unread
  released : ∀ i, (w.io.pipes i).used → w.io.PipeInUse i

/-- The pipes after a call are queues of at most 512 bytes, of which nothing was lost, that are
used only while they are open; the call reports a full pipe or a full table only if there is no
room. -/
structure PipesSound (w : PipeWorld) (action : PipeAction) : Prop where
  received : ∀ i, (w.step action).received i <+: (w.step action).sent i
  waiting : ∀ i, (w.step action).sent i =
    (w.step action).received i ++ ((w.step action).io.pipes i).unread
  bounded : ∀ i, ((w.step action).io.pipes i).unread.length ≤ maxPipeSize
  room : ∀ fd source i, action = .write fd source → w.io.pipeOf fd = some i →
    (w.io.write fd source).2.reply.value = -28 →
    maxPipeSize - (w.io.pipes i).unread.length < source.bytes.length
  released : ∀ i, ((w.step action).io.pipes i).used → (w.step action).io.PipeInUse i
  tableFull : ∀ dest flags, action = .pipe2 dest flags →
    (w.io.pipe2 dest flags).2.reply.value = -24 → ¬w.io.TwoFree ∨ ∀ i, w.io.PipeInUse i

namespace PipeQueues

open LinuxIo PipeWorld

variable {w : PipeWorld}

theorem start (vm : Bool) (stdinText : Option (List UInt8)) (uart : List UInt8) :
    PipeQueues (PipeWorld.start vm stdinText uart) where
  offset _ := Nat.le_refl _
  bounded _ := Nat.zero_le _
  queue _ := rfl
  released _ hused := by cases hused

theorem unread_le (h : PipeQueues w) (i : PipeSlot) :
    (w.io.pipes i).unread.length ≤ maxPipeSize := by
  rw [LinuxPipe.unread, length_drop]
  exact (Nat.sub_le _ _).trans (h.bounded i)

variable {io : LinuxIo} {changed : LinuxFdSlot}

theorem same (h : PipeQueues w) (hsame : SamePipes w.io io) : PipeQueues { w with io := io } where
  offset i := by
    simp only [hsame.pipes]
    exact h.offset i
  bounded i := by
    simp only [hsame.pipes]
    exact h.bounded i
  queue i := by
    simp only [hsame.pipes]
    exact h.queue i
  released i hused := by
    simp only [hsame.pipes] at hused
    exact (h.released i hused).mono fun slot hslot => hsame.holds.2 hslot

theorem fdChanged (h : PipeQueues w) (hchanged : FdChanged w.io io changed)
    (hkeeps : ∀ i, w.io.Holds changed i → io.PipeInUse i) : PipeQueues { w with io := io } where
  offset i := by
    simp only [hchanged.pipes]
    exact h.offset i
  bounded i := by
    simp only [hchanged.pipes]
    exact h.bounded i
  queue i := by
    simp only [hchanged.pipes]
    exact h.queue i
  released i hused := by
    simp only [hchanged.pipes] at hused
    obtain ⟨slot, hslot⟩ := h.released i hused
    by_cases heq : slot = changed
    · rw [heq] at hslot
      exact hkeeps i hslot
    · exact ⟨slot, (hchanged.holds heq).2 hslot⟩

theorem keeps_after
    (hchanged : FdChanged w.io io changed) (hkeeps : w.io.KeepsPipe changed) (i : PipeSlot)
    (hholds : w.io.Holds changed i) : io.PipeInUse i := by
  obtain ⟨other, hne, hother⟩ := hkeeps i hholds
  exact ⟨other, (hchanged.holds hne).2 hother⟩

section

variable (h : PipeQueues w)

include h

theorem close {fd : ℤ} (hcareful : w.io.Careful (.close fd)) : PipeQueues (w.step (.close fd)) := by
  rcases w.io.close_cases fd with hsame | ⟨slot, hslot, hclosed⟩
  · exact h.same (by rw [PipeAction.perform, hsame]; exact SamePipes.refl)
  have hchanged : FdChanged w.io (w.io.close fd).1 slot := by
    rw [hclosed]
    exact closeFdSlot_changed slot
  exact h.fdChanged hchanged (keeps_after hchanged (hcareful slot hslot))

theorem dup3 {oldFd newFd : ℤ} {flags : BitVec 32}
    (hcareful : w.io.Careful (.dup3 oldFd newFd flags)) :
    PipeQueues (w.step (.dup3 oldFd newFd flags)) := by
  rcases w.io.dup3_cases oldFd newFd flags with hsame | ⟨old, new, hold, hnew, hne, hflags, hdup⟩
  · exact h.same (by rw [PipeAction.perform, hsame]; exact SamePipes.refl)
  exact h.fdChanged hdup.changed
    (keeps_after hdup.changed (hcareful old new hold hnew hne hflags))

theorem dupFd (fd : ℤ) (arg : ℕ) : PipeQueues (w.step (.dupFd fd arg)) := by
  rcases w.io.dupFd_cases fd arg with hsame | ⟨old, new, _, hfree, hdup⟩
  · exact h.same (by rw [PipeAction.perform, hsame]; exact SamePipes.refl)
  refine h.fdChanged hdup.changed fun i hholds => ?_
  rw [hholds.1] at hfree
  cases hfree

theorem pipe2 (dest : UserDest) (flags : BitVec 32) : PipeQueues (w.step (.pipe2 dest flags)) := by
  rcases w.io.pipe2_cases dest flags with ⟨hsame, hvalue, _⟩ |
    ⟨hvalue, i, readFd, writeFd, halloc, hmade⟩
  · rw [step_pipe2, if_neg hvalue, hsame]
    exact h
  rw [step_pipe2, if_pos hvalue, halloc]
  simp only [clearAt]
  refine ⟨fun j => ?_, fun j => ?_, fun j => ?_, fun j hused => ?_⟩
  all_goals by_cases hj : j = i
  · simp [hmade.pipes, hj]
  · simpa [hmade.pipes, hj] using h.offset j
  · simp [hmade.pipes, hj]
  · simpa [hmade.pipes, hj] using h.bounded j
  · simp [hmade.pipes, hj, LinuxPipe.unread]
  · simpa [hmade.pipes, hj] using h.queue j
  · rw [hj]
    exact ⟨readFd, hmade.holds⟩
  · simp only [hmade.pipes, update_of_ne hj] at hused
    refine (h.released j hused).mono fun slot hslot => ?_
    have hread : slot ≠ readFd := by
      rintro rfl
      exact Bool.false_ne_true (hmade.free.1.symm.trans hslot.1)
    have hwrite : slot ≠ writeFd := by
      rintro rfl
      exact Bool.false_ne_true (hmade.free.2.symm.trans hslot.1)
    obtain ⟨hends, hopen⟩ := hmade.others slot hread hwrite
    rw [Holds, hends, hopen]
    exact hslot

theorem pipeChanged {io : LinuxIo} {i : PipeSlot} {pipe : LinuxPipe}
    {sent received : PipeSlot → List UInt8} (hchanged : PipeChanged w.io io i pipe)
    (hoffset : pipe.readOffset ≤ pipe.data.length) (hbounded : pipe.data.length ≤ maxPipeSize)
    (hqueue : sent i = received i ++ pipe.unread)
    (hothers : ∀ j, j ≠ i → sent j = w.sent j ∧ received j = w.received j) :
    PipeQueues ⟨io, sent, received⟩ := by
  have hpipe : io.pipes i = pipe := by rw [hchanged.pipes, update_self]
  have hpipes : ∀ j, j ≠ i → io.pipes j = w.io.pipes j := fun j hj => by
    rw [hchanged.pipes, update_of_ne hj]
  have hused : ∀ j, (io.pipes j).used = (w.io.pipes j).used := fun j => by
    by_cases hj : j = i
    · rw [hj, hpipe, hchanged.used]
    · rw [hpipes j hj]
  refine ⟨fun j => ?_, fun j => ?_, fun j => ?_, fun j hj => ?_⟩
  · by_cases hj : j = i
    · simpa only [hj, hpipe] using hoffset
    · simpa only [hpipes j hj] using h.offset j
  · by_cases hj : j = i
    · simpa only [hj, hpipe] using hbounded
    · simpa only [hpipes j hj] using h.bounded j
  · by_cases hj : j = i
    · simpa only [hj, hpipe] using hqueue
    · simpa only [hpipes j hj, (hothers j hj).1, (hothers j hj).2] using h.queue j
  · rw [hused j] at hj
    refine (h.released j hj).mono fun slot hslot => ?_
    rw [Holds, hchanged.ends, hchanged.opened]
    exact hslot

end

variable (log : PipeSlot → List UInt8)

theorem appendAt_self (bytes : List UInt8) (i : PipeSlot) :
    appendAt log bytes (some i) i = log i ++ bytes := update_self _ _ _

theorem appendAt_other (bytes : List UInt8) {i j : PipeSlot}
    (hj : j ≠ i) : appendAt log bytes (some i) j = log j := update_of_ne hj _ _

theorem appendAt_nil (i : Option PipeSlot) : appendAt log [] i = log := by
  cases i with
  | none => rfl
  | some i => simp [appendAt]

theorem pipeOf_slot {fd : ℤ} {slot : LinuxFdSlot}
    (hslot : LinuxRuntime.fdSlot fd = some slot) (hvalid : io.fdIsValidPipe slot) :
    io.pipeOf fd = some (io.ends slot).pipeIndex := by
  simp only [pipeOf, hslot, if_pos hvalid]

section

variable (h : PipeQueues w)

include h

theorem read (fd : ℤ) (dest : UserDest) (length : ℕ) :
    PipeQueues (w.step (.read fd dest length)) := by
  simp only [PipeWorld.step, PipeAction.perform]
  rcases w.io.read_cases fd dest length with ⟨hnone, hsame⟩ | ⟨slot, hslot, hvalid, hread⟩
  · rw [hnone]
    exact h.same hsame
  rw [hread, pipeOf_slot hslot hvalid]
  rcases w.io.pipeRead_cases slot dest length (h.offset _) with
    ⟨hsame, hbytes⟩ | ⟨count, pipe, hchanged, hbytes, hunread, hoffset, hlength⟩
  · rw [hsame, hbytes, appendAt_nil]
    exact h
  refine h.pipeChanged hchanged hoffset (hlength.trans (h.bounded _)) ?_ fun j hj =>
    ⟨rfl, appendAt_other _ _ hj⟩
  rw [appendAt_self, hbytes, hunread, append_assoc, take_append_drop]
  exact h.queue _

theorem write {fd : ℤ} {source : UserSource}
    (hcareful : w.io.Careful (.write fd source)) : PipeQueues (w.step (.write fd source)) := by
  rw [step_write]
  rcases w.io.write_cases fd source with
    ⟨_, hsame, hvalue⟩ | ⟨hnone, hsame⟩ | ⟨hsource, slot, hslot, hvalid, hwrite⟩
  · rw [hsame, hvalue]
    exact h
  · rw [hnone, ite_self]
    exact h.same hsame
  rw [hwrite, pipeOf_slot hslot hvalid]
  rcases w.io.pipeWrite_cases slot source with
    ⟨hsame, hvalue, _⟩ | ⟨hend, hroom, hchanged, hvalue⟩
  · rw [if_neg (not_le.2 hvalue), hsame]
    exact h
  have hoffset := h.offset (w.io.ends slot).pipeIndex
  have hbounded := h.bounded (w.io.ends slot).pipeIndex
  rcases (hcareful slot hslot hvalid hend hsource).2 hroom with hzero | hwhole
  · -- Nothing was copied; the write succeeds only if it is empty.
    rw [hzero] at hchanged hvalue
    have hlog : appendAt w.sent source.bytes (if 0 ≤ (w.io.pipeWrite slot source).2.reply.value
        then some (w.io.ends slot).pipeIndex else none) = w.sent := by
      by_cases hempty : source.bytes = []
      · rw [hempty, appendAt_nil]
      have hpositive : 0 < source.bytes.length := length_pos_iff.2 hempty
      rw [hvalue, if_pos hpositive]
      rfl
    rw [hlog]
    refine h.pipeChanged hchanged ?_ ?_ ?_ fun j _ => ⟨rfl, rfl⟩
    · simpa using hoffset
    · simpa using hbounded
    · simpa [LinuxPipe.unread] using h.queue (w.io.ends slot).pipeIndex
  · rw [if_neg (not_lt.2 hwhole)] at hvalue
    rw [take_of_length_le hwhole] at hchanged
    rw [hvalue, if_pos (Int.natCast_nonneg _)]
    refine h.pipeChanged hchanged ?_ ?_ ?_ fun j hj => ⟨appendAt_other _ _ hj, rfl⟩
    · rw [length_append]
      exact hoffset.trans (Nat.le_add_right _ _)
    · rw [length_append]
      omega
    · rw [appendAt_self, LinuxPipe.unread, drop_append_of_le_length hoffset,
        ← append_assoc, h.queue]
      rfl

theorem step (action : PipeAction) (hcareful : w.io.Careful action) :
    PipeQueues (w.step action) := by
  cases action with
  | pipe2 dest flags => exact h.pipe2 dest flags
  | read fd dest length => exact h.read fd dest length
  | write fd source => exact h.write hcareful
  | dup3 oldFd newFd flags => exact h.dup3 hcareful
  | dupFd fd arg => exact h.dupFd fd arg
  | close fd => exact h.close hcareful

theorem run {actions : List PipeAction} (hcareful : w.CarefulRun actions) :
    PipeQueues (w.run actions) := by
  induction actions generalizing w with
  | nil => exact h
  | cons action actions ih => exact ih (h.step action hcareful.1) hcareful.2

theorem sound (action : PipeAction) (hcareful : w.io.Careful action) : PipesSound w action := by
  have hafter := h.step action hcareful
  refine ⟨fun i => ?_, hafter.queue, hafter.unread_le, ?_, hafter.released, ?_⟩
  · rw [hafter.queue i]
    exact prefix_append _ _
  · rintro fd source i rfl hpipe hvalue
    rcases w.io.write_cases fd source with
      ⟨_, _, hnull⟩ | ⟨hnone, _⟩ | ⟨hsource, slot, hslot, hvalid, hwrite⟩
    · rw [hnull] at hvalue
      cases hvalue
    · rw [hnone] at hpipe
      cases hpipe
    rw [pipeOf_slot hslot hvalid, Option.some.injEq] at hpipe
    rw [hwrite] at hvalue
    rcases w.io.pipeWrite_cases slot source with ⟨_, _, hfull⟩ | ⟨_, _, _, hreply⟩
    · obtain ⟨hend, hlength⟩ := hfull hvalue
      by_contra hroom
      have hfits := (hcareful slot hslot hvalid hend hsource).1
      rw [hpipe] at hfits hlength
      have := hfits (not_lt.1 hroom)
      omega
    · rw [hreply] at hvalue
      split at hvalue
      · cases hvalue
      · omega
  · rintro dest flags rfl hvalue
    rcases w.io.pipe2_cases dest flags with ⟨_, _, hfull⟩ | ⟨hzero, _⟩
    · rcases hfull hvalue with hfds | hpipes
      · exact .inl hfds
      · exact .inr fun i => h.released i (hpipes i)
    · rw [hzero] at hvalue
      cases hvalue

end

end PipeQueues

theorem carefulRun_append {w : PipeWorld} {actions : List PipeAction} {action : PipeAction}
    (h : w.CarefulRun (actions ++ [action])) :
    w.CarefulRun actions ∧ (w.run actions).io.Careful action := by
  induction actions generalizing w with
  | nil => exact ⟨trivial, h.1⟩
  | cons first actions ih => exact ⟨⟨h.1, (ih h.2).1⟩, (ih h.2).2⟩

/-- In a run of careful calls every pipe is a bounded queue of bytes that is free again once it
is closed. -/
theorem run_pipesSound (vm : Bool) (stdinText : Option (List UInt8)) (uart : List UInt8)
    (actions : List PipeAction) (action : PipeAction)
    (hcareful : (PipeWorld.start vm stdinText uart).CarefulRun (actions ++ [action])) :
    PipesSound ((PipeWorld.start vm stdinText uart).run actions) action := by
  obtain ⟨hbefore, hlast⟩ := carefulRun_append hcareful
  exact ((PipeQueues.start vm stdinText uart).run hbefore).sound action hlast

def newPipe : PipeAction := .pipe2 ⟨false, 8⟩ 0

/-- Two bytes go into a pipe, one of them comes out, and one of two reading ends is closed. -/
theorem writeReadClose_sound : PipesSound ((PipeWorld.start true none []).run
    [newPipe, .write 4 ⟨false, [1, 2], 2⟩, .read 3 ⟨false, 1⟩ 1, .dup3 3 5 0]) (.close 3) :=
  run_pipesSound true none [] [newPipe, .write 4 ⟨false, [1, 2], 2⟩, .read 3 ⟨false, 1⟩ 1,
    .dup3 3 5 0] (.close 3) ⟨by decide +kernel, by decide +kernel, by decide +kernel,
      by decide +kernel, by decide +kernel, trivial⟩

def fourPipesClosed : List PipeAction :=
  [newPipe, .close 3, .close 4, newPipe, .close 3, .close 4, newPipe, .close 3, .close 4,
    newPipe, .close 3, .close 4]

/-- After four closed pipes there is no fifth; 300 bytes do not fit although 412 are free; bytes
of a failed write are read. -/
theorem closedPipes_fillTable :
    ¬PipesSound ((PipeWorld.start false none []).run fourPipesClosed) newPipe ∧
    ¬PipesSound ((PipeWorld.start false none []).run [newPipe,
      .write 4 ⟨false, replicate 300 1, 300⟩, .read 3 ⟨false, 200⟩ 200])
      (.write 4 ⟨false, replicate 300 2, 300⟩) ∧
    ¬PipesSound ((PipeWorld.start true none []).run [newPipe,
      .write 4 ⟨false, replicate 100 7, 64⟩]) (.read 3 ⟨false, 64⟩ 64) := by
  refine ⟨fun h => ?_, fun h => ?_, fun h => ?_⟩
  · have hfull := h.tableFull ⟨false, 8⟩ 0 rfl (by decide +kernel)
    revert hfull
    decide +kernel
  · have hroom := h.room 4 ⟨false, replicate 300 2, 300⟩ 0 rfl (by decide +kernel)
      (by decide +kernel)
    revert hroom
    decide +kernel
  · have hprefix := (h.received 0).length_le
    revert hprefix
    decide +kernel

end VisualCpu
