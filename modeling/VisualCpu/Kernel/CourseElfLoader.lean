import Mathlib.Data.List.GetD
import VisualCpu.Library.ByteCodec

/-!
# The ELF loader of the course system

`course_elf_loader_load` checks an executable and describes the maps of its process. Every
program header is checked by itself: that two segments overlap, or that they leave no room for
the heap and the stack, is not noticed.
-/

namespace VisualCpu.CourseElf

open ByteCodec List

inductive Result where
  | badMagic | unsupported | badHeader | badProgramHeader | noLoad
deriving DecidableEq

structure Map where
  name : String
  (start stop : BitVec 64)
  flags : BitVec 32
  cow : Bool
deriving DecidableEq

/-- `map_count` is the length of `maps`. -/
structure LoadResult where
  entryPc : BitVec 64 := 0
  userSp : BitVec 64 := 0
  maps : List Map := []
  argc : ℕ := 0
  argv : Bytes := []
  envp : Bytes := []
deriving DecidableEq

/-- How the loader stops: with a code and what `*out_load` holds, or by a read outside the image. -/
inductive Stop where
  | refused (code : Result) (load : LoadResult)
  | outside
deriving DecidableEq

def maxMaps : ℕ := 8
def userStackTop : BitVec 64 := 0x7FFFF000
def userStackSize : BitVec 64 := 4096
def userHeapSize : BitVec 64 := 4096

/-- `clear_load`. -/
def LoadResult.clear (_ : LoadResult) : LoadResult := {}

/-- A C string in a buffer of some size. -/
def copyStr (size : ℕ) (value : Bytes) : Bytes := (value.takeWhile (· ≠ 0)).take (size - 1)

def check (condition : Prop) [Decidable condition] (code : Result) (load : LoadResult) :
    Except Stop Unit :=
  if condition then .ok () else .error (.refused code load)

/-- `read_le16` and its siblings, of some bytes and without a check. -/
def readLe (image : Bytes) (offset : ℕ) : ℕ → Except Stop ℕ
  | 0 => .ok 0
  | n + 1 =>
    match image[offset]? with
    | none => .error .outside
    | some byte => do return byte.toNat + 256 * (← readLe image (offset + 1) n)

structure Segment where
  (type flags : BitVec 32)
  (offset vaddr filesz memsz : BitVec 64)

namespace Segment

variable (s : Segment)

def stop : BitVec 64 := s.vaddr + s.memsz

def isLoad : Bool := s.type == 1

/-- The checks of a `PT_LOAD` header. -/
def Sound (imageSize : ℕ) : Prop :=
  ¬(s.memsz < s.filesz ∨ imageSize < s.offset.toNat ∨ imageSize - s.offset.toNat < s.filesz.toNat ∨
    s.vaddr = 0 ∨ s.memsz = 0 ∨ s.stop < s.vaddr)

instance (imageSize : ℕ) : Decidable (s.Sound imageSize) := inferInstanceAs (Decidable (¬_))

def executes (entry : BitVec 64) : Bool :=
  s.flags &&& 1 != 0 && s.vaddr ≤ entry && entry < s.stop

def map : Map := ⟨if s.flags &&& 1 ≠ 0 then "code" else "data", s.vaddr, s.stop, s.flags, false⟩

end Segment

def readSegment (image : Bytes) (offset : ℕ) : Except Stop Segment := do
  let type ← readLe image offset 4
  let flags ← readLe image (offset + 4) 4
  let fileOffset ← readLe image (offset + 8) 8
  let vaddr ← readLe image (offset + 16) 8
  let filesz ← readLe image (offset + 32) 8
  let memsz ← readLe image (offset + 40) 8
  return ⟨.ofNat 32 type, .ofNat 32 flags, .ofNat 64 fileOffset, .ofNat 64 vaddr, .ofNat 64 filesz,
    .ofNat 64 memsz⟩

/-- `add_map`, with what each caller does when it fails. -/
def addMap (load : LoadResult) (map : Map) : Except Stop LoadResult := do
  check (map.start < map.stop ∧ load.maps.length < maxMaps) .badProgramHeader load.clear
  return { load with maps := load.maps ++ [map] }

/-- The variables of the loop over the program headers. -/
structure Scan where
  load : LoadResult
  heapStart : BitVec 64 := 0
  sawLoad : Bool := false
  entryInLoad : Bool := false

def higher (top : BitVec 64) (s : Segment) : BitVec 64 := if top < s.stop then s.stop else top

variable (entry : BitVec 64)

/-- One round of the loop. -/
def scanSegment (imageSize : ℕ) (scan : Scan) (s : Segment) :
    Except Stop Scan :=
  if !s.isLoad then .ok scan
  else do
    check (s.Sound imageSize) .badProgramHeader scan.load.clear
    let load ← addMap scan.load s.map
    return ⟨load, higher scan.heapStart s, true, scan.entryInLoad || s.executes entry⟩

def heapMap (start : BitVec 64) : Map := ⟨"heap", start, start + userHeapSize, 2, false⟩

def stackMap : Map := ⟨"stack", userStackTop - userStackSize, userStackTop, 2, false⟩

def alignUp (address : BitVec 64) : BitVec 64 := (address + 0xFFF) &&& ~~~0xFFF

/-- The part of the loader after the loop. -/
def finish (scan : Scan) : Except Stop LoadResult := do
  check scan.sawLoad .noLoad scan.load.clear
  check scan.entryInLoad .badProgramHeader scan.load.clear
  let heapStart := alignUp (if scan.heapStart = 0 then entry else scan.heapStart)
  let load ← addMap scan.load (heapMap heapStart)
  let load ← addMap load stackMap
  return { load with userSp := userStackTop }

/-- `course_elf_loader_load` for pointers that are not null; the magic is compared at once. -/
def courseElfLoaderLoad (image argv : Bytes) (out : LoadResult) : Except Stop LoadResult := do
  let load := out.clear
  check (4 ≤ image.length) .badHeader load
  let magic ← readLe image 0 4
  check (magic = 0x464C457F) .badMagic load
  check (64 ≤ image.length) .badHeader load
  let ident ← readLe image 4 3
  let type ← readLe image 16 2
  let machine ← readLe image 18 2
  let version ← readLe image 20 4
  check (ident = 0x010102 ∧ type = 2 ∧ machine = 243 ∧ version = 1) .unsupported load
  let entry ← readLe image 24 8
  let phoff ← readLe image 32 8
  let ehsize ← readLe image 52 2
  let phentsize ← readLe image 54 2
  let phnum ← readLe image 56 2
  check (ehsize = 64 ∧ phentsize = 56 ∧ phnum ≠ 0 ∧ phoff ≤ image.length ∧
    phnum ≤ (image.length - phoff) / phentsize) .badHeader load
  let load : LoadResult :=
    { load with
      entryPc := .ofNat 64 entry
      argc := if copyStr 64 argv = [] then 0 else 1
      argv := copyStr 64 argv
      envp := copyStr 64 [0x50, 0x41, 0x54, 0x48, 0x3D, 0x2F, 0x62, 0x69, 0x6E] }
  let scan ← (range phnum).foldlM (fun scan i => do
    scanSegment (.ofNat 64 entry) image.length scan (← readSegment image (phoff + i * phentsize)))
    { load }
  finish (.ofNat 64 entry) scan

/-- The number that some bytes of the image stand for. -/
def leValue (image : Bytes) (offset : ℕ) : ℕ → ℕ
  | 0 => 0
  | n + 1 => (image.getD offset 0).toNat + 256 * leValue image (offset + 1) n

variable (image : Bytes)

def segmentAt (offset : ℕ) : Segment :=
  ⟨.ofNat 32 (leValue image offset 4), .ofNat 32 (leValue image (offset + 4) 4),
    .ofNat 64 (leValue image (offset + 8) 8), .ofNat 64 (leValue image (offset + 16) 8),
    .ofNat 64 (leValue image (offset + 32) 8), .ofNat 64 (leValue image (offset + 40) 8)⟩

def entryOf : BitVec 64 := .ofNat 64 (leValue image 24 8)

/-- The `PT_LOAD` segments. -/
def segments : List Segment :=
  ((range (leValue image 56 2)).map fun i =>
    segmentAt image (leValue image 32 8 + i * 56)).filter Segment.isLoad

def heapStart : BitVec 64 := alignUp ((segments image).foldl higher 0)

/-- The images that pass the checks. -/
def Accepts : Prop :=
  4 ≤ image.length ∧ leValue image 0 4 = 0x464C457F ∧ 64 ≤ image.length ∧
    (leValue image 4 3 = 0x010102 ∧ leValue image 16 2 = 2 ∧ leValue image 18 2 = 243 ∧
      leValue image 20 4 = 1) ∧
    (leValue image 52 2 = 64 ∧ leValue image 54 2 = 56 ∧ leValue image 56 2 ≠ 0 ∧
      leValue image 32 8 ≤ image.length ∧
      leValue image 56 2 ≤ (image.length - leValue image 32 8) / leValue image 54 2) ∧
    (∀ s ∈ segments image, s.Sound image.length) ∧ (segments image).length + 2 ≤ maxMaps ∧
    (∃ s ∈ segments image, s.executes (entryOf image)) ∧
    heapStart image < heapStart image + userHeapSize

structure SoundLayout (load : LoadResult) : Prop where
  nonempty : ∀ map ∈ load.maps, map.start < map.stop
  entry : ∃ s ∈ segments image, s.executes load.entryPc ∧ s.map ∈ load.maps
  files : ∀ s ∈ segments image, s.offset.toNat + s.filesz.toNat ≤ image.length
  heap : ∃ start : BitVec 64, 4096 ∣ start.toNat ∧ (∀ s ∈ segments image, s.stop ≤ start) ∧
    load.maps = (segments image).map (·.map) ++ [heapMap start] ++ [stackMap]
  disjoint : load.maps.Pairwise fun a b => a.stop ≤ b.start ∨ b.stop ≤ a.start

/-- The segments are apart from each other and from the stack, and behind the highest one there
is room for the heap, which is not the page of the stack. -/
structure Fits : Prop where
  apart : (segments image).Pairwise fun s t => s.stop ≤ t.vaddr ∨ t.stop ≤ s.vaddr
  stack : ∀ s ∈ segments image, s.stop ≤ 0x7FFFE000 ∨ 0x7FFFF000 ≤ s.vaddr
  room : ∀ s ∈ segments image, s.stop ≤ 0xFFFFFFFFFFFFF000
  heap : (∃ s ∈ segments image, 0x7FFFD000 < s.stop) → ∃ s ∈ segments image, 0x7FFFE000 < s.stop

/-- The loader reads inside the image, and it clears its result or describes a sound layout. -/
def Meets (argv : Bytes) (out : LoadResult) : Prop :=
  match courseElfLoaderLoad image argv out with
  | .error .outside => False
  | .error (.refused _ load) => load = {}
  | .ok load => SoundLayout image load

variable {image} {scan : Scan}

/-- A part of the loader gives its value exactly under a condition; else the result is cleared. -/
def Decides {α : Type} (part : Except Stop α) (condition : Prop) (value : α) : Prop :=
  (condition ∧ part = .ok value) ∨ (¬condition ∧ ∃ code, part = .error (.refused code {}))

section

variable {α β : Type} {part : Except Stop α} {f : α → Except Stop β} {p q : Prop} {x : α} {y : β}
  {offset n : ℕ}

theorem Decides.bind (hpart : Decides part p x) (hf : p → Decides (f x) q y) :
    Decides (part >>= f) (p ∧ q) y := by
  obtain ⟨hp, rfl⟩ | ⟨hp, code, rfl⟩ := hpart
  · obtain ⟨hq, hy⟩ | ⟨hq, hy⟩ := hf hp
    · exact .inl ⟨⟨hp, hq⟩, hy⟩
    · exact .inr ⟨fun h => hq h.2, hy⟩
  · exact .inr ⟨fun h => hp h.1, code, rfl⟩

theorem Decides.of_iff (h : Decides part p x) (hiff : p ↔ q) : Decides part q x := by
  rwa [Decides, ← hiff]

theorem Decides.check [Decidable p] (code : Result) : Decides (CourseElf.check p code {}) p () := by
  by_cases h : p
  · exact .inl ⟨h, if_pos h⟩
  · exact .inr ⟨h, code, if_neg h⟩

theorem Decides.map {g : α → β} (h : Decides part p x) :
    Decides (part >>= fun a => .ok (g a)) p (g x) := by
  obtain ⟨hp, rfl⟩ | ⟨hp, code, rfl⟩ := h
  · exact .inl ⟨hp, rfl⟩
  · exact .inr ⟨hp, code, rfl⟩

theorem Decides.checked {f : Unit → Except Stop β} [Decidable p] {code : Result}
    (hf : p → Decides (f ()) q y) : Decides (CourseElf.check p code {} >>= f) (p ∧ q) y :=
  (Decides.check code).bind hf

theorem readLe_eq (h : offset + n ≤ image.length) :
    readLe image offset n = .ok (leValue image offset n) := by
  induction n generalizing offset with
  | zero => rfl
  | succ n ih =>
    have hlt : offset < image.length := by omega
    rw [readLe, getElem?_eq_getElem hlt, leValue, getD_eq_getElem _ _ hlt]
    simp only [ih (show offset + 1 + n ≤ image.length by omega)]
    rfl

theorem Decides.read {f : ℕ → Except Stop β} (h : offset + n ≤ image.length)
    (hf : Decides (f (leValue image offset n)) q y) :
    Decides (readLe image offset n >>= f) q y := by
  rw [readLe_eq h]
  exact hf

end

theorem readSegment_eq {offset : ℕ} (h : offset + 56 ≤ image.length) :
    readSegment image offset = .ok (segmentAt image offset) := by
  unfold readSegment
  iterate 6 rw [readLe_eq (by omega)]
  rfl

theorem Segment.Sound.start_lt {s : Segment} {size : ℕ} (h : s.Sound size) : s.vaddr < s.stop := by
  unfold Segment.Sound Segment.stop at h
  unfold Segment.stop
  bv_omega

theorem addMap_decides (load : LoadResult) (map : Map) :
    Decides (addMap load map) (map.start < map.stop ∧ load.maps.length < maxMaps)
      { load with maps := load.maps ++ [map] } :=
  (Decides.check .badProgramHeader).map

/-- The scan after a segment that passes. -/
def Scan.add (scan : Scan) (s : Segment) : Scan :=
  ⟨{ scan.load with maps := scan.load.maps ++ [s.map] }, higher scan.heapStart s, true,
    scan.entryInLoad || s.executes entry⟩

theorem foldl_add (loads : List Segment) (scan : Scan) :
    loads.foldl (Scan.add entry) scan =
      ⟨{ scan.load with maps := scan.load.maps ++ loads.map (·.map) },
        loads.foldl higher scan.heapStart, scan.sawLoad || !loads.isEmpty,
        scan.entryInLoad || loads.any (·.executes entry)⟩ := by
  induction loads generalizing scan with
  | nil => simp
  | cons s loads ih => simp [ih, Scan.add, Bool.or_assoc]

/-- The scan goes through when every segment passes and the maps have room for all of them. -/
theorem scan_decides (size : ℕ) (headers : List Segment) (scan : Scan)
    (hlength : scan.load.maps.length ≤ maxMaps) :
    Decides (headers.foldlM (scanSegment entry size) scan)
      ((∀ s ∈ headers.filter Segment.isLoad, s.Sound size) ∧
        scan.load.maps.length + (headers.filter Segment.isLoad).length ≤ maxMaps)
      ((headers.filter Segment.isLoad).foldl (Scan.add entry) scan) := by
  induction headers generalizing scan with
  | nil => exact .inl ⟨⟨by simp, hlength⟩, rfl⟩
  | cons s headers ih =>
    rw [foldlM_cons]
    by_cases hload : s.isLoad
    · rw [scanSegment, if_neg (by simp [hload]), filter_cons_of_pos hload]
      have hstep : Decides (do
          check (s.Sound size) .badProgramHeader {}
          let load ← addMap scan.load s.map
          return ⟨load, higher scan.heapStart s, true, scan.entryInLoad || s.executes entry⟩)
          (s.Sound size ∧ s.vaddr < s.stop ∧ scan.load.maps.length < maxMaps) (scan.add entry s) :=
        .checked fun _ => (addMap_decides scan.load s.map).map
      have hnext : (scan.add entry s).load.maps.length = scan.load.maps.length + 1 := by
        simp [Scan.add]
      refine (hstep.bind fun h => ih _ (by omega)).of_iff ?_
      rw [hnext, forall_mem_cons, length_cons]
      constructor
      · rintro ⟨⟨hsound, -⟩, hall, hcount⟩
        exact ⟨⟨hsound, hall⟩, by omega⟩
      rintro ⟨⟨hsound, hall⟩, hcount⟩
      exact ⟨⟨hsound, hsound.start_lt, by omega⟩, hall, by omega⟩
    · rw [scanSegment, if_pos (by simp [hload]), filter_cons_of_neg hload]
      exact ih scan hlength

theorem foldlM_read {entry : BitVec 64} {phoff : ℕ} {rounds : List ℕ}
    (h : ∀ i ∈ rounds, phoff + i * 56 + 56 ≤ image.length) :
    rounds.foldlM (fun scan i => do
        scanSegment entry image.length scan (← readSegment image (phoff + i * 56))) scan =
      (rounds.map fun i => segmentAt image (phoff + i * 56)).foldlM
        (scanSegment entry image.length) scan := by
  induction rounds generalizing scan with
  | nil => rfl
  | cons i rounds ih =>
    have hstep := readSegment_eq (h i (by simp))
    simp only [foldlM_cons, map_cons, hstep]
    exact congrArg _ (funext fun scan => ih fun j hj => h j (by simp [hj]))

theorem highest_spec (loads : List Segment) (top : BitVec 64) :
    let highest := loads.foldl higher top
    top ≤ highest ∧ (∀ s ∈ loads, s.stop ≤ highest) ∧
      (highest = top ∨ ∃ s ∈ loads, s.stop = highest) := by
  induction loads generalizing top with
  | nil => simp
  | cons s loads ih =>
    obtain ⟨htop, hall, hsome⟩ := ih (higher top s)
    have hhigher : top ≤ higher top s ∧ s.stop ≤ higher top s ∧
        (higher top s = top ∨ higher top s = s.stop) := by
      unfold higher
      by_cases hlt : top < s.stop
      · exact if_pos hlt ▸ ⟨by bv_omega, BitVec.le_refl _, .inr rfl⟩
      · exact if_neg hlt ▸ ⟨BitVec.le_refl _, BitVec.not_lt.1 hlt, .inl rfl⟩
    simp only [foldl_cons, forall_mem_cons]
    refine ⟨BitVec.le_trans hhigher.1 htop, ⟨BitVec.le_trans hhigher.2.1 htop, hall⟩, ?_⟩
    obtain hsome | ⟨s', hs', hsome⟩ := hsome
    · rw [hsome]
      exact hhigher.2.2.imp_right fun h => ⟨s, by simp, h.symm⟩
    · exact .inr ⟨s', by simp [hs'], hsome⟩

/-- What the loader describes before the loop. -/
def started (image argv : Bytes) : LoadResult where
  entryPc := entryOf image
  argc := if copyStr 64 argv = [] then 0 else 1
  argv := copyStr 64 argv
  envp := copyStr 64 [0x50, 0x41, 0x54, 0x48, 0x3D, 0x2F, 0x62, 0x69, 0x6E]

/-- The result for an image that passes the checks. -/
def described (image argv : Bytes) : LoadResult :=
  { started image argv with
    userSp := userStackTop
    maps := (segments image).map (·.map) ++ [heapMap (heapStart image)] ++ [stackMap] }

theorem finish_decides {entry : BitVec 64} (htop : scan.entryInLoad → scan.heapStart ≠ 0) :
    let heap := heapMap (alignUp scan.heapStart)
    Decides (finish entry scan)
      (scan.sawLoad ∧ scan.entryInLoad ∧
        (heap.start < heap.stop ∧ scan.load.maps.length < maxMaps) ∧
        stackMap.start < stackMap.stop ∧ (scan.load.maps ++ [heap]).length < maxMaps)
      { scan.load with
        userSp := userStackTop
        maps := scan.load.maps ++ [heap] ++ [stackMap] } := by
  refine .checked fun _ => .checked fun hentry => ?_
  rw [if_neg (htop hentry)]
  exact (addMap_decides _ _).bind fun _ => (addMap_decides _ stackMap).map

/-- The loader refuses an image with a cleared result, or describes it. -/
theorem load_decides (argv : Bytes) (out : LoadResult) :
    Decides (courseElfLoaderLoad image argv out) (Accepts image) (described image argv) := by
  refine Decides.checked fun _ => .read (by omega) (.checked fun _ => .checked fun hlength => ?_)
  iterate 4 refine .read (by omega) ?_
  refine .checked fun _ => ?_
  iterate 5 refine .read (by omega) ?_
  refine .checked fun htable => ?_
  obtain ⟨-, hphentsize, -, -, hfit⟩ := id htable
  have hscan := scan_decides (entryOf image) image.length
    ((range (leValue image 56 2)).map fun i => segmentAt image (leValue image 32 8 + i * 56))
    { load := started image argv } (by simp [started])
  rw [hphentsize] at hfit ⊢
  rw [← foldlM_read fun i hi => by have := mem_range.1 hi; omega] at hscan
  rw [foldl_add] at hscan
  have htop : ∀ s ∈ segments image, s.Sound image.length → (segments image).foldl higher 0 ≠ 0 := by
    intro s hs hsound
    have hlt := hsound.start_lt
    have := (highest_spec (segments image) 0).2.1 s hs
    bv_omega
  refine (hscan.bind fun h => finish_decides fun hany => ?_).of_iff ?_
  · obtain ⟨s, hs, -⟩ := any_eq_true.1 hany
    exact htop s hs (h.1 s hs)
  have hstack : stackMap.start < stackMap.stop := by decide
  have hempty : (started image argv).maps = [] := rfl
  simp only [hstack, hempty, nil_append, length_append, length_map,
    length_nil, length_singleton, Bool.false_or, any_eq_true, true_and]
  refine ⟨?_, ?_⟩
  · rintro ⟨⟨hsound, -⟩, -, hentry, ⟨hheap, -⟩, hcount⟩
    exact ⟨hsound, hcount, hentry, hheap⟩
  rintro ⟨hsound, hcount, ⟨s, hs, hentry⟩, hheap⟩
  have hroom : (segments image).length < maxMaps := by omega
  refine ⟨⟨hsound, ?_⟩, ?_, ⟨s, hs, hentry⟩, ⟨hheap, hroom⟩, hcount⟩
  · exact (Nat.zero_add _).trans_le hroom.le
  rw [Bool.not_eq_true', isEmpty_eq_false_iff]
  exact ne_nil_of_mem hs

theorem toNat_clear (x : BitVec 64) :
    (x &&& ~~~(0xFFF : BitVec 64)).toNat = x.toNat / 4096 * 4096 := by
  have h : x &&& ~~~(BitVec.allOnes 12).setWidth 64 = (x >>> 12) <<< 12 := by
    ext i hi
    simp only [BitVec.getElem_and, BitVec.getElem_not, BitVec.getElem_setWidth,
      BitVec.getLsbD_allOnes, BitVec.getElem_shiftLeft, BitVec.getElem_ushiftRight]
    by_cases hlow : i < 12
    · simp [hlow]
    · simp [hlow, BitVec.getLsbD_eq_getElem, show 12 + (i - 12) = i by omega, hi]
  have hnat := congrArg BitVec.toNat h
  rw [BitVec.toNat_shiftLeft, BitVec.toNat_ushiftRight, Nat.shiftRight_eq_div_pow,
    Nat.shiftLeft_eq] at hnat
  refine hnat.trans ?_
  omega

theorem toNat_alignUp (top : BitVec 64) :
    (alignUp top).toNat = (top.toNat + 4095) % 2 ^ 64 / 4096 * 4096 := by
  rw [alignUp, toNat_clear, BitVec.toNat_add]
  rfl

/-- The described maps are sound exactly when the segments fit. -/
theorem described_sound_iff (argv : Bytes) (h : Accepts image) :
    SoundLayout image (described image argv) ↔ Fits image := by
  obtain ⟨-, -, -, -, -, hsound, -, hentry, hheap⟩ := h
  obtain ⟨-, htop, hsome⟩ := highest_spec (segments image) 0
  have hstart := toNat_alignUp ((segments image).foldl higher 0)
  rw [show alignUp _ = heapStart image from rfl] at hstart
  generalize (segments image).foldl higher 0 = top at htop hsome hstart
  replace hsome : ∃ s ∈ segments image, s.stop = top := by
    obtain rfl | hsome := hsome
    · obtain ⟨s, hs, -⟩ := hentry
      have hlt := (hsound s hs).start_lt
      have := htop s hs
      bv_omega
    · exact hsome
  obtain ⟨last, hlast, rfl⟩ := hsome
  have hdisjoint : (described image argv).maps.Pairwise
      (fun a b => a.stop ≤ b.start ∨ b.stop ≤ a.start) ↔
      (segments image).Pairwise (fun s t => s.stop ≤ t.vaddr ∨ t.stop ≤ s.vaddr) ∧
        (heapStart image + userHeapSize ≤ 0x7FFFE000 ∨ 0x7FFFF000 ≤ heapStart image) ∧
        ∀ s ∈ segments image,
          (s.stop ≤ heapStart image ∨ heapStart image + userHeapSize ≤ s.vaddr) ∧
          (s.stop ≤ 0x7FFFE000 ∨ 0x7FFFF000 ≤ s.vaddr) := by
    simp [described, pairwise_append, pairwise_map, heapMap, stackMap, Segment.map,
      userStackTop, userStackSize]
  have hheapLt := hheap
  constructor
  · intro hlayout
    obtain ⟨hapart, hstack, hsegments⟩ := hdisjoint.1 hlayout.disjoint
    obtain ⟨start, -, hstop, hmaps⟩ := hlayout.heap
    have hsame : heapStart image = start := by
      simpa [described, heapMap] using hmaps
    have hroom := hsame ▸ hstop last hlast
    simp only [BitVec.le_def, BitVec.toNat_add, userHeapSize, BitVec.ofNat_eq_ofNat,
      BitVec.toNat_ofNat] at hroom hstack hheap
    refine ⟨hapart, fun s hs => (hsegments s hs).2, fun s hs => ?_, fun ⟨s, hs, hhigh⟩ => ?_⟩
    · have hs := htop s hs
      simp only [BitVec.le_def, BitVec.ofNat_eq_ofNat, BitVec.toNat_ofNat] at hs ⊢
      omega
    refine ⟨last, hlast, ?_⟩
    have hs := htop s hs
    simp only [BitVec.le_def, BitVec.lt_def, BitVec.ofNat_eq_ofNat, BitVec.toNat_ofNat]
      at hs hhigh ⊢
    omega
  · intro hfits
    have hroom := hfits.room last hlast
    simp only [BitVec.le_def, BitVec.ofNat_eq_ofNat, BitVec.toNat_ofNat] at hroom hheap
    have hstop : ∀ s ∈ segments image, s.stop ≤ heapStart image := fun s hs => by
      have hs := htop s hs
      simp only [BitVec.le_def] at hs ⊢
      omega
    refine ⟨?_, ?_, ?_, ⟨heapStart image, by omega, hstop, rfl⟩, hdisjoint.2 ⟨hfits.apart, ?_, ?_⟩⟩
    · intro map hmap
      simp only [described, mem_append, mem_map, mem_singleton] at hmap
      obtain (⟨s, hs, rfl⟩ | rfl) | rfl := hmap
      · exact (hsound s hs).start_lt
      · exact hheapLt
      · decide
    · obtain ⟨s, hs, hexecutes⟩ := hentry
      exact ⟨s, hs, hexecutes, by simp [described, mem_map_of_mem hs]⟩
    · intro s hs
      have := hsound s hs
      simp only [Segment.Sound, not_or] at this
      omega
    · by_cases hhigh : 0x7FFFD000 < last.stop
      · obtain ⟨s, hs, habove⟩ := hfits.heap ⟨last, hlast, hhigh⟩
        have hs := htop s hs
        right
        simp only [BitVec.le_def, BitVec.lt_def, BitVec.ofNat_eq_ofNat, BitVec.toNat_ofNat]
          at habove hs ⊢
        omega
      · left
        simp only [BitVec.le_def, BitVec.lt_def, BitVec.toNat_add, userHeapSize,
          BitVec.ofNat_eq_ofNat, BitVec.toNat_ofNat] at hhigh ⊢
        omega
    · exact fun s hs => ⟨.inl (hstop s hs), hfits.stack s hs⟩

/-- The loader meets its contract exactly on the images that it refuses or whose segments fit. -/
theorem courseElfLoaderLoad_meets_iff (argv : Bytes) (out : LoadResult) :
    Meets image argv out ↔ (Accepts image → Fits image) := by
  unfold Meets
  obtain ⟨haccepts, hload⟩ | ⟨haccepts, code, hload⟩ := @load_decides image argv out
  · rw [hload]
    simp only [haccepts, true_imp_iff]
    exact described_sound_iff argv haccepts
  · simp [hload, haccepts]

/-- One segment of 1024 bytes that ends 1024 bytes before the end of the address space. -/
def highImage : Bytes :=
  [0x7F, 0x45, 0x4C, 0x46, 2, 1, 1] ++ replicate 9 0 ++ [2, 0, 243, 0, 1, 0, 0, 0] ++
    [0, 0xF8, 0xFF, 0xFF, 0xFF, 0xFF, 0xFF, 0xFF] ++ [64, 0, 0, 0, 0, 0, 0, 0] ++
    replicate 12 0 ++ [64, 0, 56, 0, 1, 0] ++ replicate 6 0 ++
    [1, 0, 0, 0, 5, 0, 0, 0] ++ replicate 8 0 ++
    [0, 0xF8, 0xFF, 0xFF, 0xFF, 0xFF, 0xFF, 0xFF] ++ replicate 16 0 ++
    [0, 4, 0, 0, 0, 0, 0, 0] ++ replicate 8 0

theorem highImage_notMeets : ¬Meets highImage [] {} := by
  have hload : courseElfLoaderLoad highImage [] {} = .ok (described highImage []) := by
    decide +kernel
  unfold Meets
  rw [hload]
  rintro ⟨-, -, -, ⟨start, -, hstop, hmaps⟩, -⟩
  obtain rfl : heapStart highImage = start := by simpa [described, heapMap] using hmaps
  exact absurd hstop (by decide +kernel)

end VisualCpu.CourseElf
