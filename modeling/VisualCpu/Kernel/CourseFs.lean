import VisualCpu.Library.Bisection
import VisualCpu.Library.Lists

/-!
# The course file system

A table of 160 nodes, each a directory or a file with a fixed data area. A directory keeps
its children in an array sorted by name, cut into leaf segments of four, and a lookup bisects
first the segments and then one segment. Paths are resolved component by component from
node 0. A character string is the list of its bytes before the terminating zero.
-/

namespace VisualCpu

abbrev CourseFsNodeIndex := Fin 160

/-- Characters of the RISC-V guest are unsigned bytes. -/
abbrev CourseChar := Fin 256

def courseFsMaxNodes : ℕ := 160
def courseFsMaxName : ℕ := 32
def courseFsMaxData : ℕ := 65536
def courseFsBtreeLeafCapacity : ℕ := 4
def courseFsBtreeMaxLeaves : ℕ :=
  (courseFsMaxNodes + courseFsBtreeLeafCapacity - 1) / courseFsBtreeLeafCapacity

/-- The character `/`. -/
def courseSlash : CourseChar := 47

/-- A node; its children are the first `dir_index_count` entries of `dir_index`, its leaf
segments the starts and counts of the first `btree_leaf_count` leaves. -/
structure CourseFsNode where
  used : Bool := false
  isDir : Bool := false
  parent : Option CourseFsNodeIndex := none
  name : List CourseChar := []
  size : ℕ := 0
  dirIndex : List CourseFsNodeIndex := []
  leaves : List (ℕ × ℕ) := []

/-- The data areas behind the nodes. -/
abbrev CourseFsStorage := CourseFsNodeIndex → ℕ → CourseChar

structure CourseFs where
  nodes : CourseFsNodeIndex → CourseFsNode
  storage : CourseFsStorage

/-- `cmp_cstr_len`, the second string cut to its length. -/
def cmpCstrLen : List CourseChar → List CourseChar → Ordering
  | [], [] => .eq
  | [], _ :: _ => .lt
  | _ :: _, [] => .gt
  | a :: as, b :: bs => if a < b then .lt else if b < a then .gt else cmpCstrLen as bs

def cmpCstr (a b : List CourseChar) : Ordering := cmpCstrLen a b

variable (data : ℕ → CourseChar)

def zeroBytes (start size : ℕ) : ℕ → CourseChar :=
  fun k => if start ≤ k ∧ k < start + size then 0 else data k

def copyBytes (start : ℕ) (src : List CourseChar) : ℕ → CourseChar :=
  fun k => if start ≤ k ∧ k < start + src.length then src.getD (k - start) 0 else data k

def readBytes (start size : ℕ) : List CourseChar :=
  (List.range size).map fun k => data (start + k)

namespace CourseFs

variable (fs : CourseFs)

/-- The file system with one node changed. -/
def setNode (index : CourseFsNodeIndex) (node : CourseFsNode) : CourseFs :=
  { fs with nodes := Function.update fs.nodes index node }

def allocNode : Option CourseFsNodeIndex :=
  firstSlot fun i => !(fs.nodes i).used

def nodeHasChildren (node : CourseFsNodeIndex) : Bool :=
  (firstSlot fun i => (fs.nodes i).used && (fs.nodes i).parent == some node).isSome

variable (node : CourseFsNode)

def cmpEntry (name : List CourseChar) (position : ℕ) :
    Ordering :=
  cmpCstrLen (fs.nodes (node.dirIndex.getD position 0)).name name

def cmpLeaf (name : List CourseChar) (leaf : ℕ) : Ordering :=
  cmpEntry fs node name ((node.leaves.getD leaf (0, 0)).1 + (node.leaves.getD leaf (0, 0)).2 - 1)

/-- Bisects the leaves by their last entries, then the leaf by its entries. -/
def findChild (parent : CourseFsNodeIndex) (name : List CourseChar) :
    Option CourseFsNodeIndex :=
  let node := fs.nodes parent
  if name = [] ∨ node.used = false ∨ node.isDir = false then none
  else if node.dirIndex = [] then none
  else
    let leaf := Bisection.bisect (fun mid => cmpLeaf fs node name mid == .lt) 0 node.leaves.length
    match node.leaves[leaf]? with
    | none => none
    | some (start, count) =>
      (Bisection.bisectFind (cmpEntry fs node name) start (start + count)).map fun position =>
        node.dirIndex.getD position 0

/-- The leaves cut from the entries from `entry` on, while the leaf table has room. -/
def leafSegments : (room entry count : ℕ) → List (ℕ × ℕ)
  | 0, _, _ => []
  | room + 1, entry, count =>
    if entry < count then
      (entry, min (count - entry) courseFsBtreeLeafCapacity) ::
        leafSegments room (entry + min (count - entry) courseFsBtreeLeafCapacity) count
    else []

def rebuildChildBtree : CourseFsNode :=
  { node with leaves := leafSegments courseFsBtreeMaxLeaves 0 node.dirIndex.length }

def insertEntry (fs : CourseFs) (child : CourseFsNodeIndex) :
    List CourseFsNodeIndex → List CourseFsNodeIndex
  | [] => [child]
  | entry :: rest =>
    if cmpCstr (fs.nodes entry).name (fs.nodes child).name = .lt then
      entry :: insertEntry fs child rest
    else child :: entry :: rest

def insertChildIndex (parent child : CourseFsNodeIndex) : CourseFs × Bool :=
  let node := fs.nodes parent
  if node.used = false ∨ node.isDir = false ∨ (fs.nodes child).used = false ∨
      courseFsMaxNodes ≤ node.dirIndex.length then (fs, false)
  else
    (fs.setNode parent
      (rebuildChildBtree { node with dirIndex := insertEntry fs child node.dirIndex }), true)

def removeChildIndex (parent : Option CourseFsNodeIndex)
    (child : CourseFsNodeIndex) : CourseFs :=
  match parent with
  | none => fs
  | some parent =>
    let node := fs.nodes parent
    if node.used = false ∨ node.isDir = false then fs
    else if child ∈ node.dirIndex then
      fs.setNode parent (rebuildChildBtree { node with dirIndex := node.dirIndex.erase child })
    else fs

end CourseFs

def nextComponent (cursor : List CourseChar) : Option (List CourseChar × List CourseChar) :=
  match cursor.dropWhile (· == courseSlash) with
  | [] => none
  | c :: tail =>
    some ((c :: tail).takeWhile (· != courseSlash), (c :: tail).dropWhile (· != courseSlash))

theorem nextComponent_length {cursor name rest : List CourseChar}
    (h : nextComponent cursor = some (name, rest)) : rest.length < cursor.length := by
  rw [nextComponent] at h
  have hcursor := List.IsSuffix.length_le (List.dropWhile_suffix (l := cursor) (· == courseSlash))
  cases hdrop : cursor.dropWhile (· == courseSlash) with
  | nil =>
    rw [hdrop] at h
    cases h
  | cons c tail =>
    rw [hdrop] at h hcursor
    obtain ⟨-, rfl⟩ : _ ∧ _ := by simpa using h
    have hc : (c != courseSlash) = true := by
      have hhead := List.head?_dropWhile_not (· == courseSlash) cursor
      rw [hdrop] at hhead
      simpa [bne] using hhead
    have htail := List.IsSuffix.length_le (List.dropWhile_suffix (l := tail) (· != courseSlash))
    rw [List.dropWhile_cons, if_pos hc]
    simp only [List.length_cons] at hcursor
    omega

/-- What resolving a path tells: the node, the directory it is to be found in and its name. -/
structure CourseFsResolution where
  node : Option CourseFsNodeIndex
  parent : Option CourseFsNodeIndex := none
  leaf : List CourseChar := []

namespace CourseFs

/-- The loop of `resolve_path` at a directory. -/
def resolveFrom (fs : CourseFs) (current : CourseFsNodeIndex) (cursor : List CourseChar) :
    CourseFsResolution :=
  match _h : nextComponent cursor with
  | none => { node := some current }
  | some (name, rest) =>
    if rest = [] then { node := findChild fs current name, parent := some current, leaf := name }
    else
      match findChild fs current name with
      | none => { node := none }
      | some child =>
        if (fs.nodes child).isDir then resolveFrom fs child rest else { node := none }
termination_by cursor.length
decreasing_by exact nextComponent_length _h

variable (fs : CourseFs)

variable (path : List CourseChar)

def resolvePath : CourseFsResolution :=
  if path.head? ≠ some courseSlash then { node := none }
  else if path = [courseSlash] then { node := some 0, leaf := path }
  else resolveFrom fs 0 path

/-- `course_fs_init_with_storage` and `course_fs_mkfs`. -/
def init (storage : CourseFsStorage) : CourseFs where
  nodes := Function.update (fun _ => {}) 0 { used := true, isDir := true, name := [courseSlash] }
  storage := storage

def create (directory : Bool) : CourseFs × Bool :=
  let found := fs.resolvePath path
  match found.node, found.parent with
  | none, some parent =>
    if found.leaf = [] ∨ courseFsMaxName ≤ found.leaf.length then (fs, false)
    else
      match fs.allocNode with
      | none => (fs, false)
      | some node =>
        let taken := fs.setNode node { fs.nodes node with
          used := true, isDir := directory, parent := some parent, size := 0, dirIndex := []
          name := found.leaf }
        match taken.insertChildIndex parent node with
        | (fs', true) => (fs', true)
        | (fs', false) =>
          (fs'.setNode node { fs'.nodes node with
            used := false, isDir := false, parent := none, name := [] }, false)
  | _, _ => (fs, false)

def mkdir : CourseFs × Bool := fs.create path true

/-- Takes a node out of its directory and gives its slot back. -/
def removeNode (node : CourseFsNodeIndex) : CourseFs :=
  let removed := fs.removeChildIndex (fs.nodes node).parent node
  removed.setNode node { removed.nodes node with used := false }

def rmdir : CourseFs × Bool :=
  match (fs.resolvePath path).node with
  | none => (fs, false)
  | some node =>
    if node = 0 ∨ (fs.nodes node).isDir = false ∨ fs.nodeHasChildren node then (fs, false)
    else (fs.removeNode node, true)

def unlink : CourseFs × Bool :=
  match (fs.resolvePath path).node with
  | none => (fs, false)
  | some node =>
    if node = 0 ∨ (fs.nodes node).isDir then (fs, false) else (fs.removeNode node, true)

/-- The data area of a file after a write; a hole before it is zeroed. -/
def writtenData (data : ℕ → CourseChar) (size offset : ℕ) (src : List CourseChar) :
    ℕ → CourseChar :=
  copyBytes (if size < offset then zeroBytes data size (offset - size) else data) offset src

def write (offset : ℕ) (data : List CourseChar) :
    CourseFs × Bool :=
  match (fs.resolvePath path).node with
  | none => (fs, false)
  | some index =>
    let node := fs.nodes index
    if node.isDir = true ∨ courseFsMaxData < offset ∨ courseFsMaxData - offset < data.length then
      (fs, false)
    else
      ({ nodes := Function.update fs.nodes index
          { node with
            size := if node.size < offset + data.length then offset + data.length else node.size }
         storage := Function.update fs.storage index
          (writtenData (fs.storage index) node.size offset data) }, true)

def read (offset size : ℕ) : Option (List CourseChar) :=
  match (fs.resolvePath path).node with
  | none => none
  | some index =>
    let node := fs.nodes index
    if node.isDir = true ∨ node.size < offset ∨ node.size - offset < size then none
    else some (readBytes (fs.storage index) offset size)

def lookup : Bool := (fs.resolvePath path).node.isSome

def fileSize : Option ℕ :=
  match (fs.resolvePath path).node with
  | none => none
  | some index => if (fs.nodes index).isDir = true then none else some (fs.nodes index).size

end CourseFs

/-- The calls of the file system; `mkfs` may switch to any storage. -/
inductive CourseFsAction
  | mkfs (storage : CourseFsStorage)
  | create (path : List CourseChar) (directory : Bool)
  | mkdir (path : List CourseChar)
  | rmdir (path : List CourseChar)
  | unlink (path : List CourseChar)
  | write (path : List CourseChar) (offset : ℕ) (data : List CourseChar)
  | read (path : List CourseChar) (offset size : ℕ)
  | size (path : List CourseChar)
  | lookup (path : List CourseChar)

/-- What a call answers. -/
inductive CourseFsResult
  | none
  | done (ok : Bool)
  | bytes (out : Option (List CourseChar))
  | size (out : Option ℕ)

def CourseFs.perform (fs : CourseFs) : CourseFsAction → CourseFs × CourseFsResult
  | .mkfs storage => (init storage, .none)
  | .create path directory => ((fs.create path directory).1, .done (fs.create path directory).2)
  | .mkdir path => ((fs.mkdir path).1, .done (fs.mkdir path).2)
  | .rmdir path => ((fs.rmdir path).1, .done (fs.rmdir path).2)
  | .unlink path => ((fs.unlink path).1, .done (fs.unlink path).2)
  | .write path offset data =>
    ((fs.write path offset data).1, .done (fs.write path offset data).2)
  | .read path offset size => (fs, .bytes (fs.read path offset size))
  | .size path => (fs, .size (fs.fileSize path))
  | .lookup path => (fs, .done (fs.lookup path))

def CourseFs.run (fs : CourseFs) (actions : List CourseFsAction) : CourseFs :=
  actions.foldl (fun fs action => (fs.perform action).1) fs

def CourseFs.results (fs : CourseFs) : List CourseFsAction → List CourseFsResult
  | [] => []
  | action :: rest => (fs.perform action).2 :: (fs.perform action).1.results rest
end VisualCpu
