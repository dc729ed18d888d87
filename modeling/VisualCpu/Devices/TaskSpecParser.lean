import VisualCpu.Devices.TaskSpecLowering

/-!
# Task specs

`parse_task_spec` on the value of a JSON document: the specs of a matrix product and of a
small convolution network, whose inputs are matrices of int8 values. The kinds of specs with
floats are a parameter.
-/

namespace VisualCpu.TaskSpecLowering

open Checks

/-- A value of `json.loads`. A float is its literal, an object the list of its pairs. -/
inductive Json where
  | null
  | bool (value : Bool)
  | int (value : ℤ)
  | float (literal : String)
  | string (value : String)
  | array (items : List Json)
  | object (pairs : List (String × Json))

/-- How the script ends early: `fail` with its message, or an exception that nothing catches. -/
inductive Stop where
  | exit (message : String)
  | encode (error : EncodeError)
  | indexError
deriving DecidableEq

/-- The pairs of an object. -/
abbrev Spec := List (String × Json)

def Spec.getD (spec : Spec) (key : String) (default : Json) : Json := (spec.lookup key).getD default

/-- A missing key reads as `None`, as an explicit null does. -/
def Spec.get (spec : Spec) (key : String) : Json := spec.getD key .null

def checkKeys (seen : List String) : List String → Except Stop Unit
  | [] => .ok ()
  | key :: rest => do
    check (key ∉ seen) (.exit ("duplicate task spec key: " ++ key))
    checkKeys (key :: seen) rest

def parseTaskSpecPairs (pairs : Spec) : Except Stop Unit := checkKeys [] (pairs.map (·.1))

mutual

/-- The hook of `json.loads` on every object, the inner ones first. -/
def checkObjects : Json → Except Stop Unit
  | .array items => checkItems items
  | .object pairs => do
    checkValues pairs
    parseTaskSpecPairs pairs
  | _ => .ok ()

def checkItems : List Json → Except Stop Unit
  | [] => .ok ()
  | item :: rest => do
    checkObjects item
    checkItems rest

def checkValues : List (String × Json) → Except Stop Unit
  | [] => .ok ()
  | pair :: rest => do
    checkObjects pair.2
    checkValues rest

end

variable (value : Json)

def requireJsonObject (label : String) : Except Stop Spec :=
  match value with
  | .object pairs => .ok pairs
  | _ => .error (.exit (label ++ " must be a JSON object"))

def requireAllowedKeys (spec : Spec) (allowedKeys : List String) (label : String) :
    Except Stop Unit :=
  checkAll (fun pair => check (pair.1 ∈ allowedKeys)
    (.exit (label ++ " has unexpected top-level key: " ++ pair.1))) spec

def requireString (label : String) : Except Stop String :=
  match value with
  | .string text => do
    check (text ≠ "") (.exit (label ++ " must be a non-empty string"))
    .ok text
  | _ => .error (.exit (label ++ " must be a non-empty string"))

/-- `pathlib.PurePath(text).name`: the last part that is neither empty nor a dot. -/
def pathName (text : String) : String :=
  let parts := (text.toList.splitOn '/').filter fun part => part ≠ [] && part ≠ ['.']
  String.ofList (parts.getLast?.getD [])

def unsafeCharacter (ch : Char) : Bool :=
  ch == '/' || ch == '\\' || decide (ch.toNat < 0x20) || ch.toNat == 0x7f

def requireSafeBasename (label : String) : Except Stop String := do
  let parsed ← requireString value label
  check (pathName parsed = parsed ∧ parsed ≠ "." ∧ parsed ≠ ".." ∧
      parsed.toList.any unsafeCharacter = false)
    (.exit (label ++ " must be a safe basename"))
  .ok parsed

def requireInt (label : String) : Except Stop ℤ :=
  match value with
  | .int value => .ok value
  | _ => .error (.exit (label ++ " must be an integer"))

def requireUint32 (label : String) : Except Stop ℤ := do
  let parsed ← requireInt value label
  check (0 ≤ parsed ∧ parsed ≤ 0xffffffff) (.exit (label ++ " must fit in uint32"))
  .ok parsed

def requireUint32Nonzero (label : String) : Except Stop ℤ := do
  let parsed ← requireInt value label
  check (1 ≤ parsed ∧ parsed ≤ 0xffffffff)
    (.exit (label ++ " must be between 1 and 4294967295"))
  .ok parsed

def rowLabel (label : String) (row : ℕ) : String := label ++ " row " ++ toString row

def requireI8 (label : String) (row col : ℕ) (item : Json) : Except Stop ℤ :=
  let error := Stop.exit (rowLabel label row ++ " column " ++ toString col ++ " must be an int8 value")
  match item with
  | .int value => do
    check (-128 ≤ value ∧ value ≤ 127) error
    .ok value
  | _ => .error error

def requireI8Items (label : String) (row : ℕ) : ℕ → List Json → Except Stop (List ℤ)
  | _, [] => .ok []
  | col, item :: rest => do
    let value ← requireI8 label row col item
    let values ← requireI8Items label row (col + 1) rest
    .ok (value :: values)

def requireI8Rows (label : String) (expectedCols : ℕ) :
    ℕ → List Json → Except Stop (List (List ℤ))
  | _, [] => .ok []
  | row, .array items :: rest => do
    check (items.length = expectedCols)
      (.exit (rowLabel label row ++ " must have exactly " ++ toString expectedCols ++ " columns"))
    let values ← requireI8Items label row 0 items
    let rows ← requireI8Rows label expectedCols (row + 1) rest
    .ok (values :: rows)
  | row, _ :: _ =>
    .error (.exit
      (rowLabel label row ++ " must have exactly " ++ toString expectedCols ++ " columns"))

/-- What `require_i8_matrix` and `require_i8_square_matrix` share. -/
def requireI8Table (label : String) (expectedCols : List Json → ℕ)
    (minRows maxRows : ℕ) : Except Stop (List (List ℤ)) :=
  match value with
  | .array items => do
    check (minRows ≤ items.length ∧ items.length ≤ maxRows)
      (.exit (label ++ " row count must be between " ++ toString minRows ++ " and " ++
        toString maxRows))
    requireI8Rows label (expectedCols items) 0 items
  | _ => .error (.exit (label ++ " must be a 2D array"))

def requireI8Matrix (label : String) (expectedCols minRows maxRows : ℕ) :
    Except Stop (List (List ℤ)) :=
  requireI8Table value label (fun _ => expectedCols) minRows maxRows

def requireI8SquareMatrix (label : String) (minSize maxSize : ℕ) :
    Except Stop (List (List ℤ)) :=
  requireI8Table value label List.length minSize maxSize

/-- The fields that `GemmTaskSpec` and `CnnTaskSpec` have in common. -/
structure MatrixTaskSpec where
  name : String
  (sourceTag maxTicks : ℤ)
  (input0Rows input1Rows : List (List ℤ))
deriving DecidableEq

/-- A parsed spec; those with floats are of a type of their own. -/
inductive TaskSpec (φ : Type) where
  | gemm (spec : MatrixTaskSpec)
  | cnn (spec : MatrixTaskSpec)
  | floating (spec : φ)
deriving DecidableEq

/-- The branches for the kinds of specs with floats. -/
structure FloatKinds (φ : Type) where
  tinyModel : Spec → Except Stop φ
  tinyAttention : Spec → Except Stop φ

/-- The branch of a kind with two matrices. -/
def parseMatrixSpec (spec : Spec) (kind : String) (sourceTag : ℤ)
    (input0 input1 : Json → String → Except Stop (List (List ℤ))) : Except Stop MatrixTaskSpec := do
  requireAllowedKeys spec
    ["format", "task_kind", "name", "source_tag", "max_ticks", "input0", "input1"]
    (kind ++ " task spec")
  let name ← requireSafeBasename (spec.get "name") (kind ++ " name")
  let sourceTag ← requireUint32 (spec.getD "source_tag" (.int sourceTag)) (kind ++ " source_tag")
  let maxTicks ← requireUint32Nonzero (spec.getD "max_ticks" (.int 128)) (kind ++ " max_ticks")
  let input0Rows ← input0 (spec.get "input0") (kind ++ " input0")
  let input1Rows ← input1 (spec.get "input1") (kind ++ " input1")
  .ok { name, sourceTag, maxTicks, input0Rows, input1Rows }

def parseGemmSpec (spec : Spec) : Except Stop MatrixTaskSpec :=
  parseMatrixSpec spec "bounded_dynamic_gemm_v1" 73
    (fun value label => requireI8Matrix value label 8 1 2)
    (fun value label => requireI8Matrix value label 4 8 8)

def parseCnnSpec (spec : Spec) : Except Stop MatrixTaskSpec :=
  parseMatrixSpec spec "bounded_dynamic_cnn_v1" 79
    (fun value label => requireI8SquareMatrix value label 3 4)
    (fun value label => requireI8Matrix value label 2 2 2)

variable {φ : Type}

/-- `parse_task_spec`, after the file is read and decoded. -/
def parseTaskSpec (kinds : FloatKinds φ) (payload : Json) : Except Stop (TaskSpec φ) := do
  checkObjects payload
  let spec ← requireJsonObject payload "task spec"
  let formatName ← requireString (spec.get "format") "task spec format"
  check (formatName = "ai_task_spec_v1") (.exit "task spec format must be ai_task_spec_v1")
  let taskKind ← requireString (spec.get "task_kind") "task spec task_kind"
  if taskKind = "bounded_dynamic_gemm_v1" then (parseGemmSpec spec).map .gemm
  else if taskKind = "bounded_dynamic_cnn_v1" then (parseCnnSpec spec).map .cnn
  else if taskKind = "bounded_dynamic_tiny_model_v1" then (kinds.tinyModel spec).map .floating
  else if taskKind = "static_tiny_attention_v1" then (kinds.tinyAttention spec).map .floating
  else .error (.exit ("unsupported task spec task_kind: " ++ taskKind))

/-- A matrix of int8 values with rows of one length. -/
structure IsI8Matrix (cols : ℕ) (rows : List (List ℤ)) : Prop where
  columns : ∀ row ∈ rows, row.length = cols
  int8 : ∀ row ∈ rows, ∀ value ∈ row, -128 ≤ value ∧ value ≤ 127

variable {label : String} {rows : List (List ℤ)} {items : List Json} {row : ℕ}

theorem requireI8_eq_ok {row col : ℕ} {item : Json} {value : ℤ}
    (h : requireI8 label row col item = .ok value) : -128 ≤ value ∧ value ≤ 127 := by
  unfold requireI8 at h
  cases item with
  | int found =>
    simp only [seq_eq_ok, check_eq_ok] at h
    obtain ⟨hrange, hvalue⟩ := h
    obtain rfl := Except.ok.inj hvalue
    exact hrange
  | null | bool _ | float _ | string _ | array _ | object _ => cases h

theorem requireI8Items_eq_ok {col : ℕ}
    {values : List ℤ} (h : requireI8Items label row col items = .ok values) :
    values.length = items.length ∧ ∀ value ∈ values, -128 ≤ value ∧ value ≤ 127 := by
  induction items generalizing col values with
  | nil =>
    obtain rfl := Except.ok.inj h
    exact ⟨rfl, fun value hvalue => (by cases hvalue)⟩
  | cons item rest ih =>
    unfold requireI8Items at h
    simp only [bind_eq_ok] at h
    obtain ⟨value, hvalue, values', hrest, hok⟩ := h
    obtain rfl := Except.ok.inj hok
    obtain ⟨hlength, hrange⟩ := ih hrest
    constructor
    · rw [List.length_cons, List.length_cons, hlength]
    intro found hfound
    rcases List.mem_cons.1 hfound with rfl | hin
    · exact requireI8_eq_ok hvalue
    · exact hrange found hin

theorem requireI8Rows_eq_ok {cols : ℕ} (h : requireI8Rows label cols row items = .ok rows) :
    rows.length = items.length ∧ IsI8Matrix cols rows := by
  induction items generalizing row rows with
  | nil =>
    obtain rfl := Except.ok.inj h
    exact ⟨rfl, fun _ hrow => (by cases hrow), fun _ hrow => (by cases hrow)⟩
  | cons item rest ih =>
    cases item with
    | array items =>
      unfold requireI8Rows at h
      simp only [check_eq_ok, bind_eq_ok] at h
      obtain ⟨-, hcols, values, hvalues, rows', hrest, hok⟩ := h
      obtain rfl := Except.ok.inj hok
      obtain ⟨hlength, hcolumns, hint8⟩ := ih hrest
      obtain ⟨hwidth, hrange⟩ := requireI8Items_eq_ok hvalues
      refine ⟨by rw [List.length_cons, List.length_cons, hlength], ?_, ?_⟩
      · intro found hfound
        rcases List.mem_cons.1 hfound with rfl | hin
        · rw [hwidth, hcols]
        · exact hcolumns found hin
      · intro found hfound
        rcases List.mem_cons.1 hfound with rfl | hin
        · exact hrange
        · exact hint8 found hin
    | null | bool _ | int _ | float _ | string _ | object _ => cases h

theorem requireI8Table_eq_ok {value : Json} {expectedCols : List Json → ℕ}
    {minRows maxRows : ℕ} (h : requireI8Table value label expectedCols minRows maxRows = .ok rows) :
    ∃ items : List Json, rows.length = items.length ∧ minRows ≤ rows.length ∧
      rows.length ≤ maxRows ∧ IsI8Matrix (expectedCols items) rows := by
  unfold requireI8Table at h
  cases value with
  | array items =>
    simp only [seq_eq_ok, check_eq_ok] at h
    obtain ⟨⟨hmin, hmax⟩, hrows⟩ := h
    obtain ⟨hlength, hmatrix⟩ := requireI8Rows_eq_ok hrows
    exact ⟨items, hlength, hlength ▸ hmin, hlength ▸ hmax, hmatrix⟩
  | null | bool _ | int _ | float _ | string _ | object _ => cases h

/-- The matrices of a matrix product. -/
structure GemmShaped (spec : MatrixTaskSpec) : Prop where
  rows : spec.input0Rows.length = 1 ∨ spec.input0Rows.length = 2
  depth : spec.input1Rows.length = 8
  input0 : IsI8Matrix 8 spec.input0Rows
  input1 : IsI8Matrix 4 spec.input1Rows

/-- The matrices of a convolution network. -/
structure CnnShaped (spec : MatrixTaskSpec) : Prop where
  size : spec.input0Rows.length = 3 ∨ spec.input0Rows.length = 4
  kernelSize : spec.input1Rows.length = 2
  input0 : IsI8Matrix spec.input0Rows.length spec.input0Rows
  input1 : IsI8Matrix 2 spec.input1Rows

variable {parsed : MatrixTaskSpec} {spec : Spec}

theorem parseMatrixSpec_eq_ok {kind : String} {sourceTag : ℤ}
    {input0 input1 : Json → String → Except Stop (List (List ℤ))}
    (h : parseMatrixSpec spec kind sourceTag input0 input1 = .ok parsed) :
    (∃ value label, input0 value label = .ok parsed.input0Rows) ∧
      ∃ value label, input1 value label = .ok parsed.input1Rows := by
  unfold parseMatrixSpec at h
  simp only [bind_eq_ok] at h
  obtain ⟨-, -, name, -, tag, -, ticks, -, rows₀, hrows₀, rows₁, hrows₁, hok⟩ := h
  obtain rfl := Except.ok.inj hok
  exact ⟨⟨_, _, hrows₀⟩, _, _, hrows₁⟩

theorem parseGemmSpec_shaped
    (h : parseGemmSpec spec = .ok parsed) : GemmShaped parsed := by
  obtain ⟨⟨_, _, hrows₀⟩, _, _, hrows₁⟩ := parseMatrixSpec_eq_ok h
  obtain ⟨_, -, hmin₀, hmax₀, hmatrix₀⟩ := requireI8Table_eq_ok hrows₀
  obtain ⟨_, -, hmin₁, hmax₁, hmatrix₁⟩ := requireI8Table_eq_ok hrows₁
  exact ⟨by omega, by omega, hmatrix₀, hmatrix₁⟩

theorem parseCnnSpec_shaped
    (h : parseCnnSpec spec = .ok parsed) : CnnShaped parsed := by
  obtain ⟨⟨_, _, hrows₀⟩, _, _, hrows₁⟩ := parseMatrixSpec_eq_ok h
  obtain ⟨items, hlength, hmin₀, hmax₀, hmatrix₀⟩ := requireI8Table_eq_ok hrows₀
  obtain ⟨_, -, hmin₁, hmax₁, hmatrix₁⟩ := requireI8Table_eq_ok hrows₁
  exact ⟨by omega, by omega, hlength ▸ hmatrix₀, hmatrix₁⟩

omit φ in
theorem map_eq_ok {α β : Type} {x : Except Stop α} {f : α → β} {b : β} :
    x.map f = .ok b ↔ ∃ a, x = .ok a ∧ f a = b := by
  cases x <;> simp [Except.map]

theorem parseTaskSpec_shaped {kinds : FloatKinds φ} {payload : Json} :
    (parseTaskSpec kinds payload = .ok (.gemm parsed) → GemmShaped parsed) ∧
      (parseTaskSpec kinds payload = .ok (.cnn parsed) → CnnShaped parsed) := by
  have hbranches : ∀ {result : TaskSpec φ}, parseTaskSpec kinds payload = .ok result →
      ∃ spec, (∃ parsed, parseGemmSpec spec = .ok parsed ∧ .gemm parsed = result) ∨
        (∃ parsed, parseCnnSpec spec = .ok parsed ∧ .cnn parsed = result) ∨
        ∃ parsed, .floating parsed = result := by
    intro result h
    unfold parseTaskSpec at h
    simp only [bind_eq_ok] at h
    obtain ⟨-, -, spec, -, _, -, -, -, kind, -, hkind⟩ := h
    refine ⟨spec, ?_⟩
    split_ifs at hkind
    · exact .inl (map_eq_ok.1 hkind)
    · exact .inr (.inl (map_eq_ok.1 hkind))
    · obtain ⟨parsed, -, heq⟩ := map_eq_ok.1 hkind
      exact .inr (.inr ⟨parsed, heq⟩)
    · obtain ⟨parsed, -, heq⟩ := map_eq_ok.1 hkind
      exact .inr (.inr ⟨parsed, heq⟩)
  constructor
  · intro h
    obtain ⟨spec, ⟨found, hfound, heq⟩ | ⟨_, -, heq⟩ | ⟨_, heq⟩⟩ := hbranches h
    · obtain rfl := TaskSpec.gemm.inj heq
      exact parseGemmSpec_shaped hfound
    · cases heq
    · cases heq
  · intro h
    obtain ⟨spec, ⟨_, -, heq⟩ | ⟨found, hfound, heq⟩ | ⟨_, heq⟩⟩ := hbranches h
    · cases heq
    · obtain rfl := TaskSpec.cnn.inj heq
      exact parseCnnSpec_shaped hfound
    · cases heq

end VisualCpu.TaskSpecLowering
