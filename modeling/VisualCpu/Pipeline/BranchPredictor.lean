import VisualCpu.Isa.Decode

/-!
# The branch predictor

A table of two-bit counters indexed by the low bits of the pc. The statistics of
`branch_predictor.cpp` are not modelled, nothing in the pipeline reads them back.
-/

namespace VisualCpu

structure PredictorQueryResult where
  valid : Bool := false
  predictedTaken : Bool := false
  predictedTarget : BitVec 64 := 0
deriving DecidableEq

structure PredictorUpdate where
  pc : BitVec 64
  raw : BitVec 32
  prediction : PredictorQueryResult
  taken : Bool
  target : BitVec 64

structure PredictorEntry where
  valid : Bool := false
  pc : BitVec 64 := 0
  counter : ℕ := 1
  target : BitVec 64 := 0
deriving DecidableEq

structure BranchPredictor where
  table : Fin 64 → PredictorEntry

namespace BranchPredictor

def reset : BranchPredictor := ⟨fun _ => {}⟩

variable (pc : BitVec 64)

def indexFor : Fin 64 := Fin.ofNat 64 (pc >>> 2).toNat

def predictsTaken (counter : ℕ) : Bool := decide (2 ≤ counter)

def saturatingIncrement (counter : ℕ) : ℕ := min 3 (counter + 1)

def saturatingDecrement (counter : ℕ) : ℕ := counter - 1

def fallthroughPc (raw : BitVec 32) : BitVec 64 :=
  pc + instructionSize (decode raw)

def computeTarget (raw : BitVec 32) : BitVec 64 := pc + (decode raw).imm

variable (predictor : BranchPredictor)

/-- The table entry of a branch, when it belongs to that branch. -/
def lookup : Option PredictorEntry :=
  let entry := predictor.table (indexFor pc)
  if entry.valid ∧ entry.pc = pc then some entry else none

def query (raw : BitVec 32) : PredictorQueryResult :=
  match (decode raw).opcode with
  | 0x63 =>
    match predictor.lookup pc with
    | some entry =>
      { valid := true
        predictedTaken := predictsTaken entry.counter
        predictedTarget :=
          if predictsTaken entry.counter then entry.target else fallthroughPc pc raw }
    | none => { valid := true, predictedTarget := fallthroughPc pc raw }
  | 0x6F => { valid := true, predictedTaken := true, predictedTarget := computeTarget pc raw }
  | _ => {}

/-- The entry of a branch after one more outcome. -/
def train (entry : PredictorEntry) (taken : Bool) (target : BitVec 64) : PredictorEntry :=
  if taken then
    { entry with
      counter := saturatingIncrement entry.counter
      target }
  else { entry with counter := saturatingDecrement entry.counter }

def update (u : PredictorUpdate) : BranchPredictor :=
  match (decode u.raw).opcode with
  | 0x63 =>
    let entry := (predictor.lookup u.pc).getD ⟨true, u.pc, 1, u.target⟩
    ⟨Function.update predictor.table (indexFor u.pc) (train entry u.taken u.target)⟩
  | _ => predictor

end BranchPredictor

end VisualCpu
