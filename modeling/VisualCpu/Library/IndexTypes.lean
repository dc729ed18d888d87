import Mathlib.Algebra.Order.Ring.Nat

/-!
# Index types

The sizes of the index types are not zero. A literal of such a type finds its instance here,
whatever else its module imports.
-/

namespace VisualCpu

instance neZero_four : NeZero 4 := ⟨by decide⟩

instance neZero_eleven : NeZero 11 := ⟨by decide⟩

instance neZero_sixteen : NeZero 16 := ⟨by decide⟩

instance neZero_thirtyTwo : NeZero 32 := ⟨by decide⟩

instance neZero_oneSixty : NeZero 160 := ⟨by decide⟩

instance neZero_twoFiftySix : NeZero 256 := ⟨by decide⟩

instance lawfulBEq_halfWord : LawfulBEq (BitVec 16) := inferInstance

end VisualCpu
