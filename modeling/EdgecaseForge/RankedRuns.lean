import EdgecaseForge.TransitionRuns
import Mathlib.Algebra.BigOperators.Group.List.Basic
import Mathlib.Algebra.GroupWithZero.Nat
import Mathlib.Algebra.Order.Group.Nat

namespace Transition.Machine

variable {σ α : Type*} {m : Machine σ α} {s t : σ}

end Transition.Machine
