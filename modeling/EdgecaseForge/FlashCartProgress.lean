import EdgecaseForge.FlashCartCheckouts
import EdgecaseForge.RankedRuns
import Mathlib.Data.Fintype.EquivFin
import Mathlib.Data.Set.Finite.Basic

namespace EdgecaseForge.FlashCart

/-- How many of its own steps a `_create_order_core` has before it at most. -/
def CorePc.remaining : CorePc → Nat
  | .lookup => 8
  | .reserve => 7
  | .replay _ => 6
  | .publish => 6
  | .replayPending _ => 5
  | .record _ => 5
  | .charge _ => 4
  | .storeCharge _ _ => 3
  | .storeFailed _ => 3
  | .storePaid _ => 2
  | .storeFailure _ => 2
  | .reply _ => 1
  | .release _ => 1

def Pc.remaining : Pc → Nat
  | .start => 10
  | .acquire _ => 9
  | .core _ next => next.remaining
  | .finished _ => 0

def System.remaining (sys : System) : Nat :=
  (sys.threads.map fun t => t.pc.remaining).sum

def System.answered (sys : System) : Prop :=
  ∀ t ∈ sys.threads, ∃ result, t.pc = .finished result

/-- How many steps of the request at `i` an action is. -/
def Action.stepsOf (i : Nat) : Action → Nat
  | .arrive _ => 0
  | .advance j _ => if j = i then 1 else 0

end EdgecaseForge.FlashCart
