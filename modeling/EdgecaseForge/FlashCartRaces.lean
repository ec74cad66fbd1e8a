import EdgecaseForge.FlashCartCheckouts
import EdgecaseForge.RefinedRuns

namespace EdgecaseForge.FlashCart

/-- Where a request of M01 is. Its reservation has come to the subtraction (`take`), or has loaded the stock
for it (`put`), without the lock that the source holds from the comparison on. -/
inductive RacePc
  | source (pc : Pc)
  | take (c : Checkout)
  | put (c : Checkout) (seen : Int)

structure Racer where
  request : Request
  pc : RacePc

structure RaceSystem where
  store : StoreState
  racers : List Racer

/-- The request as the source would have it: a reservation that has not been written has not begun. -/
def RacePc.settled : RacePc → Pc
  | .source pc => pc
  | .take c => .core c .reserve
  | .put c _ => .core c .reserve

def Racer.settled (r : Racer) : Thread :=
  ⟨r.request, r.pc.settled⟩

def RaceSystem.settled (sys : RaceSystem) : System :=
  ⟨sys.store, sys.racers.map Racer.settled⟩

/-- One step of `_reserve_inventory` as M01 has it. -/
def raceReserve (s : StoreState) (c : Checkout) : StoreState × RacePc :=
  if s.stock < c.payload.quantity then (s, .source (fail 409 "Out of stock")) else (s, .take c)

def raceStep (codec : WebhookCodec) (sys : RaceSystem) (hex : String) (r : Racer) :
    Option (StoreState × RacePc) :=
  match r.pc with
  | .source (.core c .reserve) => some (raceReserve sys.store c)
  | .source pc => (threadStep codec sys.settled hex ⟨r.request, pc⟩).map fun (s, pc) => (s, .source pc)
  | .take c => some (sys.store, .put c sys.store.stock)
  | .put c seen => some ({ sys.store with stock := seen - c.payload.quantity }, .source (.core c .publish))

def raceSystemStep (codec : WebhookCodec) (sys : RaceSystem) : Action → Option RaceSystem
  | .arrive request => some { sys with racers := sys.racers ++ [⟨request, .source .start⟩] }
  | .advance i hex => do
    let r ← sys.racers[i]?
    let (store, pc) ← raceStep codec sys hex r
    some ⟨store, sys.racers.set i { r with pc := pc }⟩

/-- The build M01 under requests that arrive at any time and take their steps in any order. -/
def raceMachine (codec : WebhookCodec) : Transition.Machine RaceSystem Action where
  init sys := sys = ⟨resetState, []⟩
  step := raceSystemStep codec

/-- No webhook comes in. -/
def silentCodec : WebhookCodec :=
  ⟨fun _ => "", fun _ => none⟩

end EdgecaseForge.FlashCart
