import EdgecaseForge.FlashCartState
import EdgecaseForge.TransitionRuns

namespace EdgecaseForge.FlashCart

inductive Request
  | getProduct (productId : Int)
  | createOrder (payload : OrderRequest) (authorization idempotencyKey : Option String)
  | getOrder (orderId : String) (authorization : Option String)
  | cancelOrder (orderId : String) (authorization : Option String)
  | paymentWebhook (rawBody : List UInt8) (xSignature : Option String)

inductive Reply
  | product (view : ProductView)
  | order (body : PublicOrder)
  | webhook (status : String)
  deriving DecidableEq

/-- The locals of a `create_order` call that has fetched its identity lock. -/
structure Checkout where
  user : String
  idempotencyKey : String
  payload : OrderRequest
  lock : Nat

def Checkout.identity (c : Checkout) : Identity :=
  (c.user, c.idempotencyKey)

/-- The next atomic step of `_create_order_core`. -/
inductive CorePc
  | lookup
  | replay (orderId : String)
  | replayPending (orderId : String)
  | reserve
  | publish
  | record (orderId : String)
  | charge (orderId : String)
  | storeCharge (orderId chargeId : String)
  | storePaid (orderId : String)
  | reply (orderId : String)
  | storeFailed (orderId : String)
  | storeFailure (orderId : String)
  | release (orderId : String)
  deriving DecidableEq

inductive Pc
  | start
  | acquire (c : Checkout)
  | core (c : Checkout) (next : CorePc)
  | finished (result : Except HTTPException Reply)

structure Thread where
  request : Request
  pc : Pc

structure System where
  store : StoreState
  threads : List Thread

def buildOrder (s : StoreState) (c : Checkout) (orderId : String) : Order where
  id := orderId
  owner := c.user
  productId := c.payload.productId
  quantity := c.payload.quantity
  total := s.price * c.payload.quantity
  chargeId := none
  status := .paymentPending
  requestFingerprint := requestFingerprint c.payload
  paymentKey := "checkout:" ++ orderId
  paymentToken := c.payload.paymentToken
  inventoryReleased := false
  failureStatus := none

def fail (statusCode : Nat) (detail : String) : Pc :=
  .finished (.error ⟨statusCode, detail⟩)

def answer (order : Order) : Pc :=
  .finished (.ok (.order (publicOrder order)))

/-- One step of `_create_order_core`: a section under one lock, or an access outside all locks.
`hex` is what `uuid4` yields; a step that would reuse an order id is not taken. -/
def coreStep (s : StoreState) (hex : String) (c : Checkout) : CorePc → Option (StoreState × Pc)
  | .lookup =>
    match (s.idempotency.get? c.identity).filter (· ≠ "") with
    | some orderId => some (s, .core c (.replay orderId))
    | none =>
      if c.payload.productId ≠ 1 then some (s, fail 404 "Product not found")
      else some (s, .core c .reserve)
  | .replay orderId =>
    match s.orders.get? orderId with
    | none => some (s, fail 500 "Internal Server Error")
    | some order =>
      if order.requestFingerprint ≠ requestFingerprint c.payload then
        some (s, fail 409 "Idempotency-Key payload mismatch")
      else if order.status = .paymentFailed then
        some (s, fail (order.failureStatus.getD 500) "Payment declined")
      else some (s, .core c (.replayPending orderId))
  | .replayPending orderId => do
    let order ← s.orders.get? orderId
    if order.status ≠ .paymentPending then some (s, answer order)
    else some (s, .core c (.charge orderId))
  | .reserve =>
    match reserveInventory s c.payload.quantity with
    | .error e => some (s, .finished (.error e))
    | .ok reserved => some (reserved, .core c .publish)
  | .publish =>
    let orderId := "ord_" ++ hex
    if (s.orders.get? orderId).isSome then none
    else
      some ({ s with
        orders := s.orders.set orderId (buildOrder s c orderId)
        creations := s.creations ++ [(c.identity, orderId)] }, .core c (.record orderId))
  | .record orderId =>
    some ({ s with idempotency := s.idempotency.set c.identity orderId },
      .core c (.charge orderId))
  | .charge orderId => do
    let order ← s.orders.get? orderId
    match s.payment.charge order.paymentKey order.total order.paymentToken with
    | (.ok charge, stub) => some ({ s with payment := stub }, .core c (.storeCharge orderId charge.id))
    | (.error e, stub) =>
      if e.statusCode = 402 then some ({ s with payment := stub }, .core c (.storeFailed orderId))
      else some ({ s with payment := stub }, .finished (.error e))
  | .storeCharge orderId chargeId =>
    some (updateOrder s orderId (Order.setChargeId chargeId), .core c (.storePaid orderId))
  | .storePaid orderId =>
    some (updateOrder s orderId (Order.setStatus .paid), .core c (.reply orderId))
  | .reply orderId => do
    let order ← s.orders.get? orderId
    some (s, answer order)
  | .storeFailed orderId =>
    some (updateOrder s orderId (Order.setStatus .paymentFailed), .core c (.storeFailure orderId))
  | .storeFailure orderId =>
    some (updateOrder s orderId (Order.setFailureStatus 402), .core c (.release orderId))
  | .release orderId =>
    some (releaseInventoryOnce s orderId, fail 402 "Payment declined")

def startCreate (s : StoreState) (payload : OrderRequest)
    (authorization idempotencyKey : Option String) : StoreState × Pc :=
  match userFromHeader authorization with
  | .error e => (s, .finished (.error e))
  | .ok user =>
    match idempotencyKey.filter (· ≠ "") with
    | none => (s, fail 400 "Idempotency-Key is required")
    | some key =>
      let (lock, s') := identityLock s (user, key)
      (s', .acquire ⟨user, key, payload, lock⟩)

def startStep (codec : WebhookCodec) (s : StoreState) : Request → StoreState × Pc
  | .getProduct productId => (s, .finished ((getProduct s productId).map .product))
  | .createOrder payload authorization idempotencyKey =>
    startCreate s payload authorization idempotencyKey
  | .getOrder orderId authorization =>
    (s, .finished ((getOrder s orderId authorization).map .order))
  | .cancelOrder orderId authorization =>
    let (result, s') := cancelOrder s orderId authorization
    (s', .finished (result.map .order))
  | .paymentWebhook rawBody xSignature =>
    let (result, s') := paymentWebhook codec s rawBody xSignature
    (s', .finished (result.map .webhook))

def Thread.checkout? (t : Thread) : Option Checkout :=
  match t.pc with
  | .core c _ => some c
  | _ => none

def System.lockHeld (sys : System) (lock : Nat) : Bool :=
  sys.threads.any fun t => t.checkout?.any fun c => c.lock == lock

/-- One step of one request; a finished request and one whose lock is held take none. -/
def threadStep (codec : WebhookCodec) (sys : System) (hex : String) (t : Thread) :
    Option (StoreState × Pc) :=
  match t.pc with
  | .start => some (startStep codec sys.store t.request)
  | .acquire c => if sys.lockHeld c.lock then none else some (sys.store, .core c .lookup)
  | .core c next => coreStep sys.store hex c next
  | .finished _ => none

inductive Action
  | arrive (request : Request)
  | advance (thread : Nat) (hex : String)

def systemStep (codec : WebhookCodec) (sys : System) : Action → Option System
  | .arrive request => some { sys with threads := sys.threads ++ [⟨request, .start⟩] }
  | .advance i hex => do
    let t ← sys.threads[i]?
    let (store, pc) ← threadStep codec sys hex t
    some ⟨store, sys.threads.set i { t with pc := pc }⟩

/-- Requests that arrive at any time and take their atomic steps in any order. -/
def machine (codec : WebhookCodec) : Transition.Machine System Action where
  init sys := sys = ⟨resetState, []⟩
  step := systemStep codec

end EdgecaseForge.FlashCart
