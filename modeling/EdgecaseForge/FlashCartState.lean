import EdgecaseForge.DictCore

namespace EdgecaseForge.FlashCart

def initialStock : Int := 5

def catalogPrice : Int := 1000

inductive OrderStatus
  | paymentPending
  | paymentFailed
  | paid
  | cancelled
  deriving DecidableEq

/-- A request body that passed its field checks. -/
structure OrderRequest where
  productId : Int
  quantity : Int
  quotedTotal : Option Int
  paymentToken : String
  quantity_gt : 0 < quantity
  quantity_le : quantity ≤ 5

inductive EventType
  | paymentSucceeded
  | paymentFailed
  deriving DecidableEq

structure WebhookPayload where
  eventId : String
  eventType : EventType
  orderId : String

structure HTTPException where
  statusCode : Nat
  detail : String
  deriving DecidableEq

structure Charge where
  id : String
  amount : Int
  deriving DecidableEq

structure PaymentStub where
  charges : Dict String Charge
  timeoutKeys : List String

abbrev Identity := String × String

structure RequestFingerprint where
  productId : Int
  quantity : Int
  quotedTotal : Option Int
  paymentToken : String
  deriving DecidableEq

/-- The entries of an order that are written once, when it is built. -/
structure OrderTerms where
  id : String
  owner : String
  productId : Int
  quantity : Int
  total : Int
  requestFingerprint : RequestFingerprint
  paymentKey : String
  paymentToken : String

structure Order extends OrderTerms where
  chargeId : Option String
  status : OrderStatus
  inventoryReleased : Bool
  failureStatus : Option Nat

def Order.setStatus (status : OrderStatus) (o : Order) : Order :=
  { o with status := status }

def Order.setChargeId (chargeId : String) (o : Order) : Order :=
  { o with chargeId := some chargeId }

def Order.setFailureStatus (failureStatus : Nat) (o : Order) : Order :=
  { o with failureStatus := some failureStatus }

def Order.markReleased (o : Order) : Order :=
  { o with inventoryReleased := true }

structure PublicOrder where
  id : String
  owner : String
  productId : Int
  quantity : Int
  total : Int
  chargeId : Option String
  status : OrderStatus
  deriving DecidableEq

/-- The process state. `creations` and `releases` are history: which identity an order was
published for, and which orders returned their quantity. No handler reads them. -/
structure StoreState where
  stock : Int
  price : Int
  orders : Dict String Order
  idempotency : Dict Identity String
  processedEvents : List String
  webhookEffects : Dict String Nat
  payment : PaymentStub
  idempotencyLocks : Dict Identity Nat
  creations : List (Identity × String)
  releases : List String

/-- The state `reset_state` leaves. -/
def resetState : StoreState where
  stock := initialStock
  price := catalogPrice
  orders := .empty
  idempotency := .empty
  processedEvents := []
  webhookEffects := .empty
  payment := ⟨.empty, []⟩
  idempotencyLocks := .empty
  creations := []
  releases := []

def PaymentStub.charge (stub : PaymentStub) (operationKey : String) (amount : Int)
    (token : String) : Except HTTPException Charge × PaymentStub :=
  match stub.charges.get? operationKey with
  | some existing => (.ok existing, stub)
  | none =>
    if token = "decline" then (.error ⟨402, "Payment declined"⟩, stub)
    else
      let charge : Charge := ⟨"ch_" ++ toString (stub.charges.size + 1), amount⟩
      let charged := { stub with charges := stub.charges.set operationKey charge }
      if token = "timeout-once" ∧ operationKey ∉ stub.timeoutKeys then
        (.error ⟨504, "Payment provider timed out"⟩,
          { charged with timeoutKeys := stub.timeoutKeys ++ [operationKey] })
      else (.ok charge, charged)

def userFromHeader (authorization : Option String) : Except HTTPException String :=
  match authorization with
  | none => .error ⟨401, "Missing bearer token"⟩
  | some header =>
    if "Bearer ".toList.isPrefixOf header.toList then
      let token := String.ofList (header.toList.drop "Bearer ".length)
      if token ∈ ["buyer-a", "buyer-b", "admin"] then .ok token
      else .error ⟨401, "Invalid bearer token"⟩
    else .error ⟨401, "Missing bearer token"⟩

def requestFingerprint (payload : OrderRequest) : RequestFingerprint :=
  ⟨payload.productId, payload.quantity, payload.quotedTotal, payload.paymentToken⟩

/-- `setdefault` of a new lock: the lock object of an identity and the table holding it. -/
def identityLock (s : StoreState) (identity : Identity) : Nat × StoreState :=
  match s.idempotencyLocks.get? identity with
  | some lock => (lock, s)
  | none =>
    let lock := s.idempotencyLocks.size
    (lock, { s with idempotencyLocks := s.idempotencyLocks.set identity lock })

def reserveInventory (s : StoreState) (quantity : Int) : Except HTTPException StoreState :=
  if s.stock < quantity then .error ⟨409, "Out of stock"⟩
  else .ok { s with stock := s.stock - quantity }

/-- An assignment to entries of one order, which every reference to the order sees. -/
def updateOrder (s : StoreState) (orderId : String) (f : Order → Order) : StoreState :=
  match s.orders.get? orderId with
  | none => s
  | some order => { s with orders := s.orders.set orderId (f order) }

def releaseInventoryOnce (s : StoreState) (orderId : String) : StoreState :=
  match s.orders.get? orderId with
  | none => s
  | some order =>
    if order.inventoryReleased then s
    else
      { s with
        stock := s.stock + order.quantity
        orders := s.orders.set orderId order.markReleased
        releases := s.releases ++ [orderId] }

def publicOrder (order : Order) : PublicOrder :=
  ⟨order.id, order.owner, order.productId, order.quantity, order.total, order.chargeId,
    order.status⟩

structure ProductView where
  id : Int
  price : Int
  stock : Int
  deriving DecidableEq

def getProduct (s : StoreState) (productId : Int) : Except HTTPException ProductView :=
  if productId ≠ 1 then .error ⟨404, "Product not found"⟩ else .ok ⟨1, s.price, s.stock⟩

def getOrder (s : StoreState) (orderId : String) (authorization : Option String) :
    Except HTTPException PublicOrder := do
  let user ← userFromHeader authorization
  match s.orders.get? orderId with
  | none => throw ⟨404, "Order not found"⟩
  | some order =>
    if user ≠ "admin" ∧ order.owner ≠ user then throw ⟨403, "Order belongs to another user"⟩
    else return publicOrder order

/-- The section of `cancel_order` under the state lock. -/
def cancelSection (s : StoreState) (orderId user : String) :
    Except HTTPException PublicOrder × StoreState :=
  match s.orders.get? orderId with
  | none => (.error ⟨404, "Order not found"⟩, s)
  | some order =>
    if user ≠ "admin" ∧ order.owner ≠ user then
      (.error ⟨403, "Order belongs to another user"⟩, s)
    else if order.status = .cancelled then (.ok (publicOrder order), s)
    else if order.status ≠ .paid then (.error ⟨409, "Only paid orders can be cancelled"⟩, s)
    else
      let cancelled := updateOrder s orderId (Order.setStatus .cancelled)
      (.ok (publicOrder (order.setStatus .cancelled)), releaseInventoryOnce cancelled orderId)

def cancelOrder (s : StoreState) (orderId : String) (authorization : Option String) :
    Except HTTPException PublicOrder × StoreState :=
  match userFromHeader authorization with
  | .error e => (.error e, s)
  | .ok user => cancelSection s orderId user

/-- The signature and the decoder a webhook body goes through before the state is touched. -/
structure WebhookCodec where
  signature : List UInt8 → String
  decode : List UInt8 → Option WebhookPayload

/-- What a webhook does to an order, when the order still waits for its payment. -/
def settleOrder (s : StoreState) (orderId : String) (order : Order) (eventType : EventType) :
    StoreState :=
  if order.status = .paymentPending then
    match eventType with
    | .paymentSucceeded =>
      let paid := updateOrder s orderId (Order.setStatus .paid)
      match s.payment.charges.get? order.paymentKey with
      | some charge => updateOrder paid orderId (Order.setChargeId charge.id)
      | none => paid
    | .paymentFailed =>
      let failed := updateOrder s orderId (Order.setStatus .paymentFailed)
      releaseInventoryOnce (updateOrder failed orderId (Order.setFailureStatus 402)) orderId
  else s

/-- The section of `payment_webhook` under the state lock. -/
def webhookSection (s : StoreState) (payload : WebhookPayload) :
    Except HTTPException String × StoreState :=
  if payload.eventId ∈ s.processedEvents then (.ok "duplicate", s)
  else
    match s.orders.get? payload.orderId with
    | none => (.error ⟨404, "Order not found"⟩, s)
    | some order =>
      let settled := settleOrder s payload.orderId order payload.eventType
      (.ok "processed",
        { settled with
          webhookEffects := settled.webhookEffects.set payload.eventId
            ((settled.webhookEffects.get? payload.eventId).getD 0 + 1)
          processedEvents := settled.processedEvents ++ [payload.eventId] })

/-- The comparison raises on text outside ASCII and the decoder on a malformed body; neither
is an HTTP exception, so both are answered with 500. -/
def paymentWebhook (codec : WebhookCodec) (s : StoreState) (rawBody : List UInt8)
    (xSignature : Option String) : Except HTTPException String × StoreState :=
  let given := xSignature.getD ""
  if given = "" then (.error ⟨401, "Invalid webhook signature"⟩, s)
  else if given.toList.any (fun c => 127 < c.toNat) then
    (.error ⟨500, "Internal Server Error"⟩, s)
  else if given ≠ codec.signature rawBody then (.error ⟨401, "Invalid webhook signature"⟩, s)
  else
    match codec.decode rawBody with
    | none => (.error ⟨500, "Internal Server Error"⟩, s)
    | some payload => webhookSection s payload

end EdgecaseForge.FlashCart
