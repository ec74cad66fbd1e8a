import EdgecaseForge.FlashCartReplays

namespace EdgecaseForge.FlashCart

/-- The body of a create request before the check of its quantity. -/
structure OrderBody where
  productId : Int
  quantity : Int
  quotedTotal : Option Int
  paymentToken : String

def OrderBody.fingerprint (body : OrderBody) : RequestFingerprint :=
  ⟨body.productId, body.quantity, body.quotedTotal, body.paymentToken⟩

inductive Call
  | getProduct (productId : Int)
  | createOrder (body : OrderBody) (authorization idempotencyKey : Option String)
  | getOrder (orderId : String) (authorization : Option String)
  | cancelOrder (orderId : String) (authorization : Option String)
  | paymentWebhook (rawBody : List UInt8) (xSignature : Option String)

/-- What `uuid4` yields while a request is served: the ten digits of an order id, and the 32 digits of a
payment operation. -/
structure Draws where
  order : String
  payment : String
  order_length : order.length = 10
  payment_length : payment.length = 32

/-- The places of the source that the mutations edit. -/
structure Variant where
  admits : Int → Bool
  lock : StoreState → Identity → StoreState
  total : Int → OrderBody → Int
  operationKey : Order → String → String
  releaseDeclined : StoreState → String → StoreState
  mayRead : String → Order → Bool
  verify : WebhookCodec → List UInt8 → Option String → Except HTTPException Unit
  consume : List String → String → List String
  cancel : StoreState → String → Order → Except HTTPException PublicOrder × StoreState

namespace Variant

/-- The source as it stands. -/
def clean : Variant where
  admits quantity := 0 < quantity ∧ quantity ≤ 5
  lock s identity := (identityLock s identity).2
  total price body := price * body.quantity
  operationKey order _ := order.paymentKey
  releaseDeclined := releaseInventoryOnce
  mayRead user order := user = "admin" ∨ order.owner = user
  verify codec rawBody xSignature :=
    let given := xSignature.getD ""
    if given = "" then .error ⟨401, "Invalid webhook signature"⟩
    else if given.toList.any (fun c => 127 < c.toNat) then .error ⟨500, "Internal Server Error"⟩
    else if given ≠ codec.signature rawBody then .error ⟨401, "Invalid webhook signature"⟩
    else .ok ()
  consume events eventId := events ++ [eventId]
  cancel s orderId order :=
    if order.status = .cancelled then (.ok (publicOrder order), s)
    else if order.status ≠ .paid then (.error ⟨409, "Only paid orders can be cancelled"⟩, s)
    else
      let cancelled := updateOrder s orderId (Order.setStatus .cancelled)
      (.ok (publicOrder (order.setStatus .cancelled)), releaseInventoryOnce cancelled orderId)

variable (v : Variant)

def buildOrder (price : Int) (user : String) (body : OrderBody) (orderId : String) : Order where
  id := orderId
  owner := user
  productId := body.productId
  quantity := body.quantity
  total := v.total price body
  chargeId := none
  status := .paymentPending
  requestFingerprint := body.fingerprint
  paymentKey := "checkout:" ++ orderId
  paymentToken := body.paymentToken
  inventoryReleased := false
  failureStatus := none

def payOrder (s : StoreState) (hex orderId : String) (order : Order) :
    Except HTTPException PublicOrder × StoreState :=
  match s.payment.charge (v.operationKey order hex) order.total order.paymentToken with
  | (.ok charge, stub) =>
    let charged := updateOrder { s with payment := stub } orderId (Order.setChargeId charge.id)
    (.ok (publicOrder ((order.setChargeId charge.id).setStatus .paid)),
      updateOrder charged orderId (Order.setStatus .paid))
  | (.error e, stub) =>
    let charged := { s with payment := stub }
    if e.statusCode = 402 then
      let failed := updateOrder charged orderId (Order.setStatus .paymentFailed)
      (.error e, v.releaseDeclined (updateOrder failed orderId (Order.setFailureStatus 402)) orderId)
    else (.error e, charged)

def recordOrder (s : StoreState) (user key : String) (body : OrderBody) (orderId : String) : StoreState :=
  { s with
    orders := s.orders.set orderId (v.buildOrder s.price user body orderId)
    creations := s.creations ++ [((user, key), orderId)]
    idempotency := s.idempotency.set (user, key) orderId }

def createOrderCore (s : StoreState) (draws : Draws) (user key : String) (body : OrderBody) :
    Option (Except HTTPException PublicOrder × StoreState) :=
  match (s.idempotency.get? (user, key)).filter (· ≠ "") with
  | some orderId =>
    match s.orders.get? orderId with
    | none => some (.error ⟨500, "Internal Server Error"⟩, s)
    | some order =>
      if order.requestFingerprint ≠ body.fingerprint then
        some (.error ⟨409, "Idempotency-Key payload mismatch"⟩, s)
      else if order.status = .paymentFailed then
        some (.error ⟨order.failureStatus.getD 500, "Payment declined"⟩, s)
      else if order.status ≠ .paymentPending then some (.ok (publicOrder order), s)
      else some (v.payOrder s draws.payment orderId order)
  | none =>
    if body.productId ≠ 1 then some (.error ⟨404, "Product not found"⟩, s)
    else
      match reserveInventory s body.quantity with
      | .error e => some (.error e, s)
      | .ok reserved =>
        let orderId := "ord_" ++ draws.order
        if (s.orders.get? orderId).isSome then none
        else some (v.payOrder (v.recordOrder reserved user key body orderId) draws.payment orderId
          (v.buildOrder reserved.price user body orderId))

/-- A body that fails its field check is answered before the handler runs. -/
def createOrder (s : StoreState) (draws : Draws) (body : OrderBody)
    (authorization idempotencyKey : Option String) :
    Option (Except HTTPException PublicOrder × StoreState) :=
  if !v.admits body.quantity then some (.error ⟨422, "Unprocessable Entity"⟩, s)
  else
    match userFromHeader authorization with
    | .error e => some (.error e, s)
    | .ok user =>
      match idempotencyKey.filter (· ≠ "") with
      | none => some (.error ⟨400, "Idempotency-Key is required"⟩, s)
      | some key => v.createOrderCore (v.lock s (user, key)) draws user key body

def getOrder (s : StoreState) (orderId : String) (authorization : Option String) :
    Except HTTPException PublicOrder := do
  let user ← userFromHeader authorization
  match s.orders.get? orderId with
  | none => throw ⟨404, "Order not found"⟩
  | some order =>
    if !v.mayRead user order then throw ⟨403, "Order belongs to another user"⟩
    else return publicOrder order

def cancelOrder (s : StoreState) (orderId : String) (authorization : Option String) :
    Except HTTPException PublicOrder × StoreState :=
  match userFromHeader authorization with
  | .error e => (.error e, s)
  | .ok user =>
    match s.orders.get? orderId with
    | none => (.error ⟨404, "Order not found"⟩, s)
    | some order =>
      if user ≠ "admin" ∧ order.owner ≠ user then
        (.error ⟨403, "Order belongs to another user"⟩, s)
      else v.cancel s orderId order

def webhookSection (s : StoreState) (payload : WebhookPayload) : Except HTTPException String × StoreState :=
  if payload.eventId ∈ s.processedEvents then (.ok "duplicate", s)
  else
    match s.orders.get? payload.orderId with
    | none => (.error ⟨404, "Order not found"⟩, s)
    | some order =>
      let settled := settleOrder s payload.orderId order payload.eventType
      (.ok "processed",
        { settled with
          webhookEffects := settled.webhookEffects.set payload.eventId
            ((settled.webhookEffects.get? payload.eventId).getD 0 + 1)
          processedEvents := v.consume settled.processedEvents payload.eventId })

/-- What `payment_webhook` does before it takes the state lock. -/
def accept (codec : WebhookCodec) (rawBody : List UInt8) (xSignature : Option String) :
    Except HTTPException WebhookPayload :=
  match v.verify codec rawBody xSignature with
  | .error e => .error e
  | .ok () =>
    match codec.decode rawBody with
    | none => .error ⟨500, "Internal Server Error"⟩
    | some payload => .ok payload

def paymentWebhook (codec : WebhookCodec) (s : StoreState) (rawBody : List UInt8)
    (xSignature : Option String) : Except HTTPException String × StoreState :=
  match v.accept codec rawBody xSignature with
  | .error e => (.error e, s)
  | .ok payload => v.webhookSection s payload

/-- The answer of a variant to a request that no other request overlaps, and the state after it. -/
def serve (codec : WebhookCodec) (s : StoreState) (draws : Draws) :
    Call → Option (Except HTTPException Reply × StoreState)
  | .getProduct productId => some ((getProduct s productId).map .product, s)
  | .createOrder body authorization idempotencyKey =>
    (v.createOrder s draws body authorization idempotencyKey).map fun answered =>
      (answered.1.map .order, answered.2)
  | .getOrder orderId authorization => some ((v.getOrder s orderId authorization).map .order, s)
  | .cancelOrder orderId authorization =>
    let (result, t) := v.cancelOrder s orderId authorization
    some (result.map .order, t)
  | .paymentWebhook rawBody xSignature =>
    let (result, t) := v.paymentWebhook codec s rawBody xSignature
    some (result.map .webhook, t)

end Variant

/-- The body as the source takes it, where its quantity passes the field check. -/
def OrderBody.request? (body : OrderBody) : Option OrderRequest :=
  if h : 0 < body.quantity ∧ body.quantity ≤ 5 then
    some ⟨body.productId, body.quantity, body.quotedTotal, body.paymentToken, h.1, h.2⟩
  else none

def Call.request? : Call → Option Request
  | .getProduct productId => some (.getProduct productId)
  | .createOrder body authorization idempotencyKey =>
    body.request?.map fun payload => .createOrder payload authorization idempotencyKey
  | .getOrder orderId authorization => some (.getOrder orderId authorization)
  | .cancelOrder orderId authorization => some (.cancelOrder orderId authorization)
  | .paymentWebhook rawBody xSignature => some (.paymentWebhook rawBody xSignature)

theorem clean_createOrderCore (s : StoreState) (draws : Draws) (user key : String) (payload : OrderRequest)
    (lock : Nat) :
    Variant.clean.createOrderCore s draws user key
      ⟨payload.productId, payload.quantity, payload.quotedTotal, payload.paymentToken⟩ =
        createOrderCore s draws.order ⟨user, key, payload, lock⟩ := by
  have identity : (Checkout.mk user key payload lock).identity = (user, key) := rfl
  unfold Variant.createOrderCore createOrderCore
  rw [identity]
  cases (s.idempotency.get? (user, key)).filter (· ≠ "") with
  | none => rfl
  | some orderId => rfl

theorem clean_createOrder (s : StoreState) (draws : Draws) {body : OrderBody} {payload : OrderRequest}
    (valid : body.request? = some payload) (authorization idempotencyKey : Option String) :
    Variant.clean.createOrder s draws body authorization idempotencyKey =
      createOrder s draws.order payload authorization idempotencyKey := by
  unfold OrderBody.request? at valid
  split at valid
  next admitted =>
    cases valid
    have admits : Variant.clean.admits body.quantity = true := by simpa [Variant.clean] using admitted
    unfold Variant.createOrder createOrder
    rw [admits]
    simp only [Bool.not_true, Bool.false_eq_true, if_false]
    cases userFromHeader authorization with
    | error e => rfl
    | ok user =>
      cases idempotencyKey.filter (· ≠ "") with
      | none => rfl
      | some key =>
        exact clean_createOrderCore (identityLock s (user, key)).2 draws user key
          ⟨body.productId, body.quantity, body.quotedTotal, body.paymentToken, admitted.1, admitted.2⟩ _
  next => cases valid

theorem clean_verify (codec : WebhookCodec) (s : StoreState) (rawBody : List UInt8) (xSignature : Option String) :
    Variant.clean.paymentWebhook codec s rawBody xSignature = paymentWebhook codec s rawBody xSignature := by
  unfold Variant.paymentWebhook Variant.accept Variant.clean paymentWebhook
  dsimp only
  split_ifs
  · rfl
  · rfl
  · rfl
  · cases codec.decode rawBody <;> rfl

/-- The source is one of the variants: it serves what passes its field check, and refuses the rest. -/
theorem clean_serve (codec : WebhookCodec) (s : StoreState) (draws : Draws) (call : Call) :
    Variant.clean.serve codec s draws call =
      match call.request? with
      | some request => serve codec s draws.order request
      | none => some (.error ⟨422, "Unprocessable Entity"⟩, s) := by
  cases call with
  | getProduct productId => rfl
  | createOrder body authorization idempotencyKey =>
    cases valid : body.request? with
    | some payload =>
      simp only [Call.request?, valid, Option.map_some, Variant.serve, serve, clean_createOrder s draws valid]
    | none =>
      have refused : Variant.clean.admits body.quantity = false := by
        unfold OrderBody.request? at valid
        split at valid
        next => cases valid
        next refused => simpa [Variant.clean] using refused
      simp [Call.request?, valid, Variant.serve, Variant.createOrder, refused, Except.map]
  | getOrder orderId authorization =>
    have same : Variant.clean.getOrder s orderId authorization = getOrder s orderId authorization := by
      unfold Variant.getOrder getOrder Variant.clean
      cases userFromHeader authorization with
      | error e => rfl
      | ok user =>
        simp only [bind, Except.bind]
        cases s.orders.get? orderId with
        | none => rfl
        | some order =>
          by_cases admin : user = "admin" <;> by_cases own : order.owner = user <;> simp [admin, own]
    simp only [Variant.serve, Call.request?, serve, same]
  | cancelOrder orderId authorization =>
    have same : Variant.clean.cancelOrder s orderId authorization = cancelOrder s orderId authorization := by
      unfold Variant.cancelOrder cancelOrder
      cases userFromHeader authorization with
      | error e => rfl
      | ok user =>
        unfold cancelSection
        cases s.orders.get? orderId with
        | none => rfl
        | some order => rfl
    simp only [Variant.serve, Call.request?, serve, same]
  | paymentWebhook rawBody xSignature =>
    simp only [Variant.serve, Call.request?, serve, clean_verify]

end EdgecaseForge.FlashCart
