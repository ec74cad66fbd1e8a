import EdgecaseForge.FlashCartEvents
import EdgecaseForge.FlashCartSteady

namespace EdgecaseForge.FlashCart

/-- A cancelled order may forget that its inventory is back: nothing reads the flag again. -/
def OrderTwin (o o' : Order) : Prop :=
  o' = o ∨ o.status = .cancelled ∧ o' = { o with inventoryReleased := o'.inventoryReleased }

theorem OrderTwin.publicOrder {o o' : Order} (h : OrderTwin o o') : publicOrder o' = publicOrder o := by
  obtain rfl | ⟨-, same⟩ := h
  · rfl
  · rw [same]
    rfl

theorem OrderTwin.owner {o o' : Order} (h : OrderTwin o o') : o'.owner = o.owner :=
  congrArg PublicOrder.owner h.publicOrder

theorem OrderTwin.status {o o' : Order} (h : OrderTwin o o') : o'.status = o.status :=
  congrArg PublicOrder.status h.publicOrder

theorem OrderTwin.quantity {o o' : Order} (h : OrderTwin o o') : o'.quantity = o.quantity :=
  congrArg PublicOrder.quantity h.publicOrder

theorem OrderTwin.fingerprint {o o' : Order} (h : OrderTwin o o') :
    o'.requestFingerprint = o.requestFingerprint := by
  obtain rfl | ⟨-, same⟩ := h
  · rfl
  · rw [same]

theorem OrderTwin.failureStatus {o o' : Order} (h : OrderTwin o o') : o'.failureStatus = o.failureStatus := by
  obtain rfl | ⟨-, same⟩ := h
  · rfl
  · rw [same]

theorem OrderTwin.eq {o o' : Order} (h : OrderTwin o o') (open_ : o.status ≠ .cancelled) : o' = o :=
  h.resolve_right fun cancelled => open_ cancelled.1

variable {P P' : PaymentStub → PaymentStub → Prop} {E : List String → List String → Prop}
  {s t u : StoreState} {orderId : String} {order : Order}

/-- Two stores that no handler tells apart, up to what `P` says of the ledgers and `E` of the events. -/
structure Twin (P : PaymentStub → PaymentStub → Prop) (E : List String → List String → Prop)
    (s t : StoreState) : Prop where
  stock : t.stock = s.stock
  price : t.price = s.price
  idempotency : t.idempotency = s.idempotency
  effects : t.webhookEffects = s.webhookEffects
  payment : P s.payment t.payment
  events : E s.processedEvents t.processedEvents
  orders : ∀ id, s.orders.get? id = none ∧ t.orders.get? id = none ∨
    ∃ o o', s.orders.get? id = some o ∧ t.orders.get? id = some o' ∧ OrderTwin o o'

/-- What a client can find out about a store. -/
structure Visible where
  stock : Int
  price : Int
  orders : String → Option PublicOrder

def StoreState.visible (s : StoreState) : Visible where
  stock := s.stock
  price := s.price
  orders id := (s.orders.get? id).map publicOrder

theorem Twin.visible (h : Twin P E s t) : t.visible = s.visible := by
  have orders : (fun id => (t.orders.get? id).map publicOrder) =
      fun id => (s.orders.get? id).map publicOrder := by
    funext id
    obtain ⟨hs, ht⟩ | ⟨o, o', hs, ht, twin⟩ := h.orders id
    · rw [hs, ht]
    · rw [hs, ht, Option.map_some, Option.map_some, twin.publicOrder]
  simp only [StoreState.visible, h.stock, h.price, orders]

theorem Twin.none_iff (h : Twin P E s t) : t.orders.get? orderId = none ↔ s.orders.get? orderId = none := by
  obtain ⟨hs, ht⟩ | ⟨o, o', hs, ht, -⟩ := h.orders orderId <;> simp [hs, ht]

theorem Twin.get? (h : Twin P E s t) (ho : s.orders.get? orderId = some order) :
    ∃ o', t.orders.get? orderId = some o' ∧ OrderTwin order o' := by
  obtain ⟨hs, -⟩ | ⟨o, o', hs, ht, twin⟩ := h.orders orderId
  · cases ho.symm.trans hs
  · cases ho.symm.trans hs
    exact ⟨o', ht, twin⟩

theorem Twin.open_ (h : Twin P E s t) (ho : s.orders.get? orderId = some order)
    (status : order.status ≠ .cancelled) : t.orders.get? orderId = some order := by
  obtain ⟨o', ht, twin⟩ := h.get? ho
  rw [ht, twin.eq status]

/-- Writes to the parts that no handler compares, and to the ledgers. -/
theorem Twin.weaken (h : Twin P E s t) (more : P s.payment t.payment → P' s.payment t.payment) :
    Twin P' E s t :=
  ⟨h.stock, h.price, h.idempotency, h.effects, more h.payment, h.events, h.orders⟩

theorem Twin.pay (h : Twin P E s t) {stub stub' : PaymentStub} (payment : P' stub stub') :
    Twin P' E { s with payment := stub } { t with payment := stub' } :=
  ⟨h.stock, h.price, h.idempotency, h.effects, payment, h.events, h.orders⟩

/-- The same write to an order that both hold. -/
theorem Twin.update (h : Twin P E s t) (ho : s.orders.get? orderId = some order)
    (ht : t.orders.get? orderId = some order) (f : Order → Order) :
    Twin P E (updateOrder s orderId f) (updateOrder t orderId f) := by
  rw [updateOrder_frame s, updateOrder_frame t]
  refine ⟨h.stock, h.price, h.idempotency, h.effects, h.payment, h.events, fun id => ?_⟩
  dsimp only
  rw [get?_updateOrder, get?_updateOrder]
  by_cases same : id = orderId
  · subst same
    rw [if_pos rfl, if_pos rfl, ho, ht]
    exact .inr ⟨_, _, rfl, rfl, .inl rfl⟩
  · rw [if_neg same, if_neg same]
    exact h.orders id

theorem Twin.release (h : Twin P E s t) (ho : s.orders.get? orderId = some order)
    (ht : t.orders.get? orderId = some order) :
    Twin P E (releaseInventoryOnce s orderId) (releaseInventoryOnce t orderId) := by
  unfold releaseInventoryOnce
  rw [ho, ht]
  dsimp only
  split
  next => exact h
  next =>
    refine ⟨?_, h.price, h.idempotency, h.effects, h.payment, h.events, fun id => ?_⟩
    · exact congrArg (· + order.quantity) h.stock
    · dsimp only
      rw [Dict.get?_set, Dict.get?_set]
      split
      next => exact .inr ⟨_, _, rfl, rfl, .inl rfl⟩
      next => exact h.orders id

theorem get?_updated (ho : s.orders.get? orderId = some order) (f : Order → Order) :
    (updateOrder s orderId f).orders.get? orderId = some (f order) := by
  rw [get?_updateOrder, if_pos rfl, ho, Option.map_some]

/-- Two answers that are the same, and the stores they leave. -/
structure Answers (P : PaymentStub → PaymentStub → Prop) (E : List String → List String → Prop) {α : Type}
    (first second : α × StoreState) : Prop where
  reply : second.1 = first.1
  twin : Twin P E first.2 second.2

theorem Twin.answers {α : Type} (h : Twin P E s t) (reply : α) : Answers P E (reply, s) (reply, t) :=
  ⟨rfl, h⟩

/-- The writes that follow a decline. -/
def declineOrder (s : StoreState) (orderId : String) : StoreState :=
  updateOrder (updateOrder s orderId (Order.setStatus .paymentFailed)) orderId (Order.setFailureStatus 402)

theorem Twin.decline (h : Twin P E s t) (ho : s.orders.get? orderId = some order)
    (ht : t.orders.get? orderId = some order) : Twin P E (declineOrder s orderId) (declineOrder t orderId) :=
  (h.update ho ht _).update (get?_updated ho _) (get?_updated ht _) _

theorem get?_declineOrder (ho : s.orders.get? orderId = some order) :
    (declineOrder s orderId).orders.get? orderId =
      some ((order.setStatus .paymentFailed).setFailureStatus 402) :=
  get?_updated (get?_updated ho _) _

/-- A charge of the source and one of a variant answer alike, and their declines are followed up alike. -/
structure PaysAlike (w : Variant) (P : PaymentStub → PaymentStub → Prop) (stub stub' : PaymentStub)
    (hex : String) (order : Order) : Prop where
  answer : (stub'.charge (w.operationKey order hex) order.total order.paymentToken).1 =
    (stub.charge order.paymentKey order.total order.paymentToken).1
  ledger : P (stub.charge order.paymentKey order.total order.paymentToken).2
    (stub'.charge (w.operationKey order hex) order.total order.paymentToken).2
  released : (∃ e, (stub.charge order.paymentKey order.total order.paymentToken).1 = .error e ∧
    e.statusCode = 402) → w.releaseDeclined = releaseInventoryOnce

variable {w : Variant} {hex user key : String} {body : OrderBody} {draws : Draws}

theorem payOrder_twin (h : Twin P E s t) (ho : s.orders.get? orderId = some order)
    (ht : t.orders.get? orderId = some order) (pays : PaysAlike w P' s.payment t.payment hex order) :
    Answers P' E (Variant.clean.payOrder s hex orderId order) (w.payOrder t hex orderId order) := by
  obtain ⟨answer, ledger, released⟩ := pays
  have named : Variant.clean.operationKey order hex = order.paymentKey := rfl
  unfold Variant.payOrder
  rw [named]
  generalize s.payment.charge order.paymentKey order.total order.paymentToken = first
    at answer ledger released ⊢
  generalize t.payment.charge (w.operationKey order hex) order.total order.paymentToken = second
    at answer ledger ⊢
  obtain ⟨result, stub⟩ := first
  obtain ⟨result', stub'⟩ := second
  cases answer
  have charged : Twin P' E { s with payment := stub } { t with payment := stub' } := h.pay ledger
  replace ho : ({ s with payment := stub } : StoreState).orders.get? orderId = some order := ho
  replace ht : ({ t with payment := stub' } : StoreState).orders.get? orderId = some order := ht
  cases result with
  | ok charge =>
    have stored := charged.update ho ht (Order.setChargeId charge.id)
    exact ⟨rfl, stored.update (get?_updated ho _) (get?_updated ht _) (Order.setStatus .paid)⟩
  | error e =>
    dsimp only
    split
    next declined =>
      rw [released ⟨e, rfl, declined⟩]
      have failed := charged.decline ho ht
      exact ⟨rfl, failed.release (get?_declineOrder ho) (get?_declineOrder ht)⟩
    next => exact charged.answers _

/-- A create that finds nothing recorded for its identity, and stock for its quantity. -/
structure Opens (s : StoreState) (user key : String) (body : OrderBody) : Prop where
  first : (s.idempotency.get? (user, key)).filter (· ≠ "") = none
  product : body.productId = 1
  stock : body.quantity ≤ s.stock

/-- A create that finds its own order still waiting for its payment. -/
structure Resumes (s : StoreState) (user key : String) (body : OrderBody) (orderId : String)
    (order : Order) : Prop where
  entry : (s.idempotency.get? (user, key)).filter (· ≠ "") = some orderId
  found : s.orders.get? orderId = some order
  payload : order.requestFingerprint = body.fingerprint
  waits : order.status = .paymentPending

/-- Two systems that answer alike, or of which neither answers. -/
inductive Serves (P : PaymentStub → PaymentStub → Prop) (E : List String → List String → Prop) {α : Type} :
    Option (α × StoreState) → Option (α × StoreState) → Prop
  | none : Serves P E none none
  | some {first second : α × StoreState} : Answers P E first second → Serves P E (some first) (some second)

theorem Twin.serves {α : Type} (h : Twin P E s t) (reply : α) :
    Serves P E (some (reply, s)) (some (reply, t)) :=
  .some (h.answers reply)

theorem Twin.record (h : Twin P E s t) (price : w.total s.price body = Variant.clean.total s.price body)
    (user key : String) (orderId : String) :
    Twin P E (Variant.clean.recordOrder s user key body orderId) (w.recordOrder t user key body orderId) := by
  have built : w.buildOrder t.price user body orderId =
      Variant.clean.buildOrder s.price user body orderId := by
    simp only [Variant.buildOrder, h.price, price]
  refine ⟨h.stock, h.price, ?_, h.effects, h.payment, h.events, fun id => ?_⟩
  · exact congrArg (fun d => d.set (user, key) orderId) h.idempotency
  · simp only [Variant.recordOrder, built]
    rw [Dict.get?_set, Dict.get?_set]
    split
    next => exact .inr ⟨_, _, rfl, rfl, .inl rfl⟩
    next => exact h.orders id

theorem createOrderCore_twin (h : Twin P E s t) (keeps : P s.payment t.payment → P' s.payment t.payment)
    (price : Opens s user key body → w.total s.price body = Variant.clean.total s.price body)
    (opens : Opens s user key body → s.orders.get? ("ord_" ++ draws.order) = none →
      PaysAlike w P' s.payment t.payment draws.payment
        (Variant.clean.buildOrder s.price user body ("ord_" ++ draws.order)))
    (resumes : ∀ orderId order, Resumes s user key body orderId order →
      PaysAlike w P' s.payment t.payment draws.payment order) :
    Serves P' E (Variant.clean.createOrderCore s draws user key body)
      (w.createOrderCore t draws user key body) := by
  have kept : Twin P' E s t := h.weaken keeps
  unfold Variant.createOrderCore
  rw [h.idempotency]
  cases entry : (s.idempotency.get? (user, key)).filter (· ≠ "") with
  | some orderId =>
    dsimp only
    cases ho : s.orders.get? orderId with
    | none =>
      rw [h.none_iff.mpr ho]
      exact kept.serves _
    | some order =>
      obtain ⟨o', ht, twin⟩ := h.get? ho
      rw [ht]
      dsimp only
      rw [twin.fingerprint, twin.status, twin.failureStatus, twin.publicOrder]
      split_ifs with mismatch failed settled
      · exact kept.serves _
      · exact kept.serves _
      · exact kept.serves _
      · have waits : order.status = .paymentPending := not_not.mp settled
        have same : o' = order := twin.eq (by simp [waits])
        subst same
        exact .some (payOrder_twin h ho ht (resumes orderId o' ⟨entry, ho, not_not.mp mismatch, waits⟩))
  | none =>
    dsimp only
    by_cases product : body.productId ≠ 1
    · rw [if_pos product, if_pos product]
      exact kept.serves _
    · rw [if_neg product, if_neg product]
      unfold reserveInventory
      rw [h.stock]
      by_cases out : s.stock < body.quantity
      · rw [if_pos out, if_pos out]
        exact kept.serves _
      · rw [if_neg out, if_neg out]
        have opened : Opens s user key body := ⟨entry, not_not.mp product, by omega⟩
        dsimp only
        cases fresh : s.orders.get? ("ord_" ++ draws.order) with
        | some order =>
          obtain ⟨o', ht, -⟩ := h.get? fresh
          rw [ht]
          exact .none
        | none =>
          rw [h.none_iff.mpr fresh]
          have reserved : Twin P E { s with stock := s.stock - body.quantity }
              { t with stock := s.stock - body.quantity } :=
            ⟨rfl, h.price, h.idempotency, h.effects, h.payment, h.events, h.orders⟩
          have recorded : Twin P E
              (Variant.clean.recordOrder { s with stock := s.stock - body.quantity } user key body
                ("ord_" ++ draws.order))
              (w.recordOrder { t with stock := s.stock - body.quantity } user key body ("ord_" ++ draws.order)) :=
            reserved.record (price opened) user key ("ord_" ++ draws.order)
          have built : w.buildOrder t.price user body ("ord_" ++ draws.order) =
              Variant.clean.buildOrder s.price user body ("ord_" ++ draws.order) := by
            simp only [Variant.buildOrder, h.price, price opened]
          simp only [Option.isSome_none, Bool.false_eq_true, if_false, built]
          refine .some (payOrder_twin recorded (Dict.get?_set_self _ _ _) ?_ (opens opened fresh))
          rw [← built]
          exact Dict.get?_set_self _ _ _

theorem createOrderCore_none (h : Twin P E s t) {ours theirs : Dict Identity Nat}
    (refused : Variant.clean.createOrderCore { s with idempotencyLocks := ours } draws user key body = none) :
    w.createOrderCore { t with idempotencyLocks := theirs } draws user key body = none := by
  unfold Variant.createOrderCore at refused ⊢
  dsimp only at refused ⊢
  rw [h.idempotency]
  cases entry : (s.idempotency.get? (user, key)).filter (· ≠ "") with
  | some orderId =>
    rw [entry] at refused
    dsimp only at refused
    split at refused
    next => cases refused
    next => split_ifs at refused
  | none =>
    rw [entry] at refused
    dsimp only at refused ⊢
    by_cases product : body.productId ≠ 1
    · rw [if_pos product] at refused
      cases refused
    · rw [if_neg product] at refused ⊢
      unfold reserveInventory at refused ⊢
      dsimp only at refused ⊢
      rw [h.stock]
      by_cases out : s.stock < body.quantity
      · rw [if_pos out] at refused
        cases refused
      · rw [if_neg out] at refused ⊢
        dsimp only at refused ⊢
        cases taken : s.orders.get? ("ord_" ++ draws.order) with
        | none => simp [taken] at refused
        | some order =>
          obtain ⟨o', ht, -⟩ := h.get? taken
          simp [ht]

/-- What a variant must share with the source for a create that comes in. -/
structure CreatesAlike (w : Variant) (P : PaymentStub → PaymentStub → Prop) (s t : StoreState) (draws : Draws)
    (body : OrderBody) (user key : String) : Prop where
  price : Opens s user key body → w.total s.price body = Variant.clean.total s.price body
  opens : Opens s user key body → s.orders.get? ("ord_" ++ draws.order) = none →
    PaysAlike w P s.payment t.payment draws.payment
      (Variant.clean.buildOrder s.price user body ("ord_" ++ draws.order))
  resumes : ∀ orderId order, Resumes s user key body orderId order →
    PaysAlike w P s.payment t.payment draws.payment order

/-- Taking the lock of an identity writes to the table of locks only. -/
def Variant.LocksOnly (w : Variant) : Prop :=
  ∀ s identity, ∃ locks, w.lock s identity = { s with idempotencyLocks := locks }

theorem createOrder_twin (h : Twin P E s t) (keeps : P s.payment t.payment → P' s.payment t.payment)
    (locks : w.LocksOnly) {authorization idempotencyKey : Option String}
    (admits : w.admits body.quantity = Variant.clean.admits body.quantity)
    (creates : ∀ user key, userFromHeader authorization = .ok user →
      idempotencyKey.filter (· ≠ "") = some key → Variant.clean.admits body.quantity = true →
      CreatesAlike w P' s t draws body user key) :
    Serves P' E (Variant.clean.createOrder s draws body authorization idempotencyKey)
      (w.createOrder t draws body authorization idempotencyKey) := by
  have kept : Twin P' E s t := h.weaken keeps
  unfold Variant.createOrder
  rw [admits]
  by_cases admitted : Variant.clean.admits body.quantity = true
  · rw [admitted]
    simp only [Bool.not_true, Bool.false_eq_true, if_false]
    cases auth : userFromHeader authorization with
    | error e => exact kept.serves _
    | ok user =>
      dsimp only
      cases named : idempotencyKey.filter (· ≠ "") with
      | none => exact kept.serves _
      | some key =>
        obtain ⟨price, opens, resumes⟩ := creates user key auth named admitted
        obtain ⟨ours, hs⟩ := identityLock_frame s (user, key)
        obtain ⟨theirs, ht⟩ := locks t (user, key)
        have locked : Twin P E { s with idempotencyLocks := ours } { t with idempotencyLocks := theirs } :=
          ⟨h.stock, h.price, h.idempotency, h.effects, h.payment, h.events, h.orders⟩
        have opened (hop : Opens { s with idempotencyLocks := ours } user key body) : Opens s user key body :=
          ⟨hop.first, hop.product, hop.stock⟩
        change Serves P' E (Variant.clean.createOrderCore (identityLock s (user, key)).2 draws user key body) _
        dsimp only
        rw [hs, ht]
        exact createOrderCore_twin locked keeps (fun hop => price (opened hop))
          (fun hop fresh => opens (opened hop) fresh)
          (fun orderId order hr => resumes orderId order ⟨hr.entry, hr.found, hr.payload, hr.waits⟩)
  · rw [Bool.not_eq_true] at admitted
    rw [admitted]
    exact kept.serves _

theorem getOrder_twin (h : Twin P E s t) {authorization : Option String}
    (reads : ∀ user order o', userFromHeader authorization = .ok user →
      s.orders.get? orderId = some order → OrderTwin order o' →
      w.mayRead user o' = Variant.clean.mayRead user order) :
    w.getOrder t orderId authorization = Variant.clean.getOrder s orderId authorization := by
  unfold Variant.getOrder
  cases auth : userFromHeader authorization with
  | error e => rfl
  | ok user =>
    simp only [bind, Except.bind]
    cases ho : s.orders.get? orderId with
    | none => rw [h.none_iff.mpr ho]
    | some order =>
      obtain ⟨o', ht, twin⟩ := h.get? ho
      rw [ht]
      dsimp only
      rw [reads user order o' auth ho twin, twin.publicOrder]

theorem cancel_twin (h : Twin P E s t) (ho : s.orders.get? orderId = some order) {o' : Order}
    (ht : t.orders.get? orderId = some o') (twin : OrderTwin order o') :
    Answers P E (Variant.clean.cancel s orderId order) (Variant.clean.cancel t orderId o') := by
  unfold Variant.clean
  dsimp only
  rw [twin.status, twin.publicOrder]
  split_ifs with cancelled unpaid
  · exact h.answers _
  · exact h.answers _
  · have same : o' = order := twin.eq cancelled
    subst same
    exact ⟨rfl, (h.update ho ht _).release (get?_updated ho _) (get?_updated ht _)⟩

theorem cancelOrder_twin (h : Twin P E s t) {authorization : Option String}
    (cancels : ∀ user order o', userFromHeader authorization = .ok user → (user = "admin" ∨ order.owner = user) →
      s.orders.get? orderId = some order → t.orders.get? orderId = some o' → OrderTwin order o' →
      Answers P E (Variant.clean.cancel s orderId order) (w.cancel t orderId o')) :
    Answers P E (Variant.clean.cancelOrder s orderId authorization) (w.cancelOrder t orderId authorization) := by
  unfold Variant.cancelOrder
  cases auth : userFromHeader authorization with
  | error e => exact h.answers _
  | ok user =>
    dsimp only
    cases ho : s.orders.get? orderId with
    | none =>
      rw [h.none_iff.mpr ho]
      exact h.answers _
    | some order =>
      obtain ⟨o', ht, twin⟩ := h.get? ho
      rw [ht]
      dsimp only
      rw [twin.owner]
      split_ifs with refused
      · exact h.answers _
      · refine cancels user order o' auth ?_ ho ht twin
        by_cases admin : user = "admin"
        · exact .inl admin
        · exact .inr (by_contra fun other => refused ⟨admin, other⟩)

theorem settleOrder_twin (h : Twin P E s t) (ho : s.orders.get? orderId = some order) {o' : Order}
    (ht : t.orders.get? orderId = some o') (twin : OrderTwin order o') (eventType : EventType)
    (charges : order.status = .paymentPending → eventType = .paymentSucceeded →
      t.payment.charges.get? order.paymentKey = s.payment.charges.get? order.paymentKey) :
    Twin P E (settleOrder s orderId order eventType) (settleOrder t orderId o' eventType) := by
  unfold settleOrder
  rw [twin.status]
  split
  next waits =>
    have same : o' = order := twin.eq (by simp [waits])
    subst same
    cases eventType with
    | paymentSucceeded =>
      have paid := h.update ho ht (Order.setStatus .paid)
      dsimp only
      rw [charges waits rfl]
      split
      next => exact paid.update (get?_updated ho _) (get?_updated ht _) _
      next => exact paid
    | paymentFailed => exact (h.decline ho ht).release (get?_declineOrder ho) (get?_declineOrder ht)
  next => exact h

/-- What a variant must share with the source for an event that comes in. -/
structure RecordsAlike (w : Variant) (E : List String → List String → Prop) (s t : StoreState)
    (payload : WebhookPayload) : Prop where
  known : payload.eventId ∈ t.processedEvents ↔ payload.eventId ∈ s.processedEvents
  consume : payload.eventId ∉ s.processedEvents →
    E (s.processedEvents ++ [payload.eventId]) (w.consume t.processedEvents payload.eventId)
  charges : ∀ order, s.orders.get? payload.orderId = some order → payload.eventId ∉ s.processedEvents →
    order.status = .paymentPending → payload.eventType = .paymentSucceeded →
      t.payment.charges.get? order.paymentKey = s.payment.charges.get? order.paymentKey

theorem webhookSection_twin (h : Twin P E s t) {payload : WebhookPayload}
    (records : RecordsAlike w E s t payload) :
    Answers P E (Variant.clean.webhookSection s payload) (w.webhookSection t payload) := by
  unfold Variant.webhookSection
  by_cases known : payload.eventId ∈ s.processedEvents
  · rw [if_pos known, if_pos (records.known.mpr known)]
    exact h.answers _
  · rw [if_neg known, if_neg fun mem => known (records.known.mp mem)]
    cases ho : s.orders.get? payload.orderId with
    | none =>
      rw [h.none_iff.mpr ho]
      exact h.answers _
    | some order =>
      obtain ⟨o', ht, twin⟩ := h.get? ho
      rw [ht]
      have settled := settleOrder_twin h ho ht twin payload.eventType fun waits succeeded =>
        records.charges order ho known waits succeeded
      have ours := (settleOrder_events s payload.orderId order payload.eventType).events
      have theirs := (settleOrder_events t payload.orderId o' payload.eventType).events
      refine ⟨rfl, settled.stock, settled.price, settled.idempotency, ?_, settled.payment, ?_, settled.orders⟩
      · dsimp only
        rw [settled.effects]
      · dsimp only
        rw [ours, theirs]
        exact records.consume known

/-- What a variant must share with the source for a request that comes in. -/
def CallAlike (w : Variant) (P : PaymentStub → PaymentStub → Prop) (E : List String → List String → Prop)
    (codec : WebhookCodec) (s t : StoreState) (draws : Draws) : Call → Prop
  | .getProduct _ => True
  | .createOrder body authorization idempotencyKey =>
    w.admits body.quantity = Variant.clean.admits body.quantity ∧
    ∀ user key, userFromHeader authorization = .ok user → idempotencyKey.filter (· ≠ "") = some key →
      Variant.clean.admits body.quantity = true → CreatesAlike w P s t draws body user key
  | .getOrder orderId authorization =>
    ∀ user order o', userFromHeader authorization = .ok user → s.orders.get? orderId = some order →
      OrderTwin order o' → w.mayRead user o' = Variant.clean.mayRead user order
  | .cancelOrder orderId authorization =>
    ∀ user order o', userFromHeader authorization = .ok user → (user = "admin" ∨ order.owner = user) →
      s.orders.get? orderId = some order → t.orders.get? orderId = some o' → OrderTwin order o' →
      Twin P E s t → Answers P E (Variant.clean.cancel s orderId order) (w.cancel t orderId o')
  | .paymentWebhook rawBody xSignature =>
    w.accept codec rawBody xSignature = Variant.clean.accept codec rawBody xSignature ∧
    ∀ payload, Variant.clean.accept codec rawBody xSignature = .ok payload → RecordsAlike w E s t payload

theorem serve_twin {codec : WebhookCodec} {call : Call} (h : Twin P E s t)
    (keeps : P s.payment t.payment → P' s.payment t.payment) (locks : w.LocksOnly)
    (alike : CallAlike w P' E codec s t draws call) :
    Serves P' E (Variant.clean.serve codec s draws call) (w.serve codec t draws call) := by
  have kept : Twin P' E s t := h.weaken keeps
  cases call with
  | getProduct productId =>
    have same : getProduct t productId = getProduct s productId := by
      simp only [getProduct, h.price, h.stock]
    simp only [Variant.serve, same]
    exact kept.serves _
  | createOrder body authorization idempotencyKey =>
    have created : Serves P' E (Variant.clean.createOrder s draws body authorization idempotencyKey)
        (w.createOrder t draws body authorization idempotencyKey) :=
      createOrder_twin h keeps locks alike.1 alike.2
    simp only [Variant.serve]
    revert created
    generalize Variant.clean.createOrder s draws body authorization idempotencyKey = first
    generalize w.createOrder t draws body authorization idempotencyKey = second
    rintro (_ | same)
    · exact .none
    · exact .some ⟨congrArg (Except.map Reply.order) same.reply, same.twin⟩
  | getOrder orderId authorization =>
    simp only [Variant.serve, getOrder_twin kept alike]
    exact kept.serves _
  | cancelOrder orderId authorization =>
    have same : Answers P' E (Variant.clean.cancelOrder s orderId authorization)
        (w.cancelOrder t orderId authorization) :=
      cancelOrder_twin kept fun user order o' auth may ho ht twin => alike user order o' auth may ho ht twin kept
    exact .some ⟨congrArg (Except.map Reply.order) same.reply, same.twin⟩
  | paymentWebhook rawBody xSignature =>
    have same : Answers P' E (Variant.clean.paymentWebhook codec s rawBody xSignature)
        (w.paymentWebhook codec t rawBody xSignature) := by
      unfold Variant.paymentWebhook
      rw [alike.1]
      cases accepted : Variant.clean.accept codec rawBody xSignature with
      | error e => exact kept.answers _
      | ok payload => exact webhookSection_twin kept (alike.2 payload accepted)
    exact .some ⟨congrArg (Except.map Reply.webhook) same.reply, same.twin⟩

/-- A draw that the source does not take, a variant does not take. -/
theorem serve_none {codec : WebhookCodec} {call : Call} (h : Twin P E s t) (locks : w.LocksOnly)
    (admits : ∀ quantity, Variant.clean.admits quantity = true → w.admits quantity = true)
    (refused : Variant.clean.serve codec s draws call = none) : w.serve codec t draws call = none := by
  cases call with
  | createOrder body authorization idempotencyKey =>
    simp only [Variant.serve, Option.map_eq_none_iff] at refused ⊢
    unfold Variant.createOrder at refused ⊢
    by_cases admitted : Variant.clean.admits body.quantity = true
    · rw [admitted] at refused
      rw [admits _ admitted]
      simp only [Bool.not_true, Bool.false_eq_true, if_false] at refused ⊢
      cases auth : userFromHeader authorization with
      | error e => simp [auth] at refused
      | ok user =>
        simp only [auth] at refused ⊢
        cases named : idempotencyKey.filter (· ≠ "") with
        | none =>
          rw [named] at refused
          cases refused
        | some key =>
          rw [named] at refused
          dsimp only at refused ⊢
          obtain ⟨ours, hs⟩ := identityLock_frame s (user, key)
          obtain ⟨theirs, ht⟩ := locks t (user, key)
          change Variant.clean.createOrderCore (identityLock s (user, key)).2 draws user key body = none at refused
          rw [hs] at refused
          rw [ht]
          exact createOrderCore_none h refused
    · simp [Bool.not_eq_true _ ▸ admitted] at refused
  | _ => simp [Variant.serve] at refused

end EdgecaseForge.FlashCart
