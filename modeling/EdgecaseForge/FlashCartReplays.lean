import EdgecaseForge.FlashCartRequests

namespace EdgecaseForge.FlashCart

/-- An order that no request works on: while it waits for its payment it has been charged, and once it
failed it says so. -/
structure Order.AtRest (stub : PaymentStub) (o : Order) : Prop where
  pending : o.status = .paymentPending → ∃ charge, stub.charges.get? o.paymentKey = some charge
  failed : o.status = .paymentFailed → o.failureStatus = some 402

/-- What holds between two requests. -/
structure AtRest (s : StoreState) : Prop where
  named : ∀ identity id, s.idempotency.get? identity = some id →
    identity.2 ≠ "" ∧ ∃ lock, s.idempotencyLocks.get? identity = some lock
  orders : ∀ id o, s.orders.get? id = some o → o.AtRest s.payment

def Order.paidBy (charge : Charge) (o : Order) : Order :=
  (o.setChargeId charge.id).setStatus .paid

theorem updateOrder_updateOrder_frame (s : StoreState) (orderId : String) (f g : Order → Order) :
    updateOrder (updateOrder s orderId f) orderId g =
      { s with orders := (updateOrder (updateOrder s orderId f) orderId g).orders } := by
  have first := updateOrder_frame s orderId f
  have second := updateOrder_frame (updateOrder s orderId f) orderId g
  generalize updateOrder (updateOrder s orderId f) orderId g = final at second ⊢
  generalize updateOrder s orderId f = middle at first second
  rw [second, first]

section Payment

variable {s : StoreState} {orderId : String} {order : Order}

/-- The outcome of the end of `_create_order_core`: the order is paid, or it failed and its stock is
back, or the charge was made and the answer lost. -/
theorem payOrder_cases (ho : s.orders.get? orderId = some order) :
    (∃ charge stub, s.payment.charge order.paymentKey order.total order.paymentToken = (.ok charge, stub) ∧
      (payOrder s orderId order).1 = .ok (publicOrder (order.paidBy charge)) ∧
      (payOrder s orderId order).2 = { s with
        payment := stub
        orders := (payOrder s orderId order).2.orders } ∧
      (payOrder s orderId order).2.orders.keys = s.orders.keys ∧
      ∀ id, (payOrder s orderId order).2.orders.get? id =
        if id = orderId then some (order.paidBy charge) else s.orders.get? id) ∨
    (s.payment.charges.get? order.paymentKey = none ∧
      payOrder s orderId order = (.error ⟨402, "Payment declined"⟩,
        releaseInventoryOnce (updateOrder (updateOrder s orderId (Order.setStatus .paymentFailed)) orderId
          (Order.setFailureStatus 402)) orderId)) ∨
    (s.payment.charges.get? order.paymentKey = none ∧ ∃ charge,
      payOrder s orderId order = (.error ⟨504, "Payment provider timed out"⟩, { s with
        payment := {
          charges := s.payment.charges.set order.paymentKey charge
          timeoutKeys := s.payment.timeoutKeys ++ [order.paymentKey] } })) := by
  have paid : ∀ charge stub,
      s.payment.charge order.paymentKey order.total order.paymentToken = (.ok charge, stub) →
        (payOrder s orderId order).1 = .ok (publicOrder (order.paidBy charge)) ∧
        (payOrder s orderId order).2 = { s with
          payment := stub
          orders := (payOrder s orderId order).2.orders } ∧
        (payOrder s orderId order).2.orders.keys = s.orders.keys ∧
        ∀ id, (payOrder s orderId order).2.orders.get? id =
          if id = orderId then some (order.paidBy charge) else s.orders.get? id := by
    intro charge stub hc
    unfold payOrder
    rw [hc]
    refine ⟨rfl, ?_, ?_, fun id => ?_⟩
    · exact updateOrder_updateOrder_frame { s with payment := stub } orderId _ _
    · dsimp only
      rw [keys_updateOrder, keys_updateOrder]
    · dsimp only
      rw [get?_updateOrder, get?_updateOrder]
      by_cases hid : id = orderId
      · simp only [hid, if_true, ho, Option.map_some]
        rfl
      · simp only [hid, if_false]
  obtain ⟨charge, _, hc⟩ | ⟨absent, hc⟩ | ⟨absent, charge, hc | hc⟩ :=
    charge_cases s.payment order.paymentKey order.total order.paymentToken
  · exact .inl ⟨charge, _, hc, paid charge _ hc⟩
  · refine .inr (.inl ⟨absent, ?_⟩)
    unfold payOrder
    rw [hc]
    rfl
  · exact .inl ⟨charge, _, hc, paid charge _ hc⟩
  · refine .inr (.inr ⟨absent, charge, ?_⟩)
    unfold payOrder
    rw [hc]
    rfl

/-- An order that has been charged is paid by its charge. -/
theorem payOrder_charged {charge : Charge} (ho : s.orders.get? orderId = some order)
    (charged : s.payment.charges.get? order.paymentKey = some charge) :
    (payOrder s orderId order).1 = .ok (publicOrder (order.paidBy charge)) ∧
      (payOrder s orderId order).2 = { s with orders := (payOrder s orderId order).2.orders } ∧
      (payOrder s orderId order).2.orders.keys = s.orders.keys ∧
      ∀ id, (payOrder s orderId order).2.orders.get? id =
        if id = orderId then some (order.paidBy charge) else s.orders.get? id := by
  obtain ⟨other, stub, hc, paid⟩ | ⟨absent, -⟩ | ⟨absent, -⟩ := payOrder_cases ho
  · have existing : s.payment.charge order.paymentKey order.total order.paymentToken =
        (.ok charge, s.payment) := by
      unfold PaymentStub.charge
      rw [charged]
    cases existing.symm.trans hc
    exact paid
  · cases absent.symm.trans charged
  · cases absent.symm.trans charged

end Payment

section Rest

variable {s t : StoreState} {orderId : String}

theorem Order.AtRest.of_released {stub : PaymentStub} {o : Order} (h : o.AtRest stub) :
    o.markReleased.AtRest stub :=
  ⟨h.pending, h.failed⟩

theorem atRest_resetState : AtRest resetState where
  named := by intro identity id h; simp [resetState] at h
  orders := by intro id o h; simp [resetState] at h

/-- A write that leaves every order it touches at rest. -/
theorem AtRest.write (h : AtRest s) (idempotency : t.idempotency = s.idempotency)
    (locks : t.idempotencyLocks = s.idempotencyLocks) (payment : t.payment = s.payment)
    (orders : ∀ id o, t.orders.get? id = some o → s.orders.get? id = some o ∨ o.AtRest s.payment) :
    AtRest t where
  named identity id hr := by
    rw [idempotency] at hr
    rw [locks]
    exact h.named identity id hr
  orders id o ho := by
    rw [payment]
    obtain same | rest := orders id o ho
    · exact h.orders id o same
    · exact rest

theorem AtRest.update (h : AtRest s) (orderId : String) {f : Order → Order}
    (hf : ∀ o, s.orders.get? orderId = some o → (f o).AtRest s.payment) : AtRest (updateOrder s orderId f) := by
  refine h.write (sameBooks_updateOrder s orderId f).idempotency (locks_updateOrder s orderId f)
    (payment_updateOrder s orderId f) fun id o ho => ?_
  rw [get?_updateOrder] at ho
  split at ho
  next same =>
    obtain ⟨old, found, rfl⟩ := Option.map_eq_some_iff.mp ho
    exact .inr (hf old (same ▸ found))
  next => exact .inl ho

theorem AtRest.release (h : AtRest s) (orderId : String) : AtRest (releaseInventoryOnce s orderId) := by
  refine h.write (sameBooks_releaseInventoryOnce s orderId).idempotency
    (locks_releaseInventoryOnce s orderId) (payment_releaseInventoryOnce s orderId) fun id o ho => ?_
  rw [get?_releaseInventoryOnce] at ho
  split at ho
  next =>
    obtain ⟨old, found, rfl⟩ := Option.map_eq_some_iff.mp ho
    exact .inr (h.orders id old found).of_released
  next => exact .inl ho

theorem AtRest.setStatus (h : AtRest s) (orderId : String) {status : OrderStatus}
    (pending : status ≠ .paymentPending) (failed : status ≠ .paymentFailed) :
    AtRest (updateOrder s orderId (Order.setStatus status)) :=
  h.update orderId fun _ _ => ⟨fun same => absurd same pending, fun same => absurd same failed⟩

theorem AtRest.setChargeId (h : AtRest s) (orderId chargeId : String) :
    AtRest (updateOrder s orderId (Order.setChargeId chargeId)) :=
  h.update orderId fun o ho => ⟨(h.orders orderId o ho).pending, (h.orders orderId o ho).failed⟩

/-- What a decline and a report of a failed payment do to an order. -/
def failOrder (s : StoreState) (orderId : String) : StoreState :=
  releaseInventoryOnce (updateOrder (updateOrder s orderId (Order.setStatus .paymentFailed)) orderId
    (Order.setFailureStatus 402)) orderId

theorem get?_failOrder (s : StoreState) (orderId id : String) :
    (failOrder s orderId).orders.get? id = if id = orderId then
      (s.orders.get? id).map fun o => ((o.setStatus .paymentFailed).setFailureStatus 402).markReleased
    else s.orders.get? id := by
  rw [failOrder, get?_releaseInventoryOnce, get?_updateOrder, get?_updateOrder]
  by_cases same : id = orderId
  · simp only [same, if_true, Option.map_map]
    rfl
  · simp only [same, if_false]

theorem failOrder_frame (s : StoreState) (orderId : String) :
    (failOrder s orderId).idempotency = s.idempotency ∧
      (failOrder s orderId).idempotencyLocks = s.idempotencyLocks ∧
      (failOrder s orderId).payment = s.payment := by
  unfold failOrder
  refine ⟨?_, ?_, ?_⟩
  · rw [(sameBooks_releaseInventoryOnce _ _).idempotency, (sameBooks_updateOrder _ _ _).idempotency,
      (sameBooks_updateOrder _ _ _).idempotency]
  · rw [locks_releaseInventoryOnce, locks_updateOrder, locks_updateOrder]
  · rw [payment_releaseInventoryOnce, payment_updateOrder, payment_updateOrder]

theorem failOrder_atRest (others : ∀ id o, id ≠ orderId → s.orders.get? id = some o → o.AtRest s.payment)
    (named : ∀ identity id, s.idempotency.get? identity = some id →
      identity.2 ≠ "" ∧ ∃ lock, s.idempotencyLocks.get? identity = some lock) :
    AtRest (failOrder s orderId) := by
  obtain ⟨idempotency, locks, payment⟩ := failOrder_frame s orderId
  refine ⟨?_, fun id o ho => ?_⟩
  · rw [idempotency, locks]
    exact named
  · rw [payment]
    rw [get?_failOrder] at ho
    split at ho
    next =>
      obtain ⟨old, -, rfl⟩ := Option.map_eq_some_iff.mp ho
      refine ⟨fun paid => ?_, fun _ => rfl⟩
      cases paid
    next other => exact others id o other ho

theorem cancelSection_atRest (h : AtRest s) (orderId user : String) :
    AtRest (cancelSection s orderId user).2 := by
  unfold cancelSection
  split
  next => exact h
  next =>
    split_ifs
    · exact h
    · exact h
    · exact h
    · have cancelled : AtRest (updateOrder s orderId (Order.setStatus .cancelled)) :=
        h.setStatus orderId nofun nofun
      exact cancelled.release orderId

theorem settleOrder_atRest (h : AtRest s) (orderId : String) (order : Order) (eventType : EventType) :
    AtRest (settleOrder s orderId order eventType) := by
  unfold settleOrder
  split
  next =>
    cases eventType with
    | paymentSucceeded =>
      have paid : AtRest (updateOrder s orderId (Order.setStatus .paid)) := by
        refine h.setStatus orderId ?_ ?_
        · rintro ⟨⟩
        · rintro ⟨⟩
      dsimp only
      split
      next charge _ => exact paid.setChargeId orderId charge.id
      next => exact paid
    | paymentFailed => exact failOrder_atRest (fun id o _ ho => h.orders id o ho) h.named
  next => exact h

theorem webhookSection_atRest (h : AtRest s) (payload : WebhookPayload) :
    AtRest (webhookSection s payload).2 := by
  unfold webhookSection
  split
  next => exact h
  next =>
    split
    next => exact h
    next order _ =>
      have settled := settleOrder_atRest h payload.orderId order payload.eventType
      exact ⟨settled.named, settled.orders⟩

theorem Order.AtRest.charged {stub : PaymentStub} {o : Order} (h : o.AtRest stub) (key : String)
    (charge : Charge) (timeoutKeys : List String) :
    o.AtRest ⟨stub.charges.set key charge, timeoutKeys⟩ where
  pending hp := by
    obtain ⟨before, hb⟩ := h.pending hp
    by_cases same : o.paymentKey = key
    · exact ⟨charge, by rw [same]; exact Dict.get?_set_self _ _ _⟩
    · exact ⟨before, by rw [← hb]; exact Dict.get?_set_ne same⟩
  failed := h.failed

/-- A call of the provider leaves the orders at rest that were so. -/
theorem charge_atRest {stub after : PaymentStub} {key token : String} {amount : Int}
    {result : Except HTTPException Charge} (hc : stub.charge key amount token = (result, after)) {o : Order}
    (h : o.AtRest stub) : o.AtRest after := by
  obtain ⟨_, _, hc'⟩ | ⟨_, hc'⟩ | ⟨_, charge, hc' | hc'⟩ := charge_cases stub key amount token
  · cases hc'.symm.trans hc
    exact h
  · cases hc'.symm.trans hc
    exact h
  · cases hc'.symm.trans hc
    exact h.charged key charge _
  · cases hc'.symm.trans hc
    exact h.charged key charge _

theorem payOrder_atRest {order : Order} (ho : s.orders.get? orderId = some order)
    (waits : order.status = .paymentPending)
    (others : ∀ id o, id ≠ orderId → s.orders.get? id = some o → o.AtRest s.payment)
    (named : ∀ identity id, s.idempotency.get? identity = some id →
      identity.2 ≠ "" ∧ ∃ lock, s.idempotencyLocks.get? identity = some lock) :
    AtRest (payOrder s orderId order).2 := by
  obtain ⟨charge, stub, hc, -, frame, -, orders⟩ | ⟨-, paid⟩ | ⟨-, charge, paid⟩ := payOrder_cases ho
  · rw [frame]
    refine ⟨named, fun id o hi => ?_⟩
    dsimp only at hi ⊢
    rw [orders] at hi
    split at hi
    next =>
      cases hi
      constructor
      · rintro ⟨⟩
      · rintro ⟨⟩
    next other => exact charge_atRest hc (others id o other hi)
  · rw [paid]
    exact failOrder_atRest others named
  · rw [paid]
    refine ⟨named, fun id o hi => ?_⟩
    dsimp only at hi ⊢
    by_cases own : id = orderId
    · subst own
      cases ho.symm.trans hi
      refine ⟨fun _ => ⟨charge, Dict.get?_set_self _ _ _⟩, fun failed => ?_⟩
      rw [waits] at failed
      cases failed
    · exact (others id o own hi).charged _ charge _

theorem createOrderCore_atRest (h : AtRest s) {hex : String} {c : Checkout} (keyed : c.idempotencyKey ≠ "")
    (locked : s.idempotencyLocks.get? c.identity = some c.lock) {result : Except HTTPException PublicOrder}
    (hs : createOrderCore s hex c = some (result, t)) : AtRest t := by
  unfold createOrderCore at hs
  split at hs
  next orderId _ =>
    split at hs
    next =>
      cases hs
      exact h
    next order ho =>
      split_ifs at hs with _ _ waits
      · cases hs
        exact h
      · cases hs
        exact h
      · cases hs
        exact h
      · have paid := payOrder_atRest ho (not_not.mp waits) (fun id o _ hi => h.orders id o hi) h.named
        rw [Option.some.inj hs] at paid
        exact paid
  next =>
    split_ifs at hs
    · cases hs
      exact h
    · split at hs
      next =>
        cases hs
        exact h
      next reserved hr =>
        obtain ⟨_, rfl⟩ := reserveInventory_ok hr
        dsimp only at hs
        split_ifs at hs
        refine (congrArg (fun answered => AtRest answered.2) (Option.some.inj hs)).mp
          (payOrder_atRest (Dict.get?_set_self _ _ _) rfl ?_ ?_)
        · intro id o other hi
          exact h.orders id o ((Dict.get?_set_ne other).symm.trans hi)
        · intro identity id hi
          change (s.idempotency.set _ _).get? identity = some id at hi
          rw [Dict.get?_set] at hi
          split at hi
          next same =>
            rw [same]
            exact ⟨keyed, c.lock, locked⟩
          next => exact h.named identity id hi

theorem identityLock_atRest (h : AtRest s) (identity : Identity) : AtRest (identityLock s identity).2 := by
  unfold identityLock
  split
  next => exact h
  next fresh =>
    refine ⟨fun other id hi => ?_, h.orders⟩
    obtain ⟨keyed, lock, hl⟩ := h.named other id hi
    refine ⟨keyed, lock, (Dict.get?_set_ne ?_).trans hl⟩
    rintro rfl
    cases fresh.symm.trans hl

theorem createOrder_atRest (h : AtRest s) {hex : String} {payload : OrderRequest}
    {authorization idempotencyKey : Option String} {result : Except HTTPException PublicOrder}
    (hs : createOrder s hex payload authorization idempotencyKey = some (result, t)) : AtRest t := by
  unfold createOrder at hs
  split at hs
  next =>
    cases hs
    exact h
  next user _ =>
    split at hs
    next =>
      cases hs
      exact h
    next key hk =>
      have keyed : key ≠ "" := of_decide_eq_true (Option.filter_eq_some_iff.mp hk).2
      have locked : (identityLock s (user, key)).2.idempotencyLocks.get? (user, key) =
          some (identityLock s (user, key)).1 := get?_identityLock s (user, key)
      refine createOrderCore_atRest ?_ ?_ ?_ hs
      · exact identityLock_atRest h (user, key)
      · exact keyed
      · exact locked

theorem cancelOrder_atRest (h : AtRest s) (orderId : String) (authorization : Option String) :
    AtRest (cancelOrder s orderId authorization).2 := by
  unfold cancelOrder
  split
  next => exact h
  next user _ => exact cancelSection_atRest h orderId user

theorem paymentWebhook_atRest (codec : WebhookCodec) (h : AtRest s) (rawBody : List UInt8)
    (xSignature : Option String) : AtRest (paymentWebhook codec s rawBody xSignature).2 := by
  unfold paymentWebhook
  dsimp only
  split_ifs
  · exact h
  · exact h
  · exact h
  · split
    next => exact h
    next payload _ => exact webhookSection_atRest h payload

theorem serve_atRest {codec : WebhookCodec} {hex : String} {request : Request}
    {result : Except HTTPException Reply} (h : AtRest s) (hs : serve codec s hex request = some (result, t)) :
    AtRest t := by
  cases request with
  | createOrder payload authorization idempotencyKey =>
    obtain ⟨⟨_, _⟩, hc, same⟩ := Option.map_eq_some_iff.mp hs
    cases same
    exact createOrder_atRest h hc
  | cancelOrder orderId authorization =>
    have after := cancelOrder_atRest h orderId authorization
    cases hs
    exact after
  | paymentWebhook rawBody xSignature =>
    have after := paymentWebhook_atRest codec h rawBody xSignature
    cases hs
    exact after
  | _ =>
    cases hs
    exact h

end Rest

theorem serial_atRest {codec : WebhookCodec} {s : StoreState} (h : (serialMachine codec).Reachable s) :
    AtRest s := by
  refine h.invariant AtRest ?_ ?_
  · rintro _ rfl
    exact atRest_resetState
  · rintro s ⟨request, hex⟩ t - rest - step
    obtain ⟨⟨result, _⟩, hs, rfl⟩ := Option.map_eq_some_iff.mp step
    exact serve_atRest rest hs

/-- What a replay of a recorded checkout answers, and what it may change. -/
structure Replayed (s t : StoreState) (orderId : String) (order : Order)
    (result : Except HTTPException Reply) : Prop where
  answer : if order.status = .paymentFailed then result = .error ⟨402, "Payment declined"⟩
    else ∃ body, result = .ok (.order body) ∧ body.id = orderId
  frame : t = { s with orders := t.orders }
  keys : t.orders.keys = s.orders.keys
  others : ∀ id, id ≠ orderId → t.orders.get? id = s.orders.get? id
  own : t.orders.get? orderId = some order ∨ order.status = .paymentPending ∧
    ∃ charge, s.payment.charges.get? order.paymentKey = some charge ∧
      t.orders.get? orderId = some { order with chargeId := some charge.id, status := .paid }
  charged : order.status = .paymentPending → ∃ charge, s.payment.charges.get? order.paymentKey = some charge

section Replay

variable {codec : WebhookCodec} {s : StoreState} {user key orderId : String} {authorization : Option String}
  {payload : OrderRequest} {order : Order}

/-- The entry of a recorded identity and all that a replay of it looks up. -/
structure Recorded (s : StoreState) (user key orderId : String) (order : Order) : Prop where
  keyed : key ≠ ""
  named : orderId ≠ ""
  entry : s.idempotency.get? (user, key) = some orderId
  lock : ∃ lock, s.idempotencyLocks.get? (user, key) = some lock
  order : s.orders.get? orderId = some order

theorem serve_recorded (codec : WebhookCodec) (h : Recorded s user key orderId order) (auth : userFromHeader authorization = .ok user)
    (same : order.requestFingerprint = requestFingerprint payload) (hex : String) :
    serve codec s hex (.createOrder payload authorization (some key)) = some
      (if order.status = .paymentFailed then
        (.error ⟨order.failureStatus.getD 500, "Payment declined"⟩, s)
      else if order.status ≠ .paymentPending then (.ok (.order (publicOrder order)), s)
      else ((payOrder s orderId order).1.map .order, (payOrder s orderId order).2)) := by
  obtain ⟨lock, hl⟩ := h.lock
  have locked : identityLock s (user, key) = (lock, s) := by
    unfold identityLock
    rw [hl]
  have keyed : (some key).filter (· ≠ "") = some key := by simp [h.keyed]
  have found : (s.idempotency.get? (user, key)).filter (· ≠ "") = some orderId := by
    rw [h.entry]
    simp [h.named]
  have core : createOrderCore s hex ⟨user, key, payload, lock⟩ = some
      (if order.status = .paymentFailed then
        (.error ⟨order.failureStatus.getD 500, "Payment declined"⟩, s)
      else if order.status ≠ .paymentPending then (.ok (publicOrder order), s)
      else payOrder s orderId order) := by
    simp only [createOrderCore, Checkout.identity, found, h.order, same, ne_eq, not_true_eq_false, if_false]
    split_ifs <;> rfl
  simp only [serve, createOrder, auth, keyed, locked, core, Option.map_some]
  split_ifs <;> rfl

/-- Between two requests, a recorded identity has all that a replay looks up. -/
theorem recorded_of_reachable (h : (serialMachine codec).Reachable s)
    (entry : s.idempotency.get? (user, key) = some orderId) :
    ∃ order, Recorded s user key orderId order ∧ order.id = orderId ∧ order.AtRest s.payment := by
  obtain ⟨threads, -, reached⟩ := serial_reachable h
  have rest := serial_atRest h
  have made := (reachable_serialised reached).recorded (user, key) orderId entry
  obtain ⟨order, ho, -⟩ := (reachable_published reached).owner (user, key) orderId made
  obtain ⟨keyed, lock⟩ := rest.named (user, key) orderId entry
  have named := (reachable_published reached).named (user, key) orderId made
  exact ⟨order, ⟨keyed, named, entry, lock, ho⟩, ((reachable_wellFormed reached).terms orderId order ho).1,
    rest.orders orderId order ho⟩

/-- The first replay. -/
theorem serve_replayed (h : Recorded s user key orderId order) (named : order.id = orderId)
    (rest : order.AtRest s.payment) (auth : userFromHeader authorization = .ok user)
    (same : order.requestFingerprint = requestFingerprint payload) (hex : String) :
    ∃ result t, serve codec s hex (.createOrder payload authorization (some key)) = some (result, t) ∧
      Replayed s t orderId order result ∧
      ∀ again, serve codec t again (.createOrder payload authorization (some key)) = some (result, t) := by
  have served := fun hex => serve_recorded codec h auth same hex
  by_cases failed : order.status = .paymentFailed
  · simp only [failed, if_true, rest.failed failed, Option.getD_some] at served
    refine ⟨_, s, served hex, ⟨by rw [if_pos failed], rfl, rfl, fun _ _ => rfl, .inl h.order, ?_⟩, served⟩
    exact rest.pending
  · by_cases waits : order.status = .paymentPending
    · obtain ⟨charge, charged⟩ := rest.pending waits
      obtain ⟨result, frame, keys, orders⟩ := payOrder_charged h.order charged
      generalize payOrder s orderId order = paid at served result frame keys orders
      simp only [waits, ne_eq, not_true_eq_false, if_false, reduceCtorEq, result] at served
      have own : paid.2.orders.get? orderId = some (order.paidBy charge) := by rw [orders, if_pos rfl]
      have again : Recorded paid.2 user key orderId (order.paidBy charge) := by
        refine ⟨h.keyed, h.named, ?_, ?_, own⟩
        · rw [frame]
          exact h.entry
        · rw [frame]
          exact h.lock
      refine ⟨_, paid.2, served hex, ⟨?_, frame, keys, ?_, .inr ⟨waits, charge, charged, own⟩, rest.pending⟩, ?_⟩
      · rw [if_neg failed]
        exact ⟨_, rfl, named⟩
      · intro id other
        rw [orders, if_neg other]
      · exact fun hex => serve_recorded codec again auth same hex
    · simp only [failed, waits, ne_eq, not_false_eq_true, if_true, if_false] at served
      refine ⟨_, s, served hex, ⟨?_, rfl, rfl, fun _ _ => rfl, .inl h.order, rest.pending⟩, served⟩
      rw [if_neg failed]
      exact ⟨_, rfl, named⟩

end Replay

/-- Between any two requests, a checkout that was recorded can be sent again: it gets its order or the
decline, at most the waiting order becomes paid, and after that nothing changes any more. -/
theorem replay_idempotent (codec : WebhookCodec) {s : StoreState} (h : (serialMachine codec).Reachable s)
    {user key orderId : String} (entry : s.idempotency.get? (user, key) = some orderId) :
    ∃ order, s.orders.get? orderId = some order ∧ ∀ authorization payload hex,
      userFromHeader authorization = .ok user → order.requestFingerprint = requestFingerprint payload →
        ∃ result t, serve codec s hex (.createOrder payload authorization (some key)) = some (result, t) ∧
          Replayed s t orderId order result ∧
          ∀ again, serve codec t again (.createOrder payload authorization (some key)) = some (result, t) := by
  obtain ⟨order, recorded, named, rest⟩ := recorded_of_reachable h entry
  refine ⟨order, recorded.order, ?_⟩
  intro authorization payload hex auth same
  exact serve_replayed recorded named rest auth same hex

/-- A create that times out after it was charged. -/
def timedOutCheckout : List (Request × String) :=
  [(.createOrder slowOrder (some "Bearer buyer-b") (some "key"), "0a1b2c3d4e")]

theorem replay_idempotent_timedOut : ∃ s,
    (serialMachine ⟨fun _ => "", fun _ => none⟩).run resetState timedOutCheckout = some s ∧
      ∃ order, s.orders.get? "ord_0a1b2c3d4e" = some order ∧ ∀ authorization payload hex,
        userFromHeader authorization = .ok "buyer-b" →
        order.requestFingerprint = requestFingerprint payload →
          ∃ result t, serve ⟨fun _ => "", fun _ => none⟩ s hex
              (.createOrder payload authorization (some "key")) = some (result, t) ∧
            Replayed s t "ord_0a1b2c3d4e" order result ∧
            ∀ again, serve ⟨fun _ => "", fun _ => none⟩ t again
              (.createOrder payload authorization (some "key")) = some (result, t) := by
  have recorded : (((serialMachine ⟨fun _ => "", fun _ => none⟩).run resetState timedOutCheckout).bind
      fun s => s.idempotency.get? ("buyer-b", "key")) = some "ord_0a1b2c3d4e" := by decide
  obtain ⟨s, hr, entry⟩ := Option.bind_eq_some_iff.mp recorded
  exact ⟨s, hr, replay_idempotent _ (Transition.Machine.Reachable.run ⟨_, rfl, .refl⟩ hr) entry⟩

end EdgecaseForge.FlashCart
