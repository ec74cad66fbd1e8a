import EdgecaseForge.FlashCartCoherence
import EdgecaseForge.FlashCartReplays

namespace EdgecaseForge.FlashCart

/-- Nothing of the state has changed but, at most, the table of locks. -/
structure Untouched (s t : StoreState) : Prop where
  stock : t.stock = s.stock
  orders : t.orders = s.orders
  idempotency : t.idempotency = s.idempotency
  payment : t.payment = s.payment
  processedEvents : t.processedEvents = s.processedEvents
  webhookEffects : t.webhookEffects = s.webhookEffects

/-- What a declined payment may leave behind. -/
structure Declined (s t : StoreState) : Prop where
  stock : t.stock = s.stock
  charges : t.payment.charges = s.payment.charges
  paid : ∀ id o, t.orders.get? id = some o → o.status = .paid →
    ∃ before, s.orders.get? id = some before ∧ before.status = .paid

/-- What a request that ends in an error may leave behind. -/
structure Rejected (e : HTTPException) (s t : StoreState) : Prop where
  untouched : e.statusCode ≠ 402 → e.statusCode ≠ 504 → Untouched s t
  declined : e.statusCode = 402 → Declined s t

section Errors

variable {s t u : StoreState} {e : HTTPException}

theorem Untouched.refl (s : StoreState) : Untouched s s :=
  ⟨rfl, rfl, rfl, rfl, rfl, rfl⟩

theorem Untouched.trans (first : Untouched s t) (second : Untouched t u) : Untouched s u :=
  ⟨second.stock.trans first.stock, second.orders.trans first.orders,
    second.idempotency.trans first.idempotency, second.payment.trans first.payment,
    second.processedEvents.trans first.processedEvents, second.webhookEffects.trans first.webhookEffects⟩

theorem Untouched.declined (h : Untouched s t) : Declined s t where
  stock := h.stock
  charges := congrArg PaymentStub.charges h.payment
  paid _ o ho paid := ⟨o, h.orders ▸ ho, paid⟩

theorem Untouched.rejected (h : Untouched s t) : Rejected e s t :=
  ⟨fun _ _ => h, fun _ => h.declined⟩

theorem Rejected.after (first : Untouched s t) (second : Rejected e t u) : Rejected e s u where
  untouched other late := first.trans (second.untouched other late)
  declined code := by
    have declined := second.declined code
    exact ⟨declined.stock.trans first.stock,
      declined.charges.trans (congrArg PaymentStub.charges first.payment),
      fun _ _ ho paid => first.orders ▸ declined.paid _ _ ho paid⟩

theorem identityLock_untouched (s : StoreState) (identity : Identity) :
    Untouched s (identityLock s identity).2 := by
  unfold identityLock
  split <;> exact ⟨rfl, rfl, rfl, rfl, rfl, rfl⟩

theorem failOrder_stock {orderId : String} {order : Order} (ho : s.orders.get? orderId = some order)
    (held : order.inventoryReleased = false) : (failOrder s orderId).stock = s.stock + order.quantity := by
  have failed : (updateOrder (updateOrder s orderId (Order.setStatus .paymentFailed)) orderId
      (Order.setFailureStatus 402)).orders.get? orderId =
        some ((order.setStatus .paymentFailed).setFailureStatus 402) := by
    rw [get?_updateOrder, if_pos rfl, get?_updateOrder, if_pos rfl, ho]
    rfl
  have kept : ((order.setStatus .paymentFailed).setFailureStatus 402).inventoryReleased = false := held
  rw [failOrder, releaseInventoryOnce, failed]
  simp only [kept, Bool.false_eq_true, if_false]
  rw [updateOrder_updateOrder_frame]
  rfl

/-- The first call of a checkout that ends in an error at its payment. -/
theorem payOrder_first {c : Checkout} {orderId : String} {reserved : StoreState}
    (hr : reserveInventory s c.payload.quantity = .ok reserved)
    (h : payOrder (recordOrder reserved c orderId) orderId (buildOrder reserved c orderId) = (.error e, t)) :
    Rejected e s t := by
  obtain ⟨_, rfl⟩ := reserveInventory_ok hr
  generalize hs : ({ s with stock := s.stock - c.payload.quantity } : StoreState) = taken at h
  have placed : (recordOrder taken c orderId).orders.get? orderId = some (buildOrder taken c orderId) :=
    Dict.get?_set_self _ _ _
  obtain ⟨_, _, _, paid, -⟩ | ⟨-, declined⟩ | ⟨-, _, late⟩ := payOrder_cases placed
  · rw [h] at paid
    cases paid
  · cases h.symm.trans declined
    refine ⟨fun other => absurd rfl other, fun _ => ⟨?_, ?_, fun id o ho paid => ?_⟩⟩
    · have back := failOrder_stock placed rfl
      have before : taken.stock = s.stock - c.payload.quantity := by rw [← hs]
      change (failOrder _ _).stock = _
      rw [back]
      change taken.stock + c.payload.quantity = s.stock
      omega
    · change (failOrder _ _).payment.charges = _
      rw [(failOrder_frame _ _).2.2, ← hs]
      rfl
    · change (failOrder _ _).orders.get? id = some o at ho
      rw [get?_failOrder] at ho
      split at ho
      next =>
        obtain ⟨_, -, rfl⟩ := Option.map_eq_some_iff.mp ho
        cases paid
      next other =>
        rw [← hs] at ho
        exact ⟨o, (Dict.get?_set_ne other).symm.trans ho, paid⟩
  · cases h.symm.trans late
    refine ⟨fun _ other => absurd rfl other, ?_⟩
    rintro ⟨⟩

theorem createOrderCore_rejected (rest : AtRest s) {hex : String} {c : Checkout}
    (h : createOrderCore s hex c = some (.error e, t)) : Rejected e s t := by
  unfold createOrderCore at h
  split at h
  next orderId _ =>
    split at h
    next =>
      cases h
      exact (Untouched.refl s).rejected
    next order ho =>
      split_ifs at h with _ _ waits
      · cases h
        exact (Untouched.refl s).rejected
      · cases h
        exact (Untouched.refl s).rejected
      · cases h
      · obtain ⟨charge, charged⟩ := (rest.orders orderId order ho).pending (not_not.mp waits)
        have paid := (payOrder_charged ho charged).1
        rw [Option.some.inj h] at paid
        cases paid
  next =>
    split_ifs at h
    · cases h
      exact (Untouched.refl s).rejected
    · split at h
      next =>
        cases h
        exact (Untouched.refl s).rejected
      next reserved hr =>
        dsimp only at h
        split_ifs at h
        exact payOrder_first hr (Option.some.inj h)

theorem createOrder_rejected (rest : AtRest s) {hex : String} {payload : OrderRequest}
    {authorization idempotencyKey : Option String}
    (h : createOrder s hex payload authorization idempotencyKey = some (.error e, t)) : Rejected e s t := by
  unfold createOrder at h
  split at h
  next =>
    cases h
    exact (Untouched.refl s).rejected
  next user _ =>
    split at h
    next =>
      cases h
      exact (Untouched.refl s).rejected
    next key _ =>
      have locked := identityLock_untouched s (user, key)
      exact (createOrderCore_rejected (identityLock_atRest rest (user, key)) h).after locked

theorem cancelSection_error {orderId user : String} (h : (cancelSection s orderId user).1 = .error e) :
    (cancelSection s orderId user).2 = s := by
  unfold cancelSection at h ⊢
  split
  next => rfl
  next order ho =>
    simp only [ho] at h
    split_ifs at h ⊢
    all_goals rfl

theorem webhookSection_error {payload : WebhookPayload} (h : (webhookSection s payload).1 = .error e) :
    (webhookSection s payload).2 = s := by
  unfold webhookSection at h ⊢
  split_ifs at h ⊢
  split at h
  next => rfl
  next => cases h

theorem cancelOrder_error {orderId : String} {authorization : Option String}
    (h : (cancelOrder s orderId authorization).1 = .error e) : (cancelOrder s orderId authorization).2 = s := by
  unfold cancelOrder at h ⊢
  split
  next => rfl
  next user hu =>
    rw [hu] at h
    exact cancelSection_error h

theorem paymentWebhook_error {codec : WebhookCodec} {rawBody : List UInt8} {xSignature : Option String}
    (h : (paymentWebhook codec s rawBody xSignature).1 = .error e) :
    (paymentWebhook codec s rawBody xSignature).2 = s := by
  unfold paymentWebhook at h ⊢
  dsimp only at h ⊢
  split_ifs at h ⊢
  · rfl
  · rfl
  · rfl
  · cases hd : codec.decode rawBody with
    | none => rfl
    | some payload =>
      rw [hd] at h
      exact webhookSection_error h

/-- An event that was processed changes nothing, whatever its delivery is answered. -/
theorem paymentWebhook_processed {codec : WebhookCodec} {rawBody : List UInt8} {payload : WebhookPayload}
    (decoded : codec.decode rawBody = some payload) (processed : payload.eventId ∈ s.processedEvents)
    (xSignature : Option String) : (paymentWebhook codec s rawBody xSignature).2 = s := by
  unfold paymentWebhook
  dsimp only
  split_ifs
  · rfl
  · rfl
  · rfl
  · rw [decoded]
    simp only [webhookSection, if_pos processed]

theorem map_error {α β ε : Type} {f : α → β} {result : Except ε α} {error : ε}
    (h : result.map f = .error error) : result = .error error := by
  cases result with
  | error other =>
    cases h
    rfl
  | ok value => cases h

theorem serve_rejected {codec : WebhookCodec} {hex : String} {request : Request} (rest : AtRest s)
    (h : serve codec s hex request = some (.error e, t)) : Rejected e s t := by
  cases request with
  | createOrder payload authorization idempotencyKey =>
    obtain ⟨⟨result, after⟩, hc, answered⟩ := Option.map_eq_some_iff.mp h
    have failed : result = .error e := map_error (congrArg Prod.fst answered)
    have same : after = t := congrArg Prod.snd answered
    rw [failed, same] at hc
    exact createOrder_rejected rest hc
  | cancelOrder orderId authorization =>
    have failed : (cancelOrder s orderId authorization).1 = .error e := map_error (congrArg Prod.fst (Option.some.inj h))
    have same : (cancelOrder s orderId authorization).2 = t := congrArg Prod.snd (Option.some.inj h)
    rw [← same, cancelOrder_error failed]
    exact (Untouched.refl s).rejected
  | paymentWebhook rawBody xSignature =>
    have failed : (paymentWebhook codec s rawBody xSignature).1 = .error e := map_error (congrArg Prod.fst (Option.some.inj h))
    have same : (paymentWebhook codec s rawBody xSignature).2 = t := congrArg Prod.snd (Option.some.inj h)
    rw [← same, paymentWebhook_error failed]
    exact (Untouched.refl s).rejected
  | _ =>
    obtain ⟨-, rfl⟩ := Prod.mk.inj (Option.some.inj h)
    exact (Untouched.refl s).rejected

end Errors

/-- Between any two requests, a request that ends in an error leaves no trace, up to what a declined or a
late payment leaves, and neither does an event that was processed before. -/
theorem rejected_no_trace (codec : WebhookCodec) {s : StoreState} (h : (serialMachine codec).Reachable s) :
    (∀ request hex e t, serve codec s hex request = some (.error e, t) → Rejected e s t) ∧
      ∀ rawBody xSignature payload hex result t, codec.decode rawBody = some payload →
        payload.eventId ∈ s.processedEvents →
        serve codec s hex (.paymentWebhook rawBody xSignature) = some (result, t) → t = s := by
  constructor
  · intro request hex e t failed
    exact serve_rejected (serial_atRest h) failed
  · intro rawBody xSignature payload hex result t decoded processed served
    have same : (paymentWebhook codec s rawBody xSignature).2 = t := congrArg Prod.snd (Option.some.inj served)
    rw [← same, paymentWebhook_processed decoded processed xSignature]

/-- A paid order, and the report of a failed payment that comes too late for it. -/
def reportedCheckout : List (Request × String) :=
  [(.createOrder approvedOrder (some "Bearer buyer-a") (some "key"), "3f2b8c1e9a"),
    (.paymentWebhook lateWebhookBody (some (lateWebhookCodec.signature lateWebhookBody)), "")]

theorem rejected_no_trace_reported : ∃ s,
    (serialMachine lateWebhookCodec).run resetState reportedCheckout = some s ∧
      (∀ request hex e t, serve lateWebhookCodec s hex request = some (.error e, t) → Rejected e s t) ∧
      ∀ rawBody xSignature payload hex result t, lateWebhookCodec.decode rawBody = some payload →
        payload.eventId ∈ s.processedEvents →
        serve lateWebhookCodec s hex (.paymentWebhook rawBody xSignature) = some (result, t) → t = s := by
  obtain ⟨s, hr⟩ := Option.isSome_iff_exists.mp (show ((serialMachine lateWebhookCodec).run resetState
    reportedCheckout).isSome = true by decide)
  exact ⟨s, hr, rejected_no_trace _ (Transition.Machine.Reachable.run ⟨_, rfl, .refl⟩ hr)⟩

end EdgecaseForge.FlashCart
