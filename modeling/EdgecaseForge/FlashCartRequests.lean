import EdgecaseForge.FlashCartCheckouts

namespace EdgecaseForge.FlashCart

/-- What the provider does: answer with the charge it has, decline, or charge, with or without a
timeout. -/
theorem charge_cases (stub : PaymentStub) (key : String) (amount : Int) (token : String) :
    (∃ charge, stub.charges.get? key = some charge ∧ stub.charge key amount token = (.ok charge, stub)) ∨
    (stub.charges.get? key = none ∧
      stub.charge key amount token = (.error ⟨402, "Payment declined"⟩, stub)) ∨
    (stub.charges.get? key = none ∧ ∃ charge,
      stub.charge key amount token = (.ok charge, { stub with charges := stub.charges.set key charge }) ∨
      stub.charge key amount token = (.error ⟨504, "Payment provider timed out"⟩,
        { charges := stub.charges.set key charge, timeoutKeys := stub.timeoutKeys ++ [key] })) := by
  unfold PaymentStub.charge
  cases hk : stub.charges.get? key with
  | some charge => exact .inl ⟨charge, rfl, rfl⟩
  | none =>
    dsimp only
    split
    next => exact .inr (.inl ⟨rfl, rfl⟩)
    next =>
      split
      next => exact .inr (.inr ⟨rfl, _, .inr rfl⟩)
      next => exact .inr (.inr ⟨rfl, _, .inl rfl⟩)

theorem charge_declined {stub after : PaymentStub} {key token : String} {amount : Int} {e : HTTPException}
    (h : stub.charge key amount token = (.error e, after)) (declined : e.statusCode = 402) :
    e = ⟨402, "Payment declined"⟩ := by
  obtain ⟨_, _, hc⟩ | ⟨_, hc⟩ | ⟨_, _, hc | hc⟩ := charge_cases stub key amount token
  · cases hc.symm.trans h
  · cases hc.symm.trans h
    rfl
  · cases hc.symm.trans h
  · cases hc.symm.trans h
    cases declined

/-- The end of `_create_order_core`, from the call of the provider on, with nothing in between. -/
def payOrder (s : StoreState) (orderId : String) (order : Order) :
    Except HTTPException PublicOrder × StoreState :=
  match s.payment.charge order.paymentKey order.total order.paymentToken with
  | (.ok charge, stub) =>
    let charged := updateOrder { s with payment := stub } orderId (Order.setChargeId charge.id)
    (.ok (publicOrder ((order.setChargeId charge.id).setStatus .paid)),
      updateOrder charged orderId (Order.setStatus .paid))
  | (.error e, stub) =>
    let charged := { s with payment := stub }
    if e.statusCode = 402 then
      let failed := updateOrder charged orderId (Order.setStatus .paymentFailed)
      (.error e, releaseInventoryOnce (updateOrder failed orderId (Order.setFailureStatus 402)) orderId)
    else (.error e, charged)

/-- The order of a first call and its entry in the idempotency map. -/
def recordOrder (s : StoreState) (c : Checkout) (orderId : String) : StoreState :=
  { s with
    orders := s.orders.set orderId (buildOrder s c orderId)
    creations := s.creations ++ [(c.identity, orderId)]
    idempotency := s.idempotency.set c.identity orderId }

/-- `_create_order_core` with nothing in between; `hex` is what `uuid4` yields, and an order id that is
taken is not drawn. -/
def createOrderCore (s : StoreState) (hex : String) (c : Checkout) :
    Option (Except HTTPException PublicOrder × StoreState) :=
  match (s.idempotency.get? c.identity).filter (· ≠ "") with
  | some orderId =>
    match s.orders.get? orderId with
    | none => some (.error ⟨500, "Internal Server Error"⟩, s)
    | some order =>
      if order.requestFingerprint ≠ requestFingerprint c.payload then
        some (.error ⟨409, "Idempotency-Key payload mismatch"⟩, s)
      else if order.status = .paymentFailed then
        some (.error ⟨order.failureStatus.getD 500, "Payment declined"⟩, s)
      else if order.status ≠ .paymentPending then some (.ok (publicOrder order), s)
      else some (payOrder s orderId order)
  | none =>
    if c.payload.productId ≠ 1 then some (.error ⟨404, "Product not found"⟩, s)
    else
      match reserveInventory s c.payload.quantity with
      | .error e => some (.error e, s)
      | .ok reserved =>
        let orderId := "ord_" ++ hex
        if (s.orders.get? orderId).isSome then none
        else some (payOrder (recordOrder reserved c orderId) orderId (buildOrder reserved c orderId))

def createOrder (s : StoreState) (hex : String) (payload : OrderRequest)
    (authorization idempotencyKey : Option String) :
    Option (Except HTTPException PublicOrder × StoreState) :=
  match userFromHeader authorization with
  | .error e => some (.error e, s)
  | .ok user =>
    match idempotencyKey.filter (· ≠ "") with
    | none => some (.error ⟨400, "Idempotency-Key is required"⟩, s)
    | some key =>
      let (lock, locked) := identityLock s (user, key)
      createOrderCore locked hex ⟨user, key, payload, lock⟩

/-- The answer to a request that no other request overlaps, and the state after it. -/
def serve (codec : WebhookCodec) (s : StoreState) (hex : String) :
    Request → Option (Except HTTPException Reply × StoreState)
  | .getProduct productId => some ((getProduct s productId).map .product, s)
  | .createOrder payload authorization idempotencyKey =>
    (createOrder s hex payload authorization idempotencyKey).map fun answered =>
      (answered.1.map .order, answered.2)
  | .getOrder orderId authorization => some ((getOrder s orderId authorization).map .order, s)
  | .cancelOrder orderId authorization =>
    let (result, t) := cancelOrder s orderId authorization
    some (result.map .order, t)
  | .paymentWebhook rawBody xSignature =>
    let (result, t) := paymentWebhook codec s rawBody xSignature
    some (result.map .webhook, t)

/-- Requests one after the other. -/
def serialMachine (codec : WebhookCodec) : Transition.Machine StoreState (Request × String) where
  init s := s = resetState
  step s call := (serve codec s call.2 call.1).map Prod.snd

section Alone

variable {codec : WebhookCodec} {threads : List Thread} {request : Request} {hex : String}

/-- One system state leads to another. -/
abbrev Leads (codec : WebhookCodec) : System → System → Prop :=
  (machine codec).LeadsTo fun _ _ => True

theorem leads_arrive (s : StoreState) :
    Leads codec ⟨s, threads⟩ ⟨s, threads ++ [⟨request, .start⟩]⟩ :=
  .single ⟨.arrive request, trivial, rfl⟩

/-- A step of the request that came last. -/
theorem leads_last (hex : String) {s t : StoreState} {before after : Pc}
    (h : threadStep codec ⟨s, threads ++ [⟨request, before⟩]⟩ hex ⟨request, before⟩ = some (t, after)) :
    Leads codec ⟨s, threads ++ [⟨request, before⟩]⟩ ⟨t, threads ++ [⟨request, after⟩]⟩ := by
  refine .single ⟨.advance threads.length hex, trivial, ?_⟩
  have last : (threads ++ [⟨request, before⟩])[threads.length]? = some ⟨request, before⟩ := by simp
  exact Option.bind_eq_some_iff.mpr ⟨_, last, Option.bind_eq_some_iff.mpr ⟨_, h, by simp⟩⟩

theorem leads_start {s t : StoreState} {after : Pc} (h : startStep codec s request = (t, after)) :
    Leads codec ⟨s, threads ++ [⟨request, .start⟩]⟩ ⟨t, threads ++ [⟨request, after⟩]⟩ :=
  leads_last "" (congrArg some h)

theorem leads_core (hex : String) {s t : StoreState} {c : Checkout} {next : CorePc} {after : Pc}
    (h : coreStep s hex c next = some (t, after)) :
    Leads codec ⟨s, threads ++ [⟨request, .core c next⟩]⟩ ⟨t, threads ++ [⟨request, after⟩]⟩ :=
  leads_last hex h

/-- The charge, with all that follows. -/
theorem payOrder_leads (codec : WebhookCodec) (threads : List Thread) (request : Request) (c : Checkout)
    {s : StoreState} {orderId : String} {order : Order}
    (ho : s.orders.get? orderId = some order) :
    Leads codec ⟨s, threads ++ [⟨request, .core c (.charge orderId)⟩]⟩
      ⟨(payOrder s orderId order).2,
        threads ++ [⟨request, .finished ((payOrder s orderId order).1.map .order)⟩]⟩ := by
  unfold payOrder
  split
  next charge stub hc =>
    have charged : coreStep s "" c (.charge orderId) =
        some ({ s with payment := stub }, .core c (.storeCharge orderId charge.id)) :=
      Option.bind_eq_some_iff.mpr ⟨order, ho, by rw [hc]⟩
    have stored : (updateOrder { s with payment := stub } orderId (Order.setChargeId charge.id)).orders.get?
        orderId = some (order.setChargeId charge.id) := by
      rw [get?_updateOrder, if_pos rfl, ho, Option.map_some]
    have paid : (updateOrder (updateOrder { s with payment := stub } orderId (Order.setChargeId charge.id))
        orderId (Order.setStatus .paid)).orders.get? orderId =
          some ((order.setChargeId charge.id).setStatus .paid) := by
      rw [get?_updateOrder, if_pos rfl, stored, Option.map_some]
    refine (leads_core "" charged).trans ((leads_core "" rfl).trans
      ((leads_core "" rfl).trans (leads_core "" ?_)))
    exact Option.bind_eq_some_iff.mpr ⟨_, paid, rfl⟩
  next e stub hc =>
    dsimp only
    split
    next declined =>
      have charged : coreStep s "" c (.charge orderId) =
          some ({ s with payment := stub }, .core c (.storeFailed orderId)) :=
        Option.bind_eq_some_iff.mpr ⟨order, ho, by rw [hc]; exact if_pos declined⟩
      have message := charge_declined hc declined
      rw [message]
      exact (leads_core "" charged).trans ((leads_core "" rfl).trans
        ((leads_core "" rfl).trans (leads_core "" rfl)))
    next other =>
      exact leads_core "" (Option.bind_eq_some_iff.mpr ⟨order, ho, by rw [hc]; exact if_neg other⟩)

theorem createOrderCore_leads {s t : StoreState} {c : Checkout} {result : Except HTTPException PublicOrder}
    (h : createOrderCore s hex c = some (result, t)) :
    Leads codec ⟨s, threads ++ [⟨request, .core c .lookup⟩]⟩
      ⟨t, threads ++ [⟨request, .finished (result.map .order)⟩]⟩ := by
  unfold createOrderCore at h
  split at h
  next orderId hf =>
    have found : coreStep s hex c .lookup = some (s, .core c (.replay orderId)) := by
      simp only [coreStep, hf]
    refine (leads_core hex found).trans ?_
    split at h
    next absent =>
      cases h
      exact leads_core hex (by simp only [coreStep, absent]; rfl)
    next order ho =>
      split_ifs at h with mismatch failed settled
      · cases h
        exact leads_core hex (by simp only [coreStep, ho, if_pos mismatch]; rfl)
      · cases h
        exact leads_core hex (by simp only [coreStep, ho, if_neg mismatch, if_pos failed]; rfl)
      · cases h
        have going : coreStep s hex c (.replay orderId) = some (s, .core c (.replayPending orderId)) := by
          simp only [coreStep, ho, if_neg mismatch, if_neg failed]
        exact (leads_core hex going).trans
          (leads_core hex (Option.bind_eq_some_iff.mpr ⟨order, ho, if_pos settled⟩))
      · have going : coreStep s hex c (.replay orderId) = some (s, .core c (.replayPending orderId)) := by
          simp only [coreStep, ho, if_neg mismatch, if_neg failed]
        have paying : coreStep s hex c (.replayPending orderId) = some (s, .core c (.charge orderId)) :=
          Option.bind_eq_some_iff.mpr ⟨order, ho, if_neg settled⟩
        have paid := payOrder_leads codec threads request c ho
        rw [Option.some.inj h] at paid
        exact (leads_core hex going).trans ((leads_core hex paying).trans paid)
  next hf =>
    split_ifs at h with other
    · cases h
      exact leads_core hex (by simp only [coreStep, hf, if_pos other]; rfl)
    · have found : coreStep s hex c .lookup = some (s, .core c .reserve) := by
        simp only [coreStep, hf, if_neg other]
      refine (leads_core hex found).trans ?_
      split at h
      next e hr =>
        cases h
        exact leads_core hex (by simp only [coreStep, hr]; rfl)
      next reserved hr =>
        have taken : coreStep s hex c .reserve = some (reserved, .core c .publish) := by
          simp only [coreStep, hr]
        refine (leads_core hex taken).trans ?_
        have same : reserved.orders = s.orders := by
          obtain ⟨_, rfl⟩ := reserveInventory_ok hr
          rfl
        dsimp only at h
        split_ifs at h with drawn
        have published : coreStep reserved hex c .publish = some ({ reserved with
            orders := reserved.orders.set ("ord_" ++ hex) (buildOrder reserved c ("ord_" ++ hex))
            creations := reserved.creations ++ [(c.identity, "ord_" ++ hex)] },
            .core c (.record ("ord_" ++ hex))) := by
          rw [← same] at drawn
          simp only [coreStep]
          exact if_neg drawn
        have held : (recordOrder reserved c ("ord_" ++ hex)).orders.get? ("ord_" ++ hex) =
            some (buildOrder reserved c ("ord_" ++ hex)) :=
          Dict.get?_set_self _ _ _
        have paid := payOrder_leads codec threads request c held
        rw [Option.some.inj h] at paid
        exact (leads_core hex published).trans ((leads_core hex rfl).trans paid)

/-- No request is inside `_create_order_core`. -/
def Resting (threads : List Thread) : Prop :=
  ∀ t ∈ threads, ∀ c next, t.pc ≠ .core c next

theorem Resting.lock_free (rest : Resting threads) (s : StoreState) (c : Checkout) (lock : Nat) :
    System.lockHeld ⟨s, threads ++ [⟨request, .acquire c⟩]⟩ lock = false := by
  refine List.any_eq_false.mpr fun t ht => ?_
  have outside : t.checkout? = none := by
    unfold Thread.checkout?
    split
    next c' next hp =>
      obtain old | new := List.mem_append.mp ht
      · exact absurd hp (rest t old c' next)
      · rw [List.mem_singleton.mp new] at hp
        cases hp
    next => rfl
  simp [outside]

theorem createOrder_leads (rest : Resting threads) {s t : StoreState} {payload : OrderRequest}
    {authorization idempotencyKey : Option String} {result : Except HTTPException PublicOrder}
    (hq : request = .createOrder payload authorization idempotencyKey)
    (h : createOrder s hex payload authorization idempotencyKey = some (result, t)) :
    Leads codec ⟨s, threads ++ [⟨request, .start⟩]⟩
      ⟨t, threads ++ [⟨request, .finished (result.map .order)⟩]⟩ := by
  subst hq
  unfold createOrder at h
  split at h
  next e hu =>
    cases h
    refine leads_start ?_
    simp only [startStep, startCreate, hu]
    rfl
  next user hu =>
    split at h
    next hk =>
      cases h
      refine leads_start ?_
      simp only [startStep, startCreate, hu, hk]
      rfl
    next key hk =>
      dsimp only at h
      have started : startStep codec s (.createOrder payload authorization idempotencyKey) =
          ((identityLock s (user, key)).2, .acquire ⟨user, key, payload, (identityLock s (user, key)).1⟩) := by
        simp only [startStep, startCreate, hu, hk]
      refine (leads_start started).trans ?_
      refine Relation.ReflTransGen.trans (leads_last hex ?_) (createOrderCore_leads h)
      simp only [threadStep, rest.lock_free, Bool.false_eq_true, if_false]

/-- A request that comes while no other is at work is answered the way `serve` says. -/
theorem serve_leads (rest : Resting threads) {s t : StoreState} {result : Except HTTPException Reply}
    (h : serve codec s hex request = some (result, t)) :
    Leads codec ⟨s, threads⟩ ⟨t, threads ++ [⟨request, .finished result⟩]⟩ := by
  have arrived : Leads codec ⟨s, threads⟩ ⟨s, threads ++ [⟨request, .start⟩]⟩ := leads_arrive s
  refine arrived.trans ?_
  cases request with
  | createOrder payload authorization idempotencyKey =>
    obtain ⟨⟨answered, after⟩, hc, same⟩ := Option.map_eq_some_iff.mp h
    cases same
    exact createOrder_leads rest rfl hc
  | _ =>
    cases h
    exact leads_start rfl

end Alone

/-- The states of requests one after the other are states of the requests that run at once. -/
theorem serial_reachable {codec : WebhookCodec} {s : StoreState} (h : (serialMachine codec).Reachable s) :
    ∃ threads, Resting threads ∧ (machine codec).Reachable ⟨s, threads⟩ := by
  refine h.invariant (fun s => ∃ threads, Resting threads ∧ (machine codec).Reachable ⟨s, threads⟩) ?_ ?_
  · rintro _ rfl
    exact ⟨[], fun _ ht => absurd ht List.not_mem_nil, ⟨_, rfl, .refl⟩⟩
  · rintro s ⟨request, hex⟩ t - ⟨threads, rest, reached⟩ - step
    obtain ⟨⟨result, _⟩, hs, rfl⟩ := Option.map_eq_some_iff.mp step
    refine ⟨threads ++ [⟨request, .finished result⟩], ?_, reached.leadsTo (serve_leads rest hs)⟩
    intro th ht c next
    obtain old | new := List.mem_append.mp ht
    · exact rest th old c next
    · rw [List.mem_singleton.mp new]
      exact nofun

end EdgecaseForge.FlashCart
