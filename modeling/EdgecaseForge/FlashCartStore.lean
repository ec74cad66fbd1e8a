import EdgecaseForge.FlashCartThreads

namespace EdgecaseForge.FlashCart

/-- An assignment that leaves an order's terms and its release flag alone. -/
def Mutation (f : Order → Order) : Prop :=
  ∀ o, (f o).toOrderTerms = o.toOrderTerms ∧ (f o).inventoryReleased = o.inventoryReleased

theorem mutation_setStatus (status : OrderStatus) : Mutation (Order.setStatus status) :=
  fun _ => ⟨rfl, rfl⟩

theorem mutation_setChargeId (chargeId : String) : Mutation (Order.setChargeId chargeId) :=
  fun _ => ⟨rfl, rfl⟩

theorem mutation_setFailureStatus (code : Nat) : Mutation (Order.setFailureStatus code) :=
  fun _ => ⟨rfl, rfl⟩

/-- The single writes that the sections of the handlers are made of. -/
inductive Touch : StoreState → StoreState → Prop
  | lock {s : StoreState} {identity : Identity} : s.idempotencyLocks.get? identity = none →
      Touch s { s with idempotencyLocks := s.idempotencyLocks.set identity s.idempotencyLocks.size }
  | reserve {s : StoreState} {quantity : Int} : 0 < quantity → quantity ≤ s.stock →
      Touch s { s with stock := s.stock - quantity }
  | publish {s : StoreState} (c : Checkout) {orderId : String} : orderId ≠ "" →
      s.orders.get? orderId = none →
      Touch s { s with
        orders := s.orders.set orderId (buildOrder s c orderId)
        creations := s.creations ++ [(c.identity, orderId)] }
  | record {s : StoreState} (identity : Identity) (orderId : String) :
      Touch s { s with idempotency := s.idempotency.set identity orderId }
  | charge {s : StoreState} {orderId : String} {order : Order} :
      s.orders.get? orderId = some order →
      Touch s { s with
        payment := (s.payment.charge order.paymentKey order.total order.paymentToken).2 }
  | update {s : StoreState} (orderId : String) {f : Order → Order} : Mutation f →
      Touch s (updateOrder s orderId f)
  | release {s : StoreState} (orderId : String) : Touch s (releaseInventoryOnce s orderId)
  | event {s : StoreState} (effects : Dict String Nat) (events : List String) :
      Touch s { s with webhookEffects := effects, processedEvents := events }

def Touches : StoreState → StoreState → Prop :=
  Relation.ReflTransGen Touch

theorem Touch.touches {s t : StoreState} (h : Touch s t) : Touches s t :=
  .single h

/-- What every single write keeps, every step keeps. -/
theorem Touches.keeps (inv : StoreState → Prop) (one : ∀ s t, Touch s t → inv s → inv t)
    {s t : StoreState} (h : Touches s t) (hs : inv s) : inv t := by
  induction h with
  | refl => exact hs
  | tail _ ht ih => exact one _ _ ht ih

theorem cancelSection_touches (s : StoreState) (orderId user : String) :
    Touches s (cancelSection s orderId user).2 := by
  unfold cancelSection
  split
  next => exact .refl
  next =>
    split
    next => exact .refl
    next =>
      split
      next => exact .refl
      next =>
        split
        next => exact .refl
        next => exact (Touch.update orderId (mutation_setStatus _)).touches.tail (.release orderId)

theorem settleOrder_touches (s : StoreState) (orderId : String) (order : Order)
    (eventType : EventType) : Touches s (settleOrder s orderId order eventType) := by
  unfold settleOrder
  split
  next =>
    cases eventType with
    | paymentSucceeded =>
      have paid := (Touch.update (s := s) orderId (mutation_setStatus .paid)).touches
      dsimp only
      split
      next charge _ => exact paid.tail (.update orderId (mutation_setChargeId charge.id))
      next => exact paid
    | paymentFailed =>
      have failed := (Touch.update (s := s) orderId (mutation_setStatus .paymentFailed)).touches
      exact (failed.tail (.update orderId (mutation_setFailureStatus 402))).tail (.release orderId)
  next => exact .refl

theorem webhookSection_touches (s : StoreState) (payload : WebhookPayload) :
    Touches s (webhookSection s payload).2 := by
  unfold webhookSection
  split
  next => exact .refl
  next =>
    split
    next => exact .refl
    next order _ => exact (settleOrder_touches s payload.orderId order _).tail (.event _ _)

theorem identityLock_touches (s : StoreState) (identity : Identity) :
    Touches s (identityLock s identity).2 := by
  unfold identityLock
  split
  next => exact .refl
  next h => exact (Touch.lock h).touches

theorem startCreate_touches (s : StoreState) (payload : OrderRequest)
    (authorization idempotencyKey : Option String) :
    Touches s (startCreate s payload authorization idempotencyKey).1 := by
  unfold startCreate
  split
  next => exact .refl
  next user _ =>
    split
    next => exact .refl
    next key _ => exact identityLock_touches s (user, key)

theorem startStep_touches (codec : WebhookCodec) (s : StoreState) (request : Request) :
    Touches s (startStep codec s request).1 := by
  cases request with
  | getProduct productId => exact .refl
  | createOrder payload authorization idempotencyKey => exact startCreate_touches s _ _ _
  | getOrder orderId authorization => exact .refl
  | cancelOrder orderId authorization =>
    change Touches s (cancelOrder s orderId authorization).2
    unfold cancelOrder
    split
    next => exact .refl
    next user _ => exact cancelSection_touches s orderId user
  | paymentWebhook rawBody xSignature =>
    change Touches s (paymentWebhook codec s rawBody xSignature).2
    unfold paymentWebhook
    dsimp only
    split_ifs
    · exact .refl
    · exact .refl
    · exact .refl
    · split
      next => exact .refl
      next payload _ => exact webhookSection_touches s payload

theorem reserveInventory_ok {s t : StoreState} {quantity : Int}
    (h : reserveInventory s quantity = .ok t) :
    quantity ≤ s.stock ∧ t = { s with stock := s.stock - quantity } := by
  unfold reserveInventory at h
  split at h
  next => cases h
  next hn => cases h; exact ⟨by omega, rfl⟩

theorem coreStep_touches {s t : StoreState} {hex : String} {c : Checkout} {next : CorePc} {pc : Pc}
    (h : coreStep s hex c next = some (t, pc)) : Touches s t := by
  cases next with
  | lookup =>
    simp only [coreStep] at h
    split at h
    · cases h; exact .refl
    · split at h <;> cases h <;> exact .refl
  | replay orderId =>
    simp only [coreStep] at h
    split at h
    · cases h; exact .refl
    · split at h
      · cases h; exact .refl
      · split at h <;> cases h <;> exact .refl
  | replayPending orderId =>
    obtain ⟨order, _, h⟩ := Option.bind_eq_some_iff.mp h
    split at h <;> cases h <;> exact .refl
  | reserve =>
    simp only [coreStep] at h
    split at h
    next => cases h; exact .refl
    next reserved hr =>
      cases h
      obtain ⟨hle, rfl⟩ := reserveInventory_ok hr
      exact (Touch.reserve c.payload.quantity_gt hle).touches
  | publish =>
    simp only [coreStep] at h
    split at h
    next => cases h
    next hn =>
      cases h
      have fresh : s.orders.get? ("ord_" ++ hex) = none := by simpa using hn
      have named : "ord_" ++ hex ≠ "" := by
        intro he
        have := congrArg String.length he
        simp at this
      exact (Touch.publish c named fresh).touches
  | record orderId => cases h; exact (Touch.record c.identity orderId).touches
  | charge orderId =>
    obtain ⟨order, ho, h⟩ := Option.bind_eq_some_iff.mp h
    have charged := (Touch.charge ho).touches
    revert charged
    split at h
    next charge stub hc =>
      cases h
      rw [hc]
      exact id
    next e stub hc =>
      rw [hc]
      split at h <;> cases h <;> exact id
  | storeCharge orderId chargeId =>
    cases h
    exact (Touch.update orderId (mutation_setChargeId chargeId)).touches
  | storePaid orderId => cases h; exact (Touch.update orderId (mutation_setStatus _)).touches
  | reply orderId =>
    obtain ⟨order, _, h⟩ := Option.bind_eq_some_iff.mp h
    cases h
    exact .refl
  | storeFailed orderId => cases h; exact (Touch.update orderId (mutation_setStatus _)).touches
  | storeFailure orderId =>
    cases h
    exact (Touch.update orderId (mutation_setFailureStatus 402)).touches
  | release orderId => cases h; exact (Touch.release orderId).touches

theorem threadStep_touches {codec : WebhookCodec} {sys : System} {hex : String} {t : Thread}
    {store : StoreState} {pc : Pc} (h : threadStep codec sys hex t = some (store, pc)) :
    Touches sys.store store := by
  unfold threadStep at h
  split at h
  next =>
    have hs := startStep_touches codec sys.store t.request
    rw [Option.some.inj h] at hs
    exact hs
  next =>
    split at h
    next => cases h
    next => cases h; exact .refl
  next => exact coreStep_touches h
  next => cases h

/-- A system step adds a request or runs one step of one request. -/
theorem systemStep_cases {codec : WebhookCodec} {sys next : System} {a : Action}
    (h : systemStep codec sys a = some next) :
    (∃ request, a = .arrive request ∧
      next = { sys with threads := sys.threads ++ [⟨request, .start⟩] }) ∨
    (∃ i hex t store pc, a = .advance i hex ∧ sys.threads[i]? = some t ∧
      threadStep codec sys hex t = some (store, pc) ∧
      next = ⟨store, sys.threads.set i { t with pc := pc }⟩) := by
  cases a with
  | arrive request => cases h; exact .inl ⟨request, rfl, rfl⟩
  | advance i hex =>
    obtain ⟨t, ht, h⟩ := Option.bind_eq_some_iff.mp h
    obtain ⟨⟨store, pc⟩, hs, h⟩ := Option.bind_eq_some_iff.mp h
    cases Option.some.inj h
    exact .inr ⟨i, hex, t, store, pc, rfl, ht, hs, rfl⟩

theorem systemStep_touches {codec : WebhookCodec} {sys next : System} {a : Action}
    (h : systemStep codec sys a = some next) : Touches sys.store next.store := by
  obtain ⟨request, rfl, rfl⟩ | ⟨i, hex, t, store, pc, rfl, ht, hs, rfl⟩ := systemStep_cases h
  · exact .refl
  · exact threadStep_touches hs

/-- A property of the store that every single write keeps holds in every reachable state. -/
theorem reachable_store_invariant {codec : WebhookCodec} (inv : StoreState → Prop)
    (start : inv resetState) (one : ∀ s t, Touch s t → inv s → inv t) {sys : System}
    (h : (machine codec).Reachable sys) : inv sys.store := by
  refine h.invariant (fun sys => inv sys.store) ?_ ?_
  · rintro _ rfl
    exact start
  · intro s a t _ hi _ hs
    exact (systemStep_touches hs).keeps inv one hi

end EdgecaseForge.FlashCart
