import EdgecaseForge.FlashCartStore
import Mathlib.Algebra.Order.BigOperators.Group.List

namespace EdgecaseForge.FlashCart

theorem get?_updateOrder (s : StoreState) (orderId j : String) (f : Order → Order) :
    (updateOrder s orderId f).orders.get? j =
      if j = orderId then (s.orders.get? j).map f else s.orders.get? j := by
  unfold updateOrder
  by_cases hj : j = orderId
  · subst hj
    cases ho : s.orders.get? j <;> simp [ho]
  · cases ho : s.orders.get? orderId <;> simp [hj, Dict.get?_set_ne hj]

theorem get?_releaseInventoryOnce (s : StoreState) (orderId j : String) :
    (releaseInventoryOnce s orderId).orders.get? j =
      if j = orderId then (s.orders.get? j).map Order.markReleased else s.orders.get? j := by
  unfold releaseInventoryOnce
  by_cases hj : j = orderId
  · subst hj
    cases ho : s.orders.get? j with
    | none => simp [ho]
    | some order =>
      by_cases hr : order.inventoryReleased = true
      · have same : order.markReleased = order := by simp [Order.markReleased, ← hr]
        simp [hr, ho, same]
      · simp [hr]
  · cases ho : s.orders.get? orderId with
    | none => simp [hj]
    | some order =>
      by_cases hr : order.inventoryReleased = true
      · simp [hr, hj]
      · simp [hr, hj, Dict.get?_set_ne hj]

theorem updateOrder_frame (s : StoreState) (orderId : String) (f : Order → Order) :
    updateOrder s orderId f = { s with orders := (updateOrder s orderId f).orders } := by
  unfold updateOrder
  split <;> rfl

def StoreState.isReleased (s : StoreState) (orderId : String) : Bool :=
  (s.orders.get? orderId).any (·.inventoryReleased)

theorem isReleased_updateOrder (s : StoreState) (orderId j : String) {f : Order → Order}
    (hf : Mutation f) : (updateOrder s orderId f).isReleased j = s.isReleased j := by
  unfold StoreState.isReleased
  rw [get?_updateOrder]
  by_cases hj : j = orderId
  · cases ho : s.orders.get? j <;> simp [hj, (hf _).2]
  · simp [hj]

/-- What holds of the orders and the stock after every single write. -/
structure WellFormed (s : StoreState) : Prop where
  price : s.price = catalogPrice
  stock : 0 ≤ s.stock
  terms : ∀ id o, s.orders.get? id = some o → o.id = id ∧ o.paymentKey = "checkout:" ++ id ∧
    o.total = catalogPrice * o.quantity ∧ 0 < o.quantity
  releases : ∀ id, s.releases.count id = (s.isReleased id).toNat

theorem WellFormed.updateOrder {s : StoreState} (h : WellFormed s) (orderId : String)
    {f : Order → Order} (hf : Mutation f) : WellFormed (updateOrder s orderId f) := by
  rw [updateOrder_frame]
  refine ⟨h.price, h.stock, ?_, ?_⟩
  · intro id o ho
    change (FlashCart.updateOrder s orderId f).orders.get? id = some o at ho
    rw [get?_updateOrder] at ho
    split at ho
    next =>
      obtain ⟨old, hold, rfl⟩ := Option.map_eq_some_iff.mp ho
      rw [(hf old).1]
      exact h.terms id old hold
    next => exact h.terms id o ho
  · intro id
    exact (h.releases id).trans (congrArg Bool.toNat (isReleased_updateOrder s orderId id hf).symm)

theorem WellFormed.releaseInventoryOnce {s : StoreState} (h : WellFormed s) (orderId : String) :
    WellFormed (releaseInventoryOnce s orderId) := by
  cases ho : s.orders.get? orderId with
  | none => simpa [FlashCart.releaseInventoryOnce, ho] using h
  | some order =>
    by_cases hr : order.inventoryReleased = true
    · simpa [FlashCart.releaseInventoryOnce, ho, hr] using h
    · have positive := (h.terms orderId order ho).2.2.2
      have stock := h.stock
      have get := get?_releaseInventoryOnce s orderId
      simp only [FlashCart.releaseInventoryOnce, ho, hr, Bool.false_eq_true, if_false] at get ⊢
      refine ⟨h.price, by change 0 ≤ s.stock + order.quantity; omega, ?_, ?_⟩
      · intro id o hid
        rw [get] at hid
        split at hid
        next =>
          obtain ⟨old, hold, rfl⟩ := Option.map_eq_some_iff.mp hid
          exact h.terms id old hold
        next => exact h.terms id o hid
      · intro id
        have old := h.releases id
        simp only [StoreState.isReleased] at old ⊢
        rw [get, List.count_append, old]
        by_cases hid : id = orderId
        · subst hid
          simp [ho, hr, Order.markReleased]
        · simp [hid, Ne.symm hid]

theorem wellFormed_resetState : WellFormed resetState where
  price := rfl
  stock := by simp [resetState, initialStock]
  terms := by intro id o ho; simp [resetState] at ho
  releases := by intro id; simp [resetState, StoreState.isReleased]

theorem Touch.wellFormed {s t : StoreState} (ht : Touch s t) (h : WellFormed s) : WellFormed t := by
  cases ht with
  | lock _ => exact ⟨h.price, h.stock, h.terms, h.releases⟩
  | reserve hq hle => exact ⟨h.price, by simp only; omega, h.terms, h.releases⟩
  | @publish c orderId _ hn =>
    refine ⟨h.price, h.stock, ?_, ?_⟩
    · intro id o ho
      simp only [Dict.get?_set] at ho
      split at ho
      next hid =>
        cases Option.some.inj ho
        exact ⟨hid.symm, by rw [hid]; rfl, by simp [buildOrder, h.price], c.payload.quantity_gt⟩
      next => exact h.terms id o ho
    · intro id
      refine (h.releases id).trans (congrArg Bool.toNat ?_)
      simp only [StoreState.isReleased, Dict.get?_set]
      by_cases hid : id = orderId
      · simp [hid, hn, buildOrder]
      · simp [hid]
  | record _ _ => exact ⟨h.price, h.stock, h.terms, h.releases⟩
  | charge _ => exact ⟨h.price, h.stock, h.terms, h.releases⟩
  | update orderId hf => exact h.updateOrder orderId hf
  | release orderId => exact h.releaseInventoryOnce orderId
  | event _ _ => exact ⟨h.price, h.stock, h.terms, h.releases⟩

theorem reachable_wellFormed {codec : WebhookCodec} {sys : System}
    (h : (machine codec).Reachable sys) : WellFormed sys.store :=
  reachable_store_invariant WellFormed wellFormed_resetState (fun _ _ => Touch.wellFormed) h

def Order.held (o : Order) : Int :=
  if o.inventoryReleased then 0 else o.quantity

/-- The quantities of the orders whose inventory is not released. -/
def StoreState.unreleased (s : StoreState) : Int :=
  s.orders.total Order.held

/-- What a request has reserved for an order it has not published yet. -/
def Pc.inFlight : Pc → Int
  | .core c .publish => c.payload.quantity
  | _ => 0

def System.inFlight (sys : System) : Int :=
  (sys.threads.map fun t => t.pc.inFlight).sum

def StoreState.balance (s : StoreState) : Int :=
  s.stock + s.unreleased

theorem balance_updateOrder (s : StoreState) (orderId : String) {f : Order → Order}
    (hf : Mutation f) : (updateOrder s orderId f).balance = s.balance := by
  cases ho : s.orders.get? orderId with
  | none => simp [updateOrder, ho]
  | some order =>
    have same : (f order).held = order.held := by
      simp only [Order.held, (hf order).2]
      rw [(hf order).1]
    simp only [StoreState.balance, StoreState.unreleased, updateOrder, ho,
      Dict.total_set_old Order.held ho, same]
    omega

theorem balance_releaseInventoryOnce (s : StoreState) (orderId : String) :
    (releaseInventoryOnce s orderId).balance = s.balance := by
  cases ho : s.orders.get? orderId with
  | none => simp [releaseInventoryOnce, ho]
  | some order =>
    by_cases hr : order.inventoryReleased = true
    · simp [releaseInventoryOnce, ho, hr]
    · have before : order.held = order.quantity := by simp [Order.held, hr]
      have after : order.markReleased.held = 0 := by simp [Order.held, Order.markReleased]
      simp only [StoreState.balance, StoreState.unreleased, releaseInventoryOnce, ho, hr]
      simp only [Bool.false_eq_true, if_false, Dict.total_set_old Order.held ho, before, after]
      omega

theorem balance_cancelSection (s : StoreState) (orderId user : String) :
    (cancelSection s orderId user).2.balance = s.balance := by
  unfold cancelSection
  split
  next => rfl
  next =>
    split_ifs
    · rfl
    · rfl
    · rfl
    · exact (balance_releaseInventoryOnce _ _).trans (balance_updateOrder _ _ (mutation_setStatus _))

theorem balance_settleOrder (s : StoreState) (orderId : String) (order : Order)
    (eventType : EventType) : (settleOrder s orderId order eventType).balance = s.balance := by
  have status := fun st => balance_updateOrder s orderId (mutation_setStatus st)
  unfold settleOrder
  split
  next =>
    cases eventType with
    | paymentSucceeded =>
      dsimp only
      split
      next charge _ => exact (balance_updateOrder _ _ (mutation_setChargeId _)).trans (status .paid)
      next => exact status .paid
    | paymentFailed =>
      dsimp only
      rw [balance_releaseInventoryOnce, balance_updateOrder _ _ (mutation_setFailureStatus _)]
      exact status .paymentFailed
  next => rfl

theorem balance_webhookSection (s : StoreState) (payload : WebhookPayload) :
    (webhookSection s payload).2.balance = s.balance := by
  unfold webhookSection
  split
  next => rfl
  next =>
    split
    next => rfl
    next order _ => exact balance_settleOrder s payload.orderId order payload.eventType

theorem balance_startStep (codec : WebhookCodec) (s : StoreState) (request : Request) :
    (startStep codec s request).1.balance + (startStep codec s request).2.inFlight = s.balance := by
  cases request with
  | getProduct productId => simp [startStep, Pc.inFlight]
  | createOrder payload authorization idempotencyKey =>
    simp only [startStep, startCreate]
    split
    next => simp [Pc.inFlight]
    next user _ =>
      split
      next => simp [fail, Pc.inFlight]
      next key _ =>
        simp only [identityLock, Pc.inFlight]
        split <;> simp [StoreState.balance, StoreState.unreleased]
  | getOrder orderId authorization => simp [startStep, Pc.inFlight]
  | cancelOrder orderId authorization =>
    simp only [startStep, cancelOrder, Pc.inFlight]
    split
    next => simp
    next user _ => simp [balance_cancelSection]
  | paymentWebhook rawBody xSignature =>
    simp only [startStep, paymentWebhook, Pc.inFlight]
    split_ifs
    · simp
    · simp
    · simp
    · split
      next => simp
      next payload _ => simp [balance_webhookSection]

/-- Reserving moves a quantity from the stock into the request, and publishing from there into
the orders. Every other step of `_create_order_core` moves nothing. -/
theorem balance_coreStep {s t : StoreState} {hex : String} {c : Checkout} {next : CorePc} {pc : Pc}
    (h : coreStep s hex c next = some (t, pc)) :
    t.balance + pc.inFlight = s.balance + (Pc.core c next).inFlight := by
  cases next with
  | lookup =>
    simp only [coreStep] at h
    split at h
    · cases h; rfl
    · split at h <;> cases h <;> rfl
  | replay orderId =>
    simp only [coreStep] at h
    split at h
    · cases h; rfl
    · split at h
      · cases h; rfl
      · split at h <;> cases h <;> rfl
  | replayPending orderId =>
    obtain ⟨order, _, h⟩ := Option.bind_eq_some_iff.mp h
    split at h <;> cases h <;> rfl
  | reserve =>
    simp only [coreStep] at h
    split at h
    next => cases h; rfl
    next reserved hr =>
      cases h
      obtain ⟨_, rfl⟩ := reserveInventory_ok hr
      simp only [StoreState.balance, StoreState.unreleased, Pc.inFlight]
      omega
  | publish =>
    simp only [coreStep] at h
    split at h
    next => cases h
    next hn =>
      cases h
      have fresh : s.orders.get? ("ord_" ++ hex) = none := by simpa using hn
      have held : (buildOrder s c ("ord_" ++ hex)).held = c.payload.quantity := rfl
      simp only [StoreState.balance, StoreState.unreleased, Dict.total_set_new Order.held fresh,
        held, Pc.inFlight]
      omega
  | record orderId => cases h; rfl
  | charge orderId =>
    obtain ⟨order, ho, h⟩ := Option.bind_eq_some_iff.mp h
    split at h
    next => cases h; rfl
    next => split at h <;> cases h <;> rfl
  | storeCharge orderId chargeId =>
    cases h
    exact congrArg (· + 0) (balance_updateOrder s orderId (mutation_setChargeId chargeId))
  | storePaid orderId =>
    cases h
    exact congrArg (· + 0) (balance_updateOrder s orderId (mutation_setStatus _))
  | reply orderId =>
    obtain ⟨order, _, h⟩ := Option.bind_eq_some_iff.mp h
    cases h
    rfl
  | storeFailed orderId =>
    cases h
    exact congrArg (· + 0) (balance_updateOrder s orderId (mutation_setStatus _))
  | storeFailure orderId =>
    cases h
    exact congrArg (· + 0) (balance_updateOrder s orderId (mutation_setFailureStatus 402))
  | release orderId =>
    cases h
    exact congrArg (· + 0) (balance_releaseInventoryOnce s orderId)

theorem balance_threadStep {codec : WebhookCodec} {sys : System} {hex : String} {t : Thread}
    {store : StoreState} {pc : Pc} (h : threadStep codec sys hex t = some (store, pc)) :
    store.balance + pc.inFlight = sys.store.balance + t.pc.inFlight := by
  unfold threadStep at h
  split at h
  next hp =>
    have hs := balance_startStep codec sys.store t.request
    rw [Option.some.inj h] at hs
    rw [hp]
    simpa [Pc.inFlight] using hs
  next c hp =>
    split at h
    next => cases h
    next => cases h; rw [hp]; rfl
  next c next hp => rw [hp]; exact balance_coreStep h
  next => cases h

theorem sum_map_set {α : Type} {xs : List α} {i : Nat} {a b : α} (f : α → Int)
    (h : xs[i]? = some a) : ((xs.set i b).map f).sum = (xs.map f).sum - f a + f b := by
  obtain ⟨hi, rfl⟩ := List.getElem?_eq_some_iff.mp h
  rw [List.map_set, List.sum_set']
  simp [hi]
  omega

/-- Stock, unreleased orders and reservations in flight add up to the initial stock. -/
theorem reachable_balance {codec : WebhookCodec} {sys : System}
    (h : (machine codec).Reachable sys) : sys.store.balance + sys.inFlight = initialStock := by
  refine h.invariant (fun sys => sys.store.balance + sys.inFlight = initialStock) ?_ ?_
  · rintro _ rfl
    rfl
  · intro sys a next _ hi _ hs
    obtain ⟨request, rfl, rfl⟩ | ⟨i, hex, t, store, pc, rfl, ht, hstep, rfl⟩ := systemStep_cases hs
    · simpa [System.inFlight, Pc.inFlight] using hi
    · have moved := balance_threadStep hstep
      have sum := sum_map_set (b := { t with pc := pc }) (fun t => t.pc.inFlight) ht
      simp only [System.inFlight] at hi ⊢
      rw [sum]
      dsimp only
      omega

theorem inFlight_nonneg (sys : System) : 0 ≤ sys.inFlight := by
  apply List.sum_nonneg
  intro x hx
  obtain ⟨t, _, rfl⟩ := List.mem_map.mp hx
  unfold Pc.inFlight
  split
  next c _ => exact Int.le_of_lt c.payload.quantity_gt
  next => exact le_rfl

theorem WellFormed.held_nonneg {s : StoreState} (h : WellFormed s) {id : String} {o : Order}
    (ho : s.orders.get? id = some o) : 0 ≤ o.held := by
  have positive := (h.terms id o ho).2.2.2
  unfold Order.held
  split <;> omega

theorem WellFormed.unreleased_nonneg {s : StoreState} (h : WellFormed s) : 0 ≤ s.unreleased := by
  apply List.sum_nonneg
  intro x hx
  obtain ⟨o, ho, rfl⟩ := List.mem_map.mp hx
  obtain ⟨⟨id, _⟩, he, rfl⟩ := List.mem_map.mp ho
  exact h.held_nonneg (Dict.get?_of_mem he)

/-- Inventory is conserved in every reachable state, and no order is released twice. -/
theorem inventory_conserved (codec : WebhookCodec) {sys : System}
    (h : (machine codec).Reachable sys) :
    sys.store.stock + sys.store.unreleased + sys.inFlight = initialStock ∧
      0 ≤ sys.store.stock ∧ sys.store.stock ≤ initialStock ∧
      ∀ orderId, sys.store.releases.count orderId ≤ 1 := by
  have wf := reachable_wellFormed h
  have total := reachable_balance h
  have unreleased := wf.unreleased_nonneg
  have inFlight := inFlight_nonneg sys
  simp only [StoreState.balance] at total
  refine ⟨total, wf.stock, by omega, ?_⟩
  intro orderId
  rw [wf.releases orderId]
  exact Bool.toNat_le _

def declinedOrder : OrderRequest :=
  ⟨1, 2, none, "decline", by decide, by decide⟩

/-- A declined checkout of two items, taken to the step that releases them. -/
def declinedCheckout : List Action :=
  .arrive (.createOrder declinedOrder (some "Bearer buyer-a") (some "key")) ::
    List.replicate 10 (.advance 0 "3f2b8c1e9a")

theorem inventory_conserved_declined : ∃ sys,
    (machine ⟨fun _ => "", fun _ => none⟩).run ⟨resetState, []⟩ declinedCheckout = some sys ∧
      sys.store.stock + sys.store.unreleased + sys.inFlight = initialStock ∧
      0 ≤ sys.store.stock ∧ sys.store.stock ≤ initialStock ∧
      ∀ orderId, sys.store.releases.count orderId ≤ 1 := by
  obtain ⟨sys, hr⟩ := Option.isSome_iff_exists.mp (show ((machine ⟨fun _ => "", fun _ => none⟩).run
    ⟨resetState, []⟩ declinedCheckout).isSome = true by decide)
  exact ⟨sys, hr, inventory_conserved _ (Transition.Machine.Reachable.run ⟨_, rfl, .refl⟩ hr)⟩

end EdgecaseForge.FlashCart
