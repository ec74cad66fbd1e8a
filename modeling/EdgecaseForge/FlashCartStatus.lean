import EdgecaseForge.FlashCartCheckouts

namespace EdgecaseForge.FlashCart

abbrev Phase := OrderStatus × Bool

/-- The status of an order and whether its inventory went back. -/
def Order.phase (o : Order) : Phase :=
  (o.status, o.inventoryReleased)

def StoreState.phase? (s : StoreState) (id : String) : Option Phase :=
  (s.orders.get? id).map Order.phase

theorem phase?_setStatus (s : StoreState) (orderId id : String) (status : OrderStatus) :
    (updateOrder s orderId (Order.setStatus status)).phase? id =
      if id = orderId then (s.phase? id).map fun p => (status, p.2) else s.phase? id := by
  unfold StoreState.phase?
  rw [get?_updateOrder]
  by_cases hid : id = orderId
  · cases ho : s.orders.get? id <;> simp [hid, Order.phase, Order.setStatus]
  · simp [hid]

theorem phase?_updateOrder (s : StoreState) (orderId id : String) {f : Order → Order}
    (hf : ∀ o, (f o).phase = o.phase) : (updateOrder s orderId f).phase? id = s.phase? id := by
  unfold StoreState.phase?
  rw [get?_updateOrder]
  by_cases hid : id = orderId
  · cases ho : s.orders.get? id <;> simp [hid, hf]
  · simp [hid]

theorem phase?_setChargeId (s : StoreState) (orderId chargeId id : String) :
    (updateOrder s orderId (Order.setChargeId chargeId)).phase? id = s.phase? id :=
  phase?_updateOrder s orderId id fun _ => rfl

theorem phase?_setFailureStatus (s : StoreState) (orderId : String) (code : Nat) (id : String) :
    (updateOrder s orderId (Order.setFailureStatus code)).phase? id = s.phase? id :=
  phase?_updateOrder s orderId id fun _ => rfl

theorem phase?_releaseInventoryOnce (s : StoreState) (orderId id : String) :
    (releaseInventoryOnce s orderId).phase? id =
      if id = orderId then (s.phase? id).map fun p => (p.1, true) else s.phase? id := by
  unfold StoreState.phase?
  rw [get?_releaseInventoryOnce]
  by_cases hid : id = orderId
  · cases ho : s.orders.get? id <;> simp [hid, Order.phase, Order.markReleased]
  · simp [hid]

/-- What the sections under the state lock do to an order. -/
inductive Handled : Option Phase → Option Phase → Prop
  | same (p : Option Phase) : Handled p p
  | paid (b : Bool) : Handled (some (.paymentPending, b)) (some (.paid, b))
  | failed (b : Bool) : Handled (some (.paymentPending, b)) (some (.paymentFailed, true))
  | cancelled (b : Bool) : Handled (some (.paid, b)) (some (.cancelled, true))

theorem cancelSection_handled (s : StoreState) (orderId user id : String) :
    Handled (s.phase? id) ((cancelSection s orderId user).2.phase? id) := by
  unfold cancelSection
  split
  next => exact .same _
  next order ho =>
    split_ifs with _ _ hp
    · exact .same _
    · exact .same _
    · exact .same _
    · have paid : order.status = .paid := by simpa using hp
      dsimp only
      rw [phase?_releaseInventoryOnce, phase?_setStatus]
      by_cases hid : id = orderId
      · have before : s.phase? orderId = some (.paid, order.inventoryReleased) := by
          simp [StoreState.phase?, ho, Order.phase, paid]
        simp only [hid, if_true, before, Option.map_some]
        exact .cancelled _
      · simp only [hid, if_false]
        exact .same _

theorem settleOrder_handled {s : StoreState} {orderId : String} {order : Order}
    (ho : s.orders.get? orderId = some order) (eventType : EventType) (id : String) :
    Handled (s.phase? id) ((settleOrder s orderId order eventType).phase? id) := by
  unfold settleOrder
  split
  next hp =>
    have before : s.phase? orderId = some (.paymentPending, order.inventoryReleased) := by
      simp [StoreState.phase?, ho, Order.phase, hp]
    cases eventType with
    | paymentSucceeded =>
      have paid : Handled (s.phase? id)
          ((updateOrder s orderId (Order.setStatus .paid)).phase? id) := by
        rw [phase?_setStatus]
        by_cases hid : id = orderId
        · simp only [hid, if_true, before, Option.map_some]
          exact .paid _
        · simp only [hid, if_false]
          exact .same _
      dsimp only
      split
      next =>
        rw [phase?_setChargeId]
        exact paid
      next => exact paid
    | paymentFailed =>
      dsimp only
      rw [phase?_releaseInventoryOnce, phase?_setFailureStatus, phase?_setStatus]
      by_cases hid : id = orderId
      · simp only [hid, if_true, before, Option.map_some]
        exact .failed _
      · simp only [hid, if_false]
        exact .same _
  next => exact .same _

theorem startStep_handled (codec : WebhookCodec) (s : StoreState) (request : Request)
    (id : String) : Handled (s.phase? id) ((startStep codec s request).1.phase? id) := by
  cases request with
  | getProduct productId => exact .same _
  | createOrder payload authorization idempotencyKey =>
    simp only [startStep, startCreate]
    split
    next => exact .same _
    next user _ =>
      split
      next => exact .same _
      next key _ =>
        simp only [identityLock]
        split <;> exact .same _
  | getOrder orderId authorization => exact .same _
  | cancelOrder orderId authorization =>
    simp only [startStep, cancelOrder]
    split
    next => exact .same _
    next user _ => exact cancelSection_handled s orderId user id
  | paymentWebhook rawBody xSignature =>
    simp only [startStep, paymentWebhook]
    split_ifs
    · exact .same _
    · exact .same _
    · exact .same _
    · split
      next => exact .same _
      next payload _ =>
        simp only [webhookSection]
        split
        · exact .same _
        · split
          next => exact .same _
          next order ho => exact settleOrder_handled ho payload.eventType id

/-- The writes of `_create_order_core` to an order, none of which looks at the order first. -/
def CorePc.writes (id : String) : CorePc → Option Phase → Option Phase
  | .storePaid orderId, p => if id = orderId then p.map fun p => (.paid, p.2) else p
  | .storeFailed orderId, p => if id = orderId then p.map fun p => (.paymentFailed, p.2) else p
  | .release orderId, p => if id = orderId then p.map fun p => (p.1, true) else p
  | _, p => p

theorem publish_phase {s t : StoreState} {hex : String} {c : Checkout} {pc : Pc}
    (h : coreStep s hex c .publish = some (t, pc)) (id : String) :
    t.phase? id = s.phase? id ∨
      (s.phase? id = none ∧ t.phase? id = some (.paymentPending, false)) := by
  simp only [coreStep] at h
  split at h
  next => cases h
  next hn =>
    cases h
    have fresh : s.orders.get? ("ord_" ++ hex) = none := by simpa using hn
    simp only [StoreState.phase?, Dict.get?_set]
    by_cases hid : id = "ord_" ++ hex
    · exact .inr (by simp [hid, fresh, buildOrder, Order.phase])
    · exact .inl (by simp [hid])

theorem coreStep_phase {s t : StoreState} {hex : String} {c : Checkout} {next : CorePc} {pc : Pc}
    (h : coreStep s hex c next = some (t, pc)) (id : String) :
    t.phase? id = next.writes id (s.phase? id) ∨
      (next = .publish ∧ s.phase? id = none ∧ t.phase? id = some (.paymentPending, false)) := by
  cases next with
  | lookup =>
    simp only [coreStep] at h
    split at h
    · cases h; exact .inl rfl
    · split at h <;> cases h <;> exact .inl rfl
  | replay orderId =>
    simp only [coreStep] at h
    split at h
    · cases h; exact .inl rfl
    · split at h
      · cases h; exact .inl rfl
      · split at h <;> cases h <;> exact .inl rfl
  | replayPending orderId =>
    obtain ⟨order, _, h⟩ := Option.bind_eq_some_iff.mp h
    split at h <;> cases h <;> exact .inl rfl
  | reserve =>
    simp only [coreStep] at h
    split at h
    next => cases h; exact .inl rfl
    next reserved hr =>
      cases h
      obtain ⟨_, rfl⟩ := reserveInventory_ok hr
      exact .inl rfl
  | publish =>
    rcases publish_phase h id with same | new
    · exact .inl same
    · exact .inr ⟨rfl, new⟩
  | record orderId => cases h; exact .inl rfl
  | charge orderId =>
    obtain ⟨order, _, h⟩ := Option.bind_eq_some_iff.mp h
    split at h
    next => cases h; exact .inl rfl
    next => split at h <;> cases h <;> exact .inl rfl
  | storeCharge orderId chargeId =>
    cases h
    exact .inl (phase?_setChargeId s orderId chargeId id)
  | storePaid orderId =>
    cases h
    exact .inl (phase?_setStatus s orderId id .paid)
  | reply orderId =>
    obtain ⟨order, _, h⟩ := Option.bind_eq_some_iff.mp h
    cases h
    exact .inl rfl
  | storeFailed orderId =>
    cases h
    exact .inl (phase?_setStatus s orderId id .paymentFailed)
  | storeFailure orderId =>
    cases h
    exact .inl (phase?_setFailureStatus s orderId 402 id)
  | release orderId =>
    cases h
    exact .inl (phase?_releaseInventoryOnce s orderId id)

/-- A request in `_create_order_core` changes an order the way its control state says, and any
other request the way a section under the state lock does. -/
theorem threadStep_phase {codec : WebhookCodec} {sys : System} {hex : String} {t : Thread}
    {store : StoreState} {pc : Pc} (h : threadStep codec sys hex t = some (store, pc)) :
    ((∀ c next, t.pc ≠ .core c next) ∧ (∀ c next, pc = .core c next → next = .lookup) ∧
      ∀ id, Handled (sys.store.phase? id) (store.phase? id)) ∨
    ∃ c next, t.pc = .core c next ∧ coreStep sys.store hex c next = some (store, pc) := by
  unfold threadStep at h
  split at h
  next hp =>
    have handled := startStep_handled codec sys.store t.request
    have outside := startStep_outside codec sys.store t.request
    rw [Option.some.inj h] at handled outside
    refine .inl ⟨by simp [hp], ?_, handled⟩
    intro c next hc
    exact absurd hc (outside c next)
  next hp =>
    split at h
    next => cases h
    next =>
      cases h
      refine .inl ⟨by simp [hp], ?_, fun _ => .same _⟩
      intro c next hc
      cases hc
      rfl
  next c next hp => exact .inr ⟨c, next, hp, h⟩
  next => cases h

end EdgecaseForge.FlashCart
