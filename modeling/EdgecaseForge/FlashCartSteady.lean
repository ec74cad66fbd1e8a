import EdgecaseForge.FlashCartVariants

namespace EdgecaseForge.FlashCart

/-- What is true of an order while no request works on it: its id has ten digits, it holds its quantity
until it fails or is cancelled, and it shows no charge until it is paid. -/
structure Order.Steady (o : Order) : Prop where
  named : o.id.length = 14
  held : o.status = .paymentPending ∨ o.status = .paid → o.inventoryReleased = false
  uncharged : o.status = .paymentPending → o.chargeId = none

def Steady (s : StoreState) : Prop :=
  ∀ id o, s.orders.get? id = some o → o.Steady

section Orders

variable {s t : StoreState} {orderId : String} {o o' order : Order}

theorem Order.Steady.pay (h : o.Steady) (waits : o.status = .paymentPending) (named : o'.id = o.id)
    (paid : o'.status = .paid) (released : o'.inventoryReleased = o.inventoryReleased) : o'.Steady where
  named := named ▸ h.named
  held _ := released.trans (h.held (.inl waits))
  uncharged pending := by cases paid.symm.trans pending

theorem Order.Steady.close (h : o.Steady) (named : o'.id = o.id)
    (closed : o'.status = .paymentFailed ∨ o'.status = .cancelled) : o'.Steady where
  named := named ▸ h.named
  held status := by
    obtain failed | cancelled := closed
    · rw [failed] at status
      simp at status
    · rw [cancelled] at status
      simp at status
  uncharged status := by
    rw [status] at closed
    simp at closed

theorem steady_resetState : Steady resetState := by
  intro id o h
  simp [resetState] at h

theorem Steady.failOrder (h : Steady s) (orderId : String) : Steady (failOrder s orderId) := by
  intro id o ho
  rw [get?_failOrder] at ho
  split at ho
  next =>
    obtain ⟨old, found, rfl⟩ := Option.map_eq_some_iff.mp ho
    exact (h id old found).close rfl (.inl rfl)
  next => exact h id o ho

theorem cancelSection_steady (h : Steady s) (orderId user : String) : Steady (cancelSection s orderId user).2 := by
  unfold cancelSection
  split
  next => exact h
  next =>
    split_ifs
    · exact h
    · exact h
    · exact h
    · intro id o ho
      dsimp only at ho
      rw [get?_releaseInventoryOnce, get?_updateOrder] at ho
      by_cases own : id = orderId
      · rw [if_pos own, if_pos own, Option.map_map] at ho
        obtain ⟨old, found, rfl⟩ := Option.map_eq_some_iff.mp ho
        exact (h id old found).close rfl (.inr rfl)
      · rw [if_neg own, if_neg own] at ho
        exact h id o ho

theorem settleOrder_steady (h : Steady s) (ho : s.orders.get? orderId = some order) (eventType : EventType) :
    Steady (settleOrder s orderId order eventType) := by
  unfold settleOrder
  split
  next waits =>
    cases eventType with
    | paymentSucceeded =>
      dsimp only
      split
      next charge _ =>
        intro id o hi
        rw [get?_updateOrder, get?_updateOrder] at hi
        by_cases own : id = orderId
        · rw [if_pos own, if_pos own, own, ho] at hi
          cases hi
          exact (h orderId order ho).pay waits rfl rfl rfl
        · rw [if_neg own, if_neg own] at hi
          exact h id o hi
      next =>
        intro id o hi
        rw [get?_updateOrder] at hi
        by_cases own : id = orderId
        · rw [if_pos own, own, ho] at hi
          cases hi
          exact (h orderId order ho).pay waits rfl rfl rfl
        · rw [if_neg own] at hi
          exact h id o hi
    | paymentFailed => exact h.failOrder orderId
  next => exact h

theorem webhookSection_steady (h : Steady s) (payload : WebhookPayload) :
    Steady (webhookSection s payload).2 := by
  unfold webhookSection
  split
  next => exact h
  next =>
    split
    next => exact h
    next order ho => exact settleOrder_steady h ho payload.eventType

theorem payOrder_steady (h : Steady s) (ho : s.orders.get? orderId = some order)
    (waits : order.status = .paymentPending) : Steady (payOrder s orderId order).2 := by
  obtain ⟨charge, stub, -, -, -, -, orders⟩ | ⟨-, paid⟩ | ⟨-, charge, paid⟩ := payOrder_cases ho
  · intro id o hi
    rw [orders] at hi
    split at hi
    next =>
      cases hi
      exact (h orderId order ho).pay waits rfl rfl rfl
    next => exact h id o hi
  · rw [paid]
    exact h.failOrder orderId
  · rw [paid]
    exact h

theorem createOrderCore_steady (h : Steady s) {hex : String} {c : Checkout} (digits : hex.length = 10)
    {result : Except HTTPException PublicOrder} (hs : createOrderCore s hex c = some (result, t)) :
    Steady t := by
  unfold createOrderCore at hs
  split at hs
  next orderId _ =>
    split at hs
    next =>
      cases hs
      exact h
    next order ho =>
      split_ifs at hs with _ _ waits
      · cases hs
        exact h
      · cases hs
        exact h
      · cases hs
        exact h
      · have paid := payOrder_steady h ho (not_not.mp waits)
        rw [Option.some.inj hs] at paid
        exact paid
  next =>
    split_ifs at hs
    · cases hs
      exact h
    · split at hs
      next =>
        cases hs
        exact h
      next reserved hr =>
        obtain ⟨_, rfl⟩ := reserveInventory_ok hr
        dsimp only at hs
        split_ifs at hs
        refine (congrArg (fun answered => Steady answered.2) (Option.some.inj hs)).mp
          (payOrder_steady ?_ (Dict.get?_set_self _ _ _) rfl)
        intro id o hi
        change (s.orders.set _ _).get? id = some o at hi
        rw [Dict.get?_set] at hi
        split at hi
        next =>
          cases hi
          refine ⟨?_, fun _ => rfl, fun _ => rfl⟩
          change ("ord_" ++ hex).length = 14
          rw [String.length_append, digits]
          rfl
        next => exact h id o hi

theorem identityLock_frame (s : StoreState) (identity : Identity) :
    ∃ locks, (identityLock s identity).2 = { s with idempotencyLocks := locks } := by
  unfold identityLock
  split
  next => exact ⟨s.idempotencyLocks, rfl⟩
  next => exact ⟨_, rfl⟩

theorem createOrder_steady (h : Steady s) {hex : String} (digits : hex.length = 10) {payload : OrderRequest}
    {authorization idempotencyKey : Option String} {result : Except HTTPException PublicOrder}
    (hs : createOrder s hex payload authorization idempotencyKey = some (result, t)) : Steady t := by
  unfold createOrder at hs
  split at hs
  next =>
    cases hs
    exact h
  next user _ =>
    split at hs
    next =>
      cases hs
      exact h
    next key _ =>
      have locked : Steady (identityLock s (user, key)).2 := by
        obtain ⟨locks, frame⟩ := identityLock_frame s (user, key)
        rw [frame]
        exact h
      exact createOrderCore_steady locked digits hs

theorem serve_steady {codec : WebhookCodec} {hex : String} {request : Request}
    {result : Except HTTPException Reply} (h : Steady s) (digits : hex.length = 10)
    (hs : serve codec s hex request = some (result, t)) : Steady t := by
  cases request with
  | createOrder payload authorization idempotencyKey =>
    obtain ⟨⟨_, _⟩, hc, same⟩ := Option.map_eq_some_iff.mp hs
    cases same
    exact createOrder_steady h digits hc
  | cancelOrder orderId authorization =>
    have after : Steady (cancelOrder s orderId authorization).2 := by
      unfold cancelOrder
      split
      next => exact h
      next user _ => exact cancelSection_steady h orderId user
    cases hs
    exact after
  | paymentWebhook rawBody xSignature =>
    have after : Steady (paymentWebhook codec s rawBody xSignature).2 := by
      unfold paymentWebhook
      dsimp only
      split_ifs
      · exact h
      · exact h
      · exact h
      · split
        next => exact h
        next payload _ => exact webhookSection_steady h payload
    cases hs
    exact after
  | _ =>
    cases hs
    exact h

end Orders

/-- An operation that timed out has been charged. -/
def TimeoutsCharged (s : StoreState) : Prop :=
  ∀ key ∈ s.payment.timeoutKeys, (s.payment.charges.get? key).isSome

theorem charge_timeouts {stub : PaymentStub} (h : ∀ key ∈ stub.timeoutKeys, (stub.charges.get? key).isSome)
    (operationKey : String) (amount : Int) (token : String) :
    ∀ key ∈ (stub.charge operationKey amount token).2.timeoutKeys,
      ((stub.charge operationKey amount token).2.charges.get? key).isSome := by
  have kept (charge : Charge) : ∀ key ∈ stub.timeoutKeys,
      ((stub.charges.set operationKey charge).get? key).isSome := by
    intro key hk
    rw [Dict.get?_set]
    split
    next => rfl
    next => exact h key hk
  obtain ⟨_, _, hc⟩ | ⟨_, hc⟩ | ⟨_, charge, hc | hc⟩ := charge_cases stub operationKey amount token
  · rw [hc]
    exact h
  · rw [hc]
    exact h
  · rw [hc]
    exact kept charge
  · rw [hc]
    intro key hk
    obtain old | new := List.mem_append.mp hk
    · exact kept charge key old
    · rw [List.mem_singleton.mp new]
      exact Option.isSome_iff_exists.mpr ⟨charge, Dict.get?_set_self _ _ _⟩

theorem Touch.timeoutsCharged {s t : StoreState} (ht : Touch s t) (h : TimeoutsCharged s) : TimeoutsCharged t := by
  cases ht with
  | charge _ => exact charge_timeouts h _ _ _
  | update orderId _ =>
    unfold TimeoutsCharged
    rw [payment_updateOrder]
    exact h
  | release orderId =>
    unfold TimeoutsCharged
    rw [payment_releaseInventoryOnce]
    exact h
  | _ => exact h

/-- What holds of the store between two requests, where the ids that were drawn have ten digits. -/
structure Serial (codec : WebhookCodec) (s : StoreState) : Prop where
  reachable : (serialMachine codec).Reachable s
  steady : Steady s

namespace Serial

variable {codec : WebhookCodec} {s t : StoreState} {id : String} {o : Order}

theorem start (codec : WebhookCodec) : Serial codec resetState :=
  ⟨⟨_, rfl, .refl⟩, steady_resetState⟩

theorem serve {request : Request} {hex : String} {result : Except HTTPException Reply} (h : Serial codec s)
    (digits : hex.length = 10) (hs : FlashCart.serve codec s hex request = some (result, t)) : Serial codec t where
  reachable := h.reachable.next (a := (request, hex)) trivial (Option.map_eq_some_iff.mpr ⟨_, hs, rfl⟩)
  steady := serve_steady h.steady digits hs

theorem wellFormed (h : Serial codec s) : WellFormed s := by
  obtain ⟨threads, -, reached⟩ := serial_reachable h.reachable
  exact reachable_wellFormed reached

theorem paymentsSound (h : Serial codec s) : PaymentsSound s := by
  obtain ⟨threads, -, reached⟩ := serial_reachable h.reachable
  exact reachable_paymentsSound reached

theorem timeoutsCharged (h : Serial codec s) : TimeoutsCharged s := by
  obtain ⟨threads, -, reached⟩ := serial_reachable h.reachable
  refine reachable_store_invariant TimeoutsCharged ?_ (fun _ _ => Touch.timeoutsCharged) reached
  intro key hk
  simp [resetState] at hk

/-- An order that is not there yet has neither been charged nor timed out. -/
theorem uncharged (h : Serial codec s) (absent : s.orders.get? id = none) :
    s.payment.charges.get? ("checkout:" ++ id) = none ∧ "checkout:" ++ id ∉ s.payment.timeoutKeys := by
  have free : s.payment.charges.get? ("checkout:" ++ id) = none := by
    cases hc : s.payment.charges.get? ("checkout:" ++ id) with
    | none => rfl
    | some charge =>
      obtain ⟨other, o, ho, same, -⟩ := h.paymentsSound.charged _ charge hc
      rw [← paymentKey_injective same, absent] at ho
      cases ho
  refine ⟨free, fun timed => ?_⟩
  have charged := h.timeoutsCharged _ timed
  rw [free] at charged
  cases charged

/-- An order that waits for its payment has a charge, which is one of those that were numbered. -/
theorem charged (h : Serial codec s) (ho : s.orders.get? id = some o) (waits : o.status = .paymentPending) :
    ∃ charge, s.payment.charges.get? o.paymentKey = some charge ∧
      ∃ i < s.payment.charges.size, charge.id = "ch_" ++ toString (i + 1) := by
  obtain ⟨charge, hc⟩ := ((serial_atRest h.reachable).orders id o ho).pending waits
  refine ⟨charge, hc, ?_⟩
  have listed : charge.id ∈ s.payment.chargeIds :=
    List.mem_map_of_mem (List.mem_map_of_mem (Dict.mem_of_get? hc))
  rw [h.paymentsSound.numbered] at listed
  obtain ⟨i, hi, same⟩ := List.mem_map.mp listed
  exact ⟨i, List.mem_range.mp hi, same.symm⟩

end Serial

end EdgecaseForge.FlashCart
