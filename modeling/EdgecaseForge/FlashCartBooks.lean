import EdgecaseForge.FlashCartSerial

namespace EdgecaseForge.FlashCart

theorem SameBooks.refl (s : StoreState) : SameBooks s s :=
  ⟨rfl, rfl⟩

theorem SameBooks.trans {s t u : StoreState} (hst : SameBooks s t) (htu : SameBooks t u) :
    SameBooks s u :=
  ⟨htu.creations.trans hst.creations, htu.idempotency.trans hst.idempotency⟩

theorem cancelSection_books (s : StoreState) (orderId user : String) :
    SameBooks s (cancelSection s orderId user).2 := by
  unfold cancelSection
  split
  next => exact .refl s
  next =>
    split_ifs
    · exact .refl s
    · exact .refl s
    · exact .refl s
    · exact (sameBooks_updateOrder s orderId _).trans (sameBooks_releaseInventoryOnce _ orderId)

theorem settleOrder_books (s : StoreState) (orderId : String) (order : Order)
    (eventType : EventType) : SameBooks s (settleOrder s orderId order eventType) := by
  unfold settleOrder
  split
  next =>
    cases eventType with
    | paymentSucceeded =>
      have paid := sameBooks_updateOrder s orderId (Order.setStatus .paid)
      dsimp only
      split
      next => exact paid.trans (sameBooks_updateOrder _ orderId _)
      next => exact paid
    | paymentFailed =>
      have failed := (sameBooks_updateOrder s orderId (Order.setStatus .paymentFailed)).trans
        (sameBooks_updateOrder _ orderId (Order.setFailureStatus 402))
      exact failed.trans (sameBooks_releaseInventoryOnce _ orderId)
  next => exact .refl s

theorem webhookSection_books (s : StoreState) (payload : WebhookPayload) :
    SameBooks s (webhookSection s payload).2 := by
  unfold webhookSection
  split
  next => exact .refl s
  next =>
    split
    next => exact .refl s
    next order _ =>
      have settled := settleOrder_books s payload.orderId order payload.eventType
      exact ⟨settled.creations, settled.idempotency⟩

theorem startStep_books (codec : WebhookCodec) (s : StoreState) (request : Request) :
    SameBooks s (startStep codec s request).1 := by
  cases request with
  | getProduct productId => exact .refl s
  | createOrder payload authorization idempotencyKey =>
    simp only [startStep, startCreate]
    split
    next => exact .refl s
    next user _ =>
      split
      next => exact .refl s
      next key _ =>
        simp only [identityLock]
        split <;> exact ⟨rfl, rfl⟩
  | getOrder orderId authorization => exact .refl s
  | cancelOrder orderId authorization =>
    simp only [startStep, cancelOrder]
    split
    next => exact .refl s
    next user _ => exact cancelSection_books s orderId user
  | paymentWebhook rawBody xSignature =>
    simp only [startStep, paymentWebhook]
    split_ifs
    · exact .refl s
    · exact .refl s
    · exact .refl s
    · split
      next => exact .refl s
      next payload _ => exact webhookSection_books s payload

/-- Only publishing adds a creation, and only recording changes the idempotency map. -/
theorem coreStep_books {s t : StoreState} {hex : String} {c : Checkout} {next : CorePc} {pc : Pc}
    (h : coreStep s hex c next = some (t, pc)) :
    (SameBooks s t ∧ ∀ id, next ≠ .record id) ∨
    (∃ id, next = .publish ∧ pc = .core c (.record id) ∧ t.idempotency = s.idempotency ∧
      t.creations = s.creations ++ [(c.identity, id)]) ∨
    (∃ id, next = .record id ∧ pc = .core c (.charge id) ∧
      t = { s with idempotency := s.idempotency.set c.identity id }) := by
  cases next with
  | publish =>
    simp only [coreStep] at h
    split at h
    next => cases h
    next =>
      cases h
      exact .inr (.inl ⟨_, rfl, rfl, rfl, rfl⟩)
  | record orderId =>
    cases h
    exact .inr (.inr ⟨orderId, rfl, rfl, rfl⟩)
  | lookup =>
    simp only [coreStep] at h
    refine .inl ⟨?_, by simp⟩
    split at h
    · cases h; exact .refl s
    · split at h <;> cases h <;> exact .refl s
  | replay orderId =>
    simp only [coreStep] at h
    refine .inl ⟨?_, by simp⟩
    split at h
    · cases h; exact .refl s
    · split at h
      · cases h; exact .refl s
      · split at h <;> cases h <;> exact .refl s
  | replayPending orderId =>
    obtain ⟨order, _, h⟩ := Option.bind_eq_some_iff.mp h
    refine .inl ⟨?_, by simp⟩
    split at h <;> cases h <;> exact .refl s
  | reserve =>
    simp only [coreStep] at h
    refine .inl ⟨?_, by simp⟩
    split at h
    next => cases h; exact .refl s
    next reserved hr =>
      cases h
      obtain ⟨_, rfl⟩ := reserveInventory_ok hr
      exact ⟨rfl, rfl⟩
  | charge orderId =>
    obtain ⟨order, _, h⟩ := Option.bind_eq_some_iff.mp h
    refine .inl ⟨?_, by simp⟩
    split at h
    next => cases h; exact ⟨rfl, rfl⟩
    next => split at h <;> cases h <;> exact ⟨rfl, rfl⟩
  | storeCharge orderId chargeId =>
    cases h
    exact .inl ⟨sameBooks_updateOrder s orderId _, by simp⟩
  | storePaid orderId =>
    cases h
    exact .inl ⟨sameBooks_updateOrder s orderId _, by simp⟩
  | reply orderId =>
    obtain ⟨order, _, h⟩ := Option.bind_eq_some_iff.mp h
    cases h
    exact .inl ⟨.refl s, by simp⟩
  | storeFailed orderId =>
    cases h
    exact .inl ⟨sameBooks_updateOrder s orderId _, by simp⟩
  | storeFailure orderId =>
    cases h
    exact .inl ⟨sameBooks_updateOrder s orderId _, by simp⟩
  | release orderId =>
    cases h
    exact .inl ⟨sameBooks_releaseInventoryOnce s orderId, by simp⟩

/-- What a call of `create_order` relies on when it looks its identity up. -/
structure BooksOf (s : StoreState) (identity : Identity) : Prop where
  recorded : ∀ id, s.idempotency.get? identity = some id → (identity, id) ∈ s.creations
  settled : ∀ id, (identity, id) ∈ s.creations → s.idempotency.get? identity = some id

theorem answer_holds {s : StoreState} (wf : WellFormed s) {request : Request} {c : Checkout}
    (serves : c.Serves s request) {id : String} {order : Order}
    (ho : s.orders.get? id = some order) (owned : s.ownedBy id c.user) :
    (answer order).Holds s request := by
  obtain ⟨o, ho', howner⟩ := owned
  cases Option.some.inj (ho.symm.trans ho')
  exact bodyAllowed_publicOrder wf serves.user ho fun _ => howner

theorem fail_holds (s : StoreState) (request : Request) (statusCode : Nat) (detail : String) :
    (fail statusCode detail).Holds s request :=
  trivial

theorem lookup_holds {s t : StoreState} {hex : String} {c : Checkout} {pc : Pc}
    {request : Request} (pub : Published s) (serves : c.Serves s request)
    (books : BooksOf s c.identity) (h : coreStep s hex c .lookup = some (t, pc)) :
    pc.Holds t request := by
  simp only [coreStep] at h
  split at h
  next orderId hr =>
    cases h
    have found := (Option.filter_eq_some_iff.mp hr).1
    exact ⟨serves, pub.owner _ _ (books.recorded _ found)⟩
  next hr =>
    split at h
    next =>
      cases h
      trivial
    next =>
      cases h
      refine ⟨serves, ?_⟩
      intro id hm
      have hid := books.settled id hm
      have hne := pub.named _ _ hm
      simp [hid, hne] at hr

theorem coreStep_holds {s t : StoreState} {hex : String} {c : Checkout} {next : CorePc} {pc : Pc}
    {request : Request} (wf : WellFormed s) (pub : Published s) (serves : c.Serves s request)
    (holds : next.Holds s c) (books : next = .lookup → BooksOf s c.identity)
    (h : coreStep s hex c next = some (t, pc)) : pc.Holds t request := by
  have later := (coreStep_touches h).extends
  have serves' := serves.extends later
  cases next with
  | lookup => exact lookup_holds pub serves (books rfl) h
  | replay orderId =>
    simp only [coreStep] at h
    split at h
    · cases h; trivial
    · split at h
      · cases h; trivial
      · split at h <;> cases h
        · trivial
        · exact ⟨serves, holds⟩
  | replayPending orderId =>
    obtain ⟨order, ho, h⟩ := Option.bind_eq_some_iff.mp h
    split at h <;> cases h
    · exact answer_holds wf serves ho holds
    · exact ⟨serves, holds⟩
  | reserve =>
    simp only [coreStep] at h
    split at h
    next => cases h; trivial
    next reserved hr =>
      cases h
      obtain ⟨_, rfl⟩ := reserveInventory_ok hr
      exact ⟨serves', holds⟩
  | publish =>
    simp only [coreStep] at h
    split at h
    next => cases h
    next =>
      cases h
      exact ⟨serves', List.mem_append_right _ (List.mem_singleton.mpr rfl)⟩
  | record orderId =>
    cases h
    exact ⟨serves', pub.owner _ _ holds⟩
  | charge orderId =>
    obtain ⟨order, ho, h⟩ := Option.bind_eq_some_iff.mp h
    have owned := later.owner _ _ holds
    split at h
    next => cases h; exact ⟨serves', owned⟩
    next =>
      split at h <;> cases h
      · exact ⟨serves', owned⟩
      · trivial
  | storeCharge orderId chargeId =>
    cases h
    exact ⟨serves', later.owner _ _ holds⟩
  | storePaid orderId =>
    cases h
    exact ⟨serves', later.owner _ _ holds⟩
  | reply orderId =>
    obtain ⟨order, ho, h⟩ := Option.bind_eq_some_iff.mp h
    cases h
    exact answer_holds wf serves ho holds
  | storeFailed orderId =>
    cases h
    exact ⟨serves', later.owner _ _ holds⟩
  | storeFailure orderId =>
    cases h
    exact ⟨serves', later.owner _ _ holds⟩
  | release orderId =>
    cases h
    trivial

end EdgecaseForge.FlashCart
