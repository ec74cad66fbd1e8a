import EdgecaseForge.FlashCartCheckouts

namespace EdgecaseForge.FlashCart

structure SameEvents (s t : StoreState) : Prop where
  events : t.processedEvents = s.processedEvents
  effects : t.webhookEffects = s.webhookEffects

theorem SameEvents.refl (s : StoreState) : SameEvents s s :=
  ⟨rfl, rfl⟩

theorem SameEvents.trans {s t u : StoreState} (hst : SameEvents s t) (htu : SameEvents t u) :
    SameEvents s u :=
  ⟨htu.events.trans hst.events, htu.effects.trans hst.effects⟩

theorem sameEvents_updateOrder (s : StoreState) (orderId : String) (f : Order → Order) :
    SameEvents s (updateOrder s orderId f) := by
  rw [updateOrder_frame]
  exact ⟨rfl, rfl⟩

theorem sameEvents_releaseInventoryOnce (s : StoreState) (orderId : String) :
    SameEvents s (releaseInventoryOnce s orderId) := by
  unfold releaseInventoryOnce
  split
  next => exact .refl s
  next => split <;> exact ⟨rfl, rfl⟩

theorem cancelSection_events (s : StoreState) (orderId user : String) :
    SameEvents s (cancelSection s orderId user).2 := by
  unfold cancelSection
  split
  next => exact .refl s
  next =>
    split_ifs
    · exact .refl s
    · exact .refl s
    · exact .refl s
    · exact (sameEvents_updateOrder s orderId _).trans (sameEvents_releaseInventoryOnce _ orderId)

theorem settleOrder_events (s : StoreState) (orderId : String) (order : Order) (eventType : EventType) :
    SameEvents s (settleOrder s orderId order eventType) := by
  unfold settleOrder
  split
  next =>
    cases eventType with
    | paymentSucceeded =>
      have paid := sameEvents_updateOrder s orderId (Order.setStatus .paid)
      dsimp only
      split
      next => exact paid.trans (sameEvents_updateOrder _ orderId _)
      next => exact paid
    | paymentFailed =>
      have failed := (sameEvents_updateOrder s orderId (Order.setStatus .paymentFailed)).trans
        (sameEvents_updateOrder _ orderId (Order.setFailureStatus 402))
      exact failed.trans (sameEvents_releaseInventoryOnce _ orderId)
  next => exact .refl s

/-- The books of an event that is processed now. -/
structure EventRecorded (s t : StoreState) (eventId : String) : Prop where
  fresh : eventId ∉ s.processedEvents
  events : t.processedEvents = s.processedEvents ++ [eventId]
  effects : t.webhookEffects =
    s.webhookEffects.set eventId ((s.webhookEffects.get? eventId).getD 0 + 1)

theorem webhookSection_events (s : StoreState) (payload : WebhookPayload) :
    (SameEvents s (webhookSection s payload).2 ∧ (webhookSection s payload).1 ≠ .ok "processed") ∨
    (EventRecorded s (webhookSection s payload).2 payload.eventId ∧
      (webhookSection s payload).1 = .ok "processed") := by
  unfold webhookSection
  split
  next => exact .inl ⟨.refl s, by simp⟩
  next fresh =>
    split
    next => exact .inl ⟨.refl s, by simp⟩
    next order _ =>
      have settled := settleOrder_events s payload.orderId order payload.eventType
      refine .inr ⟨⟨fresh, ?_, ?_⟩, rfl⟩
      · dsimp only
        rw [settled.events]
      · dsimp only
        rw [settled.effects]

/-- A signed delivery of an event that is answered as processed. -/
def Thread.records (codec : WebhookCodec) (eventId : String) (t : Thread) : Bool :=
  match t.request, t.pc with
  | .paymentWebhook rawBody xSignature, .finished (.ok (.webhook status)) =>
    status = "processed" && xSignature = some (codec.signature rawBody) &&
      (codec.decode rawBody).any (·.eventId = eventId)
  | _, _ => false

theorem records_open {codec : WebhookCodec} {eventId : String} {t : Thread}
    (waiting : ∀ result, t.pc ≠ .finished result) : t.records codec eventId = false := by
  unfold Thread.records
  split
  next hp => exact absurd hp (waiting _)
  next => rfl

theorem records_other {codec : WebhookCodec} {eventId : String} {t : Thread}
    (other : t.pc ≠ .finished (.ok (.webhook "processed"))) : t.records codec eventId = false := by
  unfold Thread.records
  split
  next status _ hp =>
    by_cases processed : status = "processed"
    · exact absurd (processed ▸ hp) other
    · simp [processed]
  next => rfl

/-- What a step does to the books of the events and to the deliveries that were answered as processed. -/
inductive EventStep (codec : WebhookCodec) (s t : StoreState) (after : Thread) : Prop
  | quiet (same : SameEvents s t) (silent : ∀ eventId, after.records codec eventId = false)
  | records (eventId : String) (recorded : EventRecorded s t eventId)
      (answered : ∀ other, after.records codec other = decide (other = eventId))

theorem paymentWebhook_events (codec : WebhookCodec) (s : StoreState) (rawBody : List UInt8)
    (xSignature : Option String) :
    EventStep codec s (paymentWebhook codec s rawBody xSignature).2
      ⟨.paymentWebhook rawBody xSignature,
        .finished ((paymentWebhook codec s rawBody xSignature).1.map .webhook)⟩ := by
  unfold paymentWebhook
  dsimp only
  split_ifs with absent foreign wrong
  · exact .quiet (.refl s) fun _ => rfl
  · exact .quiet (.refl s) fun _ => rfl
  · exact .quiet (.refl s) fun _ => rfl
  · cases hd : codec.decode rawBody with
    | none => exact .quiet (.refl s) fun _ => rfl
    | some payload =>
      dsimp only
      obtain ⟨same, other⟩ | ⟨recorded, processed⟩ := webhookSection_events s payload
      · refine .quiet same fun eventId => records_other ?_
        cases hr : (webhookSection s payload).1 with
        | error e => simp [Except.map]
        | ok status =>
          rintro he
          cases he
          exact other hr
      · refine .records payload.eventId recorded fun eventId => ?_
        have signed : xSignature = some (codec.signature rawBody) := by
          cases xSignature with
          | none => exact absurd rfl absent
          | some given => exact congrArg some (not_not.mp wrong)
        simp [processed, Except.map, Thread.records, signed, hd, eq_comm]

theorem coreStep_events {s t : StoreState} {hex : String} {c : Checkout} {next : CorePc} {pc : Pc}
    (h : coreStep s hex c next = some (t, pc)) :
    SameEvents s t ∧ pc ≠ .finished (.ok (.webhook "processed")) := by
  cases next with
  | lookup =>
    simp only [coreStep] at h
    split at h
    · cases h; exact ⟨.refl s, by simp⟩
    · split at h <;> cases h <;> exact ⟨.refl s, by simp [fail]⟩
  | replay orderId =>
    simp only [coreStep] at h
    split at h
    · cases h; exact ⟨.refl s, by simp [fail]⟩
    · split_ifs at h <;> cases h <;> exact ⟨.refl s, by simp [fail]⟩
  | replayPending orderId =>
    obtain ⟨order, _, h⟩ := Option.bind_eq_some_iff.mp h
    split at h <;> cases h <;> exact ⟨.refl s, by simp [answer]⟩
  | reserve =>
    simp only [coreStep] at h
    split at h
    next => cases h; exact ⟨.refl s, by simp⟩
    next reserved hr =>
      cases h
      obtain ⟨_, rfl⟩ := reserveInventory_ok hr
      exact ⟨⟨rfl, rfl⟩, by simp⟩
  | publish =>
    simp only [coreStep] at h
    split at h
    next => cases h
    next => cases h; exact ⟨⟨rfl, rfl⟩, by simp⟩
  | record orderId => cases h; exact ⟨⟨rfl, rfl⟩, by simp⟩
  | charge orderId =>
    obtain ⟨order, _, h⟩ := Option.bind_eq_some_iff.mp h
    split at h
    next => cases h; exact ⟨⟨rfl, rfl⟩, by simp⟩
    next => split at h <;> cases h <;> exact ⟨⟨rfl, rfl⟩, by simp⟩
  | reply orderId =>
    obtain ⟨order, _, h⟩ := Option.bind_eq_some_iff.mp h
    cases h
    exact ⟨.refl s, by simp [answer]⟩
  | release orderId => cases h; exact ⟨sameEvents_releaseInventoryOnce s orderId, by simp [fail]⟩
  | _ => cases h; exact ⟨sameEvents_updateOrder s _ _, by simp⟩

theorem startStep_events (codec : WebhookCodec) (s : StoreState) (request : Request) :
    EventStep codec s (startStep codec s request).1 ⟨request, (startStep codec s request).2⟩ := by
  cases request with
  | getProduct productId => exact .quiet (.refl s) fun _ => rfl
  | createOrder payload authorization idempotencyKey =>
    refine .quiet ?_ fun _ => rfl
    simp only [startStep, startCreate]
    split
    next => exact .refl s
    next user _ =>
      split
      next => exact .refl s
      next key _ =>
        simp only [identityLock]
        split <;> exact ⟨rfl, rfl⟩
  | getOrder orderId authorization => exact .quiet (.refl s) fun _ => rfl
  | cancelOrder orderId authorization =>
    refine .quiet ?_ fun _ => rfl
    simp only [startStep, cancelOrder]
    split
    next => exact .refl s
    next user _ => exact cancelSection_events s orderId user
  | paymentWebhook rawBody xSignature => exact paymentWebhook_events codec s rawBody xSignature

theorem threadStep_events {codec : WebhookCodec} {sys : System} {hex : String} {t : Thread}
    {store : StoreState} {pc : Pc} (h : threadStep codec sys hex t = some (store, pc)) :
    EventStep codec sys.store store { t with pc := pc } ∧ ∀ result, t.pc ≠ .finished result := by
  unfold threadStep at h
  split at h
  next hp =>
    have started := startStep_events codec sys.store t.request
    rw [Option.some.inj h] at started
    exact ⟨started, by simp [hp]⟩
  next c hp =>
    split at h
    next => cases h
    next =>
      cases h
      exact ⟨.quiet (.refl _) fun _ => records_open (by simp), by simp [hp]⟩
  next c next hp =>
    obtain ⟨same, other⟩ := coreStep_events h
    exact ⟨.quiet same fun _ => records_other other, by simp [hp]⟩
  next => cases h

/-- The books of the events and the answers that were given agree: an event counts as processed, with one
effect, for exactly one signed delivery that was answered so. -/
structure EventsOnce (codec : WebhookCodec) (sys : System) : Prop where
  once : sys.store.processedEvents.Nodup
  effects : ∀ eventId, sys.store.webhookEffects.get? eventId =
    if eventId ∈ sys.store.processedEvents then some 1 else none
  delivered : ∀ eventId, sys.threads.countP (Thread.records codec eventId) =
    if eventId ∈ sys.store.processedEvents then 1 else 0

theorem eventsOnce_start (codec : WebhookCodec) : EventsOnce codec ⟨resetState, []⟩ where
  once := List.nodup_nil
  effects := by simp [resetState]
  delivered := by simp [resetState]

theorem EventsOnce.arrive {codec : WebhookCodec} {sys : System} (h : EventsOnce codec sys)
    (request : Request) : EventsOnce codec { sys with threads := sys.threads ++ [⟨request, .start⟩] } where
  once := h.once
  effects := h.effects
  delivered := by
    intro eventId
    have silent : Thread.records codec eventId ⟨request, .start⟩ = false := records_open (by simp)
    simpa [silent] using h.delivered eventId

theorem EventsOnce.advance {codec : WebhookCodec} {sys : System} (h : EventsOnce codec sys) {i : Nat}
    {hex : String} {t : Thread} {store : StoreState} {pc : Pc} (ht : sys.threads[i]? = some t)
    (hs : threadStep codec sys hex t = some (store, pc)) :
    EventsOnce codec ⟨store, sys.threads.set i { t with pc := pc }⟩ := by
  obtain ⟨step, waiting⟩ := threadStep_events hs
  obtain ⟨hi, rfl⟩ := List.getElem?_eq_some_iff.mp ht
  have before (eventId : String) : sys.threads[i].records codec eventId = false := records_open waiting
  cases step with
  | quiet same silent =>
    refine ⟨same.events ▸ h.once, fun eventId => ?_, fun eventId => ?_⟩
    · rw [same.effects, same.events]
      exact h.effects eventId
    · rw [List.countP_set hi, before, silent, same.events]
      exact h.delivered eventId
  | records eventId recorded answered =>
    have absent := h.effects eventId
    rw [if_neg recorded.fresh] at absent
    refine ⟨?_, fun other => ?_, fun other => ?_⟩
    · rw [recorded.events]
      exact List.nodup_append.mpr ⟨h.once, List.nodup_singleton _, by
        rintro a ha b hb rfl
        exact recorded.fresh (List.mem_singleton.mp hb ▸ ha)⟩
    · rw [recorded.effects, recorded.events, Dict.get?_set, absent]
      by_cases same : other = eventId
      · simp [same]
      · simpa [same] using h.effects other
    · rw [List.countP_set hi, before, answered, recorded.events]
      have counted := h.delivered other
      by_cases same : other = eventId
      · subst same
        rw [if_neg recorded.fresh] at counted
        simp [counted]
      · simp [same, counted]

theorem events_processed_once (codec : WebhookCodec) {sys : System}
    (h : (machine codec).Reachable sys) : EventsOnce codec sys := by
  refine h.invariant (EventsOnce codec) ?_ ?_
  · rintro _ rfl
    exact eventsOnce_start codec
  · intro sys a next _ hi _ hs
    obtain ⟨request, rfl, rfl⟩ | ⟨i, hex, t, store, pc, rfl, ht, hstep, rfl⟩ := systemStep_cases hs
    · exact hi.arrive request
    · exact hi.advance ht hstep

/-- A body, delivered twice with its signature, about an order that timed out. -/
def redeliveredCodec : WebhookCodec where
  signature := fun _ => "5f2b"
  decode := fun rawBody => if rawBody = [0x7B] then some ⟨"evt-1", .paymentSucceeded, "ord_0a1b2c3d4e"⟩ else none

def redeliveredEvent : List Action :=
  .arrive (.createOrder slowOrder (some "Bearer buyer-b") (some "key")) ::
    (List.replicate 7 (.advance 0 "0a1b2c3d4e") ++
      [.arrive (.paymentWebhook [0x7B] (some "5f2b")), .arrive (.paymentWebhook [0x7B] (some "5f2b")),
        .advance 2 "", .advance 1 ""])

theorem events_processed_once_redelivered : ∃ sys,
    (machine redeliveredCodec).run ⟨resetState, []⟩ redeliveredEvent = some sys ∧
      sys.store.processedEvents = ["evt-1"] ∧ EventsOnce redeliveredCodec sys := by
  have hr : ((machine redeliveredCodec).run ⟨resetState, []⟩ redeliveredEvent).any
      (fun sys => sys.store.processedEvents = ["evt-1"]) = true := by decide
  obtain ⟨sys, hr, processed⟩ := (Option.any_eq_true _ _).mp hr
  refine ⟨sys, hr, by simpa using processed, ?_⟩
  exact events_processed_once _ (Transition.Machine.Reachable.run ⟨_, rfl, .refl⟩ hr)

end EdgecaseForge.FlashCart
