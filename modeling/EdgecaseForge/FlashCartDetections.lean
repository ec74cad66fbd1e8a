import EdgecaseForge.FlashCartMutants
import EdgecaseForge.FlashCartRejections
import EdgecaseForge.LockstepRuns

namespace EdgecaseForge.FlashCart

/-- A store, and the payment digits that were drawn so far: none is drawn twice. -/
structure Session where
  store : StoreState
  drawn : List String

def Variant.answer (v : Variant) (codec : WebhookCodec) (a : Session) (request : Call × Draws) :
    Option (Except HTTPException Reply × Session) :=
  if request.2.payment ∈ a.drawn then none
  else (v.serve codec a.store request.2 request.1).map fun served =>
    (served.1, ⟨served.2, a.drawn ++ [request.2.payment]⟩)

def Session.visible (a : Session) : Visible :=
  a.store.visible

section Shows

variable {codec : WebhookCodec} {E : List String → List String → Prop} {s t s' t' : StoreState} {w : Variant}
  {draws : Draws} {user key orderId : String} {body : OrderBody} {order : Order} {drawn : List String}
  {call : Call} {reply : Except HTTPException Reply}

theorem Call.Places.serve (places : call.Places user key body) (admits : w.admits body.quantity = true)
    (served : w.serve codec s draws call = some (reply, s')) :
    ∃ result, w.createOrderCore (w.lock s (user, key)) draws user key body = some (result, s') ∧
      reply = result.map .order := by
  cases call with
  | createOrder given authorization idempotencyKey =>
    obtain ⟨rfl, -, auth, named⟩ := places
    obtain ⟨⟨result, after⟩, created, same⟩ := Option.map_eq_some_iff.mp served
    cases same
    refine ⟨result, ?_, rfl⟩
    unfold Variant.createOrder at created
    rw [admits] at created
    simpa only [Bool.not_true, Bool.false_eq_true, if_false, auth, named] using created
  | _ => exact places.elim

theorem createOrderCore_opens {result : Except HTTPException PublicOrder} (opened : Opens s user key body)
    (served : w.createOrderCore s draws user key body = some (result, s')) :
    s.orders.get? ("ord_" ++ draws.order) = none ∧
      w.payOrder (w.recordOrder { s with stock := s.stock - body.quantity } user key body
          ("ord_" ++ draws.order)) draws.payment ("ord_" ++ draws.order)
        (w.buildOrder s.price user body ("ord_" ++ draws.order)) = (result, s') := by
  unfold Variant.createOrderCore at served
  have enough : ¬ s.stock < body.quantity := not_lt.mpr opened.stock
  simp only [opened.first, opened.product, ne_eq, not_true_eq_false, if_false, reserveInventory,
    if_neg enough] at served
  split_ifs at served with taken
  exact ⟨Option.not_isSome_iff_eq_none.mp taken, Option.some.inj served⟩

theorem createOrderCore_resumes (resumed : Resumes s user key body orderId order) :
    w.createOrderCore s draws user key body = some (w.payOrder s draws.payment orderId order) := by
  unfold Variant.createOrderCore
  have waits : order.status ≠ .paymentFailed := by rw [resumed.waits]; decide
  simp only [resumed.entry, resumed.found, resumed.payload, resumed.waits, ne_eq, not_true_eq_false, if_false]
  rw [if_neg (by decide)]

theorem payOrder_reply (w : Variant) (s : StoreState) (hex orderId : String) (order : Order) :
    (w.payOrder s hex orderId order).1 =
      (s.payment.charge (w.operationKey order hex) order.total order.paymentToken).1.map
        fun charge => publicOrder ((order.setChargeId charge.id).setStatus .paid) := by
  unfold Variant.payOrder
  split
  next charge stub hc => rw [hc]; rfl
  next e stub hc =>
    rw [hc]
    dsimp only
    split <;> rfl

/-- Whatever its payment comes to, an order keeps the total it was built with. -/
theorem payOrder_total (released : w.releaseDeclined = releaseInventoryOnce) (hex : String)
    (ho : s.orders.get? orderId = some order) :
    ∃ o, (w.payOrder s hex orderId order).2.orders.get? orderId = some o ∧ o.total = order.total := by
  unfold Variant.payOrder
  split
  next charge stub hc =>
    replace ho : ({ s with payment := stub } : StoreState).orders.get? orderId = some order := ho
    exact ⟨_, get?_updated (get?_updated ho _) _, rfl⟩
  next e stub hc =>
    replace ho : ({ s with payment := stub } : StoreState).orders.get? orderId = some order := ho
    dsimp only
    split
    next =>
      have failed := get?_updated (get?_updated ho (Order.setStatus .paymentFailed)) (Order.setFailureStatus 402)
      have back := get?_releaseInventoryOnce (updateOrder (updateOrder { s with payment := stub } orderId
        (Order.setStatus .paymentFailed)) orderId (Order.setFailureStatus 402)) orderId orderId
      rw [if_pos rfl, failed, Option.map_some] at back
      rw [released]
      exact ⟨_, back, rfl⟩
    next => exact ⟨order, ho, rfl⟩

/-- A look at two stores tells apart what one of their orders shows. -/
theorem visible_ne (id : String) {o o' : Order} (ho : s.orders.get? id = some o)
    (ht : t.orders.get? id = some o') (other : publicOrder o ≠ publicOrder o') : s.visible ≠ t.visible := by
  intro same
  have shown := congrFun (congrArg Visible.orders same) id
  simp only [StoreState.visible, ho, ht, Option.map_some] at shown
  exact other (Option.some.inj shown)

theorem visible_ne_of_stock (other : s.stock ≠ t.stock) : s.visible ≠ t.visible :=
  fun same => other (congrArg Visible.stock same)

/-- What M03 shows to anyone, the source keeps from them. -/
theorem foreign_departs {authorization : Option String} (auth : userFromHeader authorization = .ok user)
    (ho : s.orders.get? orderId = some order) (plain : user ≠ "admin") (other : order.owner ≠ user)
    (h : Twin Eq E s t) :
    (Variant.clean.getOrder s orderId authorization).map Reply.order ≠
      ((Mutant.variant .m03).getOrder t orderId authorization).map Reply.order := by
  obtain ⟨o', ht, -⟩ := h.get? ho
  have hidden : Variant.clean.mayRead user order = false := by simp [Variant.clean, plain, other]
  have shown : (Mutant.variant .m03).mayRead user o' = true := rfl
  unfold Variant.getOrder
  simp only [auth, bind, Except.bind, ho, ht, hidden, shown, Bool.not_false, Bool.not_true, if_true,
    Bool.false_eq_true, if_false]
  intro same
  cases same

theorem unsigned_departs {rawBody : List UInt8} {xSignature : Option String} {e : HTTPException}
    (refused : Variant.clean.verify codec rawBody xSignature = .error e)
    (shows : ¬ (e.statusCode = 500 ∧ codec.decode rawBody = none)) :
    (Variant.clean.paymentWebhook codec s rawBody xSignature).1.map Reply.webhook ≠
      ((Mutant.variant .m04).paymentWebhook codec t rawBody xSignature).1.map Reply.webhook := by
  have open_ : (Mutant.variant .m04).verify codec rawBody xSignature = .ok () := rfl
  unfold Variant.paymentWebhook Variant.accept
  rw [refused, open_]
  cases decoded : codec.decode rawBody with
  | none =>
    intro same
    cases same
    exact shows ⟨rfl, decoded⟩
  | some payload =>
    dsimp only
    unfold Variant.webhookSection
    split_ifs
    · intro same
      cases same
    · intro same
      cases ht : t.orders.get? payload.orderId with
      | none =>
        rw [ht] at same
        cases same
        obtain bad | bad := verify_error refused
        · cases bad
        · cases bad
      | some order =>
        rw [ht] at same
        cases same

theorem redelivered_departs {rawBody : List UInt8} {xSignature : Option String} {payload : WebhookPayload}
    (accepted : Variant.clean.accept codec rawBody xSignature = .ok payload)
    (known : payload.eventId ∈ s.processedEvents) (empty : t.processedEvents = []) :
    (Variant.clean.paymentWebhook codec s rawBody xSignature).1.map Reply.webhook ≠
      ((Mutant.variant .m05).paymentWebhook codec t rawBody xSignature).1.map Reply.webhook := by
  have accepted' : (Mutant.variant .m05).accept codec rawBody xSignature = .ok payload := accepted
  unfold Variant.paymentWebhook
  rw [accepted, accepted']
  dsimp only
  unfold Variant.webhookSection
  rw [if_pos known, empty, if_neg List.not_mem_nil]
  cases t.orders.get? payload.orderId with
  | none =>
    intro same
    cases same
  | some order =>
    intro same
    have differ : "duplicate" ≠ "processed" := by decide
    exact differ (Reply.webhook.inj (Except.ok.inj same))

theorem userFromHeader_text {authorization : Option String} {e : HTTPException}
    (refused : userFromHeader authorization = .error e) : e.detail ≠ "Unprocessable Entity" := by
  unfold userFromHeader at refused
  split at refused
  next => cases refused; decide
  next =>
    dsimp only at refused
    split_ifs at refused
    · cases refused; decide
    · cases refused; decide

theorem payOrder_text {hex : String} {e : HTTPException}
    (refused : (w.payOrder s hex orderId order).1 = .error e) : e.detail ≠ "Unprocessable Entity" := by
  rw [payOrder_reply] at refused
  obtain ⟨_, _, hc⟩ | ⟨_, hc⟩ | ⟨_, _, hc | hc⟩ :=
    charge_cases s.payment (w.operationKey order hex) order.total order.paymentToken
  · rw [hc] at refused
    cases refused
  · rw [hc] at refused
    cases refused
    decide
  · rw [hc] at refused
    cases refused
  · rw [hc] at refused
    cases refused
    decide

/-- `create_order` never says what is answered to a body that fails its field check. -/
theorem createOrder_text {authorization idempotencyKey : Option String} {e : HTTPException}
    (admits : w.admits body.quantity = true)
    (served : w.createOrder s draws body authorization idempotencyKey = some (.error e, s')) :
    e.detail ≠ "Unprocessable Entity" := by
  unfold Variant.createOrder at served
  rw [admits] at served
  simp only [Bool.not_true, Bool.false_eq_true, if_false] at served
  cases auth : userFromHeader authorization with
  | error refused =>
    rw [auth] at served
    cases served
    exact userFromHeader_text auth
  | ok user =>
    cases named : idempotencyKey.filter (· ≠ "") with
    | none =>
      rw [auth, named] at served
      cases served
      decide
    | some key =>
      rw [auth, named] at served
      dsimp only at served
      unfold Variant.createOrderCore at served
      split at served
      next =>
        split at served
        next => cases served; decide
        next =>
          split_ifs at served
          · cases served; decide
          · cases served
            exact (by decide : "Payment declined" ≠ "Unprocessable Entity")
          · cases served
          · exact payOrder_text (congrArg Prod.fst (Option.some.inj served))
      next =>
        split_ifs at served
        · cases served; decide
        · unfold reserveInventory at served
          split at served
          next out =>
            split_ifs at out
            cases out
            cases served
            decide
          next =>
            dsimp only at served
            split_ifs at served
            exact payOrder_text (congrArg Prod.fst (Option.some.inj served))

theorem Call.Places.opens (places : call.Places user key body) (admits : w.admits body.quantity = true)
    (locks : w.LocksOnly) (opened : Opens s user key body)
    (served : w.serve codec s draws call = some (reply, s')) :
    ∃ table result, s.orders.get? ("ord_" ++ draws.order) = none ∧
      w.payOrder (w.recordOrder { s with stock := s.stock - body.quantity, idempotencyLocks := table } user key body
          ("ord_" ++ draws.order)) draws.payment ("ord_" ++ draws.order)
        (w.buildOrder s.price user body ("ord_" ++ draws.order)) = (result, s') := by
  obtain ⟨result, core, -⟩ := places.serve admits served
  obtain ⟨table, locked⟩ := locks s (user, key)
  rw [locked] at core
  have opened' : Opens { s with idempotencyLocks := table } user key body :=
    ⟨opened.first, opened.product, opened.stock⟩
  obtain ⟨absent, paid⟩ := createOrderCore_opens opened' core
  exact ⟨table, result, absent, paid⟩

theorem payOrder_declines {hex : String}
    (declined : s.payment.charge (w.operationKey order hex) order.total order.paymentToken =
      (.error ⟨402, "Payment declined"⟩, s.payment)) :
    (w.payOrder s hex orderId order).2 = w.releaseDeclined (declineOrder s orderId) orderId := by
  unfold Variant.payOrder
  rw [declined]
  dsimp only
  rw [if_pos rfl]
  rfl

theorem declineOrder_stock (s : StoreState) (orderId : String) : (declineOrder s orderId).stock = s.stock := by
  unfold declineOrder
  rw [updateOrder_updateOrder_frame]

theorem declined_stock (released : w.releaseDeclined = releaseInventoryOnce)
    (ho : s.orders.get? orderId = some order) (held : order.inventoryReleased = false) :
    (w.releaseDeclined (declineOrder s orderId) orderId).stock = s.stock + order.quantity := by
  rw [released]
  exact failOrder_stock ho held

/-- A decline gives the stock back in the source, and not in M07. -/
theorem declined_departs (serial : Serial codec s) (h : Twin Eq Eq s t) (places : call.Places user key body)
    (opened : Opens s user key body) (decline : body.paymentToken = "decline") {reply' : Except HTTPException Reply}
    (positive : 0 < body.quantity) (locks : Variant.clean.LocksOnly)
    (admits : Variant.clean.admits body.quantity = true)
    (ours : Variant.clean.serve codec s draws call = some (reply, s'))
    (theirs : (Mutant.variant .m07).serve codec t draws call = some (reply', t')) : s'.visible ≠ t'.visible := by
  have opened' : Opens t user key body :=
    ⟨h.idempotency ▸ opened.first, opened.product, h.stock ▸ opened.stock⟩
  obtain ⟨table, result, absent, paid⟩ := places.opens admits locks opened ours
  obtain ⟨table', result', -, paid'⟩ := places.opens (w := Mutant.variant .m07) admits locks opened' theirs
  obtain ⟨free, untimed⟩ := serial.uncharged absent
  have refused (price : Int) : s.payment.charge ("checkout:" ++ ("ord_" ++ draws.order)) price body.paymentToken =
      (.error ⟨402, "Payment declined"⟩, s.payment) := by
    rw [charge_new free untimed, if_pos decline]
  have placed : (Variant.clean.recordOrder { s with
      stock := s.stock - body.quantity, idempotencyLocks := table } user key body
        ("ord_" ++ draws.order)).orders.get? ("ord_" ++ draws.order) =
      some (Variant.clean.buildOrder s.price user body ("ord_" ++ draws.order)) :=
    Dict.get?_set_self _ _ _
  have ours' := (payOrder_declines (refused _)).symm.trans (congrArg Prod.snd paid)
  have theirs' := (payOrder_declines (h.payment ▸ refused _)).symm.trans (congrArg Prod.snd paid')
  refine visible_ne_of_stock ?_
  have back : s'.stock = s.stock - body.quantity + body.quantity :=
    (congrArg StoreState.stock ours').symm.trans (declined_stock rfl placed rfl)
  have gone : t'.stock = t.stock - body.quantity :=
    (congrArg StoreState.stock theirs').symm.trans (declineOrder_stock _ _)
  rw [back, gone, h.stock]
  omega

/-- A quote shows in the total of the order. -/
theorem quoted_departs (h : Twin Eq Eq s t) (places : call.Places user key body)
    (opened : Opens s user key body) {total : Int} (quoted : body.quotedTotal = some total)
    (other : total ≠ s.price * body.quantity) {reply' : Except HTTPException Reply}
    (locks : Variant.clean.LocksOnly) (admits : Variant.clean.admits body.quantity = true)
    (ours : Variant.clean.serve codec s draws call = some (reply, s'))
    (theirs : (Mutant.variant .m10).serve codec t draws call = some (reply', t')) : s'.visible ≠ t'.visible := by
  have opened' : Opens t user key body :=
    ⟨h.idempotency ▸ opened.first, opened.product, h.stock ▸ opened.stock⟩
  obtain ⟨table, result, -, paid⟩ := places.opens admits locks opened ours
  obtain ⟨table', result', -, paid'⟩ := places.opens (w := Mutant.variant .m10) admits locks opened' theirs
  obtain ⟨o, ho, total_eq⟩ := payOrder_total (w := Variant.clean) rfl draws.payment
    (s := Variant.clean.recordOrder { s with stock := s.stock - body.quantity, idempotencyLocks := table } user key
      body ("ord_" ++ draws.order)) (Dict.get?_set_self _ ("ord_" ++ draws.order) _)
  obtain ⟨o', ho', total_eq'⟩ := payOrder_total (w := Mutant.variant .m10) rfl draws.payment
    (s := (Mutant.variant .m10).recordOrder { t with stock := t.stock - body.quantity, idempotencyLocks := table' }
      user key body ("ord_" ++ draws.order)) (Dict.get?_set_self _ ("ord_" ++ draws.order) _)
  have ours' := congrArg Prod.snd paid
  have theirs' := congrArg Prod.snd paid'
  refine visible_ne ("ord_" ++ draws.order) (ours' ▸ ho) (theirs' ▸ ho') fun same => other ?_
  have totals : o.total = o'.total := congrArg PublicOrder.total same
  rw [total_eq, total_eq'] at totals
  change s.price * body.quantity = body.quotedTotal.getD (t.price * body.quantity) at totals
  rw [quoted] at totals
  exact totals.symm

/-- The source answers with the charge that it has; M08 charges once more. -/
theorem resumed_departs (serial : Serial codec s) (h : Twin (Recharged drawn) Eq s t)
    (fresh : draws.payment ∉ drawn) (places : call.Places user key body)
    (resumed : Resumes s user key body orderId order)
    (locks : Variant.clean.LocksOnly) (admits : Variant.clean.admits body.quantity = true)
    (ours : Variant.clean.serve codec s draws call = some (reply, s')) :
    (Mutant.variant .m08).serve codec t draws call ≠ some (reply, t') := by
  intro theirs
  obtain ⟨result, core, same⟩ := places.serve admits ours
  obtain ⟨result', core', same'⟩ := places.serve (w := Mutant.variant .m08) admits theirs
  obtain ⟨table, locked⟩ := locks s (user, key)
  obtain ⟨table', locked'⟩ := locks t (user, key)
  have ht := h.open_ resumed.found (by rw [resumed.waits]; decide)
  have resumed₁ : Resumes { s with idempotencyLocks := table } user key body orderId order :=
    ⟨resumed.entry, resumed.found, resumed.payload, resumed.waits⟩
  have resumed₂ : Resumes { t with idempotencyLocks := table' } user key body orderId order :=
    ⟨h.idempotency ▸ resumed.entry, ht, resumed.payload, resumed.waits⟩
  rw [locked, createOrderCore_resumes resumed₁] at core
  change Variant.createOrderCore _ (Variant.clean.lock t (user, key)) _ _ _ _ = _ at core'
  rw [locked', createOrderCore_resumes resumed₂] at core'
  have answered := (payOrder_reply _ _ _ _ _).symm.trans (congrArg Prod.fst (Option.some.inj core))
  have answered' := (payOrder_reply _ _ _ _ _).symm.trans (congrArg Prod.fst (Option.some.inj core'))
  obtain ⟨charge, charged, i, before, numbered⟩ := serial.charged resumed.found resumed.waits
  have kept : s.payment.charge order.paymentKey order.total order.paymentToken = (.ok charge, s.payment) := by
    unfold PaymentStub.charge
    rw [charged]
  obtain ⟨free, untimed⟩ := h.payment.unnamed order.paymentKey fresh
  have again := charge_new free untimed order.total order.paymentToken
  rw [h.payment.size] at again
  replace answered : result = .ok (publicOrder ((order.setChargeId charge.id).setStatus .paid)) :=
    answered.symm.trans (congrArg (fun a => Except.map _ a.1) kept)
  replace answered' : result' = Except.map _ _ := answered'.symm.trans (congrArg (fun a => Except.map _ a.1) again)
  rw [answered] at same
  rw [same, answered'] at same'
  split_ifs at same'
  · cases same'
  · cases same'
  · have ids : charge.id = "ch_" ++ toString (s.payment.charges.size + 1) :=
      Option.some.inj (congrArg PublicOrder.chargeId (Reply.order.inj (Except.ok.inj same')))
    have numbers := chargeId_injective (numbered.symm.trans ids)
    omega

/-- The source tells the charge of an order that is reported as paid; M08 does not find it. -/
theorem reported_departs (serial : Serial codec s) (h : Twin (Recharged drawn) Eq s t)
    {rawBody : List UInt8} {xSignature : Option String} {payload : WebhookPayload}
    (accepted : Variant.clean.accept codec rawBody xSignature = .ok payload)
    (unknown : payload.eventId ∉ s.processedEvents) (ho : s.orders.get? payload.orderId = some order)
    (waits : order.status = .paymentPending) (succeeded : payload.eventType = .paymentSucceeded) :
    (Variant.clean.paymentWebhook codec s rawBody xSignature).2.visible ≠
      ((Mutant.variant .m08).paymentWebhook codec t rawBody xSignature).2.visible := by
  have accepted' : (Mutant.variant .m08).accept codec rawBody xSignature = .ok payload := accepted
  have ht := h.open_ ho (by rw [waits]; decide)
  obtain ⟨charge, charged, -⟩ := serial.charged ho waits
  have lost : t.payment.charges.get? order.paymentKey = none := by
    cases hc : t.payment.charges.get? order.paymentKey with
    | none => rfl
    | some other =>
      have long := (h.payment.charges _ (by rw [hc]; rfl)).length
      obtain ⟨named, keyed, -⟩ := serial.wellFormed.terms _ _ ho
      have short := (serial.steady _ _ ho).named
      rw [keyed, String.length_append, ← named, short] at long
      cases long
  have uncharged := (serial.steady _ _ ho).uncharged waits
  unfold Variant.paymentWebhook
  rw [accepted, accepted']
  dsimp only
  unfold Variant.webhookSection
  have unknown' : payload.eventId ∉ t.processedEvents := by
    rw [← h.events]
    exact unknown
  rw [if_neg unknown, if_neg unknown', ho, ht]
  dsimp only
  unfold settleOrder
  rw [if_pos waits, if_pos waits, succeeded]
  dsimp only
  rw [charged, lost]
  refine visible_ne payload.orderId (get?_updated (get?_updated ho _) _) (get?_updated ht _) fun same => ?_
  have ids : some charge.id = order.chargeId := congrArg PublicOrder.chargeId same
  rw [uncharged] at ids
  cases ids

/-- A second cancellation brings stock back in M09 that was never taken. -/
theorem cancelled_departs (serial : Serial codec s) (h : Twin Eq Eq s t) {authorization : Option String}
    (auth : userFromHeader authorization = .ok user) (may : user = "admin" ∨ order.owner = user)
    (ho : s.orders.get? orderId = some order) (cancelled : order.status = .cancelled) :
    (Variant.clean.cancelOrder s orderId authorization).2.visible ≠
      ((Mutant.variant .m09).cancelOrder t orderId authorization).2.visible := by
  obtain ⟨o', ht, twin⟩ := h.get? ho
  have allowed : ¬ (user ≠ "admin" ∧ order.owner ≠ user) := by
    rintro ⟨plain, other⟩
    exact may.elim plain other
  have positive := (serial.wellFormed.terms _ _ ho).2.2.2
  unfold Variant.cancelOrder
  rw [auth]
  dsimp only
  rw [ho, ht]
  dsimp only
  rw [twin.owner, if_neg allowed, if_neg allowed]
  have kept : Variant.clean.cancel s orderId order = (.ok (publicOrder order), s) := if_pos cancelled
  have again : (Mutant.variant .m09).cancel t orderId o' = cancelAgain t orderId o' := rfl
  rw [kept, again]
  unfold cancelAgain
  rw [twin.status, cancelled]
  dsimp only
  rw [if_neg (by simp)]
  refine visible_ne_of_stock ?_
  change s.stock ≠ (updateOrder t orderId (Order.setStatus .cancelled)).stock + o'.quantity
  rw [updateOrder_frame]
  change s.stock ≠ t.stock + o'.quantity
  rw [h.stock, twin.quantity]
  omega

end Shows

/-- The session of a case behind that of the source. -/
structure Mutant.Shadows (codec : WebhookCodec) (m : Mutant) (a b : Session) : Prop where
  serial : Serial codec a.store
  drawn : b.drawn = a.drawn
  twin : Twin (m.ledgers a.drawn) m.events a.store b.store

section Sessions

variable {codec : WebhookCodec} {s t s' t' : StoreState} {draws : Draws} {drawn : List String} {call : Call}
  {reply reply' : Except HTTPException Reply} {m : Mutant}

theorem clean_locksOnly : Variant.clean.LocksOnly :=
  identityLock_frame

theorem Mutant.locksOnly (m : Mutant) : m.variant.LocksOnly := by
  cases m with
  | m02 => exact fun s _ => ⟨s.idempotencyLocks, rfl⟩
  | _ => exact identityLock_frame

theorem Mutant.admits (m : Mutant) (quantity : Int) (admitted : Variant.clean.admits quantity = true) :
    m.variant.admits quantity = true := by
  cases m with
  | m06 => rfl
  | _ => exact admitted

theorem Call.Places.admits {user key : String} {body : OrderBody} (places : call.Places user key body) :
    Variant.clean.admits body.quantity = true := by
  cases call with
  | createOrder given authorization idempotencyKey => exact places.2.1
  | _ => exact places.elim

theorem positive_of_admits {quantity : Int} (admitted : Variant.clean.admits quantity = true) : 0 < quantity := by
  simp only [Variant.clean, decide_eq_true_eq] at admitted
  exact admitted.1

/-- A request that shows a case is answered otherwise, or leaves a store that looks otherwise. -/
theorem Mutant.Shows.departs (shows : m.Shows codec s call) (serial : Serial codec s)
    (h : Twin (m.ledgers drawn) m.events s t) (fresh : draws.payment ∉ drawn)
    (ours : Variant.clean.serve codec s draws call = some (reply, s'))
    (theirs : m.variant.serve codec t draws call = some (reply, t')) : s'.visible ≠ t'.visible := by
  cases shows with
  | foreign auth ho plain other =>
    cases ours
    exact absurd (congrArg Prod.fst (Option.some.inj theirs)).symm (foreign_departs auth ho plain other h)
  | unsigned refused shows =>
    have replied := congrArg Prod.fst (Option.some.inj theirs)
    have replied' := congrArg Prod.fst (Option.some.inj ours)
    exact absurd (replied'.trans replied.symm) (unsigned_departs refused shows)
  | redelivered accepted known =>
    have replied := congrArg Prod.fst (Option.some.inj theirs)
    have replied' := congrArg Prod.fst (Option.some.inj ours)
    exact absurd (replied'.trans replied.symm) (redelivered_departs accepted known h.events)
  | @unchecked body authorization idempotencyKey refused =>
    obtain ⟨⟨result, after⟩, created, same⟩ := Option.map_eq_some_iff.mp theirs
    have text : reply = .error ⟨422, "Unprocessable Entity"⟩ := by
      simp only [Variant.serve, Variant.createOrder, refused, Bool.not_false, if_true, Option.map_some] at ours
      exact (congrArg Prod.fst (Option.some.inj ours)).symm
    cases result with
    | ok view =>
      rw [text] at same
      cases same
    | error e =>
      rw [text] at same
      cases same
      exact absurd rfl (createOrder_text rfl created)
  | declined places opened decline =>
    exact declined_departs serial h places opened decline (positive_of_admits places.admits) clean_locksOnly
      places.admits ours theirs
  | resumed places found =>
    exact absurd theirs (resumed_departs serial h fresh places found clean_locksOnly places.admits ours)
  | reported accepted unknown ho waits succeeded =>
    obtain ⟨-, rfl⟩ := Prod.mk.inj (Option.some.inj ours)
    obtain ⟨-, rfl⟩ := Prod.mk.inj (Option.some.inj theirs)
    exact reported_departs serial h accepted unknown ho waits succeeded
  | cancelled auth may ho status =>
    obtain ⟨-, rfl⟩ := Prod.mk.inj (Option.some.inj ours)
    obtain ⟨-, rfl⟩ := Prod.mk.inj (Option.some.inj theirs)
    exact cancelled_departs serial h auth may ho status
  | quoted places opened total other =>
    exact quoted_departs h places opened total other clean_locksOnly places.admits ours theirs

end Sessions

theorem clean_serve_serial {codec : WebhookCodec} {s t : StoreState} {draws : Draws} {call : Call}
    {reply : Except HTTPException Reply} (h : Serial codec s)
    (served : Variant.clean.serve codec s draws call = some (reply, t)) : Serial codec t := by
  rw [clean_serve] at served
  split at served
  next request _ => exact h.serve draws.order_length served
  next =>
    cases served
    exact h

theorem Mutant.simulates (codec : WebhookCodec) (m : Mutant) :
    Lockstep.Simulates (Variant.clean.answer codec) (m.variant.answer codec) Session.visible Session.visible
      (fun a request => m.Shows codec a.store request.1) (m.Shadows codec) where
  looks a b h := h.twin.visible.symm
  stuck a b request h refused := by
    unfold Variant.answer at refused ⊢
    rw [h.drawn]
    split_ifs at refused ⊢
    · rfl
    · rw [Option.map_eq_none_iff] at refused ⊢
      exact serve_none h.twin m.locksOnly m.admits refused
  follows a b request reply a' h served quiet := by
    unfold Variant.answer at served ⊢
    rw [h.drawn]
    split_ifs at served ⊢ with fresh
    obtain ⟨⟨answered, s⟩, ours, same⟩ := Option.map_eq_some_iff.mp served
    cases same
    have both := serve_twin h.twin (fun ledger => m.ledgers_more ledger request.2.payment) m.locksOnly
      (m.callAlike h.serial h.twin fresh quiet)
    rw [ours] at both
    generalize m.variant.serve codec b.store request.2 request.1 = theirs at both ⊢
    cases both with
    | @some _ second answers =>
      obtain ⟨reply', t⟩ := second
      obtain ⟨rfl, twin⟩ := answers
      exact ⟨_, rfl, clean_serve_serial h.serial ours, rfl, twin⟩
  departs a b request reply a' b' h served shows answered := by
    unfold Variant.answer at served answered
    rw [h.drawn] at answered
    split_ifs at served answered with fresh
    obtain ⟨⟨_, s⟩, ours, same⟩ := Option.map_eq_some_iff.mp served
    cases same
    obtain ⟨⟨_, t⟩, theirs, same⟩ := Option.map_eq_some_iff.mp answered
    cases same
    exact shows.departs h.serial h.twin fresh ours theirs

theorem Mutant.shadows_start (codec : WebhookCodec) (m : Mutant) :
    m.Shadows codec ⟨resetState, []⟩ ⟨resetState, []⟩ where
  serial := .start codec
  drawn := rfl
  twin := by
    have orders (id : String) : resetState.orders.get? id = none := by simp [resetState]
    refine ⟨rfl, rfl, rfl, rfl, ?_, ?_, fun id => .inl ⟨orders id, orders id⟩⟩
    · cases m with
      | m08 => exact ⟨rfl, fun key hk => by simp [resetState] at hk, fun key hk => by simp [resetState] at hk⟩
      | _ => rfl
    · cases m <;> rfl

/-- Requests that come one at a time tell a case from the source exactly where one of them shows it. -/
theorem mutants_told_apart (codec : WebhookCodec) (m : Mutant) (requests : List (Call × Draws)) :
    Lockstep.Alike (Variant.clean.answer codec) (m.variant.answer codec) Session.visible Session.visible
        ⟨resetState, []⟩ ⟨resetState, []⟩ requests ↔
      Lockstep.Untriggered (Variant.clean.answer codec) (fun a request => m.Shows codec a.store request.1)
        ⟨resetState, []⟩ requests :=
  (m.simulates codec).alike_iff (m.shadows_start codec) requests

end EdgecaseForge.FlashCart
