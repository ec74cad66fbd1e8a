import EdgecaseForge.FlashCartIdentity

namespace EdgecaseForge.FlashCart

/-- The user a request for an order body authenticates as. -/
def Request.user : Request → Except HTTPException String
  | .createOrder _ authorization _ => userFromHeader authorization
  | .getOrder _ authorization => userFromHeader authorization
  | .cancelOrder _ authorization => userFromHeader authorization
  | .getProduct _ => .error ⟨404, "Product not found"⟩
  | .paymentWebhook _ _ => .error ⟨401, "Invalid webhook signature"⟩

/-- A body answered to `request` shows an order that its user may see. -/
def bodyAllowed (s : StoreState) (request : Request) (body : PublicOrder) : Prop :=
  ∃ user, request.user = .ok user ∧
    (user ≠ "admin" → body.owner = user ∧ s.ownedBy body.id user)

/-- A call of `create_order` works for the user of its request, under the lock of its identity. -/
structure Checkout.Serves (c : Checkout) (s : StoreState) (request : Request) : Prop where
  user : request.user = .ok c.user
  lock : s.idempotencyLocks.get? c.identity = some c.lock

def CorePc.Holds (s : StoreState) (c : Checkout) : CorePc → Prop
  | .lookup => True
  | .reserve => ∀ id, (c.identity, id) ∉ s.creations
  | .publish => ∀ id, (c.identity, id) ∉ s.creations
  | .record id => (c.identity, id) ∈ s.creations
  | .replay id => s.ownedBy id c.user
  | .replayPending id => s.ownedBy id c.user
  | .charge id => s.ownedBy id c.user
  | .storeCharge id _ => s.ownedBy id c.user
  | .storePaid id => s.ownedBy id c.user
  | .reply id => s.ownedBy id c.user
  | .storeFailed id => s.ownedBy id c.user
  | .storeFailure id => s.ownedBy id c.user
  | .release id => s.ownedBy id c.user

def Pc.Holds (s : StoreState) (request : Request) : Pc → Prop
  | .start => True
  | .acquire c => c.Serves s request
  | .core c next => c.Serves s request ∧ next.Holds s c
  | .finished (.ok (.order body)) => bodyAllowed s request body
  | .finished _ => True

theorem Checkout.Serves.extends {s t : StoreState} (he : Extends s t) {c : Checkout}
    {request : Request} (h : c.Serves s request) : c.Serves t request :=
  ⟨h.user, he.locks _ _ h.lock⟩

theorem bodyAllowed_extends {s t : StoreState} (he : Extends s t) {request : Request}
    {body : PublicOrder} (h : bodyAllowed s request body) : bodyAllowed t request body := by
  obtain ⟨user, hu, hb⟩ := h
  exact ⟨user, hu, fun ha => ⟨(hb ha).1, he.owner _ _ (hb ha).2⟩⟩

/-- A control state stays justified while no creation for its identity is added. -/
theorem Pc.Holds.extends {s t : StoreState} (he : Extends s t) {request : Request} {pc : Pc}
    (quiet : ∀ c next, pc = .core c next → ∀ id, (c.identity, id) ∈ t.creations →
      (c.identity, id) ∈ s.creations)
    (h : pc.Holds s request) : pc.Holds t request := by
  cases pc with
  | start => trivial
  | acquire c => exact Checkout.Serves.extends he h
  | core c next =>
    refine ⟨h.1.extends he, ?_⟩
    have hn := h.2
    have mine := quiet c next rfl
    cases next with
    | lookup => trivial
    | reserve => exact fun id hm => hn id (mine id hm)
    | publish => exact fun id hm => hn id (mine id hm)
    | record id => exact he.creations _ hn
    | _ => exact he.owner _ _ hn
  | finished result =>
    match result, h with
    | .ok (.order body), h => exact bodyAllowed_extends he h
    | .ok (.product _), _ => trivial
    | .ok (.webhook _), _ => trivial
    | .error _, _ => trivial

theorem bodyAllowed_publicOrder {s : StoreState} (wf : WellFormed s) {request : Request}
    {user id : String} {order : Order} (hu : request.user = .ok user)
    (ho : s.orders.get? id = some order) (owned : user ≠ "admin" → order.owner = user) :
    bodyAllowed s request (publicOrder order) := by
  refine ⟨user, hu, fun ha => ⟨owned ha, order, ?_, owned ha⟩⟩
  have hid : (publicOrder order).id = id := (wf.terms id order ho).1
  rw [hid]
  exact ho

theorem getOrder_holds {s : StoreState} (wf : WellFormed s) (orderId : String)
    (authorization : Option String) :
    (Pc.finished ((getOrder s orderId authorization).map .order)).Holds s
      (.getOrder orderId authorization) := by
  unfold getOrder
  cases hu : userFromHeader authorization with
  | error e => trivial
  | ok user =>
    simp only [bind, Except.bind]
    cases ho : s.orders.get? orderId with
    | none => trivial
    | some order =>
      by_cases hf : user ≠ "admin" ∧ order.owner ≠ user
      · simp only [if_pos hf]
        trivial
      · simp only [if_neg hf]
        have hr : (Request.getOrder orderId authorization).user = .ok user := hu
        refine bodyAllowed_publicOrder wf hr ho ?_
        intro ha
        by_contra hne
        exact hf ⟨ha, hne⟩

theorem cancelSection_holds {s : StoreState} (wf : WellFormed s) {orderId user : String}
    {request : Request} (hu : request.user = .ok user) :
    (Pc.finished ((cancelSection s orderId user).1.map .order)).Holds
      (cancelSection s orderId user).2 request := by
  have touched := (cancelSection_touches s orderId user).extends
  revert touched
  unfold cancelSection
  cases ho : s.orders.get? orderId with
  | none => exact fun _ => trivial
  | some order =>
    dsimp only
    by_cases hf : user ≠ "admin" ∧ order.owner ≠ user
    · simp only [if_pos hf]
      exact fun _ => trivial
    · have owned : user ≠ "admin" → order.owner = user := by
        intro ha
        by_contra hne
        exact hf ⟨ha, hne⟩
      have shown := bodyAllowed_publicOrder wf hu ho owned
      simp only [if_neg hf]
      by_cases hc : order.status = .cancelled
      · simp only [if_pos hc]
        exact fun _ => shown
      · by_cases hp : order.status ≠ .paid
        · simp only [if_neg hc, if_pos hp]
          exact fun _ => trivial
        · simp only [if_neg hc, if_neg hp]
          exact fun touched => bodyAllowed_extends touched shown

theorem startStep_holds {codec : WebhookCodec} {s : StoreState} (wf : WellFormed s)
    (request : Request) :
    (startStep codec s request).2.Holds (startStep codec s request).1 request := by
  cases request with
  | getProduct productId =>
    simp only [startStep]
    cases getProduct s productId <;> trivial
  | createOrder payload authorization idempotencyKey =>
    simp only [startStep, startCreate]
    cases hu : userFromHeader authorization with
    | error e => trivial
    | ok user =>
      cases hk : idempotencyKey.filter (· ≠ "") with
      | none => trivial
      | some key => exact ⟨hu, get?_identityLock s (user, key)⟩
  | getOrder orderId authorization => exact getOrder_holds wf orderId authorization
  | cancelOrder orderId authorization =>
    simp only [startStep, cancelOrder]
    cases hu : userFromHeader authorization with
    | error e => trivial
    | ok user => exact cancelSection_holds wf hu
  | paymentWebhook rawBody xSignature =>
    simp only [startStep]
    cases (paymentWebhook codec s rawBody xSignature).1 <;> trivial

end EdgecaseForge.FlashCart
