import EdgecaseForge.FlashCartTwins

namespace EdgecaseForge.FlashCart

/-- The cases of `mutations.json`. -/
inductive Mutant
  | m01 | m02 | m03 | m04 | m05 | m06 | m07 | m08 | m09 | m10
  deriving DecidableEq

/-- What `cancel_order` does in M09 once the caller is known to be allowed. -/
def cancelAgain (s : StoreState) (orderId : String) (order : Order) :
    Except HTTPException PublicOrder × StoreState :=
  if order.status ≠ .paid ∧ order.status ≠ .cancelled then
    (.error ⟨409, "Only paid orders can be cancelled"⟩, s)
  else
    let cancelled := updateOrder s orderId (Order.setStatus .cancelled)
    (.ok (publicOrder (order.setStatus .cancelled)), { cancelled with stock := cancelled.stock + order.quantity })

/-- The edits of a case. M01 takes a lock away and waits, which no request notices that is alone. -/
def Mutant.variant : Mutant → Variant
  | .m01 => .clean
  | .m02 => { Variant.clean with lock := fun s _ => s }
  | .m03 => { Variant.clean with mayRead := fun _ _ => true }
  | .m04 => { Variant.clean with verify := fun _ _ _ => .ok () }
  | .m05 => { Variant.clean with consume := fun events _ => events }
  | .m06 => { Variant.clean with admits := fun _ => true }
  | .m07 => { Variant.clean with releaseDeclined := fun s _ => s }
  | .m08 => { Variant.clean with operationKey := fun order hex => order.paymentKey ++ ":" ++ hex }
  | .m09 => { Variant.clean with cancel := cancelAgain }
  | .m10 => { Variant.clean with
      total := fun price body => body.quotedTotal.getD (price * body.quantity) }

/-- A create that gets past the checks of its body and its headers. -/
def Call.Places (user key : String) (body : OrderBody) : Call → Prop
  | .createOrder given authorization idempotencyKey =>
    given = body ∧ Variant.clean.admits body.quantity = true ∧ userFromHeader authorization = .ok user ∧
      idempotencyKey.filter (· ≠ "") = some key
  | _ => False

/-- The requests that show a case, in the store they show it in. -/
inductive Mutant.Shows (codec : WebhookCodec) (s : StoreState) : Mutant → Call → Prop
  | foreign {orderId user : String} {authorization : Option String} {order : Order} :
      userFromHeader authorization = .ok user → s.orders.get? orderId = some order →
      user ≠ "admin" → order.owner ≠ user → Shows codec s .m03 (.getOrder orderId authorization)
  | unsigned {rawBody : List UInt8} {xSignature : Option String} {e : HTTPException} :
      Variant.clean.verify codec rawBody xSignature = .error e →
      ¬ (e.statusCode = 500 ∧ codec.decode rawBody = none) →
      Shows codec s .m04 (.paymentWebhook rawBody xSignature)
  | redelivered {rawBody : List UInt8} {xSignature : Option String} {payload : WebhookPayload} :
      Variant.clean.accept codec rawBody xSignature = .ok payload → payload.eventId ∈ s.processedEvents →
      Shows codec s .m05 (.paymentWebhook rawBody xSignature)
  | unchecked {body : OrderBody} {authorization idempotencyKey : Option String} :
      Variant.clean.admits body.quantity = false →
      Shows codec s .m06 (.createOrder body authorization idempotencyKey)
  | declined {call : Call} {user key : String} {body : OrderBody} :
      call.Places user key body → Opens s user key body → body.paymentToken = "decline" →
      Shows codec s .m07 call
  | resumed {call : Call} {user key orderId : String} {body : OrderBody} {order : Order} :
      call.Places user key body → Resumes s user key body orderId order → Shows codec s .m08 call
  | reported {rawBody : List UInt8} {xSignature : Option String} {payload : WebhookPayload} {order : Order} :
      Variant.clean.accept codec rawBody xSignature = .ok payload → payload.eventId ∉ s.processedEvents →
      s.orders.get? payload.orderId = some order → order.status = .paymentPending →
      payload.eventType = .paymentSucceeded → Shows codec s .m08 (.paymentWebhook rawBody xSignature)
  | cancelled {orderId user : String} {authorization : Option String} {order : Order} :
      userFromHeader authorization = .ok user → (user = "admin" ∨ order.owner = user) →
      s.orders.get? orderId = some order → order.status = .cancelled →
      Shows codec s .m09 (.cancelOrder orderId authorization)
  | quoted {call : Call} {user key : String} {body : OrderBody} {total : Int} :
      call.Places user key body → Opens s user key body → body.quotedTotal = some total →
      total ≠ s.price * body.quantity → Shows codec s .m10 call

/-- The payment operation of an order, with one of the digits that were drawn. -/
def DrawnKey (drawn : List String) (key : String) : Prop :=
  ∃ operation hex, key = operation ++ ":" ++ hex ∧ operation.length = 23 ∧ hex.length = 32 ∧ hex ∈ drawn

/-- The ledger of M08 has as many charges as that of the source, under keys of its own. -/
structure Recharged (drawn : List String) (stub stub' : PaymentStub) : Prop where
  size : stub'.charges.size = stub.charges.size
  charges : ∀ key, (stub'.charges.get? key).isSome → DrawnKey drawn key
  timeouts : ∀ key ∈ stub'.timeoutKeys, DrawnKey drawn key

/-- How the ledger of a case stands to that of the source. -/
def Mutant.ledgers : Mutant → List String → PaymentStub → PaymentStub → Prop
  | .m08, drawn => Recharged drawn
  | _, _ => Eq

/-- How the processed events of a case stand to those of the source. -/
def Mutant.events : Mutant → List String → List String → Prop
  | .m05 => fun _ processed => processed = []
  | _ => Eq

theorem DrawnKey.more {drawn : List String} {key : String} (h : DrawnKey drawn key) (hex : String) :
    DrawnKey (drawn ++ [hex]) key := by
  obtain ⟨operation, digits, same, long, wide, mem⟩ := h
  exact ⟨operation, digits, same, long, wide, List.mem_append_left _ mem⟩

theorem Recharged.more {drawn : List String} {stub stub' : PaymentStub} (h : Recharged drawn stub stub')
    (hex : String) : Recharged (drawn ++ [hex]) stub stub' :=
  ⟨h.size, fun key hk => (h.charges key hk).more hex, fun key hk => (h.timeouts key hk).more hex⟩

theorem Mutant.ledgers_more (m : Mutant) {drawn : List String} {stub stub' : PaymentStub}
    (h : m.ledgers drawn stub stub') (hex : String) : m.ledgers (drawn ++ [hex]) stub stub' := by
  cases m with
  | m08 => exact Recharged.more h hex
  | _ => exact h

/-- An operation with digits that were not drawn before is none of those. -/
theorem DrawnKey.fresh {drawn : List String} {operation hex : String} (wide : hex.length = 32)
    (fresh : hex ∉ drawn) : ¬ DrawnKey drawn (operation ++ ":" ++ hex) := by
  rintro ⟨other, digits, same, -, wide', mem⟩
  have chars : (operation ++ ":").toList ++ hex.toList = (other ++ ":").toList ++ digits.toList := by
    rw [← String.toList_append, ← String.toList_append, same]
  have tail : hex.toList = digits.toList := by
    refine (List.append_inj' chars ?_).2
    rw [String.length_toList, String.length_toList, wide, wide']
  exact fresh (String.toList_inj.mp tail ▸ mem)

theorem DrawnKey.length {drawn : List String} {key : String} (h : DrawnKey drawn key) : key.length = 56 := by
  obtain ⟨operation, digits, rfl, long, wide, -⟩ := h
  rw [String.length_append, String.length_append, long, wide]
  rfl

section Alike

variable {codec : WebhookCodec} {E : List String → List String → Prop} {s t : StoreState} {w : Variant}
  {draws : Draws} {user key : String} {body : OrderBody} {drawn : List String} {call : Call}

/-- The provider declines an operation only by its token, and only where it has not charged it. -/
theorem charge_declines {stub : PaymentStub} {operationKey token : String} {amount : Int} {e : HTTPException}
    (h : (stub.charge operationKey amount token).1 = .error e) (declined : e.statusCode = 402) :
    token = "decline" ∧ stub.charges.get? operationKey = none := by
  unfold PaymentStub.charge at h
  split at h
  next => cases h
  next free =>
    split at h
    next decline => exact ⟨decline, free⟩
    next =>
      dsimp only at h
      split at h
      next =>
        cases h
        cases declined
      next => cases h

theorem Twin.creates (h : Twin Eq E s t) (serial : Serial codec s)
    (named : ∀ order hex, w.operationKey order hex = order.paymentKey)
    (price : Opens s user key body → w.total s.price body = Variant.clean.total s.price body)
    (released : Opens s user key body → body.paymentToken = "decline" →
      w.releaseDeclined = releaseInventoryOnce) : CreatesAlike w Eq s t draws body user key where
  price := price
  opens opened _ := by
    rw [← h.payment]
    refine ⟨by rw [named], by rw [named], ?_⟩
    rintro ⟨e, refused, declined⟩
    exact released opened (charge_declines refused declined).1
  resumes orderId order resumed := by
    rw [← h.payment]
    refine ⟨by rw [named], by rw [named], ?_⟩
    rintro ⟨e, refused, declined⟩
    obtain ⟨charge, charged, -⟩ := serial.charged resumed.found resumed.waits
    cases (charge_declines refused declined).2.symm.trans charged

theorem OrderTwin.mayRead {o o' : Order} (h : OrderTwin o o') (user : String) :
    Variant.clean.mayRead user o' = Variant.clean.mayRead user o := by
  simp only [Variant.clean, h.owner]

/-- A variant leaves alone what the source does on a request. -/
def Variant.Untouched (w : Variant) : Call → Prop
  | .getProduct _ => True
  | .createOrder _ _ _ => w.admits = Variant.clean.admits ∧ w.total = Variant.clean.total ∧
    w.operationKey = Variant.clean.operationKey ∧ w.releaseDeclined = releaseInventoryOnce
  | .getOrder _ _ => w.mayRead = Variant.clean.mayRead
  | .cancelOrder _ _ => w.cancel = Variant.clean.cancel
  | .paymentWebhook _ _ => w.verify = Variant.clean.verify ∧ w.consume = Variant.clean.consume

theorem Variant.accept_eq (verify : w.verify = Variant.clean.verify) :
    w.accept = Variant.clean.accept := by
  funext codec rawBody xSignature
  simp only [Variant.accept, verify]

theorem callAlike_untouched (serial : Serial codec s) (h : Twin Eq Eq s t) (same : w.Untouched call) :
    CallAlike w Eq Eq codec s t draws call := by
  cases call with
  | getProduct productId => trivial
  | createOrder body authorization idempotencyKey =>
    obtain ⟨admits, total, named, released⟩ := same
    refine ⟨by rw [admits], fun _ _ _ _ _ => h.creates serial ?_ ?_ fun _ _ => released⟩
    · intro order hex
      rw [named]
      rfl
    · intro _
      rw [total]
  | getOrder orderId authorization =>
    intro user order o' _ _ twin
    rw [show w.mayRead = Variant.clean.mayRead from same]
    exact twin.mayRead user
  | cancelOrder orderId authorization =>
    intro user order o' _ _ ho ht twin both
    rw [show w.cancel = Variant.clean.cancel from same]
    exact cancel_twin both ho ht twin
  | paymentWebhook rawBody xSignature =>
    refine ⟨by rw [Variant.accept_eq same.1], fun payload _ => ⟨by rw [h.events], fun _ => ?_, fun _ _ _ _ _ => ?_⟩⟩
    · rw [same.2, h.events]
      rfl
    · rw [h.payment]

theorem callAlike_m03 (serial : Serial codec s) (h : Twin Eq Eq s t)
    (quiet : ¬ Mutant.Shows codec s .m03 call) : CallAlike (Mutant.variant .m03) Eq Eq codec s t draws call := by
  cases call with
  | getOrder orderId authorization =>
    intro user order o' auth ho twin
    rw [← twin.mayRead user]
    by_contra other
    have hidden : ¬ (user = "admin" ∨ order.owner = user) := by
      intro shown
      rw [twin.mayRead user] at other
      exact other (by simpa [Variant.clean, Mutant.variant] using shown)
    rw [not_or] at hidden
    exact quiet (.foreign auth ho hidden.1 hidden.2)
  | _ => exact callAlike_untouched serial h (by simp [Variant.Untouched, Mutant.variant, Variant.clean])

theorem callAlike_m05 (serial : Serial codec s) (h : Twin Eq (Mutant.events .m05) s t)
    (quiet : ¬ Mutant.Shows codec s .m05 call) :
    CallAlike (Mutant.variant .m05) Eq (Mutant.events .m05) codec s t draws call := by
  have empty : t.processedEvents = [] := h.events
  cases call with
  | getProduct productId => trivial
  | createOrder body authorization idempotencyKey =>
    exact ⟨rfl, fun _ _ _ _ _ => h.creates serial (fun _ _ => rfl) (fun _ => rfl) fun _ _ => rfl⟩
  | getOrder orderId authorization => exact fun user _ _ _ _ twin => twin.mayRead user
  | cancelOrder orderId authorization => exact fun _ _ _ _ _ ho ht twin both => cancel_twin both ho ht twin
  | paymentWebhook rawBody xSignature =>
    refine ⟨rfl, fun payload accepted => ⟨?_, fun _ => empty, fun _ _ _ _ _ => by rw [h.payment]⟩⟩
    rw [empty]
    exact ⟨fun mem => absurd mem List.not_mem_nil, fun mem => absurd (.redelivered accepted mem) quiet⟩

theorem callAlike_m06 (serial : Serial codec s) (h : Twin Eq Eq s t)
    (quiet : ¬ Mutant.Shows codec s .m06 call) : CallAlike (Mutant.variant .m06) Eq Eq codec s t draws call := by
  cases call with
  | createOrder body authorization idempotencyKey =>
    have admitted : Variant.clean.admits body.quantity = true := by
      by_contra refused
      exact quiet (.unchecked (Bool.not_eq_true _ ▸ refused))
    exact ⟨admitted.symm, fun _ _ _ _ _ => h.creates serial (fun _ _ => rfl) (fun _ => rfl) fun _ _ => rfl⟩
  | _ => exact callAlike_untouched serial h (by simp [Variant.Untouched, Mutant.variant, Variant.clean])

theorem callAlike_m07 (serial : Serial codec s) (h : Twin Eq Eq s t)
    (quiet : ¬ Mutant.Shows codec s .m07 call) : CallAlike (Mutant.variant .m07) Eq Eq codec s t draws call := by
  cases call with
  | createOrder body authorization idempotencyKey =>
    refine ⟨rfl, fun user key auth named admitted => ?_⟩
    refine h.creates serial (fun _ _ => rfl) (fun _ => rfl) fun opened decline => ?_
    exact absurd (.declined ⟨rfl, admitted, auth, named⟩ opened decline) quiet
  | _ => exact callAlike_untouched serial h (by simp [Variant.Untouched, Mutant.variant, Variant.clean])

theorem callAlike_m10 (serial : Serial codec s) (h : Twin Eq Eq s t)
    (quiet : ¬ Mutant.Shows codec s .m10 call) : CallAlike (Mutant.variant .m10) Eq Eq codec s t draws call := by
  cases call with
  | createOrder body authorization idempotencyKey =>
    refine ⟨rfl, fun user key auth named admitted => ?_⟩
    refine h.creates serial (fun _ _ => rfl) (fun opened => ?_) fun _ _ => rfl
    change body.quotedTotal.getD (s.price * body.quantity) = s.price * body.quantity
    cases quoted : body.quotedTotal with
    | none => rfl
    | some total =>
      by_contra other
      exact quiet (.quoted ⟨rfl, admitted, auth, named⟩ opened quoted other)
  | _ => exact callAlike_untouched serial h (by simp [Variant.Untouched, Mutant.variant, Variant.clean])

/-- A second cancellation is what M09 gets wrong; a first one it records as the source does, but for the
flag. -/
theorem cancelAgain_twin (h : Twin Eq Eq s t) (serial : Serial codec s) {orderId : String} {order o' : Order}
    (ho : s.orders.get? orderId = some order) (ht : t.orders.get? orderId = some o')
    (twin : OrderTwin order o') (open_ : order.status ≠ .cancelled) :
    Answers Eq Eq (Variant.clean.cancel s orderId order) (cancelAgain t orderId o') := by
  have same : o' = order := twin.eq open_
  subst same
  unfold cancelAgain Variant.clean
  dsimp only
  rw [if_neg open_]
  by_cases paid : o'.status = .paid
  · rw [if_neg (by simp [paid]), if_neg (by simp [paid])]
    have held : o'.inventoryReleased = false := (serial.steady orderId o' ho).held (.inr paid)
    have ours : (updateOrder s orderId (Order.setStatus .cancelled)).orders.get? orderId =
        some (o'.setStatus .cancelled) := get?_updated ho _
    have unreleased : (o'.setStatus .cancelled).inventoryReleased = false := held
    refine ⟨rfl, ?_⟩
    have cancelled := h.update ho ht (Order.setStatus .cancelled)
    unfold releaseInventoryOnce
    rw [ours]
    simp only [unreleased, Bool.false_eq_true, if_false]
    refine ⟨congrArg (· + o'.quantity) cancelled.stock, cancelled.price, cancelled.idempotency,
      cancelled.effects, cancelled.payment, cancelled.events, fun id => ?_⟩
    dsimp only
    rw [Dict.get?_set]
    split
    next own =>
      rw [own]
      exact .inr ⟨_, _, rfl, get?_updated ht _, .inr ⟨rfl, rfl⟩⟩
    next => exact cancelled.orders id
  · rw [if_pos paid, if_pos ⟨paid, open_⟩]
    exact h.answers _

theorem callAlike_m09 (serial : Serial codec s) (h : Twin Eq Eq s t)
    (quiet : ¬ Mutant.Shows codec s .m09 call) : CallAlike (Mutant.variant .m09) Eq Eq codec s t draws call := by
  cases call with
  | cancelOrder orderId authorization =>
    intro user order o' auth may ho ht twin both
    exact cancelAgain_twin both serial ho ht twin fun cancelled => quiet (.cancelled auth may ho cancelled)
  | _ => exact callAlike_untouched serial h (by simp [Variant.Untouched, Mutant.variant, Variant.clean])

theorem verify_error {rawBody : List UInt8} {xSignature : Option String} {e : HTTPException}
    (h : Variant.clean.verify codec rawBody xSignature = .error e) :
    e = ⟨401, "Invalid webhook signature"⟩ ∨ e = ⟨500, "Internal Server Error"⟩ := by
  unfold Variant.clean at h
  dsimp only at h
  split_ifs at h
  · cases h
    exact .inl rfl
  · cases h
    exact .inr rfl
  · cases h
    exact .inl rfl

theorem callAlike_m04 (serial : Serial codec s) (h : Twin Eq Eq s t)
    (quiet : ¬ Mutant.Shows codec s .m04 call) : CallAlike (Mutant.variant .m04) Eq Eq codec s t draws call := by
  cases call with
  | paymentWebhook rawBody xSignature =>
    refine ⟨?_, fun payload _ => ⟨by rw [h.events], ?_, fun _ _ _ _ _ => by rw [h.payment]⟩⟩
    swap
    · intro _
      rw [h.events]
      rfl
    unfold Variant.accept
    cases verified : Variant.clean.verify codec rawBody xSignature with
    | ok => rfl
    | error e =>
      have hidden : e.statusCode = 500 ∧ codec.decode rawBody = none := by
        by_contra shown
        exact quiet (.unsigned verified shown)
      obtain rfl | rfl := verify_error verified
      · cases hidden.1
      · simp only [Mutant.variant, hidden.2]
  | _ => exact callAlike_untouched serial h (by simp [Variant.Untouched, Mutant.variant, Variant.clean])

/-- What the provider does with an operation that is new to it. -/
theorem charge_new {stub : PaymentStub} {key : String} (free : stub.charges.get? key = none)
    (untimed : key ∉ stub.timeoutKeys) (amount : Int) (token : String) :
    stub.charge key amount token =
      if token = "decline" then (.error ⟨402, "Payment declined"⟩, stub)
      else if token = "timeout-once" then
        (.error ⟨504, "Payment provider timed out"⟩,
          ⟨stub.charges.set key ⟨"ch_" ++ toString (stub.charges.size + 1), amount⟩, stub.timeoutKeys ++ [key]⟩)
      else (.ok ⟨"ch_" ++ toString (stub.charges.size + 1), amount⟩,
        ⟨stub.charges.set key ⟨"ch_" ++ toString (stub.charges.size + 1), amount⟩, stub.timeoutKeys⟩) := by
  unfold PaymentStub.charge
  rw [free]
  simp only [untimed, not_false_eq_true, and_true]

theorem Recharged.charge {stub stub' : PaymentStub} (h : Recharged drawn stub stub') {key key' : String}
    (free : stub.charges.get? key = none) (free' : stub'.charges.get? key' = none) (charge : Charge)
    (named : DrawnKey drawn key') {timeouts timeouts' : List String}
    (timed : ∀ k ∈ timeouts', k ∈ stub'.timeoutKeys ∨ k = key') :
    Recharged drawn ⟨stub.charges.set key charge, timeouts⟩ ⟨stub'.charges.set key' charge, timeouts'⟩ where
  size := by
    rw [Dict.size_set_new free, Dict.size_set_new free', h.size]
  charges k hk := by
    rw [Dict.get?_set] at hk
    split at hk
    next same => exact same ▸ named
    next => exact h.charges k hk
  timeouts k hk := (timed k hk).elim (h.timeouts k) fun same => same ▸ named

/-- M08 has neither charged nor timed out an operation whose digits were not drawn before. -/
theorem Recharged.unnamed {stub stub' : PaymentStub} (h : Recharged drawn stub stub') (operation : String)
    (fresh : draws.payment ∉ drawn) :
    stub'.charges.get? (operation ++ ":" ++ draws.payment) = none ∧
      operation ++ ":" ++ draws.payment ∉ stub'.timeoutKeys := by
  have unnamed : ¬ DrawnKey drawn (operation ++ ":" ++ draws.payment) :=
    DrawnKey.fresh draws.payment_length fresh
  refine ⟨?_, fun timed => unnamed (h.timeouts _ timed)⟩
  cases hc : stub'.charges.get? (operation ++ ":" ++ draws.payment) with
  | none => rfl
  | some charge => exact absurd (h.charges _ (by rw [hc]; rfl)) unnamed

/-- An operation that neither ledger knows is charged alike by both. -/
theorem Recharged.pays {stub stub' : PaymentStub} (h : Recharged drawn stub stub') {order : Order}
    (free : stub.charges.get? order.paymentKey = none) (untimed : order.paymentKey ∉ stub.timeoutKeys)
    (long : order.paymentKey.length = 23) (fresh : draws.payment ∉ drawn) :
    PaysAlike (Mutant.variant .m08) (Recharged (drawn ++ [draws.payment])) stub stub' draws.payment order := by
  have named : DrawnKey (drawn ++ [draws.payment]) (order.paymentKey ++ ":" ++ draws.payment) :=
    ⟨_, _, rfl, long, draws.payment_length, by simp⟩
  obtain ⟨free', untimed'⟩ := h.unnamed order.paymentKey fresh
  have more := h.more draws.payment
  have ours := charge_new free untimed order.total order.paymentToken
  have theirs := charge_new free' untimed' order.total order.paymentToken
  rw [h.size] at theirs
  have answers : (stub'.charge (order.paymentKey ++ ":" ++ draws.payment) order.total order.paymentToken).1 =
      (stub.charge order.paymentKey order.total order.paymentToken).1 ∧
      Recharged (drawn ++ [draws.payment]) (stub.charge order.paymentKey order.total order.paymentToken).2
        (stub'.charge (order.paymentKey ++ ":" ++ draws.payment) order.total order.paymentToken).2 := by
    rw [ours, theirs]
    split_ifs with declined timed
    · exact ⟨rfl, more⟩
    · refine ⟨rfl, more.charge free free' _ named fun k hk => ?_⟩
      simpa using hk
    · exact ⟨rfl, more.charge free free' _ named fun k hk => .inl hk⟩
  exact ⟨answers.1, answers.2, fun _ => rfl⟩

theorem callAlike_m08 (serial : Serial codec s) (h : Twin (Recharged drawn) Eq s t)
    (fresh : draws.payment ∉ drawn) (quiet : ¬ Mutant.Shows codec s .m08 call) :
    CallAlike (Mutant.variant .m08) (Recharged (drawn ++ [draws.payment])) Eq codec s t draws call := by
  cases call with
  | getProduct productId => trivial
  | createOrder body authorization idempotencyKey =>
    refine ⟨rfl, fun user key auth named admitted => ⟨fun _ => rfl, fun _ absent => ?_, ?_⟩⟩
    · obtain ⟨free, untimed⟩ := serial.uncharged absent
      refine h.payment.pays free untimed ?_ fresh
      change ("checkout:" ++ ("ord_" ++ draws.order)).length = 23
      rw [String.length_append, String.length_append, draws.order_length]
      rfl
    · intro orderId order resumed
      exact absurd (.resumed ⟨rfl, admitted, auth, named⟩ resumed) quiet
  | getOrder orderId authorization => exact fun user _ _ _ _ twin => twin.mayRead user
  | cancelOrder orderId authorization => exact fun _ _ _ _ _ ho ht twin both => cancel_twin both ho ht twin
  | paymentWebhook rawBody xSignature =>
    refine ⟨rfl, fun payload accepted => ⟨by rw [h.events], fun _ => by rw [h.events]; rfl, ?_⟩⟩
    intro order ho unknown waits succeeded
    exact absurd (.reported accepted unknown ho waits succeeded) quiet

theorem Mutant.callAlike (m : Mutant) (serial : Serial codec s) (h : Twin (m.ledgers drawn) m.events s t)
    (fresh : draws.payment ∉ drawn) (quiet : ¬ m.Shows codec s call) :
    CallAlike m.variant (m.ledgers (drawn ++ [draws.payment])) m.events codec s t draws call := by
  cases m with
  | m01 =>
    refine callAlike_untouched serial h ?_
    cases call <;> simp [Variant.Untouched, Mutant.variant, Variant.clean]
  | m02 =>
    refine callAlike_untouched serial h ?_
    cases call <;> simp [Variant.Untouched, Mutant.variant, Variant.clean]
  | m03 => exact callAlike_m03 serial h quiet
  | m04 => exact callAlike_m04 serial h quiet
  | m05 => exact callAlike_m05 serial h quiet
  | m06 => exact callAlike_m06 serial h quiet
  | m07 => exact callAlike_m07 serial h quiet
  | m08 => exact callAlike_m08 serial h fresh quiet
  | m09 => exact callAlike_m09 serial h quiet
  | m10 => exact callAlike_m10 serial h quiet

end Alike

end EdgecaseForge.FlashCart
