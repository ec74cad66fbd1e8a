import EdgecaseForge.FlashCartCheckouts
import EdgecaseForge.RefinedRuns

namespace EdgecaseForge.FlashCart

/-- The start of a request in M02, where `create_order` takes no lock of its identity. -/
def unlockedStart (codec : WebhookCodec) (s : StoreState) : Request → StoreState × Pc
  | .createOrder payload authorization idempotencyKey =>
    match userFromHeader authorization with
    | .error e => (s, .finished (.error e))
    | .ok user =>
      match idempotencyKey.filter (· ≠ "") with
      | none => (s, fail 400 "Idempotency-Key is required")
      | some key => (s, .core ⟨user, key, payload, 0⟩ .lookup)
  | request => startStep codec s request

def unlockedStep (codec : WebhookCodec) (s : StoreState) (hex : String) (t : Thread) :
    Option (StoreState × Pc) :=
  match t.pc with
  | .start => some (unlockedStart codec s t.request)
  | .acquire _ => none
  | .core c next => coreStep s hex c next
  | .finished _ => none

def unlockedSystemStep (codec : WebhookCodec) (sys : System) : Action → Option System
  | .arrive request => some { sys with threads := sys.threads ++ [⟨request, .start⟩] }
  | .advance i hex => do
    let t ← sys.threads[i]?
    let (store, pc) ← unlockedStep codec sys.store hex t
    some ⟨store, sys.threads.set i { t with pc := pc }⟩

/-- The build M02 under requests that arrive at any time and take their steps in any order. -/
def unlockedMachine (codec : WebhookCodec) : Transition.Machine System Action where
  init sys := sys = ⟨resetState, []⟩
  step := unlockedSystemStep codec

/-- A step that does not start a checkout while another one of its identity is under way. -/
def System.InTurn (codec : WebhookCodec) (sys : System) : Action → Prop
  | .arrive _ => True
  | .advance i _ => ∀ t c, sys.threads[i]? = some t → t.pc = .start →
    (unlockedStart codec sys.store t.request).2 = .core c .lookup →
      ∀ t' ∈ sys.threads, ∀ c' next, t'.pc = .core c' next → c'.identity ≠ c.identity

/-- The same place of a request, with a lock or without. -/
inductive PcAlike : Pc → Pc → Prop
  | start : PcAlike .start .start
  | core {c : Checkout} {next : CorePc} (lock : Nat) : PcAlike (.core c next) (.core { c with lock := lock } next)
  | finished {result : Except HTTPException Reply} : PcAlike (.finished result) (.finished result)

structure ThreadAlike (t t' : Thread) : Prop where
  request : t'.request = t.request
  pc : PcAlike t.pc t'.pc

/-- M02 beside the source: the same requests at the same places, and the same store but for the locks. -/
structure System.Beside (sys t : System) : Prop where
  store : ∃ locks, t.store = { sys.store with idempotencyLocks := locks }
  threads : List.Forall₂ ThreadAlike sys.threads t.threads

section Locks

variable {codec : WebhookCodec} {s s' : StoreState} {hex : String} {c : Checkout} {next : CorePc} {pc : Pc}

theorem updateOrder_locks (s : StoreState) (locks : Dict Identity Nat) (orderId : String) (f : Order → Order) :
    updateOrder { s with idempotencyLocks := locks } orderId f =
      { updateOrder s orderId f with idempotencyLocks := locks } := by
  unfold updateOrder
  dsimp only
  cases s.orders.get? orderId <;> rfl

theorem releaseInventoryOnce_locks (s : StoreState) (locks : Dict Identity Nat) (orderId : String) :
    releaseInventoryOnce { s with idempotencyLocks := locks } orderId =
      { releaseInventoryOnce s orderId with idempotencyLocks := locks } := by
  unfold releaseInventoryOnce
  dsimp only
  cases s.orders.get? orderId with
  | none => rfl
  | some order =>
    dsimp only
    split <;> rfl

/-- No section of a checkout looks at the locks of the identities. -/
theorem coreStep_locks (locks : Dict Identity Nat) (lock : Nat) (h : coreStep s hex c next = some (s', pc)) :
    ∃ pc', coreStep { s with idempotencyLocks := locks } hex { c with lock := lock } next =
      some ({ s' with idempotencyLocks := locks }, pc') ∧ PcAlike pc pc' := by
  cases next with
  | lookup =>
    simp only [coreStep] at h ⊢
    have identity : Checkout.identity { c with lock := lock } = c.identity := rfl
    rw [identity]
    split at h
    next => cases h; exact ⟨_, rfl, .core lock⟩
    next =>
      split_ifs at h ⊢
      · cases h; exact ⟨_, rfl, .finished⟩
      · cases h; exact ⟨_, rfl, .core lock⟩
  | replay orderId =>
    simp only [coreStep] at h ⊢
    split at h
    next => cases h; exact ⟨_, rfl, .finished⟩
    next =>
      split_ifs at h ⊢
      · cases h; exact ⟨_, rfl, .finished⟩
      · cases h; exact ⟨_, rfl, .finished⟩
      · cases h; exact ⟨_, rfl, .core lock⟩
  | replayPending orderId =>
    obtain ⟨order, ho, h⟩ := Option.bind_eq_some_iff.mp h
    split_ifs at h with waits
    · cases h
      exact ⟨_, Option.bind_eq_some_iff.mpr ⟨order, ho, if_pos waits⟩, .finished⟩
    · cases h
      exact ⟨_, Option.bind_eq_some_iff.mpr ⟨order, ho, if_neg waits⟩, .core lock⟩
  | reserve =>
    simp only [coreStep, reserveInventory] at h ⊢
    split_ifs at h ⊢
    · cases h; exact ⟨_, rfl, .finished⟩
    · cases h; exact ⟨_, rfl, .core lock⟩
  | publish =>
    simp only [coreStep] at h ⊢
    split_ifs at h ⊢
    cases h
    exact ⟨_, rfl, .core lock⟩
  | record orderId =>
    cases h
    exact ⟨_, rfl, .core lock⟩
  | charge orderId =>
    obtain ⟨order, ho, h⟩ := Option.bind_eq_some_iff.mp h
    split at h
    next charge stub hc =>
      cases h
      exact ⟨_, Option.bind_eq_some_iff.mpr ⟨order, ho, by dsimp only; rw [hc]⟩, .core lock⟩
    next e stub hc =>
      split_ifs at h with declined
      · cases h
        exact ⟨_, Option.bind_eq_some_iff.mpr ⟨order, ho, by dsimp only; rw [hc]; exact if_pos declined⟩,
          .core lock⟩
      · cases h
        exact ⟨_, Option.bind_eq_some_iff.mpr ⟨order, ho, by dsimp only; rw [hc]; exact if_neg declined⟩,
          .finished⟩
  | reply orderId =>
    obtain ⟨order, ho, h⟩ := Option.bind_eq_some_iff.mp h
    cases h
    exact ⟨_, Option.bind_eq_some_iff.mpr ⟨order, ho, rfl⟩, .finished⟩
  | release orderId =>
    cases h
    refine ⟨_, ?_, .finished⟩
    simp only [coreStep, releaseInventoryOnce_locks]
    rfl
  | _ =>
    cases h
    refine ⟨_, ?_, .core lock⟩
    simp only [coreStep, updateOrder_locks]

theorem cancelSection_locks (s : StoreState) (locks : Dict Identity Nat) (orderId user : String) :
    cancelSection { s with idempotencyLocks := locks } orderId user =
      ((cancelSection s orderId user).1, { (cancelSection s orderId user).2 with idempotencyLocks := locks }) := by
  unfold cancelSection
  dsimp only
  cases s.orders.get? orderId with
  | none => rfl
  | some order =>
    dsimp only
    split_ifs
    · rfl
    · rfl
    · rfl
    · rw [updateOrder_locks s locks orderId (Order.setStatus .cancelled),
        releaseInventoryOnce_locks _ locks orderId]

theorem settleOrder_locks (s : StoreState) (locks : Dict Identity Nat) (orderId : String) (order : Order)
    (eventType : EventType) :
    settleOrder { s with idempotencyLocks := locks } orderId order eventType =
      { settleOrder s orderId order eventType with idempotencyLocks := locks } := by
  unfold settleOrder
  split_ifs
  · cases eventType with
    | paymentSucceeded =>
      dsimp only
      rw [updateOrder_locks]
      cases s.payment.charges.get? order.paymentKey with
      | none => rfl
      | some charge => exact updateOrder_locks _ _ _ _
    | paymentFailed =>
      dsimp only
      rw [updateOrder_locks s locks orderId (Order.setStatus .paymentFailed),
        updateOrder_locks _ locks orderId (Order.setFailureStatus 402), releaseInventoryOnce_locks _ locks orderId]
  · rfl

theorem webhookSection_locks (s : StoreState) (locks : Dict Identity Nat) (payload : WebhookPayload) :
    webhookSection { s with idempotencyLocks := locks } payload =
      ((webhookSection s payload).1, { (webhookSection s payload).2 with idempotencyLocks := locks }) := by
  unfold webhookSection
  dsimp only
  split_ifs
  · rfl
  · cases s.orders.get? payload.orderId with
    | none => rfl
    | some order =>
      dsimp only
      rw [settleOrder_locks]

theorem cancelOrder_locks (s : StoreState) (locks : Dict Identity Nat) (orderId : String)
    (authorization : Option String) :
    cancelOrder { s with idempotencyLocks := locks } orderId authorization =
      ((cancelOrder s orderId authorization).1,
        { (cancelOrder s orderId authorization).2 with idempotencyLocks := locks }) := by
  unfold cancelOrder
  cases userFromHeader authorization with
  | error e => rfl
  | ok user => exact cancelSection_locks s locks orderId user

theorem paymentWebhook_locks (codec : WebhookCodec) (s : StoreState) (locks : Dict Identity Nat)
    (rawBody : List UInt8) (xSignature : Option String) :
    paymentWebhook codec { s with idempotencyLocks := locks } rawBody xSignature =
      ((paymentWebhook codec s rawBody xSignature).1,
        { (paymentWebhook codec s rawBody xSignature).2 with idempotencyLocks := locks }) := by
  unfold paymentWebhook
  dsimp only
  split_ifs
  · rfl
  · rfl
  · rfl
  · cases codec.decode rawBody with
    | none => rfl
    | some payload => exact webhookSection_locks s locks payload

/-- Nor does the start of a request that is no checkout. -/
theorem startStep_locks (codec : WebhookCodec) (s : StoreState) (locks : Dict Identity Nat) {request : Request}
    (other : ∀ payload authorization idempotencyKey,
      request ≠ .createOrder payload authorization idempotencyKey) :
    ∃ result, (startStep codec s request).2 = .finished result ∧
      startStep codec { s with idempotencyLocks := locks } request =
        ({ (startStep codec s request).1 with idempotencyLocks := locks }, .finished result) := by
  cases request with
  | getProduct productId => exact ⟨_, rfl, rfl⟩
  | createOrder payload authorization idempotencyKey => exact absurd rfl (other _ _ _)
  | getOrder orderId authorization => exact ⟨_, rfl, rfl⟩
  | cancelOrder orderId authorization =>
    refine ⟨(cancelOrder s orderId authorization).1.map .order, rfl, ?_⟩
    simp only [startStep, cancelOrder_locks]
  | paymentWebhook rawBody xSignature =>
    refine ⟨(paymentWebhook codec s rawBody xSignature).1.map .webhook, rfl, ?_⟩
    simp only [startStep, paymentWebhook_locks]

end Locks

/-- Every lock belongs to one identity. -/
structure LocksSound (s : StoreState) : Prop where
  bounded : ∀ identity lock, s.idempotencyLocks.get? identity = some lock → lock < s.idempotencyLocks.size
  injective : ∀ a b lock, s.idempotencyLocks.get? a = some lock → s.idempotencyLocks.get? b = some lock → a = b

theorem Touch.locksSound {s t : StoreState} (ht : Touch s t) (h : LocksSound s) : LocksSound t := by
  cases ht with
  | @lock identity fresh =>
    have size := Dict.size_set_new (v := s.idempotencyLocks.size) fresh
    constructor
    · intro other lock hl
      dsimp only at hl ⊢
      rw [size]
      rw [Dict.get?_set] at hl
      split at hl
      next =>
        cases hl
        omega
      next =>
        have := h.bounded other lock hl
        omega
    · intro a b lock ha hb
      dsimp only at ha hb
      rw [Dict.get?_set] at ha hb
      split at ha
      next same =>
        split at hb
        next same' => rw [same, same']
        next =>
          cases ha
          have := h.bounded b _ hb
          omega
      next =>
        split at hb
        next =>
          cases hb
          have := h.bounded a _ ha
          omega
        next => exact h.injective a b lock ha hb
  | update orderId _ =>
    refine ⟨?_, ?_⟩
    · rw [locks_updateOrder]
      exact h.bounded
    · rw [locks_updateOrder]
      exact h.injective
  | release orderId =>
    refine ⟨?_, ?_⟩
    · rw [locks_releaseInventoryOnce]
      exact h.bounded
    · rw [locks_releaseInventoryOnce]
      exact h.injective
  | _ => exact ⟨h.bounded, h.injective⟩

theorem reachable_locksSound {codec : WebhookCodec} {sys : System} (h : (machine codec).Reachable sys) :
    LocksSound sys.store := by
  refine reachable_store_invariant LocksSound ?_ (fun _ _ => Touch.locksSound) h
  constructor
  · intro identity lock hl
    simp [resetState] at hl
  · intro a b lock ha
    simp [resetState] at ha

section Beside

variable {codec : WebhookCodec} {sys clean : System} {i : Nat} {hex : String} {th th' : Thread}

theorem forall₂_get {α β : Type} {R : α → β → Prop} {xs : List α} {ys : List β} (h : List.Forall₂ R xs ys)
    {i : Nat} {a : α} (ha : xs[i]? = some a) : ∃ b, ys[i]? = some b ∧ R a b := by
  induction h generalizing i with
  | nil => simp at ha
  | cons first _ ih =>
    cases i with
    | zero =>
      cases ha
      exact ⟨_, rfl, first⟩
    | succ i => exact ih ha

theorem forall₂_set {α β : Type} {R : α → β → Prop} {xs : List α} {ys : List β} (h : List.Forall₂ R xs ys)
    (i : Nat) {a : α} {b : β} (hr : R a b) : List.Forall₂ R (xs.set i a) (ys.set i b) := by
  induction h generalizing i with
  | nil => exact .nil
  | cons first rest ih =>
    cases i with
    | zero => exact .cons hr rest
    | succ i => exact .cons first (ih i)

theorem PcAlike.start_left {pc : Pc} (h : PcAlike .start pc) : pc = .start := by
  cases h
  rfl

theorem PcAlike.core_left {pc : Pc} {c : Checkout} {next : CorePc} (h : PcAlike (.core c next) pc) :
    ∃ lock, pc = .core { c with lock := lock } next := by
  cases h with
  | core lock => exact ⟨lock, rfl⟩

theorem PcAlike.core_right {pc : Pc} {c : Checkout} {next : CorePc} (h : PcAlike pc (.core c next)) :
    ∃ c', pc = .core c' next ∧ c'.identity = c.identity := by
  cases h with
  | core lock => exact ⟨_, rfl, rfl⟩

/-- A checkout finds the lock of its identity free while no other one of its identity is under way. -/
theorem lock_free (reached : (machine codec).Reachable clean) {c : Checkout}
    (lock : clean.store.idempotencyLocks.get? c.identity = some c.lock)
    (turn : ∀ t ∈ clean.threads, ∀ c' next, t.pc = .core c' next → c'.identity ≠ c.identity) :
    clean.lockHeld c.lock = false := by
  refine List.any_eq_false.mpr fun t ht => ?_
  obtain ⟨j, hj⟩ := List.mem_iff_getElem?.mp ht
  unfold Thread.checkout?
  split
  next c' next hp =>
    have held := (reachable_serialised reached).holds j t hj
    rw [hp] at held
    intro locked
    have equal : c'.lock = c.lock := by simpa using locked
    exact turn t ht c' next hp ((reachable_locksSound reached).injective _ _ _ held.1.lock (equal ▸ lock))
  next => simp

theorem leadsTo_advance {store : StoreState} {pc : Pc} (ht : clean.threads[i]? = some th)
    (hs : threadStep codec clean hex th = some (store, pc)) :
    (machine codec).LeadsTo (fun _ _ => True) clean ⟨store, clean.threads.set i { th with pc := pc }⟩ :=
  .single ⟨.advance i hex, trivial,
    Option.bind_eq_some_iff.mpr ⟨_, ht, Option.bind_eq_some_iff.mpr ⟨_, hs, rfl⟩⟩⟩

/-- A step that both take leaves them side by side. -/
theorem System.Beside.advance (h : sys.Beside clean) (ht' : clean.threads[i]? = some th')
    (request : th'.request = th.request) {after : StoreState} (locks : Dict Identity Nat) {pc pc' : Pc}
    (alike : PcAlike pc pc') (hex : String)
    (hs : threadStep codec clean hex th' = some ({ after with idempotencyLocks := locks }, pc')) :
    ∃ clean', (machine codec).LeadsTo (fun _ _ => True) clean clean' ∧
      System.Beside ⟨after, sys.threads.set i { th with pc := pc }⟩ clean' :=
  ⟨_, leadsTo_advance ht' hs, ⟨locks, rfl⟩, forall₂_set h.threads i ⟨request, alike⟩⟩

/-- A checkout that starts in turn takes its lock and is where M02 has it. -/
theorem System.Beside.enter (h : sys.Beside clean) (reached : (machine codec).Reachable clean)
    (hex : String) (ht' : clean.threads[i]? = some th') (hp : th'.pc = .start)
    (request : th'.request = th.request) {payload : OrderRequest} {authorization idempotencyKey : Option String}
    (create : th'.request = .createOrder payload authorization idempotencyKey) {user key : String}
    (auth : userFromHeader authorization = .ok user) (named : idempotencyKey.filter (· ≠ "") = some key)
    (turn : ∀ t ∈ sys.threads, ∀ c next, t.pc = .core c next → c.identity ≠ (user, key)) :
    ∃ clean', (machine codec).LeadsTo (fun _ _ => True) clean clean' ∧
      System.Beside ⟨sys.store, sys.threads.set i { th with pc := .core ⟨user, key, payload, 0⟩ .lookup }⟩
        clean' := by
  obtain ⟨locks, store⟩ := h.store
  obtain ⟨locks', fetched⟩ : ∃ locks', (identityLock clean.store (user, key)).2 =
      { sys.store with idempotencyLocks := locks' } := by
    rw [store]
    unfold identityLock
    split
    next => exact ⟨locks, rfl⟩
    next => exact ⟨_, rfl⟩
  let c : Checkout := ⟨user, key, payload, (identityLock clean.store (user, key)).1⟩
  have started : threadStep codec clean hex th' = some ((identityLock clean.store (user, key)).2, .acquire c) := by
    simp only [threadStep, hp, create, startStep, startCreate, auth, named]
    rfl
  have waits := leadsTo_advance ht' started
  have here : (clean.threads.set i { th' with pc := .acquire c })[i]? =
      some { th' with pc := .acquire c } := by
    obtain ⟨hi, -⟩ := List.getElem?_eq_some_iff.mp ht'
    simp [hi]
  have free : System.lockHeld ⟨(identityLock clean.store (user, key)).2,
      clean.threads.set i { th' with pc := .acquire c }⟩ c.lock = false := by
    refine lock_free (reached.leadsTo waits) (c := c) (get?_identityLock clean.store (user, key)) ?_
    intro t hm c' next hc
    obtain ⟨j, hj⟩ := List.mem_iff_getElem?.mp hm
    obtain ⟨-, rfl⟩ | ⟨-, hj⟩ := getElem?_set_cases hj
    · cases hc
    · obtain ⟨t', ht', alike⟩ := forall₂_get h.threads.flip hj
      obtain ⟨c'', hp'', same⟩ := PcAlike.core_right (hc ▸ alike.pc)
      exact same ▸ turn t' (List.mem_of_getElem? ht') c'' next hp''
  have entered : threadStep codec ⟨(identityLock clean.store (user, key)).2,
      clean.threads.set i { th' with pc := .acquire c }⟩ hex { th' with pc := .acquire c } =
        some ((identityLock clean.store (user, key)).2, .core c .lookup) := by
    simp only [threadStep]
    rw [free]
    rfl
  refine ⟨_, waits.trans (leadsTo_advance here entered), ⟨locks', fetched⟩, ?_⟩
  dsimp only
  rw [List.set_set]
  exact forall₂_set h.threads i ⟨request, .core _⟩

theorem unlocked_refines (codec : WebhookCodec) :
    (unlockedMachine codec).Refines (machine codec) (System.InTurn codec) System.Beside where
  start := by
    rintro _ rfl
    exact ⟨_, rfl, ⟨_, rfl⟩, .nil⟩
  step := by
    rintro sys a next clean reached h turn hs
    have store := h.store
    cases a with
    | arrive request =>
      cases hs
      refine ⟨_, .single ⟨.arrive request, trivial, rfl⟩, store, ?_⟩
      exact List.rel_append h.threads (.cons ⟨rfl, .start⟩ .nil)
    | advance i hex =>
      obtain ⟨t, ht, hs⟩ := Option.bind_eq_some_iff.mp hs
      obtain ⟨⟨after, pc⟩, step, hs⟩ := Option.bind_eq_some_iff.mp hs
      cases Option.some.inj hs
      obtain ⟨t', ht', alike⟩ := forall₂_get h.threads ht
      obtain ⟨locks, store⟩ := store
      unfold unlockedStep at step
      split at step
      next hp =>
        have hp' : t'.pc = .start := PcAlike.start_left (hp ▸ alike.pc)
        have begun := Option.some.inj step
        unfold unlockedStart at begun
        split at begun
        next payload authorization idempotencyKey create =>
          have create' := alike.request.trans create
          cases auth : userFromHeader authorization with
          | error e =>
            rw [auth] at begun
            cases begun
            refine h.advance ht' alike.request locks .finished hex ?_
            simp only [threadStep, hp', create', startStep, startCreate, auth, store]
          | ok user =>
            cases named : idempotencyKey.filter (· ≠ "") with
            | none =>
              rw [auth, named] at begun
              cases begun
              refine h.advance ht' alike.request locks .finished hex ?_
              simp only [threadStep, hp', create', startStep, startCreate, auth, named, store]
              rfl
            | some key =>
              have entry : unlockedStart codec sys.store t.request =
                  (sys.store, .core ⟨user, key, payload, 0⟩ .lookup) := by
                simp only [unlockedStart, create, auth, named]
              rw [auth, named] at begun
              cases begun
              refine h.enter reached hex ht' hp' alike.request create' auth named ?_
              intro t₀ hm c₀ next₀ hc
              exact turn t _ ht hp (by rw [entry]) t₀ hm c₀ next₀ hc
        next request other =>
          obtain ⟨result, ours, theirs⟩ := startStep_locks codec sys.store locks other
          have begun' : startStep codec sys.store t.request = (after, pc) := begun
          rw [begun'] at ours theirs
          cases ours
          refine h.advance ht' alike.request locks .finished hex ?_
          simp only [threadStep, hp', alike.request]
          rw [store, theirs]
      next => cases step
      next c place hp =>
        obtain ⟨lock, hp'⟩ := PcAlike.core_left (hp ▸ alike.pc)
        obtain ⟨pc', hs', alike'⟩ := coreStep_locks locks lock step
        refine h.advance ht' alike.request locks alike' hex ?_
        simp only [threadStep, hp']
        rw [store]
        exact hs'
      next => cases step

end Beside

/-- While the checkouts of an identity take turns, M02 does nothing that the source cannot do. -/
theorem unlocked_in_turn (codec : WebhookCodec) {sys : System}
    (h : (unlockedMachine codec).ReachableWhen (System.InTurn codec) sys) :
    ∃ t, (machine codec).Reachable t ∧ sys.Beside t :=
  (unlocked_refines codec).reachable h

theorem inTurn_alone (codec : WebhookCodec) {sys : System} (alone : sys.threads.length ≤ 1) (a : Action) :
    sys.InTurn codec a := by
  cases a with
  | arrive request => trivial
  | advance i hex =>
    intro t c ht hp _ t' hm c' next hc
    obtain ⟨j, hj⟩ := List.mem_iff_getElem?.mp hm
    have := (List.getElem?_eq_some_iff.mp ht).1
    have := (List.getElem?_eq_some_iff.mp hj).1
    have same : i = j := by omega
    rw [← same, ht] at hj
    cases hj
    rw [hp] at hc
    cases hc

theorem unlockedSystemStep_length {codec : WebhookCodec} {sys next : System} {i : Nat} {hex : String}
    (h : unlockedSystemStep codec sys (.advance i hex) = some next) :
    next.threads.length = sys.threads.length := by
  obtain ⟨t, -, h⟩ := Option.bind_eq_some_iff.mp h
  obtain ⟨⟨store, pc⟩, -, h⟩ := Option.bind_eq_some_iff.mp h
  cases Option.some.inj h
  exact List.length_set

/-- A checkout of M02 that times out. -/
def aloneCheckout : List Action :=
  List.replicate 6 (.advance 0 "0a1b2c3d4e")

theorem unlocked_in_turn_alone : ∃ sys,
    (unlockedMachine ⟨fun _ => "", fun _ => none⟩).run ⟨resetState, []⟩
        (.arrive (.createOrder slowOrder (some "Bearer buyer-b") (some "key")) :: aloneCheckout) = some sys ∧
      sys.store.payment.timeoutKeys = ["checkout:ord_0a1b2c3d4e"] ∧
      ∃ t, (machine ⟨fun _ => "", fun _ => none⟩).Reachable t ∧ sys.Beside t := by
  have hr : ((unlockedMachine ⟨fun _ => "", fun _ => none⟩).run ⟨resetState, []⟩
      (.arrive (.createOrder slowOrder (some "Bearer buyer-b") (some "key")) :: aloneCheckout)).any
        (fun sys => sys.store.payment.timeoutKeys = ["checkout:ord_0a1b2c3d4e"]) = true := by decide
  obtain ⟨sys, hr, timed⟩ := (Option.any_eq_true _ _).mp hr
  refine ⟨sys, hr, by simpa using timed, unlocked_in_turn _ ?_⟩
  obtain ⟨first, arrived, later⟩ := Option.bind_eq_some_iff.mp hr
  have start : (unlockedMachine ⟨fun _ => "", fun _ => none⟩).ReachableWhen
      (System.InTurn ⟨fun _ => "", fun _ => none⟩) first := by
    refine Transition.Machine.ReachableWhen.next ⟨_, rfl, .refl⟩ ?_ arrived
    trivial
  refine start.run_within (fun sys => sys.threads.length ≤ 1)
    (fun s a alone => inTurn_alone _ alone a) ?_ ?_ later
  · intro s a t ha alone hs
    rw [List.eq_of_mem_replicate ha] at hs
    have same := unlockedSystemStep_length hs
    omega
  · cases Option.some.inj arrived
    exact le_rfl

end EdgecaseForge.FlashCart
