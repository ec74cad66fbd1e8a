import EdgecaseForge.FlashCartRejections
import EdgecaseForge.FlashCartUnlocked

namespace EdgecaseForge.FlashCart

/-- What one request of M02 does to the store is still a sequence of the writes of the source. -/
theorem unlockedStep_touches {codec : WebhookCodec} {s : StoreState} {hex : String} {t : Thread}
    {store : StoreState} {pc : Pc} (h : unlockedStep codec s hex t = some (store, pc)) : Touches s store := by
  unfold unlockedStep at h
  split at h
  next =>
    have begun := Option.some.inj h
    unfold unlockedStart at begun
    split at begun
    next =>
      split at begun
      next => cases begun; exact .refl
      next =>
        split at begun
        next => cases begun; exact .refl
        next => cases begun; exact .refl
    next request _ =>
      have touched := startStep_touches codec s t.request
      rw [begun] at touched
      exact touched
  next => cases h
  next => exact coreStep_touches h
  next => cases h

theorem unlockedStep_balance {codec : WebhookCodec} {s : StoreState} {hex : String} {t : Thread}
    {store : StoreState} {pc : Pc} (h : unlockedStep codec s hex t = some (store, pc)) :
    store.balance + pc.inFlight = s.balance + t.pc.inFlight := by
  unfold unlockedStep at h
  split at h
  next hp =>
    have begun := Option.some.inj h
    rw [hp]
    unfold unlockedStart at begun
    split at begun
    next =>
      split at begun
      next => cases begun; rfl
      next =>
        split at begun
        next => cases begun; rfl
        next => cases begun; rfl
    next request _ =>
      have kept := balance_startStep codec s t.request
      rw [begun] at kept
      simpa [Pc.inFlight] using kept
  next => cases h
  next c next hp =>
    rw [hp]
    exact balance_coreStep h
  next => cases h

/-- M02 doubles checkouts, but neither loses nor gives away stock, and charges no order but its own. -/
structure UnlockedSound (sys : System) : Prop where
  conserved : sys.store.stock + sys.store.unreleased + sys.inFlight = initialStock
  stock : 0 ≤ sys.store.stock
  released : ∀ orderId, sys.store.releases.count orderId ≤ 1
  charged : ∀ key charge, sys.store.payment.charges.get? key = some charge → ∃ id o,
    sys.store.orders.get? id = some o ∧ key = "checkout:" ++ id ∧ charge.amount = o.total
  totals : ∀ id o, sys.store.orders.get? id = some o → o.total = catalogPrice * o.quantity

theorem unlocked_sound (codec : WebhookCodec) {sys : System} (h : (unlockedMachine codec).Reachable sys) :
    UnlockedSound sys := by
  have kept : (WellFormed sys.store ∧ PaymentsSound sys.store) ∧
      sys.store.balance + sys.inFlight = initialStock := by
    refine h.invariant (fun sys => (WellFormed sys.store ∧ PaymentsSound sys.store) ∧
      sys.store.balance + sys.inFlight = initialStock) ?_ ?_
    · rintro _ rfl
      exact ⟨⟨wellFormed_resetState, paymentsSound_resetState⟩, rfl⟩
    · rintro s a next - ⟨sound, total⟩ - hs
      cases a with
      | arrive request =>
        cases hs
        refine ⟨sound, ?_⟩
        simpa [System.inFlight, Pc.inFlight] using total
      | advance i hex =>
        obtain ⟨t, ht, hs⟩ := Option.bind_eq_some_iff.mp hs
        obtain ⟨⟨store, pc⟩, step, hs⟩ := Option.bind_eq_some_iff.mp hs
        cases Option.some.inj hs
        refine ⟨(unlockedStep_touches step).keeps (fun s => WellFormed s ∧ PaymentsSound s)
          (fun _ _ touch both => ⟨touch.wellFormed both.1, touch.paymentsSound both.1 both.2⟩) sound, ?_⟩
        have moved := unlockedStep_balance step
        have sum := sum_map_set (b := { t with pc := pc }) (fun t => t.pc.inFlight) ht
        simp only [System.inFlight] at total ⊢
        rw [sum]
        dsimp only
        omega
  obtain ⟨⟨wf, paid⟩, total⟩ := kept
  refine ⟨total, wf.stock, fun orderId => ?_, paid.charged, fun id o ho => (wf.terms id o ho).2.2.1⟩
  rw [wf.releases orderId]
  exact Bool.toNat_le _

/-- Two clients with one identity that both look before one of them writes. -/
def doubledCheckout : List Action :=
  .arrive (.createOrder slowOrder (some "Bearer buyer-b") (some "key")) ::
    .arrive (.createOrder slowOrder (some "Bearer buyer-b") (some "key")) ::
      ([0, 1, 0, 1].map fun i => .advance i "") ++
        List.replicate 4 (.advance 0 "0a1b2c3d4e") ++ List.replicate 4 (.advance 1 "5f6a7b8c9d")

theorem unlocked_sound_doubled : ∃ sys,
    (unlockedMachine ⟨fun _ => "", fun _ => none⟩).run ⟨resetState, []⟩ doubledCheckout = some sys ∧
      sys.store.payment.timeoutKeys = ["checkout:ord_0a1b2c3d4e", "checkout:ord_5f6a7b8c9d"] ∧
      UnlockedSound sys := by
  have hr : ((unlockedMachine ⟨fun _ => "", fun _ => none⟩).run ⟨resetState, []⟩ doubledCheckout).any
      (fun sys => sys.store.payment.timeoutKeys =
        ["checkout:ord_0a1b2c3d4e", "checkout:ord_5f6a7b8c9d"]) = true := by decide
  obtain ⟨sys, hr, timed⟩ := (Option.any_eq_true _ _).mp hr
  refine ⟨sys, hr, by simpa using timed, ?_⟩
  exact unlocked_sound _ (Transition.Machine.Reachable.run ⟨_, rfl, .refl⟩ hr)

/-- The checkout that every client of the identity sends. -/
def sharedCheckout : Checkout :=
  ⟨"buyer-a", "key", declinedOrder, 0⟩

def sharedRequest : Request :=
  .createOrder declinedOrder (some "Bearer buyer-a") (some "key")

def declinedReply : Pc :=
  fail 402 "Payment declined"

/-- `n` requests for one checkout, of which the first `k` have been declined. -/
def declinedThreads (n k : Nat) : List Thread :=
  List.replicate k ⟨sharedRequest, declinedReply⟩ ++
    List.replicate (n - k) ⟨sharedRequest, .core sharedCheckout .reserve⟩

section Duplicates

variable {codec : WebhookCodec} {s t : StoreState} {before after : List Thread} {request : Request}

theorem middle_reachable (hex : String) (pc' : Pc) {pc : Pc}
    (h : (unlockedMachine codec).Reachable ⟨s, before ++ ⟨request, pc⟩ :: after⟩)
    (hs : unlockedStep codec s hex ⟨request, pc⟩ = some (t, pc')) :
    (unlockedMachine codec).Reachable ⟨t, before ++ ⟨request, pc'⟩ :: after⟩ := by
  have here : (before ++ ⟨request, pc⟩ :: after)[before.length]? = some ⟨request, pc⟩ := by simp
  refine h.next (a := .advance before.length hex) trivial ?_
  exact Option.bind_eq_some_iff.mpr ⟨_, here, Option.bind_eq_some_iff.mpr ⟨_, hs, by simp⟩⟩

/-- Every client of an identity finds nothing recorded, when they all look before one of them writes. -/
theorem looked_reachable (codec : WebhookCodec) (n : Nat) :
    (unlockedMachine codec).Reachable
      ⟨resetState, List.replicate n ⟨sharedRequest, .core sharedCheckout .reserve⟩⟩ := by
  induction n with
  | zero => exact ⟨_, rfl, .refl⟩
  | succ n ih =>
    have arrived : (unlockedMachine codec).Reachable ⟨resetState,
        List.replicate n ⟨sharedRequest, .core sharedCheckout .reserve⟩ ++ [⟨sharedRequest, .start⟩]⟩ :=
      ih.next (a := .arrive sharedRequest) trivial rfl
    have user : userFromHeader (some "Bearer buyer-a") = .ok "buyer-a" := by decide
    have started : unlockedStep codec resetState "" ⟨sharedRequest, .start⟩ =
        some (resetState, .core sharedCheckout .lookup) := by
      simp only [unlockedStep, unlockedStart, sharedRequest, user]
      rfl
    have entered := middle_reachable "" (.core sharedCheckout .lookup) arrived started
    have looked := middle_reachable "" (.core sharedCheckout .reserve) entered rfl
    rw [List.replicate_succ']
    exact looked

/-- What a declined checkout leaves behind: its order, which has failed, and the stock it found. -/
structure LeavesOrder (s t : StoreState) (id : String) : Prop where
  stock : t.stock = s.stock
  payment : t.payment = s.payment
  creations : t.creations = s.creations ++ [(("buyer-a", "key"), id)]
  orders : t.orders.keys = s.orders.keys ++ [id]

theorem failOrder_leaves {id : String} (enough : s.orders.get? id = none) :
    LeavesOrder s (failOrder (recordOrder { s with stock := s.stock - 2 } sharedCheckout id) id) id := by
  have placed : (recordOrder { s with stock := s.stock - 2 } sharedCheckout id).orders.get? id =
      some (buildOrder { s with stock := s.stock - 2 } sharedCheckout id) := Dict.get?_set_self _ _ _
  have keys : (recordOrder { s with stock := s.stock - 2 } sharedCheckout id).orders.keys =
      s.orders.keys ++ [id] := by
    change (s.orders.set id _).keys = _
    rw [Dict.keys, Dict.entries_set_new enough, List.map_append]
    rfl
  refine ⟨?_, ?_, ?_, ?_⟩
  · rw [failOrder_stock placed rfl]
    change s.stock - 2 + 2 = s.stock
    omega
  · exact (failOrder_frame _ _).2.2
  · unfold failOrder
    rw [(sameBooks_releaseInventoryOnce _ _).creations, (sameBooks_updateOrder _ _ _).creations,
      (sameBooks_updateOrder _ _ _).creations]
    rfl
  · unfold failOrder
    rw [keys_releaseInventoryOnce, keys_updateOrder, keys_updateOrder, keys]

/-- The rest of a checkout that was let through, to its decline. -/
theorem declined_reachable {hex : String}
    (h : (unlockedMachine codec).Reachable
      ⟨s, before ++ ⟨sharedRequest, .core sharedCheckout .reserve⟩ :: after⟩)
    (enough : 2 ≤ s.stock) (fresh : s.orders.get? ("ord_" ++ hex) = none)
    (free : s.payment.charges.get? ("checkout:" ++ ("ord_" ++ hex)) = none) :
    ∃ t, (unlockedMachine codec).Reachable ⟨t, before ++ ⟨sharedRequest, declinedReply⟩ :: after⟩ ∧
      LeavesOrder s t ("ord_" ++ hex) := by
  have reserved : unlockedStep codec s hex ⟨sharedRequest, .core sharedCheckout .reserve⟩ =
      some ({ s with stock := s.stock - 2 }, .core sharedCheckout .publish) := by
    have room : ¬ s.stock < sharedCheckout.payload.quantity := not_lt.mpr enough
    simp only [unlockedStep, coreStep, reserveInventory, if_neg room]
    rfl
  have published : unlockedStep codec { s with stock := s.stock - 2 } hex
      ⟨sharedRequest, .core sharedCheckout .publish⟩ = some ({ s with
        stock := s.stock - 2
        orders := s.orders.set ("ord_" ++ hex)
          (buildOrder { s with stock := s.stock - 2 } sharedCheckout ("ord_" ++ hex))
        creations := s.creations ++ [(sharedCheckout.identity, "ord_" ++ hex)] },
        .core sharedCheckout (.record ("ord_" ++ hex))) := by
    simp only [unlockedStep, coreStep, fresh]
    rfl
  have taken := middle_reachable hex (.core sharedCheckout .publish) h reserved
  have made := middle_reachable hex (.core sharedCheckout (.record ("ord_" ++ hex))) taken published
  have recorded : (unlockedMachine codec).Reachable
      ⟨recordOrder { s with stock := s.stock - 2 } sharedCheckout ("ord_" ++ hex),
        before ++ ⟨sharedRequest, .core sharedCheckout (.charge ("ord_" ++ hex))⟩ :: after⟩ :=
    middle_reachable hex (.core sharedCheckout (.charge ("ord_" ++ hex))) made rfl
  have placed : (recordOrder { s with stock := s.stock - 2 } sharedCheckout ("ord_" ++ hex)).orders.get?
      ("ord_" ++ hex) = some (buildOrder { s with stock := s.stock - 2 } sharedCheckout ("ord_" ++ hex)) :=
    Dict.get?_set_self _ _ _
  have refused : unlockedStep codec (recordOrder { s with stock := s.stock - 2 } sharedCheckout ("ord_" ++ hex)) ""
      ⟨sharedRequest, .core sharedCheckout (.charge ("ord_" ++ hex))⟩ =
        some (recordOrder { s with stock := s.stock - 2 } sharedCheckout ("ord_" ++ hex),
          .core sharedCheckout (.storeFailed ("ord_" ++ hex))) := by
    have declined : (recordOrder { s with stock := s.stock - 2 } sharedCheckout ("ord_" ++ hex)).payment.charge
        ("checkout:" ++ ("ord_" ++ hex)) (s.price * 2) "decline" =
          (.error ⟨402, "Payment declined"⟩, s.payment) := by
      unfold PaymentStub.charge
      have none : (recordOrder { s with stock := s.stock - 2 } sharedCheckout
          ("ord_" ++ hex)).payment.charges.get? ("checkout:" ++ ("ord_" ++ hex)) = none := free
      rw [none]
      rfl
    exact Option.bind_eq_some_iff.mpr ⟨_, placed, by erw [declined]; exact if_pos rfl⟩
  have failed := middle_reachable "" (.core sharedCheckout (.storeFailed ("ord_" ++ hex))) recorded refused
  have noted := middle_reachable "" (.core sharedCheckout (.storeFailure ("ord_" ++ hex))) failed rfl
  have told := middle_reachable "" (.core sharedCheckout (.release ("ord_" ++ hex))) noted rfl
  exact ⟨_, middle_reachable "" declinedReply told rfl, failOrder_leaves fresh⟩

/-- What `k` declined checkouts of one identity leave behind. -/
structure LeftOrders (s : StoreState) (k : Nat) : Prop where
  stock : s.stock = initialStock
  payment : s.payment = resetState.payment
  creations : s.creations = (List.range k).map fun i => (("buyer-a", "key"), "ord_" ++ toString i)
  orders : s.orders.keys = (List.range k).map fun i => "ord_" ++ toString i

theorem orderName_injective {i j : Nat} (h : "ord_" ++ toString i = "ord_" ++ toString j) : i = j := by
  have digits : toString i = toString j := by simpa using h
  exact chargeId_injective (congrArg ("ch_" ++ ·) digits)

theorem left_reachable (codec : WebhookCodec) (n : Nat) {k : Nat} (hk : k ≤ n) :
    ∃ s, (unlockedMachine codec).Reachable ⟨s, declinedThreads n k⟩ ∧ LeftOrders s k := by
  induction k with
  | zero => exact ⟨resetState, looked_reachable codec n, rfl, rfl, rfl, rfl⟩
  | succ k ih =>
    obtain ⟨s, reached, left⟩ := ih (by omega)
    have split_ : declinedThreads n k = List.replicate k ⟨sharedRequest, declinedReply⟩ ++
        ⟨sharedRequest, .core sharedCheckout .reserve⟩ ::
          List.replicate (n - (k + 1)) ⟨sharedRequest, .core sharedCheckout .reserve⟩ := by
      rw [declinedThreads, show n - k = n - (k + 1) + 1 by omega, List.replicate_succ]
    have fresh : s.orders.get? ("ord_" ++ toString k) = none := by
      rw [Dict.get?_eq_none_iff, left.orders]
      intro hm
      obtain ⟨i, hi, same⟩ := List.mem_map.mp hm
      have := List.mem_range.mp hi
      have := orderName_injective same
      omega
    have free : s.payment.charges.get? ("checkout:" ++ ("ord_" ++ toString k)) = none := by
      rw [left.payment]
      rfl
    rw [split_] at reached
    obtain ⟨t, reached', leaves⟩ := declined_reachable reached (by rw [left.stock]; decide) fresh free
    refine ⟨t, ?_, leaves.stock.trans left.stock, leaves.payment.trans left.payment, ?_, ?_⟩
    · have joined : declinedThreads n (k + 1) = List.replicate k ⟨sharedRequest, declinedReply⟩ ++
          ⟨sharedRequest, declinedReply⟩ ::
            List.replicate (n - (k + 1)) ⟨sharedRequest, .core sharedCheckout .reserve⟩ := by
        rw [declinedThreads, List.replicate_succ', List.append_assoc, List.singleton_append]
      rw [joined]
      exact reached'
    · rw [leaves.creations, left.creations, List.range_succ, List.map_append]
      rfl
    · rw [leaves.orders, left.orders, List.range_succ, List.map_append]
      rfl

end Duplicates

/-- M02 gives one identity any number of orders, one for each client that retries its checkout at once. -/
theorem unlocked_duplicates (codec : WebhookCodec) (n : Nat) :
    ∃ sys, (unlockedMachine codec).Reachable sys ∧
      sys.threads = List.replicate n ⟨sharedRequest, fail 402 "Payment declined"⟩ ∧
      (sys.store.creations.filter fun made => made.1 = ("buyer-a", "key")).length = n ∧
      sys.store.orders.size = n := by
  obtain ⟨s, reached, left⟩ := left_reachable codec n le_rfl
  refine ⟨_, reached, ?_, ?_, ?_⟩
  · simp [declinedThreads, declinedReply]
  · rw [left.creations, List.filter_eq_self.mpr]
    · simp
    · intro made hm
      obtain ⟨i, -, rfl⟩ := List.mem_map.mp hm
      simp
  · have count := congrArg List.length left.orders
    simpa [Dict.keys, Dict.size] using count

end EdgecaseForge.FlashCart
