import EdgecaseForge.FlashCartStatus

namespace EdgecaseForge.FlashCart

/-- The request is between declaring an order failed and returning its inventory. -/
def CorePc.failing (id : String) (next : CorePc) : Prop :=
  next = .storeFailure id ∨ next = .release id

/-- The last status write of `create_order` comes before any other outcome of its order. -/
def finalWriteInTime (sys : System) : Action → Prop
  | .arrive _ => True
  | .advance i _ => ∀ (t : Thread) (c : Checkout) (id : String) (o : Order),
      sys.threads[i]? = some t → sys.store.orders.get? id = some o →
      (t.pc = .core c (.storePaid id) → o.status = .paymentPending ∨ o.status = .paid) ∧
      (t.pc = .core c (.storeFailed id) → o.status = .paymentPending ∨ o.status = .paymentFailed)

/-- What the flag of an order says about its status. Only an order whose request has still to
return the inventory may be failed and not released. -/
def Phase.Fits (pending : Prop) : Phase → Prop
  | (.paymentPending, b) => b = false
  | (.paid, b) => b = false
  | (.cancelled, b) => b = true
  | (.paymentFailed, b) => b = true ∨ pending

def System.failing (sys : System) (id : String) : Prop :=
  ∃ (i : Nat) (t : Thread) (c : Checkout) (next : CorePc),
    sys.threads[i]? = some t ∧ t.pc = .core c next ∧ next.failing id

structure Settled (sys : System) : Prop where
  fits : ∀ id p, sys.store.phase? id = some p → Phase.Fits (sys.failing id) p
  failing : ∀ id, sys.failing id → ∃ b, sys.store.phase? id = some (.paymentFailed, b)

/-- The part of a step that one order sees, when the step is allowed. -/
inductive Outcome (failing after : Prop) : Option Phase → Option Phase → Prop
  | same (p : Option Phase) : (failing → after) → Outcome failing after p p
  | published : Outcome failing after none (some (.paymentPending, false))
  | paid (b : Bool) : Outcome failing after (some (.paymentPending, b)) (some (.paid, b))
  | failed (b : Bool) : after →
      Outcome failing after (some (.paymentPending, b)) (some (.paymentFailed, b))
  | refused (b : Bool) :
      Outcome failing after (some (.paymentPending, b)) (some (.paymentFailed, true))
  | cancelled (b : Bool) : Outcome failing after (some (.paid, b)) (some (.cancelled, true))
  | released (b : Bool) :
      Outcome failing after (some (.paymentFailed, b)) (some (.paymentFailed, true))

theorem Outcome.fits {failing after : Prop} {p q : Option Phase} (h : Outcome failing after p q)
    (before : ∀ r, p = some r → Phase.Fits failing r) (r : Phase) (hq : q = some r) :
    Phase.Fits after r := by
  cases h with
  | same p keeps =>
    have fits := before r hq
    obtain ⟨status, b⟩ := r
    cases status with
    | paymentFailed => exact fits.imp id keeps
    | _ => exact fits
  | published => cases Option.some.inj hq; rfl
  | paid b =>
    cases Option.some.inj hq
    exact before _ rfl
  | failed b keeps =>
    cases Option.some.inj hq
    exact .inr keeps
  | refused b => cases Option.some.inj hq; exact .inl rfl
  | cancelled b => cases Option.some.inj hq; rfl
  | released b => cases Option.some.inj hq; exact .inl rfl

inductive StatusChange : OrderStatus → OrderStatus → Prop
  | paid : StatusChange .paymentPending .paid
  | failed : StatusChange .paymentPending .paymentFailed
  | cancelled : StatusChange .paid .cancelled

theorem Outcome.change {failing after : Prop} {p q : Phase}
    (h : Outcome failing after (some p) (some q)) : q.1 = p.1 ∨ StatusChange p.1 q.1 := by
  cases h with
  | same => exact .inl rfl
  | paid => exact .inr .paid
  | failed => exact .inr .failed
  | refused => exact .inr .failed
  | cancelled => exact .inr .cancelled
  | released => exact .inl rfl

theorem Handled.outcome {p q : Option Phase} (h : Handled p q) {failing after : Prop}
    (keeps : failing → after) : Outcome failing after p q := by
  cases h with
  | same => exact .same p keeps
  | paid b => exact .paid b
  | failed b => exact .refused b
  | cancelled b => exact .cancelled b

theorem Outcome.keeps_failed {failing after : Prop} {p q : Option Phase}
    (h : Outcome failing after p q) {b : Bool} (hp : p = some (.paymentFailed, b)) :
    ∃ b', q = some (.paymentFailed, b') := by
  cases h with
  | same => exact ⟨b, hp⟩
  | released => exact ⟨true, rfl⟩
  | _ => cases hp

/-- A step makes a request fail an order only by writing the failure or by going on with it. -/
theorem coreStep_failing {s t : StoreState} {hex : String} {c : Checkout} {next : CorePc} {pc : Pc}
    (h : coreStep s hex c next = some (t, pc)) {c' : Checkout} {after : CorePc} {id : String}
    (hpc : pc = .core c' after) (hf : after.failing id) :
    next = .storeFailed id ∨ next = .storeFailure id := by
  subst hpc
  cases next with
  | lookup =>
    simp only [coreStep] at h
    split at h
    · cases h; simp [CorePc.failing] at hf
    · split at h <;> cases h
      simp [CorePc.failing] at hf
  | replay orderId =>
    simp only [coreStep] at h
    split at h
    · cases h
    · split at h
      · cases h
      · split at h <;> cases h
        simp [CorePc.failing] at hf
  | replayPending orderId =>
    obtain ⟨order, _, h⟩ := Option.bind_eq_some_iff.mp h
    split at h <;> cases h
    simp [CorePc.failing] at hf
  | reserve =>
    simp only [coreStep] at h
    split at h <;> cases h
    simp [CorePc.failing] at hf
  | publish =>
    simp only [coreStep] at h
    split at h <;> cases h
    simp [CorePc.failing] at hf
  | charge orderId =>
    obtain ⟨order, _, h⟩ := Option.bind_eq_some_iff.mp h
    split at h
    next => cases h; simp [CorePc.failing] at hf
    next =>
      split at h <;> cases h
      simp [CorePc.failing] at hf
  | reply orderId =>
    obtain ⟨order, _, h⟩ := Option.bind_eq_some_iff.mp h
    cases h
  | release orderId => cases h
  | storeFailed orderId =>
    cases h
    simpa [CorePc.failing, eq_comm] using hf
  | storeFailure orderId =>
    cases h
    simpa [CorePc.failing, eq_comm] using hf
  | _ =>
    cases h
    simp [CorePc.failing] at hf

section Advance

variable {codec : WebhookCodec} {sys : System} {i : Nat} {hex : String} {t : Thread}
  {store : StoreState} {pc : Pc}

/-- Some request keeps failing an order unless the one that moves was the last to do so. -/
theorem failing_advance (ht : sys.threads[i]? = some t) {id : String}
    (mine : ∀ c next, t.pc = .core c next → next.failing id →
      ∃ after, pc = .core c after ∧ after.failing id)
    (h : sys.failing id) :
    System.failing ⟨store, sys.threads.set i { t with pc := pc }⟩ id := by
  obtain ⟨j, tj, c, next, htj, hp, hf⟩ := h
  by_cases hij : i = j
  · subst hij
    cases Option.some.inj (ht.symm.trans htj)
    obtain ⟨after, hpc, ha⟩ := mine c next hp hf
    obtain ⟨hi, _⟩ := List.getElem?_eq_some_iff.mp ht
    exact ⟨i, { t with pc := pc }, c, after, by simp [hi], hpc, ha⟩
  · exact ⟨j, tj, c, next, (List.getElem?_set_ne hij).trans htj, hp, hf⟩

/-- A request whose control state is not about failing an order leaves that to the others. -/
theorem outcome_same (ht : sys.threads[i]? = some t) {c : Checkout} {next : CorePc} {id : String}
    (hp : t.pc = .core c next) (hf : ¬ next.failing id) (p : Option Phase) :
    Outcome (sys.failing id)
      (System.failing ⟨store, sys.threads.set i { t with pc := pc }⟩ id) p p := by
  refine .same p (failing_advance ht ?_)
  intro c' next' hp' hf'
  rw [hp] at hp'
  cases hp'
  exact absurd hf' hf

theorem status_of_phase? {s : StoreState} {id : String} {status : OrderStatus} {b : Bool}
    (h : s.phase? id = some (status, b)) : ∃ o, s.orders.get? id = some o ∧ o.status = status := by
  obtain ⟨o, ho, hp⟩ := Option.map_eq_some_iff.mp h
  exact ⟨o, ho, congrArg Prod.fst hp⟩

theorem storePaid_outcome (ht : sys.threads[i]? = some t)
    (allowed : finalWriteInTime sys (.advance i hex)) {c : Checkout} {orderId : String}
    (hp : t.pc = .core c (.storePaid orderId)) (id : String) :
    Outcome (sys.failing id) (System.failing ⟨store, sys.threads.set i { t with pc := pc }⟩ id)
      (sys.store.phase? id) (CorePc.writes id (.storePaid orderId) (sys.store.phase? id)) := by
  have same : ∀ p, Outcome (sys.failing id)
      (System.failing ⟨store, sys.threads.set i { t with pc := pc }⟩ id) p p :=
    outcome_same ht hp (by simp [CorePc.failing])
  simp only [CorePc.writes]
  by_cases hid : id = orderId
  · subst hid
    rw [if_pos rfl]
    cases hph : sys.store.phase? id with
    | none => exact same none
    | some p =>
      obtain ⟨status, b⟩ := p
      obtain ⟨o, ho, hs⟩ := status_of_phase? hph
      rcases (allowed t c id o ht ho).1 hp with pending | paid
      · rw [hs] at pending
        subst pending
        exact .paid b
      · rw [hs] at paid
        subst paid
        exact same _
  · rw [if_neg hid]
    exact same _

theorem storeFailed_outcome (ht : sys.threads[i]? = some t)
    (allowed : finalWriteInTime sys (.advance i hex)) {c : Checkout} {orderId : String}
    (hp : t.pc = .core c (.storeFailed orderId)) (hpc : pc = .core c (.storeFailure orderId))
    (id : String) :
    Outcome (sys.failing id) (System.failing ⟨store, sys.threads.set i { t with pc := pc }⟩ id)
      (sys.store.phase? id) (CorePc.writes id (.storeFailed orderId) (sys.store.phase? id)) := by
  have same : ∀ p, Outcome (sys.failing id)
      (System.failing ⟨store, sys.threads.set i { t with pc := pc }⟩ id) p p :=
    outcome_same ht hp (by simp [CorePc.failing])
  simp only [CorePc.writes]
  by_cases hid : id = orderId
  · subst hid
    rw [if_pos rfl]
    cases hph : sys.store.phase? id with
    | none => exact same none
    | some p =>
      obtain ⟨status, b⟩ := p
      obtain ⟨o, ho, hs⟩ := status_of_phase? hph
      rcases (allowed t c id o ht ho).2 hp with pending | failed
      · rw [hs] at pending
        subst pending
        obtain ⟨hi, _⟩ := List.getElem?_eq_some_iff.mp ht
        exact .failed b ⟨i, { t with pc := pc }, c, _, by simp [hi], hpc, .inl rfl⟩
      · rw [hs] at failed
        subst failed
        exact same _
  · rw [if_neg hid]
    exact same _

theorem release_outcome (h : Settled sys) (ht : sys.threads[i]? = some t) {c : Checkout}
    {orderId : String} (hp : t.pc = .core c (.release orderId)) (id : String) :
    Outcome (sys.failing id) (System.failing ⟨store, sys.threads.set i { t with pc := pc }⟩ id)
      (sys.store.phase? id) (CorePc.writes id (.release orderId) (sys.store.phase? id)) := by
  simp only [CorePc.writes]
  by_cases hid : id = orderId
  · subst hid
    rw [if_pos rfl]
    obtain ⟨b, hb⟩ := h.failing id ⟨i, t, c, _, ht, hp, .inr rfl⟩
    rw [hb]
    exact .released b
  · rw [if_neg hid]
    exact outcome_same ht hp (by simp [CorePc.failing, Ne.symm hid]) _

theorem coreStep_outcome (h : Settled sys) (ht : sys.threads[i]? = some t)
    (allowed : finalWriteInTime sys (.advance i hex)) {c : Checkout} {next : CorePc}
    (hp : t.pc = .core c next) (hs : coreStep sys.store hex c next = some (store, pc))
    (id : String) :
    Outcome (sys.failing id) (System.failing ⟨store, sys.threads.set i { t with pc := pc }⟩ id)
      (sys.store.phase? id) (store.phase? id) := by
  rcases coreStep_phase hs id with written | ⟨_, absent, new⟩
  · rw [written]
    cases next with
    | storePaid orderId => exact storePaid_outcome ht allowed hp id
    | storeFailed orderId =>
      cases hs
      exact storeFailed_outcome ht allowed hp rfl id
    | release orderId => exact release_outcome h ht hp id
    | storeFailure orderId =>
      cases hs
      refine .same _ (failing_advance ht ?_)
      intro c' next' hp' hf'
      rw [hp] at hp'
      cases hp'
      exact ⟨.release orderId, rfl, by simpa [CorePc.failing] using hf'⟩
    | _ => exact outcome_same ht hp (by simp [CorePc.failing]) _
  · rw [absent, new]
    exact .published

theorem threadStep_outcome (h : Settled sys) (ht : sys.threads[i]? = some t)
    (allowed : finalWriteInTime sys (.advance i hex))
    (hs : threadStep codec sys hex t = some (store, pc)) (id : String) :
    Outcome (sys.failing id) (System.failing ⟨store, sys.threads.set i { t with pc := pc }⟩ id)
      (sys.store.phase? id) (store.phase? id) := by
  obtain ⟨outside, _, handled⟩ | ⟨c, next, hp, hc⟩ := threadStep_phase hs
  · refine (handled id).outcome (failing_advance ht ?_)
    intro c next hp
    exact absurd hp (outside c next)
  · exact coreStep_outcome h ht allowed hp hc id

theorem Settled.advance (h : Settled sys) (serial : Serialised sys)
    (ht : sys.threads[i]? = some t) (allowed : finalWriteInTime sys (.advance i hex))
    (hs : threadStep codec sys hex t = some (store, pc)) :
    Settled ⟨store, sys.threads.set i { t with pc := pc }⟩ where
  fits := fun id => (threadStep_outcome h ht allowed hs id).fits (h.fits id)
  failing := by
    rintro id ⟨j, tj, c, next, htj, hp, hf⟩
    have kept : sys.failing id → ∃ b, store.phase? id = some (.paymentFailed, b) := by
      intro before
      obtain ⟨b, hb⟩ := h.failing id before
      exact (threadStep_outcome h ht allowed hs id).keeps_failed hb
    obtain ⟨_, rfl⟩ | ⟨_, old⟩ := getElem?_set_cases htj
    · obtain ⟨_, entered, _⟩ | ⟨c', before, hb, hc⟩ := threadStep_phase hs
      · rw [entered c next hp] at hf
        simp [CorePc.failing] at hf
      · rcases coreStep_failing hc hp hf with rfl | rfl
        · have holds := serial.holds i t ht
          rw [hb] at holds
          obtain ⟨o, ho, _⟩ := holds.2
          rcases coreStep_phase hc id with written | ⟨hn, _⟩
          · exact ⟨o.phase.2, by rw [written]; simp [CorePc.writes, StoreState.phase?, ho]⟩
          · cases hn
        · exact kept ⟨i, t, c', _, ht, hb, .inl rfl⟩
    · exact kept ⟨j, tj, c, next, old, hp, hf⟩

end Advance

theorem settled_start : Settled ⟨resetState, []⟩ where
  fits := by intro id p hp; simp [resetState, StoreState.phase?] at hp
  failing := by rintro id ⟨i, t, c, next, ht, _⟩; simp at ht

theorem Settled.arrive {sys : System} (h : Settled sys) (request : Request) :
    Settled { sys with threads := sys.threads ++ [⟨request, .start⟩] } := by
  have back : ∀ id, System.failing
      { sys with threads := sys.threads ++ [⟨request, .start⟩] } id → sys.failing id := by
    rintro id ⟨i, t, c, next, ht, hp, hf⟩
    rcases getElem?_append_start ht with old | new
    · exact ⟨i, t, c, next, old, hp, hf⟩
    · rw [new] at hp
      cases hp
  have forth : ∀ id, sys.failing id → System.failing
      { sys with threads := sys.threads ++ [⟨request, .start⟩] } id := by
    rintro id ⟨i, t, c, next, ht, hp, hf⟩
    obtain ⟨hi, _⟩ := List.getElem?_eq_some_iff.mp ht
    exact ⟨i, t, c, next, (List.getElem?_append_left hi).trans ht, hp, hf⟩
  refine ⟨?_, fun id hf => h.failing id (back id hf)⟩
  intro id p hp
  exact (Outcome.same (some p) (forth id)).fits (fun r hr => h.fits id r (hp.trans hr)) p rfl

theorem reachable_settled {codec : WebhookCodec} {sys : System}
    (h : (machine codec).ReachableWhen finalWriteInTime sys) : Settled sys := by
  refine h.invariant Settled ?_ ?_
  · rintro _ rfl
    exact settled_start
  · intro sys a next hr hi allowed hs
    obtain ⟨request, rfl, rfl⟩ | ⟨i, hex, t, store, pc, rfl, ht, hstep, rfl⟩ := systemStep_cases hs
    · exact hi.arrive request
    · exact hi.advance (reachable_serialised hr.reachable) ht allowed hstep

def System.idle (sys : System) : Prop :=
  ∀ t ∈ sys.threads, ∀ c next, t.pc ≠ .core c next

def StoreState.paidQuantity (s : StoreState) : Int :=
  s.orders.total fun o => if o.status = .paid then o.quantity else 0

/-- Statuses move only forward, and while no create is at work the inventory of an order is
released exactly when its status says so. -/
structure StatusCoherent (codec : WebhookCodec) (allowed : System → Action → Prop) : Prop where
  changes : ∀ sys a next, (machine codec).ReachableWhen allowed sys → allowed sys a →
    systemStep codec sys a = some next → ∀ id o o', sys.store.orders.get? id = some o →
    next.store.orders.get? id = some o' → o'.status = o.status ∨ StatusChange o.status o'.status
  released : ∀ sys, (machine codec).ReachableWhen allowed sys → sys.idle →
    ∀ id o, sys.store.orders.get? id = some o →
    (o.inventoryReleased = true ↔ o.status = .paymentFailed ∨ o.status = .cancelled)
  paid : ∀ sys, (machine codec).ReachableWhen allowed sys →
    sys.store.paidQuantity ≤ initialStock

theorem Settled.released_iff {sys : System} (h : Settled sys) (idle : sys.idle) {id : String}
    {o : Order} (ho : sys.store.orders.get? id = some o) :
    o.inventoryReleased = true ↔ o.status = .paymentFailed ∨ o.status = .cancelled := by
  have fits : Phase.Fits (sys.failing id) (o.status, o.inventoryReleased) :=
    h.fits id o.phase (by simp [StoreState.phase?, ho])
  have calm : ¬ sys.failing id := by
    rintro ⟨i, t, c, next, ht, hp, _⟩
    exact idle t (List.mem_of_getElem? ht) c next hp
  cases hs : o.status <;> simp only [hs, Phase.Fits, calm, or_false] at fits <;> simp [fits]

theorem Settled.paidQuantity_le {sys : System} (h : Settled sys) (wf : WellFormed sys.store) :
    sys.store.paidQuantity ≤ sys.store.unreleased := by
  refine List.sum_le_sum ?_
  intro o ho
  obtain ⟨⟨id, order⟩, he, rfl⟩ := List.mem_map.mp ho
  have hget := Dict.get?_of_mem he
  have held := wf.held_nonneg hget
  dsimp only at hget held ⊢
  split
  next hp =>
    have fits := h.fits id (.paid, order.inventoryReleased)
      (by simp only [StoreState.phase?, hget, Option.map_some, Order.phase, hp])
    simp only [Phase.Fits] at fits
    simp [Order.held, fits]
  next => exact held

theorem status_coherent (codec : WebhookCodec) : StatusCoherent codec finalWriteInTime where
  changes := by
    intro sys a next hr allowed hs id o o' ho ho'
    have before : sys.store.phase? id = some o.phase := by simp [StoreState.phase?, ho]
    have after : next.store.phase? id = some o'.phase := by simp [StoreState.phase?, ho']
    obtain ⟨request, rfl, rfl⟩ | ⟨i, hex, t, store, pc, rfl, ht, hstep, rfl⟩ := systemStep_cases hs
    · cases Option.some.inj (ho.symm.trans ho')
      exact .inl rfl
    · have outcome := threadStep_outcome (reachable_settled hr) ht allowed hstep id
      rw [before, after] at outcome
      exact outcome.change
  released := fun _ hr idle _ _ ho => (reachable_settled hr).released_iff idle ho
  paid := by
    intro sys hr
    have wf := reachable_wellFormed hr.reachable
    have total := reachable_balance hr.reachable
    have below := (reachable_settled hr).paidQuantity_le wf
    have inFlight := inFlight_nonneg sys
    have stock := wf.stock
    simp only [StoreState.balance] at total
    omega

def lateWebhookBody : List UInt8 :=
  "\x7b\"event_id\":\"evt-late\",\"event_type\":\"payment.failed\",\"order_id\":\"ord_3f2b8c1e9a\"\x7d".toUTF8.toList

/-- The signature and the payload of one webhook body. -/
def lateWebhookCodec : WebhookCodec where
  signature body := if body = lateWebhookBody then
    "8827f1564c77947dffe4d3f7058d05eb5241efa660bc169e71952224dd95b237" else ""
  decode body := if body = lateWebhookBody then
    some ⟨"evt-late", .paymentFailed, "ord_3f2b8c1e9a"⟩ else none

def approvedOrder : OrderRequest :=
  ⟨1, 1, none, "approved", slowOrder.quantity_gt, slowOrder.quantity_le⟩

/-- A failed payment is reported between the charge of an order and its last status write. -/
def lateWebhookRun : List Action :=
  .arrive (.createOrder approvedOrder (some "Bearer buyer-a") (some "key")) ::
    (List.replicate 8 (.advance 0 "3f2b8c1e9a") ++
      [.arrive (.paymentWebhook lateWebhookBody
        (some (lateWebhookCodec.signature lateWebhookBody))), .advance 1 ""])

def StoreState.status? (s : StoreState) (id : String) : Option OrderStatus :=
  (s.orders.get? id).map Order.status

/-- The last write of the create makes the failed order paid, with its inventory released. -/
theorem paid_after_failed : ¬ StatusCoherent lateWebhookCodec fun _ _ => True := by
  intro h
  have both : (((machine lateWebhookCodec).run ⟨resetState, []⟩ lateWebhookRun).bind fun before =>
      (systemStep lateWebhookCodec before (.advance 0 "")).map fun after =>
        (before.store.status? "ord_3f2b8c1e9a", after.store.status? "ord_3f2b8c1e9a")) =
      some (some .paymentFailed, some .paid) := by decide +kernel
  obtain ⟨before, hb, hs⟩ := Option.bind_eq_some_iff.mp both
  obtain ⟨after, ha, hs⟩ := Option.map_eq_some_iff.mp hs
  obtain ⟨o, ho, failed⟩ := Option.map_eq_some_iff.mp (congrArg Prod.fst hs)
  obtain ⟨o', ho', paid⟩ := Option.map_eq_some_iff.mp (congrArg Prod.snd hs)
  have reached := Transition.Machine.Reachable.run ⟨_, rfl, .refl⟩ hb
  rcases h.changes before _ after reached trivial ha _ o o' ho ho' with same | change
  · rw [failed, paid] at same
    cases same
  · rw [failed, paid] at change
    cases change

end EdgecaseForge.FlashCart
