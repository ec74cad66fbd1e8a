import EdgecaseForge.FlashCartBooks

namespace EdgecaseForge.FlashCart

theorem threadStep_books {codec : WebhookCodec} {sys : System} {hex : String} {t : Thread}
    {store : StoreState} {pc : Pc} (h : threadStep codec sys hex t = some (store, pc)) :
    (SameBooks sys.store store ∧ ∀ c id, t.pc ≠ .core c (.record id)) ∨
    (∃ c id, t.pc = .core c .publish ∧ pc = .core c (.record id) ∧
      store.idempotency = sys.store.idempotency ∧
      store.creations = sys.store.creations ++ [(c.identity, id)]) ∨
    (∃ c id, t.pc = .core c (.record id) ∧ pc = .core c (.charge id) ∧
      store = { sys.store with idempotency := sys.store.idempotency.set c.identity id }) := by
  unfold threadStep at h
  split at h
  next hp =>
    have books := startStep_books codec sys.store t.request
    rw [Option.some.inj h] at books
    exact .inl ⟨books, by simp [hp]⟩
  next hp =>
    split at h
    next => cases h
    next => cases h; exact .inl ⟨.refl _, by simp [hp]⟩
  next c next hp =>
    obtain ⟨same, hne⟩ | ⟨id, rfl, rfl, new⟩ | ⟨id, rfl, rfl, rfl⟩ := coreStep_books h
    · refine .inl ⟨same, ?_⟩
      intro c' id he
      rw [hp] at he
      cases he
      exact hne id rfl
    · exact .inr (.inl ⟨c, id, hp, rfl, new⟩)
    · exact .inr (.inr ⟨c, id, hp, rfl, rfl⟩)
  next => cases h

theorem coreStep_pc {s t : StoreState} {hex : String} {c : Checkout} {next : CorePc} {pc : Pc}
    (h : coreStep s hex c next = some (t, pc)) :
    (∃ result, pc = .finished result) ∨ ∃ after, pc = .core c after := by
  cases next with
  | lookup =>
    simp only [coreStep] at h
    split at h
    · cases h; exact .inr ⟨_, rfl⟩
    · split at h <;> cases h
      · exact .inl ⟨_, rfl⟩
      · exact .inr ⟨_, rfl⟩
  | replay orderId =>
    simp only [coreStep] at h
    split at h
    · cases h; exact .inl ⟨_, rfl⟩
    · split at h
      · cases h; exact .inl ⟨_, rfl⟩
      · split at h <;> cases h
        · exact .inl ⟨_, rfl⟩
        · exact .inr ⟨_, rfl⟩
  | replayPending orderId =>
    obtain ⟨order, _, h⟩ := Option.bind_eq_some_iff.mp h
    split at h <;> cases h
    · exact .inl ⟨_, rfl⟩
    · exact .inr ⟨_, rfl⟩
  | reserve =>
    simp only [coreStep] at h
    split at h <;> cases h
    · exact .inl ⟨_, rfl⟩
    · exact .inr ⟨_, rfl⟩
  | publish =>
    simp only [coreStep] at h
    split at h <;> cases h
    exact .inr ⟨_, rfl⟩
  | charge orderId =>
    obtain ⟨order, _, h⟩ := Option.bind_eq_some_iff.mp h
    split at h
    next => cases h; exact .inr ⟨_, rfl⟩
    next =>
      split at h <;> cases h
      · exact .inr ⟨_, rfl⟩
      · exact .inl ⟨_, rfl⟩
  | reply orderId =>
    obtain ⟨order, _, h⟩ := Option.bind_eq_some_iff.mp h
    cases h
    exact .inl ⟨_, rfl⟩
  | release orderId => cases h; exact .inl ⟨_, rfl⟩
  | _ => cases h; exact .inr ⟨_, rfl⟩

theorem startStep_outside (codec : WebhookCodec) (s : StoreState) (request : Request) (c : Checkout)
    (next : CorePc) : (startStep codec s request).2 ≠ .core c next := by
  cases request with
  | createOrder payload authorization idempotencyKey =>
    simp only [startStep, startCreate]
    split
    · simp
    · split <;> simp [fail]
  | _ => simp [startStep]

/-- A request enters `_create_order_core` only by taking a lock that no other request holds. -/
theorem threadStep_enters {codec : WebhookCodec} {sys : System} {hex : String} {t : Thread}
    {store : StoreState} {pc : Pc} {c : Checkout}
    (h : threadStep codec sys hex t = some (store, pc)) {next : CorePc} (hc : pc = .core c next) :
    (∃ before, t.pc = .core c before) ∨ (t.pc = .acquire c ∧ sys.lockHeld c.lock = false) := by
  unfold threadStep at h
  split at h
  next hp =>
    have hs := congrArg Prod.snd (Option.some.inj h)
    exact absurd (hs.trans hc) (startStep_outside codec sys.store t.request c next)
  next c' hp =>
    split at h
    next => cases h
    next hl =>
      cases h
      cases hc
      exact .inr ⟨hp, by simpa using hl⟩
  next c' before hp =>
    rcases coreStep_pc h with ⟨result, rfl⟩ | ⟨after, rfl⟩
    · cases hc
    · cases hc
      exact .inl ⟨before, hp⟩
  next => cases h

theorem lockHeld_core {sys : System} {i : Nat} {t : Thread} {c : Checkout} {next : CorePc}
    (ht : sys.threads[i]? = some t) (hp : t.pc = .core c next) : sys.lockHeld c.lock = true := by
  refine List.any_eq_true.mpr ⟨t, List.mem_of_getElem? ht, ?_⟩
  simp [Thread.checkout?, hp]

/-- Creates of one identity take turns, and the books of an identity change only in its turn. -/
structure Serialised (sys : System) : Prop where
  holds : ∀ (i : Nat) (t : Thread), sys.threads[i]? = some t → t.pc.Holds sys.store t.request
  exclusive : ∀ (i j : Nat) (ti tj : Thread) (ci cj : Checkout) (ni nj : CorePc), i ≠ j →
    sys.threads[i]? = some ti → sys.threads[j]? = some tj → ti.pc = .core ci ni →
    tj.pc = .core cj nj → ci.identity ≠ cj.identity
  once : (sys.store.creations.map Prod.fst).Nodup
  recorded : ∀ identity id, sys.store.idempotency.get? identity = some id →
    (identity, id) ∈ sys.store.creations
  pending : ∀ identity id, (identity, id) ∈ sys.store.creations →
    sys.store.idempotency.get? identity = some id ∨
    ∃ (i : Nat) (t : Thread) (c : Checkout), sys.threads[i]? = some t ∧
      t.pc = .core c (.record id) ∧ c.identity = identity

theorem serialised_start : Serialised ⟨resetState, []⟩ where
  holds := by intro i t ht; simp at ht
  exclusive := by intro i j ti tj ci cj ni nj _ ht; simp at ht
  once := by simp [resetState]
  recorded := by intro identity id h; simp [resetState] at h
  pending := by intro identity id h; simp [resetState] at h

theorem getElem?_append_start {threads : List Thread} {request : Request} {i : Nat} {t : Thread}
    (h : (threads ++ [⟨request, .start⟩])[i]? = some t) :
    threads[i]? = some t ∨ t.pc = .start := by
  by_cases hi : i < threads.length
  · rw [List.getElem?_append_left hi] at h
    exact .inl h
  · rw [List.getElem?_append_right (by omega)] at h
    have := List.mem_singleton.mp (List.mem_of_getElem? h)
    exact .inr (by rw [this])

theorem Serialised.arrive {sys : System} (h : Serialised sys) (request : Request) :
    Serialised { sys with threads := sys.threads ++ [⟨request, .start⟩] } where
  holds := by
    intro i t ht
    rcases getElem?_append_start ht with old | new
    · exact h.holds i t old
    · rw [new]
      trivial
  exclusive := by
    intro i j ti tj ci cj ni nj hij hti htj hi hj
    rcases getElem?_append_start hti with oldi | newi
    · rcases getElem?_append_start htj with oldj | newj
      · exact h.exclusive i j ti tj ci cj ni nj hij oldi oldj hi hj
      · rw [newj] at hj
        cases hj
    · rw [newi] at hi
      cases hi
  once := h.once
  recorded := h.recorded
  pending := by
    intro identity id hm
    rcases h.pending identity id hm with settled | ⟨i, t, c, ht, rest⟩
    · exact .inl settled
    · refine .inr ⟨i, t, c, ?_, rest⟩
      obtain ⟨hi, _⟩ := List.getElem?_eq_some_iff.mp ht
      exact (List.getElem?_append_left hi).trans ht

/-- The request whose turn it is finds its identity either untouched or recorded. -/
theorem Serialised.booksOf {sys : System} (h : Serialised sys) {i : Nat} {t : Thread}
    {c : Checkout} (ht : sys.threads[i]? = some t) (hp : t.pc = .core c .lookup) :
    BooksOf sys.store c.identity where
  recorded := h.recorded c.identity
  settled := by
    intro id hm
    rcases h.pending c.identity id hm with settled | ⟨j, tj, cj, htj, hpj, same⟩
    · exact settled
    · exfalso
      by_cases hij : i = j
      · subst hij
        cases Option.some.inj (ht.symm.trans htj)
        rw [hp] at hpj
        cases hpj
      · exact h.exclusive i j t tj c cj _ _ hij ht htj hp hpj same.symm

theorem Serialised.step_holds {sys : System} (h : Serialised sys) (wf : WellFormed sys.store)
    (pub : Published sys.store) {codec : WebhookCodec} {i : Nat} {hex : String} {t : Thread}
    {store : StoreState} {pc : Pc} (ht : sys.threads[i]? = some t)
    (hs : threadStep codec sys hex t = some (store, pc)) : pc.Holds store t.request := by
  have before := h.holds i t ht
  unfold threadStep at hs
  split at hs
  next hp =>
    have started := @startStep_holds codec _ wf t.request
    rw [Option.some.inj hs] at started
    exact started
  next c hp =>
    split at hs
    next => cases hs
    next =>
      cases hs
      rw [hp] at before
      exact ⟨before, trivial⟩
  next c next hp =>
    rw [hp] at before
    refine coreStep_holds wf pub before.1 before.2 ?_ hs
    rintro rfl
    exact h.booksOf ht hp
  next => cases hs

/-- A step of another request adds no creation for the identity a request is working on. -/
theorem Serialised.step_quiet {sys : System} (h : Serialised sys) {codec : WebhookCodec}
    {i j : Nat} {hex : String} {t tj : Thread} {store : StoreState} {pc : Pc} (hij : j ≠ i)
    (ht : sys.threads[i]? = some t) (htj : sys.threads[j]? = some tj)
    (hs : threadStep codec sys hex t = some (store, pc)) (c : Checkout) (next : CorePc)
    (hp : tj.pc = .core c next) (id : String) (hm : (c.identity, id) ∈ store.creations) :
    (c.identity, id) ∈ sys.store.creations := by
  obtain ⟨same, _⟩ | ⟨c', id', hp', _, _, new⟩ | ⟨c', id', _, _, rfl⟩ := threadStep_books hs
  · exact same.creations ▸ hm
  · rw [new] at hm
    rcases List.mem_append.mp hm with old | added
    · exact old
    · exfalso
      have same := congrArg Prod.fst (List.mem_singleton.mp added)
      exact h.exclusive j i tj t c c' _ _ hij htj ht hp hp' same
  · exact hm

theorem Serialised.enters {sys : System} (h : Serialised sys) {codec : WebhookCodec}
    {i j : Nat} {hex : String} {t tj : Thread} {store : StoreState} {pc : Pc} {c cj : Checkout}
    {next nj : CorePc} (hij : i ≠ j) (ht : sys.threads[i]? = some t)
    (htj : sys.threads[j]? = some tj) (hs : threadStep codec sys hex t = some (store, pc))
    (hp : pc = .core c next) (hpj : tj.pc = .core cj nj) : c.identity ≠ cj.identity := by
  obtain ⟨before, hb⟩ | ⟨ha, free⟩ := threadStep_enters hs hp
  · exact h.exclusive i j t tj c cj _ _ hij ht htj hb hpj
  · intro same
    have mine : c.Serves sys.store t.request := by
      have holds := h.holds i t ht
      rw [ha] at holds
      exact holds
    have other : cj.Serves sys.store tj.request := by
      have holds := h.holds j tj htj
      rw [hpj] at holds
      exact holds.1
    have locks := mine.lock
    rw [same, other.lock] at locks
    have held := lockHeld_core htj hpj
    rw [Option.some.inj locks, free] at held
    cases held

theorem getElem?_set_cases {α : Type} {xs : List α} {i j : Nat} {a b : α}
    (h : (xs.set i a)[j]? = some b) : (j = i ∧ b = a) ∨ (j ≠ i ∧ xs[j]? = some b) := by
  rw [List.getElem?_set] at h
  by_cases hj : i = j
  · rw [if_pos hj] at h
    split at h
    · exact .inl ⟨hj.symm, (Option.some.inj h).symm⟩
    · cases h
  · rw [if_neg hj] at h
    exact .inr ⟨Ne.symm hj, h⟩

theorem Serialised.unique {sys : System} (h : Serialised sys) {identity : Identity}
    {a b : String} (ha : (identity, a) ∈ sys.store.creations)
    (hb : (identity, b) ∈ sys.store.creations) : a = b :=
  congrArg Prod.snd (List.inj_on_of_nodup_map h.once ha hb rfl)

theorem Serialised.step_once {sys : System} (h : Serialised sys) {codec : WebhookCodec}
    {i : Nat} {hex : String} {t : Thread} {store : StoreState} {pc : Pc}
    (ht : sys.threads[i]? = some t) (hs : threadStep codec sys hex t = some (store, pc)) :
    (store.creations.map Prod.fst).Nodup := by
  obtain ⟨same, _⟩ | ⟨c, id, hp, _, _, new⟩ | ⟨c, id, _, _, rfl⟩ := threadStep_books hs
  · rw [same.creations]
    exact h.once
  · have holds := h.holds i t ht
    rw [hp] at holds
    have fresh : c.identity ∉ sys.store.creations.map Prod.fst := by
      intro hm
      obtain ⟨⟨identity, id'⟩, he, rfl⟩ := List.mem_map.mp hm
      exact holds.2 id' he
    rw [new, List.map_append]
    exact List.nodup_append.mpr ⟨h.once, List.nodup_singleton _, by
      rintro a ha b hb rfl
      have hc : a = c.identity := List.mem_singleton.mp hb
      exact fresh (hc ▸ ha)⟩
  · exact h.once

theorem Serialised.step_recorded {sys : System} (h : Serialised sys) {codec : WebhookCodec}
    {i : Nat} {hex : String} {t : Thread} {store : StoreState} {pc : Pc}
    (ht : sys.threads[i]? = some t) (hs : threadStep codec sys hex t = some (store, pc))
    (identity : Identity) (id : String) (hr : store.idempotency.get? identity = some id) :
    (identity, id) ∈ store.creations := by
  obtain ⟨same, _⟩ | ⟨c, id', _, _, kept, new⟩ | ⟨c, id', hp, _, rfl⟩ := threadStep_books hs
  · rw [same.creations]
    exact h.recorded identity id (same.idempotency ▸ hr)
  · rw [new]
    exact List.mem_append_left _ (h.recorded identity id (kept ▸ hr))
  · have holds := h.holds i t ht
    rw [hp] at holds
    rw [Dict.get?_set] at hr
    split at hr
    next hi =>
      cases Option.some.inj hr
      rw [hi]
      exact holds.2
    next => exact h.recorded identity id hr

theorem Serialised.step_pending {sys : System} (h : Serialised sys) {codec : WebhookCodec}
    {i : Nat} {hex : String} {t : Thread} {store : StoreState} {pc : Pc}
    (ht : sys.threads[i]? = some t) (hs : threadStep codec sys hex t = some (store, pc))
    (identity : Identity) (id : String) (hm : (identity, id) ∈ store.creations) :
    store.idempotency.get? identity = some id ∨
    ∃ (j : Nat) (tj : Thread) (c : Checkout),
      (sys.threads.set i { t with pc := pc })[j]? = some tj ∧ tj.pc = .core c (.record id) ∧
      c.identity = identity := by
  have others : ∀ (j : Nat) (tj : Thread), j ≠ i → sys.threads[j]? = some tj →
      (sys.threads.set i { t with pc := pc })[j]? = some tj := by
    intro j tj hji htj
    rw [List.getElem?_set_ne (Ne.symm hji)]
    exact htj
  have mine : (sys.threads.set i { t with pc := pc })[i]? = some { t with pc := pc } := by
    obtain ⟨hi, _⟩ := List.getElem?_eq_some_iff.mp ht
    simp [hi]
  obtain ⟨same, hne⟩ | ⟨c, id', hp, rfl, kept, new⟩ | ⟨c, id', hp, _, rfl⟩ := threadStep_books hs
  · rw [same.creations] at hm
    rw [same.idempotency]
    rcases h.pending identity id hm with settled | ⟨j, tj, cj, htj, hpj, hc⟩
    · exact .inl settled
    · refine .inr ⟨j, tj, cj, others j tj ?_ htj, hpj, hc⟩
      rintro rfl
      cases Option.some.inj (ht.symm.trans htj)
      exact hne cj id hpj
  · rw [new] at hm
    rw [kept]
    rcases List.mem_append.mp hm with old | added
    · rcases h.pending identity id old with settled | ⟨j, tj, cj, htj, hpj, hc⟩
      · exact .inl settled
      · refine .inr ⟨j, tj, cj, others j tj ?_ htj, hpj, hc⟩
        rintro rfl
        cases Option.some.inj (ht.symm.trans htj)
        rw [hp] at hpj
        cases hpj
    · cases List.mem_singleton.mp added
      exact .inr ⟨i, _, c, mine, rfl, rfl⟩
  · have holds := h.holds i t ht
    rw [hp] at holds
    rw [Dict.get?_set]
    by_cases hi : identity = c.identity
    · rw [if_pos hi]
      rw [hi] at hm
      exact .inl (congrArg some (h.unique holds.2 hm))
    · rw [if_neg hi]
      rcases h.pending identity id hm with settled | ⟨j, tj, cj, htj, hpj, hc⟩
      · exact .inl settled
      · refine .inr ⟨j, tj, cj, others j tj ?_ htj, hpj, hc⟩
        rintro rfl
        cases Option.some.inj (ht.symm.trans htj)
        rw [hp] at hpj
        cases hpj
        exact hi hc.symm

theorem Serialised.advance {sys : System} (h : Serialised sys) (wf : WellFormed sys.store)
    (pub : Published sys.store) {codec : WebhookCodec} {i : Nat} {hex : String} {t : Thread}
    {store : StoreState} {pc : Pc} (ht : sys.threads[i]? = some t)
    (hs : threadStep codec sys hex t = some (store, pc)) :
    Serialised ⟨store, sys.threads.set i { t with pc := pc }⟩ where
  holds := by
    intro j tj htj
    obtain ⟨rfl, rfl⟩ | ⟨hji, old⟩ := getElem?_set_cases htj
    · have stepped : pc.Holds store t.request := h.step_holds wf pub ht hs
      exact stepped
    · exact (h.holds j tj old).extends (threadStep_touches hs).extends
        (h.step_quiet hji ht old hs)
  exclusive := by
    intro j k tj tk cj ck nj nk hjk htj htk hj hk
    obtain ⟨rfl, rfl⟩ | ⟨hji, oldj⟩ := getElem?_set_cases htj
    · obtain ⟨rfl, _⟩ | ⟨_, oldk⟩ := getElem?_set_cases htk
      · exact absurd rfl hjk
      · exact h.enters hjk ht oldk hs hj hk
    · obtain ⟨rfl, rfl⟩ | ⟨_, oldk⟩ := getElem?_set_cases htk
      · exact (h.enters (Ne.symm hji) ht oldj hs hk hj).symm
      · exact h.exclusive j k tj tk cj ck nj nk hjk oldj oldk hj hk
  once := h.step_once ht hs
  recorded := h.step_recorded ht hs
  pending := h.step_pending ht hs

theorem reachable_serialised {codec : WebhookCodec} {sys : System}
    (h : (machine codec).Reachable sys) : Serialised sys := by
  refine h.invariant Serialised ?_ ?_
  · rintro _ rfl
    exact serialised_start
  · intro sys a next hr hi _ hs
    obtain ⟨request, rfl, rfl⟩ | ⟨i, hex, t, store, pc, rfl, ht, hstep, rfl⟩ := systemStep_cases hs
    · exact hi.arrive request
    · exact hi.advance (reachable_wellFormed hr) (reachable_published hr) ht hstep

/-- What an identity, an order and the provider ledger owe each other. -/
structure SingleCheckout (sys : System) : Prop where
  one_order : (sys.store.creations.map Prod.fst).Nodup
  every_order : sys.store.creations.map Prod.snd = sys.store.orders.keys
  injective : ∀ a b id, sys.store.idempotency.get? a = some id →
    sys.store.idempotency.get? b = some id → a = b
  recorded : ∀ identity id, sys.store.idempotency.get? identity = some id →
    (identity, id) ∈ sys.store.creations ∧ sys.store.ownedBy id identity.1
  one_charge : ∀ id, sys.store.payment.charges.keys.count ("checkout:" ++ id) ≤ 1
  charged : ∀ key charge, sys.store.payment.charges.get? key = some charge →
    ∃! id, key = "checkout:" ++ id ∧
      ∃ o, sys.store.orders.get? id = some o ∧ charge.amount = o.total
  totals : ∀ id o, sys.store.orders.get? id = some o → o.total = catalogPrice * o.quantity
  charge_ids : (sys.store.payment.charges.values.map Charge.id).Nodup
  bodies : ∀ t ∈ sys.threads, ∀ body, t.pc = .finished (.ok (.order body)) →
    ∃ user, t.request.user = .ok user ∧
      (user ≠ "admin" → body.owner = user ∧ sys.store.ownedBy body.id user)

theorem single_checkout (codec : WebhookCodec) {sys : System}
    (h : (machine codec).Reachable sys) : SingleCheckout sys := by
  have wf := reachable_wellFormed h
  have pub := reachable_published h
  have paid := reachable_paymentsSound h
  have serial := reachable_serialised h
  refine ⟨serial.once, pub.orders, ?_, ?_, ?_, ?_, ?_, paid.chargeIds_nodup, ?_⟩
  · intro a b id ha hb
    have hn : (sys.store.creations.map Prod.snd).Nodup := pub.orders ▸ sys.store.orders.nodup
    have same := List.inj_on_of_nodup_map hn (serial.recorded a id ha) (serial.recorded b id hb) rfl
    exact congrArg Prod.fst same
  · intro identity id hr
    have made := serial.recorded identity id hr
    exact ⟨made, pub.owner identity id made⟩
  · intro id
    exact List.nodup_iff_count_le_one.mp sys.store.payment.charges.nodup _
  · intro key charge hk
    obtain ⟨id, o, ho, rfl, ha⟩ := paid.charged key charge hk
    refine ⟨id, ⟨rfl, o, ho, ha⟩, ?_⟩
    intro other hother
    exact (paymentKey_injective hother.1).symm
  · intro id o ho
    exact (wf.terms id o ho).2.2.1
  · intro t ht body hp
    obtain ⟨i, hi⟩ := List.mem_iff_getElem?.mp ht
    have holds := serial.holds i t hi
    rw [hp] at holds
    exact holds

def slowOrder : OrderRequest :=
  ⟨1, 1, some 1, "timeout-once", by decide, by decide⟩

/-- A create that times out after it was charged, and the retry that finds its charge. -/
def retriedCheckout : List Action :=
  .arrive (.createOrder slowOrder (some "Bearer buyer-b") (some "key")) ::
    (List.replicate 7 (.advance 0 "0a1b2c3d4e") ++
      .arrive (.createOrder slowOrder (some "Bearer buyer-b") (some "key")) ::
        List.replicate 9 (.advance 1 "5f6a7b8c9d"))

theorem single_checkout_retried : ∃ sys,
    (machine ⟨fun _ => "", fun _ => none⟩).run ⟨resetState, []⟩ retriedCheckout = some sys ∧
      SingleCheckout sys := by
  obtain ⟨sys, hr⟩ := Option.isSome_iff_exists.mp (show ((machine ⟨fun _ => "", fun _ => none⟩).run
    ⟨resetState, []⟩ retriedCheckout).isSome = true by decide)
  exact ⟨sys, hr, single_checkout _ (Transition.Machine.Reachable.run ⟨_, rfl, .refl⟩ hr)⟩

end EdgecaseForge.FlashCart
