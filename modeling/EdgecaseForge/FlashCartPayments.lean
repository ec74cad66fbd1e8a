import EdgecaseForge.FlashCartInventory
import Mathlib.Data.List.Range

namespace EdgecaseForge.FlashCart

theorem chargeId_injective {i j : Nat} (h : "ch_" ++ toString i = "ch_" ++ toString j) : i = j := by
  have hd : toString i = toString j := by simpa using h
  have hl : Nat.toDigits 10 i = Nat.toDigits 10 j := by
    simpa [Nat.repr] using congrArg String.toList hd
  have hn := congrArg (Nat.ofDigitChars 10 · 0) hl
  simpa using hn

theorem paymentKey_injective {a b : String} (h : "checkout:" ++ a = "checkout:" ++ b) : a = b := by
  simpa using h

/-- The charge ids that have been given out, in order. -/
def PaymentStub.chargeIds (stub : PaymentStub) : List String :=
  stub.charges.values.map Charge.id

/-- What a call of the provider can do to its charges. -/
theorem charge_charges (stub : PaymentStub) (key : String) (amount : Int) (token : String) :
    (stub.charge key amount token).2.charges = stub.charges ∨
      stub.charges.get? key = none ∧ (stub.charge key amount token).2.charges =
        stub.charges.set key ⟨"ch_" ++ toString (stub.charges.size + 1), amount⟩ := by
  unfold PaymentStub.charge
  split
  next => exact .inl rfl
  next hn =>
    split
    next => exact .inl rfl
    next =>
      dsimp only
      split <;> exact .inr ⟨hn, rfl⟩

/-- An order with its terms stays where it is. -/
theorem Touch.keeps_terms {s t : StoreState} (ht : Touch s t) {id : String} {o : Order}
    (ho : s.orders.get? id = some o) :
    ∃ o', t.orders.get? id = some o' ∧ o'.toOrderTerms = o.toOrderTerms := by
  cases ht with
  | publish c hne hn =>
    refine ⟨o, ?_, rfl⟩
    rw [Dict.get?_set_ne, ho]
    rintro rfl
    simp [hn] at ho
  | update orderId hf =>
    rw [get?_updateOrder, ho]
    split
    · exact ⟨_, rfl, (hf o).1⟩
    · exact ⟨o, rfl, rfl⟩
  | release orderId =>
    rw [get?_releaseInventoryOnce, ho]
    split
    · exact ⟨_, rfl, rfl⟩
    · exact ⟨o, rfl, rfl⟩
  | _ => exact ⟨o, ho, rfl⟩

/-- The provider ledger holds charges of existing orders only, at their totals. -/
structure PaymentsSound (s : StoreState) : Prop where
  charged : ∀ key charge, s.payment.charges.get? key = some charge → ∃ id o,
    s.orders.get? id = some o ∧ key = "checkout:" ++ id ∧ charge.amount = o.total
  numbered : s.payment.chargeIds =
    (List.range s.payment.charges.size).map fun i => "ch_" ++ toString (i + 1)

theorem paymentsSound_resetState : PaymentsSound resetState where
  charged := by intro key charge h; simp [resetState] at h
  numbered := rfl

/-- The orders may change as long as they keep their terms. -/
theorem PaymentsSound.of_terms {s t : StoreState} (h : PaymentsSound s)
    (hp : t.payment = s.payment)
    (terms : ∀ id o, s.orders.get? id = some o →
      ∃ o', t.orders.get? id = some o' ∧ o'.toOrderTerms = o.toOrderTerms) : PaymentsSound t := by
  refine ⟨?_, by rw [hp]; exact h.numbered⟩
  intro key charge hk
  rw [hp] at hk
  obtain ⟨id, o, ho, rfl, ha⟩ := h.charged key charge hk
  obtain ⟨o', ho', same⟩ := terms id o ho
  exact ⟨id, o', ho', rfl, by rw [same]; exact ha⟩

theorem payment_updateOrder (s : StoreState) (orderId : String) (f : Order → Order) :
    (updateOrder s orderId f).payment = s.payment := by
  rw [updateOrder_frame]

theorem payment_releaseInventoryOnce (s : StoreState) (orderId : String) :
    (releaseInventoryOnce s orderId).payment = s.payment := by
  unfold releaseInventoryOnce
  split
  · rfl
  · split <;> rfl

theorem Touch.paymentsSound {s t : StoreState} (ht : Touch s t) (wf : WellFormed s)
    (h : PaymentsSound s) : PaymentsSound t := by
  have terms := fun id o => @Touch.keeps_terms s t ht id o
  cases ht with
  | @charge orderId order ho =>
    obtain ⟨_, hkey, _, _⟩ := wf.terms orderId order ho
    rcases charge_charges s.payment order.paymentKey order.total order.paymentToken with
      same | ⟨hn, new⟩
    · refine ⟨fun key charge hk => h.charged key charge (same ▸ hk), ?_⟩
      simp only [PaymentStub.chargeIds, same]
      exact h.numbered
    · refine ⟨?_, ?_⟩
      · intro key charge hk
        simp only [new, Dict.get?_set] at hk
        split at hk
        next hkey' =>
          cases Option.some.inj hk
          exact ⟨orderId, order, ho, hkey'.trans hkey, rfl⟩
        next => exact h.charged key charge hk
      · have before := h.numbered
        simp only [PaymentStub.chargeIds, Dict.values] at before ⊢
        rw [new, Dict.size_set_new hn, Dict.entries_set_new hn]
        simp [List.range_succ, before]
  | update orderId _ => exact h.of_terms (payment_updateOrder s orderId _) terms
  | release orderId => exact h.of_terms (payment_releaseInventoryOnce s orderId) terms
  | _ => exact h.of_terms rfl terms

theorem reachable_paymentsSound {codec : WebhookCodec} {sys : System}
    (h : (machine codec).Reachable sys) : PaymentsSound sys.store := by
  have both := reachable_store_invariant (fun s => WellFormed s ∧ PaymentsSound s)
    ⟨wellFormed_resetState, paymentsSound_resetState⟩
    (fun _ _ ht hi => ⟨ht.wellFormed hi.1, ht.paymentsSound hi.1 hi.2⟩) h
  exact both.2

theorem PaymentsSound.chargeIds_nodup {s : StoreState} (h : PaymentsSound s) :
    s.payment.chargeIds.Nodup := by
  rw [h.numbered]
  refine List.Nodup.map_on ?_ List.nodup_range
  intro i _ j _ hij
  have := chargeId_injective hij
  omega

end EdgecaseForge.FlashCart
