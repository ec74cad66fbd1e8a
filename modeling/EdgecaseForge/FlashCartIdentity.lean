import EdgecaseForge.FlashCartPayments

namespace EdgecaseForge.FlashCart

def StoreState.ownedBy (s : StoreState) (id user : String) : Prop :=
  ∃ o, s.orders.get? id = some o ∧ o.owner = user

/-- The history of creations and the orders agree. -/
structure Published (s : StoreState) : Prop where
  orders : s.creations.map Prod.snd = s.orders.keys
  owner : ∀ identity id, (identity, id) ∈ s.creations → s.ownedBy id identity.1
  named : ∀ identity id, (identity, id) ∈ s.creations → id ≠ ""

theorem keys_updateOrder (s : StoreState) (orderId : String) (f : Order → Order) :
    (updateOrder s orderId f).orders.keys = s.orders.keys := by
  unfold updateOrder
  split
  next => rfl
  next ho => exact Dict.keys_set_old ho

theorem keys_releaseInventoryOnce (s : StoreState) (orderId : String) :
    (releaseInventoryOnce s orderId).orders.keys = s.orders.keys := by
  unfold releaseInventoryOnce
  split
  next => rfl
  next ho =>
    split
    · rfl
    · exact Dict.keys_set_old ho

/-- The tables that decide who an order belongs to, apart from the orders themselves. -/
structure SameBooks (s t : StoreState) : Prop where
  creations : t.creations = s.creations
  idempotency : t.idempotency = s.idempotency

theorem sameBooks_updateOrder (s : StoreState) (orderId : String) (f : Order → Order) :
    SameBooks s (updateOrder s orderId f) := by
  rw [updateOrder_frame]
  exact ⟨rfl, rfl⟩

theorem sameBooks_releaseInventoryOnce (s : StoreState) (orderId : String) :
    SameBooks s (releaseInventoryOnce s orderId) := by
  unfold releaseInventoryOnce
  split
  · exact ⟨rfl, rfl⟩
  · split <;> exact ⟨rfl, rfl⟩

theorem Touch.keeps_owner {s t : StoreState} (ht : Touch s t) {id user : String}
    (h : s.ownedBy id user) : t.ownedBy id user := by
  obtain ⟨o, ho, howner⟩ := h
  obtain ⟨o', ho', same⟩ := ht.keeps_terms ho
  exact ⟨o', ho', by rw [same]; exact howner⟩

theorem Published.of_sameBooks {s t : StoreState} (h : Published s) (hb : SameBooks s t)
    (keys : t.orders.keys = s.orders.keys)
    (owner : ∀ id user, s.ownedBy id user → t.ownedBy id user) : Published t where
  orders := by rw [hb.creations, keys, h.orders]
  owner := fun identity id hm => owner id _ (h.owner identity id (hb.creations ▸ hm))
  named := fun identity id hm => h.named identity id (hb.creations ▸ hm)

theorem Touch.published {s t : StoreState} (ht : Touch s t) (h : Published s) : Published t := by
  have owner := fun id user => @Touch.keeps_owner s t ht id user
  cases ht with
  | @publish c orderId hne hn =>
    refine ⟨?_, ?_, ?_⟩
    · simp only [Dict.keys, List.map_append, Dict.entries_set_new hn]
      rw [h.orders]
      rfl
    · intro identity id hm
      rcases List.mem_append.mp hm with hm | hm
      · exact owner id _ (h.owner identity id hm)
      · cases List.mem_singleton.mp hm
        exact ⟨_, Dict.get?_set_self _ _ _, rfl⟩
    · intro identity id hm
      rcases List.mem_append.mp hm with hm | hm
      · exact h.named identity id hm
      · cases List.mem_singleton.mp hm
        exact hne
  | record identity orderId =>
    exact ⟨h.orders, h.owner, h.named⟩
  | update orderId _ =>
    exact h.of_sameBooks (sameBooks_updateOrder s orderId _) (keys_updateOrder s orderId _) owner
  | release orderId =>
    exact h.of_sameBooks (sameBooks_releaseInventoryOnce s orderId)
      (keys_releaseInventoryOnce s orderId) owner
  | _ => exact h.of_sameBooks ⟨rfl, rfl⟩ rfl owner

theorem published_resetState : Published resetState where
  orders := rfl
  owner := by intro identity id h; simp [resetState] at h
  named := by intro identity id h; simp [resetState] at h

theorem reachable_published {codec : WebhookCodec} {sys : System}
    (h : (machine codec).Reachable sys) : Published sys.store :=
  reachable_store_invariant Published published_resetState (fun _ _ => Touch.published) h

theorem get?_identityLock (s : StoreState) (identity : Identity) :
    (identityLock s identity).2.idempotencyLocks.get? identity =
      some (identityLock s identity).1 := by
  unfold identityLock
  split
  next lock h => exact h
  next => exact Dict.get?_set_self _ _ _

/-- What a later store still has of an earlier one. -/
structure Extends (s t : StoreState) : Prop where
  owner : ∀ id user, s.ownedBy id user → t.ownedBy id user
  locks : ∀ identity lock, s.idempotencyLocks.get? identity = some lock →
    t.idempotencyLocks.get? identity = some lock
  creations : ∀ e, e ∈ s.creations → e ∈ t.creations

theorem Extends.refl (s : StoreState) : Extends s s :=
  ⟨fun _ _ h => h, fun _ _ h => h, fun _ h => h⟩

theorem Extends.trans {s t u : StoreState} (hst : Extends s t) (htu : Extends t u) : Extends s u :=
  ⟨fun id user h => htu.owner id user (hst.owner id user h),
    fun identity lock h => htu.locks identity lock (hst.locks identity lock h),
    fun e h => htu.creations e (hst.creations e h)⟩

theorem locks_updateOrder (s : StoreState) (orderId : String) (f : Order → Order) :
    (updateOrder s orderId f).idempotencyLocks = s.idempotencyLocks := by
  rw [updateOrder_frame]

theorem locks_releaseInventoryOnce (s : StoreState) (orderId : String) :
    (releaseInventoryOnce s orderId).idempotencyLocks = s.idempotencyLocks := by
  unfold releaseInventoryOnce
  split
  · rfl
  · split <;> rfl

theorem Touch.extends {s t : StoreState} (ht : Touch s t) : Extends s t := by
  have owner := fun id user => @Touch.keeps_owner s t ht id user
  cases ht with
  | @lock identity hn =>
    refine ⟨owner, ?_, fun _ h => h⟩
    intro other lock hl
    refine (Dict.get?_set_ne ?_).trans hl
    rintro rfl
    simp [hn] at hl
  | publish c hne hn => exact ⟨owner, fun _ _ h => h, fun _ h => List.mem_append_left _ h⟩
  | update orderId _ =>
    refine ⟨owner, ?_, ?_⟩
    · rw [locks_updateOrder]
      exact fun _ _ h => h
    · rw [(sameBooks_updateOrder s orderId _).creations]
      exact fun _ h => h
  | release orderId =>
    refine ⟨owner, ?_, ?_⟩
    · rw [locks_releaseInventoryOnce]
      exact fun _ _ h => h
    · rw [(sameBooks_releaseInventoryOnce s orderId).creations]
      exact fun _ h => h
  | _ => exact ⟨owner, fun _ _ h => h, fun _ h => h⟩

theorem Touches.extends {s t : StoreState} (h : Touches s t) : Extends s t :=
  h.keeps (Extends s) (fun _ _ ht hs => hs.trans ht.extends) (.refl s)

end EdgecaseForge.FlashCart
