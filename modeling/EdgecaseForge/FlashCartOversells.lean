import EdgecaseForge.FlashCartPayments
import EdgecaseForge.FlashCartRaces

namespace EdgecaseForge.FlashCart

/-- A checkout of all that is in stock. -/
def bulkOrder : OrderRequest :=
  ⟨1, 5, none, "approved", by decide, by decide⟩

def bulkKey (i : Nat) : String :=
  "key-" ++ toString i

def bulkRequest (i : Nat) : Request :=
  .createOrder bulkOrder (some "Bearer buyer-a") (some (bulkKey i))

def bulkCheckout (i : Nat) : Checkout :=
  ⟨"buyer-a", bulkKey i, bulkOrder, i⟩

/-- The locks of the first `n` checkouts. -/
def bulkLocks : Nat → Dict Identity Nat
  | 0 => .empty
  | n + 1 => (bulkLocks n).set ("buyer-a", bulkKey n) n

/-- `n` checkouts of the whole stock, each at its own place. -/
def contended (n : Nat) (stock : Int) (pc : Nat → RacePc) : RaceSystem :=
  ⟨{ resetState with stock := stock, idempotencyLocks := bulkLocks n },
    (List.range n).map fun i => ⟨bulkRequest i, pc i⟩⟩

theorem bulkKey_injective {i j : Nat} (h : bulkKey i = bulkKey j) : i = j := by
  have digits : toString i = toString j := by simpa [bulkKey] using h
  exact chargeId_injective (congrArg ("ch_" ++ ·) digits)

theorem get?_bulkLocks (n : Nat) : (bulkLocks n).get? ("buyer-a", bulkKey n) = none := by
  have later : ∀ k ≤ n, (bulkLocks k).get? ("buyer-a", bulkKey n) = none := by
    intro k hk
    induction k with
    | zero => rfl
    | succ k ih =>
      refine (Dict.get?_set_ne fun same => ?_).trans (ih (by omega))
      have := bulkKey_injective (Prod.mk.inj same).2
      omega
  exact later n le_rfl

theorem size_bulkLocks (n : Nat) : (bulkLocks n).size = n := by
  induction n with
  | zero => rfl
  | succ n ih => rw [bulkLocks, Dict.size_set_new (get?_bulkLocks n), ih]

variable {codec : WebhookCodec} {n : Nat} {stock : Int} {pc : Nat → RacePc}

/-- A step of the request that came last. -/
theorem last_reachable {s t : StoreState} {racers : List Racer} {request : Request} {before after : RacePc}
    (h : (raceMachine codec).Reachable ⟨s, racers ++ [⟨request, before⟩]⟩)
    (hs : raceStep codec ⟨s, racers ++ [⟨request, before⟩]⟩ "" ⟨request, before⟩ = some (t, after)) :
    (raceMachine codec).Reachable ⟨t, racers ++ [⟨request, after⟩]⟩ := by
  have last : (racers ++ [⟨request, before⟩])[racers.length]? = some ⟨request, before⟩ := by simp
  refine h.next (a := .advance racers.length "") trivial ?_
  exact Option.bind_eq_some_iff.mpr ⟨_, last, Option.bind_eq_some_iff.mpr ⟨_, hs, by simp⟩⟩

theorem raceStep_source {sys : RaceSystem} {request : Request} {before after : Pc} {t : StoreState}
    (other : ∀ c, before ≠ .core c .reserve)
    (hs : threadStep codec sys.settled "" ⟨request, before⟩ = some (t, after)) :
    raceStep codec sys "" ⟨request, .source before⟩ = some (t, .source after) := by
  unfold raceStep
  split
  next c hp => exact absurd (RacePc.source.inj hp) (other c)
  next pc _ hp =>
    cases RacePc.source.inj hp
    rw [hs]
    rfl
  next hp => cases hp
  next hp => cases hp

/-- The first `n` checkouts, each with its reservation compared. -/
def comparedRacers (n : Nat) : List Racer :=
  (List.range n).map fun i => ⟨bulkRequest i, .take (bulkCheckout i)⟩

theorem bulkLock_free (s : StoreState) (n : Nat) :
    System.lockHeld (RaceSystem.settled ⟨s, comparedRacers n ++
      [⟨bulkRequest n, .source (.acquire (bulkCheckout n))⟩]⟩) n = false := by
  refine List.any_eq_false.mpr fun t ht => ?_
  obtain ⟨r, hr, rfl⟩ := List.mem_map.mp ht
  obtain old | new := List.mem_append.mp hr
  · obtain ⟨i, hi, rfl⟩ := List.mem_map.mp old
    have := List.mem_range.mp hi
    simp only [Racer.settled, RacePc.settled, Thread.checkout?, bulkCheckout, Option.any_some, beq_iff_eq]
    omega
  · rw [List.mem_singleton.mp new]
    simp [Racer.settled, RacePc.settled, Thread.checkout?]

theorem startCreate_bulk (n : Nat) :
    startCreate { resetState with idempotencyLocks := bulkLocks n } bulkOrder (some "Bearer buyer-a")
        (some (bulkKey n)) =
      ({ resetState with idempotencyLocks := bulkLocks (n + 1) }, .acquire (bulkCheckout n)) := by
  have user : userFromHeader (some "Bearer buyer-a") = .ok "buyer-a" := by decide
  have named : (some (bulkKey n)).filter (· ≠ "") = some (bulkKey n) := by
    simp [bulkKey]
  simp only [startCreate, user, named, identityLock, get?_bulkLocks, size_bulkLocks]
  rfl

/-- Any number of checkouts find the whole stock there. -/
theorem compared_reachable (codec : WebhookCodec) (n : Nat) :
    (raceMachine codec).Reachable
      ⟨{ resetState with idempotencyLocks := bulkLocks n }, comparedRacers n⟩ := by
  induction n with
  | zero => exact ⟨_, rfl, .refl⟩
  | succ n ih =>
    have arrived : (raceMachine codec).Reachable ⟨{ resetState with idempotencyLocks := bulkLocks n },
        comparedRacers n ++ [⟨bulkRequest n, .source .start⟩]⟩ :=
      ih.next (a := .arrive (bulkRequest n)) trivial rfl
    have fetched : (raceMachine codec).Reachable ⟨{ resetState with idempotencyLocks := bulkLocks (n + 1) },
        comparedRacers n ++ [⟨bulkRequest n, .source (.acquire (bulkCheckout n))⟩]⟩ :=
      last_reachable arrived (raceStep_source (by simp) (congrArg some (startCreate_bulk n)))
    have entered : (raceMachine codec).Reachable ⟨{ resetState with idempotencyLocks := bulkLocks (n + 1) },
        comparedRacers n ++ [⟨bulkRequest n, .source (.core (bulkCheckout n) .lookup)⟩]⟩ := by
      refine last_reachable fetched (raceStep_source (by simp) ?_)
      exact if_neg (Bool.not_eq_true _ ▸ bulkLock_free _ n)
    have looked : (raceMachine codec).Reachable ⟨{ resetState with idempotencyLocks := bulkLocks (n + 1) },
        comparedRacers n ++ [⟨bulkRequest n, .source (.core (bulkCheckout n) .reserve)⟩]⟩ :=
      last_reachable entered rfl
    have compared : (raceMachine codec).Reachable ⟨{ resetState with idempotencyLocks := bulkLocks (n + 1) },
        comparedRacers n ++ [⟨bulkRequest n, .take (bulkCheckout n)⟩]⟩ :=
      last_reachable looked rfl
    have more : comparedRacers (n + 1) =
        comparedRacers n ++ [⟨bulkRequest n, .take (bulkCheckout n)⟩] := by
      simp [comparedRacers, List.range_succ]
    rw [more]
    exact compared

/-- A step of one of the checkouts, which the others do not see. -/
theorem contended_next {i : Nat} (hi : i < n) {after : RacePc} {left : Int}
    (h : (raceMachine codec).Reachable (contended n stock pc))
    (hs : ∀ sys : RaceSystem, sys.store = { resetState with stock := stock, idempotencyLocks := bulkLocks n } →
      raceStep codec sys "" ⟨bulkRequest i, pc i⟩ =
        some ({ resetState with stock := left, idempotencyLocks := bulkLocks n }, after)) :
    (raceMachine codec).Reachable (contended n left (Function.update pc i after)) := by
  have here : (contended n stock pc).racers[i]? = some ⟨bulkRequest i, pc i⟩ := by
    simp [contended, hi]
  refine h.next (a := .advance i "") trivial ?_
  refine Option.bind_eq_some_iff.mpr ⟨_, here, Option.bind_eq_some_iff.mpr ⟨_, hs _ rfl, ?_⟩⟩
  refine congrArg some (congrArg (RaceSystem.mk _) (List.ext_getElem? fun j => ?_))
  simp only [contended, List.getElem?_set, List.getElem?_map, List.length_map, List.length_range]
  by_cases same : i = j
  · subst same
    simp [hi]
  · by_cases hj : j < n
    · simp [same, hj, Function.update_of_ne (Ne.symm same)]
    · simp [same, hj]

theorem contended_congr {pc' : Nat → RacePc} (same : ∀ i < n, pc i = pc' i) :
    contended n stock pc = contended n stock pc' := by
  refine congrArg (RaceSystem.mk _) (List.map_congr_left fun i hi => ?_)
  rw [same i (List.mem_range.mp hi)]

/-- A reservation that is written, and an order that comes next. -/
def reserved (i : Nat) : RacePc :=
  .source (.core (bulkCheckout i) .publish)

theorem contended_take {i : Nat} (hi : i < n) (hp : pc i = .take (bulkCheckout i))
    (h : (raceMachine codec).Reachable (contended n stock pc)) :
    (raceMachine codec).Reachable (contended n stock (Function.update pc i (.put (bulkCheckout i) stock))) := by
  refine contended_next hi h fun sys hs => ?_
  rw [hp, raceStep, hs]

theorem contended_put {i : Nat} (hi : i < n) {seen : Int} (hp : pc i = .put (bulkCheckout i) seen)
    (h : (raceMachine codec).Reachable (contended n stock pc)) :
    (raceMachine codec).Reachable (contended n (seen - 5) (Function.update pc i (reserved i))) := by
  refine contended_next hi h fun sys hs => ?_
  rw [hp, raceStep, hs]
  rfl

/-- The first `k` checkouts write their reservations one after the other. -/
theorem written_reachable (codec : WebhookCodec) {k : Nat} (hk : k ≤ n) :
    (raceMachine codec).Reachable (contended n (5 - 5 * k)
      fun i => if i < k then reserved i else .take (bulkCheckout i)) := by
  induction k with
  | zero => exact compared_reachable codec n
  | succ k ih =>
    have taken := contended_take (i := k) (by omega) (if_neg (lt_irrefl k)) (ih (by omega))
    have put := contended_put (i := k) (by omega) (Function.update_self ..) taken
    have left : (5 - 5 * (k : Int)) - 5 = 5 - 5 * ((k + 1 : Nat) : Int) := by
      push_cast
      omega
    rw [left] at put
    refine (contended_congr fun i _ => ?_) ▸ put
    by_cases same : i = k
    · subst same
      simp
    · have lower : i < k ↔ i < k + 1 := by omega
      simp only [Function.update_of_ne same, lower]

/-- The others load the stock, all of them before one of them writes it. -/
theorem loaded_reachable (codec : WebhookCodec) {m k : Nat} (hm : m ≤ k) (hk : k ≤ n) :
    (raceMachine codec).Reachable (contended n (5 - 5 * m) fun i => if i < m then reserved i
      else if i < k then .put (bulkCheckout i) (5 - 5 * m) else .take (bulkCheckout i)) := by
  induction k, hm using Nat.le_induction with
  | base =>
    refine (contended_congr fun i _ => ?_) ▸ written_reachable codec hk
    by_cases low : i < m <;> simp [low]
  | succ k hm ih =>
    have taken := contended_take (i := k) (by omega) (by simp [Nat.not_lt.mpr hm]) (ih (by omega))
    refine (contended_congr fun i _ => ?_) ▸ taken
    by_cases same : i = k
    · subst same
      simp [Nat.not_lt.mpr hm]
    · have lower : i < k ↔ i < k + 1 := by omega
      simp only [Function.update_of_ne same, lower]

/-- Their writes leave what the last of them left. -/
theorem lost_reachable (codec : WebhookCodec) {m k : Nat} (hm : m < k) (hk : k ≤ n) :
    (raceMachine codec).Reachable (contended n (5 - 5 * (m + 1 : Nat)) fun i => if i < k then reserved i
      else .put (bulkCheckout i) (5 - 5 * m)) := by
  have left : (5 - 5 * (m : Int)) - 5 = 5 - 5 * ((m + 1 : Nat) : Int) := by
    push_cast
    omega
  induction k, hm using Nat.le_induction with
  | base =>
    have loaded := loaded_reachable codec (m := m) (k := n) (by omega) le_rfl
    have put := contended_put (i := m) (by omega)
      ((if_neg (lt_irrefl m)).trans (if_pos (show m < n by omega))) loaded
    rw [left] at put
    refine (contended_congr fun i hi => ?_) ▸ put
    by_cases same : i = m
    · subst same
      simp
    · have lower : i < m ↔ i < m + 1 := by omega
      simp only [Function.update_of_ne same, lower, hi, if_true]
  | succ k hm ih =>
    have put := contended_put (i := k) (by omega) (if_neg (lt_irrefl k)) (ih (by omega))
    rw [left] at put
    refine (contended_congr fun i _ => ?_) ▸ put
    by_cases same : i = k
    · subst same
      simp
    · have lower : i < k ↔ i < k + 1 := by omega
      simp only [Function.update_of_ne same, lower]

/-- M01 lets any number of checkouts take the whole stock, and the stock may end at any multiple of it: with
every reservation written down, or with some lost to others. -/
theorem race_oversells (codec : WebhookCodec) {m n : Nat} (some_ : 0 < m) (most : m ≤ n) :
    ∃ sys, (raceMachine codec).Reachable sys ∧ sys.racers.length = n ∧
      (∀ r ∈ sys.racers, ∃ c, r.pc = .source (.core c .publish) ∧ c.payload.quantity = initialStock) ∧
      sys.store.stock = initialStock - initialStock * m := by
  obtain ⟨k, rfl⟩ := Nat.exists_eq_succ_of_ne_zero some_.ne'
  refine ⟨_, lost_reachable codec (m := k) (k := n) (by omega) le_rfl, by simp [contended], ?_, rfl⟩
  intro r hr
  obtain ⟨i, hi, rfl⟩ := List.mem_map.mp hr
  exact ⟨bulkCheckout i, if_pos (List.mem_range.mp hi), rfl⟩

theorem race_oversells_lost :
    ∃ sys, (raceMachine silentCodec).Reachable sys ∧ sys.racers.length = 3 ∧
      (∀ r ∈ sys.racers, ∃ c, r.pc = .source (.core c .publish) ∧ c.payload.quantity = initialStock) ∧
      sys.store.stock = 0 :=
  race_oversells silentCodec (m := 1) (by decide) (by decide)

end EdgecaseForge.FlashCart
