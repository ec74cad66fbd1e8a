import EdgecaseForge.ExceptCore

namespace Effect

/-- What a program leaves behind: the state after each of its operations with a note on it,
the state at its end and its result. -/
structure Outcome (σ ν ε α : Type) where
  trace : List (ν × σ)
  state : σ
  result : Except ε α

/-- A program over a state that keeps its changes when it fails or is cut short. -/
def Program (σ ν ε α : Type) :=
  σ → Outcome σ ν ε α

namespace Program

variable {σ ν ε α β γ : Type}

instance : Monad (Program σ ν ε) where
  pure a := fun s => ⟨[], s, .ok a⟩
  bind m f := fun s =>
    match (m s).result with
    | .ok a =>
      let next := f a (m s).state
      ⟨(m s).trace ++ next.trace, next.state, next.result⟩
    | .error e => ⟨(m s).trace, (m s).state, .error e⟩

/-- A computation that reads the state. -/
def inspect (f : σ → Except ε α) : Program σ ν ε α :=
  fun s => ⟨[], s, f s⟩

def lift (x : Except ε α) : Program σ ν ε α :=
  inspect fun _ => x

/-- One operation. It may fail and still change the state. -/
def act (note : ν) (f : σ → σ × Except ε α) : Program σ ν ε α :=
  fun s => ⟨[(note, (f s).1)], (f s).1, (f s).2⟩

/-- The outcome of a program as a value: `try` with every exception caught. -/
def attempt (m : Program σ ν ε α) : Program σ ν ε (Except ε α) :=
  fun s => ⟨(m s).trace, (m s).state, .ok (m s).result⟩

def mark (note : ν) : Program σ ν ε Unit :=
  act note fun s => (s, .ok ())

section Keeps

/-- No operation of a program changes what `view` shows of the state. -/
def Keeps (view : σ → γ) (m : Program σ ν ε α) : Prop :=
  ∀ s, (∀ e ∈ (m s).trace, view e.2 = view s) ∧ view (m s).state = view s

variable {view : σ → γ}

theorem Keeps.pure (a : α) : Keeps view (Pure.pure a : Program σ ν ε α) :=
  fun _ => ⟨by rintro e ⟨⟩, rfl⟩

theorem Keeps.inspect (f : σ → Except ε α) : Keeps view (inspect f : Program σ ν ε α) :=
  fun _ => ⟨by rintro e ⟨⟩, rfl⟩

theorem Keeps.lift (x : Except ε α) : Keeps view (lift x : Program σ ν ε α) :=
  Keeps.inspect _

theorem Keeps.act {note : ν} {f : σ → σ × Except ε α} (h : ∀ s, view (f s).1 = view s) :
    Keeps view (act note f) := by
  intro s
  refine ⟨fun e he => ?_, h s⟩
  cases List.mem_singleton.mp he
  exact h s

theorem Keeps.attempt {m : Program σ ν ε α} (h : Keeps view m) : Keeps view m.attempt :=
  h

theorem Keeps.mark (note : ν) : Keeps view (mark note : Program σ ν ε Unit) :=
  Keeps.act fun _ => rfl

theorem Keeps.bind {m : Program σ ν ε α} {f : α → Program σ ν ε β} (hm : Keeps view m)
    (hf : ∀ a, Keeps view (f a)) : Keeps view (m >>= f) := by
  intro s
  obtain ⟨ht, hs⟩ := hm s
  simp only [Bind.bind]
  cases (m s).result with
  | error e => exact ⟨ht, hs⟩
  | ok a =>
    obtain ⟨ht', hs'⟩ := hf a (m s).state
    refine ⟨fun e he => ?_, hs'.trans hs⟩
    rcases List.mem_append.mp he with he | he
    · exact ht e he
    · exact (ht' e he).trans hs

theorem Keeps.pair {β : Type} {other : σ → β} {m : Program σ ν ε α} (h : Keeps view m)
    (h' : Keeps other m) : Keeps (fun s => (view s, other s)) m := by
  intro s
  obtain ⟨ht, hs⟩ := h s
  obtain ⟨ht', hs'⟩ := h' s
  exact ⟨fun e he => Prod.ext (ht e he) (ht' e he), Prod.ext hs hs'⟩

end Keeps

section Triple

/-- From a state in `pre`, every operation leaves a state in `mid`, success ends in `post` and
failure in `fail`. -/
def Triple (pre : σ → Prop) (m : Program σ ν ε α) (mid : ν → σ → Prop) (post : α → σ → Prop)
    (fail : σ → Prop) : Prop :=
  ∀ s, pre s → (∀ e ∈ (m s).trace, mid e.1 e.2) ∧
    (∀ a, (m s).result = .ok a → post a (m s).state) ∧
    (∀ e, (m s).result = .error e → fail (m s).state)

variable {pre pre' : σ → Prop} {mid : ν → σ → Prop} {post post' : α → σ → Prop} {fail : σ → Prop}

theorem Triple.pure {a : α} (h : ∀ s, pre s → post a s) :
    Triple pre (Pure.pure a : Program σ ν ε α) mid post fail := by
  intro s hs
  refine ⟨by rintro e ⟨⟩, fun b hb => ?_, by rintro e ⟨⟩⟩
  cases hb
  exact h s hs

theorem Triple.inspect {f : σ → Except ε α} (ok : ∀ s a, pre s → f s = .ok a → post a s)
    (error : ∀ s, pre s → fail s) : Triple pre (inspect f : Program σ ν ε α) mid post fail :=
  fun s hs => ⟨by rintro e ⟨⟩, fun a ha => ok s a hs ha, fun _ _ => error s hs⟩

theorem Triple.act {note : ν} {f : σ → σ × Except ε α}
    (step : ∀ s, pre s → mid note (f s).1) (ok : ∀ s a, pre s → (f s).2 = .ok a → post a (f s).1)
    (error : ∀ s e, pre s → (f s).2 = .error e → fail (f s).1) :
    Triple pre (act note f) mid post fail := by
  intro s hs
  refine ⟨fun e he => ?_, fun a ha => ok s a hs ha, fun e he => error s e hs he⟩
  cases List.mem_singleton.mp he
  exact step s hs

theorem Triple.bind {m : Program σ ν ε α} {f : α → Program σ ν ε β} {last : β → σ → Prop}
    (hm : Triple pre m mid post fail) (hf : ∀ a, Triple (post a) (f a) mid last fail) :
    Triple pre (m >>= f) mid last fail := by
  intro s hs
  obtain ⟨ht, ho, he⟩ := hm s hs
  simp only [Bind.bind]
  cases hr : (m s).result with
  | error e => exact ⟨ht, by rintro b ⟨⟩, fun _ _ => he e hr⟩
  | ok a =>
    obtain ⟨ht', ho', he'⟩ := hf a (m s).state (ho a hr)
    refine ⟨fun e hm => ?_, ho', he'⟩
    rcases List.mem_append.mp hm with hm | hm
    · exact ht e hm
    · exact ht' e hm

theorem Triple.attempt {m : Program σ ν ε α} {fail' : σ → Prop} (h : Triple pre m mid post fail) :
    Triple pre m.attempt mid
      (fun x s => match x with
        | .ok a => post a s
        | .error _ => fail s) fail' := by
  intro s hs
  obtain ⟨ht, ho, he⟩ := h s hs
  refine ⟨ht, fun x hx => ?_, by rintro e ⟨⟩⟩
  cases hx
  change match (m s).result with
    | .ok a => post a (m s).state
    | .error _ => fail (m s).state
  cases hr : (m s).result with
  | ok a => exact ho a hr
  | error e => exact he e hr

theorem Triple.weaken {m : Program σ ν ε α} (h : Triple pre m mid post fail)
    (hpre : ∀ s, pre' s → pre s) (hpost : ∀ a s, post a s → post' a s) :
    Triple pre' m mid post' fail := by
  intro s hs
  obtain ⟨ht, ho, he⟩ := h s (hpre s hs)
  exact ⟨ht, fun a ha => hpost a _ (ho a ha), he⟩

theorem Triple.widen {m : Program σ ν ε α} {mid' : ν → σ → Prop} {fail' : σ → Prop}
    (h : Triple pre m mid post fail) (hmid : ∀ note s, mid note s → mid' note s)
    (hfail : ∀ s, fail s → fail' s) : Triple pre m mid' post fail' := by
  intro s hs
  obtain ⟨ht, ho, he⟩ := h s hs
  exact ⟨fun e hm => hmid _ _ (ht e hm), ho, fun e hr => hfail _ (he e hr)⟩

/-- What the states before a program have in common may be used for its triple. -/
theorem Triple.knowing {P : Prop} {m : Program σ ν ε α} (known : ∀ s, pre s → P)
    (h : P → Triple pre m mid post fail) : Triple pre m mid post fail :=
  fun s hs => h (known s hs) s hs

/-- A first step that only reads leaves what it has read to the second. -/
theorem Triple.inspect_bind {g : σ → Except ε α} {f : α → Program σ ν ε β}
    {last : β → σ → Prop} (error : ∀ s, pre s → fail s)
    (hf : ∀ a, Triple (fun s => pre s ∧ g s = .ok a) (f a) mid last fail) :
    Triple pre (Program.inspect g >>= f) mid last fail :=
  (Triple.inspect (fun _ _ hs ha => ⟨hs, ha⟩) error).bind hf

theorem Triple.lift_bind {x : Except ε α} {f : α → Program σ ν ε β} {last : β → σ → Prop}
    (error : ∀ s, pre s → fail s) (hf : ∀ a, x = .ok a → Triple pre (f a) mid last fail) :
    Triple pre (Program.lift x >>= f) mid last fail :=
  Triple.inspect_bind error fun a s hs => hf a hs.2 s hs.1

/-- A program that keeps a view keeps everything that is said about it. -/
theorem Triple.keeps {view : σ → γ} {m : Program σ ν ε α} (h : Keeps view m) (P : γ → Prop) :
    Triple (fun s => P (view s)) m (fun _ s => P (view s)) (fun _ s => P (view s))
      (fun s => P (view s)) := by
  intro s hs
  obtain ⟨ht, he⟩ := h s
  have last : P (view (m s).state) := by rwa [he]
  refine ⟨fun e hm => ?_, fun _ _ => last, fun _ _ => last⟩
  change P (view e.2)
  rwa [ht e hm]

end Triple

section Returns

/-- The program succeeds with a value and leaves a state. -/
def Returns (m : Program σ ν ε α) (s : σ) (a : α) (s' : σ) : Prop :=
  (m s).result = .ok a ∧ (m s).state = s'

variable {s s' : σ} {a : α} {b : β}

theorem returns_pure {b : α} :
    (Pure.pure a : Program σ ν ε α).Returns s b s' ↔ a = b ∧ s = s' := by
  simp [Returns, Pure.pure]

theorem returns_inspect {f : σ → Except ε α} :
    (inspect f : Program σ ν ε α).Returns s a s' ↔ f s = .ok a ∧ s = s' :=
  Iff.rfl

theorem returns_lift {x : Except ε α} :
    (lift x : Program σ ν ε α).Returns s a s' ↔ x = .ok a ∧ s = s' :=
  Iff.rfl

theorem returns_act {note : ν} {f : σ → σ × Except ε α} :
    (act note f).Returns s a s' ↔ f s = (s', .ok a) := by
  rw [Prod.ext_iff]
  exact and_comm

theorem returns_attempt {m : Program σ ν ε α} {x : Except ε α} :
    m.attempt.Returns s x s' ↔ (m s).result = x ∧ (m s).state = s' := by
  simp [Returns, attempt]

theorem returns_mark {note : ν} {u : Unit} :
    (mark note : Program σ ν ε Unit).Returns s u s' ↔ s = s' := by
  simp [mark, returns_act]

/-- A sequence succeeds exactly if both of its parts do, one after the other. -/
theorem returns_bind {m : Program σ ν ε α} {f : α → Program σ ν ε β} :
    (m >>= f).Returns s b s' ↔ ∃ a t, m.Returns s a t ∧ (f a).Returns t b s' := by
  simp only [Returns, Bind.bind]
  cases hr : (m s).result with
  | error e => simp
  | ok a =>
    constructor
    · intro h
      exact ⟨a, (m s).state, ⟨rfl, rfl⟩, h⟩
    · rintro ⟨a', t, ⟨ha, rfl⟩, h⟩
      cases ha
      exact h

theorem exists_returns {m : Program σ ν ε α} (h : (m s).result.isOk = true) :
    ∃ a, m.Returns s a (m s).state := by
  cases hr : (m s).result with
  | error e =>
    rw [hr] at h
    cases h
  | ok a => exact ⟨a, hr, rfl⟩

/-- A program that succeeds and keeps a view of the state shows the same view at its end. -/
theorem Returns.keeps {view : σ → γ} {m : Program σ ν ε α} (hm : Keeps view m)
    (h : m.Returns s a s') : view s' = view s := by
  rw [← h.2]
  exact (hm s).2

end Returns

section Fails

/-- The program fails with an error and leaves a state. -/
def Fails (m : Program σ ν ε α) (s : σ) (e : ε) (s' : σ) : Prop :=
  (m s).result = .error e ∧ (m s).state = s'

variable {s s' : σ} {e : ε}

theorem fails_pure {a : α} : ¬ (Pure.pure a : Program σ ν ε α).Fails s e s' := by
  rintro ⟨⟨⟩, -⟩

theorem fails_lift {x : Except ε α} :
    (lift x : Program σ ν ε α).Fails s e s' ↔ x = .error e ∧ s = s' :=
  Iff.rfl

theorem fails_act {note : ν} {f : σ → σ × Except ε α} :
    (act note f).Fails s e s' ↔ f s = (s', .error e) := by
  rw [Prod.ext_iff]
  exact and_comm

/-- A sequence fails with its first part, or with the second after the first. -/
theorem fails_bind {m : Program σ ν ε α} {f : α → Program σ ν ε β} :
    (m >>= f).Fails s e s' ↔ m.Fails s e s' ∨ ∃ a t, m.Returns s a t ∧ (f a).Fails t e s' := by
  simp only [Fails, Returns, Bind.bind]
  cases hr : (m s).result with
  | error e' => simp
  | ok a =>
    constructor
    · intro h
      exact Or.inr ⟨a, (m s).state, ⟨rfl, rfl⟩, h⟩
    · rintro (⟨⟨⟩, -⟩ | ⟨a', t, ⟨ha, rfl⟩, h⟩)
      cases ha
      exact h

end Fails

section Stages

/-- The states that a run passes through, the last of them its end. -/
def stages (m : Program σ ν ε α) (s : σ) : List σ :=
  (m s).trace.map Prod.snd ++ [(m s).state]

variable {s s' : σ} {a : α} {b : β}

theorem stages_inspect {f : σ → Except ε α} : (inspect f : Program σ ν ε α).stages s = [s] := rfl

theorem mem_stages_act {note : ν} {f : σ → σ × Except ε α} (h : s' ∈ (act note f).stages s) :
    s' = (f s).1 := by
  simpa [stages, act] using h

theorem Returns.mem_stages {m : Program σ ν ε α} (h : m.Returns s a s') : s' ∈ m.stages s := by
  rw [← h.2, stages]
  exact List.mem_append_right _ List.mem_cons_self

/-- A sequence passes through the states of its first part, and then of the second. -/
theorem mem_stages_bind {m : Program σ ν ε α} {f : α → Program σ ν ε β}
    (h : s' ∈ (m >>= f).stages s) :
    s' ∈ m.stages s ∨ ∃ a t, m.Returns s a t ∧ s' ∈ (f a).stages t := by
  simp only [stages, Bind.bind] at h ⊢
  cases hr : (m s).result with
  | error e =>
    rw [hr] at h
    exact Or.inl h
  | ok a =>
    rw [hr] at h
    simp only [List.map_append, List.append_assoc, List.mem_append] at h
    rcases h with h | h
    · exact Or.inl (List.mem_append_left _ h)
    · exact Or.inr ⟨a, (m s).state, ⟨hr, rfl⟩, List.mem_append.mpr h⟩

/-- What a triple says of every state that a run passes through. -/
theorem Triple.stages {pre P : σ → Prop} {m : Program σ ν ε α} {mid : ν → σ → Prop}
    {post : α → σ → Prop} {fail : σ → Prop} (h : Triple pre m mid post fail)
    (hmid : ∀ note s, mid note s → P s) (hpost : ∀ a s, post a s → P s)
    (hfail : ∀ s, fail s → P s) (hs : pre s) (hm : s' ∈ m.stages s) : P s' := by
  obtain ⟨trace, ok, error⟩ := h s hs
  rcases List.mem_append.mp hm with hm | hm
  · obtain ⟨e, he, rfl⟩ := List.mem_map.mp hm
    exact hmid _ _ (trace e he)
  · rw [List.mem_singleton.mp hm]
    cases hr : (m s).result with
    | ok a => exact hpost a _ (ok a hr)
    | error e => exact hfail _ (error e hr)

/-- What the success of a program says may be added to its triple. -/
theorem Triple.returning {pre : σ → Prop} {m : Program σ ν ε α} {mid : ν → σ → Prop}
    {post post' : α → σ → Prop} {fail : σ → Prop} (h : Triple pre m mid post fail)
    (more : ∀ s a s', pre s → m.Returns s a s' → post' a s') :
    Triple pre m mid (fun a s => post a s ∧ post' a s) fail := by
  intro s hs
  obtain ⟨ht, ho, he⟩ := h s hs
  exact ⟨ht, fun a ha => ⟨ho a ha, more s a _ hs ⟨ha, rfl⟩⟩, he⟩

theorem Keeps.stages {view : σ → γ} {m : Program σ ν ε α} (hm : Keeps view m)
    (h : s' ∈ m.stages s) : view s' = view s := by
  obtain ⟨trace, last⟩ := hm s
  rcases List.mem_append.mp h with h | h
  · obtain ⟨e, he, rfl⟩ := List.mem_map.mp h
    exact trace e he
  · rw [List.mem_singleton.mp h]
    exact last

end Stages

section Ran

/-- A run with the notes on its operations, the state it leaves and its result. -/
structure Ran (m : Program σ ν ε α) (s : σ) (notes : List ν) (s' : σ) (result : Except ε α) : Prop where
  notes : (m s).trace.map Prod.fst = notes
  state : (m s).state = s'
  result : (m s).result = result

variable {s t s' : σ} {notes later : List ν} {a : α} {e : ε}

theorem Ran.pure : Ran (Pure.pure a : Program σ ν ε α) s [] s (.ok a) :=
  ⟨rfl, rfl, rfl⟩

theorem Ran.inspect {f : σ → Except ε α} : Ran (Program.inspect f : Program σ ν ε α) s [] s (f s) :=
  ⟨rfl, rfl, rfl⟩

theorem Ran.lift {x : Except ε α} : Ran (Program.lift x : Program σ ν ε α) s [] s x :=
  Ran.inspect

theorem Ran.of_inspect {f : σ → Except ε α} {x : Except ε α} (h : f s = x) :
    Ran (Program.inspect f : Program σ ν ε α) s [] s x :=
  ⟨rfl, rfl, h⟩

theorem Ran.act {note : ν} {f : σ → σ × Except ε α} :
    Ran (Program.act note f) s [note] (f s).1 (f s).2 :=
  ⟨rfl, rfl, rfl⟩

theorem Ran.of_act {note : ν} {f : σ → σ × Except ε α} {x : Except ε α} (h : f s = (s', x)) :
    Ran (Program.act note f) s [note] s' x :=
  ⟨rfl, congrArg Prod.fst h, congrArg Prod.snd h⟩

theorem Ran.mark {note : ν} : Ran (Program.mark note : Program σ ν ε Unit) s [note] s (.ok ()) :=
  Ran.act

theorem Ran.attempt {m : Program σ ν ε α} {x : Except ε α} (h : Ran m s notes s' x) :
    Ran m.attempt s notes s' (.ok x) :=
  ⟨h.notes, h.state, congrArg Except.ok h.result⟩

theorem Ran.bind {m : Program σ ν ε α} {f : α → Program σ ν ε β} {x : Except ε β}
    (hm : Ran m s notes t (.ok a)) (hf : Ran (f a) t later s' x) :
    Ran (m >>= f) s (notes ++ later) s' x := by
  obtain ⟨rfl, rfl, hr⟩ := hm
  obtain ⟨rfl, rfl, rfl⟩ := hf
  constructor <;> simp [Bind.bind, hr]

/-- A first step without a note. -/
theorem Ran.quiet_bind {m : Program σ ν ε α} {f : α → Program σ ν ε β} {x : Except ε β}
    (hm : Ran m s [] t (.ok a)) (hf : Ran (f a) t notes s' x) : Ran (m >>= f) s notes s' x :=
  hm.bind hf

/-- What is already known adds no note. -/
theorem Ran.lift_bind {f : α → Program σ ν ε β} {x : Except ε β} (hf : Ran (f a) s notes s' x) :
    Ran ((Program.lift (.ok a) : Program σ ν ε α) >>= f) s notes s' x :=
  Ran.lift.bind hf

theorem Ran.inspect_bind {g : σ → Except ε α} {f : α → Program σ ν ε β} {x : Except ε β}
    (hg : g s = .ok a) (hf : Ran (f a) s notes s' x) :
    Ran ((Program.inspect g : Program σ ν ε α) >>= f) s notes s' x := by
  have hi : Ran (Program.inspect g : Program σ ν ε α) s [] s (.ok a) := hg ▸ Ran.inspect
  exact hi.bind hf

/-- A last step without a note. -/
theorem Ran.bind_quiet {m : Program σ ν ε α} {f : α → Program σ ν ε β} {x : Except ε β}
    (hm : Ran m s notes t (.ok a)) (hf : Ran (f a) t [] s' x) : Ran (m >>= f) s notes s' x := by
  have both := hm.bind hf
  rwa [List.append_nil] at both

theorem Ran.bind_error {m : Program σ ν ε α} {f : α → Program σ ν ε β} (hm : Ran m s notes t (.error e)) :
    Ran (m >>= f) s notes t (.error e) := by
  obtain ⟨rfl, rfl, hr⟩ := hm
  constructor <;> simp [Bind.bind, hr]

end Ran

section Passes

/-- The state that a run has passed through after so many other operations. -/
def Passes (m : Program σ ν ε α) (s : σ) (n : Nat) (s' : σ) : Prop :=
  (m s).trace[n]?.map Prod.snd = some s'

variable {s t s' : σ} {n : Nat} {notes : List ν} {a : α}

theorem Passes.act {note : ν} {f : σ → σ × Except ε α} : Passes (Program.act note f) s 0 (f s).1 :=
  rfl

theorem Passes.bind_left {m : Program σ ν ε α} {f : α → Program σ ν ε β} (h : Passes m s n s') :
    Passes (m >>= f) s n s' := by
  obtain ⟨e, he, rfl⟩ := Option.map_eq_some_iff.mp h
  obtain ⟨inside, -⟩ := List.getElem?_eq_some_iff.mp he
  simp only [Passes, Bind.bind]
  cases (m s).result with
  | error e => simp [he]
  | ok a => simp [List.getElem?_append_left inside, he]

theorem Passes.bind_right {m : Program σ ν ε α} {f : α → Program σ ν ε β}
    (hm : Ran m s notes t (.ok a)) (h : Passes (f a) t n s') :
    Passes (m >>= f) s (notes.length + n) s' := by
  obtain ⟨rfl, rfl, hr⟩ := hm
  simp only [Passes, Bind.bind, hr, List.length_map]
  rw [List.getElem?_append_right (Nat.le_add_right _ _), Nat.add_sub_cancel_left]
  exact h

theorem Passes.quiet_bind {m : Program σ ν ε α} {f : α → Program σ ν ε β}
    (hm : Ran m s [] t (.ok a)) (h : Passes (f a) t n s') : Passes (m >>= f) s n s' := by
  have both := Passes.bind_right hm h
  rwa [List.length_nil, Nat.zero_add] at both

theorem Passes.stages {m : Program σ ν ε α} (h : Passes m s n s') : (m.stages s)[n]? = some s' := by
  obtain ⟨e, he, rfl⟩ := Option.map_eq_some_iff.mp h
  obtain ⟨inside, -⟩ := List.getElem?_eq_some_iff.mp he
  rw [Program.stages, List.getElem?_append_left (by rwa [List.length_map]), List.getElem?_map, he]
  rfl

end Passes

section Yields

/-- From every state, the notes of the operations and the result stand in a relation. -/
def Yields (m : Program σ ν ε α) (rel : List ν → Except ε α → Prop) : Prop :=
  ∀ s, rel ((m s).trace.map Prod.fst) (m s).result

variable {rel rel' : List ν → Except ε α → Prop}

theorem Yields.pure {a : α} (h : rel [] (.ok a)) : Yields (Pure.pure a : Program σ ν ε α) rel :=
  fun _ => h

theorem Yields.inspect {f : σ → Except ε α} (h : ∀ s, rel [] (f s)) :
    Yields (Program.inspect f : Program σ ν ε α) rel :=
  h

theorem Yields.lift {x : Except ε α} (h : rel [] x) : Yields (Program.lift x : Program σ ν ε α) rel :=
  fun _ => h

theorem Yields.act {note : ν} {f : σ → σ × Except ε α} (h : ∀ s, rel [note] (f s).2) :
    Yields (Program.act note f) rel :=
  h

theorem Yields.imp {m : Program σ ν ε α} (hm : Yields m rel) (h : ∀ notes x, rel notes x → rel' notes x) :
    Yields m rel' :=
  fun s => h _ _ (hm s)

theorem Yields.attempt {m : Program σ ν ε α} {last : List ν → Except ε (Except ε α) → Prop}
    (hm : Yields m fun notes x => last notes (.ok x)) : Yields m.attempt last :=
  hm

/-- A sequence ends with the error of its first part, or its second part adds its notes. -/
theorem Yields.bind {m : Program σ ν ε α} {f : α → Program σ ν ε β} {last : List ν → Except ε β → Prop}
    (hm : Yields m rel) (error : ∀ notes e, rel notes (.error e) → last notes (.error e))
    (hf : ∀ notes a, rel notes (.ok a) → Yields (f a) fun later x => last (notes ++ later) x) :
    Yields (m >>= f) last := by
  intro s
  have first := hm s
  simp only [Bind.bind]
  cases hr : (m s).result with
  | error e =>
    rw [hr] at first
    exact error _ e first
  | ok a =>
    rw [hr] at first
    have second := hf _ a first (m s).state
    dsimp only at second ⊢
    rwa [List.map_append]

end Yields

end Program

end Effect
