import EdgecaseForge.EffectCore

namespace Effect.Program

variable {σ ν ε α β γ δ : Type}

/-- Two outcomes are alike: both are values and leave states as `post` relates them, or both are the same
error. -/
def Alike (post : α → β → σ → σ → Prop) (s s' : σ) : Except ε α → Except ε β → Prop
  | .ok a, .ok b => post a b s s'
  | .error e, .error e' => e = e'
  | _, _ => False

/-- From states that `pre` relates, two programs have outcomes that are alike. -/
def Couples (pre : σ → σ → Prop) (m : Program σ ν ε α) (m' : Program σ ν ε β)
    (post : α → β → σ → σ → Prop) : Prop :=
  ∀ s s', pre s s' → Alike post (m s).state (m' s').state (m s).result (m' s').result

variable {pre pre' : σ → σ → Prop} {m : Program σ ν ε α} {m' : Program σ ν ε β}
  {post post' : α → β → σ → σ → Prop}

theorem Alike.imp {s s' : σ} {x : Except ε α} {y : Except ε β} (h : Alike post s s' x y)
    (imp : ∀ a b, post a b s s' → post' a b s s') : Alike post' s s' x y := by
  cases x <;> cases y <;> simp only [Alike] at h ⊢
  · exact h
  · exact imp _ _ h

theorem Couples.pure {a : α} {b : β} (h : ∀ s s', pre s s' → post a b s s') :
    Couples pre (Pure.pure a : Program σ ν ε α) (Pure.pure b) post :=
  h

theorem Couples.raise {e : ε} :
    Couples pre (Program.lift (.error e) : Program σ ν ε α) (Program.lift (.error e)) post :=
  fun _ _ _ => rfl

theorem Couples.act {note note' : ν} {f : σ → σ × Except ε α} {g : σ → σ × Except ε β}
    (h : ∀ s s', pre s s' → Alike post (f s).1 (g s').1 (f s).2 (g s').2) :
    Couples pre (Program.act note f) (Program.act note' g) post :=
  h

theorem Couples.inspect {f : σ → Except ε α} {g : σ → Except ε β}
    (h : ∀ s s', pre s s' → Alike post s s' (f s) (g s')) :
    Couples pre (Program.inspect f : Program σ ν ε α) (Program.inspect g) post :=
  h

theorem Couples.imp (hm : Couples pre m m' post) (hpre : ∀ s s', pre' s s' → pre s s')
    (hpost : ∀ a b s s', post a b s s' → post' a b s s') : Couples pre' m m' post' :=
  fun s s' hs => (hm s s' (hpre s s' hs)).imp fun a b => hpost a b _ _

/-- Sequences are alike whose parts are. -/
theorem Couples.bind {f : α → Program σ ν ε γ} {f' : β → Program σ ν ε δ} {last : γ → δ → σ → σ → Prop}
    (hm : Couples pre m m' post) (hf : ∀ a b, Couples (post a b) (f a) (f' b) last) :
    Couples pre (m >>= f) (m' >>= f') last := by
  intro s s' hs
  have first := hm s s' hs
  simp only [Bind.bind]
  cases hx : (m s).result <;> cases hy : (m' s').result <;> simp only [hx, hy, Alike] at first ⊢
  · exact first
  · exact hf _ _ _ _ first

/-- What both read first is the same, and they go on with it. -/
theorem Couples.inspect_bind {g g' : σ → Except ε α} {f : α → Program σ ν ε γ} {f' : α → Program σ ν ε δ}
    {last : γ → δ → σ → σ → Prop} (same : ∀ s s', pre s s' → g s = g' s')
    (hf : ∀ a, Couples pre (f a) (f' a) last) :
    Couples pre (Program.inspect g >>= f) (Program.inspect g' >>= f') last := by
  have read : Couples pre (Program.inspect g : Program σ ν ε α) (Program.inspect g')
      fun a b s s' => a = b ∧ pre s s' := by
    refine Couples.inspect fun s s' hs => ?_
    rw [same s s' hs]
    cases g' s' with
    | ok a => exact ⟨rfl, hs⟩
    | error e => exact rfl
  refine Couples.bind read ?_
  rintro a _ s s' ⟨rfl, hs⟩
  exact hf a s s' hs

theorem Couples.lift_bind {x : Except ε α} {f : α → Program σ ν ε γ} {f' : α → Program σ ν ε δ}
    {last : γ → δ → σ → σ → Prop} (hf : ∀ a, x = .ok a → Couples pre (f a) (f' a) last) :
    Couples pre (Program.lift x >>= f) (Program.lift x >>= f') last := by
  cases x with
  | ok a => exact fun s s' hs => hf a rfl s s' hs
  | error e => exact fun _ _ _ => rfl

/-- What one program returns, the other returns too, as `post` relates it. -/
theorem Couples.returns (hm : Couples pre m m' post) {s s' t : σ} {a : α} (hs : pre s s') (h : m.Returns s a t) :
    ∃ b t', m'.Returns s' b t' ∧ post a b t t' := by
  have both := hm s s' hs
  rw [h.1, h.2] at both
  cases hy : (m' s').result with
  | ok b =>
    rw [hy] at both
    exact ⟨b, _, ⟨hy, rfl⟩, both⟩
  | error e =>
    rw [hy] at both
    exact both.elim

end Effect.Program
