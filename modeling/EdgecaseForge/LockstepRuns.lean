import Mathlib.Init

namespace Lockstep

variable {σ τ ι ρ ν : Type*}

/-- Two systems that answer every input of a run alike and look alike after it. A run ends where neither
of them takes an input. -/
def Alike (f : σ → ι → Option (ρ × σ)) (g : τ → ι → Option (ρ × τ)) (view : σ → ν) (view' : τ → ν) :
    σ → τ → List ι → Prop
  | _, _, [] => True
  | s, t, input :: rest =>
    match f s input, g t input with
    | some (reply, s'), some (reply', t') =>
      reply = reply' ∧ view s' = view' t' ∧ Alike f g view view' s' t' rest
    | none, none => True
    | _, _ => False

/-- No input that the run of a system takes is a trigger where it is taken. -/
def Untriggered (f : σ → ι → Option (ρ × σ)) (trigger : σ → ι → Prop) : σ → List ι → Prop
  | _, [] => True
  | s, input :: rest =>
    match f s input with
    | some (_, s') => ¬ trigger s input ∧ Untriggered f trigger s' rest
    | none => True

/-- A simulation up to a trigger: related states answer alike and stay related exactly where the input is
no trigger. -/
structure Simulates (f : σ → ι → Option (ρ × σ)) (g : τ → ι → Option (ρ × τ)) (view : σ → ν) (view' : τ → ν)
    (trigger : σ → ι → Prop) (related : σ → τ → Prop) : Prop where
  looks : ∀ s t, related s t → view s = view' t
  stuck : ∀ s t input, related s t → f s input = none → g t input = none
  follows : ∀ s t input reply s', related s t → f s input = some (reply, s') → ¬ trigger s input →
    ∃ t', g t input = some (reply, t') ∧ related s' t'
  departs : ∀ s t input reply s' t', related s t → f s input = some (reply, s') → trigger s input →
    g t input = some (reply, t') → view s' ≠ view' t'

variable {f : σ → ι → Option (ρ × σ)} {g : τ → ι → Option (ρ × τ)} {view : σ → ν} {view' : τ → ν}
  {trigger : σ → ι → Prop} {related : σ → τ → Prop}

/-- Two such systems are alike along a run exactly when the run has no trigger. -/
theorem Simulates.alike_iff (h : Simulates f g view view' trigger related) {s : σ} {t : τ}
    (hr : related s t) (inputs : List ι) :
    Alike f g view view' s t inputs ↔ Untriggered f trigger s inputs := by
  induction inputs generalizing s t with
  | nil => exact Iff.rfl
  | cons input rest ih =>
    simp only [Alike, Untriggered]
    cases hf : f s input with
    | none => simp [h.stuck s t input hr hf]
    | some answered =>
      obtain ⟨reply, s'⟩ := answered
      by_cases ht : trigger s input
      · simp only [ht, not_true_eq_false, false_and, iff_false]
        cases hg : g t input with
        | none => exact id
        | some other =>
          rintro ⟨same, looks, -⟩
          exact h.departs s t input reply s' other.2 hr hf ht (by rw [hg, same]) looks
      · obtain ⟨t', hg, hr'⟩ := h.follows s t input reply s' hr hf ht
        rw [hg]
        simp only [ht, not_false_eq_true, true_and, h.looks s' t' hr']
        exact ih hr'

end Lockstep
