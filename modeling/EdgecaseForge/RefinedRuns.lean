import EdgecaseForge.TransitionRuns

namespace Transition.Machine

variable {σ τ α β : Type*} {m : Machine σ α} {m' : Machine τ β} {allowed : σ → α → Prop}

/-- A machine refines another while its steps are allowed: every such step is matched by some steps of the
other. -/
structure Refines (m : Machine σ α) (m' : Machine τ β) (allowed : σ → α → Prop) (related : σ → τ → Prop) :
    Prop where
  start : ∀ s, m.init s → ∃ t, m'.init t ∧ related s t
  step : ∀ s a s' t, m'.Reachable t → related s t → allowed s a → m.step s a = some s' →
    ∃ t', m'.LeadsTo (fun _ _ => True) t t' ∧ related s' t'

/-- Whatever an allowed run of the one reaches, the other reaches a state related to it. -/
theorem Refines.reachable {related : σ → τ → Prop} (h : m.Refines m' allowed related) {s : σ}
    (hs : m.ReachableWhen allowed s) : ∃ t, m'.Reachable t ∧ related s t := by
  refine hs.invariant (fun s => ∃ t, m'.Reachable t ∧ related s t) ?_ ?_
  · intro s hi
    obtain ⟨t, ht, hr⟩ := h.start s hi
    exact ⟨t, ⟨t, ht, .refl⟩, hr⟩
  · rintro s a s' - ⟨t, ht, hr⟩ ha hstep
    obtain ⟨t', hl, hr'⟩ := h.step s a s' t ht hr ha hstep
    exact ⟨t', ht.leadsTo hl, hr'⟩

/-- A run inside a set of states where every step is allowed. -/
theorem ReachableWhen.run_within (inside : σ → Prop) {actions : List α} {s t : σ}
    (h : m.ReachableWhen allowed s) (every : ∀ s a, inside s → allowed s a)
    (stays : ∀ s a t, a ∈ actions → inside s → m.step s a = some t → inside t) (hs : inside s)
    (hr : m.run s actions = some t) : m.ReachableWhen allowed t := by
  induction actions generalizing s with
  | nil =>
    cases Option.some.inj hr
    exact h
  | cons a rest ih =>
    obtain ⟨next, hstep, hr⟩ := Option.bind_eq_some_iff.mp hr
    refine ih (h.next (every s a hs) hstep) (fun s b t hb => stays s b t (List.mem_cons_of_mem a hb)) ?_ hr
    exact stays s a next List.mem_cons_self hs hstep

end Transition.Machine
