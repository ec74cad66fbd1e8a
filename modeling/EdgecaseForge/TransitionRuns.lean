import Mathlib.Logic.Relation

namespace Transition

/-- A guarded step function: `step s a` is the state after `a` where `a` is enabled in `s`. -/
structure Machine (σ : Type*) (α : Type*) where
  init : σ → Prop
  step : σ → α → Option σ

namespace Machine

variable {σ α : Type*} (m : Machine σ α)

def Next (allowed : σ → α → Prop) (s t : σ) : Prop :=
  ∃ a, allowed s a ∧ m.step s a = some t

/-- `t` comes after `s` in a run all of whose steps are allowed where they are taken. -/
def LeadsTo (allowed : σ → α → Prop) : σ → σ → Prop :=
  Relation.ReflTransGen (m.Next allowed)

def ReachableWhen (allowed : σ → α → Prop) (s : σ) : Prop :=
  ∃ start, m.init start ∧ m.LeadsTo allowed start s

abbrev Reachable : σ → Prop :=
  m.ReachableWhen fun _ _ => True

def run (s : σ) : List α → Option σ
  | [] => some s
  | a :: rest => (m.step s a).bind fun t => run t rest

variable {m} {allowed : σ → α → Prop} {s t : σ}

theorem ReachableWhen.next {a : α} (h : m.ReachableWhen allowed s) (ha : allowed s a)
    (hs : m.step s a = some t) : m.ReachableWhen allowed t := by
  obtain ⟨start, hi, hr⟩ := h
  exact ⟨start, hi, hr.tail ⟨a, ha, hs⟩⟩

/-- A property of the starting states that every allowed step keeps holds along every run.
The step may use that the state it leaves is itself reachable. -/
theorem ReachableWhen.invariant (inv : σ → Prop) (start : ∀ s, m.init s → inv s)
    (preserved : ∀ s a t, m.ReachableWhen allowed s → inv s → allowed s a →
      m.step s a = some t → inv t)
    (h : m.ReachableWhen allowed s) : inv s := by
  obtain ⟨first, hi, hr⟩ := h
  have both : m.ReachableWhen allowed s ∧ inv s := by
    induction hr with
    | refl => exact ⟨⟨first, hi, .refl⟩, start first hi⟩
    | tail _ hn ih =>
      obtain ⟨a, ha, hs⟩ := hn
      exact ⟨ih.1.next ha hs, preserved _ a _ ih.1 ih.2 ha hs⟩
  exact both.2

theorem ReachableWhen.mono {wider : σ → α → Prop} (weaker : ∀ s a, allowed s a → wider s a)
    (h : m.ReachableWhen allowed s) : m.ReachableWhen wider s := by
  obtain ⟨start, hi, hr⟩ := h
  refine ⟨start, hi, Relation.ReflTransGen.mono ?_ _ _ hr⟩
  rintro _ _ ⟨a, ha, hs⟩
  exact ⟨a, weaker _ a ha, hs⟩

theorem ReachableWhen.reachable (h : m.ReachableWhen allowed s) : m.Reachable s :=
  h.mono fun _ _ _ => trivial

theorem ReachableWhen.leadsTo (h : m.ReachableWhen allowed s) (hl : m.LeadsTo allowed s t) :
    m.ReachableWhen allowed t := by
  obtain ⟨start, hi, hr⟩ := h
  exact ⟨start, hi, hr.trans hl⟩

/-- What every allowed step out of a reachable state keeps, every later state keeps. -/
theorem ReachableWhen.stable (keeps : σ → Prop)
    (preserved : ∀ s a t, m.ReachableWhen allowed s → keeps s → allowed s a →
      m.step s a = some t → keeps t)
    (h : m.ReachableWhen allowed s) (hk : keeps s) (hl : m.LeadsTo allowed s t) : keeps t := by
  have both : m.ReachableWhen allowed t ∧ keeps t := by
    induction hl with
    | refl => exact ⟨h, hk⟩
    | tail _ hn ih =>
      obtain ⟨a, ha, hs⟩ := hn
      exact ⟨ih.1.next ha hs, preserved _ a _ ih.1 ih.2 ha hs⟩
  exact both.2

theorem Reachable.run {actions : List α} (h : m.Reachable s) (hr : m.run s actions = some t) :
    m.Reachable t := by
  induction actions generalizing s with
  | nil =>
    cases Option.some.inj hr
    exact h
  | cons a rest ih =>
    obtain ⟨next, hs, hr⟩ := Option.bind_eq_some_iff.mp hr
    exact ih (h.next trivial hs) hr

end Machine

end Transition
