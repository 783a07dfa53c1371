import Mathlib.Data.List.Induction

/-!
# Paths of a step relation

A finite path of a relation between states that is labelled with events, kept with the
state before and after each event, and the induction rules for what a path preserves.
-/

namespace Transition

/-- One step of a path. -/
structure Step (σ ε : Type*) where
  before : σ
  event : ε
  after : σ

variable {σ ε : Type*} {step : σ → ε → σ → Prop}

/-- A path from a state to a state. -/
inductive Path (step : σ → ε → σ → Prop) : σ → List (Step σ ε) → σ → Prop
  | nil (s : σ) : Path step s [] s
  | cons {s t u : σ} {e : ε} {trace : List (Step σ ε)} :
      step s e t → Path step t trace u → Path step s (⟨s, e, t⟩ :: trace) u

namespace Path

theorem append {s t u : σ} {trace later : List (Step σ ε)} (h : Path step s trace t)
    (hlater : Path step t later u) : Path step s (trace ++ later) u := by
  induction h with
  | nil s => exact hlater
  | cons hstep _ ih => exact .cons hstep (ih hlater)

theorem snoc {s t u : σ} {e : ε} {trace : List (Step σ ε)} (h : Path step s trace t)
    (hstep : step t e u) : Path step s (trace ++ [⟨t, e, u⟩]) u :=
  h.append (.cons hstep (.nil u))

/-- A path can be cut at any place of its trace. -/
theorem of_append {s u : σ} {trace later : List (Step σ ε)}
    (h : Path step s (trace ++ later) u) :
    ∃ t, Path step s trace t ∧ Path step t later u := by
  induction trace generalizing s with
  | nil => exact ⟨s, .nil s, h⟩
  | cons first trace ih =>
      cases h with
      | cons hstep hrest =>
          obtain ⟨t, htrace, hlater⟩ := ih hrest
          exact ⟨t, .cons hstep htrace, hlater⟩

/-- A path can be cut around any step of its trace. -/
theorem of_append_cons {s u : σ} {x : Step σ ε} {trace later : List (Step σ ε)}
    (h : Path step s (trace ++ x :: later) u) :
    Path step s trace x.before ∧ step x.before x.event x.after ∧ Path step x.after later u := by
  obtain ⟨t, htrace, hrest⟩ := h.of_append
  cases hrest with
  | cons hstep hlater => exact ⟨htrace, hstep, hlater⟩

/-- Induction on the length of a path, its last step taken off. -/
theorem snoc_induction {s : σ} {P : List (Step σ ε) → σ → Prop} (hnil : P [] s)
    (hsnoc : ∀ trace t e u, Path step s trace t → P trace t → step t e u →
      P (trace ++ [⟨t, e, u⟩]) u) {trace : List (Step σ ε)} {t : σ} (h : Path step s trace t) :
    P trace t := by
  induction trace using List.reverseRecOn generalizing t with
  | nil =>
      cases h
      exact hnil
  | append_singleton trace last ih =>
      obtain ⟨middle, htrace, hlast⟩ := h.of_append
      cases hlast with
      | cons hstep hrest =>
          cases hrest
          exact hsnoc trace middle _ _ htrace (ih htrace) hstep

/-- What every step preserves holds at the end of a path. -/
theorem invariant {P : σ → Prop} (hstep : ∀ s e t, P s → step s e t → P t) {s t : σ}
    {trace : List (Step σ ε)} (h : Path step s trace t) (hs : P s) : P t := by
  induction h with
  | nil s => exact hs
  | cons hfirst _ ih => exact ih (hstep _ _ _ hs hfirst)

/-- What every step preserves holds before each step of a path. -/
theorem invariant_before {P : σ → Prop} (hstep : ∀ s e t, P s → step s e t → P t) {s t : σ}
    {trace : List (Step σ ε)} (h : Path step s trace t) (hs : P s) :
    ∀ x ∈ trace, P x.before ∧ step x.before x.event x.after := by
  induction h with
  | nil s => exact fun x hx => (by cases hx)
  | cons hfirst _ ih =>
      intro x hx
      rcases List.mem_cons.mp hx with rfl | hx
      · exact ⟨hs, hfirst⟩
      · exact ih (hstep _ _ _ hs hfirst) x hx

/-- A path whose steps all satisfy a condition is a path of the restricted relation. -/
theorem restrict {extra : σ → ε → σ → Prop} {s t : σ} {trace : List (Step σ ε)}
    (h : Path step s trace t) (hextra : ∀ x ∈ trace, extra x.before x.event x.after) :
    Path (fun s e t => extra s e t ∧ step s e t) s trace t := by
  induction h with
  | nil s => exact .nil s
  | cons hfirst _ ih =>
      rw [List.forall_mem_cons] at hextra
      exact .cons ⟨hextra.1, hfirst⟩ (ih hextra.2)

end Path

end Transition
