import RrPython.Foundation.Runs

/-!
# Linearization — fine-grained runs as runs of an atomic machine

An operation of the atomic machine takes effect at one step of the fine-grained run: `commits s c e`
names it, from the state before the step and a history `c`, if the event `e` is such a step.
`committed` collects the operations of a run in the order in which they take effect.  If each step is
answered by the operation that it commits, or by none, the atomic machine has a run of just these.
-/

namespace RrPython
namespace Foundation

variable {σ τ ε ω γ φ ψ : Type*}

/-- The operations that take effect in a run. -/
def committed (step : σ → ε → Except φ σ) (advance : σ → γ → ε → γ) (commits : σ → γ → ε → Option ω) :
    σ → γ → List ε → List ω
  | _, _, [] => []
  | s, c, e :: es =>
      (commits s c e).toList ++
        match step s e with
        | .ok s' => committed step advance commits s' (advance s c e) es
        | .error _ => []

theorem run_append_ok {step : σ → ε → Except φ σ} {es es' : List ε} {s s' s'' : σ}
    (h : run step s es = .ok s') (h' : run step s' es' = .ok s'') :
    run step s (es ++ es') = .ok s'' := by
  induction es generalizing s with
  | nil =>
      cases h
      exact h'
  | cons e es ih =>
      obtain ⟨s₁, hs, hrest⟩ := run_cons_ok.1 h
      exact run_cons_ok.2 ⟨s₁, hs, ih hrest⟩

theorem run_committed {step : σ → ε → Except φ σ} (advance : σ → γ → ε → γ)
    (commits : σ → γ → ε → Option ω) (atomic : τ → ω → Except ψ τ) {R : σ → γ → τ → Prop}
    (hstep : ∀ s c t e s', R s c t → step s e = .ok s' →
      ∃ t', run atomic t (commits s c e).toList = .ok t' ∧ R s' (advance s c e) t') {es : List ε} :
    ∀ {s s' : σ} {c : γ} {t : τ}, R s c t → run step s es = .ok s' →
      ∃ c' t', run atomic t (committed step advance commits s c es) = .ok t' ∧ R s' c' t' := by
  induction es with
  | nil =>
      intro s s' c t hR hrun
      cases hrun
      exact ⟨c, t, rfl, hR⟩
  | cons e es ih =>
      intro s s' c t hR hrun
      obtain ⟨s₁, hs, hrest⟩ := run_cons_ok.1 hrun
      obtain ⟨t₁, ht₁, hR₁⟩ := hstep s c t e s₁ hR hs
      obtain ⟨c', t', ht', hR'⟩ := ih hR₁ hrest
      refine ⟨c', t', ?_, hR'⟩
      have hcommitted : committed step advance commits s c (e :: es) = (commits s c e).toList ++
          committed step advance commits s₁ (advance s c e) es := by
        simp only [committed, hs]
      rw [hcommitted]
      exact run_append_ok ht₁ ht'

end Foundation
end RrPython
