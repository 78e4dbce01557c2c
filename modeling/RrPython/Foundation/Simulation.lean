import RrPython.Foundation.Outcome

/-!
# Simulation — one step function that follows another

`Simulates allowed R step₁ step₂` says that from related states the second step function does what the
first one does, event by event, and stops with the same error; only the errors that `allowed` admits
are the first one's own.  `run_filter` is for runs of one step function in which some events are hidden:
if hidden events keep the relation, the run without them ends in a related state.
-/

namespace RrPython
namespace Foundation

variable {σ τ ε φ : Type*}

def Simulates (allowed : φ → Prop) (R : σ → τ → Prop) (step₁ : σ → ε → Except φ σ)
    (step₂ : τ → ε → Except φ τ) : Prop :=
  ∀ s t e, R s t → Meets (fun f => allowed f ∨ step₂ t e = .error f)
    (fun s' => ∃ t', step₂ t e = .ok t' ∧ R s' t') (step₁ s e)

section Simulates

variable {allowed : φ → Prop} {R : σ → τ → Prop} {step₁ : σ → ε → Except φ σ}
  {step₂ : τ → ε → Except φ τ}

theorem Simulates.run (h : Simulates allowed R step₁ step₂) (es : List ε) :
    Simulates allowed R (fun s (_ : Unit) => run step₁ s es) (fun t _ => run step₂ t es) := by
  induction es with
  | nil =>
      intro s t _ hR
      exact ⟨t, rfl, hR⟩
  | cons e es ih =>
      intro s t _ hR
      have hstep := h s t e hR
      cases hs : step₁ s e with
      | ok s' =>
          rw [hs] at hstep
          obtain ⟨t', ht, hR'⟩ := hstep
          simpa [Foundation.run, hs, ht] using ih s' t' () hR'
      | error f =>
          rw [hs] at hstep
          rcases hstep with hallowed | ht
          · simp [Foundation.run, hs, hallowed]
          · simp [Foundation.run, hs, ht]

theorem Simulates.run_ok (h : Simulates allowed R step₁ step₂) {es : List ε} {s s' : σ} {t : τ}
    (hR : R s t) (hrun : Foundation.run step₁ s es = .ok s') :
    ∃ t', Foundation.run step₂ t es = .ok t' ∧ R s' t' :=
  (h.run es s t () hR).of_ok hrun

/-- The induction rule for a property `J` of related states, of the number of steps so far that met `P`
and of a history advanced by the events, along runs of the first step function whose steps all meet
`C`. -/
theorem Simulates.run_preserves {γ : Type*} (h : Simulates allowed R step₁ step₂) {C P : σ → ε → Prop}
    [∀ s e, Decidable (P s e)] (advance : γ → ε → γ) {J : Nat → γ → σ → τ → Prop}
    (hstep : ∀ n c s t e s' t', R s t → J n c s t → C s e → step₁ s e = .ok s' →
      step₂ t e = .ok t' → R s' t' → J (n + if P s e then 1 else 0) (advance c e) s' t')
    {es : List ε} :
    ∀ {n : Nat} {c : γ} {s s' : σ} {t : τ}, R s t → J n c s t → AllSteps step₁ C s es →
      Foundation.run step₁ s es = .ok s' →
      ∃ t', Foundation.run step₂ t es = .ok t' ∧ R s' t' ∧
        J (n + countSteps step₁ P s es) (es.foldl advance c) s' t' := by
  induction es with
  | nil =>
      intro n c s s' t hR hJ _ hrun
      cases hrun
      exact ⟨t, rfl, hR, hJ⟩
  | cons e es ih =>
      intro n c s s' t hR hJ hC hrun
      obtain ⟨s₁, hs, hrest⟩ := run_cons_ok.1 hrun
      obtain ⟨t₁, ht, hR₁⟩ := (h s t e hR).of_ok hs
      have hJ₁ := hstep n c s t e s₁ t₁ hR hJ hC.1 hs ht hR₁
      obtain ⟨t', ht', hR', hJ'⟩ := ih hR₁ hJ₁ (hC.2 s₁ hs) hrest
      refine ⟨t', run_cons_ok.2 ⟨t₁, ht, ht'⟩, hR', ?_⟩
      rw [countSteps_cons_ok hs, ← Nat.add_assoc]
      exact hJ'

end Simulates

/-! ## Hidden events -/

section Hidden

variable {step : σ → ε → Except φ σ} {P : ε → Prop} {R : σ → σ → Prop}

/-- What the visible events do to one of two related states they do to the other, and the hidden events
keep the relation: then a run can be taken without them. -/
theorem run_filter (visible : ε → Prop) [DecidablePred visible]
    (hhidden : ∀ s t e s', R s t → P e → ¬visible e → step s e = .ok s' → R s' t)
    (hvisible : ∀ s t e s', R s t → P e → visible e → step s e = .ok s' →
      ∃ t', step t e = .ok t' ∧ R s' t') {es : List ε} :
    ∀ {s s' t : σ}, R s t → (∀ e ∈ es, P e) → run step s es = .ok s' →
      ∃ t', run step t (es.filter visible) = .ok t' ∧ R s' t' := by
  induction es with
  | nil =>
      intro s s' t hR _ hrun
      cases hrun
      exact ⟨t, rfl, hR⟩
  | cons e es ih =>
      intro s s' t hR hP hrun
      obtain ⟨s₁, hs, hrest⟩ := run_cons_ok.1 hrun
      have hPe := hP e List.mem_cons_self
      have hPes : ∀ e' ∈ es, P e' := fun e' he' => hP e' (List.mem_cons_of_mem e he')
      by_cases he : visible e
      · obtain ⟨t₁, ht, hR₁⟩ := hvisible s t e s₁ hR hPe he hs
        obtain ⟨t', ht', hR'⟩ := ih hR₁ hPes hrest
        refine ⟨t', ?_, hR'⟩
        rw [List.filter_cons_of_pos (by simpa using he)]
        exact run_cons_ok.2 ⟨t₁, ht, ht'⟩
      · rw [List.filter_cons_of_neg (by simpa using he)]
        exact ih (hhidden s t e s₁ hR hPe he hs) hPes hrest

/-- Renaming events that the step function does not tell apart. -/
theorem run_map {f : ε → ε} (hf : ∀ s e, step s (f e) = step s e) (es : List ε) :
    ∀ s, run step s (es.map f) = run step s es := by
  induction es with
  | nil =>
      intro s
      rfl
  | cons e es ih =>
      intro s
      simp only [List.map_cons, run, hf, ih]

end Hidden

end Foundation
end RrPython
