import Mathlib.Logic.Basic
import Mathlib.Tactic.TypeStar

/-!
# Runs — finite runs of a partial step function

`run step s es` executes the events `es` from `s` and stops at the first one whose step fails.
`AllSteps step P s es` says that every step the run takes meets `P`, a condition on the state before
the step and on the event, and `Throughout step P s es` that every state it passes through meets `P`.
`run_preserves` is the induction rule: it carries a relation between the
state and a history `c` computed from the events alone along a whole run.
-/

namespace RrPython
namespace Foundation

variable {σ ε φ γ : Type*}

def run (step : σ → ε → Except φ σ) : σ → List ε → Except φ σ
  | s, [] => .ok s
  | s, e :: es =>
      match step s e with
      | .ok s' => run step s' es
      | .error f => .error f

def AllSteps (step : σ → ε → Except φ σ) (P : σ → ε → Prop) : σ → List ε → Prop
  | _, [] => True
  | s, e :: es => P s e ∧ ∀ s', step s e = .ok s' → AllSteps step P s' es

def Throughout (step : σ → ε → Except φ σ) (P : σ → Prop) : σ → List ε → Prop
  | s, [] => P s
  | s, e :: es => P s ∧ ∀ s', step s e = .ok s' → Throughout step P s' es

/-- How many steps of the run meet `P`. -/
def countSteps (step : σ → ε → Except φ σ) (P : σ → ε → Prop) [∀ s e, Decidable (P s e)] :
    σ → List ε → Nat
  | _, [] => 0
  | s, e :: es =>
      (if P s e then 1 else 0) +
        match step s e with
        | .ok s' => countSteps step P s' es
        | .error _ => 0

variable {step : σ → ε → Except φ σ}

/-! ## Composition -/

theorem run_cons_ok {s s'' : σ} {e : ε} {es : List ε} :
    run step s (e :: es) = .ok s'' ↔ ∃ s', step s e = .ok s' ∧ run step s' es = .ok s'' := by
  cases h : step s e with
  | ok s' =>
      simp [run, h]
  | error f =>
      simp [run, h]

theorem countSteps_cons_ok {P : σ → ε → Prop} [∀ s e, Decidable (P s e)] {s s' : σ} {e : ε}
    {es : List ε} (hs : step s e = .ok s') :
    countSteps step P s (e :: es) = (if P s e then 1 else 0) + countSteps step P s' es := by
  simp only [countSteps, hs]

/-! ## Induction rules -/

/-- If each step that meets `P` keeps `I`, with the history `c` advanced by the event, then a run
whose steps all meet `P` keeps it. -/
theorem run_preserves {P : σ → ε → Prop} {I : σ → γ → Prop} (advance : γ → ε → γ)
    (hstep : ∀ s c e s', I s c → P s e → step s e = .ok s' → I s' (advance c e)) :
    ∀ {es : List ε} {s s' : σ} {c : γ}, I s c → AllSteps step P s es →
      run step s es = .ok s' → I s' (es.foldl advance c) := by
  intro es
  induction es with
  | nil =>
      intro s s' c hI _ hrun
      cases hrun
      exact hI
  | cons e es ih =>
      intro s s' c hI hP hrun
      rcases run_cons_ok.1 hrun with ⟨s₁, h₁, hrest⟩
      exact ih (hstep s c e s₁ hI hP.1 h₁) (hP.2 s₁ h₁) hrest

/-- Where the steps keep `I` as in `run_preserves`, a run stops only with what a step stops with under
`I`. -/
theorem run_stops {P : σ → ε → Prop} {I : σ → γ → Prop} {Q : φ → Prop} (advance : γ → ε → γ)
    (hstep : ∀ s c e s', I s c → P s e → step s e = .ok s' → I s' (advance c e))
    (hstop : ∀ s c e f, I s c → P s e → step s e = .error f → Q f) :
    ∀ {es : List ε} {s : σ} {c : γ} {f : φ}, I s c → AllSteps step P s es →
      run step s es = .error f → Q f := by
  intro es
  induction es with
  | nil =>
      intro s c f _ _ hrun
      cases hrun
  | cons e es ih =>
      intro s c f hI hP hrun
      cases hs : step s e with
      | ok s' =>
          rw [run, hs] at hrun
          exact ih (hstep s c e s' hI hP.1 hs) (hP.2 s' hs) hrun
      | error f' =>
          rw [run, hs] at hrun
          cases hrun
          exact hstop s c e f hI hP.1 hs

theorem allSteps_true {es : List ε} : ∀ {s : σ}, AllSteps step (fun _ _ => True) s es := by
  induction es with
  | nil =>
      intro s
      trivial
  | cons e es ih =>
      intro s
      exact ⟨trivial, fun s' _ => ih⟩

theorem allSteps_cons {P : σ → ε → Prop} {s s' : σ} {e : ε} {es : List ε} (hs : step s e = .ok s')
    (hP : P s e) (hrest : AllSteps step P s' es) : AllSteps step P s (e :: es) := by
  refine ⟨hP, fun s'' hs'' => ?_⟩
  rw [hs] at hs''
  cases hs''
  exact hrest

/-- `run_preserves` without a history and without a condition on the steps. -/
theorem run_invariant {I : σ → Prop}
    (hstep : ∀ s e s', I s → step s e = .ok s' → I s') {es : List ε} {s s' : σ}
    (hI : I s) (hrun : run step s es = .ok s') : I s' := by
  exact run_preserves (I := fun s _ => I s) (fun (c : Unit) _ => c)
    (fun s _ e s' h _ h' => hstep s e s' h h') (c := ()) hI allSteps_true hrun

/-- If each step keeps `I`, with the event added to the past ones, then a run keeps it. -/
theorem run_traced {I : σ → List ε → Prop}
    (hstep : ∀ s past e s', I s past → step s e = .ok s' → I s' (past ++ [e])) {es : List ε} :
    ∀ {s s' : σ} {past : List ε}, I s past → run step s es = .ok s' → I s' (past ++ es) := by
  induction es with
  | nil =>
      intro s s' past hI hrun
      cases hrun
      simpa using hI
  | cons e es ih =>
      intro s s' past hI hrun
      rcases run_cons_ok.1 hrun with ⟨s₁, h₁, hrest⟩
      simpa using ih (hstep s past e s₁ hI h₁) hrest

/-! ## Every state of a run -/

theorem Throughout.mono {P Q : σ → Prop} (hPQ : ∀ s, P s → Q s) {es : List ε} :
    ∀ {s : σ}, Throughout step P s es → Throughout step Q s es := by
  induction es with
  | nil =>
      intro s h
      exact hPQ s h
  | cons e es ih =>
      intro s h
      exact ⟨hPQ s h.1, fun s' hs => ih (h.2 s' hs)⟩

theorem Throughout.start {P : σ → Prop} {s : σ} {es : List ε} (h : Throughout step P s es) : P s := by
  cases es with
  | nil =>
      exact h
  | cons e es =>
      exact h.1

/-- The state that a run within `P` ends in meets `P`. -/
theorem Throughout.of_run {P : σ → Prop} {es : List ε} :
    ∀ {s s' : σ}, Throughout step P s es → run step s es = .ok s' → P s' := by
  induction es with
  | nil =>
      intro s s' h hrun
      cases hrun
      exact h
  | cons e es ih =>
      intro s s' h hrun
      rcases run_cons_ok.1 hrun with ⟨s₁, h₁, hrest⟩
      exact ih (h.2 s₁ h₁) hrest

/-- An invariant may be added to what holds throughout a run. -/
theorem Throughout.and_invariant {I P : σ → Prop}
    (hstep : ∀ s e s', I s → step s e = .ok s' → I s') {es : List ε} :
    ∀ {s : σ}, I s → Throughout step P s es → Throughout step (fun s => I s ∧ P s) s es := by
  induction es with
  | nil =>
      intro s hI h
      exact ⟨hI, h⟩
  | cons e es ih =>
      intro s hI h
      exact ⟨⟨hI, h.1⟩, fun s' hs => ih (hstep s e s' hI hs) (h.2 s' hs)⟩

/-- If each step that meets `C` keeps `I`, then a run whose steps all meet `C` stays within `I`. -/
theorem throughout_of_allSteps {C : σ → ε → Prop} {I : σ → Prop}
    (hstep : ∀ s e s', I s → C s e → step s e = .ok s' → I s') {es : List ε} :
    ∀ {s : σ}, I s → AllSteps step C s es → Throughout step I s es := by
  induction es with
  | nil =>
      intro s hI _
      exact hI
  | cons e es ih =>
      intro s hI hC
      exact ⟨hI, fun s' hs => ih (hstep s e s' hI hC.1 hs) (hC.2 s' hs)⟩

/-- A run stays within `P` exactly if its steps meet `C`, when within an invariant that gives `P` the
steps that meet `C` keep the invariant, and every other step leaves `P`. -/
theorem throughout_iff_allSteps {C : σ → ε → Prop} {I P : σ → Prop} (hP : ∀ s, I s → P s)
    (hkeep : ∀ s e s', I s → C s e → step s e = .ok s' → I s')
    (hleave : ∀ s e, I s → ¬C s e → ∃ s', step s e = .ok s' ∧ ¬P s') {es : List ε} :
    ∀ {s : σ}, I s → (Throughout step P s es ↔ AllSteps step C s es) := by
  induction es with
  | nil =>
      intro s hI
      exact ⟨fun _ => trivial, fun _ => hP s hI⟩
  | cons e es ih =>
      intro s hI
      constructor
      · rintro ⟨_, hrest⟩
        -- the step out of `P` would lead to a state of the run that is not in `P`
        have hC : C s e := by
          refine Classical.byContradiction fun hC => ?_
          rcases hleave s e hI hC with ⟨s', hs, hnot⟩
          apply hnot
          cases es with
          | nil =>
              exact hrest s' hs
          | cons e' es =>
              exact (hrest s' hs).1
        exact ⟨hC, fun s' hs => (ih (hkeep s e s' hI hC hs)).1 (hrest s' hs)⟩
      · rintro ⟨hC, hrest⟩
        exact ⟨hP s hI, fun s' hs => (ih (hkeep s e s' hI hC hs)).2 (hrest s' hs)⟩

/-! ## Bounded counts -/

/-- A measure that the steps of one kind lower and no other step raises bounds their number. -/
theorem countSteps_le {P : σ → ε → Prop} [∀ s e, Decidable (P s e)] {I : σ → Prop} {M : σ → Nat}
    (hlower : ∀ s e s', I s → P s e → step s e = .ok s' → I s' → M s' < M s)
    (hkeep : ∀ s e s', I s → ¬P s e → step s e = .ok s' → I s' → M s' ≤ M s) {es : List ε} :
    ∀ {s s' : σ}, Throughout step I s es → run step s es = .ok s' →
      countSteps step P s es + M s' ≤ M s := by
  induction es with
  | nil =>
      intro s s' _ hrun
      cases hrun
      simp [countSteps]
  | cons e es ih =>
      intro s s' hI hrun
      obtain ⟨s₁, hs, hrest⟩ := run_cons_ok.1 hrun
      have hI₁ := hI.2 s₁ hs
      have hstart : I s₁ := hI₁.start
      have htail := ih hI₁ hrest
      rw [countSteps_cons_ok hs]
      by_cases hP : P s e
      · have hless := hlower s e s₁ hI.1 hP hs hstart
        rw [if_pos hP]
        omega
      · have hle := hkeep s e s₁ hI.1 hP hs hstart
        rw [if_neg hP]
        omega

end Foundation
end RrPython
