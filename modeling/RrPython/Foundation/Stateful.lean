import Mathlib.Tactic.TypeStar

/-!
# Stateful — computations that change a state and may stop with an error

`Ends x s post exc` is the outcome of the computation `x` started in `s`: it returns with `post`, or
stops with `exc`, which speaks about the error and the state at that moment.  The rules follow the
structure of the computation.  `forEach` is the loop over a list with an index.  `Refines` relates a
computation to one that sees only a part of its state.
-/

namespace RrPython
namespace Foundation

variable {ε σ α β : Type}

def Ends (x : EStateM ε σ α) (s : σ) (post : α → σ → Prop) (exc : ε → σ → Prop) : Prop :=
  match x s with
  | .ok a s' => post a s'
  | .error e s' => exc e s'

/-- The state in which a computation ends, whether it returns or not. -/
def endState : EStateM.Result ε σ α → σ
  | .ok _ s => s
  | .error _ s => s

/-! ## Evaluation -/

section Evaluation

variable {x : EStateM ε σ α} {f : α → EStateM ε σ β} {s s' : σ}

theorem bind_of_ok {a : α} (h : x s = .ok a s') : (x >>= f) s = f a s' := by
  simp [bind, EStateM.bind, h]

theorem bind_of_error {e : ε} (h : x s = .error e s') : (x >>= f) s = .error e s' := by
  simp [bind, EStateM.bind, h]

theorem get_bind {f : σ → EStateM ε σ β} : (get >>= f) s = f s s := rfl

theorem set_bind {f : PUnit → EStateM ε σ β} : (set s' >>= f) s = f ⟨⟩ s' := rfl

theorem modify_bind {g : σ → σ} {f : PUnit → EStateM ε σ β} :
    (modify g >>= f) s = f ⟨⟩ (g s) := rfl

end Evaluation

/-! ## Rules -/

section Rules

variable {post : α → σ → Prop} {exc : ε → σ → Prop} {s : σ}

theorem Ends.mono {post' : α → σ → Prop} {exc' : ε → σ → Prop} {x : EStateM ε σ α}
    (h : Ends x s post exc) (hpost : ∀ a s', post a s' → post' a s')
    (hexc : ∀ e s', exc e s' → exc' e s') : Ends x s post' exc' := by
  unfold Ends at h ⊢
  cases hx : x s with
  | ok a s' =>
      rw [hx] at h
      exact hpost a s' h
  | error e s' =>
      rw [hx] at h
      exact hexc e s' h

theorem Ends.and {post' : α → σ → Prop} {x : EStateM ε σ α} (h : Ends x s post exc)
    (h' : Ends x s post' fun _ _ => True) : Ends x s (fun a s' => post a s' ∧ post' a s') exc := by
  unfold Ends at h h' ⊢
  cases hx : x s with
  | ok a s' =>
      rw [hx] at h h'
      exact ⟨h, h'⟩
  | error e s' =>
      rw [hx] at h
      exact h

theorem Ends.bind {next : β → σ → Prop} {x : EStateM ε σ α} {f : α → EStateM ε σ β}
    (h : Ends x s post exc) (hf : ∀ a s', post a s' → Ends (f a) s' next exc) :
    Ends (x >>= f) s next exc := by
  unfold Ends at h
  cases hx : x s with
  | ok a s' =>
      rw [hx] at h
      have hnext := hf a s' h
      unfold Ends at hnext ⊢
      rwa [bind_of_ok hx]
  | error e s' =>
      rw [hx] at h
      unfold Ends
      rwa [bind_of_error hx]

theorem Ends.of_eq_ok {x : EStateM ε σ α} {a : α} {s' : σ} (hx : x s = .ok a s') (h : post a s') :
    Ends x s post exc := by
  unfold Ends
  rwa [hx]

theorem Ends.of_eq_error {x : EStateM ε σ α} {e : ε} {s' : σ} (hx : x s = .error e s')
    (h : exc e s') : Ends x s post exc := by
  unfold Ends
  rwa [hx]

theorem Ends.of_ok {x : EStateM ε σ α} (h : Ends x s post exc) {a : α} {s' : σ}
    (hx : x s = .ok a s') : post a s' := by
  unfold Ends at h
  rwa [hx] at h

theorem Ends.of_error {x : EStateM ε σ α} (h : Ends x s post exc) {e : ε} {s' : σ}
    (hx : x s = .error e s') : exc e s' := by
  unfold Ends at h
  rwa [hx] at h

end Rules

/-! ## Loops -/

/-- `for i, a in enumerate(as, i): f(i, a)` -/
def forEach (f : Nat → α → EStateM ε σ Unit) : Nat → List α → EStateM ε σ Unit
  | _, [] => pure ()
  | i, a :: as => do
      f i a
      forEach f (i + 1) as

/-- An invariant of the loop that speaks about the number of elements dealt with. -/
theorem Ends.forEach {I : Nat → σ → Prop} {exc : ε → σ → Prop} {f : Nat → α → EStateM ε σ Unit}
    {all : List α}
    (hstep : ∀ i a s, all[i]? = some a → I i s → Ends (f i a) s (fun _ s' => I (i + 1) s') exc) :
    ∀ {rest : List α} {i : Nat} {s : σ}, all.drop i = rest → I i s →
      Ends (forEach f i rest) s (fun _ s' => I (i + rest.length) s') exc := by
  intro rest
  induction rest with
  | nil =>
      intro i s _ hI
      exact hI
  | cons a rest ih =>
      intro i s hrest hI
      have hget : all[i]? = some a := by
        rw [← List.head?_drop, hrest]
        rfl
      have htail : all.drop (i + 1) = rest := by
        rw [← List.tail_drop, hrest]
        rfl
      refine (hstep i a s hget hI).bind fun _ s' hI' => ?_
      have hlen : i + (a :: rest).length = i + 1 + rest.length := by
        simp only [List.length_cons]
        omega
      rw [hlen]
      exact ih htail hI'

/-! ## A part of the state -/

section Refinement

variable {τ : Type}

/-- The same outcome with only a part of the state kept. -/
def viewResult (view : τ → σ) : EStateM.Result ε τ α → EStateM.Result ε σ α
  | .ok a s => .ok a (view s)
  | .error e s => .error e (view s)

/-- On the part of its state that `view` shows, `x` does what `y` does. -/
def Refines (view : τ → σ) (x : EStateM ε τ α) (y : EStateM ε σ α) : Prop :=
  ∀ s, viewResult view (x s) = y (view s)

variable {view : τ → σ}

theorem Refines.pure (a : α) : Refines view (pure a : EStateM ε τ α) (pure a : EStateM ε σ α) :=
  fun _ => rfl

theorem Refines.throw (e : ε) : Refines view (throw e : EStateM ε τ α) (throw e : EStateM ε σ α) :=
  fun _ => rfl

theorem Refines.bind {x : EStateM ε τ α} {y : EStateM ε σ α} {f : α → EStateM ε τ β}
    {g : α → EStateM ε σ β} (h : Refines view x y) (hf : ∀ a, Refines view (f a) (g a)) :
    Refines view (x >>= f) (y >>= g) := by
  intro s
  have hs := h s
  cases hx : x s with
  | ok a s' =>
      rw [hx] at hs
      rw [bind_of_ok hx, bind_of_ok hs.symm]
      exact hf a s'
  | error e s' =>
      rw [hx] at hs
      rw [bind_of_error hx, bind_of_error hs.symm]
      rfl

/-- One returns where the other does. -/
theorem Refines.ok_iff {x : EStateM ε τ α} {y : EStateM ε σ α} (h : Refines view x y) {s : τ} {a : α}
    {t : σ} : y (view s) = .ok a t ↔ ∃ s', x s = .ok a s' ∧ view s' = t := by
  rw [← h s]
  cases x s with
  | ok b s' =>
      constructor
      · intro heq
        cases heq
        exact ⟨s', rfl, rfl⟩
      · rintro ⟨_, heq, rfl⟩
        cases heq
        rfl
  | error e s' =>
      simp [viewResult]

end Refinement

end Foundation
end RrPython
