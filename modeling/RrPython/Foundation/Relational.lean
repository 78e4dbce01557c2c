import RrPython.Foundation.Stateful

/-!
# Relational — two computations that end in the same way

`Alike post exc` compares two outcomes: both are returns, which `post` relates, or both are the same
error, in states that `exc` relates.  The two computations may have different states and different
steps; the rules go through both at once, step by step and, for two loops over one list, turn by turn.
`SameUnless marked` compares two computations on one state that are the same until a mark is set.
-/

namespace RrPython
namespace Foundation

variable {ε σ τ α β γ δ : Type}

/-- The first of the elements that are left, and those behind it. -/
theorem drop_eq_cons {all rest : List α} {i : Nat} {a : α} (h : all.drop i = a :: rest) :
    all[i]? = some a ∧ all.drop (i + 1) = rest := by
  constructor
  · rw [← List.head?_drop, h]
    rfl
  · rw [← List.tail_drop, h]
    rfl

/-! ## Two outcomes -/

def Alike (post : α → σ → β → τ → Prop) (exc : σ → τ → Prop) :
    EStateM.Result ε σ α → EStateM.Result ε τ β → Prop
  | .ok a s, .ok b t => post a s b t
  | .error e s, .error e' t => e = e' ∧ exc s t
  | _, _ => False

section Rules

variable {post : α → σ → β → τ → Prop} {exc : σ → τ → Prop} {s : σ} {t : τ}

theorem Alike.mono {post' : α → σ → β → τ → Prop} {exc' : σ → τ → Prop}
    {x : EStateM.Result ε σ α} {y : EStateM.Result ε τ β} (h : Alike post exc x y)
    (hpost : ∀ a s b t, post a s b t → post' a s b t) (hexc : ∀ s t, exc s t → exc' s t) :
    Alike post' exc' x y := by
  cases x with
  | ok a s =>
      cases y with
      | ok b t =>
          exact hpost a s b t h
      | error e t =>
          exact h
  | error e s =>
      cases y with
      | ok b t =>
          exact h
      | error e' t =>
          exact ⟨h.1, hexc s t h.2⟩

theorem Alike.bind {next : γ → σ → δ → τ → Prop} {x : EStateM ε σ α} {y : EStateM ε τ β}
    {f : α → EStateM ε σ γ} {g : β → EStateM ε τ δ} (h : Alike post exc (x s) (y t))
    (hnext : ∀ a s b t, post a s b t → Alike next exc (f a s) (g b t)) :
    Alike next exc ((x >>= f) s) ((y >>= g) t) := by
  cases hx : x s with
  | ok a s' =>
      cases hy : y t with
      | ok b t' =>
          rw [hx, hy] at h
          rw [bind_of_ok hx, bind_of_ok hy]
          exact hnext a s' b t' h
      | error e t' =>
          rw [hx, hy] at h
          exact h.elim
  | error e s' =>
      cases hy : y t with
      | ok b t' =>
          rw [hx, hy] at h
          exact h.elim
      | error e' t' =>
          rw [hx, hy] at h
          rw [bind_of_error hx, bind_of_error hy]
          exact h

/-- Where one returns, the other does. -/
theorem Alike.exists_ok {x : EStateM.Result ε σ α} {y : EStateM.Result ε τ β} (h : Alike post exc x y)
    {a : α} {s : σ} (hx : x = .ok a s) : ∃ b t, y = .ok b t ∧ post a s b t := by
  subst hx
  cases y with
  | ok b t =>
      exact ⟨b, t, rfl, h⟩
  | error e t =>
      exact h.elim

theorem Alike.exists_error {x : EStateM.Result ε σ α} {y : EStateM.Result ε τ β}
    (h : Alike post exc x y) {e : ε} {t : τ} (hy : y = .error e t) : ∃ s, x = .error e s ∧ exc s t := by
  subst hy
  cases x with
  | ok a s =>
      exact h.elim
  | error e' s =>
      exact ⟨s, congrArg (fun e => EStateM.Result.error e s) h.1, h.2⟩

/-- An invariant of two loops over the same list, which speaks about the number of elements that both
have dealt with. -/
theorem Alike.forEach {I : Nat → σ → τ → Prop} {f : Nat → α → EStateM ε σ Unit}
    {g : Nat → α → EStateM ε τ Unit} {all : List α}
    (hstep : ∀ i a s t, all[i]? = some a → I i s t →
      Alike (fun _ s' _ t' => I (i + 1) s' t') exc (f i a s) (g i a t)) :
    ∀ {rest : List α} {i : Nat} {s : σ} {t : τ}, all.drop i = rest → I i s t →
      Alike (fun _ s' _ t' => I (i + rest.length) s' t') exc (forEach f i rest s)
        (forEach g i rest t) := by
  intro rest
  induction rest with
  | nil =>
      intro i s t _ hI
      exact hI
  | cons a rest ih =>
      intro i s t hrest hI
      obtain ⟨hget, htail⟩ := drop_eq_cons hrest
      refine (hstep i a s t hget hI).bind fun _ s' _ t' hI' => ?_
      have hlen : i + (a :: rest).length = i + 1 + rest.length := by
        simp only [List.length_cons]
        omega
      rw [hlen]
      exact ih htail hI'

end Rules

/-! ## Outcomes without the state -/

/-- What the caller sees. -/
def outcome : EStateM.Result ε σ α → Except ε α
  | .ok a _ => .ok a
  | .error e _ => .error e

theorem Alike.outcome_eq {exc : σ → τ → Prop} {post : α → σ → α → τ → Prop}
    {x : EStateM.Result ε σ α} {y : EStateM.Result ε τ α} (h : Alike post exc x y)
    (hpost : ∀ a s b t, post a s b t → a = b) : outcome x = outcome y := by
  cases x with
  | ok a s =>
      cases y with
      | ok b t =>
          exact congrArg Except.ok (hpost a s b t h)
      | error e t =>
          exact h.elim
  | error e s =>
      cases y with
      | ok b t =>
          exact h.elim
      | error e' t =>
          exact congrArg Except.error h.1

theorem Alike.endState {R : σ → τ → Prop} {post : α → σ → β → τ → Prop}
    {x : EStateM.Result ε σ α} {y : EStateM.Result ε τ β} (h : Alike post R x y)
    (hpost : ∀ a s b t, post a s b t → R s t) : R (endState x) (endState y) := by
  cases x with
  | ok a s =>
      cases y with
      | ok b t =>
          exact hpost a s b t h
      | error e t =>
          exact h.elim
  | error e s =>
      cases y with
      | ok b t =>
          exact h.elim
      | error e' t =>
          exact h.2

/-! ## The same up to a mark -/

/-- The mark stays once it is set, and where it is not set in the end, `y` does what `x` does. -/
structure SameUnless (marked : σ → Prop) (x y : EStateM ε σ α) : Prop where
  keeps : ∀ s, marked s → marked (endState (x s))
  same : ∀ s, ¬marked (endState (x s)) → x s = y s

section Mark

variable {marked : σ → Prop}

theorem SameUnless.refl {x : EStateM ε σ α} (h : ∀ s, marked s → marked (endState (x s))) :
    SameUnless marked x x :=
  ⟨h, fun _ _ => rfl⟩

theorem SameUnless.pure (a : α) : SameUnless marked (pure a : EStateM ε σ α) (pure a) :=
  .refl fun _ h => h

theorem SameUnless.throw (e : ε) : SameUnless marked (throw e : EStateM ε σ α) (throw e) :=
  .refl fun _ h => h

theorem SameUnless.get : SameUnless marked (get : EStateM ε σ σ) get :=
  .refl fun _ h => h

theorem SameUnless.modify {g : σ → σ} (h : ∀ s, marked s → marked (g s)) :
    SameUnless marked (modify g : EStateM ε σ PUnit) (modify g) :=
  .refl h

theorem SameUnless.ite {c : Prop} [Decidable c] {x x' y y' : EStateM ε σ α}
    (hthen : SameUnless marked x y) (helse : SameUnless marked x' y') :
    SameUnless marked (if c then x else x') (if c then y else y') := by
  by_cases h : c
  · rw [if_pos h, if_pos h]
    exact hthen
  · rw [if_neg h, if_neg h]
    exact helse

/-- A mark set in the first part is still there behind the second. -/
theorem SameUnless.bind {x y : EStateM ε σ α} {f g : α → EStateM ε σ β} (h : SameUnless marked x y)
    (hnext : ∀ a, SameUnless marked (f a) (g a)) : SameUnless marked (x >>= f) (y >>= g) := by
  refine ⟨fun s hs => ?_, fun s hs => ?_⟩
  · have hfirst := h.keeps s hs
    cases hx : x s with
    | ok a s' =>
        rw [hx] at hfirst
        rw [bind_of_ok hx]
        exact (hnext a).keeps s' hfirst
    | error e s' =>
        rw [hx] at hfirst
        rwa [bind_of_error hx]
  · cases hx : x s with
    | ok a s' =>
        rw [bind_of_ok hx] at hs ⊢
        have hfirst : ¬marked (endState (x s)) := by
          rw [hx]
          exact fun hmarked => hs ((hnext a).keeps s' hmarked)
        have hy : y s = .ok a s' := (h.same s hfirst).symm.trans hx
        rw [bind_of_ok hy]
        exact (hnext a).same s' hs
    | error e s' =>
        rw [bind_of_error hx] at hs ⊢
        have hfirst : ¬marked (endState (x s)) := by
          rwa [hx]
        have hy : y s = .error e s' := (h.same s hfirst).symm.trans hx
        rw [bind_of_error hy]

theorem SameUnless.forEach {f g : Nat → α → EStateM ε σ Unit}
    (h : ∀ i a, SameUnless marked (f i a) (g i a)) (as : List α) (i : Nat) :
    SameUnless marked (forEach f i as) (forEach g i as) := by
  induction as generalizing i with
  | nil =>
      exact .pure _
  | cons a as ih =>
      exact (h i a).bind fun _ => ih (i + 1)

end Mark

/-! ## One loop -/

/-- What returns has got through both parts. -/
theorem bind_eq_ok {x : EStateM ε σ α} {f : α → EStateM ε σ β} {s s'' : σ} {b : β}
    (h : (x >>= f) s = .ok b s'') : ∃ a s', x s = .ok a s' ∧ f a s' = .ok b s'' := by
  cases hx : x s with
  | ok a s' =>
      rw [bind_of_ok hx] at h
      exact ⟨a, s', rfl, h⟩
  | error e s' =>
      rw [bind_of_error hx] at h
      cases h

/-- The loop body matters for the elements of the list only. -/
theorem forEach_congr {f g : Nat → α → EStateM ε σ Unit} {all : List α}
    (h : ∀ i a, all[i]? = some a → f i a = g i a) :
    ∀ {rest : List α} {i : Nat}, all.drop i = rest → forEach f i rest = forEach g i rest := by
  intro rest
  induction rest with
  | nil =>
      intro i _
      rfl
  | cons a rest ih =>
      intro i hrest
      obtain ⟨hget, htail⟩ := drop_eq_cons hrest
      rw [forEach, forEach, h i a hget, ih htail]

theorem forEach_append (f : Nat → α → EStateM ε σ Unit) (xs ys : List α) (i : Nat) :
    forEach f i (xs ++ ys) = (do
      forEach f i xs
      forEach f (i + xs.length) ys) := by
  induction xs generalizing i with
  | nil =>
      rfl
  | cons x xs ih =>
      have hlen : i + (x :: xs).length = i + 1 + xs.length := by
        simp only [List.length_cons]
        omega
      rw [List.cons_append, forEach, ih, hlen, forEach, bind_assoc]

end Foundation
end RrPython
