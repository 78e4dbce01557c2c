import RrPython.Foundation.Runs

/-!
# Outcome — postconditions of computations that may stop with an error

`Meets allowed post x`: if `x` returns, the result satisfies `post`, and if it stops, the error is
one that `allowed` admits.  The rules follow the structure of the computation, so a proof about a
function of the program is built from the facts about the functions it calls.
-/

namespace RrPython
namespace Foundation

universe u v

variable {ε : Type u} {α β : Type v} {σ : Type v} {ι : Type*}

def Meets (allowed : ε → Prop) (post : α → Prop) : Except ε α → Prop
  | .ok a => post a
  | .error e => allowed e

section Rules

variable {allowed allowed' : ε → Prop} {post post' : α → Prop}

@[simp] theorem meets_ok {a : α} : Meets allowed post (.ok a) ↔ post a := Iff.rfl

@[simp] theorem meets_error {e : ε} : Meets allowed post (.error e : Except ε α) ↔ allowed e := Iff.rfl

theorem Meets.mono {x : Except ε α} (h : Meets allowed post x) (herr : ∀ e, allowed e → allowed' e)
    (hpost : ∀ a, post a → post' a) : Meets allowed' post' x := by
  cases x with
  | ok a =>
      exact hpost a h
  | error e =>
      exact herr e h

theorem Meets.bind {x : Except ε α} {f : α → Except ε β} {next : β → Prop}
    (h : Meets allowed post x) (hf : ∀ a, post a → Meets allowed next (f a)) :
    Meets allowed next (x >>= f) := by
  cases x with
  | ok a =>
      exact hf a h
  | error e =>
      exact h

theorem Meets.of_ok {x : Except ε α} (h : Meets allowed post x) {a : α} (hx : x = .ok a) : post a := by
  rw [hx] at h
  exact h

theorem Meets.of_error {x : Except ε α} (h : Meets allowed post x) {e : ε} (hx : x = .error e) :
    allowed e := by
  rw [hx] at h
  exact h

end Rules

/-- An invariant of the steps is one of the runs, and a run stops only with an error that a step may
stop with. -/
theorem Meets.run {allowed : ε → Prop} {I : σ → Prop} {step : σ → ι → Except ε σ}
    (hstep : ∀ s i, I s → Meets allowed I (step s i)) {s : σ} (hI : I s) (is : List ι) :
    Meets allowed I (run step s is) := by
  induction is generalizing s with
  | nil =>
      exact hI
  | cons i is ih =>
      have h := hstep s i hI
      cases hs : step s i with
      | ok s' =>
          rw [hs] at h
          simpa [Foundation.run, hs] using ih h
      | error e =>
          rw [hs] at h
          simpa [Foundation.run, hs] using h

end Foundation
end RrPython
