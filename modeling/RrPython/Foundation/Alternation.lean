import Mathlib.Data.List.Basic
import Mathlib.Tactic.TypeStar

/-!
# Alternation — a function and its surroundings taking turns

A program computes by itself up to its next request, and its surroundings answer the request by
putting the program into a new state.  `Alternates f entry exit s rs` says that the rounds `rs` are
such a run of the program `f` from `s`: each round begins where `f` takes the end of the one before.
Two runs of one program from one state differ only if an answer does.
-/

namespace RrPython
namespace Foundation

variable {σ ρ : Type*}

/-- Where the rounds `rs` leave a program that was in `s`. -/
def lastExit (exit : ρ → σ) (s : σ) (rs : List ρ) : σ :=
  rs.foldl (fun _ r => exit r) s

def Alternates (f : σ → σ) (entry exit : ρ → σ) : σ → List ρ → Prop
  | _, [] => True
  | s, r :: rs => entry r = f s ∧ Alternates f entry exit (exit r) rs

variable {f : σ → σ} {entry exit : ρ → σ}

@[simp] theorem lastExit_concat (s : σ) (rs : List ρ) (r : ρ) :
    lastExit exit s (rs ++ [r]) = exit r := by
  simp [lastExit]

/-- One more round. -/
theorem Alternates.concat {s : σ} {rs : List ρ} (h : Alternates f entry exit s rs) {r : ρ}
    (hr : entry r = f (lastExit exit s rs)) : Alternates f entry exit s (rs ++ [r]) := by
  induction rs generalizing s with
  | nil =>
      exact ⟨hr, trivial⟩
  | cons r' rs ih =>
      exact ⟨h.1, ih h.2 hr⟩

/-- Each round begins where the program takes the end of the rounds before it. -/
theorem Alternates.entry_eq {s : σ} {rs : List ρ} (h : Alternates f entry exit s rs) {i : Nat} {r : ρ}
    (hr : rs[i]? = some r) : entry r = f (lastExit exit s (rs.take i)) := by
  induction rs generalizing s i with
  | nil =>
      simp at hr
  | cons r' rs ih =>
      cases i with
      | zero =>
          obtain rfl : r' = r := by simpa using hr
          exact h.1
      | succ i =>
          exact ih h.2 (by simpa using hr)

end Foundation
end RrPython
