import Mathlib.Data.List.Basic

/-!
# PointPatch — the places at which two sequences differ

`diffIndices` lists them in increasing order, `patch` sets the elements at given places to those of
another sequence.  Patched at the places where they differ, a sequence becomes the other one.
-/

namespace RrPython
namespace Foundation

variable {α : Type*}

section Differences

variable [DecidableEq α]

def diffIndices (olds news : List α) : List Nat :=
  (List.range olds.length).filter fun i => olds[i]? ≠ news[i]?

theorem mem_diffIndices {olds news : List α} {i : Nat} :
    i ∈ diffIndices olds news ↔ i < olds.length ∧ olds[i]? ≠ news[i]? := by
  simp [diffIndices]

theorem diffIndices_cons (old new : α) (olds news : List α) :
    diffIndices (old :: olds) (new :: news) =
      (if old ≠ new then [0] else []) ++ (diffIndices olds news).map (· + 1) := by
  have hrest : (fun i => decide ((old :: olds)[i]? ≠ (new :: news)[i]?)) ∘ Nat.succ =
      fun i => decide (olds[i]? ≠ news[i]?) := by
    funext i
    simp
  rw [diffIndices, List.length_cons, List.range_succ_eq_map, List.filter_cons, List.filter_map, hrest]
  by_cases hsame : old = new
  · simp [hsame, diffIndices]
  · simp [hsame, diffIndices]

end Differences

def patch (news : List α) (places : List Nat) (xs : List α) : List α :=
  places.foldl (fun xs i => match news[i]? with
    | some b => xs.set i b
    | none => xs) xs

@[simp] theorem patch_nil (news xs : List α) : patch news [] xs = xs := rfl

theorem patch_cons {news : List α} {i : Nat} {b : α} (hb : news[i]? = some b) (places : List Nat)
    (xs : List α) : patch news (i :: places) xs = patch news places (xs.set i b) := by
  simp [patch, hb]

theorem getElem?_patch (news : List α) {places : List Nat} (hplaces : ∀ i ∈ places, i < news.length) :
    ∀ {xs : List α} (j : Nat), xs.length = news.length →
      (patch news places xs)[j]? = if j ∈ places then news[j]? else xs[j]? := by
  induction places with
  | nil =>
      intro xs j _
      simp
  | cons i places ih =>
      intro xs j hlen
      have hi : i < news.length := hplaces i List.mem_cons_self
      have hb : news[i]? = some news[i] := List.getElem?_eq_getElem hi
      rw [patch_cons hb, ih (fun k hk => hplaces k (List.mem_cons_of_mem i hk)) j (by simpa using hlen),
        List.getElem?_set]
      by_cases hij : i = j
      · -- a place that is set twice is set to the same element
        subst hij
        simp [hlen, hi]
      · simp [hij, Ne.symm hij]

theorem patch_diffIndices [DecidableEq α] {olds news : List α} (hlen : olds.length = news.length) :
    patch news (diffIndices olds news) olds = news := by
  refine List.ext_getElem? fun j => ?_
  rw [getElem?_patch news (fun i hi => hlen ▸ (mem_diffIndices.1 hi).1) j hlen]
  split_ifs with hj
  · rfl
  · -- outside the region both are over, inside they agree
    by_cases hin : j < olds.length
    · by_contra hne
      exact hj (mem_diffIndices.2 ⟨hin, hne⟩)
    · rw [List.getElem?_eq_none (by omega), List.getElem?_eq_none (by omega)]

end Foundation
end RrPython
