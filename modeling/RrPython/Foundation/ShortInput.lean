import RrPython.Foundation.ByteParser

/-!
# ShortInput — parsers on an encoding that has been cut

`FailsShort err p bs k` says that `p` fails with `err` on every prefix of `bs` that is shorter than `k`.
The rules compose such facts as those for `Parses` compose readings of the whole encoding: what has been
cut off is cut off from the first part or, the first part being whole, from the second.
-/

namespace RrPython
namespace Foundation
namespace Parser

variable {ε α β : Type}

def FailsShort (err : ε) (p : Parser ε α) (bs : List Byte) (k : Nat) : Prop :=
  ∀ n < k, p.run (bs.take n) = .error err

variable {err : ε} {p : Parser ε α} {f : α → Parser ε β} {bs cs : List Byte} {a : α} {k : Nat}

theorem run_bind_error (hp : p.run bs = .error err) : (p >>= f).run bs = .error err := by
  rw [StateT.run_bind, hp]
  rfl

theorem run_bind_ok {rest : List Byte} (hp : p.run bs = .ok (a, rest)) :
    (p >>= f).run bs = (f a).run rest := by
  rw [StateT.run_bind, hp]
  rfl

theorem Parses.run_take (hp : Parses p bs a) (cs : List Byte) {n : Nat} (hn : bs.length ≤ n) :
    p.run ((bs ++ cs).take n) = .ok (a, cs.take (n - bs.length)) := by
  rw [List.take_append, List.take_of_length_le hn]
  exact hp _

namespace FailsShort

theorem mono (h : FailsShort err p bs k) {k' : Nat} (hk : k' ≤ k) : FailsShort err p bs k' :=
  fun n hn => h n (Nat.lt_of_lt_of_le hn hk)

/-- What comes after a parser that fails does not matter. -/
theorem before (h : FailsShort err p bs k) : FailsShort err (p >>= f) bs k :=
  fun n hn => run_bind_error (h n hn)

theorem append (h : FailsShort err p bs k) (hk : k ≤ bs.length) : FailsShort err p (bs ++ cs) k := by
  intro n hn
  have htake : (bs ++ cs).take n = bs.take n :=
    List.take_append_of_le_length (by omega)
  rw [htake]
  exact h n hn

/-- Cut in the first part, or cut in the second. -/
theorem bind (hp : Parses p bs a) (h : FailsShort err p bs bs.length)
    (hf : FailsShort err (f a) cs k) : FailsShort err (p >>= f) (bs ++ cs) (bs.length + k) := by
  intro n hn
  by_cases hfirst : n < bs.length
  · exact (h.append (Nat.le_refl _)).before n hfirst
  · rw [run_bind_ok (hp.run_take cs (Nat.not_lt.1 hfirst))]
    exact hf _ (by omega)

theorem times {ι : Type} {enc : ι → List Byte} {val : ι → α} :
    ∀ {xs : List ι},
      (∀ x ∈ xs, Parses p (enc x) (val x) ∧ FailsShort err p (enc x) (enc x).length) →
      FailsShort err (times p xs.length) (xs.flatMap enc) (xs.flatMap enc).length := by
  intro xs
  induction xs with
  | nil =>
      intro _ n hn
      cases hn
  | cons x xs ih =>
      intro h
      obtain ⟨hparses, hfails⟩ := h x List.mem_cons_self
      have htail := ih fun y hy => h y (List.mem_cons_of_mem x hy)
      rw [List.flatMap_cons, List.length_append]
      exact hfails.bind hparses htail.before

end FailsShort

end Parser
end Foundation
end RrPython
