import RrPython.Foundation.LittleEndian

/-!
# ByteParser — parsers that consume a byte buffer from the front

A `Parser` holds the bytes not read yet and may fail.  `Parses p bs a` says that `p` reads exactly
the bytes `bs` off the front of any buffer that starts with them and returns `a`; the rules below
compose such facts along sequencing, counted repetition and repetition up to the end of the buffer.
`Reads` is the converse as well: which buffers `p` accepts at all.
-/

namespace RrPython
namespace Foundation

abbrev Parser (ε : Type) (α : Type) := StateT (List Byte) (Except ε) α

namespace Parser

variable {ε α β : Type}

/-! ## Repetition -/

/-- Run `p` exactly `n` times and collect the results. -/
def times (p : Parser ε α) : Nat → Parser ε (List α)
  | 0 => pure []
  | n + 1 => do
      let a ← p
      let as ← times p n
      pure (a :: as)

/-- Run `p` until the buffer is empty, at most `fuel` times; `stuck` reports fuel exhaustion. -/
def untilEmpty (stuck : ε) (p : Parser ε α) : Nat → Parser ε (List α)
  | 0 => do
      if (← get).isEmpty then pure [] else throw stuck
  | fuel + 1 => do
      if (← get).isEmpty then pure []
      else
        let a ← p
        let as ← untilEmpty stuck p fuel
        pure (a :: as)

theorem untilEmpty_nil (stuck : ε) (p : Parser ε α) (fuel : Nat) :
    (untilEmpty stuck p fuel).run [] = .ok ([], []) := by
  cases fuel with
  | zero =>
      rfl
  | succ fuel =>
      rfl

theorem untilEmpty_succ (stuck : ε) (p : Parser ε α) (fuel : Nat) {bs : List Byte} (hbs : bs ≠ []) :
    (untilEmpty stuck p (fuel + 1)).run bs =
      (do
        let a ← p
        let as ← untilEmpty stuck p fuel
        pure (a :: as) : Parser ε (List α)).run bs := by
  cases bs with
  | nil =>
      exact absurd rfl hbs
  | cons b bs =>
      rfl

/-! ## Reading an encoding back -/

/-- `p` reads exactly `bs` and returns `a`, whatever follows in the buffer. -/
def Parses (p : Parser ε α) (bs : List Byte) (a : α) : Prop :=
  ∀ rest, p.run (bs ++ rest) = .ok (a, rest)

theorem Parses.pure (a : α) : Parses (Pure.pure a : Parser ε α) [] a := by
  intro rest
  rfl

theorem Parses.bind {p : Parser ε α} {f : α → Parser ε β} {bs cs : List Byte} {a : α} {b : β}
    (hp : Parses p bs a) (hf : Parses (f a) cs b) : Parses (p >>= f) (bs ++ cs) b := by
  intro rest
  have hfirst : p.run (bs ++ (cs ++ rest)) = .ok (a, cs ++ rest) := hp (cs ++ rest)
  rw [StateT.run_bind, List.append_assoc, hfirst]
  exact hf rest

theorem Parses.map {p : Parser ε α} {bs : List Byte} {a : α} (f : α → β)
    (hp : Parses p bs a) : Parses (p >>= fun x => Pure.pure (f x)) bs (f a) := by
  have h := Parses.bind (f := fun x => (Pure.pure (f x) : Parser ε β)) hp (Parses.pure (f a))
  simpa using h

theorem Parses.times {ι : Type} {p : Parser ε α} {enc : ι → List Byte} {val : ι → α} :
    ∀ {xs : List ι}, (∀ x ∈ xs, Parses p (enc x) (val x)) →
      Parses (times p xs.length) (xs.flatMap enc) (xs.map val) := by
  intro xs
  induction xs with
  | nil =>
      intro _
      exact Parses.pure []
  | cons x xs ih =>
      intro h
      have hx : Parses p (enc x) (val x) := h x List.mem_cons_self
      have hxs := ih (fun y hy => h y (List.mem_cons_of_mem x hy))
      simpa [Parser.times] using Parses.bind hx (Parses.map (fun as => val x :: as) hxs)

theorem Parses.untilEmpty {ι : Type} {stuck : ε} {p : Parser ε α} {enc : ι → List Byte}
    {val : ι → α} :
    ∀ {xs : List ι} {fuel : Nat}, (∀ x ∈ xs, Parses p (enc x) (val x) ∧ enc x ≠ []) →
      xs.length ≤ fuel →
      (untilEmpty stuck p fuel).run (xs.flatMap enc) = .ok (xs.map val, []) := by
  intro xs
  induction xs with
  | nil =>
      intro fuel _ _
      exact untilEmpty_nil stuck p fuel
  | cons x xs ih =>
      intro fuel h hfuel
      cases fuel with
      | zero =>
          simp at hfuel
      | succ fuel =>
          have hx := h x List.mem_cons_self
          have hfuel' : xs.length ≤ fuel := by
            simpa using hfuel
          have hrest := ih (fun y hy => h y (List.mem_cons_of_mem x hy)) hfuel'
          have hne : (x :: xs).flatMap enc ≠ [] := by
            simp [hx.2]
          have hhead : p.run (enc x ++ xs.flatMap enc) = .ok (val x, xs.flatMap enc) :=
            hx.1 (xs.flatMap enc)
          rw [untilEmpty_succ stuck p fuel hne, List.flatMap_cons, StateT.run_bind, hhead]
          change ((Parser.untilEmpty stuck p fuel).run (xs.flatMap enc) >>= _) = _
          rw [hrest]
          rfl

/-! ## Everything that is accepted -/

theorem run_bind_eq_ok {p : Parser ε α} {f : α → Parser ε β} {bs rest : List Byte} {b : β} :
    (p >>= f).run bs = .ok (b, rest) ↔
      ∃ a mid, p.run bs = .ok (a, mid) ∧ (f a).run mid = .ok (b, rest) := by
  rw [StateT.run_bind]
  cases hp : p.run bs with
  | error e =>
      simp [bind, Except.bind]
  | ok result =>
      obtain ⟨a, mid⟩ := result
      constructor
      · intro h
        exact ⟨a, mid, rfl, h⟩
      · rintro ⟨a', mid', heq, h⟩
        cases heq
        exact h

theorem run_pure_eq_ok {a b : α} {bs rest : List Byte} :
    (pure a : Parser ε α).run bs = .ok (b, rest) ↔ bs = rest ∧ a = b := by
  constructor
  · intro h
    cases h
    exact ⟨rfl, rfl⟩
  · rintro ⟨rfl, rfl⟩
    rfl

variable {ι : Type}

/-- `p` accepts exactly the buffers that start with the encoding of an `x` which may stand in front of
what follows, and returns the value of such an `x`. -/
def Reads (p : Parser ε α) (enc : ι → List Byte) (val : ι → α) (may : ι → List Byte → Prop) : Prop :=
  ∀ bs a rest, p.run bs = .ok (a, rest) ↔ ∃ x, bs = enc x ++ rest ∧ val x = a ∧ may x rest

/-- Each of the `xs` may stand in front of the encodings of those behind it and `rest`. -/
def Follows (enc : ι → List Byte) (may : ι → List Byte → Prop) : List ι → List Byte → Prop
  | [], _ => True
  | x :: xs, rest => may x (xs.flatMap enc ++ rest) ∧ Follows enc may xs rest

/-- Where only the last thing in the buffer may be short, one short encoding ends the list. -/
theorem follows_or_last {enc : ι → List Byte} (hne : ∀ x, enc x ≠ []) {whole short : ι → Prop}
    (xs : List ι) (rest : List Byte) :
    Follows enc (fun x rest => whole x ∨ short x ∧ rest = []) xs rest ↔
      (∀ x ∈ xs, whole x) ∨
        rest = [] ∧ ∃ ys y, xs = ys ++ [y] ∧ (∀ x ∈ ys, whole x) ∧ short y := by
  induction xs with
  | nil =>
      simp [Follows]
  | cons x xs ih =>
      rw [Follows, ih]
      constructor
      · rintro ⟨hx | ⟨hx, hnil⟩, hxs | ⟨rfl, ys, y, rfl, hys, hy⟩⟩
        · exact Or.inl (by simpa using ⟨hx, hxs⟩)
        · exact Or.inr ⟨rfl, x :: ys, y, rfl, by simpa using ⟨hx, hys⟩, hy⟩
        · -- `x` is short, so there is nothing behind it
          obtain ⟨hflat, rfl⟩ := List.append_eq_nil_iff.1 hnil
          obtain rfl : xs = [] := by
            cases xs with
            | nil =>
                rfl
            | cons z zs =>
                simp [hne z] at hflat
          exact Or.inr ⟨rfl, [], x, rfl, by simp, hx⟩
        · simp [hne y] at hnil
      · rintro (hall | ⟨rfl, ys, y, heq, hys, hy⟩)
        · exact ⟨Or.inl (hall x List.mem_cons_self),
            Or.inl fun z hz => hall z (List.mem_cons_of_mem x hz)⟩
        · cases ys with
          | nil =>
              obtain ⟨rfl, rfl⟩ : x = y ∧ xs = [] := by simpa using heq
              exact ⟨Or.inr ⟨hy, rfl⟩, Or.inl (by simp)⟩
          | cons z zs =>
              obtain ⟨rfl, rfl⟩ : x = z ∧ xs = zs ++ [y] := by simpa using heq
              exact ⟨Or.inl (hys x List.mem_cons_self), Or.inr ⟨rfl, zs, y, rfl,
                fun w hw => hys w (List.mem_cons_of_mem x hw), hy⟩⟩

theorem Reads.times {p : Parser ε α} {enc : ι → List Byte} {val : ι → α}
    {may : ι → List Byte → Prop} (hp : Reads p enc val may) (n : Nat) :
    Reads (times p n) (fun xs : List ι => xs.flatMap enc) (List.map val)
      fun xs rest => xs.length = n ∧ Follows enc may xs rest := by
  induction n with
  | zero =>
      intro bs as rest
      rw [Parser.times, run_pure_eq_ok]
      constructor
      · rintro ⟨rfl, rfl⟩
        exact ⟨[], rfl, rfl, rfl, trivial⟩
      · rintro ⟨xs, hbs, has, hlen, _⟩
        obtain rfl := List.length_eq_zero_iff.1 hlen
        exact ⟨by simpa using hbs, has⟩
  | succ n ih =>
      intro bs as rest
      simp only [Parser.times, run_bind_eq_ok, run_pure_eq_ok]
      constructor
      · rintro ⟨a, mid, ha, as', mid', has', rfl, rfl⟩
        obtain ⟨x, rfl, rfl, hx⟩ := (hp bs a mid).1 ha
        obtain ⟨xs, rfl, rfl, hlen, hxs⟩ := (ih mid as' mid').1 has'
        exact ⟨x :: xs, by simp, rfl, by simp [hlen], hx, hxs⟩
      · rintro ⟨xs, rfl, rfl, hlen, hxs⟩
        cases xs with
        | nil =>
            cases hlen
        | cons x xs =>
            refine ⟨val x, xs.flatMap enc ++ rest, (hp _ _ _).2 ⟨x, by simp, rfl, hxs.1⟩,
              xs.map val, rest, (ih _ _ _).2 ⟨xs, rfl, rfl, by simpa using hlen, hxs.2⟩, rfl, rfl⟩

theorem untilEmpty_nil_reads {p : Parser ε α} {enc : ι → List Byte} {val : ι → α}
    {may : ι → List Byte → Prop} {stuck : ε} (hne : ∀ x, enc x ≠ []) (fuel : Nat) (as : List α)
    (rest : List Byte) :
    (untilEmpty stuck p fuel).run [] = .ok (as, rest) ↔
      rest = [] ∧ ∃ xs, [] = xs.flatMap enc ∧ xs.map val = as ∧ Follows enc may xs [] := by
  rw [untilEmpty_nil]
  constructor
  · rintro ⟨⟩
    exact ⟨rfl, [], rfl, rfl, trivial⟩
  · rintro ⟨rfl, xs, hbs, rfl, _⟩
    cases xs with
    | nil =>
        rfl
    | cons x xs =>
        simp [hne x] at hbs

theorem Reads.untilEmpty {p : Parser ε α} {enc : ι → List Byte} {val : ι → α}
    {may : ι → List Byte → Prop} {stuck : ε} (hp : Reads p enc val may) (hne : ∀ x, enc x ≠ []) :
    ∀ {fuel : Nat} {bs : List Byte}, bs.length ≤ fuel → ∀ as rest,
      ((untilEmpty stuck p fuel).run bs = .ok (as, rest) ↔
        rest = [] ∧ ∃ xs, bs = xs.flatMap enc ∧ xs.map val = as ∧ Follows enc may xs []) := by
  intro fuel
  induction fuel with
  | zero =>
      intro bs hlen as rest
      obtain rfl := List.length_eq_zero_iff.1 (Nat.le_zero.1 hlen)
      exact untilEmpty_nil_reads hne _ as rest
  | succ fuel ih =>
      intro bs hlen as rest
      by_cases hbs : bs = []
      · subst hbs
        exact untilEmpty_nil_reads hne _ as rest
      · -- one round reads `enc x`, which is at least a byte, and the others read what follows
        have hshort : ∀ x mid, bs = enc x ++ mid → mid.length ≤ fuel := by
          intro x mid h
          have hpos := List.length_pos_iff.2 (hne x)
          rw [h, List.length_append] at hlen
          omega
        rw [untilEmpty_succ stuck p fuel hbs]
        simp only [run_bind_eq_ok, run_pure_eq_ok]
        constructor
        · rintro ⟨a, mid, ha, as', mid', has', rfl, rfl⟩
          obtain ⟨x, hbytes, rfl, hx⟩ := (hp bs a mid).1 ha
          obtain ⟨rfl, xs, rfl, rfl, hxs⟩ := (ih (hshort x mid hbytes) as' mid').1 has'
          exact ⟨rfl, x :: xs, hbytes, rfl, by simpa using hx, hxs⟩
        · rintro ⟨rfl, xs, hbytes, rfl, hxs⟩
          cases xs with
          | nil =>
              exact absurd hbytes hbs
          | cons x xs =>
              rw [List.flatMap_cons] at hbytes
              refine ⟨val x, xs.flatMap enc, (hp _ _ _).2 ⟨x, hbytes, rfl, by simpa using hxs.1⟩,
                xs.map val, [], (ih (hshort x _ hbytes) _ _).2 ⟨rfl, xs, rfl, rfl, hxs.2⟩, rfl, rfl⟩

end Parser

end Foundation
end RrPython
