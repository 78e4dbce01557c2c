import Mathlib.Algebra.BigOperators.Group.List.Basic
import RrPython.Foundation.ByteParser
import RrPython.Foundation.Outcome

/-!
# LoggedParser — what a parser does before it stops

`Takes allowed n p`: every run of `p` that returns has taken `n` bytes, and every other one stops with
an allowed error.  A `Logged` parser also keeps a log of what it has completed, which an error does not
lose; forgetting the log gives an ordinary parser.  `Pays` bounds the log by the bytes: each entry has
a price in bytes, and what was taken pays for everything in the log, however the run ends.
-/

namespace RrPython
namespace Foundation

variable {ε ω α β : Type}

/-! ## Parsers that take -/

namespace Parser

def Takes (allowed : ε → Prop) (n : Nat) (p : Parser ε α) : Prop :=
  ∀ bs, Meets allowed (fun r => n + r.2.length ≤ bs.length) (p.run bs)

variable {allowed : ε → Prop} {m n : Nat} {p : Parser ε α}

theorem Takes.of_ok (hp : Takes allowed n p) {bs rest : List Byte} {a : α}
    (hrun : p.run bs = .ok (a, rest)) : n + rest.length ≤ bs.length :=
  (hp bs).of_ok hrun

theorem Takes.mono (hp : Takes allowed n p) (hmn : m ≤ n) : Takes allowed m p := by
  intro bs
  refine (hp bs).mono (fun e he => he) fun r hr => ?_
  omega

theorem Takes.pure (a : α) : Takes allowed 0 (Pure.pure a : Parser ε α) := by
  intro bs
  show 0 + bs.length ≤ bs.length
  exact (Nat.zero_add bs.length).le

theorem Takes.bind {f : α → Parser ε β} (hp : Takes allowed m p)
    (hf : ∀ bs a rest, p.run bs = .ok (a, rest) → Takes allowed n (f a)) :
    Takes allowed (m + n) (p >>= f) := by
  intro bs
  rw [StateT.run_bind]
  cases hrun : p.run bs with
  | error e =>
      exact (hp bs).of_error hrun
  | ok result =>
      obtain ⟨a, rest⟩ := result
      have htaken := hp.of_ok hrun
      refine (hf bs a rest hrun rest).mono (fun e he => he) fun r hr => ?_
      omega

theorem Takes.times (hp : Takes allowed n p) (k : Nat) : Takes allowed (k * n) (times p k) := by
  induction k with
  | zero =>
      rw [Nat.zero_mul]
      exact Takes.pure []
  | succ k ih =>
      have hround := hp.bind fun _ a _ _ => ih.bind fun _ as _ _ => Takes.pure (a :: as)
      have hsum : (k + 1) * n = n + (k * n + 0) := by
        rw [Nat.succ_mul, Nat.add_zero, Nat.add_comm]
      rw [hsum]
      exact hround

theorem length_of_times {k : Nat} :
    ∀ {bs rest : List Byte} {as : List α}, (Parser.times p k).run bs = .ok (as, rest) → as.length = k := by
  induction k with
  | zero =>
      intro bs rest as h
      rw [Parser.times, run_pure_eq_ok] at h
      rw [← h.2, List.length_nil]
  | succ k ih =>
      intro bs rest as h
      simp only [Parser.times, run_bind_eq_ok, run_pure_eq_ok] at h
      obtain ⟨a, mid, _, as', mid', has', _, rfl⟩ := h
      rw [List.length_cons, ih has']

/-- A parser that takes something each time empties the buffer or stops with one of its own errors: as
many rounds as there are bytes are enough. -/
theorem Takes.untilEmpty {stuck : ε} (hp : Takes allowed n p) (hn : 0 < n) :
    ∀ {fuel : Nat} {bs : List Byte}, bs.length ≤ fuel →
      Meets allowed (fun r => r.2 = []) ((untilEmpty stuck p fuel).run bs) := by
  intro fuel
  induction fuel with
  | zero =>
      intro bs hlen
      obtain rfl := List.length_eq_zero_iff.1 (Nat.le_zero.1 hlen)
      rw [untilEmpty_nil]
      rfl
  | succ fuel ih =>
      intro bs hlen
      by_cases hbs : bs = []
      · rw [hbs, untilEmpty_nil]
        rfl
      · rw [untilEmpty_succ stuck p fuel hbs, StateT.run_bind]
        cases hrun : p.run bs with
        | error e =>
            exact (hp bs).of_error hrun
        | ok result =>
            -- the round was paid with at least one byte, so the others have fuel enough
            obtain ⟨a, rest⟩ := result
            have htaken := hp.of_ok hrun
            have hrest : Meets allowed (fun r => r.2 = []) ((Parser.untilEmpty stuck p fuel).run rest) :=
              ih (by omega)
            change Meets allowed _ ((Parser.untilEmpty stuck p fuel).run rest >>= _)
            exact hrest.bind fun r hr => hr

end Parser

/-! ## Parsers with a log -/

def Logged (ε ω α : Type) : Type :=
  List Byte → Except ε (α × List Byte) × List ω

namespace Logged

instance : Monad (Logged ε ω) where
  pure a := fun bs => (.ok (a, bs), [])
  bind p f := fun bs =>
    match p bs with
    | (.ok (a, rest), log) => ((f a rest).1, log ++ (f a rest).2)
    | (.error e, log) => (.error e, log)

/-- A parser that logs nothing. -/
def lift (p : Parser ε α) : Logged ε ω α :=
  fun bs => (p.run bs, [])

/-- `p`, with `x` in the log once `p` has returned. -/
def completes (x : ω) (p : Logged ε ω α) : Logged ε ω α := fun bs =>
  match p bs with
  | (.ok r, log) => (.ok r, log ++ [x])
  | (.error e, log) => (.error e, log)

def times (p : Logged ε ω α) : Nat → Logged ε ω (List α)
  | 0 => pure []
  | n + 1 => do
      let a ← p
      let as ← times p n
      pure (a :: as)

def untilEmpty (stuck : ε) (p : Logged ε ω α) : Nat → Logged ε ω (List α)
  | 0 => fun bs => if bs.isEmpty then (.ok ([], bs), []) else (.error stuck, [])
  | fuel + 1 => fun bs =>
      if bs.isEmpty then (.ok ([], bs), [])
      else
        (do
          let a ← p
          let as ← untilEmpty stuck p fuel
          pure (a :: as) : Logged ε ω (List α)) bs

variable {p : Logged ε ω α} {f : α → Logged ε ω β} {bs rest : List Byte} {a : α} {log : List ω}

theorem bind_of_ok (h : p bs = (.ok (a, rest), log)) :
    (p >>= f) bs = ((f a rest).1, log ++ (f a rest).2) := by
  simp only [bind, h]

theorem bind_of_error {e : ε} (h : p bs = (.error e, log)) : (p >>= f) bs = (.error e, log) := by
  simp only [bind, h]

theorem untilEmpty_nil (stuck : ε) (p : Logged ε ω α) (fuel : Nat) :
    untilEmpty stuck p fuel [] = (.ok ([], []), []) := by
  cases fuel with
  | zero =>
      rfl
  | succ fuel =>
      rfl

theorem untilEmpty_succ (stuck : ε) (p : Logged ε ω α) (fuel : Nat) {bs : List Byte} (hbs : bs ≠ []) :
    untilEmpty stuck p (fuel + 1) bs =
      (p >>= fun a => untilEmpty stuck p fuel >>= fun as => pure (a :: as)) bs := by
  cases bs with
  | nil =>
      exact absurd rfl hbs
  | cons b bs =>
      rfl

/-! ## Forgetting the log -/

def erase (p : Logged ε ω α) : Parser ε α :=
  fun bs => (p bs).1

@[simp] theorem erase_pure (a : α) : (pure a : Logged ε ω α).erase = pure a := rfl

@[simp] theorem erase_lift (p : Parser ε α) : (lift p : Logged ε ω α).erase = p := rfl

@[simp] theorem erase_bind (p : Logged ε ω α) (f : α → Logged ε ω β) :
    (p >>= f).erase = p.erase >>= fun a => (f a).erase := by
  funext bs
  rcases hrun : p bs with ⟨_ | ⟨a, rest⟩, log⟩
  · simp only [erase, bind, StateT.bind, Except.bind, hrun]
  · simp only [erase, bind, StateT.bind, Except.bind, hrun]

@[simp] theorem erase_completes (x : ω) (p : Logged ε ω α) : (completes x p).erase = p.erase := by
  funext bs
  rcases hrun : p bs with ⟨_ | r, log⟩
  · simp only [erase, completes, hrun]
  · simp only [erase, completes, hrun]

@[simp] theorem erase_times (p : Logged ε ω α) (n : Nat) :
    (times p n).erase = Parser.times p.erase n := by
  induction n with
  | zero =>
      rfl
  | succ n ih =>
      simp only [times, Parser.times, erase_bind, erase_pure, ih]

@[simp] theorem erase_untilEmpty (stuck : ε) (p : Logged ε ω α) (fuel : Nat) :
    (untilEmpty stuck p fuel).erase = Parser.untilEmpty stuck p.erase fuel := by
  induction fuel with
  | zero =>
      funext bs
      cases bs with
      | nil =>
          rfl
      | cons b bs =>
          rfl
  | succ fuel ih =>
      funext bs
      by_cases hbs : bs = []
      · subst hbs
        rfl
      · have hplain : Parser.untilEmpty stuck p.erase (fuel + 1) bs = _ :=
          Parser.untilEmpty_succ stuck p.erase fuel hbs
        have hlogged : (untilEmpty stuck p (fuel + 1)).erase bs =
            (p >>= fun a => untilEmpty stuck p fuel >>= fun as => pure (a :: as)).erase bs :=
          congrArg Prod.fst (untilEmpty_succ stuck p fuel hbs)
        rw [hplain, hlogged]
        simp only [erase_bind, erase_pure, ih]
        rfl

/-! ## Paying for the log -/

/-- The price of a log, entry by entry. -/
def price (weight : ω → Nat) (log : List ω) : Nat :=
  (log.map weight).sum

/-- What a run leaves over: the rest of the buffer and `n` bytes that it has taken. -/
def leaves (n : Nat) : Except ε (α × List Byte) → Nat
  | .ok r => n + r.2.length
  | .error _ => 0

/-- The bytes that a run takes are enough for its log, with `n` to spare if it returns. -/
def Pays (weight : ω → Nat) (n : Nat) (p : Logged ε ω α) : Prop :=
  ∀ bs, price weight (p bs).2 + leaves n (p bs).1 ≤ bs.length

variable {weight : ω → Nat} {m n : Nat}

@[simp] theorem price_append (weight : ω → Nat) (log log' : List ω) :
    price weight (log ++ log') = price weight log + price weight log' := by
  simp [price]

theorem Pays.price_le (hp : Pays weight n p) (bs : List Byte) : price weight (p bs).2 ≤ bs.length :=
  le_trans (Nat.le_add_right _ _) (hp bs)

theorem Pays.lift {allowed : ε → Prop} {p : Parser ε α} (hp : Parser.Takes allowed n p) :
    Pays weight n (lift p : Logged ε ω α) := by
  intro bs
  cases hrun : p.run bs with
  | error e =>
      simp [Logged.lift, price, leaves, hrun]
  | ok r =>
      have htaken := hp.of_ok hrun
      simpa [Logged.lift, price, leaves, hrun] using htaken

theorem Pays.pure (a : α) : Pays weight 0 (Pure.pure a : Logged ε ω α) := by
  intro bs
  simp [Pure.pure, price, leaves]

theorem Pays.bind (hp : Pays weight m p) (hf : ∀ a, Pays weight n (f a)) :
    Pays weight (m + n) (p >>= f) := by
  intro bs
  have hfirst := hp bs
  rcases hrun : p bs with ⟨_ | ⟨a, rest⟩, log⟩
  · rw [hrun] at hfirst
    rw [bind_of_error hrun]
    exact hfirst
  · -- what the second part leaves over lies within what the first part has left
    have hnext := hf a rest
    simp only [hrun, leaves] at hfirst
    rw [bind_of_ok hrun, price_append]
    cases hresult : (f a rest).1 with
    | error e =>
        rw [hresult, leaves] at hnext
        simp only [leaves]
        omega
    | ok r =>
        rw [hresult, leaves] at hnext
        simp only [leaves]
        omega

/-- The entry for a completed `p` is paid out of what `p` has to spare. -/
theorem Pays.completes {x : ω} (hp : Pays weight (weight x + n) p) : Pays weight n (completes x p) := by
  intro bs
  have hrun := hp bs
  unfold Logged.completes
  rcases hresult : p bs with ⟨_ | r, log⟩
  · simpa [hresult, leaves] using hrun
  · have hentry : price weight [x] = weight x := by simp [price]
    simp only [hresult, leaves] at hrun
    simp only [price_append, hentry, leaves]
    omega

theorem Pays.times (hp : Pays weight 0 p) (k : Nat) : Pays weight 0 (times p k) := by
  induction k with
  | zero =>
      exact Pays.pure []
  | succ k ih =>
      exact hp.bind fun a => ih.bind fun as => Pays.pure (a :: as)

theorem Pays.untilEmpty {stuck : ε} (hp : Pays weight 0 p) (fuel : Nat) :
    Pays weight 0 (untilEmpty stuck p fuel) := by
  induction fuel with
  | zero =>
      intro bs
      cases bs with
      | nil =>
          simp [Logged.untilEmpty, price, leaves]
      | cons b bs =>
          simp [Logged.untilEmpty, price, leaves]
  | succ fuel ih =>
      intro bs
      by_cases hbs : bs = []
      · subst hbs
        rw [untilEmpty_nil]
        simp [price, leaves]
      · rw [untilEmpty_succ stuck p fuel hbs]
        exact (hp.bind fun a => ih.bind fun as => Pays.pure (a :: as)) bs

theorem count_mul_le_price [DecidableEq ω] (x : ω) (log : List ω) :
    log.count x * weight x ≤ price weight log := by
  induction log with
  | nil =>
      simp [price]
  | cons y log ih =>
      rw [price, List.map_cons, List.sum_cons, List.count_cons, ← price]
      by_cases hxy : y = x
      · subst hxy
        rw [beq_self_eq_true, if_pos rfl, Nat.succ_mul]
        omega
      · rw [beq_false_of_ne hxy, if_neg Bool.false_ne_true, Nat.add_zero]
        omega

/-- So an entry that costs something is in the log at most as often as the buffer can pay for it. -/
theorem Pays.count_le [DecidableEq ω] (hp : Pays weight n p) {x : ω} (hx : 0 < weight x)
    (bs : List Byte) : (p bs).2.count x ≤ bs.length / weight x :=
  (Nat.le_div_iff_mul_le hx).2 (le_trans (count_mul_le_price x _) (hp.price_le bs))

/-! ## The log of a run that returns -/

def Returns (post : α → List ω → Prop) (p : Logged ε ω α) : Prop :=
  ∀ bs a rest log, p bs = (.ok (a, rest), log) → post a log

variable {post : β → List ω → Prop}

theorem Returns.pure {b : β} (hb : post b []) : Returns post (Pure.pure b : Logged ε ω β) := by
  rintro bs _ rest _ ⟨⟩
  exact hb

theorem Returns.lift {p : Parser ε β} (hp : ∀ b, post b []) :
    Returns post (lift p : Logged ε ω β) := by
  intro bs b rest log h
  obtain rfl : [] = log := congrArg Prod.snd h
  exact hp b

theorem Returns.bind (hp : Returns (fun a log => Returns (fun b log' => post b (log ++ log')) (f a)) p) :
    Returns post (p >>= f) := by
  intro bs b rest log h
  rcases hrun : p bs with ⟨_ | ⟨a, mid⟩, log₁⟩
  · rw [bind_of_error hrun] at h
    cases h
  · rw [bind_of_ok hrun, Prod.mk.injEq] at h
    obtain ⟨hresult, rfl⟩ := h
    exact hp bs a mid log₁ hrun mid b rest _ (Prod.ext hresult rfl)

theorem Returns.completes {p : Logged ε ω β} {x : ω}
    (hp : Returns (fun b log => post b (log ++ [x])) p) : Returns post (completes x p) := by
  intro bs b rest log h
  unfold Logged.completes at h
  rcases hrun : p bs with ⟨_ | ⟨a, mid⟩, log₁⟩
  · simp [hrun] at h
  · simp only [hrun, Prod.mk.injEq, Except.ok.injEq] at h
    obtain ⟨⟨rfl, rfl⟩, rfl⟩ := h
    exact hp bs a mid log₁ hrun

variable {entries : α → List ω}

/-- One round more, of either repetition. -/
theorem Returns.cons {q : Logged ε ω (List α)} (hp : Returns (fun a log => log = entries a) p)
    (hq : Returns (fun as log => log = as.flatMap entries) q) :
    Returns (fun (as : List α) log => log = as.flatMap entries)
      (p >>= fun a => q >>= fun as => Pure.pure (a :: as)) := by
  refine Returns.bind fun bs a rest log hrun => ?_
  obtain rfl := hp bs a rest log hrun
  refine Returns.bind fun bs as rest log hrun => ?_
  obtain rfl := hq bs as rest log hrun
  exact Returns.pure (by simp)

theorem Returns.times (hp : Returns (fun a log => log = entries a) p) (k : Nat) :
    Returns (fun as log => log = as.flatMap entries) (times p k) := by
  induction k with
  | zero =>
      exact Returns.pure rfl
  | succ k ih =>
      exact Returns.cons hp ih

theorem Returns.untilEmpty {stuck : ε} (hp : Returns (fun a log => log = entries a) p) (fuel : Nat) :
    Returns (fun as log => log = as.flatMap entries) (untilEmpty stuck p fuel) := by
  induction fuel with
  | zero =>
      intro bs as rest log h
      cases bs with
      | nil =>
          cases h
          rfl
      | cons b bs =>
          cases h
  | succ fuel ih =>
      intro bs as rest log h
      by_cases hbs : bs = []
      · subst hbs
        cases h
        rfl
      · rw [untilEmpty_succ stuck p fuel hbs] at h
        exact Returns.cons hp ih bs as rest log h

end Logged

end Foundation
end RrPython
