import RrPython.Recorder.Hooks

/-!
# Heap — records and their copies in the module's heap

`HeapOk` says that the lists of all allocated records are disjoint lists of allocated copies, that
every counter agrees with its list and every listed copy with its length.  `heapRecord` reads a record
out of the heap together with its copies.  Each heap update of the hooks keeps `HeapOk` and changes
the value of at most one record.
-/

namespace RrPython

open Foundation

abbrev Heap := Ptr → Option Block

/-- The copy stored at `p`. -/
def heapCopy (heap : Heap) (p : Ptr) : Option CopyRecord :=
  match heap p with
  | some (.copyRecord c) => some c
  | _ => none

/-- The record stored at `p` with the copies its list points to. -/
def heapRecord (heap : Heap) (p : Ptr) : Option Record :=
  match heap p with
  | some (.syscallRecord r) =>
      (r.copiesToUser.mapM (heapCopy heap)).map fun cs => { r with copiesToUser := cs }
  | _ => none

/-- A record after one more copy has been appended to its list. -/
def SyscallRecord.addTail {κ : Type} (r : SyscallRecord κ) (c : κ) : SyscallRecord κ :=
  { r with copiesToUser := r.copiesToUser ++ [c], amountOfCopies := r.amountOfCopies + 1 }

/-- No record's list contains `c`. -/
def Unlisted (heap : Heap) (c : Ptr) : Prop :=
  ∀ p r, heap p = some (.syscallRecord r) → c ∉ r.copiesToUser

structure HeapOk (heap : Heap) : Prop where
  element : ∀ {p r c}, heap p = some (.syscallRecord r) → c ∈ r.copiesToUser →
    ∃ d, heap c = some (.copyRecord d)
  nodup : ∀ {p r}, heap p = some (.syscallRecord r) → r.copiesToUser.Nodup
  amount : ∀ {p r}, heap p = some (.syscallRecord r) →
    r.amountOfCopies = BitVec.ofNat 64 r.copiesToUser.length
  owner : ∀ {p r p' r' c}, heap p = some (.syscallRecord r) → heap p' = some (.syscallRecord r') →
    c ∈ r.copiesToUser → c ∈ r'.copiesToUser → p = p'
  sized : ∀ {p r c d}, heap p = some (.syscallRecord r) → c ∈ r.copiesToUser →
    heap c = some (.copyRecord d) → d.Sized

/-! ## Values of records -/

theorem copy_ne_record {heap : Heap} {c p : Ptr} {d : CopyRecord} {r : SyscallRecord Ptr}
    (hd : heap c = some (.copyRecord d)) (hr : heap p = some (.syscallRecord r)) : c ≠ p := by
  rintro rfl
  simp [hr] at hd

theorem ne_of_free {heap : Heap} {x a : Ptr} {b : Block} (hx : heap x = some b)
    (ha : heap a = none) : x ≠ a := by
  rintro rfl
  simp [ha] at hx

theorem mapM_heapCopy_congr {heap heap' : Heap} {cs : List Ptr}
    (h : ∀ c ∈ cs, heap' c = heap c) : cs.mapM (heapCopy heap') = cs.mapM (heapCopy heap) := by
  induction cs with
  | nil =>
      rfl
  | cons c cs ih =>
      have hc : heapCopy heap' c = heapCopy heap c := by
        simp [heapCopy, h c List.mem_cons_self]
      rw [List.mapM_cons, List.mapM_cons, hc, ih fun d hd => h d (List.mem_cons_of_mem c hd)]

/-- A record keeps its value while its block and the blocks of its copies are untouched. -/
theorem heapRecord_congr {heap heap' : Heap} {p : Ptr} {r : SyscallRecord Ptr}
    (hr : heap p = some (.syscallRecord r)) (hp : heap' p = heap p)
    (hcopies : ∀ c ∈ r.copiesToUser, heap' c = heap c) :
    heapRecord heap' p = heapRecord heap p := by
  simp [heapRecord, hp, hr, mapM_heapCopy_congr hcopies]

theorem mapM_heapCopy_isSome {heap : Heap} {cs : List Ptr}
    (h : ∀ c ∈ cs, ∃ d, heap c = some (.copyRecord d)) :
    ∃ ds, cs.mapM (heapCopy heap) = some ds ∧ ds.length = cs.length := by
  induction cs with
  | nil =>
      exact ⟨[], rfl, rfl⟩
  | cons c cs ih =>
      obtain ⟨d, hd⟩ := h c List.mem_cons_self
      obtain ⟨ds, hds, hlen⟩ := ih fun x hx => h x (List.mem_cons_of_mem c hx)
      refine ⟨d :: ds, ?_, by simp [hlen]⟩
      have hc : heapCopy heap c = some d := by
        simp [heapCopy, hd]
      simp [List.mapM_cons, hc, hds]

theorem HeapOk.heapRecord_eq {heap : Heap} (h : HeapOk heap) {p : Ptr} {r : SyscallRecord Ptr}
    (hr : heap p = some (.syscallRecord r)) :
    ∃ cs, r.copiesToUser.mapM (heapCopy heap) = some cs ∧ cs.length = r.copiesToUser.length ∧
      heapRecord heap p = some { r with copiesToUser := cs } := by
  obtain ⟨cs, hcs, hlen⟩ := mapM_heapCopy_isSome fun c hc => h.element hr hc
  exact ⟨cs, hcs, hlen, by simp [heapRecord, hr, hcs]⟩

theorem heapRecord_some {heap : Heap} {p : Ptr} {R : Record} (h : heapRecord heap p = some R) :
    ∃ r, heap p = some (.syscallRecord r) ∧ r.copiesToUser.mapM (heapCopy heap) =
      some R.copiesToUser ∧ R = { r with copiesToUser := R.copiesToUser } := by
  cases hp : heap p with
  | none =>
      simp [heapRecord, hp] at h
  | some b =>
      cases b with
      | copyRecord c =>
          simp [heapRecord, hp] at h
      | syscallRecord r =>
          simp only [heapRecord, hp, Option.map_eq_some_iff] at h
          obtain ⟨cs, hcs, hR⟩ := h
          subst hR
          exact ⟨r, rfl, hcs, rfl⟩

/-! ## Allocation -/

section Update

variable {heap : Heap}

theorem HeapOk.newRecord (h : HeapOk heap) {a : Ptr} {r : SyscallRecord Ptr} (ha : heap a = none)
    (hcopies : r.copiesToUser = []) (hamount : r.amountOfCopies = 0) :
    HeapOk (Function.update heap a (some (.syscallRecord r))) := by
  -- the new record has no copies, so only the old ones matter
  have hcases : ∀ {p q}, Function.update heap a (some (.syscallRecord r)) p =
      some (.syscallRecord q) → q = r ∨ (p ≠ a ∧ heap p = some (.syscallRecord q)) := by
    intro p q hq
    by_cases hp : p = a
    · subst hp
      simp only [Function.update_self, Option.some.injEq, Block.syscallRecord.injEq] at hq
      exact Or.inl hq.symm
    · rw [Function.update_of_ne hp] at hq
      exact Or.inr ⟨hp, hq⟩
  refine ⟨?_, ?_, ?_, ?_, ?_⟩
  · -- listed copies are allocated
    intro p q c hq hc
    rcases hcases hq with rfl | ⟨_, hq⟩
    · simp [hcopies] at hc
    · obtain ⟨d, hd⟩ := h.element hq hc
      have hca : c ≠ a := ne_of_free hd ha
      exact ⟨d, by rw [Function.update_of_ne hca, hd]⟩
  · -- no list repeats a copy
    intro p q hq
    rcases hcases hq with rfl | ⟨_, hq⟩
    · simp [hcopies]
    · exact h.nodup hq
  · -- counters agree with lists
    intro p q hq
    rcases hcases hq with rfl | ⟨_, hq⟩
    · simp [hcopies, hamount]
    · exact h.amount hq
  · -- no copy is in two lists
    intro p q p' q' c hq hq' hc hc'
    rcases hcases hq with rfl | ⟨_, hq⟩
    · simp [hcopies] at hc
    · rcases hcases hq' with rfl | ⟨_, hq'⟩
      · simp [hcopies] at hc'
      · exact h.owner hq hq' hc hc'
  · -- lengths agree with contents
    intro p q c d hq hc hd
    rcases hcases hq with rfl | ⟨_, hq⟩
    · simp [hcopies] at hc
    · obtain ⟨e, he⟩ := h.element hq hc
      have hca : c ≠ a := ne_of_free he ha
      rw [Function.update_of_ne hca] at hd
      exact h.sized hq hc hd

/-- Updates of a block in no record's list that does not become a record. -/
theorem HeapOk.updateCopy (h : HeapOk heap) {a : Ptr} {b : Option Block}
    (hnew : ∀ r, b ≠ some (.syscallRecord r)) (hun : Unlisted heap a) :
    HeapOk (Function.update heap a b) := by
  have hback : ∀ {p q}, Function.update heap a b p = some (.syscallRecord q) →
      heap p = some (.syscallRecord q) := by
    intro p q hq
    by_cases hp : p = a
    · subst hp
      rw [Function.update_self] at hq
      exact absurd hq (hnew q)
    · rwa [Function.update_of_ne hp] at hq
  -- `a` is in no list, so listed blocks are where they were
  have hother : ∀ {p q c}, Function.update heap a b p = some (.syscallRecord q) →
      c ∈ q.copiesToUser → Function.update heap a b c = heap c := by
    intro p q c hq hc
    have hca : c ≠ a := by
      rintro rfl
      exact hun p q (hback hq) hc
    rw [Function.update_of_ne hca]
  refine ⟨?_, fun hq => h.nodup (hback hq), fun hq => h.amount (hback hq),
    fun hq hq' => h.owner (hback hq) (hback hq'), ?_⟩
  · -- listed copies are allocated
    intro p q c hq hc
    rw [hother hq hc]
    exact h.element (hback hq) hc
  · -- lengths agree with contents
    intro p q c d hq hc hd
    rw [hother hq hc] at hd
    exact h.sized (hback hq) hc hd

theorem HeapOk.unlisted_of_free (h : HeapOk heap) {a : Ptr} (ha : heap a = none) :
    Unlisted heap a := by
  intro p r hr hc
  obtain ⟨d, hd⟩ := h.element hr hc
  simp [ha] at hd

theorem HeapOk.unlisted_of_record (h : HeapOk heap) {a : Ptr} {q : SyscallRecord Ptr}
    (ha : heap a = some (.syscallRecord q)) : Unlisted heap a := by
  intro p r hr hc
  obtain ⟨d, hd⟩ := h.element hr hc
  simp [ha] at hd

theorem Unlisted.update {c a : Ptr} {b : Option Block} (hc : Unlisted heap c)
    (hnew : ∀ r, b = some (.syscallRecord r) → c ∉ r.copiesToUser) :
    Unlisted (Function.update heap a b) c := by
  intro p r hr
  by_cases hp : p = a
  · subst hp
    rw [Function.update_self] at hr
    exact hnew r hr
  · rw [Function.update_of_ne hp] at hr
    exact hc p r hr

/-- A record keeps its value under an update of another block that is in no list. -/
theorem heapRecord_update {p a : Ptr} {b : Option Block} {r : SyscallRecord Ptr}
    (hr : heap p = some (.syscallRecord r)) (hp : p ≠ a) (hun : Unlisted heap a) :
    heapRecord (Function.update heap a b) p = heapRecord heap p := by
  apply heapRecord_congr hr (by rw [Function.update_of_ne hp])
  intro c hc
  have hca : c ≠ a := by
    intro h
    exact hun p r hr (h ▸ hc)
  rw [Function.update_of_ne hca]

/-! ## Updating a record in place -/

/-- Replacing a record by one with the same copies and counter. -/
theorem HeapOk.setRecord (h : HeapOk heap) {a : Ptr} {r r' : SyscallRecord Ptr}
    (hr : heap a = some (.syscallRecord r)) (hcopies : r'.copiesToUser = r.copiesToUser)
    (hamount : r'.amountOfCopies = r.amountOfCopies) :
    HeapOk (Function.update heap a (some (.syscallRecord r'))) := by
  have hback : ∀ {p q}, Function.update heap a (some (.syscallRecord r')) p =
      some (.syscallRecord q) → ∃ q', heap p = some (.syscallRecord q') ∧
        q.copiesToUser = q'.copiesToUser ∧ q.amountOfCopies = q'.amountOfCopies := by
    intro p q hq
    by_cases hp : p = a
    · subst hp
      simp only [Function.update_self, Option.some.injEq, Block.syscallRecord.injEq] at hq
      subst hq
      exact ⟨r, hr, hcopies, hamount⟩
    · rw [Function.update_of_ne hp] at hq
      exact ⟨q, hq, rfl, rfl⟩
  refine ⟨?_, ?_, ?_, ?_, ?_⟩
  · -- listed copies are allocated
    intro p q c hq hc
    obtain ⟨q', hq', hlist, _⟩ := hback hq
    obtain ⟨d, hd⟩ := h.element hq' (hlist ▸ hc)
    have hca : c ≠ a := copy_ne_record hd hr
    exact ⟨d, by rw [Function.update_of_ne hca, hd]⟩
  · -- no list repeats a copy
    intro p q hq
    obtain ⟨q', hq', hlist, _⟩ := hback hq
    exact hlist ▸ h.nodup hq'
  · -- counters agree with lists
    intro p q hq
    obtain ⟨q', hq', hlist, hcount⟩ := hback hq
    rw [hlist, hcount]
    exact h.amount hq'
  · -- no copy is in two lists
    intro p q p' q' c hq hq' hc hc'
    obtain ⟨s, hs, hlist, _⟩ := hback hq
    obtain ⟨s', hs', hlist', _⟩ := hback hq'
    exact h.owner hs hs' (hlist ▸ hc) (hlist' ▸ hc')
  · -- lengths agree with contents
    intro p q c d hq hc hd
    obtain ⟨s, hs, hlist, _⟩ := hback hq
    obtain ⟨e, he⟩ := h.element hs (hlist ▸ hc)
    have hca : c ≠ a := copy_ne_record he hr
    rw [Function.update_of_ne hca] at hd
    exact h.sized hs (hlist ▸ hc) hd

/-- Appending an allocated, unlisted copy to a record's list. -/
theorem HeapOk.addTail (h : HeapOk heap) {a c : Ptr} {r : SyscallRecord Ptr} {d : CopyRecord}
    (hr : heap a = some (.syscallRecord r)) (hc : heap c = some (.copyRecord d))
    (hun : Unlisted heap c) (hd : d.Sized) :
    HeapOk (Function.update heap a (some (.syscallRecord (r.addTail c)))) := by
  have hback : ∀ {p q}, Function.update heap a (some (.syscallRecord (r.addTail c))) p =
      some (.syscallRecord q) →
        (p = a ∧ q.copiesToUser = r.copiesToUser ++ [c] ∧
          q.amountOfCopies = r.amountOfCopies + 1) ∨
        (p ≠ a ∧ heap p = some (.syscallRecord q)) := by
    intro p q hq
    by_cases hp : p = a
    · subst hp
      simp only [Function.update_self, Option.some.injEq, Block.syscallRecord.injEq] at hq
      subst hq
      exact Or.inl ⟨rfl, rfl, rfl⟩
    · rw [Function.update_of_ne hp] at hq
      exact Or.inr ⟨hp, hq⟩
  -- copies live elsewhere than the record that changes
  have hkeep : ∀ {x y}, heap x = some (.copyRecord y) → x ≠ a := fun hx => copy_ne_record hx hr
  refine ⟨?_, ?_, ?_, ?_, ?_⟩
  · -- listed copies are allocated
    intro p q x hq hx
    have hcopy : ∃ y, heap x = some (.copyRecord y) := by
      rcases hback hq with ⟨_, hlist, _⟩ | ⟨_, hq⟩
      · rw [hlist, List.mem_append, List.mem_singleton] at hx
        rcases hx with hx | rfl
        · exact h.element hr hx
        · exact ⟨d, hc⟩
      · exact h.element hq hx
    obtain ⟨y, hy⟩ := hcopy
    exact ⟨y, by rw [Function.update_of_ne (hkeep hy), hy]⟩
  · -- no list repeats a copy
    intro p q hq
    rcases hback hq with ⟨_, hlist, _⟩ | ⟨_, hq⟩
    · rw [hlist, List.nodup_append]
      refine ⟨h.nodup hr, by simp, ?_⟩
      intro x hx y hy
      rw [List.mem_singleton] at hy
      intro hxy
      exact hun a r hr ((hxy.trans hy) ▸ hx)
    · exact h.nodup hq
  · -- counters agree with lists
    intro p q hq
    rcases hback hq with ⟨_, hlist, hcount⟩ | ⟨_, hq⟩
    · rw [hlist, hcount, h.amount hr]
      apply BitVec.eq_of_toNat_eq
      simp
    · exact h.amount hq
  · -- no copy is in two lists
    intro p q p' q' x hq hq' hx hx'
    rcases hback hq with ⟨hp, hlist, _⟩ | ⟨hp, hold⟩ <;>
      rcases hback hq' with ⟨hp', hlist', _⟩ | ⟨hp', hold'⟩
    · rw [hp, hp']
    · rw [hlist, List.mem_append, List.mem_singleton] at hx
      rcases hx with hx | hxc
      · exact absurd (h.owner hold' hr hx' hx) hp'
      · exact absurd (hxc ▸ hx') (hun p' q' hold')
    · rw [hlist', List.mem_append, List.mem_singleton] at hx'
      rcases hx' with hx' | hxc
      · exact absurd (h.owner hold hr hx hx') hp
      · exact absurd (hxc ▸ hx) (hun p q hold)
    · exact h.owner hold hold' hx hx'
  · -- lengths agree with contents
    intro p q x y hq hx hy
    rcases hback hq with ⟨_, hlist, _⟩ | ⟨_, hold⟩
    · rw [hlist, List.mem_append, List.mem_singleton] at hx
      rcases hx with hx | rfl
      · obtain ⟨e, he⟩ := h.element hr hx
        rw [Function.update_of_ne (hkeep he)] at hy
        exact h.sized hr hx hy
      · rw [Function.update_of_ne (hkeep hc), hc] at hy
        cases hy
        exact hd
    · obtain ⟨e, he⟩ := h.element hold hx
      rw [Function.update_of_ne (hkeep he)] at hy
      exact h.sized hold hx hy

theorem heapRecord_addTail {a c : Ptr} {r : SyscallRecord Ptr} {d : CopyRecord} {R : Record}
    (hr : heap a = some (.syscallRecord r)) (hc : heap c = some (.copyRecord d))
    (hR : heapRecord heap a = some R) (hself : ∀ x ∈ r.copiesToUser, x ≠ a) :
    heapRecord (Function.update heap a (some (.syscallRecord (r.addTail c)))) a =
      some (SyscallRecord.addTail R d) := by
  obtain ⟨r₀, hr₀, hcs, hR₀⟩ := heapRecord_some hR
  have hsame : r₀ = r := by
    rw [hr] at hr₀
    simpa using hr₀.symm
  subst hsame
  have hca : c ≠ a := copy_ne_record hc hr
  -- reading the longer list yields the old copies and then the new one
  have hlist : (r₀.copiesToUser ++ [c]).mapM (heapCopy (Function.update heap a
      (some (.syscallRecord (r₀.addTail c))))) =
      some (R.copiesToUser ++ [d]) := by
    have hkeep : ∀ x ∈ r₀.copiesToUser ++ [c],
        Function.update heap a (some (.syscallRecord (r₀.addTail c))) x = heap x := by
      intro x hx
      have hxa : x ≠ a := by
        rw [List.mem_append, List.mem_singleton] at hx
        rcases hx with hx | rfl
        · exact hself x hx
        · exact hca
      rw [Function.update_of_ne hxa]
    rw [mapM_heapCopy_congr hkeep, List.mapM_append, hcs]
    simp [heapCopy, hc]
  have hcopies : (r₀.addTail c).copiesToUser = r₀.copiesToUser ++ [c] := rfl
  rw [heapRecord, Function.update_self]
  simp only [hcopies, hlist, Option.map_some]
  rw [hR₀]
  rfl

/-! ## Freeing a record -/

/-- The heap after `free_syscall_record` of the record `r` at `a`. -/
def freedHeap (heap : Heap) (a : Ptr) (r : SyscallRecord Ptr) : Heap :=
  fun x => if x = a ∨ x ∈ r.copiesToUser then none else heap x

theorem HeapOk.freeRecord (h : HeapOk heap) {a : Ptr} {r : SyscallRecord Ptr}
    (hr : heap a = some (.syscallRecord r)) : HeapOk (freedHeap heap a r) := by
  have hback : ∀ {p q}, freedHeap heap a r p = some (.syscallRecord q) →
      p ≠ a ∧ heap p = some (.syscallRecord q) := by
    intro p q hq
    simp only [freedHeap] at hq
    split at hq
    · cases hq
    · rename_i hp
      exact ⟨fun hpa => hp (Or.inl hpa), hq⟩
  -- a copy of another record is neither the freed record nor one of its copies
  have hother : ∀ {p q c}, freedHeap heap a r p = some (.syscallRecord q) →
      c ∈ q.copiesToUser → freedHeap heap a r c = heap c := by
    intro p q c hq hc
    obtain ⟨hpa, hq⟩ := hback hq
    obtain ⟨d, hd⟩ := h.element hq hc
    have hkeep : ¬(c = a ∨ c ∈ r.copiesToUser) := by
      rintro (rfl | hmem)
      · simp [hr] at hd
      · exact hpa (h.owner hq hr hc hmem)
    simp only [freedHeap, hkeep, if_false]
  refine ⟨?_, fun hq => h.nodup (hback hq).2, fun hq => h.amount (hback hq).2,
    fun hq hq' => h.owner (hback hq).2 (hback hq').2, ?_⟩
  · -- listed copies are allocated
    intro p q c hq hc
    rw [hother hq hc]
    exact h.element (hback hq).2 hc
  · -- lengths agree with contents
    intro p q c d hq hc hd
    rw [hother hq hc] at hd
    exact h.sized (hback hq).2 hc hd

theorem Unlisted.freed {a c : Ptr} {r : SyscallRecord Ptr} (hc : Unlisted heap c) :
    Unlisted (freedHeap heap a r) c := by
  intro p q hq
  simp only [freedHeap] at hq
  split at hq
  · cases hq
  · exact hc p q hq

/-- Other records survive. -/
theorem HeapOk.freedHeap_record (h : HeapOk heap) {a p : Ptr} {r q : SyscallRecord Ptr}
    (hr : heap a = some (.syscallRecord r)) (hq : heap p = some (.syscallRecord q)) (hp : p ≠ a) :
    freedHeap heap a r p = heap p := by
  have hkeep : ¬(p = a ∨ p ∈ r.copiesToUser) := by
    rintro (hpa | hmem)
    · exact hp hpa
    · obtain ⟨d, hd⟩ := h.element hr hmem
      simp [hq] at hd
  simp only [freedHeap, hkeep, if_false]

/-- So do copies outside the freed record. -/
theorem freedHeap_unlisted {a c : Ptr} {r : SyscallRecord Ptr} {d : CopyRecord}
    (hr : heap a = some (.syscallRecord r)) (hd : heap c = some (.copyRecord d))
    (hc : Unlisted heap c) : freedHeap heap a r c = heap c := by
  have hkeep : ¬(c = a ∨ c ∈ r.copiesToUser) := by
    rintro (rfl | hmem)
    · simp [hr] at hd
    · exact hc a r hr hmem
  simp only [freedHeap, hkeep, if_false]

theorem HeapOk.heapRecord_freedHeap (h : HeapOk heap) {a p : Ptr} {r q : SyscallRecord Ptr}
    (hr : heap a = some (.syscallRecord r)) (hq : heap p = some (.syscallRecord q)) (hp : p ≠ a) :
    heapRecord (freedHeap heap a r) p = heapRecord heap p := by
  apply heapRecord_congr hq (h.freedHeap_record hr hq hp)
  intro c hc
  obtain ⟨d, hd⟩ := h.element hq hc
  have hkeep : ¬(c = a ∨ c ∈ r.copiesToUser) := by
    rintro (rfl | hmem)
    · simp [hr] at hd
    · exact hp (h.owner hq hr hc hmem)
  simp only [freedHeap, hkeep, if_false]

end Update

theorem Kernel.freeCopyRecords_ok {cs : List Ptr} :
    ∀ {k : Kernel}, (∀ c ∈ cs, (k.heap c).isSome) → cs.Nodup →
      k.freeCopyRecords cs = .ok { k with heap := fun x => if x ∈ cs then none else k.heap x } := by
  induction cs with
  | nil =>
      intro k _ _
      simp [Kernel.freeCopyRecords]
  | cons c cs ih =>
      intro k halloc hnodup
      obtain ⟨hc, hrest⟩ := List.nodup_cons.1 hnodup
      have hfree : k.kfree c = .ok { k with heap := Function.update k.heap c none } := by
        simp [Kernel.kfree, halloc c List.mem_cons_self]
      -- no copy is freed twice: the rest of the list is still allocated
      have hkeep : ∀ d ∈ cs, (Function.update k.heap c none d).isSome := by
        intro d hd
        have hdc : d ≠ c := by
          rintro rfl
          exact hc hd
        rw [Function.update_of_ne hdc]
        exact halloc d (List.mem_cons_of_mem c hd)
      have hheap : (fun x => if x ∈ cs then none else Function.update k.heap c none x) =
          fun x => if x ∈ c :: cs then none else k.heap x := by
        funext x
        by_cases hx : x = c
        · subst hx
          simp
        · simp [hx]
      change (do let k ← k.kfree c; k.freeCopyRecords cs) = _
      rw [hfree]
      change Kernel.freeCopyRecords _ cs = _
      rw [ih hkeep hrest]
      exact congrArg (fun h => Except.ok { k with heap := h }) hheap

/-- `free_syscall_record` of an allocated record faults nowhere. -/
theorem Kernel.freeSyscallRecord_ok {k : Kernel} (h : HeapOk k.heap) {p : Ptr}
    {r : SyscallRecord Ptr} (hr : k.heap p = some (.syscallRecord r)) :
    k.freeSyscallRecord p = .ok { k with heap := freedHeap k.heap p r } := by
  have halloc : ∀ c ∈ r.copiesToUser, (k.heap c).isSome := by
    intro c hc
    obtain ⟨d, hd⟩ := h.element hr hc
    simp [hd]
  -- a record is not among its own copies
  have hself : p ∉ r.copiesToUser := by
    intro hp
    obtain ⟨d, hd⟩ := h.element hr hp
    simp [hr] at hd
  have hload : k.loadSyscallRecord (some p) = .ok (p, r) := by
    simp [Kernel.loadSyscallRecord, hr]
  have hheap : Function.update (fun x => if x ∈ r.copiesToUser then none else k.heap x) p none =
      freedHeap k.heap p r := by
    funext x
    by_cases hx : x = p
    · subst hx
      simp [freedHeap]
    · simp [freedHeap, hx]
  have hfree := Kernel.freeCopyRecords_ok halloc (h.nodup hr)
  simp only [Kernel.freeSyscallRecord, hload, hfree, Kernel.kfree, hself, hr, if_false, bind,
    Except.bind, Option.isSome_some, if_true, hheap]

end RrPython
