import Mathlib

/-!
Persistent memory behind a cache. A store is visible at once. It is durable
once its cache line has been written back and a fence has followed; until then
a power failure may keep it or drop it, separately for each word.
-/

namespace Hiom

/-- `fresh word` are the values that `word` had since its line was last written
back, `stale word` those before that which no fence has ruled out yet. -/
structure Pmem (Word : Type) where
  now : Word → Nat
  fresh : Word → List Nat
  stale : Word → List Nat

namespace Pmem

variable {Word : Type}

def settled (now : Word → Nat) : Pmem Word := ⟨now, fun _ => [], fun _ => []⟩

def store [DecidableEq Word] (pmem : Pmem Word) (word : Word) (value : Nat) : Pmem Word where
  now := fun other => if other = word then value else pmem.now other
  fresh := fun other =>
    if other = word then pmem.now word :: pmem.fresh word else pmem.fresh other
  stale := pmem.stale

def flush (line : Word → Nat) (pmem : Pmem Word) (words : List Word) : Pmem Word where
  now := pmem.now
  fresh := fun word =>
    if line word ∈ words.map line then [] else pmem.fresh word
  stale := fun word =>
    if line word ∈ words.map line then pmem.fresh word ++ pmem.stale word else pmem.stale word

def fence (pmem : Pmem Word) : Pmem Word := { pmem with stale := fun _ => [] }

/-- The values that a power failure may leave in a word. -/
def survivors (pmem : Pmem Word) (word : Word) : List Nat :=
  pmem.now word :: (pmem.fresh word ++ pmem.stale word)

/-- What a power failure leaves, by the choice of a survivor for each word. -/
def image (pmem : Pmem Word) (choice : Word → Nat) : Word → Nat :=
  fun word => (pmem.survivors word).getD (choice word) (pmem.now word)

def Clean (pmem : Pmem Word) (word : Word) : Prop :=
  pmem.fresh word = [] ∧ pmem.stale word = []

variable {line : Word → Nat} {pmem : Pmem Word} {word other : Word}

theorem image_mem (pmem : Pmem Word) (choice : Word → Nat) (word : Word) :
    pmem.image choice word ∈ pmem.survivors word := by
  rw [image, List.getD_eq_getElem?_getD]
  cases found : (pmem.survivors word)[choice word]? with
  | none => exact List.mem_cons_self
  | some value => exact List.mem_of_getElem? found

theorem Clean.survivors (clean : pmem.Clean word) : pmem.survivors word = [pmem.now word] := by
  rw [Pmem.survivors, clean.1, clean.2]
  rfl

theorem Clean.image (clean : pmem.Clean word) (choice : Word → Nat) :
    pmem.image choice word = pmem.now word := by
  have member := pmem.image_mem choice word
  rwa [clean.survivors, List.mem_singleton] at member

theorem settled_clean (now : Word → Nat) (word : Word) : (settled now).Clean word := ⟨rfl, rfl⟩

@[simp] theorem store_now [DecidableEq Word] (value : Nat) :
    (pmem.store word value).now = fun other => if other = word then value else pmem.now other :=
  rfl

@[simp] theorem flush_now (words : List Word) : (pmem.flush line words).now = pmem.now := rfl

@[simp] theorem fence_now : pmem.fence.now = pmem.now := rfl

theorem store_fresh_other [DecidableEq Word] (value : Nat) (different : other ≠ word) :
    (pmem.store word value).fresh other = pmem.fresh other := if_neg different

theorem Clean.store [DecidableEq Word] (clean : pmem.Clean other) (value : Nat)
    (different : other ≠ word) :
    (pmem.store word value).Clean other :=
  ⟨(store_fresh_other value different).trans clean.1, clean.2⟩

theorem flush_fresh {words : List Word} (member : word ∈ words) :
    (pmem.flush line words).fresh word = [] :=
  if_pos (List.mem_map_of_mem member)

theorem flush_fresh_nil {words : List Word} (empty : pmem.fresh word = []) :
    (pmem.flush line words).fresh word = [] := by
  simp [flush, empty]

theorem Clean.flush (clean : pmem.Clean word) (words : List Word) :
    (pmem.flush line words).Clean word := by
  refine ⟨flush_fresh_nil clean.1, ?_⟩
  simp [Pmem.flush, clean.1, clean.2]

theorem Clean.fence (clean : pmem.Clean word) : pmem.fence.Clean word := ⟨clean.1, rfl⟩

theorem fence_clean (empty : pmem.fresh word = []) : pmem.fence.Clean word := ⟨empty, rfl⟩

/-- Survivors after a store are the new value and the survivors before it. -/
theorem survivors_store [DecidableEq Word] {value survivor : Nat}
    (member : survivor ∈ (pmem.store word value).survivors other) :
    (other = word ∧ survivor = value) ∨ survivor ∈ pmem.survivors other := by
  by_cases here : other = word
  · subst here
    simp only [survivors, store, if_pos, List.mem_cons, List.cons_append] at member ⊢
    tauto
  · simp only [survivors, store, if_neg here] at member ⊢
    exact .inr member

theorem survivors_flush {words : List Word} {survivor : Nat}
    (member : survivor ∈ (pmem.flush line words).survivors word) :
    survivor ∈ pmem.survivors word := by
  simp only [survivors, flush] at member ⊢
  split at member
  · simpa using member
  · exact member

theorem survivors_fence {survivor : Nat} (member : survivor ∈ pmem.fence.survivors word) :
    survivor ∈ pmem.survivors word := by
  simp only [survivors, fence, List.append_nil, List.mem_cons, List.mem_append] at member ⊢
  tauto

end Pmem

end Hiom
