import Hiom.Hot.Code
import Hiom.Lib.Sweep

/-!
The eviction from a full bucket: `sieve_evict` is a second-chance sweep of two
laps, in which the slots that are pinned or in flush may not go.
-/

namespace Hiom.HotTier

open Sweep (First Passed)

def Hot.unpinned (hot : Hot) (bucket i : Nat) : Bool :=
  get_state (hot.metas bucket).state i == SlotState.kUnpinned.bits

def Hot.visited (hot : Hot) (bucket : Nat) : Nat → Bool := (hot.metas bucket).visited

def Hot.Full (hot : Hot) (bucket : Nat) : Prop :=
  ∀ i < kSlotsPerBucket, hot.slots bucket i ≠ 0

instance (hot : Hot) (bucket : Nat) : Decidable (hot.Full bucket) :=
  inferInstanceAs (Decidable (∀ i < kSlotsPerBucket, hot.slots bucket i ≠ 0))

def Hot.evict (hot : Hot) (bucket i : Nat) : Hot :=
  { (hot.set_slot bucket i 0).set_hand bucket ((i + 1) % kSlotsPerBucket) with
    size := hot.size - 1
    eviction_count := hot.eviction_count + 1 }

variable {hot : Hot} {bucket : Nat}

theorem set_visited_self : hot.set_visited bucket (hot.visited bucket) = hot := by
  unfold Hot.set_visited Hot.set_meta Hot.visited
  rw [Function.update_eq_self]

theorem visit_set_visited (i : Nat) (bit : Bool) (marked : Nat → Bool) :
    (hot.visit bucket i bit).set_visited bucket marked = hot.set_visited bucket marked := by
  simp [Hot.visit, Hot.set_visited, Hot.set_meta]

theorem visited_visit (i : Nat) (bit : Bool) :
    (hot.visit bucket i bit).visited bucket = Function.update (hot.visited bucket) i bit := by
  simp [Hot.visit, Hot.set_visited, Hot.set_meta, Hot.visited]

theorem unpinned_visit (i : Nat) (bit : Bool) :
    (hot.visit bucket i bit).unpinned bucket = hot.unpinned bucket := by
  funext j
  simp [Hot.visit, Hot.set_visited, Hot.set_meta, Hot.unpinned]

theorem visited_set_visited (marked : Nat → Bool) :
    (hot.set_visited bucket marked).visited bucket = marked := by
  simp [Hot.set_visited, Hot.set_meta, Hot.visited]

theorem visited_evict (i : Nat) : (hot.evict bucket i).visited bucket = hot.visited bucket := by
  simp [Hot.evict, Hot.set_slot, Hot.set_hand, Hot.set_meta, Hot.visited]

theorem slots_set_slot (i v b j : Nat) :
    (hot.set_slot bucket i v).slots b j = if b = bucket ∧ j = i then v else hot.slots b j := by
  by_cases same : b = bucket
  · subst same
    by_cases here : j = i <;> simp [Hot.set_slot, here]
  · simp [Hot.set_slot, same]

theorem slots_evict (i b j : Nat) :
    (hot.evict bucket i).slots b j = if b = bucket ∧ j = i then 0 else hot.slots b j :=
  slots_set_slot i 0 b j

/-- On a full bucket the loop is the sweep. -/
theorem sieve_from_run (hand left k : Nat) (full : hot.Full bucket) :
    (sieve_from bucket hand left k).run hotSem hot =
      match Sweep.sweep kSlotsPerBucket hand (hot.unpinned bucket) left k (hot.visited bucket) with
      | (some last, marked) =>
          let i := Sweep.place kSlotsPerBucket hand last
          (some i, (hot.set_visited bucket marked).evict bucket i)
      | (none, marked) => (none, hot.set_visited bucket marked) := by
  induction left generalizing hot k with
  | zero => simp [sieve_from, Sweep.sweep, set_visited_self]
  | succ left ih =>
      have same : (hand + k) % kSlotsPerBucket = Sweep.place kSlotsPerBucket hand k := rfl
      have inside : Sweep.place kSlotsPerBucket hand k < kSlotsPerBucket :=
        Sweep.place_lt (by decide)
      have occupied := full _ inside
      simp only [sieve_from, Sweep.sweep, Prog.run_bind, run_load_state, same]
      by_cases may_go : hot.unpinned bucket (Sweep.place kSlotsPerBucket hand k) = true
      · have found := may_go
        rw [Hot.unpinned, beq_iff_eq] at found
        simp only [may_go, found, if_true, Prog.run_bind, run_load_visited]
        by_cases mark : hot.visited bucket (Sweep.place kSlotsPerBucket hand k) = true
        · have kept : (hot.visit bucket (Sweep.place kSlotsPerBucket hand k) false).Full bucket :=
            full
          have rest := ih (k + 1) kept
          simp only [unpinned_visit, visited_visit, visit_set_visited] at rest
          have visited : (hot.metas bucket).visited (Sweep.place kSlotsPerBucket hand k) = true :=
            mark
          simp only [visited, mark, if_true, Prog.run_bind, run_write_visited]
          exact rest
        · have unvisited : ¬(hot.metas bucket).visited (Sweep.place kSlotsPerBucket hand k) = true :=
            mark
          simp only [unvisited, mark, Bool.false_eq_true, if_false, if_true, Prog.run_bind,
            run_load_slot, occupied, run_cas_slot, run_sub_size, run_add_evictions,
            run_store_hand, Prog.run_ret]
          rw [set_visited_self]
          rfl
      · have pinned := may_go
        rw [Hot.unpinned, beq_iff_eq] at pinned
        simp only [may_go, pinned, Bool.false_eq_true, if_false]
        exact ih (k + 1) full

theorem sieve_evict_run (full : hot.Full bucket) :
    (sieve_evict bucket).run hotSem hot =
      match Sweep.sweep kSlotsPerBucket (hot.metas bucket).hand (hot.unpinned bucket)
          (2 * kSlotsPerBucket) 0 (hot.visited bucket) with
      | (some last, marked) =>
          let i := Sweep.place kSlotsPerBucket (hot.metas bucket).hand last
          (some i, (hot.set_visited bucket marked).evict bucket i)
      | (none, marked) => (none, hot.set_visited bucket marked) := by
  rw [sieve_evict, Prog.run_bind, run_load_hand]
  exact sieve_from_run _ _ 0 full

/-- What `sieve_evict` does to a full bucket. `steps` is the number of slots it
has passed. -/
structure Sieved (hot : Hot) (bucket : Nat) (answer : Option Nat) (after : Hot) (steps : Nat) :
    Prop where
  within : steps ≤ 2 * kSlotsPerBucket
  returns : answer.isSome = true ↔ ∃ i < kSlotsPerBucket, hot.unpinned bucket i = true
  victim : ∀ i, answer = some i →
    i = Sweep.place kSlotsPerBucket (hot.metas bucket).hand steps ∧ i < kSlotsPerBucket ∧
      hot.unpinned bucket i = true ∧ steps < 2 * kSlotsPerBucket
  unvisited : ∀ i, answer = some i →
    (∃ j < kSlotsPerBucket, hot.unpinned bucket j = true ∧ hot.visited bucket j = false) →
      First kSlotsPerBucket (hot.metas bucket).hand
        (fun j => hot.unpinned bucket j = true ∧ hot.visited bucket j = false) i ∧
      steps < kSlotsPerBucket
  all_visited : ∀ i, answer = some i →
    (∀ j < kSlotsPerBucket, hot.unpinned bucket j = true → hot.visited bucket j = true) →
      First kSlotsPerBucket (hot.metas bucket).hand (fun j => hot.unpinned bucket j = true) i ∧
      kSlotsPerBucket ≤ steps
  emptied : ∀ b i, after.slots b i =
    if b = bucket ∧ answer = some i then 0 else hot.slots b i
  bits : ∀ i, after.visited bucket i =
    (hot.visited bucket i && !(hot.unpinned bucket i &&
      decide (Passed kSlotsPerBucket (hot.metas bucket).hand steps i)))
  pinned_kept : ∀ i < kSlotsPerBucket, hot.unpinned bucket i = false →
    after.slots bucket i = hot.slots bucket i ∧ after.visited bucket i = hot.visited bucket i
  states : (after.metas bucket).state = (hot.metas bucket).state
  hand : (after.metas bucket).hand =
    match answer with
    | some i => (i + 1) % kSlotsPerBucket
    | none => (hot.metas bucket).hand
  others : ∀ b ≠ bucket, after.metas b = hot.metas b
  counts : after.size = hot.size - (if answer.isSome then 1 else 0) ∧
    after.eviction_count = hot.eviction_count + (if answer.isSome then 1 else 0) ∧
    after.pin_failures = hot.pin_failures

/-- The second lap is enough, and it ends at the first slot that may go. -/
theorem sieve_evict_spec (full : hot.Full bucket) :
    ∃ steps, Sieved hot bucket ((sieve_evict bucket).run hotSem hot).1
      ((sieve_evict bucket).run hotSem hot).2 steps := by
  have positive : 0 < kSlotsPerBucket := by decide
  have laps := @Sweep.sweep_two_laps kSlotsPerBucket (hot.metas bucket).hand
    (hot.unpinned bucket) (hot.visited bucket) positive
  rw [sieve_evict_run full]
  revert laps
  generalize Sweep.sweep kSlotsPerBucket _ _ _ _ _ = result
  rintro ⟨steps, laps⟩
  refine ⟨steps, ?_⟩
  obtain ⟨_ | last, marked⟩ := result
  · have bits : ∀ i, (hot.set_visited bucket marked).visited bucket i =
        (hot.visited bucket i && !(hot.unpinned bucket i &&
          decide (Passed kSlotsPerBucket (hot.metas bucket).hand steps i))) := by
      intro i
      rw [visited_set_visited]
      exact laps.now_eq i
    have none_goes := laps.none_iff.mp rfl
    exact {
      within := laps.within
      returns := by
        constructor
        · intro impossible
          cases impossible
        · rintro ⟨i, inside, may_go⟩
          rw [none_goes i inside] at may_go
          cases may_go
      victim := fun i found => by cases found
      unvisited := fun i found => by cases found
      all_visited := fun i found => by cases found
      emptied := fun b i => by simp [Hot.set_visited, Hot.set_meta]
      bits := bits
      pinned_kept := fun i _ pinned => ⟨rfl, by rw [bits i, pinned]; simp⟩
      states := by simp [Hot.set_visited, Hot.set_meta]
      hand := by simp [Hot.set_visited, Hot.set_meta]
      others := fun b other => Function.update_of_ne other _ _
      counts := ⟨rfl, rfl, rfl⟩ }
  · obtain ⟨same, before, may_go⟩ := laps.some_place _ rfl
    have inside : Sweep.place kSlotsPerBucket (hot.metas bucket).hand last < kSlotsPerBucket :=
      Sweep.place_lt positive
    have bits : ∀ i, ((hot.set_visited bucket marked).evict bucket
        (Sweep.place kSlotsPerBucket (hot.metas bucket).hand last)).visited bucket i =
        (hot.visited bucket i && !(hot.unpinned bucket i &&
          decide (Passed kSlotsPerBucket (hot.metas bucket).hand steps i))) := by
      intro i
      rw [visited_evict, visited_set_visited]
      exact laps.now_eq i
    exact {
      within := laps.within
      returns := ⟨fun _ => ⟨_, inside, may_go⟩, fun _ => rfl⟩
      victim := by
        intro i found
        cases found
        exact ⟨same, inside, may_go, before⟩
      unvisited := fun i found => laps.unmarked i found
      all_visited := fun i found => laps.all_marked i found
      emptied := by
        intro b i
        rw [slots_evict]
        simp [Hot.set_visited, Hot.set_meta, eq_comm]
      bits := bits
      pinned_kept := by
        intro i _ pinned
        have different : i ≠ Sweep.place kSlotsPerBucket (hot.metas bucket).hand last := by
          rintro rfl
          rw [pinned] at may_go
          cases may_go
        constructor
        · rw [slots_evict, if_neg (fun both => different both.2)]
          rfl
        · rw [bits i, pinned]
          simp
      states := by simp [Hot.evict, Hot.set_visited, Hot.set_hand, Hot.set_slot, Hot.set_meta]
      hand := by simp [Hot.evict, Hot.set_visited, Hot.set_hand, Hot.set_slot, Hot.set_meta]
      others := by
        intro b other
        simp [Hot.evict, Hot.set_visited, Hot.set_hand, Hot.set_slot, Hot.set_meta, other]
      counts := ⟨rfl, rfl, rfl⟩ }

/-- Slots 0 and 1 are pinned, all but slots 6 and 9 are visited, and the hand is
at 8. -/
def full_bucket : Hot where
  slots := fun _ i => pack (i + 1) i
  metas := fun _ => ⟨fun i => i != 6 && i != 9, 8, 0b0101#32⟩
  size := 16
  eviction_count := 0
  pin_failures := 0

theorem sieve_evict_past_visited :
    full_bucket.Full 0 ∧
      ∃ steps, Sieved full_bucket 0 (some 9) ((sieve_evict 0).run hotSem full_bucket).2 steps := by
  have full : full_bucket.Full 0 := by decide
  have answer : ((sieve_evict 0).run hotSem full_bucket).1 = some 9 := by decide
  obtain ⟨steps, sieved⟩ := sieve_evict_spec full
  rw [answer] at sieved
  exact ⟨full, steps, sieved⟩

end Hiom.HotTier
