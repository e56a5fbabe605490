import Mathlib

/-!
Second-chance sweeps over a ring of `n` slots. A sweep starts at a hand, passes
the slots that may not go, takes the mark off the marked ones it passes and
stops at the first that may go and has no mark.
-/

namespace Hiom.Sweep

def place (n hand k : Nat) : Nat := (hand + k) % n

def First (n hand : Nat) (property : Nat → Prop) (i : Nat) : Prop :=
  ∃ k < n, i = place n hand k ∧ property i ∧ ∀ j < k, ¬property (place n hand j)

def Passed (n hand steps i : Nat) : Prop := ∃ k < steps, i = place n hand k

instance (n hand steps i : Nat) : Decidable (Passed n hand steps i) :=
  inferInstanceAs (Decidable (∃ k < steps, i = place n hand k))

/-- The sweep from step `k` on: the step at which it stops, and the marks it
leaves. -/
def sweep (n hand : Nat) (evictable : Nat → Bool) :
    Nat → Nat → (Nat → Bool) → Option Nat × (Nat → Bool)
  | 0, _, marked => (none, marked)
  | left + 1, k, marked =>
      let i := place n hand k
      if evictable i then
        if marked i then sweep n hand evictable left (k + 1) (Function.update marked i false)
        else (some k, marked)
      else sweep n hand evictable left (k + 1) marked

variable {n hand steps i j k : Nat} {evictable marked now : Nat → Bool}

theorem place_lt (positive : 0 < n) : place n hand k < n := Nat.mod_lt _ positive

theorem place_lap : place n hand (k + n) = place n hand k := by
  unfold place
  rw [← Nat.add_assoc, Nat.add_mod_right]

/-- Within a lap no slot comes twice. -/
theorem lap_of_place_eq (before : j < k) (same : place n hand j = place n hand k) :
    j + n ≤ k := by
  have congruent : hand + j ≡ hand + k [MOD n] := same
  have divides : n ∣ k - j := (Nat.modEq_iff_dvd' (Nat.le_of_lt before)).mp
    (Nat.ModEq.add_left_cancel' hand congruent)
  have reach : n ≤ k - j := Nat.le_of_dvd (by omega) divides
  omega

/-- A lap comes to every slot. -/
theorem exists_place (inside : i < n) : ∃ k < n, place n hand k = i := by
  have positive : 0 < n := by omega
  have below : hand % n < n := Nat.mod_lt hand positive
  unfold place
  by_cases ahead : hand % n ≤ i
  · refine ⟨i - hand % n, by omega, ?_⟩
    have short : i - hand % n < n := by omega
    have together : hand % n + (i - hand % n) = i := by omega
    rw [Nat.add_mod, Nat.mod_eq_of_lt short, together, Nat.mod_eq_of_lt inside]
  · refine ⟨i + n - hand % n, by omega, ?_⟩
    have short : i + n - hand % n < n := by omega
    have together : hand % n + (i + n - hand % n) = i + n := by omega
    rw [Nat.add_mod, Nat.mod_eq_of_lt short, together, Nat.add_mod_right, Nat.mod_eq_of_lt inside]

theorem passed_succ : Passed n hand (steps + 1) i ↔ Passed n hand steps i ∨ i = place n hand steps := by
  constructor
  · rintro ⟨k, before, same⟩
    rcases Nat.lt_succ_iff_lt_or_eq.mp before with earlier | rfl
    · exact .inl ⟨k, earlier, same⟩
    · exact .inr same
  · rintro (⟨k, before, same⟩ | same)
    · exact ⟨k, Nat.lt_succ_of_lt before, same⟩
    · exact ⟨steps, Nat.lt_succ_self steps, same⟩

/-- What a sweep that has not stopped for `steps` steps has found: the slots
that may go had a mark, and lost it in the first lap. -/
structure Swept (n hand : Nat) (evictable marked : Nat → Bool) (steps : Nat) (now : Nat → Bool) :
    Prop where
  now_eq : ∀ i, now i = (marked i && !(evictable i && decide (Passed n hand steps i)))
  had_mark : ∀ k < steps, evictable (place n hand k) = true → marked (place n hand k) = true
  second_lap : ∀ k < steps, n ≤ k → evictable (place n hand k) = false

theorem Swept.start : Swept n hand evictable marked 0 marked where
  now_eq := by
    intro i
    have none_passed : ¬Passed n hand 0 i := fun ⟨k, before, _⟩ => absurd before (Nat.not_lt_zero k)
    simp [none_passed]
  had_mark := fun k before => absurd before (Nat.not_lt_zero k)
  second_lap := fun k before => absurd before (Nat.not_lt_zero k)

/-- The sweep passes a slot that may not go. -/
theorem Swept.skip (swept : Swept n hand evictable marked steps now)
    (kept : evictable (place n hand steps) = false) :
    Swept n hand evictable marked (steps + 1) now where
  now_eq := by
    intro i
    rw [swept.now_eq i]
    by_cases here : i = place n hand steps
    · rw [here, kept]
      simp
    · simp [passed_succ, here]
  had_mark := by
    intro k before may_go
    rcases Nat.lt_succ_iff_lt_or_eq.mp before with earlier | rfl
    · exact swept.had_mark k earlier may_go
    · rw [kept] at may_go
      cases may_go
  second_lap := by
    intro k before later
    rcases Nat.lt_succ_iff_lt_or_eq.mp before with earlier | rfl
    · exact swept.second_lap k earlier later
    · exact kept

/-- A slot that may go and has a mark is in the first lap. -/
theorem Swept.first_lap (swept : Swept n hand evictable marked steps now) (positive : 0 < n)
    (may_go : evictable (place n hand steps) = true) (mark : now (place n hand steps) = true) :
    steps < n := by
  by_contra late
  have earlier : place n hand (steps - n) = place n hand steps := by
    rw [← place_lap, Nat.sub_add_cancel (Nat.le_of_not_lt late)]
  have passed : Passed n hand steps (place n hand steps) := ⟨steps - n, by omega, earlier.symm⟩
  rw [swept.now_eq] at mark
  simp [may_go, passed] at mark

/-- The sweep takes the mark off a slot. -/
theorem Swept.unmark (swept : Swept n hand evictable marked steps now) (positive : 0 < n)
    (may_go : evictable (place n hand steps) = true) (mark : now (place n hand steps) = true) :
    Swept n hand evictable marked (steps + 1)
      (Function.update now (place n hand steps) false) where
  now_eq := by
    intro i
    by_cases here : i = place n hand steps
    · have passed : Passed n hand (steps + 1) i := passed_succ.mpr (.inr here)
      rw [here, Function.update_self, ← here]
      rw [← here] at may_go
      simp [may_go, passed]
    · rw [Function.update_of_ne here, swept.now_eq i]
      simp [passed_succ, here]
  had_mark := by
    intro k before evictable_k
    rcases Nat.lt_succ_iff_lt_or_eq.mp before with earlier | rfl
    · exact swept.had_mark k earlier evictable_k
    · rw [swept.now_eq, Bool.and_eq_true] at mark
      exact mark.1
  second_lap := by
    intro k before later
    rcases Nat.lt_succ_iff_lt_or_eq.mp before with earlier | rfl
    · exact swept.second_lap k earlier later
    · have inside := swept.first_lap positive may_go mark
      omega

/-- A sweep ends at a slot that may go and has no mark, or has made all its
steps. -/
theorem sweep_swept (positive : 0 < n) (left : Nat)
    (swept : Swept n hand evictable marked k now) :
    let result := sweep n hand evictable left k now
    match result.1 with
    | some last => k ≤ last ∧ last < k + left ∧ Swept n hand evictable marked last result.2 ∧
        evictable (place n hand last) = true ∧ result.2 (place n hand last) = false
    | none => Swept n hand evictable marked (k + left) result.2 := by
  induction left generalizing k now with
  | zero => exact swept
  | succ left ih =>
      simp only [sweep]
      by_cases may_go : evictable (place n hand k) = true
      · by_cases mark : now (place n hand k) = true
        · have next := ih (swept.unmark positive may_go mark)
          simp only [may_go, mark, if_true]
          revert next
          generalize sweep n hand evictable left (k + 1) _ = result
          rcases result with ⟨_ | last, final⟩
          · intro ended
            rwa [Nat.add_right_comm, Nat.add_assoc] at ended
          · rintro ⟨after, within, stopped⟩
            exact ⟨by omega, by omega, stopped⟩
        · simp only [may_go, mark, if_true]
          exact ⟨Nat.le_refl k, by omega, swept, may_go, by simpa using mark⟩
      · have next := ih (swept.skip (by simpa using may_go))
        simp only [may_go]
        revert next
        generalize sweep n hand evictable left (k + 1) now = result
        rcases result with ⟨_ | last, final⟩
        · intro ended
          rwa [Nat.add_right_comm, Nat.add_assoc] at ended
        · rintro ⟨after, within, stopped⟩
          exact ⟨by omega, by omega, stopped⟩

/-! ### Two laps -/

/-- What two laps come to. `steps` is the number of slots passed. -/
structure TwoLaps (n hand : Nat) (evictable marked : Nat → Bool) (found : Option Nat)
    (steps : Nat) (now : Nat → Bool) : Prop where
  within : steps ≤ 2 * n
  now_eq : ∀ i, now i = (marked i && !(evictable i && decide (Passed n hand steps i)))
  none_iff : found = none ↔ ∀ i < n, evictable i = false
  some_place : ∀ i, found = some i → i = place n hand steps ∧ steps < 2 * n ∧ evictable i = true
  unmarked : ∀ i, found = some i → (∃ j < n, evictable j = true ∧ marked j = false) →
    First n hand (fun j => evictable j = true ∧ marked j = false) i ∧ steps < n
  all_marked : ∀ i, found = some i → (∀ j < n, evictable j = true → marked j = true) →
    First n hand (fun j => evictable j = true) i ∧ n ≤ steps

theorem Swept.none_evictable (swept : Swept n hand evictable marked (2 * n) now) (inside : i < n) :
    evictable i = false := by
  have placed : ∃ k < n, place n hand k = i := exists_place inside
  obtain ⟨k, before, rfl⟩ := placed
  rw [← place_lap]
  exact swept.second_lap (k + n) (by omega) (by omega)

/-- Where a sweep stops in the first lap is the first slot that may go and has
no mark. -/
theorem Swept.first_unmarked (swept : Swept n hand evictable marked steps now)
    (may_go : evictable (place n hand steps) = true) (free : now (place n hand steps) = false)
    (early : steps < n) :
    First n hand (fun j => evictable j = true ∧ marked j = false) (place n hand steps) := by
  refine ⟨steps, early, rfl, ⟨may_go, ?_⟩, ?_⟩
  · have not_passed : ¬Passed n hand steps (place n hand steps) := by
      rintro ⟨k, before, same⟩
      have lap := lap_of_place_eq before same.symm
      omega
    rw [swept.now_eq] at free
    simpa [not_passed] using free
  · rintro k before ⟨evictable_k, unmarked_k⟩
    rw [swept.had_mark k before evictable_k] at unmarked_k
    cases unmarked_k

/-- Once a lap is over every slot that may go had a mark. -/
theorem Swept.all_marked (swept : Swept n hand evictable marked steps now) (late : n ≤ steps)
    (inside : i < n) (may_go : evictable i = true) : marked i = true := by
  have placed : ∃ k < n, place n hand k = i := exists_place inside
  obtain ⟨k, before, rfl⟩ := placed
  exact swept.had_mark k (by omega) may_go

/-- Where a sweep stops in the second lap is the first slot that may go. -/
theorem Swept.first_evictable (swept : Swept n hand evictable marked steps now)
    (may_go : evictable (place n hand steps) = true) (late : n ≤ steps) (within : steps < 2 * n) :
    First n hand (fun j => evictable j = true) (place n hand steps) := by
  have lap : ∀ k, place n hand (k + n) = place n hand k := fun k => place_lap
  refine ⟨steps - n, by omega, ?_, may_go, ?_⟩
  · rw [← lap (steps - n), Nat.sub_add_cancel late]
  · intro k before evictable_k
    rw [← lap k, swept.second_lap (k + n) (by omega) (by omega)] at evictable_k
    cases evictable_k

theorem sweep_two_laps (positive : 0 < n) :
    let result := sweep n hand evictable (2 * n) 0 marked
    ∃ steps, TwoLaps n hand evictable marked (result.1.map (place n hand)) steps result.2 := by
  have start : Swept n hand evictable marked 0 marked := .start
  have ended := sweep_swept positive (2 * n) start
  revert ended
  generalize sweep n hand evictable (2 * n) 0 marked = result
  rcases result with ⟨_ | last, final⟩
  · intro swept
    dsimp only at swept
    rw [Nat.zero_add] at swept
    refine ⟨2 * n, ?_⟩
    exact {
      within := Nat.le_refl _
      now_eq := swept.now_eq
      none_iff := ⟨fun _ i inside => swept.none_evictable inside, fun _ => rfl⟩
      some_place := fun i found => by cases found
      unmarked := fun i found => by cases found
      all_marked := fun i found => by cases found }
  · rintro ⟨-, within, swept, may_go, free⟩
    rw [Nat.zero_add] at within
    refine ⟨last, ?_⟩
    exact {
      within := Nat.le_of_lt within
      now_eq := swept.now_eq
      none_iff := by
        constructor
        · intro absurd_some
          cases absurd_some
        · intro none_goes
          rw [none_goes _ (place_lt positive)] at may_go
          cases may_go
      some_place := by
        intro i found
        cases found
        exact ⟨rfl, within, may_go⟩
      unmarked := by
        intro i found some_unmarked
        cases found
        obtain ⟨j, inside, evictable_j, unmarked_j⟩ := some_unmarked
        by_cases early : last < n
        · exact ⟨swept.first_unmarked may_go free early, early⟩
        · rw [swept.all_marked (Nat.le_of_not_lt early) inside evictable_j] at unmarked_j
          cases unmarked_j
      all_marked := by
        intro i found all
        cases found
        by_cases early : last < n
        · have first := swept.first_unmarked may_go free early
          obtain ⟨k, before, same, ⟨evictable_k, unmarked_k⟩, -⟩ := first
          rw [all _ (place_lt positive) may_go] at unmarked_k
          cases unmarked_k
        · have late : n ≤ last := Nat.le_of_not_lt early
          exact ⟨swept.first_evictable may_go late within, late⟩ }

end Hiom.Sweep
