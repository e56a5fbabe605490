import Hiom.Hot.Sieve
import Hiom.Lib.Count
import Hiom.Lib.Machine
import Mathlib

/-!
HotTier under one caller: a lossy cache that answers with the offset last
stored for a fingerprint, or with nothing.
-/

namespace Hiom.HotTier

/-! ### The scans -/

section Scans

variable {hot : Hot} {bucket fingerprint : Nat}

def Found (hot : Hot) (bucket fingerprint first upto : Nat) : Option (Nat × Nat) → Prop
  | some (i, v) => i < upto ∧ hot.slots bucket i = v ∧ unpack_fp v = fingerprint
  | none => ∀ i, first ≤ i → i < upto → unpack_fp (hot.slots bucket i) ≠ fingerprint

theorem Found.before {first upto : Nat} {answer : Option (Nat × Nat)}
    (found : Found hot bucket fingerprint (first + 1) upto answer)
    (other : unpack_fp (hot.slots bucket first) ≠ fingerprint) :
    Found hot bucket fingerprint first upto answer := by
  cases answer with
  | some slot => exact found
  | none =>
      intro i from_first below
      by_cases here : i = first
      · rw [here]
        exact other
      · exact found i (by omega) below

theorem find_from (left i : Nat) :
    ((find bucket fingerprint left i).run hotSem hot).2 = hot ∧
      Found hot bucket fingerprint i (i + left)
        ((find bucket fingerprint left i).run hotSem hot).1 := by
  induction left generalizing i with
  | zero =>
      constructor
      · rfl
      · intro j from_i below
        omega
  | succ left ih =>
      simp only [find, Prog.run_bind, run_load_slot]
      by_cases same : unpack_fp (hot.slots bucket i) = fingerprint
      · simp only [same, if_true]
        exact ⟨rfl, by omega, rfl, same⟩
      · simp only [same, if_false]
        obtain ⟨kept, found⟩ := ih (i + 1)
        have shifted : i + 1 + left = i + (left + 1) := by omega
        rw [shifted] at found
        exact ⟨kept, found.before same⟩

theorem find_run :
    ((find bucket fingerprint kSlotsPerBucket 0).run hotSem hot).2 = hot ∧
      Found hot bucket fingerprint 0 kSlotsPerBucket
        ((find bucket fingerprint kSlotsPerBucket 0).run hotSem hot).1 := by
  have scanned := @find_from hot bucket fingerprint kSlotsPerBucket 0
  rw [Nat.zero_add] at scanned
  exact scanned

def Empty (hot : Hot) (bucket upto : Nat) : Option Nat → Prop
  | some i => i < upto ∧ unpack_fp (hot.slots bucket i) = 0
  | none => ∀ i < upto, unpack_fp (hot.slots bucket i) ≠ 0

def Probed.Sees (hot : Hot) (bucket fingerprint first upto : Nat) : Probed → Prop
  | .matched i v => Found hot bucket fingerprint first upto (some (i, v))
  | .missing first_empty =>
      Found hot bucket fingerprint first upto none ∧ Empty hot bucket upto first_empty

theorem Probed.Sees.before {first upto : Nat} {answer : Probed}
    (sees : answer.Sees hot bucket fingerprint (first + 1) upto)
    (other : unpack_fp (hot.slots bucket first) ≠ fingerprint) :
    answer.Sees hot bucket fingerprint first upto := by
  cases answer with
  | matched i v => exact sees
  | missing first_empty => exact ⟨sees.1.before other, sees.2⟩

theorem probe_from (left i : Nat) (first_empty : Option Nat)
    (seen : Empty hot bucket i first_empty) :
    ((probe bucket fingerprint left i first_empty).run hotSem hot).2 = hot ∧
      ((probe bucket fingerprint left i first_empty).run hotSem hot).1.Sees hot bucket
        fingerprint i (i + left) := by
  induction left generalizing i first_empty with
  | zero =>
      refine ⟨rfl, ?_, seen⟩
      intro j from_i below
      omega
  | succ left ih =>
      have shifted : i + 1 + left = i + (left + 1) := by omega
      simp only [probe, Prog.run_bind, run_load_slot]
      by_cases same : unpack_fp (hot.slots bucket i) = fingerprint
      · simp only [same, if_true]
        exact ⟨rfl, by omega, rfl, same⟩
      · simp only [same, if_false]
        by_cases first : unpack_fp (hot.slots bucket i) = 0 ∧ first_empty = none
        · simp only [first, and_self, if_true]
          obtain ⟨kept, sees⟩ := ih (i + 1) (some i) ⟨Nat.lt_succ_self i, first.1⟩
          rw [shifted] at sees
          exact ⟨kept, sees.before same⟩
        · simp only [first, if_false]
          have still : Empty hot bucket (i + 1) first_empty := by
            cases first_empty with
            | some e => exact ⟨Nat.lt_succ_of_lt seen.1, seen.2⟩
            | none =>
                intro j below
                by_cases here : j = i
                · rw [here]
                  exact fun empty => first ⟨empty, rfl⟩
                · exact seen j (by omega)
          obtain ⟨kept, sees⟩ := ih (i + 1) first_empty still
          rw [shifted] at sees
          exact ⟨kept, sees.before same⟩

theorem probe_run :
    ((probe bucket fingerprint kSlotsPerBucket 0 none).run hotSem hot).2 = hot ∧
      ((probe bucket fingerprint kSlotsPerBucket 0 none).run hotSem hot).1.Sees hot bucket
        fingerprint 0 kSlotsPerBucket := by
  have nothing : Empty hot bucket 0 none := fun i before => absurd before (Nat.not_lt_zero i)
  have scanned := @probe_from hot bucket fingerprint kSlotsPerBucket 0 none nothing
  rw [Nat.zero_add] at scanned
  exact scanned

end Scans

/-! ### Insertions -/

section Insertions

variable {hot after : Hot} {bucket fingerprint offset : Nat}

theorem set_visited_metas (i : Nat) :
    ∃ metas, ((set_visited bucket i).run hotSem hot).2 = { hot with metas := metas } := by
  unfold set_visited
  rw [Prog.run_bind, run_load_visited]
  dsimp only
  split
  · exact ⟨_, rfl⟩
  · exact ⟨_, rfl⟩

theorem clear_visited_metas (i : Nat) :
    ∃ metas, ((clear_visited bucket i).run hotSem hot).2 = { hot with metas := metas } := by
  unfold clear_visited
  rw [Prog.run_bind, run_load_visited]
  dsimp only
  split
  · exact ⟨_, rfl⟩
  · exact ⟨_, rfl⟩

/-- Every slot of the bucket is occupied by another fingerprint and none may be
evicted. -/
def Hot.Refuses (hot : Hot) (bucket fingerprint : Nat) : Prop :=
  ∀ i < kSlotsPerBucket, hot.slots bucket i ≠ 0 ∧ unpack_fp (hot.slots bucket i) ≠ fingerprint ∧
    hot.unpinned bucket i = false

instance (hot : Hot) (bucket fingerprint : Nat) : Decidable (hot.Refuses bucket fingerprint) :=
  inferInstanceAs (Decidable (∀ i < kSlotsPerBucket, hot.slots bucket i ≠ 0 ∧
    unpack_fp (hot.slots bucket i) ≠ fingerprint ∧ hot.unpinned bucket i = false))

def Hot.Displaces (hot : Hot) (bucket fingerprint : Nat) : Prop :=
  (∀ i < kSlotsPerBucket, hot.slots bucket i ≠ 0 ∧
    unpack_fp (hot.slots bucket i) ≠ fingerprint) ∧
    ∃ i < kSlotsPerBucket, hot.unpinned bucket i = true

instance (hot : Hot) (bucket fingerprint : Nat) : Decidable (hot.Displaces bucket fingerprint) :=
  inferInstanceAs (Decidable ((∀ i < kSlotsPerBucket, hot.slots bucket i ≠ 0 ∧
    unpack_fp (hot.slots bucket i) ≠ fingerprint) ∧
    ∃ i < kSlotsPerBucket, hot.unpinned bucket i = true))

def Placed.answer : Placed → Nat
  | .replaced _ v => unpack_off v
  | .inserted _ | .failed => kInvalidOffset

inductive PlaceResult (hot : Hot) (bucket fingerprint offset : Nat) : Placed → Hot → Prop
  | replaced {i v : Nat} {after : Hot} (inside : i < kSlotsPerBucket)
      (slot : hot.slots bucket i = v) (same : unpack_fp v = fingerprint)
      (slots : after.slots = (hot.set_slot bucket i (pack fingerprint offset)).slots)
      (size : after.size = hot.size) (evictions : after.eviction_count = hot.eviction_count) :
      PlaceResult hot bucket fingerprint offset (.replaced i v) after
  | vacant {i : Nat} {after : Hot} (inside : i < kSlotsPerBucket)
      (slot : hot.slots bucket i = 0)
      (absent : Found hot bucket fingerprint 0 kSlotsPerBucket none)
      (slots : after.slots = (hot.set_slot bucket i (pack fingerprint offset)).slots)
      (size : after.size = hot.size + 1)
      (evictions : after.eviction_count = hot.eviction_count) :
      PlaceResult hot bucket fingerprint offset (.inserted i) after
  | evicted {i : Nat} {after : Hot} (inside : i < kSlotsPerBucket)
      (displaces : hot.Displaces bucket fingerprint) (may_go : hot.unpinned bucket i = true)
      (slots : after.slots = (hot.set_slot bucket i (pack fingerprint offset)).slots)
      (size : after.size = hot.size - 1 + 1)
      (evictions : after.eviction_count = hot.eviction_count + 1) :
      PlaceResult hot bucket fingerprint offset (.inserted i) after
  | refused {after : Hot} (refuses : hot.Refuses bucket fingerprint)
      (slots : after.slots = hot.slots) (size : after.size = hot.size)
      (evictions : after.eviction_count = hot.eviction_count) :
      PlaceResult hot bucket fingerprint offset .failed after

/-- What a claim of slot `i` leaves of the state `last`. -/
theorem claim_run {last : Hot} {i retries : Nat} (vacant : last.slots bucket i = 0) :
    ∃ metas, (do
      let claimed ← cas_slot bucket i 0 (pack fingerprint offset)
      if claimed then
        add_size
        clear_visited bucket i
        .ret (.inserted i)
      else place bucket fingerprint offset retries : HotCode Placed).run hotSem last =
      (.inserted i, { last.set_slot bucket i (pack fingerprint offset) with
        size := last.size + 1
        metas := metas }) := by
  obtain ⟨metas, cleared⟩ := @clear_visited_metas
    { last.set_slot bucket i (pack fingerprint offset) with size := last.size + 1 } bucket i
  refine ⟨metas, ?_⟩
  simp only [Prog.run_bind, run_cas_slot, vacant, if_true, run_add_size]
  exact Prod.ext rfl cleared

theorem place_run (words : ∀ i, unpack_fp (hot.slots bucket i) = 0 → hot.slots bucket i = 0)
    (retries : Nat) :
    PlaceResult hot bucket fingerprint offset
      ((place bucket fingerprint offset (retries + 1)).run hotSem hot).1
      ((place bucket fingerprint offset (retries + 1)).run hotSem hot).2 := by
  have scanned := @probe_run hot bucket fingerprint
  rw [place, Prog.run_bind]
  revert scanned
  generalize (probe bucket fingerprint kSlotsPerBucket 0 none).run hotSem hot = result
  obtain ⟨answer, last⟩ := result
  rintro ⟨kept, sees⟩
  simp only at kept
  subst kept
  cases answer with
  | matched i v =>
      obtain ⟨inside, slot, same⟩ := sees
      obtain ⟨metas, visited⟩ := @set_visited_metas
        (last.set_slot bucket i (pack fingerprint offset)) bucket i
      simp only [Prog.run_bind, run_cas_slot, slot, if_true, visited]
      exact .replaced inside slot same rfl rfl rfl
  | missing first_empty =>
      obtain ⟨absent, empty⟩ := sees
      cases first_empty with
      | some i =>
          obtain ⟨inside, no_fp⟩ := empty
          have vacant := words i no_fp
          obtain ⟨metas, claimed⟩ := @claim_run bucket fingerprint offset last i retries vacant
          simp only [Prog.ret_bind]
          rw [claimed]
          exact .vacant inside vacant absent rfl rfl rfl
      | none =>
          have full : last.Full bucket := by
            intro i inside vacant
            have no_fp := empty i inside
            rw [vacant] at no_fp
            exact no_fp rfl
          obtain ⟨steps, sieved⟩ := sieve_evict_spec full
          simp only [Prog.run_bind]
          revert sieved
          generalize (sieve_evict bucket).run hotSem last = result
          obtain ⟨victim, swept⟩ := result
          intro sieved
          have others : ∀ i < kSlotsPerBucket, last.slots bucket i ≠ 0 ∧
              unpack_fp (last.slots bucket i) ≠ fingerprint := by
            intro i inside
            exact ⟨full i inside, absent i (Nat.zero_le i) inside⟩
          cases victim with
          | none =>
              have kept : swept.slots = last.slots := by
                funext b i
                have emptied := sieved.emptied b i
                simp only [reduceCtorEq, and_false, if_false] at emptied
                exact emptied
              have none_goes : last.Refuses bucket fingerprint := by
                intro i inside
                refine ⟨(others i inside).1, (others i inside).2, ?_⟩
                have silent : ¬∃ i < kSlotsPerBucket, last.unpinned bucket i = true :=
                  fun goes => absurd (sieved.returns.mpr goes) (by simp)
                cases may_go : last.unpinned bucket i with
                | false => rfl
                | true => exact absurd ⟨i, inside, may_go⟩ silent
              exact .refused none_goes kept sieved.counts.1 sieved.counts.2.1
          | some i =>
              obtain ⟨-, inside, may_go, -⟩ := sieved.victim i rfl
              have vacant : swept.slots bucket i = 0 := by
                rw [sieved.emptied bucket i, if_pos ⟨rfl, rfl⟩]
              obtain ⟨metas, claimed⟩ :=
                @claim_run bucket fingerprint offset swept i retries vacant
              have overwritten : (swept.set_slot bucket i (pack fingerprint offset)).slots =
                  (last.set_slot bucket i (pack fingerprint offset)).slots := by
                funext b j
                rw [slots_set_slot, slots_set_slot, sieved.emptied b j]
                by_cases here : b = bucket ∧ j = i
                · rw [if_pos here, if_pos here]
                · have elsewhere : ¬(b = bucket ∧ some i = some j) := by
                    rintro ⟨same, found⟩
                    cases found
                    exact here ⟨same, rfl⟩
                  rw [if_neg here, if_neg here, if_neg elsewhere]
              have sized : swept.size = last.size - 1 := sieved.counts.1
              have evictions : swept.eviction_count = last.eviction_count + 1 :=
                sieved.counts.2.1
              dsimp only
              rw [claimed]
              refine .evicted inside ⟨others, i, inside, may_go⟩ may_go overwritten ?_ evictions
              rw [← sized]

end Insertions

/-! ### The table -/

section Table

variable {num_buckets : Nat} {hot after : Hot} {bucket i v fp other off : Nat}

theorem bucket_index_lt (positive : 0 < num_buckets) (fp : Nat) :
    bucket_index num_buckets fp < num_buckets := by
  unfold bucket_index
  have below := @Nat.and_le_right
    ((((fp ^^^ (fp >>> 16)) * 0x85ebca6b9c1cdcb) % 2 ^ 64) ^^^
      ((((fp ^^^ (fp >>> 16)) * 0x85ebca6b9c1cdcb) % 2 ^ 64) >>> 13)) (num_buckets - 1)
  dsimp only
  omega

/-- Every word is in the bucket of its fingerprint, no two of a bucket have the
same fingerprint, and `size` counts them. -/
structure Hot.Intact (num_buckets : Nat) (hot : Hot) : Prop where
  homed : ∀ b i, hot.slots b i ≠ 0 → b < num_buckets ∧ i < kSlotsPerBucket ∧
    unpack_fp (hot.slots b i) ≠ 0 ∧ bucket_index num_buckets (unpack_fp (hot.slots b i)) = b
  unique : ∀ b i j, hot.slots b i ≠ 0 →
    unpack_fp (hot.slots b i) = unpack_fp (hot.slots b j) → i = j
  counted : Counts (fun v : Nat => v ≠ 0) (fun p : Nat × Nat => hot.slots p.1 p.2) hot.size

namespace Hot.Intact

theorem empty : Hot.empty.Intact num_buckets where
  homed := fun _ _ occupied => absurd rfl occupied
  unique := fun _ _ _ occupied => absurd rfl occupied
  counted := Counts.none_meets (fun _ occupied => occupied rfl)

theorem word_eq_zero (intact : hot.Intact num_buckets) (i : Nat)
    (no_fp : unpack_fp (hot.slots bucket i) = 0) : hot.slots bucket i = 0 := by
  by_contra occupied
  exact (intact.homed bucket i occupied).2.2.1 no_fp

end Hot.Intact

theorem occupied_of_fp (proper : fp ≠ 0) (same : unpack_fp v = fp) : v ≠ 0 := by
  rintro rfl
  exact proper same.symm

theorem family_set_slot (hot : Hot) (bucket i v : Nat) :
    (fun p : Nat × Nat => (hot.set_slot bucket i v).slots p.1 p.2) =
      Function.update (fun p : Nat × Nat => hot.slots p.1 p.2) (bucket, i) v := by
  funext p
  obtain ⟨b, j⟩ := p
  rw [slots_set_slot]
  by_cases here : b = bucket ∧ j = i
  · obtain ⟨rfl, rfl⟩ := here
    simp
  · have different : (b, j) ≠ (bucket, i) := by
      intro same
      cases same
      exact here ⟨rfl, rfl⟩
    rw [if_neg here, Function.update_of_ne different]

/-- A word of `fp` goes to a slot of its bucket, and no other slot has one. -/
theorem Hot.Intact.store (intact : hot.Intact num_buckets) (positive : 0 < num_buckets)
    (inside : i < kSlotsPerBucket) (proper : fp ≠ 0) (short : off < 2 ^ 32)
    (alone : ∀ j < kSlotsPerBucket, j ≠ i →
      unpack_fp (hot.slots (bucket_index num_buckets fp) j) ≠ fp)
    (slots : after.slots = (hot.set_slot (bucket_index num_buckets fp) i (pack fp off)).slots)
    (size : after.size =
      if hot.slots (bucket_index num_buckets fp) i = 0 then hot.size + 1 else hot.size) :
    after.Intact num_buckets := by
  have word : pack fp off ≠ 0 := pack_ne_zero short proper
  have none_else : ∀ j, j ≠ i → unpack_fp (hot.slots (bucket_index num_buckets fp) j) ≠ fp := by
    intro j different same
    have occupied := occupied_of_fp proper same
    exact alone j (intact.homed _ j occupied).2.1 different same
  constructor
  · intro b j
    rw [slots, slots_set_slot]
    by_cases here : b = bucket_index num_buckets fp ∧ j = i
    · rw [if_pos here]
      intro _
      obtain ⟨rfl, rfl⟩ := here
      rw [unpack_fp_pack short]
      exact ⟨bucket_index_lt positive fp, inside, proper, rfl⟩
    · rw [if_neg here]
      exact intact.homed b j
  · intro b j k
    rw [slots, slots_set_slot, slots_set_slot]
    by_cases first : b = bucket_index num_buckets fp ∧ j = i
    · obtain ⟨rfl, rfl⟩ := first
      simp only [and_self, if_true, true_and]
      by_cases second : k = j
      · exact fun _ _ => second.symm
      · simp only [second, if_false, unpack_fp_pack short]
        exact fun _ same => absurd same.symm (none_else k second)
    · rw [if_neg first]
      by_cases second : b = bucket_index num_buckets fp ∧ k = i
      · obtain ⟨rfl, rfl⟩ := second
        simp only [and_self, if_true, unpack_fp_pack short]
        have different : j ≠ k := fun same => first ⟨rfl, same⟩
        exact fun _ same => absurd same (none_else j different)
      · rw [if_neg second]
        exact intact.unique b j k
  · rw [slots, size, family_set_slot]
    by_cases vacant : hot.slots (bucket_index num_buckets fp) i = 0
    · rw [if_pos vacant]
      exact intact.counted.enter (not_not_intro vacant) word
    · rw [if_neg vacant]
      exact intact.counted.keep (iff_of_true word vacant)

theorem Hot.Intact.clear (intact : hot.Intact num_buckets) (occupied : hot.slots bucket i ≠ 0)
    (slots : after.slots = (hot.set_slot bucket i 0).slots)
    (size : after.size = hot.size - 1) : after.Intact num_buckets := by
  constructor
  · intro b j
    rw [slots, slots_set_slot]
    by_cases here : b = bucket ∧ j = i
    · rw [if_pos here]
      exact fun impossible => absurd rfl impossible
    · rw [if_neg here]
      exact intact.homed b j
  · intro b j k
    rw [slots, slots_set_slot, slots_set_slot]
    by_cases first : b = bucket ∧ j = i
    · rw [if_pos first]
      exact fun impossible => absurd rfl impossible
    · rw [if_neg first]
      by_cases second : b = bucket ∧ k = i
      · rw [if_pos second]
        exact fun present same => absurd same (intact.homed b j present).2.2.1
      · rw [if_neg second]
        exact intact.unique b j k
  · have positive : 0 < hot.size :=
      @Counts.pos _ _ _ _ (bucket, i) _ intact.counted occupied
    have split : hot.size = hot.size - 1 + 1 := by omega
    have counted := intact.counted
    rw [split] at counted
    rw [slots, size, family_set_slot]
    exact counted.leave occupied (not_not_intro rfl)

/-- At most all slots of all buckets are occupied. -/
theorem Hot.Intact.size_le (intact : hot.Intact num_buckets) :
    hot.size ≤ num_buckets * kSlotsPerBucket := by
  obtain ⟨members, exact, total⟩ := intact.counted
  have inside : members ⊆ Finset.range num_buckets ×ˢ Finset.range kSlotsPerBucket := by
    intro p member
    obtain ⟨low, below, _⟩ := intact.homed p.1 p.2 ((exact p).mp member)
    exact Finset.mem_product.mpr ⟨Finset.mem_range.mpr low, Finset.mem_range.mpr below⟩
  have bound := Finset.card_le_card inside
  rw [Finset.card_product, Finset.card_range, Finset.card_range, total] at bound
  exact bound

/-! ### What is cached -/

def Hot.cached (num_buckets : Nat) (hot : Hot) (fp : Nat) : Option Nat :=
  ((peek num_buckets fp).run hotSem hot).1

theorem cached_eq_some (intact : hot.Intact num_buckets) (proper : fp ≠ 0) :
    hot.cached num_buckets fp = some off ↔
      ∃ i < kSlotsPerBucket, unpack_fp (hot.slots (bucket_index num_buckets fp) i) = fp ∧
        unpack_off (hot.slots (bucket_index num_buckets fp) i) = off := by
  have scanned := @find_run hot (bucket_index num_buckets fp) fp
  unfold Hot.cached peek
  rw [Prog.run_bind]
  revert scanned
  generalize (find (bucket_index num_buckets fp) fp kSlotsPerBucket 0).run hotSem hot = result
  obtain ⟨answer, last⟩ := result
  rintro ⟨_, found⟩
  cases answer with
  | none =>
      simp only [Option.map_none, Prog.run_ret, reduceCtorEq, false_iff]
      rintro ⟨i, inside, same, _⟩
      exact found i (Nat.zero_le i) inside same
  | some slot =>
      obtain ⟨j, v⟩ := slot
      obtain ⟨inside, here, same⟩ := found
      subst here
      simp only [Option.map_some, Prog.run_ret, Option.some.injEq]
      constructor
      · exact fun answered => ⟨j, inside, same, answered⟩
      · rintro ⟨i, _, same_i, answered⟩
        have together : j = i := by
          apply intact.unique _ j i (occupied_of_fp proper same)
          rw [same, same_i]
        rw [together]
        exact answered

theorem cached_eq_none :
    hot.cached num_buckets fp = none ↔
      Found hot (bucket_index num_buckets fp) fp 0 kSlotsPerBucket none := by
  have scanned := @find_run hot (bucket_index num_buckets fp) fp
  unfold Hot.cached peek
  rw [Prog.run_bind]
  revert scanned
  generalize (find (bucket_index num_buckets fp) fp kSlotsPerBucket 0).run hotSem hot = result
  obtain ⟨answer, last⟩ := result
  rintro ⟨_, found⟩
  cases answer with
  | none => exact iff_of_true rfl found
  | some slot =>
      obtain ⟨j, v⟩ := slot
      obtain ⟨inside, here, same⟩ := found
      subst here
      simp only [Option.map_some, Prog.run_ret, reduceCtorEq, false_iff]
      exact fun absent => absent j (Nat.zero_le j) inside same

theorem cached_congr (intact : hot.Intact num_buckets) (kept : after.Intact num_buckets)
    (proper : fp ≠ 0) (slots : after.slots = hot.slots) :
    after.cached num_buckets fp = hot.cached num_buckets fp := by
  apply Option.ext
  intro off
  rw [cached_eq_some kept proper, cached_eq_some intact proper, slots]

/-- A write to a slot takes from the other fingerprints at most the one it has
overwritten. -/
theorem cached_set_slot (intact : hot.Intact num_buckets) (kept : after.Intact num_buckets)
    (proper : other ≠ 0) (inside : i < kSlotsPerBucket) (different : unpack_fp v ≠ other)
    (slots : after.slots = (hot.set_slot bucket i v).slots) :
    after.cached num_buckets other =
      if bucket = bucket_index num_buckets other ∧ unpack_fp (hot.slots bucket i) = other then none
      else hot.cached num_buckets other := by
  apply Option.ext
  intro off
  have written : ∀ j, after.slots (bucket_index num_buckets other) j =
      if bucket_index num_buckets other = bucket ∧ j = i then v
      else hot.slots (bucket_index num_buckets other) j := by
    intro j
    rw [slots, slots_set_slot]
  rw [cached_eq_some kept proper]
  by_cases overwritten :
    bucket = bucket_index num_buckets other ∧ unpack_fp (hot.slots bucket i) = other
  · rw [if_pos overwritten]
    obtain ⟨rfl, same⟩ := overwritten
    simp only [reduceCtorEq, iff_false]
    rintro ⟨j, _, same_j, _⟩
    rw [written j] at same_j
    by_cases here : j = i
    · simp only [here, and_self, if_true] at same_j
      exact different same_j
    · simp only [here, and_false, if_false] at same_j
      apply here
      apply intact.unique _ j i (occupied_of_fp proper same_j)
      rw [same, same_j]
  · rw [if_neg overwritten, cached_eq_some intact proper]
    constructor
    · rintro ⟨j, below, same_j, answered⟩
      rw [written j] at same_j answered
      by_cases here : bucket_index num_buckets other = bucket ∧ j = i
      · rw [if_pos here] at same_j
        exact absurd same_j different
      · rw [if_neg here] at same_j answered
        exact ⟨j, below, same_j, answered⟩
    · rintro ⟨j, below, same_j, answered⟩
      have elsewhere : ¬(bucket_index num_buckets other = bucket ∧ j = i) := by
        rintro ⟨rfl, rfl⟩
        exact overwritten ⟨rfl, same_j⟩
      refine ⟨j, below, ?_⟩
      rw [written j, if_neg elsewhere]
      exact ⟨same_j, answered⟩

theorem cached_store (kept : after.Intact num_buckets) (proper : fp ≠ 0) (short : off < 2 ^ 32)
    (inside : i < kSlotsPerBucket)
    (slots : after.slots = (hot.set_slot (bucket_index num_buckets fp) i (pack fp off)).slots) :
    after.cached num_buckets fp = some off := by
  rw [cached_eq_some kept proper]
  refine ⟨i, inside, ?_⟩
  rw [slots, slots_set_slot, if_pos ⟨rfl, rfl⟩]
  exact ⟨unpack_fp_pack short, unpack_off_pack short⟩

end Table

/-! ### Insertions and what is cached -/

section Results

variable {num_buckets fp other off : Nat} {hot last after : Hot} {placed : Placed}

def Hot.Evicts (num_buckets : Nat) (hot after : Hot) (fp : Nat) : Prop :=
  ∃ i < kSlotsPerBucket, unpack_fp (hot.slots (bucket_index num_buckets fp) i) = fp ∧
    hot.unpinned (bucket_index num_buckets fp) i = true ∧
    after.slots (bucket_index num_buckets fp) i ≠ hot.slots (bucket_index num_buckets fp) i

instance (hot after : Hot) : Decidable (hot.Evicts num_buckets after fp) :=
  inferInstanceAs (Decidable (∃ i < kSlotsPerBucket,
    unpack_fp (hot.slots (bucket_index num_buckets fp) i) = fp ∧
      hot.unpinned (bucket_index num_buckets fp) i = true ∧
      after.slots (bucket_index num_buckets fp) i ≠ hot.slots (bucket_index num_buckets fp) i))

theorem PlaceResult.congr
    (result : PlaceResult hot (bucket_index num_buckets fp) fp off placed last)
    (slots : after.slots = last.slots) (size : after.size = last.size)
    (evictions : after.eviction_count = last.eviction_count) :
    PlaceResult hot (bucket_index num_buckets fp) fp off placed after := by
  cases result with
  | replaced inside slot same slots' size' evictions' =>
      exact .replaced inside slot same (slots.trans slots') (size.trans size')
        (evictions.trans evictions')
  | vacant inside slot absent slots' size' evictions' =>
      exact .vacant inside slot absent (slots.trans slots') (size.trans size')
        (evictions.trans evictions')
  | evicted inside displaces may_go slots' size' evictions' =>
      exact .evicted inside displaces may_go (slots.trans slots') (size.trans size')
        (evictions.trans evictions')
  | refused refuses slots' size' evictions' =>
      exact .refused refuses (slots.trans slots') (size.trans size') (evictions.trans evictions')

namespace PlaceResult

variable (result : PlaceResult hot (bucket_index num_buckets fp) fp off placed after)
  (intact : hot.Intact num_buckets)

include result intact

theorem intact_after (positive : 0 < num_buckets) (proper : fp ≠ 0) (short : off < 2 ^ 32) :
    after.Intact num_buckets := by
  cases result with
  | @replaced i v _ inside slot same slots size evictions =>
      have occupied := occupied_of_fp proper same
      rw [← slot] at occupied same
      refine intact.store positive inside proper short ?_ slots ?_
      · intro j _ different same_j
        apply different
        exact intact.unique _ j i (occupied_of_fp proper same_j) (same_j.trans same.symm)
      · rw [if_neg occupied]
        exact size
  | vacant inside slot absent slots size evictions =>
      refine intact.store positive inside proper short ?_ slots ?_
      · exact fun j below _ => absent j (Nat.zero_le j) below
      · rw [if_pos slot]
        exact size
  | @evicted i _ inside displaces may_go slots size evictions =>
      have occupied := (displaces.1 i inside).1
      have counted : 0 < hot.size := @Counts.pos _ _ _ _ (_, i) _ intact.counted occupied
      refine intact.store positive inside proper short ?_ slots ?_
      · exact fun j below _ => (displaces.1 j below).2
      · rw [if_neg occupied]
        omega
  | refused refuses slots size evictions =>
      exact ⟨by rw [slots]; exact intact.homed, by rw [slots]; exact intact.unique,
        by rw [slots, size]; exact intact.counted⟩

/-- The fingerprint is cached afterwards unless the bucket has refused it. -/
theorem cached_self (kept : after.Intact num_buckets) (proper : fp ≠ 0) (short : off < 2 ^ 32) :
    after.cached num_buckets fp =
      if hot.Refuses (bucket_index num_buckets fp) fp then none else some off := by
  cases result with
  | replaced inside slot same slots size evictions =>
      rw [← slot] at same
      rw [if_neg (fun refuses => (refuses _ inside).2.1 same)]
      exact cached_store kept proper short inside slots
  | vacant inside slot absent slots size evictions =>
      rw [if_neg (fun refuses => (refuses _ inside).1 slot)]
      exact cached_store kept proper short inside slots
  | evicted inside displaces may_go slots size evictions =>
      have goes : ¬hot.Refuses (bucket_index num_buckets fp) fp := by
        intro refuses
        rw [(refuses _ inside).2.2] at may_go
        cases may_go
      rw [if_neg goes]
      exact cached_store kept proper short inside slots
  | refused refuses slots size evictions =>
      rw [if_pos refuses, cached_congr intact kept proper slots, cached_eq_none]
      exact fun i _ below => (refuses i below).2.1

/-- Another fingerprint is cached as before unless it is evicted. -/
theorem cached_other (kept : after.Intact num_buckets) (proper : other ≠ 0)
    (short : off < 2 ^ 32) (different : other ≠ fp) :
    after.cached num_buckets other = hot.cached num_buckets other ∨
      after.cached num_buckets other = none ∧ hot.Evicts num_buckets after other := by
  have word : unpack_fp (pack fp off) ≠ other := by
    rw [unpack_fp_pack short]
    exact different.symm
  cases result with
  | replaced inside slot same slots size evictions =>
      left
      rw [cached_set_slot intact kept proper inside word slots, if_neg]
      rintro ⟨_, same_other⟩
      rw [slot, same] at same_other
      exact different same_other.symm
  | vacant inside slot absent slots size evictions =>
      left
      rw [cached_set_slot intact kept proper inside word slots, if_neg]
      rintro ⟨_, same_other⟩
      rw [slot] at same_other
      exact proper same_other.symm
  | @evicted i _ inside displaces may_go slots size evictions =>
      have written := cached_set_slot intact kept proper inside word slots
      by_cases overwritten : bucket_index num_buckets fp = bucket_index num_buckets other ∧
          unpack_fp (hot.slots (bucket_index num_buckets fp) i) = other
      · right
        rw [if_pos overwritten] at written
        obtain ⟨home, same_other⟩ := overwritten
        have new : after.slots (bucket_index num_buckets fp) i = pack fp off := by
          rw [slots, slots_set_slot, if_pos ⟨rfl, rfl⟩]
        rw [home] at new same_other may_go
        refine ⟨written, i, inside, same_other, may_go, ?_⟩
        intro unchanged
        rw [new] at unchanged
        rw [unchanged] at word
        exact word same_other
      · left
        rw [if_neg overwritten] at written
        exact written
  | refused refuses slots size evictions =>
      left
      exact cached_congr intact kept proper slots

theorem answer_eq (proper : fp ≠ 0) :
    placed.answer = (hot.cached num_buckets fp).getD kInvalidOffset := by
  cases result with
  | @replaced i v _ inside slot same slots size evictions =>
      have cached : hot.cached num_buckets fp = some (unpack_off v) := by
        rw [cached_eq_some intact proper]
        rw [← slot] at same ⊢
        exact ⟨i, inside, same, rfl⟩
      rw [cached]
      rfl
  | vacant inside slot absent slots size evictions =>
      rw [cached_eq_none.mpr absent]
      rfl
  | evicted inside displaces may_go slots size evictions =>
      rw [cached_eq_none.mpr (fun i _ below => (displaces.1 i below).2)]
      rfl
  | refused refuses slots size evictions =>
      rw [cached_eq_none.mpr (fun i _ below => (refuses i below).2.1)]
      rfl

omit intact in
theorem failed_iff : placed = .failed ↔ hot.Refuses (bucket_index num_buckets fp) fp := by
  cases result with
  | replaced inside slot same slots size evictions =>
      rw [← slot] at same
      simp only [reduceCtorEq, false_iff]
      exact fun refuses => (refuses _ inside).2.1 same
  | vacant inside slot absent slots size evictions =>
      simp only [reduceCtorEq, false_iff]
      exact fun refuses => (refuses _ inside).1 slot
  | evicted inside displaces may_go slots size evictions =>
      simp only [reduceCtorEq, false_iff]
      intro refuses
      rw [(refuses _ inside).2.2] at may_go
      cases may_go
  | refused refuses slots size evictions => exact iff_of_true rfl refuses

omit intact in
theorem evictions_eq : after.eviction_count = hot.eviction_count +
    if hot.Displaces (bucket_index num_buckets fp) fp then 1 else 0 := by
  cases result with
  | replaced inside slot same slots size evictions =>
      rw [← slot] at same
      rw [if_neg (fun displaces => (displaces.1 _ inside).2 same)]
      exact evictions
  | vacant inside slot absent slots size evictions =>
      rw [if_neg (fun displaces => (displaces.1 _ inside).1 slot)]
      exact evictions
  | evicted inside displaces may_go slots size evictions =>
      rw [if_pos displaces]
      exact evictions
  | refused refuses slots size evictions =>
      have stays : ¬hot.Displaces (bucket_index num_buckets fp) fp := by
        rintro ⟨_, i, inside, may_go⟩
        rw [(refuses i inside).2.2] at may_go
        cases may_go
      rw [if_neg stays]
      exact evictions

end PlaceResult

theorem upsert_run (intact : hot.Intact num_buckets) :
    ∃ placed, PlaceResult hot (bucket_index num_buckets fp) fp off placed
        ((upsert num_buckets fp off).run hotSem hot).2 ∧
      ((upsert num_buckets fp off).run hotSem hot).1 = placed.answer := by
  have result := @place_run hot (bucket_index num_buckets fp) fp off
    (fun i => intact.word_eq_zero i) 15
  have retries : kMaxUpsertRetries = 15 + 1 := rfl
  unfold upsert
  rw [retries, Prog.run_bind]
  revert result
  generalize (place (bucket_index num_buckets fp) fp off (15 + 1)).run hotSem hot = ran
  obtain ⟨placed, after⟩ := ran
  intro result
  refine ⟨placed, ?_⟩
  cases placed with
  | replaced i v => exact ⟨result, rfl⟩
  | inserted i => exact ⟨result, rfl⟩
  | failed => exact ⟨result, rfl⟩

theorem upsert_pinned_run (intact : hot.Intact num_buckets) :
    ∃ placed, PlaceResult hot (bucket_index num_buckets fp) fp off placed
        ((upsert_pinned num_buckets fp off).run hotSem hot).2 ∧
      (((upsert_pinned num_buckets fp off).run hotSem hot).1.valid = false ↔ placed = .failed) := by
  have result := @place_run hot (bucket_index num_buckets fp) fp off
    (fun i => intact.word_eq_zero i) 15
  have retries : kMaxUpsertRetries = 15 + 1 := rfl
  unfold upsert_pinned
  dsimp only
  rw [retries, Prog.run_bind]
  revert result
  generalize (place (bucket_index num_buckets fp) fp off (15 + 1)).run hotSem hot = ran
  obtain ⟨placed, after⟩ := ran
  intro result
  refine ⟨placed, ?_⟩
  cases placed with
  | replaced i v => exact ⟨result.congr rfl rfl rfl, by simp [force_pinned, Prog.run_bind]⟩
  | inserted i => exact ⟨result.congr rfl rfl rfl, by simp [force_pinned, Prog.run_bind]⟩
  | failed => exact ⟨result.congr rfl rfl rfl, by simp [SlotRef.invalid]⟩

theorem lookup_run : ∃ metas, (lookup num_buckets fp).run hotSem hot =
    (hot.cached num_buckets fp, { hot with metas := metas }) := by
  have scanned := @find_run hot (bucket_index num_buckets fp) fp
  unfold lookup Hot.cached peek
  dsimp only
  rw [Prog.run_bind, Prog.run_bind]
  revert scanned
  generalize (find (bucket_index num_buckets fp) fp kSlotsPerBucket 0).run hotSem hot = result
  obtain ⟨answer, last⟩ := result
  rintro ⟨kept, _⟩
  simp only at kept
  subst kept
  cases answer with
  | none => exact ⟨last.metas, rfl⟩
  | some slot =>
      obtain ⟨i, v⟩ := slot
      obtain ⟨metas, visited⟩ :=
        @set_visited_metas last (bucket_index num_buckets fp) i
      refine ⟨metas, ?_⟩
      simp only [Prog.run_bind, visited]
      rfl

/-- A removal that no other thread disturbs takes one round. -/
theorem remove_run (rounds : Nat) :
    ((remove num_buckets fp (rounds + 1)).run hotSem hot).1 =
        some (hot.cached num_buckets fp).isSome ∧
      ((hot.cached num_buckets fp = none ∧
          ((remove num_buckets fp (rounds + 1)).run hotSem hot).2 = hot) ∨
        ∃ i < kSlotsPerBucket, ∃ metas,
          unpack_fp (hot.slots (bucket_index num_buckets fp) i) = fp ∧
            ((remove num_buckets fp (rounds + 1)).run hotSem hot).2 =
              { hot.set_slot (bucket_index num_buckets fp) i 0 with
                size := hot.size - 1
                metas := metas }) := by
  have scanned := @find_run hot (bucket_index num_buckets fp) fp
  unfold remove Hot.cached peek
  dsimp only
  rw [Prog.run_bind, Prog.run_bind]
  revert scanned
  generalize (find (bucket_index num_buckets fp) fp kSlotsPerBucket 0).run hotSem hot = result
  obtain ⟨answer, last⟩ := result
  rintro ⟨kept, found⟩
  simp only at kept
  subst kept
  cases answer with
  | none => exact ⟨rfl, .inl ⟨rfl, rfl⟩⟩
  | some slot =>
      obtain ⟨i, v⟩ := slot
      obtain ⟨inside, here, same⟩ := found
      obtain ⟨metas, cleared⟩ := @clear_visited_metas
        { last.set_slot (bucket_index num_buckets fp) i 0 with size := last.size - 1 }
        (bucket_index num_buckets fp) i
      rw [← here] at same
      simp only [Prog.run_bind, run_cas_slot, here, if_true, run_sub_size]
      exact ⟨rfl, .inr ⟨i, inside, metas, same, cleared⟩⟩

theorem cas_slot_state_run (ref : SlotRef) (rounds : Nat) (old new : SlotState) :
    ((cas_slot_state (rounds + 1) ref old new).run hotSem hot).1 ≠ none ∧
      ∃ metas, ((cas_slot_state (rounds + 1) ref old new).run hotSem hot).2 =
        { hot with metas := metas } := by
  unfold cas_slot_state
  split
  · rw [cas_state, Prog.run_bind, run_load_state]
    dsimp only
    rw [cas_state_from]
    split
    · simp only [cas_word, Prog.run_bind, Prog.run_op, hotSem, Prog.run_ret, if_true]
      exact ⟨Option.some_ne_none _, _, rfl⟩
    · exact ⟨Option.some_ne_none _, _, rfl⟩
  · exact ⟨Option.some_ne_none _, _, rfl⟩

theorem unpin_run (ref : SlotRef) :
    ∃ metas, ((unpin ref).run hotSem hot).2 = { hot with metas := metas } := by
  unfold unpin
  split
  · exact ⟨_, rfl⟩
  · exact ⟨_, rfl⟩

end Results

/-! ### Runs of one caller -/

inductive CacheCall where
  | upsert (fingerprint offset : Nat)
  | upsert_pinned (fingerprint offset : Nat)
  | lookup (fingerprint : Nat)
  | remove (fingerprint : Nat)
  | unpin (ref : SlotRef)
  | cas_slot_state (ref : SlotRef) (old new : SlotState)

def Fingerprint (fp : Nat) : Prop := fp ≠ 0 ∧ fp < 2 ^ 32

/-- What `unpin` and `cas_slot_state` assert of a reference. -/
def SlotRef.Inside (num_buckets : Nat) (ref : SlotRef) : Prop :=
  ref.valid = true → ref.bucket_idx < num_buckets ∧ ref.slot_idx < kSlotsPerBucket

instance (fp : Nat) : Decidable (Fingerprint fp) :=
  inferInstanceAs (Decidable (fp ≠ 0 ∧ fp < 2 ^ 32))

instance (num_buckets : Nat) (ref : SlotRef) : Decidable (ref.Inside num_buckets) :=
  inferInstanceAs (Decidable
    (ref.valid = true → ref.bucket_idx < num_buckets ∧ ref.slot_idx < kSlotsPerBucket))

section

variable (num_buckets : Nat)

def CacheCall.Proper : CacheCall → Prop
  | .upsert fp off | .upsert_pinned fp off => Fingerprint fp ∧ off < 2 ^ 32
  | .lookup fp | .remove fp => Fingerprint fp
  | .unpin ref | .cas_slot_state ref _ _ => ref.Inside num_buckets

instance (call : CacheCall) : Decidable (call.Proper num_buckets) :=
  match call with
  | .upsert fp off | .upsert_pinned fp off =>
      inferInstanceAs (Decidable (Fingerprint fp ∧ off < 2 ^ 32))
  | .lookup fp | .remove fp => inferInstanceAs (Decidable (Fingerprint fp))
  | .unpin ref | .cas_slot_state ref _ _ =>
      inferInstanceAs (Decidable (ref.Inside num_buckets))

def CacheCall.after (hot : Hot) : CacheCall → Hot
  | .upsert fp off => ((HotTier.upsert num_buckets fp off).run hotSem hot).2
  | .upsert_pinned fp off => ((HotTier.upsert_pinned num_buckets fp off).run hotSem hot).2
  | .lookup fp => ((HotTier.lookup num_buckets fp).run hotSem hot).2
  | .remove fp => ((HotTier.remove num_buckets fp 1).run hotSem hot).2
  | .unpin ref => ((HotTier.unpin ref).run hotSem hot).2
  | .cas_slot_state ref old new => ((HotTier.cas_slot_state 1 ref old new).run hotSem hot).2

def CacheCall.evictions (hot : Hot) : CacheCall → Nat
  | .upsert fp _ | .upsert_pinned fp _ =>
      if hot.Displaces (bucket_index num_buckets fp) fp then 1 else 0
  | _ => 0

/-- HotTier beside its history: `told` is the offset that was last stored for a
fingerprint since it was last removed, and `gone` says that it was then refused
or, while its slot was unpinned, evicted. -/
structure Cache where
  hot : Hot
  told : Nat → Option Nat
  gone : Nat → Bool

def Cache.empty : Cache := ⟨Hot.empty, fun _ => none, fun _ => false⟩

def CacheCall.tell (told : Nat → Option Nat) : CacheCall → Nat → Option Nat
  | .upsert fp off | .upsert_pinned fp off => Function.update told fp (some off)
  | .remove fp => Function.update told fp none
  | _ => told

def CacheCall.lose (hot after : Hot) (gone : Nat → Bool) : CacheCall → Nat → Bool
  | .upsert fp _ | .upsert_pinned fp _ => fun other =>
      if other = fp then decide (hot.Refuses (bucket_index num_buckets fp) fp)
      else gone other || decide (hot.Evicts num_buckets after other)
  | _ => gone

def Cache.call (cache : Cache) (made : CacheCall) : Option Cache :=
  if made.Proper num_buckets then
    let after := made.after num_buckets cache.hot
    some ⟨after, made.tell cache.told, made.lose num_buckets cache.hot after cache.gone⟩
  else none

def caches : Machine Cache CacheCall where
  initial := fun cache => cache = .empty
  step := fun cache made => cache.call num_buckets made

end

section

variable {num_buckets fp off : Nat} {cache next : Cache} {made : CacheCall}

structure Cache.Agrees (num_buckets : Nat) (cache : Cache) : Prop where
  intact : cache.hot.Intact num_buckets
  newest : ∀ fp, fp ≠ 0 →
    cache.hot.cached num_buckets fp = none ∨ cache.hot.cached num_buckets fp = cache.told fp
  lost : ∀ fp, fp ≠ 0 → cache.hot.cached num_buckets fp = none →
    cache.told fp = none ∨ cache.gone fp = true

theorem Cache.Agrees.empty : Cache.empty.Agrees num_buckets where
  intact := .empty
  newest := by
    intro fp proper
    left
    rw [cached_eq_none]
    intro i _ _ same
    rw [show Cache.empty.hot.slots (bucket_index num_buckets fp) i = 0 from rfl] at same
    exact proper same.symm
  lost := fun _ _ _ => .inl rfl

/-- A call that leaves the slots alone. -/
theorem Cache.Agrees.metas (agrees : cache.Agrees num_buckets) (metas : Nat → BucketMeta) :
    Cache.Agrees num_buckets ⟨{ cache.hot with metas := metas }, cache.told, cache.gone⟩ where
  intact := ⟨agrees.intact.homed, agrees.intact.unique, agrees.intact.counted⟩
  newest := by
    intro fp proper
    have same := @cached_congr num_buckets cache.hot { cache.hot with metas := metas } fp
      agrees.intact ⟨agrees.intact.homed, agrees.intact.unique, agrees.intact.counted⟩ proper rfl
    dsimp only
    rw [same]
    exact agrees.newest fp proper
  lost := by
    intro fp proper
    have same := @cached_congr num_buckets cache.hot { cache.hot with metas := metas } fp
      agrees.intact ⟨agrees.intact.homed, agrees.intact.unique, agrees.intact.counted⟩ proper rfl
    dsimp only
    rw [same]
    exact agrees.lost fp proper

theorem Cache.Agrees.placed {placed : Placed} {after : Hot} (agrees : cache.Agrees num_buckets)
    (positive : 0 < num_buckets) (proper : fp ≠ 0) (short : off < 2 ^ 32)
    (result : PlaceResult cache.hot (bucket_index num_buckets fp) fp off placed after) :
    Cache.Agrees num_buckets ⟨after, Function.update cache.told fp (some off), fun other =>
      if other = fp then decide (cache.hot.Refuses (bucket_index num_buckets fp) fp)
      else cache.gone other || decide (cache.hot.Evicts num_buckets after other)⟩ := by
  have intact := result.intact_after agrees.intact positive proper short
  have self := result.cached_self agrees.intact intact proper short
  constructor
  · exact intact
  · intro other proper_other
    dsimp only
    by_cases same : other = fp
    · subst same
      rw [self, Function.update_self]
      split
      · exact .inl rfl
      · exact .inr rfl
    · rw [Function.update_of_ne same]
      rcases result.cached_other agrees.intact intact proper_other short same with
        kept | ⟨nothing, _⟩
      · rw [kept]
        exact agrees.newest other proper_other
      · exact .inl nothing
  · intro other proper_other nothing
    dsimp only at nothing ⊢
    by_cases same : other = fp
    · subst same
      right
      rw [self] at nothing
      split at nothing
      · rename_i refuses
        simpa using refuses
      · cases nothing
    · rw [Function.update_of_ne same]
      simp only [same, if_false, Bool.or_eq_true, decide_eq_true_eq]
      rcases result.cached_other agrees.intact intact proper_other short same with
        kept | ⟨_, evicted⟩
      · rw [kept] at nothing
        exact (agrees.lost other proper_other nothing).imp_right .inl
      · exact .inr (.inr evicted)

theorem Cache.Agrees.removed (agrees : cache.Agrees num_buckets) (proper : fp ≠ 0) :
    Cache.Agrees num_buckets ⟨((remove num_buckets fp 1).run hotSem cache.hot).2,
      Function.update cache.told fp none, cache.gone⟩ := by
  obtain ⟨_, ⟨nothing, kept⟩ | ⟨i, inside, metas, same, removed⟩⟩ :=
    @remove_run num_buckets fp cache.hot 0
  · rw [kept]
    constructor
    · exact agrees.intact
    · intro other proper_other
      dsimp only
      by_cases here : other = fp
      · rw [here]
        exact .inl nothing
      · rw [Function.update_of_ne here]
        exact agrees.newest other proper_other
    · intro other proper_other absent
      dsimp only at absent ⊢
      by_cases here : other = fp
      · rw [here, Function.update_self]
        exact .inl rfl
      · rw [Function.update_of_ne here]
        exact agrees.lost other proper_other absent
  · have occupied := occupied_of_fp proper same
    rw [removed]
    have intact : Hot.Intact num_buckets
        { cache.hot.set_slot (bucket_index num_buckets fp) i 0 with
          size := cache.hot.size - 1
          metas := metas } := agrees.intact.clear occupied rfl rfl
    have written : ∀ other, other ≠ 0 → Hot.cached num_buckets
        { cache.hot.set_slot (bucket_index num_buckets fp) i 0 with
          size := cache.hot.size - 1
          metas := metas } other =
        if other = fp then none else cache.hot.cached num_buckets other := by
      intro other proper_other
      have different : unpack_fp 0 ≠ other := proper_other.symm
      have overwritten := cached_set_slot agrees.intact intact proper_other inside different rfl
      rw [overwritten, same]
      by_cases here : other = fp
      · rw [if_pos here, if_pos ⟨by rw [here], here.symm⟩]
      · rw [if_neg here, if_neg (fun both => here both.2.symm)]
    constructor
    · exact intact
    · intro other proper_other
      dsimp only
      rw [written other proper_other]
      by_cases here : other = fp
      · rw [if_pos here]
        exact .inl rfl
      · rw [if_neg here, Function.update_of_ne here]
        exact agrees.newest other proper_other
    · intro other proper_other absent
      dsimp only at absent ⊢
      rw [written other proper_other] at absent
      by_cases here : other = fp
      · rw [here, Function.update_self]
        exact .inl rfl
      · rw [if_neg here] at absent
        rw [Function.update_of_ne here]
        exact agrees.lost other proper_other absent

theorem agrees_step (positive : 0 < num_buckets) (agrees : cache.Agrees num_buckets)
    (stepped : cache.call num_buckets made = some next) : next.Agrees num_buckets := by
  unfold Cache.call at stepped
  split at stepped
  · rename_i proper
    cases stepped
    cases made with
    | upsert fp off =>
        obtain ⟨placed, result, _⟩ := @upsert_run num_buckets fp off cache.hot agrees.intact
        exact agrees.placed positive proper.1.1 proper.2 result
    | upsert_pinned fp off =>
        obtain ⟨placed, result, _⟩ :=
          @upsert_pinned_run num_buckets fp off cache.hot agrees.intact
        exact agrees.placed positive proper.1.1 proper.2 result
    | lookup fp =>
        obtain ⟨metas, looked_up⟩ := @lookup_run num_buckets fp cache.hot
        simp only [CacheCall.after, looked_up]
        exact agrees.metas metas
    | remove fp => exact agrees.removed proper.1
    | unpin ref =>
        obtain ⟨metas, unpinned⟩ := @unpin_run cache.hot ref
        simp only [CacheCall.after, unpinned]
        exact agrees.metas metas
    | cas_slot_state ref old new =>
        obtain ⟨_, metas, moved⟩ := @cas_slot_state_run cache.hot ref 0 old new
        simp only [CacheCall.after, moved]
        exact agrees.metas metas
  · cases stepped

theorem reachable_agrees (positive : 0 < num_buckets)
    (reached : (caches num_buckets).Reachable cache) : cache.Agrees num_buckets := by
  apply reached.invariant
  · rintro cache rfl
    exact .empty
  · exact fun cache made next agrees _ stepped => agrees_step positive agrees stepped

theorem evictions_step (intact : cache.hot.Intact num_buckets) :
    (made.after num_buckets cache.hot).eviction_count =
      cache.hot.eviction_count + made.evictions num_buckets cache.hot := by
  cases made with
  | upsert fp off =>
      obtain ⟨placed, result, _⟩ := @upsert_run num_buckets fp off cache.hot intact
      exact result.evictions_eq
  | upsert_pinned fp off =>
      obtain ⟨placed, result, _⟩ := @upsert_pinned_run num_buckets fp off cache.hot intact
      exact result.evictions_eq
  | lookup fp =>
      obtain ⟨metas, looked_up⟩ := @lookup_run num_buckets fp cache.hot
      simp [CacheCall.after, CacheCall.evictions, looked_up]
  | remove fp =>
      obtain ⟨_, ⟨_, kept⟩ | ⟨i, _, metas, _, removed⟩⟩ :=
        @remove_run num_buckets fp cache.hot 0
      · simp [CacheCall.after, CacheCall.evictions, kept]
      · simp [CacheCall.after, CacheCall.evictions, removed, Hot.set_slot]
  | unpin ref =>
      obtain ⟨metas, unpinned⟩ := @unpin_run cache.hot ref
      simp [CacheCall.after, CacheCall.evictions, unpinned]
  | cas_slot_state ref old new =>
      obtain ⟨_, metas, moved⟩ := @cas_slot_state_run cache.hot ref 0 old new
      simp [CacheCall.after, CacheCall.evictions, moved]

structure LossyCache (num_buckets : Nat) (cache : Cache) : Prop where
  lookup : ∀ fp, ((lookup num_buckets fp).run hotSem cache.hot).1 =
    ((peek num_buckets fp).run hotSem cache.hot).1
  newest : ∀ fp, Fingerprint fp → ∀ off,
    ((peek num_buckets fp).run hotSem cache.hot).1 = some off → cache.told fp = some off
  lost : ∀ fp, Fingerprint fp → ((peek num_buckets fp).run hotSem cache.hot).1 = none →
    cache.told fp = none ∨ cache.gone fp = true
  upsert : ∀ fp off, Fingerprint fp → ((upsert num_buckets fp off).run hotSem cache.hot).1 =
    (((peek num_buckets fp).run hotSem cache.hot).1).getD kInvalidOffset
  upsert_pinned : ∀ fp off,
    ((upsert_pinned num_buckets fp off).run hotSem cache.hot).1.valid = false ↔
      cache.hot.Refuses (bucket_index num_buckets fp) fp
  remove : ∀ fp, ((remove num_buckets fp 1).run hotSem cache.hot).1 =
    some ((peek num_buckets fp).run hotSem cache.hot).1.isSome
  cas_slot_state : ∀ ref old new, ((cas_slot_state 1 ref old new).run hotSem cache.hot).1 ≠ none
  size : Counts (fun v : Nat => v ≠ 0) (fun p : Nat × Nat => cache.hot.slots p.1 p.2)
    cache.hot.size
  capacity : cache.hot.size ≤ num_buckets * kSlotsPerBucket
  evictions : ∀ made : CacheCall, made.Proper num_buckets →
    (made.after num_buckets cache.hot).eviction_count =
      cache.hot.eviction_count + made.evictions num_buckets cache.hot

theorem lossy_cache (exponent : Nat) (reached : (caches (2 ^ exponent)).Reachable cache) :
    LossyCache (2 ^ exponent) cache := by
  have agrees := reachable_agrees (Nat.two_pow_pos exponent) reached
  constructor
  · intro fp
    obtain ⟨metas, looked_up⟩ := @lookup_run (2 ^ exponent) fp cache.hot
    rw [looked_up]
    rfl
  · intro fp proper off cached
    rcases agrees.newest fp proper.1 with nothing | newest
    · exact absurd (cached.symm.trans nothing) (Option.some_ne_none off)
    · exact newest.symm.trans cached
  · exact fun fp proper nothing => agrees.lost fp proper.1 nothing
  · intro fp off proper
    obtain ⟨placed, result, answered⟩ := @upsert_run (2 ^ exponent) fp off cache.hot agrees.intact
    rw [answered]
    exact result.answer_eq agrees.intact proper.1
  · intro fp off
    obtain ⟨placed, result, answered⟩ :=
      @upsert_pinned_run (2 ^ exponent) fp off cache.hot agrees.intact
    rw [answered]
    exact result.failed_iff
  · exact fun fp => (@remove_run (2 ^ exponent) fp cache.hot 0).1
  · exact fun ref old new => (@cas_slot_state_run cache.hot ref 0 old new).1
  · exact agrees.intact.counted
  · exact agrees.intact.size_le
  · exact fun made _ => evictions_step agrees.intact

/-- Sixteen pinned entries refuse a seventeenth, which takes the slot of the
first after its release. -/
def release_one : List CacheCall :=
  (List.range kSlotsPerBucket).map (fun k => .upsert_pinned (k + 1) k) ++
    [.upsert_pinned 17 16, .unpin ⟨0, 0, true⟩, .lookup 1, .upsert 17 18]

theorem lossy_cache_release_one :
    ∃ cache, (caches 1).run .empty release_one = some cache ∧
      cache.hot.cached 1 1 = none ∧ cache.hot.cached 1 17 = some 18 ∧ cache.gone 1 = true ∧
      LossyCache 1 cache := by
  have possible : ((caches 1).run .empty release_one).map (fun cache =>
      (cache.hot.cached 1 1, cache.hot.cached 1 17, cache.gone 1)) =
      some (none, some 18, true) := by decide +kernel
  obtain ⟨cache, ran, values⟩ := Option.map_eq_some_iff.mp possible
  have start : (caches 1).Reachable Cache.empty := .start rfl
  have reached : (caches 1).Reachable cache := start.run ran
  have bucket_count : 2 ^ 0 = 1 := rfl
  have lossy := @lossy_cache cache 0
  rw [bucket_count] at lossy
  simp only [Prod.mk.injEq] at values
  exact ⟨cache, ran, values.1, values.2.1, values.2.2, lossy reached⟩

end

end Hiom.HotTier
