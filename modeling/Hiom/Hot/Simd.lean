import Mathlib
import Hiom.Hot.Cache

/-!
The vector scan of `lookup`: four wide loads of four slots each serve as a
filter, and every slot that a load flags is loaded once more.
-/

namespace Hiom.HotTier

/-! ### Vectors of eight lanes -/

abbrev Lanes := Nat → BitVec 32

/-- The lanes of four words: the low half of a word lies before its high half. -/
def Lanes.of_words (words : Nat → Nat) : Lanes := fun p =>
  if p % 2 = 0 then BitVec.ofNat 32 (words (p / 2)) else BitVec.ofNat 32 (words (p / 2) >>> 32)

def set1_epi32 (value : Nat) : Lanes := fun _ => BitVec.ofNat 32 value

def cmpeq_epi32 (a b : Lanes) : Lanes := fun p => if a p = b p then BitVec.allOnes 32 else 0#32

def movemask_ps (lanes : Lanes) : BitVec 32 :=
  (BitVec.ofBoolListLE ((List.range 8).map (fun p => (lanes p).msb))).setWidth 32

def loadu_si256 (bucket i : Nat) : HotCode Lanes := do
  let v0 ← load_slot bucket i
  let v1 ← load_slot bucket (i + 1)
  let v2 ← load_slot bucket (i + 2)
  let v3 ← load_slot bucket (i + 3)
  .ret (Lanes.of_words (fun k => [v0, v1, v2, v3].getD k 0))

/-! ### The scan -/

theorem clear_lowest_lt {mm : BitVec 32} (more : mm ≠ 0#32) :
    (mm &&& (mm - 1#32)).toNat < mm.toNat := by
  have positive : mm.toNat ≠ 0 := fun zero => more (BitVec.eq_of_toNat_eq zero)
  have below : (mm &&& (mm - 1#32)).toNat ≤ (mm - 1#32).toNat := by
    rw [BitVec.toNat_and]
    exact Nat.and_le_right
  have short := mm.isLt
  rw [BitVec.toNat_sub] at below
  simp only [BitVec.toNat_ofNat] at below
  omega

/-- The walk over the flagged slots of chunk `c`. -/
def walk (bucket fingerprint c : Nat) (mm : BitVec 32) : HotCode (Option Nat) :=
  if _ : mm = 0#32 then .ret none
  else do
    let p := mm.ctz.toNat
    let i := c * 4 + (p >>> 1)
    let vv ← load_slot bucket i
    if unpack_fp vv = fingerprint then
      set_visited bucket i
      .ret (some (unpack_off vv))
    else walk bucket fingerprint c (mm &&& (mm - 1#32))
  termination_by mm.toNat
  decreasing_by
    apply clear_lowest_lt
    assumption

def lookup_chunks (bucket fingerprint : Nat) : Nat → Nat → HotCode (Option Nat)
  | 0, _ => .ret none
  | left + 1, c => do
      let v ← loadu_si256 bucket (c * 4)
      let eq := cmpeq_epi32 v (set1_epi32 fingerprint)
      let answer ← walk bucket fingerprint c (movemask_ps eq &&& 0xAA#32)
      match answer with
      | some off => .ret (some off)
      | none => lookup_chunks bucket fingerprint left (c + 1)

/-- `lookup` where `HIOM_SIMD_LOOKUP` is set. -/
def lookup_simd (num_buckets fingerprint : Nat) : HotCode (Option Nat) :=
  lookup_chunks (bucket_index num_buckets fingerprint) fingerprint 4 0

/-! ### What a load flags -/

section Filter

variable {hot : Hot} {bucket fingerprint c : Nat}

theorem getLsbD_movemask_ps (lanes : Lanes) {p : Nat} (inside : p < 8) :
    (movemask_ps lanes).getLsbD p = (lanes p).msb := by
  have short : p < 32 := by omega
  unfold movemask_ps
  rw [BitVec.getLsbD_setWidth, BitVec.getLsbD_ofBoolListLE]
  simp [inside, short]

theorem msb_cmpeq_epi32 (a b : Lanes) (p : Nat) :
    (cmpeq_epi32 a b p).msb = true ↔ a p = b p := by
  unfold cmpeq_epi32
  split
  · rename_i same
    exact iff_of_true (by decide) same
  · rename_i different
    exact iff_of_false (by decide) different

/-- Only the lanes of high halves pass. -/
theorem getLsbD_high : ∀ p < 32, (0xAA#32).getLsbD p = true ↔ p < 8 ∧ p % 2 = 1 := by
  decide

theorem of_words_high {words : Nat → Nat} {p : Nat} (high : p % 2 = 1)
    (word : words (p / 2) < 2 ^ 64) (short : fingerprint < 2 ^ 32) :
    Lanes.of_words words p = set1_epi32 fingerprint p ↔ unpack_fp (words (p / 2)) = fingerprint := by
  unfold Lanes.of_words set1_epi32 unpack_fp
  rw [if_neg (by omega), ← BitVec.toNat_inj, BitVec.toNat_ofNat, BitVec.toNat_ofNat,
    Nat.mod_eq_of_lt short, Nat.mod_eq_of_lt]
  rw [Nat.shiftRight_eq_div_pow]
  omega

def flags (words : Nat → Nat) (fingerprint : Nat) : BitVec 32 :=
  movemask_ps (cmpeq_epi32 (Lanes.of_words words) (set1_epi32 fingerprint)) &&& 0xAA#32

theorem getLsbD_flags {words : Nat → Nat} (word : ∀ k < 4, words k < 2 ^ 64)
    (short : fingerprint < 2 ^ 32) (p : Nat) :
    (flags words fingerprint).getLsbD p = true ↔
      p < 8 ∧ p % 2 = 1 ∧ unpack_fp (words (p / 2)) = fingerprint := by
  by_cases inside : p < 8 ∧ p % 2 = 1
  · obtain ⟨lane, high⟩ := inside
    unfold flags
    rw [BitVec.getLsbD_and, Bool.and_eq_true, getLsbD_high p (by omega),
      getLsbD_movemask_ps _ lane, msb_cmpeq_epi32, of_words_high high (word _ (by omega)) short]
    simp only [lane, high, true_and, and_true]
  · constructor
    · intro flagged
      have wide : p < 32 := BitVec.lt_of_getLsbD flagged
      unfold flags at flagged
      rw [BitVec.getLsbD_and, Bool.and_eq_true, getLsbD_high p wide] at flagged
      exact absurd flagged.2 inside
    · rintro ⟨lane, high, -⟩
      exact absurd ⟨lane, high⟩ inside

/-- No flag: no slot of the chunk holds the fingerprint. -/
theorem no_match_of_flags {words : Nat → Nat} (word : ∀ k < 4, words k < 2 ^ 64)
    (short : fingerprint < 2 ^ 32) (none_flagged : flags words fingerprint = 0#32) :
    ∀ k < 4, unpack_fp (words k) ≠ fingerprint := by
  intro k inside same
  have half : (2 * k + 1) / 2 = k := by omega
  have flagged := (getLsbD_flags word short (2 * k + 1)).mpr
    ⟨by omega, by omega, by rw [half]; exact same⟩
  rw [none_flagged, BitVec.getLsbD_zero] at flagged
  cases flagged

/-- The lowest flag is that of the first slot with the fingerprint. -/
theorem first_match_of_flags {words : Nat → Nat} (word : ∀ k < 4, words k < 2 ^ 64)
    (short : fingerprint < 2 ^ 32) (flagged : flags words fingerprint ≠ 0#32) :
    (flags words fingerprint).ctz.toNat / 2 < 4 ∧
      unpack_fp (words ((flags words fingerprint).ctz.toNat / 2)) = fingerprint ∧
      ∀ k < (flags words fingerprint).ctz.toNat / 2, unpack_fp (words k) ≠ fingerprint := by
  have lowest := BitVec.getLsbD_true_ctz_of_ne_zero flagged
  obtain ⟨lane, high, same⟩ := (getLsbD_flags word short _).mp lowest
  refine ⟨by omega, same, ?_⟩
  intro k before matched
  have half : (2 * k + 1) / 2 = k := by omega
  have earlier := (getLsbD_flags word short (2 * k + 1)).mpr
    ⟨by omega, by omega, by rw [half]; exact matched⟩
  have unset := @BitVec.getLsbD_false_of_lt_ctz 32 (2 * k + 1) (flags words fingerprint) (by omega)
  rw [unset] at earlier
  cases earlier

end Filter

/-! ### Both scans -/

section Scans

variable {hot : Hot} {bucket fingerprint : Nat}

def lookup_from (bucket fingerprint left i : Nat) : HotCode (Option Nat) := do
  let found ← find bucket fingerprint left i
  match found with
  | some (i, v) =>
      set_visited bucket i
      .ret (some (unpack_off v))
  | none => .ret none

theorem find_skip {n : Nat} (left i : Nat)
    (others : ∀ k < n, unpack_fp (hot.slots bucket (i + k)) ≠ fingerprint) :
    (find bucket fingerprint (n + left) i).run hotSem hot =
      (find bucket fingerprint left (i + n)).run hotSem hot := by
  induction n generalizing i with
  | zero => rw [Nat.zero_add, Nat.add_zero]
  | succ n ih =>
      have first : unpack_fp (hot.slots bucket i) ≠ fingerprint := others 0 (Nat.succ_pos n)
      rw [show n + 1 + left = n + left + 1 by omega]
      simp only [find, Prog.run_bind, run_load_slot, first, if_false]
      rw [ih (i + 1), show i + 1 + n = i + (n + 1) by omega]
      intro k below
      rw [show i + 1 + k = i + (k + 1) by omega]
      exact others (k + 1) (by omega)

theorem find_hit (left i : Nat) (same : unpack_fp (hot.slots bucket i) = fingerprint) :
    (find bucket fingerprint (left + 1) i).run hotSem hot = (some (i, hot.slots bucket i), hot) := by
  simp only [find, Prog.run_bind, run_load_slot, same, if_true, Prog.run_ret]

theorem lookup_from_skip {n : Nat} (left i : Nat)
    (others : ∀ k < n, unpack_fp (hot.slots bucket (i + k)) ≠ fingerprint) :
    (lookup_from bucket fingerprint (n + left) i).run hotSem hot =
      (lookup_from bucket fingerprint left (i + n)).run hotSem hot := by
  unfold lookup_from
  rw [Prog.run_bind, Prog.run_bind, find_skip left i others]

theorem lookup_from_hit (left i : Nat) (same : unpack_fp (hot.slots bucket i) = fingerprint) :
    (lookup_from bucket fingerprint (left + 1) i).run hotSem hot =
      (some (unpack_off (hot.slots bucket i)), ((set_visited bucket i).run hotSem hot).2) := by
  unfold lookup_from
  rw [Prog.run_bind, find_hit left i same]
  dsimp only
  rw [Prog.run_bind, Prog.run_ret]

theorem run_loadu_si256 (i : Nat) :
    ∃ words : Nat → Nat, (∀ k < 4, words k = hot.slots bucket (i + k)) ∧
      (loadu_si256 bucket i).run hotSem hot = (Lanes.of_words words, hot) := by
  refine ⟨fun k => [hot.slots bucket i, hot.slots bucket (i + 1), hot.slots bucket (i + 2),
    hot.slots bucket (i + 3)].getD k 0, ?_, rfl⟩
  intro k inside
  match k, inside with
  | 0, _ | 1, _ | 2, _ | 3, _ => rfl

/-- Without another writer the first candidate of the walk is accepted. -/
theorem walk_first {c : Nat} {mm : BitVec 32} (flagged : mm ≠ 0#32)
    (same : unpack_fp (hot.slots bucket (c * 4 + mm.ctz.toNat / 2)) = fingerprint) :
    (walk bucket fingerprint c mm).run hotSem hot =
      (some (unpack_off (hot.slots bucket (c * 4 + mm.ctz.toNat / 2))),
        ((set_visited bucket (c * 4 + mm.ctz.toNat / 2)).run hotSem hot).2) := by
  rw [walk, dif_neg flagged]
  simp only [Prog.run_bind, run_load_slot, Nat.shiftRight_one, same, if_true, Prog.run_ret]

theorem walk_nothing {c : Nat} :
    (walk bucket fingerprint c 0#32).run hotSem hot = (none, hot) := by
  rw [walk, dif_pos rfl, Prog.run_ret]

theorem lookup_chunks_eq (short : fingerprint < 2 ^ 32) (left c : Nat)
    (words : ∀ i < (c + left) * 4, hot.slots bucket i < 2 ^ 64) :
    (lookup_chunks bucket fingerprint left c).run hotSem hot =
      (lookup_from bucket fingerprint (left * 4) (c * 4)).run hotSem hot := by
  induction left generalizing c with
  | zero => rfl
  | succ left ih =>
      obtain ⟨chunk, slots, loaded⟩ := @run_loadu_si256 hot bucket (c * 4)
      have word : ∀ k < 4, chunk k < 2 ^ 64 := by
        intro k inside
        rw [slots k inside]
        exact words _ (by omega)
      unfold lookup_chunks
      rw [Prog.run_bind, loaded]
      dsimp only
      rw [Prog.run_bind]
      by_cases flagged : flags chunk fingerprint = 0#32
      · have others : ∀ k < 4, unpack_fp (hot.slots bucket (c * 4 + k)) ≠ fingerprint := by
          intro k inside
          rw [← slots k inside]
          exact no_match_of_flags word short flagged k inside
        unfold flags at flagged
        rw [flagged, walk_nothing]
        dsimp only
        rw [ih (c + 1) (fun i below => words i (by omega)),
          show (left + 1) * 4 = 4 + left * 4 by omega, lookup_from_skip _ _ others,
          show (c + 1) * 4 = c * 4 + 4 by omega]
      · obtain ⟨inside, same, before⟩ := first_match_of_flags word short flagged
        have others : ∀ k < (flags chunk fingerprint).ctz.toNat / 2,
            unpack_fp (hot.slots bucket (c * 4 + k)) ≠ fingerprint := by
          intro k earlier
          rw [← slots k (by omega)]
          exact before k earlier
        rw [slots _ inside] at same
        have walked := walk_first flagged same
        unfold flags at walked
        rw [walked]
        dsimp only
        rw [Prog.run_ret, show (left + 1) * 4 = (flags chunk fingerprint).ctz.toNat / 2 +
            (left * 4 + 3 - (flags chunk fingerprint).ctz.toNat / 2 + 1) by omega,
          lookup_from_skip _ _ others, lookup_from_hit _ _ same]
        rfl

/-! ### The slot that is marked -/

structure Visited (hot : Hot) (bucket i : Nat) (after : Hot) : Prop where
  bits : ∀ b j, (after.metas b).visited j =
    if b = bucket ∧ j = i then true else (hot.metas b).visited j
  slots : after.slots = hot.slots
  states : ∀ b, (after.metas b).state = (hot.metas b).state
  hands : ∀ b, (after.metas b).hand = (hot.metas b).hand
  counts : after.size = hot.size ∧ after.eviction_count = hot.eviction_count ∧
    after.pin_failures = hot.pin_failures

inductive LookedUp (hot : Hot) (bucket fingerprint : Nat) : Option Nat × Hot → Prop
  | hit {i : Nat} {after : Hot} (inside : i < kSlotsPerBucket)
      (same : unpack_fp (hot.slots bucket i) = fingerprint)
      (first : ∀ j < i, unpack_fp (hot.slots bucket j) ≠ fingerprint)
      (visited : Visited hot bucket i after) :
      LookedUp hot bucket fingerprint (some (unpack_off (hot.slots bucket i)), after)
  | miss (absent : ∀ j < kSlotsPerBucket, unpack_fp (hot.slots bucket j) ≠ fingerprint) :
      LookedUp hot bucket fingerprint (none, hot)

theorem set_visited_run (i : Nat) :
    Visited hot bucket i ((set_visited bucket i).run hotSem hot).2 := by
  unfold set_visited
  rw [Prog.run_bind, run_load_visited]
  dsimp only
  by_cases already : (hot.metas bucket).visited i = true
  · rw [if_pos already, Prog.run_ret]
    exact {
      bits := by
        intro b j
        by_cases here : b = bucket ∧ j = i
        · rw [if_pos here, here.1, here.2, already]
        · rw [if_neg here]
      slots := rfl
      states := fun _ => rfl
      hands := fun _ => rfl
      counts := ⟨rfl, rfl, rfl⟩ }
  · rw [if_neg already]
    have written : ((write_visited bucket i true).run hotSem hot).2 = hot.visit bucket i true := rfl
    rw [written]
    unfold Hot.visit Hot.set_visited Hot.set_meta
    exact {
      bits := by
        intro b j
        by_cases here : b = bucket
        · cases here
          by_cases slot : j = i
          · simp [slot]
          · simp [slot]
        · simp [here]
      slots := rfl
      states := by
        intro b
        by_cases here : b = bucket
        · simp [here]
        · simp [here]
      hands := by
        intro b
        by_cases here : b = bucket
        · simp [here]
        · simp [here]
      counts := ⟨rfl, rfl, rfl⟩ }

theorem lookup_from_run :
    LookedUp hot bucket fingerprint
      ((lookup_from bucket fingerprint kSlotsPerBucket 0).run hotSem hot) := by
  by_cases present : ∃ i, i < kSlotsPerBucket ∧ unpack_fp (hot.slots bucket i) = fingerprint
  · have least : ∃ i, (i < kSlotsPerBucket ∧ unpack_fp (hot.slots bucket i) = fingerprint) ∧
        ∀ j < i, ¬(j < kSlotsPerBucket ∧ unpack_fp (hot.slots bucket j) = fingerprint) :=
      ⟨Nat.find present, Nat.find_spec present, fun j before => Nat.find_min present before⟩
    obtain ⟨i, ⟨inside, same⟩, first⟩ := least
    have others : ∀ j < i, unpack_fp (hot.slots bucket (0 + j)) ≠ fingerprint := by
      intro j before matched
      rw [Nat.zero_add] at matched
      exact first j before ⟨Nat.lt_trans before inside, matched⟩
    have split : kSlotsPerBucket = i + (kSlotsPerBucket - i - 1 + 1) := by omega
    rw [split, lookup_from_skip _ 0 others, Nat.zero_add, lookup_from_hit _ i same]
    apply LookedUp.hit inside same
    · intro j before
      have other := others j before
      rwa [Nat.zero_add] at other
    · exact set_visited_run i
  · have absent : ∀ j < kSlotsPerBucket, unpack_fp (hot.slots bucket j) ≠ fingerprint := by
      intro j inside matched
      exact present ⟨j, inside, matched⟩
    have others : ∀ j < kSlotsPerBucket, unpack_fp (hot.slots bucket (0 + j)) ≠ fingerprint := by
      intro j inside
      rw [Nat.zero_add]
      exact absent j inside
    have passed := lookup_from_skip 0 0 others
    rw [Nat.add_zero] at passed
    rw [passed]
    exact .miss absent

/-- Both scans answer the same and leave the same: the visited bit of the first
slot that holds the fingerprint is set. -/
theorem lookup_simd_eq (num_buckets : Nat) (hot : Hot) (short : fingerprint < 2 ^ 32)
    (words : ∀ i < kSlotsPerBucket,
      hot.slots (bucket_index num_buckets fingerprint) i < 2 ^ 64) :
    (lookup_simd num_buckets fingerprint).run hotSem hot =
        (lookup num_buckets fingerprint).run hotSem hot ∧
      LookedUp hot (bucket_index num_buckets fingerprint) fingerprint
        ((lookup_simd num_buckets fingerprint).run hotSem hot) := by
  have same : (lookup_simd num_buckets fingerprint).run hotSem hot =
      (lookup num_buckets fingerprint).run hotSem hot := lookup_chunks_eq short 4 0 words
  constructor
  · exact same
  · rw [same]
    exact lookup_from_run

/-- The offset of the first slot is the fingerprint, and two slots hold it. -/
def crowded : Hot :=
  ((Hot.empty.set_slot 0 0 (pack 9 5)).set_slot 0 6 (pack 5 7)).set_slot 0 7 (pack 5 8)

theorem lookup_simd_eq_crowded :
    ((lookup_simd 1 5).run hotSem crowded).1 = some 7 ∧
      (lookup_simd 1 5).run hotSem crowded = (lookup 1 5).run hotSem crowded ∧
      LookedUp crowded 0 5 ((lookup_simd 1 5).run hotSem crowded) := by
  have equal := @lookup_simd_eq 5 1 crowded (by decide) (by decide)
  constructor
  · rw [equal.1]
    decide
  · exact equal

end Scans

end Hiom.HotTier
