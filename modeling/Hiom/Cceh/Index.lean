import Mathlib
import Hiom.Cceh.Segment

/-!
The directory of segments that grows by splitting one of them at a time, under
one thread. Its entries name segments, and a segment that tells fewer bits
apart than the directory has several entries.
-/

namespace Hiom.Cceh

open Hiom.Viper.Records (KVOffset)

structure Index where
  depth : Nat
  dir : Nat → Nat
  segments : Nat → Segment
  num_segments : Nat

namespace Index

def create (depth : Nat) : Index :=
  ⟨depth, fun x => x, fun x => ⟨fun _ => .empty, depth, x⟩, 2 ^ depth⟩

def target (idx : Index) (key_hash : Nat) : Nat := idx.dir (top_bits key_hash idx.depth)

def set_segment (idx : Index) (id : Nat) (seg : Segment) : Index :=
  { idx with segments := Function.update idx.segments id seg }

/-- The directory after a split into the segments `s0`, of depth `local_depth`
now, and `s1`: the second half of the entries of the segment becomes those of
`s1`, or every entry is doubled. -/
def redirect (idx : Index) (x local_depth s0 s1 : Nat) : Index :=
  if local_depth - 1 < idx.depth then
    if idx.depth - local_depth = 0 then
      if x % 2 = 0 then { idx with dir := Function.update idx.dir (x + 1) s1 }
      else { idx with dir := Function.update idx.dir x s1 }
    else
      let chunk_size := 2 ^ (idx.depth - (local_depth - 1))
      let x := x - x % chunk_size
      { idx with
        dir := fun y =>
          if x + chunk_size / 2 ≤ y ∧ y < x + chunk_size / 2 + chunk_size / 2 then s1
          else idx.dir y }
  else
    { idx with
      depth := idx.depth + 1
      dir := fun y =>
        if y / 2 = x then if y % 2 = 0 then s0 else s1
        else idx.dir (y / 2) }

section

variable (hasher : Hasher)

def divide (idx : Index) (key_hash : Nat) : Index :=
  let target := idx.target key_hash
  let split1 := (idx.segments target).Split hasher
  let local_depth := (idx.segments target).local_depth + 1
  let s0 :=
    { idx.segments target with
      local_depth := local_depth
      pattern := (key_hash >>> (64 - local_depth + 1)) <<< 1 }
  let s1 := { split1 with pattern := (key_hash >>> (64 - split1.local_depth + 1)) <<< 1 + 1 }
  { idx with
    segments := Function.update (Function.update idx.segments target s0) idx.num_segments s1
    num_segments := idx.num_segments + 1 }

def split (idx : Index) (key_hash : Nat) : Index :=
  (idx.divide hasher key_hash).redirect (top_bits key_hash idx.depth)
    ((idx.segments (idx.target key_hash)).local_depth + 1) (idx.target key_hash) idx.num_segments

/-- The loop of `Insert`, for as many rounds. A segment that tells all 64 bits
apart cannot be split. -/
def Insert (word : Nat) (value : KVOffset) (check : KVOffset → Bool) :
    Nat → Index → Option (KVOffset × Index)
  | 0, _ => none
  | rounds + 1, idx =>
      let key_hash := hasher.hash word
      let target := idx.target key_hash
      let (ret, seg) := (idx.segments target).Insert hasher word value check
      let idx := idx.set_segment target seg
      match ret with
      | .done old_entry => some (old_entry, idx)
      | .retry => Insert word value check rounds idx
      | .full =>
          if seg.local_depth < 64 then Insert word value check rounds (idx.split hasher key_hash)
          else none

def Get (idx : Index) (word : Nat) (check : KVOffset → Bool) : KVOffset :=
  (idx.segments (idx.target (hasher.hash word))).Get hasher word check

end

end Index

/-! ### Bits of a hash -/

section Bits

variable {key_hash depth local_depth : Nat}

theorem top_bits_eq : top_bits key_hash depth = key_hash / 2 ^ (64 - depth) :=
  Nat.shiftRight_eq_div_pow _ _

/-- The bits of a segment are the first of those of the directory. -/
theorem top_bits_div (le : local_depth ≤ depth) (deep : depth ≤ 64) :
    top_bits key_hash depth / 2 ^ (depth - local_depth) = top_bits key_hash local_depth := by
  rw [top_bits_eq, top_bits_eq, Nat.div_div_eq_div_mul, ← pow_add]
  congr 2
  omega

theorem top_bits_succ_div (deep : depth < 64) :
    top_bits key_hash (depth + 1) / 2 = top_bits key_hash depth := by
  have halved := @top_bits_div key_hash (depth + 1) depth (Nat.le_succ depth) deep
  rw [show depth + 1 - depth = 1 by omega, pow_one] at halved
  exact halved

theorem top_bits_succ_mod (deep : depth < 64) :
    top_bits key_hash (depth + 1) % 2 = 1 ↔ moves key_hash depth = true := by
  unfold moves
  rw [Nat.testBit_eq_decide_div_mod_eq, decide_eq_true_iff, top_bits_eq,
    show 64 - (depth + 1) = 63 - depth by omega]

/-- One more bit: the pattern of the segment of the hash after a split. -/
theorem top_bits_succ (deep : depth < 64) :
    top_bits key_hash (depth + 1) =
      2 * top_bits key_hash depth + if moves key_hash depth then 1 else 0 := by
  have half := @top_bits_succ_div key_hash depth deep
  have parity := @top_bits_succ_mod key_hash depth deep
  split
  · rename_i moved
    have odd := parity.mpr moved
    omega
  · rename_i stays
    have even : ¬top_bits key_hash (depth + 1) % 2 = 1 := fun odd => stays (parity.mp odd)
    omega

/-- The second half of a chunk of the directory. -/
theorem second_half_iff {half x y : Nat} (positive : 0 < half) :
    (x - x % (2 * half) + half ≤ y ∧ y < x - x % (2 * half) + half + half) ↔
      y / (2 * half) = x / (2 * half) ∧ y / half % 2 = 1 := by
  have base : x - x % (2 * half) = (2 * (x / (2 * half))) * half := by
    have parts := Nat.div_add_mod x (2 * half)
    have regroup : 2 * half * (x / (2 * half)) = (2 * (x / (2 * half))) * half := by
      rw [Nat.mul_assoc, Nat.mul_comm half, ← Nat.mul_assoc]
    omega
  have chunk : y / (2 * half) = y / half / 2 := by
    rw [Nat.mul_comm, Nat.div_div_eq_div_mul]
  have lower : (2 * (x / (2 * half))) * half + half ≤ y ↔ 2 * (x / (2 * half)) + 1 ≤ y / half := by
    rw [Nat.le_div_iff_mul_le positive, Nat.add_mul, Nat.one_mul]
  have upper : y < (2 * (x / (2 * half))) * half + half + half ↔
      y / half < 2 * (x / (2 * half)) + 2 := by
    rw [Nat.div_lt_iff_lt_mul positive, Nat.add_mul]
    omega
  rw [base, lower, upper, chunk]
  omega

end Bits

/-! ### Routing -/

namespace Index

variable {hasher : Hasher} {idx : Index}

/-- Each hash leads to a segment of its pattern, which all hashes of the pattern
share. -/
structure Routed (idx : Index) : Prop where
  depth_le : idx.depth ≤ 64
  local_le : ∀ key_hash < 2 ^ 64, (idx.segments (idx.target key_hash)).local_depth ≤ idx.depth
  pattern : ∀ key_hash < 2 ^ 64,
    top_bits key_hash (idx.segments (idx.target key_hash)).local_depth =
      (idx.segments (idx.target key_hash)).pattern
  shared : ∀ key_hash < 2 ^ 64, ∀ other < 2 ^ 64,
    top_bits other (idx.segments (idx.target key_hash)).local_depth =
      top_bits key_hash (idx.segments (idx.target key_hash)).local_depth →
    idx.target other = idx.target key_hash
  named : ∀ key_hash < 2 ^ 64, idx.target key_hash < idx.num_segments

theorem Routed.target_eq_iff (routed : idx.Routed) {key_hash other : Nat}
    (small : key_hash < 2 ^ 64) (other_small : other < 2 ^ 64) :
    idx.target other = idx.target key_hash ↔
      top_bits other (idx.segments (idx.target key_hash)).local_depth =
        top_bits key_hash (idx.segments (idx.target key_hash)).local_depth := by
  constructor
  · intro same
    have here := routed.pattern other other_small
    rw [same] at here
    rw [here, routed.pattern key_hash small]
  · exact routed.shared key_hash small other other_small

/-- Where a hash leads after a split: to the new segment if it led to the split
one and its next bit is set. -/
theorem redirect_target {key_hash other local_depth s0 s1 : Nat} (deep : local_depth < 64)
    (local_le : local_depth ≤ idx.depth) (depth_le : idx.depth ≤ 64)
    (hits : idx.target other = s0 ↔ top_bits other local_depth = top_bits key_hash local_depth) :
    (idx.redirect (top_bits key_hash idx.depth) (local_depth + 1) s0 s1).target other =
      if idx.target other = s0 ∧ moves other local_depth then s1 else idx.target other := by
  unfold redirect
  rw [Nat.add_sub_cancel]
  split
  · rename_i shallow
    have few : idx.depth - local_depth = idx.depth - (local_depth + 1) + 1 := by omega
    have upper_half : top_bits other idx.depth / 2 ^ (idx.depth - (local_depth + 1)) % 2 = 1 ↔
        moves other local_depth = true := by
      rw [top_bits_div (by omega) depth_le]
      exact top_bits_succ_mod deep
    have chunk : top_bits other idx.depth / 2 ^ (idx.depth - local_depth) =
          top_bits key_hash idx.depth / 2 ^ (idx.depth - local_depth) ↔
        idx.target other = s0 := by
      rw [top_bits_div local_le depth_le, top_bits_div local_le depth_le, hits]
    split
    · rename_i single
      have narrow : idx.depth - local_depth = 1 := by omega
      rw [single, pow_zero, Nat.div_one] at upper_half
      rw [narrow, pow_one] at chunk
      by_cases even : top_bits key_hash idx.depth % 2 = 0
      · rw [if_pos even]
        unfold target
        dsimp only
        rw [Function.update_apply]
        apply if_congr _ rfl rfl
        rw [← upper_half]
        unfold target at chunk
        rw [← chunk]
        omega
      · rw [if_neg even]
        unfold target
        dsimp only
        rw [Function.update_apply]
        apply if_congr _ rfl rfl
        rw [← upper_half]
        unfold target at chunk
        rw [← chunk]
        omega
    · unfold target
      dsimp only
      apply if_congr _ rfl rfl
      rw [few, pow_succ, Nat.mul_comm] at chunk ⊢
      rw [Nat.mul_div_cancel_left _ (by decide : 0 < 2),
        second_half_iff (Nat.two_pow_pos _), upper_half]
      unfold target at chunk
      rw [chunk]
  · rename_i full
    have same : local_depth = idx.depth := by omega
    subst same
    have half := @top_bits_succ_div other idx.depth deep
    have upper_half := @top_bits_succ_mod other idx.depth deep
    unfold target at hits ⊢
    dsimp only
    rw [half]
    by_cases hit : top_bits other idx.depth = top_bits key_hash idx.depth
    · have led := hits.mpr hit
      rw [if_pos hit]
      by_cases upper : moves other idx.depth = true
      · have odd := upper_half.mpr upper
        rw [if_neg (by omega), if_pos ⟨led, upper⟩]
      · have even : ¬top_bits other (idx.depth + 1) % 2 = 1 := fun odd => upper (upper_half.mp odd)
        rw [if_pos (by omega), if_neg (fun both => upper both.2), led]
    · rw [if_neg hit, if_neg (fun both => hit (hits.mp both.1))]

@[simp] theorem redirect_segments (x local_depth s0 s1 : Nat) :
    (idx.redirect x local_depth s0 s1).segments = idx.segments := by
  unfold redirect
  split
  · split
    · split <;> rfl
    · rfl
  · rfl

@[simp] theorem redirect_num (x local_depth s0 s1 : Nat) :
    (idx.redirect x local_depth s0 s1).num_segments = idx.num_segments := by
  unfold redirect
  split
  · split
    · split <;> rfl
    · rfl
  · rfl

theorem redirect_depth {local_depth : Nat} (x s0 s1 : Nat) (deep : local_depth < 64)
    (local_le : local_depth ≤ idx.depth) (depth_le : idx.depth ≤ 64) :
    idx.depth ≤ (idx.redirect x (local_depth + 1) s0 s1).depth ∧
      local_depth + 1 ≤ (idx.redirect x (local_depth + 1) s0 s1).depth ∧
      (idx.redirect x (local_depth + 1) s0 s1).depth ≤ 64 := by
  unfold redirect
  rw [Nat.add_sub_cancel]
  split
  · rename_i shallow
    have same : ∀ dir : Nat → Nat, ({ idx with dir := dir } : Index).depth = idx.depth :=
      fun _ => rfl
    split
    · split
      · rw [same]
        omega
      · rw [same]
        omega
    · rw [same]
      omega
  · dsimp only
    omega

/-! ### Splits -/

structure Intact (hasher : Hasher) (idx : Index) : Prop extends idx.Routed where
  intact : ∀ id < idx.num_segments, (idx.segments id).Intact hasher

def Has (hasher : Hasher) (idx : Index) (word : Nat) (value : KVOffset) : Prop :=
  (idx.segments (idx.target (hasher.hash word))).Holds word value

theorem split_num (key_hash : Nat) :
    (idx.split hasher key_hash).num_segments = idx.num_segments + 1 :=
  redirect_num _ _ _ _

section Split

variable {key_hash : Nat} (intact : idx.Intact hasher) (small : key_hash < 2 ^ 64)
  (deep : (idx.segments (idx.target key_hash)).local_depth < 64)

include intact small deep

theorem split_target {other : Nat} (other_small : other < 2 ^ 64) :
    (idx.split hasher key_hash).target other =
      if idx.target other = idx.target key_hash ∧
          moves other (idx.segments (idx.target key_hash)).local_depth then idx.num_segments
      else idx.target other := by
  exact @redirect_target (idx.divide hasher key_hash) _ _ _ _ _ deep
    (intact.local_le key_hash small) intact.depth_le (intact.target_eq_iff small other_small)

theorem split_segments (id : Nat) :
    ((idx.split hasher key_hash).segments id).local_depth =
        (if id = idx.num_segments ∨ id = idx.target key_hash then
          (idx.segments (idx.target key_hash)).local_depth + 1
        else (idx.segments id).local_depth) ∧
      ((idx.split hasher key_hash).segments id).pattern =
        (if id = idx.num_segments then
          2 * (idx.segments (idx.target key_hash)).pattern + 1
        else if id = idx.target key_hash then 2 * (idx.segments (idx.target key_hash)).pattern
        else (idx.segments id).pattern) ∧
      ((idx.split hasher key_hash).segments id).pairs =
        (if id = idx.num_segments then
          ((idx.segments (idx.target key_hash)).Split hasher).pairs
        else (idx.segments id).pairs) := by
  have drawn := Segment.split_from_drawn
    (intact.intact _ (intact.named key_hash small)) (Nat.le_refl kNumSlot)
  have deeper : ((idx.segments (idx.target key_hash)).Split hasher).local_depth =
      (idx.segments (idx.target key_hash)).local_depth + 1 := drawn.deeper
  have shifted : key_hash >>>
      (64 - ((idx.segments (idx.target key_hash)).local_depth + 1) + 1) =
        (idx.segments (idx.target key_hash)).pattern := by
    rw [← intact.pattern key_hash small, top_bits]
    congr 1
    omega
  unfold split
  rw [redirect_segments]
  unfold divide
  dsimp only
  rw [deeper, shifted]
  by_cases new : id = idx.num_segments
  · subst new
    rw [Function.update_self]
    simp only [true_or, if_true, Nat.shiftLeft_eq, pow_one, Nat.mul_comm]
    exact ⟨trivial, trivial, trivial⟩
  · rw [Function.update_of_ne new]
    by_cases old : id = idx.target key_hash
    · subst old
      rw [Function.update_self]
      simp only [new, or_true, if_true, if_false, Nat.shiftLeft_eq, pow_one, Nat.mul_comm]
      exact ⟨trivial, trivial, trivial⟩
    · rw [Function.update_of_ne old]
      simp only [new, old, or_self, if_false]
      exact ⟨trivial, trivial, trivial⟩

/-- What a split leaves of the segment to which a hash leads then: it is the new
one, the split one, or one that the split leaves alone. -/
theorem split_cases {other : Nat} (other_small : other < 2 ^ 64) :
    (idx.target other = idx.target key_hash ∧
        moves other (idx.segments (idx.target key_hash)).local_depth = true ∧
        (idx.split hasher key_hash).target other = idx.num_segments) ∨
      (idx.target other = idx.target key_hash ∧
        moves other (idx.segments (idx.target key_hash)).local_depth = false ∧
        (idx.split hasher key_hash).target other = idx.target key_hash) ∨
      (idx.target other ≠ idx.target key_hash ∧
        (idx.split hasher key_hash).target other = idx.target other) := by
  have led := split_target intact small deep other_small
  by_cases hit : idx.target other = idx.target key_hash
  · cases moved : moves other (idx.segments (idx.target key_hash)).local_depth with
    | true =>
        rw [if_pos ⟨hit, moved⟩] at led
        exact .inl ⟨hit, rfl, led⟩
    | false =>
        rw [if_neg (by rw [moved]; exact fun both => Bool.noConfusion both.2), hit] at led
        exact .inr (.inl ⟨hit, rfl, led⟩)
  · rw [if_neg (fun both => hit both.1)] at led
    exact .inr (.inr ⟨hit, led⟩)

theorem split_depth : idx.depth ≤ (idx.split hasher key_hash).depth ∧
    (idx.segments (idx.target key_hash)).local_depth + 1 ≤ (idx.split hasher key_hash).depth ∧
    (idx.split hasher key_hash).depth ≤ 64 := by
  exact @redirect_depth (idx.divide hasher key_hash) _ _ _ _ deep
    (intact.local_le key_hash small) intact.depth_le

theorem split_routed : (idx.split hasher key_hash).Routed := by
  have named := intact.named key_hash small
  have own := intact.pattern key_hash small
  obtain ⟨grows, room, depth_le⟩ := split_depth intact small deep
  have new := split_segments intact small deep idx.num_segments
  have old := split_segments intact small deep (idx.target key_hash)
  rw [if_pos (.inl rfl), if_pos rfl] at new
  rw [if_pos (.inr rfl), if_neg (Nat.ne_of_lt named), if_pos rfl] at old
  have else_where : ∀ other < 2 ^ 64, idx.target other ≠ idx.target key_hash →
      ((idx.split hasher key_hash).segments (idx.target other)).local_depth =
          (idx.segments (idx.target other)).local_depth ∧
        ((idx.split hasher key_hash).segments (idx.target other)).pattern =
          (idx.segments (idx.target other)).pattern := by
    intro other other_small different
    have here := split_segments intact small deep (idx.target other)
    have not_new := Nat.ne_of_lt (intact.named other other_small)
    rw [if_neg (fun either => either.elim not_new different), if_neg not_new,
      if_neg different] at here
    exact ⟨here.1, here.2.1⟩
  have split_bits : ∀ other, top_bits other ((idx.segments (idx.target key_hash)).local_depth + 1) =
      2 * top_bits other (idx.segments (idx.target key_hash)).local_depth +
        if moves other (idx.segments (idx.target key_hash)).local_depth then 1 else 0 :=
    fun other => top_bits_succ deep
  constructor
  · exact depth_le
  · intro other other_small
    rcases split_cases intact small deep other_small with
      ⟨-, -, led⟩ | ⟨-, -, led⟩ | ⟨different, led⟩
    · rw [led, new.1]
      exact room
    · rw [led, old.1]
      exact room
    · rw [led, (else_where other other_small different).1]
      exact Nat.le_trans (intact.local_le other other_small) grows
  · intro other other_small
    have here := intact.pattern other other_small
    rcases split_cases intact small deep other_small with
      ⟨hit, moved, led⟩ | ⟨hit, stays, led⟩ | ⟨different, led⟩
    · rw [hit] at here
      rw [led, new.1, new.2.1, split_bits, moved, here, if_pos rfl]
    · rw [hit] at here
      rw [led, old.1, old.2.1, split_bits, stays, here]
      rfl
    · rw [led, (else_where other other_small different).1,
        (else_where other other_small different).2]
      exact here
  · intro other other_small third third_small same
    have agree : idx.target third = idx.target other ∧
        (idx.target other = idx.target key_hash →
          moves third (idx.segments (idx.target key_hash)).local_depth =
            moves other (idx.segments (idx.target key_hash)).local_depth) := by
      by_cases hit : idx.target other = idx.target key_hash
      · have deeper : ((idx.split hasher key_hash).segments
            ((idx.split hasher key_hash).target other)).local_depth =
              (idx.segments (idx.target key_hash)).local_depth + 1 := by
          rcases split_cases intact small deep other_small with
            ⟨-, -, led⟩ | ⟨-, -, led⟩ | ⟨different, -⟩
          · rw [led, new.1]
          · rw [led, old.1]
          · exact absurd hit different
        rw [deeper, split_bits, split_bits] at same
        have high : top_bits third (idx.segments (idx.target other)).local_depth =
            top_bits other (idx.segments (idx.target other)).local_depth := by
          rw [hit]
          split at same <;> split at same <;> omega
        refine ⟨intact.shared other other_small third third_small high, fun _ => ?_⟩
        rw [hit] at high
        rw [Bool.eq_iff_iff]
        split at same <;> split at same <;> simp_all
      · have led : (idx.split hasher key_hash).target other = idx.target other := by
          rw [split_target intact small deep other_small, if_neg (fun both => hit both.1)]
        rw [led, (else_where other other_small hit).1] at same
        exact ⟨intact.shared other other_small third third_small same, fun hits => absurd hits hit⟩
    rw [split_target intact small deep third_small, split_target intact small deep other_small,
      agree.1]
    by_cases hit : idx.target other = idx.target key_hash
    · rw [agree.2 hit]
    · rw [if_neg (fun both => hit both.1), if_neg (fun both => hit both.1)]
  · intro other other_small
    rw [split_num]
    rcases split_cases intact small deep other_small with
      ⟨-, -, led⟩ | ⟨-, -, led⟩ | ⟨-, led⟩
    · rw [led]
      exact Nat.lt_succ_self _
    · rw [led]
      omega
    · rw [led]
      have below := intact.named other other_small
      omega

theorem split_intact : (idx.split hasher key_hash).Intact hasher := by
  refine ⟨split_routed intact small deep, ?_⟩
  intro id below
  have named := intact.named key_hash small
  have same : ∀ {seg other : Segment}, seg.pairs = other.pairs → other.Intact hasher →
      seg.Intact hasher := by
    intro seg other pairs sound
    constructor <;> rw [pairs]
    · exact sound.vacant
    · exact sound.occupied
    · exact sound.word_lt
    · exact sound.homed
    · exact sound.distinct
  have pairs := (split_segments intact small deep id).2.2
  split at pairs
  · exact same pairs (Segment.split_from_drawn (intact.intact _ named) (Nat.le_refl kNumSlot)).intact
  · rename_i old
    rw [split_num] at below
    exact same pairs (intact.intact id (by omega))

/-- A split that finds room for every pair it moves loses nothing. -/
theorem split_has (keeps : (idx.segments (idx.target key_hash)).SplitKeeps hasher) {word : Nat}
    {value : KVOffset} (word_lt : word < 2 ^ 64) (valid : word ≠ INVALID) :
    (idx.split hasher key_hash).Has hasher word value ↔ idx.Has hasher word value := by
  have named := intact.named key_hash small
  have hash_lt := hasher.hash_lt word word_lt
  unfold Has Segment.Holds
  rcases split_cases intact small deep hash_lt with
    ⟨hit, moved, led⟩ | ⟨hit, -, led⟩ | ⟨different, led⟩
  · have pairs := (split_segments intact small deep idx.num_segments).2.2
    rw [if_pos rfl] at pairs
    have drawn := Segment.split_from_drawn (intact.intact _ named) (Nat.le_refl kNumSlot)
    rw [led, pairs, hit]
    constructor
    · rintro ⟨slot, -, here⟩
      have occupied : (((idx.segments (idx.target key_hash)).Split hasher).pairs slot).key ≠ INVALID := by
        rw [here]
        exact valid
      obtain ⟨src, src_lt, same, -⟩ := drawn.source slot occupied
      exact ⟨src, src_lt, same.symm.trans here⟩
    · rintro ⟨slot, inside, here⟩
      have pattern := intact.pattern (hasher.hash word) hash_lt
      rw [hit] at pattern
      obtain ⟨other, other_lt, same⟩ := keeps slot inside
        (by rw [here]; exact valid)
        (by
          rw [Bool.eq_false_iff]
          intro foreign
          rw [Segment.foreign_iff, here] at foreign
          exact foreign.2 pattern)
        (by rw [here]; exact moved)
      exact ⟨other, other_lt, same.trans here⟩
  · have pairs := (split_segments intact small deep (idx.target key_hash)).2.2
    rw [if_neg (Nat.ne_of_lt named)] at pairs
    rw [led, pairs, hit]
  · have pairs := (split_segments intact small deep (idx.target (hasher.hash word))).2.2
    rw [if_neg (Nat.ne_of_lt (intact.named _ hash_lt))] at pairs
    rw [led, pairs]

end Split

/-! ### Insertions -/

section Insert

variable {word : Nat} {value : KVOffset} {check : KVOffset → Bool} {own : KVOffset → Prop}

theorem target_set_segment (id : Nat) (seg : Segment) (key_hash : Nat) :
    (idx.set_segment id seg).target key_hash = idx.target key_hash := rfl

theorem segments_set_segment (id : Nat) (seg : Segment) (other : Nat) :
    (idx.set_segment id seg).segments other = if other = id then seg else idx.segments other := by
  unfold set_segment
  dsimp only
  rw [Function.update_apply]

/-- A segment of the same pattern may take the place of another. -/
theorem Intact.set_segment (intact : idx.Intact hasher) {id : Nat} {seg : Segment}
    (local_depth : seg.local_depth = (idx.segments id).local_depth)
    (pattern : seg.pattern = (idx.segments id).pattern) (sound : seg.Intact hasher) :
    (idx.set_segment id seg).Intact hasher := by
  have depths : ∀ other, ((idx.set_segment id seg).segments other).local_depth =
      (idx.segments other).local_depth := by
    intro other
    rw [segments_set_segment]
    split
    · rename_i here
      rw [here, local_depth]
    · rfl
  have patterns : ∀ other, ((idx.set_segment id seg).segments other).pattern =
      (idx.segments other).pattern := by
    intro other
    rw [segments_set_segment]
    split
    · rename_i here
      rw [here, pattern]
    · rfl
  constructor
  · constructor
    · exact intact.depth_le
    · intro key_hash small
      rw [depths]
      exact intact.local_le key_hash small
    · intro key_hash small
      rw [depths, patterns]
      exact intact.pattern key_hash small
    · intro key_hash small other other_small
      rw [depths]
      exact intact.shared key_hash small other other_small
    · exact intact.named
  · intro other below
    rw [segments_set_segment]
    split
    · exact sound
    · exact intact.intact other below

/-- Each segment in which the insertion looks for the key offers it the key's
own slot or a vacant one; and where it is full, the split of it keeps what it
moves. -/
def Settles (hasher : Hasher) (word : Nat) (value : KVOffset) (check : KVOffset → Bool)
    (own : KVOffset → Prop) : Nat → Index → Prop
  | 0, _ => False
  | rounds + 1, idx =>
      let key_hash := hasher.hash word
      let seg := idx.segments (idx.target key_hash)
      seg.Clean hasher word check own ∧
        (seg.stop hasher word check = none →
          let left := (seg.Insert hasher word value check).2
          left.local_depth < 64 ∧ left.SplitKeeps hasher ∧
            Settles hasher word value check own rounds
              ((idx.set_segment (idx.target key_hash) left).split hasher key_hash))

def settles (hasher : Hasher) (word : Nat) (check : KVOffset → Bool) (idx : Index) : Bool :=
  let seg := idx.segments (idx.target (hasher.hash word))
  (seg.stop hasher word check).any fun slot =>
    let found := seg.visible hasher slot
    (found.key == INVALID || found.key == word && check found.value) &&
      (List.range kWindow).all fun i =>
        let other := seg.pairs (window hasher word i)
        other.key != word || !check other.value || window hasher word i == slot

theorem settles_sound {rounds : Nat} (small : word < 2 ^ 64) (valid : word ≠ INVALID)
    (intact : idx.Intact hasher) (passed : idx.settles hasher word check = true) :
    idx.Settles hasher word value check (fun off => check off = true) (rounds + 1) := by
  have sound := intact.intact _ (intact.named _ (hasher.hash_lt word small))
  simp only [settles, Option.any_eq_true, Bool.and_eq_true, Bool.or_eq_true, beq_iff_eq,
    List.all_eq_true, List.mem_range, bne_iff_ne, Bool.not_eq_true'] at passed
  obtain ⟨slot, stops, seen, alone⟩ := passed
  constructor
  · constructor
    · intro other inside off here mine
      have occupied : ((idx.segments (idx.target (hasher.hash word))).pairs other).key ≠ INVALID := by
        rw [here]
        exact valid
      obtain ⟨i, below, same⟩ := sound.homed other inside occupied
      rw [here] at same
      rw [same] at here ⊢
      rcases alone i below with (different | fails) | same_slot
      · rw [here] at different
        exact absurd rfl different
      · rw [here] at fails
        exact absurd mine (Bool.eq_false_iff.mp fails)
      · rw [same_slot]
        exact stops
    · intro other stops_there
      rw [stops] at stops_there
      cases stops_there
      rcases seen with vacant | ⟨own_word, mine⟩
      · exact .inr vacant
      · exact .inl ⟨_, mine, Pair.eq_of_key own_word⟩
  · intro full
    rw [stops] at full
    cases full

structure Inserted (hasher : Hasher) (word : Nat) (value : KVOffset) (own : KVOffset → Prop)
    (idx : Index) (old_entry : KVOffset) (after : Index) : Prop where
  intact : after.Intact hasher
  old : idx.Has hasher word old_entry ∧ own old_entry ∨
    old_entry = .Tombstone ∧ ∀ off, idx.Has hasher word off → ¬own off
  has : ∀ other off, other < 2 ^ 64 → other ≠ INVALID →
    (after.Has hasher other off ↔
      other = word ∧ off = value ∧ value ≠ .Tombstone ∨
        idx.Has hasher other off ∧ ¬(other = word ∧ own off))

/-- An insertion that settles returns, and does to the index what it is meant
to do. -/
theorem Insert_spec (small : word < 2 ^ 64) (valid : word ≠ INVALID) (rounds : Nat)
    (intact : idx.Intact hasher) (fresh : value ≠ .Tombstone → ¬idx.Has hasher word value)
    (settles : idx.Settles hasher word value check own rounds) :
    ∃ old_entry after, idx.Insert hasher word value check rounds = some (old_entry, after) ∧
      Inserted hasher word value own idx old_entry after := by
  induction rounds generalizing idx with
  | zero => cases settles
  | succ rounds ih =>
      obtain ⟨clean, continues⟩ := settles
      have hash_lt := hasher.hash_lt word small
      have routed := intact.pattern (hasher.hash word) hash_lt
      have sound := intact.intact _ (intact.named _ hash_lt)
      obtain ⟨last, cleared, inserted⟩ := @Segment.Insert_eq hasher _ word value check routed
      unfold Index.Insert
      dsimp only
      cases stops : (idx.segments (idx.target (hasher.hash word))).stop hasher word check with
      | some slot =>
          rw [stops] at inserted
          rw [inserted]
          refine ⟨_, _, rfl, ?_, ?_, ?_⟩
          · exact intact.set_segment cleared.local_depth cleared.pattern
              (sound.stays valid routed stops cleared small fresh)
          · exact clean.old_entry valid routed stops sound
          · intro other off other_small other_valid
            unfold Has
            rw [target_set_segment, segments_set_segment]
            split
            · rename_i here
              have other_routed := intact.pattern _ (hasher.hash_lt other other_small)
              rw [here] at other_routed ⊢
              exact clean.holds valid routed stops cleared other_valid other_routed
            · rename_i elsewhere
              constructor
              · intro holds
                refine .inr ⟨holds, ?_⟩
                rintro ⟨rfl, -⟩
                exact elsewhere rfl
              · rintro (⟨rfl, -⟩ | ⟨holds, -⟩)
                · exact absurd rfl elsewhere
                · exact holds
      | none =>
          obtain ⟨deep, keeps, settles⟩ := continues stops
          rw [stops] at inserted
          rw [inserted] at deep keeps settles ⊢
          dsimp only at deep keeps settles ⊢
          rw [if_pos deep]
          have middle := intact.set_segment cleared.local_depth cleared.pattern (cleared.intact sound)
          have here : (idx.set_segment (idx.target (hasher.hash word)) last).segments
              ((idx.set_segment (idx.target (hasher.hash word)) last).target (hasher.hash word)) =
                last := by
            rw [target_set_segment, segments_set_segment, if_pos rfl]
          have same : ∀ other off, other < 2 ^ 64 → other ≠ INVALID →
              (((idx.set_segment (idx.target (hasher.hash word)) last).split hasher
                (hasher.hash word)).Has hasher other off ↔ idx.Has hasher other off) := by
            intro other off other_small other_valid
            rw [split_has middle hash_lt (by rw [here]; exact deep) (by rw [here]; exact keeps)
              other_small other_valid]
            unfold Has
            rw [target_set_segment, segments_set_segment]
            split
            · rename_i led
              have other_routed := intact.pattern _ (hasher.hash_lt other other_small)
              rw [led] at other_routed ⊢
              have native := @Segment.Cleared.pairs_native hasher last _ cleared ⟨other, off⟩
                other_valid other_routed
              unfold Segment.Holds
              simp only [native]
            · rfl
          obtain ⟨old_entry, after, returned, spec⟩ := ih
            (split_intact middle hash_lt (by rw [here]; exact deep))
            (fun real => by rw [same _ _ small valid]; exact fresh real) settles
          refine ⟨old_entry, after, returned, spec.intact, ?_, ?_⟩
          · simpa only [same _ _ small valid] using spec.old
          · intro other off other_small other_valid
            rw [spec.has other off other_small other_valid, same _ _ other_small other_valid]

end Insert

/-! ### A new index -/

theorem create_intact {depth : Nat} (deep : depth ≤ 64) : (create depth).Intact hasher := by
  constructor
  · constructor
    · exact deep
    · exact fun _ _ => Nat.le_refl _
    · exact fun _ _ => rfl
    · exact fun _ _ _ _ same => same
    · intro key_hash small
      show top_bits key_hash depth < 2 ^ depth
      rw [top_bits_eq, Nat.div_lt_iff_lt_mul (Nat.two_pow_pos _), ← pow_add,
        show depth + (64 - depth) = 64 by omega]
      exact small
  · intro id _
    constructor
    · exact fun slot _ => rfl
    · exact fun slot occupied => absurd rfl occupied
    · intro slot
      show INVALID < 2 ^ 64
      decide
    · exact fun slot _ occupied => absurd rfl occupied
    · exact fun a _ b _ _ occupied => absurd rfl occupied

theorem create_has {depth word : Nat} {value : KVOffset} (valid : word ≠ INVALID) :
    ¬(create depth).Has hasher word value := by
  rintro ⟨slot, -, here⟩
  exact valid (congrArg Pair.key here).symm

/-! ### Lookups -/

section Get

variable {word : Nat} {check : KVOffset → Bool}

/-- What a lookup answers is a pair of the word that passes the check; nothing,
if there is none. -/
theorem Get_spec (small : word < 2 ^ 64) (valid : word ≠ INVALID) (intact : idx.Intact hasher) :
    (idx.Has hasher word (idx.Get hasher word check) ∧ check (idx.Get hasher word check) = true) ∨
      (idx.Get hasher word check = .Tombstone ∧ ∀ off, idx.Has hasher word off → check off = false) := by
  have hash_lt := hasher.hash_lt word small
  have sound := intact.intact _ (intact.named _ hash_lt)
  unfold Index.Get Segment.Get
  split
  · rename_i i found
    left
    have matched := List.find?_some found
    rw [decide_eq_true_iff] at matched
    exact ⟨⟨window hasher word i, window_lt i, Pair.eq_of_key matched.1⟩, matched.2⟩
  · rename_i missing
    right
    refine ⟨rfl, ?_⟩
    rintro off ⟨slot, inside, here⟩
    obtain ⟨i, below, at_window⟩ := sound.homed slot inside (by rw [here]; exact valid)
    rw [here] at at_window
    have nowhere := List.find?_eq_none.mp missing i (List.mem_range.mpr below)
    rw [← at_window, here] at nowhere
    simpa using nowhere

end Get

end Index

end Hiom.Cceh
