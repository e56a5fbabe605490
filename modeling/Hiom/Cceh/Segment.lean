import Mathlib
import Hiom.Viper.Records

/-!
A segment of the index that Viper keeps without HiOM. A key has a window of 16
slots, and an insertion takes the first of them that is vacant or holds the
word of the key. What a split has left behind counts as vacant.
-/

namespace Hiom.Cceh

open Hiom.Viper.Records (KVOffset)

def INVALID : Nat := 2 ^ 64 - 1

def SENTINEL : Nat := 2 ^ 64 - 2

def kSegmentBits : Nat := 8
def kMask : Nat := 2 ^ kSegmentBits - 1
def kNumPairPerCacheLine : Nat := 4
def kNumCacheLine : Nat := 4

def kNumSlot : Nat := 2 ^ kSegmentBits * 16 * 4 / 16

structure Pair where
  key : Nat
  value : KVOffset
  deriving DecidableEq

def Pair.empty : Pair := ⟨INVALID, .Tombstone⟩

theorem Pair.eq_of_key {pair : Pair} {word : Nat} (same : pair.key = word) :
    pair = ⟨word, pair.value⟩ := by
  rw [← same]

structure Segment where
  pairs : Nat → Pair
  local_depth : Nat
  pattern : Nat

def Segment.set (seg : Segment) (slot : Nat) (pair : Pair) : Segment :=
  { seg with pairs := Function.update seg.pairs slot pair }

/-- The hash of the word that stands for a key in a slot. A key of 8 bytes is
its own word; of a longer one the word is the hash already. -/
structure Hasher where
  hash : Nat → Nat
  hash_lt : ∀ word < 2 ^ 64, hash word < 2 ^ 64

/-- The bits of a hash that a directory or a segment of this depth tells apart. -/
def top_bits (key_hash depth : Nat) : Nat := key_hash >>> (64 - depth)

section

variable (hasher : Hasher)

def window (word i : Nat) : Nat :=
  ((hasher.hash word &&& kMask) * kNumPairPerCacheLine + i) % kNumSlot

def kWindow : Nat := kNumPairPerCacheLine * kNumCacheLine

namespace Segment

variable (seg : Segment)

/-- A pair that a split has moved elsewhere. -/
def foreign (slot : Nat) : Bool :=
  (seg.pairs slot).key != INVALID &&
    top_bits (hasher.hash (seg.pairs slot).key) seg.local_depth != seg.pattern

def invalidate (slot : Nat) : Segment :=
  if seg.foreign hasher slot then seg.set slot .empty else seg

end Segment

/-- What an insertion stores: a tombstone vacates the slot. -/
def stored (word : Nat) (value : KVOffset) : Pair :=
  ⟨if value.is_tombstone then INVALID else word, value⟩

/-- The loop of `Insert`, from slot `i` of the window on. `lock` is what the
next compare-and-swap expects, which after a fingerprint of another key is not
`INVALID`. -/
def Segment.probe (word : Nat) (value : KVOffset) (check : KVOffset → Bool) :
    Nat → Nat → Nat → Segment → Option KVOffset × Segment
  | 0, _, _, seg => (none, seg)
  | left + 1, i, lock, seg =>
      let slot := window hasher word i
      let seg := seg.invalidate hasher slot
      let found := seg.pairs slot
      if found.key = lock then (some found.value, seg.set slot (stored word value))
      else if found.key = word then
        if check found.value then (some found.value, seg.set slot (stored word value))
        else probe word value check left (i + 1) found.key seg
      else probe word value check left (i + 1) INVALID seg

/-- How an insertion into a segment ends: the segment is another key's now, it
has no room, or it held `old_entry`. -/
inductive Ret where
  | retry
  | full
  | done (old_entry : KVOffset)

def Segment.Insert (word : Nat) (value : KVOffset) (check : KVOffset → Bool) (seg : Segment) :
    Ret × Segment :=
  if top_bits (hasher.hash word) seg.local_depth ≠ seg.pattern then (.retry, seg)
  else
    match seg.probe hasher word value check kWindow 0 INVALID with
    | (some old_entry, seg) => (.done old_entry, seg)
    | (none, seg) => (.full, seg)

def Segment.Insert4split (seg : Segment) (pair : Pair) : Segment :=
  match (List.range kWindow).find? (fun i => (seg.pairs (window hasher pair.key i)).key = INVALID) with
  | some i => seg.set (window hasher pair.key i) pair
  | none => seg

def moves (key_hash local_depth : Nat) : Bool := key_hash.testBit (63 - local_depth)

def Segment.split_from (seg : Segment) : Nat → Segment
  | 0 => ⟨fun _ => .empty, seg.local_depth + 1, 0⟩
  | n + 1 =>
      if moves (hasher.hash (seg.pairs n).key) seg.local_depth then
        (split_from seg n).Insert4split hasher (seg.pairs n)
      else split_from seg n

/-- The new segment of a split. -/
def Segment.Split (seg : Segment) : Segment := seg.split_from hasher kNumSlot

def Segment.Get (seg : Segment) (word : Nat) (check : KVOffset → Bool) : KVOffset :=
  match (List.range kWindow).find? (fun i =>
    (seg.pairs (window hasher word i)).key = word ∧
      check (seg.pairs (window hasher word i)).value) with
  | some i => (seg.pairs (window hasher word i)).value
  | none => .Tombstone

/-! ### What a segment holds -/

namespace Segment

variable (seg : Segment)

def visible (slot : Nat) : Pair :=
  if seg.foreign hasher slot then .empty else seg.pairs slot

def stop_from (word : Nat) (check : KVOffset → Bool) : Nat → Nat → Nat → Option Nat
  | 0, _, _ => none
  | left + 1, i, lock =>
      let slot := window hasher word i
      let found := seg.visible hasher slot
      if found.key = lock then some slot
      else if found.key = word then
        if check found.value then some slot else stop_from word check left (i + 1) found.key
      else stop_from word check left (i + 1) INVALID

def stop (word : Nat) (check : KVOffset → Bool) : Option Nat :=
  seg.stop_from hasher word check kWindow 0 INVALID

/-- An insertion takes the slot of the key's own pair, and a vacant one if there
is no such pair. -/
structure Clean (word : Nat) (check : KVOffset → Bool) (own : KVOffset → Prop) : Prop where
  takes_own : ∀ slot < kNumSlot, ∀ value, seg.pairs slot = ⟨word, value⟩ → own value →
    seg.stop hasher word check = some slot
  takes_vacant : ∀ slot, seg.stop hasher word check = some slot →
    (∃ value, own value ∧ seg.visible hasher slot = ⟨word, value⟩) ∨
      (seg.visible hasher slot).key = INVALID

/-- What every segment of an index is: pairs lie in their windows, no pair lies
in two slots, and a vacant slot holds nothing. -/
structure Intact : Prop where
  vacant : ∀ slot, (seg.pairs slot).key = INVALID → seg.pairs slot = .empty
  occupied : ∀ slot, (seg.pairs slot).key ≠ INVALID → (seg.pairs slot).value ≠ .Tombstone
  word_lt : ∀ slot, (seg.pairs slot).key < 2 ^ 64
  homed : ∀ slot < kNumSlot, (seg.pairs slot).key ≠ INVALID →
    ∃ i < kWindow, slot = window hasher (seg.pairs slot).key i
  distinct : ∀ a < kNumSlot, ∀ b < kNumSlot, seg.pairs a = seg.pairs b →
    (seg.pairs a).key ≠ INVALID → a = b

def SplitKeeps : Prop :=
  ∀ slot < kNumSlot, (seg.pairs slot).key ≠ INVALID → seg.foreign hasher slot = false →
    moves (hasher.hash (seg.pairs slot).key) seg.local_depth = true →
    ∃ other < kNumSlot, (seg.Split hasher).pairs other = seg.pairs slot

end Segment

structure Segment.Cleared (before seg : Segment) : Prop where
  local_depth : seg.local_depth = before.local_depth
  pattern : seg.pattern = before.pattern
  pairs : ∀ slot, seg.pairs slot = before.pairs slot ∨
    before.foreign hasher slot = true ∧ seg.pairs slot = .empty

end

/-! ### Slots -/

section Slots

variable {hasher : Hasher} {seg before : Segment} {word : Nat}

theorem window_lt (i : Nat) : window hasher word i < kNumSlot := Nat.mod_lt _ (by decide)

theorem empty_key : Pair.empty.key = INVALID := rfl

theorem Segment.pairs_set (slot : Nat) (pair : Pair) (other : Nat) :
    (seg.set slot pair).pairs other = if other = slot then pair else seg.pairs other := by
  unfold Segment.set
  dsimp only
  rw [Function.update_apply]

theorem Segment.foreign_iff {slot : Nat} :
    seg.foreign hasher slot = true ↔ (seg.pairs slot).key ≠ INVALID ∧
      top_bits (hasher.hash (seg.pairs slot).key) seg.local_depth ≠ seg.pattern := by
  simp [Segment.foreign]

theorem Segment.visible_eq {slot : Nat} {pair : Pair} (occupied : pair.key ≠ INVALID) :
    seg.visible hasher slot = pair ↔ seg.pairs slot = pair ∧
      top_bits (hasher.hash pair.key) seg.local_depth = seg.pattern := by
  unfold Segment.visible
  constructor
  · intro seen
    split at seen
    · rw [← seen] at occupied
      exact absurd empty_key occupied
    · rename_i native
      refine ⟨seen, ?_⟩
      rw [Segment.foreign_iff, seen] at native
      by_contra other
      exact native ⟨occupied, other⟩
  · rintro ⟨here, native⟩
    rw [if_neg, here]
    rw [Segment.foreign_iff, here]
    exact fun foreign => foreign.2 native

theorem Segment.Cleared.refl (seg : Segment) : Segment.Cleared hasher seg seg :=
  ⟨rfl, rfl, fun _ => .inl rfl⟩

/-- Clearing a slot leaves there what is visible. -/
theorem Segment.Cleared.invalidate (cleared : Segment.Cleared hasher before seg) (slot : Nat) :
    Segment.Cleared hasher before (seg.invalidate hasher slot) ∧
      (seg.invalidate hasher slot).pairs slot = before.visible hasher slot := by
  have same_foreign : ∀ slot, seg.pairs slot = before.pairs slot →
      seg.foreign hasher slot = before.foreign hasher slot := by
    intro slot same
    unfold Segment.foreign
    rw [same, cleared.local_depth, cleared.pattern]
  unfold Segment.invalidate Segment.visible
  cases cleared.pairs slot with
  | inl same =>
      rw [same_foreign slot same]
      split
      · rename_i foreign
        refine ⟨⟨cleared.local_depth, cleared.pattern, ?_⟩, by rw [pairs_set, if_pos rfl]⟩
        intro other
        rw [pairs_set]
        split
        · rename_i here
          rw [here]
          exact .inr ⟨foreign, rfl⟩
        · exact cleared.pairs other
      · exact ⟨cleared, same⟩
  | inr dropped =>
      have vacant : seg.foreign hasher slot = false := by
        rw [Bool.eq_false_iff]
        intro foreign
        rw [foreign_iff, dropped.2] at foreign
        exact foreign.1 rfl
      rw [vacant, dropped.1]
      exact ⟨cleared, dropped.2⟩

/-- The loop takes the slot at which it stops. -/
theorem Segment.probe_eq (value : KVOffset) (check : KVOffset → Bool) (left i lock : Nat)
    (cleared : Segment.Cleared hasher before seg) :
    ∃ last, Segment.Cleared hasher before last ∧
      seg.probe hasher word value check left i lock =
        match before.stop_from hasher word check left i lock with
        | some slot => (some (before.visible hasher slot).value, last.set slot (stored word value))
        | none => (none, last) := by
  induction left generalizing seg i lock with
  | zero => exact ⟨seg, cleared, rfl⟩
  | succ left ih =>
      obtain ⟨still, found⟩ := cleared.invalidate (window hasher word i)
      unfold Segment.probe Segment.stop_from
      dsimp only
      rw [found]
      split
      · exact ⟨_, still, rfl⟩
      · split
        · split
          · exact ⟨_, still, rfl⟩
          · exact ih _ _ still
        · exact ih _ _ still

theorem Segment.stop_from_window {check : KVOffset → Bool} {left i lock slot : Nat}
    (stops : seg.stop_from hasher word check left i lock = some slot) :
    ∃ j < i + left, slot = window hasher word j := by
  induction left generalizing i lock with
  | zero => cases stops
  | succ left ih =>
      have later : (∃ j < i + 1 + left, slot = window hasher word j) →
          ∃ j < i + (left + 1), slot = window hasher word j := by
        rintro ⟨j, below, here⟩
        exact ⟨j, by omega, here⟩
      unfold stop_from at stops
      dsimp only at stops
      split at stops
      · cases stops
        exact ⟨i, by omega, rfl⟩
      · split at stops
        · split at stops
          · cases stops
            exact ⟨i, by omega, rfl⟩
          · exact later (ih stops)
        · exact later (ih stops)

theorem Segment.stop_window {check : KVOffset → Bool} {slot : Nat}
    (stops : seg.stop hasher word check = some slot) : ∃ i < kWindow, slot = window hasher word i := by
  obtain ⟨i, below, here⟩ := stop_from_window stops
  exact ⟨i, by omega, here⟩

theorem Segment.stop_lt {check : KVOffset → Bool} {slot : Nat}
    (stops : seg.stop hasher word check = some slot) : slot < kNumSlot := by
  obtain ⟨i, -, rfl⟩ := stop_window stops
  exact window_lt i

end Slots

/-! ### Insertion -/

section Insertion

variable {hasher : Hasher} {seg last before : Segment} {word slot : Nat} {value : KVOffset}
  {check : KVOffset → Bool} {own : KVOffset → Prop}

def Segment.Holds (seg : Segment) (word : Nat) (value : KVOffset) : Prop :=
  ∃ slot < kNumSlot, seg.pairs slot = ⟨word, value⟩

theorem Segment.Insert_eq (routed : top_bits (hasher.hash word) seg.local_depth = seg.pattern) :
    ∃ last, Segment.Cleared hasher seg last ∧
      seg.Insert hasher word value check =
        match seg.stop hasher word check with
        | some slot => (.done (seg.visible hasher slot).value, last.set slot (stored word value))
        | none => (.full, last) := by
  obtain ⟨last, cleared, probed⟩ :=
    @Segment.probe_eq hasher seg seg word value check kWindow 0 INVALID (Segment.Cleared.refl seg)
  refine ⟨last, cleared, ?_⟩
  unfold Segment.Insert Segment.stop
  rw [if_neg (by simpa using routed), probed]
  cases seg.stop_from hasher word check kWindow 0 INVALID with
  | some slot => rfl
  | none => rfl

theorem Segment.Cleared.intact (cleared : Segment.Cleared hasher before seg)
    (intact : before.Intact hasher) : seg.Intact hasher := by
  have kept : ∀ slot, (seg.pairs slot).key ≠ INVALID → seg.pairs slot = before.pairs slot := by
    intro slot occupied
    cases cleared.pairs slot with
    | inl same => exact same
    | inr dropped =>
        rw [dropped.2] at occupied
        exact absurd rfl occupied
  constructor
  · intro slot vacant
    cases cleared.pairs slot with
    | inl same =>
        rw [same] at vacant ⊢
        exact intact.vacant slot vacant
    | inr dropped => exact dropped.2
  · intro slot occupied
    have same := kept slot occupied
    rw [same] at occupied ⊢
    exact intact.occupied slot occupied
  · intro slot
    cases cleared.pairs slot with
    | inl same =>
        rw [same]
        exact intact.word_lt slot
    | inr dropped =>
        rw [dropped.2]
        decide
  · intro slot inside occupied
    have same := kept slot occupied
    rw [same] at occupied ⊢
    exact intact.homed slot inside occupied
  · intro a a_lt b b_lt same occupied
    have there : (seg.pairs b).key ≠ INVALID := by
      rw [← same]
      exact occupied
    rw [kept a occupied] at same occupied
    rw [kept b there] at same
    exact intact.distinct a a_lt b b_lt same occupied

theorem Segment.Intact.set_empty (intact : seg.Intact hasher) (slot : Nat) :
    (seg.set slot .empty).Intact hasher := by
  constructor
  · intro other vacant
    rw [pairs_set] at vacant ⊢
    split at vacant
    · rename_i here
      rw [if_pos here]
    · rename_i elsewhere
      rw [if_neg elsewhere]
      exact intact.vacant other vacant
  · intro other occupied
    rw [pairs_set] at occupied ⊢
    split at occupied
    · exact absurd rfl occupied
    · rename_i elsewhere
      rw [if_neg elsewhere]
      exact intact.occupied other occupied
  · intro other
    rw [pairs_set]
    split
    · decide
    · exact intact.word_lt other
  · intro other inside occupied
    rw [pairs_set] at occupied ⊢
    split at occupied
    · exact absurd rfl occupied
    · rename_i elsewhere
      rw [if_neg elsewhere]
      exact intact.homed other inside occupied
  · intro a a_lt b b_lt same occupied
    rw [pairs_set] at occupied
    rw [pairs_set, pairs_set] at same
    split at occupied
    · exact absurd rfl occupied
    · rename_i elsewhere
      rw [if_neg elsewhere] at same
      split at same
      · rw [same] at occupied
        exact absurd rfl occupied
      · exact intact.distinct a a_lt b b_lt same occupied

theorem Segment.Intact.set_pair (intact : seg.Intact hasher) (small : word < 2 ^ 64)
    (valid : word ≠ INVALID) (real : value ≠ .Tombstone)
    (home : ∃ i < kWindow, slot = window hasher word i)
    (fresh : ∀ other < kNumSlot, other ≠ slot → seg.pairs other ≠ ⟨word, value⟩) :
    (seg.set slot ⟨word, value⟩).Intact hasher := by
  constructor
  · intro other vacant
    rw [pairs_set] at vacant ⊢
    split at vacant
    · exact absurd vacant valid
    · rename_i elsewhere
      rw [if_neg elsewhere]
      exact intact.vacant other vacant
  · intro other occupied
    rw [pairs_set] at occupied ⊢
    split at occupied
    · rename_i here
      rw [if_pos here]
      exact real
    · rename_i elsewhere
      rw [if_neg elsewhere]
      exact intact.occupied other occupied
  · intro other
    rw [pairs_set]
    split
    · exact small
    · exact intact.word_lt other
  · intro other inside occupied
    rw [pairs_set] at occupied ⊢
    split at occupied
    · rename_i here
      rw [if_pos here, here]
      exact home
    · rename_i elsewhere
      rw [if_neg elsewhere]
      exact intact.homed other inside occupied
  · intro a a_lt b b_lt same occupied
    rw [pairs_set, pairs_set] at same
    rw [pairs_set] at occupied
    by_cases at_a : a = slot
    · by_cases at_b : b = slot
      · rw [at_a, at_b]
      · rw [if_pos at_a, if_neg at_b] at same
        exact absurd same.symm (fresh b b_lt at_b)
    · rw [if_neg at_a] at occupied same
      by_cases at_b : b = slot
      · rw [if_pos at_b] at same
        exact absurd same (fresh a a_lt at_a)
      · rw [if_neg at_b] at same
        exact intact.distinct a a_lt b b_lt same occupied

theorem stored_tombstone : stored word .Tombstone = .empty := rfl

theorem is_tombstone_iff {off : KVOffset} : off.is_tombstone = true ↔ off = .Tombstone := by
  cases off with
  | mk offset => simp [Viper.Records.KVOffset.is_tombstone, Viper.Records.KVOffset.Tombstone]

theorem stored_pair (real : value ≠ .Tombstone) : stored word value = ⟨word, value⟩ := by
  unfold stored
  rw [if_neg (fun tombstone => real (is_tombstone_iff.mp tombstone))]

/-- What is held of the segment's own keys does not depend on foreign pairs. -/
theorem Segment.Cleared.pairs_native (cleared : Segment.Cleared hasher before seg) {pair : Pair}
    (valid : pair.key ≠ INVALID)
    (routed : top_bits (hasher.hash pair.key) before.local_depth = before.pattern) (slot : Nat) :
    seg.pairs slot = pair ↔ before.pairs slot = pair := by
  cases cleared.pairs slot with
  | inl same => rw [same]
  | inr dropped =>
      constructor
      · intro here
        rw [dropped.2] at here
        rw [← here] at valid
        exact absurd rfl valid
      · intro here
        have foreign := Segment.foreign_iff.mp dropped.1
        rw [here] at foreign
        exact absurd routed foreign.2

theorem Segment.Clean.only_own (clean : seg.Clean hasher word check own)
    (stops : seg.stop hasher word check = some slot) {other : Nat} {off : KVOffset}
    (inside : other < kNumSlot) (here : seg.pairs other = ⟨word, off⟩) (mine : own off) :
    other = slot := by
  have stops_there := clean.takes_own other inside off here mine
  rw [stops] at stops_there
  exact (Option.some.inj stops_there).symm

section Taken

variable (valid : word ≠ INVALID)
  (routed : top_bits (hasher.hash word) seg.local_depth = seg.pattern)
  (stops : seg.stop hasher word check = some slot)

include valid routed stops

/-- What an insertion answers: the offset of the key's own pair, or none. -/
theorem Segment.Clean.old_entry (clean : seg.Clean hasher word check own)
    (intact : seg.Intact hasher) :
    (seg.Holds word (seg.visible hasher slot).value ∧ own (seg.visible hasher slot).value) ∨
      ((seg.visible hasher slot).value = .Tombstone ∧ ∀ off, seg.Holds word off → ¬own off) := by
  cases clean.takes_vacant slot stops with
  | inl own_pair =>
      obtain ⟨off, mine, seen⟩ := own_pair
      left
      rw [seen]
      exact ⟨⟨slot, stop_lt stops, ((visible_eq valid).mp seen).1⟩, mine⟩
  | inr vacant =>
      right
      unfold visible at vacant ⊢
      split at vacant
      · rename_i foreign
        rw [if_pos foreign]
        refine ⟨rfl, ?_⟩
        rintro off ⟨other, inside, here⟩ mine
        rw [clean.only_own stops inside here mine] at here
        rw [foreign_iff, here] at foreign
        exact foreign.2 routed
      · rename_i native
        rw [if_neg native, intact.vacant slot vacant]
        refine ⟨rfl, ?_⟩
        rintro off ⟨other, inside, here⟩ mine
        rw [clean.only_own stops inside here mine] at here
        rw [here] at vacant
        exact valid vacant

/-- What the segment holds of its own keys afterwards. -/
theorem Segment.Clean.holds (clean : seg.Clean hasher word check own)
    (cleared : Segment.Cleared hasher seg last) {other : Nat} {off : KVOffset}
    (other_valid : other ≠ INVALID)
    (other_routed : top_bits (hasher.hash other) seg.local_depth = seg.pattern) :
    (last.set slot (stored word value)).Holds other off ↔
      other = word ∧ off = value ∧ value ≠ .Tombstone ∨
        seg.Holds other off ∧ ¬(other = word ∧ own off) := by
  have native : ∀ at_slot, last.pairs at_slot = ⟨other, off⟩ ↔ seg.pairs at_slot = ⟨other, off⟩ :=
    @Segment.Cleared.pairs_native hasher last seg cleared ⟨other, off⟩ other_valid other_routed
  constructor
  · rintro ⟨at_slot, inside, here⟩
    rw [pairs_set] at here
    split at here
    · left
      by_cases real : value = .Tombstone
      · rw [real, stored_tombstone] at here
        have key := congrArg Pair.key here
        exact absurd key.symm other_valid
      · rw [stored_pair real] at here
        cases here
        exact ⟨rfl, rfl, real⟩
    · rename_i elsewhere
      right
      rw [native] at here
      refine ⟨⟨at_slot, inside, here⟩, ?_⟩
      rintro ⟨rfl, mine⟩
      exact elsewhere (clean.only_own stops inside here mine)
  · rintro (⟨rfl, rfl, real⟩ | ⟨⟨at_slot, inside, here⟩, kept⟩)
    · refine ⟨slot, stop_lt stops, ?_⟩
      rw [pairs_set, if_pos rfl, stored_pair real]
    · refine ⟨at_slot, inside, ?_⟩
      rw [pairs_set, if_neg, native]
      · exact here
      · intro same
        have seen := (@visible_eq hasher seg at_slot ⟨other, off⟩ other_valid).mpr ⟨here, other_routed⟩
        rw [same] at seen
        cases clean.takes_vacant slot stops with
        | inl own_pair =>
            obtain ⟨mine_off, mine, mine_seen⟩ := own_pair
            rw [seen] at mine_seen
            cases mine_seen
            exact kept ⟨rfl, mine⟩
        | inr vacant =>
            rw [seen] at vacant
            exact other_valid vacant

theorem Segment.Intact.stays (intact : seg.Intact hasher)
    (cleared : Segment.Cleared hasher seg last) (small : word < 2 ^ 64)
    (fresh : value ≠ .Tombstone → ¬seg.Holds word value) :
    (last.set slot (stored word value)).Intact hasher := by
  have still := cleared.intact intact
  by_cases real : value = .Tombstone
  · rw [real, stored_tombstone]
    exact still.set_empty slot
  · rw [stored_pair real]
    apply still.set_pair small valid real (stop_window stops)
    intro other inside _ here
    rw [@Segment.Cleared.pairs_native hasher last seg cleared ⟨word, value⟩ valid routed] at here
    exact fresh real ⟨other, inside, here⟩

end Taken

end Insertion

/-! ### Splits -/

section Splits

variable {hasher : Hasher} {seg : Segment}

/-- An insertion of a split takes a vacant slot of the window, or none. -/
theorem Segment.Insert4split_cases (pair : Pair) :
    seg.Insert4split hasher pair = seg ∨
      ∃ i < kWindow, (seg.pairs (window hasher pair.key i)).key = INVALID ∧
        seg.Insert4split hasher pair = seg.set (window hasher pair.key i) pair := by
  unfold Insert4split
  split
  · rename_i i found
    right
    have vacant := List.find?_some found
    have inside := List.mem_range.mp (List.mem_of_find?_eq_some found)
    exact ⟨i, inside, of_decide_eq_true vacant, rfl⟩
  · exact .inl rfl

/-- What the new segment is made of: pairs of the first slots that are moved. -/
structure Segment.Drawn (hasher : Hasher) (seg split1 : Segment) (n : Nat) : Prop where
  intact : split1.Intact hasher
  deeper : split1.local_depth = seg.local_depth + 1
  source : ∀ slot, (split1.pairs slot).key ≠ INVALID →
    ∃ src < n, split1.pairs slot = seg.pairs src ∧
      moves (hasher.hash (seg.pairs src).key) seg.local_depth = true

theorem Segment.split_from_drawn (intact : seg.Intact hasher) {n : Nat} (le : n ≤ kNumSlot) :
    Segment.Drawn hasher seg (seg.split_from hasher n) n := by
  induction n with
  | zero =>
      constructor
      · constructor
        · exact fun slot _ => rfl
        · exact fun slot occupied => absurd rfl occupied
        · intro slot
          show INVALID < 2 ^ 64
          decide
        · exact fun slot _ occupied => absurd rfl occupied
        · exact fun a _ b _ _ occupied => absurd rfl occupied
      · rfl
      · exact fun slot occupied => absurd rfl occupied
  | succ n ih =>
      have before := ih (by omega)
      have later : ∀ slot, ((seg.split_from hasher n).pairs slot).key ≠ INVALID →
          ∃ src < n + 1, (seg.split_from hasher n).pairs slot = seg.pairs src ∧
            moves (hasher.hash (seg.pairs src).key) seg.local_depth = true := by
        intro slot occupied
        obtain ⟨src, below, same, moved⟩ := before.source slot occupied
        exact ⟨src, by omega, same, moved⟩
      unfold split_from
      split
      · rename_i moved
        cases @Insert4split_cases hasher (seg.split_from hasher n) (seg.pairs n) with
        | inl dropped =>
            rw [dropped]
            exact ⟨before.intact, before.deeper, later⟩
        | inr placed =>
            obtain ⟨i, inside, vacant, same⟩ := placed
            rw [same]
            by_cases nothing : (seg.pairs n).key = INVALID
            · rw [intact.vacant n nothing]
              refine ⟨before.intact.set_empty _, before.deeper, ?_⟩
              intro slot occupied
              rw [pairs_set] at occupied ⊢
              split at occupied
              · exact absurd rfl occupied
              · rename_i elsewhere
                rw [if_neg elsewhere]
                exact later slot occupied
            · have fresh : ∀ other < kNumSlot,
                  other ≠ window hasher (seg.pairs n).key i →
                  (seg.split_from hasher n).pairs other ≠ ⟨(seg.pairs n).key, (seg.pairs n).value⟩ := by
                intro other _ _ here
                have occupied : ((seg.split_from hasher n).pairs other).key ≠ INVALID := by
                  rw [here]
                  exact nothing
                obtain ⟨src, below, drawn, -⟩ := before.source other occupied
                rw [here] at drawn
                have again := intact.distinct n (by omega) src (by omega) drawn nothing
                omega
              refine ⟨before.intact.set_pair (intact.word_lt n) nothing (intact.occupied n nothing)
                ⟨i, inside, rfl⟩ fresh, before.deeper, ?_⟩
              intro slot occupied
              rw [pairs_set] at occupied ⊢
              split at occupied
              · rename_i here
                rw [if_pos here]
                exact ⟨n, by omega, rfl, moved⟩
              · rename_i elsewhere
                rw [if_neg elsewhere]
                exact later slot occupied
      · exact ⟨before.intact, before.deeper, later⟩

end Splits

end Hiom.Cceh
