import Hiom.Cceh.Index

/-!
Insertions of words that the index does not have. The slot that such an
insertion takes is vacant whatever the slots beside it hold, so that only a
split that loses entries can do harm.
-/

namespace Hiom.Cceh

open Viper.Records (KVOffset)

section Vacant

variable {hasher : Hasher} {seg : Segment} {word : Nat} {check : KVOffset → Bool}
  {own : KVOffset → Prop}

/-- The insertion looks for a vacant slot all along its window. -/
theorem Segment.stop_from_vacant {left i slot : Nat}
    (absent : ∀ other < kNumSlot, (seg.visible hasher other).key ≠ word)
    (stops : seg.stop_from hasher word check left i INVALID = some slot) :
    (seg.visible hasher slot).key = INVALID := by
  induction left generalizing i with
  | zero => cases stops
  | succ left ih =>
      unfold Segment.stop_from at stops
      dsimp only at stops
      split at stops
      · rename_i vacant
        cases stops
        exact vacant
      · rw [if_neg (absent _ (window_lt i))] at stops
        exact ih stops

theorem Segment.clean_of_absent (valid : word ≠ INVALID)
    (absent : ∀ value, ¬seg.Holds word value) : seg.Clean hasher word check own := by
  have unseen : ∀ slot < kNumSlot, (seg.visible hasher slot).key ≠ word := by
    intro slot inside seen
    have pair := Pair.eq_of_key seen
    have here := ((seg.visible_eq valid).mp pair).1
    exact absent _ ⟨slot, inside, here⟩
  constructor
  · intro slot inside value here _
    exact absurd ⟨slot, inside, here⟩ (absent value)
  · intro slot stops
    exact .inr (Segment.stop_from_vacant unseen stops)

end Vacant

namespace Index

variable {hasher : Hasher} {idx : Index} {word : Nat} {value : KVOffset} {check : KVOffset → Bool}
  {own : KVOffset → Prop}

/-- Every split on the way of the insertion finds room for the entries that it
moves. -/
def Spacious (hasher : Hasher) (word : Nat) (value : KVOffset) (check : KVOffset → Bool) :
    Nat → Index → Prop
  | 0, _ => False
  | rounds + 1, idx =>
      let key_hash := hasher.hash word
      let seg := idx.segments (idx.target key_hash)
      seg.stop hasher word check = none →
        let left := (seg.Insert hasher word value check).2
        left.local_depth < 64 ∧ left.SplitKeeps hasher ∧
          Spacious hasher word value check rounds
            ((idx.set_segment (idx.target key_hash) left).split hasher key_hash)

/-- What a full segment and its split leave of the index. -/
theorem full_split (small : word < 2 ^ 64) (intact : idx.Intact hasher) {left : Segment}
    (inserted : ((idx.segments (idx.target (hasher.hash word))).Insert hasher word value check).2 = left)
    (full : (idx.segments (idx.target (hasher.hash word))).stop hasher word check = none)
    (deep : left.local_depth < 64) (keeps : left.SplitKeeps hasher) :
    ((idx.set_segment (idx.target (hasher.hash word)) left).split hasher (hasher.hash word)).Intact
        hasher ∧
      ∀ other off, other < 2 ^ 64 → other ≠ INVALID →
        (((idx.set_segment (idx.target (hasher.hash word)) left).split hasher
          (hasher.hash word)).Has hasher other off ↔ idx.Has hasher other off) := by
  have hash_lt := hasher.hash_lt word small
  have sound := intact.intact _ (intact.named _ hash_lt)
  obtain ⟨last, cleared, done⟩ :=
    @Segment.Insert_eq hasher _ word value check (intact.pattern (hasher.hash word) hash_lt)
  rw [full] at done
  rw [done] at inserted
  cases inserted
  have middle := intact.set_segment cleared.local_depth cleared.pattern (cleared.intact sound)
  have here : (idx.set_segment (idx.target (hasher.hash word)) last).segments
      ((idx.set_segment (idx.target (hasher.hash word)) last).target (hasher.hash word)) = last := by
    rw [target_set_segment, segments_set_segment, if_pos rfl]
  rw [← here] at deep keeps
  refine ⟨split_intact middle hash_lt deep, ?_⟩
  intro other off other_small other_valid
  rw [split_has middle hash_lt deep keeps other_small other_valid]
  unfold Has
  rw [target_set_segment, segments_set_segment]
  split
  · rename_i led
    have routed := intact.pattern _ (hasher.hash_lt other other_small)
    rw [led] at routed ⊢
    have native := @Segment.Cleared.pairs_native hasher last _ cleared ⟨other, off⟩ other_valid routed
    unfold Segment.Holds
    simp only [native]
  · exact Iff.rfl

/-- An insertion of a word that the index does not have finds a vacant slot. -/
theorem Spacious.settles {rounds : Nat} (small : word < 2 ^ 64) (valid : word ≠ INVALID)
    (intact : idx.Intact hasher) (absent : ∀ off, ¬idx.Has hasher word off)
    (spacious : idx.Spacious hasher word value check rounds) :
    idx.Settles hasher word value check own rounds := by
  induction rounds generalizing idx with
  | zero => exact spacious
  | succ rounds ih =>
      refine ⟨Segment.clean_of_absent valid absent, ?_⟩
      intro full
      obtain ⟨deep, keeps, rest⟩ := spacious full
      obtain ⟨after_intact, same⟩ := full_split small intact rfl full deep keeps
      refine ⟨deep, keeps, ih after_intact ?_ rest⟩
      intro off has
      exact absent off ((same word off small valid).mp has)

end Index

end Hiom.Cceh
