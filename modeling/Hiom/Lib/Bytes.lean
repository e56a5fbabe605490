import Mathlib

/-!
Memory that is written a list at a time and read back a stretch at a time.
-/

namespace Hiom.Bytes

variable {α : Type}

/-- `memcpy` to the position. -/
def patch (memory : Nat → α) (pos : Nat) (values : List α) : Nat → α := fun i =>
  if pos ≤ i then values[i - pos]?.getD (memory i) else memory i

def slice (memory : Nat → α) (pos len : Nat) : List α := (List.range' pos len).map memory

variable {memory other : Nat → α} {pos len i : Nat} {values first second third : List α}

@[simp] theorem length_slice : (slice memory pos len).length = len := by
  rw [slice, List.length_map, List.length_range']

theorem slice_congr (same : ∀ i, pos ≤ i → i < pos + len → memory i = other i) :
    slice memory pos len = slice other pos len := by
  apply List.map_congr_left
  intro i inside
  obtain ⟨above, below⟩ := List.mem_range'_1.mp inside
  exact same i above below

theorem patch_outside (outside : i < pos ∨ pos + values.length ≤ i) :
    patch memory pos values i = memory i := by
  unfold patch
  split
  · rw [List.getElem?_eq_none]
    · rfl
    · omega
  · rfl

theorem patch_inside (inside : i < values.length) :
    patch memory pos values (pos + i) = values[i] := by
  unfold patch
  rw [if_pos (Nat.le_add_right pos i), Nat.add_sub_cancel_left, List.getElem?_eq_getElem inside]
  rfl

/-- What has been written is read back. -/
theorem slice_patch : slice (patch memory pos values) pos values.length = values := by
  apply List.ext_getElem
  · exact length_slice
  · intro i _ inside
    simp only [slice, List.getElem_map, List.getElem_range', Nat.one_mul]
    exact patch_inside inside

theorem slice_patch_apart (apart : pos + len ≤ i ∨ i + values.length ≤ pos) :
    slice (patch memory i values) pos len = slice memory pos len := by
  apply slice_congr
  intro j above below
  apply patch_outside
  omega

theorem patch_append :
    patch memory pos (first ++ second) = patch (patch memory pos first) (pos + first.length) second := by
  funext i
  by_cases before : i < pos
  · rw [patch_outside (.inl before), patch_outside, patch_outside (.inl before)]
    left
    omega
  · obtain ⟨j, rfl⟩ := Nat.exists_eq_add_of_le (Nat.le_of_not_lt before)
    by_cases head : j < first.length
    · rw [patch_inside (by rw [List.length_append]; omega), List.getElem_append_left head,
        patch_outside (by omega), patch_inside head]
    · obtain ⟨k, rfl⟩ := Nat.exists_eq_add_of_le (Nat.le_of_not_lt head)
      by_cases tail : k < second.length
      · rw [patch_inside (by rw [List.length_append]; omega), ← Nat.add_assoc, patch_inside tail,
          List.getElem_append_right (Nat.le_add_right _ _)]
        congr 1
        omega
      · rw [patch_outside (by rw [List.length_append]; omega), patch_outside (by omega),
          patch_outside (by omega)]

theorem slice_patch_tail :
    slice (patch memory pos (first ++ second)) (pos + first.length) second.length = second := by
  rw [patch_append]
  exact slice_patch

theorem slice_patch_middle :
    slice (patch memory pos (first ++ second ++ third)) (pos + first.length) second.length =
      second := by
  rw [patch_append, slice_patch_apart]
  · exact slice_patch_tail
  · rw [List.length_append]
    omega

end Hiom.Bytes
