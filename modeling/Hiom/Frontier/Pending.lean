import Mathlib

/-!
The pending ring. Each slot packs a block number and the number of commit
entries of that block that are registered and not yet retired. Blocks with one
residue share a slot, but never at the same time.
-/

namespace Hiom.Frontier

def kWindow : Nat := 2 ^ 16
def kMask : Nat := kWindow - 1
def kCountMask : Nat := 0xFFFFFFFF

def pack (block count : Nat) : Nat := (block <<< 32) ||| count
def block_of (s : Nat) : Nat := s >>> 32
def count_of (s : Nat) : Nat := s &&& kCountMask

def slot_of (block : Nat) : Nat := block &&& kMask

abbrev PendingBlocks := Nat → Nat

/-- `none` if the code waits (the slot counts for another block) or aborts. -/
def pending_register (ring : PendingBlocks) (b : Nat) : Option PendingBlocks :=
  if b > kCountMask then none
  else
    let cur := ring (slot_of b)
    if count_of cur = 0 then some (Function.update ring (slot_of b) (pack b 1))
    else if block_of cur = b then
      if count_of cur = kCountMask then none
      else some (Function.update ring (slot_of b) (cur + 1))
    else none

def pending_retire (ring : PendingBlocks) (b : Nat) : Option PendingBlocks :=
  let cur := ring (slot_of b)
  if block_of cur ≠ b ∨ count_of cur = 0 then none
  else some (Function.update ring (slot_of b) (cur - 1))

def pending_count (ring : PendingBlocks) (block : Nat) : Nat :=
  if block_of (ring (slot_of block)) = block then count_of (ring (slot_of block)) else 0

theorem slot_of_lt (block : Nat) : slot_of block < kWindow := by
  have bound : slot_of block ≤ kMask := Nat.and_le_right
  have size : kMask + 1 = kWindow := by decide
  omega

theorem count_of_eq (s : Nat) : count_of s = s % 2 ^ 32 :=
  Nat.and_two_pow_sub_one_eq_mod s 32

theorem block_of_eq (s : Nat) : block_of s = s / 2 ^ 32 := Nat.shiftRight_eq_div_pow s 32

theorem pack_one (block : Nat) : pack block 1 = block * 2 ^ 32 + 1 := by
  rw [pack, ← Nat.shiftLeft_add_eq_or_of_lt (by decide), Nat.shiftLeft_eq]

theorem pack_tag (block : Nat) :
    block_of (pack block 1) = block ∧ count_of (pack block 1) = 1 := by
  rw [pack_one, block_of_eq, count_of_eq]
  omega

theorem count_of_succ {s : Nat} (room : count_of s ≠ kCountMask) :
    count_of (s + 1) = count_of s + 1 ∧ block_of (s + 1) = block_of s := by
  simp only [count_of_eq, block_of_eq, kCountMask] at *
  omega

theorem count_of_pred {s : Nat} (counted : count_of s ≠ 0) :
    count_of (s - 1) + 1 = count_of s ∧ block_of (s - 1) = block_of s := by
  simp only [count_of_eq, block_of_eq] at *
  omega

variable {ring after : PendingBlocks} {b : Nat}

theorem register_count (registered : pending_register ring b = some after) (block : Nat) :
    pending_count after block = pending_count ring block + if block = b then 1 else 0 := by
  simp only [pending_register] at registered
  split at registered
  · cases registered
  · split at registered
    · rename_i free
      cases registered
      by_cases place : slot_of block = slot_of b
      · have tag : block_of (pack b 1) = b := by
          rw [pack_one, block_of_eq]
          omega
        have one : count_of (pack b 1) = 1 := by
          rw [pack_one, count_of_eq]
          omega
        simp only [pending_count, place, Function.update_self, tag, one, free]
        by_cases same : block = b
        · simp [same]
        · simp [same, Ne.symm same]
      · have different : block ≠ b := fun same => place (by rw [same])
        simp only [pending_count, Function.update_of_ne place, if_neg different, Nat.add_zero]
    · split at registered
      · rename_i tag
        split at registered
        · cases registered
        · rename_i room
          cases registered
          obtain ⟨count, kept⟩ := count_of_succ room
          by_cases place : slot_of block = slot_of b
          · simp only [pending_count, place, Function.update_self, count, kept, tag]
            by_cases same : block = b
            · simp [same]
            · simp [same, Ne.symm same]
          · have different : block ≠ b := fun same => place (by rw [same])
            simp only [pending_count, Function.update_of_ne place, if_neg different, Nat.add_zero]
      · cases registered

theorem retire_count (retired : pending_retire ring b = some after) (block : Nat) :
    pending_count ring block = pending_count after block + if block = b then 1 else 0 := by
  simp only [pending_retire] at retired
  split at retired
  · cases retired
  · rename_i accounted
    rw [not_or, not_not] at accounted
    obtain ⟨tag, counted⟩ := accounted
    cases retired
    obtain ⟨count, kept⟩ := count_of_pred counted
    by_cases place : slot_of block = slot_of b
    · simp only [pending_count, place, Function.update_self, kept, tag]
      by_cases same : block = b
      · simp [same, count]
      · simp [same, Ne.symm same]
    · have different : block ≠ b := fun same => place (by rw [same])
      simp only [pending_count, Function.update_of_ne place, if_neg different, Nat.add_zero]

theorem register_of_free (free : count_of (ring (slot_of b)) = 0) (tagged : b ≤ kCountMask) :
    ∃ after, pending_register ring b = some after :=
  ⟨_, (if_neg (Nat.not_lt.mpr tagged)).trans (if_pos free)⟩

/-- What a slot shows while a block that it counts for is pending. -/
theorem slot_of_counted (counted : 0 < pending_count ring b) :
    count_of (ring (slot_of b)) ≠ 0 ∧ block_of (ring (slot_of b)) = b := by
  simp only [pending_count] at counted
  split at counted
  · rename_i tag
    exact ⟨counted.ne', tag⟩
  · omega

end Hiom.Frontier
