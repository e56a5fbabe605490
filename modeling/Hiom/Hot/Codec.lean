import Mathlib
import Hiom.Viper.Records

/-!
The codec of compact offsets: 21 bits of block above the base of a region, 3 of
page and 8 of slot.
-/

namespace Hiom.Codec

open Viper.Records (KVOffset)

def kInvalidCompactOffset : Nat := 0xFFFFFFFF
def kBlockLowBits : Nat := 21
def kPageBits : Nat := 3
def kDataOffsetBits : Nat := 8
def kBlockLowMask : Nat := (1 <<< kBlockLowBits) - 1
def kPageMask : Nat := (1 <<< kPageBits) - 1
def kDataOffMask : Nat := (1 <<< kDataOffsetBits) - 1
def kNumRegions : Nat := 32

abbrev BlockBaseMap := Nat → BitVec 32

def block_base (base_map : BlockBaseMap) (region_id : Nat) : Nat :=
  (base_map region_id).toNat <<< kBlockLowBits

/-- The word before it is compared with the sentinel. -/
def packed_word (low page_number data_offset : Nat) : Nat :=
  (low <<< (kPageBits + kDataOffsetBits)) |||
    ((page_number &&& kPageMask) <<< kDataOffsetBits) ||| data_offset

def encode (block_number page_number data_offset region_id : Nat) (base_map : BlockBaseMap) :
    Option Nat :=
  if region_id ≥ kNumRegions then none
  else
    let base := block_base base_map region_id
    if block_number < base then none
    else
      let low := block_number - base
      if low > kBlockLowMask then none
      else if page_number > kPageMask then none
      else if data_offset > kDataOffMask then none
      else
        let packed := packed_word low page_number data_offset
        if packed = kInvalidCompactOffset then none else some packed

structure DecodedOffset where
  block_number : Nat
  page_number : Nat
  data_offset : Nat
  deriving DecidableEq

def decode (packed region_id : Nat) (base_map : BlockBaseMap) : DecodedOffset :=
  let low := (packed >>> (kPageBits + kDataOffsetBits)) &&& kBlockLowMask
  let base := if region_id < kNumRegions then block_base base_map region_id else 0
  ⟨base + low, (packed >>> kDataOffsetBits) &&& kPageMask, packed &&& kDataOffMask⟩

theorem masks : kPageMask = 2 ^ 3 - 1 ∧ kDataOffMask = 2 ^ 8 - 1 ∧ kBlockLowMask = 2 ^ 21 - 1 := by
  decide

section Fields

variable {low page slot packed region_id : Nat} {base_map : BlockBaseMap}

/-- The fields of a packed word do not overlap. -/
theorem packed_eq (page_le : page ≤ kPageMask) (slot_le : slot ≤ kDataOffMask) :
    packed_word low page slot = low * 2 ^ 11 + page * 2 ^ 8 + slot := by
  rw [masks.1] at page_le
  rw [masks.2.1] at slot_le
  have page_masked : page &&& kPageMask = page := by
    rw [masks.1, Nat.and_two_pow_sub_one_eq_mod]
    omega
  have upper : low <<< (kPageBits + kDataOffsetBits) ||| page <<< kDataOffsetBits =
      (low * 2 ^ 3 + page) <<< 8 := by
    have split : low <<< (kPageBits + kDataOffsetBits) = (low <<< 3) <<< 8 := by
      rw [← Nat.shiftLeft_add]
      rfl
    rw [split, show page <<< kDataOffsetBits = page <<< 8 from rfl,
      ← Nat.shiftLeft_or_distrib, ← Nat.shiftLeft_add_eq_or_of_lt (by omega),
      Nat.shiftLeft_eq low 3]
  rw [packed_word, page_masked, upper, ← Nat.shiftLeft_add_eq_or_of_lt (by omega),
    Nat.shiftLeft_eq]
  omega

/-- The fields that `decode` reads. -/
theorem decode_eq (region : region_id < kNumRegions) :
    decode packed region_id base_map =
      ⟨block_base base_map region_id + packed / 2 ^ 11 % 2 ^ 21, packed / 2 ^ 8 % 2 ^ 3,
        packed % 2 ^ 8⟩ := by
  unfold decode
  rw [if_pos region, masks.1, masks.2.1, masks.2.2, Nat.and_two_pow_sub_one_eq_mod,
    Nat.and_two_pow_sub_one_eq_mod, Nat.and_two_pow_sub_one_eq_mod, Nat.shiftRight_eq_div_pow,
    Nat.shiftRight_eq_div_pow]
  rfl

theorem decode_packed (region : region_id < kNumRegions) (low_le : low ≤ kBlockLowMask)
    (page_le : page ≤ kPageMask) (slot_le : slot ≤ kDataOffMask) :
    decode (packed_word low page slot) region_id base_map =
      ⟨block_base base_map region_id + low, page, slot⟩ := by
  rw [packed_eq page_le slot_le, decode_eq region]
  rw [masks.1] at page_le
  rw [masks.2.1] at slot_le
  rw [masks.2.2] at low_le
  simp only [DecodedOffset.mk.injEq, Nat.add_right_inj]
  omega

end Fields

section Encode

variable {block page slot region_id packed : Nat} {base_map : BlockBaseMap}

/-- When an offset has a compact form, and which. -/
theorem encode_iff : encode block page slot region_id base_map = some packed ↔
    region_id < kNumRegions ∧ block_base base_map region_id ≤ block ∧
      block - block_base base_map region_id ≤ kBlockLowMask ∧ page ≤ kPageMask ∧
      slot ≤ kDataOffMask ∧ packed ≠ kInvalidCompactOffset ∧
      packed_word (block - block_base base_map region_id) page slot = packed := by
  unfold encode
  split
  · rename_i beyond
    simp only [reduceCtorEq, false_iff, not_and]
    omega
  · rename_i region
    dsimp only
    split
    · simp only [reduceCtorEq, false_iff, not_and]
      omega
    · rename_i above
      split
      · simp only [reduceCtorEq, false_iff, not_and]
        omega
      · rename_i low_le
        split
        · simp only [reduceCtorEq, false_iff, not_and]
          omega
        · rename_i page_le
          split
          · simp only [reduceCtorEq, false_iff, not_and]
            omega
          · rename_i slot_le
            split
            · rename_i invalid
              simp only [reduceCtorEq, false_iff, not_and]
              intro _ _ _ _ _ valid same
              exact valid (same.symm.trans invalid)
            · rename_i valid
              simp only [Option.some.injEq]
              constructor
              · rintro rfl
                exact ⟨Nat.lt_of_not_le region, Nat.le_of_not_lt above, Nat.le_of_not_lt low_le,
                  Nat.le_of_not_lt page_le, Nat.le_of_not_lt slot_le, valid, rfl⟩
              · rintro ⟨-, -, -, -, -, -, same⟩
                exact same

/-- What an encoded offset says. -/
theorem encode_eq_some (encoded : encode block page slot region_id base_map = some packed) :
    packed < kInvalidCompactOffset ∧ decode packed region_id base_map = ⟨block, page, slot⟩ := by
  obtain ⟨region, above, low_le, page_le, slot_le, valid, same⟩ := encode_iff.mp encoded
  subst same
  constructor
  · rw [packed_eq page_le slot_le] at valid ⊢
    rw [masks.1] at page_le
    rw [masks.2.1] at slot_le
    rw [masks.2.2] at low_le
    unfold kInvalidCompactOffset at valid ⊢
    omega
  · rw [decode_packed region low_le page_le slot_le, Nat.add_sub_cancel' above]

/-- A word that is not the sentinel is the compact form of what it decodes to. -/
theorem encode_decode (region : region_id < kNumRegions) (word : packed < 2 ^ 32)
    (valid : packed ≠ kInvalidCompactOffset) :
    encode (decode packed region_id base_map).block_number
      (decode packed region_id base_map).page_number
      (decode packed region_id base_map).data_offset region_id base_map = some packed := by
  have page_le : packed / 2 ^ 8 % 2 ^ 3 ≤ kPageMask := by
    rw [masks.1]
    omega
  have slot_le : packed % 2 ^ 8 ≤ kDataOffMask := by
    rw [masks.2.1]
    omega
  rw [encode_iff, decode_eq region]
  dsimp only
  rw [Nat.add_sub_cancel_left]
  refine ⟨region, Nat.le_add_right _ _, ?_, page_le, slot_le, valid, ?_⟩
  · rw [masks.2.2]
    omega
  · rw [packed_eq page_le slot_le]
    omega

end Encode

/-- The codec is a bijection between the offsets of a region that have a compact
form and the words other than the sentinel. -/
theorem codec_bijective (base_map : BlockBaseMap) (region_id : Nat)
    (region : region_id < kNumRegions) :
    (∀ block page slot, (encode block page slot region_id base_map).isSome = true ↔
      block_base base_map region_id ≤ block ∧
        block ≤ block_base base_map region_id + 2 ^ 21 - 1 ∧ page ≤ 7 ∧ slot ≤ 255 ∧
        packed_word (block - block_base base_map region_id) page slot ≠ 0xFFFFFFFF) ∧
      (∀ block page slot packed, encode block page slot region_id base_map = some packed →
        packed < 0xFFFFFFFF ∧ decode packed region_id base_map = ⟨block, page, slot⟩) ∧
      (∀ packed, packed < 2 ^ 32 → packed ≠ 0xFFFFFFFF →
        encode (decode packed region_id base_map).block_number
          (decode packed region_id base_map).page_number
          (decode packed region_id base_map).data_offset region_id base_map = some packed) ∧
      ∀ block page slot block' page' slot' packed,
        encode block page slot region_id base_map = some packed →
        encode block' page' slot' region_id base_map = some packed →
        block = block' ∧ page = page' ∧ slot = slot' := by
  refine ⟨?_, ?_, ?_, ?_⟩
  · intro block page slot
    rw [Option.isSome_iff_exists]
    constructor
    · rintro ⟨packed, encoded⟩
      obtain ⟨-, above, low_le, page_le, slot_le, valid, same⟩ := encode_iff.mp encoded
      rw [masks.1] at page_le
      rw [masks.2.1] at slot_le
      rw [masks.2.2] at low_le
      rw [same]
      exact ⟨above, by omega, by omega, by omega, valid⟩
    · rintro ⟨above, low_le, page_le, slot_le, valid⟩
      refine ⟨_, encode_iff.mpr ⟨region, above, ?_, ?_, ?_, valid, rfl⟩⟩
      · rw [masks.2.2]
        omega
      · rw [masks.1]
        omega
      · rw [masks.2.1]
        omega
  · intro block page slot packed encoded
    exact encode_eq_some encoded
  · intro packed word valid
    exact encode_decode region word valid
  · intro block page slot block' page' slot' packed first second
    have same := (encode_eq_some first).2.symm.trans (encode_eq_some second).2
    exact DecodedOffset.mk.inj same

theorem codec_bijective_region_two :
    (encode (5 * 2 ^ 21 + 9) 5 200 2 (fun _ => 5#32)).isSome = true ∧
      decode 19912 2 (fun _ => 5#32) = ⟨5 * 2 ^ 21 + 9, 5, 200⟩ := by
  obtain ⟨succeeds, decodes, -, -⟩ := codec_bijective (fun _ => 5#32) 2 (by decide)
  exact ⟨(succeeds _ _ _).mpr (by decide), (decodes _ _ _ 19912 (by decide)).2⟩

def route_to_region_default : Nat := 0

def compact (base_map : BlockBaseMap) (off : KVOffset) : Option Nat :=
  encode off.block_number off.page_number off.data_offset route_to_region_default base_map

def expand (base_map : BlockBaseMap) (packed : Nat) : KVOffset :=
  let d := decode packed route_to_region_default base_map
  .of_parts d.block_number d.page_number d.data_offset

theorem compact_lt {base_map : BlockBaseMap} {off : KVOffset} {packed : Nat}
    (compacted : compact base_map off = some packed) : packed < 2 ^ 32 := by
  have bound := (encode_eq_some compacted).1
  unfold kInvalidCompactOffset at bound
  omega

theorem expand_compact {base_map : BlockBaseMap} {off : KVOffset} {packed : Nat}
    (word : off.offset < 2 ^ 64) (compacted : compact base_map off = some packed) :
    expand base_map packed = off := by
  unfold expand
  rw [(encode_eq_some compacted).2]
  exact off.of_parts_eq word

end Hiom.Codec
