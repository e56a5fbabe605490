import Mathlib

/-!
The states of the sixteen slots of a bucket, two bits each, packed into one
word. Every lemma says what an operation on the word does to the two bits of
each slot.
-/

namespace Hiom.HotTier

def kSlotsPerBucket : Nat := 16

inductive SlotState where
  | kUnpinned
  | kPinned
  | kInFlush
  deriving DecidableEq

def SlotState.bits : SlotState → BitVec 32
  | .kUnpinned => 0b00#32
  | .kPinned => 0b01#32
  | .kInFlush => 0b11#32

def get_state (st : BitVec 32) (i : Nat) : BitVec 32 := (st >>> (2 * i)) &&& 0b11#32

def mask (i : Nat) : BitVec 32 := 0b11#32 <<< (2 * i)
def pin_bit (i : Nat) : BitVec 32 := 0b01#32 <<< (2 * i)
def flush_bit (i : Nat) : BitVec 32 := 0b10#32 <<< (2 * i)

/-- The word that `cas_state` puts in place of `cur`. -/
def with_state (cur : BitVec 32) (i : Nat) (now : SlotState) : BitVec 32 :=
  (cur &&& ~~~mask i) ||| (now.bits <<< (2 * i))

def in_state (cur : BitVec 32) (i : Nat) (state : SlotState) : Bool :=
  cur &&& mask i == state.bits <<< (2 * i)

def pinned (st : BitVec 32) (i : Nat) : Bool := st.getLsbD (2 * i)
def flushing (st : BitVec 32) (i : Nat) : Bool := st.getLsbD (2 * i + 1)

def SlotState.pinned : SlotState → Bool
  | .kUnpinned => false
  | .kPinned | .kInFlush => true

def SlotState.flushing : SlotState → Bool
  | .kUnpinned | .kPinned => false
  | .kInFlush => true

variable {st : BitVec 32} {i j : Nat} {state : SlotState}

/-- A shifted pair of bits touches its own slot only. -/
theorem shifted_bit (low : j < 16) (bits : BitVec 32) (small : bits.toNat < 2 ^ 2) (odd : Nat)
    (two : odd < 2) :
    (bits <<< (2 * i)).getLsbD (2 * j + odd) = (decide (j = i) && bits.getLsbD odd) := by
  have inside : 2 * j + odd < 32 := by omega
  rw [BitVec.getLsbD_shiftLeft]
  by_cases same : j = i
  · subst same
    simp [inside]
  · by_cases below : j < i
    · have under : 2 * j + odd < 2 * i := by omega
      simp [under, same]
    · have above : 2 ≤ 2 * j + odd - 2 * i := by omega
      have clear : bits.getLsbD (2 * j + odd - 2 * i) = false :=
        Nat.testBit_lt_two_pow
          (Nat.lt_of_lt_of_le small (Nat.pow_le_pow_right (by decide) above))
      simp [same, clear]

theorem or_shifted (st : BitVec 32) (i : Nat) (low : j < 16) (bits : BitVec 32)
    (small : bits.toNat < 2 ^ 2) (odd : Nat) (two : odd < 2) :
    (st ||| (bits <<< (2 * i))).getLsbD (2 * j + odd) =
      (st.getLsbD (2 * j + odd) || (decide (j = i) && bits.getLsbD odd)) := by
  rw [BitVec.getLsbD_or, shifted_bit low bits small odd two]

theorem clear_shifted (st : BitVec 32) (i : Nat) (low : j < 16) (bits : BitVec 32)
    (small : bits.toNat < 2 ^ 2) (odd : Nat) (two : odd < 2) :
    (st &&& ~~~(bits <<< (2 * i))).getLsbD (2 * j + odd) =
      (st.getLsbD (2 * j + odd) && !(decide (j = i) && bits.getLsbD odd)) := by
  have inside : 2 * j + odd < 32 := by omega
  rw [BitVec.getLsbD_and, BitVec.getLsbD_not, shifted_bit low bits small odd two]
  simp [inside]

/-! ### `force_pinned` -/

theorem fetch_or_pinned (low : j < 16) :
    pinned (st ||| pin_bit i) j = (pinned st j || decide (j = i)) := by
  have bit := or_shifted st i low 0b01#32 (by decide) 0 (by decide)
  simpa [pinned, pin_bit] using bit

theorem fetch_or_flushing (low : j < 16) :
    flushing (st ||| pin_bit i) j = flushing st j := by
  have bit := or_shifted st i low 0b01#32 (by decide) 1 (by decide)
  simpa [flushing, pin_bit] using bit

theorem fetch_and_pinned (low : j < 16) :
    pinned (st &&& ~~~flush_bit i) j = pinned st j := by
  have bit := clear_shifted st i low 0b10#32 (by decide) 0 (by decide)
  simpa [pinned, flush_bit] using bit

theorem fetch_and_flushing (low : j < 16) :
    flushing (st &&& ~~~flush_bit i) j = (flushing st j && !decide (j = i)) := by
  have bit := clear_shifted st i low 0b10#32 (by decide) 1 (by decide)
  simpa [flushing, flush_bit] using bit

/-! ### `cas_state` -/

theorem with_state_pinned (low : j < 16) :
    pinned (with_state st i state) j = if j = i then state.pinned else pinned st j := by
  have set := or_shifted (st &&& ~~~mask i) i low state.bits
    (by cases state <;> decide) 0 (by decide)
  have clear := clear_shifted st i low 0b11#32 (by decide) 0 (by decide)
  simp only [Nat.add_zero] at set clear
  simp only [pinned, with_state, mask] at set clear ⊢
  rw [set, clear]
  by_cases same : j = i
  · cases state <;> simp [same, SlotState.bits, SlotState.pinned]
  · simp [same]

theorem with_state_flushing (low : j < 16) :
    flushing (with_state st i state) j = if j = i then state.flushing else flushing st j := by
  have set := or_shifted (st &&& ~~~mask i) i low state.bits
    (by cases state <;> decide) 1 (by decide)
  have clear := clear_shifted st i low 0b11#32 (by decide) 1 (by decide)
  simp only [flushing, with_state, mask] at set clear ⊢
  rw [set, clear]
  by_cases same : j = i
  · cases state <;> simp [same, SlotState.bits, SlotState.flushing]
  · simp [same]

theorem in_state_iff (low : i < 16) :
    in_state st i state = true ↔ pinned st i = state.pinned ∧ flushing st i = state.flushing := by
  have bit : ∀ j odd, j < 16 → odd < 2 →
      ((st &&& mask i).getLsbD (2 * j + odd) = (state.bits <<< (2 * i)).getLsbD (2 * j + odd) ↔
        (j = i → st.getLsbD (2 * j + odd) = state.bits.getLsbD odd)) := by
    intro j odd low two
    rw [BitVec.getLsbD_and, mask, shifted_bit low 0b11#32 (by decide) odd two,
      shifted_bit low state.bits (by cases state <;> decide) odd two]
    have both : (0b11#32).getLsbD odd = true := by
      have either : odd = 0 ∨ odd = 1 := by omega
      rcases either with rfl | rfl <;> decide
    by_cases same : j = i <;> simp [same, both]
  have even : state.bits.getLsbD 0 = state.pinned := by cases state <;> decide
  have odd : state.bits.getLsbD 1 = state.flushing := by cases state <;> decide
  rw [in_state, beq_iff_eq]
  constructor
  · intro same
    constructor
    · exact ((bit i 0 low (by decide)).mp (by rw [same]) rfl).trans even
    · exact ((bit i 1 low (by decide)).mp (by rw [same]) rfl).trans odd
  · rintro ⟨pinned_same, flushing_same⟩
    apply BitVec.eq_of_getLsbD_eq
    intro k inside
    have split : k = 2 * (k / 2) + k % 2 := (Nat.div_add_mod k 2).symm
    rw [split]
    refine (bit (k / 2) (k % 2) (by omega) (by omega)).mpr (fun same => ?_)
    rw [same]
    have either : k % 2 = 0 ∨ k % 2 = 1 := by omega
    rcases either with zero | one
    · rw [zero]
      exact pinned_same.trans even.symm
    · rw [one]
      exact flushing_same.trans odd.symm

theorem get_state_eq (unpinned : pinned st i = false) (unflushed : flushing st i = false) :
    get_state st i = SlotState.kUnpinned.bits := by
  apply BitVec.eq_of_getLsbD_eq
  intro k inside
  rw [get_state, BitVec.getLsbD_and, BitVec.getLsbD_ushiftRight]
  by_cases zero : k = 0
  · subst zero
    simp only [pinned] at unpinned
    simp [unpinned, SlotState.bits]
  · by_cases one : k = 1
    · subst one
      simp only [flushing] at unflushed
      simp [unflushed, SlotState.bits]
    · have high : (0b11#32).getLsbD k = false :=
        Nat.testBit_lt_two_pow
          (Nat.lt_of_lt_of_le (show (0b11#32).toNat < 2 ^ 2 by decide)
            (Nat.pow_le_pow_right (by decide) (by omega)))
      simp [high, SlotState.bits]

end Hiom.HotTier
