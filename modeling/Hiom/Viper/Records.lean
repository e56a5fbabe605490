import Mathlib
import Hiom.Viper.Lock

/-!
The records of Viper as they lie in its pages, and the words that name them.
-/

namespace Hiom.Viper.Records

/-! ### Offsets -/

/-- The word of a `KeyValueOffset`: 45 bits of block, 3 of page and 16 of slot. -/
structure KVOffset where
  offset : Nat
  deriving DecidableEq

namespace KVOffset

def INVALID : Nat := 0xFFFFFFFFFFFFFFFF

def Tombstone : KVOffset := ⟨INVALID⟩

def is_tombstone (off : KVOffset) : Bool := off.offset == INVALID

def of_parts (block_number page_number slot : Nat) : KVOffset :=
  ⟨block_number % 2 ^ 45 + page_number % 2 ^ 3 * 2 ^ 45 + slot % 2 ^ 16 * 2 ^ 48⟩

def block_number (off : KVOffset) : Nat := off.offset % 2 ^ 45

def page_number (off : KVOffset) : Nat := off.offset / 2 ^ 45 % 2 ^ 3

def data_offset (off : KVOffset) : Nat := off.offset / 2 ^ 48 % 2 ^ 16

variable {block page slot : Nat}

theorem block_number_of_parts (small : block < 2 ^ 45) :
    (of_parts block page slot).block_number = block := by
  unfold of_parts block_number
  dsimp only
  omega

theorem page_number_of_parts (small : page < 2 ^ 3) :
    (of_parts block page slot).page_number = page := by
  unfold of_parts page_number
  dsimp only
  omega

theorem data_offset_of_parts (small : slot < 2 ^ 16) :
    (of_parts block page slot).data_offset = slot := by
  unfold of_parts data_offset
  dsimp only
  omega

theorem of_parts_lt : (of_parts block page slot).offset < 2 ^ 64 := by
  unfold of_parts
  dsimp only
  omega

/-- A word is made of its fields. -/
theorem of_parts_eq (off : KVOffset) (word : off.offset < 2 ^ 64) :
    of_parts off.block_number off.page_number off.data_offset = off := by
  cases off with
  | mk offset =>
      unfold of_parts block_number page_number data_offset
      dsimp only at word ⊢
      congr 1
      omega

/-- No record is named by the tombstone: its page would be the eighth. -/
theorem of_parts_ne_tombstone (small : page < 7) : of_parts block page slot ≠ Tombstone := by
  intro same
  have words := congrArg KVOffset.offset same
  simp only [of_parts, Tombstone, INVALID] at words
  omega

end KVOffset

/-! ### Pages -/

structure Layout where
  num_pages_per_block : Nat
  num_slots_per_page : Nat
  pages_pos : 0 < num_pages_per_block
  pages_le : num_pages_per_block ≤ 6
  slots_pos : 0 < num_slots_per_page
  slots_le : num_slots_per_page ≤ 2 ^ 16

/-- A set bit of `free_slots` is a free slot. -/
structure VPage (K V : Type) where
  version_lock : version_lock_t
  free_slots : Nat → Bool
  data : Nat → K × V

abbrev VPageBlock (K V : Type) := Nat → VPage K V

variable {K V : Type}

def visit_page (layout : Layout) (page : VPage K V) (bn pn : Nat) : List ((K × V) × KVOffset) :=
  if page.version_lock.is_used then
    (List.range layout.num_slots_per_page).filterMap fun sn =>
      if page.free_slots sn then none else some (page.data sn, .of_parts bn pn sn)
  else []

def visit_block (layout : Layout) (v_blocks : List (Option (VPageBlock K V))) (bn : Nat) :
    List ((K × V) × KVOffset) :=
  match v_blocks[bn]? with
  | some (some block) =>
      (List.range layout.num_pages_per_block).flatMap fun pn => visit_page layout (block pn) bn pn
  | _ => []

def hiom_visit_records (layout : Layout) (v_blocks : List (Option (VPageBlock K V)))
    (block_lo block_hi : Nat) : List ((K × V) × KVOffset) :=
  let block_hi := min block_hi v_blocks.length
  (List.range' block_lo (block_hi - block_lo)).flatMap (visit_block layout v_blocks)

variable {layout : Layout} {v_blocks : List (Option (VPageBlock K V))}

/-- The clamp to the vector leaves out nothing. -/
theorem visit_records_eq (block_lo block_hi : Nat) :
    hiom_visit_records layout v_blocks block_lo block_hi =
      (List.range' block_lo (block_hi - block_lo)).flatMap (visit_block layout v_blocks) := by
  dsimp only [hiom_visit_records]
  by_cases inside : block_hi ≤ v_blocks.length
  · rw [Nat.min_eq_left inside]
  · have beyond : ∀ bn, v_blocks.length ≤ bn → visit_block layout v_blocks bn = [] := by
      intro bn outside
      unfold visit_block
      rw [List.getElem?_eq_none outside]
    rw [Nat.min_eq_right (by omega)]
    by_cases started : block_lo ≤ v_blocks.length
    · have parts : block_hi - block_lo =
          (v_blocks.length - block_lo) + (block_hi - v_blocks.length) := by omega
      rw [parts, ← List.range'_append_1, List.flatMap_append]
      have rest : (List.range' (block_lo + (v_blocks.length - block_lo))
          (block_hi - v_blocks.length)).flatMap (visit_block layout v_blocks) = [] := by
        rw [List.flatMap_eq_nil_iff]
        intro bn member
        apply beyond
        have above := (List.mem_range'_1.mp member).1
        omega
      rw [rest, List.append_nil]
    · have nothing : v_blocks.length - block_lo = 0 := by omega
      rw [nothing, List.range'_zero, List.flatMap_nil, eq_comm, List.flatMap_eq_nil_iff]
      intro bn member
      apply beyond
      have above := (List.mem_range'_1.mp member).1
      omega

/-- A page is visited slot by slot: what is found in a slot that is not free goes
by the offset of the slot. -/
theorem mem_visit_page {page : VPage K V} {bn pn : Nat} {record : K × V} {off : KVOffset}
    (small : bn < 2 ^ 45) (inside : pn < layout.num_pages_per_block) :
    (record, off) ∈ visit_page layout page bn pn ↔
      off.offset < 2 ^ 64 ∧ off.block_number = bn ∧ off.page_number = pn ∧
        off.data_offset < layout.num_slots_per_page ∧ page.version_lock.is_used = true ∧
        page.free_slots off.data_offset = false ∧ page.data off.data_offset = record := by
  have few := layout.pages_le
  have slots_le := layout.slots_le
  unfold visit_page
  constructor
  · intro on_page
    split at on_page
    · rename_i used
      obtain ⟨sn, slot_in, found⟩ := List.mem_filterMap.mp on_page
      have slot_lt : sn < layout.num_slots_per_page := List.mem_range.mp slot_in
      split at found
      · cases found
      · rename_i taken
        cases found
        have slot := @KVOffset.data_offset_of_parts bn pn sn (by omega)
        rw [slot]
        exact ⟨KVOffset.of_parts_lt, KVOffset.block_number_of_parts small,
          KVOffset.page_number_of_parts (by omega), slot_lt, used, Bool.not_eq_true _ ▸ taken, rfl⟩
    · cases on_page
  · rintro ⟨word, rfl, rfl, slot_lt, used, taken, here⟩
    rw [if_pos used]
    apply List.mem_filterMap.mpr
    refine ⟨off.data_offset, List.mem_range.mpr slot_lt, ?_⟩
    rw [taken, if_neg Bool.false_ne_true, here, KVOffset.of_parts_eq off word]

theorem visited_ne_tombstone {block_lo block_hi : Nat} {record : K × V} {off : KVOffset}
    (visited : (record, off) ∈ hiom_visit_records layout v_blocks block_lo block_hi) :
    off ≠ .Tombstone := by
  rw [visit_records_eq] at visited
  obtain ⟨bn, -, visited⟩ := List.mem_flatMap.mp visited
  unfold visit_block at visited
  split at visited
  · obtain ⟨pn, inside, on_page⟩ := List.mem_flatMap.mp visited
    unfold visit_page at on_page
    split at on_page
    · obtain ⟨sn, -, found⟩ := List.mem_filterMap.mp on_page
      split at found
      · cases found
      · cases found
        apply KVOffset.of_parts_ne_tombstone
        have few := layout.pages_le
        have below := List.mem_range.mp inside
        omega
    · cases on_page
  · cases visited

end Hiom.Viper.Records
