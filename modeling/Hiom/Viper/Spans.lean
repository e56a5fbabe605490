import Hiom.Viper.Strings

/-!
The stretches of memory that a record of variable size takes, and that its
readers see its key and its value as long as these stay as they are.
-/

namespace Hiom.Viper.Records.Strings

open Bytes (patch slice)

/-! ### Entries -/

section Entries

variable {entry : VarSizeEntry} {data other : Nat → BitVec 8} {pos : Nat} {text : Text}

structure VarSizeEntry.Proper (entry : VarSizeEntry) : Prop where
  key_size : entry.key_size < 2 ^ 15
  value_size : entry.value_size < 2 ^ 16

@[simp] theorem VarSizeEntry.length_bytes : entry.bytes.length = meta_size := rfl

theorem VarSizeEntry.read_proper : (VarSizeEntry.read data pos).Proper :=
  ⟨Nat.mod_lt _ (by decide), Nat.mod_lt _ (by decide)⟩

theorem VarSizeEntry.size_info_lt (proper : entry.Proper) : entry.size_info < 2 ^ 32 := by
  have key := proper.key_size
  have value := proper.value_size
  have set : entry.is_set.toNat ≤ 1 := Bool.toNat_le _
  unfold size_info
  omega

theorem VarSizeEntry.of_size_info_eq (proper : entry.Proper) :
    VarSizeEntry.of_size_info entry.size_info = entry := by
  have key := proper.key_size
  have value := proper.value_size
  have set : entry.is_set.toNat ≤ 1 := Bool.toNat_le _
  cases entry with
  | mk is_set key_size value_size =>
      unfold of_size_info size_info
      dsimp only at *
      congr 1
      · cases is_set with
        | false =>
            rw [Bool.toNat_false, beq_eq_false_iff_ne]
            omega
        | true =>
            rw [Bool.toNat_true, beq_iff_eq]
            omega
      · omega
      · omega

theorem VarSizeEntry.read_congr (same : ∀ i, pos ≤ i → i < pos + meta_size → data i = other i) :
    VarSizeEntry.read data pos = VarSizeEntry.read other pos := by
  unfold VarSizeEntry.read
  unfold meta_size at same
  rw [same pos (by omega) (by omega), same (pos + 1) (by omega) (by omega),
    same (pos + 2) (by omega) (by omega), same (pos + 3) (by omega) (by omega)]

theorem VarSizeEntry.read_patch (proper : entry.Proper) :
    VarSizeEntry.read (patch data pos (entry.bytes ++ text)) pos = entry := by
  have byte : ∀ i, i < meta_size → patch data pos (entry.bytes ++ text) (pos + i) =
      BitVec.ofNat 8 (entry.size_info / 2 ^ (8 * i)) := by
    intro i inside
    have within : i < (entry.bytes ++ text).length := by
      rw [List.length_append, length_bytes]
      omega
    rw [Bytes.patch_inside within, List.getElem_append_left inside]
    unfold meta_size at inside
    interval_cases i
    · rw [Nat.mul_zero, Nat.pow_zero, Nat.div_one]
      rfl
    · rfl
    · rfl
    · rfl
  have first := byte 0 (by decide)
  have second := byte 1 (by decide)
  have third := byte 2 (by decide)
  have fourth := byte 3 (by decide)
  rw [Nat.add_zero] at first
  unfold VarSizeEntry.read
  rw [first, second, third, fourth]
  simp only [BitVec.toNat_ofNat]
  have word := size_info_lt proper
  conv => rhs; rw [← of_size_info_eq proper]
  congr 1
  omega

theorem VarSizeEntry.read_patch_apart (apart : pos + meta_size ≤ i ∨ i + text.length ≤ pos) :
    VarSizeEntry.read (patch data i text) pos = VarSizeEntry.read data pos := by
  apply VarSizeEntry.read_congr
  intro j above below
  apply Bytes.patch_outside
  omega

end Entries

/-! ### Records -/

/-- A record that has been put. When it is split its value is on the page after
that of its key. -/
structure Record where
  off : KVOffset
  key : Text
  value : Text
  split : Bool

namespace Record

def key_end (r : Record) : Nat :=
  r.off.data_offset + meta_size + r.key.length + if r.split then 0 else r.value.length

def value_end (r : Record) : Nat := meta_size + r.value.length

def Covers (r : Record) (bn pn i : Nat) : Prop :=
  bn = r.off.block_number ∧
    (pn = r.off.page_number ∧ r.off.data_offset ≤ i ∧ i < r.key_end ∨
      r.split = true ∧ pn = r.off.page_number + 1 ∧ i < r.value_end)

def Apart (r s : Record) : Prop := ∀ bn pn i, r.Covers bn pn i → ¬s.Covers bn pn i

structure Written (r : Record) (is_set : Bool) (v_blocks : Nat → VPageBlock) : Prop where
  entry : VarSizeEntry.read (v_blocks r.off.block_number r.off.page_number).data r.off.data_offset =
    ⟨is_set, r.key.length, if r.split then 0 else r.value.length⟩
  key : slice (v_blocks r.off.block_number r.off.page_number).data
    (r.off.data_offset + meta_size) r.key.length = r.key
  value : r.split = false → slice (v_blocks r.off.block_number r.off.page_number).data
    (r.off.data_offset + meta_size + r.key.length) r.value.length = r.value
  value_entry : r.split = true → (VarSizeEntry.read
    (v_blocks r.off.block_number (r.off.page_number + 1)).data 0).value_size = r.value.length
  value_next : r.split = true → slice (v_blocks r.off.block_number (r.off.page_number + 1)).data
    meta_size r.value.length = r.value

/-- The readers of an empty value go on to the next page, and are to find an
empty value there. -/
def Legible (r : Record) (v_blocks : Nat → VPageBlock) : Prop :=
  r.value = [] → r.off.page_number + 1 < num_pages_per_block ∧ (VarSizeEntry.read
    (v_blocks r.off.block_number (r.off.page_number + 1)).data 0).value_size = 0

structure Inside (r : Record) (v_blocks : Nat → VPageBlock) : Prop where
  word : r.off.offset < 2 ^ 64
  page_lt : r.off.page_number < num_pages_per_block
  starts : r.off.data_offset = 0 ∨ meta_size ≤ r.off.data_offset
  ends : r.key_end ≤ (v_blocks r.off.block_number r.off.page_number).next_insert_offset
  next_lt : r.split = true → r.off.page_number + 1 < num_pages_per_block
  next_ends : r.split = true →
    r.value_end ≤ (v_blocks r.off.block_number (r.off.page_number + 1)).next_insert_offset
  nonempty : r.split = true → r.value ≠ []

end Record

section Records

variable {r s : Record} {is_set : Bool} {v_blocks after : Nat → VPageBlock}

/-- The readers see the key and the value. -/
theorem Record.Written.decodes (written : r.Written is_set v_blocks) (inside : r.Inside v_blocks)
    (legible : r.Legible v_blocks) :
    ∃ accessor, var_entry v_blocks r.off = some accessor ∧
      accessor.key (v_blocks r.off.block_number) = r.key ∧
      accessor.value (v_blocks r.off.block_number) = r.value := by
  have entry := written.entry
  have key := written.key
  unfold var_entry
  dsimp only [VarEntryAccessor.of_entry, VarEntryAccessor.of_entries]
  rw [entry]
  dsimp only
  cases split : r.split with
  | true =>
      rw [if_pos rfl, if_pos rfl, if_pos (inside.next_lt split)]
      refine ⟨_, rfl, key, ?_⟩
      dsimp only [VarEntryAccessor.value]
      rw [written.value_entry split, Nat.zero_add]
      exact written.value_next split
  | false =>
      have value := written.value split
      rw [if_neg Bool.false_ne_true]
      by_cases empty : r.value.length = 0
      · obtain ⟨within, nothing⟩ := legible (List.length_eq_zero_iff.mp empty)
        rw [if_pos empty, if_pos within]
        refine ⟨_, rfl, key, ?_⟩
        dsimp only [VarEntryAccessor.value]
        rw [nothing, List.length_eq_zero_iff.mp empty]
        rfl
      · rw [if_neg empty]
        exact ⟨_, rfl, key, value⟩

/-- A record that is read back can be. -/
theorem Record.Written.legible (written : r.Written is_set v_blocks)
    (read : get_const_entry_from_offset v_blocks r.off = some (r.key, r.value)) :
    r.Legible v_blocks := by
  intro empty
  have entry := written.entry
  have nothing : (if r.split then 0 else r.value.length) = 0 := by
    rw [empty, List.length_nil, ite_self]
  unfold get_const_entry_from_offset var_entry at read
  dsimp only [VarEntryAccessor.of_entry, VarEntryAccessor.of_entries] at read
  rw [entry] at read
  dsimp only at read
  rw [if_pos nothing] at read
  split at read
  · rename_i within
    rw [Option.bind_eq_bind, Option.bind_some, Option.some.injEq, Prod.mk.injEq, empty] at read
    have length := congrArg List.length read.2
    dsimp only [VarEntryAccessor.value] at length
    rw [Bytes.length_slice] at length
    exact ⟨within, length⟩
  · cases read

structure Keeps (v_blocks after : Nat → VPageBlock) : Prop where
  data : ∀ bn pn i, i < (v_blocks bn pn).next_insert_offset →
    (after bn pn).data i = (v_blocks bn pn).data i
  next_le : ∀ bn pn, (v_blocks bn pn).next_insert_offset ≤ (after bn pn).next_insert_offset

theorem Keeps.trans {last : Nat → VPageBlock} (first : Keeps v_blocks after)
    (second : Keeps after last) : Keeps v_blocks last := by
  constructor
  · intro bn pn i inside
    rw [second.data bn pn i (Nat.lt_of_lt_of_le inside (first.next_le bn pn)),
      first.data bn pn i inside]
  · exact fun bn pn => Nat.le_trans (first.next_le bn pn) (second.next_le bn pn)

theorem Record.Inside.kept (inside : r.Inside v_blocks) (keeps : Keeps v_blocks after) :
    r.Inside after :=
  ⟨inside.word, inside.page_lt, inside.starts, Nat.le_trans inside.ends (keeps.next_le _ _),
    inside.next_lt, fun split => Nat.le_trans (inside.next_ends split) (keeps.next_le _ _),
    inside.nonempty⟩

/-- A record depends on the bytes that it covers. -/
theorem Record.Written.congr (written : r.Written is_set v_blocks)
    (same : ∀ bn pn i, r.Covers bn pn i → (after bn pn).data i = (v_blocks bn pn).data i) :
    r.Written is_set after := by
  have here : ∀ i, r.off.data_offset ≤ i → i < r.key_end →
      (after r.off.block_number r.off.page_number).data i =
        (v_blocks r.off.block_number r.off.page_number).data i :=
    fun i above below => same _ _ i ⟨rfl, .inl ⟨rfl, above, below⟩⟩
  have there : r.split = true → ∀ i, i < r.value_end →
      (after r.off.block_number (r.off.page_number + 1)).data i =
        (v_blocks r.off.block_number (r.off.page_number + 1)).data i :=
    fun split i below => same _ _ i ⟨rfl, .inr ⟨split, rfl, below⟩⟩
  unfold Record.key_end at here
  unfold Record.value_end at there
  constructor
  · rw [← written.entry]
    apply VarSizeEntry.read_congr
    intro i above below
    exact here i above (by omega)
  · conv => rhs; rw [← written.key]
    apply Bytes.slice_congr
    intro i above below
    exact here i (by omega) (by omega)
  · intro split
    conv => rhs; rw [← written.value split]
    apply Bytes.slice_congr
    intro i above below
    rw [split, if_neg Bool.false_ne_true] at here
    exact here i (by omega) (by omega)
  · intro split
    rw [← written.value_entry split]
    congr 1
    apply VarSizeEntry.read_congr
    intro i _ below
    exact there split i (by omega)
  · intro split
    conv => rhs; rw [← written.value_next split]
    apply Bytes.slice_congr
    intro i _ below
    exact there split i (by omega)

theorem Record.Inside.covered (inside : r.Inside v_blocks) {bn pn i : Nat}
    (covers : r.Covers bn pn i) : i < (v_blocks bn pn).next_insert_offset := by
  obtain ⟨rfl, ⟨rfl, -, below⟩ | ⟨split, rfl, below⟩⟩ := covers
  · exact Nat.lt_of_lt_of_le below inside.ends
  · exact Nat.lt_of_lt_of_le below (inside.next_ends split)

theorem Record.Written.kept (written : r.Written is_set v_blocks) (inside : r.Inside v_blocks)
    (keeps : Keeps v_blocks after) : r.Written is_set after :=
  written.congr (fun bn pn i covers => keeps.data bn pn i (inside.covered covers))

/-- The entry of a record is its own. -/
theorem Record.covers_entry {i : Nat} (above : r.off.data_offset ≤ i)
    (below : i < r.off.data_offset + meta_size) :
    r.Covers r.off.block_number r.off.page_number i := by
  refine ⟨rfl, .inl ⟨rfl, above, ?_⟩⟩
  unfold Record.key_end
  omega

/-- Records that are apart have offsets of their own. -/
theorem Record.Apart.off_ne (apart : r.Apart s) : r.off ≠ s.off := by
  intro same
  have here : s.Covers s.off.block_number s.off.page_number s.off.data_offset :=
    s.covers_entry (Nat.le_refl _) (Nat.lt_add_of_pos_right (by decide))
  apply apart _ _ _ _ here
  rw [← same]
  exact r.covers_entry (Nat.le_refl _) (Nat.lt_add_of_pos_right (by decide))

end Records

end Hiom.Viper.Records.Strings
