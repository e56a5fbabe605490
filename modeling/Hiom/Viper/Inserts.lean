import Hiom.Viper.Spans

/-!
What a put of a record of variable size does to the pages: it writes beyond what
has been written, and all it writes is within its pages.
-/

namespace Hiom.Viper.Records.Strings

open Bytes (patch slice)

/-! ### Pages -/

structure VPage.Blank (page : VPage) : Prop where
  next : page.next_insert_offset = 0
  zero : ∀ i, page.data i = 0#8

structure VPage.Same (page other : VPage) : Prop where
  next : page.next_insert_offset = other.next_insert_offset
  data : page.data = other.data
  locked : page.version_lock.is_locked = other.version_lock.is_locked

theorem VPage.Same.refl (page : VPage) : page.Same page := ⟨rfl, rfl, rfl⟩

theorem VPage.Same.trans {page other last : VPage} (first : page.Same other)
    (second : other.Same last) : page.Same last :=
  ⟨first.next.trans second.next, first.data.trans second.data, first.locked.trans second.locked⟩

theorem VPage.Same.blank {page other : VPage} (same : page.Same other) (blank : other.Blank) :
    page.Blank := by
  constructor
  · rw [same.next]
    exact blank.next
  · rw [same.data]
    exact blank.zero

theorem VPage.Blank.value_size {page : VPage} (blank : page.Blank) :
    (VarSizeEntry.read page.data 0).value_size = 0 := by
  unfold VarSizeEntry.read
  rw [blank.zero, blank.zero, blank.zero, blank.zero]
  rfl

/-- A blank page that is initialised. -/
theorem VPage.Blank.init_same {page : VPage} (blank : page.Blank)
    (unlocked : page.version_lock.is_locked = false) : page.init.Same page := by
  constructor
  · exact blank.next.symm
  · rfl
  · rw [unlocked]
    show USED_BIT.is_locked = false
    decide

theorem VPage.lock_eq_some {page other : VPage} : page.lock = some other ↔
    page.version_lock.is_locked = false ∧
      other = { page with version_lock := page.version_lock + 1#8 } := by
  unfold VPage.lock
  dsimp only
  constructor
  · intro locked
    split at locked
    · rename_i free
      cases locked
      rw [← free]
      exact ⟨version_lock_t.lock_taken free, rfl⟩
    · cases locked
  · rintro ⟨free, rfl⟩
    rw [version_lock_t.unlocked_self free, if_pos rfl]

def Sized (key value : Text) : Prop := meta_size + (key.length + value.length) ≤ DATA_SIZE

/-! ### The pages of a writer -/

namespace Writer

variable {writer after : Writer} {bn pn : Nat}

theorem page_set_page (page : VPage) (bn' pn' : Nat) :
    (writer.set_page bn pn page).page bn' pn' =
      if bn' = bn ∧ pn' = pn then page else writer.page bn' pn' := by
  unfold Writer.page set_page
  dsimp only
  by_cases block : bn' = bn
  · subst block
    rw [Function.update_self]
    by_cases here : pn' = pn
    · subst here
      rw [Function.update_self, if_pos ⟨rfl, rfl⟩]
    · rw [Function.update_of_ne here, if_neg (fun both => here both.2)]
  · rw [Function.update_of_ne block, if_neg (fun both => block both.1)]

theorem set_page_self (page : VPage) : (writer.set_page bn pn page).page bn pn = page := by
  rw [page_set_page, if_pos ⟨rfl, rfl⟩]

theorem set_page_other {page : VPage} {bn' pn' : Nat} (apart : ¬(bn' = bn ∧ pn' = pn)) :
    (writer.set_page bn pn page).page bn' pn' = writer.page bn' pn' := by
  rw [page_set_page, if_neg apart]

theorem set_v_page_self (page : VPage) :
    (writer.set_v_page page).page writer.v_block_number writer.v_page_number = page :=
  set_page_self page

theorem set_v_page_v_page (page : VPage) : (writer.set_v_page page).v_page = page :=
  set_page_self page

/-- A page is replaced by one that looks the same. -/
theorem set_page_same {page : VPage} (same : page.Same (writer.page bn pn)) (bn' pn' : Nat) :
    ((writer.set_page bn pn page).page bn' pn').Same (writer.page bn' pn') := by
  rw [page_set_page]
  split
  · rename_i here
    rw [here.1, here.2]
    exact same
  · exact .refl _

theorem mark_block_same {mark : version_lock_t → version_lock_t}
    (marks : ∀ lock, (mark lock).version = lock.version) (bn' pn' : Nat) :
    ((writer.mark_block bn mark).page bn' pn').Same (writer.page bn' pn') := by
  apply set_page_same
  constructor
  · rfl
  · rfl
  · exact version_lock_t.locked_congr (marks _)

theorem leave_block_same (v_block : Option Nat) (bn' pn' : Nat) :
    ((writer.leave_block v_block).page bn' pn').Same (writer.page bn' pn') := by
  cases v_block with
  | none => exact .refl _
  | some bn => exact mark_block_same (fun lock => (version_lock_t.client_version lock).2) bn' pn'

end Writer

/-! ### Where clients write -/

/-- Blocks are begun one after another, and each page has been written up to
where it says. -/
structure Pool.Sound (pool : Pool) : Prop where
  first_page : pool.current_block_page.page_number = 0
  next_le : pool.current_block_page.block_number ≤ pool.num_v_blocks
  blocks_lt : pool.num_v_blocks < 2 ^ 45
  beyond : ∀ bn pn, pool.current_block_page.block_number ≤ bn → (pool.v_blocks bn pn).Blank
  starts : ∀ bn pn, (pool.v_blocks bn pn).Blank ∨
    meta_size ≤ (pool.v_blocks bn pn).next_insert_offset
  bounds : ∀ bn pn, (pool.v_blocks bn pn).next_insert_offset ≤ DATA_SIZE

structure Pool.Places (pool : Pool) (position : Position) : Prop where
  processed : position.num_v_pages_processed = position.v_page_number
  page_lt : position.v_page_number < num_pages_per_block
  block_lt : position.v_block_number < pool.current_block_page.block_number
  ahead : ∀ pn, position.v_page_number < pn → (pool.v_blocks position.v_block_number pn).Blank
  begun : position.v_page_number = 0 ∨ meta_size ≤
    (pool.v_blocks position.v_block_number position.v_page_number).next_insert_offset

inductive Next (writer after : Writer) : Prop
  | page (block : after.v_block_number = writer.v_block_number)
      (page : after.v_page_number = writer.v_page_number + 1)
      (inside : writer.v_page_number + 1 < num_pages_per_block)
      (current : after.current_block_page = writer.current_block_page)
  | block (block : after.v_block_number = writer.current_block_page.block_number)
      (page : after.v_page_number = 0) (last : writer.v_page_number + 1 = num_pages_per_block)
      (mapped : writer.current_block_page.block_number < writer.num_v_blocks)
      (current : after.current_block_page =
        .of_parts (writer.current_block_page.block_number + 1) 0 0)

structure Moved (writer after : Writer) : Prop where
  next : Next writer after
  processed : after.num_v_pages_processed = after.v_page_number
  blocks : after.num_v_blocks = writer.num_v_blocks
  same : ∀ bn pn, (after.page bn pn).Same (writer.page bn pn)

namespace Writer

variable {writer after : Writer}

theorem leave_block_fields (v_block : Option Nat) :
    (writer.leave_block v_block).current_block_page = writer.current_block_page ∧
      (writer.leave_block v_block).num_v_blocks = writer.num_v_blocks := by
  cases v_block with
  | none => exact ⟨rfl, rfl⟩
  | some bn => exact ⟨rfl, rfl⟩

/-- A client takes a new block. -/
theorem get_block_based_access_spec {v_block : Option Nat} (sound : writer.toPool.Sound)
    (unlocked : (writer.page writer.current_block_page.block_number 0).version_lock.is_locked = false)
    (done : writer.get_block_based_access v_block = some after) :
    writer.current_block_page.block_number < writer.num_v_blocks ∧
      after.v_block_number = writer.current_block_page.block_number ∧ after.v_page_number = 0 ∧
      after.num_v_pages_processed = 0 ∧ after.num_v_blocks = writer.num_v_blocks ∧
      after.current_block_page = .of_parts (writer.current_block_page.block_number + 1) 0 0 ∧
      ∀ bn pn, (after.page bn pn).Same (writer.page bn pn) := by
  unfold get_block_based_access get_new_block at done
  dsimp only at done
  split at done
  · cases done
  · rename_i mapped
    simp only [Option.bind_eq_bind, Option.bind_some, Option.some.injEq, sound.first_page] at done
    have left := fun bn pn => @leave_block_same (writer.set_current
      (.of_parts (writer.current_block_page.block_number + 1) 0 0)) v_block bn pn
    have fields := @leave_block_fields (writer.set_current
      (.of_parts (writer.current_block_page.block_number + 1) 0 0)) v_block
    revert done left fields
    generalize (writer.set_current (.of_parts (writer.current_block_page.block_number + 1) 0
      0)).leave_block v_block = middle
    intro done left fields
    subst done
    refine ⟨Nat.lt_of_not_le mapped, rfl, rfl, rfl, fields.2, fields.1, ?_⟩
    intro bn pn
    apply (mark_block_same (fun lock => (version_lock_t.client_version lock).1) bn pn).trans
    apply VPage.Same.trans _ (left bn pn)
    have same := left writer.current_block_page.block_number 0
    apply set_page_same
    apply VPage.Blank.init_same
    · exact same.blank (sound.beyond _ _ (Nat.le_refl _))
    · exact same.locked.trans unlocked

theorem update_var_size_page_information_spec (sound : writer.toPool.Sound)
    (places : writer.toPool.Places writer.toPosition)
    (unlocked : ∀ bn pn, ¬(bn = writer.v_block_number ∧ pn = writer.v_page_number) →
      (writer.page bn pn).version_lock.is_locked = false)
    (done : writer.update_var_size_page_information = some after) : Moved writer after := by
  have opens : ∀ middle : Writer, middle.v_page.Blank → middle.v_page.version_lock.is_locked = false →
      ∀ bn pn, (((middle.set_v_page middle.v_page.init).set_v_page
        ((middle.set_v_page middle.v_page.init).v_page.set_next_insert_offset 0)).page bn pn).Same
          (middle.page bn pn) := by
    intro middle blank free bn pn
    have opened : ((middle.set_v_page middle.v_page.init).page bn pn).Same (middle.page bn pn) :=
      set_page_same (blank.init_same free) bn pn
    apply VPage.Same.trans _ opened
    apply set_page_same
    constructor
    · have page : (middle.set_v_page middle.v_page.init).page middle.v_block_number
          middle.v_page_number = middle.v_page.init := set_page_self _
      show 0 % 2 ^ 16 = _
      show _ = ((middle.set_v_page middle.v_page.init).page middle.v_block_number
        middle.v_page_number).next_insert_offset
      rw [page]
      rfl
    · rfl
    · rfl
  simp only [update_var_size_page_information, update_access_information, next_page,
    Option.bind_eq_bind, Option.bind_eq_some_iff, Option.some.injEq] at done
  obtain ⟨last, ⟨middle, moved, rfl⟩, rfl⟩ := done
  have page_lt := places.page_lt
  split at moved
  · rename_i whole
    rw [places.processed] at whole
    have other : ¬(writer.current_block_page.block_number = writer.v_block_number ∧
        0 = writer.v_page_number) := fun same => Nat.ne_of_gt places.block_lt same.1
    obtain ⟨mapped, block, page, processed, blocks, current, same⟩ :=
      get_block_based_access_spec sound (unlocked _ _ other) moved
    have here : middle.v_page.Same (writer.page writer.current_block_page.block_number 0) := by
      unfold v_page
      rw [block, page]
      exact same _ _
    constructor
    · exact .block block page whole mapped current
    · exact processed.trans page.symm
    · exact blocks
    · intro bn pn
      apply (opens middle _ _ bn pn).trans (same bn pn)
      · exact here.blank (sound.beyond _ _ (Nat.le_refl _))
      · exact here.locked.trans (unlocked _ _ other)
  · rename_i more
    rw [places.processed] at more
    cases moved
    have inside : writer.v_page_number + 1 < num_pages_per_block := by omega
    have whole : (writer.v_page_number + 1) % num_pages_per_block = writer.v_page_number + 1 :=
      Nat.mod_eq_of_lt inside
    rw [whole]
    constructor
    · exact .page rfl rfl inside rfl
    · exact congrArg (· + 1) places.processed
    · rfl
    · intro bn pn
      apply (opens (writer.move_to writer.v_block_number (writer.v_page_number + 1)
        (writer.num_v_pages_processed + 1)) _ _ bn pn)
      · exact places.ahead _ (Nat.lt_succ_self _)
      · exact unlocked _ _ (fun same => Nat.succ_ne_self _ same.2)

/-! ### Writes -/

theorem of_sizes_eq {keySize valueSize : Nat} (few : meta_size + (keySize + valueSize) ≤ DATA_SIZE) :
    VarSizeEntry.of_sizes keySize valueSize = ⟨true, keySize, valueSize⟩ := by
  unfold DATA_SIZE v_page_size METADATA_SIZE meta_size at few
  unfold VarSizeEntry.of_sizes
  rw [Nat.mod_eq_of_lt (by omega), Nat.mod_eq_of_lt (by omega)]

theorem insert_whole_eq {key value : Text} {insert_pos : Nat} (sized : Sized key value)
    (ends : writer.v_page.next_insert_offset + (meta_size + (key.length + value.length)) ≤ DATA_SIZE) :
    writer.insert_whole key value insert_pos = writer.set_v_page
      { writer.v_page with
        next_insert_offset :=
          writer.v_page.next_insert_offset + (meta_size + (key.length + value.length))
        data := patch writer.v_page.data insert_pos
          ((⟨true, key.length, value.length⟩ : VarSizeEntry).bytes ++ (key ++ value)) } := by
  unfold insert_whole VPage.set_next_insert_offset VPage.memcpy
  dsimp only
  rw [of_sizes_eq sized]
  dsimp only
  rw [List.take_length, List.take_length, Nat.mod_eq_of_lt]
  apply Nat.lt_of_le_of_lt ends
  decide

theorem insert_split_eq {key value : Text} {bn pn insert_pos : Nat} (sized : Sized key value)
    (apart : ¬(bn = writer.v_block_number ∧ pn = writer.v_page_number))
    (ends : writer.v_page.next_insert_offset + (meta_size + value.length) ≤ DATA_SIZE) :
    writer.insert_split key value bn pn insert_pos = (writer.set_v_page
      { writer.v_page with
        next_insert_offset := writer.v_page.next_insert_offset + (meta_size + value.length)
        data := patch writer.v_page.data 0
          ((⟨true, 0, value.length⟩ : VarSizeEntry).bytes ++ value) }).set_page bn pn
      { writer.page bn pn with
        next_insert_offset := DATA_SIZE
        data := patch (writer.page bn pn).data insert_pos
          ((⟨true, key.length, 0⟩ : VarSizeEntry).bytes ++ key) } := by
  unfold Sized at sized
  have value_sized : meta_size + (0 + value.length) ≤ DATA_SIZE := by omega
  unfold insert_split VPage.set_next_insert_offset VPage.memcpy
  dsimp only
  rw [of_sizes_eq sized, of_sizes_eq value_sized]
  dsimp only
  rw [List.take_length, List.take_length, Nat.mod_eq_of_lt (Nat.lt_of_le_of_lt ends (by decide))]
  unfold set_v_page
  rw [set_page_other apart]
  rfl

theorem keeps_of_same (same : ∀ bn pn, (after.page bn pn).Same (writer.page bn pn)) :
    Keeps writer.v_blocks after.v_blocks := by
  constructor
  · intro bn pn i _
    exact congrFun (same bn pn).data i
  · intro bn pn
    exact Nat.le_of_eq (same bn pn).next.symm

theorem set_page_keeps {bn pn : Nat} {page : VPage}
    (data : ∀ i, i < (writer.page bn pn).next_insert_offset →
      page.data i = (writer.page bn pn).data i)
    (next_le : (writer.page bn pn).next_insert_offset ≤ page.next_insert_offset) :
    Keeps writer.v_blocks (writer.set_page bn pn page).v_blocks := by
  constructor
  · intro bn' pn' i inside
    show ((writer.set_page bn pn page).page bn' pn').data i = _
    rw [page_set_page]
    split
    · rename_i here
      obtain ⟨rfl, rfl⟩ := here
      exact data i inside
    · rfl
  · intro bn' pn'
    show _ ≤ ((writer.set_page bn pn page).page bn' pn').next_insert_offset
    rw [page_set_page]
    split
    · rename_i here
      obtain ⟨rfl, rfl⟩ := here
      exact next_le
    · exact Nat.le_refl _

structure Wrote (writer : Writer) (key value : Text) (pos : Nat) (after : Writer) : Prop where
  keeps : Keeps writer.v_blocks after.v_blocks
  written : (Record.mk (.of_parts writer.v_block_number writer.v_page_number pos) key value
    false).Written true after.v_blocks
  inside : (Record.mk (.of_parts writer.v_block_number writer.v_page_number pos) key value
    false).Inside after.v_blocks
  covers : ∀ bn pn i, (Record.mk (.of_parts writer.v_block_number writer.v_page_number pos) key value
    false).Covers bn pn i → bn = writer.v_block_number ∧ pn = writer.v_page_number ∧ pos ≤ i
  others : ∀ bn pn, ¬(bn = writer.v_block_number ∧ pn = writer.v_page_number) →
    after.page bn pn = writer.page bn pn
  locked : ∀ bn pn, (after.page bn pn).version_lock = (writer.page bn pn).version_lock
  next : after.v_page.next_insert_offset = pos + (meta_size + (key.length + value.length))
  position : after.toPosition = writer.toPosition
  current : after.current_block_page = writer.current_block_page
  blocks : after.num_v_blocks = writer.num_v_blocks

theorem insert_whole_wrote {key value : Text} {pos : Nat} (sized : Sized key value)
    (next : writer.v_page.next_insert_offset = pos)
    (ends : pos + (meta_size + (key.length + value.length)) ≤ DATA_SIZE)
    (starts : pos = 0 ∨ meta_size ≤ pos) (block_lt : writer.v_block_number < 2 ^ 45)
    (page_lt : writer.v_page_number < num_pages_per_block) :
    Wrote writer key value pos (writer.insert_whole key value pos) := by
  subst next
  rw [insert_whole_eq sized ends]
  unfold DATA_SIZE v_page_size METADATA_SIZE meta_size at ends
  unfold num_pages_per_block at page_lt
  have block := @KVOffset.block_number_of_parts writer.v_block_number writer.v_page_number
    writer.v_page.next_insert_offset block_lt
  have page_eq := @KVOffset.page_number_of_parts writer.v_block_number writer.v_page_number
    writer.v_page.next_insert_offset (by omega)
  have slot := @KVOffset.data_offset_of_parts writer.v_block_number writer.v_page_number
    writer.v_page.next_insert_offset (by omega)
  have proper : (⟨true, key.length, value.length⟩ : VarSizeEntry).Proper := by
    constructor
    · dsimp only
      omega
    · dsimp only
      omega
  have length : ((⟨true, key.length, value.length⟩ : VarSizeEntry).bytes ++ key).length =
      meta_size + key.length := by
    rw [List.length_append, VarSizeEntry.length_bytes]
  constructor
  · apply set_page_keeps
    · intro i below
      exact Bytes.patch_outside (.inl below)
    · exact Nat.le_add_right _ _
  · constructor
    · dsimp only
      rw [block, page_eq, slot, if_neg Bool.false_ne_true]
      show VarSizeEntry.read (Writer.page _ _ _).data _ = _
      rw [set_v_page_self]
      exact VarSizeEntry.read_patch proper
    · dsimp only
      rw [block, page_eq, slot]
      show slice (Writer.page _ _ _).data _ _ = _
      rw [set_v_page_self, ← List.append_assoc]
      exact Bytes.slice_patch_middle
    · intro _
      dsimp only
      rw [block, page_eq, slot]
      show slice (Writer.page _ _ _).data _ _ = _
      rw [set_v_page_self, ← List.append_assoc, Nat.add_assoc, ← length]
      exact Bytes.slice_patch_tail
    · intro split
      cases split
    · intro split
      cases split
  · constructor
    · exact KVOffset.of_parts_lt
    · dsimp only
      rw [page_eq]
      exact page_lt
    · dsimp only
      rw [slot]
      exact starts
    · unfold Record.key_end
      dsimp only
      rw [block, page_eq, slot, if_neg Bool.false_ne_true]
      show _ ≤ (Writer.page _ _ _).next_insert_offset
      rw [set_v_page_self]
      dsimp only
      omega
    · intro split
      cases split
    · intro split
      cases split
    · intro split
      cases split
  · rintro bn pn i ⟨same_block, ⟨same_page, above, -⟩ | ⟨split, -⟩⟩
    · dsimp only at same_block same_page above
      rw [block] at same_block
      rw [page_eq] at same_page
      rw [slot] at above
      exact ⟨same_block, same_page, above⟩
    · cases split
  · intro bn pn apart
    exact set_page_other apart
  · intro bn pn
    unfold set_v_page
    rw [page_set_page]
    split
    · rename_i here
      obtain ⟨rfl, rfl⟩ := here
      rfl
    · rfl
  · exact congrArg VPage.next_insert_offset (set_v_page_v_page _)
  · rfl
  · rfl
  · rfl

structure Closed (writer : Writer) (bn pn : Nat) (after : Writer) : Prop where
  keeps : Keeps writer.v_blocks after.v_blocks
  others : ∀ bn' pn', ¬(bn' = bn ∧ pn' = pn) → after.page bn' pn' = writer.page bn' pn'
  locked : ∀ bn' pn', (after.page bn' pn').version_lock = (writer.page bn' pn').version_lock
  next : (after.page bn pn).next_insert_offset = DATA_SIZE
  position : after.toPosition = writer.toPosition
  current : after.current_block_page = writer.current_block_page
  blocks : after.num_v_blocks = writer.num_v_blocks

theorem set_page_closed {bn pn : Nat} {page : VPage}
    (data : ∀ i, i < (writer.page bn pn).next_insert_offset →
      page.data i = (writer.page bn pn).data i)
    (bound : (writer.page bn pn).next_insert_offset ≤ DATA_SIZE)
    (next : page.next_insert_offset = DATA_SIZE)
    (locked : page.version_lock = (writer.page bn pn).version_lock) :
    Closed writer bn pn (writer.set_page bn pn page) := by
  constructor
  · apply set_page_keeps data
    rw [next]
    exact bound
  · exact fun bn' pn' apart => set_page_other apart
  · intro bn' pn'
    rw [page_set_page]
    split
    · rename_i here
      rw [here.1, here.2]
      exact locked
    · rfl
  · rw [set_page_self]
    exact next
  · rfl
  · rfl
  · rfl

theorem close_page_closed {bn pn pos : Nat} (next : (writer.page bn pn).next_insert_offset = pos)
    (bound : pos ≤ DATA_SIZE) : Closed writer bn pn (writer.close_page bn pn pos) := by
  subst next
  apply set_page_closed
  · intro i below
    dsimp only [VPage.set_next_insert_offset]
    split
    · exact Bytes.patch_outside (.inl below)
    · rfl
  · exact bound
  · rfl
  · dsimp only [VPage.set_next_insert_offset]
    split
    · rfl
    · rfl

structure Split (writer : Writer) (key value : Text) (pn pos : Nat) (after : Writer) : Prop where
  keeps : Keeps writer.v_blocks after.v_blocks
  written : (Record.mk (.of_parts writer.v_block_number pn pos) key value true).Written true
    after.v_blocks
  inside : (Record.mk (.of_parts writer.v_block_number pn pos) key value true).Inside after.v_blocks
  covers : ∀ bn pn' i, (Record.mk (.of_parts writer.v_block_number pn pos) key value true).Covers
    bn pn' i → bn = writer.v_block_number ∧ (pn' = pn ∧ pos ≤ i ∨ pn' = pn + 1)
  others : ∀ bn' pn', ¬(bn' = writer.v_block_number ∧ pn' = pn) →
    ¬(bn' = writer.v_block_number ∧ pn' = writer.v_page_number) →
    after.page bn' pn' = writer.page bn' pn'
  locked : ∀ bn' pn', (after.page bn' pn').version_lock = (writer.page bn' pn').version_lock
  first_next : (after.page writer.v_block_number pn).next_insert_offset = DATA_SIZE
  next : after.v_page.next_insert_offset = meta_size + value.length
  entry : (VarSizeEntry.read after.v_page.data 0).value_size = value.length
  position : after.toPosition = writer.toPosition
  current : after.current_block_page = writer.current_block_page
  blocks : after.num_v_blocks = writer.num_v_blocks

theorem insert_split_wrote {key value : Text} {pn pos : Nat} (sized : Sized key value)
    (come : writer.v_page_number = pn + 1) (blank : writer.v_page.next_insert_offset = 0)
    (next : (writer.page writer.v_block_number pn).next_insert_offset = pos)
    (ends : pos + (meta_size + key.length) ≤ DATA_SIZE) (nonempty : value ≠ [])
    (starts : pos = 0 ∨ meta_size ≤ pos) (block_lt : writer.v_block_number < 2 ^ 45)
    (page_lt : writer.v_page_number < num_pages_per_block) :
    Split writer key value pn pos (writer.insert_split key value writer.v_block_number pn pos) := by
  subst next
  have apart : ¬(writer.v_block_number = writer.v_block_number ∧ pn = writer.v_page_number) := by
    rintro ⟨-, same⟩
    omega
  have away : ¬(writer.v_block_number = writer.v_block_number ∧ writer.v_page_number = pn) := by
    rintro ⟨-, same⟩
    omega
  have fits : writer.v_page.next_insert_offset + (meta_size + value.length) ≤ DATA_SIZE := by
    unfold Sized at sized
    omega
  rw [insert_split_eq sized apart fits, blank, Nat.zero_add]
  unfold Sized DATA_SIZE v_page_size METADATA_SIZE meta_size at sized
  unfold DATA_SIZE v_page_size METADATA_SIZE meta_size at ends
  unfold num_pages_per_block at page_lt
  have block := @KVOffset.block_number_of_parts writer.v_block_number pn
    (writer.page writer.v_block_number pn).next_insert_offset block_lt
  have page_eq := @KVOffset.page_number_of_parts writer.v_block_number pn
    (writer.page writer.v_block_number pn).next_insert_offset (by omega)
  have slot := @KVOffset.data_offset_of_parts writer.v_block_number pn
    (writer.page writer.v_block_number pn).next_insert_offset (by omega)
  have key_proper : (⟨true, key.length, 0⟩ : VarSizeEntry).Proper := by
    constructor
    · dsimp only
      omega
    · exact Nat.two_pow_pos 16
  have value_proper : (⟨true, 0, value.length⟩ : VarSizeEntry).Proper := by
    constructor
    · exact Nat.two_pow_pos 15
    · dsimp only
      omega
  generalize values : ({ writer.v_page with
    next_insert_offset := meta_size + value.length
    data := patch writer.v_page.data 0
      ((⟨true, 0, value.length⟩ : VarSizeEntry).bytes ++ value) } : VPage) = value_page
  generalize keys : ({ writer.page writer.v_block_number pn with
    next_insert_offset := DATA_SIZE
    data := patch (writer.page writer.v_block_number pn).data
      (writer.page writer.v_block_number pn).next_insert_offset
      ((⟨true, key.length, 0⟩ : VarSizeEntry).bytes ++ key) } : VPage) = key_page
  have first : ((writer.set_v_page value_page).set_page writer.v_block_number pn key_page).page
      writer.v_block_number pn = key_page := set_page_self key_page
  have second : ((writer.set_v_page value_page).set_page writer.v_block_number pn key_page).page
      writer.v_block_number (pn + 1) = value_page := by
    rw [← come, set_page_other away]
    exact set_v_page_self value_page
  have key_data : key_page.data = patch (writer.page writer.v_block_number pn).data
      (writer.page writer.v_block_number pn).next_insert_offset
      ((⟨true, key.length, 0⟩ : VarSizeEntry).bytes ++ key) := by
    rw [← keys]
  have value_data : value_page.data = patch writer.v_page.data 0
      ((⟨true, 0, value.length⟩ : VarSizeEntry).bytes ++ value) := by
    rw [← values]
  have key_next : key_page.next_insert_offset = DATA_SIZE := by
    rw [← keys]
  have value_next : value_page.next_insert_offset = meta_size + value.length := by
    rw [← values]
  have entry : (VarSizeEntry.read value_page.data 0).value_size = value.length := by
    rw [value_data, VarSizeEntry.read_patch value_proper]
  have old_page : (writer.set_v_page value_page).page writer.v_block_number pn =
      writer.page writer.v_block_number pn := set_page_other apart
  constructor
  · have opened : Keeps writer.v_blocks (writer.set_v_page value_page).v_blocks := by
      apply set_page_keeps
      · intro i below
        rw [show (writer.page _ _).next_insert_offset = 0 from blank] at below
        cases below
      · rw [show (writer.page _ _).next_insert_offset = 0 from blank]
        exact Nat.zero_le _
    apply opened.trans
    apply set_page_keeps
    · intro i below
      rw [old_page] at below ⊢
      rw [key_data]
      exact Bytes.patch_outside (.inl below)
    · rw [old_page, key_next]
      unfold DATA_SIZE v_page_size METADATA_SIZE
      omega
  · constructor
    · dsimp only
      rw [block, page_eq, slot, if_pos rfl]
      show VarSizeEntry.read (Writer.page _ _ _).data _ = _
      rw [first, key_data]
      exact VarSizeEntry.read_patch key_proper
    · dsimp only
      rw [block, page_eq, slot]
      show slice (Writer.page _ _ _).data _ _ = _
      rw [first, key_data]
      exact Bytes.slice_patch_tail
    · intro split
      cases split
    · intro _
      dsimp only
      rw [block, page_eq]
      show (VarSizeEntry.read (Writer.page _ _ _).data 0).value_size = _
      rw [second]
      exact entry
    · intro _
      dsimp only
      rw [block, page_eq]
      show slice (Writer.page _ _ _).data _ _ = _
      rw [second, value_data, ← Nat.zero_add meta_size]
      exact Bytes.slice_patch_tail
  · constructor
    · exact KVOffset.of_parts_lt
    · dsimp only
      rw [page_eq]
      unfold num_pages_per_block
      omega
    · dsimp only
      rw [slot]
      exact starts
    · unfold Record.key_end
      dsimp only
      rw [block, page_eq, slot, if_pos rfl]
      show _ ≤ (Writer.page _ _ _).next_insert_offset
      rw [first, key_next]
      unfold DATA_SIZE v_page_size METADATA_SIZE meta_size
      omega
    · intro _
      dsimp only
      rw [page_eq]
      unfold num_pages_per_block
      omega
    · intro _
      dsimp only [Record.value_end]
      rw [block, page_eq]
      show _ ≤ (Writer.page _ _ _).next_insert_offset
      rw [second, value_next]
    · exact fun _ => nonempty
  · rintro bn pn' i ⟨same_block, ⟨same_page, above, -⟩ | ⟨-, same_page, -⟩⟩
    · dsimp only at same_block same_page above
      rw [block] at same_block
      rw [page_eq] at same_page
      rw [slot] at above
      exact ⟨same_block, .inl ⟨same_page, above⟩⟩
    · dsimp only at same_block same_page
      rw [block] at same_block
      rw [page_eq] at same_page
      exact ⟨same_block, .inr same_page⟩
  · intro bn' pn' not_key not_value
    rw [set_page_other not_key]
    exact set_page_other not_value
  · intro bn' pn'
    rw [page_set_page]
    split
    · rename_i here
      rw [here.1, here.2, ← keys]
    · unfold set_v_page
      rw [page_set_page]
      split
      · rename_i here
        rw [here.1, here.2, ← values]
        rfl
      · rfl
  · rw [first]
    exact key_next
  · show (Writer.page _ writer.v_block_number writer.v_page_number).next_insert_offset = _
    rw [come, second]
    exact value_next
  · show (VarSizeEntry.read
      (Writer.page _ writer.v_block_number writer.v_page_number).data 0).value_size = _
    rw [come, second]
    exact entry
  · rfl
  · rfl
  · rfl

/-! ### Puts -/

structure Inserted (writer : Writer) (key value : Text) (off : KVOffset) (after : Writer) : Prop where
  keeps : Keeps writer.v_blocks after.v_blocks
  record : ∃ split, (Record.mk off key value split).Written true after.v_blocks ∧
    (Record.mk off key value split).Inside after.v_blocks ∧
    (∀ bn pn i, (Record.mk off key value split).Covers bn pn i →
      (writer.page bn pn).next_insert_offset ≤ i) ∧
    (split = false → off.block_number = after.v_block_number ∧ off.page_number = after.v_page_number)
  block : off.block_number = writer.v_block_number ∨ off.block_number = after.v_block_number
  moved : fits writer.v_page.next_insert_offset (key.length + value.length) = true ∧
      after.toPosition = writer.toPosition ∧
      after.current_block_page = writer.current_block_page ∨
    fits writer.v_page.next_insert_offset (key.length + value.length) = false ∧
      Next writer after ∧ after.num_v_pages_processed = after.v_page_number ∧
      (VarSizeEntry.read after.v_page.data 0).value_size = value.length
  changes : ∀ bn pn, (after.page bn pn).next_insert_offset = (writer.page bn pn).next_insert_offset ∧
      (after.page bn pn).data = (writer.page bn pn).data ∨
    (bn = writer.v_block_number ∧ pn = writer.v_page_number ∨
      bn = after.v_block_number ∧ pn = after.v_page_number) ∧
    meta_size ≤ (after.page bn pn).next_insert_offset ∧
    (after.page bn pn).next_insert_offset ≤ DATA_SIZE
  begun : meta_size ≤ after.v_page.next_insert_offset
  locked : ∀ bn pn, ¬(bn = writer.v_block_number ∧ pn = writer.v_page_number) →
    (after.page bn pn).version_lock.is_locked = false
  lock_held : (after.page writer.v_block_number writer.v_page_number).version_lock.is_locked = true
  blocks : after.num_v_blocks = writer.num_v_blocks

theorem fits_iff {pos length : Nat} :
    fits pos length = true ↔ pos + (meta_size + length) ≤ DATA_SIZE := by
  unfold fits DATA_SIZE v_page_size METADATA_SIZE
  rw [decide_eq_true_iff]
  omega

structure Started (writer start : Writer) : Prop where
  looks : ∀ bn pn, (start.page bn pn).next_insert_offset = (writer.page bn pn).next_insert_offset ∧
    (start.page bn pn).data = (writer.page bn pn).data
  held : (start.page writer.v_block_number writer.v_page_number).version_lock.is_locked = true
  position : start.toPosition = writer.toPosition
  current : start.current_block_page = writer.current_block_page
  blocks : start.num_v_blocks = writer.num_v_blocks

theorem Started.blank {start : Writer} (started : Started writer start) {bn pn : Nat}
    (blank : (writer.page bn pn).Blank) : (start.page bn pn).Blank := by
  constructor
  · rw [(started.looks bn pn).1]
    exact blank.next
  · rw [(started.looks bn pn).2]
    exact blank.zero

theorem Started.sound {start : Writer} (started : Started writer start)
    (sound : writer.toPool.Sound) : start.toPool.Sound := by
  constructor
  · rw [started.current]
    exact sound.first_page
  · rw [started.current, started.blocks]
    exact sound.next_le
  · rw [started.blocks]
    exact sound.blocks_lt
  · intro bn pn above
    rw [started.current] at above
    exact started.blank (sound.beyond bn pn above)
  · intro bn pn
    rcases sound.starts bn pn with nothing | begun
    · exact .inl (started.blank nothing)
    · right
      show _ ≤ (start.page bn pn).next_insert_offset
      rw [(started.looks bn pn).1]
      exact begun
  · intro bn pn
    show (start.page bn pn).next_insert_offset ≤ _
    rw [(started.looks bn pn).1]
    exact sound.bounds bn pn

theorem Started.places {start : Writer} (started : Started writer start)
    (places : writer.toPool.Places writer.toPosition) : start.toPool.Places start.toPosition := by
  rw [started.position]
  constructor
  · exact places.processed
  · exact places.page_lt
  · rw [started.current]
    exact places.block_lt
  · exact fun pn after => started.blank (places.ahead pn after)
  · show _ ∨ _ ≤ (start.page _ _).next_insert_offset
    rw [(started.looks _ _).1]
    exact places.begun

theorem Started.inserted {start : Writer} {key value : Text} {off : KVOffset}
    (started : Started writer start) (inserted : Inserted start key value off after) :
    Inserted writer key value off after := by
  have position := started.position
  have block : start.v_block_number = writer.v_block_number :=
    congrArg Position.v_block_number position
  have page : start.v_page_number = writer.v_page_number := congrArg Position.v_page_number position
  have keeps : Keeps writer.v_blocks start.v_blocks := by
    constructor
    · exact fun bn pn i _ => congrFun (started.looks bn pn).2 i
    · exact fun bn pn => Nat.le_of_eq (started.looks bn pn).1.symm
  constructor
  · exact keeps.trans inserted.keeps
  · obtain ⟨split, written, inside, covers, whole⟩ := inserted.record
    refine ⟨split, written, inside, ?_, whole⟩
    intro bn pn i here
    rw [← (started.looks bn pn).1]
    exact covers bn pn i here
  · rw [← block]
    exact inserted.block
  · have looks : start.v_page.next_insert_offset = writer.v_page.next_insert_offset := by
      unfold v_page
      rw [(started.looks _ _).1, block, page]
    rw [← looks]
    rcases inserted.moved with ⟨enough, same, current⟩ | ⟨short, next, processed, entry⟩
    · exact .inl ⟨enough, same.trans position, current.trans started.current⟩
    · refine .inr ⟨short, ?_, processed, entry⟩
      cases next with
      | page same_block next_page inside current =>
          rw [page] at next_page inside
          exact .page (same_block.trans block) next_page inside (current.trans started.current)
      | block new_block first_page last mapped current =>
          rw [page] at last
          rw [started.current] at new_block mapped current
          rw [started.blocks] at mapped
          exact .block new_block first_page last mapped current
  · intro bn pn
    rw [← (started.looks bn pn).1, ← (started.looks bn pn).2, ← block, ← page]
    exact inserted.changes bn pn
  · exact inserted.begun
  · intro bn pn apart
    rw [← block, ← page] at apart
    exact inserted.locked bn pn apart
  · rw [← block, ← page]
    exact inserted.lock_held
  · exact inserted.blocks.trans started.blocks

section Branches

variable {start middle : Writer} {key value : Text} (sized : Sized key value)
  (sound : start.toPool.Sound) (places : start.toPool.Places start.toPosition)
  (free : ∀ bn pn, ¬(bn = start.v_block_number ∧ pn = start.v_page_number) →
    (start.page bn pn).version_lock.is_locked = false)
  (held : (start.page start.v_block_number start.v_page_number).version_lock.is_locked = true)

include sound places

theorem block_small : start.v_block_number < 2 ^ 45 := by
  have below := places.block_lt
  have next_le := sound.next_le
  have blocks_lt := sound.blocks_lt
  omega

omit places in
theorem next_starts : start.v_page.next_insert_offset = 0 ∨
    meta_size ≤ start.v_page.next_insert_offset := by
  rcases sound.starts start.v_block_number start.v_page_number with nothing | begun
  · exact .inl nothing.next
  · exact .inr begun

/-- The page that the client has come to is blank. -/
theorem moved_blank (moved : Moved start middle) : middle.v_page.Blank := by
  cases moved.next with
  | page block page inside current =>
      apply (moved.same _ _).blank
      rw [block, page]
      exact places.ahead _ (Nat.lt_succ_self _)
  | block block page last mapped current =>
      apply (moved.same _ _).blank
      apply sound.beyond
      rw [block]

theorem moved_small (moved : Moved start middle) :
    middle.v_block_number < 2 ^ 45 ∧ middle.v_page_number < num_pages_per_block := by
  cases moved.next with
  | page block page inside current =>
      rw [block, page]
      exact ⟨block_small sound places, inside⟩
  | block block page last mapped current =>
      have blocks_lt := sound.blocks_lt
      rw [block, page]
      exact ⟨by omega, by decide⟩

omit sound in
/-- It is another page than before. -/
theorem moved_apart (moved : Moved start middle) :
    ¬(start.v_block_number = middle.v_block_number ∧ start.v_page_number = middle.v_page_number) := by
  rintro ⟨same_block, same_page⟩
  cases moved.next with
  | page block page inside current => omega
  | block block page last mapped current =>
      have below := places.block_lt
      omega

include sized free held

/-- The record ends within the page. -/
theorem inserted_here
    (enough : start.v_page.next_insert_offset + (meta_size + (key.length + value.length)) ≤ DATA_SIZE) :
    Inserted start key value
      (.of_parts start.v_block_number start.v_page_number start.v_page.next_insert_offset)
      (start.insert_whole key value start.v_page.next_insert_offset) := by
  have wrote := insert_whole_wrote sized rfl enough (next_starts sound) (block_small sound places)
    places.page_lt
  have page_lt := places.page_lt
  unfold num_pages_per_block at page_lt
  have block := @KVOffset.block_number_of_parts start.v_block_number start.v_page_number
    start.v_page.next_insert_offset (block_small sound places)
  have page_eq := @KVOffset.page_number_of_parts start.v_block_number start.v_page_number
    start.v_page.next_insert_offset (by omega)
  constructor
  · exact wrote.keeps
  · refine ⟨false, wrote.written, wrote.inside, ?_, fun _ => ⟨block, page_eq⟩⟩
    intro bn pn i here
    obtain ⟨rfl, rfl, above⟩ := wrote.covers bn pn i here
    exact above
  · exact .inl block
  · exact .inl ⟨fits_iff.mpr enough, wrote.position, wrote.current⟩
  · intro bn pn
    by_cases here : bn = start.v_block_number ∧ pn = start.v_page_number
    · right
      have next : ((start.insert_whole key value start.v_page.next_insert_offset).page
        start.v_block_number start.v_page_number).next_insert_offset = _ := wrote.next
      rw [← here.1, ← here.2] at next
      refine ⟨.inl here, ?_, ?_⟩
      · rw [next]
        omega
      · rw [next]
        exact enough
    · left
      rw [wrote.others bn pn here]
      exact ⟨rfl, rfl⟩
  · rw [wrote.next]
    omega
  · intro bn pn apart
    rw [wrote.locked]
    exact free bn pn apart
  · rw [wrote.locked]
    exact held
  · exact wrote.blocks

/-- The key ends within the page, and the value begins the next page of the
block. -/
theorem inserted_split (moved : Moved start middle)
    (block : middle.v_block_number = start.v_block_number) (nonempty : value ≠ [])
    (short : fits start.v_page.next_insert_offset (key.length + value.length) = false)
    (enough : start.v_page.next_insert_offset + (meta_size + key.length) ≤ DATA_SIZE) :
    Inserted start key value
      (.of_parts start.v_block_number start.v_page_number start.v_page.next_insert_offset)
      (middle.insert_split key value start.v_block_number start.v_page_number
        start.v_page.next_insert_offset) := by
  have come : middle.v_page_number = start.v_page_number + 1 := by
    cases moved.next with
    | page _ page inside current => exact page
    | block new_block page last mapped current =>
        have below := places.block_lt
        omega
  have old_next : (middle.page middle.v_block_number start.v_page_number).next_insert_offset =
      start.v_page.next_insert_offset := by
    rw [block]
    exact (moved.same _ _).next
  have apart := moved_apart places moved
  have small := moved_small sound places moved
  have blank := moved_blank sound places moved
  have wrote := insert_split_wrote sized come blank.next old_next enough nonempty
    (next_starts sound) small.1 small.2
  have page_lt := places.page_lt
  unfold num_pages_per_block at page_lt
  have block_eq := @KVOffset.block_number_of_parts start.v_block_number start.v_page_number
    start.v_page.next_insert_offset (block_small sound places)
  rw [← block] at block_eq apart ⊢
  revert wrote
  generalize middle.insert_split key value middle.v_block_number start.v_page_number
    start.v_page.next_insert_offset = after
  intro wrote
  have after_block : after.v_block_number = middle.v_block_number :=
    congrArg Position.v_block_number wrote.position
  have after_page : after.v_page_number = middle.v_page_number :=
    congrArg Position.v_page_number wrote.position
  constructor
  · exact (keeps_of_same moved.same).trans wrote.keeps
  · refine ⟨true, wrote.written, wrote.inside, ?_, fun whole => by cases whole⟩
    intro bn pn i here
    rw [← (moved.same bn pn).next]
    obtain ⟨rfl, ⟨rfl, above⟩ | rfl⟩ := wrote.covers bn pn i here
    · rw [old_next]
      exact above
    · rw [← come, show (middle.page _ _).next_insert_offset = 0 from blank.next]
      exact Nat.zero_le i
  · exact .inr (block_eq.trans after_block.symm)
  · right
    refine ⟨short, ?_, ?_, wrote.entry⟩
    · cases moved.next with
      | page same_block page inside current =>
          exact .page (after_block.trans same_block) (after_page.trans page) inside
            (wrote.current.trans current)
      | block new_block page last mapped current =>
          have below := places.block_lt
          omega
    · rw [after_page, ← moved.processed]
      exact congrArg Position.num_v_pages_processed wrote.position
  · intro bn pn
    by_cases first : bn = middle.v_block_number ∧ pn = start.v_page_number
    · right
      obtain ⟨rfl, rfl⟩ := first
      refine ⟨.inl ⟨block, rfl⟩, ?_, ?_⟩
      · rw [wrote.first_next]
        decide
      · rw [wrote.first_next]
    · by_cases second : bn = middle.v_block_number ∧ pn = middle.v_page_number
      · right
        have next : (after.page after.v_block_number after.v_page_number).next_insert_offset = _ :=
          wrote.next
        rw [after_block, after_page, ← second.1, ← second.2] at next
        unfold Sized at sized
        refine ⟨.inr ⟨second.1.trans after_block.symm, second.2.trans after_page.symm⟩, ?_, ?_⟩
        · rw [next]
          exact Nat.le_add_right _ _
        · rw [next]
          omega
      · left
        rw [wrote.others bn pn first second]
        exact ⟨(moved.same bn pn).next, (moved.same bn pn).data⟩
  · rw [wrote.next]
    exact Nat.le_add_right _ _
  · intro bn pn other
    rw [wrote.locked, (moved.same bn pn).locked]
    exact free bn pn other
  · rw [wrote.locked, (moved.same _ _).locked]
    exact held
  · exact wrote.blocks.trans moved.blocks

/-- The record begins the page that the client has come to. -/
theorem inserted_next (moved : Moved start middle)
    (short : fits start.v_page.next_insert_offset (key.length + value.length) = false) :
    Inserted start key value (.of_parts middle.v_block_number middle.v_page_number 0)
      ((middle.close_page start.v_block_number start.v_page_number
        start.v_page.next_insert_offset).insert_whole key value 0) := by
  have apart := moved_apart places moved
  have small := moved_small sound places moved
  have blank := moved_blank sound places moved
  have bound : start.v_page.next_insert_offset ≤ DATA_SIZE := sound.bounds _ _
  have old_next : (middle.page start.v_block_number start.v_page_number).next_insert_offset =
      start.v_page.next_insert_offset := (moved.same _ _).next
  have closed := close_page_closed old_next bound
  have kept := (keeps_of_same moved.same).trans closed.keeps
  revert closed kept
  generalize middle.close_page start.v_block_number start.v_page_number
    start.v_page.next_insert_offset = closing
  intro closed kept
  have closing_block : closing.v_block_number = middle.v_block_number :=
    congrArg Position.v_block_number closed.position
  have closing_page : closing.v_page_number = middle.v_page_number :=
    congrArg Position.v_page_number closed.position
  have page_same : closing.page middle.v_block_number middle.v_page_number = middle.v_page :=
    closed.others _ _ (fun same => apart ⟨same.1.symm, same.2.symm⟩)
  have next : closing.v_page.next_insert_offset = 0 := by
    unfold v_page
    rw [closing_block, closing_page, page_same]
    exact blank.next
  have ends : 0 + (meta_size + (key.length + value.length)) ≤ DATA_SIZE := by
    rw [Nat.zero_add]
    exact sized
  rw [← closing_block, ← closing_page] at small
  have wrote := insert_whole_wrote sized next ends (.inl rfl) small.1 small.2
  have page_lt := small.2
  unfold num_pages_per_block at page_lt
  have block_eq := @KVOffset.block_number_of_parts closing.v_block_number closing.v_page_number 0
    small.1
  have page_eq := @KVOffset.page_number_of_parts closing.v_block_number closing.v_page_number 0
    (by omega)
  rw [← closing_block, ← closing_page]
  revert wrote
  generalize closing.insert_whole key value 0 = after
  intro wrote
  have after_block : after.v_block_number = closing.v_block_number :=
    congrArg Position.v_block_number wrote.position
  have after_page : after.v_page_number = closing.v_page_number :=
    congrArg Position.v_page_number wrote.position
  constructor
  · exact kept.trans wrote.keeps
  · refine ⟨false, wrote.written, wrote.inside, ?_,
      fun _ => ⟨block_eq.trans after_block.symm, page_eq.trans after_page.symm⟩⟩
    intro bn pn i here
    obtain ⟨rfl, rfl, -⟩ := wrote.covers bn pn i here
    apply Nat.le_trans (kept.next_le _ _)
    rw [show (closing.v_blocks _ _).next_insert_offset = 0 from next]
    exact Nat.zero_le i
  · exact .inr (block_eq.trans after_block.symm)
  · right
    have current := wrote.current.trans closed.current
    have block := after_block.trans closing_block
    have page := after_page.trans closing_page
    refine ⟨short, ?_, ?_, ?_⟩
    · cases moved.next with
      | page same_block next_page inside same =>
          exact .page (block.trans same_block) (page.trans next_page) inside (current.trans same)
      | block new_block first_page last mapped new =>
          exact .block (block.trans new_block) (page.trans first_page) last mapped (current.trans new)
    · rw [page, ← moved.processed]
      exact congrArg Position.num_v_pages_processed (wrote.position.trans closed.position)
    · have entry := wrote.written.entry
      dsimp only at entry
      have slot := @KVOffset.data_offset_of_parts closing.v_block_number closing.v_page_number 0
        (by decide)
      rw [block_eq, page_eq, slot, if_neg Bool.false_ne_true] at entry
      unfold v_page Writer.page
      rw [after_block, after_page, entry]
  · intro bn pn
    by_cases here : bn = closing.v_block_number ∧ pn = closing.v_page_number
    · right
      have whole : (after.page after.v_block_number after.v_page_number).next_insert_offset = _ :=
        wrote.next
      rw [after_block, after_page, ← here.1, ← here.2] at whole
      refine ⟨.inr ⟨here.1.trans after_block.symm, here.2.trans after_page.symm⟩, ?_, ?_⟩
      · rw [whole, Nat.zero_add]
        exact Nat.le_add_right _ _
      · rw [whole]
        exact ends
    · rw [wrote.others bn pn here]
      by_cases old : bn = start.v_block_number ∧ pn = start.v_page_number
      · right
        refine ⟨.inl old, ?_, ?_⟩
        · rw [old.1, old.2, closed.next]
          decide
        · rw [old.1, old.2, closed.next]
      · left
        rw [closed.others bn pn old]
        exact ⟨(moved.same bn pn).next, (moved.same bn pn).data⟩
  · rw [wrote.next, Nat.zero_add]
    exact Nat.le_add_right _ _
  · intro bn pn other
    rw [wrote.locked, closed.locked, (moved.same bn pn).locked]
    exact free bn pn other
  · rw [wrote.locked, closed.locked, (moved.same _ _).locked]
    exact held
  · exact wrote.blocks.trans (closed.blocks.trans moved.blocks)

end Branches

theorem insert_spec {key value : Text} {off : KVOffset} (sized : Sized key value)
    (sound : writer.toPool.Sound) (places : writer.toPool.Places writer.toPosition)
    (unlocked : ∀ bn pn, (writer.page bn pn).version_lock.is_locked = false)
    (done : writer.insert key value = some (off, after)) : Inserted writer key value off after := by
  simp only [insert, Option.bind_eq_bind, Option.bind_eq_some_iff] at done
  obtain ⟨page, locks, done⟩ := done
  have started : Started writer (writer.set_v_page page) := by
    obtain ⟨free, rfl⟩ := VPage.lock_eq_some.mp locks
    constructor
    · intro bn pn
      unfold set_v_page
      rw [page_set_page]
      split
      · rename_i here
        rw [here.1, here.2]
        exact ⟨rfl, rfl⟩
      · exact ⟨rfl, rfl⟩
    · rw [set_v_page_self]
      exact (version_lock_t.locked_version free).2
    · rfl
    · rfl
    · rfl
  have free : ∀ bn pn, ¬(bn = writer.v_block_number ∧ pn = writer.v_page_number) →
      ((writer.set_v_page page).page bn pn).version_lock.is_locked = false := by
    intro bn pn apart
    rw [show (writer.set_v_page page).page bn pn = writer.page bn pn from set_page_other apart]
    exact unlocked bn pn
  apply started.inserted
  have held := started.held
  have start_sound := started.sound sound
  have start_places := started.places places
  have same_block : writer.v_block_number = (writer.set_v_page page).v_block_number := rfl
  have same_page : writer.v_page_number = (writer.set_v_page page).v_page_number := rfl
  rw [same_block, same_page] at held free
  clear started locks sound places unlocked same_block same_page
  revert done free held start_sound start_places
  generalize writer.set_v_page page = start
  intro done free held sound places
  rw [of_sizes_eq sized] at done
  dsimp only at done
  split at done
  · rename_i enough
    cases done
    exact inserted_here sized sound places free held (fits_iff.mp enough)
  · rename_i short
    rw [Option.bind_eq_some_iff] at done
    obtain ⟨middle, opens, done⟩ := done
    have moved := update_var_size_page_information_spec sound places free opens
    split at done
    · rename_i here
      have nonempty : value ≠ [] := by
        rintro rfl
        exact short here.1
      split at done
      · cases done
        exact inserted_split sized sound places free held moved (Classical.not_not.mp here.2) nonempty
          (Bool.not_eq_true _ ▸ short) (fits_iff.mp here.1)
      · cases done
    · split at done
      · cases done
        exact inserted_next sized sound places free held moved (Bool.not_eq_true _ ▸ short)
      · cases done

end Writer

end Hiom.Viper.Records.Strings
