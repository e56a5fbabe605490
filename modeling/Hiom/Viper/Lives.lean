import Hiom.Viper.Writer

/-!
The records that live in the pages: those in slots that are taken, on pages
that have been initialised. What the parts of an operation do to them.
-/

namespace Hiom.Viper.Records

variable {K V : Type}

def VPage.Live (page : VPage K V) (slot : Nat) : Prop :=
  page.version_lock.is_used = true ∧ page.free_slots slot = false

structure Lives (layout : Layout) (v_blocks : Nat → VPageBlock K V) (key : K) (off : KVOffset)
    (value : V) : Prop where
  word : off.offset < 2 ^ 64
  page_lt : off.page_number < layout.num_pages_per_block
  slot_lt : off.data_offset < layout.num_slots_per_page
  live : (v_blocks off.block_number off.page_number).Live off.data_offset
  data : (v_blocks off.block_number off.page_number).data off.data_offset = (key, value)

section Lives

variable {layout : Layout} {v_blocks : Nat → VPageBlock K V} {key other_key : K}
  {off other : KVOffset} {value other_value : V}

theorem KVOffset.tombstone_page : KVOffset.Tombstone.page_number = 7 := by decide

/-- A slot in use is named by an offset. -/
theorem Lives.of_live {bn pn slot : Nat} (number_lt : bn < 2 ^ 45)
    (page_lt : pn < layout.num_pages_per_block) (slot_lt : slot < layout.num_slots_per_page)
    (live : (v_blocks bn pn).Live slot) :
    ∃ off, off.block_number = bn ∧ off.page_number = pn ∧ off.data_offset = slot ∧
      Lives layout v_blocks ((v_blocks bn pn).data slot).1 off ((v_blocks bn pn).data slot).2 := by
  have few := layout.pages_le
  have slots_le := layout.slots_le
  have block : (KVOffset.of_parts bn pn slot).block_number = bn :=
    KVOffset.block_number_of_parts number_lt
  have page : (KVOffset.of_parts bn pn slot).page_number = pn :=
    KVOffset.page_number_of_parts (by omega)
  have data_offset : (KVOffset.of_parts bn pn slot).data_offset = slot :=
    KVOffset.data_offset_of_parts (by omega)
  refine ⟨.of_parts bn pn slot, block, page, data_offset, ?_⟩
  constructor
  · exact KVOffset.of_parts_lt
  · rw [page]
    exact page_lt
  · rw [data_offset]
    exact slot_lt
  · rw [block, page, data_offset]
    exact live
  · rw [block, page, data_offset]

theorem Lives.ne_tombstone (lives : Lives layout v_blocks key off value) : off ≠ .Tombstone := by
  rintro rfl
  have page := lives.page_lt
  have few := layout.pages_le
  rw [KVOffset.tombstone_page] at page
  omega

/-- An offset names one record at most. -/
theorem Lives.same_record (lives : Lives layout v_blocks key off value)
    (again : Lives layout v_blocks other_key off other_value) :
    other_key = key ∧ other_value = value := by
  have same := again.data.symm.trans lives.data
  cases same
  exact ⟨rfl, rfl⟩

/-- An offset is its fields. -/
theorem KVOffset.eq_of_fields (word : off.offset < 2 ^ 64) (other_word : other.offset < 2 ^ 64)
    (block : other.block_number = off.block_number) (page : other.page_number = off.page_number)
    (slot : other.data_offset = off.data_offset) : other = off := by
  rw [← KVOffset.of_parts_eq off word, ← KVOffset.of_parts_eq other other_word, block, page, slot]

/-- A change of pages that leaves the slots of a record alone leaves it. -/
theorem Lives.congr {after : Nat → VPageBlock K V}
    (live : (after off.block_number off.page_number).Live off.data_offset ↔
      (v_blocks off.block_number off.page_number).Live off.data_offset)
    (data : (after off.block_number off.page_number).data off.data_offset =
      (v_blocks off.block_number off.page_number).data off.data_offset) :
    Lives layout after key off value ↔ Lives layout v_blocks key off value := by
  constructor
  · rintro ⟨word, page_lt, slot_lt, alive, here⟩
    exact ⟨word, page_lt, slot_lt, live.mp alive, data ▸ here⟩
  · rintro ⟨word, page_lt, slot_lt, alive, here⟩
    exact ⟨word, page_lt, slot_lt, live.mpr alive, data.trans here⟩

end Lives

theorem VPage.Like.live {page other : VPage K V} (like : page.Like other) (slot : Nat) :
    page.Live slot ↔ other.Live slot := by
  unfold VPage.Live
  rw [like.used, like.free_slots]

def Kept (page after : VPage K V) (slot : Nat) : Prop :=
  after.free_slots slot = false →
    page.free_slots slot = false ∧ (after.data slot).1 = (page.data slot).1

theorem Kept.trans {page middle after : VPage K V} {slot : Nat} (first : Kept page middle slot)
    (second : Kept middle after slot) : Kept page after slot := by
  intro taken
  obtain ⟨between, key⟩ := second taken
  obtain ⟨before, same⟩ := first between
  exact ⟨before, key.trans same⟩

theorem VPage.Fresh.not_live {page : VPage K V} (fresh : page.Fresh) (slot : Nat) :
    ¬page.Live slot := by
  intro live
  have taken := live.2
  rw [fresh.free_slots slot] at taken
  cases taken

namespace Writer

variable {layout : Layout} {writer after : Writer K V} {bn pn : Nat} {key other_key : K}
  {off other : KVOffset} {value other_value : V}

/-! ### One page -/

/-- What a change of one slot does to the records: `now` are those of the slot
afterwards. -/
theorem lives_set_page {page : VPage K V} {slot : Nat}
    (live : ∀ s, s ≠ slot → (page.Live s ↔ (writer.page bn pn).Live s))
    (data : ∀ s, s ≠ slot → page.data s = (writer.page bn pn).data s)
    (elsewhere : ¬(other.block_number = bn ∧ other.page_number = pn ∧ other.data_offset = slot)) :
    Lives layout (writer.set_page bn pn page).v_blocks other_key other other_value ↔
      Lives layout writer.v_blocks other_key other other_value := by
  have pages : (writer.set_page bn pn page).v_blocks other.block_number other.page_number =
      if other.block_number = bn ∧ other.page_number = pn then page
      else writer.v_blocks other.block_number other.page_number :=
    page_set_page page other.block_number other.page_number
  by_cases here : other.block_number = bn ∧ other.page_number = pn
  · have different : other.data_offset ≠ slot := fun same => elsewhere ⟨here.1, here.2, same⟩
    rw [if_pos here] at pages
    apply Lives.congr
    · rw [pages, here.1, here.2]
      exact live _ different
    · rw [pages, here.1, here.2]
      exact data _ different
  · rw [if_neg here] at pages
    apply Lives.congr
    · rw [pages]
    · rw [pages]

/-- A page with the same records. -/
theorem lives_set_page_same {page : VPage K V} (live : ∀ s, page.Live s ↔ (writer.page bn pn).Live s)
    (data : page.data = (writer.page bn pn).data) :
    Lives layout (writer.set_page bn pn page).v_blocks other_key other other_value ↔
      Lives layout writer.v_blocks other_key other other_value := by
  have pages : (writer.set_page bn pn page).v_blocks other.block_number other.page_number =
      if other.block_number = bn ∧ other.page_number = pn then page
      else writer.v_blocks other.block_number other.page_number :=
    page_set_page page other.block_number other.page_number
  split at pages
  · rename_i here
    apply Lives.congr
    · rw [pages, here.1, here.2]
      exact live _
    · rw [pages, here.1, here.2, data]
      rfl
  · apply Lives.congr
    · rw [pages]
    · rw [pages]

/-! ### Freeing a slot -/

/-- What freeing the slot of a record leaves: one page, with the slot free. -/
theorem free_occupied_slot_eq
    (used : (writer.page off.block_number off.page_number).version_lock.is_used = true)
    (unlocked : ¬(writer.v_block_number = off.block_number ∧ writer.v_page_number = off.page_number) →
      (writer.page off.block_number off.page_number).version_lock.is_locked = false) :
    ∃ page : VPage K V,
      writer.free_occupied_slot off = some (writer.set_page off.block_number off.page_number page) ∧
        page.free_slots = Function.update
          (writer.page off.block_number off.page_number).free_slots off.data_offset true ∧
        page.data = (writer.page off.block_number off.page_number).data ∧
        page.version_lock.is_locked =
          (writer.page off.block_number off.page_number).version_lock.is_locked ∧
        page.version_lock.is_used = true := by
  unfold free_occupied_slot
  dsimp only
  split
  · exact ⟨_, rfl, rfl, rfl, rfl, used⟩
  · rename_i elsewhere
    have free := unlocked elsewhere
    have locked := VPage.lock_eq_some.mpr ⟨free, rfl⟩
    rw [locked]
    refine ⟨_, rfl, rfl, rfl, ?_, ?_⟩
    · rw [free]
      exact version_lock_t.released_free (version_lock_t.locked_version free).2
    · exact (version_lock_t.used_kept _).2

/-- Freeing a slot ends the record in it, and no other. -/
theorem lives_freed {page : VPage K V} (lives : Lives layout writer.v_blocks key off value)
    (free_slots : page.free_slots = Function.update
      (writer.page off.block_number off.page_number).free_slots off.data_offset true)
    (data : page.data = (writer.page off.block_number off.page_number).data)
    (used : page.version_lock.is_used = true) :
    Lives layout (writer.set_page off.block_number off.page_number page).v_blocks other_key other
        other_value ↔
      Lives layout writer.v_blocks other_key other other_value ∧ other ≠ off := by
  have before : (writer.page off.block_number off.page_number).version_lock.is_used = true :=
    lives.live.1
  have at_slot : (writer.set_page off.block_number off.page_number page).v_blocks off.block_number
      off.page_number = page := by
    have pages := @page_set_page K V writer off.block_number off.page_number page
      off.block_number off.page_number
    rw [if_pos ⟨rfl, rfl⟩] at pages
    exact pages
  by_cases same : other = off
  · subst same
    constructor
    · intro still
      have taken := still.live.2
      rw [at_slot, free_slots, Function.update_self] at taken
      cases taken
    · intro both
      exact absurd rfl both.2
  · have others : ∀ s, s ≠ off.data_offset →
        (page.Live s ↔ (writer.page off.block_number off.page_number).Live s) := by
      intro s different
      unfold VPage.Live
      rw [used, before, free_slots, Function.update_of_ne different]
    have unchanged : ∀ s, s ≠ off.data_offset →
        page.data s = (writer.page off.block_number off.page_number).data s := by
      intro s _
      rw [data]
    constructor
    · intro still
      have moved := (lives_set_page others unchanged (by
        rintro ⟨block, page_same, slot⟩
        exact same (KVOffset.eq_of_fields lives.word still.word block page_same slot))).mp still
      exact ⟨moved, same⟩
    · rintro ⟨alive, _⟩
      exact (lives_set_page others unchanged (by
        rintro ⟨block, page_same, slot⟩
        exact same (KVOffset.eq_of_fields lives.word alive.word block page_same slot))).mpr alive

/-! ### Taking a slot -/

/-- A move to another page neither ends nor begins a record. -/
theorem Moved.lives (moved : writer.Moved layout after)
    (blank : ∀ key off value, Lives layout writer.v_blocks key off value →
      ¬writer.Ahead layout off.block_number off.page_number) :
    Lives layout after.v_blocks key off value ↔ Lives layout writer.v_blocks key off value := by
  by_cases own : off.block_number = after.v_block_number ∧ off.page_number = after.v_page_number
  · constructor
    · intro alive
      have live := alive.live
      rw [own.1, own.2] at live
      exact absurd live (moved.fresh.not_live _)
    · intro alive
      have ahead := moved.was_ahead
      rw [← own.1, ← own.2] at ahead
      exact absurd ahead (blank key off value alive)
  · have like := moved.like off.block_number off.page_number own
    exact Lives.congr (like.live _) (congrFun like.data _)

/-- What an operation of a client does to the rest: it touches no page of another
client, takes no block that is not free, and new records are on the client's
page. -/
structure Effect (layout : Layout) (locked : Bool) (writer after : Writer K V) : Prop where
  placed : after.Placed layout
  unclaimed : ∀ bn, after.Unclaimed bn → writer.Unclaimed bn
  claims : after.v_block_number = writer.v_block_number ∨
    writer.Unclaimed after.v_block_number
  ahead : ∀ bn pn, pn < layout.num_pages_per_block → after.Ahead layout bn pn →
    writer.Ahead layout bn pn
  next_le : writer.current_block_page.block_number ≤ after.current_block_page.block_number
  locked : after.v_page.version_lock.is_locked = locked
  used : after.v_page.version_lock.is_used = true
  frame : ∀ bn pn, ¬(bn = after.v_block_number ∧ pn = after.v_page_number) →
    pn < layout.num_pages_per_block → ¬writer.Ahead layout bn pn →
    (after.page bn pn).version_lock.is_locked = (writer.page bn pn).version_lock.is_locked ∧
      (after.page bn pn).version_lock.is_used = (writer.page bn pn).version_lock.is_used
  unlocked : ∀ bn pn, ¬(bn = after.v_block_number ∧ pn = after.v_page_number) →
    (writer.page bn pn).version_lock.is_locked = false →
    (after.page bn pn).version_lock.is_locked = false
  came : ∀ key off value, Lives layout after.v_blocks key off value →
    (∃ key value, Lives layout writer.v_blocks key off value) ∨
      off.block_number = after.v_block_number ∧ off.page_number = after.v_page_number

structure Wrote (layout : Layout) (writer after : Writer K V) (key : K) (off : KVOffset) (value : V) :
    Prop extends Effect layout true writer after where
  block : off.block_number = after.v_block_number
  page : off.page_number = after.v_page_number
  written : Lives layout after.v_blocks key off value
  fresh : ∀ other value, ¬Lives layout writer.v_blocks other off value
  lives : ∀ other_key other other_value, other ≠ off →
    (Lives layout after.v_blocks other_key other other_value ↔
      Lives layout writer.v_blocks other_key other other_value)
  kept : ∀ bn pn slot,
    ¬(bn = off.block_number ∧ pn = off.page_number ∧ slot = off.data_offset) →
    Kept (writer.page bn pn) (after.page bn pn) slot

theorem Placed.number_lt (placed : writer.Placed layout) : writer.v_block_number < 2 ^ 45 := by
  have below := placed.block_lt
  have next_le := placed.pool.next_le
  have blocks_lt := placed.pool.blocks_lt
  omega

/-- The client's page has a free slot and takes the record. -/
theorem write_record_wrote {page : VPage K V} {slot : Nat} (placed : writer.Placed layout)
    (unlocked : writer.v_page.version_lock.is_locked = false)
    (used : writer.v_page.version_lock.is_used = true)
    (locks : writer.v_page.lock = some page)
    (found : page.find_first layout.num_slots_per_page = some slot)
    (word : off.offset < 2 ^ 64) (block : off.block_number = writer.v_block_number)
    (page_number : off.page_number = writer.v_page_number) (data_offset : off.data_offset = slot) :
    writer.Wrote layout (writer.set_v_page (page.write_record slot key value)) key off value := by
  obtain ⟨-, rfl⟩ := VPage.lock_eq_some.mp locks
  have page_lt := placed.page_lt
  have slot_free := List.find?_some found
  have slot_lt := List.mem_range.mp (List.mem_of_find?_eq_some found)
  have still_used := (version_lock_t.used_kept writer.v_page.version_lock).1 unlocked
  have own : ∀ page : VPage K V, (writer.set_v_page page).v_blocks off.block_number
      off.page_number = page := by
    intro page
    have pages := @set_v_page_page K V writer page off.block_number off.page_number
    rw [if_pos ⟨block, page_number⟩] at pages
    exact pages
  have lives : ∀ other_key other other_value, other ≠ off →
      (Lives layout (writer.set_v_page (VPage.write_record
        { writer.v_page with version_lock := writer.v_page.version_lock + 1#8 } slot key value)).v_blocks
          other_key other other_value ↔ Lives layout writer.v_blocks other_key other other_value) := by
    intro other_key other other_value different
    have apart : ∀ {pages : Nat → VPageBlock K V}, Lives layout pages other_key other other_value →
        ¬(other.block_number = writer.v_block_number ∧ other.page_number = writer.v_page_number ∧
          other.data_offset = slot) := by
      rintro pages lives ⟨same_block, same_page, same_slot⟩
      exact different (KVOffset.eq_of_fields word lives.word (same_block.trans block.symm)
        (same_page.trans page_number.symm) (same_slot.trans data_offset.symm))
    have others : ∀ s, s ≠ slot → (VPage.Live
        (VPage.write_record { writer.v_page with version_lock := writer.v_page.version_lock + 1#8 }
          slot key value) s ↔ writer.v_page.Live s) := by
      intro s elsewhere
      unfold VPage.Live VPage.write_record
      dsimp only
      rw [still_used, Function.update_of_ne elsewhere]
    have unchanged : ∀ s, s ≠ slot →
        (VPage.write_record { writer.v_page with version_lock := writer.v_page.version_lock + 1#8 }
          slot key value).data s = writer.v_page.data s :=
      fun s elsewhere => Function.update_of_ne elsewhere _ _
    constructor
    · intro lives
      exact (lives_set_page others unchanged (apart lives)).mp lives
    · intro lives
      exact (lives_set_page others unchanged (apart lives)).mpr lives
  constructor
  · constructor
    · exact placed.set_page _
    · exact fun _ unclaimed => unclaimed
    · exact .inl rfl
    · exact fun _ _ _ ahead => ahead
    · exact Nat.le_refl _
    · unfold v_page
      rw [set_v_page_page, if_pos ⟨rfl, rfl⟩]
      exact (version_lock_t.locked_version unlocked).2
    · unfold v_page
      rw [set_v_page_page, if_pos ⟨rfl, rfl⟩]
      exact still_used.trans used
    · intro bn pn elsewhere
      have here : ¬(bn = writer.v_block_number ∧ pn = writer.v_page_number) := elsewhere
      rw [set_v_page_page, if_neg here]
      exact fun _ _ => ⟨rfl, rfl⟩
    · intro bn pn elsewhere
      have here : ¬(bn = writer.v_block_number ∧ pn = writer.v_page_number) := elsewhere
      rw [set_v_page_page, if_neg here]
      exact fun free => free
    · intro other_key other other_value alive
      by_cases same : other = off
      · right
        rw [same]
        exact ⟨block, page_number⟩
      · exact .inl ⟨other_key, other_value, (lives other_key other other_value same).mp alive⟩
  · exact block
  · exact page_number
  · constructor
    · exact word
    · rw [page_number]
      exact page_lt
    · rw [data_offset]
      exact slot_lt
    · rw [own, data_offset]
      exact ⟨still_used.trans used, Function.update_self ..⟩
    · rw [own, data_offset]
      exact Function.update_self ..
  · intro other other_value lives
    have taken := lives.live.2
    rw [block, page_number, data_offset] at taken
    have free : writer.v_page.free_slots slot = true := slot_free
    unfold v_page Writer.page at free
    rw [taken] at free
    cases free
  · exact lives
  · intro bn pn s elsewhere taken
    rw [block, page_number, data_offset] at elsewhere
    rw [set_v_page_page] at taken ⊢
    split at taken
    · rename_i here
      have different : s ≠ slot := fun same => elsewhere ⟨here.1, here.2, same⟩
      rw [if_pos here, here.1, here.2]
      unfold VPage.write_record at taken ⊢
      dsimp only at taken ⊢
      rw [Function.update_of_ne different] at taken ⊢
      exact ⟨taken, rfl⟩
    · rename_i away
      rw [if_neg away]
      exact ⟨taken, rfl⟩

theorem find_first_eq_none {num_slots_per_page : Nat} {page : VPage K V} :
    page.find_first num_slots_per_page = none ↔
      ∀ slot < num_slots_per_page, page.free_slots slot = false := by
  unfold VPage.find_first
  rw [List.find?_eq_none]
  simp only [List.mem_range, Bool.not_eq_true]

/-- What one try to take a slot leaves. -/
theorem claim_slot_cases {rand : Nat} {claimed : Option KVOffset} (placed : writer.Placed layout)
    (unlocked : writer.v_page.version_lock.is_locked = false)
    (used : writer.v_page.version_lock.is_used = true)
    (tried : writer.claim_slot layout rand key value = some (claimed, after)) :
    (∃ off, claimed = some off ∧ writer.Wrote layout after key off value) ∨
      claimed = none ∧ writer.Moved layout after := by
  unfold claim_slot at tried
  rw [Option.bind_eq_bind, Option.bind_eq_some_iff] at tried
  obtain ⟨page, locks, tried⟩ := tried
  split at tried
  · right
    rw [Option.bind_eq_bind, Option.bind_eq_some_iff] at tried
    obtain ⟨last, moves, same⟩ := tried
    obtain ⟨rfl, rfl⟩ := Prod.mk.inj (Option.some.inj same)
    obtain ⟨-, rfl⟩ := VPage.lock_eq_some.mp locks
    refine ⟨rfl, ?_⟩
    have moved := update_access_moved (placed.set_page _) moves
    have like : ∀ bn pn, ((writer.set_v_page (VPage.unlock
        { writer.v_page with version_lock := writer.v_page.version_lock + 1#8 })).page bn pn).Like
          (writer.page bn pn) := by
      intro bn pn
      rw [set_v_page_page]
      split
      · rename_i here
        rw [here.1, here.2]
        refine ⟨rfl, rfl, ?_, ?_⟩
        · exact (version_lock_t.released_free (version_lock_t.locked_version unlocked).2).trans
            unlocked.symm
        · exact (version_lock_t.used_kept _).2.trans used.symm
      · exact .refl _
    exact ⟨moved.placed, moved.was_ahead, moved.fresh,
      fun bn pn elsewhere => (moved.like bn pn elsewhere).trans (like bn pn), moved.ahead,
      moved.unclaimed, moved.claims, moved.next_le⟩
  · rename_i slot found
    left
    obtain ⟨named, rfl⟩ := Prod.mk.inj (Option.some.inj tried)
    have slot_lt := List.mem_range.mp (List.mem_of_find?_eq_some found)
    have few := layout.pages_le
    have slots_le := layout.slots_le
    have page_lt := placed.page_lt
    have block := @KVOffset.block_number_of_parts writer.v_block_number writer.v_page_number slot
      placed.number_lt
    have page_number := @KVOffset.page_number_of_parts writer.v_block_number
      writer.v_page_number slot (by omega)
    have data_offset := @KVOffset.data_offset_of_parts writer.v_block_number
      writer.v_page_number slot (by omega)
    have word := @KVOffset.of_parts_lt writer.v_block_number writer.v_page_number slot
    refine ⟨_, named.symm, ?_⟩
    exact write_record_wrote placed unlocked used locks found word block page_number data_offset

/-- A slot is taken after a move to another page. -/
theorem Moved.wrote {middle : Writer K V} (moved : writer.Moved layout middle)
    (blank : ∀ key off value, Lives layout writer.v_blocks key off value →
      ¬writer.Ahead layout off.block_number off.page_number)
    (wrote : middle.Wrote layout after key off value) : writer.Wrote layout after key off value := by
  constructor
  · constructor
    · exact wrote.placed
    · exact fun bn unclaimed => moved.unclaimed bn (wrote.unclaimed bn unclaimed)
    · rcases wrote.claims with same | fresh
      · rcases moved.claims with stays | fresh
        · exact .inl (same.trans stays)
        · right
          rw [same]
          exact fresh
      · exact .inr (moved.unclaimed _ fresh)
    · exact fun bn pn inside ahead => moved.ahead bn pn inside (wrote.ahead bn pn inside ahead)
    · exact Nat.le_trans moved.next_le wrote.next_le
    · exact wrote.locked
    · exact wrote.used
    · intro bn pn elsewhere inside settled
      have other : ¬(bn = middle.v_block_number ∧ pn = middle.v_page_number) := by
        rintro ⟨rfl, rfl⟩
        exact settled moved.was_ahead
      have like := moved.like bn pn other
      have kept := wrote.frame bn pn elsewhere inside
        (fun ahead => settled (moved.ahead bn pn inside ahead))
      exact ⟨kept.1.trans like.locked, kept.2.trans like.used⟩
    · intro bn pn elsewhere free
      apply wrote.unlocked bn pn elsewhere
      by_cases own : bn = middle.v_block_number ∧ pn = middle.v_page_number
      · rw [own.1, own.2]
        exact moved.fresh.unlocked
      · exact (moved.like bn pn own).locked.trans free
    · intro other_key other other_value alive
      rcases wrote.came other_key other other_value alive with ⟨third, third_value, before⟩ | own
      · exact .inl ⟨third, third_value, (moved.lives blank).mp before⟩
      · exact .inr own
  · exact wrote.block
  · exact wrote.page
  · exact wrote.written
  · intro other other_value lives
    exact wrote.fresh other other_value ((moved.lives blank).mpr lives)
  · intro other_key other other_value different
    rw [wrote.lives other_key other other_value different, moved.lives blank]
  · intro bn pn slot elsewhere taken
    obtain ⟨before, data⟩ := wrote.kept bn pn slot elsewhere taken
    by_cases own : bn = middle.v_block_number ∧ pn = middle.v_page_number
    · rw [own.1, own.2] at before
      have free := moved.fresh.free_slots slot
      unfold v_page at free
      rw [before] at free
      cases free
    · have like := moved.like bn pn own
      rw [like.free_slots] at before
      exact ⟨before, data.trans (congrArg Prod.fst (congrFun like.data slot))⟩

/-- A record does not lie on a page ahead after a move either. -/
theorem Moved.blank (moved : writer.Moved layout after)
    (blank : ∀ key off value, Lives layout writer.v_blocks key off value →
      ¬writer.Ahead layout off.block_number off.page_number) (key : K) (off : KVOffset) (value : V)
    (lives : Lives layout after.v_blocks key off value) :
    ¬after.Ahead layout off.block_number off.page_number := by
  intro ahead
  have before := (moved.lives blank).mp lives
  exact blank key off value before (moved.ahead _ _ before.page_lt ahead)

/-! ### Effects -/

theorem Effect.refl {locked : Bool} (placed : writer.Placed layout)
    (own : writer.v_page.version_lock.is_locked = locked)
    (used : writer.v_page.version_lock.is_used = true) : writer.Effect layout locked writer :=
  ⟨placed, fun _ unclaimed => unclaimed, .inl rfl, fun _ _ _ ahead => ahead, Nat.le_refl _, own, used,
    fun _ _ _ _ _ => ⟨rfl, rfl⟩, fun _ _ _ free => free,
    fun key _ value alive => .inl ⟨key, value, alive⟩⟩

theorem page_set_page_kept {page : VPage K V} (kept : ∀ s, Kept (writer.page bn pn) page s)
    (bn' pn' slot : Nat) :
    Kept (writer.page bn' pn') ((writer.set_page bn pn page).page bn' pn') slot := by
  rw [page_set_page]
  split
  · rename_i here
    rw [here.1, here.2]
    exact kept slot
  · exact fun taken => ⟨taken, rfl⟩

/-- A change of the slots of a page that takes none. -/
theorem Effect.set_page {locked : Bool} {page : VPage K V} (effect : writer.Effect layout locked after)
    (lock : page.version_lock.is_locked = (after.page bn pn).version_lock.is_locked)
    (used : page.version_lock.is_used = (after.page bn pn).version_lock.is_used)
    (live : ∀ s, page.Live s → (after.page bn pn).Live s) :
    writer.Effect layout locked (after.set_page bn pn page) := by
  have locks : ∀ bn' pn', ((after.set_page bn pn page).page bn' pn').version_lock.is_locked =
        (after.page bn' pn').version_lock.is_locked ∧
      ((after.set_page bn pn page).page bn' pn').version_lock.is_used =
        (after.page bn' pn').version_lock.is_used := by
    intro bn' pn'
    rw [page_set_page]
    split
    · rename_i here
      rw [here.1, here.2]
      exact ⟨lock, used⟩
    · exact ⟨rfl, rfl⟩
  constructor
  · exact effect.placed.set_page page
  · exact effect.unclaimed
  · exact effect.claims
  · exact effect.ahead
  · exact effect.next_le
  · exact (locks _ _).1.trans effect.locked
  · exact (locks _ _).2.trans effect.used
  · intro bn' pn' elsewhere inside settled
    obtain ⟨same_lock, same_used⟩ := effect.frame bn' pn' elsewhere inside settled
    exact ⟨(locks bn' pn').1.trans same_lock, (locks bn' pn').2.trans same_used⟩
  · intro bn' pn' elsewhere free
    exact (locks bn' pn').1.trans (effect.unlocked bn' pn' elsewhere free)
  · intro key off value alive
    have still : (after.page off.block_number off.page_number).Live off.data_offset := by
      have there := alive.live
      have pages := @page_set_page K V after bn pn page off.block_number off.page_number
      unfold Writer.page at pages
      rw [pages] at there
      split at there
      · rename_i here
        rw [here.1, here.2]
        exact live _ there
      · exact there
    exact effect.came _ off _ ⟨alive.word, alive.page_lt, alive.slot_lt, still, rfl⟩

structure Freed (layout : Layout) (writer : Writer K V) (off : KVOffset) (after : Writer K V) :
    Prop where
  lives : ∀ other_key other other_value, Lives layout after.v_blocks other_key other other_value ↔
    Lives layout writer.v_blocks other_key other other_value ∧ other ≠ off
  kept : ∀ bn pn slot, Kept (writer.page bn pn) (after.page bn pn) slot
  effect : ∀ {locked : Bool} {before : Writer K V}, before.Effect layout locked writer →
    before.Effect layout locked after

theorem set_page_freed {page : VPage K V} (lives : Lives layout writer.v_blocks key off value)
    (free_slots : page.free_slots = Function.update
      (writer.page off.block_number off.page_number).free_slots off.data_offset true)
    (data : page.data = (writer.page off.block_number off.page_number).data)
    (lock : page.version_lock.is_locked =
      (writer.page off.block_number off.page_number).version_lock.is_locked)
    (used : page.version_lock.is_used = true) :
    writer.Freed layout off (writer.set_page off.block_number off.page_number page) := by
  have taken : ∀ s, page.free_slots s = false →
      (writer.page off.block_number off.page_number).free_slots s = false := by
    intro s here
    rw [free_slots, Function.update_apply] at here
    split at here
    · cases here
    · exact here
  constructor
  · exact fun _ _ _ => lives_freed lives free_slots data used
  · apply page_set_page_kept
    intro s here
    rw [data]
    exact ⟨taken s here, rfl⟩
  · intro locked before effect
    apply effect.set_page lock
    · exact used.trans lives.live.1.symm
    · exact fun s live => ⟨lives.live.1, taken s live.2⟩

/-- What writing another value into the slot of a record does. -/
theorem lives_set_page_value {page : VPage K V} {new : V}
    (lives : Lives layout writer.v_blocks key off value)
    (free_slots : page.free_slots = (writer.page off.block_number off.page_number).free_slots)
    (data : page.data = Function.update (writer.page off.block_number off.page_number).data
      off.data_offset (key, new))
    (used : page.version_lock.is_used = true) :
    Lives layout (writer.set_page off.block_number off.page_number page).v_blocks other_key other
        other_value ↔
      other_key = key ∧ other = off ∧ other_value = new ∨
        other ≠ off ∧ Lives layout writer.v_blocks other_key other other_value := by
  have at_slot : (writer.set_page off.block_number off.page_number page).v_blocks off.block_number
      off.page_number = page := by
    have pages := @page_set_page K V writer off.block_number off.page_number page
      off.block_number off.page_number
    rw [if_pos ⟨rfl, rfl⟩] at pages
    exact pages
  have live : ∀ s, page.Live s ↔ (writer.page off.block_number off.page_number).Live s := by
    intro s
    have before : (writer.page off.block_number off.page_number).version_lock.is_used = true :=
      lives.live.1
    unfold VPage.Live
    rw [used, before, free_slots]
  by_cases same : other = off
  · subst same
    constructor
    · intro alive
      have here := alive.data
      rw [at_slot, data, Function.update_self] at here
      cases here
      exact .inl ⟨rfl, rfl, rfl⟩
    · rintro (⟨rfl, -, rfl⟩ | ⟨different, -⟩)
      · refine ⟨lives.word, lives.page_lt, lives.slot_lt, ?_, ?_⟩
        · rw [at_slot, live]
          exact lives.live
        · rw [at_slot, data, Function.update_self]
      · exact absurd rfl different
  · have unchanged : ∀ s, s ≠ off.data_offset →
        page.data s = (writer.page off.block_number off.page_number).data s := by
      intro s different
      rw [data, Function.update_of_ne different]
    have apart : ∀ {pages : Nat → VPageBlock K V}, Lives layout pages other_key other other_value →
        ¬(other.block_number = off.block_number ∧ other.page_number = off.page_number ∧
          other.data_offset = off.data_offset) := by
      rintro pages alive ⟨block, page_same, slot⟩
      exact same (KVOffset.eq_of_fields lives.word alive.word block page_same slot)
    constructor
    · intro alive
      exact .inr ⟨same, (lives_set_page (fun s _ => live s) unchanged (apart alive)).mp alive⟩
    · rintro (⟨-, here, -⟩ | ⟨-, alive⟩)
      · exact absurd here same
      · exact (lives_set_page (fun s _ => live s) unchanged (apart alive)).mpr alive

theorem free_occupied_slot_freed (lives : Lives layout writer.v_blocks key off value)
    (unlocked : ¬(writer.v_block_number = off.block_number ∧ writer.v_page_number = off.page_number) →
      (writer.page off.block_number off.page_number).version_lock.is_locked = false) :
    ∃ after, writer.free_occupied_slot off = some after ∧ writer.Freed layout off after := by
  obtain ⟨page, freed, free_slots, data, lock, used⟩ := free_occupied_slot_eq lives.live.1 unlocked
  exact ⟨_, freed, set_page_freed lives free_slots data lock used⟩

theorem unlock_v_page_kept (bn pn slot : Nat) :
    Kept (writer.page bn pn) (writer.unlock_v_page.page bn pn) slot := by
  have same : ∀ s, Kept writer.v_page writer.v_page.unlock s := fun _ taken => ⟨taken, rfl⟩
  exact page_set_page_kept same bn pn slot

theorem unlock_v_page_lives (used : writer.v_page.version_lock.is_used = true) :
    Lives layout writer.unlock_v_page.v_blocks key off value ↔
      Lives layout writer.v_blocks key off value := by
  apply lives_set_page_same
  · intro s
    have still : writer.v_page.unlock.version_lock.is_used = true := (version_lock_t.used_kept _).2
    unfold VPage.Live
    rw [still]
    unfold v_page at used
    rw [used]
    rfl
  · rfl

/-- The end of an operation that holds the lock of the client's page. -/
theorem Effect.unlock (effect : writer.Effect layout true after) :
    writer.Effect layout false after.unlock_v_page := by
  have released : after.v_page.unlock.version_lock.is_locked = false :=
    version_lock_t.released_free effect.locked
  have used : after.v_page.unlock.version_lock.is_used = after.v_page.version_lock.is_used :=
    (version_lock_t.used_kept _).2.trans effect.used.symm
  have others : ∀ bn pn, ¬(bn = after.v_block_number ∧ pn = after.v_page_number) →
      after.unlock_v_page.page bn pn = after.page bn pn := by
    intro bn pn elsewhere
    unfold unlock_v_page
    rw [set_v_page_page, if_neg elsewhere]
  have own : after.unlock_v_page.page after.v_block_number after.v_page_number = after.v_page.unlock := by
    unfold unlock_v_page
    rw [set_v_page_page, if_pos ⟨rfl, rfl⟩]
  constructor
  · exact effect.placed.set_page _
  · exact effect.unclaimed
  · exact effect.claims
  · exact effect.ahead
  · exact effect.next_le
  · exact (congrArg (fun page => page.version_lock.is_locked) own).trans released
  · exact (congrArg (fun page => page.version_lock.is_used) own).trans (used.trans effect.used)
  · intro bn pn elsewhere inside settled
    rw [others bn pn elsewhere]
    exact effect.frame bn pn elsewhere inside settled
  · intro bn pn elsewhere free
    rw [others bn pn elsewhere]
    exact effect.unlocked bn pn elsewhere free
  · intro key off value alive
    exact effect.came key off value ((unlock_v_page_lives effect.used).mp alive)

/-- A client begins on a page of a block that no one has. -/
theorem Entered.effect (entered : writer.Entered layout after) :
    (⟨writer.toPool, after.toPosition⟩ : Writer K V).Effect layout false after := by
  constructor
  · exact entered.placed
  · exact entered.unclaimed
  · exact .inl rfl
  · rintro bn pn inside (unclaimed | later)
    · exact .inl (entered.unclaimed bn unclaimed)
    · left
      rw [later.1]
      exact entered.was
  · exact entered.next_le
  · exact entered.fresh.unlocked
  · exact entered.fresh.used
  · intro bn pn elsewhere _ _
    have like := entered.like bn pn elsewhere
    exact ⟨like.locked, like.used⟩
  · intro bn pn elsewhere free
    exact (entered.like bn pn elsewhere).locked.trans free
  · intro key off value alive
    by_cases own : off.block_number = after.v_block_number ∧ off.page_number = after.v_page_number
    · exact .inr own
    · have like := entered.like off.block_number off.page_number own
      exact .inl ⟨key, value, (Lives.congr (like.live _) (congrFun like.data _)).mp alive⟩

end Writer

end Hiom.Viper.Records
