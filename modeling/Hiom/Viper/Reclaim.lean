import Hiom.Lib.Loop
import Hiom.Viper.Map

/-!
Reclamation: the records of blocks that no client has are put elsewhere, and
the blocks are handed out again. It changes nothing that a client can see, as
long as the marks of the blocks say what they are meant to.
-/

namespace Hiom.Viper.Records.Plain

variable {K V : Type} [DecidableEq K]

/-! ### The condition -/

section Condition

variable (config : Config K) (id : Nat)

def SlotSettles (rand : Nat → Nat) (bn pn : Nat) (state : State K V) (slot : Nat) : Prop :=
  let page := state.pool.v_blocks bn pn
  page.free_slots slot = false → ∀ position, state.clients id = some position →
    PutSettles config (rand slot) (page.data slot).1 (page.data slot).2 (state.client position)

def PageSettles (rand : Nat → Nat → Nat) (bn : Nat) (state : State K V) (pn : Nat) : Prop :=
  ∀ page, (state.pool.v_blocks bn pn).lock = some page →
    Along (fun state slot => State.compact_slot config id (rand pn slot) bn pn slot state)
      (SlotSettles config id (rand pn) bn pn) (List.range config.layout.num_slots_per_page)
      (state.set_page bn pn page)

/-- A block that a client has is marked as owned, if it has slots enough to be
reclaimed. One that is reclaimed is not in the queue of free blocks, and all
its pages have been initialised. -/
def BlockSettles (rand : Nat → Nat → Nat → Nat) (state : State K V) (bn : Nat) : Prop :=
  let block := state.pool.v_blocks bn
  (∀ other position, state.clients other = some position → position.v_block_number = bn →
    config.free_threshold < State.block_free_slots config.layout block →
    State.is_owned block = true) ∧
  (State.eligible config block = true →
    bn ∉ state.pool.free_blocks ∧
    (∀ pn < config.layout.num_pages_per_block, (block pn).version_lock.is_used = true) ∧
    Along (fun state pn => State.compact_page config id (rand bn) bn pn state)
      (PageSettles config id (rand bn) bn) (List.range config.layout.num_pages_per_block) state)

def ReclaimSettles (first_rand : Nat) (rand : Nat → Nat → Nat → Nat) (state : State K V) : Prop :=
  ∀ next, state.connect config id first_rand = some next →
    Along (fun state bn => State.reclaim_block config id rand bn state)
      (BlockSettles config id rand) (List.range state.pool.current_block_page.block_number) next

def Careful (state : State K V) : Action K V → Prop
  | .call id call => ∀ position, state.clients id = some position →
      Steady config (state.client position) call
  | .reclaim id first_rand rand => ReclaimSettles config id first_rand rand state
  | _ => True

end Condition

/-! ### A reclamation under way -/

section Compaction

variable {config : Config K} {id bn pn : Nat} {held : Option (Nat × Nat)}
  {start state middle next : State K V}

structure Undisturbed (layout : Layout) (id : Nat) (start state : State K V) : Prop where
  log : state.log = start.log
  clients : ∀ other, other ≠ id → state.clients other = start.clients other
  records : ∀ other position, other ≠ id → start.clients other = some position →
    ∀ key off value, off.block_number = position.v_block_number →
      (Lives layout state.pool.v_blocks key off value ↔
        Lives layout start.pool.v_blocks key off value)
  next_le : start.pool.current_block_page.block_number ≤ state.pool.current_block_page.block_number

omit [DecidableEq K] in
theorem Undisturbed.refl (layout : Layout) (id : Nat) (state : State K V) :
    Undisturbed layout id state state :=
  ⟨rfl, fun _ _ => rfl, fun _ _ _ _ _ _ _ _ => .rfl, Nat.le_refl _⟩

omit [DecidableEq K] in
theorem Undisturbed.trans {layout : Layout} (first : Undisturbed layout id start middle)
    (second : Undisturbed layout id middle next) : Undisturbed layout id start next := by
  constructor
  · exact second.log.trans first.log
  · exact fun other different => (second.clients other different).trans (first.clients other different)
  · intro other position different here key off value block
    have still : middle.clients other = some position := (first.clients other different).trans here
    exact (second.records other position different still key off value block).trans
      (first.records other position different here key off value block)
  · exact Nat.le_trans first.next_le second.next_le

structure Compacting (config : Config K) (id bn : Nat) (held : Option (Nat × Nat))
    (start state : State K V) : Prop where
  invariant : Invariant config held state
  away : ∀ other position, state.clients other = some position → position.v_block_number ≠ bn
  claimed : ¬state.pool.Unclaimed bn
  used : ∀ pn < config.layout.num_pages_per_block,
    (state.pool.v_blocks bn pn).version_lock.is_used = true
  rest : Undisturbed config.layout id start state

def Emptied (config : Config K) (bn pn slot : Nat) (state : State K V) : Prop :=
  ∀ key off value, Lives config.layout state.pool.v_blocks key off value →
    ¬(off.block_number = bn ∧ off.page_number = pn ∧ off.data_offset = slot)

theorem Compacting.number_lt (compacting : Compacting config id bn held start state) : bn < 2 ^ 45 := by
  have below : bn < state.pool.current_block_page.block_number :=
    Nat.lt_of_not_le (fun above => compacting.claimed (.inl above))
  have next_le := compacting.invariant.shape.pool.next_le
  have blocks_lt := compacting.invariant.shape.pool.blocks_lt
  omega

/-- What is put elsewhere from a slot leaves it empty. -/
theorem Compacting.slot {slot : Nat} {rand : Nat → Nat}
    (compacting : Compacting config id bn (some (bn, pn)) start state)
    (slot_lt : slot < config.layout.num_slots_per_page)
    (settles : SlotSettles config id rand bn pn state slot)
    (stepped : state.compact_slot config id (rand slot) bn pn slot = some next) :
    Compacting config id bn (some (bn, pn)) start next ∧ Emptied config bn pn slot next ∧
      ∀ pn' other, Emptied config bn pn' other state → Emptied config bn pn' other next := by
  have number_lt := compacting.number_lt
  obtain ⟨invariant, away, claimed, used, rest⟩ := compacting
  obtain ⟨page_lt, -, -, -⟩ := invariant.shape.locked bn pn rfl
  unfold State.compact_slot at stepped
  dsimp only at stepped
  split at stepped
  · rename_i free
    cases stepped
    refine ⟨⟨invariant, away, claimed, used, rest⟩, ?_, fun _ _ emptied => emptied⟩
    rintro key off value alive ⟨block, page, here⟩
    have taken := alive.live.2
    rw [block, page, here, free] at taken
    cases taken
  · rename_i taken
    rw [Bool.not_eq_true] at taken
    rw [Option.bind_eq_bind, Option.bind_eq_some_iff] at stepped
    obtain ⟨position, here, stepped⟩ := stepped
    rw [Option.bind_eq_bind, Option.bind_eq_some_iff] at stepped
    obtain ⟨⟨is_new_item, after⟩, returned, same⟩ := stepped
    obtain ⟨off, block, page, data_offset, alive⟩ :=
      Lives.of_live number_lt page_lt slot_lt ⟨used pn page_lt, taken⟩
    obtain ⟨key, value, record⟩ : ∃ key value,
        (state.pool.v_blocks bn pn).data slot = (key, value) := ⟨_, _, rfl⟩
    rw [record] at alive
    obtain ⟨valid, -, mapped⟩ := invariant.agrees.indexed key off value alive
    have puts := settles taken position here
    rw [record] at puts returned
    obtain ⟨new, old_offset, writer, stored, left⟩ :=
      put_keep_spec (invariant.shape.ready here) invariant.agrees valid puts returned
    have wrote := stored.wrote
    have single : old_offset = off := by
      rcases stored.old invariant.agrees valid with ⟨old_value, -, was, -⟩ | ⟨missing, -⟩
      · exact invariant.agrees.single _ _ _ _ _ alive was
      · rw [mapped] at missing
        cases missing
    have new_off : off ≠ new := by
      rintro rfl
      exact wrote.fresh key value alive
    have still : Lives config.layout writer.unlock_v_page.v_blocks key off value :=
      (Writer.unlock_v_page_lives wrote.used).mpr ((wrote.lives key off value new_off).mpr alive)
    have freed : writer.unlock_v_page.Freed config.layout off
        (writer.unlock_v_page.set_page off.block_number off.page_number
          ((writer.unlock_v_page.page off.block_number off.page_number).invalidate_record
            off.data_offset)) :=
      Writer.set_page_freed still rfl rfl rfl still.live.1
    have effect := freed.effect wrote.toEffect.unlock
    rw [block, page, data_offset] at freed effect
    have moved : next = state.returned id ⟨writer.unlock_v_page.set_page bn pn
        ((writer.unlock_v_page.page bn pn).invalidate_record slot), after.map_⟩ := by
      cases same
      rw [← left]
      rfl
    have shape : Shape config.layout (some (bn, pn)) (state.returned id
        ⟨writer.unlock_v_page.set_page bn pn
          ((writer.unlock_v_page.page bn pn).invalidate_record slot), after.map_⟩) :=
      invariant.shape.client_returned here effect
    obtain ⟨-, -, still_claimed, still_away⟩ := shape.locked bn pn rfl
    have new_block : new.block_number = writer.v_block_number := wrote.block
    have own_away : writer.v_block_number ≠ bn :=
      still_away id writer.toPosition (Function.update_self ..)
    -- What lives afterwards lived before, or is the record in its new place.
    have lives : ∀ other_key other other_value,
        Lives config.layout (writer.unlock_v_page.set_page bn pn
          ((writer.unlock_v_page.page bn pn).invalidate_record slot)).v_blocks other_key other
            other_value ↔
          Lives config.layout writer.v_blocks other_key other other_value ∧ other ≠ off := by
      intro other_key other other_value
      rw [freed.lives, Writer.unlock_v_page_lives wrote.used]
    have before : ∀ other_key other other_value, other.block_number ≠ writer.v_block_number →
        other ≠ off →
        (Lives config.layout (writer.unlock_v_page.set_page bn pn
          ((writer.unlock_v_page.page bn pn).invalidate_record slot)).v_blocks other_key other
            other_value ↔
          Lives config.layout state.pool.v_blocks other_key other other_value) := by
      intro other_key other other_value elsewhere different
      have not_new : other ≠ new := by
        rintro rfl
        exact elsewhere new_block
      rw [lives, wrote.lives other_key other other_value not_new]
      exact ⟨fun both => both.1, fun was => ⟨was, different⟩⟩
    rw [moved]
    refine ⟨⟨⟨shape, ?_, invariant.truthful⟩, still_away, still_claimed, ?_, rest.trans ?_⟩, ?_, ?_⟩
    · have done := stored.agrees invariant.agrees valid
        (fun other_key other other_value => by
          rw [single]
          exact lives other_key other other_value)
        (fun bn' pn' s => (Writer.unlock_v_page_kept bn' pn' s).trans (freed.kept bn' pn' s))
      rw [← mapped, Function.update_eq_self] at done
      exact done
    · intro pn' inside
      have same_used := (effect.frame bn pn' (fun own => own_away own.1.symm) inside (by
        rintro (unclaimed | later)
        · exact claimed unclaimed
        · exact away id position here later.1.symm)).2
      exact same_used.trans (used pn' inside)
    · constructor
      · rfl
      · exact fun other different => Function.update_of_ne different _ _
      · intro other other_position different there other_key other_off other_value other_block
        have still_there : (state.returned id ⟨writer.unlock_v_page.set_page bn pn
            ((writer.unlock_v_page.page bn pn).invalidate_record slot), after.map_⟩).clients other =
              some other_position :=
          (Function.update_of_ne different _ _).trans there
        have apart := shape.apart id writer.toPosition other other_position
          (Function.update_self ..) still_there different
        apply before
        · rw [other_block]
          exact apart
        · rintro rfl
          exact away other other_position there (other_block.symm.trans block)
      · exact effect.next_le
    · rintro other_key other other_value lives_after ⟨other_block, other_page, other_slot⟩
      have both := (lives other_key other other_value).mp lives_after
      exact both.2 (KVOffset.eq_of_fields alive.word both.1.word (other_block.trans block.symm)
        (other_page.trans page.symm) (other_slot.trans data_offset.symm))
    · rintro pn' s emptied other_key other other_value lives_after ⟨other_block, other_page, other_slot⟩
      have both := (lives other_key other other_value).mp lives_after
      have was := (before other_key other other_value (by
        rw [other_block]
        exact own_away.symm) both.2).mp lives_after
      exact emptied other_key other other_value was ⟨other_block, other_page, other_slot⟩

omit [DecidableEq K] in
theorem set_page_page (page : VPage K V) (bn' pn' : Nat) :
    (state.set_page bn pn page).pool.v_blocks bn' pn' =
      if bn' = bn ∧ pn' = pn then page else state.pool.v_blocks bn' pn' :=
  @Writer.page_set_page K V (state.writer ⟨0, 0, 0⟩) bn pn page bn' pn'

/-- The lock of a page is taken for its compaction, or released after it. -/
theorem Compacting.relock (compacting : Compacting config id bn held start state)
    (now : Option (Nat × Nat)) (page : VPage K V)
    (free_slots : page.free_slots = (state.pool.v_blocks bn pn).free_slots)
    (data : page.data = (state.pool.v_blocks bn pn).data)
    (inside : pn < config.layout.num_pages_per_block) (still : page.version_lock.is_used = true)
    (before : ∀ bn' pn', held = some (bn', pn') → bn' = bn ∧ pn' = pn)
    (lock : now = none ∧ page.version_lock.is_locked = false ∨
      now = some (bn, pn) ∧ page.version_lock.is_locked = true) :
    Compacting config id bn now start (state.set_page bn pn page) ∧
      ∀ pn' slot, Emptied config bn pn' slot state →
        Emptied config bn pn' slot (state.set_page bn pn page) := by
  obtain ⟨⟨shape, agrees, truthful⟩, away, claimed, used, rest⟩ := compacting
  have was_used := used pn inside
  have used_same : ∀ bn' pn', ((state.set_page bn pn page).pool.v_blocks bn' pn').version_lock.is_used =
      (state.pool.v_blocks bn' pn').version_lock.is_used := by
    intro bn' pn'
    rw [set_page_page]
    split
    · rename_i here
      rw [here.1, here.2, still, was_used]
    · rfl
  have lives : ∀ key off value,
      Lives config.layout (state.set_page bn pn page).pool.v_blocks key off value ↔
        Lives config.layout state.pool.v_blocks key off value := by
    intro key off value
    apply @Writer.lives_set_page_same K V config.layout (state.writer ⟨0, 0, 0⟩)
    · intro s
      have was : ((state.writer ⟨0, 0, 0⟩).page bn pn).version_lock.is_used = true := was_used
      unfold VPage.Live
      rw [still, was, free_slots]
      rfl
    · exact data
  have kept : ∀ bn' pn' s, Kept (state.pool.v_blocks bn' pn')
      ((state.set_page bn pn page).pool.v_blocks bn' pn') s := by
    apply @Writer.page_set_page_kept K V (state.writer ⟨0, 0, 0⟩)
    intro s taken
    rw [free_slots] at taken
    rw [data]
    exact ⟨taken, rfl⟩
  refine ⟨⟨⟨?_, ?_, truthful⟩, away, claimed, ?_, rest.trans ?_⟩, ?_⟩
  · have sound := shape.pool
    constructor
    · exact ⟨sound.next_page_lt, sound.next_le, sound.blocks_lt, sound.free_lt, sound.free_nodup⟩
    · intro other position here
      have placed := shape.placed other position here
      exact ⟨⟨sound.next_page_lt, sound.next_le, sound.blocks_lt, sound.free_lt, sound.free_nodup⟩,
        placed.page_lt, placed.processed_lt, placed.claimed⟩
    · intro other position here
      exact (used_same _ _).trans (shape.used other position here)
    · exact shape.apart
    · intro key off value alive
      exact shape.claimed key off value ((lives key off value).mp alive)
    · intro other position here key off value alive
      exact shape.blank other position here key off value ((lives key off value).mp alive)
    · intro bn' pn' free
      rw [set_page_page]
      split
      · rename_i here
        rcases lock with ⟨-, unlocked⟩ | ⟨same, -⟩
        · exact unlocked
        · rw [here.1, here.2] at free
          exact absurd same free
      · rename_i elsewhere
        apply shape.unlocked
        exact fun same => elsewhere (before bn' pn' same)
    · intro bn' pn' holds
      rcases lock with ⟨nothing, -⟩ | ⟨same, locked⟩
      · rw [nothing] at holds
        cases holds
      · rw [same] at holds
        cases holds
        refine ⟨inside, ?_, claimed, away⟩
        rw [set_page_page, if_pos ⟨rfl, rfl⟩]
        exact locked
  · apply agrees.congr lives
    exact fun key off passes => key_check_less (kept _ _ _) passes
  · intro pn' below
    exact (used_same bn pn').trans (used pn' below)
  · exact ⟨rfl, fun _ _ => rfl, fun _ _ _ _ key off value _ => lives key off value, Nat.le_refl _⟩
  · intro pn' slot emptied key off value alive
    exact emptied key off value ((lives key off value).mp alive)

/-- The page is locked, and its records are as before. -/
theorem Compacting.lock {page : VPage K V} (compacting : Compacting config id bn none start state)
    (inside : pn < config.layout.num_pages_per_block)
    (locks : (state.pool.v_blocks bn pn).lock = some page) :
    Compacting config id bn (some (bn, pn)) start (state.set_page bn pn page) ∧
      ∀ pn' slot, Emptied config bn pn' slot state →
        Emptied config bn pn' slot (state.set_page bn pn page) := by
  obtain ⟨free, rfl⟩ := VPage.lock_eq_some.mp locks
  have used := compacting.used pn inside
  exact compacting.relock (some (bn, pn))
    { state.pool.v_blocks bn pn with
      version_lock := (state.pool.v_blocks bn pn).version_lock + 1#8 } rfl rfl inside
    (((version_lock_t.used_kept _).1 free).trans used) (fun _ _ nothing => by cases nothing)
    (.inr ⟨rfl, (version_lock_t.locked_version free).2⟩)

/-- A page is left empty. -/
theorem Compacting.page {rand : Nat → Nat → Nat}
    (compacting : Compacting config id bn none start state)
    (inside : pn < config.layout.num_pages_per_block)
    (settles : PageSettles config id rand bn state pn)
    (stepped : state.compact_page config id rand bn pn = some next) :
    Compacting config id bn none start next ∧
      (∀ slot < config.layout.num_slots_per_page, Emptied config bn pn slot next) ∧
      ∀ pn' slot, Emptied config bn pn' slot state → Emptied config bn pn' slot next := by
  simp only [State.compact_page, Option.bind_eq_bind, Option.bind_eq_some_iff] at stepped
  obtain ⟨page, locks, middle, ran, same⟩ := stepped
  have along := settles page locks
  obtain ⟨holding, first_still⟩ := compacting.lock inside locks
  obtain ⟨⟨holding, second_still⟩, empty, -⟩ := along.loop
    (fun after => Compacting config id bn (some (bn, pn)) start after ∧
      ∀ pn' slot, Emptied config bn pn' slot state → Emptied config bn pn' slot after)
    (fun slot after => Emptied config bn pn slot after) (by
      rintro slot below before after ⟨holding, so_far⟩ meets stepped
      obtain ⟨holding, empty, still⟩ :=
        holding.slot (List.mem_range.mp below) meets stepped
      exact ⟨⟨holding, fun pn' s emptied => still pn' s (so_far pn' s emptied)⟩, empty, still pn⟩)
    ⟨holding, first_still⟩ ran
  have locked := (holding.invariant.shape.locked bn pn rfl).2.1
  have still_used := holding.used pn inside
  obtain ⟨released, last_still⟩ := holding.relock none (middle.pool.v_blocks bn pn).unlock rfl rfl
    inside (version_lock_t.used_kept _).2
    (fun bn' pn' same => by
      cases same
      exact ⟨rfl, rfl⟩)
    (.inl ⟨rfl, version_lock_t.released_free locked⟩)
  cases same
  refine ⟨released, ?_, ?_⟩
  · intro slot below
    exact last_still pn slot (empty slot (List.mem_range.mpr below))
  · intro pn' slot emptied
    exact last_still pn' slot (second_still pn' slot emptied)

/-- No record is left in the block. -/
theorem Compacting.block {rand : Nat → Nat → Nat} (compacting : Compacting config id bn none start state)
    (along : Along (fun state pn => State.compact_page config id rand bn pn state)
      (PageSettles config id rand bn) (List.range config.layout.num_pages_per_block) state)
    (ran : state.compact config id rand bn = some next) :
    Compacting config id bn none start next ∧
      ∀ key off value, Lives config.layout next.pool.v_blocks key off value → off.block_number ≠ bn := by
  obtain ⟨compacted, empty, -⟩ := along.loop
    (fun after => Compacting config id bn none start after)
    (fun pn after => ∀ slot < config.layout.num_slots_per_page, Emptied config bn pn slot after) (by
      intro pn below before after compacting meets stepped
      obtain ⟨compacting, empty, still⟩ := compacting.page (List.mem_range.mp below) meets stepped
      exact ⟨compacting, empty, fun other emptied slot below => still other slot (emptied slot below)⟩)
    compacting ran
  refine ⟨compacted, ?_⟩
  intro key off value alive block
  exact empty off.page_number (List.mem_range.mpr alive.page_lt) off.data_offset alive.slot_lt key off
    value alive ⟨block, rfl, rfl⟩

/-- The empty block is free. -/
theorem Compacting.enqueued (compacting : Compacting config id bn none start state)
    (empty : ∀ key off value, Lives config.layout state.pool.v_blocks key off value →
      off.block_number ≠ bn) :
    Invariant config none (state.enqueue bn) ∧
      Undisturbed config.layout id start (state.enqueue bn) := by
  obtain ⟨⟨shape, agrees, truthful⟩, away, claimed, used, rest⟩ := compacting
  have pages : ∀ bn' pn', (state.enqueue bn).pool.v_blocks bn' pn' =
      if bn' = bn ∧ pn' = 0 then { state.pool.v_blocks bn 0 with version_lock := 0#8 }
      else state.pool.v_blocks bn' pn' :=
    fun bn' pn' => set_page_page _ bn' pn'
  have elsewhere : ∀ bn' pn', bn' ≠ bn →
      (state.enqueue bn).pool.v_blocks bn' pn' = state.pool.v_blocks bn' pn' := by
    intro bn' pn' different
    rw [pages, if_neg (fun both => different both.1)]
  have unclaimed : ∀ bn', (state.enqueue bn).pool.Unclaimed bn' → bn' ≠ bn →
      state.pool.Unclaimed bn' := by
    rintro bn' (above | inside) different
    · exact .inl above
    · rcases List.mem_append.mp inside with before | here
      · exact .inr before
      · exact absurd (List.mem_singleton.mp here) different
  have lives : ∀ key off value,
      Lives config.layout (state.enqueue bn).pool.v_blocks key off value ↔
        Lives config.layout state.pool.v_blocks key off value := by
    intro key off value
    by_cases here : off.block_number = bn
    · constructor
      · intro alive
        have same := pages off.block_number off.page_number
        split at same
        · have used_bit := alive.live.1
          rw [same] at used_bit
          revert used_bit
          show version_lock_t.is_used 0#8 = true → _
          intro used_bit
          cases used_bit
        · apply (Lives.congr _ _).mp alive
          · rw [same]
          · rw [same]
      · intro alive
        exact absurd here (empty key off value alive)
    · apply Lives.congr
      · rw [elsewhere _ _ here]
      · rw [elsewhere _ _ here]
  have kept : ∀ bn' pn' slot, Kept (state.pool.v_blocks bn' pn')
      ((state.enqueue bn).pool.v_blocks bn' pn') slot := by
    intro bn' pn' slot taken
    rw [pages] at taken ⊢
    split at taken
    · rename_i here
      rw [if_pos here, here.1, here.2]
      exact ⟨taken, rfl⟩
    · rename_i away
      rw [if_neg away]
      exact ⟨taken, rfl⟩
  have sound : (state.enqueue bn).pool.Sound config.layout := by
    obtain ⟨next_page_lt, next_le, blocks_lt, free_lt, free_nodup⟩ := shape.pool
    constructor
    · exact next_page_lt
    · exact next_le
    · exact blocks_lt
    · intro bn' inside
      rcases List.mem_append.mp inside with before | here
      · exact free_lt bn' before
      · rw [List.mem_singleton.mp here]
        exact Nat.lt_of_not_le (fun above => claimed (.inl above))
    · apply List.nodup_append.mpr
      refine ⟨free_nodup, List.pairwise_singleton _ _, ?_⟩
      rintro other before third here rfl
      rw [List.mem_singleton.mp here] at before
      exact claimed (.inr before)
  refine ⟨⟨?_, ?_, truthful⟩, rest.trans ?_⟩
  · constructor
    · exact sound
    · intro id position here
      have placed := shape.placed id position here
      exact ⟨sound, placed.page_lt, placed.processed_lt,
        fun now => placed.claimed (unclaimed _ now (away id position here))⟩
    · intro id position here
      have same := elsewhere position.v_block_number position.v_page_number (away id position here)
      show ((state.enqueue bn).pool.v_blocks position.v_block_number
        position.v_page_number).version_lock.is_used = true
      rw [same]
      exact shape.used id position here
    · exact shape.apart
    · intro key off value alive now
      have was := (lives key off value).mp alive
      exact shape.claimed key off value was (unclaimed _ now (empty key off value was))
    · intro id position here key off value alive
      exact shape.blank id position here key off value ((lives key off value).mp alive)
    · intro bn' pn' _
      rw [pages]
      split
      · show version_lock_t.is_locked 0#8 = false
        decide
      · exact shape.unlocked bn' pn' (by simp)
    · intro bn' pn' holds
      cases holds
  · apply agrees.congr lives
    exact fun key off passes => key_check_less (kept _ _ _) passes
  · exact ⟨rfl, fun _ _ => rfl, fun _ _ _ _ key off value _ => lives key off value, Nat.le_refl _⟩

/-! ### Reclamation -/

/-- No client has a block that is eligible. -/
theorem Compacting.begins (invariant : Invariant config none state)
    (below : bn < state.pool.current_block_page.block_number)
    (marked : ∀ other position, state.clients other = some position → position.v_block_number = bn →
      config.free_threshold < State.block_free_slots config.layout (state.pool.v_blocks bn) →
      State.is_owned (state.pool.v_blocks bn) = true)
    (eligible : State.eligible config (state.pool.v_blocks bn) = true)
    (not_free : bn ∉ state.pool.free_blocks)
    (used : ∀ pn < config.layout.num_pages_per_block,
      (state.pool.v_blocks bn pn).version_lock.is_used = true) :
    Compacting config id bn none state state := by
  refine ⟨invariant, ?_, ?_, used, .refl _ _ _⟩
  · intro other position here same
    simp only [State.eligible, Bool.and_eq_true, Bool.not_eq_true', decide_eq_true_eq] at eligible
    have owned := marked other position here same eligible.2
    rw [owned] at eligible
    cases eligible.1.1
  · rintro (above | inside)
    · exact Nat.not_lt.mpr above below
    · exact not_free inside

/-- A block is reclaimed or left as it is. -/
theorem reclaim_block_spec {rand : Nat → Nat → Nat → Nat} (invariant : Invariant config none state)
    (below : bn < state.pool.current_block_page.block_number)
    (settles : BlockSettles config id rand state bn)
    (stepped : state.reclaim_block config id rand bn = some next) :
    Invariant config none next ∧ Undisturbed config.layout id state next := by
  obtain ⟨marked, reclaims⟩ := settles
  unfold State.reclaim_block at stepped
  split at stepped
  · rename_i eligible
    obtain ⟨not_free, used, along⟩ := reclaims eligible
    rw [Option.bind_eq_bind, Option.bind_eq_some_iff] at stepped
    obtain ⟨middle, ran, same⟩ := stepped
    cases same
    have compacting : Compacting config id bn none state state :=
      .begins invariant below marked eligible not_free used
    obtain ⟨compacted, empty⟩ := compacting.block along ran
    exact compacted.enqueued empty
  · cases stepped
    exact ⟨invariant, .refl _ _ _⟩

theorem connect_undisturbed {rand : Nat} (invariant : Invariant config none state)
    (connected : state.connect config id rand = some next) :
    state.clients id = none ∧ Undisturbed config.layout id state next := by
  unfold State.connect at connected
  split at connected
  · cases connected
  · rename_i unused
    rw [Option.bind_eq_bind, Option.bind_eq_some_iff] at connected
    obtain ⟨writer, taken, same⟩ := connected
    cases same
    have entered := Writer.get_block_based_access_entered invariant.shape.pool taken
    refine ⟨unused, rfl, ?_, ?_, entered.next_le⟩
    · exact fun other different => Function.update_of_ne different _ _
    · intro _ _ _ _ key off value _
      exact entered_lives entered invariant.shape.claimed key off value

omit [DecidableEq K] in
theorem disconnect_undisturbed (disconnected : state.disconnect id = some next) :
    next.clients id = none ∧ ∀ layout : Layout, Undisturbed layout id state next := by
  unfold State.disconnect at disconnected
  rw [Option.bind_eq_bind, Option.bind_eq_some_iff] at disconnected
  obtain ⟨position, here, same⟩ := disconnected
  cases same
  obtain ⟨next_same, -, -, like⟩ := @Writer.leave_block_like K V ⟨state.pool, position⟩
    (some position.v_block_number)
  refine ⟨Function.update_self .., fun layout => ⟨rfl, ?_, ?_, ?_⟩⟩
  · exact fun other different => Function.update_of_ne different _ _
  · intro _ _ _ _ key off value _
    exact Lives.congr ((like _ _).live _) (congrFun (like _ _).data _)
  · exact Nat.le_of_eq (congrArg KVOffset.block_number next_same).symm

theorem reclaim_spec {first_rand : Nat} {rand : Nat → Nat → Nat → Nat}
    (invariant : Invariant config none state)
    (settles : ReclaimSettles config id first_rand rand state)
    (stepped : state.reclaim config id first_rand rand = some next) :
    Invariant config none next ∧ state.clients id = none ∧ next.clients id = none ∧
      Undisturbed config.layout id state next := by
  simp only [State.reclaim, Option.bind_eq_bind, Option.bind_eq_some_iff] at stepped
  obtain ⟨first, connected, last, ran, disconnected⟩ := stepped
  obtain ⟨unused, first_rest⟩ := connect_undisturbed invariant connected
  obtain ⟨⟨swept, rest⟩, -, -⟩ := (settles first connected).loop
    (fun after => Invariant config none after ∧ Undisturbed config.layout id state after)
    (fun _ _ => True) (by
      rintro bn below before after ⟨invariant, rest⟩ meets stepped
      have inside := Nat.lt_of_lt_of_le (List.mem_range.mp below) rest.next_le
      obtain ⟨invariant, more⟩ := reclaim_block_spec invariant inside meets stepped
      exact ⟨⟨invariant, rest.trans more⟩, trivial, fun _ _ => trivial⟩)
    ⟨(invariant.connect connected).1, first_rest⟩ ran
  obtain ⟨gone, last_rest⟩ := disconnect_undisturbed disconnected
  exact ⟨(swept.disconnect disconnected).1, unused, gone, rest.trans (last_rest _)⟩

theorem Careful.invariant {zero : K × V} {action : Action K V} (invariant : Invariant config none state)
    (careful : Careful config state action)
    (stepped : (machine config zero).step state action = some next) : Invariant config none next := by
  apply invariant.step _ _ stepped
  · rintro id call position rfl here
    exact careful position here
  · rintro id first_rand rand rfl reclaimed
    exact (reclaim_spec invariant careful reclaimed).1

/-- What the clients see in every run whose steps are careful. -/
theorem careful_invariant {zero : K × V}
    (reached : (machine config zero).Reach (Careful config) state) : Invariant config none state := by
  apply reached.invariant
  · rintro state ⟨num_v_blocks, small, rfl⟩
    exact Invariant.created zero small
  · exact fun state action next invariant careful stepped => careful.invariant invariant stepped

/-! ### Concrete runs -/

section Checks

variable (config id)

def slot_settles (rand : Nat → Nat) (bn pn : Nat) (state : State K V) (slot : Nat) : Bool :=
  let page := state.pool.v_blocks bn pn
  page.free_slots slot || (state.clients id).all fun position =>
    decide (config.keys.Valid (page.data slot).1) &&
      put_settles config (rand slot) (page.data slot).1 (page.data slot).2 (state.client position)

def page_settles (rand : Nat → Nat → Nat) (bn : Nat) (state : State K V) (pn : Nat) : Bool :=
  (state.pool.v_blocks bn pn).lock.all fun page =>
    along (fun state slot => State.compact_slot config id (rand pn slot) bn pn slot state)
      (slot_settles config id (rand pn) bn pn) (List.range config.layout.num_slots_per_page)
      (state.set_page bn pn page)

/-- The clients have numbers below `n`. -/
def block_settles (n : Nat) (rand : Nat → Nat → Nat → Nat) (state : State K V) (bn : Nat) : Bool :=
  let block := state.pool.v_blocks bn
  (State.is_owned block ||
    (List.range n).all fun other =>
      (state.clients other).all fun position => position.v_block_number != bn) &&
  (!State.eligible config block ||
    !state.pool.free_blocks.contains bn &&
    (List.range config.layout.num_pages_per_block).all (fun pn => (block pn).version_lock.is_used) &&
    along (fun state pn => State.compact_page config id (rand bn) bn pn state)
      (page_settles config id (rand bn) bn) (List.range config.layout.num_pages_per_block) state)

def careful (n : Nat) (state : State K V) : Action K V → Bool
  | .connect id _ => decide (id < n)
  | .call id call => decide (id < n) &&
      (state.clients id).all fun position => steady config (state.client position) call
  | .reclaim id first_rand rand => decide (id < n) &&
      (state.connect config id first_rand).all fun next =>
        along (fun state bn => State.reclaim_block config id rand bn state)
          (block_settles config id n rand)
          (List.range state.pool.current_block_page.block_number) next
  | _ => true

variable {config id} {n : Nat}

def State.Within (state : State K V) (n : Nat) : Prop := ∀ other, n ≤ other → state.clients other = none

omit [DecidableEq K] in
theorem State.Within.update (within : state.Within n) (inside : id < n)
    (clients : ∀ other, other ≠ id → next.clients other = state.clients other) : next.Within n := by
  intro other above
  rw [clients other (by omega)]
  exact within other above

theorem PageSettles.of_page_settles {rand : Nat → Nat → Nat}
    (compacting : Compacting config id bn none start state)
    (inside : pn < config.layout.num_pages_per_block)
    (passed : page_settles config id rand bn state pn = true) :
    PageSettles config id rand bn state pn := by
  intro page locks
  rw [page_settles, locks, Option.all_some] at passed
  apply Along.of_along (Compacting config id bn (some (bn, pn)) start)
    (compacting.lock inside locks).1 _ _ passed
  · intro slot _ state holding settles taken position here
    simp only [slot_settles, taken, Bool.false_or, here, Option.all_some, Bool.and_eq_true,
      decide_eq_true_eq] at settles
    exact .of_put_settles settles.1 holding.invariant.agrees.index settles.2
  · intro slot below state next holding settles stepped
    exact (holding.slot (List.mem_range.mp below) settles stepped).1

theorem BlockSettles.of_block_settles {rand : Nat → Nat → Nat → Nat}
    (invariant : Invariant config none state) (within : state.Within n)
    (below : bn < state.pool.current_block_page.block_number)
    (passed : block_settles config id n rand state bn = true) :
    BlockSettles config id rand state bn := by
  simp only [block_settles, Bool.and_eq_true, Bool.or_eq_true, Bool.not_eq_true',
    List.all_eq_true, List.mem_range] at passed
  obtain ⟨apart, compacts⟩ := passed
  have marked : ∀ other position, state.clients other = some position →
      position.v_block_number = bn →
      config.free_threshold < State.block_free_slots config.layout (state.pool.v_blocks bn) →
      State.is_owned (state.pool.v_blocks bn) = true := by
    intro other position here same _
    rcases apart with owned | away
    · exact owned
    · by_cases known : other < n
      · have different := away other known
        rw [here, Option.all_some, same, bne_self_eq_false] at different
        cases different
      · rw [within other (Nat.le_of_not_lt known)] at here
        cases here
  refine ⟨marked, ?_⟩
  intro eligible
  rcases compacts with passed_over | ⟨⟨not_free, used⟩, pages⟩
  · rw [eligible] at passed_over
    cases passed_over
  · have not_free : bn ∉ state.pool.free_blocks := by
      intro inside
      rw [List.contains_iff_mem.mpr inside] at not_free
      cases not_free
    refine ⟨not_free, used, ?_⟩
    apply Along.of_along (Compacting config id bn none state)
      (Compacting.begins invariant below marked eligible not_free used) _ _ pages
    · intro pn inside middle compacting settles
      exact .of_page_settles compacting (List.mem_range.mp inside) settles
    · intro pn inside middle next compacting settles stepped
      exact (compacting.page (List.mem_range.mp inside) settles stepped).1

theorem Careful.of_careful {action : Action K V} (invariant : Invariant config none state)
    (within : state.Within n) (passed : careful config n state action = true) :
    Careful config state action := by
  cases action with
  | call id call =>
      intro position here
      simp only [careful, here, Option.all_some, Bool.and_eq_true] at passed
      exact .of_steady invariant.agrees.index passed.2
  | reclaim id first_rand rand =>
      intro first connected
      simp only [careful, connected, Option.all_some, Bool.and_eq_true, decide_eq_true_eq] at passed
      obtain ⟨known, blocks⟩ := passed
      obtain ⟨-, rest⟩ := connect_undisturbed invariant connected
      apply Along.of_along (fun after => (Invariant config none after ∧ after.Within n) ∧
        first.pool.current_block_page.block_number ≤ after.pool.current_block_page.block_number)
        ⟨⟨(invariant.connect connected).1, within.update known rest.clients⟩, Nat.le_refl _⟩
        _ _ blocks
      · rintro bn inside middle ⟨⟨invariant, within⟩, further⟩ settles
        have below := List.mem_range.mp inside
        exact .of_block_settles invariant within (by have first_le := rest.next_le; omega) settles
      · rintro bn inside middle next ⟨⟨invariant, within⟩, further⟩ settles stepped
        have below := List.mem_range.mp inside
        obtain ⟨after, more⟩ := reclaim_block_spec invariant
          (by have first_le := rest.next_le; omega) settles stepped
        exact ⟨⟨after, within.update known more.clients⟩, Nat.le_trans further more.next_le⟩
  | connect | disconnect | grow => trivial

theorem State.Within.step {zero : K × V} {action : Action K V} (invariant : Invariant config none state)
    (within : state.Within n) (passed : careful config n state action = true)
    (stepped : (machine config zero).step state action = some next) : next.Within n := by
  have settles := Careful.of_careful invariant within passed
  cases action with
  | connect id rand =>
      have known : id < n := of_decide_eq_true passed
      exact within.update known (connect_undisturbed invariant stepped).2.clients
  | call id call =>
      have known : id < n := of_decide_eq_true (Bool.and_eq_true_iff.mp passed).1
      simp only [machine, Option.bind_eq_bind, Option.bind_eq_some_iff, Option.some.injEq] at stepped
      obtain ⟨position, -, ⟨answer, client⟩, -, rfl⟩ := stepped
      exact within.update known (fun other different => Function.update_of_ne different _ _)
  | disconnect id =>
      obtain ⟨gone, rest⟩ := disconnect_undisturbed stepped
      intro other above
      by_cases own : other = id
      · rw [own]
        exact gone
      · exact ((rest config.layout).clients other own).trans (within other above)
  | grow more =>
      simp only [machine] at stepped
      split at stepped
      · cases stepped
        exact within
      · cases stepped
  | reclaim id first_rand rand =>
      have known : id < n := of_decide_eq_true (Bool.and_eq_true_iff.mp passed).1
      exact within.update known (reclaim_spec invariant settles stepped).2.2.2.clients

/-- A concrete run whose clients have numbers below `n`. -/
theorem careful_run {zero : K × V} {actions : List (Action K V)}
    (reached : (machine config zero).Reach (Careful config) state)
    (within : state.Within n)
    (ran : ((machine config zero).checked (careful config n)).run state actions = some next) :
    (machine config zero).Reach (Careful config) next ∧ next.Within n := by
  have ended := reached.run_checked_where
    (motive := fun after => Invariant config none after ∧ after.Within n)
    ⟨careful_invariant reached, within⟩
    (fun _ _ _ holds passed => .of_careful holds.1 holds.2 passed)
    (fun _ _ _ holds passed careful stepped =>
      ⟨careful.invariant holds.1 stepped, holds.2.step holds.1 passed stepped⟩) ran
  exact ⟨ended.1, ended.2.2⟩

end Checks

theorem large_pages_pos : 0 < 3 := by
  decide

theorem large_pages_le : 3 ≤ 6 := by
  decide

theorem large_slots_pos : 0 < 1 := by
  decide

theorem large_slots_le : 1 ≤ 2 ^ 16 := by
  decide

def large_layout : Layout :=
  ⟨3, 1, large_pages_pos, large_pages_le, large_slots_pos, large_slots_le⟩

abbrev sparse_config : Config (BitVec 64) :=
  { plain_config same_window large_layout 17 crowded_depth_pos crowded_depth_le with
    free_threshold := 1 }

/-- Reclamations change nothing that a client can see: the calls alone decide
the answers, so that a run without them answers the same. No live client's block
is compacted, or given to another. -/
theorem reclaim_preserves_map (config : Config K) (zero : K × V) (state : State K V)
    (reached : (machine config zero).Reach (Careful config) state) :
    Truthful state.log ∧
    (∀ other, (machine config zero).Reach (Careful config) other →
      other.log.map Prod.fst = state.log.map Prod.fst → other.log = state.log) ∧
    (∀ id position, state.clients id = some position →
      (∀ key, config.keys.Valid key →
        (state.client position).get config key = some (map_of state.log key)) ∧
      ¬state.pool.Unclaimed position.v_block_number ∧
      ∀ other other_position, state.clients other = some other_position → other ≠ id →
        other_position.v_block_number ≠ position.v_block_number) ∧
    ∀ id first_rand rand next, Careful config state (.reclaim id first_rand rand) →
      (machine config zero).step state (.reclaim id first_rand rand) = some next →
      next.log = state.log ∧
      ∀ other position, state.clients other = some position →
        next.clients other = some position ∧
        ∀ key off value, off.block_number = position.v_block_number →
          (Lives config.layout next.pool.v_blocks key off value ↔
            Lives config.layout state.pool.v_blocks key off value) := by
  have invariant := careful_invariant reached
  refine ⟨invariant.truthful, ?_, ?_, ?_⟩
  · intro other other_reached calls
    exact (careful_invariant other_reached).truthful.unique invariant.truthful calls
  · intro id position here
    have alone := invariant.alone here
    refine ⟨fun key valid => get_spec alone.unlocked alone.agrees valid, ?_, ?_⟩
    · exact (invariant.shape.placed id position here).claimed
    · intro other other_position there different
      exact invariant.shape.apart id position other other_position here there different
  · intro id first_rand rand next careful stepped
    obtain ⟨-, unused, -, rest⟩ := reclaim_spec invariant careful stepped
    refine ⟨rest.log, fun other position here => ?_⟩
    have different : other ≠ id := by
      rintro rfl
      rw [unused] at here
      cases here
    exact ⟨(rest.clients other different).trans here, rest.records other position different here⟩

/-- Block 0 is left with one record, that of key 5 on its second page. Block 1
has a client when the blocks are reclaimed. -/
def sparse_block : List (Action (BitVec 64) Nat) :=
  [.connect 0 0, .call 0 (.put 5#64 10 0), .call 0 (.put 5#64 11 0), .call 0 (.put 6#64 30 0),
    .call 0 (.remove 6#64), .disconnect 0, .connect 3 0, .call 3 (.put 9#64 90 0)]

def handed_out : List (Action (BitVec 64) Nat) :=
  [.connect 2 0, .call 2 (.put 6#64 40 0), .call 2 (.put 5#64 50 0), .call 2 (.get 5#64)]

/-- The record of key 5 is put into block 2 by the reclamation, and block 0
becomes free. -/
theorem reclaim_preserves_map_compacted :
    ∃ before reclaimed state : State (BitVec 64) Nat,
      (machine sparse_config (0#64, 0)).run (.created sparse_config (0#64, 0) 3) sparse_block =
        some before ∧
      (machine sparse_config (0#64, 0)).step before (.reclaim 1 0 (fun _ _ _ => 0)) =
        some reclaimed ∧
      (machine sparse_config (0#64, 0)).run reclaimed handed_out = some state ∧
      (before.pool.v_blocks 0 1).free_slots 0 = false ∧
      (reclaimed.pool.v_blocks 2 0).data 0 = (5#64, 11) ∧ reclaimed.pool.free_blocks = [0] ∧
      reclaimed.log = before.log ∧
      ∀ id position, state.clients id = some position →
        (state.client position).get sparse_config 5#64 = some (some 50) ∧
        (state.client position).get sparse_config 6#64 = some (some 40) ∧
        (state.client position).get sparse_config 9#64 = some (some 90) := by
  have possible : (((machine sparse_config (0#64, 0)).checked (careful sparse_config 4)).run
      (.created sparse_config (0#64, 0) 3) sparse_block).bind (fun before =>
        (((machine sparse_config (0#64, 0)).checked (careful sparse_config 4)).step before
          (.reclaim 1 0 (fun _ _ _ => 0))).bind fun reclaimed =>
            (((machine sparse_config (0#64, 0)).checked (careful sparse_config 4)).run reclaimed
              handed_out).map fun state =>
                decide ((before.pool.v_blocks 0 1).free_slots 0 = false ∧
                  (reclaimed.pool.v_blocks 2 0).data 0 = (5#64, 11) ∧
                  reclaimed.pool.free_blocks = [0] ∧ map_of state.log 5#64 = some 50 ∧
                  map_of state.log 6#64 = some 40 ∧ map_of state.log 9#64 = some 90)) =
        some true := by
    decide +kernel
  obtain ⟨before, filled, possible⟩ := Option.bind_eq_some_iff.mp possible
  obtain ⟨reclaimed, reclaims, possible⟩ := Option.bind_eq_some_iff.mp possible
  obtain ⟨state, ran, ended⟩ := Option.map_eq_some_iff.mp possible
  obtain ⟨taken, moved, freed, five, six, nine⟩ := of_decide_eq_true ended
  have created : (machine sparse_config (0#64, 0)).Reach (Careful sparse_config)
      (.created sparse_config (0#64, 0) 3) := .start ⟨3, by decide, rfl⟩
  obtain ⟨reached, within⟩ := careful_run created (fun _ _ => rfl) filled
  obtain ⟨passed, stepped⟩ := Machine.checked_step.mp reclaims
  have invariant := careful_invariant reached
  have settles : Careful sparse_config before (.reclaim 1 0 (fun _ _ _ => 0)) :=
    .of_careful invariant within passed
  obtain ⟨-, -, -, kept⟩ := reclaim_preserves_map sparse_config (0#64, 0) before reached
  have same_log : reclaimed.log = before.log := (kept 1 0 _ reclaimed settles stepped).1
  have after : reclaimed.Within 4 := within.step invariant passed stepped
  obtain ⟨last, -⟩ := careful_run (reached.move settles stepped) after ran
  obtain ⟨-, -, reads, -⟩ := reclaim_preserves_map sparse_config (0#64, 0) state last
  refine ⟨before, reclaimed, state, Machine.run_of_checked filled, stepped,
    Machine.run_of_checked ran, taken, moved, freed, same_log, ?_⟩
  intro id position here
  have gets := (reads id position here).1
  constructor
  · rw [gets 5#64 (by decide), five]
  · constructor
    · rw [gets 6#64 (by decide), six]
    · rw [gets 9#64 (by decide), nine]

/-- The last page of the block has never been written to. The compaction takes
it for a page full of records, and key 0 appears. -/
theorem reclaim_finds_key :
    ∃ state other : State (BitVec 64) Nat,
      (machine sparse_config (0#64, 0)).run (.created sparse_config (0#64, 0) 3)
        [.connect 0 0, .call 0 (.put 5#64 10 0), .call 0 (.put 6#64 20 0), .call 0 (.remove 5#64),
          .call 0 (.remove 6#64), .disconnect 0, .reclaim 1 0 (fun _ _ _ => 0), .connect 2 0,
          .call 2 (.get 0#64)] = some state ∧
      (machine sparse_config (0#64, 0)).run (.created sparse_config (0#64, 0) 3)
        [.connect 0 0, .call 0 (.put 5#64 10 0), .call 0 (.put 6#64 20 0), .call 0 (.remove 5#64),
          .call 0 (.remove 6#64), .disconnect 0, .connect 2 0, .call 2 (.get 0#64)] = some other ∧
      state.log.head?.map Prod.snd = some (.found (some 0)) ∧
      other.log.head?.map Prod.snd = some (.found none) := by
  have with_reclaim : ((machine sparse_config (0#64, 0)).run (.created sparse_config (0#64, 0) 3)
      [.connect 0 0, .call 0 (.put 5#64 10 0), .call 0 (.put 6#64 20 0), .call 0 (.remove 5#64),
        .call 0 (.remove 6#64), .disconnect 0, .reclaim 1 0 (fun _ _ _ => 0), .connect 2 0,
        .call 2 (.get 0#64)]).map (fun state : State (BitVec 64) Nat =>
          state.log.head?.map Prod.snd) = some (some (.found (some 0))) := by
    decide +kernel
  have without : ((machine sparse_config (0#64, 0)).run (.created sparse_config (0#64, 0) 3)
      [.connect 0 0, .call 0 (.put 5#64 10 0), .call 0 (.put 6#64 20 0), .call 0 (.remove 5#64),
        .call 0 (.remove 6#64), .disconnect 0, .connect 2 0, .call 2 (.get 0#64)]).map
        (fun state : State (BitVec 64) Nat => state.log.head?.map Prod.snd) =
          some (some (.found none)) := by
    decide +kernel
  obtain ⟨state, ran, found⟩ := Option.map_eq_some_iff.mp with_reclaim
  obtain ⟨other, other_ran, missing⟩ := Option.map_eq_some_iff.mp without
  exact ⟨state, other, ran, other_ran, found, missing⟩

end Compaction

end Hiom.Viper.Records.Plain
