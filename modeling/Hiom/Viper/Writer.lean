import Mathlib
import Hiom.Viper.Records

/-!
One client of Viper at work while no other thread is. No lock is waited for
then: an operation that would have to wait has no next state.
-/

namespace Hiom.Viper.Records

/-! ### Pages -/

namespace VPage

variable {K V : Type}

def init (page : VPage K V) : VPage K V :=
  { page with version_lock := USED_BIT, free_slots := fun _ => true }

def lock (page : VPage K V) : Option (VPage K V) :=
  let lock_value := page.version_lock.unlocked
  if page.version_lock = lock_value then some { page with version_lock := lock_value + 1#8 }
  else none

def unlock (page : VPage K V) : VPage K V :=
  { page with version_lock := page.version_lock.released }

def find_first (num_slots_per_page : Nat) (page : VPage K V) : Option Nat :=
  (List.range num_slots_per_page).find? page.free_slots

/-- A record is written before its slot is taken. -/
def write_record (page : VPage K V) (slot : Nat) (key : K) (value : V) : VPage K V :=
  { page with
    data := Function.update page.data slot (key, value)
    free_slots := Function.update page.free_slots slot false }

def invalidate_record (page : VPage K V) (slot : Nat) : VPage K V :=
  { page with free_slots := Function.update page.free_slots slot true }

def write_value (page : VPage K V) (slot : Nat) (value : V) : VPage K V :=
  { page with data := Function.update page.data slot ((page.data slot).1, value) }

end VPage

/-! ### The client -/

structure Pool (K V : Type) where
  v_blocks : Nat → VPageBlock K V
  num_v_blocks : Nat
  current_block_page : KVOffset
  free_blocks : List Nat

/-- Where a client writes, and how many pages of its block it has come to the
end of. -/
structure Position where
  v_block_number : Nat
  v_page_number : Nat
  num_v_pages_processed : Nat

structure Writer (K V : Type) extends Pool K V, Position

namespace Writer

variable {K V : Type}

def page (writer : Writer K V) (bn pn : Nat) : VPage K V := writer.v_blocks bn pn

def set_page (writer : Writer K V) (bn pn : Nat) (page : VPage K V) : Writer K V :=
  { writer with
    v_blocks := Function.update writer.v_blocks bn (Function.update (writer.v_blocks bn) pn page) }

def v_page (writer : Writer K V) : VPage K V := writer.page writer.v_block_number writer.v_page_number

def set_v_page (writer : Writer K V) (page : VPage K V) : Writer K V :=
  writer.set_page writer.v_block_number writer.v_page_number page

def unlock_v_page (writer : Writer K V) : Writer K V := writer.set_v_page writer.v_page.unlock

section

variable (layout : Layout)

def set_current (writer : Writer K V) (block_page : KVOffset) : Writer K V :=
  { writer with current_block_page := block_page }

/-- It spins until the block has been mapped. -/
def get_new_block (rand : Nat) (writer : Writer K V) : Option (KVOffset × Writer K V) :=
  let client_block := writer.current_block_page.block_number
  if writer.num_v_blocks ≤ client_block then none
  else
    some (writer.current_block_page,
      writer.set_current (.of_parts (client_block + 1) (rand % layout.num_pages_per_block) 0))

/-- Whether a client owns the block is marked on its first page. -/
def mark_block (writer : Writer K V) (bn : Nat) (mark : version_lock_t → version_lock_t) :
    Writer K V :=
  writer.set_page bn 0
    { writer.page bn 0 with version_lock := mark (writer.page bn 0).version_lock }

def move_to (writer : Writer K V) (bn pn processed : Nat) : Writer K V :=
  { writer with
    v_block_number := bn
    v_page_number := pn
    num_v_pages_processed := processed }

def take_free (writer : Writer K V) (i : Nat) : Writer K V :=
  { writer with free_blocks := writer.free_blocks.eraseIdx i }

/-- A block that has been reclaimed, or a new one. Which of the reclaimed blocks
it is, is left open: their queue keeps no order among its producers. -/
def next_block (rand : Nat) (writer : Writer K V) : Option ((Nat × Nat) × Writer K V) :=
  match writer.free_blocks[rand % writer.free_blocks.length]? with
  | some client_block =>
      some ((client_block, 0), writer.take_free (rand % writer.free_blocks.length))
  | none => do
      let (new_block, writer) ← writer.get_new_block layout rand
      some ((new_block.block_number, new_block.page_number), writer)

def leave_block (writer : Writer K V) : Option Nat → Writer K V
  | some bn => writer.mark_block bn (· &&& NO_CLIENT_BIT)
  | none => writer

def get_block_based_access (rand : Nat) (v_block : Option Nat) (writer : Writer K V) :
    Option (Writer K V) := do
  let ((client_block, client_page), writer) ← writer.next_block layout rand
  let writer := (writer.leave_block v_block).move_to client_block client_page 0
  let writer := writer.set_v_page writer.v_page.init
  some (writer.mark_block client_block (· ||| CLIENT_BIT))

def next_page (rand : Nat) (writer : Writer K V) : Option (Writer K V) :=
  let processed := writer.num_v_pages_processed + 1
  if processed = layout.num_pages_per_block then
    writer.get_block_based_access layout rand (some writer.v_block_number)
  else
    some (writer.move_to writer.v_block_number
      ((writer.v_page_number + 1) % layout.num_pages_per_block) processed)

def update_access_information (rand : Nat) (writer : Writer K V) : Option (Writer K V) := do
  let writer ← writer.next_page layout rand
  some (writer.set_v_page writer.v_page.init)

/-- The part of `put` before it asks for the old offset. It leaves the page
locked, or moves on from a page that is full. -/
def claim_slot (rand : Nat) (writer : Writer K V) (key : K) (value : V) :
    Option (Option KVOffset × Writer K V) := do
  let page ← writer.v_page.lock
  match page.find_first layout.num_slots_per_page with
  | none => do
      let writer ← (writer.set_v_page page.unlock).update_access_information layout rand
      some (none, writer)
  | some slot =>
      some (some (.of_parts writer.v_block_number writer.v_page_number slot),
        writer.set_v_page (page.write_record slot key value))

end

/-- On the client's own page the lock is taken to be held already. -/
def free_occupied_slot (writer : Writer K V) (offset_to_delete : KVOffset) : Option (Writer K V) :=
  let bn := offset_to_delete.block_number
  let pn := offset_to_delete.page_number
  if writer.v_block_number = bn ∧ writer.v_page_number = pn then
    some (writer.set_page bn pn
      ((writer.page bn pn).invalidate_record offset_to_delete.data_offset))
  else do
    let page ← (writer.page bn pn).lock
    some (writer.set_page bn pn (page.invalidate_record offset_to_delete.data_offset).unlock)

inductive ReadStatus (K V : Type) where
  | kOk (key : K) (value : V)
  | kSlotFree
  | kTransient

def hiom_read_at_offset_status (writer : Writer K V) (off : KVOffset) : ReadStatus K V :=
  let page := writer.page off.block_number off.page_number
  if page.free_slots off.data_offset then .kSlotFree
  else if page.version_lock.is_locked then .kTransient
  else .kOk (page.data off.data_offset).1 (page.data off.data_offset).2

def hiom_read_at_offset (writer : Writer K V) (off : KVOffset) : Option (K × V) :=
  match writer.hiom_read_at_offset_status off with
  | .kOk key value => some (key, value)
  | _ => none

def hiom_get_slot_key (writer : Writer K V) (off : KVOffset) : Option K :=
  if writer.num_v_blocks ≤ off.block_number then none
  else
    let page := writer.page off.block_number off.page_number
    if page.free_slots off.data_offset then none else some (page.data off.data_offset).1

def try_at [DecidableEq K] (writer : Writer K V) (key : K) (update_fn : V → V) (off : KVOffset) :
    Option (Bool × Writer K V) :=
  let bn := off.block_number
  let pn := off.page_number
  let slot := off.data_offset
  if (writer.page bn pn).free_slots slot then some (false, writer)
  else do
    let page ← (writer.page bn pn).lock
    if page.free_slots slot || (page.data slot).1 ≠ key then
      some (false, writer.set_page bn pn page.unlock)
    else
      some (true,
        writer.set_page bn pn (page.write_value slot (update_fn (page.data slot).2)).unlock)

end Writer

/-! ### Pages under an operation -/

section Pages

variable {K V : Type} {page other : VPage K V}

theorem VPage.lock_eq_some : page.lock = some other ↔
    page.version_lock.is_locked = false ∧
      other = { page with version_lock := page.version_lock + 1#8 } := by
  unfold VPage.lock
  dsimp only
  constructor
  · intro locked
    split at locked
    · rename_i free
      cases locked
      rw [← free]
      exact ⟨version_lock_t.lock_taken free, rfl⟩
    · cases locked
  · rintro ⟨free, rfl⟩
    rw [version_lock_t.unlocked_self free, if_pos rfl]

structure VPage.Like (page other : VPage K V) : Prop where
  free_slots : page.free_slots = other.free_slots
  data : page.data = other.data
  locked : page.version_lock.is_locked = other.version_lock.is_locked
  used : page.version_lock.is_used = other.version_lock.is_used

theorem VPage.Like.refl (page : VPage K V) : page.Like page := ⟨rfl, rfl, rfl, rfl⟩

theorem VPage.Like.trans {last : VPage K V} (first : page.Like other) (second : other.Like last) :
    page.Like last :=
  ⟨first.free_slots.trans second.free_slots, first.data.trans second.data,
    first.locked.trans second.locked, first.used.trans second.used⟩

structure VPage.Fresh (page : VPage K V) : Prop where
  free_slots : ∀ slot, page.free_slots slot = true
  unlocked : page.version_lock.is_locked = false
  used : page.version_lock.is_used = true

theorem VPage.init_fresh (page : VPage K V) : page.init.Fresh :=
  ⟨fun _ => rfl, show USED_BIT.is_locked = false by decide,
    show USED_BIT.is_used = true by decide⟩

end Pages

namespace Writer

variable {K V : Type} {layout : Layout} {writer after : Writer K V} {bn pn : Nat}

section

variable (writer) (page : VPage K V)

@[simp] theorem set_page_block : (writer.set_page bn pn page).v_block_number = writer.v_block_number :=
  rfl

@[simp] theorem set_page_page : (writer.set_page bn pn page).v_page_number = writer.v_page_number :=
  rfl

@[simp] theorem set_page_processed :
    (writer.set_page bn pn page).num_v_pages_processed = writer.num_v_pages_processed := rfl

@[simp] theorem set_page_next :
    (writer.set_page bn pn page).current_block_page = writer.current_block_page := rfl

@[simp] theorem set_page_blocks : (writer.set_page bn pn page).num_v_blocks = writer.num_v_blocks :=
  rfl

@[simp] theorem set_current_next (block_page : KVOffset) :
    (writer.set_current block_page).current_block_page = block_page := rfl

@[simp] theorem set_current_blocks (block_page : KVOffset) :
    (writer.set_current block_page).num_v_blocks = writer.num_v_blocks := rfl

@[simp] theorem page_set_current (block_page : KVOffset) (bn' pn' : Nat) :
    (writer.set_current block_page).page bn' pn' = writer.page bn' pn' := rfl

@[simp] theorem move_to_block (pn' processed : Nat) :
    (writer.move_to bn pn' processed).v_block_number = bn := rfl

@[simp] theorem move_to_page (bn' processed : Nat) :
    (writer.move_to bn' pn processed).v_page_number = pn := rfl

@[simp] theorem move_to_processed (processed : Nat) :
    (writer.move_to bn pn processed).num_v_pages_processed = processed := rfl

@[simp] theorem move_to_next (processed : Nat) :
    (writer.move_to bn pn processed).current_block_page = writer.current_block_page := rfl

@[simp] theorem move_to_blocks (processed : Nat) :
    (writer.move_to bn pn processed).num_v_blocks = writer.num_v_blocks := rfl

@[simp] theorem page_move_to (processed bn' pn' : Nat) :
    (writer.move_to bn pn processed).page bn' pn' = writer.page bn' pn' := rfl

end

theorem page_set_page (page : VPage K V) (bn' pn' : Nat) :
    (writer.set_page bn pn page).page bn' pn' =
      if bn' = bn ∧ pn' = pn then page else writer.page bn' pn' := by
  unfold Writer.page set_page
  dsimp only
  by_cases block : bn' = bn
  · subst block
    rw [Function.update_self]
    by_cases here : pn' = pn
    · subst here
      rw [Function.update_self, if_pos ⟨rfl, rfl⟩]
    · rw [Function.update_of_ne here, if_neg (fun both => here both.2)]
  · rw [Function.update_of_ne block, if_neg (fun both => block both.1)]

theorem set_v_page_page (page : VPage K V) (bn' pn' : Nat) :
    (writer.set_v_page page).page bn' pn' =
      if bn' = writer.v_block_number ∧ pn' = writer.v_page_number then page
      else writer.page bn' pn' :=
  page_set_page page bn' pn'

/-- Marking a block as owned or not leaves its pages alike. -/
theorem mark_block_like {mark : version_lock_t → version_lock_t}
    (harmless : ∀ lock, (mark lock).is_locked = lock.is_locked ∧ (mark lock).is_used = lock.is_used)
    (bn' pn' : Nat) : ((writer.mark_block bn mark).page bn' pn').Like (writer.page bn' pn') := by
  unfold mark_block
  rw [page_set_page]
  split
  · rename_i here
    rw [here.1, here.2]
    exact ⟨rfl, rfl, (harmless _).1, (harmless _).2⟩
  · exact .refl _

theorem own_mark (lock : version_lock_t) :
    (lock ||| CLIENT_BIT).is_locked = lock.is_locked ∧
      (lock ||| CLIENT_BIT).is_used = lock.is_used :=
  ⟨version_lock_t.locked_congr (version_lock_t.client_version lock).1,
    (version_lock_t.client_used lock).1⟩

theorem disown_mark (lock : version_lock_t) :
    (lock &&& NO_CLIENT_BIT).is_locked = lock.is_locked ∧
      (lock &&& NO_CLIENT_BIT).is_used = lock.is_used :=
  ⟨version_lock_t.locked_congr (version_lock_t.client_version lock).2,
    (version_lock_t.client_used lock).2⟩

@[simp] theorem set_page_free (page : VPage K V) :
    (writer.set_page bn pn page).free_blocks = writer.free_blocks := rfl

@[simp] theorem set_current_free (block_page : KVOffset) :
    (writer.set_current block_page).free_blocks = writer.free_blocks := rfl

@[simp] theorem move_to_free (pn' processed : Nat) :
    (writer.move_to bn pn' processed).free_blocks = writer.free_blocks := rfl

@[simp] theorem take_free_free (i : Nat) :
    (writer.take_free i).free_blocks = writer.free_blocks.eraseIdx i := rfl

@[simp] theorem take_free_next (i : Nat) :
    (writer.take_free i).current_block_page = writer.current_block_page := rfl

@[simp] theorem take_free_blocks (i : Nat) :
    (writer.take_free i).num_v_blocks = writer.num_v_blocks := rfl

@[simp] theorem page_take_free (i bn' pn' : Nat) :
    (writer.take_free i).page bn' pn' = writer.page bn' pn' := rfl

/-- Leaving a block touches marks only. -/
theorem leave_block_like (v_block : Option Nat) :
    (writer.leave_block v_block).current_block_page = writer.current_block_page ∧
      (writer.leave_block v_block).num_v_blocks = writer.num_v_blocks ∧
      (writer.leave_block v_block).free_blocks = writer.free_blocks ∧
      ∀ bn' pn', ((writer.leave_block v_block).page bn' pn').Like (writer.page bn' pn') := by
  cases v_block with
  | none => exact ⟨rfl, rfl, rfl, fun _ _ => .refl _⟩
  | some bn => exact ⟨rfl, rfl, rfl, mark_block_like disown_mark⟩

/-! ### Where the client writes -/

def distance (layout : Layout) (writer : Writer K V) (pn : Nat) : Nat :=
  if writer.v_page_number ≤ pn then pn - writer.v_page_number
  else pn + layout.num_pages_per_block - writer.v_page_number

theorem distance_eq (writer : Writer K V) (pn : Nat) :
    (writer.v_page_number ≤ pn ∧ writer.distance layout pn = pn - writer.v_page_number) ∨
      (pn < writer.v_page_number ∧
        writer.distance layout pn = pn + layout.num_pages_per_block - writer.v_page_number) := by
  unfold distance
  split
  · rename_i after
    exact .inl ⟨after, rfl⟩
  · rename_i before
    exact .inr ⟨Nat.lt_of_not_le before, rfl⟩

end Writer

def Pool.Unclaimed {K V : Type} (pool : Pool K V) (bn : Nat) : Prop :=
  pool.current_block_page.block_number ≤ bn ∨ bn ∈ pool.free_blocks

structure Pool.Sound {K V : Type} (layout : Layout) (pool : Pool K V) : Prop where
  next_page_lt : pool.current_block_page.page_number < layout.num_pages_per_block
  next_le : pool.current_block_page.block_number ≤ pool.num_v_blocks
  blocks_lt : pool.num_v_blocks < 2 ^ 45
  free_lt : ∀ bn ∈ pool.free_blocks, bn < pool.current_block_page.block_number
  free_nodup : pool.free_blocks.Nodup

namespace Writer

variable {K V : Type} {layout : Layout} {writer after : Writer K V} {bn pn : Nat}

def Later (layout : Layout) (writer : Writer K V) (bn pn : Nat) : Prop :=
  bn = writer.v_block_number ∧ 1 ≤ writer.distance layout pn ∧
    writer.distance layout pn + writer.num_v_pages_processed < layout.num_pages_per_block

def Ahead (layout : Layout) (writer : Writer K V) (bn pn : Nat) : Prop :=
  writer.Unclaimed bn ∨ writer.Later layout bn pn

structure Placed (layout : Layout) (writer : Writer K V) : Prop where
  pool : writer.toPool.Sound layout
  page_lt : writer.v_page_number < layout.num_pages_per_block
  processed_lt : writer.num_v_pages_processed < layout.num_pages_per_block
  claimed : ¬writer.Unclaimed writer.v_block_number

theorem Placed.block_lt (placed : writer.Placed layout) :
    writer.v_block_number < writer.current_block_page.block_number :=
  Nat.lt_of_not_le (fun above => placed.claimed (.inl above))

theorem Placed.set_page (placed : writer.Placed layout) (page : VPage K V) :
    (writer.set_page bn pn page).Placed layout := by
  obtain ⟨⟨next_page_lt, next_le, blocks_lt, free_lt, nodup⟩, page_lt, processed_lt, claimed⟩ :=
    placed
  exact ⟨⟨next_page_lt, next_le, blocks_lt, free_lt, nodup⟩, page_lt, processed_lt, claimed⟩

theorem Placed.not_ahead (placed : writer.Placed layout) :
    ¬writer.Ahead layout writer.v_block_number writer.v_page_number := by
  rintro (unclaimed | later)
  · exact placed.claimed unclaimed
  · unfold Later distance at later
    rw [if_pos (Nat.le_refl _)] at later
    omega

structure Moved (layout : Layout) (writer after : Writer K V) : Prop where
  placed : after.Placed layout
  was_ahead : writer.Ahead layout after.v_block_number after.v_page_number
  fresh : after.v_page.Fresh
  like : ∀ bn pn, ¬(bn = after.v_block_number ∧ pn = after.v_page_number) →
    (after.page bn pn).Like (writer.page bn pn)
  ahead : ∀ bn pn, pn < layout.num_pages_per_block → after.Ahead layout bn pn →
    writer.Ahead layout bn pn
  unclaimed : ∀ bn, after.Unclaimed bn → writer.Unclaimed bn
  claims : after.v_block_number = writer.v_block_number ∨
    writer.Unclaimed after.v_block_number
  next_le : writer.current_block_page.block_number ≤ after.current_block_page.block_number

/-- What `get_new_block` answers, and what it leaves. -/
theorem get_new_block_eq {rand : Nat} {new_block : KVOffset}
    (blocks_lt : writer.num_v_blocks < 2 ^ 45)
    (taken : writer.get_new_block layout rand = some (new_block, after)) :
    new_block = writer.current_block_page ∧ new_block.block_number < writer.num_v_blocks ∧
      after.current_block_page.block_number = new_block.block_number + 1 ∧
      after.current_block_page.page_number = rand % layout.num_pages_per_block ∧
      after.num_v_blocks = writer.num_v_blocks ∧ after.free_blocks = writer.free_blocks ∧
      ∀ bn pn, after.page bn pn = writer.page bn pn := by
  have few := layout.pages_le
  have below := Nat.mod_lt rand layout.pages_pos
  unfold get_new_block at taken
  dsimp only at taken
  split at taken
  · cases taken
  · rename_i mapped
    have mapped := Nat.lt_of_not_le mapped
    obtain ⟨rfl, rfl⟩ := Prod.mk.inj (Option.some.inj taken)
    refine ⟨rfl, mapped, ?_, ?_, set_current_blocks writer _, set_current_free _,
      page_set_current writer _⟩
    · exact KVOffset.block_number_of_parts (by omega)
    · exact KVOffset.page_number_of_parts (by omega)

structure Claimed (layout : Layout) (writer : Writer K V) (block page : Nat) (after : Writer K V) :
    Prop where
  sound : after.toPool.Sound layout
  was : writer.Unclaimed block
  now : ¬after.Unclaimed block
  unclaimed : ∀ bn, after.Unclaimed bn → writer.Unclaimed bn
  page_lt : page < layout.num_pages_per_block
  next_le : writer.current_block_page.block_number ≤ after.current_block_page.block_number
  pages : ∀ bn pn, after.page bn pn = writer.page bn pn

theorem next_block_claimed {rand block page : Nat} (sound : writer.toPool.Sound layout)
    (taken : writer.next_block layout rand = some ((block, page), after)) :
    Claimed layout writer block page after := by
  unfold next_block at taken
  split at taken
  · rename_i client_block found
    obtain ⟨inside, rfl⟩ := List.getElem?_eq_some_iff.mp found
    obtain ⟨pair, rfl⟩ := Prod.mk.inj (Option.some.inj taken)
    obtain ⟨rfl, rfl⟩ := Prod.mk.inj pair
    have perm := List.getElem_cons_eraseIdx_perm inside
    have nodup := perm.nodup_iff.mpr sound.free_nodup
    have member := List.getElem_mem inside
    have still : ∀ bn ∈ writer.free_blocks.eraseIdx (rand % writer.free_blocks.length),
        bn ∈ writer.free_blocks := fun bn inside => perm.mem_iff.mp (List.mem_cons_of_mem _ inside)
    constructor
    · constructor
      · exact sound.next_page_lt
      · exact sound.next_le
      · exact sound.blocks_lt
      · exact fun bn inside => sound.free_lt bn (still bn inside)
      · exact (List.nodup_cons.mp nodup).2
    · exact .inr member
    · rintro (above | again)
      · exact absurd (sound.free_lt _ member) (Nat.not_lt.mpr above)
      · exact (List.nodup_cons.mp nodup).1 again
    · rintro bn (above | inside)
      · exact .inl above
      · exact .inr (still bn inside)
    · exact layout.pages_pos
    · exact Nat.le_refl _
    · exact fun _ _ => rfl
  · simp only [Option.bind_eq_bind, Option.bind_eq_some_iff] at taken
    obtain ⟨⟨new_block, next⟩, handed, same⟩ := taken
    obtain ⟨rfl, mapped, next_number, next_page, blocks, free, pages⟩ :=
      get_new_block_eq sound.blocks_lt handed
    dsimp only at mapped next_number same
    obtain ⟨pair, rfl⟩ := Prod.mk.inj (Option.some.inj same)
    obtain ⟨rfl, rfl⟩ := Prod.mk.inj pair
    have below := Nat.mod_lt rand layout.pages_pos
    have free_lt := sound.free_lt
    constructor
    · constructor
      · rw [next_page]
        exact below
      · rw [next_number, blocks]
        exact mapped
      · rw [blocks]
        exact sound.blocks_lt
      · intro bn inside
        rw [free] at inside
        have before := free_lt bn inside
        rw [next_number]
        omega
      · rw [free]
        exact sound.free_nodup
    · exact .inl (Nat.le_refl _)
    · unfold Pool.Unclaimed
      rw [next_number, free]
      rintro (above | inside)
      · omega
      · exact absurd (free_lt _ inside) (Nat.lt_irrefl _)
    · intro bn unclaimed
      unfold Pool.Unclaimed at unclaimed ⊢
      rw [next_number, free] at unclaimed
      rcases unclaimed with above | inside
      · left
        omega
      · exact .inr inside
    · exact sound.next_page_lt
    · omega
    · exact pages

structure Entered (layout : Layout) (writer after : Writer K V) : Prop where
  placed : after.Placed layout
  was : writer.Unclaimed after.v_block_number
  first : after.num_v_pages_processed = 0
  fresh : after.v_page.Fresh
  like : ∀ bn pn, ¬(bn = after.v_block_number ∧ pn = after.v_page_number) →
    (after.page bn pn).Like (writer.page bn pn)
  unclaimed : ∀ bn, after.Unclaimed bn → writer.Unclaimed bn
  next_le : writer.current_block_page.block_number ≤ after.current_block_page.block_number

theorem get_block_based_access_entered {rand : Nat} {v_block : Option Nat}
    (sound : writer.toPool.Sound layout)
    (taken : writer.get_block_based_access layout rand v_block = some after) :
    writer.Entered layout after := by
  simp only [get_block_based_access, Option.bind_eq_bind, Option.bind_eq_some_iff] at taken
  obtain ⟨⟨⟨client_block, client_page⟩, middle⟩, handed, same⟩ := taken
  obtain ⟨middle_sound, was, now, unclaimed, page_lt, next_le, pages⟩ :=
    next_block_claimed sound handed
  dsimp only at same
  obtain ⟨next, blocks_left, free, like⟩ := @leave_block_like K V middle v_block
  have pool : after.current_block_page = middle.current_block_page ∧
      after.num_v_blocks = middle.num_v_blocks ∧ after.free_blocks = middle.free_blocks ∧
      after.v_block_number = client_block ∧ after.v_page_number = client_page ∧
      after.num_v_pages_processed = 0 := by
    rw [← Option.some.inj same]
    exact ⟨next, blocks_left, free, rfl, rfl, rfl⟩
  obtain ⟨next_same, blocks_same, free_same, block, page, processed⟩ := pool
  have unclaimed_same : ∀ bn, after.Unclaimed bn ↔ middle.Unclaimed bn := by
    intro bn
    unfold Pool.Unclaimed
    rw [next_same, free_same]
  constructor
  · constructor
    · constructor
      · rw [next_same]
        exact middle_sound.next_page_lt
      · rw [next_same, blocks_same]
        exact middle_sound.next_le
      · rw [blocks_same]
        exact middle_sound.blocks_lt
      · rw [next_same, free_same]
        exact middle_sound.free_lt
      · rw [free_same]
        exact middle_sound.free_nodup
    · rw [page]
      exact page_lt
    · rw [processed]
      exact layout.pages_pos
    · rw [block, unclaimed_same]
      exact now
  · rw [block]
    exact was
  · exact processed
  · unfold v_page
    rw [block, page, ← Option.some.inj same]
    have marked := @mark_block_like K V (((middle.leave_block v_block).move_to client_block
      client_page 0).set_v_page ((middle.leave_block v_block).move_to client_block
      client_page 0).v_page.init) client_block _ own_mark client_block client_page
    have fresh := VPage.init_fresh ((middle.leave_block v_block).move_to client_block
      client_page 0).v_page
    rw [set_v_page_page, move_to_block, move_to_page, if_pos ⟨rfl, rfl⟩] at marked
    constructor
    · intro slot
      rw [marked.free_slots]
      exact fresh.free_slots slot
    · rw [marked.locked]
      exact fresh.unlocked
    · rw [marked.used]
      exact fresh.used
  · intro bn pn elsewhere
    rw [block, page] at elsewhere
    rw [← Option.some.inj same]
    apply (mark_block_like own_mark bn pn).trans
    rw [set_v_page_page, move_to_block, move_to_page, if_neg elsewhere, page_move_to, ← pages]
    exact like bn pn
  · intro bn still
    exact unclaimed bn ((unclaimed_same bn).mp still)
  · rw [next_same]
    exact next_le

theorem update_access_moved {rand : Nat} (placed : writer.Placed layout)
    (moved : writer.update_access_information layout rand = some after) :
    writer.Moved layout after := by
  simp only [update_access_information, Option.bind_eq_bind, Option.bind_eq_some_iff] at moved
  obtain ⟨middle, taken, same⟩ := moved
  cases same
  have fresh : (middle.set_v_page middle.v_page.init).v_page.Fresh := by
    unfold v_page set_v_page
    rw [page_set_page, if_pos ⟨rfl, rfl⟩]
    exact VPage.init_fresh _
  have others : ∀ bn pn, ¬(bn = middle.v_block_number ∧ pn = middle.v_page_number) →
      (middle.set_v_page middle.v_page.init).page bn pn = middle.page bn pn := by
    intro bn pn elsewhere
    rw [set_v_page, page_set_page, if_neg elsewhere]
  unfold next_page at taken
  dsimp only at taken
  split at taken
  · rename_i last
    have entered := get_block_based_access_entered placed.pool taken
    constructor
    · exact entered.placed.set_page _
    · exact .inl entered.was
    · exact fresh
    · intro bn pn elsewhere
      rw [others bn pn elsewhere]
      exact entered.like bn pn elsewhere
    · rintro bn pn inside (unclaimed | later)
      · exact .inl (entered.unclaimed bn unclaimed)
      · left
        rw [later.1]
        exact entered.was
    · exact entered.unclaimed
    · exact .inr entered.was
    · exact entered.next_le
  · rename_i more
    have same := Option.some.inj taken
    have page_lt := placed.page_lt
    have processed_lt := placed.processed_lt
    have page : (writer.v_page_number + 1 = layout.num_pages_per_block ∧
        middle.v_page_number = 0) ∨
        (writer.v_page_number + 1 < layout.num_pages_per_block ∧
          middle.v_page_number = writer.v_page_number + 1) := by
      have number : middle.v_page_number =
          (writer.v_page_number + 1) % layout.num_pages_per_block := by
        rw [← same]
        rfl
      by_cases wraps : writer.v_page_number + 1 = layout.num_pages_per_block
      · left
        rw [number, wraps, Nat.mod_self]
        exact ⟨rfl, rfl⟩
      · right
        have below : writer.v_page_number + 1 < layout.num_pages_per_block := by omega
        exact ⟨below, number.trans (Nat.mod_eq_of_lt below)⟩
    have fields : middle.v_block_number = writer.v_block_number ∧
        middle.toPool = writer.toPool ∧
        middle.num_v_pages_processed = writer.num_v_pages_processed + 1 := by
      rw [← same]
      exact ⟨rfl, rfl, rfl⟩
    obtain ⟨block, pool, processed⟩ := fields
    have pages : ∀ bn pn, middle.page bn pn = writer.page bn pn := by
      rw [← same]
      exact fun bn pn => rfl
    constructor
    · apply Placed.set_page
      constructor
      · rw [pool]
        exact placed.pool
      · omega
      · omega
      · rw [block, pool]
        exact placed.claimed
    · right
      have spans := @distance_eq K V layout writer middle.v_page_number
      show Later layout writer middle.v_block_number middle.v_page_number
      unfold Later
      omega
    · exact fresh
    · intro bn pn elsewhere
      rw [others bn pn elsewhere, pages]
      exact .refl _
    · rintro bn pn inside (unclaimed | later)
      · left
        have same_pool : middle.Unclaimed bn := unclaimed
        rw [pool] at same_pool
        exact same_pool
      · right
        have spans := @distance_eq K V layout writer pn
        have spans_after := @distance_eq K V layout middle pn
        have later : middle.Later layout bn pn := later
        unfold Later at later ⊢
        omega
    · intro bn unclaimed
      have same_pool : middle.Unclaimed bn := unclaimed
      rw [pool] at same_pool
      exact same_pool
    · exact .inl block
    · show _ ≤ middle.toPool.current_block_page.block_number
      rw [pool]

end Writer

end Hiom.Viper.Records
