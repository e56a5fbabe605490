import Hiom.Lib.Machine
import Hiom.Viper.Inserts

/-!
Clients that put and remove records of variable size, one call after another.
While each record with an empty value finds nothing at the beginning of the next
page, every record is read back as it was put, until it is removed.
-/

namespace Hiom.Viper.Records.Strings

open Bytes (patch slice)

/-! ### The store -/

/-- `log` has what has been put and where, `freed` what has been removed or put
again. -/
structure State where
  pool : Pool
  clients : Nat → Option Position
  log : List (KVOffset × Text × Text)
  freed : List KVOffset

inductive Action where
  | get_client (id : Nat)
  | drop_client (id : Nat)
  | put (id : Nat) (key value : Text) (old_offset : KVOffset)
  | remove (id : Nat) (kv_offset : KVOffset)
  | grow (n : Nat)

namespace State

def created (num_v_blocks : Nat) : State where
  pool := ⟨fun _ _ => ⟨0, 0#8, fun _ => 0#8⟩, num_v_blocks, .of_parts 0 0 0⟩
  clients := fun _ => none
  log := []
  freed := []

def writer (state : State) (position : Position) : Writer := ⟨state.pool, position⟩

def returned (state : State) (id : Nat) (writer : Writer) : State :=
  { state with
    pool := writer.toPool
    clients := Function.update state.clients id (some writer.toPosition) }

def logged (off : KVOffset) (key value : Text) (state : State) : State :=
  { state with log := (off, key, value) :: state.log }

def freeing (off : KVOffset) (state : State) : State :=
  if off.is_tombstone then state else { state with freed := off :: state.freed }

end State

/-- `old_offset` and `kv_offset` are what the index answers. -/
def machine : Machine State Action where
  initial := fun state => ∃ num_v_blocks < 2 ^ 45, state = .created num_v_blocks
  step := fun state action =>
    match action with
    | .get_client id =>
        match state.clients id with
        | some _ => none
        | none => do
            let writer ← (state.writer ⟨0, 0, 0⟩).get_new_var_size_access_information
            some (state.returned id writer)
    | .drop_client id => do
        let position ← state.clients id
        let writer := (state.writer position).leave_block (some position.v_block_number)
        some
          { state with
            pool := writer.toPool
            clients := Function.update state.clients id none }
    | .put id key value old_offset => do
        let position ← state.clients id
        let (var_offset, writer) ← (state.writer position).put key value old_offset
        some (((state.returned id writer).logged var_offset key value).freeing old_offset)
    | .remove id kv_offset => do
        let position ← state.clients id
        let (_, writer) ← (state.writer position).remove kv_offset
        some ((state.returned id writer).freeing kv_offset)
    | .grow n =>
        if state.pool.num_v_blocks + n < 2 ^ 45 then
          some { state with pool := { state.pool with num_v_blocks := state.pool.num_v_blocks + n } }
        else none

/-! ### What a step asks for -/

section Conditions

variable (readable : Prop) (state : State)

def Known (off : KVOffset) : Prop := off = .Tombstone ∨ ∃ entry ∈ state.log, entry.1 = off

/-- For records to be `readable`, one with an empty value has a page after its
own in the block, and none with an empty value is on the page that a put leaves
to begin the next page with a value, but the one that it replaces. -/
structure Tame (key value : Text) (old_offset : KVOffset) (position : Position) : Prop where
  sized : Sized key value
  known : Known state old_offset
  lands : readable → value = [] → position.v_page_number +
    (if Writer.fits (state.writer position).v_page.next_insert_offset (key.length + value.length)
      then 1 else 2) ≠ num_pages_per_block
  opens : readable → value ≠ [] →
    Writer.fits (state.writer position).v_page.next_insert_offset (key.length + value.length) = false →
    ∀ entry ∈ state.log, entry.2.2 = [] → entry.1.block_number = position.v_block_number →
      entry.1.page_number = position.v_page_number → entry.1 ∈ state.freed ∨ entry.1 = old_offset

def Steady : Action → Prop
  | .put id key value old_offset =>
      ∀ position, state.clients id = some position →
        Tame readable state key value old_offset position
  | .remove _ kv_offset => Known state kv_offset
  | _ => True

end Conditions

section Checks

variable {readable : Prop} {state : State}

theorem tame_iff {key value : Text} {old_offset : KVOffset} {position : Position} :
    (Sized key value ∧ Known state old_offset) ∧
      (readable → value = [] → position.v_page_number +
        (if Writer.fits (state.writer position).v_page.next_insert_offset (key.length + value.length)
          then 1 else 2) ≠ num_pages_per_block) ∧
      (readable → value ≠ [] → Writer.fits (state.writer position).v_page.next_insert_offset
          (key.length + value.length) = false →
        ∀ entry ∈ state.log, entry.2.2 = [] → entry.1.block_number = position.v_block_number →
          entry.1.page_number = position.v_page_number →
            entry.1 ∈ state.freed ∨ entry.1 = old_offset) ↔
    Tame readable state key value old_offset position := by
  constructor
  · intro ⟨⟨sized, known⟩, lands, opens⟩
    exact ⟨sized, known, lands, opens⟩
  · intro tame
    exact ⟨⟨tame.sized, tame.known⟩, tame.lands, tame.opens⟩

instance (key value : Text) : Decidable (Sized key value) := inferInstanceAs (Decidable (_ ≤ _))

instance (off : KVOffset) : Decidable (Known state off) := inferInstanceAs (Decidable (_ ∨ _))

variable [Decidable readable]

instance (key value : Text) (old_offset : KVOffset) (position : Position) :
    Decidable (Tame readable state key value old_offset position) :=
  decidable_of_iff _ tame_iff

variable (readable) in
def steady (state : State) : Action → Bool
  | .put id key value old_offset =>
      (state.clients id).all fun position =>
        decide (Tame readable state key value old_offset position)
  | .remove _ kv_offset => decide (Known state kv_offset)
  | _ => true

theorem steady_sound (action : Action) (passed : steady readable state action = true) :
    Steady readable state action := by
  cases action with
  | put id key value old_offset =>
      intro position here
      simp only [steady, here, Option.all_some] at passed
      exact of_decide_eq_true passed
  | remove id kv_offset =>
      have known : Known state kv_offset := of_decide_eq_true passed
      exact known
  | _ => trivial

end Checks

/-! ### Between two calls -/

def Record.entry (r : Record) : KVOffset × Text × Text := (r.off, r.key, r.value)

/-- `records` are those of the log. When they are `readable`, all but those of
`gone` can be read. -/
structure Holds (readable : Prop) (records : List Record) (pool : Pool)
    (freed gone : List KVOffset) : Prop where
  sound : pool.Sound
  written : ∀ r ∈ records, r.Written (!decide (r.off ∈ freed)) pool.v_blocks
  inside : ∀ r ∈ records, r.Inside pool.v_blocks
  apart : records.Pairwise Record.Apart
  legible : readable → ∀ r ∈ records, r.off ∉ gone → r.Legible pool.v_blocks
  named : ∀ off ∈ freed, ∃ r ∈ records, r.off = off

def Alike (v_blocks after : Nat → VPageBlock) : Prop :=
  ∀ bn pn, (after bn pn).next_insert_offset = (v_blocks bn pn).next_insert_offset ∧
    (after bn pn).data = (v_blocks bn pn).data

theorem Alike.blank {v_blocks after : Nat → VPageBlock} (alike : Alike v_blocks after) {bn pn : Nat}
    (blank : (v_blocks bn pn).Blank) : (after bn pn).Blank := by
  constructor
  · rw [(alike bn pn).1]
    exact blank.next
  · rw [(alike bn pn).2]
    exact blank.zero

theorem Alike.sound {pool after : Pool} (alike : Alike pool.v_blocks after.v_blocks)
    (sound : pool.Sound) (current : after.current_block_page = pool.current_block_page)
    (blocks_le : pool.num_v_blocks ≤ after.num_v_blocks) (small : after.num_v_blocks < 2 ^ 45) :
    after.Sound := by
  constructor
  · rw [current]
    exact sound.first_page
  · rw [current]
    exact Nat.le_trans sound.next_le blocks_le
  · exact small
  · intro bn pn above
    rw [current] at above
    exact alike.blank (sound.beyond bn pn above)
  · intro bn pn
    rw [(alike bn pn).1]
    exact (sound.starts bn pn).imp_left alike.blank
  · intro bn pn
    rw [(alike bn pn).1]
    exact sound.bounds bn pn

theorem Alike.places {pool after : Pool} {position : Position}
    (alike : Alike pool.v_blocks after.v_blocks) (places : pool.Places position)
    (current_le : pool.current_block_page.block_number ≤ after.current_block_page.block_number) :
    after.Places position := by
  constructor
  · exact places.processed
  · exact places.page_lt
  · exact Nat.lt_of_lt_of_le places.block_lt current_le
  · exact fun pn beyond => alike.blank (places.ahead pn beyond)
  · rw [(alike _ _).1]
    exact places.begun

theorem Holds.alike {readable : Prop} {records : List Record} {pool after : Pool}
    {freed gone : List KVOffset}
    (holds : Holds readable records pool freed gone) (sound : after.Sound)
    (alike : Alike pool.v_blocks after.v_blocks) : Holds readable records after freed gone := by
  have keeps : Keeps pool.v_blocks after.v_blocks := by
    constructor
    · exact fun bn pn i _ => congrFun (alike bn pn).2 i
    · exact fun bn pn => Nat.le_of_eq (alike bn pn).1.symm
  constructor
  · exact sound
  · exact fun r member => (holds.written r member).kept (holds.inside r member) keeps
  · exact fun r member => (holds.inside r member).kept keeps
  · exact holds.apart
  · intro reads r member free empty
    obtain ⟨within, nothing⟩ := holds.legible reads r member free empty
    refine ⟨within, ?_⟩
    rw [(alike _ _).2]
    exact nothing
  · exact holds.named

/-! ### Freed records -/

section Freed

variable {writer after : Writer} {off : KVOffset} {records : List Record} {freed : List KVOffset}

structure Unset (writer : Writer) (off : KVOffset) (after : Writer) : Prop where
  page : (after.page off.block_number off.page_number).next_insert_offset =
      (writer.page off.block_number off.page_number).next_insert_offset ∧
    (after.page off.block_number off.page_number).data =
      patch (writer.page off.block_number off.page_number).data off.data_offset
        { VarSizeEntry.read (writer.page off.block_number off.page_number).data off.data_offset with
          is_set := false }.bytes
  others : ∀ bn pn, ¬(bn = off.block_number ∧ pn = off.page_number) →
    after.page bn pn = writer.page bn pn
  unlocked : ∀ bn pn, (after.page bn pn).version_lock.is_locked = false
  position : after.toPosition = writer.toPosition
  current : after.current_block_page = writer.current_block_page
  blocks : after.num_v_blocks = writer.num_v_blocks

theorem free_occupied_slot_spec
    (unlocked : ∀ bn pn, (writer.page bn pn).version_lock.is_locked = false)
    (done : writer.free_occupied_slot off = some after) : Unset writer off after := by
  unfold Writer.free_occupied_slot at done
  dsimp only at done
  split at done
  · cases done
    constructor
    · rw [Writer.set_page_self]
      exact ⟨rfl, rfl⟩
    · exact fun bn pn apart => Writer.set_page_other apart
    · intro bn pn
      rw [Writer.page_set_page]
      split
      · exact unlocked off.block_number off.page_number
      · exact unlocked bn pn
    · rfl
    · rfl
    · rfl
  · simp only [Option.bind_eq_bind, Option.bind_eq_some_iff, Option.some.injEq] at done
    obtain ⟨page, locks, rfl⟩ := done
    obtain ⟨free, rfl⟩ := VPage.lock_eq_some.mp locks
    constructor
    · rw [Writer.set_page_self]
      exact ⟨rfl, rfl⟩
    · exact fun bn pn apart => Writer.set_page_other apart
    · intro bn pn
      rw [Writer.page_set_page]
      split
      · exact version_lock_t.released_free (version_lock_t.locked_version free).2
      · exact unlocked bn pn
    · rfl
    · rfl
    · rfl

variable {r : Record} {gone : List KVOffset} {readable : Prop}

theorem Unset.next (unset : Unset writer off after) (bn pn : Nat) :
    (after.page bn pn).next_insert_offset = (writer.page bn pn).next_insert_offset := by
  by_cases here : bn = off.block_number ∧ pn = off.page_number
  · rw [here.1, here.2]
    exact unset.page.1
  · rw [unset.others bn pn here]

/-- No more than the entry changes. -/
theorem Unset.data (unset : Unset writer off after) {bn pn i : Nat}
    (outside : ¬(bn = off.block_number ∧ pn = off.page_number ∧ off.data_offset ≤ i ∧
      i < off.data_offset + meta_size)) :
    (after.page bn pn).data i = (writer.page bn pn).data i := by
  by_cases here : bn = off.block_number ∧ pn = off.page_number
  · obtain ⟨rfl, rfl⟩ := here
    rw [unset.page.2]
    apply Bytes.patch_outside
    rw [VarSizeEntry.length_bytes]
    by_contra inside
    apply outside
    refine ⟨rfl, rfl, ?_⟩
    omega
  · rw [unset.others bn pn here]

/-- The page of a record is not blank. -/
theorem Unset.blank (unset : Unset writer r.off after) (inside : r.Inside writer.v_blocks)
    {bn pn : Nat} (blank : (writer.page bn pn).Blank) : (after.page bn pn).Blank := by
  rw [unset.others bn pn]
  · exact blank
  · rintro ⟨rfl, rfl⟩
    have ends := inside.ends
    have nothing : (writer.v_blocks r.off.block_number r.off.page_number).next_insert_offset = 0 :=
      blank.next
    unfold Record.key_end meta_size at ends
    omega

theorem Unset.sound (unset : Unset writer r.off after) (inside : r.Inside writer.v_blocks)
    (sound : writer.toPool.Sound) : after.toPool.Sound := by
  constructor
  · rw [unset.current]
    exact sound.first_page
  · rw [unset.current, unset.blocks]
    exact sound.next_le
  · rw [unset.blocks]
    exact sound.blocks_lt
  · intro bn pn above
    rw [unset.current] at above
    exact unset.blank inside (sound.beyond bn pn above)
  · intro bn pn
    rcases sound.starts bn pn with nothing | begun
    · exact .inl (unset.blank inside nothing)
    · right
      exact Nat.le_trans begun (Nat.le_of_eq (unset.next bn pn).symm)
  · intro bn pn
    exact Nat.le_trans (Nat.le_of_eq (unset.next bn pn)) (sound.bounds bn pn)

theorem Unset.places {position : Position} (unset : Unset writer r.off after)
    (inside : r.Inside writer.v_blocks) (places : writer.toPool.Places position) :
    after.toPool.Places position := by
  constructor
  · exact places.processed
  · exact places.page_lt
  · rw [unset.current]
    exact places.block_lt
  · exact fun pn beyond => unset.blank inside (places.ahead pn beyond)
  · show _ ∨ _ ≤ (after.page _ _).next_insert_offset
    rw [unset.next]
    exact places.begun

/-- The record itself is as it was, but for the mark. -/
theorem Unset.written {is_set : Bool} (unset : Unset writer r.off after)
    (written : r.Written is_set writer.v_blocks) : r.Written false after.v_blocks := by
  have entry := written.entry
  have others : ∀ bn pn i, r.off.data_offset + meta_size ≤ i ∨ pn ≠ r.off.page_number →
      (after.page bn pn).data i = (writer.page bn pn).data i := by
    intro bn pn i apart
    apply unset.data
    rintro ⟨-, page, -, below⟩
    rcases apart with above | elsewhere
    · omega
    · exact elsewhere page
  constructor
  · show VarSizeEntry.read (after.page _ _).data _ = _
    rw [unset.page.2, ← List.append_nil (VarSizeEntry.bytes _), VarSizeEntry.read_patch]
    · show VarSizeEntry.mk false (VarSizeEntry.read (writer.v_blocks _ _).data _).key_size
        (VarSizeEntry.read (writer.v_blocks _ _).data _).value_size = _
      rw [entry]
    · exact ⟨VarSizeEntry.read_proper.key_size, VarSizeEntry.read_proper.value_size⟩
  · conv => rhs; rw [← written.key]
    apply Bytes.slice_congr
    exact fun i above _ => others _ _ i (.inl above)
  · intro split
    conv => rhs; rw [← written.value split]
    apply Bytes.slice_congr
    exact fun i above _ => others _ _ i (.inl (by omega))
  · intro split
    rw [← written.value_entry split]
    congr 1
    apply VarSizeEntry.read_congr
    exact fun i _ _ => others _ _ i (.inr (Nat.succ_ne_self _))
  · intro split
    conv => rhs; rw [← written.value_next split]
    apply Bytes.slice_congr
    exact fun i _ _ => others _ _ i (.inr (Nat.succ_ne_self _))

/-- The size of a value at the beginning of a page stays. -/
theorem Unset.value_size (unset : Unset writer off after)
    (starts : off.data_offset = 0 ∨ meta_size ≤ off.data_offset) (bn pn : Nat) :
    (VarSizeEntry.read (after.page bn pn).data 0).value_size =
      (VarSizeEntry.read (writer.page bn pn).data 0).value_size := by
  by_cases here : bn = off.block_number ∧ pn = off.page_number
  · obtain ⟨rfl, rfl⟩ := here
    rw [unset.page.2]
    rcases starts with first | later
    · rw [first, ← List.append_nil (VarSizeEntry.bytes _), VarSizeEntry.read_patch]
      exact ⟨VarSizeEntry.read_proper.key_size, VarSizeEntry.read_proper.value_size⟩
    · rw [VarSizeEntry.read_patch_apart]
      left
      rw [Nat.zero_add]
      exact later
  · rw [unset.others bn pn here]

/-- A record of the log is freed. -/
theorem Holds.freeing (holds : Holds readable records writer.toPool freed gone) (member : r ∈ records)
    (unset : Unset writer r.off after) :
    Holds readable records after.toPool (r.off :: freed) gone := by
  have inside := holds.inside r member
  have next_le : ∀ bn pn, (writer.page bn pn).next_insert_offset ≤
      (after.page bn pn).next_insert_offset := fun bn pn => Nat.le_of_eq (unset.next bn pn).symm
  constructor
  · exact unset.sound inside holds.sound
  · intro s other
    by_cases same : s = r
    · subst same
      rw [show (!decide (s.off ∈ s.off :: freed)) = false by simp]
      exact unset.written (holds.written s member)
    · have apart : r.Apart s := by
        have symm : Std.Symm Record.Apart :=
          ⟨fun first second disjoint bn pn i here there => disjoint bn pn i there here⟩
        exact holds.apart.forall member other (Ne.symm same)
      have still : (!decide (s.off ∈ r.off :: freed)) = !decide (s.off ∈ freed) := by
        simp [Ne.symm apart.off_ne]
      rw [still]
      apply (holds.written s other).congr
      intro bn pn i covers
      apply unset.data
      rintro ⟨rfl, rfl, above, below⟩
      exact apart _ _ i (r.covers_entry above below) covers
  · intro s other
    have within := holds.inside s other
    exact ⟨within.word, within.page_lt, within.starts, Nat.le_trans within.ends (next_le _ _),
      within.next_lt, fun split => Nat.le_trans (within.next_ends split) (next_le _ _),
      within.nonempty⟩
  · exact holds.apart
  · intro reads s other free empty
    obtain ⟨within, nothing⟩ := holds.legible reads s other free empty
    refine ⟨within, ?_⟩
    exact (unset.value_size inside.starts _ _).trans nothing
  · intro off found
    rcases List.mem_cons.mp found with rfl | before
    · exact ⟨r, member, rfl⟩
    · exact holds.named off before

end Freed

/-! ### Put records -/

section Inserted

open Writer (Inserted fits)

variable {writer after : Writer} {key value : Text} {off : KVOffset}

/-- The blocks begun so far. -/
theorem inserted_current (inserted : Inserted writer key value off after)
    (sound : writer.toPool.Sound) :
    after.current_block_page.page_number = 0 ∧
      after.current_block_page.block_number ≤ writer.num_v_blocks ∧
      (after.current_block_page.block_number = writer.current_block_page.block_number ∧
          after.v_block_number = writer.v_block_number ∨
        after.current_block_page.block_number = writer.current_block_page.block_number + 1 ∧
          after.v_block_number = writer.current_block_page.block_number) := by
  have next_le := sound.next_le
  have blocks_lt := sound.blocks_lt
  rcases inserted.moved with ⟨-, same, current⟩ | ⟨-, next, -⟩
  · rw [current]
    exact ⟨sound.first_page, next_le, .inl ⟨rfl, congrArg Position.v_block_number same⟩⟩
  · cases next with
    | page block page inside current =>
        rw [current]
        exact ⟨sound.first_page, next_le, .inl ⟨rfl, block⟩⟩
    | block block page last mapped current =>
        rw [current, KVOffset.page_number_of_parts (by decide),
          KVOffset.block_number_of_parts (by omega)]
        exact ⟨rfl, mapped, .inr ⟨rfl, block⟩⟩

/-- A page that the client has not come to is as it was. -/
theorem inserted_blank (inserted : Inserted writer key value off after) {bn pn : Nat}
    (blank : (writer.page bn pn).Blank)
    (other : ¬(bn = writer.v_block_number ∧ pn = writer.v_page_number))
    (apart : ¬(bn = after.v_block_number ∧ pn = after.v_page_number)) :
    (after.page bn pn).Blank := by
  rcases inserted.changes bn pn with ⟨next, data⟩ | ⟨here | here, -⟩
  · constructor
    · rw [next]
      exact blank.next
    · rw [data]
      exact blank.zero
  · exact absurd here other
  · exact absurd here apart

theorem inserted_sound (inserted : Inserted writer key value off after)
    (sound : writer.toPool.Sound) (places : writer.toPool.Places writer.toPosition) :
    after.toPool.Sound := by
  obtain ⟨first_page, next_le, blocks⟩ := inserted_current inserted sound
  have block_lt := places.block_lt
  constructor
  · exact first_page
  · rw [inserted.blocks]
    exact next_le
  · rw [inserted.blocks]
    exact sound.blocks_lt
  · intro bn pn above
    apply inserted_blank inserted
    · apply sound.beyond
      omega
    · rintro ⟨rfl, -⟩
      omega
    · rintro ⟨rfl, -⟩
      omega
  · intro bn pn
    rcases inserted.changes bn pn with ⟨next, data⟩ | ⟨-, begun, -⟩
    · rcases sound.starts bn pn with blank | begun
      · left
        constructor
        · exact next.trans blank.next
        · intro i
          exact (congrFun data i).trans (blank.zero i)
      · right
        exact Nat.le_trans begun (Nat.le_of_eq next.symm)
    · exact .inr begun
  · intro bn pn
    rcases inserted.changes bn pn with ⟨next, -⟩ | ⟨-, -, bound⟩
    · exact Nat.le_trans (Nat.le_of_eq next) (sound.bounds bn pn)
    · exact bound

/-- Where the client writes now. -/
theorem inserted_places (inserted : Inserted writer key value off after)
    (sound : writer.toPool.Sound) (places : writer.toPool.Places writer.toPosition) :
    after.toPool.Places after.toPosition := by
  have block_lt := places.block_lt
  have page_lt := places.page_lt
  rcases inserted.moved with ⟨-, same, current⟩ | ⟨-, next, processed, -⟩
  · rw [same]
    constructor
    · exact places.processed
    · exact places.page_lt
    · rw [current]
      exact places.block_lt
    · intro pn beyond
      have apart : ¬(writer.v_block_number = writer.v_block_number ∧ pn = writer.v_page_number) :=
        fun here => Nat.ne_of_gt beyond here.2
      apply inserted_blank inserted (places.ahead pn beyond) apart
      rw [same]
      exact apart
    · rw [← same]
      exact .inr inserted.begun
  · have begun := inserted.begun
    cases next with
    | page block page inside current =>
        constructor
        · exact processed
        · rw [page]
          exact inside
        · rw [current, block]
          exact places.block_lt
        · intro pn beyond
          apply inserted_blank inserted
          · rw [block]
            apply places.ahead
            omega
          · rintro ⟨-, rfl⟩
            omega
          · exact fun here => Nat.ne_of_gt beyond here.2
        · exact .inr begun
    | block block page last mapped current =>
        have small : writer.current_block_page.block_number + 1 < 2 ^ 45 := by
          have blocks_lt := sound.blocks_lt
          omega
        constructor
        · exact processed
        · rw [page]
          decide
        · rw [current, block, KVOffset.block_number_of_parts small]
          exact Nat.lt_succ_self _
        · intro pn beyond
          apply inserted_blank inserted
          · rw [block]
            exact sound.beyond _ _ (Nat.le_refl _)
          · rintro ⟨same, -⟩
            omega
          · exact fun here => Nat.ne_of_gt beyond here.2
        · exact .inr begun

variable {readable : Prop} {records : List Record} {freed : List KVOffset} {old_offset : KVOffset}

/-- A put lets the records be read that could be before, but for the one that it
replaces. -/
theorem inserted_legible {r : Record} (inserted : Inserted writer key value off after)
    (reads : readable) (holds : Holds readable records writer.toPool freed freed)
    (places : writer.toPool.Places writer.toPosition)
    (opens : value ≠ [] → fits writer.v_page.next_insert_offset (key.length + value.length) = false →
      r.value = [] → r.off.block_number = writer.v_block_number →
      r.off.page_number = writer.v_page_number → r.off ∈ old_offset :: freed)
    (member : r ∈ records) (free : r.off ∉ old_offset :: freed) : r.Legible after.v_blocks := by
  intro empty
  obtain ⟨within, nothing⟩ :=
    holds.legible reads r member (fun gone => free (List.mem_cons_of_mem _ gone)) empty
  refine ⟨within, ?_⟩
  by_cases here : r.off.block_number = writer.v_block_number ∧
      r.off.page_number + 1 = writer.v_page_number
  · -- the client's own page begins with an entry already
    have begun : meta_size ≤ writer.v_page.next_insert_offset := by
      rcases places.begun with first | begun
      · omega
      · exact begun
    rw [here.1, here.2] at nothing ⊢
    have same : VarSizeEntry.read
        (after.v_blocks writer.v_block_number writer.v_page_number).data 0 =
          VarSizeEntry.read (writer.v_blocks writer.v_block_number writer.v_page_number).data 0 := by
      apply VarSizeEntry.read_congr
      intro i _ below
      apply inserted.keeps.data
      exact Nat.lt_of_lt_of_le (by omega) begun
    rw [same]
    exact nothing
  · rcases inserted.changes r.off.block_number (r.off.page_number + 1) with
      ⟨-, data⟩ | ⟨own | opened, -⟩
    · exact (congrArg (fun data => (VarSizeEntry.read data 0).value_size) data).trans nothing
    · exact absurd own here
    · rcases inserted.moved with ⟨-, same, -⟩ | ⟨short, next, -, entry⟩
      · rw [same] at opened
        exact absurd opened here
      · rw [opened.1, opened.2]
        apply entry.trans
        by_contra some_value
        apply free
        apply opens (fun none_there => some_value (congrArg List.length none_there)) short empty
        · cases next with
          | page block page inside current => exact opened.1.trans block
          | block block page last mapped current => omega
        · cases next with
          | page block page inside current => omega
          | block block page last mapped current => omega

theorem inserted_holds (inserted : Inserted writer key value off after)
    (holds : Holds readable records writer.toPool freed freed)
    (places : writer.toPool.Places writer.toPosition)
    (lands : readable → value = [] → writer.v_page_number +
      (if fits writer.v_page.next_insert_offset (key.length + value.length) then 1 else 2) ≠
        num_pages_per_block)
    (opens : readable → ∀ r ∈ records, value ≠ [] →
      fits writer.v_page.next_insert_offset (key.length + value.length) = false →
      r.value = [] → r.off.block_number = writer.v_block_number →
      r.off.page_number = writer.v_page_number → r.off ∈ old_offset :: freed) :
    ∃ r : Record, r.entry = (off, key, value) ∧
      Holds readable (r :: records) after.toPool freed (old_offset :: freed) := by
  obtain ⟨split, written, inside, covers, whole⟩ := inserted.record
  have sound := inserted_sound inserted holds.sound places
  have here := inserted_places inserted holds.sound places
  have apart : ∀ r ∈ records, (Record.mk off key value split).Apart r := by
    intro r member bn pn i new old
    have above := covers bn pn i new
    have below : i < (writer.page bn pn).next_insert_offset := (holds.inside r member).covered old
    omega
  refine ⟨⟨off, key, value, split⟩, rfl, ?_⟩
  constructor
  · exact sound
  · intro r member
    rcases List.mem_cons.mp member with rfl | before
    · have fresh : off ∉ freed := by
        intro gone
        obtain ⟨r, old, same⟩ := holds.named off gone
        exact (apart r old).off_ne same.symm
      rw [show (!decide (off ∈ freed)) = true by simp [fresh]]
      exact written
    · exact (holds.written r before).kept (holds.inside r before) inserted.keeps
  · intro r member
    rcases List.mem_cons.mp member with rfl | before
    · exact inside
    · exact (holds.inside r before).kept inserted.keeps
  · exact List.pairwise_cons.mpr ⟨apart, holds.apart⟩
  · intro reads r member free
    rcases List.mem_cons.mp member with rfl | before
    · intro empty
      dsimp only at empty ⊢
      subst empty
      have one : split = false := by
        by_contra two
        exact inside.nonempty (Bool.not_eq_false _ ▸ two) rfl
      obtain ⟨block, page⟩ := whole one
      have lands := lands reads rfl
      rw [block, page]
      have within : after.v_page_number + 1 < num_pages_per_block := by
        have page_lt := here.page_lt
        rcases inserted.moved with ⟨enough, same, -⟩ | ⟨short, next, -⟩
        · rw [if_pos enough] at lands
          rw [same] at page_lt ⊢
          omega
        · rw [if_neg (Bool.eq_false_iff.mp short)] at lands
          cases next with
          | page _ page inside current => omega
          | block _ page last mapped current =>
              rw [page]
              decide
      exact ⟨within, (here.ahead _ (Nat.lt_succ_self _)).value_size⟩
    · exact inserted_legible inserted reads holds places (opens reads r before) before free
  · intro gone member
    obtain ⟨r, before, same⟩ := holds.named gone member
    exact ⟨r, List.mem_cons_of_mem _ before, same⟩

/-- Where the other clients write. -/
theorem inserted_others {position : Position} (inserted : Inserted writer key value off after)
    (sound : writer.toPool.Sound) (other : position.v_block_number ≠ writer.v_block_number)
    (places : writer.toPool.Places position) : after.toPool.Places position := by
  have block_lt := places.block_lt
  have blocks := (inserted_current inserted sound).2.2
  have away : position.v_block_number ≠ after.v_block_number := by omega
  have unchanged : ∀ pn, (after.page position.v_block_number pn).next_insert_offset =
        (writer.page position.v_block_number pn).next_insert_offset ∧
      (after.page position.v_block_number pn).data = (writer.page position.v_block_number pn).data := by
    intro pn
    rcases inserted.changes position.v_block_number pn with same | ⟨here | here, -⟩
    · exact same
    · exact absurd here.1 other
    · exact absurd here.1 away
  constructor
  · exact places.processed
  · exact places.page_lt
  · exact Nat.lt_of_lt_of_le block_lt (by omega)
  · intro pn beyond
    have blank := places.ahead pn beyond
    exact ⟨(unchanged pn).1.trans blank.next, fun i =>
      (congrFun (unchanged pn).2 i).trans (blank.zero i)⟩
  · rcases places.begun with first | begun
    · exact .inl first
    · exact .inr (Nat.le_trans begun (Nat.le_of_eq (unchanged _).1.symm))

end Inserted

/-! ### Runs -/

structure Consistent (readable : Prop) (records : List Record) (state : State) : Prop where
  holds : Holds readable records state.pool state.freed state.freed
  log : state.log = records.map Record.entry
  unlocked : ∀ bn pn, (state.pool.v_blocks bn pn).version_lock.is_locked = false
  placed : ∀ id position, state.clients id = some position → state.pool.Places position
  alone : ∀ id other position other_position, state.clients id = some position →
    state.clients other = some other_position →
    position.v_block_number = other_position.v_block_number → id = other

section Runs

variable {readable : Prop} {state next : State} {records : List Record}

theorem consistent_created {num_v_blocks : Nat} (small : num_v_blocks < 2 ^ 45) :
    Consistent readable [] (.created num_v_blocks) := by
  have blank : ∀ bn pn, ((State.created num_v_blocks).pool.v_blocks bn pn).Blank :=
    fun _ _ => ⟨rfl, fun _ => rfl⟩
  have first : (State.created num_v_blocks).pool.current_block_page = .of_parts 0 0 0 := rfl
  constructor
  · constructor
    · constructor
      · rw [first]
        exact KVOffset.page_number_of_parts (by decide)
      · rw [first, KVOffset.block_number_of_parts (by decide)]
        exact Nat.zero_le _
      · exact small
      · exact fun bn pn _ => blank bn pn
      · exact fun bn pn => .inl (blank bn pn)
      · exact fun bn pn => Nat.zero_le _
    · intro r member
      cases member
    · intro r member
      cases member
    · exact List.Pairwise.nil
    · intro _ r member
      cases member
    · intro off member
      cases member
  · rfl
  · intro bn pn
    show version_lock_t.is_locked 0#8 = false
    decide
  · intro id position here
    cases here
  · intro id other position other_position here
    cases here

/-- A call of a client leaves it at a position, and the other clients at theirs. -/
theorem Consistent.returned {id : Nat} {position : Position} {writer : Writer} {more : List Record}
    {log : List (KVOffset × Text × Text)} {freed : List KVOffset}
    (consistent : Consistent readable records state) (here : state.clients id = some position)
    (holds : Holds readable more writer.toPool freed freed) (logged : log = more.map Record.entry)
    (unlocked : ∀ bn pn, (writer.page bn pn).version_lock.is_locked = false)
    (places : writer.toPool.Places writer.toPosition)
    (others : ∀ position', position'.v_block_number ≠ position.v_block_number →
      state.pool.Places position' → writer.toPool.Places position')
    (block : writer.v_block_number = position.v_block_number ∨
      state.pool.current_block_page.block_number ≤ writer.v_block_number) :
    Consistent readable more
      ⟨writer.toPool, Function.update state.clients id (some writer.toPosition), log, freed⟩ := by
  have own := consistent.placed id position here
  have away : ∀ other other_position, other ≠ id → state.clients other = some other_position →
      other_position.v_block_number ≠ position.v_block_number := by
    intro other other_position different there same
    exact different (consistent.alone other id other_position position there here same)
  have distinct : ∀ other other_position, other ≠ id → state.clients other = some other_position →
      other_position.v_block_number ≠ writer.v_block_number := by
    intro other other_position different there same
    rcases block with kept | fresh
    · exact away other other_position different there (same.trans kept)
    · have below := (consistent.placed other other_position there).block_lt
      omega
  constructor
  · exact holds
  · exact logged
  · exact unlocked
  · intro other other_position there
    by_cases same : other = id
    · subst same
      dsimp only at there
      rw [Function.update_self] at there
      cases there
      exact places
    · dsimp only at there
      rw [Function.update_of_ne same] at there
      exact others other_position (away other other_position same there)
        (consistent.placed other other_position there)
  · intro first second first_position second_position first_here second_here same
    dsimp only at first_here second_here
    by_cases first_own : first = id
    · by_cases second_own : second = id
      · rw [first_own, second_own]
      · rw [first_own, Function.update_self] at first_here
        rw [Function.update_of_ne second_own] at second_here
        cases first_here
        exact absurd same.symm (distinct second second_position second_own second_here)
    · rw [Function.update_of_ne first_own] at first_here
      by_cases second_own : second = id
      · rw [second_own, Function.update_self] at second_here
        cases second_here
        exact absurd same (distinct first first_position first_own first_here)
      · rw [Function.update_of_ne second_own] at second_here
        exact consistent.alone first second first_position second_position first_here second_here same

/-- The client's page is locked while it writes, and then unlocked. -/
theorem unlock_alike (writer : Writer) (bn pn : Nat) :
    Alike writer.v_blocks (writer.set_page bn pn (writer.page bn pn).unlock).v_blocks := by
  intro bn' pn'
  show ((writer.set_page bn pn (writer.page bn pn).unlock).page bn' pn').next_insert_offset = _ ∧
    ((writer.set_page bn pn (writer.page bn pn).unlock).page bn' pn').data = _
  rw [Writer.page_set_page]
  split
  · rename_i here
    rw [here.1, here.2]
    exact ⟨rfl, rfl⟩
  · exact ⟨rfl, rfl⟩

/-- The index has answered with an offset of the log, whose record is freed. -/
theorem free_known {writer after : Writer} {freed gone : List KVOffset} {off : KVOffset}
    (holds : Holds readable records writer.toPool freed gone)
    (unlocked : ∀ bn pn, (writer.page bn pn).version_lock.is_locked = false)
    (known : ∃ r ∈ records, r.off = off) (done : writer.free_occupied_slot off = some after) :
    Holds readable records after.toPool (off :: freed) gone ∧
      (∀ bn pn, (after.page bn pn).version_lock.is_locked = false) ∧
      after.toPosition = writer.toPosition ∧
      ∀ position, writer.toPool.Places position → after.toPool.Places position := by
  have unset := free_occupied_slot_spec unlocked done
  obtain ⟨r, member, rfl⟩ := known
  exact ⟨holds.freeing member unset, unset.unlocked, unset.position,
    fun position places => unset.places (holds.inside r member) places⟩

theorem known_record (consistent : Consistent readable records state) {off : KVOffset}
    (known : Known state off) (real : off.is_tombstone = false) : ∃ r ∈ records, r.off = off := by
  rcases known with rfl | ⟨entry, member, same⟩
  · cases real
  · rw [consistent.log] at member
    obtain ⟨r, inside, rfl⟩ := List.mem_map.mp member
    exact ⟨r, inside, same⟩

theorem Consistent.put {id : Nat} {position : Position} {key value : Text}
    {old_offset var_offset : KVOffset} {writer : Writer}
    (consistent : Consistent readable records state) (here : state.clients id = some position)
    (tame : Tame readable state key value old_offset position)
    (done : (state.writer position).put key value old_offset = some (var_offset, writer)) :
    ∃ records, Consistent readable records
      (((state.returned id writer).logged var_offset key value).freeing old_offset) := by
  have places := consistent.placed id position here
  simp only [Writer.put, Option.bind_eq_bind, Option.bind_eq_some_iff] at done
  obtain ⟨⟨off, middle⟩, inserts, done⟩ := done
  have inserted := @Writer.insert_spec (state.writer position) middle key value off tame.sized
    consistent.holds.sound places consistent.unlocked inserts
  have opens : readable → ∀ r ∈ records, value ≠ [] →
      Writer.fits (state.writer position).v_page.next_insert_offset (key.length + value.length) =
        false → r.value = [] → r.off.block_number = position.v_block_number →
      r.off.page_number = position.v_page_number → r.off ∈ old_offset :: state.freed := by
    intro reads r member some_value short empty block page
    have logged : r.entry ∈ state.log := by
      rw [consistent.log]
      exact List.mem_map_of_mem member
    rcases tame.opens reads some_value short r.entry logged empty block page with gone | replaced
    · exact List.mem_cons_of_mem _ gone
    · exact List.mem_cons.mpr (.inl replaced)
  obtain ⟨r, entry, holds⟩ := inserted_holds inserted consistent.holds places tame.lands opens
  have own := inserted_places inserted consistent.holds.sound places
  have others := fun position' => @inserted_others (state.writer position) middle key value off
    position' inserted consistent.holds.sound
  have blocks := (inserted_current inserted consistent.holds.sound).2.2
  have alike := unlock_alike middle position.v_block_number position.v_page_number
  have unlocked : ∀ bn pn, ((middle.set_page position.v_block_number position.v_page_number
      (middle.page position.v_block_number position.v_page_number).unlock).page bn
        pn).version_lock.is_locked = false := by
    intro bn pn
    rw [Writer.page_set_page]
    split
    · exact version_lock_t.released_free inserted.lock_held
    · rename_i apart
      exact inserted.locked bn pn apart
  have unlocked_holds := holds.alike
    (alike.sound holds.sound rfl (Nat.le_refl _) holds.sound.blocks_lt) alike
  have unlocked_own := alike.places own (Nat.le_refl _)
  have unlocked_others : ∀ position', position'.v_block_number ≠ position.v_block_number →
      state.pool.Places position' → (middle.set_page position.v_block_number position.v_page_number
        (middle.page position.v_block_number position.v_page_number).unlock).toPool.Places
          position' := by
    intro position' different there
    exact alike.places (others position' different there) (Nat.le_refl _)
  have block : middle.v_block_number = position.v_block_number ∨
      state.pool.current_block_page.block_number ≤ middle.v_block_number := by
    rcases blocks with ⟨-, kept⟩ | ⟨-, fresh⟩
    · exact .inl kept
    · exact .inr (Nat.le_of_eq fresh.symm)
  have logged : (off, key, value) :: state.log = (r :: records).map Record.entry := by
    rw [List.map_cons, entry, consistent.log]
  split at done
  · rename_i nothing
    cases done
    refine ⟨r :: records, ?_⟩
    unfold State.freeing
    rw [if_pos nothing]
    apply consistent.returned here _ logged unlocked unlocked_own unlocked_others block
    have real := unlocked_holds
    constructor
    · exact real.sound
    · exact real.written
    · exact real.inside
    · exact real.apart
    · intro reads s member free
      apply real.legible reads s member
      intro gone
      rcases List.mem_cons.mp gone with tombstone | before
      · have page_lt := (real.inside s member).page_lt
        have word : old_offset = .Tombstone := congrArg KVOffset.mk (eq_of_beq nothing)
        rw [tombstone, word] at page_lt
        exact absurd page_lt (by decide)
      · exact free before
    · exact real.named
  · rename_i real
    rw [Option.bind_eq_some_iff] at done
    obtain ⟨last, frees, same⟩ := done
    cases same
    refine ⟨r :: records, ?_⟩
    unfold State.freeing
    rw [if_neg real]
    obtain ⟨s, member, was⟩ := known_record consistent tame.known (Bool.not_eq_true _ ▸ real)
    obtain ⟨freed_holds, freed_unlocked, position_same, kept⟩ :=
      free_known unlocked_holds unlocked ⟨s, List.mem_cons_of_mem _ member, was⟩ frees
    apply consistent.returned here freed_holds logged freed_unlocked
    · rw [position_same]
      exact kept _ unlocked_own
    · exact fun position' different there => kept position' (unlocked_others position' different there)
    · rw [position_same]
      exact block

theorem Consistent.remove {id : Nat} {position : Position} {kv_offset : KVOffset} {answer : Bool}
    {writer : Writer} (consistent : Consistent readable records state)
    (here : state.clients id = some position) (known : Known state kv_offset)
    (done : (state.writer position).remove kv_offset = some (answer, writer)) :
    Consistent readable records ((state.returned id writer).freeing kv_offset) := by
  have places := consistent.placed id position here
  unfold Writer.remove at done
  unfold State.freeing
  split at done
  · rename_i nothing
    cases done
    rw [if_pos nothing]
    exact consistent.returned here consistent.holds consistent.log consistent.unlocked places
      (fun _ _ there => there) (.inl rfl)
  · rename_i real
    rw [Option.bind_eq_bind, Option.bind_eq_some_iff] at done
    obtain ⟨after, frees, same⟩ := done
    cases same
    rw [if_neg real]
    obtain ⟨freed_holds, unlocked, position_same, kept⟩ :=
      @free_known readable records (state.writer position) writer state.freed state.freed kv_offset
        consistent.holds consistent.unlocked
        (known_record consistent known (Bool.not_eq_true _ ▸ real)) frees
    have more : Holds readable records writer.toPool (kv_offset :: state.freed)
        (kv_offset :: state.freed) := by
      constructor
      · exact freed_holds.sound
      · exact freed_holds.written
      · exact freed_holds.inside
      · exact freed_holds.apart
      · exact fun reads r member free => freed_holds.legible reads r member
          (fun gone => free (List.mem_cons_of_mem _ gone))
      · exact freed_holds.named
    apply consistent.returned here more consistent.log unlocked
    · rw [position_same]
      exact kept position places
    · exact fun position' _ there => kept position' there
    · rw [position_same]
      exact .inl rfl

theorem Consistent.get_client {id : Nat} {writer : Writer}
    (consistent : Consistent readable records state)
    (absent : state.clients id = none)
    (done : (state.writer ⟨0, 0, 0⟩).get_new_var_size_access_information = some writer) :
    Consistent readable records (state.returned id writer) := by
  simp only [Writer.get_new_var_size_access_information, Option.bind_eq_bind,
    Option.bind_eq_some_iff, Option.some.injEq] at done
  obtain ⟨middle, taken, rfl⟩ := done
  have sound : (state.writer ⟨0, 0, 0⟩).toPool.Sound := consistent.holds.sound
  obtain ⟨mapped, block, page, processed, blocks, current, same⟩ :=
    Writer.get_block_based_access_spec sound (consistent.unlocked _ _) taken
  have small : state.pool.current_block_page.block_number + 1 < 2 ^ 45 := by
    have blocks_lt := consistent.holds.sound.blocks_lt
    have below : state.pool.current_block_page.block_number < state.pool.num_v_blocks := mapped
    omega
  have middle_same : middle.v_page.Same
      (state.pool.v_blocks state.pool.current_block_page.block_number 0) := by
    unfold Writer.v_page
    rw [block, page]
    exact same _ _
  have blank : middle.v_page.Blank :=
    middle_same.blank (consistent.holds.sound.beyond _ _ (Nat.le_refl _))
  have looks : ∀ bn pn, ((middle.set_v_page (middle.v_page.set_next_insert_offset 0)).page bn pn).Same
      (state.pool.v_blocks bn pn) := by
    intro bn pn
    apply VPage.Same.trans _ (same bn pn)
    apply Writer.set_page_same
    exact ⟨blank.next.symm, rfl, rfl⟩
  have alike : Alike state.pool.v_blocks
      (middle.set_v_page (middle.v_page.set_next_insert_offset 0)).v_blocks :=
    fun bn pn => ⟨(looks bn pn).next, (looks bn pn).data⟩
  have current_eq : middle.current_block_page.block_number =
      state.pool.current_block_page.block_number + 1 := by
    rw [current]
    exact KVOffset.block_number_of_parts small
  have sound_after : (middle.set_v_page (middle.v_page.set_next_insert_offset 0)).toPool.Sound := by
    constructor
    · show middle.current_block_page.page_number = 0
      rw [current]
      exact KVOffset.page_number_of_parts (by decide)
    · show middle.current_block_page.block_number ≤ middle.num_v_blocks
      rw [current_eq, blocks]
      exact mapped
    · show middle.num_v_blocks < 2 ^ 45
      rw [blocks]
      exact consistent.holds.sound.blocks_lt
    · intro bn pn above
      apply alike.blank
      apply consistent.holds.sound.beyond
      have above : middle.current_block_page.block_number ≤ bn := above
      omega
    · intro bn pn
      rw [(alike bn pn).1]
      exact (consistent.holds.sound.starts bn pn).imp_left alike.blank
    · intro bn pn
      rw [(alike bn pn).1]
      exact consistent.holds.sound.bounds bn pn
  have fresh : ∀ other other_position, state.clients other = some other_position →
      other_position.v_block_number ≠ middle.v_block_number := by
    intro other other_position there same_block
    have below := (consistent.placed other other_position there).block_lt
    have block : middle.v_block_number = state.pool.current_block_page.block_number := block
    omega
  constructor
  · exact consistent.holds.alike sound_after alike
  · exact consistent.log
  · intro bn pn
    exact (looks bn pn).locked.trans (consistent.unlocked bn pn)
  · intro other position there
    by_cases own : other = id
    · subst own
      dsimp only [State.returned] at there
      rw [Function.update_self] at there
      cases there
      constructor
      · exact processed.trans page.symm
      · show middle.v_page_number < num_pages_per_block
        rw [page]
        decide
      · show middle.v_block_number < middle.current_block_page.block_number
        rw [current_eq, block]
        exact Nat.lt_succ_self _
      · intro pn _
        apply alike.blank
        show (state.pool.v_blocks middle.v_block_number pn).Blank
        rw [block]
        exact consistent.holds.sound.beyond _ _ (Nat.le_refl _)
      · exact .inl page
    · dsimp only [State.returned] at there
      rw [Function.update_of_ne own] at there
      apply alike.places (consistent.placed other position there)
      show _ ≤ middle.current_block_page.block_number
      omega
  · intro first second first_position second_position first_here second_here same_block
    dsimp only [State.returned] at first_here second_here
    by_cases first_own : first = id
    · by_cases second_own : second = id
      · rw [first_own, second_own]
      · rw [first_own, Function.update_self] at first_here
        rw [Function.update_of_ne second_own] at second_here
        cases first_here
        exact absurd same_block.symm (fresh second second_position second_here)
    · rw [Function.update_of_ne first_own] at first_here
      by_cases second_own : second = id
      · rw [second_own, Function.update_self] at second_here
        cases second_here
        exact absurd same_block (fresh first first_position first_here)
      · rw [Function.update_of_ne second_own] at second_here
        exact consistent.alone first second first_position second_position first_here second_here
          same_block

theorem Consistent.step {action : Action} (consistent : ∃ records, Consistent readable records state)
    (steady : Steady readable state action) (stepped : machine.step state action = some next) :
    ∃ records, Consistent readable records next := by
  obtain ⟨records, consistent⟩ := consistent
  cases action with
  | get_client id =>
      simp only [machine] at stepped
      split at stepped
      · cases stepped
      · rename_i absent
        simp only [Option.bind_eq_bind, Option.bind_eq_some_iff, Option.some.injEq] at stepped
        obtain ⟨writer, taken, rfl⟩ := stepped
        exact ⟨records, consistent.get_client absent taken⟩
  | drop_client id =>
      simp only [machine, Option.bind_eq_bind, Option.bind_eq_some_iff, Option.some.injEq] at stepped
      obtain ⟨position, here, rfl⟩ := stepped
      have looks := fun bn pn => @Writer.leave_block_same (state.writer position)
        (some position.v_block_number) bn pn
      have alike : Alike state.pool.v_blocks ((state.writer position).leave_block
          (some position.v_block_number)).v_blocks :=
        fun bn pn => ⟨(looks bn pn).next, (looks bn pn).data⟩
      have kept : ∀ {other other_position},
          Function.update state.clients id none other = some other_position →
          state.clients other = some other_position := by
        intro other other_position there
        rw [Function.update_apply] at there
        split at there
        · cases there
        · exact there
      refine ⟨records, ?_⟩
      constructor
      · exact consistent.holds.alike (alike.sound consistent.holds.sound rfl (Nat.le_refl _)
          consistent.holds.sound.blocks_lt) alike
      · exact consistent.log
      · intro bn pn
        exact (looks bn pn).locked.trans (consistent.unlocked bn pn)
      · exact fun other other_position there =>
          alike.places (consistent.placed other other_position (kept there)) (Nat.le_refl _)
      · exact fun first second first_position second_position first_here second_here =>
          consistent.alone first second first_position second_position (kept first_here)
            (kept second_here)
  | put id key value old_offset =>
      simp only [machine, Option.bind_eq_bind, Option.bind_eq_some_iff, Option.some.injEq] at stepped
      obtain ⟨position, here, ⟨var_offset, writer⟩, done, rfl⟩ := stepped
      exact consistent.put here (steady position here) done
  | remove id kv_offset =>
      simp only [machine, Option.bind_eq_bind, Option.bind_eq_some_iff, Option.some.injEq] at stepped
      obtain ⟨position, here, ⟨answer, writer⟩, done, rfl⟩ := stepped
      exact ⟨records, consistent.remove here steady done⟩
  | grow n =>
      simp only [machine] at stepped
      split at stepped
      · rename_i small
        cases stepped
        have alike : Alike state.pool.v_blocks
            { state.pool with num_v_blocks := state.pool.num_v_blocks + n }.v_blocks :=
          fun _ _ => ⟨rfl, rfl⟩
        refine ⟨records, ?_⟩
        constructor
        · apply consistent.holds.alike _ alike
          exact Alike.sound alike consistent.holds.sound rfl (Nat.le_add_right _ _) small
        · exact consistent.log
        · exact consistent.unlocked
        · intro other other_position there
          apply @Alike.places state.pool _ _ alike
          · exact consistent.placed other other_position there
          · exact Nat.le_refl _
        · exact consistent.alone
      · cases stepped

theorem consistent_reached (reached : machine.Reach (Steady readable) state) :
    ∃ records, Consistent readable records state := by
  apply reached.invariant
  · rintro _ ⟨num_v_blocks, small, rfl⟩
    exact ⟨[], consistent_created small⟩
  · exact fun before action after holds steady stepped => Consistent.step holds steady stepped

/-- What has been put is read back by every reader, whichever way it has been
laid out, until it is removed or put again, and no reader leaves the block of the
record. -/
theorem texts_read_back (state : State) (reached : machine.Reach (Steady True) state) :
    ∀ off key value, (off, key, value) ∈ state.log → off ∉ state.freed →
      get_const_entry_from_offset state.pool.v_blocks off = some (key, value) ∧
      get_value_from_offset state.pool.v_blocks off = some (some value) ∧
      ∀ other, check_key_equality state.pool.v_blocks other off = some (key == other) := by
  obtain ⟨records, consistent⟩ := consistent_reached reached
  intro off key value logged free
  rw [consistent.log] at logged
  obtain ⟨r, member, same⟩ := List.mem_map.mp logged
  cases same
  have inside := consistent.holds.inside r member
  obtain ⟨accessor, found, accessor_key, accessor_value⟩ :=
    (consistent.holds.written r member).decodes inside
      (consistent.holds.legible trivial r member free)
  have entry : get_const_entry_from_offset state.pool.v_blocks r.off = some (r.key, r.value) := by
    unfold get_const_entry_from_offset
    rw [found, Option.bind_eq_bind, Option.bind_some, accessor_key, accessor_value]
  have real : r.off.is_tombstone = false := by
    by_contra tombstone
    have word : r.off = .Tombstone :=
      congrArg KVOffset.mk (eq_of_beq (Bool.not_eq_false _ ▸ tombstone))
    have page_lt := inside.page_lt
    rw [word] at page_lt
    exact absurd page_lt (by decide)
  refine ⟨entry, ?_, ?_⟩
  · unfold get_value_from_offset
    rw [consistent.unlocked, if_neg Bool.false_ne_true, found, Option.bind_eq_bind,
      Option.bind_some, accessor_value]
  · intro other
    unfold check_key_equality
    rw [real, if_neg Bool.false_ne_true, entry]
    rfl

def split_put : List Action :=
  [.get_client 0, .put 0 [1#8] (List.replicate 4000 7#8) .Tombstone,
    .put 0 [2#8, 3#8] (List.replicate 200 8#8) .Tombstone]

/-- The value of the second record is on the second page. -/
theorem texts_read_back_split :
    ∃ state, machine.run (.created 1) split_put = some state ∧
      get_value_from_offset state.pool.v_blocks (.of_parts 0 0 4005) =
        some (some (List.replicate 200 8#8)) := by
  have possible : ((machine.checked (steady True)).run (.created 1) split_put).map (fun state =>
      decide ((KVOffset.of_parts 0 0 4005, [2#8, 3#8], List.replicate 200 8#8) ∈ state.log ∧
        KVOffset.of_parts 0 0 4005 ∉ state.freed)) = some true := by
    decide +kernel
  obtain ⟨state, ran, ended⟩ := Option.map_eq_some_iff.mp possible
  obtain ⟨logged, free⟩ := of_decide_eq_true ended
  have created : machine.Reach (Steady True) (.created 1) := .start ⟨1, by decide, rfl⟩
  have reached : machine.Reach (Steady True) state :=
    created.run_checked (fun _ action => steady_sound action) ran
  exact ⟨state, Machine.run_of_checked ran, (texts_read_back state reached _ _ _ logged free).2.1⟩

/-- Every record has an offset of its own, where its entry is marked until it is
removed or put again. It is read back, then and after, exactly when its value is
not empty or the next page of the block begins with an empty value or none. -/
theorem texts_apart (state : State) (reached : machine.Reach (Steady False) state) :
    (state.log.map Prod.fst).Nodup ∧
    ∀ off key value, (off, key, value) ∈ state.log →
      (VarSizeEntry.read (state.pool.v_blocks off.block_number off.page_number).data
        off.data_offset).is_set = !decide (off ∈ state.freed) ∧
      (get_const_entry_from_offset state.pool.v_blocks off = some (key, value) ↔
        (value = [] → off.page_number + 1 < num_pages_per_block ∧ (VarSizeEntry.read
          (state.pool.v_blocks off.block_number (off.page_number + 1)).data 0).value_size = 0)) := by
  obtain ⟨records, consistent⟩ := consistent_reached reached
  rw [consistent.log]
  constructor
  · rw [List.map_map, List.Nodup, List.pairwise_map]
    exact consistent.holds.apart.imp (fun apart => apart.off_ne)
  · intro off key value logged
    obtain ⟨r, member, same⟩ := List.mem_map.mp logged
    cases same
    have written := consistent.holds.written r member
    constructor
    · rw [written.entry]
    · constructor
      · exact written.legible
      · intro legible
        obtain ⟨accessor, found, accessor_key, accessor_value⟩ :=
          written.decodes (consistent.holds.inside r member) legible
        unfold get_const_entry_from_offset
        rw [found, Option.bind_eq_bind, Option.bind_some, accessor_key, accessor_value]

def empty_put : List Action :=
  [.get_client 0, .put 0 [1#8] [] .Tombstone,
    .put 0 [2#8] (List.replicate 4085 7#8) .Tombstone]

/-- The empty value is not read back. -/
theorem texts_apart_empty :
    ∃ state, machine.run (.created 1) empty_put = some state ∧
      get_const_entry_from_offset state.pool.v_blocks (.of_parts 0 0 0) ≠ some ([1#8], []) := by
  have possible : ((machine.checked (steady False)).run (.created 1) empty_put).map (fun state =>
      decide ((KVOffset.of_parts 0 0 0, [1#8], []) ∈ state.log ∧
        (VarSizeEntry.read (state.pool.v_blocks 0 1).data 0).value_size ≠ 0)) = some true := by
    decide +kernel
  obtain ⟨state, ran, ended⟩ := Option.map_eq_some_iff.mp possible
  obtain ⟨logged, some_value⟩ := of_decide_eq_true ended
  have created : machine.Reach (Steady False) (.created 1) := .start ⟨1, by decide, rfl⟩
  have reached : machine.Reach (Steady False) state :=
    created.run_checked (fun _ action => steady_sound action) ran
  have read := ((texts_apart state reached).2 _ _ _ logged).2
  have block : (KVOffset.of_parts 0 0 0).block_number = 0 := by decide
  have page : (KVOffset.of_parts 0 0 0).page_number = 0 := by decide
  rw [block, page] at read
  exact ⟨state, Machine.run_of_checked ran, fun same => some_value ((read.mp same) rfl).2⟩

end Runs

end Hiom.Viper.Records.Strings
