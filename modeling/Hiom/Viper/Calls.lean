import Hiom.Viper.Contents

/-!
The calls of one client of Viper: when they return, what they answer and what
they leave, as long as each insertion into the index finds the key's own entry
or a vacant slot.
-/

namespace Hiom.Viper.Records.Plain

open Cceh (Hasher Index INVALID)

variable {K V : Type}

/-! ### Taking a slot -/

structure Ready (layout : Layout) (writer : Writer K V) : Prop where
  placed : writer.Placed layout
  unlocked : writer.v_page.version_lock.is_locked = false
  used : writer.v_page.version_lock.is_used = true
  blank : ∀ key off value, Lives layout writer.v_blocks key off value →
    ¬writer.Ahead layout off.block_number off.page_number

def Mapped (pool : Pool K V) : Prop :=
  pool.free_blocks ≠ [] ∨ pool.current_block_page.block_number < pool.num_v_blocks

section Claim

variable {layout : Layout} {writer middle after : Writer K V} {rand : Nat} {key : K} {value : V}
  {off : KVOffset}

theorem Ready.moved (ready : Ready layout writer) (moved : writer.Moved layout middle) :
    Ready layout middle :=
  ⟨moved.placed, moved.fresh.unlocked, moved.fresh.used, moved.blank ready.blank⟩

theorem next_block_some (mapped : Mapped writer.toPool) :
    ∃ taken, writer.next_block layout rand = some taken := by
  unfold Writer.next_block
  split
  · exact ⟨_, rfl⟩
  · rename_i missing
    have empty : writer.free_blocks = [] := by
      by_contra some_free
      have inside := Nat.mod_lt rand (List.length_pos_iff.mpr some_free)
      rw [List.getElem?_eq_getElem inside] at missing
      cases missing
    have below := mapped.resolve_left (fun some_free => some_free empty)
    unfold Writer.get_new_block
    dsimp only
    rw [if_neg (Nat.not_le.mpr below)]
    exact ⟨_, rfl⟩

theorem update_access_some (mapped : Mapped writer.toPool) :
    ∃ after, writer.update_access_information layout rand = some after := by
  obtain ⟨taken, taken_eq⟩ := @next_block_some K V layout writer rand mapped
  unfold Writer.update_access_information Writer.next_page Writer.get_block_based_access
  dsimp only
  rw [taken_eq]
  split
  · exact ⟨_, rfl⟩
  · exact ⟨_, rfl⟩

/-- A try takes a slot unless the page is full. -/
theorem claim_slot_some (ready : Ready layout writer) (mapped : Mapped writer.toPool) (key : K)
    (value : V) :
    ∃ claimed after, writer.claim_slot layout rand key value = some (claimed, after) ∧
      (claimed = none → ∀ slot < layout.num_slots_per_page, writer.v_page.free_slots slot = false) := by
  have locked := VPage.lock_eq_some.mpr ⟨ready.unlocked, rfl⟩
  unfold Writer.claim_slot
  rw [locked]
  simp only [Option.bind_eq_bind, Option.bind_some]
  split
  · rename_i full
    obtain ⟨after, moved⟩ := @update_access_some K V layout
      (writer.set_v_page (VPage.unlock
        { writer.v_page with version_lock := writer.v_page.version_lock + 1#8 })) rand mapped
    rw [moved]
    exact ⟨none, after, rfl, fun _ => Writer.find_first_eq_none.mp full⟩
  · exact ⟨_, _, rfl, fun none_claimed => by cases none_claimed⟩

variable {config : Config K}

/-- What the first part of a put leaves, on whichever page it comes to. -/
theorem claim_wrote {tries : Nat} (ready : Ready config.layout writer)
    (claimed : Client.claim config rand key value tries writer = some (off, after)) :
    writer.Wrote config.layout after key off value := by
  induction tries generalizing writer with
  | zero => cases claimed
  | succ tries ih =>
      unfold Client.claim at claimed
      rw [Option.bind_eq_bind, Option.bind_eq_some_iff] at claimed
      obtain ⟨⟨found, middle⟩, tried, claimed⟩ := claimed
      rcases Writer.claim_slot_cases ready.placed ready.unlocked ready.used tried with
        ⟨slot, rfl, wrote⟩ | ⟨rfl, moved⟩
      · cases claimed
        exact wrote
      · exact moved.wrote ready.blank (ih (ready.moved moved) claimed)

/-- Two tries are enough: the page that a client comes to is empty. -/
theorem claim_some (ready : Ready config.layout writer) (mapped : Mapped writer.toPool) (key : K)
    (value : V) : ∃ off after, Client.claim config rand key value 2 writer = some (off, after) := by
  obtain ⟨found, middle, tried, -⟩ :=
    @claim_slot_some K V config.layout writer rand ready mapped key value
  unfold Client.claim
  rw [tried]
  simp only [Option.bind_eq_bind, Option.bind_some]
  rcases Writer.claim_slot_cases ready.placed ready.unlocked ready.used tried with
    ⟨slot, rfl, -⟩ | ⟨rfl, moved⟩
  · exact ⟨slot, middle, rfl⟩
  · have locked := VPage.lock_eq_some.mpr ⟨moved.fresh.unlocked, rfl⟩
    unfold Client.claim Writer.claim_slot
    rw [locked]
    simp only [Option.bind_eq_bind, Option.bind_some]
    split
    · rename_i full
      have taken := Writer.find_first_eq_none.mp full 0 config.layout.slots_pos
      have free := moved.fresh.free_slots 0
      dsimp only at taken
      rw [free] at taken
      cases taken
    · exact ⟨_, _, rfl⟩

end Claim

/-! ### The condition -/

variable [DecidableEq K] {config : Config K}

/-- The insertion finds the entry of the key, or a vacant slot if there is none,
and the segments it splits have room for what they are to hold. -/
def Settled (config : Config K) (pool : Pool K V) (map_ : Index) (key : K) (value : KVOffset) : Prop :=
  map_.Settles config.keys.hasher (config.keys.key_checker key) value (key_check_fn config pool key)
    (fun off => key_check_fn config pool key off = true) insert_rounds

/-- The slot that the put takes is not named by an entry of the key's hash that
an earlier removal has left. -/
def PutSettles (config : Config K) (rand : Nat) (key : K) (value : V) (client : Client K V) : Prop :=
  ∀ off writer, Client.claim config rand key value 2 client.writer = some (off, writer) →
    Settled config writer.toPool client.map_ key off ∧
      (config.keys.using_fp = true →
        ¬client.map_.Has config.keys.hasher (config.keys.key_checker key) off)

def RemoveSettles (config : Config K) (key : K) (client : Client K V) : Prop :=
  client.map_get config key ≠ .Tombstone →
    ∀ writer, client.writer.free_occupied_slot (client.map_get config key) = some writer →
      Settled config writer.toPool client.map_ key .Tombstone

def Steady (config : Config K) (client : Client K V) : Call K V → Prop
  | .put key value rand => config.keys.Valid key ∧ PutSettles config rand key value client
  | .get key => config.keys.Valid key
  | .update key _ => config.keys.Valid key
  | .remove key => config.keys.Valid key ∧ RemoveSettles config key client

/-! ### Concrete runs -/

section Checks

variable (config : Config K)

def put_settles (rand : Nat) (key : K) (value : V) (client : Client K V) : Bool :=
  match Client.claim config rand key value 2 client.writer with
  | some (_, writer) =>
      !config.keys.using_fp &&
        client.map_.settles config.keys.hasher (config.keys.key_checker key)
          (key_check_fn config writer.toPool key)
  | none => true

def remove_settles (key : K) (client : Client K V) : Bool :=
  client.map_get config key == .Tombstone ||
    (client.writer.free_occupied_slot (client.map_get config key)).all fun writer =>
      client.map_.settles config.keys.hasher (config.keys.key_checker key)
        (key_check_fn config writer.toPool key)

def steady (client : Client K V) : Call K V → Bool
  | .put key value rand => decide (config.keys.Valid key) && put_settles config rand key value client
  | .get key => decide (config.keys.Valid key)
  | .update key _ => decide (config.keys.Valid key)
  | .remove key => decide (config.keys.Valid key) && remove_settles config key client

variable {config} {client : Client K V} {key : K}

theorem Settled.of_settles {pool : Pool K V} {value : KVOffset} (valid : config.keys.Valid key)
    (index : client.map_.Intact config.keys.hasher)
    (passed : client.map_.settles config.keys.hasher (config.keys.key_checker key)
      (key_check_fn config pool key) = true) : Settled config pool client.map_ key value :=
  Index.settles_sound (config.keys.key_checker_lt key) valid.1 index passed

theorem PutSettles.of_put_settles {rand : Nat} {value : V} (valid : config.keys.Valid key)
    (index : client.map_.Intact config.keys.hasher)
    (passed : put_settles config rand key value client = true) :
    PutSettles config rand key value client := by
  intro off writer claimed
  simp only [put_settles, claimed, Bool.and_eq_true, Bool.not_eq_true'] at passed
  constructor
  · exact .of_settles valid index passed.2
  · intro fingerprint
    rw [passed.1] at fingerprint
    cases fingerprint

theorem RemoveSettles.of_remove_settles (valid : config.keys.Valid key)
    (index : client.map_.Intact config.keys.hasher)
    (passed : remove_settles config key client = true) : RemoveSettles config key client := by
  intro found writer freed
  rcases Bool.or_eq_true_iff.mp passed with absent | settles
  · exact absurd (eq_of_beq absent) found
  · rw [freed, Option.all_some] at settles
    exact .of_settles valid index settles

theorem Steady.of_steady {call : Call K V} (index : client.map_.Intact config.keys.hasher)
    (passed : steady config client call = true) : Steady config client call := by
  cases call with
  | put key value rand =>
      obtain ⟨valid, settles⟩ := Bool.and_eq_true_iff.mp passed
      have valid : config.keys.Valid key := of_decide_eq_true valid
      exact ⟨valid, .of_put_settles valid index settles⟩
  | get key =>
      have valid : config.keys.Valid key := of_decide_eq_true passed
      exact valid
  | update key update_fn =>
      have valid : config.keys.Valid key := of_decide_eq_true passed
      exact valid
  | remove key =>
      obtain ⟨valid, settles⟩ := Bool.and_eq_true_iff.mp passed
      have valid : config.keys.Valid key := of_decide_eq_true valid
      exact ⟨valid, .of_remove_settles valid index settles⟩

end Checks

/-! ### Puts -/

section Put

variable {client : Client K V} {map : K → Option V} {rand : Nat} {key : K} {value : V}
  {off old_offset : KVOffset} {writer : Writer K V} {map_after : Index} {pool : Pool K V}

structure Stored (config : Config K) (client : Client K V) (key : K) (value : V)
    (off old_offset : KVOffset) (writer : Writer K V) (map_after : Index) : Prop where
  wrote : client.writer.Wrote config.layout writer key off value
  inserted : Index.Inserted config.keys.hasher (config.keys.key_checker key) off
    (fun other => key_check_fn config writer.toPool key other = true) client.map_ old_offset map_after
  fresh : ¬client.map_.Has config.keys.hasher (config.keys.key_checker key) off

theorem insert_stored (ready : Ready config.layout client.writer)
    (agrees : Agrees config client.writer.toPool client.map_ map) (valid : config.keys.Valid key)
    (settles : PutSettles config rand key value client)
    (claimed : Client.claim config rand key value 2 client.writer = some (off, writer)) :
    ∃ old_offset map_after,
      Client.map_insert config key off ⟨writer, client.map_⟩ = some (old_offset, ⟨writer, map_after⟩) ∧
        Stored config client key value off old_offset writer map_after := by
  have wrote := claim_wrote ready claimed
  obtain ⟨settled, vacated⟩ := settles off writer claimed
  have fresh : ¬client.map_.Has config.keys.hasher (config.keys.key_checker key) off := by
    cases fingerprint : config.keys.using_fp with
    | false =>
        intro has
        have passes : key_check_fn config client.writer.toPool key off = true := by
          unfold key_check_fn
          rw [fingerprint]
          rfl
        obtain ⟨old_value, alive⟩ := agrees.recorded key off valid has passes
        exact wrote.fresh key old_value alive
    | true => exact vacated fingerprint
  obtain ⟨old_offset, map_after, inserted, spec⟩ := Index.Insert_spec
    (config.keys.key_checker_lt key) valid.1 insert_rounds agrees.index (fun _ => fresh) settled
  refine ⟨old_offset, map_after, ?_, wrote, spec, fresh⟩
  unfold Client.map_insert
  dsimp only
  rw [inserted]
  rfl

/-- The check passes no entry of the index that it did not pass before. -/
theorem Stored.passes (stored : Stored config client key value off old_offset writer map_after)
    (agrees : Agrees config client.writer.toPool client.map_ map) {other : K} {third : KVOffset}
    (valid : config.keys.Valid other)
    (has : client.map_.Has config.keys.hasher (config.keys.key_checker other) third)
    (passes : key_check_fn config writer.toPool other third = true) :
    key_check_fn config client.writer.toPool other third = true := by
  by_cases same : third = off
  · subst same
    by_cases own : other = key
    · subst own
      exact absurd has stored.fresh
    · exact key_check_other stored.wrote.written own passes
  · apply key_check_less (stored.wrote.kept third.block_number third.page_number third.data_offset _)
      passes
    rintro ⟨block, page, slot⟩
    exact same (KVOffset.eq_of_fields stored.wrote.written.word (agrees.word other third valid has)
      block page slot)

/-- What the index answers: where the key's old record is. -/
theorem Stored.old (stored : Stored config client key value off old_offset writer map_after)
    (agrees : Agrees config client.writer.toPool client.map_ map) (valid : config.keys.Valid key) :
    (∃ old_value, map key = some old_value ∧
        Lives config.layout client.writer.v_blocks key old_offset old_value ∧ old_offset ≠ off) ∨
      map key = none ∧ old_offset = .Tombstone := by
  rcases stored.inserted.old with ⟨has, passes⟩ | ⟨missing, refused⟩
  · left
    obtain ⟨old_value, alive⟩ :=
      agrees.recorded key old_offset valid has (stored.passes agrees valid has passes)
    refine ⟨old_value, (agrees.indexed key _ _ alive).2.2, alive, ?_⟩
    rintro rfl
    exact stored.fresh has
  · right
    refine ⟨?_, missing⟩
    by_contra present
    obtain ⟨old_value, here⟩ := Option.ne_none_iff_exists'.mp present
    obtain ⟨old, alive⟩ := agrees.mapped key old_value here
    have different : old ≠ off := by
      rintro rfl
      exact stored.wrote.fresh key old_value alive
    have after := (stored.wrote.lives key old old_value different).mpr alive
    exact refused old (agrees.indexed key old old_value alive).2.1 ((key_check_iff after rfl).mpr rfl)

/-- Once the old slot is free the put is done. -/
theorem Stored.agrees (stored : Stored config client key value off old_offset writer map_after)
    (agrees : Agrees config client.writer.toPool client.map_ map) (valid : config.keys.Valid key)
    (lives : ∀ other third other_value, Lives config.layout pool.v_blocks other third other_value ↔
      Lives config.layout writer.v_blocks other third other_value ∧ third ≠ old_offset)
    (kept : ∀ bn pn slot, Kept (writer.page bn pn) (pool.v_blocks bn pn) slot) :
    Agrees config pool map_after (Function.update map key (some value)) := by
  have wrote := stored.wrote
  have old := stored.old agrees valid
  have not_old : off ≠ old_offset := by
    rcases old with ⟨-, -, -, different⟩ | ⟨-, rfl⟩
    · exact different.symm
    · exact wrote.written.ne_tombstone
  have less : ∀ other third, key_check_fn config pool other third = true →
      key_check_fn config writer.toPool other third = true :=
    fun _ _ passes => key_check_less (kept _ _ _) passes
  have before : ∀ other third other_value,
      Lives config.layout client.writer.v_blocks other third other_value → third ≠ off := by
    rintro other third other_value alive rfl
    exact wrote.fresh other other_value alive
  apply agrees.assign valid (some (off, value))
    (fun third => key_check_fn config writer.toPool key third = true) stored.inserted.intact
  · intro other third other_value
    rw [lives]
    constructor
    · rintro ⟨alive, not_freed⟩
      by_cases same : third = off
      · subst same
        obtain ⟨rfl, rfl⟩ := wrote.written.same_record alive
        exact .inl ⟨rfl, rfl⟩
      · right
        have was := (wrote.lives other third other_value same).mp alive
        refine ⟨?_, was⟩
        rintro rfl
        rcases old with ⟨old_value, -, old_alive, -⟩ | ⟨missing, -⟩
        · exact not_freed (agrees.single _ _ _ _ _ old_alive was)
        · have here := (agrees.indexed _ _ _ was).2.2
          rw [missing] at here
          cases here
    · rintro (⟨rfl, same⟩ | ⟨different, was⟩)
      · cases same
        exact ⟨wrote.written, not_old⟩
      · refine ⟨(wrote.lives other third other_value (before _ _ _ was)).mpr was, ?_⟩
        rintro rfl
        rcases old with ⟨old_value, -, old_alive, -⟩ | ⟨-, rfl⟩
        · exact different (old_alive.same_record was).1
        · exact was.ne_tombstone rfl
  · intro other third other_valid
    rw [stored.inserted.has _ _ (config.keys.key_checker_lt other) other_valid.1]
    have real := wrote.written.ne_tombstone
    constructor
    · rintro (⟨word, rfl, -⟩ | kept_entry)
      · exact .inl ⟨word, value, rfl⟩
      · exact .inr kept_entry
    · rintro (⟨word, new_value, same⟩ | kept_entry)
      · cases same
        exact .inl ⟨word, rfl, real⟩
      · exact .inr kept_entry
  · intro other third other_value was word passes
    have alive := (wrote.lives other third other_value (before _ _ _ was)).mpr was
    exact (key_check_iff alive word).mp passes
  · intro third _ passes
    exact less key third passes
  · intro other third other_valid _ has passes
    exact stored.passes agrees other_valid has (less other third passes)
  · intro other third other_value same word passes
    cases same
    exact ((key_check_iff wrote.written word.symm).mp (less other _ passes)).symm
  · intro third other_value same
    cases same
    exact wrote.written.word

/-- A put whose slot has been taken returns, and the key has the value. -/
theorem put_spec (ready : Ready config.layout client.writer)
    (unlocked : ∀ key off value, Lives config.layout client.writer.v_blocks key off value →
      (client.writer.page off.block_number off.page_number).version_lock.is_locked = false)
    (agrees : Agrees config client.writer.toPool client.map_ map) (valid : config.keys.Valid key)
    (settles : PutSettles config rand key value client)
    (claimed : Client.claim config rand key value 2 client.writer = some (off, writer)) :
    ∃ after, client.put config rand key value true = some ((map key).isNone, after) ∧
      client.writer.Effect config.layout false after.writer ∧
      Agrees config after.writer.toPool after.map_ (Function.update map key (some value)) := by
  obtain ⟨old_offset, map_after, inserted, stored⟩ := insert_stored ready agrees valid settles claimed
  have wrote := stored.wrote
  unfold Client.put
  rw [claimed]
  simp only [Option.bind_eq_bind, Option.bind_some]
  rw [inserted]
  simp only [Option.bind_some]
  rcases stored.old agrees valid with ⟨old_value, here, was, different⟩ | ⟨missing, rfl⟩
  · have alive := (wrote.lives key old_offset old_value different).mpr was
    obtain ⟨freed_writer, freed, spec⟩ := Writer.free_occupied_slot_freed alive (fun elsewhere =>
      wrote.unlocked _ _ (fun own => elsewhere ⟨own.1.symm, own.2.symm⟩) (unlocked _ _ _ was))
    rw [is_tombstone_of_lives alive]
    simp only [Bool.not_false, Bool.and_true, if_true]
    rw [freed]
    simp only [Option.bind_some, here, Option.isNone_some]
    have effect := spec.effect wrote.toEffect
    refine ⟨_, rfl, effect.unlock, stored.agrees agrees valid ?_ ?_⟩
    · intro other third other_value
      exact (Writer.unlock_v_page_lives effect.used).trans (spec.lives other third other_value)
    · exact fun bn pn slot => (spec.kept bn pn slot).trans (Writer.unlock_v_page_kept bn pn slot)
  · simp only [show KVOffset.Tombstone.is_tombstone = true by decide, Bool.not_true, Bool.false_and,
      Bool.false_eq_true, if_false, missing, Option.isNone_none]
    refine ⟨_, rfl, wrote.toEffect.unlock, stored.agrees agrees valid ?_ ?_⟩
    · intro other third other_value
      rw [Writer.unlock_v_page_lives wrote.used]
      exact ⟨fun alive => ⟨alive, alive.ne_tombstone⟩, fun both => both.1⟩
    · exact Writer.unlock_v_page_kept

/-- A put that is not to free the old slot. -/
theorem put_keep_spec {is_new_item : Bool} {after : Client K V}
    (ready : Ready config.layout client.writer)
    (agrees : Agrees config client.writer.toPool client.map_ map) (valid : config.keys.Valid key)
    (settles : PutSettles config rand key value client)
    (returned : client.put config rand key value false = some (is_new_item, after)) :
    ∃ off old_offset writer, Stored config client key value off old_offset writer after.map_ ∧
      after.writer = writer.unlock_v_page := by
  simp only [Client.put, Option.bind_eq_bind, Option.bind_eq_some_iff] at returned
  obtain ⟨⟨off, writer⟩, claimed, ⟨old_offset, middle⟩, inserted, rest⟩ := returned
  obtain ⟨old, map_after, returned, stored⟩ := insert_stored ready agrees valid settles claimed
  rw [returned] at inserted
  cases inserted
  simp only [Bool.and_false, Bool.false_eq_true, if_false] at rest
  obtain ⟨last, rfl, rfl⟩ := rest
  exact ⟨off, old_offset, writer, stored, rfl⟩

end Put

/-! ### Other calls -/

section Calls

variable {client : Client K V} {map : K → Option V} {key : K}

theorem get_spec (unlocked : ∀ key off value, Lives config.layout client.writer.v_blocks key off value →
      (client.writer.page off.block_number off.page_number).version_lock.is_locked = false)
    (agrees : Agrees config client.writer.toPool client.map_ map) (valid : config.keys.Valid key) :
    client.get config key = some (map key) := by
  unfold Client.get
  dsimp only
  rcases map_get_eq agrees valid with ⟨value, here, alive⟩ | ⟨missing, nothing⟩
  · have own := (check_key_equality_iff alive).mpr rfl
    have data := alive.data
    have free := unlocked _ _ _ alive
    unfold Writer.page at free ⊢
    rw [is_tombstone_of_lives alive, own, free, data, here]
    rfl
  · rw [nothing, missing]
    rfl

/-- A record that is given another value in its slot. -/
theorem Contents.revise {pool after : Pool K V} {map_ : Index} {off : KVOffset} {value new : V}
    (agrees : Agrees config pool map_ map) (alive : Lives config.layout pool.v_blocks key off value)
    (lives : ∀ other third other_value, Lives config.layout after.v_blocks other third other_value ↔
      other = key ∧ third = off ∧ other_value = new ∨
        third ≠ off ∧ Lives config.layout pool.v_blocks other third other_value)
    (kept : ∀ bn pn slot, Kept (pool.v_blocks bn pn) (after.v_blocks bn pn) slot) :
    Agrees config after map_ (Function.update map key (some new)) := by
  obtain ⟨valid, has, -⟩ := agrees.indexed key off value alive
  have less : ∀ other third, key_check_fn config after other third = true →
      key_check_fn config pool other third = true :=
    fun _ _ passes => key_check_less (kept _ _ _) passes
  apply agrees.assign valid (some (off, new)) (fun third => third = off) agrees.index
  · intro other third other_value
    rw [lives]
    constructor
    · rintro (⟨rfl, rfl, rfl⟩ | ⟨different, was⟩)
      · exact .inl ⟨rfl, rfl⟩
      · refine .inr ⟨?_, was⟩
        rintro rfl
        exact different (agrees.single _ _ _ _ _ alive was)
    · rintro (⟨rfl, same⟩ | ⟨different, was⟩)
      · cases same
        exact .inl ⟨rfl, rfl, rfl⟩
      · refine .inr ⟨?_, was⟩
        rintro rfl
        exact different (alive.same_record was).1
  · intro other third _
    constructor
    · intro entry
      by_cases own : config.keys.key_checker other = config.keys.key_checker key ∧ third = off
      · exact .inl ⟨own.1, new, by rw [own.2]⟩
      · exact .inr ⟨entry, own⟩
    · rintro (⟨word, other_value, same⟩ | ⟨entry, -⟩)
      · cases same
        rw [word]
        exact has
      · exact entry
  · rintro other third other_value was - rfl
    exact (alive.same_record was).1
  · intro third entry passes
    obtain ⟨other_value, was⟩ := agrees.recorded key third valid entry (less _ _ passes)
    exact agrees.single _ _ _ _ _ alive was
  · exact fun other third _ _ _ passes => less other third passes
  · intro other third other_value same word passes
    cases same
    exact ((key_check_iff alive word.symm).mp (less other _ passes)).symm
  · intro third other_value same
    cases same
    exact alive.word

theorem update_spec (ready : Ready config.layout client.writer)
    (unlocked : ∀ key off value, Lives config.layout client.writer.v_blocks key off value →
      (client.writer.page off.block_number off.page_number).version_lock.is_locked = false)
    (agrees : Agrees config client.writer.toPool client.map_ map) (valid : config.keys.Valid key)
    (update_fn : V → V) :
    ∃ after, client.update config key update_fn = some ((map key).isSome, after) ∧
      client.writer.Effect config.layout false after.writer ∧
      Agrees config after.writer.toPool after.map_
        (Function.update map key ((map key).map update_fn)) := by
  have effect := Writer.Effect.refl ready.placed ready.unlocked ready.used
  unfold Client.update
  dsimp only
  rcases map_get_eq agrees valid with ⟨value, here, alive⟩ | ⟨missing, nothing⟩
  · have free := unlocked _ _ _ alive
    have locked := VPage.lock_eq_some.mpr ⟨free, rfl⟩
    have used := alive.live.1
    generalize client.map_get config key = off at alive free locked used ⊢
    have data : (client.writer.page off.block_number off.page_number).data off.data_offset =
        (key, value) := alive.data
    obtain ⟨page, same, free_slots, written, lock, still⟩ : ∃ page : VPage K V,
        VPage.unlock (VPage.write_value
          { client.writer.page off.block_number off.page_number with
            version_lock :=
              (client.writer.page off.block_number off.page_number).version_lock + 1#8 }
          off.data_offset (update_fn value)) = page ∧
        page.free_slots = (client.writer.page off.block_number off.page_number).free_slots ∧
        page.data = Function.update (client.writer.page off.block_number off.page_number).data
          off.data_offset (key, update_fn value) ∧
        page.version_lock.is_locked = false ∧ page.version_lock.is_used = true := by
      refine ⟨_, rfl, rfl, ?_, ?_, ?_⟩
      · unfold VPage.unlock VPage.write_value
        dsimp only
        rw [data]
      · exact version_lock_t.released_free (version_lock_t.locked_version free).2
      · exact (version_lock_t.used_kept _).2
    rw [is_tombstone_of_lives alive, locked]
    simp only [Bool.false_eq_true, if_false, Option.bind_eq_bind, Option.bind_some, here,
      Option.isSome_some, Option.map_some, data, same]
    refine ⟨_, rfl, effect.set_page (lock.trans free.symm) (still.trans used.symm) ?_, ?_⟩
    · intro s live
      rw [VPage.Live, free_slots] at live
      exact ⟨used, live.2⟩
    · apply Contents.revise agrees alive
      · exact fun other third other_value => Writer.lives_set_page_value alive free_slots written still
      · apply Writer.page_set_page_kept
        intro s taken
        rw [free_slots] at taken
        refine ⟨taken, ?_⟩
        rw [written, Function.update_apply]
        split
        · rename_i here
          rw [here, data]
        · rfl
  · rw [nothing, missing]
    refine ⟨client, rfl, effect, ?_⟩
    rw [Option.map_none, ← missing, Function.update_eq_self]
    exact agrees

theorem remove_spec (ready : Ready config.layout client.writer)
    (unlocked : ∀ key off value, Lives config.layout client.writer.v_blocks key off value →
      (client.writer.page off.block_number off.page_number).version_lock.is_locked = false)
    (agrees : Agrees config client.writer.toPool client.map_ map) (valid : config.keys.Valid key)
    (settles : RemoveSettles config key client) :
    ∃ after, client.remove config key = some ((map key).isSome, after) ∧
      client.writer.Effect config.layout false after.writer ∧
      Agrees config after.writer.toPool after.map_ (Function.update map key none) := by
  have effect := Writer.Effect.refl ready.placed ready.unlocked ready.used
  unfold RemoveSettles at settles
  unfold Client.remove
  dsimp only
  rcases map_get_eq agrees valid with ⟨value, here, alive⟩ | ⟨missing, nothing⟩
  · obtain ⟨freed_writer, freed, spec⟩ :=
      Writer.free_occupied_slot_freed alive (fun _ => unlocked _ _ _ alive)
    have settled := settles alive.ne_tombstone freed_writer freed
    obtain ⟨old_offset, map_after, inserted, index⟩ := Index.Insert_spec
      (config.keys.key_checker_lt key) valid.1 insert_rounds agrees.index
      (fun real => absurd rfl real) settled
    generalize client.map_get config key = off at alive freed spec ⊢
    rw [is_tombstone_of_lives alive, freed]
    simp only [Bool.false_eq_true, if_false, Option.bind_eq_bind, Option.bind_some, here,
      Option.isSome_some]
    unfold Client.map_insert
    dsimp only
    rw [inserted]
    refine ⟨_, rfl, spec.effect effect, ?_⟩
    have less : ∀ other third, key_check_fn config freed_writer.toPool other third = true →
        key_check_fn config client.writer.toPool other third = true :=
      fun _ _ passes => key_check_less (spec.kept _ _ _) passes
    apply agrees.assign valid none
      (fun third => key_check_fn config freed_writer.toPool key third = true) index.intact
    · intro other third other_value
      rw [spec.lives]
      constructor
      · rintro ⟨was, different⟩
        refine .inr ⟨?_, was⟩
        rintro rfl
        exact different (agrees.single _ _ _ _ _ alive was)
      · rintro (⟨-, nothing⟩ | ⟨different, was⟩)
        · cases nothing
        · refine ⟨was, ?_⟩
          rintro rfl
          exact different (alive.same_record was).1
    · intro other third other_valid
      rw [index.has _ _ (config.keys.key_checker_lt other) other_valid.1]
      constructor
      · rintro (⟨-, -, real⟩ | kept_entry)
        · exact absurd rfl real
        · exact .inr kept_entry
      · rintro (⟨-, other_value, nothing⟩ | kept_entry)
        · cases nothing
        · exact .inr kept_entry
    · intro other third other_value was word passes
      exact (key_check_iff was word).mp (less _ _ passes)
    · exact fun _ _ passes => passes
    · exact fun other third _ _ _ passes => less other third passes
    · intro other third other_value nothing
      cases nothing
    · intro third other_value nothing
      cases nothing
  · rw [nothing, missing]
    refine ⟨client, rfl, effect, ?_⟩
    rw [← missing, Function.update_eq_self]
    exact agrees

structure Alone (config : Config K) (client : Client K V) (map : K → Option V) : Prop where
  ready : Ready config.layout client.writer
  unlocked : ∀ key off value, Lives config.layout client.writer.v_blocks key off value →
    (client.writer.page off.block_number off.page_number).version_lock.is_locked = false
  agrees : Agrees config client.writer.toPool client.map_ map

structure Served (config : Config K) (client : Client K V) (map : K → Option V) (call : Call K V)
    (answer : Answer V) (after : Client K V) : Prop where
  effect : client.writer.Effect config.layout false after.writer
  answers : answer = expected map call
  agrees : Agrees config after.writer.toPool after.map_ (applied map call)

variable {answer : Answer V} {after : Client K V} {call : Call K V}

/-- A put returns if its first part does. -/
theorem call_served (alone : Alone config client map) (steady : Steady config client call)
    (claims : ∀ key value rand, call = .put key value rand →
      ∃ off writer, Client.claim config rand key value 2 client.writer = some (off, writer)) :
    ∃ answer after, State.call config call client = some (answer, after) ∧
      Served config client map call answer after := by
  obtain ⟨ready, unlocked, agrees⟩ := alone
  unfold State.call
  cases call with
  | put key value rand =>
      obtain ⟨off, writer, claimed⟩ := claims key value rand rfl
      obtain ⟨after, returned, effect, agrees⟩ :=
        put_spec ready unlocked agrees steady.1 steady.2 claimed
      dsimp only
      rw [returned]
      exact ⟨_, after, rfl, effect, rfl, agrees⟩
  | get key =>
      dsimp only
      rw [get_spec unlocked agrees steady]
      exact ⟨_, client, rfl, .refl ready.placed ready.unlocked ready.used, rfl, agrees⟩
  | update key update_fn =>
      obtain ⟨after, returned, effect, agrees⟩ := update_spec ready unlocked agrees steady update_fn
      dsimp only
      rw [returned]
      exact ⟨_, after, rfl, effect, rfl, agrees⟩
  | remove key =>
      obtain ⟨after, returned, effect, agrees⟩ := remove_spec ready unlocked agrees steady.1 steady.2
      dsimp only
      rw [returned]
      exact ⟨_, after, rfl, effect, rfl, agrees⟩

theorem call_spec (alone : Alone config client map) (steady : Steady config client call)
    (called : State.call config call client = some (answer, after)) :
    Served config client map call answer after := by
  have claims : ∀ key value rand, call = .put key value rand →
      ∃ off writer, Client.claim config rand key value 2 client.writer = some (off, writer) := by
    rintro key value rand rfl
    simp only [State.call, Client.put, Option.bind_eq_bind, Option.bind_eq_some_iff] at called
    obtain ⟨-, ⟨⟨off, writer⟩, claimed, -⟩, -⟩ := called
    exact ⟨off, writer, claimed⟩
  obtain ⟨other_answer, other_after, returned, served⟩ := call_served alone steady claims
  rw [called] at returned
  cases returned
  exact served

/-- A call returns if a block can be had. -/
theorem call_some (alone : Alone config client map) (steady : Steady config client call)
    (mapped : Mapped client.writer.toPool) :
    ∃ result, State.call config call client = some result := by
  obtain ⟨answer, after, returned, -⟩ := call_served alone steady
    (fun key value rand _ => claim_some alone.ready mapped key value)
  exact ⟨_, returned⟩

end Calls

end Hiom.Viper.Records.Plain
