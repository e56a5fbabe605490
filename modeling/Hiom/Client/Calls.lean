import Hiom.Client.Reads

/-!
What holds between two steps of HiOM, and that the calls of its clients keep it.
-/

namespace Hiom.Client

open Codec (compact)
open CommitBuffer.Wait (Op)
open Viper.Records (KVOffset Lives Pool Position)
open Viper.Records.Plain (Answer Call Ready Shape applied map_of)

variable {K V : Type}

/-! ### What the calls are to do -/

/-- A removal answers the same whether the key was there or not. -/
def expected (map : K → Option V) : Call K V → Answer V
  | .remove _ => .flag true
  | call => Viper.Records.Plain.expected map call

def Finds (map : K → Option V) : Call K V → Answer V → Prop
  | .get key, answer => ∀ value, map key = some value → answer = .found (some value)
  | .update key _, answer => (map key).isSome = true → answer = .flag true
  | _, _ => True

section Logs

variable [DecidableEq K]

def Sound : List (Call K V × Answer V) → Prop
  | [] => True
  | (call, answer) :: log => Finds (map_of log) call answer ∧ Sound log

def Truthful : List (Call K V × Answer V) → Prop
  | [] => True
  | (call, answer) :: log => answer = expected (map_of log) call ∧ Truthful log

/-- Reads do not change the map. -/
theorem map_of_reads (answered : List (K × Option V)) (log : List (Call K V × Answer V)) :
    map_of (answered.map (fun pair => (Call.get pair.1, Answer.found pair.2)) ++ log) =
      map_of log := by
  induction answered with
  | nil => rfl
  | cons pair rest ih => exact ih

end Logs

/-! ### Between two steps -/

/-- `current` has the offset of each key that is there, and `base` what the cold
tier knows. -/
structure Consistent [DecidableEq K] (config : Config K) (keys : Set K) (single clean : Prop)
    (current : K → Option KVOffset) (base : Nat → Option Nat) (state : State K V) : Prop where
  shape : Shape config.viper.layout none state.viper
  recorded : Recorded config.viper.layout keys single current state.viper.pool
  index : Index config keys clean current none state.viper.pool state.tiers base
  values : ∀ key off value, current key = some off →
    Lives config.viper.layout state.viper.pool.v_blocks key off value →
    map_of state.viper.log key = some value
  absent : ∀ key, current key = none → map_of state.viper.log key = none
  sound : Sound state.viper.log
  truthful : single → Truthful state.viper.log

section Consistent

variable [DecidableEq K] {config : Config K} {keys : Set K} {single clean : Prop}
  {current : K → Option KVOffset} {base : Nat → Option Nat} {state next : State K V} {id : Nat}
  {position : Position} {key : K}

theorem Consistent.unlocked (consistent : Consistent config keys single clean current base state) :
    Unlocked state.viper.pool :=
  fun bn pn => consistent.shape.unlocked bn pn (Option.some_ne_none (bn, pn)).symm

omit [DecidableEq K] in
/-- The records of a sound pool are on mapped blocks. -/
theorem mapped_of_shape {layout : Viper.Records.Layout} {viper : Viper.Records.Plain.State K V}
    (shape : Shape layout none viper) (key : K) (off : KVOffset) (value : V)
    (lives : Lives layout viper.pool.v_blocks key off value) :
    off.block_number < viper.pool.num_v_blocks := by
  have claimed := shape.claimed key off value lives
  have next_le := shape.pool.next_le
  have below : off.block_number < viper.pool.current_block_page.block_number :=
    Nat.lt_of_not_le (fun above => claimed (.inl above))
  omega

omit [DecidableEq K] in
/-- The log does not matter to the pages. -/
theorem shape_logged {layout : Viper.Records.Layout} {viper : Viper.Records.Plain.State K V}
    (shape : Shape layout none viper) (log : List (Call K V × Answer V)) :
    Shape layout none { viper with log := log } :=
  ⟨shape.pool, shape.placed, shape.used, shape.apart, shape.claimed, shape.blank, shape.unlocked,
    shape.locked⟩

theorem Consistent.map_eq (consistent : Consistent config keys single clean current base state)
    {off : KVOffset} (present : current key = some off) :
    ∃ value, Lives config.viper.layout state.viper.pool.v_blocks key off value ∧
      map_of state.viper.log key = some value := by
  obtain ⟨value, lives⟩ := consistent.recorded.alive key off present
  exact ⟨value, lives, consistent.values key off value present lives⟩

theorem Consistent.present (consistent : Consistent config keys single clean current base state)
    {value : V} (here : map_of state.viper.log key = some value) :
    ∃ off, current key = some off ∧
      Lives config.viper.layout state.viper.pool.v_blocks key off value := by
  cases named : current key with
  | none =>
      rw [consistent.absent key named] at here
      cases here
  | some off =>
      obtain ⟨other, lives, same⟩ := consistent.map_eq named
      rw [here] at same
      cases same
      exact ⟨off, rfl, lives⟩

/-! ### Reads -/

theorem Consistent.answered {answer : Option V}
    (consistent : Consistent config keys single clean current base state)
    (answered : Answered config current state.viper.pool key answer) :
    (∀ value, map_of state.viper.log key = some value → answer = some value) ∧
      (single → answer = map_of state.viper.log key) := by
  have finds : ∀ value, map_of state.viper.log key = some value → answer = some value := by
    intro value here
    obtain ⟨off, present, lives⟩ := consistent.present here
    exact answered.present off value present lives
  refine ⟨finds, ?_⟩
  intro one
  cases here : map_of state.viper.log key with
  | some value => exact finds value here
  | none =>
      cases answer with
      | none => rfl
      | some value =>
          obtain ⟨off, lives⟩ := answered.lives value rfl
          rw [consistent.values key off value (consistent.recorded.single one key off value lives)
            lives] at here
          cases here

/-- Reads have been answered, and the tiers have changed a little. -/
theorem Consistent.read {tiers : Tiers} {answers : List (K × Option V)}
    (consistent : Consistent config keys single clean current base state)
    (index : Index config keys clean current none state.viper.pool tiers base)
    (answered : ∀ pair ∈ answers, Answered config current state.viper.pool pair.1 pair.2) :
    Consistent config keys single clean current base
      ((state.read state.viper.pool tiers).logged
        (answers.map fun pair => (.get pair.1, .found pair.2))) := by
  have map_eq := map_of_reads answers state.viper.log
  constructor
  · exact shape_logged consistent.shape _
  · exact consistent.recorded
  · exact index
  · intro key off value present lives
    rw [← consistent.values key off value present lives]
    exact congrFun map_eq key
  · intro key absent
    rw [← consistent.absent key absent]
    exact congrFun map_eq key
  · clear map_eq
    induction answers with
    | nil => exact consistent.sound
    | cons pair rest ih =>
        constructor
        · intro value here
          have same := congrFun (map_of_reads rest state.viper.log) pair.1
          have there : map_of state.viper.log pair.1 = some value := same.symm.trans here
          rw [(consistent.answered (answered pair List.mem_cons_self)).1 value there]
        · exact ih (fun other member => answered other (List.mem_cons_of_mem _ member))
  · intro one
    clear map_eq
    induction answers with
    | nil => exact consistent.truthful one
    | cons pair rest ih =>
        constructor
        · have same := congrFun (map_of_reads rest state.viper.log) pair.1
          rw [(consistent.answered (answered pair List.mem_cons_self)).2 one]
          exact congrArg Answer.found same.symm
        · exact ih (fun other member => answered other (List.mem_cons_of_mem _ member))

/-! ### Puts -/

/-- What a put asks for: no removal of its key waits, its key may be pinned, and
its offset has a compact form. -/
structure PutSteady (config : Config K) (keys : Set K) (state : State K V) (id : Nat) (key : K)
    (value : V) (rand : Nat) : Prop where
  member : key ∈ keys
  no_removal : ∀ e, Waits config state.tiers key e → e.op ≠ .kRemove
  clear : Clear config state.tiers key
  compacts : ∀ position off writer, state.viper.clients id = some position →
    Viper.Records.Plain.Client.claim config.viper rand key value 2 (state.writer position) =
      some (off, writer) → compact base_map off ≠ none

/-- The put can find the old record: it is not on the page that the new one is
written to. -/
structure PutApart (config : Config K) (state : State K V) (id : Nat) (key : K) (value : V)
    (assume_new : Bool) (rand : Nat) : Prop where
  new : assume_new = true → map_of state.viper.log key = none
  elsewhere : ∀ position off writer, state.viper.clients id = some position →
    Viper.Records.Plain.Client.claim config.viper rand key value 2 (state.writer position) =
      some (off, writer) →
    ∀ other other_value, Lives config.viper.layout state.viper.pool.v_blocks key other other_value →
      ¬(other.block_number = off.block_number ∧ other.page_number = off.page_number)

omit [DecidableEq K] in
theorem waits_congr {tiers after : Tiers} (same : after.commit_buf = tiers.commit_buf) (key : K)
    (e : CommitEntry) : Waits config after key e ↔ Waits config tiers key e := by
  unfold Waits
  rw [same]

/-- The pages after a put. -/
theorem Recorded.put {layout : Viper.Records.Layout} {writer after : Viper.Records.Writer K V}
    {value : V} {off old_offset : KVOffset}
    (recorded : Recorded layout keys single current writer.toPool) (member : key ∈ keys)
    (pages : PutPages layout writer key value off old_offset after)
    (mapped : ∀ key off value, Lives layout after.v_blocks key off value →
      off.block_number < after.num_v_blocks)
    (old : single → ∀ cur, current key = some cur → old_offset = cur) :
    Recorded layout keys single (Function.update current key (some off)) after.toPool := by
  constructor
  · intro other cur present
    by_cases same : other = key
    · subst same
      rw [Function.update_self] at present
      cases present
      exact ⟨value, (pages.lives other off value).mpr (.inl ⟨rfl, rfl, rfl⟩)⟩
    · rw [Function.update_of_ne same] at present
      obtain ⟨other_value, lives⟩ := recorded.alive other cur present
      refine ⟨other_value, (pages.lives other cur other_value).mpr (.inr ⟨lives, ?_⟩)⟩
      rintro rfl
      obtain ⟨old_value, was⟩ := pages.old lives.ne_tombstone
      exact same (was.same_record lives).1
  · intro other third third_value lives
    rcases (pages.lives other third third_value).mp lives with ⟨rfl, -, -⟩ | ⟨before, -⟩
    · exact member
    · exact recorded.only other third third_value before
  · exact mapped
  · intro one other third third_value lives
    rcases (pages.lives other third third_value).mp lives with ⟨rfl, rfl, -⟩ | ⟨before, kept⟩
    · exact Function.update_self ..
    · have was := recorded.single one other third third_value before
      rw [Function.update_of_ne]
      · exact was
      · rintro rfl
        exact kept (old one third was).symm

theorem Consistent.put {value : V} {assume_new is_new_item : Bool} {rand : Nat} {schedule : Schedule}
    {after : Viper.Records.Writer K V} {handle : Handle} {tiers : Tiers}
    (consistent : Consistent config keys single clean current base state)
    (distinct : Set.InjOn config.keys.key_fingerprint keys) (strict : clean → single)
    (steady : PutSteady config keys state id key value rand)
    (apart : single → PutApart config state id key value assume_new rand)
    (here : state.viper.clients id = some position)
    (done : put config rand key value assume_new schedule (state.writer position)
      (state.handles id) state.tiers = some (is_new_item, after, handle, tiers)) :
    ∃ current base, Consistent config keys single clean current base
      ((state.returned id after handle tiers).logged
        [(.put key value rand, .flag is_new_item)]) := by
  simp only [Client.put, Option.bind_eq_bind, Option.bind_eq_some_iff] at done
  obtain ⟨⟨⟨is_new, off⟩, writer, tiers_middle⟩, placed, last, mirrored, same⟩ := done
  cases same
  have ready : Ready config.viper.layout (state.writer position) := consistent.shape.ready here
  obtain ⟨old_offset, pages, index, buffer, is_new_eq, ⟨middle, claimed⟩, assumed, resolved⟩ :=
    viper_put_spec ready consistent.unlocked consistent.index distinct consistent.recorded placed
  have old : single → ∀ cur, current key = some cur → old_offset = cur := by
    intro one cur present
    obtain ⟨cur_value, lives, told⟩ := consistent.map_eq present
    cases new : assume_new with
    | true =>
        rw [(apart one).new new] at told
        cases told
    | false => exact resolved new cur present ((apart one).elsewhere position off middle here claimed
        cur cur_value lives)
  have shape : Shape config.viper.layout none
      (state.viper.returned id ⟨writer, state.viper.map_⟩) :=
    consistent.shape.client_returned here pages.effect
  have recorded := consistent.recorded.put steady.member pages (mapped_of_shape shape) old
  have lives_off := (pages.lives key off value).mpr (.inl ⟨rfl, rfl, rfl⟩)
  have no_removal : ∀ e, Waits config tiers_middle key e → e.op ≠ .kRemove :=
    fun e waits => steady.no_removal e ((waits_congr buffer key e).mp waits)
  have pending : Pending config keys clean (Function.update current key (some off)) writer.toPool key
      tiers_middle base := by
    constructor
    · exact index.begun steady.member no_removal off
    · exact index.held steady.member no_removal
    · unfold Clear
      rw [buffer]
      exact steady.clear
  obtain ⟨base_after, index_after⟩ := mirror_write_index distinct recorded strict pending steady.member
    (Function.update_self ..) (Proper.of_lives lives_off)
    (steady.compacts position off middle here claimed) mirrored
  refine ⟨_, base_after, shape_logged shape _, recorded, index_after, ?_, ?_, ?_, ?_⟩
  · intro other cur cur_value present lives
    show Function.update (map_of state.viper.log) key (some value) other = some cur_value
    by_cases own : other = key
    · subst own
      rw [Function.update_self] at present ⊢
      cases present
      rcases (pages.lives other off cur_value).mp lives with ⟨-, -, rfl⟩ | ⟨before, -⟩
      · rfl
      · exact absurd before (pages.fresh other cur_value)
    · rw [Function.update_of_ne own] at present ⊢
      rcases (pages.lives other cur cur_value).mp lives with ⟨mine, -, -⟩ | ⟨before, -⟩
      · exact absurd mine own
      · exact consistent.values other cur cur_value present before
  · intro other absent
    show Function.update (map_of state.viper.log) key (some value) other = none
    by_cases own : other = key
    · subst own
      rw [Function.update_self] at absent
      cases absent
    · rw [Function.update_of_ne own] at absent ⊢
      exact consistent.absent other absent
  · exact ⟨trivial, consistent.sound⟩
  · intro one
    refine ⟨?_, consistent.truthful one⟩
    show Answer.flag is_new = .flag (map_of state.viper.log key).isNone
    rw [is_new_eq]
    cases named : current key with
    | some cur =>
        obtain ⟨cur_value, lives, told⟩ := consistent.map_eq named
        rw [old one cur named, Viper.Records.Plain.is_tombstone_of_lives lives, told]
        rfl
    | none =>
        have nothing : old_offset = .Tombstone := by
          by_contra real
          obtain ⟨old_value, lives⟩ := pages.old real
          rw [consistent.recorded.single one key old_offset old_value lives] at named
          cases named
        rw [nothing, consistent.absent key named]
        rfl

/-! ### Removals -/

theorem Consistent.remove {removed : Bool} {after : Viper.Records.Writer K V} {handle : Handle}
    {tiers : Tiers} (consistent : Consistent config keys single clean current base state)
    (distinct : Set.InjOn config.keys.key_fingerprint keys) (member : key ∈ keys)
    (here : state.viper.clients id = some position)
    (done : remove config key (state.writer position) (state.handles id) state.tiers =
      some (removed, after, handle, tiers)) :
    ∃ current base, Consistent config keys single clean current base
      ((state.returned id after handle tiers).logged [(.remove key, .flag removed)]) := by
  simp only [Client.remove, Option.bind_eq_bind, Option.bind_eq_some_iff] at done
  obtain ⟨⟨answer, writer, tiers_middle⟩, freed, same⟩ := done
  cases same
  have ready : Ready config.viper.layout (state.writer position) := consistent.shape.ready here
  obtain ⟨off, pages, index, buffer⟩ :=
    viper_remove_spec ready consistent.unlocked consistent.index distinct consistent.recorded freed
  have shape : Shape config.viper.layout none
      (state.viper.returned id ⟨writer, state.viper.map_⟩) :=
    consistent.shape.client_returned here pages.effect
  have kept : ∀ {other cur}, other ≠ key → current other = some cur → cur ≠ off := by
    rintro other cur different present rfl
    obtain ⟨other_value, lives⟩ := consistent.recorded.alive other cur present
    obtain ⟨value, own⟩ := pages.real lives.ne_tombstone
    exact different (own.same_record lives).1
  have removed := HotTier.remove_removed index.intact (config.keys.key_fingerprint_pos key)
  refine ⟨Function.update current key none, base, shape_logged shape _, ?_,
    index.removed distinct member removed, ?_, ?_, ?_, ?_⟩
  · constructor
    · intro other cur present
      by_cases own : other = key
      · subst own
        rw [Function.update_self] at present
        cases present
      · rw [Function.update_of_ne own] at present
        obtain ⟨other_value, lives⟩ := consistent.recorded.alive other cur present
        exact ⟨other_value, (pages.lives other cur other_value).mpr ⟨lives, kept own present⟩⟩
    · intro other third third_value lives
      exact consistent.recorded.only other third third_value
        ((pages.lives other third third_value).mp lives).1
    · exact mapped_of_shape (shape_logged shape _)
    · intro one other third third_value lives
      obtain ⟨before, different⟩ := (pages.lives other third third_value).mp lives
      have was := consistent.recorded.single one other third third_value before
      rw [Function.update_of_ne]
      · exact was
      · rintro rfl
        exact different (pages.found third was).symm
  · intro other cur cur_value present lives
    show Function.update (map_of state.viper.log) key none other = some cur_value
    by_cases own : other = key
    · subst own
      rw [Function.update_self] at present
      cases present
    · rw [Function.update_of_ne own] at present ⊢
      exact consistent.values other cur cur_value present
        ((pages.lives other cur cur_value).mp lives).1
  · intro other absent
    show Function.update (map_of state.viper.log) key none other = none
    by_cases own : other = key
    · subst own
      exact Function.update_self ..
    · rw [Function.update_of_ne own] at absent ⊢
      exact consistent.absent other absent
  · exact ⟨trivial, consistent.sound⟩
  · intro one
    exact ⟨rfl, consistent.truthful one⟩

/-! ### Updates -/

omit [DecidableEq K] in
/-- The pages after an update. -/
theorem Recorded.update {writer after : Viper.Records.Writer K V} {update_fn : V → V} {updated : Bool}
    (recorded : Recorded config.viper.layout keys single current writer.toPool)
    (pages : UpdatePages config current writer key update_fn updated after)
    (mapped : ∀ key off value, Lives config.viper.layout after.v_blocks key off value →
      off.block_number < after.num_v_blocks) :
    Recorded config.viper.layout keys single current after.toPool := by
  cases updated with
  | false =>
      have same := pages.missed rfl
      constructor
      · intro other cur present
        obtain ⟨value, lives⟩ := recorded.alive other cur present
        exact ⟨value, (same other cur value).mpr lives⟩
      · exact fun other third value lives => recorded.only other third value ((same _ _ _).mp lives)
      · exact mapped
      · exact fun one other third value lives =>
          recorded.single one other third value ((same _ _ _).mp lives)
  | true =>
      obtain ⟨off, value, was, -, now⟩ := pages.hit rfl
      constructor
      · intro other cur present
        obtain ⟨other_value, lives⟩ := recorded.alive other cur present
        by_cases here : cur = off
        · subst here
          exact ⟨update_fn value, (now other cur _).mpr (.inl ⟨(was.same_record lives).1, rfl, rfl⟩)⟩
        · exact ⟨other_value, (now other cur other_value).mpr (.inr ⟨here, lives⟩)⟩
      · intro other third new lives
        rcases (now other third new).mp lives with ⟨rfl, -, -⟩ | ⟨-, before⟩
        · exact recorded.only other off value was
        · exact recorded.only other third new before
      · exact mapped
      · intro one other third new lives
        rcases (now other third new).mp lives with ⟨rfl, rfl, -⟩ | ⟨-, before⟩
        · exact recorded.single one other third value was
        · exact recorded.single one other third new before

theorem Consistent.update {update_fn : V → V} {updated : Bool} {after : Viper.Records.Writer K V}
    {tiers : Tiers} (consistent : Consistent config keys single clean current base state)
    (distinct : Set.InjOn config.keys.key_fingerprint keys)
    (here : state.viper.clients id = some position)
    (done : update config key update_fn (state.writer position) state.tiers =
      some (updated, after, tiers)) :
    ∃ current base, Consistent config keys single clean current base
      ((state.returned id after (state.handles id) tiers).logged
        [(.update key update_fn, .flag updated)]) := by
  have ready : Ready config.viper.layout (state.writer position) := consistent.shape.ready here
  obtain ⟨pages, index, buffer⟩ :=
    viper_update_spec ready consistent.unlocked consistent.index distinct consistent.recorded done
  have shape : Shape config.viper.layout none
      (state.viper.returned id ⟨after, state.viper.map_⟩) :=
    consistent.shape.client_returned here pages.effect
  refine ⟨current, base, shape_logged shape _,
    consistent.recorded.update pages (mapped_of_shape shape), index, ?_, ?_, ?_, ?_⟩
  · intro other cur new present lives
    show Function.update (map_of state.viper.log) key ((map_of state.viper.log key).map update_fn)
      other = some new
    by_cases own : other = key
    · subst own
      have hits := pages.found cur present
      obtain ⟨off, value, was, named, now⟩ := pages.hit hits
      have one := named cur present
      subst one
      rcases (now other off new).mp lives with ⟨-, -, rfl⟩ | ⟨different, -⟩
      · rw [Function.update_self, consistent.values other off value present was]
        rfl
      · exact absurd rfl different
    · rw [Function.update_of_ne own]
      cases updated with
      | false =>
          exact consistent.values other cur new present ((pages.missed rfl other cur new).mp lives)
      | true =>
          obtain ⟨off, value, was, -, now⟩ := pages.hit rfl
          rcases (now other cur new).mp lives with ⟨mine, -, -⟩ | ⟨-, before⟩
          · exact absurd mine own
          · exact consistent.values other cur new present before
  · intro other absent
    show Function.update (map_of state.viper.log) key ((map_of state.viper.log key).map update_fn)
      other = none
    by_cases own : other = key
    · subst own
      rw [Function.update_self, consistent.absent other absent]
      rfl
    · rw [Function.update_of_ne own]
      exact consistent.absent other absent
  · refine ⟨?_, consistent.sound⟩
    intro there
    obtain ⟨value, found⟩ := Option.isSome_iff_exists.mp there
    obtain ⟨off, present, -⟩ := consistent.present found
    rw [pages.found off present]
  · intro one
    refine ⟨?_, consistent.truthful one⟩
    show Answer.flag updated = .flag (map_of state.viper.log key).isSome
    cases named : current key with
    | some cur =>
        obtain ⟨value, -, told⟩ := consistent.map_eq named
        rw [pages.found cur named, told]
        rfl
    | none =>
        rw [consistent.absent key named]
        cases updated with
        | false => rfl
        | true =>
            obtain ⟨off, value, was, -⟩ := pages.hit rfl
            rw [consistent.recorded.single one key off value was] at named
            cases named

/-! ### Clients, drains and the warm-up -/

/-- A change of the pages that neither ends nor begins a record. -/
theorem Consistent.repaged {viper : Viper.Records.Plain.State K V}
    (consistent : Consistent config keys single clean current base state)
    (shape : Shape config.viper.layout none viper) (log : viper.log = state.viper.log)
    (keeps : KeepsUse state.viper.pool viper.pool)
    (lives : ∀ key off value, Lives config.viper.layout viper.pool.v_blocks key off value ↔
      Lives config.viper.layout state.viper.pool.v_blocks key off value)
    (handles : Nat → Handle) (client_slots : Nat → Bool) :
    Consistent config keys single clean current base ⟨viper, state.tiers, handles, client_slots⟩ := by
  constructor
  · exact shape
  · constructor
    · intro key off present
      obtain ⟨value, alive⟩ := consistent.recorded.alive key off present
      exact ⟨value, (lives key off value).mpr alive⟩
    · exact fun key off value alive =>
        consistent.recorded.only key off value ((lives key off value).mp alive)
    · exact mapped_of_shape shape
    · exact fun one key off value alive =>
        consistent.recorded.single one key off value ((lives key off value).mp alive)
  · exact consistent.index.repaged keeps.proper
  · intro key off value present alive
    rw [log]
    exact consistent.values key off value present ((lives key off value).mp alive)
  · intro key absent
    rw [log]
    exact consistent.absent key absent
  · rw [log]
    exact consistent.sound
  · rw [log]
    exact consistent.truthful

theorem Consistent.get_client {rand : Nat}
    (consistent : Consistent config keys single clean current base state)
    (done : state.get_client config id rand = some next) :
    Consistent config keys single clean current base next := by
  simp only [State.get_client, Option.bind_eq_bind, Option.bind_eq_some_iff] at done
  obtain ⟨viper, connected, same⟩ := done
  cases same
  unfold Viper.Records.Plain.State.connect at connected
  split at connected
  · cases connected
  · rw [Option.bind_eq_bind, Option.bind_eq_some_iff] at connected
    obtain ⟨writer, taken, same⟩ := connected
    cases same
    have entered := Viper.Records.Writer.get_block_based_access_entered consistent.shape.pool taken
    apply consistent.repaged
    · exact consistent.shape.client_connected rfl entered
    · rfl
    · exact entered_keeps entered
    · exact Viper.Records.Plain.entered_lives entered consistent.shape.claimed

theorem Consistent.drop_client
    (consistent : Consistent config keys single clean current base state)
    (done : state.drop_client id = some next) :
    Consistent config keys single clean current base next := by
  simp only [State.drop_client, Option.bind_eq_bind, Option.bind_eq_some_iff] at done
  obtain ⟨viper, disconnected, same⟩ := done
  cases same
  unfold Viper.Records.Plain.State.disconnect at disconnected
  rw [Option.bind_eq_bind, Option.bind_eq_some_iff] at disconnected
  obtain ⟨position, here, same⟩ := disconnected
  cases same
  obtain ⟨next_same, blocks, free, like⟩ := @Viper.Records.Writer.leave_block_like K V
    ⟨state.viper.pool, position⟩ (some position.v_block_number)
  have sound := consistent.shape.pool
  apply consistent.repaged
  · apply consistent.shape.like
    · constructor
      · exact sound.next_page_lt
      · exact sound.next_le
      · exact sound.blocks_lt
      · exact sound.free_lt
      · exact sound.free_nodup
    · exact next_same
    · exact free
    · exact like
    · intro other other_position there
      dsimp only at there
      rw [Function.update_apply] at there
      split at there
      · cases there
      · exact there
  · rfl
  · exact fun bn pn used => (like bn pn).used.trans used
  · exact fun key off value => Lives.congr ((like _ _).live _) (congrFun (like _ _).data _)

omit [DecidableEq K] in
/-- Lanes are drained while no put is under way. -/
theorem Index.lane_drained {pool : Pool K V} {tiers after : Tiers} {lane : Nat}
    (distinct : Set.InjOn config.keys.key_fingerprint keys)
    (recorded : Recorded config.viper.layout keys single current pool) (strict : clean → single)
    (index : ∃ base, Index config keys clean current none pool tiers base)
    (done : drain_lane config pool tiers lane = some after) :
    ∃ base, Index config keys clean current none pool after base := by
  obtain ⟨base, index⟩ := index
  obtain ⟨base_after, drained⟩ := drain_lane_drained index done
  exact ⟨base_after, drained.index index distinct recorded strict⟩

theorem Consistent.drain {flusher_id : Nat} {tiers : Tiers}
    (consistent : Consistent config keys single clean current base state)
    (distinct : Set.InjOn config.keys.key_fingerprint keys) (strict : clean → single)
    (done : drain_once config state.viper.pool state.tiers flusher_id = some tiers) :
    ∃ base, Consistent config keys single clean current base { state with tiers := tiers } := by
  obtain ⟨base_after, index⟩ := drain_once_rule
    (fun _ _ _ before drains => Index.lane_drained distinct consistent.recorded strict before drains)
    ⟨base, consistent.index⟩ done
  exact ⟨base_after, consistent.shape, consistent.recorded, index, consistent.values,
    consistent.absent, consistent.sound, consistent.truthful⟩

theorem Consistent.grow {n : Nat}
    (consistent : Consistent config keys single clean current base state)
    (small : state.viper.pool.num_v_blocks + n < 2 ^ 45) :
    Consistent config keys single clean current base
      { state with
        viper :=
          { state.viper with
            pool :=
              { state.viper.pool with num_v_blocks := state.viper.pool.num_v_blocks + n } } } := by
  have sound := consistent.shape.pool
  apply consistent.repaged
  · apply consistent.shape.like
    · constructor
      · exact sound.next_page_lt
      · exact Nat.le_trans sound.next_le (Nat.le_add_right _ _)
      · exact small
      · exact sound.free_lt
      · exact sound.free_nodup
    · rfl
    · rfl
    · exact fun _ _ => .refl _
    · exact fun _ _ here => here
  · rfl
  · exact fun _ _ used => used
  · exact fun _ _ _ => Iff.rfl

omit [DecidableEq K] in
/-- One entry comes to the hot tier while nothing waits. -/
theorem Index.warmed {pool : Pool K V} {tiers : Tiers} {entry : Nat × Nat}
    (index : Index config keys clean current none pool tiers base)
    (empty : ∀ lane, tiers.commit_buf lane = []) (known : base entry.1 = some entry.2) :
    Index config keys clean current none pool (warm_entry config tiers entry) base ∧
      (warm_entry config tiers entry).commit_buf = tiers.commit_buf := by
  unfold warm_entry
  split
  · exact ⟨index, rfl⟩
  · rename_i copy copies
    split
    · exact ⟨index, rfl⟩
    · obtain ⟨⟨key, member, id⟩, proper⟩ := index.known _ _ known
      have copied : copy entry.1 = key := by
        rw [← id]
        exact config.from_id_id copy copies key
      rw [copied]
      refine ⟨index.mirrored member proper ?_, ?_⟩
      · intro free cur present
        cases index.told key member free cur present with
        | settled _ here =>
            rw [id, known] at here
            exact congrArg KVOffset.mk (Option.some.inj here)
        | waiting _ latest =>
            obtain ⟨e, waits, -⟩ := latest
            have there := waits.1
            rw [empty] at there
            cases there
      · unfold mirror_into_hot_with_offset
        split
        · rfl
        · rfl

theorem Consistent.warm {num_threads : Nat} {order : List (Nat × Nat)} {tiers : Tiers}
    (consistent : Consistent config keys single clean current base state)
    (empty : ∀ lane, state.tiers.commit_buf lane = [])
    (done : warm_hot_tier config num_threads order state.tiers = some tiers) :
    Consistent config keys single clean current base { state with tiers := tiers } := by
  obtain ⟨last, represents, told⟩ := consistent.index.maps
  obtain ⟨visits, answered, -, visited⟩ := represents.parallel_load num_threads
  unfold warm_hot_tier at done
  have whole : (visits.map some).mapM id = some visits := by
    clear visited answered
    induction visits with
    | nil => rfl
    | cons first rest ih =>
        rw [List.map_cons, List.mapM_cons, ih]
        rfl
  rw [answered, whole] at done
  simp only [Option.bind_eq_bind, Option.bind_some] at done
  split at done
  · rename_i perm
    cases done
    have known : ∀ entry ∈ order, base entry.1 = some entry.2 := by
      intro entry member
      have inside := (List.isPerm_iff.mp perm).mem_iff.mp member
      have recorded : last entry.1 = some (some entry.2) := (visited entry.1 entry.2).mp inside
      rw [← told, recorded]
      rfl
    have warmed : ∀ tiers : Tiers,
        Index config keys clean current none state.viper.pool tiers base →
        tiers.commit_buf = state.tiers.commit_buf →
        Index config keys clean current none state.viper.pool
          (order.foldl (warm_entry config) tiers) base := by
      clear perm
      induction order with
      | nil => exact fun tiers index _ => index
      | cons entry rest ih =>
          intro tiers index buffer
          obtain ⟨index_next, buffer_next⟩ := index.warmed (fun lane => by
            rw [buffer]
            exact empty lane) (known entry List.mem_cons_self)
          exact ih (fun other member => known other (List.mem_cons_of_mem _ member)) _ index_next
            (buffer_next.trans buffer)
    exact ⟨consistent.shape, consistent.recorded, warmed _ consistent.index rfl, consistent.values,
      consistent.absent, consistent.sound, consistent.truthful⟩
  · cases done

end Consistent

end Hiom.Client
