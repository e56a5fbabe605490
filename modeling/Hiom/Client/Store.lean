import Hiom.Client.Tiers
import Hiom.Recovery.Replay
import Hiom.Viper.Restart

/-!
HiOM without a checkpoint: clients that act one after another on Viper's pages
and on the tiers, the drains of the flushers between their calls, and kills
after which the tail is replayed into the cold tier.
-/

namespace Hiom.Client

open Codec (expand)
open CommitBuffer.Wait (Op kNumLanes)
open HotTier (Hot SlotRef hotSem)
open Viper.Records (KVOffset Pool Position)

/-! ### Clients -/

def kMaxClientSlots : Nat := 256

def kInvalidSlotIdx : Nat := 2 ^ 64 - 1

structure Handle where
  client_seq : Nat
  slot_idx : Nat

def Handle.next_seq (handle : Handle) : Nat × Handle :=
  let local_seq := handle.client_seq + 1
  ((local_seq <<< 16) ||| (handle.slot_idx &&& 0xFFFF), { handle with client_seq := local_seq })

def reserve_client_slot (active : Nat → Bool) : Nat × (Nat → Bool) :=
  match (List.range kMaxClientSlots).find? fun i => !active i with
  | some i => (i, Function.update active i true)
  | none => (kInvalidSlotIdx, active)

def release_client_slot (idx : Nat) (active : Nat → Bool) : Nat → Bool :=
  if kMaxClientSlots ≤ idx then active else Function.update active idx false

section

variable {K V : Type} [DecidableEq K] (config : Config K)

/-! ### Viper's calls when HiOM owns the index -/

def viper_put (rand : Nat) (key : K) (value : V) (assume_new : Bool)
    (writer : Viper.Records.Writer K V) (tiers : Tiers) :
    Option ((Bool × KVOffset) × Viper.Records.Writer K V × Tiers) := do
  let (kv_offset, writer) ← Viper.Records.Plain.Client.claim config.viper rand key value 2 writer
  let (old_offset, tiers) ←
    if assume_new then some (KVOffset.Tombstone, tiers)
    else old_offset_resolver config writer.toPool key tiers
  let is_new_item := old_offset.is_tombstone
  let writer ← if is_new_item then some writer else writer.free_occupied_slot old_offset
  some ((is_new_item, kv_offset), writer.unlock_v_page, tiers)

/-- First at the offset of the hot tier, which the key is compared with under
the lock only; then at the offset of the resolver. -/
def viper_update (key : K) (update_fn : V → V) (writer : Viper.Records.Writer K V) (tiers : Tiers) :
    Option (Bool × Viper.Records.Writer K V × Tiers) := do
  let (hot_off, tiers) := hot_only_resolver config key tiers
  let (applied, writer) ←
    if hot_off.is_tombstone then some (false, writer) else writer.try_at key update_fn hot_off
  if applied then some (true, writer, tiers)
  else do
    let (cold_off, tiers) ← old_offset_resolver config writer.toPool key tiers
    if cold_off.is_tombstone then some (false, writer, tiers)
    else do
      let (applied, writer) ← writer.try_at key update_fn cold_off
      some (applied, writer, tiers)

def viper_remove (key : K) (writer : Viper.Records.Writer K V) (tiers : Tiers) :
    Option (Bool × Viper.Records.Writer K V × Tiers) := do
  let (kv_offset, tiers) ← old_offset_resolver config writer.toPool key tiers
  if kv_offset.is_tombstone then some (false, writer, tiers)
  else do
    let writer ← writer.free_occupied_slot kv_offset
    some (true, writer, tiers)

/-! ### Writes -/

def put (rand : Nat) (key : K) (value : V) (assume_new : Bool) (schedule : Schedule)
    (writer : Viper.Records.Writer K V) (handle : Handle) (tiers : Tiers) :
    Option (Bool × Viper.Records.Writer K V × Handle × Tiers) := do
  let ((is_new_item, just_written), writer, tiers) ←
    viper_put config rand key value assume_new writer tiers
  let (seq, handle) := handle.next_seq
  let tiers ← mirror_write_with_offset config writer.toPool key just_written seq schedule tiers
  some (is_new_item, writer, handle, tiers)

/-- The key is removed from the hot tier whatever Viper has answered. -/
def remove (key : K) (writer : Viper.Records.Writer K V) (handle : Handle) (tiers : Tiers) :
    Option (Bool × Viper.Records.Writer K V × Handle × Tiers) := do
  let (_, writer, tiers) ← viper_remove config key writer tiers
  let hot := ((HotTier.remove config.hot_buckets_pow2 (config.keys.key_fingerprint key) 1).run
    hotSem tiers.hot).2
  let (seq, handle) := handle.next_seq
  let tiers := (tiers.set_hot hot).push_commit
    ⟨.kRemove, config.keys.key_fingerprint64 key, config.keys.key_id_of key, .Tombstone,
      .invalid, seq⟩
  some (true, writer, handle, tiers)

/-- A value of fixed size is updated in place, and the tiers need no entry. -/
def update (key : K) (update_fn : V → V) (writer : Viper.Records.Writer K V) (tiers : Tiers) :
    Option (Bool × Viper.Records.Writer K V × Tiers) :=
  viper_update config key update_fn writer tiers

/-! ### Reads -/

/-- No thread holds a lock between two calls: one that is found is stale. -/
def repair_stale_lock_at (off : KVOffset) (pool : Pool K V) : Pool K V :=
  let page := (reader pool).page off.block_number off.page_number
  ((reader pool).set_page off.block_number off.page_number
    { page with version_lock := page.version_lock.unlocked }).toPool

def verify_and_read_offset (key : K) (off : KVOffset) (pool : Pool K V) : Option V × Pool K V :=
  if off.is_tombstone then (none, pool)
  else
    match (reader pool).hiom_read_at_offset_status off with
    | .kOk pm_key pm_val => (if pm_key = key then some pm_val else none, pool)
    | .kSlotFree => (none, pool)
    | .kTransient =>
        let pool := repair_stale_lock_at off pool
        match (reader pool).hiom_read_at_offset_status off with
        | .kOk pm_key pm_val => (if pm_key = key then some pm_val else none, pool)
        | _ => (none, pool)

def resolve_slow (key : K) (pool : Pool K V) (tiers : Tiers) : Option (Option V × Pool K V × Tiers) := do
  let found ← cold_lookup config key tiers
  match found with
  | none => some (none, pool, tiers)
  | some cold_off =>
      match verify_and_read_offset key cold_off pool with
      | (some value, pool) =>
          some (some value, pool, mirror_into_hot_with_offset config key cold_off tiers)
      | (none, pool) => some (none, pool, tiers)

def read_from (hot_off : Option KVOffset) (key : K) (pool : Pool K V) (tiers : Tiers) :
    Option (Option V × Pool K V × Tiers) :=
  match hot_off with
  | none => resolve_slow config key pool tiers
  | some off =>
      match verify_and_read_offset key off pool with
      | (some value, pool) => some (some value, pool, tiers)
      | (none, pool) => resolve_slow config key pool tiers

def get (key : K) (pool : Pool K V) (tiers : Tiers) : Option (Option V × Pool K V × Tiers) :=
  let (packed, tiers) := hot_lookup config key tiers
  read_from config (packed.map (expand base_map)) key pool tiers

def kGetBatchMax : Nat := 32

omit [DecidableEq K] in
/-- Every key is looked up in the hot tier before the first record is read. -/
def pass_one : List K → Tiers → List (Option KVOffset) × Tiers
  | [], tiers => ([], tiers)
  | key :: keys, tiers =>
      let (packed, tiers) := hot_lookup config key tiers
      let (offs, tiers) := pass_one keys tiers
      (packed.map (expand base_map) :: offs, tiers)

def pass_two : List (K × Option KVOffset) → Pool K V → Tiers →
    Option (List (Option V) × Pool K V × Tiers)
  | [], pool, tiers => some ([], pool, tiers)
  | (key, hot_off) :: rest, pool, tiers => do
      let (value, pool, tiers) ← read_from config hot_off key pool tiers
      let (values, pool, tiers) ← pass_two rest pool tiers
      some (value :: values, pool, tiers)

def get_batch (keys : List K) (pool : Pool K V) (tiers : Tiers) :
    Option (List (Option V) × Pool K V × Tiers) :=
  if keys.length ≤ kGetBatchMax then
    let (offs, tiers) := pass_one config keys tiers
    pass_two config (keys.zip offs) pool tiers
  else none

/-! ### The warm-up of the hot tier -/

omit [DecidableEq K] in
def warm_entry (tiers : Tiers) (entry : Nat × Nat) : Tiers :=
  match config.from_id with
  | none => tiers
  | some copy =>
      if (KVOffset.mk entry.2).is_tombstone then tiers
      else mirror_into_hot_with_offset config (copy entry.1) ⟨entry.2⟩ tiers

omit [DecidableEq K] in
/-- `order` is the order in which the threads of `parallel_load` come to the
entries. -/
def warm_hot_tier (num_threads : Nat) (order : List (Nat × Nat)) (tiers : Tiers) : Option Tiers := do
  let visits ← (tiers.cold.parallel_load config.geo num_threads).mapM id
  if order.isPerm visits.flatten then some (order.foldl (warm_entry config) tiers) else none

/-! ### The store -/

/-- The log of Viper's state is a ghost that has the calls of HiOM's clients. -/
structure State (K V : Type) where
  viper : Viper.Records.Plain.State K V
  tiers : Tiers
  handles : Nat → Handle
  client_slots : Nat → Bool

namespace State

def created (zero : K × V) (num_v_blocks : Nat) : State K V where
  viper := .created config.viper zero num_v_blocks
  tiers := .created
  handles := fun _ => ⟨0, kInvalidSlotIdx⟩
  client_slots := fun _ => false

def writer (state : State K V) (position : Position) : Viper.Records.Writer K V :=
  ⟨state.viper.pool, position⟩

def returned (state : State K V) (id : Nat) (writer : Viper.Records.Writer K V) (handle : Handle)
    (tiers : Tiers) : State K V :=
  { state with
    viper := state.viper.returned id ⟨writer, state.viper.map_⟩
    tiers := tiers
    handles := Function.update state.handles id handle }

def read (state : State K V) (pool : Pool K V) (tiers : Tiers) : State K V :=
  { state with viper := { state.viper with pool := pool }, tiers := tiers }

def logged (state : State K V)
    (calls : List (Viper.Records.Plain.Call K V × Viper.Records.Plain.Answer V)) : State K V :=
  { state with viper := { state.viper with log := calls ++ state.viper.log } }

def get_client (id rand : Nat) (state : State K V) : Option (State K V) := do
  let viper ← state.viper.connect config.viper id rand
  let (slot_idx, client_slots) := reserve_client_slot state.client_slots
  some
    { state with
      viper := viper
      handles := Function.update state.handles id ⟨0, slot_idx⟩
      client_slots := client_slots }

def drop_client (id : Nat) (state : State K V) : Option (State K V) := do
  let viper ← state.viper.disconnect id
  some
    { state with
      viper := viper
      client_slots := release_client_slot (state.handles id).slot_idx state.client_slots }

/-! ### Kills -/

def tail (pool : Pool K V) : Recovery.Tail K V where
  layout := config.viper.layout
  v_blocks := (List.range pool.num_v_blocks).map fun bn => some (pool.v_blocks bn)
  checkpoint := none
  vpage_frontier := pool.current_block_page

def joined (threads : Nat) (replay : Recovery.Replay) : Bool :=
  ((List.range threads).all fun t =>
      (replay.workers t).todo.isEmpty && !(replay.workers t).inside) &&
    (List.range ColdTier.kNumRegions).all fun rid => (replay.upserts rid).isNone

/-- The process is killed between two calls and the pool opened again. The steps
of the threads that replay the tail are `schedule`. -/
def reopen (threads : Nat) (schedule : List Recovery.Action) (state : State K V) :
    Option (State K V) := do
  let pool := state.viper.pool.reopened
  let found := tail config pool
  let replay ← (Recovery.recover_tail_into_cold config.geo config.keys found threads
    state.tiers.cold).run (.start config.keys found threads state.tiers.cold) schedule
  if joined (found.num_threads threads) replay then
    some
      { state with
        viper :=
          { state.viper with
            pool := pool
            map_ := .create config.viper.cceh_depth
            clients := fun _ => none }
        tiers := ⟨Hot.empty, fun _ => [], replay.tier⟩
        client_slots := fun _ => false }
  else none

end State

/-! ### Runs -/

inductive Action (K V : Type) where
  | get_client (id rand : Nat)
  | drop_client (id : Nat)
  | put (id : Nat) (key : K) (value : V) (assume_new : Bool) (rand : Nat) (schedule : Schedule)
  | get (id : Nat) (key : K)
  | get_batch (id : Nat) (keys : List K)
  | update (id : Nat) (key : K) (update_fn : V → V)
  | remove (id : Nat) (key : K)
  | drain (flusher_id : Nat)
  | grow (n : Nat)
  | warm_hot_tier (num_threads : Nat) (order : List (Nat × Nat))
  | reopen (threads : Nat) (schedule : List Recovery.Action)

def machine (zero : K × V) : Machine (State K V) (Action K V) where
  initial := fun state => ∃ num_v_blocks < 2 ^ 45, state = State.created config zero num_v_blocks
  step := fun state action =>
    match action with
    | .get_client id rand => state.get_client config id rand
    | .drop_client id => state.drop_client id
    | .put id key value assume_new rand schedule => do
        let position ← state.viper.clients id
        let (is_new_item, writer, handle, tiers) ← put config rand key value assume_new schedule
          (state.writer position) (state.handles id) state.tiers
        some ((state.returned id writer handle tiers).logged
          [(.put key value rand, .flag is_new_item)])
    | .get id key => do
        let _ ← state.viper.clients id
        let (value, pool, tiers) ← get config key state.viper.pool state.tiers
        some ((state.read pool tiers).logged [(.get key, .found value)])
    | .get_batch id keys => do
        let _ ← state.viper.clients id
        let (values, pool, tiers) ← get_batch config keys state.viper.pool state.tiers
        some ((state.read pool tiers).logged
          ((keys.zip values).map fun answered => (.get answered.1, .found answered.2)).reverse)
    | .update id key update_fn => do
        let position ← state.viper.clients id
        let (updated, writer, tiers) ← update config key update_fn (state.writer position) state.tiers
        some ((state.returned id writer (state.handles id) tiers).logged
          [(.update key update_fn, .flag updated)])
    | .remove id key => do
        let position ← state.viper.clients id
        let (removed, writer, handle, tiers) ← remove config key (state.writer position)
          (state.handles id) state.tiers
        some ((state.returned id writer handle tiers).logged [(.remove key, .flag removed)])
    | .drain flusher_id => do
        let tiers ← drain_once config state.viper.pool state.tiers flusher_id
        some { state with tiers := tiers }
    | .grow n =>
        if state.viper.pool.num_v_blocks + n < 2 ^ 45 then
          some
            { state with
              viper :=
                { state.viper with
                  pool :=
                    { state.viper.pool with num_v_blocks := state.viper.pool.num_v_blocks + n } } }
        else none
    | .warm_hot_tier num_threads order => do
        let tiers ← warm_hot_tier config num_threads order state.tiers
        some { state with tiers := tiers }
    | .reopen threads schedule => state.reopen config threads schedule

end

end Hiom.Client
