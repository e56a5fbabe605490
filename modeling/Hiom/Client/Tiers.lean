import Hiom.Client.Keys
import Hiom.Cold.Tier
import Hiom.Commit.Wait
import Hiom.Hot.Codec
import Hiom.Hot.Guards
import Hiom.Viper.Plain

/-!
What HiOM keeps above Viper: the hot tier, the lanes of the commit buffer and
the cold tier. How the entries of a lane are applied, and how a write comes to
the tiers. The threads act one after another, a drain at a time.
-/

namespace Hiom.Client

open Codec (BlockBaseMap compact expand)
open ColdTier (BulkEntry Geometry SortedFrom Tier)
open CommitBuffer.Wait (Op kNumLanes lane_of_fp64)
open HotTier (Hot SlotRef hotSem kMaxBackpressureRetries)
open Viper.Records (KVOffset Pool)

structure CommitEntry where
  op : Op
  fp64 : Nat
  key_id : Nat
  off : KVOffset
  hot_slot : SlotRef
  seq : Nat
  deriving DecidableEq

/-- What the code is compiled for and the constructor is given. `dequeue` is the
order in which a queue with several producers hands out what it has, `sort` that
in which `std::sort` leaves the entries of a bulk call, and `from_id` the key
that a key id is copied from, for keys of up to eight bytes. -/
structure Config (K : Type) where
  viper : Viper.Records.Plain.Config K
  keys : Keys K
  hot_buckets_pow2 : Nat
  hot_buckets_pos : 0 < hot_buckets_pow2
  geo : Geometry
  num_flushers : Nat
  flushers_divide : num_flushers ∣ kNumLanes
  dequeue : List CommitEntry → List CommitEntry
  dequeue_perm : ∀ entries, (dequeue entries).Perm entries
  sort : List BulkEntry → List BulkEntry
  sorted : ∀ entries, SortedFrom geo entries (sort entries)
  from_id : Option (Nat → K)
  from_id_id : ∀ copy, from_id = some copy → ∀ key, copy (keys.key_id_of key) = key

/-- One region, that begins at block 0. -/
def base_map : BlockBaseMap := fun _ => 0#32

structure Tiers where
  hot : Hot
  commit_buf : Nat → List CommitEntry
  cold : Tier

namespace Tiers

def created : Tiers := ⟨Hot.empty, fun _ => [], Tier.create⟩

def set_hot (tiers : Tiers) (hot : Hot) : Tiers := { tiers with hot := hot }

def size_hint (tiers : Tiers) : Nat :=
  ((List.range kNumLanes).map fun lane => (tiers.commit_buf lane).length).sum

def push_commit (e : CommitEntry) (tiers : Tiers) : Tiers :=
  { tiers with
    commit_buf :=
      Function.update tiers.commit_buf (lane_of_fp64 e.fp64)
        (tiers.commit_buf (lane_of_fp64 e.fp64) ++ [e]) }

end Tiers

section

variable {K V : Type} (config : Config K)

def reader (pool : Pool K V) : Viper.Records.Writer K V := ⟨pool, 0, 0, 0⟩

/-! ### A batch of the buffer -/

def holds (pool : Pool K V) (kid : Nat) (off : KVOffset) : Bool :=
  match (reader pool).hiom_get_slot_key off with
  | some stored_key => config.keys.key_id_of stored_key == kid
  | none => false

def less (a b : CommitEntry) : Bool := if a.fp64 ≠ b.fp64 then a.fp64 < b.fp64 else a.seq < b.seq

def same_fp64 (a b : CommitEntry) : Bool := a.fp64 == b.fp64

def kids_in_run (run : List CommitEntry) : List Nat := (run.map CommitEntry.key_id).eraseDups

/-- The put of the key whose offset is in the slot that its puts are pinned to. -/
def hot_truth (pool : Pool K V) (hot : Hot) (run : List CommitEntry) (kid : Nat) :
    Option CommitEntry := do
  let first ← run.find? fun e => e.key_id == kid && e.op == .kPut && e.hot_slot.valid
  let (fp, packed_off) := ((HotTier.read_slot first.hot_slot).run hotSem hot).1
  if fp = 0 then none
  else
    run.find? fun e =>
      e.key_id == kid && e.op == .kPut && e.off == expand base_map packed_off &&
        holds config pool kid e.off

/-- Else, from the last entry of the key down, a removal or a put whose record
is there. -/
def descending (pool : Pool K V) (run : List CommitEntry) (kid : Nat) : Option CommitEntry :=
  run.reverse.find? fun e =>
    e.key_id == kid && (e.op == .kRemove || holds config pool kid e.off)

def winner (pool : Pool K V) (hot : Hot) (run : List CommitEntry) (kid : Nat) :
    Option CommitEntry :=
  (hot_truth config pool hot run kid).or (descending config pool run kid)

/-- One winner at most for each key of each run of equal fingerprints. -/
def winners (pool : Pool K V) (hot : Hot) (batch : List CommitEntry) : List CommitEntry :=
  (batch.splitBy same_fp64).flatMap fun run =>
    (kids_in_run run).filterMap (winner config pool hot run)

def remove_winner (cold : Tier) (e : CommitEntry) : Option Tier :=
  match cold.remove config.geo e.fp64 e.key_id with
  | (some _, cold) => some cold
  | (none, _) => none

def CommitEntry.bulk_entry (e : CommitEntry) : BulkEntry := ⟨e.fp64, e.key_id, e.off.offset⟩

/-- It aborts the program if the cold tier is full. -/
def bulk_upsert (puts : List BulkEntry) (cold : Tier) : Option Tier :=
  if puts.isEmpty then some cold
  else
    match cold.bulk_upsert config.geo (config.sort puts) with
    | (some wrote, cold) => if wrote = puts.length then some cold else none
    | (none, _) => none

/-- Removals are made as they win, the puts after them. -/
def stage_one (pool : Pool K V) (hot : Hot) (batch : List CommitEntry) (cold : Tier) :
    Option Tier := do
  let winners := winners config pool hot batch
  let cold ← (winners.filter fun e => e.op == .kRemove).foldlM (remove_winner config) cold
  bulk_upsert config ((winners.filter fun e => e.op == .kPut).map CommitEntry.bulk_entry) cold

def stage_two (batch : List CommitEntry) (hot : Hot) : Hot :=
  batch.foldl (fun hot e => ((HotTier.release e.hot_slot).run hotSem hot).2) hot

def apply_batch (pool : Pool K V) (batch : List CommitEntry) (tiers : Tiers) : Option Tiers :=
  if batch.isEmpty then some tiers
  else do
    let cold ← stage_one config pool tiers.hot batch tiers.cold
    some { tiers with hot := stage_two batch tiers.hot, cold := cold }

/-! ### Drains -/

def drain_lane (pool : Pool K V) (tiers : Tiers) (lane : Nat) : Option Tiers :=
  let batch := (config.dequeue (tiers.commit_buf lane)).mergeSort fun a b => !less b a
  apply_batch config pool batch
    { tiers with commit_buf := Function.update tiers.commit_buf lane [] }

def lanes_per : Nat := kNumLanes / config.num_flushers

def lanes_for_flusher (flusher_id : Nat) : List Nat :=
  List.range' (flusher_id * lanes_per config) (lanes_per config)

/-- No one pushes meanwhile: the second look at the mask finds it empty. -/
def drain_to_empty_and_apply_locked (pool : Pool K V) (tiers : Tiers) (flusher_id : Nat) :
    Option (Nat × Tiers) := do
  let lanes := lanes_for_flusher config flusher_id
  let total := (lanes.map fun lane => (tiers.commit_buf lane).length).sum
  let tiers ← lanes.foldlM (drain_lane config pool) tiers
  some (total, tiers)

def drain_once (pool : Pool K V) (tiers : Tiers) (flusher_id : Nat) : Option Tiers := do
  let (_, tiers) ← drain_to_empty_and_apply_locked config pool tiers flusher_id
  some tiers

/-- What the destructor does when the threads of the flushers have ended. -/
def catch_up (pool : Pool K V) (tiers : Tiers) : Option Tiers :=
  (List.range config.num_flushers).foldlM (drain_once config pool) tiers

/-- The first mutex is free. -/
def try_inline_flush (pool : Pool K V) (tiers : Tiers) : Option (Nat × Tiers) :=
  drain_to_empty_and_apply_locked config pool tiers 0

/-- `flushers` says which flushers come to drain during each wait of a put, and
`rounds` how often the put looks whether the buffer is empty. -/
structure Schedule where
  flushers : List (List Nat)
  rounds : Nat

/-- A put drains the lanes of the first flusher, or it wakes the flushers and
waits a little. -/
def back_off (pool : Pool K V) (waits : List (List Nat)) (tiers : Tiers) :
    Option (List (List Nat) × Tiers) := do
  let (got, tiers) ← try_inline_flush config pool tiers
  if got = 0 then do
    let tiers ← (waits.headD []).foldlM (drain_once config pool) tiers
    some (waits.tail, tiers)
  else some (waits, tiers)

/-! ### Writes -/

def pin (pool : Pool K V) (fp32 packed : Nat) :
    Nat → List (List Nat) → Tiers → Option (SlotRef × List (List Nat) × Tiers)
  | 0, waits, tiers =>
      let (ref, hot) := (HotTier.upsert_pinned config.hot_buckets_pow2 fp32 packed).run hotSem tiers.hot
      some (ref, waits, tiers.set_hot hot)
  | attempts + 1, waits, tiers =>
      let (ref, hot) := (HotTier.upsert_pinned config.hot_buckets_pow2 fp32 packed).run hotSem tiers.hot
      if ref.valid then some (ref, waits, tiers.set_hot hot)
      else do
        let (waits, tiers) ← back_off config pool waits (tiers.set_hot hot)
        pin pool fp32 packed attempts waits tiers

def sync_drain (pool : Pool K V) : Nat → List (List Nat) → Tiers → Option Tiers
  | 0, _, tiers => if tiers.size_hint = 0 then some tiers else none
  | rounds + 1, waits, tiers =>
      if tiers.size_hint = 0 then some tiers
      else do
        let (waits, tiers) ← back_off config pool waits tiers
        sync_drain pool rounds waits tiers

def mirror_write_with_offset (pool : Pool K V) (key : K) (off : KVOffset) (seq : Nat)
    (schedule : Schedule) (tiers : Tiers) : Option Tiers :=
  let fp64 := config.keys.key_fingerprint64 key
  let key_id := config.keys.key_id_of key
  if off.is_tombstone then some tiers
  else
    match compact base_map off with
    | none => some (tiers.push_commit ⟨.kPut, fp64, key_id, off, .invalid, seq⟩)
    | some packed => do
        let (ref, waits, tiers) ← pin config pool (config.keys.key_fingerprint key) packed
          kMaxBackpressureRetries schedule.flushers tiers
        let tiers := tiers.push_commit ⟨.kPut, fp64, key_id, off, ref, seq⟩
        if ref.valid then some tiers else sync_drain config pool schedule.rounds waits tiers

/-- An offset that has no compact form is skipped. -/
def mirror_into_hot_with_offset (key : K) (off : KVOffset) (tiers : Tiers) : Tiers :=
  match compact base_map off with
  | none => tiers
  | some packed =>
      tiers.set_hot ((HotTier.upsert config.hot_buckets_pow2 (config.keys.key_fingerprint key)
        packed).run hotSem tiers.hot).2

/-! ### Reads -/

def hot_lookup (key : K) (tiers : Tiers) : Option Nat × Tiers :=
  let (packed, hot) := (HotTier.lookup config.hot_buckets_pow2
    (config.keys.key_fingerprint key)).run hotSem tiers.hot
  (packed, tiers.set_hot hot)

def cold_lookup (key : K) (tiers : Tiers) : Option (Option KVOffset) := do
  let found ← tiers.cold.lookup config.geo (config.keys.key_fingerprint64 key)
    (config.keys.key_id_of key)
  some (found.map KVOffset.mk)

variable [DecidableEq K]

def verified (pool : Pool K V) (key : K) (off : KVOffset) : Option KVOffset :=
  match (reader pool).hiom_read_at_offset off with
  | some (stored_key, _) => if stored_key = key then some off else none
  | none => none

def old_offset_resolver (pool : Pool K V) (key : K) (tiers : Tiers) : Option (KVOffset × Tiers) :=
  let (packed, tiers) := hot_lookup config key tiers
  match packed.bind fun packed => verified pool key (expand base_map packed) with
  | some off => some (off, tiers)
  | none => do
      let found ← cold_lookup config key tiers
      some ((found.bind (verified pool key)).getD .Tombstone, tiers)

omit [DecidableEq K] in
def hot_only_resolver (key : K) (tiers : Tiers) : KVOffset × Tiers :=
  let (packed, tiers) := hot_lookup config key tiers
  ((packed.map (expand base_map)).getD .Tombstone, tiers)

end

end Hiom.Client
