import Hiom.Cold.Layout

/-!
The operations of the cold tier as sequences of atomic accesses to one region,
in the order in which the source issues them. The caller holds the region's
mutex in every writer; `lookup` and the scans take no lock.

A walk follows `next_overflow_idx` until it is 0. It is written with a step
budget; `none` means that the budget ran out before the chain ended.
-/

namespace Hiom.ColdTier

@[ext] structure Slot where
  bucket : Nat
  idx : Fin kEntriesPerBucket
  deriving DecidableEq, Repr

structure BulkEntry where
  fp : Nat
  key_id : Nat
  off : Nat
  deriving DecidableEq, Repr

/-! ### Walking a chain -/

/-- One pass over the slots of a bucket: the first visible slot that holds
`key`, and the first reusable slot met so far. `live` is the occupancy the
pass goes by. -/
def walk_slots (bucket key live : Nat) :
    List (Fin kEntriesPerBucket) → Option Slot →
      Code (Option (Fin kEntriesPerBucket) × Option Slot)
  | [], reusable => .ret (none, reusable)
  | i :: rest, reusable =>
      if slot_published live i then do
        let kid ← load (.key_id bucket i)
        if kid = key then .ret (some i, reusable)
        else walk_slots bucket key live rest reusable
      else walk_slots bucket key live rest (reusable.or (some ⟨bucket, i⟩))

inductive Found where
  | matched (slot : Slot)
  | missing (tail : Nat) (reusable : Option Slot)
  deriving DecidableEq, Repr

/-- Walks the chain from `cur`. `claimed` are occupancy bits that the running
batch has staged and not yet stored; it is 0 outside `bulk_upsert`. -/
def walk_chain (geo : Geometry) (claimed : Nat → Nat) (key : Nat) :
    Nat → Nat → Option Slot → Code (Option Found)
  | 0, _, _ => .ret none
  | fuel + 1, cur, reusable => do
      let hdr ← load (.header cur)
      let (hit, reusable) ←
        walk_slots cur key (hdr ||| claimed cur) (List.finRange kEntriesPerBucket) reusable
      match hit with
      | some i => .ret (some (.matched ⟨cur, i⟩))
      | none =>
          if next_overflow_idx hdr = kNoOverflow then .ret (some (.missing cur reusable))
          else
            walk_chain geo claimed key fuel
              (overflow_bucket_of geo (next_overflow_idx hdr)) reusable

/-- A chain has its main bucket and at most every overflow bucket. -/
def Geometry.budget (geo : Geometry) : Nat := geo.overflow_slots_per_region + 1

def walk (geo : Geometry) (claimed : Nat → Nat) (bid key : Nat) : Code (Option Found) :=
  walk_chain geo claimed key geo.budget bid none

/-! ### Single-entry operations -/

def upsert (geo : Geometry) (bid key off : Nat) : Code (Option Bool) := do
  match ← walk geo (fun _ => 0) bid key with
  | none => .ret none
  | some (.matched slot) =>
      let _ ← store (.offset slot.bucket slot.idx) off
      let _ ← pmem_persist [.offset slot.bucket slot.idx]
      .ret (some true)
  | some (.missing _ (some slot)) =>
      let _ ← store (.key_id slot.bucket slot.idx) key
      let _ ← store (.offset slot.bucket slot.idx) off
      let _ ← pmem_persist [.key_id slot.bucket slot.idx, .offset slot.bucket slot.idx]
      let _ ← fetch_or (.header slot.bucket) (1 <<< slot.idx.val)
      let _ ← pmem_persist [.header slot.bucket]
      let _ ← fetch_add .num_entries 1
      .ret (some true)
  | some (.missing tail none) =>
      let new_idx := (← fetch_add .next_overflow_alloc 1) + 1
      if new_idx > geo.overflow_slots_per_region then
        let _ ← fetch_sub .next_overflow_alloc 1
        .ret (some false)
      else
        let nb := overflow_bucket_of geo new_idx
        let _ ← store (.key_id nb 0) key
        let _ ← store (.offset nb 0) off
        let _ ← pmem_persist [.key_id nb 0, .offset nb 0]
        let _ ← store (.header nb) 1
        let _ ← pmem_persist [.header nb]
        -- the new bucket is published before it is linked; the link comes last
        let cur_hdr ← load (.header tail)
        let _ ← store (.header tail) (attach_header cur_hdr new_idx)
        let _ ← pmem_persist [.header tail]
        let _ ← fetch_add .num_entries 1
        .ret (some true)

/-- The inner `none` is `std::nullopt`. -/
def lookup (geo : Geometry) (bid key : Nat) : Code (Option (Option Nat)) := do
  match ← walk geo (fun _ => 0) bid key with
  | none => .ret none
  | some (.matched slot) =>
      let off ← load (.offset slot.bucket slot.idx)
      if off = kTombstoneOffset then .ret (some none) else .ret (some (some off))
  | some (.missing _ _) => .ret (some none)

def remove (geo : Geometry) (bid key : Nat) : Code (Option Bool) := do
  match ← walk geo (fun _ => 0) bid key with
  | none => .ret none
  | some (.matched slot) =>
      let _ ← store (.offset slot.bucket slot.idx) kTombstoneOffset
      let _ ← pmem_persist [.offset slot.bucket slot.idx]
      .ret (some true)
  | some (.missing _ _) => .ret (some false)

/-! ### `bulk_upsert` -/

structure DirtyBucket where
  bucket : Nat
  add_bits : Nat
  deriving DecidableEq, Repr

def batch_claimed_bits : List DirtyBucket → Nat → Nat
  | [], _ => 0
  | dirty :: rest, bucket =>
      if dirty.bucket = bucket then dirty.add_bits else batch_claimed_bits rest bucket

/-- `find_or_create_dirty(bucket).add_bits |= bits`. -/
def find_or_create_dirty (bucket bits : Nat) : List DirtyBucket → List DirtyBucket
  | [] => [⟨bucket, bits⟩]
  | dirty :: rest =>
      if dirty.bucket = bucket then ⟨bucket, dirty.add_bits ||| bits⟩ :: rest
      else dirty :: find_or_create_dirty bucket bits rest

/-- Phase 1 for one entry. The inner `none` is an exhausted overflow pool. -/
def stage_entry (geo : Geometry) (bid : Nat) (dirty : List DirtyBucket) (key off : Nat) :
    Code (Option (Option (List DirtyBucket))) := do
  match ← walk geo (batch_claimed_bits dirty) bid key with
  | none => .ret none
  | some (.matched slot) =>
      let _ ← store (.offset slot.bucket slot.idx) off
      let _ ← pmem_flush_range [.offset slot.bucket slot.idx]
      .ret (some (some (find_or_create_dirty slot.bucket 0 dirty)))
  | some (.missing _ (some slot)) =>
      let _ ← store (.key_id slot.bucket slot.idx) key
      let _ ← store (.offset slot.bucket slot.idx) off
      let _ ← pmem_flush_range [.key_id slot.bucket slot.idx, .offset slot.bucket slot.idx]
      let _ ← fetch_add .num_entries 1
      .ret (some (some (find_or_create_dirty slot.bucket (1 <<< slot.idx.val) dirty)))
  | some (.missing tail none) =>
      let alloc_idx := (← fetch_add .next_overflow_alloc 1) + 1
      if alloc_idx > geo.overflow_slots_per_region then
        let _ ← fetch_sub .next_overflow_alloc 1
        .ret (some none)
      else
        let nb := overflow_bucket_of geo alloc_idx
        let _ ← store (.key_id nb 0) key
        let _ ← store (.offset nb 0) off
        let _ ← pmem_flush_range [.key_id nb 0, .offset nb 0]
        -- linked while its occupancy bit is still staged
        let cur_hdr ← load (.header tail)
        let _ ← store (.header tail) (attach_header cur_hdr alloc_idx)
        let _ ← fetch_add .num_entries 1
        .ret (some (some (find_or_create_dirty tail 0 (find_or_create_dirty nb 1 dirty))))

/-- Phase 1 for a group: entries in order until the overflow pool is spent.
Answers with the dirty buckets and the number of entries written. -/
def stage_group (geo : Geometry) (bid : Nat) :
    List BulkEntry → List DirtyBucket → Nat → Code (Option (List DirtyBucket × Nat))
  | [], dirty, written => .ret (some (dirty, written))
  | entry :: rest, dirty, written => do
      match ← stage_entry geo bid dirty entry.key_id entry.off with
      | none => .ret none
      | some none => .ret (some (dirty, written))
      | some (some dirty) => stage_group geo bid rest dirty (written + 1)

def publish_dirty : List DirtyBucket → Code Unit
  | [] => .ret ()
  | dirty :: rest => do
      if dirty.add_bits ≠ 0 then
        let _ ← fetch_or (.header dirty.bucket) dirty.add_bits
      let _ ← pmem_flush_range [.header dirty.bucket]
      publish_dirty rest

def apply_bucket_group (geo : Geometry) (bid : Nat) (entries : List BulkEntry) :
    Code (Option Nat) := do
  match ← stage_group geo bid entries [] 0 with
  | none => .ret none
  | some (dirty, written) =>
      if dirty.isEmpty then .ret (some written)
      else
        let _ ← pmem_drain
        publish_dirty dirty
        let _ ← pmem_drain
        .ret (some written)

/-! ### Scans -/

def scan_slots (bucket hdr : Nat) :
    List (Fin kEntriesPerBucket) → Code (List (Nat × Nat))
  | [] => .ret []
  | i :: rest =>
      if slot_published hdr i then do
        let kid ← load (.key_id bucket i)
        let off ← load (.offset bucket i)
        let later ← scan_slots bucket hdr rest
        if off = kTombstoneOffset then .ret later else .ret ((kid, off) :: later)
      else scan_slots bucket hdr rest

def scan_chain (geo : Geometry) : Nat → Nat → Code (Option (List (Nat × Nat)))
  | 0, _ => .ret none
  | fuel + 1, cur => do
      let hdr ← load (.header cur)
      let here ← scan_slots cur hdr (List.finRange kEntriesPerBucket)
      if next_overflow_idx hdr = kNoOverflow then .ret (some here)
      else
        match ← scan_chain geo fuel (overflow_bucket_of geo (next_overflow_idx hdr)) with
        | none => .ret none
        | some later => .ret (some (here ++ later))

def scan_buckets (geo : Geometry) : List Nat → Code (Option (List (Nat × Nat)))
  | [] => .ret (some [])
  | bid :: rest => do
      match ← scan_chain geo geo.budget bid with
      | none => .ret none
      | some here =>
          match ← scan_buckets geo rest with
          | none => .ret none
          | some later => .ret (some (here ++ later))

def scan_region (geo : Geometry) : Code (Option (List (Nat × Nat))) :=
  scan_buckets geo (List.range geo.main_buckets_per_region)

end Hiom.ColdTier
