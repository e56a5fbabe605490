import Hiom.Lib.Prog
import Hiom.Hot.Pins

/-!
The operations of HotTier, as programs of the atomic accesses to the slots, to
the metadata of a bucket and to the counters. The scan of `lookup` is the
scalar one.
-/

namespace Hiom.HotTier

def kInvalidOffset : Nat := 0xFFFFFFFF

def unpack_off (v : Nat) : Nat := v % 2 ^ 32

section Words

variable {fp off : Nat}

theorem pack_eq (short : off < 2 ^ 32) : pack fp off = fp * 2 ^ 32 + off := by
  rw [pack, ← Nat.shiftLeft_add_eq_or_of_lt short, Nat.shiftLeft_eq]

theorem unpack_fp_pack (short : off < 2 ^ 32) : unpack_fp (pack fp off) = fp := by
  rw [pack_eq short, unpack_fp, Nat.shiftRight_eq_div_pow]
  omega

theorem unpack_off_pack (short : off < 2 ^ 32) : unpack_off (pack fp off) = off := by
  rw [pack_eq short, unpack_off]
  omega

theorem pack_ne_zero (short : off < 2 ^ 32) (occupied : fp ≠ 0) : pack fp off ≠ 0 := by
  rw [pack_eq short]
  omega

@[simp] theorem unpack_fp_zero : unpack_fp 0 = 0 := rfl

end Words

structure Hot where
  slots : Nat → Nat → Nat
  metas : Nat → BucketMeta
  size : Nat
  eviction_count : Nat
  pin_failures : Nat

def Hot.empty : Hot := ⟨fun _ _ => 0, fun _ => ⟨fun _ => false, 0, 0#32⟩, 0, 0, 0⟩

/-! ### Accesses -/

inductive Access where
  | load_slot (bucket i : Nat)
  | cas_slot (bucket i expected desired : Nat)
  | load_visited (bucket : Nat)
  | write_visited (bucket i : Nat) (visited : Bool)
  | load_hand (bucket : Nat)
  | store_hand (bucket value : Nat)
  | load_state (bucket : Nat)
  | cas_word (bucket : Nat) (cur desired : BitVec 32)
  | or_state (bucket : Nat) (bits : BitVec 32)
  | and_state (bucket : Nat) (bits : BitVec 32)
  | add_size
  | sub_size
  | add_evictions
  | add_pin_failures

/-- A compare-and-swap of a slot answers whether it has succeeded, one of a
state word what it has found. -/
abbrev Access.Reply : Access → Type
  | .load_slot .. | .load_hand .. => Nat
  | .cas_slot .. => Bool
  | .load_visited .. => Nat → Bool
  | .load_state .. | .cas_word .. => BitVec 32
  | _ => Unit

abbrev HotCode (α : Type) := Prog Access.Reply α

def Hot.set_slot (hot : Hot) (bucket i v : Nat) : Hot :=
  { hot with
    slots := Function.update hot.slots bucket (Function.update (hot.slots bucket) i v) }

def Hot.set_meta (hot : Hot) (bucket : Nat) (value : BucketMeta) : Hot :=
  { hot with metas := Function.update hot.metas bucket value }

def Hot.set_visited (hot : Hot) (bucket : Nat) (visited : Nat → Bool) : Hot :=
  hot.set_meta bucket { hot.metas bucket with visited := visited }

def Hot.visit (hot : Hot) (bucket i : Nat) (visited : Bool) : Hot :=
  hot.set_visited bucket (Function.update (hot.metas bucket).visited i visited)

def Hot.set_hand (hot : Hot) (bucket value : Nat) : Hot :=
  hot.set_meta bucket { hot.metas bucket with hand := value }

def Hot.set_state (hot : Hot) (bucket : Nat) (word : BitVec 32) : Hot :=
  hot.set_meta bucket { hot.metas bucket with state := word }

def hotSem : Prog.Semantics Access.Reply Hot
  | .load_slot bucket i, hot => (hot.slots bucket i, hot)
  | .cas_slot bucket i expected desired, hot =>
      if hot.slots bucket i = expected then (true, hot.set_slot bucket i desired)
      else (false, hot)
  | .load_visited bucket, hot => ((hot.metas bucket).visited, hot)
  | .write_visited bucket i visited, hot => ((), hot.visit bucket i visited)
  | .load_hand bucket, hot => ((hot.metas bucket).hand, hot)
  | .store_hand bucket value, hot => ((), hot.set_hand bucket value)
  | .load_state bucket, hot => ((hot.metas bucket).state, hot)
  | .cas_word bucket cur desired, hot =>
      ((hot.metas bucket).state,
        if (hot.metas bucket).state = cur then hot.set_state bucket desired else hot)
  | .or_state bucket bits, hot => ((), hot.set_state bucket ((hot.metas bucket).state ||| bits))
  | .and_state bucket bits, hot => ((), hot.set_state bucket ((hot.metas bucket).state &&& bits))
  | .add_size, hot => ((), { hot with size := hot.size + 1 })
  | .sub_size, hot => ((), { hot with size := hot.size - 1 })
  | .add_evictions, hot => ((), { hot with eviction_count := hot.eviction_count + 1 })
  | .add_pin_failures, hot => ((), { hot with pin_failures := hot.pin_failures + 1 })

def load_slot (bucket i : Nat) : HotCode Nat := .op (.load_slot bucket i) .ret
def cas_slot (bucket i expected desired : Nat) : HotCode Bool :=
  .op (.cas_slot bucket i expected desired) .ret
def load_visited (bucket : Nat) : HotCode (Nat → Bool) := .op (.load_visited bucket) .ret
def write_visited (bucket i : Nat) (visited : Bool) : HotCode Unit :=
  .op (.write_visited bucket i visited) .ret
def load_hand (bucket : Nat) : HotCode Nat := .op (.load_hand bucket) .ret
def store_hand (bucket value : Nat) : HotCode Unit := .op (.store_hand bucket value) .ret
def load_state (bucket : Nat) : HotCode (BitVec 32) := .op (.load_state bucket) .ret
def cas_word (bucket : Nat) (cur desired : BitVec 32) : HotCode (BitVec 32) :=
  .op (.cas_word bucket cur desired) .ret
def or_state (bucket : Nat) (bits : BitVec 32) : HotCode Unit := .op (.or_state bucket bits) .ret
def and_state (bucket : Nat) (bits : BitVec 32) : HotCode Unit := .op (.and_state bucket bits) .ret
def add_size : HotCode Unit := .op .add_size .ret
def sub_size : HotCode Unit := .op .sub_size .ret
def add_evictions : HotCode Unit := .op .add_evictions .ret
def add_pin_failures : HotCode Unit := .op .add_pin_failures .ret

section Run

variable (hot : Hot) (bucket i : Nat)

@[simp] theorem run_load_slot :
    (load_slot bucket i).run hotSem hot = (hot.slots bucket i, hot) := rfl

theorem run_cas_slot (expected desired : Nat) :
    (cas_slot bucket i expected desired).run hotSem hot =
      if hot.slots bucket i = expected then (true, hot.set_slot bucket i desired)
      else (false, hot) := by
  simp only [cas_slot, Prog.run_op, hotSem]
  split <;> rfl

@[simp] theorem run_load_visited :
    (load_visited bucket).run hotSem hot = ((hot.metas bucket).visited, hot) := rfl

@[simp] theorem run_write_visited (visited : Bool) :
    (write_visited bucket i visited).run hotSem hot = ((), hot.visit bucket i visited) := rfl

@[simp] theorem run_load_hand :
    (load_hand bucket).run hotSem hot = ((hot.metas bucket).hand, hot) := rfl

@[simp] theorem run_store_hand (value : Nat) :
    (store_hand bucket value).run hotSem hot = ((), hot.set_hand bucket value) := rfl

@[simp] theorem run_load_state :
    (load_state bucket).run hotSem hot = ((hot.metas bucket).state, hot) := rfl

@[simp] theorem run_or_state (bits : BitVec 32) :
    (or_state bucket bits).run hotSem hot =
      ((), hot.set_state bucket ((hot.metas bucket).state ||| bits)) := rfl

@[simp] theorem run_and_state (bits : BitVec 32) :
    (and_state bucket bits).run hotSem hot =
      ((), hot.set_state bucket ((hot.metas bucket).state &&& bits)) := rfl

@[simp] theorem run_add_size :
    add_size.run hotSem hot = ((), { hot with size := hot.size + 1 }) := rfl

@[simp] theorem run_sub_size :
    sub_size.run hotSem hot = ((), { hot with size := hot.size - 1 }) := rfl

@[simp] theorem run_add_evictions :
    add_evictions.run hotSem hot =
      ((), { hot with eviction_count := hot.eviction_count + 1 }) := rfl

@[simp] theorem run_add_pin_failures :
    add_pin_failures.run hotSem hot =
      ((), { hot with pin_failures := hot.pin_failures + 1 }) := rfl

end Run

/-! ### Metadata -/

def set_visited (bucket slot_idx : Nat) : HotCode Unit := do
  let cur ← load_visited bucket
  if cur slot_idx then .ret () else write_visited bucket slot_idx true

def clear_visited (bucket slot_idx : Nat) : HotCode Unit := do
  let cur ← load_visited bucket
  if cur slot_idx then write_visited bucket slot_idx false else .ret ()

def force_pinned (bucket i : Nat) : HotCode Unit := do
  or_state bucket (pin_bit i)
  and_state bucket (~~~flush_bit i)

def force_unpinned (bucket i : Nat) : HotCode Unit := and_state bucket (~~~mask i)

/-- The loop of `cas_state`, for as many rounds. -/
def cas_state_from (bucket i : Nat) (old new : SlotState) :
    Nat → BitVec 32 → HotCode (Option Bool)
  | 0, _ => .ret none
  | rounds + 1, cur =>
      if in_state cur i old then do
        let found ← cas_word bucket cur (with_state cur i new)
        if found = cur then .ret (some true) else cas_state_from bucket i old new rounds found
      else .ret (some false)

def cas_state (rounds bucket i : Nat) (old new : SlotState) : HotCode (Option Bool) := do
  let cur ← load_state bucket
  cas_state_from bucket i old new rounds cur

def cas_slot_state (rounds : Nat) (ref : SlotRef) (old new : SlotState) :
    HotCode (Option Bool) :=
  if ref.valid then cas_state rounds ref.bucket_idx ref.slot_idx old new else .ret (some false)

def unpin (ref : SlotRef) : HotCode Unit :=
  if ref.valid then force_unpinned ref.bucket_idx ref.slot_idx else .ret ()

/-! ### Eviction -/

def sieve_from (bucket hand : Nat) : Nat → Nat → HotCode (Option Nat)
  | 0, _ => .ret none
  | left + 1, k => do
      let i := (hand + k) % kSlotsPerBucket
      let st ← load_state bucket
      if get_state st i = SlotState.kUnpinned.bits then
        let vis ← load_visited bucket
        if vis i then
          write_visited bucket i false
          sieve_from bucket hand left (k + 1)
        else
          let expected ← load_slot bucket i
          if expected = 0 then
            store_hand bucket ((i + 1) % kSlotsPerBucket)
            .ret (some i)
          else
            let cleared ← cas_slot bucket i expected 0
            if cleared then
              sub_size
              add_evictions
              store_hand bucket ((i + 1) % kSlotsPerBucket)
              .ret (some i)
            else sieve_from bucket hand left (k + 1)
      else sieve_from bucket hand left (k + 1)

def sieve_evict (bucket : Nat) : HotCode (Option Nat) := do
  let hand ← load_hand bucket
  sieve_from bucket hand (2 * kSlotsPerBucket) 0

/-! ### Insertion -/

inductive Probed where
  | matched (i v : Nat)
  | missing (first_empty : Option Nat)

def probe (bucket fingerprint : Nat) : Nat → Nat → Option Nat → HotCode Probed
  | 0, _, first_empty => .ret (.missing first_empty)
  | left + 1, i, first_empty => do
      let v ← load_slot bucket i
      if unpack_fp v = fingerprint then .ret (.matched i v)
      else if unpack_fp v = 0 ∧ first_empty = none then
        probe bucket fingerprint left (i + 1) (some i)
      else probe bucket fingerprint left (i + 1) first_empty

/-- How an insertion ends: over the word `v` of its fingerprint, in a slot that
was empty, or not at all. -/
inductive Placed where
  | replaced (i v : Nat)
  | inserted (i : Nat)
  | failed

/-- What `upsert` and `upsert_pinned` share: the loop over retries. -/
def place (bucket fingerprint offset : Nat) : Nat → HotCode Placed
  | 0 => .ret .failed
  | retries + 1 => do
      let probed ← probe bucket fingerprint kSlotsPerBucket 0 none
      match probed with
      | .matched i v =>
          let updated ← cas_slot bucket i v (pack fingerprint offset)
          if updated then
            set_visited bucket i
            .ret (.replaced i v)
          else place bucket fingerprint offset retries
      | .missing first_empty =>
          let target_idx ← match first_empty with
            | some i => .ret (some i)
            | none => sieve_evict bucket
          match target_idx with
          | none => .ret .failed
          | some i =>
              let claimed ← cas_slot bucket i 0 (pack fingerprint offset)
              if claimed then
                add_size
                clear_visited bucket i
                .ret (.inserted i)
              else place bucket fingerprint offset retries

section

variable (num_buckets : Nat)

def upsert (fingerprint offset : Nat) : HotCode Nat := do
  let placed ← place (bucket_index num_buckets fingerprint) fingerprint offset kMaxUpsertRetries
  match placed with
  | .replaced _ v => .ret (unpack_off v)
  | .inserted _ | .failed => .ret kInvalidOffset

def upsert_pinned (fingerprint offset : Nat) : HotCode SlotRef := do
  let bidx := bucket_index num_buckets fingerprint
  let placed ← place bidx fingerprint offset kMaxUpsertRetries
  match placed with
  | .replaced i _ | .inserted i =>
      force_pinned bidx i
      .ret ⟨bidx, i, true⟩
  | .failed =>
      add_pin_failures
      .ret .invalid

/-! ### Lookup and removal -/

/-- The scan of `lookup`, `peek` and `remove`: the first slot that holds the
fingerprint, and its word. -/
def find (bucket fingerprint : Nat) : Nat → Nat → HotCode (Option (Nat × Nat))
  | 0, _ => .ret none
  | left + 1, i => do
      let v ← load_slot bucket i
      if unpack_fp v = fingerprint then .ret (some (i, v))
      else find bucket fingerprint left (i + 1)

def lookup (fingerprint : Nat) : HotCode (Option Nat) := do
  let bidx := bucket_index num_buckets fingerprint
  let found ← find bidx fingerprint kSlotsPerBucket 0
  match found with
  | some (i, v) =>
      set_visited bidx i
      .ret (some (unpack_off v))
  | none => .ret none

def peek (fingerprint : Nat) : HotCode (Option Nat) := do
  let found ← find (bucket_index num_buckets fingerprint) fingerprint kSlotsPerBucket 0
  .ret (found.map (fun slot => unpack_off slot.2))

/-- A removal that loses its slot to another thread calls itself again; here it
does so for as many rounds. -/
def remove (fingerprint : Nat) : Nat → HotCode (Option Bool)
  | 0 => .ret none
  | rounds + 1 => do
      let bidx := bucket_index num_buckets fingerprint
      let found ← find bidx fingerprint kSlotsPerBucket 0
      match found with
      | some (i, expected) =>
          let cleared ← cas_slot bidx i expected 0
          if cleared then
            sub_size
            clear_visited bidx i
            .ret (some true)
          else remove fingerprint rounds
      | none => .ret (some false)

end

def read_slot (ref : SlotRef) : HotCode (Nat × Nat) :=
  if ref.valid then do
    let v ← load_slot ref.bucket_idx ref.slot_idx
    .ret (unpack_fp v, unpack_off v)
  else .ret (0, 0)

end Hiom.HotTier
