import Mathlib
import Hiom.Lib.Prog

/-!
Layout of the PM-resident cold tier: regions of main and overflow buckets, the
packed bucket header, and the atomic accesses its operations are made of.
-/

namespace Hiom.ColdTier

def kNumRegions : Nat := 32
def kEntriesPerBucket : Nat := 7
def kBucketSize : Nat := 128
def kRegionHeaderSize : Nat := 16
def kTombstoneOffset : Nat := 0xFFFFFFFFFFFFFFFF
def kNoOverflow : Nat := 0

def next_pow2 (v : Nat) : Nat := if v ≤ 1 then 1 else 2 ^ (Nat.log 2 (v - 1) + 1)

theorem next_pow2_isPow2 (v : Nat) : ∃ exponent, next_pow2 v = 2 ^ exponent := by
  unfold next_pow2
  split
  · exact ⟨0, rfl⟩
  · exact ⟨_, rfl⟩

/-- Bucket counts of a region. The main table is masked, so its size is a
power of two; the overflow pool is a bump allocator of any size. -/
structure Geometry where
  main_buckets_per_region : Nat
  overflow_slots_per_region : Nat
  pow2 : ∃ exponent, main_buckets_per_region = 2 ^ exponent

def Geometry.create (main_buckets overflow_slots : Nat) : Geometry where
  main_buckets_per_region := next_pow2 (max 1 main_buckets)
  overflow_slots_per_region := max 1 overflow_slots
  pow2 := next_pow2_isPow2 _

theorem Geometry.main_pos (geo : Geometry) : 0 < geo.main_buckets_per_region := by
  obtain ⟨exponent, same⟩ := geo.pow2
  rw [same]
  exact Nat.two_pow_pos exponent

def region_id_of (fp : Nat) : Nat := (fp >>> 59) &&& (kNumRegions - 1)

def bucket_id_of (geo : Geometry) (fp : Nat) : Nat :=
  let h := fp ^^^ (fp >>> 17)
  let h := h * 0x9e3779b97f4a7c15 % 2 ^ 64
  let h := h ^^^ (h >>> 27)
  h &&& (geo.main_buckets_per_region - 1)

theorem region_id_of_lt (fp : Nat) : region_id_of fp < kNumRegions := by
  have bound : region_id_of fp ≤ kNumRegions - 1 := Nat.and_le_right
  have positive : 0 < kNumRegions := by decide
  omega

theorem bucket_id_of_lt (geo : Geometry) (fp : Nat) :
    bucket_id_of geo fp < geo.main_buckets_per_region := by
  have bound : bucket_id_of geo fp ≤ geo.main_buckets_per_region - 1 := Nat.and_le_right
  have positive := geo.main_pos
  omega

/-- The 8-byte words of one region. Buckets are numbered as they lie in
memory: the main table first, then the reserved overflow index 0, then
overflow bucket 1 and so on. -/
inductive Word where
  | num_entries
  | next_overflow_alloc
  | header (bucket : Nat)
  | key_id (bucket slot : Nat)
  | offset (bucket slot : Nat)
  deriving DecidableEq, Repr

def overflow_bucket_of (geo : Geometry) (idx : Nat) : Nat :=
  geo.main_buckets_per_region + idx

def Word.address (geo : Geometry) (rid : Nat) (word : Word) : Nat :=
  let region_buckets :=
    geo.main_buckets_per_region + geo.overflow_slots_per_region + 1
  let base := 4096 + rid * (kRegionHeaderSize + region_buckets * kBucketSize)
  base + match word with
    | .num_entries => 0
    | .next_overflow_alloc => 8
    | .header bucket => kRegionHeaderSize + bucket * kBucketSize
    | .key_id bucket slot =>
        kRegionHeaderSize + bucket * kBucketSize + 8 + slot * 16
    | .offset bucket slot =>
        kRegionHeaderSize + bucket * kBucketSize + 16 + slot * 16

/-- Cache line of a word; `clwb` writes back whole lines. -/
def Word.line (geo : Geometry) (rid : Nat) (word : Word) : Nat :=
  word.address geo rid / 64

/-! ### The packed bucket header -/

/-- Bit `i` of a header is the sole authority for the visibility of slot `i`. -/
def slot_published (hdr i : Nat) : Bool := (hdr >>> i) &&& 1 != 0

/-- The 1-based overflow index of the next bucket of the chain, 0 for none. -/
def next_overflow_idx (hdr : Nat) : Nat := hdr >>> 8

/-- The header stored into a chain's tail when overflow bucket `idx` is
attached: occupancy kept, `has_overflow` set. -/
def attach_header (hdr idx : Nat) : Nat := (hdr &&& 0x7f) ||| (1 <<< 7) ||| (idx <<< 8)

theorem slot_published_eq_testBit (hdr i : Nat) : slot_published hdr i = hdr.testBit i := by
  simp [slot_published, Nat.testBit, Nat.and_comm]

@[simp] theorem slot_published_zero (i : Nat) : slot_published 0 i = false := by
  simp [slot_published]

@[simp] theorem next_overflow_idx_zero : next_overflow_idx 0 = 0 := rfl

theorem slot_published_or (hdr bits i : Nat) :
    slot_published (hdr ||| bits) i = (slot_published hdr i || slot_published bits i) := by
  simp only [slot_published_eq_testBit, Nat.testBit_or]

theorem slot_published_bit (slot i : Nat) :
    slot_published (1 <<< slot) i = decide (slot = i) := by
  rw [slot_published_eq_testBit, Nat.one_shiftLeft, Nat.testBit_two_pow]

theorem slot_published_one (i : Nat) : slot_published 1 i = decide (i = 0) := by
  rw [show 1 = 1 <<< 0 from rfl, slot_published_bit]
  exact decide_eq_decide.mpr eq_comm

/-- Occupancy bits lie below the overflow index. -/
theorem next_overflow_idx_or (hdr bits : Nat) (low : bits < 2 ^ 8) :
    next_overflow_idx (hdr ||| bits) = next_overflow_idx hdr := by
  unfold next_overflow_idx
  rw [Nat.shiftRight_or_distrib, Nat.shiftRight_eq_div_pow bits, Nat.div_eq_of_lt low,
    Nat.or_zero]

theorem slot_bit_lt (i : Fin kEntriesPerBucket) : 1 <<< i.val < 2 ^ 7 := by
  rw [Nat.one_shiftLeft]
  exact Nat.pow_lt_pow_right (by decide) i.isLt

theorem slot_published_attach (hdr idx i : Nat) (slot : i < 7) :
    slot_published (attach_header hdr idx) i = slot_published hdr i := by
  have mask : Nat.testBit 0x7f i = true := by
    rw [show (0x7f : Nat) = 2 ^ 7 - 1 from rfl, Nat.testBit_two_pow_sub_one]
    simp [slot]
  have flag : Nat.testBit (1 <<< 7) i = false := by
    rw [Nat.one_shiftLeft, Nat.testBit_two_pow]
    simp
    omega
  have link : Nat.testBit (idx <<< 8) i = false := by
    rw [Nat.testBit_shiftLeft]
    simp
    omega
  simp only [attach_header, slot_published_eq_testBit, Nat.testBit_or, Nat.testBit_and, mask,
    flag, link, Bool.and_true, Bool.or_false]

theorem next_overflow_idx_attach (hdr idx : Nat) :
    next_overflow_idx (attach_header hdr idx) = idx := by
  have low : (hdr &&& 0x7f) >>> 8 = 0 := by
    rw [Nat.shiftRight_eq_div_pow]
    exact Nat.div_eq_of_lt (Nat.lt_of_le_of_lt Nat.and_le_right (by decide))
  have flag : (1 <<< 7 : Nat) >>> 8 = 0 := by decide
  unfold next_overflow_idx attach_header
  rw [Nat.shiftRight_or_distrib, Nat.shiftRight_or_distrib, low, flag,
    Nat.shiftLeft_shiftRight]
  simp

/-! ### Memory accesses -/

/-- Atomic accesses to one region. `flush` is the `clwb` of the lines that
hold the given words, `fence` the `sfence`. -/
inductive Access where
  | load (word : Word)
  | store (word : Word) (value : Nat)
  | fetch_add (word : Word) (amount : Nat)
  | fetch_sub (word : Word) (amount : Nat)
  | fetch_or (word : Word) (bits : Nat)
  | flush (words : List Word)
  | fence
  deriving Repr

/-- Every access answers with the word's value before it (0 for a flush or a
fence). -/
abbrev Code (α : Type) := Prog (fun _ : Access => Nat) α

abbrev Mem := Word → Nat

def Access.write? (mem : Mem) : Access → Option (Word × Nat)
  | .store word value => some (word, value)
  | .fetch_add word amount => some (word, mem word + amount)
  | .fetch_sub word amount => some (word, mem word - amount)
  | .fetch_or word bits => some (word, mem word ||| bits)
  | .load _ | .flush _ | .fence => none

def Access.reply (mem : Mem) : Access → Nat
  | .load word | .store word _ | .fetch_add word _ | .fetch_sub word _
  | .fetch_or word _ => mem word
  | .flush _ | .fence => 0

def Mem.set (mem : Mem) (word : Word) (value : Nat) : Mem :=
  fun other => if other = word then value else mem other

@[simp] theorem Mem.set_same (mem : Mem) (word : Word) (value : Nat) :
    mem.set word value word = value := if_pos rfl

theorem Mem.set_other (mem : Mem) {word other : Word} (value : Nat)
    (different : other ≠ word) : mem.set word value other = mem other :=
  if_neg different

def Access.effect (mem : Mem) (access : Access) : Mem :=
  match access.write? mem with
  | some (word, value) => mem.set word value
  | none => mem

/-- The volatile meaning of an access: stores are visible at once. -/
def memSem : Prog.Semantics (fun _ : Access => Nat) Mem :=
  fun access mem => (access.reply mem, access.effect mem)

def load (word : Word) : Code Nat := Prog.perform (.load word)
def store (word : Word) (value : Nat) : Code Nat := Prog.perform (.store word value)
def fetch_add (word : Word) (amount : Nat) : Code Nat := Prog.perform (.fetch_add word amount)
def fetch_sub (word : Word) (amount : Nat) : Code Nat := Prog.perform (.fetch_sub word amount)
def fetch_or (word : Word) (bits : Nat) : Code Nat := Prog.perform (.fetch_or word bits)
def pmem_flush_range (words : List Word) : Code Nat := Prog.perform (.flush words)
def pmem_drain : Code Nat := Prog.perform .fence

def pmem_persist (words : List Word) : Code Nat := do
  let _ ← pmem_flush_range words
  pmem_drain

section Run

variable {α : Type} (mem : Mem) (rest : Nat → Code α)

@[simp high] theorem run_load (word : Word) :
    (load word >>= rest).run memSem mem = (rest (mem word)).run memSem mem := rfl

@[simp high] theorem run_store (word : Word) (value : Nat) :
    (store word value >>= rest).run memSem mem =
      (rest (mem word)).run memSem (mem.set word value) := rfl

@[simp high] theorem run_fetch_add (word : Word) (amount : Nat) :
    (fetch_add word amount >>= rest).run memSem mem =
      (rest (mem word)).run memSem (mem.set word (mem word + amount)) := rfl

@[simp high] theorem run_fetch_sub (word : Word) (amount : Nat) :
    (fetch_sub word amount >>= rest).run memSem mem =
      (rest (mem word)).run memSem (mem.set word (mem word - amount)) := rfl

@[simp high] theorem run_fetch_or (word : Word) (bits : Nat) :
    (fetch_or word bits >>= rest).run memSem mem =
      (rest (mem word)).run memSem (mem.set word (mem word ||| bits)) := rfl

@[simp high] theorem run_pmem_flush_range (words : List Word) :
    (pmem_flush_range words >>= rest).run memSem mem = (rest 0).run memSem mem := rfl

@[simp high] theorem run_pmem_drain :
    (pmem_drain >>= rest).run memSem mem = (rest 0).run memSem mem := rfl

@[simp high] theorem run_pmem_persist (words : List Word) :
    (pmem_persist words >>= rest).run memSem mem = (rest 0).run memSem mem := rfl

variable (ok : Mem → Access → Prop)

@[simp high] theorem guarded_load (word : Word) :
    (load word >>= rest).Guarded memSem ok mem ↔
      ok mem (.load word) ∧ (rest (mem word)).Guarded memSem ok mem := Iff.rfl

@[simp high] theorem guarded_store (word : Word) (value : Nat) :
    (store word value >>= rest).Guarded memSem ok mem ↔
      ok mem (.store word value) ∧
        (rest (mem word)).Guarded memSem ok (mem.set word value) := Iff.rfl

@[simp high] theorem guarded_fetch_add (word : Word) (amount : Nat) :
    (fetch_add word amount >>= rest).Guarded memSem ok mem ↔
      ok mem (.fetch_add word amount) ∧
        (rest (mem word)).Guarded memSem ok (mem.set word (mem word + amount)) := Iff.rfl

@[simp high] theorem guarded_fetch_sub (word : Word) (amount : Nat) :
    (fetch_sub word amount >>= rest).Guarded memSem ok mem ↔
      ok mem (.fetch_sub word amount) ∧
        (rest (mem word)).Guarded memSem ok (mem.set word (mem word - amount)) := Iff.rfl

@[simp high] theorem guarded_fetch_or (word : Word) (bits : Nat) :
    (fetch_or word bits >>= rest).Guarded memSem ok mem ↔
      ok mem (.fetch_or word bits) ∧
        (rest (mem word)).Guarded memSem ok (mem.set word (mem word ||| bits)) := Iff.rfl

@[simp high] theorem guarded_pmem_flush_range (words : List Word) :
    (pmem_flush_range words >>= rest).Guarded memSem ok mem ↔
      ok mem (.flush words) ∧ (rest 0).Guarded memSem ok mem := Iff.rfl

@[simp high] theorem guarded_pmem_drain :
    (pmem_drain >>= rest).Guarded memSem ok mem ↔
      ok mem .fence ∧ (rest 0).Guarded memSem ok mem := Iff.rfl

@[simp high] theorem guarded_pmem_persist (words : List Word) :
    (pmem_persist words >>= rest).Guarded memSem ok mem ↔
      ok mem (.flush words) ∧ ok mem .fence ∧ (rest 0).Guarded memSem ok mem := Iff.rfl

@[simp high] theorem only_load (kind : Access → Prop) (word : Word) :
    (load word >>= rest).Only kind ↔
      kind (.load word) ∧ ∀ value, (rest value).Only kind := Iff.rfl

end Run

end Hiom.ColdTier
