import Hiom.Lib.Pmem
import Hiom.Cold.Layout

/-!
Writing a range of bytes back to persistent memory. The loop of `pmem_persist`
and of `pmem_flush_range` starts at the first byte and steps by a line, so that
a range may end in a line that it never comes to.
-/

namespace Hiom.Viper

def CACHE_LINE_SIZE : Nat := 64

def clwb_loop (end_ptr : Nat) : Nat → Nat → List Nat
  | 0, _ => []
  | fuel + 1, addr_ptr =>
      if addr_ptr < end_ptr then
        addr_ptr :: clwb_loop end_ptr fuel (addr_ptr + CACHE_LINE_SIZE)
      else []

/-- A range has no more lines than bytes. -/
def clwbs (addr len : Nat) : List Nat := clwb_loop (addr + len) len addr

def cache_line (byte : Nat) : Nat := byte / CACHE_LINE_SIZE

def clwb (pmem : Pmem Nat) (addr_ptr : Nat) : Pmem Nat := pmem.flush cache_line [addr_ptr]

def pmem_flush_range (pmem : Pmem Nat) (addr len : Nat) : Pmem Nat :=
  (clwbs addr len).foldl clwb pmem

def pmem_drain (pmem : Pmem Nat) : Pmem Nat := pmem.fence

def pmem_persist (pmem : Pmem Nat) (addr len : Nat) : Pmem Nat :=
  ((clwbs addr len).foldl clwb pmem).fence

/-! ### The lines that are written back -/

section Lines

variable {addr len byte fuel : Nat}

theorem mem_clwb_loop {end_ptr addr_ptr : Nat} (enough : end_ptr ≤ addr_ptr + fuel) :
    byte ∈ clwb_loop end_ptr fuel addr_ptr ↔
      ∃ k, byte = addr_ptr + CACHE_LINE_SIZE * k ∧ byte < end_ptr := by
  have size : CACHE_LINE_SIZE = 64 := rfl
  induction fuel generalizing addr_ptr with
  | zero =>
      simp only [clwb_loop, List.not_mem_nil, false_iff]
      rintro ⟨k, rfl, before⟩
      omega
  | succ fuel ih =>
      by_cases inside : addr_ptr < end_ptr
      · simp only [clwb_loop, inside, if_true, List.mem_cons]
        have further : end_ptr ≤ addr_ptr + CACHE_LINE_SIZE + fuel := by omega
        have rest := @ih (addr_ptr + CACHE_LINE_SIZE) further
        rw [size] at rest ⊢
        constructor
        · rintro (rfl | later)
          · exact ⟨0, rfl, inside⟩
          · obtain ⟨k, rfl, before⟩ := rest.mp later
            exact ⟨k + 1, by omega, before⟩
        · rintro ⟨k, rfl, before⟩
          cases k with
          | zero => exact .inl rfl
          | succ k => exact .inr (rest.mpr ⟨k, by omega, before⟩)
      · simp only [clwb_loop, inside, if_false, List.not_mem_nil, false_iff]
        rintro ⟨k, rfl, before⟩
        omega

theorem mem_clwbs : byte ∈ clwbs addr len ↔
    ∃ k, byte = addr + CACHE_LINE_SIZE * k ∧ byte < addr + len :=
  mem_clwb_loop (Nat.le_refl _)

def Covered (addr len : Nat) : Prop :=
  ∀ byte, addr ≤ byte → byte < addr + len →
    cache_line byte ∈ (clwbs addr len).map cache_line

/-- The last line is reached if the range does not run over from it. -/
theorem covered_iff (positive : 0 < len) :
    Covered addr len ↔ addr % CACHE_LINE_SIZE + (len - 1) % CACHE_LINE_SIZE < CACHE_LINE_SIZE := by
  have size : CACHE_LINE_SIZE = 64 := rfl
  unfold Covered cache_line
  simp only [List.mem_map, mem_clwbs, size]
  constructor
  · intro covered
    obtain ⟨byte, ⟨k, rfl, before⟩, same⟩ :=
      covered (addr + (len - 1)) (by omega) (by omega)
    omega
  · intro short byte from_addr below
    refine ⟨addr + 64 * (byte / 64 - addr / 64), ⟨_, rfl, ?_⟩, ?_⟩
    · omega
    · omega

end Lines

/-! ### Durability -/

section Durability

variable {pmem : Pmem Nat} {addr len byte : Nat}

theorem clwbs_fresh_nil (addrs : List Nat) (empty : pmem.fresh byte = []) :
    (addrs.foldl clwb pmem).fresh byte = [] := by
  induction addrs generalizing pmem with
  | nil => exact empty
  | cons first rest ih => exact ih (Pmem.flush_fresh_nil empty)

theorem clwbs_fresh {addrs : List Nat} (member : cache_line byte ∈ addrs.map cache_line) :
    (addrs.foldl clwb pmem).fresh byte = [] := by
  induction addrs generalizing pmem with
  | nil => cases member
  | cons first rest ih =>
      rw [List.map_cons, List.mem_cons] at member
      rw [List.foldl_cons]
      rcases member with here | later
      · apply clwbs_fresh_nil
        simp [clwb, Pmem.flush, here]
      · exact ih later

/-- A byte of a line that is not written back may still be lost. -/
theorem clwbs_fresh_missed {addrs : List Nat} (missed : cache_line byte ∉ addrs.map cache_line) :
    (addrs.foldl clwb pmem).fresh byte = pmem.fresh byte := by
  induction addrs generalizing pmem with
  | nil => rfl
  | cons first rest ih =>
      rw [List.map_cons, List.mem_cons, not_or] at missed
      rw [List.foldl_cons, ih missed.2]
      simp [clwb, Pmem.flush, missed.1]

def Durable (addr len : Nat) : Prop :=
  ∀ pmem byte, addr ≤ byte → byte < addr + len → (pmem_persist pmem addr len).Clean byte

theorem durable_iff : Durable addr len ↔ Covered addr len := by
  constructor
  · intro durable byte from_addr below
    by_contra missed
    have clean := durable ⟨fun _ => 0, fun _ => [1], fun _ => []⟩ byte from_addr below
    have kept : (pmem_persist ⟨fun _ => 0, fun _ => [1], fun _ => []⟩ addr len).fresh byte = [1] :=
      clwbs_fresh_missed missed
    rw [clean.1] at kept
    cases kept
  · intro covered pmem byte from_addr below
    exact Pmem.fence_clean (clwbs_fresh (covered byte from_addr below))

/-- `pmem_persist` and `pmem_flush_range` with a drain do the same. -/
theorem flush_range_drain : pmem_drain (pmem_flush_range pmem addr len) =
    pmem_persist pmem addr len := rfl

end Durability

/-- A range is written back as a whole exactly if it does not run over from the
line of the last `clwb` into the next. -/
theorem flush_coverage (addr len : Nat) (positive : 0 < len) :
    (Covered addr len ↔
      addr % CACHE_LINE_SIZE + (len - 1) % CACHE_LINE_SIZE < CACHE_LINE_SIZE) ∧
    ((∀ pmem byte, addr ≤ byte → byte < addr + len →
        (pmem_persist pmem addr len).Clean byte ∧
          (pmem_drain (pmem_flush_range pmem addr len)).Clean byte) ↔
      addr % CACHE_LINE_SIZE + (len - 1) % CACHE_LINE_SIZE < CACHE_LINE_SIZE) := by
  refine ⟨covered_iff positive, ?_⟩
  rw [← covered_iff positive, ← durable_iff]
  constructor
  · exact fun both pmem byte from_addr below => (both pmem byte from_addr below).1
  · intro durable pmem byte from_addr below
    rw [flush_range_drain]
    exact ⟨durable pmem byte from_addr below, durable pmem byte from_addr below⟩

/-- Four lines, of which the first and the last one are covered in part. -/
theorem flush_coverage_over_lines :
    (clwbs 4120 200).map cache_line = [64, 65, 66, 67] ∧ Covered 4120 200 ∧
      (pmem_persist ⟨fun _ => 0, fun _ => [1], fun _ => []⟩ 4120 200).Clean 4319 := by
  have spec := flush_coverage 4120 200 (by decide)
  refine ⟨by decide, spec.1.mpr (by decide), ?_⟩
  have durable := spec.2.mpr (by decide) ⟨fun _ => 0, fun _ => [1], fun _ => []⟩ 4319
  exact (durable (by decide) (by decide)).1

/-! ### Entries of the cold tier -/

open ColdTier (Geometry Word)

/-- Regions begin at every residue of 16: one entry in four lies across two
lines, and only its first line is written back. -/
theorem entry_covered_iff (geo : Geometry) (rid bucket slot : Nat) :
    Covered ((Word.key_id bucket slot).address geo rid) 16 ↔ (rid + slot) % 4 ≠ 2 := by
  rw [covered_iff (by decide)]
  have size : CACHE_LINE_SIZE = 64 := rfl
  have header : ColdTier.kRegionHeaderSize = 16 := rfl
  have buckets : ColdTier.kBucketSize = 128 := rfl
  simp only [Word.address, size, header, buckets]
  generalize geo.main_buckets_per_region + geo.overflow_slots_per_region + 1 = region_buckets
  have region : rid * (16 + region_buckets * 128) = rid * 16 + rid * region_buckets * 128 := by
    rw [Nat.mul_add, Nat.mul_assoc]
  rw [region]
  omega

/-- Slot 2 of the first bucket: its key is durable, its offset is not. -/
theorem entry_half_flushed :
    ∃ addr, addr = (Word.key_id 0 2).address (Geometry.create 1 1) 0 ∧
      addr + 8 = (Word.offset 0 2).address (Geometry.create 1 1) 0 ∧
      cache_line (addr + 8) ∉ (clwbs addr 16).map cache_line ∧
      ∃ pmem, ¬(pmem_persist pmem addr 16).Clean (addr + 8) := by
  refine ⟨4152, by decide, by decide, by decide, ⟨fun _ => 0, fun _ => [1], fun _ => []⟩, ?_⟩
  intro clean
  have missed : cache_line (4152 + 8) ∉ (clwbs 4152 16).map cache_line := by decide
  have kept := @clwbs_fresh_missed ⟨fun _ => 0, fun _ => [1], fun _ => []⟩ _ _ missed
  have lost : (pmem_persist ⟨fun _ => 0, fun _ => [1], fun _ => []⟩ 4152 16).fresh (4152 + 8) = [1] :=
    kept
  rw [clean.1] at lost
  cases lost

end Hiom.Viper
