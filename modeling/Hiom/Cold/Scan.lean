import Hiom.Cold.Tier

/-!
Scans: the entries a scan of one region visits, and how the worker threads of
`parallel_load` divide the regions.
-/

namespace Hiom.ColdTier

variable {geo : Geometry} {mem : Mem} {bid_of : Nat → Nat}

def live_entry (mem : Mem) (slot : Slot) : Option (Nat × Nat) :=
  if published mem slot = true ∧ offset_at mem slot ≠ kTombstoneOffset then
    some (key_at mem slot, offset_at mem slot)
  else none

theorem live_entry_eq_some {slot : Slot} {key off : Nat} :
    live_entry mem slot = some (key, off) ↔
      published mem slot = true ∧ off ≠ kTombstoneOffset ∧ key_at mem slot = key ∧
        offset_at mem slot = off := by
  unfold live_entry
  split
  · rename_i live
    rw [Option.some_inj, Prod.mk.injEq]
    constructor
    · rintro ⟨rfl, rfl⟩
      exact ⟨live.1, live.2, rfl, rfl⟩
    · exact fun same => ⟨same.2.2.1, same.2.2.2⟩
  · rename_i hidden
    constructor
    · intro impossible
      cases impossible
    · rintro ⟨visible, present, rfl, rfl⟩
      exact absurd ⟨visible, present⟩ hidden

theorem scan_slots_run (bucket : Nat) (idxs : List (Fin kEntriesPerBucket)) :
    (scan_slots bucket (mem (.header bucket)) idxs).run memSem mem =
      ((idxs.map (Slot.mk bucket)).filterMap (live_entry mem), mem) := by
  induction idxs with
  | nil => rfl
  | cons i rest ih =>
      simp only [scan_slots]
      split
      · rename_i visible
        have seen : published mem ⟨bucket, i⟩ = true := visible
        rw [run_load, run_load, Prog.run_bind, ih]
        simp only
        split
        · rename_i gone
          have hidden : live_entry mem ⟨bucket, i⟩ = none := if_neg (fun live => live.2 gone)
          rw [List.map_cons, List.filterMap_cons_none hidden]
          rfl
        · rename_i present
          have live : live_entry mem ⟨bucket, i⟩ =
              some (mem (.key_id bucket i), mem (.offset bucket i)) := if_pos ⟨seen, present⟩
          rw [List.map_cons, List.filterMap_cons_some live]
          rfl
      · rename_i invisible
        have hidden : live_entry mem ⟨bucket, i⟩ = none := if_neg (fun live => invisible live.1)
        rw [ih, List.map_cons, List.filterMap_cons_none hidden]

theorem scan_chain_run {fuel cur : Nat} (ends : Ends geo mem fuel cur) :
    (scan_chain geo fuel cur).run memSem mem =
      (some ((slots (buckets_from geo mem fuel cur)).filterMap (live_entry mem)), mem) := by
  induction fuel generalizing cur with
  | zero => cases ends
  | succ fuel ih =>
      rw [scan_chain, run_load, Prog.run_bind, scan_slots_run]
      by_cases linked : link mem cur = 0
      · rw [buckets_from_last fuel linked]
        simp only [slots, List.flatMap_cons, List.flatMap_nil, List.append_nil]
        exact congrArg (Prog.run memSem · mem) (if_pos linked)
      · rw [buckets_from_more fuel linked]
        simp only [slots, List.flatMap_cons, List.filterMap_append]
        refine (congrArg (Prog.run memSem · mem) (if_neg linked)).trans ?_
        have rest := ih (ends linked)
        rw [Prog.run_bind]
        rw [link] at rest
        rw [rest]
        rfl

def chain_entries (geo : Geometry) (mem : Mem) (bid : Nat) : List (Nat × Nat) :=
  (slots (chain geo mem bid)).filterMap (live_entry mem)

def region_entries (geo : Geometry) (mem : Mem) : List (Nat × Nat) :=
  (List.range geo.main_buckets_per_region).flatMap (chain_entries geo mem)

theorem scan_buckets_run (links : Links geo mem) (bids : List Nat) :
    (scan_buckets geo bids).run memSem mem =
      (some (bids.flatMap (chain_entries geo mem)), mem) := by
  induction bids with
  | nil => rfl
  | cons bid rest ih =>
      rw [scan_buckets, Prog.run_bind, scan_chain_run (links.ends bid)]
      simp only
      rw [Prog.run_bind, ih]
      rfl

theorem scan_region_run (links : Links geo mem) :
    (scan_region geo).run memSem mem = (some (region_entries geo mem), mem) :=
  scan_buckets_run links _

theorem mem_chain_entries {bid key off : Nat} :
    (key, off) ∈ chain_entries geo mem bid ↔
      ∃ slot, slot.bucket ∈ chain geo mem bid ∧ published mem slot = true ∧
        off ≠ kTombstoneOffset ∧ key_at mem slot = key ∧ offset_at mem slot = off := by
  simp only [chain_entries, List.mem_filterMap, mem_slots, live_entry_eq_some]

theorem Shape.mem_region_entries (shape : Shape geo bid_of mem) {key : Nat} (off : Nat)
    (main : bid_of key < geo.main_buckets_per_region) :
    (key, off) ∈ region_entries geo mem ↔
      entry geo mem (bid_of key) key = some off ∧ off ≠ kTombstoneOffset := by
  rw [region_entries, List.mem_flatMap, shape.entry_eq_some main]
  constructor
  · rintro ⟨bid, inside, member⟩
    obtain ⟨slot, on_chain, visible, present, rfl, same_off⟩ := mem_chain_entries.mp member
    have route := shape.routed bid slot (List.mem_range.mp inside) on_chain visible
    rw [route]
    exact ⟨⟨slot, on_chain, visible, rfl, same_off⟩, present⟩
  · rintro ⟨⟨slot, on_chain, visible, same_key, same_off⟩, present⟩
    exact ⟨bid_of key, List.mem_range.mpr main,
      mem_chain_entries.mpr ⟨slot, on_chain, visible, present, same_key, same_off⟩⟩

theorem nodup_slots {buckets : List Nat} (nodup : buckets.Nodup) : (slots buckets).Nodup := by
  rw [slots, List.nodup_flatMap]
  refine ⟨fun bucket _ => ?_, ?_⟩
  · exact (List.nodup_finRange _).map (fun first second same => (Slot.mk.inj same).2)
  · refine nodup.imp (fun {first second} different => ?_)
    intro slot on_first on_second
    exact different ((mem_bucket_slots.mp on_first).symm.trans (mem_bucket_slots.mp on_second))

theorem Shape.nodup_chain_entries (shape : Shape geo bid_of mem) {bid : Nat}
    (main : bid < geo.main_buckets_per_region) :
    ((chain_entries geo mem bid).map Prod.fst).Nodup := by
  rw [chain_entries, List.map_filterMap, List.Nodup, List.pairwise_filterMap]
  refine (nodup_slots (shape.nodup main)).imp_of_mem ?_
  intro first second on_first on_second different key visit_first other visit_second same
  obtain ⟨⟨key_first, off_first⟩, live_first, rfl⟩ := Option.map_eq_some_iff.mp visit_first
  obtain ⟨⟨key_second, off_second⟩, live_second, rfl⟩ := Option.map_eq_some_iff.mp visit_second
  obtain ⟨visible_first, -, same_first, -⟩ := live_entry_eq_some.mp live_first
  obtain ⟨visible_second, -, same_second, -⟩ := live_entry_eq_some.mp live_second
  exact different (shape.unique bid first second main (mem_slots.mp on_first)
    (mem_slots.mp on_second) visible_first visible_second
    (same_first.trans (same.trans same_second.symm)))

/-- No key is visited twice in a region. -/
theorem Shape.nodup_region_entries (shape : Shape geo bid_of mem) :
    ((region_entries geo mem).map Prod.fst).Nodup := by
  rw [region_entries, List.map_flatMap, List.nodup_flatMap]
  refine ⟨fun bid inside => shape.nodup_chain_entries (List.mem_range.mp inside), ?_⟩
  refine List.nodup_range.imp_of_mem ?_
  intro first second in_first in_second different key visit_first visit_second
  obtain ⟨⟨_, off⟩, member, rfl⟩ := List.mem_map.mp visit_first
  obtain ⟨⟨_, off'⟩, member', same⟩ := List.mem_map.mp visit_second
  obtain ⟨slot, on_chain, visible, -, same_key, -⟩ := mem_chain_entries.mp member
  obtain ⟨slot', on_chain', visible', -, same_key', -⟩ := mem_chain_entries.mp member'
  have route := shape.routed first slot (List.mem_range.mp in_first) on_chain visible
  have route' := shape.routed second slot' (List.mem_range.mp in_second) on_chain' visible'
  refine different ?_
  rw [← route, ← route', same_key, same_key']
  exact congrArg bid_of same.symm

/-! ### Worker threads -/

/-- The workers' strides divide the regions. -/
theorem worker_regions_perm {num_threads : Nat} (small : num_threads ∈ List.range' 1 kNumRegions) :
    ((List.range num_threads).flatMap (worker_regions num_threads)).Perm
      (List.range kNumRegions) := by
  revert num_threads
  decide +kernel

theorem clamp_threads_mem (num_threads : Nat) :
    clamp_threads num_threads ∈ List.range' 1 kNumRegions := by
  rw [List.mem_range'_1, clamp_threads]
  have positive : 1 ≤ kNumRegions := by decide
  omega

theorem Tier.scan_regions_eq {tier : Tier} (links : ∀ rid, Links geo (tier rid))
    (rids : List Nat) :
    tier.scan_regions geo rids =
      some (rids.flatMap (fun rid => region_entries geo (tier rid))) := by
  induction rids with
  | nil => rfl
  | cons rid rest ih =>
      rw [Tier.scan_regions, Tier.on_region_eq, scan_region_run (links rid), ih]
      rfl

/-- Together the workers visit every region's entries once. -/
theorem Tier.parallel_load_visits {tier : Tier} (links : ∀ rid, Links geo (tier rid))
    (num_threads : Nat) :
    ∃ visits : List (List (Nat × Nat)), tier.parallel_load geo num_threads = visits.map some ∧
      visits.flatten.Perm
        ((List.range kNumRegions).flatMap (fun rid => region_entries geo (tier rid))) := by
  refine ⟨(List.range (clamp_threads num_threads)).map (fun t =>
    (worker_regions (clamp_threads num_threads) t).flatMap
      (fun rid => region_entries geo (tier rid))), ?_, ?_⟩
  · rw [Tier.parallel_load, List.map_map]
    exact List.map_congr_left (fun t _ => tier.scan_regions_eq links _)
  · have shared := (worker_regions_perm (clamp_threads_mem num_threads)).flatMap_right
      (fun rid => region_entries geo (tier rid))
    rwa [List.flatMap_assoc, List.flatMap_def] at shared

end Hiom.ColdTier
