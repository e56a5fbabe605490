import Mathlib
import Hiom.Cold.Bulk

/-!
The cold tier as a whole: its regions, the calls a client makes, and what each
call does to the region it routes to when no other thread interferes.
-/

namespace Hiom.ColdTier

abbrev Tier := Nat → Mem

def Tier.create : Tier := fun _ _ => 0

abbrev TierCode (α : Type) := Prog (fun _ : Nat × Access => Nat) α

def tierSem : Prog.Semantics (fun _ : Nat × Access => Nat) Tier := Prog.each (fun _ => memSem)

def Tier.on_region {α : Type} (tier : Tier) (rid : Nat) (code : Code α) : α × Tier :=
  (code.on rid).run tierSem tier

theorem Tier.on_region_eq {α : Type} (tier : Tier) (rid : Nat) (code : Code α) :
    tier.on_region rid code =
      ((code.run memSem (tier rid)).1,
        Function.update tier rid (code.run memSem (tier rid)).2) :=
  Prog.run_on rid code tier

def Tier.upsert (geo : Geometry) (tier : Tier) (fp64_route key_id off : Nat) :
    Option Bool × Tier :=
  tier.on_region (region_id_of fp64_route)
    (ColdTier.upsert geo (bucket_id_of geo fp64_route) key_id off)

def Tier.lookup (geo : Geometry) (tier : Tier) (fp64_route key_id : Nat) : Option (Option Nat) :=
  (tier.on_region (region_id_of fp64_route)
    (ColdTier.lookup geo (bucket_id_of geo fp64_route) key_id)).1

def Tier.remove (geo : Geometry) (tier : Tier) (fp64_route key_id : Nat) : Option Bool × Tier :=
  tier.on_region (region_id_of fp64_route)
    (ColdTier.remove geo (bucket_id_of geo fp64_route) key_id)

/-! ### `bulk_upsert` -/

def bulk_less (geo : Geometry) (a b : BulkEntry) : Bool :=
  if region_id_of a.fp ≠ region_id_of b.fp then region_id_of a.fp < region_id_of b.fp
  else bucket_id_of geo a.fp < bucket_id_of geo b.fp

def same_place (geo : Geometry) (a b : BulkEntry) : Bool :=
  region_id_of a.fp == region_id_of b.fp && bucket_id_of geo a.fp == bucket_id_of geo b.fp

/-- `std::sort` may leave entries of one bucket in any order. -/
structure SortedFrom (geo : Geometry) (entries sorted : List BulkEntry) : Prop where
  perm : sorted.Perm entries
  ordered : sorted.Pairwise (fun a b => bulk_less geo b a = false)

structure BucketRun where
  first : BulkEntry
  more : List BulkEntry

def BucketRun.entries (run : BucketRun) : List BulkEntry := run.first :: run.more

def bucket_runs (geo : Geometry) : List BulkEntry → List BucketRun
  | [] => []
  | entry :: rest =>
      match bucket_runs geo rest with
      | [] => [⟨entry, []⟩]
      | run :: later =>
          if same_place geo entry run.first then ⟨entry, run.entries⟩ :: later
          else ⟨entry, []⟩ :: run :: later

/-- The loop of `bulk_upsert` over its runs. It answers with the number of
entries written in each run. -/
def apply_runs (geo : Geometry) : List BucketRun → TierCode (Option (List Nat))
  | [] => .ret (some [])
  | run :: rest => do
      match ← (apply_bucket_group geo (bucket_id_of geo run.first.fp) run.entries).on
        (region_id_of run.first.fp) with
      | none => .ret none
      | some written =>
          match ← apply_runs geo rest with
          | none => .ret none
          | some later => .ret (some (written :: later))

def Tier.apply_runs (geo : Geometry) (tier : Tier) (runs : List BucketRun) :
    Option (List Nat) × Tier :=
  (ColdTier.apply_runs geo runs).run tierSem tier

def Tier.bulk_upsert (geo : Geometry) (tier : Tier) (sorted : List BulkEntry) :
    Option Nat × Tier :=
  ((tier.apply_runs geo (bucket_runs geo sorted)).1.map List.sum,
    (tier.apply_runs geo (bucket_runs geo sorted)).2)

def written_entries (runs : List BucketRun) (counts : List Nat) : List BulkEntry :=
  (List.zipWith (fun count run => run.entries.take count) counts runs).flatten

/-! ### `parallel_load` -/

def clamp_threads (num_threads : Nat) : Nat := min (max 1 num_threads) kNumRegions

def worker_regions (num_threads t : Nat) : List Nat :=
  (List.range' t kNumRegions num_threads).filter (· < kNumRegions)

def Tier.scan_regions (geo : Geometry) (tier : Tier) : List Nat → Option (List (Nat × Nat))
  | [] => some []
  | rid :: rest =>
      match (tier.on_region rid (scan_region geo)).1 with
      | none => none
      | some here => (tier.scan_regions geo rest).map (here ++ ·)

def Tier.parallel_load (geo : Geometry) (tier : Tier) (num_threads : Nat) :
    List (Option (List (Nat × Nat))) :=
  (List.range (clamp_threads num_threads)).map (fun t =>
    tier.scan_regions geo (worker_regions (clamp_threads num_threads) t))

/-! ### Runs -/

variable {geo : Geometry}

theorem bucket_runs_entries (entries : List BulkEntry) :
    ((bucket_runs geo entries).map BucketRun.entries).flatten = entries := by
  induction entries with
  | nil => rfl
  | cons entry rest ih =>
      rw [bucket_runs]
      cases runs : bucket_runs geo rest with
      | nil =>
          rw [runs] at ih
          simp [← ih, BucketRun.entries]
      | cons run later =>
          rw [runs] at ih
          simp only
          split
          · simpa [BucketRun.entries] using ih
          · simpa [BucketRun.entries] using ih

theorem same_place_iff {a b : BulkEntry} :
    same_place geo a b = true ↔
      region_id_of a.fp = region_id_of b.fp ∧ bucket_id_of geo a.fp = bucket_id_of geo b.fp := by
  simp [same_place]

theorem bucket_runs_place {entries : List BulkEntry} {run : BucketRun}
    (member : run ∈ bucket_runs geo entries) {entry : BulkEntry} (inside : entry ∈ run.entries) :
    region_id_of entry.fp = region_id_of run.first.fp ∧
      bucket_id_of geo entry.fp = bucket_id_of geo run.first.fp := by
  induction entries generalizing run with
  | nil => cases member
  | cons head rest ih =>
      rw [bucket_runs] at member
      cases runs : bucket_runs geo rest with
      | nil =>
          rw [runs] at member
          cases List.mem_singleton.mp member
          cases List.mem_singleton.mp inside
          exact ⟨rfl, rfl⟩
      | cons next later =>
          rw [runs] at ih member
          simp only at member
          split at member
          · rename_i same
            rcases List.mem_cons.mp member with rfl | member
            · rcases List.mem_cons.mp inside with rfl | inside
              · exact ⟨rfl, rfl⟩
              · obtain ⟨region, bucket⟩ := same_place_iff.mp same
                obtain ⟨region', bucket'⟩ := ih List.mem_cons_self inside
                exact ⟨region'.trans region.symm, bucket'.trans bucket.symm⟩
            · exact ih (List.mem_cons_of_mem _ member) inside
          · rcases List.mem_cons.mp member with rfl | member
            · cases List.mem_singleton.mp inside
              exact ⟨rfl, rfl⟩
            · exact ih member inside

/-! ### Single calls on an intact tier -/

def Sound (geo : Geometry) (route : Nat → Nat) (tier : Tier) : Prop :=
  ∀ rid, Intact geo (fun key => bucket_id_of geo (route key)) (tier rid)

variable {route : Nat → Nat} {tier last : Tier}

@[simp] theorem update_region (tier : Tier) (rid : Nat) (first second : Mem) :
    Function.update (Function.update tier rid first) rid second =
      Function.update tier rid second := Function.update_idem _ _ _

@[simp] theorem update_region_self (tier : Tier) (rid : Nat) :
    Function.update tier rid (tier rid) = tier := Function.update_eq_self _ _

theorem Sound.update (sound : Sound geo route tier) (rid : Nat) {mem : Mem}
    (intact : Intact geo (fun key => bucket_id_of geo (route key)) mem) :
    Sound geo route (Function.update tier rid mem) := by
  intro other
  by_cases here : other = rid
  · subst here
    simpa using intact
  · simpa [Function.update_of_ne here] using sound other

/-- The tier after a list of entries has been placed one by one. A removal
places the tombstone. -/
inductive Puts (geo : Geometry) (route : Nat → Nat) : List BulkEntry → Tier → Tier → Prop
  | nil {tier : Tier} : Puts geo route [] tier tier
  | cons {entry : BulkEntry} {rest : List BulkEntry} {tier last : Tier} {mem : Mem}
      (slot : Slot)
      (placed : Placed geo (tier (region_id_of entry.fp)) mem (bucket_id_of geo entry.fp) slot
        entry.key_id entry.off)
      (settled : Settled geo (tier (region_id_of entry.fp)) mem (bucket_id_of geo entry.fp))
      (intact : Intact geo (fun key => bucket_id_of geo (route key)) mem)
      (later : Puts geo route rest (Function.update tier (region_id_of entry.fp) mem) last) :
      Puts geo route (entry :: rest) tier last

theorem Puts.append {first second : List BulkEntry} {middle : Tier}
    (before : Puts geo route first tier middle) (after : Puts geo route second middle last) :
    Puts geo route (first ++ second) tier last := by
  induction before with
  | nil => exact after
  | cons slot placed settled intact _ ih => exact .cons slot placed settled intact (ih after)

theorem Puts.sound {entries : List BulkEntry} (puts : Puts geo route entries tier last)
    (sound : Sound geo route tier) : Sound geo route last := by
  induction puts with
  | nil => exact sound
  | cons _ _ _ intact _ ih => exact ih (sound.update _ intact)

inductive UpsertResult (geo : Geometry) (route : Nat → Nat) (tier : Tier) (key off : Nat) :
    Option Bool × Tier → Prop
  | placed {after : Tier} (puts : Puts geo route [⟨route key, key, off⟩] tier after) :
      UpsertResult geo route tier key off (some true, after)
  | full
      (absent : entry geo (tier (region_id_of (route key))) (bucket_id_of geo (route key)) key =
        none)
      (occupied : ∀ slot,
        slot.bucket ∈ chain geo (tier (region_id_of (route key))) (bucket_id_of geo (route key)) →
          published (tier (region_id_of (route key))) slot = true)
      (spent : geo.overflow_slots_per_region ≤
        tier (region_id_of (route key)) .next_overflow_alloc) :
      UpsertResult geo route tier key off (some false, tier)

theorem Tier.upsert_result (sound : Sound geo route tier) (key off : Nat) :
    UpsertResult geo route tier key off (tier.upsert geo (route key) key off) := by
  have intact := sound (region_id_of (route key))
  have main := bucket_id_of_lt geo (route key)
  have outcome := upserted_outcome _ off intact main rfl
  rw [Tier.upsert, Tier.on_region_eq, upsert_run key off (intact.ends _)]
  revert outcome
  generalize upserted geo _ key off _ = result
  intro outcome
  cases outcome with
  | placed slot placed settled intact' => exact .placed (.cons slot placed settled intact' .nil)
  | full absent occupied spent =>
      rw [update_region_self]
      exact .full absent occupied spent

inductive RemoveResult (geo : Geometry) (route : Nat → Nat) (tier : Tier) (key : Nat) :
    Option Bool × Tier → Prop
  | tombstone {after : Tier}
      (puts : Puts geo route [⟨route key, key, kTombstoneOffset⟩] tier after)
      (present : entry geo (tier (region_id_of (route key))) (bucket_id_of geo (route key)) key ≠
        none) :
      RemoveResult geo route tier key (some true, after)
  | absent
      (absent : entry geo (tier (region_id_of (route key))) (bucket_id_of geo (route key)) key =
        none) :
      RemoveResult geo route tier key (some false, tier)

theorem Tier.remove_result (sound : Sound geo route tier) (key : Nat) :
    RemoveResult geo route tier key (tier.remove geo (route key) key) := by
  have removed := remove_removed key (sound (region_id_of (route key)))
    (bucket_id_of_lt geo (route key)) rfl
  rw [Tier.remove, Tier.on_region_eq]
  revert removed
  generalize (ColdTier.remove geo _ key).run memSem _ = result
  intro removed
  cases removed with
  | tombstone slot placed settled intact present =>
      exact .tombstone (.cons slot placed settled intact .nil) present
  | absent absent =>
      rw [update_region_self]
      exact .absent absent

theorem Tier.lookup_eq (sound : Sound geo route tier) (key : Nat) :
    tier.lookup geo (route key) key =
      some ((entry geo (tier (region_id_of (route key))) (bucket_id_of geo (route key)) key).filter
        (· ≠ kTombstoneOffset)) := by
  have intact := sound (region_id_of (route key))
  rw [Tier.lookup, Tier.on_region_eq, lookup_run key (intact.ends _)]

/-! ### Bulk calls on an intact tier -/

theorem puts_of_prefix {rid bid : Nat} {entries : List BulkEntry}
    (placed : ∀ entry ∈ entries, region_id_of entry.fp = rid ∧ bucket_id_of geo entry.fp = bid)
    (routed : ∀ entry ∈ entries, entry.fp = route entry.key_id) (sound : Sound geo route tier) :
    Puts geo route (entries.take (upsert_while_room geo bid entries (tier rid)).1) tier
      (Function.update tier rid (upsert_while_room geo bid entries (tier rid)).2) := by
  induction entries generalizing tier with
  | nil => simpa [upsert_while_room] using Puts.nil
  | cons head rest ih =>
      obtain ⟨rfl, rfl⟩ := placed head List.mem_cons_self
      have route_head := routed head List.mem_cons_self
      have intact := sound (region_id_of head.fp)
      have outcome := upserted_outcome head.key_id head.off intact
        (bucket_id_of_lt geo head.fp) (by rw [route_head])
      have ran := upsert_run head.key_id head.off (intact.ends (bucket_id_of geo head.fp))
      revert outcome ran
      generalize upserted geo _ head.key_id head.off _ = result
      intro outcome ran
      rw [upsert_while_room, ran]
      cases outcome with
      | placed slot place settled intact' =>
          have later := ih (fun entry member => placed entry (List.mem_cons_of_mem _ member))
            (fun entry member => routed entry (List.mem_cons_of_mem _ member))
            (sound.update (region_id_of head.fp) intact')
          rw [Function.update_self, update_region] at later
          exact .cons slot place settled intact' later
      | full => simpa using Puts.nil

theorem Tier.apply_runs_cons {run : BucketRun} {rest : List BucketRun}
    (placed : ∀ entry ∈ run.entries, region_id_of entry.fp = region_id_of run.first.fp ∧
      bucket_id_of geo entry.fp = bucket_id_of geo run.first.fp)
    (routed : ∀ entry ∈ run.entries, entry.fp = route entry.key_id)
    (sound : Sound geo route tier) {written : Nat} {after : Tier}
    (ran : written = (upsert_while_room geo (bucket_id_of geo run.first.fp) run.entries
      (tier (region_id_of run.first.fp))).1)
    (reached : after = Function.update tier (region_id_of run.first.fp)
      (upsert_while_room geo (bucket_id_of geo run.first.fp) run.entries
        (tier (region_id_of run.first.fp))).2) :
    tier.apply_runs geo (run :: rest) =
      ((after.apply_runs geo rest).1.map (written :: ·), (after.apply_runs geo rest).2) := by
  have buckets : ∀ entry ∈ run.entries,
      bucket_id_of geo (route entry.key_id) = bucket_id_of geo run.first.fp := by
    intro entry member
    rw [← routed entry member]
    exact (placed entry member).2
  rw [Tier.apply_runs, ColdTier.apply_runs, Prog.run_bind, tierSem, Prog.run_on,
    apply_bucket_group_run (bucket_id_of_lt geo run.first.fp) buckets
      (sound (region_id_of run.first.fp)), ← ran, ← reached]
  simp only
  rw [Prog.run_bind]
  cases answer : (Prog.run (Prog.each fun _ => memSem) (ColdTier.apply_runs geo rest) after).1 with
  | none => simp [Tier.apply_runs, tierSem, answer]
  | some later => simp [Tier.apply_runs, tierSem, answer]

/-- A bulk call returns, and places the entries it counts. -/
theorem Tier.apply_runs_puts {runs : List BucketRun}
    (placed : ∀ run ∈ runs, ∀ entry ∈ run.entries,
      region_id_of entry.fp = region_id_of run.first.fp ∧
        bucket_id_of geo entry.fp = bucket_id_of geo run.first.fp)
    (routed : ∀ run ∈ runs, ∀ entry ∈ run.entries, entry.fp = route entry.key_id)
    (sound : Sound geo route tier) :
    ∃ counts, (tier.apply_runs geo runs).1 = some counts ∧
      Puts geo route (written_entries runs counts) tier (tier.apply_runs geo runs).2 := by
  induction runs generalizing tier with
  | nil => exact ⟨[], rfl, .nil⟩
  | cons run rest ih =>
      have here := puts_of_prefix (placed run List.mem_cons_self) (routed run List.mem_cons_self)
        sound
      obtain ⟨counts, answered, later⟩ :=
        ih (fun other member => placed other (List.mem_cons_of_mem _ member))
          (fun other member => routed other (List.mem_cons_of_mem _ member)) (here.sound sound)
      rw [Tier.apply_runs_cons (placed run List.mem_cons_self) (routed run List.mem_cons_self)
        sound rfl rfl]
      exact ⟨_ :: counts, congrArg (Option.map (_ :: ·)) answered, here.append later⟩

end Hiom.ColdTier
