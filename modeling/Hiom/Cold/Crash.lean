import Hiom.Cold.Durable
import Hiom.Cold.Map

/-!
Power failures. A run makes calls on the pool file and may fail within any of
them; what the failure leaves is chosen word by word among the values that may
survive, and `open` goes on from there.
-/

namespace Hiom.ColdTier

/-! ### Calls on persistent memory -/

abbrev Pool := Nat → Pmem Word

def Pool.now (pool : Pool) : Tier := fun rid => (pool rid).now

def poolSem (geo : Geometry) : Prog.Semantics (fun _ : Nat × Access => Nat) Pool :=
  Prog.each (pmemSem geo)

variable {geo : Geometry} {route : Nat → Nat} {pairs : Nat → Nat → Prop} {pool : Pool}

theorem poolSem_projects (geo : Geometry) :
    Prog.Projects (poolSem geo) tierSem Pool.now :=
  Prog.Projects.each (fun rid => pmemSem_projects geo rid)

structure Ready (geo : Geometry) (route : Nat → Nat) (pool : Pool) : Prop where
  quiet : ∀ rid, Quiet (pool rid)
  sound : Sound geo route pool.now

structure Asked (geo : Geometry) (route : Nat → Nat) (pairs : Nat → Nat → Prop)
    (tier middle : Tier) (entries : List BulkEntry) : Prop where
  puts : Puts geo route entries tier middle
  routed : ∀ entry ∈ entries, entry.fp = route entry.key_id
  pairs : ∀ entry ∈ entries, pairs entry.key_id entry.off

/-- What a failure leaves: some entries were placed for good, and the region at
work survives from there. -/
structure Left (geo : Geometry) (route : Nat → Nat) (pairs : Nat → Nat → Prop) (tier : Tier)
    (image : Tier) : Prop where
  placed : ∃ entries middle, Asked geo route pairs tier middle entries ∧
    ∀ rid, ∃ last, Survives (middle rid) last pairs (image rid) ∧
      Intact geo (fun key => bucket_id_of geo (route key)) last ∧ Old geo (middle rid) last

/-- Wherever the code is stopped it leaves what can be accounted for, and it
returns with the pool ready for the next call. -/
structure Recovers {α : Type} (geo : Geometry) (route : Nat → Nat) (pairs : Nat → Nat → Prop)
    (code : TierCode α) (pool : Pool) : Prop where
  left : ∀ count (choice : Nat → Word → Nat), Left geo route pairs pool.now
    (fun rid => (Prog.after (poolSem geo) count code pool rid).image (choice rid))
  ready : Ready geo route (code.run (poolSem geo) pool).2

theorem Ready.recovers_ret {α : Type} (ready : Ready geo route pool) (value : α) :
    Recovers geo route pairs (.ret value) pool where
  left := by
    intro count choice
    have still : Prog.after (poolSem geo) count (.ret value : TierCode α) pool = pool := by
      cases count <;> rfl
    rw [still]
    exact ⟨[], pool.now, ⟨.nil, by simp, by simp⟩, fun rid => ⟨pool.now rid,
      (ready.quiet rid).survives pairs (choice rid), ready.sound rid, fun _ _ member _ => member⟩⟩
  ready := ready

theorem Recovers.bind {α β : Type} {code : TierCode α} {rest : α → TierCode β}
    (first : Recovers geo route pairs code pool) {entries : List BulkEntry}
    (asked : Asked geo route pairs pool.now (code.run (poolSem geo) pool).2.now entries)
    (second : Recovers geo route pairs (rest (code.run (poolSem geo) pool).1)
      (code.run (poolSem geo) pool).2) :
    Recovers geo route pairs (code >>= rest) pool where
  left := by
    intro count choice
    obtain ⟨reached, inside | beyond⟩ := Prog.after_bind (poolSem geo) count code rest pool
    · rw [inside]
      exact first.left reached choice
    · rw [beyond]
      obtain ⟨later, middle, placed, survives⟩ := second.left reached choice
      refine ⟨entries ++ later, middle, ⟨asked.puts.append placed.puts, ?_, ?_⟩, survives⟩
      · intro entry member
        exact (List.mem_append.mp member).elim (asked.routed entry) (placed.routed entry)
      · intro entry member
        exact (List.mem_append.mp member).elim (asked.pairs entry) (placed.pairs entry)
  ready := by
    rw [Prog.run_bind]
    exact second.ready

structure Job {α : Type} (geo : Geometry) (route : Nat → Nat) (pairs : Nat → Nat → Prop)
    (pool : Pool) (rid : Nat) (code : Code α) : Prop where
  grows : code.Guarded memSem Extends (pool rid).now
  durable : code.Wp (pmemSem geo rid) (Careful (pool rid).now pairs) (fun _ last => Quiet last)
    (pool rid)
  intact : Intact geo (fun key => bucket_id_of geo (route key))
    (code.run memSem (pool rid).now).2
  old : Old geo (pool rid).now (code.run memSem (pool rid).now).2

theorem Job.recovers {α : Type} {rid : Nat} {code : Code α} (job : Job geo route pairs pool rid code)
    (ready : Ready geo route pool) : Recovers geo route pairs (code.on rid) pool := by
  have durable := Prog.wp_iff.mp job.durable
  refine ⟨fun count choice => ⟨[], pool.now, ⟨.nil, by simp, by simp⟩, fun other => ?_⟩, ?_, ?_⟩
  · rw [poolSem, Prog.after_on]
    by_cases here : other = rid
    · subst here
      rw [Function.update_self]
      exact ⟨_, survives_of_careful (ready.quiet other) job.grows durable.1 count (choice other),
        job.intact, job.old⟩
    · rw [Function.update_of_ne here]
      exact ⟨_, (ready.quiet other).survives pairs (choice other), ready.sound other,
        fun _ _ member _ => member⟩
  · intro other
    rw [poolSem, Prog.run_on]
    change Quiet (Function.update pool rid _ other)
    by_cases here : other = rid
    · subst here
      rw [Function.update_self]
      exact durable.2
    · rw [Function.update_of_ne here]
      exact ready.quiet other
  · rw [((poolSem_projects geo).run (code.on rid) pool).2, tierSem, Prog.run_on]
    exact ready.sound.update _ job.intact

/-! ### What a call was asked -/

def Call.Pairs : Call → Nat → Nat → Prop
  | .upsert key off, asked, word => asked = key ∧ word = off
  | .bulk_upsert entries _, asked, word =>
      ∃ entry ∈ entries, entry.key_id = asked ∧ entry.off = word
  | .remove key, asked, word => asked = key ∧ word = kTombstoneOffset

theorem upsert_recovers {key off : Nat} (ready : Ready geo route pool) :
    Recovers geo route (Call.upsert key off).Pairs ((Call.upsert key off).code geo route) pool := by
  have intact := ready.sound (region_id_of (route key))
  have main := bucket_id_of_lt geo (route key)
  have job : Job geo route (Call.upsert key off).Pairs pool (region_id_of (route key))
      (upsert geo (bucket_id_of geo (route key)) key off) :=
    ⟨upsert_guarded off intact main, upsert_durable (ready.quiet _) intact ⟨rfl, rfl⟩,
      upsert_intact off intact main rfl, upsert_old off intact main rfl⟩
  have first := job.recovers ready
  have placed : ∃ entries, Asked geo route (Call.upsert key off).Pairs pool.now
      (((upsert geo (bucket_id_of geo (route key)) key off).on
        (region_id_of (route key))).run (poolSem geo) pool).2.now entries := by
    rw [((poolSem_projects geo).run _ pool).2]
    have result := Tier.upsert_result ready.sound key off
    rw [Tier.upsert, Tier.on_region] at result
    revert result
    generalize Prog.run tierSem _ pool.now = outcome
    intro result
    cases result with
    | placed puts =>
        refine ⟨_, puts, fun entry member => ?_, fun entry member => ?_⟩
        · cases List.mem_singleton.mp member
          rfl
        · cases List.mem_singleton.mp member
          exact ⟨rfl, rfl⟩
    | full => exact ⟨[], .nil, by simp, by simp⟩
  obtain ⟨entries, asked⟩ := placed
  exact first.bind asked (first.ready.recovers_ret _)

theorem remove_recovers {key : Nat} (ready : Ready geo route pool) :
    Recovers geo route (Call.remove key).Pairs ((Call.remove key).code geo route) pool := by
  have intact := ready.sound (region_id_of (route key))
  have main := bucket_id_of_lt geo (route key)
  have job : Job geo route (Call.remove key).Pairs pool (region_id_of (route key))
      (remove geo (bucket_id_of geo (route key)) key) :=
    ⟨remove_guarded intact, remove_durable (ready.quiet _) intact ⟨rfl, rfl⟩,
      remove_intact intact main rfl, remove_old intact main rfl⟩
  have first := job.recovers ready
  have placed : ∃ entries, Asked geo route (Call.remove key).Pairs pool.now
      (((remove geo (bucket_id_of geo (route key)) key).on
        (region_id_of (route key))).run (poolSem geo) pool).2.now entries := by
    rw [((poolSem_projects geo).run _ pool).2]
    have result := Tier.remove_result ready.sound key
    rw [Tier.remove, Tier.on_region] at result
    revert result
    generalize Prog.run tierSem _ pool.now = outcome
    intro result
    cases result with
    | tombstone puts present =>
        refine ⟨_, puts, fun entry member => ?_, fun entry member => ?_⟩
        · cases List.mem_singleton.mp member
          rfl
        · cases List.mem_singleton.mp member
          exact ⟨rfl, rfl⟩
    | absent => exact ⟨[], .nil, by simp, by simp⟩
  obtain ⟨entries, asked⟩ := placed
  exact first.bind asked (first.ready.recovers_ret _)

section Runs

variable {runs : List BucketRun}

theorem apply_runs_asked (sound : Sound geo route pool.now)
    (placed : ∀ run ∈ runs, ∀ entry ∈ run.entries,
      region_id_of entry.fp = region_id_of run.first.fp ∧
        bucket_id_of geo entry.fp = bucket_id_of geo run.first.fp)
    (routed : ∀ run ∈ runs, ∀ entry ∈ run.entries, entry.fp = route entry.key_id)
    (asked : ∀ run ∈ runs, ∀ entry ∈ run.entries, pairs entry.key_id entry.off) :
    ∃ entries, Asked geo route pairs pool.now
      ((apply_runs geo runs).run (poolSem geo) pool).2.now entries := by
  obtain ⟨counts, -, puts⟩ := Tier.apply_runs_puts placed routed sound
  rw [Tier.apply_runs, ← ((poolSem_projects geo).run (apply_runs geo runs) pool).2] at puts
  have inside : ∀ entry ∈ written_entries runs counts, ∃ run ∈ runs, entry ∈ run.entries := by
    intro entry member
    obtain ⟨_, from_run, member⟩ := List.mem_flatten.mp (written_entries_mem member)
    obtain ⟨run, present, rfl⟩ := List.mem_map.mp from_run
    exact ⟨run, present, member⟩
  refine ⟨_, puts, fun entry member => ?_, fun entry member => ?_⟩
  · obtain ⟨run, present, member⟩ := inside entry member
    exact routed run present entry member
  · obtain ⟨run, present, member⟩ := inside entry member
    exact asked run present entry member

theorem apply_runs_recovers (ready : Ready geo route pool)
    (placed : ∀ run ∈ runs, ∀ entry ∈ run.entries,
      region_id_of entry.fp = region_id_of run.first.fp ∧
        bucket_id_of geo entry.fp = bucket_id_of geo run.first.fp)
    (routed : ∀ run ∈ runs, ∀ entry ∈ run.entries, entry.fp = route entry.key_id)
    (asked : ∀ run ∈ runs, ∀ entry ∈ run.entries, pairs entry.key_id entry.off) :
    Recovers geo route pairs (apply_runs geo runs) pool := by
  induction runs generalizing pool with
  | nil => exact ready.recovers_ret _
  | cons run rest ih =>
      have routed_run := routed run List.mem_cons_self
      have placed_run := placed run List.mem_cons_self
      have buckets : ∀ entry ∈ run.entries,
          bucket_id_of geo (route entry.key_id) = bucket_id_of geo run.first.fp := by
        intro entry member
        rw [← routed_run entry member]
        exact (placed_run entry member).2
      have main := bucket_id_of_lt geo run.first.fp
      have intact := ready.sound (region_id_of run.first.fp)
      have ran := apply_bucket_group_run main buckets intact
      have job : Job geo route pairs pool (region_id_of run.first.fp)
          (apply_bucket_group geo (bucket_id_of geo run.first.fp) run.entries) := by
        refine ⟨apply_bucket_group_guarded main buckets intact,
          apply_bucket_group_durable main buckets (asked run List.mem_cons_self)
            (ready.quiet _) intact, ?_, ?_⟩
        · exact ran ▸ upsert_while_room_intact main buckets intact
        · exact ran ▸ upsert_while_room_old main buckets intact
      have first := job.recovers ready
      have answered := (poolSem_projects geo).run
        ((apply_bucket_group geo (bucket_id_of geo run.first.fp) run.entries).on
          (region_id_of run.first.fp)) pool
      rw [tierSem, Prog.run_on, ran] at answered
      have puts := puts_of_prefix placed_run routed_run ready.sound
      have grown : Asked geo route pairs pool.now
          (((apply_bucket_group geo (bucket_id_of geo run.first.fp) run.entries).on
            (region_id_of run.first.fp)).run (poolSem geo) pool).2.now
          (run.entries.take (upsert_while_room geo (bucket_id_of geo run.first.fp) run.entries
            (pool.now (region_id_of run.first.fp))).1) := by
        refine ⟨?_, fun entry member => routed_run entry (List.mem_of_mem_take member),
          fun entry member => asked run List.mem_cons_self entry (List.mem_of_mem_take member)⟩
        rw [answered.2]
        exact puts
      refine first.bind grown ?_
      rw [answered.1]
      have later := ih first.ready
        (fun other member => placed other (List.mem_cons_of_mem _ member))
        (fun other member => routed other (List.mem_cons_of_mem _ member))
        (fun other member => asked other (List.mem_cons_of_mem _ member))
      obtain ⟨entries, grown_rest⟩ := apply_runs_asked first.ready.sound
        (fun other member => placed other (List.mem_cons_of_mem _ member))
        (fun other member => routed other (List.mem_cons_of_mem _ member))
        (fun other member => asked other (List.mem_cons_of_mem _ member))
      refine later.bind grown_rest ?_
      split <;> exact later.ready.recovers_ret _

end Runs

theorem bulk_upsert_recovers {entries sorted : List BulkEntry}
    (call : BulkCall geo route entries sorted) (ready : Ready geo route pool) :
    Recovers geo route (Call.bulk_upsert entries sorted).Pairs
      ((Call.bulk_upsert entries sorted).code geo route) pool := by
  have inside : ∀ run ∈ bucket_runs geo sorted, ∀ entry ∈ run.entries, entry ∈ entries :=
    fun run present entry member => call.routed_runs entry
      (List.mem_flatten.mpr ⟨run.entries, List.mem_map_of_mem present, member⟩)
  have routed : ∀ run ∈ bucket_runs geo sorted, ∀ entry ∈ run.entries,
      entry.fp = route entry.key_id :=
    fun run present entry member => call.routed entry (inside run present entry member)
  have pairs : ∀ run ∈ bucket_runs geo sorted, ∀ entry ∈ run.entries,
      (Call.bulk_upsert entries sorted).Pairs entry.key_id entry.off :=
    fun run present entry member => ⟨entry, inside run present entry member, rfl, rfl⟩
  have placed := fun run present entry (member : entry ∈ BucketRun.entries run) =>
    @bucket_runs_place geo sorted run present entry member
  have recovers := apply_runs_recovers ready placed routed pairs
  obtain ⟨_, asked⟩ := apply_runs_asked ready.sound placed routed pairs
  exact recovers.bind asked (recovers.ready.recovers_ret _)

theorem Call.recovers {call : Call} (valid : call.Valid geo route) (ready : Ready geo route pool) :
    Recovers geo route call.Pairs (call.code geo route) pool := by
  cases call with
  | upsert key off => exact upsert_recovers ready
  | bulk_upsert entries sorted => exact bulk_upsert_recovers valid ready
  | remove key => exact remove_recovers ready

end Hiom.ColdTier
