import Hiom.Client.Index
import Hiom.Lib.Runs

/-!
A drain of a lane: which entry of the batch wins for a key, what the cold tier
has afterwards, and that the keys of the other lanes stay pinned.
-/

namespace Hiom.Client

open Codec (expand)
open ColdTier (BulkEntry Maps Tier kTombstoneOffset)
open CommitBuffer.Wait (Op lane_of_fp64 kNumLanes)
open HotTier (Hot hotSem)
open Viper.Records (KVOffset Lives Pool)

variable {K V : Type} {config : Config K} {keys : Set K} {clean single : Prop} {pool : Pool K V}
  {hot : Hot}

/-! ### The order of a batch -/

theorem same_fp64_iff (a b : CommitEntry) : same_fp64 a b = true ↔ a.fp64 = b.fp64 := by
  unfold same_fp64
  exact beq_iff_eq

theorem less_eq_false {a b : CommitEntry} :
    less b a = false ↔ a.fp64 < b.fp64 ∨ a.fp64 = b.fp64 ∧ a.seq ≤ b.seq := by
  unfold less
  split
  · rename_i different
    simp only [decide_eq_false_iff_not, not_lt]
    omega
  · rename_i same
    simp only [decide_eq_false_iff_not, not_lt]
    omega

theorem batch_sorted (entries : List CommitEntry) :
    (entries.mergeSort fun a b => !less b a).Pairwise (fun a b => a.fp64 ≤ b.fp64) := by
  have sorted : (entries.mergeSort fun a b => !less b a).Pairwise
      (fun a b => (!less b a) = true) := by
    apply List.pairwise_mergeSort
    · intro a b c first second
      rw [Bool.not_eq_true', less_eq_false] at first second ⊢
      omega
    · intro a b
      rw [Bool.or_eq_true, Bool.not_eq_true', Bool.not_eq_true', less_eq_false, less_eq_false]
      omega
  apply sorted.imp
  intro a b below
  rw [Bool.not_eq_true', less_eq_false] at below
  omega

/-! ### What stage 1 leaves of the cold tier -/

structure Applied (winners : List CommitEntry) (base after : Nat → Option Nat) : Prop where
  put : ∀ e ∈ winners, e.op = .kPut → after e.key_id = some e.off.offset
  remove : ∀ e ∈ winners, e.op = .kRemove → after e.key_id = none
  others : ∀ kid, (∀ e ∈ winners, e.key_id ≠ kid) → after kid = base kid

section Cold

variable {route : Nat → Nat} {cold after : Tier} {base : Nat → Option Nat} {es : List CommitEntry}

def forgotten (map : Nat → Option Nat) (es : List CommitEntry) : Nat → Option Nat :=
  es.foldl (fun map e => Function.update map e.key_id none) map

theorem forgotten_eq {map : Nat → Option Nat} (kid : Nat) :
    forgotten map es kid = if kid ∈ es.map CommitEntry.key_id then none else map kid := by
  induction es generalizing map with
  | nil => rfl
  | cons e rest ih =>
      rw [forgotten, List.foldl_cons, ← forgotten, ih]
      by_cases same : kid = e.key_id
      · subst same
        simp
      · simp [same]

theorem remove_winners (maps : Maps config.geo config.keys.route cold base)
    (routed : ∀ e ∈ es, e.fp64 = config.keys.route e.key_id)
    (done : es.foldlM (remove_winner config) cold = some after) :
    Maps config.geo config.keys.route after (forgotten base es) := by
  induction es generalizing cold base with
  | nil =>
      cases done
      exact maps
  | cons e rest ih =>
      rw [List.foldlM_cons, Option.bind_eq_bind, Option.bind_eq_some_iff] at done
      obtain ⟨middle, removed, done⟩ := done
      obtain ⟨ok, last, answered, after_maps⟩ := maps.remove e.key_id
      rw [← routed e List.mem_cons_self] at answered
      unfold remove_winner at removed
      rw [answered] at removed
      cases removed
      exact ih after_maps (fun other member => routed other (List.mem_cons_of_mem _ member)) done

theorem bulk_maps {puts : List BulkEntry} (maps : Maps config.geo config.keys.route cold base)
    (once : (puts.map BulkEntry.key_id).Nodup)
    (offsets : ∀ entry ∈ puts, entry.off ≠ kTombstoneOffset)
    (routed : ∀ entry ∈ puts, entry.fp = config.keys.route entry.key_id)
    (done : bulk_upsert config puts cold = some after) :
    Maps config.geo config.keys.route after (Maps.written base (config.sort puts)) := by
  unfold bulk_upsert at done
  split at done
  · rename_i empty
    cases done
    have nothing := List.isEmpty_iff.mp empty
    subst nothing
    have sorted := (config.sorted []).perm.eq_nil
    rw [sorted]
    exact maps
  · split at done
    · rename_i wrote last answered
      split at done
      · rename_i all
        cases done
        subst all
        exact maps.bulk_upsert ⟨config.sorted puts, once, offsets, routed⟩ answered
      · cases done
    · cases done

/-- Stage 1 makes of the map what the winners say. -/
theorem stage_one_applied {batch : List CommitEntry}
    (maps : Maps config.geo config.keys.route cold base)
    (once : ((winners config pool hot batch).map CommitEntry.key_id).Nodup)
    (routed : ∀ e ∈ winners config pool hot batch, e.fp64 = config.keys.route e.key_id)
    (offsets : ∀ e ∈ winners config pool hot batch, e.op = .kPut → e.off.offset ≠ kTombstoneOffset)
    (done : stage_one config pool hot batch cold = some after) :
    ∃ base_after, Maps config.geo config.keys.route after base_after ∧
      Applied (winners config pool hot batch) base base_after := by
  simp only [stage_one, Option.bind_eq_bind, Option.bind_eq_some_iff] at done
  obtain ⟨middle, removed, bulk⟩ := done
  revert once routed offsets removed bulk
  generalize winners config pool hot batch = ws
  intro once routed offsets removed bulk
  have removes_of : ∀ e, e ∈ ws.filter (fun e => e.op == .kRemove) ↔ e ∈ ws ∧ e.op = .kRemove := by
    intro e
    rw [List.mem_filter, beq_iff_eq]
  have puts_of : ∀ e, e ∈ ws.filter (fun e => e.op == .kPut) ↔ e ∈ ws ∧ e.op = .kPut := by
    intro e
    rw [List.mem_filter, beq_iff_eq]
  have after_removals := remove_winners maps
    (fun e member => routed e ((removes_of e).mp member).1) removed
  have ids : ((ws.filter fun e => e.op == .kPut).map CommitEntry.bulk_entry).map BulkEntry.key_id =
      (ws.filter fun e => e.op == .kPut).map CommitEntry.key_id := by
    rw [List.map_map]
    rfl
  have put_once : (((ws.filter fun e => e.op == .kPut).map CommitEntry.bulk_entry).map
      BulkEntry.key_id).Nodup := by
    rw [ids]
    exact once.sublist (List.filter_sublist.map _)
  have after_puts := bulk_maps after_removals put_once (by
      intro entry member
      obtain ⟨e, inside, rfl⟩ := List.mem_map.mp member
      obtain ⟨wins, put⟩ := (puts_of e).mp inside
      exact offsets e wins put) (by
      intro entry member
      obtain ⟨e, inside, rfl⟩ := List.mem_map.mp member
      exact routed e ((puts_of e).mp inside).1) bulk
  have perm := (config.sorted ((ws.filter fun e => e.op == .kPut).map CommitEntry.bulk_entry)).perm
  have sorted_once : ((config.sort ((ws.filter fun e => e.op == .kPut).map
      CommitEntry.bulk_entry)).map BulkEntry.key_id).Nodup :=
    (perm.map BulkEntry.key_id).nodup_iff.mpr put_once
  have same_id : ∀ {a b}, a ∈ ws → b ∈ ws → a.key_id = b.key_id → a = b :=
    fun first second => List.inj_on_of_nodup_map once first second
  have not_written : ∀ kid, (∀ e ∈ ws, e.op = .kPut → e.key_id ≠ kid) →
      Maps.written (forgotten base (ws.filter fun e => e.op == .kRemove))
        (config.sort ((ws.filter fun e => e.op == .kPut).map CommitEntry.bulk_entry)) kid =
      forgotten base (ws.filter fun e => e.op == .kRemove) kid := by
    intro kid absent
    apply Maps.written_other
    intro entry member
    obtain ⟨e, inside, rfl⟩ := List.mem_map.mp (perm.mem_iff.mp member)
    obtain ⟨wins, put⟩ := (puts_of e).mp inside
    exact absent e wins put
  refine ⟨_, after_puts, ?_, ?_, ?_⟩
  · intro e wins put
    have inside : e.bulk_entry ∈ config.sort
        ((ws.filter fun e => e.op == .kPut).map CommitEntry.bulk_entry) :=
      perm.mem_iff.mpr (List.mem_map_of_mem ((puts_of e).mpr ⟨wins, put⟩))
    exact Maps.written_entry inside sorted_once
  · intro e wins removal
    rw [not_written, forgotten_eq, if_pos]
    · exact List.mem_map_of_mem ((removes_of e).mpr ⟨wins, removal⟩)
    · intro other other_wins put same
      have one := same_id other_wins wins same
      subst one
      rw [put] at removal
      cases removal
  · intro kid absent
    rw [not_written kid (fun e wins _ => absent e wins), forgotten_eq, if_neg]
    intro member
    obtain ⟨e, inside, same⟩ := List.mem_map.mp member
    exact absent e ((removes_of e).mp inside).1 same

end Cold

/-! ### The winner of a key -/

section Winners

variable {current : K → Option KVOffset} {busy : Option K} {tiers : Tiers}
  {base : Nat → Option Nat} {key : K} {off : KVOffset} {run batch : List CommitEntry} {kid lane : Nat}

theorem hot_truth_own {e : CommitEntry} (found : hot_truth config pool hot run kid = some e) :
    e ∈ run ∧ e.key_id = kid ∧ e.op = .kPut ∧ holds config pool kid e.off = true := by
  simp only [hot_truth, Option.bind_eq_bind, Option.bind_eq_some_iff] at found
  obtain ⟨first, -, found⟩ := found
  split at found
  · cases found
  · have inside := List.mem_of_find?_eq_some found
    have passes := List.find?_some found
    simp only [Bool.and_eq_true, beq_iff_eq] at passes
    exact ⟨inside, passes.1.1.1, passes.1.1.2, passes.2⟩

theorem descending_own {e : CommitEntry} (found : descending config pool run kid = some e) :
    e ∈ run ∧ e.key_id = kid ∧ (e.op = .kRemove ∨ holds config pool kid e.off = true) := by
  unfold descending at found
  have inside := List.mem_reverse.mp (List.mem_of_find?_eq_some found)
  have passes := List.find?_some found
  simp only [Bool.and_eq_true, Bool.or_eq_true, beq_iff_eq] at passes
  exact ⟨inside, passes⟩

theorem winner_own (run : List CommitEntry) (kid : Nat) (e : CommitEntry)
    (wins : winner config pool hot run kid = some e) : e ∈ run ∧ e.key_id = kid := by
  unfold winner at wins
  rcases Option.or_eq_some_iff.mp wins with found | ⟨-, found⟩
  · exact ⟨(hot_truth_own found).1, (hot_truth_own found).2.1⟩
  · exact ⟨(descending_own found).1, (descending_own found).2.1⟩

theorem Listed.routed {e : CommitEntry} (listed : Listed config keys pool lane e) :
    e.fp64 = config.keys.route e.key_id := by
  obtain ⟨key, -, id, fp64⟩ := listed.owner
  rw [fp64, id, Keys.key_fingerprint64_eq]

structure Batch (tiers : Tiers) (lane : Nat) (batch : List CommitEntry) : Prop where
  perm : batch.Perm (tiers.commit_buf lane)
  sorted : batch.Pairwise (fun a b => a.fp64 ≤ b.fp64)

theorem Batch.one_key (taken : Batch tiers lane batch)
    (index : Index config keys clean current busy pool tiers base) :
    ∀ a ∈ batch, ∀ b ∈ batch, a.key_id = b.key_id → a.fp64 = b.fp64 := by
  intro a first b second same
  rw [(index.listed lane a (taken.perm.mem_iff.mp first)).routed,
    (index.listed lane b (taken.perm.mem_iff.mp second)).routed, same]

theorem Batch.winners_once (taken : Batch tiers lane batch)
    (index : Index config keys clean current busy pool tiers base) :
    ((winners config pool hot batch).map CommitEntry.key_id).Nodup :=
  Runs.picked_once same_fp64_iff taken.sorted (taken.one_key index) winner_own

theorem Batch.winners_batch (taken : Batch tiers lane batch) {e : CommitEntry}
    (wins : e ∈ winners config pool hot batch) : e ∈ tiers.commit_buf lane := by
  obtain ⟨run, member, found⟩ := (Runs.mem_picked winner_own).mp wins
  exact taken.perm.mem_iff.mp (Runs.mem_run member (winner_own _ _ _ found).1)

/-- All that waits for a key is in one run of the batch. -/
theorem Batch.run_of_key (taken : Batch tiers lane batch)
    (index : Index config keys clean current busy pool tiers base) {e : CommitEntry}
    (waits : Waits config tiers key e)
    (here : lane = lane_of_fp64 (config.keys.key_fingerprint64 key)) :
    ∃ run ∈ batch.splitBy same_fp64,
      ∀ other, other ∈ run ∧ other.key_id = config.keys.key_id_of key ↔
        Waits config tiers key other := by
  subst here
  obtain ⟨run, member, inside⟩ :=
    @Runs.exists_run CommitEntry same_fp64 batch e (taken.perm.mem_iff.mpr waits.1)
  refine ⟨run, member, ?_⟩
  intro other
  constructor
  · rintro ⟨there, same⟩
    exact ⟨taken.perm.mem_iff.mp (Runs.mem_run member there), same⟩
  · intro other_waits
    have same := other_waits.2.trans waits.2.symm
    exact ⟨Runs.run_whole same_fp64_iff taken.sorted (taken.one_key index) member inside
      (taken.perm.mem_iff.mpr other_waits.1) same, other_waits.2⟩

theorem wins_of_run (member : run ∈ batch.splitBy same_fp64) {e : CommitEntry}
    (found : winner config pool hot run kid = some e) : e ∈ winners config pool hot batch := by
  apply (Runs.mem_picked winner_own).mpr
  have own := (winner_own _ _ _ found).2
  subst own
  exact ⟨run, member, found⟩

/-- Where a key is pinned, the put wins whose offset is in the slot. -/
theorem winner_held (index : Index config keys clean current busy pool tiers base)
    (distinct : Set.InjOn config.keys.key_fingerprint keys)
    (recorded : Recorded config.viper.layout keys single current pool) (member : key ∈ keys)
    (free : busy ≠ some key) (present : current key = some off) (held : Held config tiers key)
    (latest : ∃ e, Waits config tiers key e ∧ e.off = off)
    (whole : ∀ e, e ∈ run ∧ e.key_id = config.keys.key_id_of key ↔ Waits config tiers key e) :
    ∃ e, winner config pool tiers.hot run (config.keys.key_id_of key) = some e ∧
      e.op = .kPut ∧ e.off = off := by
  obtain ⟨last, last_waits, last_off⟩ := latest
  obtain ⟨value, lives⟩ := recorded.alive key off present
  have there := @holds_of_lives K V config.viper.layout pool off key value config lives
    (recorded.mapped key off value lives)
  have some_put : (run.find? fun e => e.key_id == config.keys.key_id_of key && e.op == .kPut &&
      e.hot_slot.valid).isSome = true := by
    rw [List.find?_isSome]
    obtain ⟨put, valid, -⟩ := held last last_waits
    refine ⟨last, ((whole last).mpr last_waits).1, ?_⟩
    simp [last_waits.2, put, valid]
  obtain ⟨first, found⟩ := Option.isSome_iff_exists.mp some_put
  have passes := List.find?_some found
  simp only [Bool.and_eq_true, beq_iff_eq] at passes
  have first_waits := (whole first).mp ⟨List.mem_of_find?_eq_some found, passes.1.1⟩
  obtain ⟨-, valid, guards⟩ := held first first_waits
  obtain ⟨packed, cached, stored⟩ := held.cached index.intact first_waits
  have expanded := index.cached_current distinct member free present cached
  have occupied : HotTier.unpack_fp
      (tiers.hot.slots first.hot_slot.bucket_idx first.hot_slot.slot_idx) ≠ 0 := by
    rw [guards.fp]
    exact config.keys.key_fingerprint_pos key
  have read : ((HotTier.read_slot first.hot_slot).run hotSem tiers.hot).1 =
      (HotTier.unpack_fp (tiers.hot.slots first.hot_slot.bucket_idx first.hot_slot.slot_idx),
        packed) := by
    unfold HotTier.read_slot
    rw [if_pos valid, ← stored]
    rfl
  have truth : hot_truth config pool tiers.hot run (config.keys.key_id_of key) =
      run.find? fun e => e.key_id == config.keys.key_id_of key && e.op == .kPut &&
        e.off == off && holds config pool (config.keys.key_id_of key) e.off := by
    unfold hot_truth
    rw [found, Option.bind_eq_bind, Option.bind_some, read]
    dsimp only
    rw [if_neg occupied, expanded]
  have some_winner : (hot_truth config pool tiers.hot run (config.keys.key_id_of key)).isSome =
      true := by
    rw [truth, List.find?_isSome]
    refine ⟨last, ((whole last).mpr last_waits).1, ?_⟩
    simp [last_waits.2, (held last last_waits).1, last_off, there]
  obtain ⟨e, wins⟩ := Option.isSome_iff_exists.mp some_winner
  refine ⟨e, ?_, ?_⟩
  · unfold winner
    rw [wins]
    rfl
  · rw [truth] at wins
    have chosen := List.find?_some wins
    simp only [Bool.and_eq_true, beq_iff_eq] at chosen
    exact ⟨chosen.1.1.2, chosen.1.2⟩

/-- A put that waits alone, and that no slot is pinned for, wins. -/
theorem winner_bare {bare : CommitEntry}
    (there : holds config pool (config.keys.key_id_of key) bare.off = true)
    (waits : Waits config tiers key bare) (alone : ∀ e, Waits config tiers key e → e = bare)
    (invalid : bare.hot_slot.valid = false)
    (whole : ∀ e, e ∈ run ∧ e.key_id = config.keys.key_id_of key ↔ Waits config tiers key e) :
    winner config pool hot run (config.keys.key_id_of key) = some bare := by
  have none_pinned : (run.find? fun e => e.key_id == config.keys.key_id_of key && e.op == .kPut &&
      e.hot_slot.valid) = none := by
    rw [List.find?_eq_none]
    intro e inside passes
    simp only [Bool.and_eq_true, beq_iff_eq] at passes
    have same := alone e ((whole e).mp ⟨inside, passes.1.1⟩)
    subst same
    rw [invalid] at passes
    exact Bool.noConfusion passes.2
  have no_truth : hot_truth config pool hot run (config.keys.key_id_of key) = none := by
    unfold hot_truth
    rw [none_pinned]
    rfl
  have some_last : (descending config pool run (config.keys.key_id_of key)).isSome = true := by
    unfold descending
    rw [List.find?_isSome]
    refine ⟨bare, List.mem_reverse.mpr ((whole bare).mpr waits).1, ?_⟩
    simp [waits.2, there]
  obtain ⟨e, found⟩ := Option.isSome_iff_exists.mp some_last
  have own := descending_own found
  have same := alone e ((whole e).mp ⟨own.1, own.2.1⟩)
  subst same
  unfold winner
  rw [no_truth, found]
  rfl

/-- Of a key without a record a removal wins, if one waits. -/
theorem winner_gone (index : Index config keys clean current busy pool tiers base)
    (distinct : Set.InjOn config.keys.key_fingerprint keys)
    (recorded : Recorded config.viper.layout keys single current pool) (member : key ∈ keys)
    (dead : ∀ off value, ¬Lives config.viper.layout pool.v_blocks key off value)
    {removal : CommitEntry} (waits : Waits config tiers key removal) (op : removal.op = .kRemove)
    (whole : ∀ e, e ∈ run ∧ e.key_id = config.keys.key_id_of key ↔ Waits config tiers key e) :
    ∃ e, winner config pool hot run (config.keys.key_id_of key) = some e ∧ e.op = .kRemove := by
  have nothing : ∀ e, Waits config tiers key e → e.op = .kPut →
      holds config pool (config.keys.key_id_of key) e.off = false := by
    intro e there put
    rw [Bool.eq_false_iff]
    intro found
    obtain ⟨other, value, id, lives⟩ :=
      lives_of_holds ((index.listed _ e there.1).put put) found
    have one := eq_of_id distinct (recorded.only other _ value lives) member id
    subst one
    exact dead _ value lives
  have no_truth : hot_truth config pool hot run (config.keys.key_id_of key) = none := by
    rw [Option.eq_none_iff_forall_ne_some]
    intro e found
    obtain ⟨inside, own, put, there⟩ := hot_truth_own found
    rw [nothing e ((whole e).mp ⟨inside, own⟩) put] at there
    exact Bool.noConfusion there
  have some_last : (descending config pool run (config.keys.key_id_of key)).isSome = true := by
    unfold descending
    rw [List.find?_isSome]
    refine ⟨removal, List.mem_reverse.mpr ((whole removal).mpr waits).1, ?_⟩
    simp [waits.2, op]
  obtain ⟨e, found⟩ := Option.isSome_iff_exists.mp some_last
  obtain ⟨inside, own, kind⟩ := descending_own found
  refine ⟨e, ?_, ?_⟩
  · unfold winner
    rw [no_truth, found]
    rfl
  · rcases kind with removes | there
    · exact removes
    · cases put : e.op with
      | kRemove => rfl
      | kPut =>
          rw [nothing e ((whole e).mp ⟨inside, own⟩) put] at there
          exact Bool.noConfusion there

end Winners

/-! ### Stage 2 -/

theorem stage_two_slots (batch : List CommitEntry) (hot : Hot) :
    (stage_two batch hot).slots = hot.slots ∧ (stage_two batch hot).size = hot.size := by
  induction batch generalizing hot with
  | nil => exact ⟨rfl, rfl⟩
  | cons e rest ih =>
      obtain ⟨slots, size⟩ := ih ((HotTier.release e.hot_slot).run hotSem hot).2
      obtain ⟨slots_released, size_released⟩ := @HotTier.release_slots hot e.hot_slot
      exact ⟨slots.trans slots_released, size.trans size_released⟩

/-- A slot that no entry of the batch names stays pinned. -/
theorem stage_two_guards {batch : List CommitEntry} {bucket i fp : Nat}
    (low : i < HotTier.kSlotsPerBucket)
    (elsewhere : ∀ e ∈ batch, e.hot_slot.valid = true →
      ¬(e.hot_slot.bucket_idx = bucket ∧ e.hot_slot.slot_idx = i))
    (guards : hot.Guards bucket i fp) : (stage_two batch hot).Guards bucket i fp := by
  induction batch generalizing hot with
  | nil => exact guards
  | cons e rest ih =>
      apply ih
      · exact fun other member => elsewhere other (List.mem_cons_of_mem _ member)
      · exact HotTier.release_guards low (elsewhere e List.mem_cons_self) guards

/-! ### One lane -/

section Lanes

variable {current : K → Option KVOffset} {busy : Option K} {tiers after : Tiers}
  {base base_after : Nat → Option Nat} {key : K} {lane : Nat}

/-- The entries of the run that are the key's are all that wait for the key. -/
def Whole (config : Config K) (tiers : Tiers) (key : K) (run : List CommitEntry) : Prop :=
  ∀ e, e ∈ run ∧ e.key_id = config.keys.key_id_of key ↔ Waits config tiers key e

structure Drained (config : Config K) (pool : Pool K V) (tiers : Tiers) (base : Nat → Option Nat)
    (lane : Nat) (after : Tiers) (base_after : Nat → Option Nat) : Prop where
  slots : after.hot.slots = tiers.hot.slots
  size : after.hot.size = tiers.hot.size
  guards : ∀ bucket i fp, i < HotTier.kSlotsPerBucket →
    (∀ e ∈ tiers.commit_buf lane, e.hot_slot.valid = true →
      ¬(e.hot_slot.bucket_idx = bucket ∧ e.hot_slot.slot_idx = i)) →
    tiers.hot.Guards bucket i fp → after.hot.Guards bucket i fp
  buffer : after.commit_buf = Function.update tiers.commit_buf lane []
  maps : Maps config.geo config.keys.route after.cold base_after
  known : ∀ kid word, base_after kid = some word → base kid = some word ∨
    ∃ e ∈ tiers.commit_buf lane, e.op = .kPut ∧ e.off.offset = word ∧ e.key_id = kid
  kept : ∀ kid, (∀ e ∈ tiers.commit_buf lane, e.key_id ≠ kid) → base_after kid = base kid
  wins : ∀ key e, Waits config tiers key e →
    lane = lane_of_fp64 (config.keys.key_fingerprint64 key) →
    ∃ run, Whole config tiers key run ∧
      ∀ w, winner config pool tiers.hot run (config.keys.key_id_of key) = some w →
        (w.op = .kPut → base_after (config.keys.key_id_of key) = some w.off.offset) ∧
          (w.op = .kRemove → base_after (config.keys.key_id_of key) = none)

theorem Index.lane_of_id (index : Index config keys clean current busy pool tiers base) {e : CommitEntry}
    (waits : e ∈ tiers.commit_buf lane) (id : e.key_id = config.keys.key_id_of key) :
    lane = lane_of_fp64 (config.keys.key_fingerprint64 key) := by
  obtain ⟨owner, -, owned, -, here⟩ := index.waits waits
  rw [here, fp64_of_id (owned.2.symm.trans id)]

theorem drain_lane_drained (index : Index config keys clean current busy pool tiers base)
    (done : drain_lane config pool tiers lane = some after) :
    ∃ base_after, Drained config pool tiers base lane after base_after := by
  have taken : Batch tiers lane
      ((config.dequeue (tiers.commit_buf lane)).mergeSort fun a b => !less b a) := by
    constructor
    · exact (List.mergeSort_perm _ _).trans (config.dequeue_perm _)
    · exact batch_sorted _
  unfold drain_lane at done
  dsimp only at done
  revert taken done
  generalize (config.dequeue (tiers.commit_buf lane)).mergeSort (fun a b => !less b a) = batch
  intro done taken
  unfold apply_batch at done
  split at done
  · rename_i empty
    cases done
    have nothing : tiers.commit_buf lane = [] := by
      have batch_nil := List.isEmpty_iff.mp empty
      have perm := taken.perm
      rw [batch_nil] at perm
      exact perm.symm.eq_nil
    refine ⟨base, rfl, rfl, fun _ _ _ _ _ guards => guards, rfl, index.maps,
      fun _ _ found => .inl found, fun _ _ => rfl, ?_⟩
    intro key e waits here
    have inside := waits.1
    rw [← here, nothing] at inside
    cases inside
  · rw [Option.bind_eq_bind, Option.bind_eq_some_iff] at done
    obtain ⟨cold, staged, same⟩ := done
    cases same
    have routed : ∀ e ∈ winners config pool tiers.hot batch,
        e.fp64 = config.keys.route e.key_id :=
      fun e wins => (index.listed lane e (taken.winners_batch wins)).routed
    have offsets : ∀ e ∈ winners config pool tiers.hot batch, e.op = .kPut →
        e.off.offset ≠ kTombstoneOffset := by
      intro e wins put gone
      apply ((index.listed lane e (taken.winners_batch wins)).put put).ne_tombstone
      exact congrArg KVOffset.mk gone
    obtain ⟨base_after, maps, applied⟩ := stage_one_applied index.maps
      (taken.winners_once index) routed offsets staged
    obtain ⟨slots, size⟩ := stage_two_slots batch tiers.hot
    refine ⟨base_after, slots, size, ?_, rfl, maps, ?_, ?_, ?_⟩
    · intro bucket i fp low elsewhere guards
      apply stage_two_guards low _ guards
      exact fun e member => elsewhere e (taken.perm.mem_iff.mp member)
    · intro kid word found
      by_cases won : ∃ e ∈ winners config pool tiers.hot batch, e.key_id = kid
      · obtain ⟨e, wins, rfl⟩ := won
        cases op : e.op with
        | kPut =>
            rw [applied.put e wins op] at found
            exact .inr ⟨e, taken.winners_batch wins, op, Option.some.inj found, rfl⟩
        | kRemove =>
            rw [applied.remove e wins op] at found
            cases found
      · left
        rw [← applied.others kid (fun e wins same => won ⟨e, wins, same⟩)]
        exact found
    · intro kid absent
      exact applied.others kid (fun e wins => absent e (taken.winners_batch wins))
    · intro key e waits here
      obtain ⟨run, member, whole⟩ := taken.run_of_key index waits here
      refine ⟨run, whole, ?_⟩
      intro w found
      have wins := wins_of_run member found
      have own := (winner_own _ _ _ found).2
      constructor
      · intro put
        rw [← own]
        exact applied.put w wins put
      · intro removes
        rw [← own]
        exact applied.remove w wins removes

namespace Drained

variable (drained : Drained config pool tiers base lane after base_after)
include drained

theorem mem {e : CommitEntry} {other : Nat} :
    e ∈ after.commit_buf other ↔ other ≠ lane ∧ e ∈ tiers.commit_buf other := by
  rw [drained.buffer]
  by_cases here : other = lane
  · subst here
    simp
  · rw [Function.update_of_ne here]
    simp [here]

theorem waits {e : CommitEntry} : Waits config after key e ↔
    lane_of_fp64 (config.keys.key_fingerprint64 key) ≠ lane ∧ Waits config tiers key e := by
  unfold Waits
  rw [drained.mem, and_assoc]

/-- Keys of other lanes stay pinned. -/
theorem held (index : Index config keys clean current busy pool tiers base) (member : key ∈ keys)
    (present : current key ≠ none) (held : Held config tiers key)
    (elsewhere : lane_of_fp64 (config.keys.key_fingerprint64 key) ≠ lane) :
    Held config after key := by
  intro e after_waits
  have waits := (drained.waits.mp after_waits).2
  obtain ⟨put, valid, guards⟩ := held e waits
  refine ⟨put, valid, drained.guards _ _ _ ?_ ?_ guards⟩
  · exact guards.low index.intact (config.keys.key_fingerprint_pos key)
  · rintro other there other_valid ⟨bucket, slot⟩
    have same := index.apart key member present e waits valid lane other there other_valid bucket slot
    exact elsewhere (index.lane_of_id there (same.trans waits.2)).symm

theorem index (index : Index config keys clean current busy pool tiers base)
    (distinct : Set.InjOn config.keys.key_fingerprint keys)
    (recorded : Recorded config.viper.layout keys single current pool) (strict : clean → single) :
    Index config keys clean current busy pool after base_after := by
  have kept := index.intact.congr drained.slots drained.size
  constructor
  · exact kept
  · exact drained.maps
  · intro fp packed occupied found
    rw [HotTier.cached_congr index.intact kept occupied drained.slots] at found
    exact index.cached fp packed occupied found
  · intro kid word found
    rcases drained.known kid word found with before | ⟨e, there, put, rfl, rfl⟩
    · exact index.known kid word before
    · have listed := index.listed lane e there
      obtain ⟨key, member, id, -⟩ := listed.owner
      exact ⟨⟨key, member, id.symm⟩, listed.put put⟩
  · intro other e waits
    exact index.listed other e (drained.mem.mp waits).2
  · intro key member free off present
    have some_off : current key ≠ none := by
      rw [present]
      exact Option.some_ne_none off
    cases index.told key member free off present with
    | settled nothing known =>
        apply Told.settled
        · exact fun e waits => nothing e (drained.waits.mp waits).2
        · rw [drained.kept, known]
          intro e there same
          have here := index.lane_of_id there same
          rw [here] at there
          exact nothing e ⟨there, same⟩
    | waiting held latest =>
        by_cases here : lane_of_fp64 (config.keys.key_fingerprint64 key) = lane
        · apply Told.settled
          · exact fun e waits => (drained.waits.mp waits).1 here
          · obtain ⟨e, waits, named⟩ := latest
            obtain ⟨run, whole, wins⟩ := drained.wins key e waits here.symm
            obtain ⟨w, found, put, rfl⟩ := winner_held index distinct recorded member free present
              held ⟨e, waits, named⟩ whole
            exact (wins w found).1 put
        · apply Told.waiting
          · exact drained.held index member some_off held here
          · obtain ⟨e, waits, named⟩ := latest
            exact ⟨e, drained.waits.mpr ⟨here, waits⟩, named⟩
  · intro key member absent e waits
    obtain ⟨elsewhere, before⟩ := drained.waits.mp waits
    obtain ⟨r, removal, op⟩ := index.gone key member absent e before
    exact ⟨r, drained.waits.mpr ⟨elsewhere, removal⟩, op⟩
  · intro cleans key member absent nothing
    by_cases waited : ∃ e, Waits config tiers key e
    · obtain ⟨e, waits⟩ := waited
      obtain ⟨r, removal, op⟩ := index.gone key member absent e waits
      have here : lane_of_fp64 (config.keys.key_fingerprint64 key) = lane := by
        by_contra elsewhere
        exact nothing r (drained.waits.mpr ⟨elsewhere, removal⟩)
      obtain ⟨run, whole, wins⟩ := drained.wins key r removal here.symm
      have dead : ∀ off value, ¬Lives config.viper.layout pool.v_blocks key off value := by
        intro off value lives
        rw [recorded.single (strict cleans) key off value lives] at absent
        cases absent
      obtain ⟨w, found, removes⟩ :=
        winner_gone index distinct recorded member dead removal op whole
      exact (wins w found).2 removes
    · rw [drained.kept, index.forgotten cleans key member absent (fun e waits => waited ⟨e, waits⟩)]
      intro e there same
      have here := index.lane_of_id there same
      rw [here] at there
      exact waited ⟨e, there, same⟩
  · intro key member present e waits valid other_lane other there
    exact index.apart key member present e (drained.waits.mp waits).2 valid other_lane other
      (drained.mem.mp there).2

end Drained

/-! ### Many lanes -/

section Rules

variable {motive : Tiers → Prop}
  (kept : ∀ tiers lane after, motive tiers → drain_lane config pool tiers lane = some after →
    motive after)
include kept

/-- What the drain of a lane keeps, every drain keeps. -/
theorem drain_lanes_rule {lanes : List Nat} (before : motive tiers)
    (done : lanes.foldlM (drain_lane config pool) tiers = some after) : motive after := by
  induction lanes generalizing tiers with
  | nil =>
      cases done
      exact before
  | cons lane rest ih =>
      rw [List.foldlM_cons, Option.bind_eq_bind, Option.bind_eq_some_iff] at done
      obtain ⟨middle, drained, done⟩ := done
      exact ih (kept tiers lane middle before drained) done

theorem drain_locked_rule {flusher_id total : Nat} (before : motive tiers)
    (done : drain_to_empty_and_apply_locked config pool tiers flusher_id = some (total, after)) :
    motive after := by
  simp only [drain_to_empty_and_apply_locked, Option.bind_eq_bind, Option.bind_eq_some_iff] at done
  obtain ⟨last, drained, same⟩ := done
  cases same
  exact drain_lanes_rule kept before drained

theorem drain_once_rule {flusher_id : Nat} (before : motive tiers)
    (done : drain_once config pool tiers flusher_id = some after) : motive after := by
  simp only [drain_once, Option.bind_eq_bind, Option.bind_eq_some_iff] at done
  obtain ⟨⟨total, last⟩, drained, same⟩ := done
  cases same
  exact drain_locked_rule kept before drained

theorem flushers_rule {flushers : List Nat} (before : motive tiers)
    (done : flushers.foldlM (drain_once config pool) tiers = some after) : motive after := by
  induction flushers generalizing tiers with
  | nil =>
      cases done
      exact before
  | cons flusher rest ih =>
      rw [List.foldlM_cons, Option.bind_eq_bind, Option.bind_eq_some_iff] at done
      obtain ⟨middle, drained, done⟩ := done
      exact ih (drain_once_rule kept before drained) done

theorem back_off_rule {waits waits_after : List (List Nat)} (before : motive tiers)
    (done : back_off config pool waits tiers = some (waits_after, after)) : motive after := by
  simp only [back_off, try_inline_flush, Option.bind_eq_bind, Option.bind_eq_some_iff] at done
  obtain ⟨⟨got, middle⟩, flushed, done⟩ := done
  have between := drain_locked_rule kept before flushed
  split at done
  · rw [Option.bind_eq_some_iff] at done
    obtain ⟨last, drained, same⟩ := done
    cases same
    exact flushers_rule kept between drained
  · cases done
    exact between

end Rules

/-! ### Empty lanes -/

theorem drain_lane_buffer (done : drain_lane config pool tiers lane = some after) :
    after.commit_buf = Function.update tiers.commit_buf lane [] := by
  unfold drain_lane at done
  dsimp only at done
  unfold apply_batch at done
  split at done
  · cases done
    rfl
  · rw [Option.bind_eq_bind, Option.bind_eq_some_iff] at done
    obtain ⟨cold, -, same⟩ := done
    cases same
    rfl

/-- A drain fills no lane. -/
theorem drain_lane_stays_empty (other : Nat) (tiers : Tiers) (lane : Nat) (after : Tiers)
    (empty : tiers.commit_buf other = [])
    (done : drain_lane config pool tiers lane = some after) : after.commit_buf other = [] := by
  rw [drain_lane_buffer done, Function.update_apply]
  split
  · rfl
  · exact empty

theorem drain_lanes_empty {lanes : List Nat} {other : Nat} (member : other ∈ lanes)
    (done : lanes.foldlM (drain_lane config pool) tiers = some after) :
    after.commit_buf other = [] := by
  induction lanes generalizing tiers with
  | nil => cases member
  | cons lane rest ih =>
      rw [List.foldlM_cons, Option.bind_eq_bind, Option.bind_eq_some_iff] at done
      obtain ⟨middle, drained, done⟩ := done
      rcases List.mem_cons.mp member with rfl | later
      · apply drain_lanes_rule (drain_lane_stays_empty other) _ done
        rw [drain_lane_buffer drained]
        exact Function.update_self ..
      · exact ih later done

theorem drain_once_empty {flusher_id other : Nat} (member : other ∈ lanes_for_flusher config flusher_id)
    (done : drain_once config pool tiers flusher_id = some after) : after.commit_buf other = [] := by
  simp only [drain_once, drain_to_empty_and_apply_locked, Option.bind_eq_bind,
    Option.bind_eq_some_iff] at done
  obtain ⟨⟨total, last⟩, ⟨middle, drained, flushed⟩, same⟩ := done
  cases flushed
  cases same
  exact drain_lanes_empty member drained

/-- Each lane is a flusher's. -/
theorem exists_flusher {other : Nat} (inside : other < kNumLanes) :
    ∃ flusher_id < config.num_flushers, other ∈ lanes_for_flusher config flusher_id := by
  have product : config.num_flushers * lanes_per config = kNumLanes :=
    Nat.mul_div_cancel' config.flushers_divide
  have positive : 0 < lanes_per config := by
    apply Nat.pos_of_ne_zero
    intro none_left
    rw [none_left] at product
    cases product
  refine ⟨other / lanes_per config, ?_, ?_⟩
  · apply Nat.div_lt_of_lt_mul
    rw [Nat.mul_comm, product]
    exact inside
  · unfold lanes_for_flusher
    rw [List.mem_range'_1]
    have whole := Nat.div_add_mod other (lanes_per config)
    have rest := Nat.mod_lt other positive
    rw [Nat.mul_comm] at whole
    omega

theorem flushers_empty {flushers : List Nat} {flusher_id other : Nat} (member : flusher_id ∈ flushers)
    (owns : other ∈ lanes_for_flusher config flusher_id)
    (done : flushers.foldlM (drain_once config pool) tiers = some after) :
    after.commit_buf other = [] := by
  induction flushers generalizing tiers with
  | nil => cases member
  | cons flusher rest ih =>
      rw [List.foldlM_cons, Option.bind_eq_bind, Option.bind_eq_some_iff] at done
      obtain ⟨middle, drained, done⟩ := done
      rcases List.mem_cons.mp member with rfl | later
      · exact flushers_rule (drain_lane_stays_empty other) (drain_once_empty owns drained) done
      · exact ih later done

/-- The catch-up leaves nothing in the lanes. -/
theorem catch_up_empty {other : Nat} (inside : other < kNumLanes)
    (done : catch_up config pool tiers = some after) : after.commit_buf other = [] := by
  obtain ⟨flusher_id, few, owns⟩ := @exists_flusher K config other inside
  exact flushers_empty (List.mem_range.mpr few) owns done

end Lanes

end Hiom.Client
