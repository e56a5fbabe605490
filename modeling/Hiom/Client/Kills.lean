import Hiom.Client.Calls

/-!
A process that is killed between two calls and opens the pool again: the replay
of the tail, whichever way its threads come to the records, gives the cold tier
each record that is on the pages.
-/

namespace Hiom.Client

open ColdTier (BulkEntry Geometry Maps Tier memSem region_id_of bucket_id_of)
open Recovery (Replay Tail entry_of)
open Viper.Records (KVOffset Layout Lives Pool)

variable {K V : Type}

/-! ### The records of a pool -/

section Records

variable {config : Config K} {pool : Pool K V} {record : K × V} {off : KVOffset}

/-- The slots of a mapped block that the replay finds taken are those that live. -/
theorem live_iff_lives (mapped : off.block_number < pool.num_v_blocks) :
    (State.tail config pool).Live record off ↔
      Lives config.viper.layout pool.v_blocks record.1 off record.2 := by
  have block : (State.tail config pool).v_blocks[off.block_number]? =
      some (some (pool.v_blocks off.block_number)) := by
    simp [State.tail, mapped]
  constructor
  · rintro ⟨word, page_lt, slot_lt, found, here, used, taken, data⟩
    rw [block] at here
    cases here
    exact ⟨word, page_lt, slot_lt, ⟨used, taken⟩, data⟩
  · intro lives
    exact ⟨lives.word, lives.page_lt, lives.slot_lt, _, block, lives.live.1, lives.live.2, lives.data⟩

/-- What the replay of a whole pool visits. -/
theorem mem_records (sound : pool.Sound config.viper.layout) :
    (record, off) ∈ (State.tail config pool).records ↔
      Lives config.viper.layout pool.v_blocks record.1 off record.2 ∧
        off.block_number < pool.current_block_page.block_number := by
  have next_le := sound.next_le
  rw [Tail.mem_records]
  constructor
  · rintro ⟨live, -, below⟩
    exact ⟨(live_iff_lives (Nat.lt_of_lt_of_le below next_le)).mp live, below⟩
  · rintro ⟨lives, below⟩
    exact ⟨(live_iff_lives (Nat.lt_of_lt_of_le below next_le)).mpr lives, Nat.zero_le _, below⟩

end Records

/-! ### The replay -/

section Replay

variable {config : Config K} {tail : Tail K V} {threads : Nat} {start : Tier}
  {base : Nat → Option Nat} {replay next : Replay}

/-- What the cold tier is as the upserts under way will leave it: each record is
told of or still to be, and beside the records it knows what it knew. -/
structure Replays (config : Config K) (tail : Tail K V) (base : Nat → Option Nat) (replay : Replay)
    (now : Nat → Option Nat) : Prop where
  maps : Maps config.geo config.keys.route replay.settled now
  told : ∀ kid word, now kid = some word → base kid = some word ∨
    ∃ entry ∈ tail.records.map (entry_of config.keys), entry.key_id = kid ∧ entry.off = word
  mapped : ∀ entry ∈ tail.records.map (entry_of config.keys),
    (∃ t, entry ∈ (replay.workers t).todo) ∨ now entry.key_id = some entry.off

/-- An upsert under way will fail: its worker never joins. -/
def Stuck (replay : Replay) : Prop :=
  ∃ rid upsert, replay.upserts rid = some upsert ∧
    (upsert.code.run memSem (replay.tier rid)).1 ≠ some true

structure Working (config : Config K) (tail : Tail K V) (threads : Nat) (replay : Replay) : Prop where
  todo : ∀ t, ∀ entry ∈ (replay.workers t).todo, entry ∈ tail.records.map (entry_of config.keys)
  threads : ∀ t, tail.num_threads threads ≤ t → (replay.workers t).todo = []
  regions : ∀ rid upsert, replay.upserts rid = some upsert → rid < ColdTier.kNumRegions

theorem Working.step {action : Recovery.Action} (working : Working config tail threads replay)
    (stepped : replay.step config.geo action = some next) : Working config tail threads next := by
  cases action with
  | lock t =>
      obtain ⟨entry, rest, worker⟩ := Recovery.lock_worker stepped
      obtain ⟨-, -, workers, upserts, -⟩ := Recovery.settled_lock worker stepped
      constructor
      · intro other candidate inside
        rw [workers] at inside
        by_cases here : other = t
        · subst here
          rw [Function.update_self] at inside
          apply working.todo other
          rw [worker]
          exact List.mem_cons_of_mem _ inside
        · rw [Function.update_of_ne here] at inside
          exact working.todo other candidate inside
      · intro other beyond
        rw [workers]
        by_cases here : other = t
        · subst here
          have none_left := working.threads other beyond
          rw [worker] at none_left
          cases none_left
        · rw [Function.update_of_ne here]
          exact working.threads other beyond
      · intro rid upsert busy
        rw [upserts] at busy
        by_cases here : rid = region_id_of entry.fp
        · rw [here]
          exact ColdTier.region_id_of_lt _
        · rw [Function.update_of_ne here] at busy
          exact working.regions rid upsert busy
  | access rid =>
      obtain ⟨-, workers, upsert, rest, busy, upserts, -⟩ := Recovery.settled_access stepped
      constructor
      · rw [workers]
        exact working.todo
      · rw [workers]
        exact working.threads
      · intro other under_way found
        rw [upserts] at found
        by_cases here : other = rid
        · rw [here]
          exact working.regions rid upsert busy
        · rw [Function.update_of_ne here] at found
          exact working.regions other under_way found
  | unlock rid =>
      obtain ⟨-, -, t, -, workers, upserts⟩ := Recovery.settled_unlock stepped
      have todo : ∀ other, (next.workers other).todo = (replay.workers other).todo := by
        intro other
        rw [workers]
        by_cases here : other = t
        · rw [here, Function.update_self]
        · rw [Function.update_of_ne here]
      constructor
      · intro other
        rw [todo]
        exact working.todo other
      · intro other beyond
        rw [todo]
        exact working.threads other beyond
      · intro other upsert found
        rw [upserts] at found
        by_cases here : other = rid
        · rw [here, Function.update_self] at found
          cases found
        · rw [Function.update_of_ne here] at found
          exact working.regions other upsert found

/-- An upsert that will fail is not returned from. -/
theorem Stuck.step {action : Recovery.Action} (stuck : Stuck replay)
    (stepped : replay.step config.geo action = some next) : Stuck next := by
  obtain ⟨rid, upsert, busy, fails⟩ := stuck
  cases action with
  | lock t =>
      obtain ⟨entry, rest, worker⟩ := Recovery.lock_worker stepped
      obtain ⟨free, -, -, upserts, tier⟩ := Recovery.settled_lock worker stepped
      refine ⟨rid, upsert, ?_, ?_⟩
      · rw [upserts, Function.update_of_ne]
        · exact busy
        · rintro rfl
          rw [free] at busy
          cases busy
      · rw [tier]
        exact fails
  | access other =>
      obtain ⟨-, -, under_way, rest, found, upserts, ran, -, tier⟩ := Recovery.settled_access stepped
      by_cases here : rid = other
      · subst here
        rw [busy] at found
        cases found
        refine ⟨rid, { upsert with code := rest }, ?_, ?_⟩
        · rw [upserts, Function.update_self]
        · dsimp only
          rw [ran]
          exact fails
      · refine ⟨rid, upsert, ?_, ?_⟩
        · rw [upserts, Function.update_of_ne here]
          exact busy
        · rw [tier rid here]
          exact fails
  | unlock other =>
      obtain ⟨-, tier, t, returned, -, upserts⟩ := Recovery.settled_unlock stepped
      refine ⟨rid, upsert, ?_, ?_⟩
      · rw [upserts, Function.update_of_ne]
        · exact busy
        · rintro rfl
          rw [returned] at busy
          cases busy
          exact fails rfl
      · rw [tier]
        exact fails

/-- One step of the replay, unless it gets stuck. -/
theorem Replays.step {action : Recovery.Action} (once : tail.LiveOnce config.keys)
    (working : Working config tail threads replay)
    (replays : ∃ now, Replays config tail base replay now)
    (stepped : replay.step config.geo action = some next) :
    (∃ now, Replays config tail base next now) ∨ Stuck next := by
  obtain ⟨now, replays⟩ := replays
  cases action with
  | lock t =>
      obtain ⟨entry, rest, worker⟩ := Recovery.lock_worker stepped
      obtain ⟨free, settled, workers, upserts, tier⟩ := Recovery.settled_lock worker stepped
      have listed : entry ∈ tail.records.map (entry_of config.keys) := by
        apply working.todo t
        rw [worker]
        exact List.mem_cons_self
      have routed := (Recovery.entry_of_member listed).1
      have answer : (replay.settled.upsert config.geo entry.fp entry.key_id entry.off).1 =
          ((ColdTier.upsert config.geo (bucket_id_of config.geo entry.fp) entry.key_id
            entry.off).run memSem (replay.tier (region_id_of entry.fp))).1 := by
        rw [Tier.upsert, ColdTier.Tier.on_region_eq, Recovery.settled_idle free]
      by_cases done : (replay.settled.upsert config.geo entry.fp entry.key_id entry.off).1 = some true
      · left
        refine ⟨Function.update now entry.key_id (some entry.off), ?_, ?_, ?_⟩
        · rw [settled]
          apply replays.maps.upsert
          · obtain ⟨⟨record, off⟩, member, rfl⟩ := List.mem_map.mp listed
            intro gone
            apply Viper.Records.visited_ne_tombstone member
            exact congrArg KVOffset.mk gone
          · rw [← routed]
            exact Prod.ext done rfl
        · intro kid word found
          by_cases same : kid = entry.key_id
          · subst same
            rw [Function.update_self] at found
            exact .inr ⟨entry, listed, rfl, Option.some.inj found⟩
          · rw [Function.update_of_ne same] at found
            exact replays.told kid word found
        · intro candidate inside
          by_cases same : candidate.key_id = entry.key_id
          · right
            rw [same, Function.update_self]
            obtain ⟨first, first_in, rfl⟩ := List.mem_map.mp inside
            obtain ⟨second, second_in, rfl⟩ := List.mem_map.mp listed
            have one_offset := once first first_in second second_in same
            simp only [entry_of, one_offset]
          · rw [Function.update_of_ne same]
            rcases replays.mapped candidate inside with ⟨other, waiting⟩ | told
            · left
              refine ⟨other, ?_⟩
              rw [workers]
              by_cases here : other = t
              · subst here
                rw [Function.update_self]
                rw [worker] at waiting
                rcases List.mem_cons.mp waiting with head | later
                · exact absurd (congrArg BulkEntry.key_id head) same
                · exact later
              · rw [Function.update_of_ne here]
                exact waiting
            · exact .inr told
      · right
        refine ⟨region_id_of entry.fp, ⟨t, ColdTier.upsert config.geo (bucket_id_of config.geo entry.fp)
          entry.key_id entry.off⟩, ?_, ?_⟩
        · rw [upserts, Function.update_self]
        · dsimp only
          rw [tier, ← answer]
          exact done
  | access rid =>
      obtain ⟨settled, workers, -⟩ := Recovery.settled_access stepped
      left
      refine ⟨now, ?_, replays.told, ?_⟩
      · rw [settled]
        exact replays.maps
      · rw [workers]
        exact replays.mapped
  | unlock rid =>
      obtain ⟨settled, -, t, -, workers, -⟩ := Recovery.settled_unlock stepped
      left
      refine ⟨now, ?_, replays.told, ?_⟩
      · rw [settled]
        exact replays.maps
      · intro entry inside
        rcases replays.mapped entry inside with ⟨other, waiting⟩ | told
        · left
          refine ⟨other, ?_⟩
          rw [workers]
          by_cases here : other = t
          · subst here
            rw [Function.update_self]
            exact waiting
          · rw [Function.update_of_ne here]
            exact waiting
        · exact .inr told

/-- What a replay that has joined leaves in the cold tier. -/
theorem replay_maps {schedule : List Recovery.Action} (once : tail.LiveOnce config.keys)
    (maps : Maps config.geo config.keys.route start base)
    (ran : (Recovery.recover_tail_into_cold config.geo config.keys tail threads start).run
      (.start config.keys tail threads start) schedule = some replay)
    (joined : State.joined (tail.num_threads threads) replay = true) :
    ∃ now, Maps config.geo config.keys.route replay.tier now ∧
      (∀ kid word, now kid = some word → base kid = some word ∨
        ∃ record ∈ tail.records, config.keys.key_id_of record.1.1 = kid ∧ record.2.offset = word) ∧
      ∀ record ∈ tail.records, now (config.keys.key_id_of record.1.1) = some record.2.offset := by
  have reached : (Recovery.recover_tail_into_cold config.geo config.keys tail threads
      start).Reachable replay := Machine.Reachable.run (.start rfl) ran
  have invariant : Working config tail threads replay ∧
      ((∃ now, Replays config tail base replay now) ∨ Stuck replay) := by
    apply reached.invariant
    · rintro _ rfl
      have replaying : ∀ entry ∈ tail.records.map (entry_of config.keys), ∃ t,
          entry ∈ ((Replay.start config.keys tail threads start).workers t).todo := by
        intro entry member
        rw [← tail.workers_eq threads, List.map_flatMap] at member
        obtain ⟨t, inside, works⟩ := List.mem_flatMap.mp member
        refine ⟨t, ?_⟩
        simp only [Replay.start, if_pos (List.mem_range.mp inside)]
        exact works
      constructor
      · constructor
        · intro t entry member
          simp only [Replay.start] at member
          split at member
          · rename_i inside
            rw [← tail.workers_eq threads, List.map_flatMap]
            exact List.mem_flatMap.mpr ⟨t, List.mem_range.mpr inside, member⟩
          · cases member
        · intro t beyond
          simp only [Replay.start, if_neg (Nat.not_lt.mpr beyond)]
        · intro rid upsert busy
          cases busy
      · left
        exact ⟨base, maps, fun _ _ found => .inl found, fun entry member => .inl (replaying entry member)⟩
    · rintro state action after ⟨working, replays | stuck⟩ _ stepped
      · exact ⟨working.step stepped, Replays.step once working replays stepped⟩
      · exact ⟨working.step stepped, .inr (stuck.step stepped)⟩
  obtain ⟨working, replays⟩ := invariant
  unfold State.joined at joined
  rw [Bool.and_eq_true, List.all_eq_true, List.all_eq_true] at joined
  have idle : ∀ rid, replay.upserts rid = none := by
    intro rid
    cases found : replay.upserts rid with
    | none => rfl
    | some upsert =>
        have none_left := joined.2 rid (List.mem_range.mpr (working.regions rid upsert found))
        rw [found] at none_left
        cases none_left
  have done : ∀ t, (replay.workers t).todo = [] := by
    intro t
    by_cases inside : t < tail.num_threads threads
    · have empty := joined.1 t (List.mem_range.mpr inside)
      rw [Bool.and_eq_true] at empty
      exact List.isEmpty_iff.mp empty.1
    · exact working.threads t (Nat.le_of_not_lt inside)
  rcases replays with ⟨now, replays⟩ | ⟨rid, upsert, busy, -⟩
  · have settled : replay.settled = replay.tier := by
      funext rid
      exact Recovery.settled_idle (idle rid)
    refine ⟨now, ?_, ?_, ?_⟩
    · rw [← settled]
      exact replays.maps
    · intro kid word found
      rcases replays.told kid word found with before | ⟨entry, member, rfl, rfl⟩
      · exact .inl before
      · obtain ⟨record, inside, rfl⟩ := List.mem_map.mp member
        exact .inr ⟨record, inside, rfl, rfl⟩
    · intro record member
      rcases replays.mapped (entry_of config.keys record) (List.mem_map_of_mem member) with
        ⟨t, waiting⟩ | told
      · rw [done t] at waiting
        cases waiting
      · exact told
  · rw [idle rid] at busy
    cases busy

end Replay

/-! ### The pool that is opened again -/

section Reopen

variable [DecidableEq K] {config : Config K} {keys : Set K} {single clean : Prop}
  {current : K → Option KVOffset} {base : Nat → Option Nat} {state next : State K V} {threads : Nat}

/-- Where no key has a second record the tail has none. -/
theorem Consistent.live_once (consistent : Consistent config keys single clean current base state)
    (distinct : Set.InjOn config.keys.key_fingerprint keys) (one : single) :
    (State.tail config state.viper.pool.reopened).LiveOnce config.keys := by
  have sound := consistent.shape.pool.reopened.1
  intro first first_in second second_in same
  have first_lives := ((mem_records sound).mp first_in).1
  have second_lives := ((mem_records sound).mp second_in).1
  have same_key := eq_of_id distinct (consistent.recorded.only _ _ _ first_lives)
    (consistent.recorded.only _ _ _ second_lives) same
  have first_current := consistent.recorded.single one _ _ _ first_lives
  have second_current := consistent.recorded.single one _ _ _ second_lives
  rw [same_key, second_current] at first_current
  exact (Option.some.inj first_current).symm

theorem Consistent.reopen {schedule : List Recovery.Action}
    (consistent : Consistent config keys single clean current base state) (unclean : ¬clean)
    (once : (State.tail config state.viper.pool.reopened).LiveOnce config.keys)
    (done : state.reopen config threads schedule = some next) :
    ∃ base, Consistent config keys single clean current base next := by
  obtain ⟨sound, next_same⟩ := consistent.shape.pool.reopened
  unfold State.reopen at done
  dsimp only at done
  rw [Option.bind_eq_bind, Option.bind_eq_some_iff] at done
  obtain ⟨replay, ran, done⟩ := done
  split at done
  · rename_i joined
    cases done
    obtain ⟨now, maps, told, mapped⟩ := replay_maps once consistent.index.maps ran joined
    have listed : ∀ key off value,
        Lives config.viper.layout state.viper.pool.v_blocks key off value →
        now (config.keys.key_id_of key) = some off.offset := by
      intro key off value lives
      have below : off.block_number < state.viper.pool.reopened.current_block_page.block_number := by
        rw [next_same]
        exact Nat.lt_of_not_le (fun above => consistent.shape.claimed key off value lives (.inl above))
      exact mapped ((key, value), off) ((mem_records sound).mpr ⟨lives, below⟩)
    refine ⟨now, ?_⟩
    constructor
    · exact consistent.shape.reopened _
    · have recorded := consistent.recorded
      exact ⟨recorded.alive, recorded.only, recorded.mapped, recorded.single⟩
    · constructor
      · exact .empty
      · exact maps
      · intro fp packed occupied found
        obtain ⟨i, -, same, -⟩ := (HotTier.cached_eq_some .empty occupied).mp found
        exact absurd rfl (HotTier.occupied_of_fp occupied same)
      · intro kid word found
        rcases told kid word found with before | ⟨⟨record, off⟩, member, rfl, rfl⟩
        · obtain ⟨owner, proper⟩ := consistent.index.known kid word before
          exact ⟨owner, proper.word, proper.page_lt, proper.slot_lt, proper.used⟩
        · have lives := ((mem_records sound).mp member).1
          exact ⟨⟨record.1, consistent.recorded.only _ _ _ lives, rfl⟩, Proper.of_lives lives⟩
      · intro lane e waits
        cases waits
      · intro key member _ off present
        obtain ⟨value, lives⟩ := consistent.recorded.alive key off present
        exact .settled (fun e waits => by cases waits.1) (listed key off value lives)
      · intro key member _ e waits
        cases waits.1
      · exact fun cleans => absurd cleans unclean
      · intro key member _ e waits
        cases waits.1
    · exact consistent.values
    · exact consistent.absent
    · exact consistent.sound
    · exact consistent.truthful
  · cases done

end Reopen

end Hiom.Client
