import Mathlib
import Hiom.Checkpoint.Slots
import Hiom.Client.Keys
import Hiom.Cold.Power
import Hiom.Cold.Room
import Hiom.Lib.Chunks
import Hiom.Viper.Records

/-!
The replay of the tail into the cold tier. Workers go over chunks of the blocks
and upsert each record; every access of an upsert is a step, taken under the
mutex of its region.
-/

namespace Hiom.Recovery

open ColdTier (Geometry Tier BulkEntry Code memSem region_id_of bucket_id_of own Sound Room)
open Checkpoint (CheckpointRecord)
open Viper.Records (KVOffset Layout VPageBlock hiom_visit_records visit_block)

/-! ### The blocks to go over -/

def kProtoDurableFrontier : Nat := 2

/-- Only a frontier of the durable protocol is trusted. -/
def frontier_block : Option CheckpointRecord → Nat
  | some rec =>
      if rec.reserved.1 = kProtoDurableFrontier then (KVOffset.mk rec.vpage_frontier).block_number
      else 0
  | none => 0

/-- What a recovery finds: the blocks, the valid checkpoint and
`hiom_vpage_frontier`. -/
structure Tail (K V : Type) where
  layout : Layout
  v_blocks : List (Option (VPageBlock K V))
  checkpoint : Option CheckpointRecord
  vpage_frontier : KVOffset

namespace Tail

variable {K V : Type} (tail : Tail K V)

def start_block : Nat :=
  if 0 < frontier_block tail.checkpoint then frontier_block tail.checkpoint - 1 else 0

def current_block : Nat := tail.vpage_frontier.block_number

def num_blocks : Nat := tail.current_block - tail.start_block

def num_threads (threads : Nat) : Nat := min tail.num_blocks (max 1 threads)

def per_thread (threads : Nat) : Nat := chunk_width tail.num_blocks (tail.num_threads threads)

def worker (threads t : Nat) : List ((K × V) × KVOffset) :=
  let lo := tail.start_block + t * tail.per_thread threads
  hiom_visit_records tail.layout tail.v_blocks lo
    (min (lo + tail.per_thread threads) tail.current_block)

def records : List ((K × V) × KVOffset) :=
  hiom_visit_records tail.layout tail.v_blocks tail.start_block tail.current_block

structure Live (record : K × V) (off : KVOffset) : Prop where
  word : off.offset < 2 ^ 64
  page_lt : off.page_number < tail.layout.num_pages_per_block
  slot_lt : off.data_offset < tail.layout.num_slots_per_page
  slot : ∃ block, tail.v_blocks[off.block_number]? = some (some block) ∧
    (block off.page_number).version_lock.is_used = true ∧
    (block off.page_number).free_slots off.data_offset = false ∧
    (block off.page_number).data off.data_offset = record

variable {tail} in
theorem mem_visit_block {bn : Nat} {record : K × V} {off : KVOffset} (small : bn < 2 ^ 45) :
    (record, off) ∈ visit_block tail.layout tail.v_blocks bn ↔
      tail.Live record off ∧ off.block_number = bn := by
  unfold visit_block
  constructor
  · intro visited
    split at visited
    · rename_i block here
      obtain ⟨pn, inside, on_page⟩ := List.mem_flatMap.mp visited
      have page_lt : pn < tail.layout.num_pages_per_block := List.mem_range.mp inside
      obtain ⟨word, rfl, rfl, slot_lt, used, taken, found⟩ :=
        (Viper.Records.mem_visit_page small page_lt).mp on_page
      exact ⟨⟨word, page_lt, slot_lt, block, here, used, taken, found⟩, rfl⟩
    · cases visited
  · rintro ⟨⟨word, page_lt, slot_lt, block, here, used, taken, found⟩, rfl⟩
    rw [here]
    apply List.mem_flatMap.mpr
    refine ⟨off.page_number, List.mem_range.mpr page_lt, ?_⟩
    exact (Viper.Records.mem_visit_page small page_lt).mpr
      ⟨word, rfl, rfl, slot_lt, used, taken, found⟩

/-- The tail is what lives between the frontier, but for one block, and the next
block of Viper. -/
theorem mem_records {record : K × V} {off : KVOffset} :
    (record, off) ∈ tail.records ↔ tail.Live record off ∧
      frontier_block tail.checkpoint - 1 ≤ off.block_number ∧
      off.block_number < tail.vpage_frontier.block_number := by
  have start : tail.start_block = frontier_block tail.checkpoint - 1 := by
    unfold start_block
    split <;> omega
  have number_lt : tail.current_block < 2 ^ 45 := Nat.mod_lt _ (by decide)
  unfold records
  rw [Viper.Records.visit_records_eq]
  constructor
  · intro visited
    obtain ⟨bn, inside, on_block⟩ := List.mem_flatMap.mp visited
    have between := List.mem_range'_1.mp inside
    obtain ⟨live, rfl⟩ := (mem_visit_block (by omega)).mp on_block
    have below : off.block_number < tail.current_block := by omega
    exact ⟨live, by omega, below⟩
  · rintro ⟨live, above, below⟩
    have below : off.block_number < tail.current_block := below
    apply List.mem_flatMap.mpr
    refine ⟨off.block_number, List.mem_range'_1.mpr (by omega), ?_⟩
    exact (mem_visit_block (by omega)).mpr ⟨live, rfl⟩

/-- Whatever the number of threads, the workers go over the tail. -/
theorem workers_eq (threads : Nat) :
    (List.range (tail.num_threads threads)).flatMap (tail.worker threads) = tail.records := by
  have enough : tail.num_blocks ≤ tail.num_threads threads * tail.per_thread threads := by
    by_cases some_blocks : tail.num_blocks = 0
    · omega
    · apply total_le_chunks
      unfold num_threads
      omega
  have chunks := chunks_eq enough
  have worker_eq : tail.worker threads = fun t =>
      (chunk tail.start_block tail.current_block (tail.per_thread threads) t).flatMap
        (visit_block tail.layout tail.v_blocks) := by
    funext t
    exact Viper.Records.visit_records_eq _ _
  rw [worker_eq, ← List.flatMap_assoc, chunks]
  exact (Viper.Records.visit_records_eq _ _).symm

end Tail

def entry_of {K V : Type} (keys : Keys K) (record : (K × V) × KVOffset) : BulkEntry :=
  ⟨keys.key_fingerprint64 record.1.1, keys.key_id_of record.1.1, record.2.offset⟩

/-! ### The workers -/

/-- `inside` while the worker waits for its upsert. -/
structure Worker where
  todo : List BulkEntry
  inside : Bool

structure Upsert where
  worker : Nat
  code : Code (Option Bool)

/-- `upserts` has what runs under the mutex of each region. -/
structure Replay where
  tier : Tier
  workers : Nat → Worker
  upserts : Nat → Option Upsert

inductive Action where
  | lock (worker : Nat)
  | access (rid : Nat)
  | unlock (rid : Nat)

def Replay.finished (replay : Replay) : Prop :=
  (∀ t, replay.workers t = ⟨[], false⟩) ∧ ∀ rid, replay.upserts rid = none

section

variable (geo : Geometry)

/-- An upsert that fails aborts the program. -/
def Replay.step (replay : Replay) : Action → Option Replay
  | .lock t =>
      match replay.workers t with
      | ⟨entry :: rest, false⟩ =>
          match replay.upserts (region_id_of entry.fp) with
          | none =>
              some { replay with
                workers := Function.update replay.workers t ⟨rest, true⟩
                upserts := Function.update replay.upserts (region_id_of entry.fp)
                  (some ⟨t, ColdTier.upsert geo (bucket_id_of geo entry.fp) entry.key_id
                    entry.off⟩) }
          | some _ => none
      | _ => none
  | .access rid => do
      let upsert ← replay.upserts rid
      let (rest, mem) ← upsert.code.advance memSem (replay.tier rid)
      some { replay with
        tier := Function.update replay.tier rid mem
        upserts := Function.update replay.upserts rid (some { upsert with code := rest }) }
  | .unlock rid =>
      match replay.upserts rid with
      | some ⟨t, .ret (some true)⟩ =>
          some { replay with
            workers := Function.update replay.workers t { replay.workers t with inside := false }
            upserts := Function.update replay.upserts rid none }
      | _ => none

end

variable {K V : Type}

def Replay.start (keys : Keys K) (tail : Tail K V) (threads : Nat) (tier : Tier) : Replay where
  tier := tier
  workers := fun t =>
    ⟨if t < tail.num_threads threads then (tail.worker threads t).map (entry_of keys) else [],
      false⟩
  upserts := fun _ => none

/-- `recover_tail_into_cold` from when the threads are there until they have
joined. -/
def recover_tail_into_cold (geo : Geometry) (keys : Keys K) (tail : Tail K V) (threads : Nat)
    (tier : Tier) : Machine Replay Action where
  initial := fun replay => replay = .start keys tail threads tier
  step := Replay.step geo

/-! ### What the upserts under way amount to -/

def Replay.settled (replay : Replay) : Tier := fun rid =>
  match replay.upserts rid with
  | none => replay.tier rid
  | some upsert => (upsert.code.run memSem (replay.tier rid)).2

def Replay.ahead (replay : Replay) (rid : Nat) : Nat :=
  match replay.upserts rid with
  | none => 0
  | some upsert => upsert.code.steps memSem (replay.tier rid) + 1

variable {geo : Geometry} {keys : Keys K} {tail : Tail K V} {threads : Nat} {start : Tier}
  {replay next : Replay}

theorem settled_idle {rid : Nat} (idle : replay.upserts rid = none) :
    replay.settled rid = replay.tier rid := by
  simp only [Replay.settled, idle]

theorem lock_worker {t : Nat} (stepped : replay.step geo (.lock t) = some next) :
    ∃ entry rest, replay.workers t = ⟨entry :: rest, false⟩ := by
  revert stepped
  simp only [Replay.step]
  split
  · rename_i entry rest worker
    exact fun _ => ⟨entry, rest, worker⟩
  · exact fun impossible => nomatch impossible

/-- A lock leaves what the upsert, taken whole, leaves of the settled tier. -/
theorem settled_lock {t : Nat} {entry : BulkEntry} {rest : List BulkEntry}
    (worker : replay.workers t = ⟨entry :: rest, false⟩)
    (stepped : replay.step geo (.lock t) = some next) :
    replay.upserts (region_id_of entry.fp) = none ∧
      next.settled = (replay.settled.upsert geo entry.fp entry.key_id entry.off).2 ∧
      next.workers = Function.update replay.workers t ⟨rest, true⟩ ∧
      next.upserts = Function.update replay.upserts (region_id_of entry.fp)
        (some ⟨t, ColdTier.upsert geo (bucket_id_of geo entry.fp) entry.key_id entry.off⟩) ∧
      next.tier = replay.tier := by
  simp only [Replay.step, worker] at stepped
  split at stepped
  · rename_i free
    cases stepped
    refine ⟨free, ?_, rfl, rfl, rfl⟩
    rw [Tier.upsert, ColdTier.Tier.on_region_eq, settled_idle free]
    funext rid
    by_cases here : rid = region_id_of entry.fp
    · rw [here]
      simp only [Replay.settled, Function.update_self]
    · simp only [Replay.settled, Function.update_of_ne here]
  · cases stepped

theorem settled_access {rid : Nat} (stepped : replay.step geo (.access rid) = some next) :
    next.settled = replay.settled ∧ next.workers = replay.workers ∧
      ∃ upsert rest, replay.upserts rid = some upsert ∧
        next.upserts = Function.update replay.upserts rid (some { upsert with code := rest }) ∧
        rest.run memSem (next.tier rid) = upsert.code.run memSem (replay.tier rid) ∧
        rest.steps memSem (next.tier rid) + 1 = upsert.code.steps memSem (replay.tier rid) ∧
        ∀ other, other ≠ rid → next.tier other = replay.tier other := by
  simp only [Replay.step, Option.bind_eq_bind, Option.bind_eq_some_iff] at stepped
  obtain ⟨upsert, busy, ⟨rest, mem⟩, advanced, same⟩ := stepped
  cases same
  obtain ⟨ran, shorter⟩ := Prog.advance_run advanced
  refine ⟨?_, rfl, upsert, rest, busy, rfl, ?_, ?_, ?_⟩
  · funext other
    by_cases here : other = rid
    · rw [here]
      simp only [Replay.settled, Function.update_self, busy]
      rw [ran]
    · simp only [Replay.settled, Function.update_of_ne here]
  · simp only [Function.update_self]
    exact ran
  · simp only [Function.update_self]
    exact shorter
  · intro other different
    exact Function.update_of_ne different _ _

theorem settled_unlock {rid : Nat} (stepped : replay.step geo (.unlock rid) = some next) :
    next.settled = replay.settled ∧ next.tier = replay.tier ∧
      ∃ t, replay.upserts rid = some ⟨t, .ret (some true)⟩ ∧
        next.workers =
          Function.update replay.workers t { replay.workers t with inside := false } ∧
        next.upserts = Function.update replay.upserts rid none := by
  simp only [Replay.step] at stepped
  split at stepped
  · rename_i t returned
    cases stepped
    refine ⟨?_, rfl, t, returned, rfl, rfl⟩
    funext other
    by_cases here : other = rid
    · rw [here]
      simp only [Replay.settled, Function.update_self, returned, Prog.run_ret]
    · simp only [Replay.settled, Function.update_of_ne here]
  · cases stepped

/-! ### Any interleaving -/

def Tail.key_ids (keys : Keys K) (tail : Tail K V) : Finset Nat :=
  (tail.records.map (fun record => keys.key_id_of record.1.1)).toFinset

/-- No key has two live records in the blocks that are scanned. -/
def Tail.LiveOnce (keys : Keys K) (tail : Tail K V) : Prop :=
  ∀ first ∈ tail.records, ∀ second ∈ tail.records,
    keys.key_id_of first.1.1 = keys.key_id_of second.1.1 → first.2 = second.2

structure Replaying (geo : Geometry) (keys : Keys K) (tail : Tail K V) (threads : Nat)
    (start : Tier) (replay : Replay) : Prop where
  sound : Sound geo keys.route replay.settled
  room : Room geo keys.route (tail.key_ids keys) replay.settled
  todo : ∀ t, ∀ entry ∈ (replay.workers t).todo, entry ∈ tail.records.map (entry_of keys)
  mapped : ∀ entry ∈ tail.records.map (entry_of keys),
    (∃ t, entry ∈ (replay.workers t).todo) ∨
      own geo keys.route replay.settled entry.key_id = some entry.off
  others : ∀ key, key ∉ tail.key_ids keys →
    own geo keys.route replay.settled key = own geo keys.route start key
  succeeds : ∀ rid upsert, replay.upserts rid = some upsert →
    (upsert.code.run memSem (replay.tier rid)).1 = some true
  waits : ∀ t, (replay.workers t).inside = true →
    ∃ rid code, replay.upserts rid = some ⟨t, code⟩
  threads : ∀ t, tail.num_threads threads ≤ t → (replay.workers t).todo = []
  regions : ∀ rid upsert, replay.upserts rid = some upsert → rid < ColdTier.kNumRegions

theorem entry_of_member {entry : BulkEntry} (member : entry ∈ tail.records.map (entry_of keys)) :
    entry.fp = keys.route entry.key_id ∧ entry.key_id ∈ tail.key_ids keys := by
  obtain ⟨record, inside, rfl⟩ := List.mem_map.mp member
  constructor
  · rfl
  · rw [Tail.key_ids, List.mem_toFinset]
    exact List.mem_map.mpr ⟨record, inside, rfl⟩

theorem start_replaying (sound : Sound geo keys.route start)
    (room : Room geo keys.route (tail.key_ids keys) start) :
    Replaying geo keys tail threads start (.start keys tail threads start) where
  sound := sound
  room := room
  todo := by
    intro t entry member
    simp only [Replay.start] at member
    split at member
    · rename_i inside
      rw [← tail.workers_eq threads, List.map_flatMap]
      exact List.mem_flatMap.mpr ⟨t, List.mem_range.mpr inside, member⟩
    · cases member
  mapped := by
    intro entry member
    left
    rw [← tail.workers_eq threads, List.map_flatMap] at member
    obtain ⟨t, inside, works⟩ := List.mem_flatMap.mp member
    use t
    simp only [Replay.start, if_pos (List.mem_range.mp inside)]
    exact works
  others := fun _ _ => rfl
  succeeds := fun _ _ impossible => nomatch impossible
  waits := fun _ impossible => nomatch impossible
  threads := by
    intro t beyond
    simp only [Replay.start, if_neg (Nat.not_lt.mpr beyond)]
  regions := fun _ _ impossible => nomatch impossible

namespace Replaying

variable (replaying : Replaying geo keys tail threads start replay)
include replaying

theorem lock {t : Nat} (once : tail.LiveOnce keys)
    (stepped : replay.step geo (.lock t) = some next) :
    Replaying geo keys tail threads start next := by
  obtain ⟨entry, rest, worker⟩ := lock_worker stepped
  obtain ⟨free, settled, workers, upserts, tier⟩ := settled_lock worker stepped
  have listed : entry ∈ tail.records.map (entry_of keys) := by
    apply replaying.todo t
    rw [worker]
    exact List.mem_cons_self
  obtain ⟨routed, member⟩ := entry_of_member listed
  obtain ⟨after, ran, puts, room⟩ :=
    ColdTier.Tier.upsert_room entry.off replaying.sound replaying.room member
  rw [← routed] at ran puts
  have settled_eq : next.settled = after := by
    rw [settled, ran]
  have own_eq : own geo keys.route next.settled =
      Function.update (own geo keys.route replay.settled) entry.key_id (some entry.off) := by
    rw [settled_eq, puts.own replaying.sound]
    · rfl
    · intro other inside
      rw [List.mem_singleton.mp inside]
      exact routed
  have at_t : next.workers t = ⟨rest, true⟩ := by
    rw [workers, Function.update_self]
  have elsewhere : ∀ other, other ≠ t → next.workers other = replay.workers other := by
    intro other different
    rw [workers, Function.update_of_ne different]
  constructor
  · rw [settled_eq]
    exact puts.sound replaying.sound
  · rw [settled_eq]
    exact room
  · intro other candidate inside
    by_cases here : other = t
    · rw [here, at_t] at inside
      apply replaying.todo t
      rw [worker]
      exact List.mem_cons_of_mem _ inside
    · rw [elsewhere other here] at inside
      exact replaying.todo other candidate inside
  · intro candidate inside
    rw [own_eq]
    by_cases same : candidate.key_id = entry.key_id
    · right
      rw [same, Function.update_self]
      obtain ⟨first, first_in, rfl⟩ := List.mem_map.mp inside
      obtain ⟨second, second_in, rfl⟩ := List.mem_map.mp listed
      have one_offset := once first first_in second second_in same
      simp only [entry_of, one_offset]
    · rw [Function.update_of_ne same]
      rcases replaying.mapped candidate inside with ⟨other, waiting⟩ | done
      · left
        by_cases here : other = t
        · use t
          rw [here, worker] at waiting
          rw [at_t]
          rcases List.mem_cons.mp waiting with head | later
          · exact absurd (by rw [head]) same
          · exact later
        · use other
          rw [elsewhere other here]
          exact waiting
      · exact .inr done
  · intro key outside
    have different : key ≠ entry.key_id := by
      rintro rfl
      exact outside member
    rw [own_eq, Function.update_of_ne different]
    exact replaying.others key outside
  · intro rid upsert busy
    rw [upserts] at busy
    rw [tier]
    by_cases here : rid = region_id_of entry.fp
    · rw [here, Function.update_self] at busy
      cases busy
      rw [here, ← settled_idle free]
      rw [Tier.upsert, ColdTier.Tier.on_region_eq] at ran
      exact congrArg Prod.fst ran
    · rw [Function.update_of_ne here] at busy
      exact replaying.succeeds rid upsert busy
  · intro other inside
    rw [upserts]
    by_cases here : other = t
    · use region_id_of entry.fp
      rw [here, Function.update_self]
      exact ⟨_, rfl⟩
    · rw [elsewhere other here] at inside
      obtain ⟨rid, code, busy⟩ := replaying.waits other inside
      use rid, code
      rw [Function.update_of_ne]
      · exact busy
      · rintro rfl
        rw [free] at busy
        cases busy
  · intro other beyond
    by_cases here : other = t
    · have none_left := replaying.threads other beyond
      rw [here, worker] at none_left
      cases none_left
    · rw [elsewhere other here]
      exact replaying.threads other beyond
  · intro rid upsert busy
    rw [upserts] at busy
    by_cases here : rid = region_id_of entry.fp
    · rw [here]
      exact ColdTier.region_id_of_lt _
    · rw [Function.update_of_ne here] at busy
      exact replaying.regions rid upsert busy

theorem access {rid : Nat} (stepped : replay.step geo (.access rid) = some next) :
    Replaying geo keys tail threads start next := by
  obtain ⟨settled, workers, upsert, rest, busy, upserts, ran, -, tier⟩ := settled_access stepped
  constructor
  · rw [settled]
    exact replaying.sound
  · rw [settled]
    exact replaying.room
  · rw [workers]
    exact replaying.todo
  · rw [workers, settled]
    exact replaying.mapped
  · rw [settled]
    exact replaying.others
  · intro other under_way found
    rw [upserts] at found
    by_cases here : other = rid
    · rw [here, Function.update_self] at found
      cases found
      rw [here, ran]
      exact replaying.succeeds rid upsert busy
    · rw [Function.update_of_ne here] at found
      rw [tier other here]
      exact replaying.succeeds other under_way found
  · intro t inside
    rw [workers] at inside
    obtain ⟨other, code, found⟩ := replaying.waits t inside
    rw [upserts]
    by_cases here : other = rid
    · rw [here, busy] at found
      cases found
      use rid, rest
      rw [Function.update_self]
    · use other, code
      rw [Function.update_of_ne here]
      exact found
  · rw [workers]
    exact replaying.threads
  · intro other under_way found
    rw [upserts] at found
    by_cases here : other = rid
    · rw [here]
      exact replaying.regions rid upsert busy
    · rw [Function.update_of_ne here] at found
      exact replaying.regions other under_way found

theorem unlock {rid : Nat} (stepped : replay.step geo (.unlock rid) = some next) :
    Replaying geo keys tail threads start next := by
  obtain ⟨settled, tier, t, returned, workers, upserts⟩ := settled_unlock stepped
  have todo : ∀ other, (next.workers other).todo = (replay.workers other).todo := by
    intro other
    rw [workers]
    by_cases here : other = t
    · rw [here, Function.update_self]
    · rw [Function.update_of_ne here]
  have kept : ∀ other upsert, next.upserts other = some upsert →
      replay.upserts other = some upsert := by
    intro other upsert found
    rw [upserts] at found
    by_cases here : other = rid
    · rw [here, Function.update_self] at found
      cases found
    · rw [Function.update_of_ne here] at found
      exact found
  constructor
  · rw [settled]
    exact replaying.sound
  · rw [settled]
    exact replaying.room
  · intro other
    rw [todo]
    exact replaying.todo other
  · intro entry member
    rw [settled]
    simp only [todo]
    exact replaying.mapped entry member
  · rw [settled]
    exact replaying.others
  · intro other upsert found
    rw [tier]
    exact replaying.succeeds other upsert (kept other upsert found)
  · intro other inside
    rw [workers] at inside
    by_cases here : other = t
    · rw [here, Function.update_self] at inside
      cases inside
    · rw [Function.update_of_ne here] at inside
      obtain ⟨region, code, found⟩ := replaying.waits other inside
      use region, code
      rw [upserts, Function.update_of_ne]
      · exact found
      · rintro rfl
        rw [returned] at found
        cases found
        exact here rfl
  · intro other beyond
    rw [todo]
    exact replaying.threads other beyond
  · intro other upsert found
    exact replaying.regions other upsert (kept other upsert found)

theorem step {action : Action} (once : tail.LiveOnce keys)
    (stepped : replay.step geo action = some next) :
    Replaying geo keys tail threads start next := by
  cases action with
  | lock t => exact replaying.lock once stepped
  | access rid => exact replaying.access stepped
  | unlock rid => exact replaying.unlock stepped

/-- Until the workers have joined one of them can go on: none has aborted and
none waits for ever. -/
theorem progress (unfinished : ¬replay.finished) :
    ∃ action next, replay.step geo action = some next := by
  by_cases idle : ∀ rid, replay.upserts rid = none
  · have working : ∃ t, replay.workers t ≠ ⟨[], false⟩ := by
      by_contra joined
      simp only [ne_eq, not_exists, not_not] at joined
      exact unfinished ⟨joined, idle⟩
    obtain ⟨t, busy⟩ := working
    cases worker : replay.workers t with
    | mk todo inside =>
        cases inside with
        | true =>
            obtain ⟨rid, code, found⟩ := replaying.waits t (by rw [worker])
            rw [idle rid] at found
            cases found
        | false =>
            cases todo with
            | nil => exact absurd worker busy
            | cons entry rest =>
                use .lock t
                simp only [Replay.step, worker, idle]
                exact ⟨_, rfl⟩
  · simp only [not_forall] at idle
    obtain ⟨rid, busy⟩ := idle
    obtain ⟨upsert, found⟩ := Option.ne_none_iff_exists'.mp busy
    have returns := replaying.succeeds rid upsert found
    obtain ⟨t, code⟩ := upsert
    cases code with
    | ret answer =>
        use .unlock rid
        obtain rfl : answer = some true := returns
        simp only [Replay.step, found]
        exact ⟨_, rfl⟩
    | op instr rest =>
        use .access rid
        simp only [Replay.step, found]
        exact ⟨_, rfl⟩

end Replaying

theorem replaying_of_reachable (sound : Sound geo keys.route start)
    (room : Room geo keys.route (tail.key_ids keys) start) (once : tail.LiveOnce keys)
    (reached : (recover_tail_into_cold geo keys tail threads start).Reachable replay) :
    Replaying geo keys tail threads start replay := by
  apply reached.invariant
  · rintro _ rfl
    exact start_replaying sound room
  · intro state action after replaying _ stepped
    exact replaying.step once stepped

/-! ### The end of a replay -/

def Replay.remaining (workers : Nat) (replay : Replay) : Nat × Nat :=
  (∑ t ∈ Finset.range workers, (replay.workers t).todo.length,
    ∑ rid ∈ Finset.range ColdTier.kNumRegions, replay.ahead rid)

def Shorter : Nat × Nat → Nat × Nat → Prop := Prod.Lex (· < ·) (· < ·)

theorem sum_decreases {size at_ : Nat} {first second : Nat → Nat} (inside : at_ < size)
    (less : second at_ + 1 = first at_) (same : ∀ i, i ≠ at_ → second i = first i) :
    ∑ i ∈ Finset.range size, second i < ∑ i ∈ Finset.range size, first i := by
  apply Finset.sum_lt_sum
  · intro i _
    by_cases here : i = at_
    · rw [here]
      omega
    · rw [same i here]
  · exact ⟨at_, Finset.mem_range.mpr inside, by omega⟩

theorem ahead_congr {rid : Nat} (upserts : next.upserts rid = replay.upserts rid)
    (tier : next.tier rid = replay.tier rid) : next.ahead rid = replay.ahead rid := by
  simp only [Replay.ahead, upserts, tier]

theorem Replaying.shorter {action : Action}
    (replaying : Replaying geo keys tail threads start replay)
    (stepped : replay.step geo action = some next) :
    Shorter (next.remaining (tail.num_threads threads))
      (replay.remaining (tail.num_threads threads)) := by
  cases action with
  | lock t =>
      obtain ⟨entry, rest, worker⟩ := lock_worker stepped
      obtain ⟨-, -, workers, -, -⟩ := settled_lock worker stepped
      have inside : t < tail.num_threads threads := by
        by_contra beyond
        have none_left := replaying.threads t (Nat.le_of_not_lt beyond)
        rw [worker] at none_left
        cases none_left
      apply Prod.Lex.left
      apply sum_decreases inside
      · rw [workers, Function.update_self, worker]
        rfl
      · intro other different
        rw [workers, Function.update_of_ne different]
  | access rid =>
      obtain ⟨-, workers, upsert, rest, busy, upserts, -, shorter, tier⟩ := settled_access stepped
      unfold Shorter Replay.remaining
      rw [workers]
      apply Prod.Lex.right
      apply sum_decreases (replaying.regions rid upsert busy)
      · simp only [Replay.ahead, upserts, busy, Function.update_self]
        omega
      · intro other different
        apply ahead_congr _ (tier other different)
        rw [upserts, Function.update_of_ne different]
  | unlock rid =>
      obtain ⟨-, tier, t, returned, workers, upserts⟩ := settled_unlock stepped
      have todo : ∀ other, (next.workers other).todo = (replay.workers other).todo := by
        intro other
        rw [workers]
        by_cases here : other = t
        · rw [here, Function.update_self]
        · rw [Function.update_of_ne here]
      unfold Shorter Replay.remaining
      simp only [todo]
      apply Prod.Lex.right
      apply sum_decreases (replaying.regions rid _ returned)
      · simp only [Replay.ahead, upserts, returned, Function.update_self]
        rfl
      · intro other different
        apply ahead_congr
        · rw [upserts, Function.update_of_ne different]
        · rw [tier]

/-- No replay goes on for ever. -/
theorem replay_ends (sound : Sound geo keys.route start)
    (room : Room geo keys.route (tail.key_ids keys) start) (once : tail.LiveOnce keys)
    {run : Nat → Replay}
    (first : (recover_tail_into_cold geo keys tail threads start).Reachable (run 0)) :
    ¬∀ n, ∃ action, (run n).step geo action = some (run (n + 1)) := by
  intro forever
  have reached : ∀ n, (recover_tail_into_cold geo keys tail threads start).Reachable (run n) := by
    intro n
    induction n with
    | zero => exact first
    | succ n ih =>
        obtain ⟨action, stepped⟩ := forever n
        exact .move ih trivial stepped
  have founded : WellFounded Shorter := (Prod.lex Nat.lt_wfRel Nat.lt_wfRel).wf
  have chains := wellFounded_iff_isEmpty_descending_chain.mp founded
  apply chains.false
  use fun n => (run n).remaining (tail.num_threads threads)
  intro n
  obtain ⟨action, stepped⟩ := forever n
  exact (replaying_of_reachable sound room once (reached n)).shorter stepped

theorem settled_finished (finished : replay.finished) : replay.settled = replay.tier := by
  funext rid
  exact settled_idle (finished.2 rid)

/-- The tier has the records of the tail, and the other keys as before. -/
structure Replayed (geo : Geometry) (keys : Keys K) (tail : Tail K V) (start last : Tier) :
    Prop where
  mapped : ∀ record ∈ tail.records,
    last.lookup geo (keys.key_fingerprint64 record.1.1) (keys.key_id_of record.1.1) =
      some (some record.2.offset)
  others : ∀ key, (∀ record ∈ tail.records,
      keys.key_id_of record.1.1 ≠ keys.key_id_of key) →
    last.lookup geo (keys.key_fingerprint64 key) (keys.key_id_of key) =
      start.lookup geo (keys.key_fingerprint64 key) (keys.key_id_of key)

theorem Replaying.replayed (replaying : Replaying geo keys tail threads start replay)
    (sound : Sound geo keys.route start) (finished : replay.finished) :
    Replayed geo keys tail start replay.tier := by
  have settled_eq := settled_finished finished
  have sound_last := replaying.sound
  rw [settled_eq] at sound_last
  constructor
  · intro record member
    rw [keys.key_fingerprint64_eq, ColdTier.lookup_own sound_last]
    rcases replaying.mapped _ (List.mem_map_of_mem member) with ⟨t, waiting⟩ | done
    · rw [finished.1 t] at waiting
      cases waiting
    · rw [settled_eq] at done
      have live : record.2.offset ≠ ColdTier.kTombstoneOffset := by
        intro gone
        apply Viper.Records.visited_ne_tombstone member
        exact congrArg KVOffset.mk gone
      rw [show own geo keys.route replay.tier (keys.key_id_of record.1.1) =
        some record.2.offset from done]
      simp [ColdTier.decode, Option.filter_some, live]
  · intro key outside
    rw [keys.key_fingerprint64_eq, ColdTier.lookup_own sound_last, ColdTier.lookup_own sound,
      ← settled_eq, replaying.others]
    rw [Tail.key_ids, List.mem_toFinset, List.mem_map]
    rintro ⟨record, member, same⟩
    exact outside record member same

/-! ### A second replay -/

/-- A replay of what the tier has already. -/
theorem settled_again (sound : Sound geo keys.route start)
    (there : ∀ entry ∈ tail.records.map (entry_of keys),
      own geo keys.route start entry.key_id = some entry.off)
    (room : Room geo keys.route (tail.key_ids keys) start) (once : tail.LiveOnce keys)
    (reached : (recover_tail_into_cold geo keys tail threads start).Reachable replay) :
    replay.settled = start := by
  apply reached.invariant_reached
  · rintro _ rfl
    rfl
  · intro state action after before same _ moved
    have stepped : state.step geo action = some after := moved
    cases action with
    | access rid => exact (settled_access stepped).1.trans same
    | unlock rid => exact (settled_unlock stepped).1.trans same
    | lock t =>
        obtain ⟨entry, rest, worker⟩ := lock_worker stepped
        have listed : entry ∈ tail.records.map (entry_of keys) := by
          apply (replaying_of_reachable sound room once before).todo t
          rw [worker]
          exact List.mem_cons_self
        have again := ColdTier.Tier.upsert_again sound (there entry listed)
        rw [← (entry_of_member listed).1] at again
        rw [(settled_lock worker stepped).2.1, same, again]

structure Recovers (geo : Geometry) (keys : Keys K) (tail : Tail K V) (threads : Nat)
    (start : Tier) (post : Tier → Prop) : Prop where
  goes_on : ∀ replay, (recover_tail_into_cold geo keys tail threads start).Reachable replay →
    ¬replay.finished → ∃ action next, replay.step geo action = some next
  ends : ∀ run : Nat → Replay,
    (recover_tail_into_cold geo keys tail threads start).Reachable (run 0) →
      ¬∀ n, ∃ action, (run n).step geo action = some (run (n + 1))
  post : ∀ replay, (recover_tail_into_cold geo keys tail threads start).Reachable replay →
    replay.finished → post replay.tier

theorem recovers (sound : Sound geo keys.route start)
    (room : Room geo keys.route (tail.key_ids keys) start) (once : tail.LiveOnce keys)
    {post : Tier → Prop}
    (holds : ∀ replay, (recover_tail_into_cold geo keys tail threads start).Reachable replay →
      replay.finished → post replay.tier) :
    Recovers geo keys tail threads start post where
  goes_on := fun _ reached => (replaying_of_reachable sound room once reached).progress
  ends := fun _ first => replay_ends sound room once first
  post := holds

/-- Whatever the threads and their interleaving, a replay ends with the records
of the tail in the tier, and a second one then changes no word of it. -/
theorem tail_replay (sound : Sound geo keys.route start)
    (room : Room geo keys.route (tail.key_ids keys) start) (once : tail.LiveOnce keys) :
    (∀ record off, (record, off) ∈ tail.records ↔ tail.Live record off ∧
      frontier_block tail.checkpoint - 1 ≤ off.block_number ∧
      off.block_number < tail.vpage_frontier.block_number) ∧
    ∀ threads, Recovers geo keys tail threads start (fun last =>
      Replayed geo keys tail start last ∧
        ∀ threads, Recovers geo keys tail threads last (fun second => second = last)) := by
  refine ⟨fun _ _ => tail.mem_records, ?_⟩
  intro threads
  apply recovers sound room once
  intro replay reached finished
  have replaying := replaying_of_reachable sound room once reached
  constructor
  · exact replaying.replayed sound finished
  · have settled_eq := settled_finished finished
    have sound_last := replaying.sound
    have room_last := replaying.room
    rw [settled_eq] at sound_last room_last
    have there : ∀ entry ∈ tail.records.map (entry_of keys),
        own geo keys.route replay.tier entry.key_id = some entry.off := by
      intro entry member
      rw [← settled_eq]
      apply (replaying.mapped entry member).resolve_left
      rintro ⟨t, waiting⟩
      rw [finished.1 t] at waiting
      cases waiting
    intro again
    apply recovers sound_last room_last once
    intro second reached_again finished_again
    rw [← settled_finished finished_again]
    exact settled_again sound_last there room_last once reached_again

/-- Five blocks with a record each, of which the frontier leaves the last three
to the replay. -/
def five_blocks : Tail Nat Nat where
  layout := ⟨6, 2, by decide, by decide, by decide, by decide⟩
  v_blocks := (List.range 5).map fun bn => some fun pn =>
    ⟨if pn = 0 then Viper.USED_BIT else 0#8, fun sn => sn != 0, fun _ => (bn, 9)⟩
  checkpoint := some ⟨Checkpoint.kMagic, 1, 1, 3, 1, (kProtoDurableFrontier, 0), 0⟩
  vpage_frontier := .of_parts 5 0 0

/-- Each of three workers has a record of its own. -/
theorem tail_replay_three_workers :
    (List.range 3).map (fun t => (five_blocks.worker 3 t).map Prod.fst) = [[(2, 9)], [(3, 9)], [(4, 9)]] ∧
    five_blocks.Live (1, 9) (.of_parts 1 0 0) ∧
    ((1, 9), .of_parts 1 0 0) ∉ five_blocks.records ∧
    Recovers (Geometry.create 1 1) ⟨id, id⟩ five_blocks 3 Tier.create (fun last =>
      Replayed (Geometry.create 1 1) ⟨id, id⟩ five_blocks Tier.create last ∧
        ∀ threads, Recovers (Geometry.create 1 1) ⟨id, id⟩ five_blocks threads last
          (fun second => second = last)) := by
  have sound : Sound (Geometry.create 1 1) (Keys.route ⟨id, id⟩ : Nat → Nat) Tier.create :=
    fun _ => ColdTier.created_intact _ _
  have few : (five_blocks.key_ids ⟨id, id⟩).card ≤ ColdTier.kEntriesPerBucket := by decide +kernel
  have once : five_blocks.LiveOnce ⟨id, id⟩ := by
    unfold Tail.LiveOnce
    decide +kernel
  have shares : (List.range 3).map (fun t => (five_blocks.worker 3 t).map Prod.fst) =
      [[(2, 9)], [(3, 9)], [(4, 9)]] := by
    decide +kernel
  have live : five_blocks.Live (1, 9) (.of_parts 1 0 0) :=
    ⟨by decide, by decide, by decide, _, rfl, by decide, by decide, rfl⟩
  obtain ⟨members, replays⟩ := tail_replay sound (ColdTier.created_room few) once
  refine ⟨shares, live, ?_, replays 3⟩
  rw [members]
  rintro ⟨-, above, -⟩
  exact absurd above (by decide)

end Hiom.Recovery
