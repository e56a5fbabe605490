import Hiom.Lib.Machine
import Hiom.Cold.Crash

/-!
Runs of calls and power failures on one pool file. `open` maps the file and
takes every word as it finds it, the allocation counters too, although nothing
ever flushed these. A failure that keeps a link and loses the counter behind it
lets the next extension hand out a bucket that is in use; every other failure
is harmless.
-/

namespace Hiom.ColdTier

def Pool.opened (tier : Tier) : Pool := fun rid => Pmem.settled (tier rid)

/-- The pool file and what each key is to be looked up as. After a failure that
is what the failure left of the keys in work. -/
structure Store where
  pool : Pool
  last : Nat → Option (Option Nat)

inductive Move where
  | call (made : Call)
  | fail (made : Call) (count : Nat) (choice : Nat → Word → Nat)

def Call.keys : Call → List Nat
  | .upsert key _ => [key]
  | .bulk_upsert entries _ => entries.map BulkEntry.key_id
  | .remove key => [key]

def Call.Asks : Call → Nat → Option Nat → Prop
  | .upsert key off, asked, result => asked = key ∧ result = some off
  | .bulk_upsert entries _, asked, result =>
      ∃ entry ∈ entries, entry.key_id = asked ∧ result = some entry.off
  | .remove key, asked, result => asked = key ∧ result = none

def Store.image (geo : Geometry) (route : Nat → Nat) (store : Store) (made : Call) (count : Nat)
    (choice : Nat → Word → Nat) : Tier :=
  fun rid => (Prog.after (poolSem geo) count (made.code geo route) store.pool rid).image
    (choice rid)

def Store.move (geo : Geometry) (route : Nat → Nat) (store : Store) : Move → Option Store
  | .call made =>
      if made.Valid geo route then
        match (made.code geo route).run (poolSem geo) store.pool with
        | (some answer, pool) => some ⟨pool, made.told geo route store.last answer⟩
        | (none, _) => none
      else none
  | .fail made count choice =>
      if made.Valid geo route then
        some ⟨Pool.opened (store.image geo route made count choice), fun key =>
          if key ∈ made.keys then
            some ((store.image geo route made count choice).lookup geo (route key) key).join
          else store.last key⟩
      else none

def Store.create : Store := ⟨Pool.opened Tier.create, fun _ => none⟩

def powered (geo : Geometry) (route : Nat → Nat) : Machine Store Move where
  initial := fun store => store = Store.create
  step := Store.move geo route

/-- No region loses its allocation counter to a failure while a bucket that
was handed out under it keeps its header or a link to it. -/
def CounterSurvives (geo : Geometry) (route : Nat → Nat) (store : Store) : Move → Prop
  | .call _ => True
  | .fail made count choice =>
      ∀ rid, Allocated geo (store.image geo route made count choice rid)

variable {geo : Geometry} {route : Nat → Nat} {tier last : Tier} {pool : Pool} {store : Store}

/-! ### Each key on its own chain -/

def own (geo : Geometry) (route : Nat → Nat) (tier : Tier) (key : Nat) : Option Nat :=
  entry geo (tier (region_id_of (route key))) (bucket_id_of geo (route key)) key

theorem Puts.own {entries : List BulkEntry} (puts : Puts geo route entries tier last)
    (sound : Sound geo route tier) (routed : ∀ entry ∈ entries, entry.fp = route entry.key_id) :
    own geo route last = entries.foldl write_word (own geo route tier) := by
  induction puts with
  | nil => rfl
  | @cons head rest tier last mem slot placed settled intact later ih =>
      rw [List.foldl_cons, ih (sound.update _ intact)
        (fun entry member => routed entry (List.mem_cons_of_mem _ member))]
      congr 1
      have route_head := routed head List.mem_cons_self
      have main := bucket_id_of_lt geo head.fp
      funext key
      rw [ColdTier.own, write_word]
      by_cases here : region_id_of (route key) = region_id_of head.fp
      · rw [here, Function.update_self, placed.entry (sound _).toShape main
          (by rw [route_head]) (bucket_id_of_lt geo (route key))]
        by_cases same : key = head.key_id
        · subst same
          rw [Function.update_self, ← route_head]
          simp
        · rw [Function.update_of_ne same, if_neg (fun both => same both.2), ColdTier.own, here]
      · rw [Function.update_of_ne here]
        have different : key ≠ head.key_id := fun same => here (by rw [same, ← route_head])
        rw [Function.update_of_ne different, ColdTier.own]

def decode (word : Option Nat) : Option Nat := word.filter (· ≠ kTombstoneOffset)

theorem decode_told {told : Option (Option Nat)} (live : told ≠ some (some kTombstoneOffset)) :
    decode (told.map word_of) = told.join := by
  rcases told with _ | _ | off
  · rfl
  · simp [decode, word_of, Option.filter_some]
  · have different : off ≠ kTombstoneOffset := fun same => live (by rw [same])
    simp [decode, word_of, Option.filter_some, different]

/-- What is looked up after some writes depends on what was looked up before. -/
theorem decode_fold {entries : List BulkEntry} {first second : Nat → Option Nat}
    (same : ∀ key, decode (first key) = decode (second key)) (key : Nat) :
    decode (entries.foldl write_word first key) =
      decode (entries.foldl write_word second key) := by
  induction entries generalizing first second with
  | nil => exact same key
  | cons entry rest ih =>
      refine ih (fun other => ?_)
      by_cases here : other = entry.key_id
      · rw [write_word, write_word, here, Function.update_self, Function.update_self]
      · rw [write_word, write_word, Function.update_of_ne here, Function.update_of_ne here]
        exact same other

theorem lookup_own (sound : Sound geo route tier) (key : Nat) :
    tier.lookup geo (route key) key = some (decode (own geo route tier key)) :=
  Tier.lookup_eq sound key

/-! ### The invariant -/

structure Kept (geo : Geometry) (route : Nat → Nat) (store : Store) : Prop extends
    Ready geo route store.pool where
  agrees : ∀ key, decode (own geo route store.pool.now key) = (store.last key).join
  offsets : ∀ key, store.last key ≠ some (some kTombstoneOffset)

theorem opened_quiet (tier : Tier) (rid : Nat) : Quiet (Pool.opened tier rid) :=
  fun word _ => Pmem.settled_clean (tier rid) word

theorem created_kept (geo : Geometry) (route : Nat → Nat) : Kept geo route Store.create where
  quiet := opened_quiet _
  sound := fun _ => created_intact geo _
  agrees := by
    intro key
    exact congrArg decode ((created_represents geo route).entry_eq key)
  offsets := fun key told => by cases told

theorem decode_some {word : Nat} : decode (some word) ≠ some kTombstoneOffset := by
  rw [decode, Option.filter_some]
  split
  · rename_i live
    intro same
    exact of_decide_eq_true live (Option.some.inj same)
  · simp

theorem decode_live (word : Option Nat) : decode word ≠ some kTombstoneOffset := by
  cases word with
  | none => simp [decode]
  | some word => exact decode_some

theorem Call.Pairs.touched {made : Call} {key word : Nat} (pairs : made.Pairs key word) :
    key ∈ made.keys := by
  cases made with
  | upsert => exact List.mem_singleton.mpr pairs.1
  | bulk_upsert entries sorted =>
      obtain ⟨entry, member, same, -⟩ := pairs
      exact List.mem_map.mpr ⟨entry, member, same⟩
  | remove => exact List.mem_singleton.mpr pairs.1

theorem Call.Pairs.asks {made : Call} {key word : Nat} (pairs : made.Pairs key word)
    (valid : made.Valid geo route) : made.Asks key (decode (some word)) := by
  have live : ∀ {off}, off ≠ kTombstoneOffset → decode (some off) = some off :=
    fun different => by simp [decode, Option.filter_some, different]
  cases made with
  | upsert =>
      obtain ⟨same, rfl⟩ := pairs
      exact ⟨same, live valid⟩
  | bulk_upsert entries sorted =>
      obtain ⟨entry, member, same, rfl⟩ := pairs
      exact ⟨entry, member, same, live (BulkCall.offsets valid entry member)⟩
  | remove =>
      obtain ⟨same, rfl⟩ := pairs
      exact ⟨same, by simp [decode, Option.filter_some]⟩

theorem fold_asked {pairs : Nat → Nat → Prop} {entries : List BulkEntry}
    (asked : ∀ entry ∈ entries, pairs entry.key_id entry.off) (words : Nat → Option Nat)
    (key : Nat) :
    entries.foldl write_word words key = words key ∨
      ∃ off, pairs key off ∧ entries.foldl write_word words key = some off := by
  induction entries generalizing words with
  | nil => exact .inl rfl
  | cons entry rest ih =>
      rw [List.foldl_cons]
      have later := ih (fun other member => asked other (List.mem_cons_of_mem _ member))
        (write_word words entry)
      by_cases same : key = entry.key_id
      · subst same
        refine .inr (later.elim (fun kept => ?_) id)
        rw [kept, write_word, Function.update_self]
        exact ⟨entry.off, asked entry List.mem_cons_self, rfl⟩
      · refine later.imp_left (fun kept => ?_)
        rw [kept, write_word, Function.update_of_ne same]

/-- What a failure leaves if the counters survive. -/
theorem Left.image {pairs : Nat → Nat → Prop} {image : Tier}
    (left : Left geo route pairs tier image) (sound : Sound geo route tier)
    (counters : ∀ rid, Allocated geo (image rid)) :
    Sound geo route image ∧ ∀ key, own geo route image key = own geo route tier key ∨
      ∃ off, pairs key off ∧ own geo route image key = some off := by
  obtain ⟨entries, middle, asked, survives⟩ := left
  have sound_middle := asked.puts.sound sound
  constructor
  · intro rid
    obtain ⟨last, survived, intact, -⟩ := survives rid
    exact ⟨intact.toShape.of_grows survived.below, counters rid⟩
  · intro key
    obtain ⟨last, survived, intact, old⟩ := survives (region_id_of (route key))
    rcases survived.entry (sound_middle _).toShape intact.toShape old
      (bucket_id_of_lt geo (route key)) key with kept | placed
    · rw [ColdTier.own, kept]
      change own geo route middle key = _ ∨ ∃ off, _ ∧ own geo route middle key = some off
      rw [asked.puts.own sound asked.routed]
      exact fold_asked asked.pairs _ key
    · exact .inr placed

theorem Kept.fail {made : Call} {count : Nat} {choice : Nat → Word → Nat}
    (kept : Kept geo route store) (valid : made.Valid geo route)
    (counters : ∀ rid, Allocated geo (store.image geo route made count choice rid)) :
    Sound geo route (store.image geo route made count choice) ∧
      ∀ key, own geo route (store.image geo route made count choice) key =
          own geo route store.pool.now key ∨
        ∃ off, made.Pairs key off ∧
          own geo route (store.image geo route made count choice) key = some off :=
  ((Call.recovers valid kept.toReady).left count choice).image kept.sound counters

theorem Kept.call {made : Call} (kept : Kept geo route store) (valid : made.Valid geo route) :
    ∃ answer, ((made.code geo route).run (poolSem geo) store.pool).1 = some answer ∧
      Kept geo route ⟨((made.code geo route).run (poolSem geo) store.pool).2,
        made.told geo route store.last answer⟩ := by
  have recovers := Call.recovers valid kept.toReady
  obtain ⟨answer, entries, answered, puts, routed, words, offsets⟩ :=
    Call.outcome valid kept.sound store.last
  have projected := (poolSem_projects geo).run (made.code geo route) store.pool
  refine ⟨answer, projected.1.trans answered, recovers.ready, fun key => ?_,
    offsets kept.offsets⟩
  have agrees : ∀ other, decode (own geo route store.pool.now other) =
      decode ((store.last other).map word_of) :=
    fun other => (kept.agrees other).trans (decode_told (kept.offsets other)).symm
  rw [← decode_told (offsets kept.offsets key), projected.2, puts.own kept.sound routed,
    decode_fold agrees, ← words]

theorem kept_step {move : Move} {next : Store} (kept : Kept geo route store)
    (counters : CounterSurvives geo route store move)
    (stepped : store.move geo route move = some next) : Kept geo route next := by
  cases move with
  | call made =>
      simp only [Store.move] at stepped
      split at stepped
      · rename_i valid
        obtain ⟨answer, answered, kept⟩ := kept.call valid
        revert stepped answered kept
        generalize (made.code geo route).run (poolSem geo) store.pool = outcome
        obtain ⟨told, pool⟩ := outcome
        rintro stepped rfl kept
        cases stepped
        exact kept
      · cases stepped
  | fail made count choice =>
      simp only [Store.move] at stepped
      split at stepped
      · rename_i valid
        obtain ⟨sound, left⟩ := kept.fail valid counters
        cases stepped
        refine ⟨⟨opened_quiet _, sound⟩, fun key => ?_, fun key => ?_⟩
        · change decode (own geo route (store.image geo route made count choice) key) =
            Option.join (if _ then _ else _)
          split
          · rw [lookup_own sound]
            rfl
          · rename_i untouched
            rw [← kept.agrees key]
            rcases left key with same | ⟨off, asked, -⟩
            · rw [same]
            · exact absurd asked.touched untouched
        · dsimp only
          split
          · rw [lookup_own sound]
            intro same
            exact decode_live _ (Option.some.inj same)
          · exact kept.offsets key
      · cases stepped

/-! ### Crash consistency -/

structure CrashConsistent (geo : Geometry) (route : Nat → Nat) (store : Store) : Prop where
  lookup : ∀ key, store.pool.now.lookup geo (route key) key = some (store.last key).join
  scan : ∀ num_threads, none ∉ store.pool.now.parallel_load geo num_threads
  acyclic : ∀ rid bid, bid < geo.main_buckets_per_region →
    Ends geo (store.pool.now rid) geo.budget bid ∧ (chain geo (store.pool.now rid) bid).Nodup
  disjoint : ∀ rid first second, first < geo.main_buckets_per_region →
    second < geo.main_buckets_per_region → first ≠ second →
      List.Disjoint (chain geo (store.pool.now rid) first) (chain geo (store.pool.now rid) second)
  returns : ∀ made : Call, made.Valid geo route →
    ∃ next, store.move geo route (.call made) = some next
  interrupted : ∀ made count choice next,
    store.move geo route (.fail made count choice) = some next →
      CounterSurvives geo route store (.fail made count choice) → ∀ key,
        (next.last key).join = (store.last key).join ∨ made.Asks key (next.last key).join

theorem Kept.interrupted {made : Call} {count : Nat} {choice : Nat → Word → Nat} {next : Store}
    (kept : Kept geo route store)
    (stepped : store.move geo route (.fail made count choice) = some next)
    (counters : CounterSurvives geo route store (.fail made count choice)) (key : Nat) :
    (next.last key).join = (store.last key).join ∨ made.Asks key (next.last key).join := by
  have after := kept_step kept counters stepped
  simp only [Store.move] at stepped
  split at stepped
  · rename_i valid
    obtain ⟨-, left⟩ := kept.fail valid counters
    cases stepped
    rw [← after.agrees key, ← kept.agrees key]
    change decode (own geo route (store.image geo route made count choice) key) = _ ∨
      made.Asks key (decode (own geo route (store.image geo route made count choice) key))
    rcases left key with same | ⟨off, asked, same⟩
    · rw [same]
      exact .inl rfl
    · rw [same]
      exact .inr (asked.asks valid)
  · cases stepped

theorem reach_kept (reached : (powered geo route).Reach (CounterSurvives geo route) store) :
    Kept geo route store := by
  refine reached.invariant ?_ ?_
  · rintro _ rfl
    exact created_kept geo route
  · intro state move next kept counters stepped
    exact kept_step kept counters stepped

/-! ### Concrete failures -/

/-- The links and the counter of the allocator are as they were. -/
def Access.plain : Access → Bool
  | .store word _ | .fetch_add word _ | .fetch_sub word _ | .fetch_or word _ =>
      match word with
      | .header _ | .next_overflow_alloc => false
      | _ => true
  | .load _ | .flush _ | .fence => true

def plain_until (geo : Geometry) {α : Type} : Nat → TierCode α → Pool → Bool
  | 0, _, _ => true
  | _ + 1, .ret _, _ => true
  | count + 1, .op access next, pool =>
      access.2.plain && plain_until geo count (next (poolSem geo access pool).1)
        (poolSem geo access pool).2

structure Unlinked (start pool : Pool) : Prop where
  header : ∀ rid bucket, (pool rid).now (.header bucket) = (start rid).now (.header bucket) ∧
    (pool rid).Clean (.header bucket)
  counter : ∀ rid, (pool rid).now .next_overflow_alloc = (start rid).now .next_overflow_alloc

theorem Unlinked.access {start pool : Pool} {access : Nat × Access} (unlinked : Unlinked start pool)
    (plain : access.2.plain = true) : Unlinked start (poolSem geo access pool).2 := by
  obtain ⟨rid, access⟩ := access
  have elsewhere : ∀ other, other ≠ rid → (poolSem geo (rid, access) pool).2 other = pool other :=
    fun other different => Function.update_of_ne different _ _
  have here : (poolSem geo (rid, access) pool).2 rid = (pmemSem geo rid access (pool rid)).2 :=
    Function.update_self ..
  have stored : ∀ (word : Word) (value : Nat),
      (∀ bucket, Word.header bucket ≠ word) → .next_overflow_alloc ≠ word →
      (∀ bucket, ((pool rid).store word value).now (.header bucket) = (pool rid).now (.header bucket) ∧
        ((pool rid).store word value).Clean (.header bucket)) ∧
      ((pool rid).store word value).now .next_overflow_alloc = (pool rid).now .next_overflow_alloc := by
    intro word value no_header no_counter
    constructor
    · intro bucket
      exact ⟨if_neg (no_header bucket), (unlinked.header rid bucket).2.store value (no_header bucket)⟩
    · exact if_neg no_counter
  have kept : (∀ bucket, (pmemSem geo rid access (pool rid)).2.now (.header bucket) =
        (pool rid).now (.header bucket) ∧
        (pmemSem geo rid access (pool rid)).2.Clean (.header bucket)) ∧
      (pmemSem geo rid access (pool rid)).2.now .next_overflow_alloc =
        (pool rid).now .next_overflow_alloc := by
    cases access with
    | load word => exact ⟨fun bucket => ⟨rfl, (unlinked.header rid bucket).2⟩, rfl⟩
    | flush words => exact ⟨fun bucket => ⟨rfl, (unlinked.header rid bucket).2.flush words⟩, rfl⟩
    | fence => exact ⟨fun bucket => ⟨rfl, (unlinked.header rid bucket).2.fence⟩, rfl⟩
    | store word | fetch_add word | fetch_sub word | fetch_or word =>
        apply stored word
        · rintro bucket rfl
          cases plain
        · rintro rfl
          cases plain
  constructor
  · intro other bucket
    by_cases same : other = rid
    · rw [same, here]
      exact ⟨(kept.1 bucket).1.trans (unlinked.header rid bucket).1, (kept.1 bucket).2⟩
    · rw [elsewhere other same]
      exact unlinked.header other bucket
  · intro other
    by_cases same : other = rid
    · rw [same, here]
      exact kept.2.trans (unlinked.counter rid)
    · rw [elsewhere other same]
      exact unlinked.counter other

theorem Unlinked.after {α : Type} {start pool : Pool} {count : Nat} {code : TierCode α}
    (unlinked : Unlinked start pool) (plain : plain_until geo count code pool = true) :
    Unlinked start (Prog.after (poolSem geo) count code pool) := by
  induction count generalizing code pool with
  | zero => exact unlinked
  | succ count ih =>
      cases code with
      | ret value => exact unlinked
      | op access next =>
          obtain ⟨first, rest⟩ := Bool.and_eq_true_iff.mp plain
          exact ih (unlinked.access first) rest

/-- A counter that survives is right as long as the call has not linked a bucket. -/
theorem Kept.counter_survives (kept : Kept geo route store) {made : Call} {count : Nat}
    {choice : Nat → Word → Nat} (latest : ∀ rid, choice rid .next_overflow_alloc = 0)
    (plain : plain_until geo count (made.code geo route) store.pool = true) :
    CounterSurvives geo route store (.fail made count choice) := by
  have start : Unlinked store.pool store.pool :=
    ⟨fun rid bucket => ⟨rfl, kept.quiet rid (.header bucket) id⟩, fun _ => rfl⟩
  have unlinked := start.after plain
  intro rid
  have header : ∀ bucket, store.image geo route made count choice rid (.header bucket) =
      store.pool.now rid (.header bucket) := by
    intro bucket
    obtain ⟨same, clean⟩ := unlinked.header rid bucket
    exact (clean.image _).trans same
  have counter : store.image geo route made count choice rid .next_overflow_alloc =
      store.pool.now rid .next_overflow_alloc := by
    rw [Store.image, Pmem.image, latest rid]
    exact unlinked.counter rid
  constructor
  · intro bucket
    rw [link, header, counter]
    exact (kept.sound rid).links bucket
  · intro idx above
    rw [header]
    exact (kept.sound rid).fresh idx (counter ▸ above)

def inside_call (geo : Geometry) (route : Nat → Nat) (store : Store) : Move → Bool
  | .call _ => true
  | .fail made count _ => plain_until geo count (made.code geo route) store.pool

/-- The failure keeps what the allocator has counted last. -/
def Move.Latest : Move → Prop
  | .call _ => True
  | .fail _ _ choice => ∀ rid, choice rid .next_overflow_alloc = 0

theorem inside_run {moves : List Move} {next : Store} (latest : ∀ move ∈ moves, move.Latest)
    (ran : ((powered geo route).checked (inside_call geo route)).run Store.create moves = some next) :
    (powered geo route).Reach (CounterSurvives geo route) next := by
  have created : (powered geo route).Reach (CounterSurvives geo route) Store.create := .start rfl
  have ended := created.run_checked_where (created_kept geo route) (by
    intro move member store kept passed
    have keeps := latest move member
    cases move with
    | call made => trivial
    | fail made count choice => exact kept.counter_survives keeps passed)
    (fun _ _ _ kept _ counters stepped => kept_step kept counters stepped) ran
  exact ended.1

/-- As long as no failure loses a counter that is needed, whatever the
failures keep. -/
theorem cold_tier_crash_consistent
    (reached : (powered geo route).Reach (CounterSurvives geo route) store) :
    CrashConsistent geo route store := by
  have kept := reach_kept reached
  exact {
    lookup := fun key => (lookup_own kept.sound key).trans (congrArg some (kept.agrees key))
    scan := by
      intro num_threads
      obtain ⟨visits, answered, -⟩ := Tier.parallel_load_visits
        (fun rid => (kept.sound rid).toLinks) num_threads
      simp [answered]
    acyclic := fun rid bid main => ⟨(kept.sound rid).ends bid, (kept.sound rid).nodup main⟩
    disjoint := fun rid first second main_first main_second different bucket on_first on_second =>
      different ((kept.sound rid).disjoint main_first main_second on_first on_second)
    returns := by
      intro made valid
      obtain ⟨answer, answered, -⟩ := kept.call valid
      rw [Store.move, if_pos valid]
      revert answered
      generalize (made.code geo route).run (poolSem geo) store.pool = outcome
      obtain ⟨told, pool⟩ := outcome
      rintro rfl
      exact ⟨_, rfl⟩
    interrupted := fun made count choice next stepped counters =>
      kept.interrupted stepped counters }

/-- Keys 0 to 7 share one main bucket, and the others another. -/
def two_buckets (key : Nat) : Nat := if key < 8 then 2 else 0

def three_entries : List BulkEntry := [⟨2, 3, 30⟩, ⟨2, 4, 40⟩, ⟨2, 5, 50⟩]

/-- The first failure comes when the bulk call has overwritten the offset of key
3 and has not published keys 4 and 5 yet. The second one comes between the store
of an upsert and its flush, and loses the store. -/
def two_failures : List Move :=
  [.call (.upsert 3 9),
    .fail (.bulk_upsert three_entries three_entries) 14 (fun _ _ => 0),
    .fail (.upsert 3 31) 3 (fun _ word => if word = .offset 1 0 then 1 else 0),
    .call (.upsert 4 41)]

theorem consistent_after_failures :
    ∃ store, (powered (Geometry.create 2 1) two_buckets).run Store.create two_failures =
        some store ∧ store.last 3 = some (some 30) ∧ store.last 5 = some none ∧
      CrashConsistent (Geometry.create 2 1) two_buckets store := by
  have possible : (((powered (Geometry.create 2 1) two_buckets).checked
      (inside_call (Geometry.create 2 1) two_buckets)).run Store.create two_failures).map
        (fun store => (store.last 3, store.last 5)) = some (some (some 30), some none) := by
    decide +kernel
  obtain ⟨store, ran, ended⟩ := Option.map_eq_some_iff.mp possible
  obtain ⟨third, fifth⟩ := Prod.mk.inj ended
  have latest : ∀ move ∈ two_failures, move.Latest := by
    simp [two_failures, Move.Latest]
  exact ⟨store, Machine.run_of_checked ran, third, fifth,
    cold_tier_crash_consistent (inside_run latest ran)⟩

def eight_entries (first : Nat) : List BulkEntry :=
  (List.range 8).map (fun i => ⟨two_buckets (first + i), first + i, i⟩)

/-- A failure in between drops the store that counted the overflow bucket of the
first eight keys, and the second eight keys are given the same bucket. -/
def counter_lost : List Move :=
  [.call (.bulk_upsert (eight_entries 0) (eight_entries 0)),
    .fail (.remove 16) 0 (fun _ word => if word = .next_overflow_alloc then 1 else 0),
    .call (.bulk_upsert (eight_entries 8) (eight_entries 8))]

theorem key_lost_with_counter :
    ∃ store, (powered (Geometry.create 2 1) two_buckets).run Store.create counter_lost =
        some store ∧ store.last 7 = some (some 7) ∧
      store.pool.now.lookup (Geometry.create 2 1) (two_buckets 7) 7 = some none ∧
      link (store.pool.now 0) 0 = 1 ∧ link (store.pool.now 0) 1 = 1 ∧
      ¬CrashConsistent (Geometry.create 2 1) two_buckets store := by
  have answers : ((powered (Geometry.create 2 1) two_buckets).run Store.create counter_lost).map
      (fun store => (store.last 7,
        store.pool.now.lookup (Geometry.create 2 1) (two_buckets 7) 7,
        link (store.pool.now 0) 0, link (store.pool.now 0) 1)) =
      some (some (some 7), some none, 1, 1) := by decide +kernel
  obtain ⟨store, ran, same⟩ := Option.map_eq_some_iff.mp answers
  simp only [Prod.mk.injEq] at same
  obtain ⟨told, lost, first, second⟩ := same
  refine ⟨store, ran, told, lost, first, second, fun consistent => ?_⟩
  have found := consistent.lookup 7
  rw [lost, told] at found
  cases found

end Hiom.ColdTier
