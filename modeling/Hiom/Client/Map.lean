import Hiom.Client.Kills
import Hiom.Viper.Map

/-!
HiOM over whole runs. While each put finds no removal of its key waiting, a key
that is there is found by every read. If a put also finds its key's old record
on another page than its own, HiOM is a map of the keys, through drains, warm-ups
and kills.
-/

namespace Hiom.Client

open ColdTier (BulkEntry Geometry SortedFrom bucket_id_of bulk_less region_id_of)
open Viper.Records (KVOffset Lives)
open Viper.Records.Plain (map_of eight_bytes same_window wide_layout crowded_depth_pos
  crowded_depth_le)

variable {K V : Type} [DecidableEq K]

/-! ### What a step asks for -/

section Conditions

variable (config : Config K) (keys : Set K) (state : State K V)

/-- Puts and removals are of the keys that the tiers tell apart, and the hot
tier is warmed up while nothing waits. -/
def Steady : Action K V → Prop
  | .put id key value _ rand _ => PutSteady config keys state id key value rand
  | .remove _ key => key ∈ keys
  | .warm_hot_tier _ _ => ∀ lane, state.tiers.commit_buf lane = []
  | _ => True

def Recoverable : Action K V → Prop
  | .reopen _ _ => (State.tail config state.viper.pool.reopened).LiveOnce config.keys
  | _ => True

def Apart : Action K V → Prop
  | .put id key value assume_new rand _ => PutApart config state id key value assume_new rand
  | _ => True

end Conditions

def Stays : Action K V → Prop
  | .reopen _ _ => False
  | _ => True

section Runs

variable {config : Config K} {keys : Set K} {single clean : Prop} {zero : K × V}
  {state next : State K V}

def Invariant (config : Config K) (keys : Set K) (single clean : Prop) (state : State K V) : Prop :=
  ∃ current base, Consistent config keys single clean current base state

theorem Invariant.created (zero : K × V) {num_v_blocks : Nat} (small : num_v_blocks < 2 ^ 45) :
    Invariant config keys single clean (.created config zero num_v_blocks) := by
  have nothing : ∀ key off value, ¬Lives config.viper.layout
      (State.created config zero num_v_blocks).viper.pool.v_blocks key off value := by
    intro key off value lives
    have used := lives.live.1
    revert used
    show ¬Viper.version_lock_t.is_used 0#8 = true
    decide
  refine ⟨fun _ => none, fun _ => none, ?_⟩
  constructor
  · exact (Viper.Records.Plain.Invariant.created zero small).shape
  · constructor
    · intro key off present
      cases present
    · exact fun key off value lives => absurd lives (nothing key off value)
    · exact fun key off value lives => absurd lives (nothing key off value)
    · exact fun _ key off value lives => absurd lives (nothing key off value)
  · exact Index.created config keys clean _
  · exact fun key off value _ lives => absurd lives (nothing key off value)
  · exact fun _ _ => rfl
  · trivial
  · exact fun _ => trivial

theorem Invariant.step {action : Action K V} (invariant : Invariant config keys single clean state)
    (distinct : Set.InjOn config.keys.key_fingerprint keys) (strict : clean → single)
    (steady : Steady config keys state action) (apart : single → Apart config state action)
    (recoverable : single ∨ Recoverable config state action) (stays : clean → Stays action)
    (stepped : (machine config zero).step state action = some next) :
    Invariant config keys single clean next := by
  obtain ⟨current, base, consistent⟩ := invariant
  cases action with
  | get_client id rand => exact ⟨current, base, consistent.get_client stepped⟩
  | drop_client id => exact ⟨current, base, consistent.drop_client stepped⟩
  | put id key value assume_new rand schedule =>
      simp only [machine, Option.bind_eq_bind, Option.bind_eq_some_iff] at stepped
      obtain ⟨position, here, ⟨is_new_item, after, handle, tiers⟩, done, same⟩ := stepped
      cases same
      exact consistent.put distinct strict steady apart here done
  | get id key =>
      simp only [machine, Option.bind_eq_bind, Option.bind_eq_some_iff] at stepped
      obtain ⟨position, here, ⟨value, pool, tiers⟩, done, same⟩ := stepped
      cases same
      obtain ⟨answer, after, read, index, -, answered⟩ := get_spec consistent.index distinct
        consistent.recorded consistent.unlocked key
      rw [read] at done
      cases done
      refine ⟨current, base, @Consistent.read K V _ config keys single clean current base state _
        [(key, value)] consistent index ?_⟩
      intro pair member
      rw [List.mem_singleton.mp member]
      exact answered
  | get_batch id batch =>
      simp only [machine, Option.bind_eq_bind, Option.bind_eq_some_iff] at stepped
      obtain ⟨position, here, ⟨values, pool, tiers⟩, done, same⟩ := stepped
      cases same
      have few : batch.length ≤ kGetBatchMax := by
        by_contra many
        unfold get_batch at done
        rw [if_neg many] at done
        cases done
      obtain ⟨answers, after, read, index, -, -, answered⟩ := get_batch_spec consistent.index distinct
        consistent.recorded consistent.unlocked few
      rw [read] at done
      cases done
      rw [← List.map_reverse]
      refine ⟨current, base, consistent.read index ?_⟩
      intro pair member
      exact answered pair (List.mem_reverse.mp member)
  | update id key update_fn =>
      simp only [machine, Option.bind_eq_bind, Option.bind_eq_some_iff] at stepped
      obtain ⟨position, here, ⟨updated, after, tiers⟩, done, same⟩ := stepped
      cases same
      exact consistent.update distinct here done
  | remove id key =>
      simp only [machine, Option.bind_eq_bind, Option.bind_eq_some_iff] at stepped
      obtain ⟨position, here, ⟨removed, after, handle, tiers⟩, done, same⟩ := stepped
      cases same
      exact consistent.remove distinct steady here done
  | drain flusher_id =>
      simp only [machine, Option.bind_eq_bind, Option.bind_eq_some_iff] at stepped
      obtain ⟨tiers, done, same⟩ := stepped
      cases same
      obtain ⟨base_after, kept⟩ := consistent.drain distinct strict done
      exact ⟨current, base_after, kept⟩
  | grow n =>
      simp only [machine] at stepped
      split at stepped
      · rename_i small
        cases stepped
        exact ⟨current, base, consistent.grow small⟩
      · cases stepped
  | warm_hot_tier num_threads order =>
      simp only [machine, Option.bind_eq_bind, Option.bind_eq_some_iff] at stepped
      obtain ⟨tiers, done, same⟩ := stepped
      cases same
      exact ⟨current, base, consistent.warm steady done⟩
  | reopen threads schedule =>
      have unclean : ¬clean := fun cleans => stays cleans
      have once : (State.tail config state.viper.pool.reopened).LiveOnce config.keys := by
        rcases recoverable with one | once
        · exact consistent.live_once distinct one
        · exact once
      obtain ⟨base_after, kept⟩ := consistent.reopen unclean once stepped
      exact ⟨current, base_after, kept⟩

/-! ### Runs -/

/-- A key that is there is found by every read, also after kills, and by every
update, whatever has been drained, evicted or warmed up meanwhile. -/
theorem present_keys_found (zero : K × V)
    (distinct : Set.InjOn config.keys.key_fingerprint keys) (state : State K V)
    (reached : (machine config zero).Reach (fun state action =>
      Steady config keys state action ∧ Recoverable config state action) state) :
    Sound state.viper.log ∧
      ∀ key value, map_of state.viper.log key = some value →
        (get config key state.viper.pool state.tiers).map Prod.fst = some (some value) := by
  have invariant : Invariant config keys False False state := by
    apply reached.invariant
    · rintro _ ⟨num_v_blocks, small, rfl⟩
      exact .created zero small
    · intro before action after holds meets stepped
      exact holds.step distinct False.elim meets.1 False.elim (.inr meets.2) False.elim stepped
  obtain ⟨current, base, consistent⟩ := invariant
  refine ⟨consistent.sound, ?_⟩
  intro key value present
  obtain ⟨answer, after, read, -, -, answered⟩ := get_spec consistent.index distinct
    consistent.recorded consistent.unlocked key
  rw [read, (consistent.answered answered).1 value present]
  rfl

section Single

variable (zero : K × V) (distinct : Set.InjOn config.keys.key_fingerprint keys)
include distinct

theorem Invariant.of_apart
    (reached : (machine config zero).Reach (fun state action =>
      Steady config keys state action ∧ Apart config state action) state) :
    Invariant config keys True False state := by
  apply reached.invariant
  · rintro _ ⟨num_v_blocks, small, rfl⟩
    exact .created zero small
  · intro before action after holds meets stepped
    exact holds.step distinct False.elim meets.1 (fun _ => meets.2) (.inl trivial) False.elim stepped

theorem Invariant.of_stays
    (reached : (machine config zero).Reach (fun state action =>
      Steady config keys state action ∧ Apart config state action ∧ Stays action) state) :
    Invariant config keys True True state := by
  apply reached.invariant
  · rintro _ ⟨num_v_blocks, small, rfl⟩
    exact .created zero small
  · intro before action after holds meets stepped
    exact holds.step distinct (fun _ => trivial) meets.1 (fun _ => meets.2.1) (.inl trivial)
      (fun _ => meets.2.2) stepped

/-- HiOM is a map: the calls answer as a map of the keys does, and the map is
what the pages have records of, one for each key. -/
theorem hiom_is_map (state : State K V)
    (reached : (machine config zero).Reach (fun state action =>
      Steady config keys state action ∧ Apart config state action) state) :
    Truthful state.viper.log ∧
      (∀ key, (get config key state.viper.pool state.tiers).map Prod.fst =
        some (map_of state.viper.log key)) ∧
      (∀ key value, map_of state.viper.log key = some value ↔
        ∃ off, Lives config.viper.layout state.viper.pool.v_blocks key off value) ∧
      ∀ key off other value other_value,
        Lives config.viper.layout state.viper.pool.v_blocks key off value →
        Lives config.viper.layout state.viper.pool.v_blocks key other other_value → off = other := by
  obtain ⟨current, base, consistent⟩ := Invariant.of_apart zero distinct reached
  refine ⟨consistent.truthful trivial, ?_, ?_, ?_⟩
  · intro key
    obtain ⟨answer, after, read, -, -, answered⟩ := get_spec consistent.index distinct
      consistent.recorded consistent.unlocked key
    rw [read, (consistent.answered answered).2 trivial]
    rfl
  · intro key value
    constructor
    · intro present
      obtain ⟨off, -, lives⟩ := consistent.present present
      exact ⟨off, lives⟩
    · rintro ⟨off, lives⟩
      exact consistent.values key off value (consistent.recorded.single trivial key off value lives)
        lives
  · intro key off other value other_value first second
    have first_current := consistent.recorded.single trivial key off value first
    have second_current := consistent.recorded.single trivial key other other_value second
    exact Option.some.inj (first_current.symm.trans second_current)

/-- A batch answers as its reads would one by one. -/
theorem get_batch_reads_map (state : State K V)
    (reached : (machine config zero).Reach (fun state action =>
      Steady config keys state action ∧ Apart config state action) state)
    (batch : List K) (few : batch.length ≤ kGetBatchMax) :
    (get_batch config batch state.viper.pool state.tiers).map Prod.fst =
      some (batch.map (map_of state.viper.log)) := by
  obtain ⟨current, base, consistent⟩ := Invariant.of_apart zero distinct reached
  obtain ⟨answers, after, read, -, -, length, answered⟩ := get_batch_spec consistent.index distinct
    consistent.recorded consistent.unlocked few
  rw [read, Option.map_some]
  congr 1
  apply List.ext_getElem
  · rw [length, List.length_map]
  · intro i here there
    rw [List.length_map] at there
    rw [List.getElem_map]
    have zipped : i < (batch.zip answers).length := by
      rw [List.length_zip, length, Nat.min_self]
      exact there
    have member := List.getElem_mem zipped
    rw [List.getElem_zip] at member
    exact (consistent.answered (answered _ member)).2 trivial

/-- When nothing waits, the cold tier has the records and nothing else: a
removed key is not left in it, nor an offset that a key has been moved from. The
destructor brings this about. -/
theorem cold_tier_settles (state : State K V)
    (reached : (machine config zero).Reach (fun state action =>
      Steady config keys state action ∧ Apart config state action ∧ Stays action) state)
    (tiers : Tiers)
    (drained : tiers = state.tiers ∧ tiers.size_hint = 0 ∨
      catch_up config state.viper.pool state.tiers = some tiers) :
    tiers.size_hint = 0 ∧
      ∀ kid word, tiers.cold.lookup config.geo (config.keys.route kid) kid = some (some word) ↔
        ∃ key value, config.keys.key_id_of key = kid ∧
          Lives config.viper.layout state.viper.pool.v_blocks key ⟨word⟩ value := by
  obtain ⟨current, base, consistent⟩ := Invariant.of_stays zero distinct reached
  have settles : tiers.size_hint = 0 ∧
      ∃ base, Index config keys True current none state.viper.pool tiers base := by
    rcases drained with ⟨rfl, empty⟩ | done
    · exact ⟨empty, base, consistent.index⟩
    · constructor
      · apply List.sum_eq_zero
        intro length inside
        obtain ⟨lane, lane_in, rfl⟩ := List.mem_map.mp inside
        rw [catch_up_empty (List.mem_range.mp lane_in) done]
        rfl
      · apply flushers_rule _ ⟨base, consistent.index⟩ done
        intro _ _ _ before drains
        exact Index.lane_drained distinct consistent.recorded (fun _ => trivial) before drains
  obtain ⟨empty, base_after, index⟩ := settles
  refine ⟨empty, ?_⟩
  have nothing := @size_hint_zero K config tiers empty
  have told : ∀ key off value,
      Lives config.viper.layout state.viper.pool.v_blocks key off value →
      base_after (config.keys.key_id_of key) = some off.offset := by
    intro key off value lives
    have member := consistent.recorded.only key off value lives
    have present := consistent.recorded.single trivial key off value lives
    cases index.told key member (Option.some_ne_none key).symm off present with
    | settled _ known => exact known
    | waiting _ latest =>
        obtain ⟨e, waits, -⟩ := latest
        exact absurd waits (nothing key e)
  intro kid word
  rw [index.maps.lookup kid, Option.some_inj]
  constructor
  · intro known
    obtain ⟨⟨key, member, rfl⟩, -⟩ := index.known kid word known
    cases present : current key with
    | none =>
        rw [index.forgotten trivial key member present (nothing key)] at known
        cases known
    | some off =>
        obtain ⟨value, lives⟩ := consistent.recorded.alive key off present
        rw [told key off value lives] at known
        cases known
        exact ⟨key, value, rfl, lives⟩
  · rintro ⟨key, value, rfl, lives⟩
    exact told key ⟨word⟩ value lives

end Single

end Runs

/-! ### Concrete runs -/

section Checks

variable (config : Config K) (listed : List K) (state : State K V)

def Tiers.waiting (tiers : Tiers) : List CommitEntry :=
  (List.range CommitBuffer.Wait.kNumLanes).flatMap tiers.commit_buf

def clear (tiers : Tiers) (key : K) : Bool :=
  tiers.waiting.all fun e => tiers.waiting.all fun r =>
    decide (r.op = .kRemove → r.key_id = e.key_id → e.hot_slot.valid = true →
      e.hot_slot.bucket_idx ≠
        HotTier.bucket_index config.hot_buckets_pow2 (config.keys.key_fingerprint key))

def steady : Action K V → Bool
  | .put id key value _ rand _ => listed.contains key &&
      (state.tiers.waiting.all fun e =>
        decide (e.key_id = config.keys.key_id_of key → e.op ≠ .kRemove)) &&
      clear config state.tiers key &&
      (state.viper.clients id).all fun position =>
        (Viper.Records.Plain.Client.claim config.viper rand key value 2 (state.writer position)).all
          fun placed => (Codec.compact base_map placed.1).isSome
  | .remove _ key => listed.contains key
  | .warm_hot_tier _ _ => state.tiers.waiting.isEmpty
  | _ => true

def apart : Action K V → Bool
  | .put id key value assume_new rand _ =>
      (!assume_new || (map_of state.viper.log key).isNone) &&
      (state.viper.clients id).all fun position =>
        (Viper.Records.Plain.Client.claim config.viper rand key value 2 (state.writer position)).all
          fun placed =>
            let page := state.viper.pool.v_blocks placed.1.block_number placed.1.page_number
            (List.range config.viper.layout.num_slots_per_page).all fun slot =>
              page.free_slots slot || decide ((page.data slot).1 ≠ key)
  | _ => true

variable {config listed state} {keys : Set K} {single clean : Prop} {zero : K × V}
  {action : Action K V}

/-- Only the lanes of the commit buffer have entries. -/
theorem Consistent.mem_waiting {current : K → Option KVOffset} {base : Nat → Option Nat} {lane : Nat}
    {e : CommitEntry} (consistent : Consistent config keys single clean current base state)
    (there : e ∈ state.tiers.commit_buf lane) : e ∈ state.tiers.waiting := by
  have listed := consistent.index.listed lane e there
  apply List.mem_flatMap.mpr
  exact ⟨lane, List.mem_range.mpr (listed.lane ▸ CommitBuffer.Wait.lane_of_fp64_lt _), there⟩

theorem Steady.of_steady (invariant : Invariant config keys single clean state)
    (passed : steady config listed state action = true) :
    Steady config {key | key ∈ listed} state action := by
  obtain ⟨current, base, consistent⟩ := invariant
  cases action with
  | put id key value assume_new rand schedule =>
      simp only [steady, Bool.and_eq_true, List.all_eq_true, decide_eq_true_eq] at passed
      obtain ⟨⟨⟨member, no_removal⟩, clears⟩, compacts⟩ := passed
      constructor
      · exact List.contains_iff_mem.mp member
      · intro e waits
        exact no_removal e (consistent.mem_waiting waits.1) waits.2
      · intro lane e r there removal
        simp only [clear, List.all_eq_true, decide_eq_true_eq] at clears
        exact clears e (consistent.mem_waiting there) r (consistent.mem_waiting removal)
      · intro position off writer here claimed
        rw [here, Option.all_some, claimed, Option.all_some] at compacts
        exact Option.isSome_iff_ne_none.mp compacts
  | remove id key => exact List.contains_iff_mem.mp passed
  | warm_hot_tier num_threads order =>
      intro lane
      by_contra waits
      obtain ⟨e, there⟩ := List.exists_mem_of_ne_nil _ waits
      have inside := consistent.mem_waiting there
      rw [List.isEmpty_iff.mp passed] at inside
      cases inside
  | _ => trivial

theorem Apart.of_apart (passed : apart config state action = true) : Apart config state action := by
  cases action with
  | put id key value assume_new rand schedule =>
      obtain ⟨new, elsewhere⟩ := Bool.and_eq_true_iff.mp passed
      constructor
      · intro assumes
        rw [assumes] at new
        exact Option.isNone_iff_eq_none.mp new
      · intro position off writer here claimed other other_value lives same
        rw [here, Option.all_some, claimed, Option.all_some] at elsewhere
        have vacant := List.all_eq_true.mp elsewhere _ (List.mem_range.mpr lives.slot_lt)
        dsimp only at vacant
        rw [← same.1, ← same.2, lives.live.2, lives.data] at vacant
        simp at vacant
  | _ => trivial

variable {n : Nat} {actions : List (Action K V)}
  (distinct : Set.InjOn config.keys.key_fingerprint {key | key ∈ listed}) (small : n < 2 ^ 45)
include distinct small

/-- A concrete run without kills. -/
theorem steady_run (stays : ∀ action ∈ actions, Stays action)
    (ran : ((machine config zero).checked (steady config listed)).run (.created config zero n) actions =
      some state) :
    (machine config zero).Reach (fun state action =>
      Steady config {key | key ∈ listed} state action ∧ Recoverable config state action) state := by
  have start : Invariant config {key | key ∈ listed} False False (.created config zero n) :=
    .created zero small
  have created : (machine config zero).Reach (fun state action =>
      Steady config {key | key ∈ listed} state action ∧ Recoverable config state action)
      (.created config zero n) := .start ⟨n, small, rfl⟩
  apply (created.run_checked_where start _ _ ran).1
  · intro action inside state invariant passed
    constructor
    · exact .of_steady invariant passed
    · cases action with
      | reopen threads schedule => exact absurd (stays _ inside) id
      | _ => trivial
  · intro state action next invariant _ meets stepped
    exact invariant.step distinct False.elim meets.1 False.elim (.inr meets.2) False.elim stepped

/-- A concrete run whose puts can find the old records. -/
theorem apart_run {allowed : Action K V → Prop} (allows : ∀ action ∈ actions, allowed action)
    (ran : ((machine config zero).checked (fun state action =>
      steady config listed state action && apart config state action)).run (.created config zero n)
      actions = some state) :
    (machine config zero).Reach (fun state action =>
      Steady config {key | key ∈ listed} state action ∧ Apart config state action ∧ allowed action)
      state := by
  have start : Invariant config {key | key ∈ listed} True False (.created config zero n) :=
    .created zero small
  have created : (machine config zero).Reach (fun state action =>
      Steady config {key | key ∈ listed} state action ∧ Apart config state action ∧ allowed action)
      (.created config zero n) := .start ⟨n, small, rfl⟩
  apply (created.run_checked_where start _ _ ran).1
  · intro action inside state invariant passed
    obtain ⟨steady, apart⟩ := Bool.and_eq_true_iff.mp passed
    exact ⟨.of_steady invariant steady, .of_apart apart, allows action inside⟩
  · intro state action next invariant _ meets stepped
    exact invariant.step distinct False.elim meets.1 (fun _ => meets.2.1) (.inl trivial) False.elim
      stepped

end Checks

/-! ### A run -/

theorem not_bulk_less (geo : Geometry) (a b : BulkEntry) :
    (!bulk_less geo b a) = true ↔ region_id_of a.fp < region_id_of b.fp ∨
      region_id_of a.fp = region_id_of b.fp ∧ bucket_id_of geo a.fp ≤ bucket_id_of geo b.fp := by
  unfold bulk_less
  rw [Bool.not_eq_true']
  split
  · rw [decide_eq_false_iff_not]
    omega
  · rw [decide_eq_false_iff_not]
    omega

theorem bulk_sorted (geo : Geometry) (entries : List BulkEntry) :
    SortedFrom geo entries (entries.mergeSort fun a b => !bulk_less geo b a) := by
  constructor
  · exact List.mergeSort_perm _ _
  · have trans : ∀ a b c, (!bulk_less geo b a) = true → (!bulk_less geo c b) = true →
        (!bulk_less geo c a) = true := by
      intro a b c first second
      rw [not_bulk_less] at first second ⊢
      omega
    have total : ∀ a b, (!bulk_less geo b a || !bulk_less geo a b) = true := by
      intro a b
      rw [Bool.or_eq_true, not_bulk_less, not_bulk_less]
      omega
    have sorted := @List.pairwise_mergeSort _ (fun a b => !bulk_less geo b a) trans total entries
    exact sorted.imp (fun ordered => (Bool.not_eq_true' _).mp ordered)

theorem one_flusher : 1 ∣ CommitBuffer.Wait.kNumLanes :=
  Nat.one_dvd _

theorem copied_word (copy : Nat → BitVec 64) (copies : some (BitVec.ofNat 64) = some copy)
    (key : BitVec 64) : copy key.toNat = key := by
  cases copies
  exact BitVec.ofNat_toNat 64 key

/-- One flusher, one bucket of the hot tier and one bucket in each region. -/
def small_config : Config (BitVec 64) where
  viper := ⟨wide_layout, eight_bytes same_window, 17, crowded_depth_pos, crowded_depth_le, 0⟩
  keys := ⟨BitVec.toNat, id⟩
  hot_buckets_pow2 := 1
  hot_buckets_pos := Nat.one_pos
  geo := .create 1 1
  num_flushers := 1
  flushers_divide := one_flusher
  dequeue := id
  dequeue_perm := List.Perm.refl
  sort := fun entries => entries.mergeSort fun a b => !bulk_less (.create 1 1) b a
  sorted := bulk_sorted (.create 1 1)
  from_id := some (BitVec.ofNat 64)
  from_id_id := copied_word

abbrev small_store : Machine (State (BitVec 64) Nat) (Action (BitVec 64) Nat) :=
  machine small_config (0#64, 0)

def small_keys : List (BitVec 64) := [5#64, 6#64]

theorem small_fingerprint {key : BitVec 64} (inside : key ∈ small_keys) :
    small_config.keys.key_fingerprint key = key.toNat := by
  have kept : (small_keys.all fun key => small_config.keys.key_fingerprint key == key.toNat) = true := by
    decide +kernel
  exact eq_of_beq (List.all_eq_true.mp kept key inside)

theorem small_distinct : Set.InjOn small_config.keys.key_fingerprint {key | key ∈ small_keys} := by
  intro key inside other there same
  rw [small_fingerprint inside, small_fingerprint there] at same
  exact BitVec.eq_of_toNat_eq same

/-- Both keys are put and drained, and one is put again on its own page. -/
def own_page_calls : List (Action (BitVec 64) Nat) :=
  [.get_client 0 0, .put 0 5#64 10 false 0 ⟨[], 0⟩, .drain 0, .put 0 6#64 20 false 0 ⟨[], 0⟩, .drain 0,
    .put 0 5#64 11 false 0 ⟨[], 0⟩, .drain 0, .update 0 5#64 Nat.succ]

/-- Two clients, each with a block: one overwrites what the other has put, and
the other key is removed. -/
def two_client_calls : List (Action (BitVec 64) Nat) :=
  [.get_client 0 0, .get_client 1 0, .put 0 5#64 10 false 0 ⟨[], 0⟩, .drain 0,
    .put 0 6#64 20 false 0 ⟨[], 0⟩, .drain 0, .put 1 5#64 11 false 0 ⟨[], 0⟩, .drain 0,
    .remove 0 6#64]

/-- The keys are found when they have been drained, though an old record of one
is left. -/
theorem present_keys_found_drained :
    ∃ state, small_store.run (.created small_config (0#64, 0) 2) own_page_calls = some state ∧
      (get small_config 5#64 state.viper.pool state.tiers).map Prod.fst = some (some 12) ∧
      (get small_config 6#64 state.viper.pool state.tiers).map Prod.fst = some (some 20) := by
  have possible : ((small_store.checked (steady small_config small_keys)).run
      (.created small_config (0#64, 0) 2) own_page_calls).map
        (fun state => (map_of state.viper.log 5#64, map_of state.viper.log 6#64)) =
          some (some 12, some 20) := by
    decide +kernel
  obtain ⟨state, ran, ended⟩ := Option.map_eq_some_iff.mp possible
  obtain ⟨first, second⟩ := Prod.mk.inj ended
  have stays : ∀ action ∈ own_page_calls, Stays action := by
    simp [own_page_calls, Stays]
  have reached := steady_run small_distinct (by decide) stays ran
  have found := (present_keys_found (0#64, 0) small_distinct state reached).2
  exact ⟨state, Machine.run_of_checked ran, found 5#64 12 first, found 6#64 20 second⟩

def one_replay : List Recovery.Action :=
  .lock 0 :: (List.replicate 5 (.access 0) ++ [.unlock 0])

abbrev small_check (state : State (BitVec 64) Nat) (action : Action (BitVec 64) Nat) : Bool :=
  steady small_config small_keys state action && apart small_config state action

/-- The map is read back when the process is killed before the removal is
drained. -/
theorem hiom_is_map_killed :
    ∃ state, small_store.run (.created small_config (0#64, 0) 2)
        (two_client_calls ++ [.reopen 1 one_replay]) = some state ∧
      (get small_config 5#64 state.viper.pool state.tiers).map Prod.fst = some (some 11) ∧
      (get small_config 6#64 state.viper.pool state.tiers).map Prod.fst = some none := by
  have possible : ((small_store.checked small_check).run (.created small_config (0#64, 0) 2)
      (two_client_calls ++ [.reopen 1 one_replay])).map
        (fun state => (map_of state.viper.log 5#64, map_of state.viper.log 6#64)) =
          some (some 11, none) := by
    decide +kernel
  obtain ⟨state, ran, ended⟩ := Option.map_eq_some_iff.mp possible
  obtain ⟨first, second⟩ := Prod.mk.inj ended
  have reached := apart_run small_distinct (by decide) (fun _ _ => trivial) ran
  have found := (hiom_is_map (0#64, 0) small_distinct state
    (reached.weaken (fun _ _ meets => ⟨meets.1, meets.2.1⟩))).2.1
  refine ⟨state, Machine.run_of_checked ran, ?_, ?_⟩
  · rw [found 5#64, first]
  · rw [found 6#64, second]

theorem get_batch_reads_map_three :
    ∃ state, small_store.run (.created small_config (0#64, 0) 2) two_client_calls = some state ∧
      (get_batch small_config [5#64, 6#64, 5#64] state.viper.pool state.tiers).map Prod.fst =
        some [some 11, none, some 11] := by
  have possible : ((small_store.checked small_check).run (.created small_config (0#64, 0) 2)
      two_client_calls).map (fun state => [5#64, 6#64, 5#64].map (map_of state.viper.log)) =
        some [some 11, none, some 11] := by
    decide +kernel
  obtain ⟨state, ran, ended⟩ := Option.map_eq_some_iff.mp possible
  have reached := apart_run small_distinct (by decide) (fun _ _ => trivial) ran
  have read := get_batch_reads_map (0#64, 0) small_distinct state
    (reached.weaken (fun _ _ meets => ⟨meets.1, meets.2.1⟩)) [5#64, 6#64, 5#64] (by decide)
  rw [ended] at read
  exact ⟨state, Machine.run_of_checked ran, read⟩

/-- The destructor takes the removal to the cold tier. -/
theorem cold_tier_settles_removed :
    ∃ state tiers, small_store.run (.created small_config (0#64, 0) 2) two_client_calls = some state ∧
      catch_up small_config state.viper.pool state.tiers = some tiers ∧
      (∃ key value, small_config.keys.key_id_of key = 5 ∧
        Lives small_config.viper.layout state.viper.pool.v_blocks key ⟨1⟩ value) ∧
      ∀ word key value, small_config.keys.key_id_of key = 6 →
        ¬Lives small_config.viper.layout state.viper.pool.v_blocks key ⟨word⟩ value := by
  have possible : (((small_store.checked small_check).run (.created small_config (0#64, 0) 2)
      two_client_calls).bind fun state =>
        (catch_up small_config state.viper.pool state.tiers).map fun tiers =>
          (tiers.cold.lookup small_config.geo (small_config.keys.route 5) 5,
            tiers.cold.lookup small_config.geo (small_config.keys.route 6) 6)) =
              some (some (some 1), some none) := by
    decide +kernel
  obtain ⟨state, ran, rest⟩ := Option.bind_eq_some_iff.mp possible
  obtain ⟨tiers, drained, told⟩ := Option.map_eq_some_iff.mp rest
  obtain ⟨first, second⟩ := Prod.mk.inj told
  have stays : ∀ action ∈ two_client_calls, Stays action := by
    simp [two_client_calls, Stays]
  have settled := (cold_tier_settles (0#64, 0) small_distinct state
    (apart_run small_distinct (by decide) stays ran) tiers (.inr drained)).2
  refine ⟨state, tiers, Machine.run_of_checked ran, drained, (settled 5 1).mp first, ?_⟩
  intro word key value id lives
  have there := (settled 6 word).mpr ⟨key, value, id, lives⟩
  rw [second] at there
  cases there

end Hiom.Client
