import Hiom.Client.Pages

/-!
What the reads of HiOM's clients answer: of a key that has a record its value,
and of no key a value that is not on the pages.
-/

namespace Hiom.Client

open Codec (expand)
open Viper.Records (KVOffset Lives Pool)

variable {K V : Type} [DecidableEq K] {config : Config K} {keys : Set K} {clean single : Prop}
  {current : K → Option KVOffset} {pool : Pool K V} {tiers : Tiers} {base : Nat → Option Nat}
  {key : K} {off : KVOffset} {value : V}

/-! ### Records -/

theorem verify_of_lives (unlocked : Unlocked pool)
    (lives : Lives config.viper.layout pool.v_blocks key off value) :
    verify_and_read_offset key off pool = (some value, pool) := by
  have real : off.is_tombstone = false := by
    rw [Bool.eq_false_iff]
    exact fun tombstone => lives.ne_tombstone (Cceh.is_tombstone_iff.mp tombstone)
  have taken := lives.live.2
  have free := unlocked off.block_number off.page_number
  have data := lives.data
  unfold verify_and_read_offset Viper.Records.Writer.hiom_read_at_offset_status reader
    Viper.Records.Writer.page
  simp only [real, taken, free, data, Bool.false_eq_true, if_false, if_true]

theorem verify_cases (unlocked : Unlocked pool) (proper : Proper config.viper.layout pool off)
    (key : K) :
    ∃ found, verify_and_read_offset key off pool = (found, pool) ∧
      ∀ value, found = some value → Lives config.viper.layout pool.v_blocks key off value := by
  have real : off.is_tombstone = false := by
    rw [Bool.eq_false_iff]
    exact fun tombstone => proper.ne_tombstone (Cceh.is_tombstone_iff.mp tombstone)
  have free := unlocked off.block_number off.page_number
  unfold verify_and_read_offset Viper.Records.Writer.hiom_read_at_offset_status reader
    Viper.Records.Writer.page
  cases taken : (pool.v_blocks off.block_number off.page_number).free_slots off.data_offset with
  | true =>
      simp only [real, taken, Bool.false_eq_true, if_false, if_true]
      exact ⟨none, rfl, fun _ impossible => by cases impossible⟩
  | false =>
      have lives := proper.lives taken
      simp only [real, taken, free, Bool.false_eq_true, if_false]
      refine ⟨_, rfl, ?_⟩
      intro value found
      split at found
      · rename_i own
        rw [own] at lives
        rw [← Option.some.inj found]
        exact lives
      · cases found

/-! ### Reads -/

structure Found (config : Config K) (current : K → Option KVOffset) (base : Nat → Option Nat)
    (pool : Pool K V) (key : K) (hot_off : Option KVOffset) : Prop where
  proper : ∀ off, hot_off = some off → Proper config.viper.layout pool off
  current : ∀ cur, current key = some cur → hot_off = some cur ∨
    hot_off = none ∧ base (config.keys.key_id_of key) = some cur.offset

structure Answered (config : Config K) (current : K → Option KVOffset) (pool : Pool K V) (key : K)
    (answer : Option V) : Prop where
  present : ∀ cur value, current key = some cur →
    Lives config.viper.layout pool.v_blocks key cur value → answer = some value
  lives : ∀ value, answer = some value → ∃ off, Lives config.viper.layout pool.v_blocks key off value

omit [DecidableEq K] in
theorem hot_found (index : Index config keys clean current none pool tiers base)
    (distinct : Set.InjOn config.keys.key_fingerprint keys)
    (member : ∀ cur, current key = some cur → key ∈ keys) :
    Found config current base pool key
      ((tiers.hot.cached config.hot_buckets_pow2 (config.keys.key_fingerprint key)).map
        (expand base_map)) := by
  constructor
  · intro off found
    obtain ⟨packed, cached, rfl⟩ := Option.map_eq_some_iff.mp found
    obtain ⟨owner, -, -, proper, -⟩ :=
      index.cached _ packed (config.keys.key_fingerprint_pos key) cached
    exact proper
  · intro cur present
    have free := (Option.some_ne_none key).symm
    cases cached : tiers.hot.cached config.hot_buckets_pow2 (config.keys.key_fingerprint key) with
    | some packed =>
        left
        rw [Option.map_some, index.cached_current distinct (member cur present) free present cached]
    | none => exact .inr ⟨rfl, index.base_current (member cur present) free present cached⟩

theorem resolve_slow_spec (index : Index config keys clean current none pool tiers base)
    (recorded : Recorded config.viper.layout keys single current pool) (unlocked : Unlocked pool)
    (missed : ∀ cur, current key = some cur →
      base (config.keys.key_id_of key) = some cur.offset) :
    ∃ answer after, resolve_slow config key pool tiers = some (answer, pool, after) ∧
      Index config keys clean current none pool after base ∧
      after.commit_buf = tiers.commit_buf ∧ Answered config current pool key answer := by
  have looked := cold_lookup_eq index tiers.hot key
  unfold resolve_slow
  rw [show tiers = tiers.set_hot tiers.hot from rfl, looked, Option.bind_eq_bind, Option.bind_some]
  cases known : base (config.keys.key_id_of key) with
  | none =>
      refine ⟨none, tiers, rfl, index, rfl, ?_, ?_⟩
      · intro cur value present
        rw [missed cur present] at known
        cases known
      · intro value impossible
        cases impossible
  | some word =>
      obtain ⟨-, proper⟩ := index.known _ word known
      obtain ⟨found, verified, there⟩ := verify_cases unlocked proper key
      have current_word : ∀ cur, current key = some cur → (⟨word⟩ : KVOffset) = cur := by
        intro cur present
        rw [missed cur present] at known
        cases known
        rfl
      have answered : Answered config current pool key found := by
        constructor
        · intro cur value present lives
          rw [← current_word cur present] at lives
          rw [verify_of_lives unlocked lives] at verified
          exact (congrArg Prod.fst verified).symm
        · intro value here
          exact ⟨_, there value here⟩
      dsimp only [Option.map_some]
      rw [verified]
      cases found with
      | none => exact ⟨none, tiers, rfl, index, rfl, answered⟩
      | some value =>
          have lives := there value rfl
          refine ⟨some value, _, rfl, index.mirrored (recorded.only key _ value lives) proper
            (fun _ => current_word), ?_, answered⟩
          unfold mirror_into_hot_with_offset
          split
          · rfl
          · rfl

theorem read_from_spec {hot_off : Option KVOffset}
    (index : Index config keys clean current none pool tiers base)
    (recorded : Recorded config.viper.layout keys single current pool) (unlocked : Unlocked pool)
    (found : Found config current base pool key hot_off) :
    ∃ answer after, read_from config hot_off key pool tiers = some (answer, pool, after) ∧
      Index config keys clean current none pool after base ∧
      after.commit_buf = tiers.commit_buf ∧ Answered config current pool key answer := by
  unfold read_from
  cases hot_off with
  | none =>
      apply resolve_slow_spec index recorded unlocked
      intro cur present
      rcases found.current cur present with impossible | ⟨-, known⟩
      · cases impossible
      · exact known
  | some off =>
      have same : ∀ cur, current key = some cur → off = cur := by
        intro cur present
        rcases found.current cur present with here | ⟨impossible, -⟩
        · exact Option.some.inj here
        · cases impossible
      obtain ⟨answer, verified, there⟩ := verify_cases unlocked (found.proper off rfl) key
      dsimp only
      rw [verified]
      cases answer with
      | some value =>
          refine ⟨some value, tiers, rfl, index, rfl, ?_, ?_⟩
          · intro cur other present lives
            have one := there value rfl
            rw [same cur present] at one
            rw [(lives.same_record one).2]
          · intro other here
            exact ⟨off, there other here⟩
      | none =>
          apply resolve_slow_spec index recorded unlocked
          intro cur present
          obtain ⟨value, lives⟩ := recorded.alive key cur present
          rw [← same cur present] at lives
          rw [verify_of_lives unlocked lives] at verified
          cases verified

/-- A read of any key returns. -/
theorem get_spec (index : Index config keys clean current none pool tiers base)
    (distinct : Set.InjOn config.keys.key_fingerprint keys)
    (recorded : Recorded config.viper.layout keys single current pool) (unlocked : Unlocked pool)
    (key : K) :
    ∃ answer after, get config key pool tiers = some (answer, pool, after) ∧
      Index config keys clean current none pool after base ∧
      after.commit_buf = tiers.commit_buf ∧ Answered config current pool key answer := by
  have member : ∀ cur, current key = some cur → key ∈ keys := by
    intro cur present
    obtain ⟨value, lives⟩ := recorded.alive key cur present
    exact recorded.only key cur value lives
  unfold get
  rw [hot_lookup_eq]
  exact read_from_spec (index.looked_up _) recorded unlocked (hot_found index distinct member)

/-! ### Batches of reads -/

omit [DecidableEq K] in
theorem pass_one_spec (index : Index config keys clean current none pool tiers base)
    (distinct : Set.InjOn config.keys.key_fingerprint keys)
    (recorded : Recorded config.viper.layout keys single current pool) (batch : List K) :
    Index config keys clean current none pool (pass_one config batch tiers).2 base ∧
      (pass_one config batch tiers).2.commit_buf = tiers.commit_buf ∧
      (pass_one config batch tiers).1.length = batch.length ∧
      ∀ pair ∈ batch.zip (pass_one config batch tiers).1,
        Found config current base pool pair.1 pair.2 := by
  induction batch generalizing tiers with
  | nil => exact ⟨index, rfl, rfl, fun pair member => by cases member⟩
  | cons key rest ih =>
      have member : ∀ cur, current key = some cur → key ∈ keys := by
        intro cur present
        obtain ⟨value, lives⟩ := recorded.alive key cur present
        exact recorded.only key cur value lives
      have found := hot_found index distinct member
      obtain ⟨index_last, buffer, length, each⟩ := ih (index.looked_up (config.keys.key_fingerprint key))
      unfold pass_one
      rw [hot_lookup_eq]
      refine ⟨index_last, buffer, congrArg Nat.succ length, ?_⟩
      intro pair inside
      rcases List.mem_cons.mp inside with rfl | later
      · exact found
      · exact each pair later

theorem pass_two_spec {pairs : List (K × Option KVOffset)}
    (index : Index config keys clean current none pool tiers base)
    (recorded : Recorded config.viper.layout keys single current pool) (unlocked : Unlocked pool)
    (found : ∀ pair ∈ pairs, Found config current base pool pair.1 pair.2) :
    ∃ answers after, pass_two config pairs pool tiers = some (answers, pool, after) ∧
      Index config keys clean current none pool after base ∧
      after.commit_buf = tiers.commit_buf ∧ answers.length = pairs.length ∧
      ∀ pair ∈ (pairs.map Prod.fst).zip answers, Answered config current pool pair.1 pair.2 := by
  induction pairs generalizing tiers with
  | nil => exact ⟨[], tiers, rfl, index, rfl, rfl, fun pair member => by cases member⟩
  | cons pair rest ih =>
      obtain ⟨key, hot_off⟩ := pair
      obtain ⟨answer, middle, read, index_middle, buffer, answered⟩ :=
        read_from_spec index recorded unlocked (found (key, hot_off) List.mem_cons_self)
      obtain ⟨answers, last, reads, index_last, buffer_last, length, each⟩ :=
        ih index_middle (fun pair inside => found pair (List.mem_cons_of_mem _ inside))
      unfold pass_two
      rw [read, Option.bind_eq_bind, Option.bind_some]
      dsimp only
      rw [reads, Option.bind_eq_bind, Option.bind_some]
      refine ⟨answer :: answers, last, rfl, index_last, buffer_last.trans buffer,
        congrArg Nat.succ length, ?_⟩
      intro pair inside
      rcases List.mem_cons.mp inside with rfl | later
      · exact answered
      · exact each pair later

/-- A batch reads each of its keys. -/
theorem get_batch_spec (index : Index config keys clean current none pool tiers base)
    (distinct : Set.InjOn config.keys.key_fingerprint keys)
    (recorded : Recorded config.viper.layout keys single current pool) (unlocked : Unlocked pool)
    {batch : List K} (few : batch.length ≤ kGetBatchMax) :
    ∃ answers after, get_batch config batch pool tiers = some (answers, pool, after) ∧
      Index config keys clean current none pool after base ∧
      after.commit_buf = tiers.commit_buf ∧ answers.length = batch.length ∧
      ∀ pair ∈ batch.zip answers, Answered config current pool pair.1 pair.2 := by
  obtain ⟨index_middle, buffer, length, found⟩ := pass_one_spec index distinct recorded batch
  obtain ⟨answers, last, reads, index_last, buffer_last, answers_length, each⟩ :=
    pass_two_spec index_middle recorded unlocked found
  have firsts : (batch.zip (pass_one config batch tiers).1).map Prod.fst = batch :=
    List.map_fst_zip (Nat.le_of_eq length.symm)
  rw [firsts] at each
  unfold get_batch
  rw [if_pos few]
  refine ⟨answers, last, reads, index_last, buffer_last.trans buffer, ?_, each⟩
  rw [answers_length, List.length_zip, length, Nat.min_self]

end Hiom.Client
