import Hiom.Viper.Lives
import Hiom.Viper.Plain

/-!
What the pages and the index of Viper hold together: an index entry for every
live record and a live record for every entry, one for each key of the map.
-/

namespace Hiom.Viper.Records.Plain

open Cceh (Hasher Index INVALID)

variable {K V : Type} {config : Config K}

/-! ### Contents -/

/-- The live records, the index and the map agree. Of the entries of the index
only those count that pass the check for a key. -/
structure Contents (config : Config K) (lives : K → KVOffset → V → Prop)
    (passes : K → KVOffset → Prop) (map_ : Index) (map : K → Option V) : Prop where
  index : map_.Intact config.keys.hasher
  indexed : ∀ key off value, lives key off value →
    config.keys.Valid key ∧ map_.Has config.keys.hasher (config.keys.key_checker key) off ∧
      map key = some value
  recorded : ∀ key off, config.keys.Valid key →
    map_.Has config.keys.hasher (config.keys.key_checker key) off → passes key off →
    ∃ value, lives key off value
  mapped : ∀ key value, map key = some value → ∃ off, lives key off value
  single : ∀ key off value other other_value, lives key off value →
    lives key other other_value → other = off
  word : ∀ key off, config.keys.Valid key →
    map_.Has config.keys.hasher (config.keys.key_checker key) off → off.offset < 2 ^ 64

section Changes

variable {lives after : K → KVOffset → V → Prop} {passes passes_after : K → KVOffset → Prop}
  {map_ map_after : Index} {map : K → Option V}

/-- A change that ends and begins no record. -/
theorem Contents.congr (contents : Contents config lives passes map_ map)
    (lives_after : ∀ key off value, after key off value ↔ lives key off value)
    (passes_less : ∀ key off, passes_after key off → passes key off) :
    Contents config after passes_after map_ map := by
  constructor
  · exact contents.index
  · intro key off value alive
    exact contents.indexed key off value ((lives_after key off value).mp alive)
  · intro key off valid has pass
    obtain ⟨value, alive⟩ := contents.recorded key off valid has (passes_less key off pass)
    exact ⟨value, (lives_after key off value).mpr alive⟩
  · intro key value here
    obtain ⟨off, alive⟩ := contents.mapped key value here
    exact ⟨off, (lives_after key off value).mpr alive⟩
  · intro key off value other other_value first second
    exact contents.single key off value other other_value ((lives_after _ _ _).mp first)
      ((lives_after _ _ _).mp second)
  · exact contents.word

/-- One key is given another record or none, and the index follows: it loses the
entries of the key that the check takes for its own. -/
theorem Contents.assign [DecidableEq K] (contents : Contents config lives passes map_ map) {key : K}
    (valid : config.keys.Valid key) (written : Option (KVOffset × V)) (own : KVOffset → Prop)
    (index : map_after.Intact config.keys.hasher)
    (lives_after : ∀ other off value, after other off value ↔
      other = key ∧ written = some (off, value) ∨ other ≠ key ∧ lives other off value)
    (has_after : ∀ other off, config.keys.Valid other →
      (map_after.Has config.keys.hasher (config.keys.key_checker other) off ↔
        (config.keys.key_checker other = config.keys.key_checker key ∧
          ∃ value, written = some (off, value)) ∨
        map_.Has config.keys.hasher (config.keys.key_checker other) off ∧
          ¬(config.keys.key_checker other = config.keys.key_checker key ∧ own off)))
    (own_only : ∀ other off value, lives other off value →
      config.keys.key_checker other = config.keys.key_checker key → own off → other = key)
    (passes_own : ∀ off, map_.Has config.keys.hasher (config.keys.key_checker key) off →
      passes_after key off → own off)
    (passes_less : ∀ other off, config.keys.Valid other → other ≠ key →
      map_.Has config.keys.hasher (config.keys.key_checker other) off → passes_after other off →
      passes other off)
    (written_only : ∀ other off value, written = some (off, value) →
      config.keys.key_checker other = config.keys.key_checker key → passes_after other off →
      other = key)
    (word : ∀ off value, written = some (off, value) → off.offset < 2 ^ 64) :
    Contents config after passes_after map_after (Function.update map key (written.map Prod.snd)) := by
  constructor
  · exact index
  · intro other off value alive
    rcases (lives_after other off value).mp alive with ⟨rfl, same⟩ | ⟨different, alive⟩
    · refine ⟨valid, (has_after _ _ valid).mpr (.inl ⟨rfl, value, same⟩), ?_⟩
      rw [Function.update_self, same]
      rfl
    · obtain ⟨other_valid, has, here⟩ := contents.indexed other off value alive
      refine ⟨other_valid, (has_after _ _ other_valid).mpr (.inr ⟨has, ?_⟩), ?_⟩
      · rintro ⟨same, mine⟩
        exact different (own_only other off value alive same mine)
      · rw [Function.update_of_ne different]
        exact here
  · intro other off other_valid has pass
    rcases (has_after other off other_valid).mp has with ⟨same, value, new⟩ | ⟨has, not_own⟩
    · have here := written_only other off value new same pass
      exact ⟨value, (lives_after other off value).mpr (.inl ⟨here, new⟩)⟩
    · by_cases here : other = key
      · subst here
        exact absurd ⟨rfl, passes_own off has pass⟩ not_own
      · obtain ⟨value, alive⟩ :=
          contents.recorded other off other_valid has (passes_less other off other_valid here has pass)
        exact ⟨value, (lives_after other off value).mpr (.inr ⟨here, alive⟩)⟩
  · intro other value here
    by_cases same : other = key
    · subst same
      rw [Function.update_self, Option.map_eq_some_iff] at here
      obtain ⟨⟨off, written_value⟩, there, rfl⟩ := here
      exact ⟨off, (lives_after other off _).mpr (.inl ⟨rfl, there⟩)⟩
    · rw [Function.update_of_ne same] at here
      obtain ⟨off, alive⟩ := contents.mapped other value here
      exact ⟨off, (lives_after other off value).mpr (.inr ⟨same, alive⟩)⟩
  · intro third off value other other_value first second
    rcases (lives_after third off value).mp first with ⟨rfl, same⟩ | ⟨different, alive⟩
    · rcases (lives_after third other other_value).mp second with ⟨-, again⟩ | ⟨different, -⟩
      · rw [same] at again
        cases again
        rfl
      · exact absurd rfl different
    · rcases (lives_after third other other_value).mp second with ⟨same, -⟩ | ⟨-, again⟩
      · exact absurd same different
      · exact contents.single third off value other other_value alive again
  · intro other off other_valid has
    rcases (has_after other off other_valid).mp has with ⟨-, value, new⟩ | ⟨has, -⟩
    · exact word off value new
    · exact contents.word other off other_valid has

end Changes

/-! ### Checks and lookups -/

section Checks

variable {layout : Layout} {v_blocks : Nat → VPageBlock K V} {key : K} {off : KVOffset} {value : V}

theorem is_tombstone_of_lives (lives : Lives layout v_blocks key off value) :
    off.is_tombstone = false := by
  rw [Bool.eq_false_iff]
  intro tombstone
  exact lives.ne_tombstone (Cceh.is_tombstone_iff.mp tombstone)

end Checks

section Lookup

variable [DecidableEq K]

variable {pool : Pool K V} {map_ : Index} {map : K → Option V} {key other : K} {off : KVOffset}
  {value other_value : V}

theorem check_key_equality_iff (lives : Lives config.layout pool.v_blocks key off value) :
    check_key_equality pool other off = true ↔ key = other := by
  have live := lives.live.2
  unfold check_key_equality
  dsimp only
  rw [is_tombstone_of_lives lives, live, lives.data]
  simp

/-- Of the entries with the word of a key the check passes those of the key. -/
theorem key_check_iff (lives : Lives config.layout pool.v_blocks key off value)
    (word : config.keys.key_checker key = config.keys.key_checker other) :
    key_check_fn config pool other off = true ↔ key = other := by
  unfold key_check_fn
  cases fingerprint : config.keys.using_fp with
  | false =>
      have same := config.keys.told_apart fingerprint word
      simp [same]
  | true => simp [check_key_equality_iff lives]

/-- Where the check passes a record of another key, keys are their own words. -/
theorem key_check_other {after : Pool K V} {third : KVOffset}
    (lives : Lives config.layout pool.v_blocks key off value) (different : other ≠ key)
    (passes : key_check_fn config pool other off = true) :
    key_check_fn config after other third = true := by
  unfold key_check_fn at passes ⊢
  cases fingerprint : config.keys.using_fp with
  | false => rfl
  | true =>
      rw [fingerprint] at passes
      exact absurd ((check_key_equality_iff lives).mp passes).symm different

/-- Where no key has been written, the check passes less. -/
theorem key_check_less {after : Pool K V}
    (kept : (after.v_blocks off.block_number off.page_number).free_slots off.data_offset = false →
      (pool.v_blocks off.block_number off.page_number).free_slots off.data_offset = false ∧
        ((after.v_blocks off.block_number off.page_number).data off.data_offset).1 =
          ((pool.v_blocks off.block_number off.page_number).data off.data_offset).1)
    (passes : key_check_fn config after key off = true) :
    key_check_fn config pool key off = true := by
  unfold key_check_fn check_key_equality at passes ⊢
  dsimp only at passes ⊢
  cases fingerprint : config.keys.using_fp with
  | false => rfl
  | true =>
      rw [fingerprint] at passes
      simp only [Bool.not_true, Bool.false_or, Bool.and_eq_true, Bool.not_eq_true',
        decide_eq_true_eq] at passes ⊢
      obtain ⟨⟨real, taken⟩, data⟩ := passes
      obtain ⟨before, same⟩ := kept taken
      rw [← same]
      exact ⟨⟨real, before⟩, data⟩

abbrev Agrees (config : Config K) (pool : Pool K V) (map_ : Index) (map : K → Option V) : Prop :=
  Contents config (Lives config.layout pool.v_blocks)
    (fun key off => key_check_fn config pool key off = true) map_ map

/-- What a lookup answers: the offset of the key's record, or none. -/
theorem map_get_eq {client : Client K V}
    (contents : Agrees config client.writer.toPool client.map_ map)
    (valid : config.keys.Valid key) :
    (∃ value, map key = some value ∧
        Lives config.layout client.writer.v_blocks key (client.map_get config key) value) ∨
      map key = none ∧ client.map_get config key = .Tombstone := by
  unfold Client.map_get
  have small := config.keys.key_checker_lt key
  cases @Index.Get_spec config.keys.hasher client.map_ (config.keys.key_checker key)
      (key_check_fn config client.writer.toPool key) small valid.1 contents.index with
  | inl found =>
      left
      obtain ⟨value, lives⟩ := contents.recorded key _ valid found.1 found.2
      exact ⟨value, (contents.indexed _ _ _ lives).2.2, lives⟩
  | inr missing =>
      right
      refine ⟨?_, missing.1⟩
      by_contra present
      obtain ⟨value, here⟩ := Option.ne_none_iff_exists'.mp present
      obtain ⟨off, lives⟩ := contents.mapped key value here
      have refused := missing.2 off (contents.indexed _ _ _ lives).2.1
      have passed : key_check_fn config client.writer.toPool key off = true :=
        (key_check_iff lives rfl).mpr rfl
      rw [refused] at passed
      cases passed

end Lookup

end Hiom.Viper.Records.Plain
