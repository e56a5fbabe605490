import Hiom.Client.Mirror
import Hiom.Client.Store
import Hiom.Viper.Clients

/-!
What the calls of HiOM's clients do to the pages of Viper, where the old offset
of a key comes from the tiers.
-/

namespace Hiom.Client

open Codec (expand)
open Viper (version_lock_t)
open Viper.Records (KVOffset Layout Lives Pool VPage)
open Viper.Records.Plain (Ready claim_wrote)

variable {K V : Type}

/-! ### Pages in use -/

def KeepsUse (before after : Pool K V) : Prop :=
  ∀ bn pn, (before.v_blocks bn pn).version_lock.is_used = true →
    (after.v_blocks bn pn).version_lock.is_used = true

section Use

variable {layout : Layout} {writer after : Viper.Records.Writer K V} {pool middle last : Pool K V}
  {rand : Nat} {key : K} {value : V} {off : KVOffset}

theorem KeepsUse.trans (first : KeepsUse pool middle) (second : KeepsUse middle last) :
    KeepsUse pool last :=
  fun bn pn used => second bn pn (first bn pn used)

theorem KeepsUse.proper (keeps : KeepsUse pool last) (off : KVOffset)
    (proper : Proper layout pool off) : Proper layout last off :=
  ⟨proper.word, proper.page_lt, proper.slot_lt, keeps _ _ proper.used⟩

theorem set_page_keeps {bn pn : Nat} {page : VPage K V}
    (used : (writer.page bn pn).version_lock.is_used = true → page.version_lock.is_used = true) :
    KeepsUse writer.toPool (writer.set_page bn pn page).toPool := by
  intro bn' pn' before
  have pages := @Viper.Records.Writer.page_set_page K V writer bn pn page bn' pn'
  unfold Viper.Records.Writer.page at pages
  rw [pages]
  split
  · rename_i here
    rw [here.1, here.2] at before
    exact used before
  · exact before

theorem moved_keeps (moved : writer.Moved layout after) : KeepsUse writer.toPool after.toPool := by
  intro bn pn used
  by_cases own : bn = after.v_block_number ∧ pn = after.v_page_number
  · rw [own.1, own.2]
    exact moved.fresh.used
  · exact (moved.like bn pn own).used.trans used

theorem entered_keeps (entered : writer.Entered layout after) :
    KeepsUse writer.toPool after.toPool := by
  intro bn pn used
  by_cases own : bn = after.v_block_number ∧ pn = after.v_page_number
  · rw [own.1, own.2]
    exact entered.fresh.used
  · exact (entered.like bn pn own).used.trans used

theorem unlock_keeps : KeepsUse writer.toPool writer.unlock_v_page.toPool := by
  apply set_page_keeps
  intro used
  exact (version_lock_t.used_kept _).2

variable {config : Viper.Records.Plain.Config K}

theorem claim_keeps {tries : Nat} (ready : Ready config.layout writer)
    (claimed : Viper.Records.Plain.Client.claim config rand key value tries writer =
      some (off, after)) : KeepsUse writer.toPool after.toPool := by
  induction tries generalizing writer with
  | zero => cases claimed
  | succ tries ih =>
      unfold Viper.Records.Plain.Client.claim at claimed
      rw [Option.bind_eq_bind, Option.bind_eq_some_iff] at claimed
      obtain ⟨⟨found, middle⟩, tried, claimed⟩ := claimed
      rcases Viper.Records.Writer.claim_slot_cases ready.placed ready.unlocked ready.used tried with
        ⟨slot, rfl, -⟩ | ⟨rfl, moved⟩
      · cases claimed
        unfold Viper.Records.Writer.claim_slot at tried
        rw [Option.bind_eq_bind, Option.bind_eq_some_iff] at tried
        obtain ⟨page, locks, tried⟩ := tried
        obtain ⟨-, rfl⟩ := VPage.lock_eq_some.mp locks
        split at tried
        · rw [Option.bind_eq_bind, Option.bind_eq_some_iff] at tried
          obtain ⟨next, -, impossible⟩ := tried
          cases impossible
        · cases tried
          apply set_page_keeps
          intro used
          exact ((version_lock_t.used_kept _).1 ready.unlocked).trans used
      · exact (moved_keeps moved).trans (ih (ready.moved moved) claimed)

end Use

/-! ### The resolvers -/

section Resolver

variable {config : Config K} {keys : Set K} {clean single : Prop} {current : K → Option KVOffset}
  {pool : Pool K V} {tiers : Tiers} {base : Nat → Option Nat} {key : K} {off : KVOffset} {value : V}

theorem hot_lookup_eq (config : Config K) (tiers : Tiers) (key : K) :
    hot_lookup config key tiers =
      (tiers.hot.cached config.hot_buckets_pow2 (config.keys.key_fingerprint key),
        tiers.set_hot ((HotTier.lookup config.hot_buckets_pow2
          (config.keys.key_fingerprint key)).run HotTier.hotSem tiers.hot).2) := by
  obtain ⟨answered, -, -⟩ := @HotTier.lookup_slots config.hot_buckets_pow2 tiers.hot
    (config.keys.key_fingerprint key)
  unfold hot_lookup
  dsimp only
  rw [answered]

theorem cold_lookup_eq (index : Index config keys clean current none pool tiers base)
    (hot : HotTier.Hot) (key : K) : cold_lookup config key (tiers.set_hot hot) =
      some ((base (config.keys.key_id_of key)).map KVOffset.mk) := by
  have answered := index.maps.lookup (config.keys.key_id_of key)
  unfold cold_lookup Tiers.set_hot
  rw [Keys.key_fingerprint64_eq, answered]
  rfl

variable [DecidableEq K]

theorem verified_of_lives (lives : Lives config.viper.layout pool.v_blocks key off value)
    (free : (pool.v_blocks off.block_number off.page_number).version_lock.is_locked = false) :
    verified pool key off = some off := by
  have taken := lives.live.2
  have data := lives.data
  unfold verified Viper.Records.Writer.hiom_read_at_offset
    Viper.Records.Writer.hiom_read_at_offset_status reader Viper.Records.Writer.page
  dsimp only
  rw [taken, free, data]
  simp

theorem verified_eq_some {answer : KVOffset} (proper : Proper config.viper.layout pool off)
    (found : verified pool key off = some answer) :
    answer = off ∧ (∃ value, Lives config.viper.layout pool.v_blocks key off value) ∧
      (pool.v_blocks off.block_number off.page_number).version_lock.is_locked = false := by
  unfold verified Viper.Records.Writer.hiom_read_at_offset
    Viper.Records.Writer.hiom_read_at_offset_status reader Viper.Records.Writer.page at found
  dsimp only at found
  cases taken : (pool.v_blocks off.block_number off.page_number).free_slots off.data_offset with
  | true =>
      rw [taken] at found
      cases found
  | false =>
      have lives := proper.lives taken
      cases free : (pool.v_blocks off.block_number off.page_number).version_lock.is_locked with
      | true =>
          rw [taken, free] at found
          cases found
      | false =>
          rw [taken, free] at found
          simp only [Bool.false_eq_true, if_false] at found
          split at found
          · rename_i own
            rw [own] at lives
            exact ⟨(Option.some.inj found).symm, ⟨_, lives⟩, rfl⟩
          · cases found

/-- What the old-offset resolver answers: a record of the key on a page that is
not locked, and the current one unless its page is locked. -/
structure Resolved (config : Config K) (current : K → Option KVOffset) (pool : Pool K V) (key : K)
    (off : KVOffset) : Prop where
  real : off ≠ .Tombstone → (∃ value, Lives config.viper.layout pool.v_blocks key off value) ∧
    (pool.v_blocks off.block_number off.page_number).version_lock.is_locked = false
  found : ∀ cur, current key = some cur →
    (pool.v_blocks cur.block_number cur.page_number).version_lock.is_locked = false → off = cur

theorem old_offset_resolver_eq (index : Index config keys clean current none pool tiers base)
    (distinct : Set.InjOn config.keys.key_fingerprint keys)
    (alive : ∀ cur, current key = some cur →
      key ∈ keys ∧ ∃ value, Lives config.viper.layout pool.v_blocks key cur value) :
    ∃ off after, old_offset_resolver config pool key tiers = some (off, after) ∧
      Index config keys clean current none pool after base ∧
      after.commit_buf = tiers.commit_buf ∧ Resolved config current pool key off := by
  have looked := index.looked_up (config.keys.key_fingerprint key)
  have occupied := config.keys.key_fingerprint_pos key
  unfold old_offset_resolver
  rw [hot_lookup_eq]
  dsimp only
  split
  · rename_i off found
    refine ⟨off, _, rfl, looked, rfl, ?_⟩
    obtain ⟨packed, cached, checked⟩ := Option.bind_eq_some_iff.mp found
    obtain ⟨owner, -, -, proper, -⟩ := index.cached _ packed occupied cached
    obtain ⟨rfl, lives, free⟩ := verified_eq_some proper checked
    constructor
    · exact fun _ => ⟨lives, free⟩
    · intro cur present _
      exact index.cached_current distinct (alive cur present).1 (Option.some_ne_none key).symm present
        cached
  · rename_i missing
    rw [cold_lookup_eq index]
    refine ⟨_, _, rfl, looked, rfl, ?_⟩
    constructor
    · intro real
      cases known : (Option.map KVOffset.mk (base (config.keys.key_id_of key))).bind
          (verified pool key) with
      | none =>
          rw [known] at real
          exact absurd rfl real
      | some off =>
          obtain ⟨there, told, checked⟩ := Option.bind_eq_some_iff.mp known
          obtain ⟨word, here, rfl⟩ := Option.map_eq_some_iff.mp told
          obtain ⟨rfl, lives, free⟩ := verified_eq_some (index.known _ word here).2 checked
          exact ⟨lives, free⟩
    · intro cur present free
      obtain ⟨member, value, lives⟩ := alive cur present
      have checked := verified_of_lives lives free
      cases cached : tiers.hot.cached config.hot_buckets_pow2 (config.keys.key_fingerprint key) with
      | some packed =>
          have expanded := index.cached_current distinct member (Option.some_ne_none key).symm present
            cached
          rw [cached, Option.bind_some, expanded, checked] at missing
          cases missing
      | none =>
          have known := index.base_current member (Option.some_ne_none key).symm present cached
          rw [known, Option.map_some, Option.bind_some]
          exact congrArg (Option.getD · KVOffset.Tombstone) checked

end Resolver

/-! ### Puts -/

section Calls

variable {config : Config K} {keys : Set K} {clean single : Prop} {current : K → Option KVOffset}
  {writer after : Viper.Records.Writer K V} {tiers tiers_after : Tiers} {base : Nat → Option Nat}
  {key : K} {value : V} {off : KVOffset}

def Unlocked (pool : Pool K V) : Prop :=
  ∀ bn pn, (pool.v_blocks bn pn).version_lock.is_locked = false

structure PutPages (layout : Layout) (writer : Viper.Records.Writer K V) (key : K) (value : V)
    (off old_offset : KVOffset) (after : Viper.Records.Writer K V) : Prop where
  effect : writer.Effect layout false after
  keeps : KeepsUse writer.toPool after.toPool
  fresh : ∀ other other_value, ¬Lives layout writer.v_blocks other off other_value
  lives : ∀ other third third_value, Lives layout after.v_blocks other third third_value ↔
    other = key ∧ third = off ∧ third_value = value ∨
      Lives layout writer.v_blocks other third third_value ∧ third ≠ old_offset
  old : old_offset ≠ .Tombstone → ∃ old_value, Lives layout writer.v_blocks key old_offset old_value

/-- The slot is taken and the lock of its page given back, and between them the
old slot is freed. -/
theorem put_pages {middle freed : Viper.Records.Writer K V} {old_offset : KVOffset}
    (wrote : writer.Wrote config.viper.layout middle key off value)
    (keeps : KeepsUse writer.toPool middle.toPool)
    (resolved : Resolved config current middle.toPool key old_offset)
    (frees : (if old_offset.is_tombstone then some middle
      else middle.free_occupied_slot old_offset) = some freed) :
    PutPages config.viper.layout writer key value off old_offset freed.unlock_v_page ∧
      KeepsUse middle.toPool freed.unlock_v_page.toPool := by
  have own_locked : (middle.v_blocks off.block_number off.page_number).version_lock.is_locked =
      true := by
    rw [wrote.block, wrote.page]
    exact wrote.locked
  have not_off : old_offset ≠ .Tombstone → old_offset ≠ off := by
    rintro real rfl
    rw [(resolved.real real).2] at own_locked
    cases own_locked
  have was : ∀ other third third_value,
      Lives config.viper.layout middle.v_blocks other third third_value ↔
      other = key ∧ third = off ∧ third_value = value ∨
        Lives config.viper.layout writer.v_blocks other third third_value := by
    intro other third third_value
    by_cases here : third = off
    · subst here
      constructor
      · intro lives
        obtain ⟨same_key, same_value⟩ := wrote.written.same_record lives
        exact .inl ⟨same_key, rfl, same_value⟩
      · rintro (⟨rfl, -, rfl⟩ | before)
        · exact wrote.written
        · exact absurd before (wrote.fresh other third_value)
    · rw [wrote.lives other third third_value here]
      constructor
      · exact .inr
      · rintro (⟨-, same, -⟩ | before)
        · exact absurd same here
        · exact before
  split at frees
  · rename_i tombstone
    cases frees
    have nothing := Cceh.is_tombstone_iff.mp tombstone
    refine ⟨?_, unlock_keeps⟩
    constructor
    · exact wrote.toEffect.unlock
    · exact keeps.trans unlock_keeps
    · exact wrote.fresh
    · intro other third third_value
      rw [Viper.Records.Writer.unlock_v_page_lives wrote.used, was]
      constructor
      · rintro (new | before)
        · exact .inl new
        · right
          refine ⟨before, ?_⟩
          rw [nothing]
          exact before.ne_tombstone
      · rintro (new | ⟨before, -⟩)
        · exact .inl new
        · exact .inr before
    · exact fun real => absurd nothing real
  · rename_i not_tombstone
    have real : old_offset ≠ .Tombstone := fun same => not_tombstone (Cceh.is_tombstone_iff.mpr same)
    obtain ⟨⟨old_value, alive⟩, free⟩ := resolved.real real
    obtain ⟨other, answered, spec⟩ :=
      Viper.Records.Writer.free_occupied_slot_freed alive (fun _ => free)
    rw [answered] at frees
    cases frees
    have effect := spec.effect wrote.toEffect
    obtain ⟨page, set, -, -, -, used⟩ :=
      Viper.Records.Writer.free_occupied_slot_eq alive.live.1 (fun _ => free)
    have freed_keeps : KeepsUse middle.toPool freed.toPool := by
      rw [answered] at set
      rw [Option.some.inj set]
      exact set_page_keeps (fun _ => used)
    refine ⟨?_, freed_keeps.trans unlock_keeps⟩
    constructor
    · exact effect.unlock
    · exact (keeps.trans freed_keeps).trans unlock_keeps
    · exact wrote.fresh
    · intro third fourth fourth_value
      rw [Viper.Records.Writer.unlock_v_page_lives effect.used, spec.lives, was]
      constructor
      · rintro ⟨new | before, different⟩
        · exact .inl new
        · exact .inr ⟨before, different⟩
      · rintro (new | ⟨before, different⟩)
        · refine ⟨.inl new, ?_⟩
          rw [new.2.1]
          exact (not_off real).symm
        · exact ⟨.inr before, different⟩
    · intro _
      rcases (was key old_offset old_value).mp alive with ⟨-, same, -⟩ | before
      · exact absurd same (not_off real)
      · exact ⟨old_value, before⟩

variable [DecidableEq K]

/-- What a put of Viper answers and leaves. -/
theorem viper_put_spec {rand : Nat} {assume_new is_new_item : Bool}
    (ready : Ready config.viper.layout writer) (unlocked : Unlocked writer.toPool)
    (index : Index config keys clean current none writer.toPool tiers base)
    (distinct : Set.InjOn config.keys.key_fingerprint keys)
    (recorded : Recorded config.viper.layout keys single current writer.toPool)
    (done : viper_put config rand key value assume_new writer tiers =
      some ((is_new_item, off), after, tiers_after)) :
    ∃ old_offset, PutPages config.viper.layout writer key value off old_offset after ∧
      Index config keys clean current none after.toPool tiers_after base ∧
      tiers_after.commit_buf = tiers.commit_buf ∧ is_new_item = old_offset.is_tombstone ∧
      (∃ middle, Viper.Records.Plain.Client.claim config.viper rand key value 2 writer =
        some (off, middle)) ∧
      (assume_new = true → old_offset = .Tombstone) ∧
      (assume_new = false → ∀ cur, current key = some cur →
        ¬(cur.block_number = off.block_number ∧ cur.page_number = off.page_number) →
        old_offset = cur) := by
  unfold viper_put at done
  rw [Option.bind_eq_bind, Option.bind_eq_some_iff] at done
  obtain ⟨⟨kv_offset, middle⟩, claimed, done⟩ := done
  have frees : ∃ old_offset freed,
      (if assume_new then some (KVOffset.Tombstone, tiers)
        else old_offset_resolver config middle.toPool key tiers) = some (old_offset, tiers_after) ∧
      (if old_offset.is_tombstone then some middle else middle.free_occupied_slot old_offset) =
        some freed ∧
      kv_offset = off ∧ is_new_item = old_offset.is_tombstone ∧ after = freed.unlock_v_page := by
    have ended : ∀ old_offset tiers_middle, (if old_offset.is_tombstone then (do
          let writer ← some middle
          some ((old_offset.is_tombstone, kv_offset), writer.unlock_v_page, tiers_middle))
        else do
          let writer ← middle.free_occupied_slot old_offset
          some ((old_offset.is_tombstone, kv_offset), writer.unlock_v_page, tiers_middle)) =
          some ((is_new_item, off), after, tiers_after) →
        ∃ freed, (if old_offset.is_tombstone then some middle
            else middle.free_occupied_slot old_offset) = some freed ∧
          tiers_middle = tiers_after ∧ kv_offset = off ∧ is_new_item = old_offset.is_tombstone ∧
          after = freed.unlock_v_page := by
      intro old_offset tiers_middle rest
      split at rest
      · rename_i tombstone
        cases rest
        exact ⟨middle, if_pos tombstone, rfl, rfl, rfl, rfl⟩
      · rename_i real
        rw [Option.bind_eq_bind, Option.bind_eq_some_iff] at rest
        obtain ⟨freed, frees, same⟩ := rest
        cases same
        exact ⟨freed, (if_neg real).trans frees, rfl, rfl, rfl, rfl⟩
    dsimp only at done
    split at done
    · rename_i new
      rw [Option.bind_eq_bind, Option.bind_some] at done
      obtain ⟨freed, frees, rfl, rest⟩ := ended _ _ done
      exact ⟨_, freed, if_pos new, frees, rest⟩
    · rename_i looks
      rw [Option.bind_eq_bind, Option.bind_eq_some_iff] at done
      obtain ⟨⟨old_offset, tiers_middle⟩, answered, done⟩ := done
      obtain ⟨freed, frees, rfl, rest⟩ := ended _ _ done
      exact ⟨_, freed, (if_neg looks).trans answered, frees, rest⟩
  obtain ⟨old_offset, freed, answered, frees, rfl, rfl, rfl⟩ := frees
  have wrote := claim_wrote ready claimed
  have keeps := claim_keeps ready claimed
  have index_middle := index.repaged keeps.proper
  have alive : ∀ cur, current key = some cur →
      key ∈ keys ∧ ∃ value, Lives config.viper.layout middle.v_blocks key cur value := by
    intro cur present
    obtain ⟨cur_value, lives⟩ := recorded.alive key cur present
    have different : cur ≠ kv_offset := by
      rintro rfl
      exact wrote.fresh key cur_value lives
    exact ⟨recorded.only key cur cur_value lives,
      cur_value, (wrote.lives key cur cur_value different).mpr lives⟩
  cases assume_new with
  | true =>
      cases answered
      have resolved : Resolved config (fun _ => none) middle.toPool key .Tombstone := by
        constructor
        · exact fun real => absurd rfl real
        · intro cur present
          cases present
      obtain ⟨pages, -⟩ := put_pages wrote keeps resolved frees
      refine ⟨.Tombstone, pages, index.repaged pages.keeps.proper, rfl, rfl, ⟨middle, claimed⟩,
        fun _ => rfl, ?_⟩
      intro impossible
      cases impossible
  | false =>
      obtain ⟨answer, last, resolves, index_last, buffer, resolved⟩ :=
        old_offset_resolver_eq index_middle distinct alive
      have same : (answer, last) = (old_offset, tiers_after) :=
        Option.some.inj (resolves.symm.trans answered)
      cases same
      obtain ⟨pages, freed_keeps⟩ := put_pages wrote keeps resolved frees
      refine ⟨_, pages, index_last.repaged freed_keeps.proper, buffer, rfl, ⟨middle, claimed⟩, ?_, ?_⟩
      · intro impossible
        cases impossible
      · intro _ cur present elsewhere
        apply resolved.found cur present
        apply wrote.unlocked _ _ _ (unlocked _ _)
        rw [← wrote.block, ← wrote.page]
        exact elsewhere

/-! ### Updates -/

omit [DecidableEq K] in
theorem set_page_unlocked {bn pn : Nat} {page : VPage K V} (unlocked : Unlocked writer.toPool)
    (free : page.version_lock.is_locked = false) :
    Unlocked (writer.set_page bn pn page).toPool := by
  intro bn' pn'
  have pages := @Viper.Records.Writer.page_set_page K V writer bn pn page bn' pn'
  unfold Viper.Records.Writer.page at pages
  rw [pages]
  split
  · exact free
  · exact unlocked bn' pn'

structure Tried (layout : Layout) (writer : Viper.Records.Writer K V) (key : K) (update_fn : V → V)
    (off : KVOffset) (applied : Bool) (after : Viper.Records.Writer K V) : Prop where
  effect : ∀ {before : Viper.Records.Writer K V}, before.Effect layout false writer →
    before.Effect layout false after
  keeps : KeepsUse writer.toPool after.toPool
  unlocked : Unlocked after.toPool
  missed : applied = false → (∀ value, ¬Lives layout writer.v_blocks key off value) ∧
    ∀ other third value, Lives layout after.v_blocks other third value ↔
      Lives layout writer.v_blocks other third value
  hit : applied = true → ∃ value, Lives layout writer.v_blocks key off value ∧
    ∀ other third new, Lives layout after.v_blocks other third new ↔
      other = key ∧ third = off ∧ new = update_fn value ∨
        third ≠ off ∧ Lives layout writer.v_blocks other third new

theorem try_at_spec {layout : Layout} (unlocked : Unlocked writer.toPool)
    (proper : Proper layout writer.toPool off) (key : K) (update_fn : V → V) :
    ∃ applied after, writer.try_at key update_fn off = some (applied, after) ∧
      Tried layout writer key update_fn off applied after := by
  have free : (writer.page off.block_number off.page_number).version_lock.is_locked = false :=
    unlocked _ _
  have used : (writer.page off.block_number off.page_number).version_lock.is_used = true := proper.used
  have locked := VPage.lock_eq_some.mpr ⟨free, rfl⟩
  unfold Viper.Records.Writer.try_at
  dsimp only
  split
  · rename_i vacant
    refine ⟨false, writer, rfl, fun effect => effect, fun _ _ still => still, unlocked, ?_, ?_⟩
    · intro _
      refine ⟨?_, fun _ _ _ => Iff.rfl⟩
      intro value lives
      have taken := lives.live.2
      unfold Viper.Records.Writer.page at vacant
      rw [vacant] at taken
      cases taken
    · intro impossible
      cases impossible
  · rename_i taken
    rw [locked]
    simp only [Option.bind_eq_bind, Option.bind_some]
    have lives := proper.lives (Bool.not_eq_true _ ▸ taken)
    have released : ∀ page : VPage K V, page.version_lock =
        (writer.page off.block_number off.page_number).version_lock + 1#8 →
        page.unlock.version_lock.is_locked = false ∧ page.unlock.version_lock.is_used = true := by
      intro page lock
      unfold VPage.unlock
      rw [lock]
      exact ⟨version_lock_t.released_free (version_lock_t.locked_version free).2,
        (version_lock_t.used_kept _).2⟩
    -- the page with its lock given back, and another record in the slot or not
    have written : ∀ page : VPage K V,
        page.version_lock.is_locked = false ∧ page.version_lock.is_used = true →
        page.free_slots = (writer.page off.block_number off.page_number).free_slots →
        (∀ {before : Viper.Records.Writer K V}, before.Effect layout false writer →
          before.Effect layout false (writer.set_page off.block_number off.page_number page)) ∧
        KeepsUse writer.toPool (writer.set_page off.block_number off.page_number page).toPool ∧
        Unlocked (writer.set_page off.block_number off.page_number page).toPool := by
      intro page lock free_slots
      refine ⟨?_, set_page_keeps (fun _ => lock.2), set_page_unlocked unlocked lock.1⟩
      intro before effect
      apply effect.set_page (lock.1.trans free.symm) (lock.2.trans used.symm)
      intro s live
      rw [VPage.Live, free_slots] at live
      exact ⟨used, live.2⟩
    split
    · rename_i other_key
      obtain ⟨effect, keeps, still_unlocked⟩ := written _ (released
        { writer.page off.block_number off.page_number with
          version_lock := (writer.page off.block_number off.page_number).version_lock + 1#8 } rfl) rfl
      refine ⟨false, _, rfl, effect, keeps, still_unlocked, ?_, ?_⟩
      · intro _
        constructor
        · intro value own
          have data : ((writer.page off.block_number off.page_number).data off.data_offset).1 = key :=
            congrArg Prod.fst own.data
          rw [data] at other_key
          simp at other_key
          exact taken other_key
        · intro other third value
          apply Viper.Records.Writer.lives_set_page_same
          · intro s
            unfold VPage.Live
            rw [(released _ rfl).2, used]
            rfl
          · rfl
      · intro impossible
        cases impossible
    · rename_i own
      simp only [Bool.or_eq_true, decide_eq_true_eq, not_or, not_not] at own
      rw [show ((writer.v_blocks off.block_number off.page_number).data off.data_offset).1 = key
        from own.2] at lives
      obtain ⟨effect, keeps, still_unlocked⟩ := written _ (released
        (VPage.write_value
          { writer.page off.block_number off.page_number with
            version_lock := (writer.page off.block_number off.page_number).version_lock + 1#8 }
          off.data_offset (update_fn
            ((writer.page off.block_number off.page_number).data off.data_offset).2)) rfl) rfl
      refine ⟨true, _, rfl, effect, keeps, still_unlocked, ?_, ?_⟩
      · intro impossible
        cases impossible
      · intro _
        refine ⟨_, lives, ?_⟩
        intro other third new
        apply Viper.Records.Writer.lives_set_page_value lives
        · rfl
        · unfold VPage.unlock VPage.write_value
          dsimp only
          rw [own.2]
          rfl
        · exact (released _ rfl).2

structure UpdatePages (config : Config K) (current : K → Option KVOffset)
    (writer : Viper.Records.Writer K V) (key : K) (update_fn : V → V) (updated : Bool)
    (after : Viper.Records.Writer K V) : Prop where
  effect : writer.Effect config.viper.layout false after
  keeps : KeepsUse writer.toPool after.toPool
  found : ∀ cur, current key = some cur → updated = true
  missed : updated = false → ∀ other third value,
    Lives config.viper.layout after.v_blocks other third value ↔
      Lives config.viper.layout writer.v_blocks other third value
  hit : updated = true → ∃ off value, Lives config.viper.layout writer.v_blocks key off value ∧
    (∀ cur, current key = some cur → off = cur) ∧
    ∀ other third new, Lives config.viper.layout after.v_blocks other third new ↔
      other = key ∧ third = off ∧ new = update_fn value ∨
        third ≠ off ∧ Lives config.viper.layout writer.v_blocks other third new

/-- The try at the offset that the resolver answers. -/
theorem update_cold_spec {middle : Viper.Records.Writer K V} {update_fn : V → V} {updated : Bool}
    (effect : writer.Effect config.viper.layout false middle)
    (keeps : KeepsUse writer.toPool middle.toPool) (unlocked : Unlocked middle.toPool)
    (same : ∀ other third value, Lives config.viper.layout middle.v_blocks other third value ↔
      Lives config.viper.layout writer.v_blocks other third value)
    (index : Index config keys clean current none middle.toPool tiers base)
    (distinct : Set.InjOn config.keys.key_fingerprint keys)
    (recorded : Recorded config.viper.layout keys single current writer.toPool)
    (done : (do
      let (cold_off, tiers) ← old_offset_resolver config middle.toPool key tiers
      if cold_off.is_tombstone then some (false, middle, tiers)
      else do
        let (applied, writer) ← middle.try_at key update_fn cold_off
        some (applied, writer, tiers)) = some (updated, after, tiers_after)) :
    UpdatePages config current writer key update_fn updated after ∧
      Index config keys clean current none after.toPool tiers_after base ∧
      tiers_after.commit_buf = tiers.commit_buf := by
  have alive : ∀ cur, current key = some cur →
      key ∈ keys ∧ ∃ value, Lives config.viper.layout middle.v_blocks key cur value := by
    intro cur present
    obtain ⟨value, lives⟩ := recorded.alive key cur present
    exact ⟨recorded.only key cur value lives, value, (same key cur value).mpr lives⟩
  obtain ⟨off, last, resolves, index_last, buffer, resolved⟩ :=
    old_offset_resolver_eq index distinct alive
  rw [resolves, Option.bind_eq_bind, Option.bind_some] at done
  dsimp only at done
  split at done
  · rename_i tombstone
    cases done
    have nothing := Cceh.is_tombstone_iff.mp tombstone
    refine ⟨⟨effect, keeps, ?_, fun _ => same, ?_⟩, index_last, buffer⟩
    · intro cur present
      obtain ⟨-, value, lives⟩ := alive cur present
      rw [resolved.found cur present (unlocked _ _)] at nothing
      exact absurd nothing lives.ne_tombstone
    · intro impossible
      cases impossible
  · rename_i not_tombstone
    rw [Option.bind_eq_bind, Option.bind_eq_some_iff] at done
    obtain ⟨⟨applied, next⟩, tries, ended⟩ := done
    cases ended
    obtain ⟨⟨value, lives⟩, -⟩ :=
      resolved.real (fun tombstone => not_tombstone (Cceh.is_tombstone_iff.mpr tombstone))
    obtain ⟨answer, next, tried, spec⟩ :=
      try_at_spec unlocked (Proper.of_lives lives) key update_fn
    rw [tried] at tries
    cases tries
    have hits : applied = true := by
      by_contra missed
      exact (spec.missed (Bool.eq_false_iff.mpr missed)).1 value lives
    refine ⟨⟨spec.effect effect, keeps.trans spec.keeps, fun _ _ => hits, ?_, ?_⟩,
      index_last.repaged spec.keeps.proper, buffer⟩
    · intro missed
      rw [hits] at missed
      cases missed
    · intro _
      obtain ⟨old_value, was, now⟩ := spec.hit hits
      refine ⟨off, old_value, (same key off old_value).mp was, ?_, ?_⟩
      · exact fun cur present => resolved.found cur present (unlocked _ _)
      · intro other third new
        rw [now, same]

theorem viper_update_spec {update_fn : V → V} {updated : Bool}
    (ready : Ready config.viper.layout writer) (unlocked : Unlocked writer.toPool)
    (index : Index config keys clean current none writer.toPool tiers base)
    (distinct : Set.InjOn config.keys.key_fingerprint keys)
    (recorded : Recorded config.viper.layout keys single current writer.toPool)
    (done : viper_update config key update_fn writer tiers = some (updated, after, tiers_after)) :
    UpdatePages config current writer key update_fn updated after ∧
      Index config keys clean current none after.toPool tiers_after base ∧
      tiers_after.commit_buf = tiers.commit_buf := by
  have effect := Viper.Records.Writer.Effect.refl ready.placed ready.unlocked ready.used
  have looked := index.looked_up (config.keys.key_fingerprint key)
  have cold := fun middle => @update_cold_spec K V config keys clean single current writer after
    (tiers.set_hot ((HotTier.lookup config.hot_buckets_pow2 (config.keys.key_fingerprint key)).run
      HotTier.hotSem tiers.hot).2) tiers_after base key _ middle update_fn updated
  unfold viper_update hot_only_resolver at done
  rw [hot_lookup_eq] at done
  dsimp only at done
  cases cached : tiers.hot.cached config.hot_buckets_pow2 (config.keys.key_fingerprint key) with
  | none =>
      rw [cached] at done
      exact cold writer effect (fun _ _ used => used) unlocked (fun _ _ _ => Iff.rfl) looked distinct
        recorded done
  | some packed =>
      obtain ⟨owner, -, -, proper, -⟩ :=
        index.cached _ packed (config.keys.key_fingerprint_pos key) cached
      have real : (expand base_map packed).is_tombstone = false := by
        rw [Bool.eq_false_iff]
        exact fun tombstone => proper.ne_tombstone (Cceh.is_tombstone_iff.mp tombstone)
      obtain ⟨applied, middle, tried, spec⟩ := try_at_spec unlocked proper key update_fn
      rw [cached] at done
      simp only [Option.map_some, Option.getD_some, real, Bool.false_eq_true, if_false, tried,
        Option.bind_eq_bind, Option.bind_some] at done
      cases applied with
      | true =>
          cases done
          refine ⟨⟨spec.effect effect, spec.keeps, fun _ _ => rfl, ?_, ?_⟩,
            looked.repaged spec.keeps.proper, rfl⟩
          · intro impossible
            cases impossible
          · intro _
            obtain ⟨value, was, now⟩ := spec.hit rfl
            refine ⟨_, value, was, ?_, now⟩
            intro cur present
            exact index.cached_current distinct (recorded.only key _ value was)
              (Option.some_ne_none key).symm present cached
      | false =>
          exact cold middle (spec.effect effect) spec.keeps spec.unlocked (spec.missed rfl).2
            (looked.repaged spec.keeps.proper) distinct recorded done

/-! ### Removals -/

structure RemovePages (config : Config K) (current : K → Option KVOffset)
    (writer : Viper.Records.Writer K V) (key : K) (off : KVOffset)
    (after : Viper.Records.Writer K V) : Prop where
  effect : writer.Effect config.viper.layout false after
  keeps : KeepsUse writer.toPool after.toPool
  found : ∀ cur, current key = some cur → off = cur
  real : off ≠ .Tombstone → ∃ value, Lives config.viper.layout writer.v_blocks key off value
  lives : ∀ other third value, Lives config.viper.layout after.v_blocks other third value ↔
    Lives config.viper.layout writer.v_blocks other third value ∧ third ≠ off

theorem viper_remove_spec {removed : Bool}
    (ready : Ready config.viper.layout writer) (unlocked : Unlocked writer.toPool)
    (index : Index config keys clean current none writer.toPool tiers base)
    (distinct : Set.InjOn config.keys.key_fingerprint keys)
    (recorded : Recorded config.viper.layout keys single current writer.toPool)
    (done : viper_remove config key writer tiers = some (removed, after, tiers_after)) :
    ∃ off, RemovePages config current writer key off after ∧
      Index config keys clean current none after.toPool tiers_after base ∧
      tiers_after.commit_buf = tiers.commit_buf := by
  have effect := Viper.Records.Writer.Effect.refl ready.placed ready.unlocked ready.used
  have alive : ∀ cur, current key = some cur →
      key ∈ keys ∧ ∃ value, Lives config.viper.layout writer.v_blocks key cur value := by
    intro cur present
    obtain ⟨value, lives⟩ := recorded.alive key cur present
    exact ⟨recorded.only key cur value lives, value, lives⟩
  obtain ⟨off, last, resolves, index_last, buffer, resolved⟩ :=
    old_offset_resolver_eq index distinct alive
  have found : ∀ cur, current key = some cur → off = cur :=
    fun cur present => resolved.found cur present (unlocked _ _)
  unfold viper_remove at done
  rw [resolves, Option.bind_eq_bind, Option.bind_some] at done
  dsimp only at done
  refine ⟨off, ?_⟩
  split at done
  · rename_i tombstone
    cases done
    have nothing := Cceh.is_tombstone_iff.mp tombstone
    refine ⟨⟨effect, fun _ _ used => used, found, fun real => absurd nothing real, ?_⟩, index_last,
      buffer⟩
    intro other third value
    constructor
    · intro lives
      rw [nothing]
      exact ⟨lives, lives.ne_tombstone⟩
    · exact And.left
  · rename_i not_tombstone
    rw [Option.bind_eq_bind, Option.bind_eq_some_iff] at done
    obtain ⟨next, frees, ended⟩ := done
    cases ended
    obtain ⟨⟨value, lives⟩, free⟩ :=
      resolved.real (fun tombstone => not_tombstone (Cceh.is_tombstone_iff.mpr tombstone))
    obtain ⟨freed, answered, spec⟩ :=
      Viper.Records.Writer.free_occupied_slot_freed lives (fun _ => free)
    obtain ⟨page, set, -, -, -, used⟩ :=
      Viper.Records.Writer.free_occupied_slot_eq lives.live.1 (fun _ => free)
    rw [answered] at frees set
    cases frees
    have keeps : KeepsUse writer.toPool after.toPool := by
      rw [Option.some.inj set]
      exact set_page_keeps (fun _ => used)
    exact ⟨⟨spec.effect effect, keeps, found, fun _ => ⟨value, lives⟩, spec.lives⟩,
      index_last.repaged keeps.proper, buffer⟩

end Calls

end Hiom.Client
