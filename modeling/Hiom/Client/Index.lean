import Hiom.Client.Tiers
import Hiom.Cold.Dictionary
import Hiom.Viper.Lives

/-!
What the tiers know of the keys: of a key that has a record the offset of the
record is cached, waits in the key's lane or is in the cold tier, and while an
entry waits the key is pinned in the hot tier.
-/

namespace Hiom.Client

open Codec (expand)
open CommitBuffer.Wait (Op lane_of_fp64)
open HotTier (Hot)
open Viper.Records (KVOffset Layout Lives Pool)

variable {K V : Type}

/-! ### Keys that the tiers tell apart -/

section Keys

variable {config : Config K} {keys : Set K} {key other : K}

theorem fingerprint_of_id
    (same : config.keys.key_id_of key = config.keys.key_id_of other) :
    config.keys.key_fingerprint key = config.keys.key_fingerprint other := by
  unfold Keys.key_fingerprint Keys.h
  rw [same]

theorem fp64_of_id (same : config.keys.key_id_of key = config.keys.key_id_of other) :
    config.keys.key_fingerprint64 key = config.keys.key_fingerprint64 other := by
  rw [Keys.key_fingerprint64_eq, Keys.key_fingerprint64_eq, same]

/-- Keys with fingerprints of their own have ids of their own. -/
theorem eq_of_id (distinct : Set.InjOn config.keys.key_fingerprint keys) (first : key ∈ keys)
    (second : other ∈ keys) (same : config.keys.key_id_of key = config.keys.key_id_of other) :
    key = other :=
  distinct first second (fingerprint_of_id same)

end Keys

/-! ### Pages -/

structure Proper (layout : Layout) (pool : Pool K V) (off : KVOffset) : Prop where
  word : off.offset < 2 ^ 64
  page_lt : off.page_number < layout.num_pages_per_block
  slot_lt : off.data_offset < layout.num_slots_per_page
  used : (pool.v_blocks off.block_number off.page_number).version_lock.is_used = true

/-- Each current offset names a record of its key, and no key has one but those
of `keys`; a key may be asked to have no other. -/
structure Recorded (layout : Layout) (keys : Set K) (single : Prop) (current : K → Option KVOffset)
    (pool : Pool K V) : Prop where
  alive : ∀ key off, current key = some off → ∃ value, Lives layout pool.v_blocks key off value
  only : ∀ key off value, Lives layout pool.v_blocks key off value → key ∈ keys
  mapped : ∀ key off value, Lives layout pool.v_blocks key off value →
    off.block_number < pool.num_v_blocks
  single : single → ∀ key off value, Lives layout pool.v_blocks key off value →
    current key = some off

section Pages

variable {layout : Layout} {pool : Pool K V} {off : KVOffset} {key : K} {value : V}

theorem Proper.lives (proper : Proper layout pool off)
    (taken : (pool.v_blocks off.block_number off.page_number).free_slots off.data_offset = false) :
    Lives layout pool.v_blocks
      ((pool.v_blocks off.block_number off.page_number).data off.data_offset).1 off
      ((pool.v_blocks off.block_number off.page_number).data off.data_offset).2 :=
  ⟨proper.word, proper.page_lt, proper.slot_lt, ⟨proper.used, taken⟩, rfl⟩

theorem Proper.ne_tombstone (proper : Proper layout pool off) : off ≠ .Tombstone := by
  rintro rfl
  have page := proper.page_lt
  have few := layout.pages_le
  rw [KVOffset.tombstone_page] at page
  omega

theorem Proper.of_lives (lives : Lives layout pool.v_blocks key off value) :
    Proper layout pool off :=
  ⟨lives.word, lives.page_lt, lives.slot_lt, lives.live.1⟩

variable {config : Config K}

theorem holds_of_lives (lives : Lives layout pool.v_blocks key off value)
    (mapped : off.block_number < pool.num_v_blocks) :
    holds config pool (config.keys.key_id_of key) off = true := by
  have taken := lives.live.2
  have data := lives.data
  unfold holds Viper.Records.Writer.hiom_get_slot_key reader Viper.Records.Writer.page
  dsimp only
  rw [if_neg (Nat.not_le.mpr mapped), taken, data]
  simp

theorem lives_of_holds {kid : Nat} (proper : Proper layout pool off)
    (found : holds config pool kid off = true) :
    ∃ key value, config.keys.key_id_of key = kid ∧ Lives layout pool.v_blocks key off value := by
  unfold holds Viper.Records.Writer.hiom_get_slot_key reader Viper.Records.Writer.page at found
  dsimp only at found
  split at found
  · rename_i stored_key stored
    split at stored
    · cases stored
    · split at stored
      · cases stored
      · rename_i taken
        have lives := proper.lives (Bool.not_eq_true _ ▸ taken)
        rw [Option.some.inj stored] at lives
        exact ⟨_, _, eq_of_beq found, lives⟩
  · cases found

end Pages

/-! ### Entries -/

def Waits (config : Config K) (tiers : Tiers) (key : K) (e : CommitEntry) : Prop :=
  e ∈ tiers.commit_buf (lane_of_fp64 (config.keys.key_fingerprint64 key)) ∧
    e.key_id = config.keys.key_id_of key

structure Listed (config : Config K) (keys : Set K) (pool : Pool K V) (lane : Nat)
    (e : CommitEntry) : Prop where
  owner : ∃ key ∈ keys, e.key_id = config.keys.key_id_of key ∧
    e.fp64 = config.keys.key_fingerprint64 key
  lane : lane = lane_of_fp64 e.fp64
  put : e.op = .kPut → Proper config.viper.layout pool e.off
  pins : e.hot_slot.valid = true → e.op = .kPut

def Held (config : Config K) (tiers : Tiers) (key : K) : Prop :=
  ∀ e, Waits config tiers key e → e.op = .kPut ∧ e.hot_slot.valid = true ∧
    tiers.hot.Guards e.hot_slot.bucket_idx e.hot_slot.slot_idx (config.keys.key_fingerprint key)

inductive Told (config : Config K) (tiers : Tiers) (base : Nat → Option Nat) (key : K)
    (off : KVOffset) : Prop
  | settled (nothing : ∀ e, ¬Waits config tiers key e)
      (known : base (config.keys.key_id_of key) = some off.offset)
  | waiting (held : Held config tiers key) (latest : ∃ e, Waits config tiers key e ∧ e.off = off)

/-- What holds of the tiers, but of the key whose put is under way, where the
cold tier answers with `base`. A clean one has forgotten the keys without a
record, but for those whose removal waits. -/
structure Index (config : Config K) (keys : Set K) (clean : Prop) (current : K → Option KVOffset)
    (busy : Option K) (pool : Pool K V) (tiers : Tiers) (base : Nat → Option Nat) : Prop where
  intact : tiers.hot.Intact config.hot_buckets_pow2
  maps : ColdTier.Maps config.geo config.keys.route tiers.cold base
  cached : ∀ fp packed, fp ≠ 0 → tiers.hot.cached config.hot_buckets_pow2 fp = some packed →
    ∃ key ∈ keys, config.keys.key_fingerprint key = fp ∧
      Proper config.viper.layout pool (expand base_map packed) ∧
      (busy ≠ some key → ∀ off, current key = some off → expand base_map packed = off)
  known : ∀ kid word, base kid = some word →
    (∃ key ∈ keys, config.keys.key_id_of key = kid) ∧ Proper config.viper.layout pool ⟨word⟩
  listed : ∀ lane e, e ∈ tiers.commit_buf lane → Listed config keys pool lane e
  told : ∀ key ∈ keys, busy ≠ some key → ∀ off, current key = some off →
    Told config tiers base key off
  gone : ∀ key ∈ keys, current key = none → ∀ e, Waits config tiers key e →
    ∃ r, Waits config tiers key r ∧ r.op = .kRemove
  forgotten : clean → ∀ key ∈ keys, current key = none → (∀ e, ¬Waits config tiers key e) →
    base (config.keys.key_id_of key) = none
  apart : ∀ key ∈ keys, current key ≠ none → ∀ e, Waits config tiers key e →
    e.hot_slot.valid = true → ∀ lane other, other ∈ tiers.commit_buf lane →
    other.hot_slot.valid = true → other.hot_slot.bucket_idx = e.hot_slot.bucket_idx →
    other.hot_slot.slot_idx = e.hot_slot.slot_idx → other.key_id = e.key_id

section Index

variable {config : Config K} {keys : Set K} {clean : Prop} {current : K → Option KVOffset}
  {busy : Option K}
  {pool : Pool K V} {tiers : Tiers} {base : Nat → Option Nat} {key : K} {off : KVOffset}

theorem Index.created (config : Config K) (keys : Set K) (clean : Prop) (pool : Pool K V) :
    Index config keys clean (fun _ => none) none pool .created (fun _ => none) := by
  constructor
  · exact .empty
  · exact .create
  · intro fp packed occupied found
    have empty : Hot.Intact config.hot_buckets_pow2 Tiers.created.hot := .empty
    obtain ⟨i, -, same, -⟩ := (HotTier.cached_eq_some empty occupied).mp found
    exact absurd rfl (HotTier.occupied_of_fp occupied same)
  · intro kid word found
    cases found
  · intro lane e waits
    cases waits
  · intro key _ _ off present
    cases present
  · intro key _ _ e waits
    cases waits.1
  · intro _ key _ _ _
    rfl
  · intro key _ present
    exact absurd rfl present

/-- Entries of one id are one key's. -/
theorem Index.waits (index : Index config keys clean current busy pool tiers base) {lane : Nat}
    {e : CommitEntry} (waits : e ∈ tiers.commit_buf lane) :
    ∃ key ∈ keys, Waits config tiers key e ∧ e.fp64 = config.keys.key_fingerprint64 key ∧
      lane = lane_of_fp64 (config.keys.key_fingerprint64 key) := by
  have listed := index.listed lane e waits
  obtain ⟨key, member, id, fp64⟩ := listed.owner
  have lane_eq := listed.lane
  rw [fp64] at lane_eq
  rw [lane_eq] at waits
  exact ⟨key, member, ⟨waits, id⟩, fp64, lane_eq⟩

/-- A key that an entry waits for is cached, where its puts are pinned. -/
theorem Held.cached (held : Held config tiers key)
    (intact : tiers.hot.Intact config.hot_buckets_pow2) {e : CommitEntry}
    (waits : Waits config tiers key e) :
    ∃ packed, tiers.hot.cached config.hot_buckets_pow2 (config.keys.key_fingerprint key) =
        some packed ∧
      HotTier.unpack_off (tiers.hot.slots e.hot_slot.bucket_idx e.hot_slot.slot_idx) = packed := by
  obtain ⟨-, -, guards⟩ := held e waits
  exact ⟨_, intact.cached_at (config.keys.key_fingerprint_pos key) guards.fp, rfl⟩

/-- What is cached for a key that has a record is the record's offset. -/
theorem Index.cached_current (index : Index config keys clean current busy pool tiers base)
    (distinct : Set.InjOn config.keys.key_fingerprint keys) (member : key ∈ keys)
    (free : busy ≠ some key) (present : current key = some off) {packed : Nat}
    (found : tiers.hot.cached config.hot_buckets_pow2 (config.keys.key_fingerprint key) =
      some packed) : expand base_map packed = off := by
  obtain ⟨other, other_member, same, -, coherent⟩ :=
    index.cached _ packed (config.keys.key_fingerprint_pos key) found
  have one := distinct other_member member same
  subst one
  exact coherent free off present

/-- If it is not cached, the cold tier has it. -/
theorem Index.base_current (index : Index config keys clean current busy pool tiers base)
    (member : key ∈ keys) (free : busy ≠ some key) (present : current key = some off)
    (missing : tiers.hot.cached config.hot_buckets_pow2 (config.keys.key_fingerprint key) = none) :
    base (config.keys.key_id_of key) = some off.offset := by
  cases index.told key member free off present with
  | settled nothing known => exact known
  | waiting held latest =>
      obtain ⟨e, waits, -⟩ := latest
      obtain ⟨packed, found, -⟩ := held.cached index.intact waits
      rw [missing] at found
      cases found

/-! ### Changes of the cache -/

/-- The change caches nothing wrong and lets no pinned key go. -/
theorem Index.set_hot {hot : Hot} (index : Index config keys clean current busy pool tiers base)
    (intact : hot.Intact config.hot_buckets_pow2)
    (cached : ∀ fp packed, fp ≠ 0 → hot.cached config.hot_buckets_pow2 fp = some packed →
      tiers.hot.cached config.hot_buckets_pow2 fp = some packed ∨
        ∃ key ∈ keys, config.keys.key_fingerprint key = fp ∧
          Proper config.viper.layout pool (expand base_map packed) ∧
          (busy ≠ some key → ∀ off, current key = some off → expand base_map packed = off))
    (guards : ∀ key ∈ keys, current key ≠ none → ∀ bucket i,
      tiers.hot.Guards bucket i (config.keys.key_fingerprint key) →
      hot.Guards bucket i (config.keys.key_fingerprint key)) :
    Index config keys clean current busy pool (tiers.set_hot hot) base := by
  constructor
  · exact intact
  · exact index.maps
  · intro fp packed occupied found
    rcases cached fp packed occupied found with before | fresh
    · exact index.cached fp packed occupied before
    · exact fresh
  · exact index.known
  · exact index.listed
  · intro key member free off present
    cases index.told key member free off present with
    | settled nothing known => exact .settled nothing known
    | waiting held latest =>
        apply Told.waiting
        · intro e waits
          obtain ⟨put, valid, guarded⟩ := held e waits
          have some_off : current key ≠ none := by
            rw [present]
            exact Option.some_ne_none off
          exact ⟨put, valid, guards key member some_off _ _ guarded⟩
        · exact latest
  · exact index.gone
  · exact index.forgotten
  · exact index.apart

theorem Index.looked_up (index : Index config keys clean current busy pool tiers base) (fp : Nat) :
    Index config keys clean current busy pool
      (tiers.set_hot ((HotTier.lookup config.hot_buckets_pow2 fp).run HotTier.hotSem tiers.hot).2)
      base := by
  obtain ⟨-, slots, size⟩ := @HotTier.lookup_slots config.hot_buckets_pow2 tiers.hot fp
  have kept := index.intact.congr slots size
  apply index.set_hot kept
  · intro other packed occupied found
    left
    rw [HotTier.cached_congr index.intact kept occupied slots] at found
    exact found
  · intro key _ _ bucket i guarded
    exact HotTier.lookup_guards fp guarded

/-- An offset of a key of `keys` comes to the cache: the current one, if the key
has a record. -/
theorem Index.cached_offset {hot : Hot} {packed : Nat}
    (index : Index config keys clean current busy pool tiers base) (member : key ∈ keys)
    (proper : Proper config.viper.layout pool (expand base_map packed))
    (coherent : busy ≠ some key → ∀ off, current key = some off → expand base_map packed = off)
    (upserted : HotTier.Upserted config.hot_buckets_pow2 (config.keys.key_fingerprint key) packed
      tiers.hot hot) :
    Index config keys clean current busy pool (tiers.set_hot hot) base := by
  apply index.set_hot upserted.intact
  · intro fp other occupied found
    by_cases same : fp = config.keys.key_fingerprint key
    · right
      subst same
      rcases upserted.self with here | ⟨gone, -⟩
      · rw [here] at found
        cases found
        exact ⟨key, member, rfl, proper, coherent⟩
      · rw [gone] at found
        cases found
    · left
      rcases upserted.others fp occupied same with kept | gone
      · rw [kept] at found
        exact found
      · rw [gone] at found
        cases found
  · intro other _ _ bucket i guarded
    exact upserted.guards bucket i _ (config.keys.key_fingerprint_pos other) guarded

/-- The warm-up of a key, or the end of a read that has gone to the cold tier. -/
theorem Index.mirrored (index : Index config keys clean current busy pool tiers base)
    (member : key ∈ keys)
    (proper : Proper config.viper.layout pool off)
    (coherent : busy ≠ some key → ∀ other, current key = some other → off = other) :
    Index config keys clean current busy pool (mirror_into_hot_with_offset config key off tiers)
      base := by
  unfold mirror_into_hot_with_offset
  split
  · exact index
  · rename_i packed compacted
    have expanded := Codec.expand_compact proper.word compacted
    apply index.cached_offset member
    · rw [expanded]
      exact proper
    · rw [expanded]
      exact coherent
    · exact HotTier.upsert_upserted index.intact config.hot_buckets_pos
        (config.keys.key_fingerprint_pos key) (Codec.compact_lt compacted)

/-! ### Changes of the pages -/

/-- Pages in use stay in use. -/
theorem Index.repaged {after : Pool K V} (index : Index config keys clean current busy pool tiers base)
    (proper : ∀ off, Proper config.viper.layout pool off → Proper config.viper.layout after off) :
    Index config keys clean current busy after tiers base := by
  constructor
  · exact index.intact
  · exact index.maps
  · intro fp packed occupied found
    obtain ⟨key, member, same, named, coherent⟩ := index.cached fp packed occupied found
    exact ⟨key, member, same, proper _ named, coherent⟩
  · intro kid word found
    obtain ⟨owner, named⟩ := index.known kid word found
    exact ⟨owner, proper _ named⟩
  · intro lane e waits
    have listed := index.listed lane e waits
    exact ⟨listed.owner, listed.lane, fun put => proper _ (listed.put put), listed.pins⟩
  · exact index.told
  · exact index.gone
  · exact index.forgotten
  · exact index.apart

/-- While no removal of the key waits, what waits for it is pinned. -/
theorem Index.held (index : Index config keys clean current none pool tiers base) (member : key ∈ keys)
    (no_removal : ∀ e, Waits config tiers key e → e.op ≠ .kRemove) : Held config tiers key := by
  cases present : current key with
  | none =>
      intro e waits
      obtain ⟨r, removal, op⟩ := index.gone key member present e waits
      exact absurd op (no_removal r removal)
  | some off =>
      cases index.told key member (Option.some_ne_none key).symm off present with
      | settled nothing _ => exact fun e waits => absurd waits (nothing e)
      | waiting held _ => exact held

variable [DecidableEq K]

/-- A put of the key is under way. -/
theorem Index.begun (index : Index config keys clean current none pool tiers base) (member : key ∈ keys)
    (no_removal : ∀ e, Waits config tiers key e → e.op ≠ .kRemove) (off : KVOffset) :
    Index config keys clean (Function.update current key (some off)) (some key) pool tiers base := by
  have others : ∀ {other}, some key ≠ some other →
      Function.update current key (some off) other = current other := by
    intro other free
    exact Function.update_of_ne (fun same => free (congrArg some same.symm)) _ _
  constructor
  · exact index.intact
  · exact index.maps
  · intro fp packed occupied found
    obtain ⟨other, other_member, same, named, coherent⟩ := index.cached fp packed occupied found
    refine ⟨other, other_member, same, named, ?_⟩
    intro free there present
    rw [others free] at present
    exact coherent (Option.some_ne_none other).symm there present
  · exact index.known
  · exact index.listed
  · intro other other_member free there present
    rw [others free] at present
    exact index.told other other_member (Option.some_ne_none other).symm there present
  · intro other other_member absent
    by_cases same : other = key
    · subst same
      rw [Function.update_self] at absent
      cases absent
    · rw [Function.update_of_ne same] at absent
      exact index.gone other other_member absent
  · intro cleans other other_member absent
    by_cases same : other = key
    · subst same
      rw [Function.update_self] at absent
      cases absent
    · rw [Function.update_of_ne same] at absent
      exact index.forgotten cleans other other_member absent
  · intro other other_member present e waits
    by_cases same : other = key
    · subst same
      apply index.apart other other_member _ e waits
      intro absent
      obtain ⟨r, removal, op⟩ := index.gone other other_member absent e waits
      exact no_removal r removal op
    · rw [Function.update_of_ne same] at present
      exact index.apart other other_member present e waits

omit [DecidableEq K] in
/-- The put is over once the key is cached and told of. -/
theorem Index.settle (index : Index config keys clean current (some key) pool tiers base)
    (present : current key = some off) (told : Told config tiers base key off)
    (coherent : ∀ packed, tiers.hot.cached config.hot_buckets_pow2 (config.keys.key_fingerprint key) =
      some packed → expand base_map packed = off) :
    Index config keys clean current none pool tiers base := by
  constructor
  · exact index.intact
  · exact index.maps
  · intro fp packed occupied found
    obtain ⟨other, other_member, same, named, others⟩ := index.cached fp packed occupied found
    refine ⟨other, other_member, same, named, ?_⟩
    intro _ there other_present
    by_cases one : some key = some other
    · cases one
      rw [present] at other_present
      cases other_present
      subst same
      exact coherent packed found
    · exact others one there other_present
  · exact index.known
  · exact index.listed
  · intro other other_member _ there other_present
    by_cases one : some key = some other
    · cases one
      rw [present] at other_present
      cases other_present
      exact told
    · exact index.told other other_member one there other_present
  · exact index.gone
  · exact index.forgotten
  · exact index.apart

/-! ### Changes of the buffer -/

omit [DecidableEq K] in
theorem mem_push {e other : CommitEntry} {lane : Nat} :
    other ∈ (tiers.push_commit e).commit_buf lane ↔
      other ∈ tiers.commit_buf lane ∨ lane = lane_of_fp64 e.fp64 ∧ other = e := by
  unfold Tiers.push_commit
  dsimp only
  by_cases here : lane = lane_of_fp64 e.fp64
  · subst here
    rw [Function.update_self, List.mem_append, List.mem_singleton]
    simp
  · rw [Function.update_of_ne here]
    simp [here]

omit [DecidableEq K] in
theorem waits_push {e other : CommitEntry} {third : K}
    (id : e.key_id = config.keys.key_id_of key)
    (fp64 : e.fp64 = config.keys.key_fingerprint64 key) :
    Waits config (tiers.push_commit e) third other ↔
      Waits config tiers third other ∨
        other = e ∧ config.keys.key_id_of third = config.keys.key_id_of key := by
  unfold Waits
  rw [mem_push]
  constructor
  · rintro ⟨before | ⟨-, rfl⟩, own⟩
    · exact .inl ⟨before, own⟩
    · exact .inr ⟨rfl, own.symm.trans id⟩
  · rintro (⟨before, own⟩ | ⟨rfl, same⟩)
    · exact ⟨.inl before, own⟩
    · exact ⟨.inr ⟨by rw [fp64_of_id same, fp64], rfl⟩, id.trans same.symm⟩

omit [DecidableEq K] in
/-- Another key does not notice. -/
theorem waits_push_other (distinct : Set.InjOn config.keys.key_fingerprint keys)
    (member : key ∈ keys) {e other : CommitEntry} {third : K} (third_member : third ∈ keys)
    (different : third ≠ key) (id : e.key_id = config.keys.key_id_of key)
    (fp64 : e.fp64 = config.keys.key_fingerprint64 key) :
    Waits config (tiers.push_commit e) third other ↔ Waits config tiers third other := by
  rw [waits_push id fp64]
  constructor
  · rintro (before | ⟨-, same⟩)
    · exact before
    · exact absurd (eq_of_id distinct third_member member same) different
  · exact .inl

omit [DecidableEq K] in
theorem Told.push {e : CommitEntry} {third : K} (told : Told config tiers base third off)
    (same : ∀ other, Waits config (tiers.push_commit e) third other ↔ Waits config tiers third other) :
    Told config (tiers.push_commit e) base third off := by
  cases told with
  | settled nothing known =>
      exact .settled (fun other waits => nothing other ((same other).mp waits)) known
  | waiting held latest =>
      apply Told.waiting
      · intro other waits
        exact held other ((same other).mp waits)
      · obtain ⟨other, waits, named⟩ := latest
        exact ⟨other, (same other).mpr waits, named⟩

omit [DecidableEq K] in
/-- The entry of a put is pushed. The slot it names is named by no entry of
another key. -/
theorem Index.pushed {e : CommitEntry}
    (index : Index config keys clean current (some key) pool tiers base)
    (distinct : Set.InjOn config.keys.key_fingerprint keys) (member : key ∈ keys)
    (present : current key ≠ none) (id : e.key_id = config.keys.key_id_of key)
    (fp64 : e.fp64 = config.keys.key_fingerprint64 key) (op : e.op = .kPut)
    (proper : Proper config.viper.layout pool e.off)
    (alone : e.hot_slot.valid = true → ∀ lane other, other ∈ tiers.commit_buf lane →
      other.hot_slot.valid = true → other.hot_slot.bucket_idx = e.hot_slot.bucket_idx →
      other.hot_slot.slot_idx = e.hot_slot.slot_idx → other.key_id = e.key_id) :
    Index config keys clean current (some key) pool (tiers.push_commit e) base := by
  have others : ∀ {third}, third ∈ keys → some key ≠ some third → ∀ other,
      Waits config (tiers.push_commit e) third other ↔ Waits config tiers third other := by
    intro third third_member free other
    exact waits_push_other distinct member third_member (fun same => free (congrArg some same.symm))
      id fp64
  constructor
  · exact index.intact
  · exact index.maps
  · exact index.cached
  · exact index.known
  · intro lane other waits
    rcases mem_push.mp waits with before | ⟨here, rfl⟩
    · exact index.listed lane other before
    · exact ⟨⟨key, member, id, fp64⟩, here, fun _ => proper, fun _ => op⟩
  · intro third third_member free third_off present
    exact (index.told third third_member free third_off present).push (others third_member free)
  · intro third third_member absent other waits
    have free : some key ≠ some third := by
      intro same
      cases same
      exact present absent
    obtain ⟨r, removal, op⟩ :=
      index.gone third third_member absent other ((others third_member free other).mp waits)
    exact ⟨r, (others third_member free r).mpr removal, op⟩
  · intro cleans third third_member absent nothing
    apply index.forgotten cleans third third_member absent
    exact fun other waits => nothing other ((waits_push id fp64).mpr (.inl waits))
  · intro third third_member present other waits valid lane fourth listed fourth_valid bucket slot
    rcases (waits_push id fp64).mp waits with before | ⟨rfl, -⟩
    · rcases mem_push.mp listed with earlier | ⟨-, rfl⟩
      · exact index.apart third third_member present other before valid lane fourth earlier
          fourth_valid bucket slot
      · exact (alone fourth_valid _ other before.1 valid bucket.symm slot.symm).symm
    · rcases mem_push.mp listed with earlier | ⟨-, rfl⟩
      · exact alone valid lane fourth earlier fourth_valid bucket slot
      · rfl

/-- A key is removed: from the cache at once, and its entry waits. -/
theorem Index.removed {hot : Hot} {seq : Nat}
    (index : Index config keys clean current none pool tiers base)
    (distinct : Set.InjOn config.keys.key_fingerprint keys) (member : key ∈ keys)
    (removed : HotTier.Removed config.hot_buckets_pow2 (config.keys.key_fingerprint key) tiers.hot hot) :
    Index config keys clean (Function.update current key none) none pool
      ((tiers.set_hot hot).push_commit ⟨.kRemove, config.keys.key_fingerprint64 key,
        config.keys.key_id_of key, .Tombstone, .invalid, seq⟩) base := by
  have others : ∀ {third}, third ∈ keys → third ≠ key → ∀ other,
      Waits config ((tiers.set_hot hot).push_commit ⟨.kRemove, config.keys.key_fingerprint64 key,
        config.keys.key_id_of key, .Tombstone, .invalid, seq⟩) third other ↔
          Waits config tiers third other := by
    intro third third_member different other
    exact waits_push_other distinct member third_member different rfl rfl
  have elsewhere : ∀ {third}, third ∈ keys → third ≠ key →
      config.keys.key_fingerprint third ≠ config.keys.key_fingerprint key :=
    fun third_member different same => different (distinct third_member member same)
  constructor
  · exact removed.intact
  · exact index.maps
  · intro fp packed occupied found
    by_cases same : fp = config.keys.key_fingerprint key
    · subst same
      have gone := removed.self
      have here : hot.cached config.hot_buckets_pow2 (config.keys.key_fingerprint key) =
        some packed := found
      rw [gone] at here
      cases here
    · have before : tiers.hot.cached config.hot_buckets_pow2 fp = some packed :=
        (removed.others fp occupied same).symm.trans found
      obtain ⟨other, other_member, owner, named, coherent⟩ := index.cached fp packed occupied before
      refine ⟨other, other_member, owner, named, ?_⟩
      intro free there present
      have different : other ≠ key := by
        rintro rfl
        exact same owner.symm
      rw [Function.update_of_ne different] at present
      exact coherent free there present
  · exact index.known
  · intro lane other waits
    rcases mem_push.mp waits with before | ⟨here, rfl⟩
    · exact index.listed lane other before
    · constructor
      · exact ⟨key, member, rfl, rfl⟩
      · exact here
      · intro put
        cases put
      · intro valid
        cases valid
  · intro third third_member free third_off present
    have different : third ≠ key := by
      rintro rfl
      rw [Function.update_self] at present
      cases present
    rw [Function.update_of_ne different] at present
    have same := others third_member different
    cases index.told third third_member free third_off present with
    | settled nothing known =>
        exact .settled (fun other waits => nothing other ((same other).mp waits)) known
    | waiting held latest =>
        apply Told.waiting
        · intro other waits
          obtain ⟨put, valid, guarded⟩ := held other ((same other).mp waits)
          exact ⟨put, valid, removed.guards _ _ _ (config.keys.key_fingerprint_pos third)
            (elsewhere third_member different) guarded⟩
        · obtain ⟨other, waits, named⟩ := latest
          exact ⟨other, (same other).mpr waits, named⟩
  · intro third third_member absent other waits
    by_cases one : third = key
    · subst one
      exact ⟨_, (waits_push rfl rfl).mpr (.inr ⟨rfl, rfl⟩), rfl⟩
    · rw [Function.update_of_ne one] at absent
      obtain ⟨r, removal, op⟩ := index.gone third third_member absent other
        ((others third_member one other).mp waits)
      exact ⟨r, (others third_member one r).mpr removal, op⟩
  · intro cleans third third_member absent nothing
    by_cases one : third = key
    · subst one
      exact absurd ((waits_push rfl rfl).mpr (.inr ⟨rfl, rfl⟩)) (nothing _)
    · rw [Function.update_of_ne one] at absent
      apply index.forgotten cleans third third_member absent
      exact fun other waits => nothing other ((others third_member one other).mpr waits)
  · intro third third_member present other waits valid lane fourth listed fourth_valid bucket slot
    have different : third ≠ key := by
      rintro rfl
      rw [Function.update_self] at present
      exact present rfl
    rw [Function.update_of_ne different] at present
    rcases mem_push.mp listed with earlier | ⟨-, rfl⟩
    · exact index.apart third third_member present other ((others third_member different other).mp waits)
        valid lane fourth earlier fourth_valid bucket slot
    · cases fourth_valid

end Index

end Hiom.Client
