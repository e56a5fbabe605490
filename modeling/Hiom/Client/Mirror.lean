import Hiom.Client.Drains

/-!
How a write comes to the tiers: its key is pinned, its entry waits, and a put
that finds no slot to pin drains the buffer before it returns.
-/

namespace Hiom.Client

open Codec (compact expand)
open CommitBuffer.Wait (Op kNumLanes lane_of_fp64)
open HotTier (Hot SlotRef hotSem)
open Viper.Records (KVOffset Pool)

variable {K V : Type} {config : Config K} {keys : Set K} {clean single : Prop}
  {current : K → Option KVOffset} {pool : Pool K V} {tiers after : Tiers}
  {base : Nat → Option Nat} {key : K} {off : KVOffset}

/-! ### Pins -/

/-- Where a put of the key may pin it, no slot is named by an entry that a
removal waits behind. -/
def Clear (config : Config K) (tiers : Tiers) (key : K) : Prop :=
  ∀ lane e r, e ∈ tiers.commit_buf lane → r ∈ tiers.commit_buf lane → r.op = .kRemove →
    r.key_id = e.key_id → e.hot_slot.valid = true →
    e.hot_slot.bucket_idx ≠
      HotTier.bucket_index config.hot_buckets_pow2 (config.keys.key_fingerprint key)

/-- The tiers while a put of the key is under way and its entry is not pushed
yet. -/
structure Pending (config : Config K) (keys : Set K) (clean : Prop) (current : K → Option KVOffset)
    (pool : Pool K V) (key : K) (tiers : Tiers) (base : Nat → Option Nat) : Prop where
  index : Index config keys clean current (some key) pool tiers base
  held : Held config tiers key
  clear : Clear config tiers key

structure Pinned (config : Config K) (keys : Set K) (clean : Prop) (current : K → Option KVOffset)
    (pool : Pool K V) (key : K) (off : KVOffset) (ref : SlotRef) (tiers : Tiers)
    (base : Nat → Option Nat) : Prop
    extends Pending config keys clean current pool key tiers base where
  coherent : ∀ packed, tiers.hot.cached config.hot_buckets_pow2 (config.keys.key_fingerprint key) =
    some packed → expand base_map packed = off
  pins : ref.valid = true →
    tiers.hot.Guards ref.bucket_idx ref.slot_idx (config.keys.key_fingerprint key)
  refuses : ref.valid = false → ∀ e, ¬Waits config tiers key e

theorem Clear.drained {base_after : Nat → Option Nat} {lane : Nat} (clear : Clear config tiers key)
    (drained : Drained config pool tiers base lane after base_after) : Clear config after key := by
  intro other e r there removal
  exact clear other e r (drained.mem.mp there).2 (drained.mem.mp removal).2

/-- Without entries of its key, a put that is pending stays so while lanes are
drained. -/
theorem Pending.drained {lane : Nat} (distinct : Set.InjOn config.keys.key_fingerprint keys)
    (recorded : Recorded config.viper.layout keys single current pool) (strict : clean → single)
    (pending : ∃ base, Pending config keys clean current pool key tiers base ∧
      ∀ e, ¬Waits config tiers key e)
    (done : drain_lane config pool tiers lane = some after) :
    ∃ base, Pending config keys clean current pool key after base ∧
      ∀ e, ¬Waits config after key e := by
  obtain ⟨base, pending, nothing⟩ := pending
  obtain ⟨base_after, drained⟩ := drain_lane_drained pending.index done
  have still : ∀ e, ¬Waits config after key e :=
    fun e waits => nothing e (drained.waits.mp waits).2
  refine ⟨base_after, ⟨?_, ?_, pending.clear.drained drained⟩, still⟩
  · exact drained.index pending.index distinct recorded strict
  · exact fun e waits => absurd waits (still e)

/-- One call of `upsert_pinned`. -/
theorem Pending.pin_once {packed : Nat}
    (pending : Pending config keys clean current pool key tiers base) (member : key ∈ keys)
    (proper : Proper config.viper.layout pool off) (compacted : compact base_map off = some packed) :
    Pinned config keys clean current pool key off
      ((HotTier.upsert_pinned config.hot_buckets_pow2 (config.keys.key_fingerprint key) packed).run
        hotSem tiers.hot).1
      (tiers.set_hot ((HotTier.upsert_pinned config.hot_buckets_pow2
        (config.keys.key_fingerprint key) packed).run hotSem tiers.hot).2) base := by
  have expanded := Codec.expand_compact proper.word compacted
  have pinned := HotTier.upsert_pinned_pins pending.index.intact config.hot_buckets_pos
    (config.keys.key_fingerprint_pos key) (Codec.compact_lt compacted)
  revert pinned
  generalize (HotTier.upsert_pinned config.hot_buckets_pow2 (config.keys.key_fingerprint key)
    packed).run hotSem tiers.hot = ran
  obtain ⟨ref, hot⟩ := ran
  intro pinned
  dsimp only at pinned ⊢
  constructor
  · constructor
    · apply pending.index.cached_offset member _ _ pinned.toUpserted
      · rw [expanded]
        exact proper
      · exact fun free => absurd rfl free
    · intro e waits
      obtain ⟨put, valid, guards⟩ := pending.held e waits
      exact ⟨put, valid, pinned.guards _ _ _ (config.keys.key_fingerprint_pos key) guards⟩
    · exact pending.clear
  · intro other found
    have there : hot.cached config.hot_buckets_pow2 (config.keys.key_fingerprint key) =
      some other := found
    rcases pinned.self with here | ⟨gone, -⟩
    · rw [here] at there
      cases there
      exact expanded
    · rw [gone] at there
      cases there
  · exact fun valid => (pinned.pins valid).1
  · intro invalid e waits
    obtain ⟨other, found, -⟩ := pending.held.cached pending.index.intact waits
    rw [(pinned.refuses invalid).1] at found
    cases found

theorem pin_pinned {packed attempts : Nat} {waits waits_after : List (List Nat)} {ref : SlotRef}
    (distinct : Set.InjOn config.keys.key_fingerprint keys)
    (recorded : Recorded config.viper.layout keys single current pool) (strict : clean → single)
    (pending : Pending config keys clean current pool key tiers base) (member : key ∈ keys)
    (proper : Proper config.viper.layout pool off) (compacted : compact base_map off = some packed)
    (done : pin config pool (config.keys.key_fingerprint key) packed attempts waits tiers =
      some (ref, waits_after, after)) :
    ∃ base_after, Pinned config keys clean current pool key off ref after base_after := by
  induction attempts generalizing tiers base waits with
  | zero =>
      unfold pin at done
      cases done
      exact ⟨base, pending.pin_once member proper compacted⟩
  | succ attempts ih =>
      have once := pending.pin_once member proper compacted
      unfold pin at done
      dsimp only at done
      split at done
      · cases done
        exact ⟨base, once⟩
      · rename_i invalid
        rw [Option.bind_eq_bind, Option.bind_eq_some_iff] at done
        obtain ⟨⟨waits_left, middle⟩, backed_off, done⟩ := done
        have nothing := once.refuses (Bool.eq_false_iff.mpr invalid)
        obtain ⟨base_middle, still, -⟩ := back_off_rule
          (fun _ _ _ before drains => Pending.drained distinct recorded strict before drains)
          ⟨base, once.toPending, nothing⟩ backed_off
        exact ih still done

/-! ### Pushes -/

/-- The entry of a put that has pinned its key. -/
theorem Pinned.alone {ref : SlotRef}
    (pinned : Pinned config keys clean current pool key off ref tiers base)
    (distinct : Set.InjOn config.keys.key_fingerprint keys) (member : key ∈ keys)
    (valid : ref.valid = true) (lane : Nat) (other : CommitEntry)
    (there : other ∈ tiers.commit_buf lane) (other_valid : other.hot_slot.valid = true)
    (bucket : other.hot_slot.bucket_idx = ref.bucket_idx)
    (slot : other.hot_slot.slot_idx = ref.slot_idx) :
    other.key_id = config.keys.key_id_of key := by
  have guards := pinned.pins valid
  obtain ⟨owner, owner_member, waits, -, here⟩ := pinned.index.waits there
  by_cases one : owner = key
  · subst one
    exact waits.2
  · cases present : current owner with
    | none =>
        obtain ⟨r, removal, op⟩ := pinned.index.gone owner owner_member present other waits
        have away := pinned.clear lane other r there (by rw [here]; exact removal.1) op
          (removal.2.trans waits.2.symm) other_valid
        obtain ⟨-, -, -, home⟩ := pinned.index.intact.homed ref.bucket_idx ref.slot_idx
          (HotTier.occupied_of_fp (config.keys.key_fingerprint_pos key) guards.fp)
        rw [guards.fp] at home
        exact absurd (bucket.trans home.symm) away
    | some other_off =>
        have free : some key ≠ some owner := fun same => one (Option.some.inj same).symm
        cases pinned.index.told owner owner_member free other_off present with
        | settled nothing _ => exact absurd waits (nothing other)
        | waiting held _ =>
            obtain ⟨-, -, guarded⟩ := held other waits
            have fp := guarded.fp
            rw [bucket, slot, guards.fp] at fp
            exact absurd (distinct owner_member member fp.symm) one

/-- The put that has pinned its key is over when its entry waits. -/
theorem Pinned.pushed {e : CommitEntry}
    (pinned : Pinned config keys clean current pool key off e.hot_slot tiers base)
    (distinct : Set.InjOn config.keys.key_fingerprint keys) (member : key ∈ keys)
    (present : current key = some off) (proper : Proper config.viper.layout pool off)
    (id : e.key_id = config.keys.key_id_of key) (fp64 : e.fp64 = config.keys.key_fingerprint64 key)
    (op : e.op = .kPut) (offset : e.off = off) :
    Index config keys clean current (some key) pool (tiers.push_commit e) base ∧
      (e.hot_slot.valid = true →
        Index config keys clean current none pool (tiers.push_commit e) base) := by
  have some_off : current key ≠ none := by
    rw [present]
    exact Option.some_ne_none off
  have still : Index config keys clean current (some key) pool (tiers.push_commit e) base := by
    apply pinned.index.pushed distinct member some_off id fp64 op
    · rw [offset]
      exact proper
    · intro valid lane other there other_valid bucket slot
      rw [pinned.alone distinct member valid lane other there other_valid bucket slot, id]
  refine ⟨still, ?_⟩
  intro valid
  apply still.settle present
  · apply Told.waiting
    · intro other waits
      rcases (waits_push id fp64).mp waits with before | ⟨rfl, -⟩
      · exact pinned.held other before
      · exact ⟨op, valid, pinned.pins valid⟩
    · exact ⟨e, (waits_push id fp64).mpr (.inr ⟨rfl, rfl⟩), offset⟩
  · exact pinned.coherent

/-! ### Puts that find no slot -/

/-- The entry of a put that is not pinned waits, and nothing else does for the
key, or it has been drained. -/
structure Bare (config : Config K) (keys : Set K) (clean : Prop) (current : K → Option KVOffset)
    (pool : Pool K V) (key : K) (off : KVOffset) (tiers : Tiers) (base : Nat → Option Nat) : Prop where
  index : Index config keys clean current (some key) pool tiers base
  coherent : ∀ packed, tiers.hot.cached config.hot_buckets_pow2 (config.keys.key_fingerprint key) =
    some packed → expand base_map packed = off
  told : (∃ e, Waits config tiers key e ∧ (∀ other, Waits config tiers key other → other = e) ∧
      e.op = .kPut ∧ e.hot_slot.valid = false ∧ e.off = off) ∨
    (∀ e, ¬Waits config tiers key e) ∧ base (config.keys.key_id_of key) = some off.offset

theorem Bare.drained {lane : Nat} (distinct : Set.InjOn config.keys.key_fingerprint keys)
    (recorded : Recorded config.viper.layout keys single current pool) (strict : clean → single)
    (present : current key = some off)
    (bare : ∃ base, Bare config keys clean current pool key off tiers base)
    (done : drain_lane config pool tiers lane = some after) :
    ∃ base, Bare config keys clean current pool key off after base := by
  obtain ⟨base, bare⟩ := bare
  obtain ⟨base_after, drained⟩ := drain_lane_drained bare.index done
  have index := drained.index bare.index distinct recorded strict
  refine ⟨base_after, index, ?_, ?_⟩
  · intro packed found
    apply bare.coherent packed
    rw [← HotTier.cached_congr bare.index.intact index.intact
      (config.keys.key_fingerprint_pos key) drained.slots]
    exact found
  · rcases bare.told with ⟨e, waits, alone, put, invalid, named⟩ | ⟨nothing, known⟩
    · by_cases here : lane_of_fp64 (config.keys.key_fingerprint64 key) = lane
      · right
        refine ⟨fun other still => (drained.waits.mp still).1 here, ?_⟩
        obtain ⟨run, whole, wins⟩ := drained.wins key e waits here.symm
        obtain ⟨value, lives⟩ := recorded.alive key off present
        have there := @holds_of_lives K V config.viper.layout pool off key value config lives
          (recorded.mapped key off value lives)
        rw [← named] at there ⊢
        exact (wins e (winner_bare there waits alone invalid whole)).1 put
      · left
        refine ⟨e, drained.waits.mpr ⟨here, waits⟩, ?_, put, invalid, named⟩
        exact fun other still => alone other (drained.waits.mp still).2
    · right
      refine ⟨fun e still => nothing e (drained.waits.mp still).2, ?_⟩
      rw [drained.kept, known]
      intro e there same
      have lane_eq := bare.index.lane_of_id there same
      rw [lane_eq] at there
      exact nothing e ⟨there, same⟩

theorem size_hint_zero (empty : tiers.size_hint = 0) (key : K) (e : CommitEntry) :
    ¬Waits config tiers key e := by
  rintro ⟨there, -⟩
  have inside := CommitBuffer.Wait.lane_of_fp64_lt (config.keys.key_fingerprint64 key)
  have length := List.sum_eq_zero_iff.mp empty
    (tiers.commit_buf (lane_of_fp64 (config.keys.key_fingerprint64 key))).length
    (List.mem_map.mpr ⟨_, List.mem_range.mpr inside, rfl⟩)
  rw [List.length_eq_zero_iff.mp length] at there
  cases there

/-- The put returns when nothing waits any more. -/
theorem sync_drain_index {rounds : Nat} {waits : List (List Nat)}
    (distinct : Set.InjOn config.keys.key_fingerprint keys)
    (recorded : Recorded config.viper.layout keys single current pool) (strict : clean → single)
    (present : current key = some off)
    (bare : ∃ base, Bare config keys clean current pool key off tiers base)
    (done : sync_drain config pool rounds waits tiers = some after) :
    ∃ base, Index config keys clean current none pool after base := by
  have ended : ∀ {last : Tiers}, last.size_hint = 0 →
      (∃ base, Bare config keys clean current pool key off last base) →
      ∃ base, Index config keys clean current none pool last base := by
    rintro last empty ⟨base, bare⟩
    refine ⟨base, bare.index.settle present ?_ bare.coherent⟩
    rcases bare.told with ⟨e, still, -⟩ | ⟨nothing, known⟩
    · exact absurd still (size_hint_zero empty key e)
    · exact .settled nothing known
  induction rounds generalizing tiers waits with
  | zero =>
      unfold sync_drain at done
      split at done
      · rename_i empty
        cases done
        exact ended empty bare
      · cases done
  | succ rounds ih =>
      unfold sync_drain at done
      split at done
      · rename_i empty
        cases done
        exact ended empty bare
      · rw [Option.bind_eq_bind, Option.bind_eq_some_iff] at done
        obtain ⟨⟨waits_left, middle⟩, backed_off, done⟩ := done
        apply ih _ done
        exact back_off_rule
          (fun _ _ _ before drains => Bare.drained distinct recorded strict present before drains)
          bare backed_off

/-- A put that has written its record brings it to the tiers. -/
theorem mirror_write_index {seq : Nat} {schedule : Schedule}
    (distinct : Set.InjOn config.keys.key_fingerprint keys)
    (recorded : Recorded config.viper.layout keys single current pool) (strict : clean → single)
    (pending : Pending config keys clean current pool key tiers base) (member : key ∈ keys)
    (present : current key = some off) (proper : Proper config.viper.layout pool off)
    (compacts : compact base_map off ≠ none)
    (done : mirror_write_with_offset config pool key off seq schedule tiers = some after) :
    ∃ base, Index config keys clean current none pool after base := by
  have real : off.is_tombstone = false := by
    rw [Bool.eq_false_iff]
    intro tombstone
    exact proper.ne_tombstone (Cceh.is_tombstone_iff.mp tombstone)
  obtain ⟨packed, compacted⟩ := Option.ne_none_iff_exists'.mp compacts
  unfold mirror_write_with_offset at done
  dsimp only at done
  rw [real, compacted] at done
  simp only [Bool.false_eq_true, if_false, Option.bind_eq_bind, Option.bind_eq_some_iff] at done
  obtain ⟨⟨ref, waits, middle⟩, pinned, done⟩ := done
  obtain ⟨base_middle, pinned⟩ := pin_pinned distinct recorded strict pending member proper
    compacted pinned
  obtain ⟨pushed, pinned_pushed⟩ := @Pinned.pushed K V config keys clean current pool middle
    base_middle key off ⟨.kPut, config.keys.key_fingerprint64 key, config.keys.key_id_of key, off,
      ref, seq⟩ pinned distinct member present proper rfl rfl rfl rfl
  split at done
  · rename_i valid
    cases done
    exact ⟨base_middle, pinned_pushed valid⟩
  · rename_i invalid
    have refused := Bool.eq_false_iff.mpr invalid
    apply sync_drain_index distinct recorded strict present _ done
    refine ⟨base_middle, pushed, pinned.coherent, .inl ⟨_, (waits_push rfl rfl).mpr
      (.inr ⟨rfl, rfl⟩), ?_, rfl, refused, rfl⟩⟩
    intro other waits
    rcases (waits_push rfl rfl).mp waits with before | ⟨same, -⟩
    · exact absurd before (pinned.refuses refused other)
    · exact same

end Hiom.Client
