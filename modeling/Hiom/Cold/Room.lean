import Mathlib
import Hiom.Cold.Tier

/-!
Whether a region has room for a set of keys: the keys that are new to a chain
take its free slots first and then overflow buckets of seven slots each. An
upsert of one of the keys keeps the room, so every order of them succeeds.
-/

namespace Hiom.ColdTier

/-- The overflow buckets that so many new keys take behind so many free slots. -/
def buckets_needed (keys slots : Nat) : Nat :=
  (keys - slots + (kEntriesPerBucket - 1)) / kEntriesPerBucket

def spare (geo : Geometry) (mem : Mem) (bid : Nat) : Finset Slot :=
  (slots (chain geo mem bid)).toFinset.filter (fun slot => published mem slot = false)

def new_keys (geo : Geometry) (bid_of : Nat → Nat) (keys : Finset Nat) (mem : Mem) (bid : Nat) :
    Finset Nat :=
  keys.filter (fun key => bid_of key = bid ∧ entry geo mem bid key = none)

def overflow_needed (geo : Geometry) (bid_of : Nat → Nat) (keys : Finset Nat) (mem : Mem)
    (bid : Nat) : Nat :=
  buckets_needed (new_keys geo bid_of keys mem bid).card (spare geo mem bid).card

def HasRoom (geo : Geometry) (bid_of : Nat → Nat) (keys : Finset Nat) (mem : Mem) : Prop :=
  mem .next_overflow_alloc +
      ∑ bid ∈ Finset.range geo.main_buckets_per_region, overflow_needed geo bid_of keys mem bid ≤
    geo.overflow_slots_per_region

theorem buckets_needed_claim (keys slots : Nat) :
    buckets_needed keys slots = buckets_needed (keys + 1) (slots + 1) := by
  unfold buckets_needed
  rw [Nat.add_sub_add_right]

theorem buckets_needed_extend (keys : Nat) :
    buckets_needed keys (kEntriesPerBucket - 1) + 1 = buckets_needed (keys + 1) 0 := by
  unfold buckets_needed kEntriesPerBucket
  omega

variable {geo : Geometry} {mem after : Mem} {bid_of : Nat → Nat} {keys : Finset Nat}

@[simp] theorem mem_spare {bid : Nat} {slot : Slot} :
    slot ∈ spare geo mem bid ↔
      slot.bucket ∈ chain geo mem bid ∧ published mem slot = false := by
  simp [spare]

@[simp] theorem mem_new_keys {bid key : Nat} :
    key ∈ new_keys geo bid_of keys mem bid ↔
      key ∈ keys ∧ bid_of key = bid ∧ entry geo mem bid key = none := by
  simp [new_keys]

theorem card_bucket_slots (bucket : Nat) :
    (bucket_slots bucket).toFinset.card = kEntriesPerBucket := by
  have distinct : (bucket_slots bucket).Nodup := by
    apply List.Nodup.map
    · intro i j same
      exact (Slot.mk.inj same).2
    · exact List.nodup_finRange _
  rw [List.toFinset_card_of_nodup distinct]
  simp [bucket_slots]

theorem spare_full {bid : Nat}
    (occupied : ∀ slot, slot.bucket ∈ chain geo mem bid → published mem slot = true) :
    spare geo mem bid = ∅ := by
  apply Finset.eq_empty_of_forall_notMem
  intro slot free
  obtain ⟨on_chain, hidden⟩ := mem_spare.mp free
  rw [occupied slot on_chain] at hidden
  cases hidden

/-- Room is kept by what takes from one chain as much as it allocates. -/
theorem HasRoom.step {bid : Nat} (room : HasRoom geo bid_of keys mem)
    (main : bid < geo.main_buckets_per_region)
    (others : ∀ other < geo.main_buckets_per_region, other ≠ bid →
      overflow_needed geo bid_of keys after other = overflow_needed geo bid_of keys mem other)
    (balance : after .next_overflow_alloc + overflow_needed geo bid_of keys after bid ≤
      mem .next_overflow_alloc + overflow_needed geo bid_of keys mem bid) :
    HasRoom geo bid_of keys after := by
  have member : bid ∈ Finset.range geo.main_buckets_per_region := Finset.mem_range.mpr main
  have rest : ∑ other ∈ (Finset.range geo.main_buckets_per_region).erase bid,
        overflow_needed geo bid_of keys after other =
      ∑ other ∈ (Finset.range geo.main_buckets_per_region).erase bid,
        overflow_needed geo bid_of keys mem other := by
    apply Finset.sum_congr rfl
    intro other inside
    obtain ⟨different, below⟩ := Finset.mem_erase.mp inside
    exact others other (Finset.mem_range.mp below) different
  unfold HasRoom at room ⊢
  rw [← Finset.add_sum_erase _ _ member] at room ⊢
  rw [rest]
  omega

/-! ### Where the slots of an entry come from -/

theorem chain_of_links (same : ∀ bucket, link after bucket = link mem bucket) (bid : Nat) :
    chain geo after bid = chain geo mem bid :=
  buckets_from_congr same geo.budget bid

/-- The keys that are new to a chain when an entry of its own was placed. -/
theorem new_keys_placed {bid key off : Nat} {slot : Slot}
    (placed : Placed geo mem after bid slot key off) (intact : Intact geo bid_of mem)
    (main : bid < geo.main_buckets_per_region) (route : bid_of key = bid) {other : Nat}
    (other_main : other < geo.main_buckets_per_region) :
    new_keys geo bid_of keys after other = (new_keys geo bid_of keys mem other).erase key := by
  ext candidate
  rw [Finset.mem_erase, mem_new_keys, mem_new_keys,
    placed.entry intact.toShape main route other_main]
  constructor
  · rintro ⟨member, routed, absent⟩
    split at absent
    · cases absent
    · rename_i elsewhere
      refine ⟨?_, member, routed, absent⟩
      rintro rfl
      exact elsewhere ⟨routed.symm.trans route, rfl⟩
  · rintro ⟨different, member, routed, absent⟩
    refine ⟨member, routed, ?_⟩
    rw [if_neg (fun both => different both.2)]
    exact absent

theorem new_keys_other {bid key : Nat} (route : bid_of key = bid) {other : Nat}
    (different : other ≠ bid) :
    (new_keys geo bid_of keys mem other).erase key = new_keys geo bid_of keys mem other := by
  apply Finset.erase_eq_of_notMem
  rw [mem_new_keys]
  rintro ⟨-, routed, -⟩
  exact different (routed.symm.trans route)

theorem new_keys_present {bid key : Nat} (present : entry geo mem bid key ≠ none) :
    (new_keys geo bid_of keys mem bid).erase key = new_keys geo bid_of keys mem bid := by
  apply Finset.erase_eq_of_notMem
  rw [mem_new_keys]
  exact fun new => present new.2.2

theorem card_new_keys {bid key : Nat} (member : key ∈ keys) (route : bid_of key = bid)
    (absent : entry geo mem bid key = none) :
    (new_keys geo bid_of keys mem bid).card =
      ((new_keys geo bid_of keys mem bid).erase key).card + 1 :=
  (Finset.card_erase_add_one (mem_new_keys.mpr ⟨member, route, absent⟩)).symm

/-! ### In place -/

theorem spare_updated (slot : Slot) (off bid : Nat) :
    spare geo (updated mem slot off) bid = spare geo mem bid := by
  ext other
  rw [mem_spare, mem_spare, chain_of_links (fun bucket => link_updated slot off bucket),
    published_updated]

theorem room_updated {bid key off : Nat} {slot : Slot} (room : HasRoom geo bid_of keys mem)
    (placed : Placed geo mem (updated mem slot off) bid slot key off)
    (intact : Intact geo bid_of mem) (main : bid < geo.main_buckets_per_region)
    (route : bid_of key = bid) (present : entry geo mem bid key ≠ none) :
    HasRoom geo bid_of keys (updated mem slot off) := by
  have alloc : updated mem slot off .next_overflow_alloc = mem .next_overflow_alloc := by
    simp [updated, Mem.set]
  apply room.step main
  · intro other below different
    unfold overflow_needed
    rw [new_keys_placed placed intact main route below, new_keys_other route different,
      spare_updated]
  · unfold overflow_needed
    rw [alloc, new_keys_placed placed intact main route main, new_keys_present present,
      spare_updated]

/-! ### A free slot of the chain -/

theorem mem_spare_claimed {slot other : Slot} {key off bid : Nat} :
    other ∈ spare geo (claimed mem slot key off) bid ↔
      other ∈ spare geo mem bid ∧ other ≠ slot := by
  rw [mem_spare, mem_spare, chain_of_links (fun bucket => link_claimed slot key off bucket),
    published_claimed, Bool.or_eq_false_iff, beq_eq_false_iff_ne, and_assoc]

theorem room_claimed {bid key off : Nat} {slot : Slot} (room : HasRoom geo bid_of keys mem)
    (placed : Placed geo mem (claimed mem slot key off) bid slot key off)
    (intact : Intact geo bid_of mem) (main : bid < geo.main_buckets_per_region)
    (route : bid_of key = bid) (member : key ∈ keys) (absent : entry geo mem bid key = none)
    (inside : slot.bucket ∈ chain geo mem bid) (free : published mem slot = false) :
    HasRoom geo bid_of keys (claimed mem slot key off) := by
  have alloc : claimed mem slot key off .next_overflow_alloc = mem .next_overflow_alloc := by
    simp [claimed, Mem.count, Mem.publish, Mem.write_entry, Mem.set]
  apply room.step main
  · intro other below different
    have same : spare geo (claimed mem slot key off) other = spare geo mem other := by
      ext candidate
      rw [mem_spare_claimed]
      constructor
      · exact And.left
      · intro candidate_free
        refine ⟨candidate_free, ?_⟩
        rintro rfl
        exact different (intact.disjoint below main (mem_spare.mp candidate_free).1 inside)
    unfold overflow_needed
    rw [new_keys_placed placed intact main route below, new_keys_other route different, same]
  · have one_less : spare geo (claimed mem slot key off) bid = (spare geo mem bid).erase slot := by
      ext candidate
      rw [mem_spare_claimed, Finset.mem_erase, and_comm]
    have slots : (spare geo mem bid).card = ((spare geo mem bid).erase slot).card + 1 :=
      (Finset.card_erase_add_one (mem_spare.mpr ⟨inside, free⟩)).symm
    unfold overflow_needed
    rw [alloc, new_keys_placed placed intact main route main, one_less, slots,
      card_new_keys member route absent, buckets_needed_claim]

/-! ### A fresh bucket -/

theorem mem_chain_extended {tail key off bid : Nat} (intact : Intact geo bid_of mem)
    (main : bid < geo.main_buckets_per_region) (inside : tail ∈ chain geo mem bid)
    (placed : Placed geo mem (extended geo mem tail key off) bid (.first (fresh_bucket geo mem))
      key off)
    {other bucket : Nat} (other_main : other < geo.main_buckets_per_region) :
    bucket ∈ chain geo (extended geo mem tail key off) other ↔
      bucket ∈ chain geo mem other ∨ (other = bid ∧ bucket = fresh_bucket geo mem) := by
  have below := intact.toAllocated.lt_fresh main inside
  have different := Nat.ne_of_lt below
  have next := link_extended key off intact.toAllocated different
  constructor
  · apply chain_induction (motive := fun bucket =>
      bucket ∈ chain geo mem other ∨ (other = bid ∧ bucket = fresh_bucket geo mem))
    · exact .inl (head_mem_chain geo mem other)
    · rintro bucket (old | ⟨rfl, new⟩) linked
      · rw [next] at linked ⊢
        by_cases here : bucket = tail
        · rw [if_pos here]
          rw [here] at old
          exact .inr ⟨intact.disjoint other_main main old inside, rfl⟩
        · rw [if_neg here] at linked ⊢
          exact .inl (intact.next_mem old linked)
      · rw [next, new, if_neg different.symm, link, intact.header_fresh] at linked
        exact absurd rfl linked
  · rintro (old | ⟨rfl, rfl⟩)
    · exact placed.kept other bucket old
    · exact placed.inside

theorem room_extended {bid tail key off : Nat} (room : HasRoom geo bid_of keys mem)
    (placed : Placed geo mem (extended geo mem tail key off) bid (.first (fresh_bucket geo mem))
      key off)
    (intact : Intact geo bid_of mem) (main : bid < geo.main_buckets_per_region)
    (route : bid_of key = bid) (member : key ∈ keys) (absent : entry geo mem bid key = none)
    (inside : tail ∈ chain geo mem bid)
    (occupied : ∀ slot, slot.bucket ∈ chain geo mem bid → published mem slot = true) :
    HasRoom geo bid_of keys (extended geo mem tail key off) := by
  have alloc : extended geo mem tail key off .next_overflow_alloc =
      mem .next_overflow_alloc + 1 := by
    simp [extended, Mem.count, Mem.attach, Mem.write_entry, Mem.allocate, Mem.set]
  apply room.step main
  · intro other below different
    have same : spare geo (extended geo mem tail key off) other = spare geo mem other := by
      ext candidate
      rw [mem_spare, mem_spare, mem_chain_extended intact main inside placed below,
        placed.published_eq, Bool.or_eq_false_iff, beq_eq_false_iff_ne]
      constructor
      · rintro ⟨old | new, hidden, -⟩
        · exact ⟨old, hidden⟩
        · exact absurd new.1 different
      · rintro ⟨old, hidden⟩
        refine ⟨.inl old, hidden, ?_⟩
        rintro rfl
        exact absurd (intact.toAllocated.lt_fresh below old) (Nat.lt_irrefl _)
    unfold overflow_needed
    rw [new_keys_placed placed intact main route below, new_keys_other route different, same]
  · have six_left : (spare geo (extended geo mem tail key off) bid).card =
        kEntriesPerBucket - 1 := by
      have rest : spare geo (extended geo mem tail key off) bid =
          (bucket_slots (fresh_bucket geo mem)).toFinset.erase (.first (fresh_bucket geo mem)) := by
        ext candidate
        rw [mem_spare, mem_chain_extended intact main inside placed main, placed.published_eq,
          Bool.or_eq_false_iff, beq_eq_false_iff_ne, Finset.mem_erase, List.mem_toFinset,
          mem_bucket_slots]
        constructor
        · rintro ⟨old | new, hidden, different⟩
          · rw [occupied candidate old] at hidden
            cases hidden
          · exact ⟨different, new.2⟩
        · rintro ⟨different, new⟩
          exact ⟨.inr ⟨rfl, new⟩, intact.not_published_fresh candidate new, different⟩
      have first : Slot.first (fresh_bucket geo mem) ∈
          (bucket_slots (fresh_bucket geo mem)).toFinset := by
        rw [List.mem_toFinset, mem_bucket_slots]
        rfl
      rw [rest, Finset.card_erase_of_mem first, card_bucket_slots]
    unfold overflow_needed
    rw [alloc, new_keys_placed placed intact main route main, six_left,
      spare_full occupied, card_new_keys member route absent, Finset.card_empty, ← buckets_needed_extend]
    omega

/-! ### An upsert -/

/-- With room for the key an upsert succeeds, and leaves the room for the
others. -/
theorem upserted_room {bid key : Nat} (off : Nat) (room : HasRoom geo bid_of keys mem)
    (intact : Intact geo bid_of mem) (main : bid < geo.main_buckets_per_region)
    (route : bid_of key = bid) (member : key ∈ keys) :
    (upserted geo mem key off (found_in mem key (chain geo mem bid) none)).1 = true ∧
      HasRoom geo bid_of keys
        (upserted geo mem key off (found_in mem key (chain geo mem bid) none)).2 := by
  rcases found : found_in mem key (chain geo mem bid) none with slot | ⟨tail, _ | slot⟩
  · obtain ⟨inside, visible, same⟩ := found_in_matched found
    refine ⟨rfl, room_updated room
      (updated_placed off intact.toShape main inside visible same) intact main route ?_⟩
    rw [intact.entry_of_slot main inside visible same]
    exact Option.some_ne_none _
  · obtain ⟨missing, rfl, -⟩ := found_in_missing found
    obtain ⟨inside, unlinked⟩ := intact.last bid
    have absent := entry_eq_none.mpr missing
    have occupied : ∀ slot : Slot, slot.bucket ∈ chain geo mem bid → published mem slot = true :=
      fun slot => found_in_full found
    have some_needed : 1 ≤ overflow_needed geo bid_of keys mem bid := by
      unfold overflow_needed
      rw [spare_full occupied, Finset.card_empty, card_new_keys member route absent,
        ← buckets_needed_extend]
      omega
    have left : ¬exhausted geo mem := by
      have total := Finset.single_le_sum
        (fun other _ => Nat.zero_le (overflow_needed geo bid_of keys mem other))
        (Finset.mem_range.mpr main)
      unfold HasRoom at room
      unfold exhausted
      omega
    simp only [upserted, if_neg left]
    exact ⟨trivial, room_extended room
      (extended_placed intact.toShape intact.toAllocated main inside unlinked left missing) intact
      main route member absent inside occupied⟩
  · obtain ⟨inside, free⟩ := found_in_reusable found
    have missing := (found_in_missing found).1
    exact ⟨rfl, room_claimed room (claimed_placed intact.toShape inside free missing) intact main
      route member (entry_eq_none.mpr missing) inside free⟩

/-- An upsert of what the key is mapped to already changes nothing. -/
theorem upserted_again {bid key off : Nat} (present : entry geo mem bid key = some off) :
    upserted geo mem key off (found_in mem key (chain geo mem bid) none) = (true, mem) := by
  unfold entry at present
  unfold found_in
  obtain ⟨slot, hit, same⟩ := Option.map_eq_some_iff.mp present
  rw [hit]
  simp only [upserted, updated, Prod.mk.injEq, true_and]
  funext word
  by_cases here : word = .offset slot.bucket slot.idx
  · rw [here, Mem.set_same, ← same]
    rfl
  · exact Mem.set_other _ _ here

/-! ### The tier -/

def Room (geo : Geometry) (route : Nat → Nat) (keys : Finset Nat) (tier : Tier) : Prop :=
  ∀ rid, HasRoom geo (fun key => bucket_id_of geo (route key))
    (keys.filter (fun key => region_id_of (route key) = rid)) (tier rid)

variable {route : Nat → Nat} {tier : Tier}

theorem Tier.upsert_room {key : Nat} (off : Nat) (sound : Sound geo route tier)
    (room : Room geo route keys tier) (member : key ∈ keys) :
    ∃ after, tier.upsert geo (route key) key off = (some true, after) ∧
      Puts geo route [⟨route key, key, off⟩] tier after ∧ Room geo route keys after := by
  have intact := sound (region_id_of (route key))
  have here : key ∈ keys.filter (fun other =>
      region_id_of (route other) = region_id_of (route key)) :=
    Finset.mem_filter.mpr ⟨member, rfl⟩
  have placed := upserted_room off (room _) intact (bucket_id_of_lt geo (route key)) rfl here
  have ran : tier.upsert geo (route key) key off =
      (some true, Function.update tier (region_id_of (route key))
        (upserted geo (tier (region_id_of (route key))) key off
          (found_in (tier (region_id_of (route key))) key
            (chain geo (tier (region_id_of (route key))) (bucket_id_of geo (route key)))
            none)).2) := by
    rw [Tier.upsert, Tier.on_region_eq, upsert_run key off (intact.ends _), placed.1]
  refine ⟨_, ran, ?_, ?_⟩
  · have result := Tier.upsert_result sound key off
    rw [ran] at result
    cases result with
    | placed puts => exact puts
  · intro rid
    by_cases same : rid = region_id_of (route key)
    · rw [same, Function.update_self]
      exact placed.2
    · rw [Function.update_of_ne same]
      exact room rid

theorem Tier.upsert_again {key off : Nat} (sound : Sound geo route tier)
    (present : entry geo (tier (region_id_of (route key))) (bucket_id_of geo (route key)) key =
      some off) :
    tier.upsert geo (route key) key off = (some true, tier) := by
  have intact := sound (region_id_of (route key))
  rw [Tier.upsert, Tier.on_region_eq, upsert_run key off (intact.ends _), upserted_again present,
    update_region_self]

/-- A new tier has room for what fits into one bucket. -/
theorem created_room (few : keys.card ≤ kEntriesPerBucket) : Room geo route keys Tier.create := by
  intro rid
  have nothing : ∀ bid, overflow_needed geo (fun key => bucket_id_of geo (route key))
      (keys.filter (fun key => region_id_of (route key) = rid)) (Tier.create rid) bid = 0 := by
    intro bid
    have all_free : spare geo (Tier.create rid) bid = (bucket_slots bid).toFinset := by
      ext slot
      have unlinked : link (Tier.create rid) bid = 0 := next_overflow_idx_zero
      have hidden : published (Tier.create rid) slot = false := slot_published_zero slot.idx
      rw [mem_spare, chain, Geometry.budget, buckets_from_last _ unlinked]
      simp [hidden]
    have slots : (spare geo (Tier.create rid) bid).card = kEntriesPerBucket := by
      rw [all_free, card_bucket_slots]
    have wanted : (new_keys geo (fun key => bucket_id_of geo (route key))
        (keys.filter (fun key => region_id_of (route key) = rid)) (Tier.create rid) bid).card ≤
        keys.card :=
      (Finset.card_filter_le _ _).trans (Finset.card_filter_le _ _)
    unfold overflow_needed buckets_needed
    rw [slots]
    unfold kEntriesPerBucket at few ⊢
    omega
  unfold HasRoom
  rw [Finset.sum_eq_zero (fun bid _ => nothing bid)]
  exact Nat.zero_le _

end Hiom.ColdTier
