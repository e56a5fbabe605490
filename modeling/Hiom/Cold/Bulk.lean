import Hiom.Cold.Region

/-!
`apply_bucket_group` against repeated `upsert`. Phase 1 works on a memory whose
headers lack the occupancy bits it has staged; that memory with the staged bits
added is at every entry the one that repeated `upsert` has produced, and
phase 2 adds the bits.
-/

namespace Hiom.ColdTier

variable {geo : Geometry} {mem : Mem} {bid_of : Nat → Nat}

/-! ### Staged bits -/

theorem batch_claimed_bits_create (bucket bits other : Nat) (dirty : List DirtyBucket) :
    batch_claimed_bits (find_or_create_dirty bucket bits dirty) other =
      if other = bucket then batch_claimed_bits dirty other ||| bits
      else batch_claimed_bits dirty other := by
  induction dirty with
  | nil => simp [find_or_create_dirty, batch_claimed_bits, eq_comm]
  | cons first rest ih =>
      simp only [find_or_create_dirty]
      by_cases here : first.bucket = bucket
      · subst here
        rw [if_pos rfl]
        by_cases same : first.bucket = other
        · simp [batch_claimed_bits, same]
        · simp [batch_claimed_bits, same, Ne.symm same]
      · rw [if_neg here]
        by_cases same : first.bucket = other
        · subst same
          simp [batch_claimed_bits, here]
        · simp only [batch_claimed_bits, if_neg same, ih]

structure Staging (dirty : List DirtyBucket) : Prop where
  nodup : (dirty.map DirtyBucket.bucket).Nodup
  low : ∀ bucket, batch_claimed_bits dirty bucket < 2 ^ 7

theorem Staging.nil : Staging [] :=
  ⟨List.nodup_nil, fun _ => by simp [batch_claimed_bits]⟩

theorem mem_create {bucket bits other : Nat} {dirty : List DirtyBucket} :
    other ∈ (find_or_create_dirty bucket bits dirty).map DirtyBucket.bucket ↔
      other = bucket ∨ other ∈ dirty.map DirtyBucket.bucket := by
  induction dirty with
  | nil => simp [find_or_create_dirty]
  | cons first rest ih =>
      simp only [find_or_create_dirty]
      split
      · rename_i here
        simp [here]
      · simp only [List.map_cons, List.mem_cons, ih]
        tauto

theorem Staging.create {dirty : List DirtyBucket} (staging : Staging dirty) (bucket : Nat)
    {bits : Nat} (low : bits < 2 ^ 7) : Staging (find_or_create_dirty bucket bits dirty) where
  nodup := by
    have nodup := staging.nodup
    clear staging
    induction dirty with
    | nil => simp [find_or_create_dirty]
    | cons first rest ih =>
        rw [List.map_cons, List.nodup_cons] at nodup
        simp only [find_or_create_dirty]
        split
        · rename_i here
          simpa [← here] using nodup
        · rename_i different
          rw [List.map_cons, List.nodup_cons, mem_create, not_or]
          exact ⟨⟨different, nodup.1⟩, ih nodup.2⟩
  low := by
    intro other
    rw [batch_claimed_bits_create]
    split
    · exact Nat.or_lt_two_pow (staging.low other) low
    · exact staging.low other

theorem Staging.low_eight {dirty : List DirtyBucket} (staging : Staging dirty) (bucket : Nat) :
    batch_claimed_bits dirty bucket < 2 ^ 8 :=
  Nat.lt_trans (staging.low bucket) (by decide)

def committed (dirty : List DirtyBucket) (mem : Mem) : Mem :=
  staged (batch_claimed_bits dirty) mem

@[simp] theorem committed_nil (mem : Mem) : committed [] mem = mem := staged_zero mem

theorem committed_header (dirty : List DirtyBucket) (mem : Mem) (bucket : Nat) :
    committed dirty mem (.header bucket) =
      mem (.header bucket) ||| batch_claimed_bits dirty bucket := rfl

theorem committed_other (dirty : List DirtyBucket) (mem : Mem) {word : Word}
    (other : ∀ bucket, word ≠ .header bucket) : committed dirty mem word = mem word := by
  cases word with
  | header bucket => exact absurd rfl (other bucket)
  | num_entries => rfl
  | next_overflow_alloc => rfl
  | key_id bucket slot => rfl
  | offset bucket slot => rfl

theorem committed_create_zero (bucket : Nat) (dirty : List DirtyBucket) (mem : Mem) :
    committed (find_or_create_dirty bucket 0 dirty) mem = committed dirty mem := by
  have bits : batch_claimed_bits (find_or_create_dirty bucket 0 dirty) =
      batch_claimed_bits dirty := by
    funext other
    rw [batch_claimed_bits_create]
    simp
  rw [committed, committed, bits]

theorem committed_set {dirty : List DirtyBucket} {word : Word} (value : Nat)
    (other : ∀ bucket, word ≠ .header bucket) :
    committed dirty (mem.set word value) = (committed dirty mem).set word value := by
  funext place
  by_cases here : place = word
  · rw [here, committed_other _ _ other, Mem.set_same, Mem.set_same]
  · rw [Mem.set_other _ _ here]
    cases place with
    | header bucket => rw [committed_header, committed_header, Mem.set_other _ _ here]
    | num_entries => exact Mem.set_other _ _ here
    | next_overflow_alloc => exact Mem.set_other _ _ here
    | key_id bucket slot => exact Mem.set_other _ _ here
    | offset bucket slot => exact Mem.set_other _ _ here

/-- A staged bit is the bit that `upsert` stores at once. -/
theorem committed_create (bucket bits : Nat) (dirty : List DirtyBucket) (mem : Mem) :
    committed (find_or_create_dirty bucket bits dirty) mem =
      (committed dirty mem).publish bucket bits := by
  funext place
  cases place with
  | header other =>
      rw [committed_header, batch_claimed_bits_create, Mem.publish]
      by_cases here : other = bucket
      · rw [if_pos here, here, Mem.set_same, committed_header, Nat.or_assoc]
      · rw [if_neg here, Mem.set_other _ _ (fun same => here (Word.header.inj same)),
          committed_header]
  | num_entries => rfl
  | next_overflow_alloc => rfl
  | key_id bucket slot => rfl
  | offset bucket slot => rfl

theorem attach_header_or (hdr bits idx : Nat) (low : bits < 2 ^ 7) :
    attach_header (hdr ||| bits) idx = attach_header hdr idx ||| bits := by
  have mask : bits &&& 0x7f = bits := by
    rw [show (0x7f : Nat) = 2 ^ 7 - 1 from rfl, Nat.and_two_pow_sub_one_eq_mod,
      Nat.mod_eq_of_lt low]
  simp only [attach_header, Nat.and_or_distrib_right, mask]
  ac_rfl

theorem committed_attach {dirty : List DirtyBucket} (staging : Staging dirty) (tail idx : Nat) :
    committed dirty (mem.attach tail idx) = (committed dirty mem).attach tail idx := by
  funext place
  cases place with
  | header other =>
      rw [committed_header, Mem.attach, Mem.attach]
      by_cases here : other = tail
      · rw [here, Mem.set_same, Mem.set_same, committed_header,
          attach_header_or _ _ _ (staging.low tail)]
      · have apart : Word.header other ≠ .header tail := fun same => here (Word.header.inj same)
        rw [Mem.set_other _ _ apart, Mem.set_other _ _ apart, committed_header]
  | num_entries => rfl
  | next_overflow_alloc => rfl
  | key_id bucket slot => rfl
  | offset bucket slot => rfl

theorem Mem.set_comm (mem : Mem) {first second : Word} (value other : Nat)
    (different : first ≠ second) :
    (mem.set first value).set second other = (mem.set second other).set first value := by
  funext place
  by_cases on_first : place = first
  · subst on_first
    rw [Mem.set_other _ _ different, Mem.set_same, Mem.set_same]
  · by_cases on_second : place = second
    · subst on_second
      rw [Mem.set_same, Mem.set_other _ _ on_first, Mem.set_same]
    · simp [Mem.set, on_first, on_second]

theorem Mem.count_publish (mem : Mem) (bucket bits : Nat) :
    mem.count.publish bucket bits = (mem.publish bucket bits).count :=
  Mem.set_comm _ _ _ (by simp)

/-- A fresh bucket's header may be stored before or after its link. -/
theorem Mem.attach_count_publish {bucket tail : Nat} (idx : Nat) (different : tail ≠ bucket)
    (zero : mem (.header bucket) = 0) :
    ((mem.attach tail idx).count).publish bucket 1 =
      ((mem.set (.header bucket) 1).attach tail idx).count := by
  have apart : Word.header tail ≠ .header bucket := fun same => different (Word.header.inj same)
  rw [Mem.count_publish]
  have same : (mem.attach tail idx).publish bucket 1 =
      (mem.set (.header bucket) 1).attach tail idx := by
    rw [Mem.publish, Mem.attach, Mem.attach, Mem.set_other _ _ apart.symm,
      Mem.set_other _ _ apart, zero, Nat.zero_or, Mem.set_comm _ _ _ apart]
  rw [same]

theorem committed_write_entry (dirty : List DirtyBucket) (slot : Slot) (key off : Nat) :
    committed dirty (mem.write_entry slot key off) =
      (committed dirty mem).write_entry slot key off := by
  rw [Mem.write_entry, committed_set _ (by simp), committed_set _ (by simp), Mem.write_entry]

theorem committed_count (dirty : List DirtyBucket) :
    committed dirty mem.count = (committed dirty mem).count :=
  committed_set _ (by simp)

theorem committed_allocate (dirty : List DirtyBucket) :
    committed dirty mem.allocate = (committed dirty mem).allocate :=
  committed_set _ (by simp)

/-! ### Phase 1 -/

theorem Staging.link {dirty : List DirtyBucket} (staging : Staging dirty) (bucket : Nat) :
    link (committed dirty mem) bucket = link mem bucket :=
  link_staged staging.low_eight mem bucket

theorem Staging.walk {dirty : List DirtyBucket} {bid : Nat} (staging : Staging dirty) (key : Nat)
    (links : Links geo (committed dirty mem)) :
    (walk geo (batch_claimed_bits dirty) bid key).run memSem mem =
      (some (found_in (committed dirty mem) key (chain geo (committed dirty mem) bid) none),
        mem) := by
  have ends := (links.congr (fun bucket => (staging.link bucket).symm)).ends bid
  rw [chain, buckets_from_congr staging.link]
  exact walk_chain_run (batch_claimed_bits dirty) key none ends

inductive Staged (bid : Nat) (dirty : List DirtyBucket) (mem : Mem) :
    Bool × Mem → Option (Option (List DirtyBucket)) × Mem → Prop
  | written {after : Mem} {dirty' : List DirtyBucket} (staging : Staging dirty') :
      Staged bid dirty mem (true, committed dirty' after) (some (some dirty'), after)
  | spent : Staged bid dirty mem (false, committed dirty mem) (some none, mem)

theorem stage_entry_run {dirty : List DirtyBucket} {bid : Nat} (key off : Nat)
    (staging : Staging dirty) (intact : Intact geo bid_of (committed dirty mem))
    (main : bid < geo.main_buckets_per_region) :
    Staged bid dirty mem
      (upserted geo (committed dirty mem) key off
        (found_in (committed dirty mem) key (chain geo (committed dirty mem) bid) none))
      ((stage_entry geo bid dirty key off).run memSem mem) := by
  rw [stage_entry, Prog.run_bind, staging.walk key intact.toLinks]
  rcases found : found_in (committed dirty mem) key (chain geo (committed dirty mem) bid) none
    with slot | ⟨tail, _ | slot⟩
  · simp only [upserted, run_store, run_pmem_flush_range, Prog.run_ret]
    have same : updated (committed dirty mem) slot off =
        committed (find_or_create_dirty slot.bucket 0 dirty) (updated mem slot off) := by
      rw [committed_create_zero, updated, updated, committed_set _ (by simp)]
    rw [same]
    exact .written (staging.create _ (by decide))
  · have alloc : committed dirty mem .next_overflow_alloc = mem .next_overflow_alloc := rfl
    simp only [upserted, run_fetch_add]
    by_cases full : exhausted geo (committed dirty mem)
    · have beyond : mem .next_overflow_alloc + 1 > geo.overflow_slots_per_region := full
      rw [if_pos full, if_pos beyond, run_fetch_sub, Mem.set_same, Nat.add_sub_cancel,
        Mem.set_back]
      exact .spent
    · have room : ¬mem .next_overflow_alloc + 1 > geo.overflow_slots_per_region := full
      rw [if_neg full, if_neg room]
      obtain ⟨-, rfl, -⟩ := found_in_missing found
      obtain ⟨inside, -⟩ := intact.last bid
      have different := Nat.ne_of_lt (intact.toAllocated.lt_fresh main inside)
      have zero := intact.toAllocated.header_fresh
      generalize (chain geo (committed dirty mem) bid).getLastD 0 = tail at inside different ⊢
      simp only [run_store, run_pmem_flush_range, run_load, run_fetch_add, Prog.run_ret]
      have same : extended geo (committed dirty mem) tail key off =
          committed (find_or_create_dirty tail 0
              (find_or_create_dirty (fresh_bucket geo (committed dirty mem)) 1 dirty))
            (((mem.allocate.write_entry (.first (fresh_bucket geo (committed dirty mem))) key
              off).attach tail (mem .next_overflow_alloc + 1)).count) := by
        rw [committed_create_zero, committed_create, committed_count, committed_attach staging,
          committed_write_entry, committed_allocate, Mem.attach_count_publish _ different]
        · rfl
        · exact zero
      rw [same]
      exact .written ((staging.create _ (by decide)).create _ (by decide))
  · simp only [upserted, run_store, run_pmem_flush_range, run_fetch_add, Prog.run_ret]
    have same : claimed (committed dirty mem) slot key off =
        committed (find_or_create_dirty slot.bucket (1 <<< slot.idx.val) dirty)
          (mem.write_entry slot key off).count := by
      rw [committed_create, committed_count, committed_write_entry, Mem.count_publish]
      rfl
    rw [same]
    exact .written (staging.create _ (slot_bit_lt slot.idx))

/-- Repeated `upsert` up to the first that fails, with the number of those
that succeeded. -/
def upsert_while_room (geo : Geometry) (bid : Nat) : List BulkEntry → Mem → Nat × Mem
  | [], mem => (0, mem)
  | entry :: rest, mem =>
      match (upsert geo bid entry.key_id entry.off).run memSem mem with
      | (some true, after) =>
          ((upsert_while_room geo bid rest after).1 + 1, (upsert_while_room geo bid rest after).2)
      | (_, after) => (0, after)

theorem stage_group_run {bid : Nat} (main : bid < geo.main_buckets_per_region)
    {entries : List BulkEntry} (routed : ∀ entry ∈ entries, bid_of entry.key_id = bid)
    {dirty : List DirtyBucket} (staging : Staging dirty)
    (intact : Intact geo bid_of (committed dirty mem)) (written : Nat) :
    ∃ dirty' after,
      (stage_group geo bid entries dirty written).run memSem mem =
        (some (dirty', written + (upsert_while_room geo bid entries (committed dirty mem)).1), after) ∧
      Staging dirty' ∧
      committed dirty' after = (upsert_while_room geo bid entries (committed dirty mem)).2 := by
  induction entries generalizing dirty mem written with
  | nil => exact ⟨dirty, mem, rfl, staging, rfl⟩
  | cons entry rest ih =>
      have route := routed entry List.mem_cons_self
      have outcome := upserted_outcome _ entry.off intact main route
      have stage := stage_entry_run entry.key_id entry.off staging intact main
      have ran := upsert_run entry.key_id entry.off (intact.ends bid)
      revert outcome stage ran
      generalize upserted geo (committed dirty mem) entry.key_id entry.off _ = result
      generalize ran_stage : (stage_entry geo bid dirty entry.key_id entry.off).run memSem mem =
        answer
      intro outcome stage ran
      rw [stage_group, Prog.run_bind, ran_stage, upsert_while_room, ran]
      cases stage with
      | spent => exact ⟨dirty, mem, rfl, staging, rfl⟩
      | written staging' =>
          cases outcome with
          | placed slot placed settled intact' =>
              obtain ⟨dirty'', after', ran', staging'', same⟩ :=
                ih (fun other member => routed other (List.mem_cons_of_mem _ member)) staging'
                  intact' (written + 1)
              refine ⟨dirty'', after', ?_, staging'', same⟩
              rw [← Nat.add_assoc, Nat.add_right_comm]
              exact ran'

/-! ### Phase 2 -/

theorem batch_claimed_bits_not_mem {dirty : List DirtyBucket} {bucket : Nat}
    (outside : bucket ∉ dirty.map DirtyBucket.bucket) : batch_claimed_bits dirty bucket = 0 := by
  induction dirty with
  | nil => rfl
  | cons first rest ih =>
      rw [List.map_cons, List.mem_cons, not_or] at outside
      rw [batch_claimed_bits, if_neg (Ne.symm outside.1)]
      exact ih outside.2

theorem committed_cons (first : DirtyBucket) (rest : List DirtyBucket)
    (outside : first.bucket ∉ rest.map DirtyBucket.bucket) :
    committed (first :: rest) mem =
      committed rest (mem.publish first.bucket first.add_bits) := by
  funext place
  cases place with
  | header bucket =>
      rw [committed_header, committed_header, Mem.publish, batch_claimed_bits]
      by_cases here : first.bucket = bucket
      · subst here
        rw [if_pos rfl, Mem.set_same, batch_claimed_bits_not_mem outside, Nat.or_zero]
      · rw [if_neg here, Mem.set_other _ _ (fun same => here (Word.header.inj same).symm)]
  | num_entries => rfl
  | next_overflow_alloc => rfl
  | key_id bucket slot => rfl
  | offset bucket slot => rfl

theorem Mem.publish_zero (mem : Mem) (bucket : Nat) : mem.publish bucket 0 = mem := by
  rw [Mem.publish, Nat.or_zero]
  funext place
  by_cases here : place = .header bucket
  · rw [here, Mem.set_same]
  · exact Mem.set_other _ _ here

theorem publish_dirty_run {dirty : List DirtyBucket}
    (nodup : (dirty.map DirtyBucket.bucket).Nodup) :
    (publish_dirty dirty).run memSem mem = ((), committed dirty mem) := by
  induction dirty generalizing mem with
  | nil => rw [committed_nil]; rfl
  | cons first rest ih =>
      rw [List.map_cons, List.nodup_cons] at nodup
      rw [committed_cons first rest nodup.1, ← ih nodup.2, publish_dirty]
      by_cases empty : first.add_bits = 0
      · simp [empty, Mem.publish_zero]
      · simp [empty, Mem.publish]

/-- A bucket group does what repeated `upsert` does until it first fails. -/
theorem apply_bucket_group_run {bid : Nat} (main : bid < geo.main_buckets_per_region)
    {entries : List BulkEntry} (routed : ∀ entry ∈ entries, bid_of entry.key_id = bid)
    (intact : Intact geo bid_of mem) :
    (apply_bucket_group geo bid entries).run memSem mem =
      (some (upsert_while_room geo bid entries mem).1, (upsert_while_room geo bid entries mem).2) := by
  rw [← committed_nil mem] at intact
  obtain ⟨dirty, after, ran, staging, same⟩ := stage_group_run main routed .nil intact 0
  rw [committed_nil, Nat.zero_add] at ran
  rw [committed_nil] at same
  rw [apply_bucket_group, Prog.run_bind, ran]
  simp only
  cases dirty with
  | nil =>
      rw [committed_nil] at same
      rw [same]
      rfl
  | cons first rest =>
      simp only [List.isEmpty_cons, Bool.false_eq_true, if_false]
      rw [run_pmem_drain, Prog.run_bind, publish_dirty_run staging.nodup, same]
      rfl

theorem upsert_while_room_intact {bid : Nat} (main : bid < geo.main_buckets_per_region)
    {entries : List BulkEntry} (routed : ∀ entry ∈ entries, bid_of entry.key_id = bid)
    (intact : Intact geo bid_of mem) :
    Intact geo bid_of (upsert_while_room geo bid entries mem).2 := by
  induction entries generalizing mem with
  | nil => exact intact
  | cons entry rest ih =>
      have outcome := upserted_outcome _ entry.off intact main (routed entry List.mem_cons_self)
      have ran := upsert_run entry.key_id entry.off (intact.ends bid)
      revert outcome ran
      generalize upserted geo mem entry.key_id entry.off _ = result
      intro outcome ran
      rw [upsert_while_room, ran]
      cases outcome with
      | placed slot placed settled intact' =>
          exact ih (fun other member => routed other (List.mem_cons_of_mem _ member)) intact'
      | full => exact intact

theorem upsert_while_room_old {bid : Nat} (main : bid < geo.main_buckets_per_region)
    {entries : List BulkEntry} (routed : ∀ entry ∈ entries, bid_of entry.key_id = bid)
    (intact : Intact geo bid_of mem) : Old geo mem (upsert_while_room geo bid entries mem).2 := by
  induction entries generalizing mem with
  | nil => exact fun _ _ member _ => member
  | cons entry rest ih =>
      have outcome := upserted_outcome _ entry.off intact main (routed entry List.mem_cons_self)
      have ran := upsert_run entry.key_id entry.off (intact.ends bid)
      revert outcome ran
      generalize upserted geo mem entry.key_id entry.off _ = result
      intro outcome ran
      rw [upsert_while_room, ran]
      cases outcome with
      | placed slot placed settled intact' =>
          intro main other member visible
          have later := ih (fun other member => routed other (List.mem_cons_of_mem _ member))
            intact' main other member (placed.published_iff.mpr (.inl visible))
          exact placed.old main other later visible
      | full => exact fun _ _ member _ => member

end Hiom.ColdTier
