import Hiom.Cold.Bulk

/-!
Every store of every writer, taken alone, only lets the region grow. So each
memory that exists while a writer runs lies between the memory it started from
and the one it leaves, and has the shape of the latter.
-/

namespace Hiom.ColdTier

variable {geo : Geometry} {mem : Mem} {bid_of : Nat → Nat}

def Extends (mem : Mem) (access : Access) : Prop := Grows mem (access.effect mem)

def IsLoad : Access → Prop
  | .load _ => True
  | _ => False

theorem extends_load {access : Access} (load : IsLoad access) : Extends mem access := by
  cases access <;> first | exact Grows.refl mem | cases load

@[simp] theorem extends_flush (words : List Word) : Extends mem (.flush words) := Grows.refl mem

@[simp] theorem extends_fence : Extends mem .fence := Grows.refl mem

@[simp] theorem extends_load_word (word : Word) : Extends mem (.load word) := Grows.refl mem

/-- Words other than headers and key ids decide nothing about visibility. -/
theorem grows_set_plain {word : Word} (value : Nat) (header : ∀ bucket, word ≠ .header bucket)
    (key_id : ∀ bucket slot, word ≠ .key_id bucket slot) : Grows mem (mem.set word value) where
  published := by
    intro slot visible
    rwa [published, Mem.set_other _ _ (header slot.bucket).symm]
  key := fun slot _ => Mem.set_other _ _ (key_id slot.bucket slot.idx).symm
  link := by
    intro bucket _
    rw [link, Mem.set_other _ _ (header bucket).symm]
    rfl

@[simp] theorem extends_store_offset (bucket slot value : Nat) :
    Extends mem (.store (.offset bucket slot) value) :=
  grows_set_plain value (by simp) (by simp)

@[simp] theorem extends_add_entries (amount : Nat) :
    Extends mem (.fetch_add .num_entries amount) :=
  grows_set_plain _ (by simp) (by simp)

@[simp] theorem extends_add_alloc (amount : Nat) :
    Extends mem (.fetch_add .next_overflow_alloc amount) :=
  grows_set_plain _ (by simp) (by simp)

@[simp] theorem extends_sub_alloc (amount : Nat) :
    Extends mem (.fetch_sub .next_overflow_alloc amount) :=
  grows_set_plain _ (by simp) (by simp)

/-- A slot's key may be written while its bit is clear. -/
theorem extends_store_key (slot : Slot) (hidden : published mem slot = false) (value : Nat) :
    Extends mem (.store (.key_id slot.bucket slot.idx) value) where
  published := fun other visible => visible
  key := by
    intro other visible
    refine Mem.set_other _ _ (fun same => ?_)
    obtain ⟨bucket, idx⟩ := Word.key_id.inj same
    have same_slot : other = slot := Slot.ext bucket (Fin.ext idx)
    rw [same_slot, hidden] at visible
    cases visible
  link := fun _ _ => rfl

/-- A header may be stored that keeps the bits and the link it has. -/
theorem grows_set_header {bucket value : Nat}
    (bits : ∀ i : Fin kEntriesPerBucket, slot_published (mem (.header bucket)) i = true →
      slot_published value i = true)
    (links : link mem bucket ≠ 0 → next_overflow_idx value = link mem bucket) :
    Grows mem (mem.set (.header bucket) value) where
  published := by
    intro slot visible
    by_cases here : slot.bucket = bucket
    · rw [published, here] at visible ⊢
      rw [Mem.set_same]
      exact bits slot.idx visible
    · rwa [published, Mem.set_other _ _ (fun same => here (Word.header.inj same))]
  key := fun _ _ => rfl
  link := by
    intro other linked
    by_cases here : other = bucket
    · subst here
      rw [link, Mem.set_same]
      exact links linked
    · rw [link, Mem.set_other _ _ (fun same => here (Word.header.inj same))]
      rfl

theorem extends_fetch_or (bucket : Nat) {bits : Nat} (low : bits < 2 ^ 7) :
    Extends mem (.fetch_or (.header bucket) bits) :=
  grows_set_header
    (fun i visible => by rw [slot_published_or, visible, Bool.true_or])
    (fun _ => next_overflow_idx_or _ _ (Nat.lt_trans low (by decide)))

theorem extends_store_fresh {bucket : Nat} (zero : mem (.header bucket) = 0) (value : Nat) :
    Extends mem (.store (.header bucket) value) :=
  grows_set_header
    (fun i visible => by rw [zero, slot_published_zero] at visible; cases visible)
    (fun linked => absurd (by rw [link, zero, next_overflow_idx_zero]) linked)

theorem extends_attach {tail : Nat} (unlinked : link mem tail = 0) (idx : Nat) :
    Extends mem (.store (.header tail) (attach_header (mem (.header tail)) idx)) :=
  grows_set_header
    (fun i visible => by rw [slot_published_attach _ _ _ i.isLt]; exact visible)
    (fun linked => absurd unlinked linked)

/-! ### Walks only load -/

theorem walk_slots_only (bucket key live : Nat) (idxs : List (Fin kEntriesPerBucket))
    (reusable : Option Slot) : (walk_slots bucket key live idxs reusable).Only IsLoad := by
  induction idxs generalizing reusable with
  | nil => exact Prog.only_ret _
  | cons i rest ih =>
      simp only [walk_slots]
      split
      · rw [only_load]
        refine ⟨trivial, fun kid => ?_⟩
        split
        · exact Prog.only_ret _
        · exact ih _
      · exact ih _

theorem walk_chain_only (geo : Geometry) (claimed : Nat → Nat) (key fuel cur : Nat)
    (reusable : Option Slot) :
    (walk_chain geo claimed key fuel cur reusable).Only IsLoad := by
  induction fuel generalizing cur reusable with
  | zero => exact Prog.only_ret _
  | succ fuel ih =>
      refine ⟨trivial, fun hdr => ?_⟩
      refine (walk_slots_only _ _ _ _ _).bind ?_
      rintro ⟨_ | i, later⟩
      · simp only
        split
        · exact Prog.only_ret _
        · exact ih _ _
      · exact Prog.only_ret _

theorem walk_guarded (claimed : Nat → Nat) (bid key : Nat) :
    (walk geo claimed bid key).Guarded memSem Extends mem :=
  (walk_chain_only geo claimed key _ _ _).guarded (fun _ _ => extends_load) mem

theorem lookup_only (bid key : Nat) : (lookup geo bid key).Only IsLoad := by
  refine (walk_chain_only geo _ key _ _ _).bind ?_
  rintro (_ | ⟨slot⟩ | ⟨tail, reusable⟩)
  · exact Prog.only_ret _
  · rw [only_load]
    refine ⟨trivial, fun off => ?_⟩
    split <;> exact Prog.only_ret _
  · exact Prog.only_ret _

/-! ### Writers -/

theorem upsert_guarded {bid key : Nat} (off : Nat) (intact : Intact geo bid_of mem)
    (main : bid < geo.main_buckets_per_region) :
    (upsert geo bid key off).Guarded memSem Extends mem := by
  rw [upsert, Prog.guarded_bind, walk_run key (intact.ends bid)]
  refine ⟨walk_guarded _ _ _, ?_⟩
  rcases found : found_in mem key (chain geo mem bid) none with slot | ⟨tail, _ | slot⟩
  · simp
  · obtain ⟨-, rfl, -⟩ := found_in_missing found
    obtain ⟨inside, unlinked⟩ := intact.last bid
    have different := Nat.ne_of_lt (intact.toAllocated.lt_fresh main inside)
    have zero := intact.toAllocated.header_fresh
    generalize (chain geo mem bid).getLastD 0 = tail at inside unlinked different ⊢
    simp only [guarded_fetch_add, extends_add_alloc, true_and]
    split
    · simp
    · have hidden := intact.toAllocated.not_published_fresh (.first (fresh_bucket geo mem)) rfl
      have unlinked_later : ∀ value, link (mem.set (.header (fresh_bucket geo mem)) value) tail = 0 := by
        intro value
        rw [link, Mem.set_other _ _ (fun same => different (Word.header.inj same))]
        exact unlinked
      simp only [guarded_store, guarded_pmem_persist, guarded_load, guarded_fetch_add,
        extends_store_offset, extends_flush, extends_fence, extends_load_word,
        extends_add_entries, Prog.guarded_ret, and_true, true_and]
      exact ⟨extends_store_key (.first (fresh_bucket geo mem)) (by exact hidden) key,
        extends_store_fresh (by exact zero) 1, extends_attach (by exact unlinked_later 1) _⟩
  · have hidden := (found_in_reusable found).2
    simp only [guarded_store, guarded_pmem_persist, guarded_fetch_or, guarded_fetch_add,
      extends_store_key slot hidden, extends_store_offset, extends_flush, extends_fence,
      extends_fetch_or _ (slot_bit_lt slot.idx), extends_add_entries, Prog.guarded_ret, and_self]

theorem remove_guarded {bid key : Nat} (intact : Intact geo bid_of mem) :
    (remove geo bid key).Guarded memSem Extends mem := by
  rw [remove, Prog.guarded_bind, walk_run key (intact.ends bid)]
  refine ⟨walk_guarded _ _ _, ?_⟩
  rcases found_in mem key (chain geo mem bid) none with slot | ⟨tail, reusable⟩
  · simp
  · simp

/-- A slot that the batch may reuse is not published either. -/
theorem hidden_of_committed {dirty : List DirtyBucket} {slot : Slot}
    (hidden : published (committed dirty mem) slot = false) : published mem slot = false := by
  rw [published, committed_header, slot_published_or, Bool.or_eq_false_iff] at hidden
  exact hidden.1

theorem stage_entry_guarded {dirty : List DirtyBucket} {bid : Nat} (key off : Nat)
    (staging : Staging dirty) (intact : Intact geo bid_of (committed dirty mem)) :
    (stage_entry geo bid dirty key off).Guarded memSem Extends mem := by
  rw [stage_entry, Prog.guarded_bind, staging.walk key intact.toLinks]
  refine ⟨walk_guarded _ _ _, ?_⟩
  rcases found : found_in (committed dirty mem) key (chain geo (committed dirty mem) bid) none
    with slot | ⟨tail, _ | slot⟩
  · simp
  · obtain ⟨-, rfl, -⟩ := found_in_missing found
    obtain ⟨-, unlinked⟩ := intact.last bid
    rw [staging.link] at unlinked
    generalize (chain geo (committed dirty mem) bid).getLastD 0 = tail at unlinked ⊢
    simp only [guarded_fetch_add, extends_add_alloc, true_and]
    split
    · simp
    · have hidden := hidden_of_committed (intact.toAllocated.not_published_fresh
        (.first (fresh_bucket geo (committed dirty mem))) rfl)
      simp only [guarded_store, guarded_pmem_flush_range, guarded_load, guarded_fetch_add,
        extends_store_offset, extends_flush, extends_load_word, extends_add_entries,
        Prog.guarded_ret, and_true, true_and]
      exact ⟨extends_store_key (.first (fresh_bucket geo (committed dirty mem)))
          (by exact hidden) key,
        extends_attach (by exact unlinked) _⟩
  · have hidden := hidden_of_committed (found_in_reusable found).2
    simp only [guarded_store, guarded_pmem_flush_range, guarded_fetch_add,
      extends_store_key slot hidden, extends_store_offset, extends_flush, extends_add_entries,
      Prog.guarded_ret, and_self]

theorem stage_group_guarded {bid : Nat} (main : bid < geo.main_buckets_per_region)
    {entries : List BulkEntry} (routed : ∀ entry ∈ entries, bid_of entry.key_id = bid)
    {dirty : List DirtyBucket} (staging : Staging dirty)
    (intact : Intact geo bid_of (committed dirty mem)) (written : Nat) :
    (stage_group geo bid entries dirty written).Guarded memSem Extends mem := by
  induction entries generalizing dirty mem written with
  | nil => trivial
  | cons entry rest ih =>
      have outcome := upserted_outcome _ entry.off intact main (routed entry List.mem_cons_self)
      have stage := stage_entry_run entry.key_id entry.off staging intact main
      rw [stage_group, Prog.guarded_bind]
      refine ⟨stage_entry_guarded entry.key_id entry.off staging intact, ?_⟩
      revert outcome stage
      generalize upserted geo (committed dirty mem) entry.key_id entry.off _ = result
      generalize (stage_entry geo bid dirty entry.key_id entry.off).run memSem mem = answer
      intro outcome stage
      cases stage with
      | spent => trivial
      | written staging' =>
          cases outcome with
          | placed slot placed settled intact' =>
              exact ih (fun other member => routed other (List.mem_cons_of_mem _ member)) staging'
                intact' (written + 1)

theorem publish_dirty_guarded {dirty : List DirtyBucket}
    (low : ∀ bucket ∈ dirty, bucket.add_bits < 2 ^ 7) :
    (publish_dirty dirty).Guarded memSem Extends mem := by
  induction dirty generalizing mem with
  | nil => trivial
  | cons first rest ih =>
      have small := low first List.mem_cons_self
      have later := fun {mem} => @ih mem
        (fun bucket member => low bucket (List.mem_cons_of_mem _ member))
      rw [publish_dirty]
      by_cases empty : first.add_bits = 0
      · simp [empty, later]
      · simp [empty, later, extends_fetch_or first.bucket small]

theorem Staging.add_bits_eq {dirty : List DirtyBucket} (staging : Staging dirty)
    {bucket : DirtyBucket} (member : bucket ∈ dirty) :
    batch_claimed_bits dirty bucket.bucket = bucket.add_bits := by
  have nodup := staging.nodup
  clear staging
  induction dirty with
  | nil => cases member
  | cons first rest ih =>
      rw [List.map_cons, List.nodup_cons] at nodup
      rcases List.mem_cons.mp member with rfl | later
      · exact if_pos rfl
      · rw [batch_claimed_bits, if_neg, ih later nodup.2]
        exact fun same => nodup.1 (same ▸ List.mem_map_of_mem later)

theorem Staging.low_bits {dirty : List DirtyBucket} (staging : Staging dirty)
    {bucket : DirtyBucket} (member : bucket ∈ dirty) : bucket.add_bits < 2 ^ 7 :=
  staging.add_bits_eq member ▸ staging.low bucket.bucket

theorem apply_bucket_group_guarded {bid : Nat} (main : bid < geo.main_buckets_per_region)
    {entries : List BulkEntry} (routed : ∀ entry ∈ entries, bid_of entry.key_id = bid)
    (intact : Intact geo bid_of mem) :
    (apply_bucket_group geo bid entries).Guarded memSem Extends mem := by
  rw [← committed_nil mem] at intact
  obtain ⟨dirty, after, ran, staging, -⟩ := stage_group_run main routed .nil intact 0
  rw [apply_bucket_group, Prog.guarded_bind, ran]
  refine ⟨stage_group_guarded main routed .nil intact 0, ?_⟩
  simp only
  split
  · trivial
  · rw [guarded_pmem_drain, Prog.guarded_bind]
    exact ⟨extends_fence, publish_dirty_guarded (fun bucket member => staging.low_bits member),
      extends_fence, trivial⟩

end Hiom.ColdTier
