import Hiom.Cold.Persist

/-!
Each writer publishes with care, and has made everything but the counters
durable by the time it returns.
-/

namespace Hiom.ColdTier

variable {geo : Geometry} {rid : Nat} {bid_of : Nat → Nat} {pmem : Pmem Word} {start : Mem}
  {pairs : Nat → Nat → Prop}

@[simp] theorem careful_load (word : Word) : Careful start pairs pmem (.load word) :=
  fun _ writes => by cases writes

@[simp] theorem careful_flush (words : List Word) : Careful start pairs pmem (.flush words) :=
  fun _ writes => by cases writes

@[simp] theorem careful_fence : Careful start pairs pmem .fence :=
  fun _ writes => by cases writes

theorem careful_of_write {access : Access} {write : Word × Nat}
    (writes : access.write? pmem.now = some write) (respects : Respects start pairs pmem write) :
    Careful start pairs pmem access := by
  intro other same
  rw [writes, Option.some_inj] at same
  exact same ▸ respects

@[simp] theorem careful_add_entries (amount : Nat) :
    Careful start pairs pmem (.fetch_add .num_entries amount) := careful_of_write rfl trivial

@[simp] theorem careful_add_alloc (amount : Nat) :
    Careful start pairs pmem (.fetch_add .next_overflow_alloc amount) :=
  careful_of_write rfl trivial

@[simp] theorem careful_sub_alloc (amount : Nat) :
    Careful start pairs pmem (.fetch_sub .next_overflow_alloc amount) :=
  careful_of_write rfl trivial

/-- An offset may be stored into a hidden slot, or into one that was visible at
the start if it is what the slot's key was asked to map to. -/
theorem careful_store_offset {slot : Slot} {value : Nat}
    (asked : published pmem.now slot = true →
      published start slot = true ∧ pairs (key_at pmem.now slot) value) :
    Careful start pairs pmem (.store (.offset slot.bucket slot.idx) value) :=
  careful_of_write rfl (fun idx same => by
    rw [← Fin.ext same]
    exact asked)

theorem careful_store_offset_hidden (slot : Slot) (hidden : published pmem.now slot = false)
    (value : Nat) : Careful start pairs pmem (.store (.offset slot.bucket slot.idx) value) :=
  careful_store_offset (fun visible => by rw [hidden] at visible; cases visible)

theorem careful_store_key (slot : Slot) (hidden : published pmem.now slot = false)
    (value : Nat) : Careful start pairs pmem (.store (.key_id slot.bucket slot.idx) value) :=
  careful_of_write rfl (fun idx same => by
    rw [← Fin.ext same]
    exact hidden)

theorem careful_publish {bucket bits : Nat}
    (ready : ∀ idx : Fin kEntriesPerBucket, slot_published bits idx = true →
      Sealed pairs pmem ⟨bucket, idx⟩) :
    Careful start pairs pmem (.fetch_or (.header bucket) bits) :=
  careful_of_write rfl (fun idx shown => by
    rw [slot_published_or, Bool.or_eq_true] at shown
    exact shown.imp id (ready idx))

theorem careful_store_header {bucket value : Nat}
    (ready : ∀ idx : Fin kEntriesPerBucket, slot_published value idx = true →
      Sealed pairs pmem ⟨bucket, idx⟩) :
    Careful start pairs pmem (.store (.header bucket) value) :=
  careful_of_write rfl (fun idx shown => .inr (ready idx shown))

theorem careful_attach (tail idx : Nat) :
    Careful start pairs pmem
      (.store (.header tail) (attach_header (pmem.now (.header tail)) idx)) :=
  careful_of_write rfl (fun i shown => .inl (by
    rw [slot_published_attach _ _ _ i.isLt] at shown
    exact shown))

/-! ### Durability -/

def QuietBut (words : List Word) (pmem : Pmem Word) : Prop :=
  ∀ word : Word, ¬word.IsCounter → word ∉ words → pmem.Clean word

theorem Quiet.store (quiet : Quiet pmem) (word : Word) (value : Nat) :
    QuietBut [word] (pmem.store word value) := by
  intro other counted outside
  exact (quiet other counted).store value (fun same => outside (List.mem_singleton.mpr same))

theorem QuietBut.store {words : List Word} {word : Word} (quiet : QuietBut words pmem)
    (value : Nat) : QuietBut (word :: words) (pmem.store word value) := by
  intro other counted outside
  rw [List.mem_cons, not_or] at outside
  exact (quiet other counted outside.2).store value outside.1

theorem Quiet.store_counter (quiet : Quiet pmem) (word : Word) (counter : word.IsCounter)
    (value : Nat) : Quiet (pmem.store word value) := by
  intro other counted
  exact (quiet other counted).store value (fun same => counted (same ▸ counter))

theorem QuietBut.persist {words flushed : List Word} (quiet : QuietBut words pmem)
    (geo : Geometry) (rid : Nat) (covered : words ⊆ flushed) :
    Quiet (pmem.flush (Word.line geo rid) flushed).fence := by
  intro word counted
  by_cases inside : word ∈ flushed
  · exact Pmem.fence_clean (Pmem.flush_fresh inside)
  · exact ((quiet word counted (fun member => inside (covered member))).flush flushed).fence

def store_entry (pmem : Pmem Word) (slot : Slot) (key off : Nat) : Pmem Word :=
  (pmem.store (.key_id slot.bucket slot.idx) key).store (.offset slot.bucket slot.idx) off

def entry_words (slot : Slot) : List Word :=
  [.key_id slot.bucket slot.idx, .offset slot.bucket slot.idx]

@[simp] theorem key_at_store_entry (slot : Slot) (key off : Nat) :
    key_at (store_entry pmem slot key off).now slot = key := by
  simp [store_entry, key_at]

@[simp] theorem offset_at_store_entry (slot : Slot) (key off : Nat) :
    offset_at (store_entry pmem slot key off).now slot = off := by
  simp [store_entry, offset_at]

theorem Quiet.store_entry (quiet : Quiet pmem) (geo : Geometry) (rid : Nat) (slot : Slot)
    (key off : Nat) :
    Quiet ((ColdTier.store_entry pmem slot key off).flush (Word.line geo rid)
      (entry_words slot)).fence := by
  refine ((quiet.store _ key).store off).persist geo rid ?_
  intro word member
  simp only [entry_words, List.mem_cons, List.not_mem_nil, or_false] at member ⊢
  exact member.symm

theorem sealed_entry (quiet : Quiet pmem) (slot : Slot) {key off : Nat} (asked : pairs key off) :
    Sealed pairs ((store_entry pmem slot key off).flush (Word.line geo rid)
      (entry_words slot)).fence slot where
  key := quiet.store_entry geo rid slot key off _ id
  offset := quiet.store_entry geo rid slot key off _ id
  asked := by
    change pairs (key_at (store_entry pmem slot key off).now slot)
      (offset_at (store_entry pmem slot key off).now slot)
    rwa [key_at_store_entry, offset_at_store_entry]

/-! ### Single entries -/

theorem walk_wp {claimed : Nat → Nat} {bid key : Nat} {post : Option Found → Pmem Word → Prop}
    (found : post ((walk geo claimed bid key).run memSem pmem.now).1 pmem) :
    (walk geo claimed bid key).Wp (pmemSem geo rid) (Careful start pairs) post pmem := by
  have only := walk_chain_only geo claimed key geo.budget bid none
  rw [Prog.wp_iff]
  refine ⟨only.guarded (fun state access load => ?_) pmem, ?_⟩
  · cases access <;> first | exact careful_load _ | cases load
  · rw [walk, only_load_run only]
    exact found

theorem upsert_durable {bid key off : Nat} (quiet : Quiet pmem)
    (intact : Intact geo bid_of pmem.now) (asked : pairs key off) :
    (upsert geo bid key off).Wp (pmemSem geo rid) (Careful pmem.now pairs)
      (fun _ last => Quiet last) pmem := by
  rw [upsert, Prog.wp_bind]
  refine walk_wp ?_
  rw [walk_run key (intact.ends bid)]
  rcases found : found_in pmem.now key (chain geo pmem.now bid) none with slot | ⟨tail, _ | slot⟩
  · obtain ⟨inside, visible, same⟩ := found_in_matched found
    rw [pmem_wp_store, pmem_wp_persist]
    refine ⟨careful_store_offset (fun _ => ⟨visible, same ▸ asked⟩), careful_flush _,
      careful_fence, ?_⟩
    exact (quiet.store _ off).persist geo rid (fun _ member => member)
  · rw [pmem_wp_fetch_add]
    refine ⟨careful_add_alloc 1, ?_⟩
    have quiet_alloc := quiet.store_counter .next_overflow_alloc trivial
      (pmem.now .next_overflow_alloc + 1)
    dsimp only
    split
    · rw [pmem_wp_fetch_sub]
      exact ⟨careful_sub_alloc 1,
        quiet_alloc.store_counter .next_overflow_alloc trivial _⟩
    · have hidden := intact.toAllocated.not_published_fresh
        (.first (fresh_bucket geo pmem.now)) rfl
      rw [pmem_wp_store, pmem_wp_store, pmem_wp_persist, pmem_wp_store, pmem_wp_persist,
        pmem_wp_load, pmem_wp_store, pmem_wp_persist, pmem_wp_fetch_add]
      have entry_quiet := quiet_alloc.store_entry geo rid
        (.first (fresh_bucket geo pmem.now)) key off
      have header_quiet := (entry_quiet.store
        (.header (fresh_bucket geo pmem.now)) 1).persist
        geo rid (fun _ member => member)
      refine ⟨careful_store_key (.first (fresh_bucket geo pmem.now))
          (by exact hidden) key,
        careful_store_offset_hidden (.first (fresh_bucket geo pmem.now))
          (by exact hidden) off,
        careful_flush _, careful_fence, careful_store_header (fun idx shown => ?_),
        careful_flush _, careful_fence, careful_load _, careful_attach _ _, careful_flush _,
        careful_fence, careful_add_entries 1, ?_⟩
      · rw [slot_published_one, decide_eq_true_iff] at shown
        have first_idx : idx = ⟨0, by decide⟩ := Fin.ext shown
        rw [first_idx]
        exact sealed_entry quiet_alloc (.first (fresh_bucket geo pmem.now)) asked
      · exact ((header_quiet.store _ _).persist geo rid (fun _ member => member)).store_counter
          .num_entries trivial _
  · obtain ⟨inside, hidden⟩ := found_in_reusable found
    rw [pmem_wp_store, pmem_wp_store, pmem_wp_persist, pmem_wp_fetch_or, pmem_wp_persist,
      pmem_wp_fetch_add]
    have entry_quiet := quiet.store_entry geo rid slot key off
    refine ⟨careful_store_key slot hidden key,
      careful_store_offset_hidden slot (by exact hidden) off,
      careful_flush _, careful_fence, careful_publish (fun idx shown => ?_), careful_flush _,
      careful_fence, careful_add_entries 1, ?_⟩
    · rw [slot_published_bit, decide_eq_true_iff] at shown
      rw [← show slot.idx = idx from Fin.ext shown]
      exact sealed_entry quiet slot asked
    · exact ((entry_quiet.store _ _).persist geo rid (fun _ member => member)).store_counter
          .num_entries trivial _

theorem remove_durable {bid key : Nat} (quiet : Quiet pmem)
    (intact : Intact geo bid_of pmem.now) (asked : pairs key kTombstoneOffset) :
    (remove geo bid key).Wp (pmemSem geo rid) (Careful pmem.now pairs)
      (fun _ last => Quiet last) pmem := by
  rw [remove, Prog.wp_bind]
  refine walk_wp ?_
  rw [walk_run key (intact.ends bid)]
  rcases found : found_in pmem.now key (chain geo pmem.now bid) none with slot | ⟨tail, reusable⟩
  · obtain ⟨inside, visible, same⟩ := found_in_matched found
    rw [pmem_wp_store, pmem_wp_persist]
    refine ⟨careful_store_offset (fun _ => ⟨visible, same ▸ asked⟩), careful_flush _,
      careful_fence, ?_⟩
    exact (quiet.store _ kTombstoneOffset).persist geo rid (fun _ member => member)
  · exact quiet

/-! ### Batches -/

/-- Phase 1 between two entries: no bit has been stored, the staged entries are
on their way, and only headers of dirty buckets are not. -/
structure Batch (start : Mem) (pairs : Nat → Nat → Prop) (dirty : List DirtyBucket)
    (pmem : Pmem Word) : Prop where
  staging : Staging dirty
  bits : ∀ slot, published pmem.now slot = published start slot
  flushed : ∀ word : Word, ¬word.IsCounter → pmem.fresh word = [] ∨
    ∃ bucket ∈ dirty.map DirtyBucket.bucket, word = .header bucket
  asked : ∀ slot : Slot, slot_published (batch_claimed_bits dirty slot.bucket) slot.idx = true →
    pairs (key_at pmem.now slot) (offset_at pmem.now slot)
  untouched : dirty = [] → Quiet pmem

theorem find_or_create_dirty_ne_nil (bucket bits : Nat) (dirty : List DirtyBucket) :
    find_or_create_dirty bucket bits dirty ≠ [] := by
  cases dirty with
  | nil => exact List.cons_ne_nil _ _
  | cons first rest =>
      simp only [find_or_create_dirty]
      split <;> exact List.cons_ne_nil _ _

theorem slot_published_create {dirty : List DirtyBucket} {bucket bits : Nat} {slot : Slot}
    (shown : slot_published
      (batch_claimed_bits (find_or_create_dirty bucket bits dirty) slot.bucket) slot.idx = true) :
    slot_published (batch_claimed_bits dirty slot.bucket) slot.idx = true ∨
      (slot.bucket = bucket ∧ slot_published bits slot.idx = true) := by
  rw [batch_claimed_bits_create] at shown
  split at shown
  · rename_i here
    rw [slot_published_or, Bool.or_eq_true] at shown
    exact shown.imp id (fun bit => ⟨here, bit⟩)
  · exact .inl shown

namespace Batch

variable {dirty : List DirtyBucket}

theorem of_quiet (quiet : Quiet pmem) : Batch pmem.now pairs [] pmem where
  staging := .nil
  bits := fun _ => rfl
  flushed := fun word counted => .inl (quiet word counted).1
  asked := fun slot shown => by
    rw [batch_claimed_bits, slot_published_zero] at shown
    cases shown
  untouched := fun _ => quiet

theorem counter (batch : Batch start pairs dirty pmem) (word : Word) (counts : word.IsCounter)
    (value : Nat) : Batch start pairs dirty (pmem.store word value) := by
  have apart : ∀ other : Word, ¬other.IsCounter → other ≠ word := by
    rintro other counted rfl
    exact counted counts
  have kept : ∀ other : Word, ¬other.IsCounter → (pmem.store word value).now other =
      pmem.now other := fun other counted => if_neg (apart other counted)
  exact {
    staging := batch.staging
    bits := fun slot => by
      rw [← batch.bits, published, published, kept _ id]
    flushed := fun other counted => by
      rw [Pmem.store_fresh_other value (apart other counted)]
      exact batch.flushed other counted
    asked := fun slot shown => by
      rw [key_at, offset_at, kept _ id, kept _ id]
      exact batch.asked slot shown
    untouched := fun empty => (batch.untouched empty).store_counter word counts value }

theorem store_offset {slot : Slot} {key off : Nat} (batch : Batch start pairs dirty pmem)
    (same : key_at pmem.now slot = key) (asked : pairs key off) :
    Batch start pairs (find_or_create_dirty slot.bucket 0 dirty)
      ((pmem.store (.offset slot.bucket slot.idx) off).flush (Word.line geo rid)
        [.offset slot.bucket slot.idx]) where
  staging := batch.staging.create _ (by decide)
  bits := fun other => batch.bits other
  flushed := by
    intro word counted
    by_cases here : word = .offset slot.bucket slot.idx
    · exact .inl (Pmem.flush_fresh (by simp [here]))
    · refine (batch.flushed word counted).imp (fun empty => ?_) ?_
      · refine Pmem.flush_fresh_nil ?_
        rwa [Pmem.store_fresh_other off here]
      · rintro ⟨bucket, member, header⟩
        exact ⟨bucket, mem_create.mpr (.inr member), header⟩
  asked := by
    intro other shown
    have before := (slot_published_create shown).resolve_right (fun ⟨_, bit⟩ => by
      rw [slot_published_zero] at bit
      cases bit)
    by_cases here : other = slot
    · subst here
      have written : offset_at ((pmem.store (.offset other.bucket other.idx) off).flush
          (Word.line geo rid) [.offset other.bucket other.idx]).now other = off := if_pos rfl
      rw [written]
      exact (show key_at pmem.now other = key from same) ▸ asked
    · have kept : offset_at ((pmem.store (.offset slot.bucket slot.idx) off).flush
          (Word.line geo rid) [.offset slot.bucket slot.idx]).now other =
            offset_at pmem.now other := if_neg (fun same => here (by
        obtain ⟨bucket, idx⟩ := Word.offset.inj same
        exact Slot.ext bucket (Fin.ext idx)))
      rw [kept]
      exact batch.asked other before
  untouched := fun empty => absurd empty (find_or_create_dirty_ne_nil _ _ _)

theorem store_entry (batch : Batch start pairs dirty pmem) (geo : Geometry) (rid : Nat)
    (slot : Slot) {key off : Nat} (asked : pairs key off) :
    Batch start pairs (find_or_create_dirty slot.bucket (1 <<< slot.idx.val) dirty)
      ((ColdTier.store_entry pmem slot key off).flush (Word.line geo rid) (entry_words slot)) where
  staging := batch.staging.create _ (slot_bit_lt slot.idx)
  bits := fun other => batch.bits other
  flushed := by
    intro word counted
    by_cases here : word ∈ entry_words slot
    · exact .inl (Pmem.flush_fresh here)
    · refine (batch.flushed word counted).imp (fun empty => ?_) ?_
      · refine Pmem.flush_fresh_nil ?_
        simp only [entry_words, List.mem_cons, List.not_mem_nil, or_false, not_or] at here
        rwa [ColdTier.store_entry, Pmem.store_fresh_other _ here.2,
          Pmem.store_fresh_other _ here.1]
      · rintro ⟨bucket, member, header⟩
        exact ⟨bucket, mem_create.mpr (.inr member), header⟩
  asked := by
    intro other shown
    change pairs (key_at (ColdTier.store_entry pmem slot key off).now other)
      (offset_at (ColdTier.store_entry pmem slot key off).now other)
    by_cases here : other = slot
    · rw [here, key_at_store_entry, offset_at_store_entry]
      exact asked
    · have before := (slot_published_create shown).resolve_right (fun ⟨bucket, bit⟩ => by
        rw [slot_published_bit, decide_eq_true_iff] at bit
        exact here (Slot.ext bucket (Fin.ext bit.symm)))
      have apart : ¬(other.bucket = slot.bucket ∧ (other.idx : Nat) = slot.idx) :=
        fun both => here (Slot.ext both.1 (Fin.ext both.2))
      have key_kept : key_at (ColdTier.store_entry pmem slot key off).now other =
          key_at pmem.now other := by
        simp [ColdTier.store_entry, key_at, apart]
      have offset_kept : offset_at (ColdTier.store_entry pmem slot key off).now other =
          offset_at pmem.now other := by
        simp [ColdTier.store_entry, offset_at, apart]
      rw [key_kept, offset_kept]
      exact batch.asked other before
  untouched := fun empty => absurd empty (find_or_create_dirty_ne_nil _ _ _)

theorem attach (batch : Batch start pairs dirty pmem) (tail idx : Nat) :
    Batch start pairs (find_or_create_dirty tail 0 dirty)
      (pmem.store (.header tail) (attach_header (pmem.now (.header tail)) idx)) where
  staging := batch.staging.create _ (by decide)
  bits := by
    intro slot
    rw [← batch.bits]
    by_cases here : slot.bucket = tail
    · have stored : (pmem.store (.header tail) (attach_header (pmem.now (.header tail)) idx)).now
          (.header tail) = attach_header (pmem.now (.header tail)) idx := if_pos rfl
      rw [published, here, stored, slot_published_attach _ _ _ slot.idx.isLt, published, here]
    · rw [published, published]
      exact congrArg (slot_published · slot.idx)
        (if_neg (fun same => here (Word.header.inj same)))
  flushed := by
    intro word counted
    by_cases here : word = .header tail
    · exact .inr ⟨tail, mem_create.mpr (.inl rfl), here⟩
    · refine (batch.flushed word counted).imp (fun empty => ?_) ?_
      · rwa [Pmem.store_fresh_other _ here]
      · rintro ⟨bucket, member, header⟩
        exact ⟨bucket, mem_create.mpr (.inr member), header⟩
  asked := by
    intro slot shown
    rcases slot_published_create shown with before | ⟨-, bit⟩
    · exact batch.asked slot before
    · rw [slot_published_zero] at bit
      cases bit
  untouched := fun empty => absurd empty (find_or_create_dirty_ne_nil _ _ _)

end Batch

/-- Phase 1 of one entry keeps the batch, with the dirty buckets it answers
with, or the ones it had when the pool is spent. -/
theorem stage_entry_durable (rid bid : Nat) {dirty : List DirtyBucket} {key off : Nat}
    (batch : Batch start pairs dirty pmem)
    (intact : Intact geo bid_of (committed dirty pmem.now)) (asked : pairs key off) :
    (stage_entry geo bid dirty key off).Wp (pmemSem geo rid) (Careful start pairs)
      (fun answer last => ∀ staged, answer = some staged →
        Batch start pairs (staged.getD dirty) last) pmem := by
  rw [stage_entry, Prog.wp_bind]
  refine walk_wp ?_
  rw [batch.staging.walk key intact.toLinks]
  rcases found : found_in (committed dirty pmem.now) key
    (chain geo (committed dirty pmem.now) bid) none with slot | ⟨tail, _ | slot⟩
  · obtain ⟨inside, -, same⟩ := found_in_matched found
    have same_key : key_at pmem.now slot = key := same
    rw [pmem_wp_store, pmem_wp_flush_range]
    refine ⟨careful_store_offset (fun visible => ⟨batch.bits slot ▸ visible, same_key ▸ asked⟩),
      careful_flush _, ?_⟩
    rintro _ ⟨⟩
    exact batch.store_offset same_key asked
  · rw [pmem_wp_fetch_add]
    refine ⟨careful_add_alloc 1, ?_⟩
    have counted := batch.counter .next_overflow_alloc trivial
      (pmem.now .next_overflow_alloc + 1)
    dsimp only
    split
    · rw [pmem_wp_fetch_sub]
      refine ⟨careful_sub_alloc 1, ?_⟩
      rintro _ ⟨⟩
      exact counted.counter .next_overflow_alloc trivial _
    · have hidden := hidden_of_committed (intact.toAllocated.not_published_fresh
        (.first (fresh_bucket geo (committed dirty pmem.now))) rfl)
      rw [pmem_wp_store, pmem_wp_store, pmem_wp_flush_range, pmem_wp_load, pmem_wp_store,
        pmem_wp_fetch_add]
      refine ⟨careful_store_key (.first (fresh_bucket geo (committed dirty pmem.now)))
          (by exact hidden) key,
        careful_store_offset_hidden
          (.first (fresh_bucket geo (committed dirty pmem.now))) (by exact hidden) off,
        careful_flush _, careful_load _, careful_attach _ _, careful_add_entries 1, ?_⟩
      rintro _ ⟨⟩
      exact (((counted.store_entry geo rid
        (.first (fresh_bucket geo (committed dirty pmem.now))) asked).attach
          _ _)).counter .num_entries trivial _
  · have hidden := hidden_of_committed (found_in_reusable found).2
    rw [pmem_wp_store, pmem_wp_store, pmem_wp_flush_range, pmem_wp_fetch_add]
    refine ⟨careful_store_key slot hidden key, careful_store_offset_hidden slot (by exact hidden) off,
      careful_flush _, careful_add_entries 1, ?_⟩
    rintro _ ⟨⟩
    exact (batch.store_entry geo rid slot asked).counter
      .num_entries trivial _

theorem stage_group_durable (rid : Nat) {bid : Nat} (main : bid < geo.main_buckets_per_region)
    {entries : List BulkEntry} (routed : ∀ entry ∈ entries, bid_of entry.key_id = bid)
    (asked : ∀ entry ∈ entries, pairs entry.key_id entry.off)
    {dirty : List DirtyBucket} (batch : Batch start pairs dirty pmem)
    (intact : Intact geo bid_of (committed dirty pmem.now)) (written : Nat) :
    (stage_group geo bid entries dirty written).Wp (pmemSem geo rid) (Careful start pairs)
      (fun answer last => ∃ dirty' count, answer = some (dirty', count) ∧
        Batch start pairs dirty' last) pmem := by
  induction entries generalizing dirty pmem written with
  | nil => exact ⟨dirty, written, rfl, batch⟩
  | cons entry rest ih =>
      have outcome := upserted_outcome _ entry.off intact main (routed entry List.mem_cons_self)
      have stage := stage_entry_run entry.key_id entry.off batch.staging intact main
      have durable := stage_entry_durable rid bid batch intact
        (asked entry List.mem_cons_self)
      have projected := (pmemSem_projects geo rid).run
        (stage_entry geo bid dirty entry.key_id entry.off) pmem
      rw [Prog.wp_iff] at durable
      rw [stage_group, Prog.wp_bind, Prog.wp_iff]
      refine ⟨durable.1, ?_⟩
      have kept := durable.2
      revert outcome stage projected kept
      generalize upserted geo (committed dirty pmem.now) entry.key_id entry.off _ = result
      generalize (stage_entry geo bid dirty entry.key_id entry.off).run memSem pmem.now = ran
      generalize (stage_entry geo bid dirty entry.key_id entry.off).run (pmemSem geo rid) pmem =
        reached
      obtain ⟨answer, last⟩ := reached
      intro outcome stage projected kept
      cases stage with
      | spent =>
          obtain ⟨same, -⟩ := projected
          cases same
          exact ⟨dirty, written, rfl, kept none rfl⟩
      | written staging' =>
          obtain ⟨same, now⟩ := projected
          cases same
          cases outcome with
          | placed slot placed settled intact' =>
              refine ih (fun other member => routed other (List.mem_cons_of_mem _ member))
                (fun other member => asked other (List.mem_cons_of_mem _ member))
                (kept (some _) rfl) ?_ (written + 1)
              exact now ▸ intact'

/-- Phase 2 publishes sealed entries and flushes every dirty header. -/
theorem publish_dirty_durable {dirty : List DirtyBucket}
    (ready : ∀ bucket ∈ dirty, ∀ idx : Fin kEntriesPerBucket,
      slot_published bucket.add_bits idx = true → Sealed pairs pmem ⟨bucket.bucket, idx⟩)
    (flushed : ∀ word : Word, ¬word.IsCounter → pmem.fresh word = [] ∨
      ∃ bucket ∈ dirty.map DirtyBucket.bucket, word = .header bucket) :
    (publish_dirty dirty).Wp (pmemSem geo rid) (Careful start pairs)
      (fun _ last => ∀ word : Word, ¬word.IsCounter → last.fresh word = []) pmem := by
  induction dirty generalizing pmem with
  | nil =>
      intro word counted
      refine (flushed word counted).resolve_right ?_
      rintro ⟨bucket, member, -⟩
      cases member
  | cons first rest ih =>
      have later : ∀ stored : Pmem Word,
          (∀ bucket idx, Sealed pairs pmem ⟨bucket, idx⟩ → Sealed pairs stored ⟨bucket, idx⟩) →
          (∀ word : Word, word ≠ .header first.bucket → stored.fresh word = pmem.fresh word) →
          (publish_dirty rest).Wp (pmemSem geo rid) (Careful start pairs)
            (fun _ last => ∀ word : Word, ¬word.IsCounter → last.fresh word = [])
            (stored.flush (Word.line geo rid) [.header first.bucket]) := by
        intro stored sealed_kept same
        refine ih (fun bucket member idx shown => ?_) (fun word counted => ?_)
        · have kept := sealed_kept bucket.bucket idx
            (ready bucket (List.mem_cons_of_mem _ member) idx shown)
          exact ⟨kept.key.flush _, kept.offset.flush _, kept.asked⟩
        · by_cases here : word = .header first.bucket
          · exact .inl (Pmem.flush_fresh (by simp [here]))
          · rcases flushed word counted with empty | ⟨bucket, member, header⟩
            · exact .inl (Pmem.flush_fresh_nil (by rw [same word here, empty]))
            · rw [List.map_cons, List.mem_cons] at member
              rcases member with rfl | member
              · exact absurd header here
              · exact .inr ⟨bucket, member, header⟩
      rw [publish_dirty]
      by_cases empty : first.add_bits = 0
      · rw [if_neg (not_not.mpr empty)]
        change Prog.Wp _ _ _ (pmem_flush_range _ >>= _) _
        rw [pmem_wp_flush_range]
        exact ⟨careful_flush _, later pmem (fun _ _ kept => kept) (fun _ _ => rfl)⟩
      · rw [if_pos empty]
        change Prog.Wp _ _ _ (fetch_or _ _ >>= _) _
        rw [pmem_wp_fetch_or]
        refine ⟨careful_publish (fun idx shown => ready first List.mem_cons_self idx shown), ?_⟩
        change Prog.Wp _ _ _ (pmem_flush_range _ >>= _) _
        rw [pmem_wp_flush_range]
        exact ⟨careful_flush _, later _ (fun _ _ kept => kept.store _ (by simp) (by simp))
          (fun word apart => Pmem.store_fresh_other _ apart)⟩

theorem apply_bucket_group_durable {bid : Nat} (main : bid < geo.main_buckets_per_region)
    {entries : List BulkEntry} (routed : ∀ entry ∈ entries, bid_of entry.key_id = bid)
    (asked : ∀ entry ∈ entries, pairs entry.key_id entry.off) (quiet : Quiet pmem)
    (intact : Intact geo bid_of pmem.now) :
    (apply_bucket_group geo bid entries).Wp (pmemSem geo rid) (Careful pmem.now pairs)
      (fun _ last => Quiet last) pmem := by
  have staged := stage_group_durable rid main routed asked (Batch.of_quiet quiet)
    (by rwa [committed_nil]) 0
  rw [apply_bucket_group, Prog.wp_bind]
  refine staged.weaken ?_
  rintro _ last ⟨dirty, written, rfl, batch⟩
  dsimp only
  split
  · rename_i empty
    exact batch.untouched (List.isEmpty_iff.mp empty)
  · rw [pmem_wp_drain, Prog.wp_bind]
    refine ⟨careful_fence, ?_⟩
    have ready : ∀ bucket ∈ dirty, ∀ idx : Fin kEntriesPerBucket,
        slot_published bucket.add_bits idx = true →
          Sealed pairs last.fence ⟨bucket.bucket, idx⟩ := by
      intro bucket member idx shown
      have asked := batch.asked ⟨bucket.bucket, idx⟩
        (by rw [batch.staging.add_bits_eq member]; exact shown)
      have flushed := fun word counted header => Pmem.fence_clean
        ((batch.flushed word counted).resolve_right header)
      refine ⟨flushed _ id ?_, flushed _ id ?_, asked⟩
      · rintro ⟨_, _, same⟩
        cases same
      · rintro ⟨_, _, same⟩
        cases same
    refine (publish_dirty_durable ready batch.flushed).weaken ?_
    intro _ final fresh
    exact ⟨careful_fence, fun word counted => Pmem.fence_clean (fresh word counted)⟩

end Hiom.ColdTier
