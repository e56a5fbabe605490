import Hiom.Cold.Shape

/-!
What `upsert`, `lookup` and `remove` do to a region when they run alone, and
that they keep the region's invariant.
-/

namespace Hiom.ColdTier

/-! ### Effects -/

def Mem.write_entry (mem : Mem) (slot : Slot) (key off : Nat) : Mem :=
  (mem.set (.key_id slot.bucket slot.idx) key).set (.offset slot.bucket slot.idx) off

def Mem.publish (mem : Mem) (bucket bits : Nat) : Mem :=
  mem.set (.header bucket) (mem (.header bucket) ||| bits)

def Mem.attach (mem : Mem) (tail idx : Nat) : Mem :=
  mem.set (.header tail) (attach_header (mem (.header tail)) idx)

def Mem.count (mem : Mem) : Mem := mem.set .num_entries (mem .num_entries + 1)

def Mem.allocate (mem : Mem) : Mem :=
  mem.set .next_overflow_alloc (mem .next_overflow_alloc + 1)

def updated (mem : Mem) (slot : Slot) (off : Nat) : Mem :=
  mem.set (.offset slot.bucket slot.idx) off

def claimed (mem : Mem) (slot : Slot) (key off : Nat) : Mem :=
  ((mem.write_entry slot key off).publish slot.bucket (1 <<< slot.idx.val)).count

def Slot.first (bucket : Nat) : Slot := ⟨bucket, ⟨0, by decide⟩⟩

def fresh_bucket (geo : Geometry) (mem : Mem) : Nat :=
  overflow_bucket_of geo (mem .next_overflow_alloc + 1)

def extended (geo : Geometry) (mem : Mem) (tail key off : Nat) : Mem :=
  ((((mem.allocate).write_entry (.first (fresh_bucket geo mem)) key off).set
    (.header (fresh_bucket geo mem)) 1).attach tail (mem .next_overflow_alloc + 1)).count

def exhausted (geo : Geometry) (mem : Mem) : Prop :=
  geo.overflow_slots_per_region < mem .next_overflow_alloc + 1

instance (geo : Geometry) (mem : Mem) : Decidable (exhausted geo mem) :=
  inferInstanceAs (Decidable (_ < _))

def upserted (geo : Geometry) (mem : Mem) (key off : Nat) : Found → Bool × Mem
  | .matched slot => (true, updated mem slot off)
  | .missing _ (some slot) => (true, claimed mem slot key off)
  | .missing tail none =>
      if exhausted geo mem then (false, mem) else (true, extended geo mem tail key off)

theorem Mem.set_back (mem : Mem) (word : Word) (value : Nat) :
    (mem.set word value).set word (mem word) = mem := by
  funext other
  by_cases same : other = word
  · rw [same, Mem.set_same]
  · rw [Mem.set_other _ _ same, Mem.set_other _ _ same]

variable {geo : Geometry} {mem after : Mem} {bid_of : Nat → Nat}

theorem upsert_run {bid : Nat} (key off : Nat) (ends : Ends geo mem geo.budget bid) :
    (upsert geo bid key off).run memSem mem =
      (some (upserted geo mem key off (found_in mem key (chain geo mem bid) none)).1,
        (upserted geo mem key off (found_in mem key (chain geo mem bid) none)).2) := by
  rw [upsert, Prog.run_bind, walk_run key ends]
  rcases found_in mem key (chain geo mem bid) none with slot | ⟨tail, _ | slot⟩
  · rfl
  · simp only [upserted, run_fetch_add]
    by_cases full : exhausted geo mem
    · have beyond : mem .next_overflow_alloc + 1 > geo.overflow_slots_per_region := full
      rw [if_pos full, if_pos beyond, run_fetch_sub, Mem.set_same, Nat.add_sub_cancel,
        Mem.set_back]
      rfl
    · have room : ¬mem .next_overflow_alloc + 1 > geo.overflow_slots_per_region := full
      rw [if_neg full, if_neg room]
      rfl
  · rfl

theorem lookup_run {bid : Nat} (key : Nat) (ends : Ends geo mem geo.budget bid) :
    (lookup geo bid key).run memSem mem =
      (some ((entry geo mem bid key).filter (· ≠ kTombstoneOffset)), mem) := by
  rw [lookup, Prog.run_bind, walk_run key ends]
  unfold found_in entry
  cases (slots (chain geo mem bid)).find? (holds mem key) with
  | none => rfl
  | some slot =>
      simp only [run_load, Option.map_some]
      by_cases gone : mem (.offset slot.bucket slot.idx) = kTombstoneOffset
      · rw [if_pos gone]
        simp [offset_at, gone, Option.filter_some]
      · rw [if_neg gone]
        simp [offset_at, gone, Option.filter_some]

theorem remove_run {bid : Nat} (key : Nat) (ends : Ends geo mem geo.budget bid) :
    (remove geo bid key).run memSem mem =
      match found_in mem key (chain geo mem bid) none with
      | .matched slot => (some true, updated mem slot kTombstoneOffset)
      | .missing _ _ => (some false, mem) := by
  rw [remove, Prog.run_bind, walk_run key ends]
  rcases found_in mem key (chain geo mem bid) none with slot | ⟨tail, reusable⟩
  · rfl
  · rfl

/-! ### The allocator -/

structure Allocated (geo : Geometry) (mem : Mem) : Prop where
  links : ∀ bucket, link mem bucket ≤ mem .next_overflow_alloc
  fresh : ∀ idx, mem .next_overflow_alloc < idx → mem (.header (overflow_bucket_of geo idx)) = 0

/-! ### Placing an entry -/

/-- `after` differs from `mem` by the entry of `slot` and by a link that leads
from the end of the chain of `bid` to the slot's bucket, if any. -/
structure Placed (geo : Geometry) (mem after : Mem) (bid : Nat) (slot : Slot)
    (key off : Nat) : Prop where
  links : Links geo after
  published_eq : ∀ other, published after other = (published mem other || other == slot)
  key_eq : ∀ other, key_at after other = if other = slot then key else key_at mem other
  offset_eq : ∀ other, offset_at after other = if other = slot then off else offset_at mem other
  inside : slot.bucket ∈ chain geo after bid
  kept : ∀ main bucket, bucket ∈ chain geo mem main → bucket ∈ chain geo after main
  old : ∀ main other, other.bucket ∈ chain geo after main →
    published mem other = true → other.bucket ∈ chain geo mem main
  alone : ∀ other, other.bucket ∈ chain geo mem bid → published mem other = true →
    key_at mem other = key → other = slot
  same_key : published mem slot = true → key_at mem slot = key

namespace Placed

variable {bid key off : Nat} {slot : Slot}

theorem published_iff (placed : Placed geo mem after bid slot key off) {other : Slot} :
    published after other = true ↔
      published mem other = true ∨ other = slot := by
  rw [placed.published_eq]
  simp

theorem grows (placed : Placed geo mem after bid slot key off)
    (links : ∀ bucket, link mem bucket ≠ 0 → link after bucket = link mem bucket) :
    Grows mem after where
  published := fun other visible => placed.published_iff.mpr (.inl visible)
  key := by
    intro other visible
    rw [placed.key_eq]
    split
    · rename_i same
      subst same
      exact (placed.same_key visible).symm
    · rfl
  link := links

theorem shape (placed : Placed geo mem after bid slot key off) (before : Shape geo bid_of mem)
    (main : bid < geo.main_buckets_per_region) (route : bid_of key = bid) :
    Shape geo bid_of after where
  toLinks := placed.links
  routed := by
    intro other_bid other other_main member visible
    by_cases same : other = slot
    · subst same
      rw [placed.key_eq, if_pos rfl, route]
      exact placed.links.disjoint main other_main placed.inside member
    · have visible_before := (placed.published_iff.mp visible).resolve_right same
      rw [placed.key_eq, if_neg same]
      exact before.routed other_bid other other_main
        (placed.old other_bid other member visible_before) visible_before
  unique := by
    have fresh : ∀ other_bid other, other_bid < geo.main_buckets_per_region →
        slot.bucket ∈ chain geo after other_bid → other.bucket ∈ chain geo after other_bid →
        published after other = true → key_at after other = key → other = slot := by
      intro other_bid other other_main on_slot on_other visible same_key
      by_contra different
      have visible_before := (placed.published_iff.mp visible).resolve_right different
      have same_bid := placed.links.disjoint main other_main placed.inside on_slot
      subst same_bid
      rw [placed.key_eq, if_neg different] at same_key
      exact different
        (placed.alone other (placed.old _ other on_other visible_before) visible_before same_key)
    intro other_bid first second other_main on_first on_second visible_first visible_second same
    by_cases first_slot : first = slot
    · subst first_slot
      rw [placed.key_eq first, if_pos rfl] at same
      exact (fresh other_bid second other_main on_first on_second visible_second same.symm).symm
    · by_cases second_slot : second = slot
      · subst second_slot
        rw [placed.key_eq second, if_pos rfl] at same
        exact fresh other_bid first other_main on_second on_first visible_first same
      · have before_first := (placed.published_iff.mp visible_first).resolve_right first_slot
        have before_second := (placed.published_iff.mp visible_second).resolve_right second_slot
        rw [placed.key_eq, placed.key_eq, if_neg first_slot, if_neg second_slot] at same
        exact before.unique other_bid first second other_main
          (placed.old _ _ on_first before_first) (placed.old _ _ on_second before_second)
          before_first before_second same

/-- The entry is the only one that changes. -/
theorem entry (placed : Placed geo mem after bid slot key off) (before : Shape geo bid_of mem)
    (main : bid < geo.main_buckets_per_region) (route : bid_of key = bid) {other_bid : Nat}
    (other_main : other_bid < geo.main_buckets_per_region) (other_key : Nat) :
    ColdTier.entry geo after other_bid other_key =
      if other_bid = bid ∧ other_key = key then some off
      else ColdTier.entry geo mem other_bid other_key := by
  have shape := placed.shape before main route
  split
  · rename_i same
    obtain ⟨rfl, rfl⟩ := same
    rw [shape.entry_eq_some other_main]
    refine ⟨slot, placed.inside, placed.published_iff.mpr (.inr rfl), ?_, ?_⟩
    · rw [placed.key_eq, if_pos rfl]
    · rw [placed.offset_eq, if_pos rfl]
  · rename_i different
    refine Option.ext fun found => ?_
    rw [shape.entry_eq_some other_main, before.entry_eq_some other_main]
    constructor
    · rintro ⟨other, member, visible, same_key, same_off⟩
      have not_slot : other ≠ slot := by
        rintro rfl
        rw [placed.key_eq, if_pos rfl] at same_key
        exact different
          ⟨(placed.links.disjoint main other_main placed.inside member).symm, same_key.symm⟩
      have visible_before := (placed.published_iff.mp visible).resolve_right not_slot
      rw [placed.key_eq, if_neg not_slot] at same_key
      rw [placed.offset_eq, if_neg not_slot] at same_off
      exact ⟨other, placed.old _ other member visible_before, visible_before, same_key, same_off⟩
    · rintro ⟨other, member, visible, same_key, same_off⟩
      have not_slot : other ≠ slot := by
        rintro rfl
        have key_same := (placed.same_key visible).symm.trans same_key
        exact different
          ⟨(placed.links.disjoint main other_main placed.inside
            (placed.kept _ _ member)).symm, key_same.symm⟩
      refine ⟨other, placed.kept _ _ member, placed.published_iff.mpr (.inl visible), ?_, ?_⟩
      · rw [placed.key_eq, if_neg not_slot, same_key]
      · rw [placed.offset_eq, if_neg not_slot, same_off]

end Placed

theorem buckets_from_congr (same : ∀ bucket, link after bucket = link mem bucket) (fuel cur : Nat) :
    buckets_from geo after fuel cur = buckets_from geo mem fuel cur := by
  induction fuel generalizing cur with
  | zero => rfl
  | succ fuel ih => simp only [buckets_from, same, ih]

theorem Links.congr (links : Links geo mem)
    (same : ∀ bucket, link after bucket = link mem bucket) : Links geo after where
  bounded := fun bucket => same bucket ▸ links.bounded bucket
  forward := fun idx => same (overflow_bucket_of geo idx) ▸ links.forward idx
  injective := fun first second => same first ▸ same second ▸ links.injective first second

theorem Placed.of_same_links {bid key off : Nat} {slot : Slot} (shape : Shape geo bid_of mem)
    (same : ∀ bucket, link after bucket = link mem bucket)
    (published_eq : ∀ other, published after other = (published mem other || other == slot))
    (key_eq : ∀ other, key_at after other = if other = slot then key else key_at mem other)
    (offset_eq : ∀ other,
      offset_at after other = if other = slot then off else offset_at mem other)
    (inside : slot.bucket ∈ chain geo mem bid)
    (alone : ∀ other, other.bucket ∈ chain geo mem bid → published mem other = true →
      key_at mem other = key → other = slot)
    (same_key : published mem slot = true → key_at mem slot = key) :
    Placed geo mem after bid slot key off := by
  have chains : ∀ main, chain geo after main = chain geo mem main :=
    fun main => buckets_from_congr same geo.budget main
  exact {
    links := shape.toLinks.congr same
    published_eq := published_eq
    key_eq := key_eq
    offset_eq := offset_eq
    inside := chains bid ▸ inside
    kept := fun main bucket member => chains main ▸ member
    old := fun main other member _ => chains main ▸ member
    alone := alone
    same_key := same_key }

/-! ### The three ways an entry is placed -/

@[simp] theorem link_updated (slot : Slot) (off bucket : Nat) :
    link (updated mem slot off) bucket = link mem bucket := by
  simp [link, updated, Mem.set]

@[simp] theorem published_updated (slot other : Slot) (off : Nat) :
    published (updated mem slot off) other = published mem other := by
  simp [published, updated, Mem.set]

@[simp] theorem key_at_updated (slot other : Slot) (off : Nat) :
    key_at (updated mem slot off) other = key_at mem other := by
  simp [key_at, updated, Mem.set]

theorem offset_at_updated (slot other : Slot) (off : Nat) :
    offset_at (updated mem slot off) other = if other = slot then off else offset_at mem other := by
  simp [offset_at, updated, Mem.set, Slot.ext_iff, Fin.ext_iff]

theorem updated_placed {bid key : Nat} {slot : Slot} (off : Nat) (shape : Shape geo bid_of mem)
    (main : bid < geo.main_buckets_per_region) (inside : slot.bucket ∈ chain geo mem bid)
    (visible : published mem slot = true) (same : key_at mem slot = key) :
    Placed geo mem (updated mem slot off) bid slot key off := by
  refine .of_same_links shape (fun bucket => link_updated slot off bucket) ?_ ?_ ?_ inside ?_ ?_
  · intro other
    by_cases here : other = slot
    · simp [here, visible]
    · simp [here]
  · intro other
    by_cases here : other = slot
    · simp [here, same]
    · simp [here]
  · exact fun other => offset_at_updated slot other off
  · intro other member other_visible other_same
    exact shape.unique bid other slot main member inside other_visible visible
      (other_same.trans same.symm)
  · exact fun _ => same

@[simp] theorem link_claimed (slot : Slot) (key off bucket : Nat) :
    link (claimed mem slot key off) bucket = link mem bucket := by
  have low : 1 <<< slot.idx.val < 2 ^ 8 := Nat.lt_trans (slot_bit_lt slot.idx) (by decide)
  by_cases here : bucket = slot.bucket
  · subst here
    simp [link, claimed, Mem.count, Mem.publish, Mem.write_entry, Mem.set,
      next_overflow_idx_or _ _ low]
  · simp [link, claimed, Mem.count, Mem.publish, Mem.write_entry, Mem.set, here]

theorem published_claimed (slot other : Slot) (key off : Nat) :
    published (claimed mem slot key off) other = (published mem other || other == slot) := by
  by_cases here : other.bucket = slot.bucket
  · have bits : slot_published (1 <<< slot.idx.val) other.idx = (other == slot) := by
      rw [slot_published_bit, beq_eq_decide]
      simp [Slot.ext_iff, here, Fin.ext_iff, eq_comm]
    rw [← bits, published, published, ← slot_published_or]
    simp [claimed, Mem.count, Mem.publish, Mem.write_entry, Mem.set, here]
  · have different : (other == slot) = false := by
      simp [Slot.ext_iff, here]
    simp [published, claimed, Mem.count, Mem.publish, Mem.write_entry, Mem.set, here, different]

theorem key_at_claimed (slot other : Slot) (key off : Nat) :
    key_at (claimed mem slot key off) other = if other = slot then key else key_at mem other := by
  simp [key_at, claimed, Mem.count, Mem.publish, Mem.write_entry, Mem.set, Slot.ext_iff,
    Fin.ext_iff]

theorem offset_at_claimed (slot other : Slot) (key off : Nat) :
    offset_at (claimed mem slot key off) other =
      if other = slot then off else offset_at mem other := by
  simp [offset_at, claimed, Mem.count, Mem.publish, Mem.write_entry, Mem.set, Slot.ext_iff,
    Fin.ext_iff]

theorem claimed_placed {bid key off : Nat} {slot : Slot} (shape : Shape geo bid_of mem)
    (inside : slot.bucket ∈ chain geo mem bid) (free : published mem slot = false)
    (absent : ∀ other, other.bucket ∈ chain geo mem bid → published mem other = true →
      key_at mem other ≠ key) :
    Placed geo mem (claimed mem slot key off) bid slot key off := by
  refine .of_same_links shape (fun bucket => link_claimed slot key off bucket)
    (fun other => published_claimed slot other key off)
    (fun other => key_at_claimed slot other key off)
    (fun other => offset_at_claimed slot other key off) inside ?_ ?_
  · intro other member visible same
    exact absurd same (absent other member visible)
  · intro visible
    rw [free] at visible
    cases visible

section Extend

variable {tail key off : Nat}

theorem Allocated.header_fresh (allocated : Allocated geo mem) :
    mem (.header (fresh_bucket geo mem)) = 0 :=
  allocated.fresh _ (Nat.lt_succ_self _)

theorem Allocated.not_published_fresh (allocated : Allocated geo mem) (slot : Slot)
    (bucket : slot.bucket = fresh_bucket geo mem) : published mem slot = false := by
  rw [published, bucket, allocated.header_fresh, slot_published_zero]

/-- Chains stay within the allocated part of the pool. -/
theorem Allocated.lt_fresh (allocated : Allocated geo mem) {bid bucket : Nat}
    (main : bid < geo.main_buckets_per_region) (member : bucket ∈ chain geo mem bid) :
    bucket < fresh_bucket geo mem := by
  rcases mem_chain member with rfl | ⟨before, -, -, rfl⟩
  · rw [fresh_bucket, overflow_bucket_of]
    omega
  · have inside := allocated.links before
    simp only [fresh_bucket, overflow_bucket_of]
    omega

theorem link_extended (key off : Nat) (allocated : Allocated geo mem)
    (different : tail ≠ fresh_bucket geo mem)
    (bucket : Nat) :
    link (extended geo mem tail key off) bucket =
      if bucket = tail then mem .next_overflow_alloc + 1 else link mem bucket := by
  by_cases here : bucket = tail
  · simp [link, extended, Mem.count, Mem.attach, Mem.write_entry, Mem.allocate, Mem.set, here,
      next_overflow_idx_attach]
  · by_cases new : bucket = fresh_bucket geo mem
    · have unlinked : next_overflow_idx 1 = 0 := by decide
      simp [link, extended, Mem.count, Mem.attach, Mem.set, new, different.symm,
        allocated.header_fresh, unlinked]
    · simp [link, extended, Mem.count, Mem.attach, Mem.write_entry, Mem.allocate, Mem.set, here,
        new]

theorem published_extended (allocated : Allocated geo mem)
    (different : tail ≠ fresh_bucket geo mem) (other : Slot) :
    published (extended geo mem tail key off) other =
      (published mem other || other == .first (fresh_bucket geo mem)) := by
  by_cases new : other.bucket = fresh_bucket geo mem
  · have here : ¬other.bucket = tail := fun same => different (same.symm.trans new)
    rw [allocated.not_published_fresh other new, Bool.false_or, beq_eq_decide]
    simp [published, extended, Mem.count, Mem.attach, Mem.set, new, different.symm,
      slot_published_one, Slot.ext_iff, Slot.first, Fin.ext_iff]
  · have apart : (other == .first (fresh_bucket geo mem)) = false := by
      simp [Slot.ext_iff, Slot.first, new]
    rw [apart, Bool.or_false]
    by_cases here : other.bucket = tail
    · simp [published, extended, Mem.count, Mem.attach, Mem.write_entry, Mem.allocate, Mem.set,
        here, different, slot_published_attach _ _ _ other.idx.isLt]
    · simp [published, extended, Mem.count, Mem.attach, Mem.write_entry, Mem.allocate, Mem.set,
        here, new]

theorem key_at_extended (other : Slot) :
    key_at (extended geo mem tail key off) other =
      if other = .first (fresh_bucket geo mem) then key else key_at mem other := by
  simp [key_at, extended, Mem.count, Mem.attach, Mem.write_entry, Mem.allocate, Mem.set,
    Slot.ext_iff, Slot.first, Fin.ext_iff]

theorem offset_at_extended (other : Slot) :
    offset_at (extended geo mem tail key off) other =
      if other = .first (fresh_bucket geo mem) then off else offset_at mem other := by
  simp [offset_at, extended, Mem.count, Mem.attach, Mem.write_entry, Mem.allocate, Mem.set,
    Slot.ext_iff, Slot.first, Fin.ext_iff]

theorem extended_links {bid : Nat} (key off : Nat) (links : Links geo mem) (allocated : Allocated geo mem)
    (main : bid < geo.main_buckets_per_region) (inside : tail ∈ chain geo mem bid)
    (room : ¬exhausted geo mem) : Links geo (extended geo mem tail key off) := by
  have below := allocated.lt_fresh main inside
  have next := link_extended key off allocated (Nat.ne_of_lt below)
  have small : mem .next_overflow_alloc + 1 ≤ geo.overflow_slots_per_region :=
    Nat.le_of_not_lt room
  refine ⟨?_, ?_, ?_⟩
  · intro bucket
    rw [next]
    split
    · exact small
    · exact links.bounded bucket
  · intro idx
    rw [next]
    split
    · rename_i here
      intro _
      rw [← here] at below
      simp only [fresh_bucket, overflow_bucket_of] at below
      omega
    · exact links.forward idx
  · intro first second
    rw [next, next]
    have bound_first := allocated.links first
    have bound_second := allocated.links second
    split <;> split
    · rename_i same_first same_second
      intro _ _
      exact same_first.trans same_second.symm
    · intro _ same
      omega
    · intro _ same
      omega
    · exact links.injective first second

theorem extended_placed {bid : Nat} (shape : Shape geo bid_of mem) (allocated : Allocated geo mem)
    (main : bid < geo.main_buckets_per_region) (inside : tail ∈ chain geo mem bid)
    (unlinked : link mem tail = 0) (room : ¬exhausted geo mem)
    (absent : ∀ other, other.bucket ∈ chain geo mem bid → published mem other = true →
      key_at mem other ≠ key) :
    Placed geo mem (extended geo mem tail key off) bid (.first (fresh_bucket geo mem)) key off := by
  have different := Nat.ne_of_lt (allocated.lt_fresh main inside)
  have next := link_extended key off allocated different
  have links := extended_links key off shape.toLinks allocated main inside room
  have kept : ∀ bucket, link mem bucket ≠ 0 →
      link (extended geo mem tail key off) bucket = link mem bucket := by
    intro bucket linked
    rw [next, if_neg]
    rintro rfl
    exact linked unlinked
  exact {
    links := links
    published_eq := published_extended allocated different
    key_eq := key_at_extended
    offset_eq := offset_at_extended
    inside := by
      have linked : link (extended geo mem tail key off) tail = mem .next_overflow_alloc + 1 := by
        rw [next, if_pos rfl]
      have target := links.next_mem (chain_mono links kept inside) (by rw [linked]; omega)
      rwa [linked] at target
    kept := fun _ _ member => chain_mono links kept member
    old := by
      intro other_bid other member visible
      have place : other.bucket ∈ chain geo mem other_bid ∨
          other.bucket = fresh_bucket geo mem := by
        refine chain_induction (motive := fun bucket =>
          bucket ∈ chain geo mem other_bid ∨ bucket = fresh_bucket geo mem)
          (.inl (head_mem_chain geo mem other_bid)) ?_ member
        rintro bucket (old | new) linked
        · rw [next] at linked ⊢
          by_cases here : bucket = tail
          · rw [if_pos here]
            exact .inr rfl
          · rw [if_neg here] at linked ⊢
            exact .inl (shape.next_mem old linked)
        · rw [next, new, if_neg different.symm, link, allocated.header_fresh] at linked
          exact absurd rfl linked
      rcases place with old | new
      · exact old
      · rw [allocated.not_published_fresh other new] at visible
        cases visible
    alone := fun other member visible same => absurd same (absent other member visible)
    same_key := by
      intro visible
      rw [allocated.not_published_fresh (.first (fresh_bucket geo mem)) rfl] at visible
      cases visible }

end Extend

/-! ### The invariant of a region at rest -/

structure Intact (geo : Geometry) (bid_of : Nat → Nat) (mem : Mem) : Prop extends
    Shape geo bid_of mem, Allocated geo mem

structure Settled (geo : Geometry) (mem after : Mem) (bid : Nat) : Prop where
  alloc : mem .next_overflow_alloc ≤ after .next_overflow_alloc
  room : mem .next_overflow_alloc ≤ geo.overflow_slots_per_region →
    after .next_overflow_alloc ≤ geo.overflow_slots_per_region
  bounded : ∀ bucket, link after bucket ≤ after .next_overflow_alloc
  kept : ∀ bucket, link mem bucket ≠ 0 → link after bucket = link mem bucket
  headers : ∀ bucket, after (.header bucket) ≠ mem (.header bucket) →
    bucket ∈ chain geo after bid

theorem Settled.allocated {bid : Nat} (settled : Settled geo mem after bid)
    (allocated : Allocated geo mem) (main : bid < geo.main_buckets_per_region) : Allocated geo after where
  links := settled.bounded
  fresh := by
    intro idx above
    have before := allocated.fresh idx (Nat.lt_of_le_of_lt settled.alloc above)
    by_contra changed
    have member := settled.headers (overflow_bucket_of geo idx)
      (fun same => changed (same.trans before))
    rcases mem_chain member with same | ⟨earlier, -, -, same⟩
    · rw [same.symm, overflow_bucket_of] at main
      omega
    · have inside := settled.bounded earlier
      simp only [overflow_bucket_of] at same
      omega

theorem updated_settled (slot : Slot) (off bid : Nat) (allocated : Allocated geo mem) :
    Settled geo mem (updated mem slot off) bid where
  alloc := by simp [updated, Mem.set]
  room := by simp [updated, Mem.set]
  bounded := by
    intro bucket
    rw [link_updated]
    simpa [updated, Mem.set] using allocated.links bucket
  kept := fun bucket _ => link_updated slot off bucket
  headers := fun bucket changed => absurd (by simp [updated, Mem.set]) changed

theorem claimed_settled {slot : Slot} {key off bid : Nat} (allocated : Allocated geo mem)
    (inside : slot.bucket ∈ chain geo mem bid) : Settled geo mem (claimed mem slot key off) bid := by
  have alloc : claimed mem slot key off .next_overflow_alloc = mem .next_overflow_alloc := by
    simp [claimed, Mem.count, Mem.publish, Mem.write_entry, Mem.set]
  exact {
    alloc := alloc ▸ le_rfl
    room := by rw [alloc]; exact id
    bounded := by
      intro bucket
      rw [link_claimed, alloc]
      exact allocated.links bucket
    kept := fun bucket _ => link_claimed slot key off bucket
    headers := by
      intro bucket changed
      rw [chain, buckets_from_congr (fun bucket => link_claimed slot key off bucket)]
      by_cases here : bucket = slot.bucket
      · exact here ▸ inside
      · exact absurd (by
          simp [claimed, Mem.count, Mem.publish, Mem.write_entry, Mem.set, here]) changed }

theorem extended_settled {tail key off bid : Nat} (allocated : Allocated geo mem)
    (links : Links geo mem) (main : bid < geo.main_buckets_per_region)
    (inside : tail ∈ chain geo mem bid) (unlinked : link mem tail = 0)
    (room : ¬exhausted geo mem) : Settled geo mem (extended geo mem tail key off) bid := by
  have different := Nat.ne_of_lt (allocated.lt_fresh main inside)
  have next := link_extended key off allocated different
  have links_after := extended_links key off links allocated main inside room
  have alloc : extended geo mem tail key off .next_overflow_alloc =
      mem .next_overflow_alloc + 1 := by
    simp [extended, Mem.count, Mem.attach, Mem.write_entry, Mem.allocate, Mem.set]
  have kept : ∀ bucket, link mem bucket ≠ 0 →
      link (extended geo mem tail key off) bucket = link mem bucket := by
    intro bucket linked
    rw [next, if_neg]
    rintro rfl
    exact linked unlinked
  have tail_inside := chain_mono links_after kept inside
  exact {
    alloc := by omega
    room := fun _ => alloc ▸ Nat.le_of_not_lt room
    bounded := by
      intro bucket
      rw [next, alloc]
      split
      · exact le_rfl
      · exact Nat.le_succ_of_le (allocated.links bucket)
    kept := kept
    headers := by
      intro bucket changed
      by_cases here : bucket = tail
      · exact here ▸ tail_inside
      · by_cases new : bucket = fresh_bucket geo mem
        · have linked : link (extended geo mem tail key off) tail =
              mem .next_overflow_alloc + 1 := by
            rw [next, if_pos rfl]
          have target := links_after.next_mem tail_inside (by rw [linked]; omega)
          rw [linked] at target
          exact new ▸ target
        · exact absurd (by
            simp [extended, Mem.count, Mem.attach, Mem.write_entry, Mem.allocate, Mem.set, here,
              new]) changed }

def Rooted (geo : Geometry) (mem : Mem) : Prop :=
  ∀ bucket, mem (.header bucket) ≠ 0 →
    ∃ bid < geo.main_buckets_per_region, bucket ∈ chain geo mem bid

theorem Settled.rooted {bid : Nat} (settled : Settled geo mem after bid) (rooted : Rooted geo mem)
    (links : Links geo after) (main : bid < geo.main_buckets_per_region) : Rooted geo after := by
  intro bucket used
  by_cases same : after (.header bucket) = mem (.header bucket)
  · obtain ⟨root, small, member⟩ := rooted bucket (same ▸ used)
    exact ⟨root, small, chain_mono links settled.kept member⟩
  · exact ⟨bid, main, settled.headers bucket same⟩

/-- An `upsert` either places the entry or, when the key is absent and both its
chain and the pool are full, changes nothing. -/
inductive Outcome (geo : Geometry) (bid_of : Nat → Nat) (mem : Mem) (bid key off : Nat) :
    Bool × Mem → Prop
  | placed {after : Mem} (slot : Slot) (placed : Placed geo mem after bid slot key off)
      (settled : Settled geo mem after bid) (intact : Intact geo bid_of after) :
      Outcome geo bid_of mem bid key off (true, after)
  | full (absent : entry geo mem bid key = none)
      (occupied : ∀ slot, slot.bucket ∈ chain geo mem bid → published mem slot = true)
      (spent : geo.overflow_slots_per_region ≤ mem .next_overflow_alloc) :
      Outcome geo bid_of mem bid key off (false, mem)

theorem Outcome.of_placed {bid key off : Nat} {slot : Slot} (intact : Intact geo bid_of mem)
    (main : bid < geo.main_buckets_per_region) (route : bid_of key = bid)
    (placed : Placed geo mem after bid slot key off) (settled : Settled geo mem after bid) :
    Outcome geo bid_of mem bid key off (true, after) :=
  .placed slot placed settled
    { toShape := placed.shape intact.toShape main route
      toAllocated := settled.allocated intact.toAllocated main }

theorem upserted_outcome {bid : Nat} (key off : Nat) (intact : Intact geo bid_of mem)
    (main : bid < geo.main_buckets_per_region) (route : bid_of key = bid) :
    Outcome geo bid_of mem bid key off
      (upserted geo mem key off (found_in mem key (chain geo mem bid) none)) := by
  rcases found : found_in mem key (chain geo mem bid) none with slot | ⟨tail, _ | slot⟩
  · obtain ⟨inside, visible, same⟩ := found_in_matched found
    exact .of_placed intact main route
      (updated_placed off intact.toShape main inside visible same)
      (updated_settled _ off bid intact.toAllocated)
  · obtain ⟨absent, rfl, -⟩ := found_in_missing found
    obtain ⟨inside, unlinked⟩ := intact.last bid
    simp only [upserted]
    split
    · rename_i beyond
      exact .full (entry_eq_none.mpr absent) (fun slot => found_in_full found)
        (Nat.le_of_lt_succ beyond)
    · rename_i room
      exact .of_placed intact main route
        (extended_placed intact.toShape intact.toAllocated main inside unlinked room absent)
        (extended_settled intact.toAllocated intact.toLinks main inside unlinked room)
  · obtain ⟨inside, free⟩ := found_in_reusable found
    exact .of_placed intact main route
      (claimed_placed intact.toShape inside free (found_in_missing found).1)
      (claimed_settled intact.toAllocated inside)

/-- Without a free slot and a free overflow bucket `upsert` fails. -/
theorem upserted_full {bid key : Nat} (off : Nat)
    (absent : ∀ slot, slot.bucket ∈ chain geo mem bid → published mem slot = true →
      key_at mem slot ≠ key)
    (occupied : ∀ slot, slot.bucket ∈ chain geo mem bid → published mem slot = true)
    (spent : geo.overflow_slots_per_region ≤ mem .next_overflow_alloc) :
    upserted geo mem key off (found_in mem key (chain geo mem bid) none) = (false, mem) := by
  rcases found : found_in mem key (chain geo mem bid) none with slot | ⟨tail, _ | slot⟩
  · obtain ⟨inside, visible, same⟩ := found_in_matched found
    exact absurd same (absent slot inside visible)
  · exact if_pos (Nat.lt_succ_of_le spent)
  · obtain ⟨inside, free⟩ := found_in_reusable found
    rw [occupied slot inside] at free
    cases free

inductive Removed (geo : Geometry) (bid_of : Nat → Nat) (mem : Mem) (bid key : Nat) :
    Option Bool × Mem → Prop
  | tombstone {after : Mem} (slot : Slot)
      (placed : Placed geo mem after bid slot key kTombstoneOffset)
      (settled : Settled geo mem after bid) (intact : Intact geo bid_of after)
      (present : entry geo mem bid key ≠ none) :
      Removed geo bid_of mem bid key (some true, after)
  | absent (absent : entry geo mem bid key = none) :
      Removed geo bid_of mem bid key (some false, mem)

theorem remove_removed {bid : Nat} (key : Nat) (intact : Intact geo bid_of mem)
    (main : bid < geo.main_buckets_per_region) (route : bid_of key = bid) :
    Removed geo bid_of mem bid key ((remove geo bid key).run memSem mem) := by
  rw [remove_run key (intact.ends bid)]
  rcases found : found_in mem key (chain geo mem bid) none with slot | ⟨tail, reusable⟩
  · obtain ⟨inside, visible, same⟩ := found_in_matched found
    have placed := updated_placed kTombstoneOffset intact.toShape main inside visible same
    have settled := updated_settled slot kTombstoneOffset bid
      intact.toAllocated
    refine .tombstone slot placed settled
      { toShape := placed.shape intact.toShape main route
        toAllocated := settled.allocated intact.toAllocated main } ?_
    rw [intact.entry_of_slot main inside visible same]
    exact Option.some_ne_none _
  · exact .absent (entry_eq_none.mpr (found_in_missing found).1)

theorem upsert_intact {bid key : Nat} (off : Nat) (intact : Intact geo bid_of mem)
    (main : bid < geo.main_buckets_per_region) (route : bid_of key = bid) :
    Intact geo bid_of ((upsert geo bid key off).run memSem mem).2 := by
  have outcome := upserted_outcome _ off intact main route
  rw [upsert_run key off (intact.ends bid)]
  revert outcome
  generalize upserted geo mem key off _ = result
  intro outcome
  cases outcome with
  | placed slot placed settled intact' => exact intact'
  | full => exact intact

theorem remove_intact {bid key : Nat} (intact : Intact geo bid_of mem)
    (main : bid < geo.main_buckets_per_region) (route : bid_of key = bid) :
    Intact geo bid_of ((remove geo bid key).run memSem mem).2 := by
  have removed := remove_removed _ intact main route
  revert removed
  generalize (remove geo bid key).run memSem mem = result
  intro removed
  cases removed with
  | tombstone slot placed settled intact' present => exact intact'
  | absent => exact intact

/-! ### What was linked before -/

/-- A chain gains only buckets that published nothing before. -/
def Old (geo : Geometry) (mem after : Mem) : Prop :=
  ∀ bid (slot : Slot), slot.bucket ∈ chain geo after bid → published mem slot = true →
    slot.bucket ∈ chain geo mem bid

theorem upsert_old {bid key : Nat} (off : Nat) (intact : Intact geo bid_of mem)
    (main : bid < geo.main_buckets_per_region) (route : bid_of key = bid) :
    Old geo mem ((upsert geo bid key off).run memSem mem).2 := by
  have outcome := upserted_outcome _ off intact main route
  rw [upsert_run key off (intact.ends bid)]
  revert outcome
  generalize upserted geo mem key off _ = result
  intro outcome
  cases outcome with
  | placed slot placed settled intact' => exact placed.old
  | full => exact fun _ _ member _ => member

theorem remove_old {bid key : Nat} (intact : Intact geo bid_of mem)
    (main : bid < geo.main_buckets_per_region) (route : bid_of key = bid) :
    Old geo mem ((remove geo bid key).run memSem mem).2 := by
  have removed := remove_removed _ intact main route
  revert removed
  generalize (remove geo bid key).run memSem mem = result
  intro removed
  cases removed with
  | tombstone slot placed settled intact' present => exact placed.old
  | absent => exact fun _ _ member _ => member

end Hiom.ColdTier
