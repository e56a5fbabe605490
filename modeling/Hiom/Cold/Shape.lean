import Hiom.Cold.Chain

/-!
The shape of a region: links that lead forward to distinct overflow buckets,
and keys published at most once on the chain they route to. The shape is
inherited by every earlier memory of a region that only grows, which is what
readers and crash images see.
-/

namespace Hiom.ColdTier

/-! ### Links -/

structure Links (geo : Geometry) (mem : Mem) : Prop where
  bounded : ∀ bucket, link mem bucket ≤ geo.overflow_slots_per_region
  forward : ∀ idx, link mem (overflow_bucket_of geo idx) ≠ 0 →
    idx < link mem (overflow_bucket_of geo idx)
  injective : ∀ first second, link mem first ≠ 0 → link mem first = link mem second →
    first = second

variable {geo : Geometry} {mem later after : Mem} {bid_of : Nat → Nat}

namespace Links

theorem ends_overflow (links : Links geo mem) {fuel idx : Nat}
    (small : idx ≤ geo.overflow_slots_per_region)
    (enough : geo.overflow_slots_per_region - idx < fuel) :
    Ends geo mem fuel (overflow_bucket_of geo idx) := by
  induction fuel generalizing idx with
  | zero => omega
  | succ fuel ih =>
      intro linked
      have further := links.forward idx linked
      have inside := links.bounded (overflow_bucket_of geo idx)
      exact ih inside (by omega)

/-- Every walk ends: indices grow along a chain. -/
theorem ends (links : Links geo mem) (bid : Nat) : Ends geo mem geo.budget bid := by
  intro linked
  have inside := links.bounded bid
  exact links.ends_overflow inside (by omega)

theorem next_mem (links : Links geo mem) {bid bucket : Nat}
    (member : bucket ∈ chain geo mem bid) (linked : link mem bucket ≠ 0) :
    overflow_bucket_of geo (link mem bucket) ∈ chain geo mem bid :=
  (links.ends bid).next_mem member linked

theorem last (links : Links geo mem) (bid : Nat) :
    (chain geo mem bid).getLastD 0 ∈ chain geo mem bid ∧
      link mem ((chain geo mem bid).getLastD 0) = 0 :=
  (links.ends bid).last

end Links

/-- What holds of the main bucket and follows every link holds on the chain. -/
theorem chain_induction {motive : Nat → Prop} {bid : Nat} (head : motive bid)
    (next : ∀ bucket, motive bucket → link mem bucket ≠ 0 →
      motive (overflow_bucket_of geo (link mem bucket)))
    {bucket : Nat} (member : bucket ∈ chain geo mem bid) : motive bucket := by
  have walked : ∀ fuel cur, motive cur → ∀ bucket ∈ buckets_from geo mem fuel cur,
      motive bucket := by
    intro fuel
    induction fuel with
    | zero => intro cur _ bucket member; cases member
    | succ fuel ih =>
        intro cur here bucket member
        by_cases linked : link mem cur = 0
        · rw [buckets_from_last fuel linked, List.mem_singleton] at member
          exact member ▸ here
        · rw [buckets_from_more fuel linked, List.mem_cons] at member
          rcases member with rfl | member
          · exact here
          · exact ih _ (next _ here linked) _ member
  exact walked _ _ head _ member

theorem mem_chain {bid bucket : Nat} (member : bucket ∈ chain geo mem bid) :
    bucket = bid ∨ ∃ before ∈ chain geo mem bid,
      link mem before ≠ 0 ∧ bucket = overflow_bucket_of geo (link mem before) :=
  mem_buckets_from member

theorem Links.lt_next (links : Links geo mem) {bid before bucket : Nat}
    (main : bid < geo.main_buckets_per_region) (member : before ∈ chain geo mem bid)
    (linked : link mem before ≠ 0)
    (target : bucket = overflow_bucket_of geo (link mem before)) : before < bucket := by
  rcases mem_chain member with rfl | ⟨earlier, -, -, rfl⟩
  · rw [target, overflow_bucket_of]
    omega
  · have further := links.forward _ linked
    rw [target]
    simp only [overflow_bucket_of] at further ⊢
    omega

/-- Chains of distinct main buckets share no bucket. -/
theorem Links.disjoint (links : Links geo mem) {first second bucket : Nat}
    (main_first : first < geo.main_buckets_per_region)
    (main_second : second < geo.main_buckets_per_region)
    (on_first : bucket ∈ chain geo mem first) (on_second : bucket ∈ chain geo mem second) :
    first = second := by
  induction bucket using Nat.strong_induction_on with
  | _ bucket ih =>
      rcases mem_chain on_first with rfl | ⟨before, inside, linked, target⟩
      · rcases mem_chain on_second with rfl | ⟨before, -, -, target⟩
        · rfl
        · rw [target, overflow_bucket_of] at main_first
          omega
      · rcases mem_chain on_second with rfl | ⟨other, inside', linked', target'⟩
        · rw [target, overflow_bucket_of] at main_second
          omega
        · have same : before = other := by
            refine links.injective _ _ linked ?_
            have targets := target.symm.trans target'
            simp only [overflow_bucket_of] at targets
            omega
          subst same
          exact ih before (links.lt_next main_first inside linked target) inside inside'

theorem Links.overflow_le (links : Links geo mem) {fuel idx bucket : Nat}
    (member : bucket ∈ buckets_from geo mem fuel (overflow_bucket_of geo idx)) :
    overflow_bucket_of geo idx ≤ bucket := by
  induction fuel generalizing idx with
  | zero => cases member
  | succ fuel ih =>
      by_cases linked : link mem (overflow_bucket_of geo idx) = 0
      · rw [buckets_from_last fuel linked, List.mem_singleton] at member
        exact member ▸ le_rfl
      · rw [buckets_from_more fuel linked, List.mem_cons] at member
        rcases member with rfl | member
        · exact le_rfl
        · have further := links.forward idx linked
          have above := ih member
          simp only [overflow_bucket_of] at further above ⊢
          omega

theorem Links.nodup_overflow (links : Links geo mem) (fuel idx : Nat) :
    (buckets_from geo mem fuel (overflow_bucket_of geo idx)).Nodup := by
  induction fuel generalizing idx with
  | zero => exact List.nodup_nil
  | succ fuel ih =>
      by_cases linked : link mem (overflow_bucket_of geo idx) = 0
      · simp [buckets_from_last fuel linked]
      · rw [buckets_from_more fuel linked, List.nodup_cons]
        refine ⟨fun member => ?_, ih _⟩
        have above := links.overflow_le member
        have further := links.forward idx linked
        simp only [overflow_bucket_of] at above further
        omega

/-- A chain visits no bucket twice. -/
theorem Links.nodup (links : Links geo mem) {bid : Nat}
    (main : bid < geo.main_buckets_per_region) : (chain geo mem bid).Nodup := by
  by_cases linked : link mem bid = 0
  · simp [chain, Geometry.budget, buckets_from_last _ linked]
  · rw [chain, Geometry.budget, buckets_from_more _ linked, List.nodup_cons]
    refine ⟨fun member => ?_, links.nodup_overflow _ _⟩
    have above := links.overflow_le member
    simp only [overflow_bucket_of] at above
    omega

/-! ### Growth -/

/-- A walk only gets longer when no link is cleared or redirected. -/
theorem buckets_from_mono {fuel cur bucket : Nat} (ends : Ends geo later fuel cur)
    (kept : ∀ bucket, link mem bucket ≠ 0 → link later bucket = link mem bucket)
    (member : bucket ∈ buckets_from geo mem fuel cur) :
    bucket ∈ buckets_from geo later fuel cur := by
  induction fuel generalizing cur with
  | zero => cases member
  | succ fuel ih =>
      by_cases linked : link mem cur = 0
      · rw [buckets_from_last fuel linked, List.mem_singleton] at member
        subst member
        exact List.mem_cons_self
      · have same := kept cur linked
        rw [buckets_from_more fuel linked, List.mem_cons] at member
        rw [buckets_from_more fuel (same ▸ linked), List.mem_cons, same]
        have rest := ends (same ▸ linked)
        rw [same] at rest
        exact member.imp_right (ih rest)

/-- A chain only gets longer when no link is cleared or redirected. -/
theorem chain_mono (links : Links geo later)
    (kept : ∀ bucket, link mem bucket ≠ 0 → link later bucket = link mem bucket)
    {bid bucket : Nat} (member : bucket ∈ chain geo mem bid) : bucket ∈ chain geo later bid :=
  buckets_from_mono (links.ends bid) kept member

/-- Nothing visible disappears: published slots keep their key and links their
target. Offsets and unpublished slots may change. -/
structure Grows (mem later : Mem) : Prop where
  published : ∀ slot, published mem slot = true → published later slot = true
  key : ∀ slot, ColdTier.published mem slot = true → key_at later slot = key_at mem slot
  link : ∀ bucket, link mem bucket ≠ 0 → link later bucket = link mem bucket

namespace Grows

theorem refl (mem : Mem) : Grows mem mem :=
  ⟨fun _ visible => visible, fun _ _ => rfl, fun _ _ => rfl⟩

theorem trans {last : Mem} (first : Grows mem later) (second : Grows later last) :
    Grows mem last where
  published := fun slot visible => second.published slot (first.published slot visible)
  key := fun slot visible =>
    (second.key slot (first.published slot visible)).trans (first.key slot visible)
  link := fun bucket linked =>
    (second.link bucket (by rwa [first.link bucket linked])).trans (first.link bucket linked)

theorem links (grows : Grows mem later) (shape : Links geo later) : Links geo mem where
  bounded := by
    intro bucket
    by_cases linked : ColdTier.link mem bucket = 0
    · omega
    · exact grows.link bucket linked ▸ shape.bounded bucket
  forward := by
    intro idx linked
    have same := grows.link _ linked
    exact same ▸ shape.forward idx (same ▸ linked)
  injective := by
    intro first second linked same
    have same_first := grows.link first linked
    have same_second := grows.link second (same ▸ linked)
    exact shape.injective first second (same_first ▸ linked)
      (same_first.trans (same.trans same_second.symm))

theorem chain (grows : Grows mem later) (shape : Links geo later) {bid bucket : Nat}
    (member : bucket ∈ chain geo mem bid) : bucket ∈ ColdTier.chain geo later bid :=
  chain_mono shape grows.link member

end Grows

/-! ### Keys -/

structure Shape (geo : Geometry) (bid_of : Nat → Nat) (mem : Mem) : Prop extends
    Links geo mem where
  routed : ∀ bid slot, bid < geo.main_buckets_per_region → slot.bucket ∈ chain geo mem bid →
    published mem slot = true → bid_of (key_at mem slot) = bid
  unique : ∀ bid first second, bid < geo.main_buckets_per_region →
    first.bucket ∈ chain geo mem bid → second.bucket ∈ chain geo mem bid →
    published mem first = true → published mem second = true →
    key_at mem first = key_at mem second → first = second

theorem Shape.of_grows (shape : Shape geo bid_of later) (grows : Grows mem later) :
    Shape geo bid_of mem where
  toLinks := grows.links shape.toLinks
  routed := by
    intro bid slot main member visible
    rw [← grows.key slot visible]
    exact shape.routed bid slot main (grows.chain shape.toLinks member)
      (grows.published slot visible)
  unique := by
    intro bid first second main on_first on_second visible_first visible_second same
    refine shape.unique bid first second main (grows.chain shape.toLinks on_first)
      (grows.chain shape.toLinks on_second) (grows.published _ visible_first)
      (grows.published _ visible_second) ?_
    rw [grows.key _ visible_first, grows.key _ visible_second, same]

/-- The offset word of the slot that publishes `key` on the chain of `bid`;
`kTombstoneOffset` stands for a removed key. -/
def entry (geo : Geometry) (mem : Mem) (bid key : Nat) : Option Nat :=
  ((slots (chain geo mem bid)).find? (holds mem key)).map (offset_at mem)

theorem entry_eq_none {bid key : Nat} :
    entry geo mem bid key = none ↔
      ∀ slot, slot.bucket ∈ chain geo mem bid → published mem slot = true →
        key_at mem slot ≠ key := by
  simp only [entry, Option.map_eq_none_iff, List.find?_eq_none, mem_slots, holds_iff, not_and]

theorem Shape.entry_of_slot (shape : Shape geo bid_of mem) {bid key : Nat} {slot : Slot}
    (main : bid < geo.main_buckets_per_region) (member : slot.bucket ∈ chain geo mem bid)
    (visible : published mem slot = true) (same : key_at mem slot = key) :
    entry geo mem bid key = some (offset_at mem slot) := by
  unfold entry
  cases hit : (slots (chain geo mem bid)).find? (holds mem key) with
  | none =>
      have hidden := List.find?_eq_none.mp hit slot (mem_slots.mpr member)
      exact absurd (holds_iff.mpr ⟨visible, same⟩) hidden
  | some found =>
      have inside := mem_slots.mp (List.mem_of_find?_eq_some hit)
      obtain ⟨visible_found, same_found⟩ := holds_iff.mp (List.find?_some hit)
      rw [shape.unique bid found slot main inside member visible_found visible
        (same_found.trans same.symm)]
      rfl

theorem slot_of_entry {bid key off : Nat} (present : entry geo mem bid key = some off) :
    ∃ slot, slot.bucket ∈ chain geo mem bid ∧ published mem slot = true ∧
      key_at mem slot = key ∧ offset_at mem slot = off := by
  obtain ⟨slot, hit, same⟩ := Option.map_eq_some_iff.mp present
  obtain ⟨visible, key_same⟩ := holds_iff.mp (List.find?_some hit)
  exact ⟨slot, mem_slots.mp (List.mem_of_find?_eq_some hit), visible, key_same, same⟩

theorem Shape.entry_eq_some (shape : Shape geo bid_of mem) {bid key off : Nat}
    (main : bid < geo.main_buckets_per_region) :
    entry geo mem bid key = some off ↔
      ∃ slot, slot.bucket ∈ chain geo mem bid ∧ published mem slot = true ∧
        key_at mem slot = key ∧ offset_at mem slot = off := by
  constructor
  · exact slot_of_entry
  · rintro ⟨slot, member, visible, key_same, rfl⟩
    exact shape.entry_of_slot main member visible key_same

end Hiom.ColdTier
