import Hiom.Cold.Table

/-!
Bucket chains as lists. A walk over a chain that ends within its budget
returns what a search of the chain's slots returns, and writes nothing.
-/

namespace Hiom.ColdTier

/-! ### Slots and chains -/

def link (mem : Mem) (bucket : Nat) : Nat := next_overflow_idx (mem (.header bucket))

def published (mem : Mem) (slot : Slot) : Bool :=
  slot_published (mem (.header slot.bucket)) slot.idx

def key_at (mem : Mem) (slot : Slot) : Nat := mem (.key_id slot.bucket slot.idx)

def offset_at (mem : Mem) (slot : Slot) : Nat := mem (.offset slot.bucket slot.idx)

def holds (mem : Mem) (key : Nat) (slot : Slot) : Bool :=
  published mem slot && key_at mem slot == key

def bucket_slots (bucket : Nat) : List Slot :=
  (List.finRange kEntriesPerBucket).map (Slot.mk bucket)

def slots (buckets : List Nat) : List Slot := buckets.flatMap bucket_slots

def buckets_from (geo : Geometry) (mem : Mem) : Nat → Nat → List Nat
  | 0, _ => []
  | fuel + 1, cur =>
      cur ::
        if link mem cur = 0 then []
        else buckets_from geo mem fuel (overflow_bucket_of geo (link mem cur))

theorem buckets_from_last {geo : Geometry} {mem : Mem} {cur : Nat} (fuel : Nat)
    (unlinked : link mem cur = 0) : buckets_from geo mem (fuel + 1) cur = [cur] := by
  rw [buckets_from, if_pos unlinked]

theorem buckets_from_more {geo : Geometry} {mem : Mem} {cur : Nat} (fuel : Nat)
    (linked : link mem cur ≠ 0) :
    buckets_from geo mem (fuel + 1) cur =
      cur :: buckets_from geo mem fuel (overflow_bucket_of geo (link mem cur)) := by
  rw [buckets_from, if_neg linked]

def Ends (geo : Geometry) (mem : Mem) : Nat → Nat → Prop
  | 0, _ => False
  | fuel + 1, cur =>
      link mem cur ≠ 0 → Ends geo mem fuel (overflow_bucket_of geo (link mem cur))

def chain (geo : Geometry) (mem : Mem) (bid : Nat) : List Nat :=
  buckets_from geo mem geo.budget bid

@[simp] theorem mem_bucket_slots {bucket : Nat} {slot : Slot} :
    slot ∈ bucket_slots bucket ↔ slot.bucket = bucket := by
  constructor
  · intro member
    obtain ⟨idx, -, rfl⟩ := List.mem_map.mp member
    rfl
  · rintro rfl
    exact List.mem_map.mpr ⟨slot.idx, List.mem_finRange _, rfl⟩

@[simp] theorem mem_slots {buckets : List Nat} {slot : Slot} :
    slot ∈ slots buckets ↔ slot.bucket ∈ buckets := by
  simp [slots]

theorem holds_iff {mem : Mem} {key : Nat} {slot : Slot} :
    holds mem key slot = true ↔ published mem slot = true ∧ key_at mem slot = key := by
  simp [holds]

/-- A bucket of a chain is its first or the link target of another one. -/
theorem mem_buckets_from {geo : Geometry} {mem : Mem} {fuel cur bucket : Nat}
    (member : bucket ∈ buckets_from geo mem fuel cur) :
    bucket = cur ∨
      ∃ before ∈ buckets_from geo mem fuel cur,
        link mem before ≠ 0 ∧ bucket = overflow_bucket_of geo (link mem before) := by
  induction fuel generalizing cur with
  | zero => cases member
  | succ fuel ih =>
      simp only [buckets_from, List.mem_cons] at member ⊢
      rcases member with rfl | member
      · exact .inl rfl
      · split at member
        · cases member
        · rename_i linked
          refine .inr ?_
          rcases ih member with rfl | ⟨before, inside, target⟩
          · exact ⟨cur, .inl rfl, linked, rfl⟩
          · exact ⟨before, .inr (by simpa [linked] using inside), target⟩

/-- The chain is closed under links once its end is within the fuel. -/
theorem Ends.next_mem {geo : Geometry} {mem : Mem} {fuel cur bucket : Nat}
    (ends : Ends geo mem fuel cur) (member : bucket ∈ buckets_from geo mem fuel cur)
    (linked : link mem bucket ≠ 0) :
    overflow_bucket_of geo (link mem bucket) ∈ buckets_from geo mem fuel cur := by
  induction fuel generalizing cur with
  | zero => cases ends
  | succ fuel ih =>
      simp only [buckets_from, List.mem_cons] at member ⊢
      rcases member with rfl | member
      · refine .inr ?_
        rw [if_neg linked]
        cases fuel with
        | zero => cases ends linked
        | succ fuel => exact List.mem_cons_self
      · split at member
        · cases member
        · rename_i tailed
          exact .inr (by simpa [tailed] using ih (ends tailed) member)

theorem head_mem_chain (geo : Geometry) (mem : Mem) (bid : Nat) : bid ∈ chain geo mem bid := by
  simp [chain, Geometry.budget, buckets_from]

/-- The last bucket of a chain that ends has no link. -/
theorem Ends.last {geo : Geometry} {mem : Mem} {fuel cur : Nat}
    (ends : Ends geo mem fuel cur) :
    (buckets_from geo mem fuel cur).getLastD 0 ∈ buckets_from geo mem fuel cur ∧
      link mem ((buckets_from geo mem fuel cur).getLastD 0) = 0 := by
  induction fuel generalizing cur with
  | zero => cases ends
  | succ fuel ih =>
      simp only [buckets_from]
      split
      · rename_i unlinked
        simp [unlinked]
      · rename_i linked
        obtain ⟨member, unlinked⟩ := ih (ends linked)
        cases rest : buckets_from geo mem fuel (overflow_bucket_of geo (link mem cur)) with
        | nil => simp [rest] at member
        | cons first later =>
            rw [rest] at member unlinked
            simp only [List.getLastD_cons] at member unlinked ⊢
            exact ⟨List.mem_cons_of_mem _ member, unlinked⟩

/-! ### What a walk returns -/

/-- The memory as it will be once the staged occupancy bits are stored. -/
def staged (claimed : Nat → Nat) (mem : Mem) : Mem
  | .header bucket => mem (.header bucket) ||| claimed bucket
  | word => mem word

@[simp] theorem staged_zero (mem : Mem) : staged (fun _ => 0) mem = mem := by
  funext word
  cases word <;> simp [staged]

theorem link_staged {claimed : Nat → Nat} (low : ∀ bucket, claimed bucket < 2 ^ 8)
    (mem : Mem) (bucket : Nat) : link (staged claimed mem) bucket = link mem bucket :=
  next_overflow_idx_or _ _ (low bucket)

def found_in (mem : Mem) (key : Nat) (buckets : List Nat) (reusable : Option Slot) : Found :=
  match (slots buckets).find? (holds mem key) with
  | some slot => .matched slot
  | none =>
      .missing (buckets.getLastD 0)
        (reusable.or ((slots buckets).find? (fun slot => !published mem slot)))

theorem found_in_single (mem : Mem) (key bucket : Nat) (reusable : Option Slot) :
    found_in mem key [bucket] reusable =
      match (bucket_slots bucket).find? (holds mem key) with
      | some slot => .matched slot
      | none =>
          .missing bucket
            (reusable.or ((bucket_slots bucket).find? (fun slot => !published mem slot))) := by
  simp [found_in, slots]

theorem found_in_cons (mem : Mem) (key bucket : Nat) {rest : List Nat} (more : rest ≠ [])
    (reusable : Option Slot) :
    found_in mem key (bucket :: rest) reusable =
      match (bucket_slots bucket).find? (holds mem key) with
      | some slot => .matched slot
      | none =>
          found_in mem key rest
            (reusable.or ((bucket_slots bucket).find? (fun slot => !published mem slot))) := by
  obtain ⟨first, later, rfl⟩ := List.exists_cons_of_ne_nil more
  simp only [found_in, slots, List.flatMap_cons, List.find?_append]
  cases (bucket_slots bucket).find? (holds mem key) with
  | some slot => rfl
  | none =>
      simp only [Option.none_or, List.getLastD_cons, Option.or_assoc]

theorem Ends.nonempty {geo : Geometry} {mem : Mem} {fuel cur : Nat}
    (ends : Ends geo mem fuel cur) : buckets_from geo mem fuel cur ≠ [] :=
  List.ne_nil_of_mem ends.last.1

theorem walk_slots_run (mem : Mem) (bucket key live : Nat)
    (idxs : List (Fin kEntriesPerBucket)) (reusable : Option Slot) :
    ∃ later,
      (walk_slots bucket key live idxs reusable).run memSem mem =
        ((idxs.find? (fun i : Fin kEntriesPerBucket =>
            slot_published live i && mem (.key_id bucket i) == key), later),
          mem) ∧
      (idxs.find? (fun i : Fin kEntriesPerBucket =>
            slot_published live i && mem (.key_id bucket i) == key) = none →
        later =
          reusable.or
            ((idxs.find? (fun i : Fin kEntriesPerBucket => !slot_published live i)).map
              (Slot.mk bucket))) := by
  induction idxs generalizing reusable with
  | nil => exact ⟨reusable, rfl, fun _ => by simp⟩
  | cons i rest ih =>
      simp only [walk_slots]
      split
      · rename_i visible
        simp only [run_load]
        by_cases same : mem (.key_id bucket i) = key
        · refine ⟨reusable, ?_, ?_⟩
          · simp [same, visible]
          · simp [same, visible]
        · obtain ⟨later, ran, missed⟩ := ih reusable
          refine ⟨later, ?_, ?_⟩
          · simpa [same, visible] using ran
          · simpa [same, visible] using missed
      · rename_i hidden
        obtain ⟨later, ran, missed⟩ := ih (reusable.or (some ⟨bucket, i⟩))
        refine ⟨later, ?_, ?_⟩
        · simpa [hidden] using ran
        · simpa [hidden, Option.or_assoc] using missed

theorem find?_bucket_slots (bucket : Nat) (test : Slot → Bool) :
    (bucket_slots bucket).find? test =
      ((List.finRange kEntriesPerBucket).find? (fun i => test ⟨bucket, i⟩)).map
        (Slot.mk bucket) := by
  rw [bucket_slots, List.find?_map]
  rfl

/-- A walk sees the staged memory and leaves the stored one as it was. -/
theorem walk_chain_run {geo : Geometry} {mem : Mem} {fuel cur : Nat} (claimed : Nat → Nat)
    (key : Nat) (reusable : Option Slot) (ends : Ends geo mem fuel cur) :
    (walk_chain geo claimed key fuel cur reusable).run memSem mem =
      (some (found_in (staged claimed mem) key (buckets_from geo mem fuel cur) reusable), mem) := by
  induction fuel generalizing cur reusable with
  | zero => cases ends
  | succ fuel ih =>
      obtain ⟨later, ran, missed⟩ :=
        walk_slots_run mem cur key (mem (.header cur) ||| claimed cur)
          (List.finRange kEntriesPerBucket) reusable
      have here :
          (bucket_slots cur).find? (holds (staged claimed mem) key) =
            ((List.finRange kEntriesPerBucket).find? (fun i : Fin kEntriesPerBucket =>
              slot_published (mem (.header cur) ||| claimed cur) i &&
                mem (.key_id cur i) == key)).map (Slot.mk cur) :=
        find?_bucket_slots _ _
      have free :
          (bucket_slots cur).find? (fun slot => !published (staged claimed mem) slot) =
            ((List.finRange kEntriesPerBucket).find? (fun i : Fin kEntriesPerBucket =>
              !slot_published (mem (.header cur) ||| claimed cur) i)).map (Slot.mk cur) :=
        find?_bucket_slots _ _
      rw [walk_chain, run_load, Prog.run_bind, ran]
      cases hit : (List.finRange kEntriesPerBucket).find? (fun i : Fin kEntriesPerBucket =>
          slot_published (mem (.header cur) ||| claimed cur) i &&
            mem (.key_id cur i) == key) with
      | some i =>
          by_cases linked : link mem cur = 0
          · rw [buckets_from_last fuel linked, found_in_single, here, hit]
            rfl
          · rw [buckets_from_more fuel linked, found_in_cons _ _ _ (ends linked).nonempty, here,
              hit]
            rfl
      | none =>
          by_cases linked : link mem cur = 0
          · rw [buckets_from_last fuel linked, found_in_single, here, hit, free, ← missed hit]
            exact congrArg (Prog.run memSem · mem) (if_pos linked)
          · rw [buckets_from_more fuel linked, found_in_cons _ _ _ (ends linked).nonempty, here,
              hit, free, ← missed hit]
            exact (congrArg (Prog.run memSem · mem) (if_neg linked)).trans (ih later (ends linked))

/-- `walk` outside a batch. -/
theorem walk_run {geo : Geometry} {mem : Mem} {bid : Nat} (key : Nat)
    (ends : Ends geo mem geo.budget bid) :
    (walk geo (fun _ => 0) bid key).run memSem mem =
      (some (found_in mem key (chain geo mem bid) none), mem) := by
  have ran := walk_chain_run (fun _ => 0) key none ends
  rwa [staged_zero] at ran

/-- What a search that found the key says. -/
theorem found_in_matched {mem : Mem} {key : Nat} {buckets : List Nat} {slot : Slot}
    (found : found_in mem key buckets none = .matched slot) :
    slot.bucket ∈ buckets ∧ published mem slot = true ∧ key_at mem slot = key := by
  unfold found_in at found
  split at found
  · rename_i hit
    cases found
    exact ⟨mem_slots.mp (List.mem_of_find?_eq_some hit), holds_iff.mp (List.find?_some hit)⟩
  · cases found

/-- What a search that missed the key says. -/
theorem found_in_missing {mem : Mem} {key tail : Nat} {buckets : List Nat}
    {reusable : Option Slot}
    (found : found_in mem key buckets none = .missing tail reusable) :
    (∀ slot, slot.bucket ∈ buckets → published mem slot = true → key_at mem slot ≠ key) ∧
      tail = buckets.getLastD 0 ∧
      (slots buckets).find? (fun slot => !published mem slot) = reusable := by
  unfold found_in at found
  split at found
  · cases found
  · rename_i miss
    cases found
    refine ⟨fun slot member visible same => ?_, rfl, rfl⟩
    have hidden := List.find?_eq_none.mp miss slot (mem_slots.mpr member)
    exact hidden (holds_iff.mpr ⟨visible, same⟩)

theorem found_in_reusable {mem : Mem} {key tail : Nat} {buckets : List Nat} {slot : Slot}
    (found : found_in mem key buckets none = .missing tail (some slot)) :
    slot.bucket ∈ buckets ∧ published mem slot = false := by
  have free := (found_in_missing found).2.2
  exact ⟨mem_slots.mp (List.mem_of_find?_eq_some free), by simpa using List.find?_some free⟩

theorem found_in_full {mem : Mem} {key tail : Nat} {buckets : List Nat}
    (found : found_in mem key buckets none = .missing tail none) {slot : Slot}
    (member : slot.bucket ∈ buckets) : published mem slot = true := by
  simpa using List.find?_eq_none.mp (found_in_missing found).2.2 slot (mem_slots.mpr member)

end Hiom.ColdTier
