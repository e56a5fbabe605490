import Hiom.Cold.Growth

/-!
A lock-free lookup next to a writer. It is followed through its loads while the
region grows between any two of them: a slot that it has seen published keeps
its key, and a key that it misses was not published when it started.
-/

namespace Hiom.ColdTier

variable {geo : Geometry} {bid_of : Nat → Nat} {bid key : Nat}

def mapped (geo : Geometry) (mem : Mem) (bid key : Nat) : Option Nat :=
  (entry geo mem bid key).filter (· ≠ kTombstoneOffset)

/-! ### One lookup under interference -/

/-- What a lookup is exposed to: the region's memory and the mappings its key
has had since the lookup started. -/
structure View (geo : Geometry) (bid_of : Nat → Nat) (bid key : Nat) where
  mem : Mem
  seen : List (Option Nat)
  shape : Shape geo bid_of mem
  current : mapped geo mem bid key ∈ seen

def viewSem : Prog.Semantics (fun _ : Access => Nat) (View geo bid_of bid key) :=
  fun access view => (access.reply view.mem, view)

structure View.Moves (view later : View geo bid_of bid key) : Prop where
  grows : Grows view.mem later.mem
  seen : view.seen ⊆ later.seen

theorem View.Moves.refl (view : View geo bid_of bid key) : view.Moves view :=
  ⟨Grows.refl _, fun _ member => member⟩

theorem View.Moves.trans (a b c : View geo bid_of bid key) (first : a.Moves b)
    (second : b.Moves c) : a.Moves c :=
  ⟨first.grows.trans second.grows, fun _ member => second.seen (first.seen member)⟩

/-- Either the key has been unmapped since the start, or it is published in a
slot of the part of the chain that the lookup has not inspected yet. -/
def Due (view : View geo bid_of bid key) (part : Slot → Prop) : Prop :=
  none ∈ view.seen ∨
    ∃ slot, part slot ∧ published view.mem slot = true ∧ key_at view.mem slot = key

theorem Due.moves {view later : View geo bid_of bid key} {part part' : Slot → Prop}
    (due : Due view part) (moved : view.Moves later)
    (within : ∀ slot, part slot → published later.mem slot = true →
      key_at later.mem slot = key → part' slot) : Due later part' := by
  rcases due with unmapped | ⟨slot, inside, visible, same⟩
  · exact .inl (moved.seen unmapped)
  · have visible_later := moved.grows.published slot visible
    have same_later := (moved.grows.key slot visible).trans same
    exact .inr ⟨slot, within slot inside visible_later same_later, visible_later, same_later⟩

def Enough (geo : Geometry) (fuel cur : Nat) : Prop :=
  (cur < geo.main_buckets_per_region ∧ fuel = geo.budget) ∨
    ∃ idx ≤ geo.overflow_slots_per_region, cur = overflow_bucket_of geo idx ∧
      geo.overflow_slots_per_region - idx < fuel

theorem Enough.ends {fuel cur : Nat} (enough : Enough geo fuel cur) {mem : Mem}
    (links : Links geo mem) : Ends geo mem fuel cur := by
  rcases enough with ⟨-, rfl⟩ | ⟨idx, small, rfl, fuelled⟩
  · exact links.ends cur
  · exact links.ends_overflow small fuelled

theorem Enough.next {fuel cur : Nat} (enough : Enough geo (fuel + 1) cur) {mem : Mem}
    (links : Links geo mem) (linked : link mem cur ≠ 0) :
    Enough geo fuel (overflow_bucket_of geo (link mem cur)) := by
  have bound := links.bounded cur
  refine .inr ⟨_, bound, rfl, ?_⟩
  rcases enough with ⟨-, budget⟩ | ⟨idx, small, rfl, fuelled⟩
  · rw [Geometry.budget] at budget
    omega
  · have further := links.forward idx linked
    omega

theorem walk_slots_under {cur : Nat} (hdr : Nat) {idxs : List (Fin kEntriesPerBucket)}
    (rest : View geo bid_of bid key → Slot → Prop)
    (stable : ∀ view later slot, view.Moves later → rest view slot → rest later slot)
    {view : View geo bid_of bid key}
    (bits : ∀ i : Fin kEntriesPerBucket, slot_published hdr i = true →
      published view.mem ⟨cur, i⟩ = true)
    (due : Due view (fun slot =>
      (slot.bucket = cur ∧ slot.idx ∈ idxs ∧ slot_published hdr slot.idx = true) ∨
        rest view slot))
    (reusable : Option Slot) :
    (walk_slots cur key hdr idxs reusable).Under viewSem View.Moves
      (fun result last =>
        match result.1 with
        | some i => published last.mem ⟨cur, i⟩ = true ∧ key_at last.mem ⟨cur, i⟩ = key
        | none => Due last (rest last))
      view := by
  induction idxs generalizing view reusable with
  | nil =>
      intro last moved
      refine due.moves moved ?_
      rintro slot (⟨-, inside, -⟩ | later) _ _
      · cases inside
      · exact stable _ _ slot moved later
  | cons i idxs ih =>
      simp only [walk_slots]
      split
      · rename_i visible
        intro later moved
        have visible_later := moved.grows.published _ (bits i visible)
        by_cases same : later.mem (.key_id cur i) = key
        · change Prog.Under viewSem View.Moves _ (if later.mem (.key_id cur i) = key then _ else _) _
          rw [if_pos same]
          intro last further
          exact ⟨further.grows.published _ visible_later,
            (further.grows.key _ visible_later).trans same⟩
        · change Prog.Under viewSem View.Moves _ (if later.mem (.key_id cur i) = key then _ else _) _
          rw [if_neg same]
          refine ih (fun j shown => moved.grows.published _ (bits j shown)) ?_ _
          refine due.moves moved ?_
          rintro slot (⟨bucket, inside, shown⟩ | beyond) _ holds
          · rcases List.mem_cons.mp inside with idx | inside
            · have this_slot : slot = ⟨cur, i⟩ := Slot.ext bucket idx
              rw [this_slot] at holds
              exact absurd holds same
            · exact .inl ⟨bucket, inside, shown⟩
          · exact .inr (stable _ _ slot moved beyond)
      · rename_i invisible
        refine ih bits ?_ _
        refine due.moves (View.Moves.refl view) ?_
        rintro slot (⟨bucket, inside, shown⟩ | beyond) _ _
        · rcases List.mem_cons.mp inside with idx | inside
          · rw [idx] at shown
            exact absurd shown invisible
          · exact .inl ⟨bucket, inside, shown⟩
        · exact .inr beyond

def Walked (view : View geo bid_of bid key) : Option Found → Prop
  | some (.matched slot) =>
      slot.bucket ∈ chain geo view.mem bid ∧ published view.mem slot = true ∧
        key_at view.mem slot = key
  | some (.missing _ _) => none ∈ view.seen
  | none => False

theorem walk_chain_under {fuel cur : Nat} {view : View geo bid_of bid key}
    (enough : Enough geo fuel cur) (member : cur ∈ chain geo view.mem bid)
    (due : Due view (fun slot => slot.bucket ∈ buckets_from geo view.mem fuel cur))
    (reusable : Option Slot) :
    (walk_chain geo (fun _ => 0) key fuel cur reusable).Under viewSem View.Moves
      (fun found last => Walked last found) view := by
  induction fuel generalizing cur view reusable with
  | zero =>
      rcases enough with ⟨-, impossible⟩ | ⟨idx, -, -, impossible⟩
      · rw [Geometry.budget] at impossible
        omega
      · omega
  | succ fuel ih =>
      intro later moved
      change Prog.Under viewSem View.Moves _ (walk_slots cur key (later.mem (.header cur) ||| 0)
        (List.finRange kEntriesPerBucket) reusable >>= _) later
      rw [Nat.or_zero]
      have member_later := moved.grows.chain later.shape.toLinks member
      refine Prog.Under.bind View.Moves.refl ?_
      have scanned := walk_slots_under (later.mem (.header cur))
        (fun view slot => link later.mem cur ≠ 0 ∧
          slot.bucket ∈ buckets_from geo view.mem fuel
            (overflow_bucket_of geo (link later.mem cur)))
        (fun view after slot moved beyond => ⟨beyond.1,
          buckets_from_mono ((enough.next later.shape.toLinks beyond.1).ends after.shape.toLinks)
            moved.grows.link beyond.2⟩)
        (fun i shown => shown)
        (due.moves moved (fun slot inside visible _ => by
          have inside_later := buckets_from_mono (enough.ends later.shape.toLinks)
            moved.grows.link inside
          by_cases linked : link later.mem cur = 0
          · rw [buckets_from_last fuel linked, List.mem_singleton] at inside_later
            rw [published, inside_later] at visible
            exact .inl ⟨inside_later, List.mem_finRange _, visible⟩
          · rw [buckets_from_more fuel linked, List.mem_cons] at inside_later
            rcases inside_later with here | beyond
            · rw [published, here] at visible
              exact .inl ⟨here, List.mem_finRange _, visible⟩
            · exact .inr ⟨linked, beyond⟩))
        reusable
      refine (scanned.frame View.Moves.trans (fun _ _ => rfl)).conseq ?_
      rintro ⟨_ | i, reusable⟩ after ⟨scan, further⟩
      · simp only at scan
        change Prog.Under viewSem View.Moves _ (if link later.mem cur = 0 then _
          else walk_chain geo (fun _ => 0) key fuel
            (overflow_bucket_of geo (link later.mem cur)) reusable) after
        by_cases linked : link later.mem cur = 0
        · rw [if_pos linked]
          intro last final
          refine final.seen (scan.resolve_right ?_)
          rintro ⟨slot, ⟨impossible, -⟩, -⟩
          exact impossible linked
        · rw [if_neg linked]
          have same := further.grows.link cur linked
          refine ih (enough.next later.shape.toLinks linked) ?_ ?_ reusable
          · have target := after.shape.next_mem (further.grows.chain after.shape.toLinks
              member_later) (same ▸ linked)
            rwa [same] at target
          · rcases scan with seen | ⟨slot, ⟨-, inside⟩, visible⟩
            · exact .inl seen
            · exact .inr ⟨slot, inside, visible⟩
      · intro last final
        obtain ⟨visible, holds⟩ := scan
        exact ⟨final.grows.chain last.shape.toLinks (further.grows.chain after.shape.toLinks
            member_later), final.grows.published _ visible,
          (final.grows.key _ visible).trans holds⟩

/-- A lookup returns a mapping that its key has had since it started. -/
theorem lookup_under (main : bid < geo.main_buckets_per_region)
    (view : View geo bid_of bid key) :
    (lookup geo bid key).Under viewSem View.Moves
      (fun answer last => ∃ off, answer = some off ∧ off ∈ last.seen) view := by
  refine Prog.Under.bind View.Moves.refl ?_
  have due : Due view (fun slot => slot.bucket ∈ chain geo view.mem bid) := by
    cases present : entry geo view.mem bid key with
    | none =>
        have current := view.current
        rw [mapped, present] at current
        exact .inl current
    | some off =>
        obtain ⟨slot, member, visible, same, -⟩ := slot_of_entry present
        exact .inr ⟨slot, member, visible, same⟩
  have walked := walk_chain_under (.inl ⟨main, rfl⟩) (head_mem_chain geo view.mem bid) due none
  refine walked.conseq ?_
  rintro (_ | ⟨slot⟩ | ⟨tail, reusable⟩) after found
  · cases found
  · intro later moved
    obtain ⟨member, visible, same⟩ := found
    have current := later.current
    rw [mapped, later.shape.entry_of_slot main
      (moved.grows.chain later.shape.toLinks member) (moved.grows.published slot visible)
      ((moved.grows.key slot visible).trans same)] at current
    change Prog.Under viewSem View.Moves _
      (if later.mem (.offset slot.bucket slot.idx) = kTombstoneOffset then _ else _) later
    split
    · rename_i gone
      intro last final
      have removed : offset_at later.mem slot = kTombstoneOffset := gone
      rw [removed] at current
      exact ⟨none, rfl, final.seen (by simpa [Option.filter_some] using current)⟩
    · rename_i live
      intro last final
      have kept : offset_at later.mem slot ≠ kTombstoneOffset := live
      have seen : some (offset_at later.mem slot) ∈ later.seen := by
        simpa [Option.filter_some, kept] using current
      exact ⟨_, rfl, final.seen seen⟩
  · exact fun last moved => ⟨none, rfl, moved.seen found⟩

end Hiom.ColdTier
