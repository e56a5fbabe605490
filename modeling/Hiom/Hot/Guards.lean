import Hiom.Hot.Cache

/-!
What the operations of HotTier leave of a slot that is pinned: whatever else is
inserted, removed or warmed, it keeps its fingerprint until an entry that names
the slot is released.
-/

namespace Hiom.HotTier

/-! ### Accesses that leave the state words alone -/

def Stateless : Access → Prop
  | .cas_word .. | .or_state .. | .and_state .. => False
  | _ => True

section Stateless

variable {hot : Hot} {bucket : Nat}

theorem stateless_state {access : Access} (stateless : Stateless access) (b : Nat) :
    ((hotSem access hot).2.metas b).state = (hot.metas b).state := by
  cases access with
  | cas_slot bucket i expected desired =>
      simp only [hotSem]
      split
      · rfl
      · rfl
  | write_visited bucket i visited =>
      by_cases here : b = bucket
      · subst here
        simp [hotSem, Hot.visit, Hot.set_visited, Hot.set_meta]
      · simp [hotSem, Hot.visit, Hot.set_visited, Hot.set_meta, here]
  | store_hand bucket value =>
      by_cases here : b = bucket
      · subst here
        simp [hotSem, Hot.set_hand, Hot.set_meta]
      · simp [hotSem, Hot.set_hand, Hot.set_meta, here]
  | cas_word bucket cur desired => exact stateless.elim
  | or_state bucket bits => exact stateless.elim
  | and_state bucket bits => exact stateless.elim
  | load_slot bucket i => rfl
  | load_visited bucket => rfl
  | load_hand bucket => rfl
  | load_state bucket => rfl
  | add_size => rfl
  | sub_size => rfl
  | add_evictions => rfl
  | add_pin_failures => rfl

/-- Code of such accesses only. -/
theorem Stateless.run {α : Type} {code : HotCode α} (only : code.Only Stateless) (b : Nat) :
    ((code.run hotSem hot).2.metas b).state = (hot.metas b).state := by
  have guarded : code.Guarded hotSem (fun _ access => Stateless access) hot :=
    only.guarded (fun _ _ kind => kind) hot
  apply guarded.run_preserves (motive := fun now => (now.metas b).state = (hot.metas b).state)
  · intro now access same stateless
    exact (stateless_state stateless b).trans same
  · rfl

theorem set_visited_stateless (i : Nat) : (set_visited bucket i).Only Stateless := by
  unfold set_visited
  apply Prog.Only.bind
  · exact ⟨trivial, fun _ => trivial⟩
  · exact fun cur => Prog.Only.ite trivial ⟨trivial, fun _ => trivial⟩

theorem clear_visited_stateless (i : Nat) : (clear_visited bucket i).Only Stateless := by
  unfold clear_visited
  apply Prog.Only.bind
  · exact ⟨trivial, fun _ => trivial⟩
  · exact fun cur => Prog.Only.ite ⟨trivial, fun _ => trivial⟩ trivial

theorem sieve_from_stateless (hand left k : Nat) :
    (sieve_from bucket hand left k).Only Stateless := by
  induction left generalizing k with
  | zero => trivial
  | succ left ih =>
      unfold sieve_from
      apply Prog.Only.bind
      · exact ⟨trivial, fun _ => trivial⟩
      · intro st
        apply Prog.Only.ite
        · apply Prog.Only.bind
          · exact ⟨trivial, fun _ => trivial⟩
          · intro vis
            apply Prog.Only.ite
            · exact ⟨trivial, fun _ => ih (k + 1)⟩
            · apply Prog.Only.bind
              · exact ⟨trivial, fun _ => trivial⟩
              · intro expected
                apply Prog.Only.ite
                · exact ⟨trivial, fun _ => trivial⟩
                · apply Prog.Only.bind
                  · exact ⟨trivial, fun _ => trivial⟩
                  · intro cleared
                    apply Prog.Only.ite
                    · exact ⟨trivial, fun _ => ⟨trivial, fun _ => ⟨trivial, fun _ => trivial⟩⟩⟩
                    · exact ih (k + 1)
        · exact ih (k + 1)

theorem sieve_evict_stateless : (sieve_evict bucket).Only Stateless :=
  ⟨trivial, fun hand => sieve_from_stateless hand _ 0⟩

theorem probe_stateless {fingerprint : Nat} (left i : Nat) (first_empty : Option Nat) :
    (probe bucket fingerprint left i first_empty).Only Stateless := by
  induction left generalizing i first_empty with
  | zero => trivial
  | succ left ih =>
      unfold probe
      apply Prog.Only.bind
      · exact ⟨trivial, fun _ => trivial⟩
      · intro v
        apply Prog.Only.ite
        · trivial
        · exact Prog.Only.ite (ih _ _) (ih _ _)

theorem find_stateless {fingerprint : Nat} (left i : Nat) :
    (find bucket fingerprint left i).Only Stateless := by
  induction left generalizing i with
  | zero => trivial
  | succ left ih =>
      unfold find
      apply Prog.Only.bind
      · exact ⟨trivial, fun _ => trivial⟩
      · intro v
        apply Prog.Only.ite
        · trivial
        · exact ih _

theorem place_stateless {fingerprint offset : Nat} (retries : Nat) :
    (place bucket fingerprint offset retries).Only Stateless := by
  induction retries with
  | zero => trivial
  | succ retries ih =>
      unfold place
      apply Prog.Only.bind (probe_stateless _ _ _)
      intro probed
      cases probed with
      | matched i v =>
          apply Prog.Only.bind
          · exact ⟨trivial, fun _ => trivial⟩
          · intro updated
            apply Prog.Only.ite
            · exact Prog.Only.bind (set_visited_stateless i) (fun _ => trivial)
            · exact ih
      | missing first_empty =>
          have claim : ∀ i, Prog.Only Stateless (do
              let claimed ← cas_slot bucket i 0 (pack fingerprint offset)
              if claimed then
                add_size
                clear_visited bucket i
                .ret (.inserted i)
              else place bucket fingerprint offset retries : HotCode Placed) := by
            intro i
            apply Prog.Only.bind
            · exact ⟨trivial, fun _ => trivial⟩
            · intro claimed
              apply Prog.Only.ite
              · apply Prog.Only.bind
                · exact ⟨trivial, fun _ => trivial⟩
                · exact fun _ => Prog.Only.bind (clear_visited_stateless i) (fun _ => trivial)
              · exact ih
          cases first_empty with
          | some i => exact claim i
          | none =>
              apply Prog.Only.bind sieve_evict_stateless
              intro target_idx
              cases target_idx with
              | none => trivial
              | some i => exact claim i

variable {num_buckets fingerprint : Nat}

theorem upsert_stateless {offset : Nat} : (upsert num_buckets fingerprint offset).Only Stateless := by
  unfold upsert
  apply Prog.Only.bind (place_stateless _)
  intro placed
  cases placed with
  | replaced i v => trivial
  | inserted i => trivial
  | failed => trivial

theorem lookup_stateless : (lookup num_buckets fingerprint).Only Stateless := by
  unfold lookup
  apply Prog.Only.bind (find_stateless _ _)
  intro found
  cases found with
  | none => trivial
  | some slot => exact Prog.Only.bind (set_visited_stateless _) (fun _ => trivial)

theorem remove_stateless (rounds : Nat) : (remove num_buckets fingerprint rounds).Only Stateless := by
  induction rounds with
  | zero => trivial
  | succ rounds ih =>
      unfold remove
      apply Prog.Only.bind (find_stateless _ _)
      intro found
      cases found with
      | none => trivial
      | some slot =>
          apply Prog.Only.bind
          · exact ⟨trivial, fun _ => trivial⟩
          · intro cleared
            apply Prog.Only.ite
            · apply Prog.Only.bind
              · exact ⟨trivial, fun _ => trivial⟩
              · exact fun _ => Prog.Only.bind (clear_visited_stateless _) (fun _ => trivial)
            · exact ih

end Stateless

/-! ### Pinned slots -/

structure Hot.Guards (hot : Hot) (bucket i fp : Nat) : Prop where
  fp : unpack_fp (hot.slots bucket i) = fp
  pinned : pinned (hot.metas bucket).state i = true

theorem unpinned_of_pinned {hot : Hot} {bucket i : Nat}
    (pins : pinned (hot.metas bucket).state i = true) : hot.unpinned bucket i = false := by
  rw [Hot.unpinned, beq_eq_false_iff_ne]
  intro unpinned
  have bit := congrArg (fun word : BitVec 32 => word.getLsbD 0) unpinned
  unfold pinned at pins
  simp [get_state, SlotState.bits, pins] at bit

section Guards

variable {num_buckets fp off other bucket i : Nat} {hot after : Hot} {placed : Placed}

theorem Hot.Guards.congr (guards : hot.Guards bucket i other)
    (slots : after.slots bucket i = hot.slots bucket i)
    (state : (after.metas bucket).state = (hot.metas bucket).state) :
    after.Guards bucket i other := by
  constructor
  · rw [slots]
    exact guards.fp
  · rw [state]
    exact guards.pinned

/-- A pinned slot survives every insertion. -/
theorem PlaceResult.guards (result : PlaceResult hot (bucket_index num_buckets fp) fp off placed after)
    (short : off < 2 ^ 32) (state : (after.metas bucket).state = (hot.metas bucket).state)
    (proper : other ≠ 0) (guards : hot.Guards bucket i other) : after.Guards bucket i other := by
  have written : ∀ j, after.slots = (hot.set_slot (bucket_index num_buckets fp) j (pack fp off)).slots →
      (bucket = bucket_index num_buckets fp → i = j → other = fp) → after.Guards bucket i other := by
    intro j slots same
    constructor
    · rw [slots, slots_set_slot]
      split
      · rename_i here
        rw [unpack_fp_pack short]
        exact (same here.1 here.2).symm
      · exact guards.fp
    · rw [state]
      exact guards.pinned
  cases result with
  | @replaced j v _ inside slot same slots size evictions =>
      apply written j slots
      rintro rfl rfl
      rw [← guards.fp, slot, same]
  | @vacant j _ inside slot absent slots size evictions =>
      apply written j slots
      rintro rfl rfl
      have empty := guards.fp
      rw [slot] at empty
      exact absurd empty.symm proper
  | @evicted j _ inside displaces may_go slots size evictions =>
      apply written j slots
      rintro rfl rfl
      rw [unpinned_of_pinned guards.pinned] at may_go
      cases may_go
  | refused refuses slots size evictions =>
      exact guards.congr (by rw [slots]) state

/-- A read leaves the cache as it is, but for the bits of visited slots. -/
theorem lookup_guards (fingerprint : Nat) (guards : hot.Guards bucket i other) :
    ((lookup num_buckets fingerprint).run hotSem hot).2.Guards bucket i other := by
  obtain ⟨metas, looked_up⟩ := @lookup_run num_buckets fingerprint hot
  apply guards.congr
  · rw [looked_up]
  · exact Stateless.run lookup_stateless bucket

theorem lookup_slots (fingerprint : Nat) :
    ((lookup num_buckets fingerprint).run hotSem hot).1 = hot.cached num_buckets fingerprint ∧
      ((lookup num_buckets fingerprint).run hotSem hot).2.slots = hot.slots ∧
      ((lookup num_buckets fingerprint).run hotSem hot).2.size = hot.size := by
  obtain ⟨metas, looked_up⟩ := @lookup_run num_buckets fingerprint hot
  rw [looked_up]
  exact ⟨rfl, rfl, rfl⟩

theorem Hot.Intact.congr (intact : hot.Intact num_buckets) (slots : after.slots = hot.slots)
    (size : after.size = hot.size) : after.Intact num_buckets :=
  ⟨by rw [slots]; exact intact.homed, by rw [slots]; exact intact.unique,
    by rw [slots, size]; exact intact.counted⟩

/-- What a slot with a fingerprint caches. -/
theorem Hot.Intact.cached_at (intact : hot.Intact num_buckets) (proper : fp ≠ 0)
    (here : unpack_fp (hot.slots bucket i) = fp) :
    hot.cached num_buckets fp = some (unpack_off (hot.slots bucket i)) := by
  obtain ⟨-, inside, -, home⟩ := intact.homed bucket i (occupied_of_fp proper here)
  rw [here] at home
  rw [cached_eq_some intact proper, home]
  exact ⟨i, inside, here, rfl⟩

structure Upserted (num_buckets fp off : Nat) (hot after : Hot) : Prop where
  intact : after.Intact num_buckets
  self : after.cached num_buckets fp = some off ∨
    after.cached num_buckets fp = none ∧ hot.cached num_buckets fp = none
  others : ∀ other, other ≠ 0 → other ≠ fp →
    after.cached num_buckets other = hot.cached num_buckets other ∨
      after.cached num_buckets other = none
  guards : ∀ bucket i other, other ≠ 0 → hot.Guards bucket i other →
    after.Guards bucket i other

theorem PlaceResult.upserted
    (result : PlaceResult hot (bucket_index num_buckets fp) fp off placed after)
    (intact : hot.Intact num_buckets) (positive : 0 < num_buckets) (proper : fp ≠ 0)
    (short : off < 2 ^ 32)
    (guards : ∀ bucket i other, other ≠ 0 → hot.Guards bucket i other →
      after.Guards bucket i other) :
    Upserted num_buckets fp off hot after := by
  have kept := result.intact_after intact positive proper short
  constructor
  · exact kept
  · rw [result.cached_self intact kept proper short]
    split
    · rename_i refuses
      right
      exact ⟨rfl, cached_eq_none.mpr (fun i _ below => (refuses i below).2.1)⟩
    · exact .inl rfl
  · intro other occupied different
    exact (result.cached_other intact kept occupied short different).imp_right And.left
  · exact guards

theorem upsert_upserted (intact : hot.Intact num_buckets) (positive : 0 < num_buckets)
    (proper : fp ≠ 0) (short : off < 2 ^ 32) :
    Upserted num_buckets fp off hot ((upsert num_buckets fp off).run hotSem hot).2 := by
  obtain ⟨placed, result, -⟩ := @upsert_run num_buckets fp off hot intact
  apply result.upserted intact positive proper short
  intro bucket i other occupied guards
  exact result.guards short (Stateless.run upsert_stateless bucket) occupied guards

/-! ### Pins, removals and releases -/

structure Pinned (num_buckets fp off : Nat) (hot : Hot) (ref : SlotRef) (after : Hot) : Prop
    extends Upserted num_buckets fp off hot after where
  pins : ref.valid = true → after.Guards ref.bucket_idx ref.slot_idx fp ∧
    after.cached num_buckets fp = some off
  refuses : ref.valid = false → hot.cached num_buckets fp = none ∧
    after.cached num_buckets fp = none

theorem force_pinned_slots (i : Nat) :
    ((force_pinned bucket i).run hotSem hot).2.slots = hot.slots ∧
      ((force_pinned bucket i).run hotSem hot).2.size = hot.size :=
  ⟨rfl, rfl⟩

/-- Forcing a slot to be pinned unpins none. -/
theorem force_pinned_pinned {i j : Nat} (low : j < kSlotsPerBucket) (b : Nat) :
    pinned (((force_pinned bucket i).run hotSem hot).2.metas b).state j =
      (pinned (hot.metas b).state j || decide (b = bucket ∧ j = i)) := by
  by_cases here : b = bucket
  · subst here
    simp [force_pinned, Prog.run_bind, Hot.set_state, Hot.set_meta, fetch_and_pinned low,
      fetch_or_pinned low]
  · simp [force_pinned, Prog.run_bind, Hot.set_state, Hot.set_meta, here]

theorem Hot.Guards.low (guards : hot.Guards bucket i other) (intact : hot.Intact num_buckets)
    (proper : other ≠ 0) : i < kSlotsPerBucket :=
  (intact.homed bucket i (occupied_of_fp proper guards.fp)).2.1

/-- What an insertion that is pinned in the end leaves. -/
theorem force_pinned_pins {j : Nat}
    (result : PlaceResult hot (bucket_index num_buckets fp) fp off placed after)
    (intact : hot.Intact num_buckets) (positive : 0 < num_buckets) (proper : fp ≠ 0)
    (short : off < 2 ^ 32)
    (state : ∀ b, (after.metas b).state = (hot.metas b).state) (low : j < kSlotsPerBucket)
    (slots : after.slots = (hot.set_slot (bucket_index num_buckets fp) j (pack fp off)).slots) :
    Pinned num_buckets fp off hot ⟨bucket_index num_buckets fp, j, true⟩
      ((force_pinned (bucket_index num_buckets fp) j).run hotSem after).2 := by
  have kept := result.intact_after intact positive proper short
  have same := @force_pinned_slots (bucket_index num_buckets fp) after j
  have last := kept.congr same.1 same.2
  have stored := cached_store last proper short low (same.1.trans slots)
  constructor
  · apply PlaceResult.upserted (result.congr same.1 same.2 rfl) intact positive proper short
    intro bucket i other occupied guards
    have still := result.guards short (state bucket) occupied guards
    constructor
    · rw [same.1]
      exact still.fp
    · rw [force_pinned_pinned (guards.low intact occupied), still.pinned]
      rfl
  · intro _
    refine ⟨⟨?_, ?_⟩, stored⟩
    · rw [same.1, slots, slots_set_slot, if_pos ⟨rfl, rfl⟩]
      exact unpack_fp_pack short
    · rw [force_pinned_pinned low]
      simp
  · intro invalid
    cases invalid

theorem upsert_pinned_pins (intact : hot.Intact num_buckets) (positive : 0 < num_buckets)
    (proper : fp ≠ 0) (short : off < 2 ^ 32) :
    Pinned num_buckets fp off hot ((upsert_pinned num_buckets fp off).run hotSem hot).1
      ((upsert_pinned num_buckets fp off).run hotSem hot).2 := by
  have result := @place_run hot (bucket_index num_buckets fp) fp off
    (fun i => intact.word_eq_zero i) 15
  have retries : kMaxUpsertRetries = 15 + 1 := rfl
  have state : ∀ b, (((place (bucket_index num_buckets fp) fp off (15 + 1)).run hotSem hot).2.metas
      b).state = (hot.metas b).state := Stateless.run (place_stateless _)
  unfold upsert_pinned
  dsimp only
  rw [retries, Prog.run_bind]
  revert result state
  generalize (place (bucket_index num_buckets fp) fp off (15 + 1)).run hotSem hot = ran
  obtain ⟨placed, last⟩ := ran
  intro result state
  dsimp only at result state ⊢
  cases result with
  | replaced inside slot same slots size evictions =>
      rw [Prog.run_bind]
      exact force_pinned_pins (.replaced inside slot same slots size evictions) intact positive
        proper short state inside slots
  | vacant inside slot absent slots size evictions =>
      rw [Prog.run_bind]
      exact force_pinned_pins (.vacant inside slot absent slots size evictions) intact positive
        proper short state inside slots
  | evicted inside displaces may_go slots size evictions =>
      rw [Prog.run_bind]
      exact force_pinned_pins (.evicted inside displaces may_go slots size evictions) intact positive
        proper short state inside slots
  | refused refuses slots size evictions =>
      have nothing : hot.cached num_buckets fp = none :=
        cached_eq_none.mpr (fun i _ below => (refuses i below).2.1)
      have kept : Hot.Intact num_buckets { last with pin_failures := last.pin_failures + 1 } :=
        intact.congr slots size
      rw [Prog.run_bind, run_add_pin_failures, Prog.run_ret]
      constructor
      · have refused : PlaceResult hot (bucket_index num_buckets fp) fp off .failed
            { last with pin_failures := last.pin_failures + 1 } :=
          .refused refuses slots size evictions
        apply refused.upserted intact positive proper short
        intro bucket i other occupied guards
        exact guards.congr (by rw [← slots]) (state bucket)
      · exact fun valid => by cases valid
      · intro _
        refine ⟨nothing, ?_⟩
        rw [cached_congr intact kept proper slots]
        exact nothing

structure Removed (num_buckets fp : Nat) (hot after : Hot) : Prop where
  intact : after.Intact num_buckets
  self : after.cached num_buckets fp = none
  others : ∀ other, other ≠ 0 → other ≠ fp →
    after.cached num_buckets other = hot.cached num_buckets other
  guards : ∀ bucket i other, other ≠ 0 → other ≠ fp → hot.Guards bucket i other →
    after.Guards bucket i other

theorem remove_removed (intact : hot.Intact num_buckets) (proper : fp ≠ 0) :
    Removed num_buckets fp hot ((remove num_buckets fp 1).run hotSem hot).2 := by
  have state : ∀ b, (((remove num_buckets fp 1).run hotSem hot).2.metas b).state =
      (hot.metas b).state := Stateless.run (remove_stateless 1)
  obtain ⟨_, ⟨nothing, kept⟩ | ⟨i, inside, metas, same, removed⟩⟩ :=
    @remove_run num_buckets fp hot 0
  · rw [kept]
    exact ⟨intact, nothing, fun _ _ _ => rfl, fun _ _ _ _ _ guards => guards⟩
  · have occupied := occupied_of_fp proper same
    rw [removed] at state ⊢
    have kept : Hot.Intact num_buckets
        { hot.set_slot (bucket_index num_buckets fp) i 0 with
          size := hot.size - 1
          metas := metas } := intact.clear occupied rfl rfl
    have written : ∀ other, other ≠ 0 → Hot.cached num_buckets
        { hot.set_slot (bucket_index num_buckets fp) i 0 with
          size := hot.size - 1
          metas := metas } other =
        if bucket_index num_buckets fp = bucket_index num_buckets other ∧ fp = other then none
        else hot.cached num_buckets other := by
      intro other proper_other
      have different : unpack_fp 0 ≠ other := proper_other.symm
      rw [cached_set_slot intact kept proper_other inside different rfl, same]
    constructor
    · exact kept
    · rw [written fp proper, if_pos ⟨rfl, rfl⟩]
    · intro other proper_other different
      rw [written other proper_other, if_neg (fun both => different both.2.symm)]
    · intro bucket j other proper_other different guards
      apply guards.congr
      · dsimp only
        rw [slots_set_slot, if_neg]
        rintro ⟨rfl, rfl⟩
        exact different (guards.fp.symm.trans same)
      · exact state bucket

/-- What stage 2 of `apply_batch` does to the slot of an entry. -/
def release (ref : SlotRef) : HotCode Unit := do
  let we_own ← cas_slot_state 1 ref .kPinned .kInFlush
  if we_own = some true then
    let _ ← cas_slot_state 1 ref .kInFlush .kUnpinned
    .ret ()
  else .ret ()

theorem cas_slot_state_slots (ref : SlotRef) (old new : SlotState) :
    ((cas_slot_state 1 ref old new).run hotSem hot).2.slots = hot.slots ∧
      ((cas_slot_state 1 ref old new).run hotSem hot).2.size = hot.size := by
  obtain ⟨-, metas, moved⟩ := @cas_slot_state_run hot ref 0 old new
  rw [moved]
  exact ⟨rfl, rfl⟩

/-- A change of state touches the slot it names only. -/
theorem cas_slot_state_pinned {ref : SlotRef} {old new : SlotState} {j : Nat} (low : j < kSlotsPerBucket)
    {b : Nat} (elsewhere : ref.valid = true → ¬(ref.bucket_idx = b ∧ ref.slot_idx = j)) :
    pinned (((cas_slot_state 1 ref old new).run hotSem hot).2.metas b).state j =
      pinned (hot.metas b).state j := by
  unfold cas_slot_state
  split
  · rename_i valid
    rw [cas_state, Prog.run_bind, run_load_state]
    dsimp only
    rw [cas_state_from]
    split
    · simp only [cas_word, Prog.run_bind, Prog.run_op, hotSem, Prog.run_ret, if_true, Hot.set_state,
        Hot.set_meta]
      by_cases here : b = ref.bucket_idx
      · subst here
        rw [Function.update_self, with_state_pinned low, if_neg]
        exact fun same => elsewhere valid ⟨rfl, same.symm⟩
      · rw [Function.update_of_ne here]
    · rfl
  · rfl

theorem release_slots (ref : SlotRef) :
    ((release ref).run hotSem hot).2.slots = hot.slots ∧
      ((release ref).run hotSem hot).2.size = hot.size := by
  obtain ⟨slots, size⟩ := @cas_slot_state_slots hot ref .kPinned .kInFlush
  unfold release
  rw [Prog.run_bind]
  split
  · rw [Prog.run_bind]
    obtain ⟨slots_again, size_again⟩ := @cas_slot_state_slots
      ((cas_slot_state 1 ref .kPinned .kInFlush).run hotSem hot).2 ref .kInFlush .kUnpinned
    exact ⟨slots_again.trans slots, size_again.trans size⟩
  · exact ⟨slots, size⟩

/-- A release leaves the other slots pinned. -/
theorem release_guards {ref : SlotRef} (low : i < kSlotsPerBucket)
    (elsewhere : ref.valid = true → ¬(ref.bucket_idx = bucket ∧ ref.slot_idx = i))
    (guards : hot.Guards bucket i other) :
    ((release ref).run hotSem hot).2.Guards bucket i other := by
  constructor
  · rw [release_slots ref |>.1]
    exact guards.fp
  · unfold release
    rw [Prog.run_bind]
    split
    · rw [Prog.run_bind, Prog.run_ret, cas_slot_state_pinned low elsewhere,
        cas_slot_state_pinned low elsewhere]
      exact guards.pinned
    · rw [Prog.run_ret, cas_slot_state_pinned low elsewhere]
      exact guards.pinned

end Guards

end Hiom.HotTier
