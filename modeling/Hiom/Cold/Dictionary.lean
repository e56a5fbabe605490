import Hiom.Cold.Map
import Hiom.Cold.Refinement

/-!
The cold tier as its callers above see it: the offset of each key id, whatever
was told before.
-/

namespace Hiom.ColdTier

def Maps (geo : Geometry) (route : Nat → Nat) (tier : Tier) (map : Nat → Option Nat) : Prop :=
  ∃ last, Represents geo route ⟨tier, last⟩ ∧ ∀ key, (last key).join = map key

namespace Maps

variable {geo : Geometry} {route : Nat → Nat} {tier after : Tier} {map : Nat → Option Nat}
  {key off : Nat}

theorem create : Maps geo route Tier.create (fun _ => none) :=
  ⟨fun _ => none, created_represents geo route, fun _ => rfl⟩

theorem sound (maps : Maps geo route tier map) : Sound geo route tier := by
  obtain ⟨last, represents, -⟩ := maps
  exact represents.sound

theorem lookup (maps : Maps geo route tier map) (key : Nat) :
    tier.lookup geo (route key) key = some (map key) := by
  obtain ⟨last, represents, same⟩ := maps
  rw [← same key]
  exact represents.lookup key

/-- The map is determined. -/
theorem unique {other : Nat → Option Nat} (maps : Maps geo route tier map)
    (again : Maps geo route tier other) : other = map := by
  funext key
  exact Option.some_inj.mp ((again.lookup key).symm.trans (maps.lookup key))

theorem upsert (maps : Maps geo route tier map) (valid : off ≠ kTombstoneOffset)
    (done : tier.upsert geo (route key) key off = (some true, after)) :
    Maps geo route after (Function.update map key (some off)) := by
  obtain ⟨last, represents, same⟩ := maps
  have ran := @Call.run_upsert geo route tier key off
  rw [done] at ran
  have stepped : Db.call geo route ⟨tier, last⟩ (.upsert key off) =
      some ⟨after, record last ⟨route key, key, off⟩⟩ := by
    have allowed : (Call.upsert key off).Valid geo route := valid
    unfold Db.call
    rw [if_pos allowed, ran]
    rfl
  refine ⟨_, represents_step represents stepped, ?_⟩
  intro other
  by_cases here : other = key
  · subst here
    simp [record]
  · simp [record, here, same]

theorem remove (maps : Maps geo route tier map) (key : Nat) :
    ∃ ok after, tier.remove geo (route key) key = (some ok, after) ∧
      Maps geo route after (Function.update map key none) := by
  obtain ⟨last, represents, same⟩ := maps
  have answered := represents.remove key
  have ran := @Call.run_remove geo route tier key
  revert answered ran
  generalize tier.remove geo (route key) key = outcome
  obtain ⟨answer, after⟩ := outcome
  intro answered ran
  dsimp only at answered ran
  subst answered
  have stepped : Db.call geo route ⟨tier, last⟩ (.remove key) =
      some ⟨after, (Call.remove key).told geo route last (.done (last key).isSome)⟩ := by
    have allowed : (Call.remove key).Valid geo route := trivial
    unfold Db.call
    rw [if_pos allowed, ran]
    rfl
  refine ⟨(last key).isSome, after, rfl, _, represents_step represents stepped, ?_⟩
  intro other
  cases told : last key with
  | none =>
      have unchanged : (Call.remove key).told geo route last (.done (none : Option (Option Nat)).isSome) =
          last := rfl
      rw [unchanged, same]
      by_cases here : other = key
      · subst here
        rw [Function.update_self, ← same, told]
        rfl
      · rw [Function.update_of_ne here]
  | some known =>
      have removed : (Call.remove key).told geo route last (.done (some known).isSome) =
          Function.update last key (some none) := rfl
      rw [removed]
      by_cases here : other = key
      · subst here
        rw [Function.update_self, Function.update_self]
        rfl
      · rw [Function.update_of_ne here, Function.update_of_ne here, same]

/-! ### Bulk calls -/

def written (map : Nat → Option Nat) (entries : List BulkEntry) : Nat → Option Nat :=
  entries.foldl (fun map entry => Function.update map entry.key_id (some entry.off)) map

theorem upserts {entries : List BulkEntry} (maps : Maps geo route tier map)
    (valid : ∀ entry ∈ entries, entry.off ≠ kTombstoneOffset)
    (routed : ∀ entry ∈ entries, entry.fp = route entry.key_id)
    (done : AllTrue (tier.upserts geo entries).1) :
    Maps geo route (tier.upserts geo entries).2 (written map entries) := by
  induction entries generalizing tier map with
  | nil => exact maps
  | cons entry rest ih =>
      rw [Tier.upserts_cons] at done ⊢
      have here := allTrue_cons.mp done
      have route_head := routed entry List.mem_cons_self
      have placed : tier.upsert geo (route entry.key_id) entry.key_id entry.off =
          (some true, (tier.upsert geo entry.fp entry.key_id entry.off).2) := by
        rw [← route_head]
        exact Prod.ext here.1 rfl
      apply ih
      · exact maps.upsert (valid entry List.mem_cons_self) placed
      · exact fun other member => valid other (List.mem_cons_of_mem _ member)
      · exact fun other member => routed other (List.mem_cons_of_mem _ member)
      · exact here.2

/-- A bulk call that has written every entry. -/
theorem bulk_upsert {entries sorted : List BulkEntry} (maps : Maps geo route tier map)
    (call : BulkCall geo route entries sorted)
    (done : tier.bulk_upsert geo sorted = (some entries.length, after)) :
    Maps geo route after (written map sorted) := by
  have routed : ∀ entry ∈ sorted, entry ∈ entries := fun entry => call.sorted.perm.mem_iff.mp
  obtain ⟨counts, answered, -, total, same⟩ := Tier.apply_runs_upserts (bucket_runs geo sorted)
    (fun run member entry inside => bucket_runs_place member inside)
    (fun run member entry inside => call.routed entry (call.routed_runs entry
      (List.mem_flatten.mpr ⟨run.entries, List.mem_map_of_mem member, inside⟩)))
    maps.sound
  rw [bucket_runs_entries] at total same
  unfold Tier.bulk_upsert at done
  rw [answered] at done
  obtain ⟨sums, last⟩ := Prod.mk.inj done
  have whole := total.mp (by
    rw [call.sorted.perm.length_eq]
    exact Option.some_inj.mp sums)
  rw [← last, same whole]
  apply maps.upserts
  · exact fun entry member => call.offsets entry (routed entry member)
  · exact fun entry member => call.routed entry (routed entry member)
  · exact whole

theorem written_other {entries : List BulkEntry}
    (absent : ∀ entry ∈ entries, entry.key_id ≠ key) : written map entries key = map key := by
  induction entries generalizing map with
  | nil => rfl
  | cons entry rest ih =>
      rw [written, List.foldl_cons, ← written, ih (fun other member =>
        absent other (List.mem_cons_of_mem _ member))]
      exact Function.update_of_ne (absent entry List.mem_cons_self).symm _ _

/-- Of entries for one key each, all are there afterwards. -/
theorem written_entry {entries : List BulkEntry} {entry : BulkEntry} (member : entry ∈ entries)
    (distinct : (entries.map BulkEntry.key_id).Nodup) :
    written map entries entry.key_id = some entry.off := by
  induction entries generalizing map with
  | nil => cases member
  | cons first rest ih =>
      obtain ⟨alone, distinct⟩ := List.nodup_cons.mp distinct
      rw [written, List.foldl_cons, ← written]
      rcases List.mem_cons.mp member with rfl | later
      · rw [written_other]
        · exact Function.update_self _ _ _
        · intro other inside same
          apply alone
          rw [← same]
          exact List.mem_map_of_mem inside
      · exact ih later distinct

end Maps

end Hiom.ColdTier
