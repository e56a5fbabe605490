import Hiom.Cold.Map

/-!
`bulk_upsert` refines repeated `upsert`: in the order its sort leaves, it
either writes every entry with the same effect, or some `upsert` fails too.
-/

namespace Hiom.ColdTier

def Tier.upserts (geo : Geometry) (tier : Tier) : List BulkEntry → List (Option Bool) × Tier
  | [] => ([], tier)
  | entry :: rest =>
      let (answer, tier) := tier.upsert geo entry.fp entry.key_id entry.off
      let (answers, tier) := tier.upserts geo rest
      (answer :: answers, tier)

variable {geo : Geometry} {route : Nat → Nat} {tier : Tier}

def AllTrue (answers : List (Option Bool)) : Prop := ∀ answer ∈ answers, answer = some true

@[simp] theorem allTrue_nil : AllTrue [] := fun _ member => by cases member

@[simp] theorem allTrue_cons {answer : Option Bool} {answers : List (Option Bool)} :
    AllTrue (answer :: answers) ↔ answer = some true ∧ AllTrue answers := by
  simp [AllTrue]

@[simp] theorem allTrue_append {first second : List (Option Bool)} :
    AllTrue (first ++ second) ↔ AllTrue first ∧ AllTrue second := by
  simp [AllTrue, or_imp, forall_and]

theorem Tier.upserts_cons (entry : BulkEntry) (rest : List BulkEntry) :
    tier.upserts geo (entry :: rest) =
      ((tier.upsert geo entry.fp entry.key_id entry.off).1 ::
          ((tier.upsert geo entry.fp entry.key_id entry.off).2.upserts geo rest).1,
        ((tier.upsert geo entry.fp entry.key_id entry.off).2.upserts geo rest).2) := rfl

theorem Tier.upserts_append (first second : List BulkEntry) :
    tier.upserts geo (first ++ second) =
      ((tier.upserts geo first).1 ++ ((tier.upserts geo first).2.upserts geo second).1,
        ((tier.upserts geo first).2.upserts geo second).2) := by
  induction first generalizing tier with
  | nil => rfl
  | cons entry rest ih =>
      rw [List.cons_append, Tier.upserts_cons, ih, Tier.upserts_cons]
      rfl

theorem upsert_while_room_le (geo : Geometry) (bid : Nat) (entries : List BulkEntry) (mem : Mem) :
    (upsert_while_room geo bid entries mem).1 ≤ entries.length := by
  induction entries generalizing mem with
  | nil => exact le_rfl
  | cons entry rest ih =>
      rw [upsert_while_room]
      split
      · exact Nat.succ_le_succ (ih _)
      · exact Nat.zero_le _

/-- A run that is written whole has the effect of its upserts, which succeed. -/
theorem upsert_while_room_upserts (tier : Tier) {rid bid : Nat} {entries : List BulkEntry}
    (placed : ∀ entry ∈ entries, region_id_of entry.fp = rid ∧ bucket_id_of geo entry.fp = bid) :
    ((upsert_while_room geo bid entries (tier rid)).1 = entries.length ↔
        AllTrue (tier.upserts geo entries).1) ∧
      (AllTrue (tier.upserts geo entries).1 →
        (tier.upserts geo entries).2 =
          Function.update tier rid (upsert_while_room geo bid entries (tier rid)).2) := by
  induction entries generalizing tier with
  | nil => simp [Tier.upserts, upsert_while_room]
  | cons entry rest ih =>
      obtain ⟨rfl, rfl⟩ := placed entry List.mem_cons_self
      have called : tier.upsert geo entry.fp entry.key_id entry.off =
          (((upsert geo (bucket_id_of geo entry.fp) entry.key_id entry.off).run memSem
              (tier (region_id_of entry.fp))).1,
            Function.update tier (region_id_of entry.fp)
              ((upsert geo (bucket_id_of geo entry.fp) entry.key_id entry.off).run memSem
                (tier (region_id_of entry.fp))).2) := Tier.on_region_eq _ _ _
      rw [Tier.upserts_cons, called, upsert_while_room, allTrue_cons]
      generalize (upsert geo (bucket_id_of geo entry.fp) entry.key_id entry.off).run memSem
        (tier (region_id_of entry.fp)) = outcome
      obtain ⟨answer, after⟩ := outcome
      have later := @ih (Function.update tier (region_id_of entry.fp) after)
        (fun other member => placed other (List.mem_cons_of_mem _ member))
      rw [Function.update_self, update_region] at later
      rcases answer with _ | _ | _
      · simp
      · simp
      · simpa using later

theorem Tier.apply_runs_upserts (runs : List BucketRun)
    (placed : ∀ run ∈ runs, ∀ entry ∈ run.entries,
      region_id_of entry.fp = region_id_of run.first.fp ∧
        bucket_id_of geo entry.fp = bucket_id_of geo run.first.fp)
    (routed : ∀ run ∈ runs, ∀ entry ∈ run.entries, entry.fp = route entry.key_id)
    (sound : Sound geo route tier) :
    ∃ counts, (tier.apply_runs geo runs).1 = some counts ∧
      counts.sum ≤ (runs.map BucketRun.entries).flatten.length ∧
      (counts.sum = (runs.map BucketRun.entries).flatten.length ↔
        AllTrue (tier.upserts geo (runs.map BucketRun.entries).flatten).1) ∧
      (AllTrue (tier.upserts geo (runs.map BucketRun.entries).flatten).1 →
        (tier.apply_runs geo runs).2 =
          (tier.upserts geo (runs.map BucketRun.entries).flatten).2) := by
  induction runs generalizing tier with
  | nil => exact ⟨[], rfl, le_rfl, by simp [Tier.upserts], fun _ => rfl⟩
  | cons run rest ih =>
      have here := puts_of_prefix (placed run List.mem_cons_self) (routed run List.mem_cons_self)
        sound
      have whole := upsert_while_room_upserts tier (placed run List.mem_cons_self)
      have bound := upsert_while_room_le geo (bucket_id_of geo run.first.fp) run.entries
        (tier (region_id_of run.first.fp))
      obtain ⟨counts, answered, most, total, same⟩ :=
        ih (fun other member => placed other (List.mem_cons_of_mem _ member))
          (fun other member => routed other (List.mem_cons_of_mem _ member)) (here.sound sound)
      rw [Tier.apply_runs_cons (placed run List.mem_cons_self) (routed run List.mem_cons_self)
        sound rfl rfl]
      refine ⟨_ :: counts, congrArg (Option.map (_ :: ·)) answered, ?_, ?_, ?_⟩
      all_goals
        simp only [List.map_cons, List.flatten_cons, List.sum_cons, List.length_append,
          Tier.upserts_append, allTrue_append]
      · omega
      · constructor
        · intro sums
          have full : AllTrue (tier.upserts geo run.entries).1 := whole.1.mp (by omega)
          rw [whole.2 full]
          exact ⟨full, total.mp (by omega)⟩
        · rintro ⟨full, later⟩
          rw [whole.2 full] at later
          rw [whole.1.mpr full, total.mpr later]
      · rintro ⟨full, later⟩
        rw [whole.2 full] at later ⊢
        exact same later

/-- `bulk_upsert` returns the length of its list exactly when every `upsert` in
sorted order would succeed, and then it leaves the same tier. -/
theorem bulk_upsert_refines {db : Db} (reached : (calls geo route).Reachable db)
    {entries sorted : List BulkEntry} (call : BulkCall geo route entries sorted) :
    ((db.tier.bulk_upsert geo sorted).1 = some entries.length ↔
        ∀ answer ∈ (db.tier.upserts geo sorted).1, answer = some true) ∧
      ((db.tier.bulk_upsert geo sorted).1 = some entries.length →
        (db.tier.bulk_upsert geo sorted).2 = (db.tier.upserts geo sorted).2) := by
  have sound := (reachable_represents reached).sound
  obtain ⟨counts, answered, -, total, same⟩ := Tier.apply_runs_upserts
    (bucket_runs geo sorted)
    (fun run member entry inside => bucket_runs_place member inside)
    (fun run member entry inside => call.routed entry (call.routed_runs entry
      (List.mem_flatten.mpr ⟨run.entries, List.mem_map_of_mem member, inside⟩)))
    sound
  rw [bucket_runs_entries] at same total
  rw [call.sorted.perm.length_eq] at total
  have counted : (db.tier.bulk_upsert geo sorted).1 = some counts.sum := by
    rw [Tier.bulk_upsert, answered, Option.map_some]
  have equivalent : (db.tier.bulk_upsert geo sorted).1 = some entries.length ↔
      AllTrue (db.tier.upserts geo sorted).1 := by
    rw [counted, Option.some_inj]
    exact total
  exact ⟨equivalent, fun whole => same (equivalent.mp whole)⟩

theorem bulk_upsert_refines_pair :
    ((Tier.create.bulk_upsert (Geometry.create 1 1) [⟨5, 5, 9⟩, ⟨6, 6, 10⟩]).1 = some 2 ↔
        ∀ answer ∈ (Tier.create.upserts (Geometry.create 1 1) [⟨5, 5, 9⟩, ⟨6, 6, 10⟩]).1,
          answer = some true) ∧
      ((Tier.create.bulk_upsert (Geometry.create 1 1) [⟨5, 5, 9⟩, ⟨6, 6, 10⟩]).1 = some 2 →
        (Tier.create.bulk_upsert (Geometry.create 1 1) [⟨5, 5, 9⟩, ⟨6, 6, 10⟩]).2 =
          (Tier.create.upserts (Geometry.create 1 1) [⟨5, 5, 9⟩, ⟨6, 6, 10⟩]).2) :=
  have call : BulkCall (Geometry.create 1 1) id [⟨6, 6, 10⟩, ⟨5, 5, 9⟩]
      [⟨5, 5, 9⟩, ⟨6, 6, 10⟩] := by decide
  have created : (calls (Geometry.create 1 1) id).Reachable ⟨Tier.create, fun _ => none⟩ :=
    .start rfl
  bulk_upsert_refines created call

end Hiom.ColdTier
