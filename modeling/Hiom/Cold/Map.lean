import Hiom.Lib.Machine
import Hiom.Cold.Scan

/-!
The cold tier is a finite map. The machine makes calls one after the other and
keeps beside the tier what its callers were told: for each key the offset of
its last successful upsert, or that it was removed since.
-/

namespace Hiom.ColdTier

/-! ### Calls -/

/-- What callers pass to `bulk_upsert`, with the order its sort leaves. -/
structure BulkCall (geo : Geometry) (route : Nat → Nat) (entries sorted : List BulkEntry) :
    Prop where
  sorted : SortedFrom geo entries sorted
  distinct : (entries.map BulkEntry.key_id).Nodup
  offsets : ∀ entry ∈ entries, entry.off ≠ kTombstoneOffset
  routed : ∀ entry ∈ entries, entry.fp = route entry.key_id

instance (geo : Geometry) (entries sorted : List BulkEntry) :
    Decidable (SortedFrom geo entries sorted) :=
  decidable_of_iff
    (sorted.Perm entries ∧ sorted.Pairwise (fun a b => bulk_less geo b a = false))
    ⟨fun ⟨perm, ordered⟩ => ⟨perm, ordered⟩, fun from_entries => ⟨from_entries.1, from_entries.2⟩⟩

instance (geo : Geometry) (route : Nat → Nat) (entries sorted : List BulkEntry) :
    Decidable (BulkCall geo route entries sorted) :=
  decidable_of_iff
    (SortedFrom geo entries sorted ∧ (entries.map BulkEntry.key_id).Nodup ∧
      (∀ entry ∈ entries, entry.off ≠ kTombstoneOffset) ∧
      ∀ entry ∈ entries, entry.fp = route entry.key_id)
    ⟨fun ⟨sorted, distinct, offsets, routed⟩ => ⟨sorted, distinct, offsets, routed⟩,
      fun call => ⟨call.1, call.2, call.3, call.4⟩⟩

inductive Call where
  | upsert (key off : Nat)
  | bulk_upsert (entries sorted : List BulkEntry)
  | remove (key : Nat)

inductive Answer where
  | done (ok : Bool)
  | written (counts : List Nat)

def Call.Valid (geo : Geometry) (route : Nat → Nat) : Call → Prop
  | .upsert _ off => off ≠ kTombstoneOffset
  | .bulk_upsert entries sorted => BulkCall geo route entries sorted
  | .remove _ => True

instance (geo : Geometry) (route : Nat → Nat) (call : Call) : Decidable (call.Valid geo route) := by
  cases call <;> unfold Call.Valid <;> infer_instance

/-- A whole call. Its answer is `none` if a walk did not end. -/
def Call.code (geo : Geometry) (route : Nat → Nat) : Call → TierCode (Option Answer)
  | .upsert key off => do
      let ok ← (ColdTier.upsert geo (bucket_id_of geo (route key)) key off).on
        (region_id_of (route key))
      .ret (ok.map .done)
  | .bulk_upsert _ sorted => do
      let counts ← apply_runs geo (bucket_runs geo sorted)
      .ret (counts.map .written)
  | .remove key => do
      let ok ← (ColdTier.remove geo (bucket_id_of geo (route key)) key).on
        (region_id_of (route key))
      .ret (ok.map .done)

def record (last : Nat → Option (Option Nat)) (entry : BulkEntry) : Nat → Option (Option Nat) :=
  Function.update last entry.key_id (some (some entry.off))

/-- What the callers know of each key after a call: `none` if it was never
upserted, `some none` if it was removed since. -/
def Call.told (geo : Geometry) (route : Nat → Nat) (last : Nat → Option (Option Nat)) :
    Call → Answer → Nat → Option (Option Nat)
  | .upsert key off, .done true => record last ⟨route key, key, off⟩
  | .bulk_upsert _ sorted, .written counts =>
      (written_entries (bucket_runs geo sorted) counts).foldl record last
  | .remove key, .done true => Function.update last key (some none)
  | _, _ => last

structure Db where
  tier : Tier
  last : Nat → Option (Option Nat)

/-- A call and its answer. A walk that does not end would leave no next state. -/
def Db.call (geo : Geometry) (route : Nat → Nat) (db : Db) (call : Call) : Option Db :=
  if call.Valid geo route then
    match (call.code geo route).run tierSem db.tier with
    | (some answer, tier) => some ⟨tier, call.told geo route db.last answer⟩
    | (none, _) => none
  else none

def calls (geo : Geometry) (route : Nat → Nat) : Machine Db Call where
  initial := fun db => db = ⟨Tier.create, fun _ => none⟩
  step := Db.call geo route

/-! ### What the tier holds -/

variable {geo : Geometry} {route : Nat → Nat} {tier last : Tier}

def Contents (geo : Geometry) (route : Nat → Nat) (tier : Tier) (words : Nat → Option Nat) :
    Prop :=
  ∀ rid bid key, bid < geo.main_buckets_per_region →
    entry geo (tier rid) bid key =
      if rid = region_id_of (route key) ∧ bid = bucket_id_of geo (route key) then words key
      else none

def write_word (words : Nat → Option Nat) (entry : BulkEntry) : Nat → Option Nat :=
  Function.update words entry.key_id (some entry.off)

theorem Puts.contents {entries : List BulkEntry} (puts : Puts geo route entries tier last)
    (sound : Sound geo route tier) (routed : ∀ entry ∈ entries, entry.fp = route entry.key_id)
    {words : Nat → Option Nat} (contents : Contents geo route tier words) :
    Contents geo route last (entries.foldl write_word words) := by
  induction puts generalizing words with
  | nil => exact contents
  | @cons head rest tier last mem slot placed settled intact later ih =>
      refine ih (sound.update _ intact)
        (fun entry member => routed entry (List.mem_cons_of_mem _ member)) ?_
      have route_head := routed head List.mem_cons_self
      intro rid bid key main
      by_cases here : rid = region_id_of head.fp
      · subst here
        rw [Function.update_self, placed.entry (sound _).toShape (bucket_id_of_lt geo head.fp)
          (by rw [route_head]) main, contents _ _ _ main, write_word]
        by_cases same : key = head.key_id
        · subst same
          rw [Function.update_self, ← route_head]
          by_cases place : bid = bucket_id_of geo head.fp
          · simp [place]
          · simp [place]
        · rw [Function.update_of_ne same, if_neg (fun both => same both.2)]
      · rw [Function.update_of_ne here, contents _ _ _ main, write_word]
        by_cases same : key = head.key_id
        · subst same
          rw [← route_head, if_neg (fun both => here both.1), if_neg (fun both => here both.1)]
        · rw [Function.update_of_ne same]

theorem Puts.room {entries : List BulkEntry} (puts : Puts geo route entries tier last)
    (room : ∀ rid, tier rid .next_overflow_alloc ≤ geo.overflow_slots_per_region) (rid : Nat) :
    last rid .next_overflow_alloc ≤ geo.overflow_slots_per_region := by
  induction puts with
  | nil => exact room rid
  | @cons head rest tier last mem slot placed settled intact later ih =>
      refine ih (fun other => ?_)
      by_cases here : other = region_id_of head.fp
      · subst here
        rw [Function.update_self]
        exact settled.room (room _)
      · rw [Function.update_of_ne here]
        exact room other

theorem Puts.rooted {entries : List BulkEntry} (puts : Puts geo route entries tier last)
    (rooted : ∀ rid, Rooted geo (tier rid)) : ∀ rid, Rooted geo (last rid) := by
  induction puts with
  | nil => exact rooted
  | @cons head rest tier last mem slot placed settled intact later ih =>
      refine ih (fun rid => ?_)
      by_cases here : rid = region_id_of head.fp
      · subst here
        rw [Function.update_self]
        exact settled.rooted (rooted _) placed.links (bucket_id_of_lt geo head.fp)
      · rw [Function.update_of_ne here]
        exact rooted rid

def word_of (told : Option Nat) : Nat := told.getD kTombstoneOffset

structure Represents (geo : Geometry) (route : Nat → Nat) (db : Db) : Prop where
  sound : Sound geo route db.tier
  rooted : ∀ rid, Rooted geo (db.tier rid)
  room : ∀ rid, db.tier rid .next_overflow_alloc ≤ geo.overflow_slots_per_region
  contents : Contents geo route db.tier (fun key => (db.last key).map word_of)
  offsets : ∀ key, db.last key ≠ some (some kTombstoneOffset)

theorem created_intact (geo : Geometry) (bid_of : Nat → Nat) : Intact geo bid_of (fun _ => 0) := by
  have hidden : ∀ slot : Slot, published (fun _ => 0) slot = false := fun slot =>
    slot_published_zero slot.idx
  have unlinked : ∀ bucket, link (fun _ => 0) bucket = 0 := fun bucket =>
    next_overflow_idx_zero
  exact {
    bounded := fun bucket => (unlinked bucket).trans_le (Nat.zero_le _)
    forward := fun idx linked => absurd (unlinked _) linked
    injective := fun first second linked => absurd (unlinked _) linked
    routed := fun bid slot _ _ visible => by rw [hidden] at visible; cases visible
    unique := fun bid first second _ _ _ visible => by rw [hidden] at visible; cases visible
    links := fun bucket => (unlinked bucket).le
    fresh := fun idx _ => rfl }

theorem created_represents (geo : Geometry) (route : Nat → Nat) :
    Represents geo route ⟨Tier.create, fun _ => none⟩ where
  sound := fun _ => created_intact geo _
  rooted := fun _ _ used => absurd rfl used
  room := fun _ => Nat.zero_le _
  contents := by
    intro rid bid key main
    have absent : entry geo (Tier.create rid) bid key = none := by
      rw [entry_eq_none]
      intro slot member visible
      rw [published, Tier.create, slot_published_zero] at visible
      cases visible
    rw [absent]
    simp
  offsets := fun key told => by cases told

theorem record_words (told : Nat → Option (Option Nat)) (entry : BulkEntry) :
    (fun key => (record told entry key).map word_of) =
      write_word (fun key => (told key).map word_of) entry := by
  funext key
  by_cases same : key = entry.key_id
  · subst same
    simp [record, write_word, word_of]
  · simp [record, write_word, same]

theorem fold_record_words (entries : List BulkEntry) (told : Nat → Option (Option Nat)) :
    (fun key => (entries.foldl record told key).map word_of) =
      entries.foldl write_word (fun key => (told key).map word_of) := by
  induction entries generalizing told with
  | nil => rfl
  | cons entry rest ih =>
      rw [List.foldl_cons, List.foldl_cons, ih, record_words]

theorem fold_record_offsets (entries : List BulkEntry) {told : Nat → Option (Option Nat)}
    (valid : ∀ entry ∈ entries, entry.off ≠ kTombstoneOffset)
    (offsets : ∀ key, told key ≠ some (some kTombstoneOffset)) (key : Nat) :
    entries.foldl record told key ≠ some (some kTombstoneOffset) := by
  induction entries generalizing told with
  | nil => exact offsets key
  | cons entry rest ih =>
      refine ih (fun other member => valid other (List.mem_cons_of_mem _ member)) ?_
      intro other
      by_cases same : other = entry.key_id
      · subst same
        simpa [record] using valid entry List.mem_cons_self
      · simpa [record, same] using offsets other

theorem written_entries_mem {runs : List BucketRun} {counts : List Nat} {entry : BulkEntry}
    (member : entry ∈ written_entries runs counts) :
    entry ∈ (runs.map BucketRun.entries).flatten := by
  induction runs generalizing counts with
  | nil => simp [written_entries] at member
  | cons run rest ih =>
      cases counts with
      | nil => simp [written_entries] at member
      | cons count counts =>
          simp only [written_entries, List.zipWith_cons_cons, List.flatten_cons,
            List.mem_append] at member
          simp only [List.map_cons, List.flatten_cons, List.mem_append]
          rcases member with inside | later
          · exact .inl (List.mem_of_mem_take inside)
          · exact .inr (ih later)

theorem Represents.puts {db : Db} (represents : Represents geo route db)
    {entries : List BulkEntry} (puts : Puts geo route entries db.tier tier)
    (routed : ∀ entry ∈ entries, entry.fp = route entry.key_id)
    {told : Nat → Option (Option Nat)} (offsets : ∀ key, told key ≠ some (some kTombstoneOffset))
    (words : (fun key => (told key).map word_of) =
      entries.foldl write_word (fun key => (db.last key).map word_of)) :
    Represents geo route ⟨tier, told⟩ where
  sound := puts.sound represents.sound
  rooted := puts.rooted represents.rooted
  room := puts.room represents.room
  contents := by
    change Contents geo route tier (fun key => (told key).map word_of)
    rw [words]
    exact puts.contents represents.sound routed represents.contents
  offsets := offsets

theorem BulkCall.routed_runs {entries sorted : List BulkEntry}
    (call : BulkCall geo route entries sorted) :
    ∀ entry ∈ ((bucket_runs geo sorted).map BucketRun.entries).flatten,
      entry ∈ entries := by
  intro entry member
  rw [bucket_runs_entries] at member
  exact call.sorted.perm.mem_iff.mp member

/-- A bulk call returns. -/
theorem BulkCall.puts {entries sorted : List BulkEntry} (call : BulkCall geo route entries sorted)
    (sound : Sound geo route tier) :
    ∃ counts, (tier.apply_runs geo (bucket_runs geo sorted)).1 = some counts ∧
      Puts geo route (written_entries (bucket_runs geo sorted) counts) tier
        (tier.apply_runs geo (bucket_runs geo sorted)).2 := by
  refine tier.apply_runs_puts (fun run member entry inside => bucket_runs_place member inside)
    (fun run member entry inside => call.routed entry (call.routed_runs entry ?_)) sound
  exact List.mem_flatten.mpr ⟨run.entries, List.mem_map_of_mem member, inside⟩

theorem Call.run_upsert (tier : Tier) (key off : Nat) :
    ((Call.upsert key off).code geo route).run tierSem tier =
      ((tier.upsert geo (route key) key off).1.map .done,
        (tier.upsert geo (route key) key off).2) := by
  rw [Call.code, Prog.run_bind]
  rfl

theorem Call.run_remove (tier : Tier) (key : Nat) :
    ((Call.remove key).code geo route).run tierSem tier =
      ((tier.remove geo (route key) key).1.map .done,
        (tier.remove geo (route key) key).2) := by
  rw [Call.code, Prog.run_bind]
  rfl

theorem Call.run_bulk_upsert (tier : Tier) (entries sorted : List BulkEntry) :
    ((Call.bulk_upsert entries sorted).code geo route).run tierSem tier =
      ((tier.apply_runs geo (bucket_runs geo sorted)).1.map .written,
        (tier.apply_runs geo (bucket_runs geo sorted)).2) := by
  rw [Call.code, Prog.run_bind]
  rfl

/-- What a call answers, and which entries it has placed by then. -/
theorem Call.outcome {call : Call} (valid : call.Valid geo route) (sound : Sound geo route tier)
    (told : Nat → Option (Option Nat)) :
    ∃ answer entries,
      ((call.code geo route).run tierSem tier).1 = some answer ∧
      Puts geo route entries tier ((call.code geo route).run tierSem tier).2 ∧
      (∀ entry ∈ entries, entry.fp = route entry.key_id) ∧
      (fun key => (call.told geo route told answer key).map word_of) =
        entries.foldl write_word (fun key => (told key).map word_of) ∧
      ((∀ key, told key ≠ some (some kTombstoneOffset)) →
        ∀ key, call.told geo route told answer key ≠ some (some kTombstoneOffset)) := by
  cases call with
  | upsert key off =>
      rw [Call.run_upsert]
      have result := Tier.upsert_result sound key off
      revert result
      generalize tier.upsert geo (route key) key off = outcome
      intro result
      cases result with
      | placed puts =>
          refine ⟨.done true, [⟨route key, key, off⟩], rfl, puts, fun entry member => ?_,
            record_words told _, fun offsets => ?_⟩
          · cases List.mem_singleton.mp member
            rfl
          · exact fold_record_offsets [⟨route key, key, off⟩]
              (fun entry member => List.mem_singleton.mp member ▸ valid) offsets
      | full => exact ⟨.done false, [], rfl, .nil, by simp, rfl, fun offsets => offsets⟩
  | bulk_upsert entries sorted =>
      rw [Call.run_bulk_upsert]
      obtain ⟨counts, answered, puts⟩ := BulkCall.puts valid sound
      have members : ∀ entry ∈ written_entries (bucket_runs geo sorted) counts,
          entry ∈ entries := fun entry member =>
        BulkCall.routed_runs valid entry (written_entries_mem member)
      refine ⟨.written counts, written_entries (bucket_runs geo sorted) counts, ?_, puts,
        fun entry member => valid.routed entry (members entry member), fold_record_words _ _,
        fun offsets => fold_record_offsets _
          (fun entry member => valid.offsets entry (members entry member)) offsets⟩
      rw [answered]
      rfl
  | remove key =>
      rw [Call.run_remove]
      have result := Tier.remove_result sound key
      revert result
      generalize tier.remove geo (route key) key = outcome
      intro result
      cases result with
      | tombstone puts present =>
          refine ⟨.done true, [⟨route key, key, kTombstoneOffset⟩], rfl, puts,
            fun entry member => ?_, ?_, fun offsets other => ?_⟩
          · cases List.mem_singleton.mp member
            rfl
          · funext other
            by_cases same : other = key
            · simp [Call.told, write_word, word_of, same]
            · simp [Call.told, write_word, same]
          · by_cases same : other = key
            · simp [Call.told, same]
            · simpa [Call.told, same] using offsets other
      | absent => exact ⟨.done false, [], rfl, .nil, by simp, rfl, fun offsets => offsets⟩

theorem represents_step {db after : Db} {made : Call} (represents : Represents geo route db)
    (stepped : db.call geo route made = some after) : Represents geo route after := by
  simp only [Db.call] at stepped
  split at stepped
  · rename_i valid
    obtain ⟨answer, entries, answered, puts, routed, words, offsets⟩ :=
      Call.outcome valid represents.sound db.last
    revert stepped answered puts
    generalize (made.code geo route).run tierSem db.tier = outcome
    obtain ⟨told, tier⟩ := outcome
    rintro stepped rfl puts
    cases stepped
    exact represents.puts puts routed (offsets represents.offsets) words
  · cases stepped

theorem reachable_represents {db : Db} (reached : (calls geo route).Reachable db) :
    Represents geo route db := by
  refine reached.invariant ?_ ?_
  · rintro _ rfl
    exact created_represents geo route
  · intro state made next represents _ stepped
    exact represents_step represents stepped

/-! ### The laws of a finite map -/

def Unpublished (mem : Mem) (key : Nat) : Prop :=
  ∀ slot, published mem slot = true → key_at mem slot ≠ key

structure Full (geo : Geometry) (mem : Mem) (bid key : Nat) : Prop where
  unpublished : Unpublished mem key
  occupied : ∀ slot, slot.bucket ∈ chain geo mem bid → published mem slot = true
  exhausted : mem .next_overflow_alloc = geo.overflow_slots_per_region

structure FiniteMap (geo : Geometry) (route : Nat → Nat) (db : Db) : Prop where
  links : ∀ rid bucket, link (db.tier rid) bucket ≠ 0 →
    1 ≤ link (db.tier rid) bucket ∧
      link (db.tier rid) bucket ≤ db.tier rid .next_overflow_alloc
  room : ∀ rid, db.tier rid .next_overflow_alloc ≤ geo.overflow_slots_per_region
  acyclic : ∀ rid bid, bid < geo.main_buckets_per_region →
    Ends geo (db.tier rid) geo.budget bid ∧ (chain geo (db.tier rid) bid).Nodup
  disjoint : ∀ rid first second, first < geo.main_buckets_per_region →
    second < geo.main_buckets_per_region → first ≠ second →
      List.Disjoint (chain geo (db.tier rid) first) (chain geo (db.tier rid) second)
  published_once : ∀ rid first second, published (db.tier rid) first = true →
    published (db.tier rid) second = true →
      key_at (db.tier rid) first = key_at (db.tier rid) second → first = second
  lookup : ∀ key, db.tier.lookup geo (route key) key = some (db.last key).join
  remove : ∀ key, (db.tier.remove geo (route key) key).1 = some (db.last key).isSome
  upsert : ∀ key off, ∃ ok, (db.tier.upsert geo (route key) key off).1 = some ok ∧
    (ok = false ↔
      Full geo (db.tier (region_id_of (route key))) (bucket_id_of geo (route key)) key) ∧
    (ok = false → (db.tier.upsert geo (route key) key off).2 = db.tier)
  bulk_upsert : ∀ entries sorted, BulkCall geo route entries sorted →
    (db.tier.bulk_upsert geo sorted).1 ≠ none
  parallel_load : ∀ num_threads, ∃ visits : List (List (Nat × Nat)),
    db.tier.parallel_load geo num_threads = visits.map some ∧
      (visits.flatten.map Prod.fst).Nodup ∧
        ∀ key off, (key, off) ∈ visits.flatten ↔ db.last key = some (some off)

namespace Represents

variable {db : Db} (represents : Represents geo route db)
include represents

theorem slot_rooted {rid : Nat} {slot : Slot} (visible : published (db.tier rid) slot = true) :
    ∃ bid < geo.main_buckets_per_region, slot.bucket ∈ chain geo (db.tier rid) bid := by
  refine represents.rooted rid slot.bucket (fun empty => ?_)
  rw [published, empty, slot_published_zero] at visible
  cases visible

/-- A published key sits in the region and on the chain that it routes to. -/
theorem slot_place {rid bid : Nat} {slot : Slot} (main : bid < geo.main_buckets_per_region)
    (member : slot.bucket ∈ chain geo (db.tier rid) bid)
    (visible : published (db.tier rid) slot = true) :
    rid = region_id_of (route (key_at (db.tier rid) slot)) ∧
      bid = bucket_id_of geo (route (key_at (db.tier rid) slot)) := by
  have present := (represents.sound rid).entry_of_slot main member visible rfl
  rw [represents.contents rid bid _ main] at present
  split at present
  · rename_i place
    exact place
  · cases present

theorem entry_eq (key : Nat) :
    entry geo (db.tier (region_id_of (route key))) (bucket_id_of geo (route key)) key =
      (db.last key).map word_of := by
  rw [represents.contents _ _ _ (bucket_id_of_lt geo (route key)), if_pos ⟨rfl, rfl⟩]

theorem published_once {rid : Nat} {first second : Slot}
    (visible_first : published (db.tier rid) first = true)
    (visible_second : published (db.tier rid) second = true)
    (same : key_at (db.tier rid) first = key_at (db.tier rid) second) : first = second := by
  obtain ⟨bid, main, member⟩ := represents.slot_rooted visible_first
  obtain ⟨bid', main', member'⟩ := represents.slot_rooted visible_second
  have place := (represents.slot_place main member visible_first).2
  have place' := (represents.slot_place main' member' visible_second).2
  rw [← same, ← place] at place'
  subst place'
  exact (represents.sound rid).unique _ first second main member member' visible_first
    visible_second same

theorem unpublished_iff (key : Nat) :
    Unpublished (db.tier (region_id_of (route key))) key ↔
      entry geo (db.tier (region_id_of (route key))) (bucket_id_of geo (route key)) key = none := by
  rw [entry_eq_none]
  constructor
  · exact fun absent slot _ visible => absent slot visible
  · intro absent slot visible same
    obtain ⟨bid, main, member⟩ := represents.slot_rooted visible
    have place := (represents.slot_place main member visible).2
    rw [same] at place
    exact absent slot (place ▸ member) visible same

theorem lookup (key : Nat) :
    db.tier.lookup geo (route key) key = some (db.last key).join := by
  rw [Tier.lookup_eq represents.sound, represents.entry_eq]
  have valid := represents.offsets key
  rcases told : db.last key with _ | _ | off
  · rfl
  · simp [word_of, Option.filter_some]
  · have live : off ≠ kTombstoneOffset := fun same => valid (told.trans (by rw [same]))
    simp [word_of, Option.filter_some, live]

theorem remove (key : Nat) :
    (db.tier.remove geo (route key) key).1 = some (db.last key).isSome := by
  have result := Tier.remove_result represents.sound key
  have told := represents.entry_eq key
  revert result
  generalize db.tier.remove geo (route key) key = outcome
  intro result
  cases result with
  | tombstone _ present =>
      rw [told] at present
      cases last : db.last key with
      | none => simp [last] at present
      | some answer => rfl
  | absent absent =>
      rw [told, Option.map_eq_none_iff] at absent
      rw [absent]
      rfl

theorem upsert (key off : Nat) :
    ∃ ok, (db.tier.upsert geo (route key) key off).1 = some ok ∧
      (ok = false ↔
        Full geo (db.tier (region_id_of (route key))) (bucket_id_of geo (route key)) key) ∧
      (ok = false → (db.tier.upsert geo (route key) key off).2 = db.tier) := by
  have intact := represents.sound (region_id_of (route key))
  by_cases full :
      Full geo (db.tier (region_id_of (route key))) (bucket_id_of geo (route key)) key
  · have spent := upserted_full off
      (entry_eq_none.mp ((represents.unpublished_iff key).mp full.unpublished)) full.occupied
      full.exhausted.ge
    refine ⟨false, ?_, ⟨fun _ => full, fun _ => rfl⟩, fun _ => ?_⟩
    · rw [Tier.upsert, Tier.on_region_eq, upsert_run key off (intact.ends _), spent]
    · rw [Tier.upsert, Tier.on_region_eq, upsert_run key off (intact.ends _), spent,
        update_region_self]
  · have result := Tier.upsert_result represents.sound key off
    revert result
    generalize db.tier.upsert geo (route key) key off = outcome
    intro result
    cases result with
    | placed => exact ⟨true, rfl, by simpa using full, by simp⟩
    | full absent occupied spent =>
        exact absurd ⟨(represents.unpublished_iff key).mpr absent, occupied,
          (represents.room _).antisymm spent⟩ full

theorem visit_region {rid key off : Nat}
    (member : (key, off) ∈ region_entries geo (db.tier rid)) :
    rid = region_id_of (route key) := by
  obtain ⟨bid, inside, visited⟩ := List.mem_flatMap.mp member
  obtain ⟨slot, on_chain, visible, -, rfl, -⟩ := mem_chain_entries.mp visited
  exact (represents.slot_place (List.mem_range.mp inside) on_chain visible).1

theorem visit_iff {key off : Nat} :
    (key, off) ∈ (List.range kNumRegions).flatMap (fun rid => region_entries geo (db.tier rid)) ↔
      db.last key = some (some off) := by
  have told := represents.entry_eq key
  have member := (represents.sound (region_id_of (route key))).mem_region_entries off
    (bucket_id_of_lt geo (route key))
  rw [told] at member
  have valid := represents.offsets key
  have decoded : ((db.last key).map word_of = some off ∧ off ≠ kTombstoneOffset) ↔
      db.last key = some (some off) := by
    rcases last : db.last key with _ | _ | other
    · simp
    · simp only [Option.map_some, word_of, Option.getD_none, Option.some.injEq, reduceCtorEq,
        iff_false, not_and, not_not]
      exact fun same => same.symm
    · simp only [Option.map_some, word_of, Option.getD_some, Option.some.injEq]
      exact ⟨fun both => both.1, fun same => ⟨same, fun gone => valid (by rw [last, same, gone])⟩⟩
  rw [← decoded, ← member, List.mem_flatMap]
  constructor
  · rintro ⟨rid, -, visited⟩
    exact represents.visit_region visited ▸ visited
  · exact fun visited => ⟨_, List.mem_range.mpr (region_id_of_lt _), visited⟩

theorem parallel_load (num_threads : Nat) :
    ∃ visits : List (List (Nat × Nat)),
      db.tier.parallel_load geo num_threads = visits.map some ∧
        (visits.flatten.map Prod.fst).Nodup ∧
          ∀ key off, (key, off) ∈ visits.flatten ↔ db.last key = some (some off) := by
  obtain ⟨visits, answered, perm⟩ := Tier.parallel_load_visits
    (fun rid => (represents.sound rid).toLinks) num_threads
  refine ⟨visits, answered, ?_, ?_⟩
  · rw [(perm.map Prod.fst).nodup_iff, List.map_flatMap, List.nodup_flatMap]
    refine ⟨fun rid _ => (represents.sound rid).nodup_region_entries, ?_⟩
    refine List.nodup_range.imp (fun {first second} different => ?_)
    intro key visit_first visit_second
    obtain ⟨⟨_, off⟩, member, rfl⟩ := List.mem_map.mp visit_first
    obtain ⟨⟨_, off'⟩, member', rfl⟩ := List.mem_map.mp visit_second
    exact different ((represents.visit_region member).trans
      (represents.visit_region member').symm)
  · intro key off
    rw [perm.mem_iff, represents.visit_iff]

end Represents

theorem cold_tier_finite_map {db : Db} (reached : (calls geo route).Reachable db) :
    FiniteMap geo route db := by
  have represents := reachable_represents reached
  exact {
    links := fun rid bucket linked =>
      ⟨Nat.pos_of_ne_zero linked, (represents.sound rid).links bucket⟩
    room := represents.room
    acyclic := fun rid bid main =>
      ⟨(represents.sound rid).ends bid, (represents.sound rid).nodup main⟩
    disjoint := fun rid first second main_first main_second different bucket on_first on_second =>
      different ((represents.sound rid).disjoint main_first main_second on_first on_second)
    published_once := fun rid first second => represents.published_once
    lookup := represents.lookup
    remove := represents.remove
    upsert := represents.upsert
    bulk_upsert := by
      intro entries sorted call
      obtain ⟨counts, answered, -⟩ := call.puts represents.sound
      simp [Tier.bulk_upsert, answered]
    parallel_load := represents.parallel_load }

theorem finite_map_after_calls :
    ∃ db, (calls (Geometry.create 1 1) id).run ⟨Tier.create, fun _ => none⟩
        [.upsert 5 9, .upsert 6 10, .remove 5] = some db ∧
      FiniteMap (Geometry.create 1 1) id db := by
  have ran : ((calls (Geometry.create 1 1) id).run ⟨Tier.create, fun _ => none⟩
      [.upsert 5 9, .upsert 6 10, .remove 5]).isSome = true := by decide
  obtain ⟨db, same⟩ := Option.isSome_iff_exists.mp ran
  exact ⟨db, same, cold_tier_finite_map (.run (.start rfl) same)⟩

end Hiom.ColdTier
