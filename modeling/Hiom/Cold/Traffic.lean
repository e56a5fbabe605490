import Hiom.Lib.Machine
import Hiom.Cold.Map
import Hiom.Cold.Readers

/-!
Lookups and writers interleaved access by access: one writer at a time in each
region, any number of lookups anywhere.
-/

namespace Hiom.ColdTier

/-- What a writer does to one region while it holds the region's mutex.
`bulk_upsert` enters each region of its batch in turn and applies the bucket
runs of that region. -/
inductive Section where
  | upsert (key off : Nat)
  | remove (key : Nat)
  | bulk_upsert (rid : Nat) (runs : List BucketRun)

def apply_bucket_runs (geo : Geometry) : List BucketRun → Code Unit
  | [] => .ret ()
  | run :: rest => do
      let _ ← apply_bucket_group geo (bucket_id_of geo run.first.fp) run.entries
      apply_bucket_runs geo rest

def Section.region (route : Nat → Nat) : Section → Nat
  | .upsert key _ => region_id_of (route key)
  | .remove key => region_id_of (route key)
  | .bulk_upsert rid _ => rid

def Section.code (geo : Geometry) (route : Nat → Nat) : Section → Code Unit
  | .upsert key off => do
      let _ ← ColdTier.upsert geo (bucket_id_of geo (route key)) key off
  | .remove key => do
      let _ ← ColdTier.remove geo (bucket_id_of geo (route key)) key
  | .bulk_upsert _ runs => apply_bucket_runs geo runs

def Section.valid (geo : Geometry) (route : Nat → Nat) : Section → Prop
  | .upsert _ off => off ≠ kTombstoneOffset
  | .remove _ => True
  | .bulk_upsert rid runs =>
      ∀ run ∈ runs, ∀ entry ∈ run.entries, entry.off ≠ kTombstoneOffset ∧
        entry.fp = route entry.key_id ∧ region_id_of entry.fp = rid ∧
          bucket_id_of geo entry.fp = bucket_id_of geo run.first.fp

instance (geo : Geometry) (route : Nat → Nat) (work : Section) :
    Decidable (work.valid geo route) := by
  cases work <;> unfold Section.valid <;> infer_instance

/-- `seen` are the mappings of the key since the lookup started. -/
structure Reader where
  key : Nat
  code : Code (Option (Option Nat))
  seen : List (Option Nat)

structure Traffic where
  tier : Tier
  writer : Nat → Option (Code Unit)
  readers : Nat → Option Reader

inductive Event where
  | lock (work : Section)
  | write (rid : Nat)
  | unlock (rid : Nat)
  | start_lookup (id key : Nat)
  | read (id : Nat)
  | end_lookup (id : Nat)

def Traffic.observe (geo : Geometry) (route : Nat → Nat) (traffic : Traffic) : Traffic :=
  { traffic with
    readers := fun id =>
      (traffic.readers id).map (fun reader =>
        { reader with
          seen := mapped geo (traffic.tier (region_id_of (route reader.key)))
            (bucket_id_of geo (route reader.key)) reader.key :: reader.seen }) }

def Traffic.event (geo : Geometry) (route : Nat → Nat) (traffic : Traffic) :
    Event → Option Traffic
  | .lock work =>
      if work.valid geo route then
        match traffic.writer (work.region route) with
        | none =>
            some { traffic with
              writer := Function.update traffic.writer (work.region route)
                (some (work.code geo route)) }
        | some _ => none
      else none
  | .write rid => do
      let code ← traffic.writer rid
      let (rest, mem) ← code.advance memSem (traffic.tier rid)
      some { traffic with
        tier := Function.update traffic.tier rid mem
        writer := Function.update traffic.writer rid (some rest) }
  | .unlock rid =>
      match traffic.writer rid with
      | some (.ret ()) => some { traffic with writer := Function.update traffic.writer rid none }
      | _ => none
  | .start_lookup id key =>
      match traffic.readers id with
      | none =>
          some { traffic with
            readers := Function.update traffic.readers id
              (some ⟨key, ColdTier.lookup geo (bucket_id_of geo (route key)) key, []⟩) }
      | some _ => none
  | .read id => do
      let reader ← traffic.readers id
      let rid := region_id_of (route reader.key)
      let (rest, mem) ← reader.code.advance memSem (traffic.tier rid)
      some { traffic with
        tier := Function.update traffic.tier rid mem
        readers := Function.update traffic.readers id (some { reader with code := rest }) }
  | .end_lookup id =>
      match traffic.readers id with
      | some ⟨_, .ret _, _⟩ =>
          some { traffic with readers := Function.update traffic.readers id none }
      | _ => none

def traffic (geo : Geometry) (route : Nat → Nat) : Machine Traffic Event where
  initial := fun start => start = ⟨Tier.create, fun _ => none, fun _ => none⟩
  step := fun now event => (now.event geo route event).map (Traffic.observe geo route)

/-! ### What holds between any two accesses -/

variable {geo : Geometry} {route : Nat → Nat}

theorem apply_bucket_runs_guarded {runs : List BucketRun} {mem : Mem}
    (valid : ∀ run ∈ runs, ∀ entry ∈ run.entries,
      bucket_id_of geo (route entry.key_id) = bucket_id_of geo run.first.fp)
    (intact : Intact geo (fun key => bucket_id_of geo (route key)) mem) :
    (apply_bucket_runs geo runs).Guarded memSem Extends mem ∧
      Intact geo (fun key => bucket_id_of geo (route key))
        ((apply_bucket_runs geo runs).run memSem mem).2 := by
  induction runs generalizing mem with
  | nil => exact ⟨trivial, intact⟩
  | cons run rest ih =>
      have main := bucket_id_of_lt geo run.first.fp
      have here := valid run List.mem_cons_self
      rw [apply_bucket_runs, Prog.guarded_bind, Prog.run_bind,
        apply_bucket_group_run main here intact]
      obtain ⟨guarded, intact'⟩ := ih (fun other member => valid other
        (List.mem_cons_of_mem _ member)) (upsert_while_room_intact main here intact)
      exact ⟨⟨apply_bucket_group_guarded main here intact, guarded⟩, intact'⟩

/-- Under its mutex a writer grows the region step by step and leaves it
intact. -/
theorem Section.code_guarded {work : Section} {mem : Mem} (valid : work.valid geo route)
    (intact : Intact geo (fun key => bucket_id_of geo (route key)) mem) :
    (work.code geo route).Guarded memSem Extends mem ∧
      Intact geo (fun key => bucket_id_of geo (route key))
        ((work.code geo route).run memSem mem).2 := by
  cases work with
  | upsert key off =>
      have main := bucket_id_of_lt geo (route key)
      rw [Section.code, Prog.guarded_bind, Prog.run_bind]
      exact ⟨⟨upsert_guarded off intact main, trivial⟩, upsert_intact off intact main rfl⟩
  | remove key =>
      rw [Section.code, Prog.guarded_bind, Prog.run_bind]
      exact ⟨⟨remove_guarded intact, trivial⟩,
        remove_intact intact (bucket_id_of_lt geo (route key)) rfl⟩
  | bulk_upsert rid runs =>
      refine apply_bucket_runs_guarded (fun run member entry inside => ?_) intact
      obtain ⟨-, routed, -, bucket⟩ := valid run member entry inside
      rw [← routed, bucket]

/-- A region at rest is intact. A region with a writer has the rest of its
code ahead, every access of which lets it grow. -/
def Held (geo : Geometry) (route : Nat → Nat) (mem : Mem) : Option (Code Unit) → Prop
  | none => Intact geo (fun key => bucket_id_of geo (route key)) mem
  | some code =>
      code.Guarded memSem Extends mem ∧
        Intact geo (fun key => bucket_id_of geo (route key)) (code.run memSem mem).2

theorem Held.shape {mem : Mem} {writer : Option (Code Unit)} (held : Held geo route mem writer) :
    Shape geo (fun key => bucket_id_of geo (route key)) mem := by
  cases writer with
  | none => exact held.toShape
  | some code =>
      refine held.2.toShape.of_grows ?_
      exact held.1.run_preserves (motive := Grows mem)
        (fun state access grown extends_ => grown.trans extends_) (Grows.refl mem)

abbrev KeyView (geo : Geometry) (route : Nat → Nat) (key : Nat) : Type :=
  View geo (fun key => bucket_id_of geo (route key)) (bucket_id_of geo (route key)) key

/-- From any view of the present memory that remembers what the lookup has
seen, the lookup goes on to return a mapping that it will have seen. -/
structure Follows (geo : Geometry) (route : Nat → Nat) (tier : Tier) (reader : Reader) :
    Prop where
  only : reader.code.Only IsLoad
  under : ∀ view : KeyView geo route reader.key,
    view.mem = tier (region_id_of (route reader.key)) → reader.seen ⊆ view.seen →
      reader.code.Under viewSem View.Moves
        (fun answer last => ∃ off, answer = some off ∧ off ∈ last.seen) view

structure Consistent (geo : Geometry) (route : Nat → Nat) (now : Traffic) : Prop where
  held : ∀ rid, Held geo route (now.tier rid) (now.writer rid)
  follows : ∀ id reader, now.readers id = some reader → Follows geo route now.tier reader
  current : ∀ id reader, now.readers id = some reader →
    mapped geo (now.tier (region_id_of (route reader.key))) (bucket_id_of geo (route reader.key))
      reader.key ∈ reader.seen

structure Moved (geo : Geometry) (route : Nat → Nat) (now next : Traffic) : Prop where
  grows : ∀ rid, Grows (now.tier rid) (next.tier rid)
  held : ∀ rid, Held geo route (next.tier rid) (next.writer rid)
  follows : ∀ id reader, next.readers id = some reader → Follows geo route next.tier reader

theorem grows_update {tier : Tier} {rid : Nat} {mem : Mem} (grows : Grows (tier rid) mem)
    (other : Nat) : Grows (tier other) (Function.update tier rid mem other) := by
  by_cases here : other = rid
  · subst here
    simpa using grows
  · rw [Function.update_of_ne here]
    exact Grows.refl _

theorem load_unchanged (mem : Mem) (access : Access) (load : IsLoad access) :
    (memSem access mem).2 = mem := by
  cases access <;> first | rfl | cases load

section Steps

variable {now next : Traffic} (consistent : Consistent geo route now)
include consistent

def Consistent.view {id : Nat} {reader : Reader} (active : now.readers id = some reader) :
    KeyView geo route reader.key where
  mem := now.tier (region_id_of (route reader.key))
  seen := reader.seen
  shape := (consistent.held _).shape
  current := consistent.current id reader active

/-- A lookup that is not stepped follows every growth of its region. -/
theorem Consistent.follows_growth {id : Nat} {reader : Reader}
    (active : now.readers id = some reader)
    (grows : ∀ rid, Grows (now.tier rid) (next.tier rid)) :
    Follows geo route next.tier reader where
  only := (consistent.follows id reader active).only
  under := by
    intro view same seen
    have under := (consistent.follows id reader active).under (consistent.view active) rfl
      (fun _ member => member)
    exact under.stable View.Moves.trans ⟨same ▸ grows _, seen⟩

theorem Consistent.held_update (rid : Nat) {mem : Mem} (writer : Option (Code Unit))
    (held : Held geo route mem writer) (other : Nat) :
    Held geo route (Function.update now.tier rid mem other)
      (Function.update now.writer rid writer other) := by
  by_cases here : other = rid
  · subst here
    simpa using held
  · simpa [Function.update_of_ne here] using consistent.held other

theorem Consistent.lock {work : Section}
    (stepped : now.event geo route (.lock work) = some next) : Moved geo route now next := by
  simp only [Traffic.event] at stepped
  split at stepped
  · rename_i valid
    split at stepped
    · rename_i free
      cases stepped
      have grows : ∀ rid, Grows (now.tier rid) (now.tier rid) := fun rid => Grows.refl _
      have idle := consistent.held (work.region route)
      rw [free] at idle
      have started := consistent.held_update (work.region route)
        (some (work.code geo route)) (Section.code_guarded valid idle)
      rw [Function.update_eq_self] at started
      exact ⟨grows, started, fun id reader active => consistent.follows_growth active grows⟩
    · cases stepped
  · cases stepped

theorem Consistent.write {rid : Nat}
    (stepped : now.event geo route (.write rid) = some next) : Moved geo route now next := by
  simp only [Traffic.event, Option.bind_eq_bind, Option.bind_eq_some_iff] at stepped
  obtain ⟨code, busy, ⟨rest, mem⟩, advanced, same⟩ := stepped
  cases same
  have held := consistent.held rid
  rw [busy] at held
  obtain ⟨guarded, ran⟩ := held.1.advance advanced
  have grown : Grows (now.tier rid) mem := by
    cases code with
    | ret value => cases advanced
    | op access continue_ =>
        cases advanced
        exact held.1.1
  have grows := grows_update grown
  refine ⟨grows, consistent.held_update rid _ ⟨guarded, ?_⟩,
    fun id reader active => consistent.follows_growth active grows⟩
  rw [ran]
  exact held.2

theorem Consistent.unlock {rid : Nat}
    (stepped : now.event geo route (.unlock rid) = some next) : Moved geo route now next := by
  simp only [Traffic.event] at stepped
  split at stepped
  · rename_i done
    cases stepped
    have grows : ∀ rid, Grows (now.tier rid) (now.tier rid) := fun rid => Grows.refl _
    have held := consistent.held rid
    rw [done] at held
    have rested := consistent.held_update rid none held.2
    rw [Prog.run_ret, Function.update_eq_self] at rested
    exact ⟨grows, rested, fun id reader active => consistent.follows_growth active grows⟩
  · cases stepped

theorem Consistent.start_lookup {id key : Nat}
    (stepped : now.event geo route (.start_lookup id key) = some next) :
    Moved geo route now next := by
  simp only [Traffic.event] at stepped
  split at stepped
  · cases stepped
    have grows : ∀ rid, Grows (now.tier rid) (now.tier rid) := fun rid => Grows.refl _
    refine ⟨grows, consistent.held, fun other reader active => ?_⟩
    dsimp only at active
    by_cases here : other = id
    · rw [here, Function.update_self, Option.some_inj] at active
      subst active
      exact ⟨lookup_only _ _, fun view _ _ => lookup_under (bucket_id_of_lt geo (route key)) view⟩
    · rw [Function.update_of_ne here] at active
      exact consistent.follows_growth active grows
  · cases stepped

theorem Consistent.read {id : Nat}
    (stepped : now.event geo route (.read id) = some next) : Moved geo route now next := by
  simp only [Traffic.event, Option.bind_eq_bind, Option.bind_eq_some_iff] at stepped
  obtain ⟨reader, active, ⟨rest, mem⟩, advanced, same⟩ := stepped
  cases same
  have follows := consistent.follows id reader active
  obtain ⟨only, unchanged⟩ := follows.only.advance load_unchanged advanced
  subst unchanged
  have same_tier : Function.update now.tier (region_id_of (route reader.key))
      (now.tier (region_id_of (route reader.key))) = now.tier := Function.update_eq_self _ _
  rw [same_tier]
  have grows : ∀ rid, Grows (now.tier rid) (now.tier rid) := fun rid => Grows.refl _
  refine ⟨grows, consistent.held, fun other later found => ?_⟩
  dsimp only at found
  by_cases here : other = id
  · rw [here, Function.update_self, Option.some_inj] at found
    subst found
    refine ⟨only, fun view same seen => ?_⟩
    have under := follows.under (consistent.view active) rfl (fun _ member => member)
    have stepped : reader.code.advance viewSem (consistent.view active) =
        some (rest, consistent.view active) := by
      cases code : reader.code with
      | ret value =>
          rw [code] at advanced
          cases advanced
      | op access continue_ =>
          rw [code] at advanced
          have answered := congrArg Prod.fst (Option.some.inj advanced)
          exact congrArg (fun rest => some (rest, consistent.view active)) answered
    exact (under.advance View.Moves.refl stepped).stable View.Moves.trans
      ⟨same ▸ Grows.refl _, seen⟩
  · rw [Function.update_of_ne here] at found
    exact consistent.follows_growth found grows

theorem Consistent.end_lookup {id : Nat}
    (stepped : now.event geo route (.end_lookup id) = some next) : Moved geo route now next := by
  simp only [Traffic.event] at stepped
  split at stepped
  · cases stepped
    have grows : ∀ rid, Grows (now.tier rid) (now.tier rid) := fun rid => Grows.refl _
    refine ⟨grows, consistent.held, fun other reader active => ?_⟩
    dsimp only at active
    by_cases here : other = id
    · rw [here, Function.update_self] at active
      cases active
    · rw [Function.update_of_ne here] at active
      exact consistent.follows_growth active grows
  · cases stepped

theorem Consistent.event {event : Event} (stepped : now.event geo route event = some next) :
    Moved geo route now next := by
  cases event with
  | lock work => exact consistent.lock stepped
  | write rid => exact consistent.write stepped
  | unlock rid => exact consistent.unlock stepped
  | start_lookup id key => exact consistent.start_lookup stepped
  | read id => exact consistent.read stepped
  | end_lookup id => exact consistent.end_lookup stepped

end Steps

/-- Looking adds the present mapping to what each lookup has seen. -/
theorem Moved.observe {now next : Traffic} (moved : Moved geo route now next) :
    Consistent geo route (next.observe geo route) where
  held := moved.held
  follows := by
    intro id reader active
    obtain ⟨before, found, same⟩ := Option.map_eq_some_iff.mp active
    subst same
    have follows := moved.follows id before found
    exact ⟨follows.only, fun view same seen => follows.under view same
      (fun _ member => seen (List.mem_cons_of_mem _ member))⟩
  current := by
    intro id reader active
    obtain ⟨before, found, same⟩ := Option.map_eq_some_iff.mp active
    subst same
    exact List.mem_cons_self

theorem traffic_step {now next : Traffic} {event : Event} (consistent : Consistent geo route now)
    (stepped : (traffic geo route).step now event = some next) :
    Consistent geo route next ∧ ∀ rid, Grows (now.tier rid) (next.tier rid) := by
  obtain ⟨middle, moved, same⟩ := Option.map_eq_some_iff.mp stepped
  subst same
  have step := consistent.event moved
  exact ⟨step.observe, step.grows⟩

theorem reachable_consistent {now : Traffic} (reached : (traffic geo route).Reachable now) :
    Consistent geo route now := by
  refine reached.invariant ?_ (fun state event next consistent _ stepped =>
    (traffic_step consistent stepped).1)
  rintro _ rfl
  exact {
    held := fun rid => created_intact geo _
    follows := fun id reader active => by cases active
    current := fun id reader active => by cases active }

/-- Whatever is published stays, over any number of accesses. -/
theorem run_grows {now last : Traffic} {events : List Event} (consistent : Consistent geo route now)
    (ran : (traffic geo route).run now events = some last) (rid : Nat) :
    Grows (now.tier rid) (last.tier rid) := by
  induction events generalizing now with
  | nil =>
      cases ran
      exact Grows.refl _
  | cons event rest ih =>
      simp only [Machine.run] at ran
      split at ran
      · rename_i next stepped
        obtain ⟨consistent', grows⟩ := traffic_step consistent stepped
        exact (grows rid).trans (ih consistent' ran)
      · cases ran

/-- In every interleaving published slots keep their key, bits and links are
never cleared or redirected, and a lookup returns a mapping that its key had
between the lookup's start and its end. -/
theorem lookups_linearizable {now : Traffic} (reached : (traffic geo route).Reachable now) :
    (∀ events last, (traffic geo route).run now events = some last →
        ∀ rid, Grows (now.tier rid) (last.tier rid)) ∧
      ∀ id key answer seen, now.readers id = some ⟨key, .ret answer, seen⟩ →
        ∃ off, answer = some off ∧ off ∈ seen := by
  have consistent := reachable_consistent reached
  refine ⟨fun events last ran rid => run_grows consistent ran rid, ?_⟩
  intro id key answer seen active
  have under := (consistent.follows id _ active).under (consistent.view active) rfl
    (fun _ member => member)
  exact under.returned View.Moves.refl

theorem lookup_during_upsert :
    ∃ now, (traffic (Geometry.create 1 1) id).run ⟨Tier.create, fun _ => none, fun _ => none⟩
        [.lock (.upsert 5 9), .write 0, .start_lookup 0 5, .write 0, .read 0] = some now ∧
      ∀ id key answer seen, now.readers id = some ⟨key, .ret answer, seen⟩ →
        ∃ off, answer = some off ∧ off ∈ seen := by
  have ran : ((traffic (Geometry.create 1 1) id).run ⟨Tier.create, fun _ => none, fun _ => none⟩
      [.lock (.upsert 5 9), .write 0, .start_lookup 0 5, .write 0, .read 0]).isSome = true := by
    decide
  obtain ⟨now, same⟩ := Option.isSome_iff_exists.mp ran
  exact ⟨now, same, (lookups_linearizable (.run (.start rfl) same)).2⟩
end Hiom.ColdTier
