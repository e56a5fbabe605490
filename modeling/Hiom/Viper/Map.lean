import Hiom.Viper.Clients

/-!
Viper without HiOM and without reclamation, for keys of 8 bytes: it is a map as
long as no insertion into the index takes a vacant slot before the key's own.
-/

namespace Hiom.Viper.Records.Plain

open Cceh (Hasher Index INVALID)

/-- Keys of 8 bytes are their own words in the index. -/
def eight_bytes (hasher : Hasher) : KeyType (BitVec 64) where
  using_fp := false
  hasher := hasher
  key_checker := BitVec.toNat
  key_checker_lt := fun key => key.isLt
  told_apart := fun _ _ _ same => BitVec.eq_of_toNat_eq same
  fp_hash := fun fingerprint => by cases fingerprint

section

variable {V : Type} (hasher : Hasher) (layout : Layout) (cceh_depth : Nat)
  (cceh_depth_pos : 1 ≤ cceh_depth) (cceh_depth_le : cceh_depth ≤ 64)

def plain_config : Config (BitVec 64) where
  layout := layout
  keys := eight_bytes hasher
  cceh_depth := cceh_depth
  cceh_depth_pos := cceh_depth_pos
  cceh_depth_le := cceh_depth_le
  free_threshold := 0

/-- An insertion of the key stops at the key's own entry, or at a vacant slot if
it has none, and a split on the way has room for the entries that it moves. -/
def Roomy (map_ : Index) (key : BitVec 64) : Prop :=
  ∀ value, map_.Settles hasher key.toNat value (fun _ => true) (fun _ => True) insert_rounds

/-- What a step may do: the insertion of a put, and of a removal of a key that
the index has, is to have room. -/
def Tidy (state : State (BitVec 64) V) : Action (BitVec 64) V → Prop
  | .call _ (.put key _ _) => (eight_bytes hasher).Valid key ∧ Roomy hasher state.map_ key
  | .call _ (.get key) => (eight_bytes hasher).Valid key
  | .call _ (.update key _) => (eight_bytes hasher).Valid key
  | .call _ (.remove key) => (eight_bytes hasher).Valid key ∧
      ((∃ off, state.map_.Has hasher key.toNat off) → Roomy hasher state.map_ key)
  | .reclaim _ _ _ => False
  | _ => True

end

section

variable {V : Type} {hasher : Hasher} {layout : Layout} {cceh_depth : Nat}
  {cceh_depth_pos : 1 ≤ cceh_depth} {cceh_depth_le : cceh_depth ≤ 64}

theorem Roomy.settled {map_ : Index} {key : BitVec 64} (roomy : Roomy hasher map_ key)
    (pool : Pool (BitVec 64) V) (value : KVOffset) :
    Settled (plain_config hasher layout cceh_depth cceh_depth_pos cceh_depth_le) pool map_ key value := by
  have check : key_check_fn (plain_config hasher layout cceh_depth cceh_depth_pos cceh_depth_le) pool
      key = fun _ => true := rfl
  have own : (fun _ : KVOffset => true = true) = fun _ => True := by simp
  unfold Settled
  rw [check, own]
  exact roomy value

theorem Tidy.steady {state : State (BitVec 64) V} {id : Nat} {call : Call (BitVec 64) V}
    {position : Position} (tidy : Tidy hasher state (.call id call))
    (index : state.map_.Intact hasher) :
    Steady (plain_config hasher layout cceh_depth cceh_depth_pos cceh_depth_le)
      (state.client position) call := by
  cases call with
  | put key value rand =>
      obtain ⟨valid, roomy⟩ := tidy
      refine ⟨valid, fun off writer _ => ⟨roomy.settled writer.toPool off, ?_⟩⟩
      intro fingerprint
      cases fingerprint
  | get key => exact tidy
  | update key update_fn => exact tidy
  | remove key =>
      obtain ⟨valid, roomy⟩ := tidy
      refine ⟨valid, fun found writer _ => ?_⟩
      apply (roomy _).settled writer.toPool
      rcases Index.Get_spec key.isLt valid.1 index with ⟨has, -⟩ | ⟨missing, -⟩
      · exact ⟨_, has⟩
      · exact absurd missing found

def tidy (hasher : Hasher) (state : State (BitVec 64) V) : Action (BitVec 64) V → Bool
  | .call _ (.put key _ _) => decide ((eight_bytes hasher).Valid key) &&
      state.map_.settles hasher key.toNat (fun _ => true)
  | .call _ (.get key) => decide ((eight_bytes hasher).Valid key)
  | .call _ (.update key _) => decide ((eight_bytes hasher).Valid key)
  | .call _ (.remove key) => decide ((eight_bytes hasher).Valid key) &&
      state.map_.settles hasher key.toNat (fun _ => true)
  | .reclaim _ _ _ => false
  | _ => true

theorem Tidy.invariant {zero : BitVec 64 × V} {state next : State (BitVec 64) V}
    {action : Action (BitVec 64) V}
    (invariant : Invariant (plain_config hasher layout cceh_depth cceh_depth_pos cceh_depth_le) none
      state)
    (tidy : Tidy hasher state action)
    (stepped : (machine (plain_config hasher layout cceh_depth cceh_depth_pos cceh_depth_le) zero).step
      state action = some next) :
    Invariant (plain_config hasher layout cceh_depth cceh_depth_pos cceh_depth_le) none next := by
  apply invariant.step _ _ stepped
  · rintro id call position rfl -
    exact tidy.steady invariant.agrees.index
  · rintro id first_rand rand rfl -
    cases tidy

theorem tidy_invariant {zero : BitVec 64 × V} {state : State (BitVec 64) V}
    (reached : (machine (plain_config hasher layout cceh_depth cceh_depth_pos cceh_depth_le) zero).Reach
      (Tidy hasher) state) :
    Invariant (plain_config hasher layout cceh_depth cceh_depth_pos cceh_depth_le) none state := by
  apply reached.invariant
  · rintro state ⟨num_v_blocks, small, rfl⟩
    exact Invariant.created zero small
  · exact fun state action next invariant tidy stepped => tidy.invariant invariant stepped

theorem Roomy.of_settles {map_ : Index} {key : BitVec 64} (valid : (eight_bytes hasher).Valid key)
    (index : map_.Intact hasher)
    (passed : map_.settles hasher key.toNat (fun _ => true) = true) : Roomy hasher map_ key := by
  intro value
  have settles : map_.Settles hasher key.toNat value (fun _ => true) (fun _ => true = true)
      insert_rounds := Index.settles_sound key.isLt valid.1 index passed
  simpa using settles

theorem Tidy.of_tidy {state : State (BitVec 64) V} {action : Action (BitVec 64) V}
    (index : state.map_.Intact hasher) (passed : tidy hasher state action = true) :
    Tidy hasher state action := by
  cases action with
  | call id call =>
      cases call with
      | put key value rand =>
          obtain ⟨valid, settles⟩ := Bool.and_eq_true_iff.mp passed
          have valid : (eight_bytes hasher).Valid key := of_decide_eq_true valid
          exact ⟨valid, .of_settles valid index settles⟩
      | get key =>
          have valid : (eight_bytes hasher).Valid key := of_decide_eq_true passed
          exact valid
      | update key update_fn =>
          have valid : (eight_bytes hasher).Valid key := of_decide_eq_true passed
          exact valid
      | remove key =>
          obtain ⟨valid, settles⟩ := Bool.and_eq_true_iff.mp passed
          have valid : (eight_bytes hasher).Valid key := of_decide_eq_true valid
          exact ⟨valid, fun _ => .of_settles valid index settles⟩
  | reclaim id first_rand rand => cases passed
  | connect | disconnect | grow => trivial

theorem tidy_run {zero : BitVec 64 × V} {state next : State (BitVec 64) V}
    {actions : List (Action (BitVec 64) V)}
    (reached : (machine (plain_config hasher layout cceh_depth cceh_depth_pos cceh_depth_le) zero).Reach
      (Tidy hasher) state)
    (ran : ((machine (plain_config hasher layout cceh_depth cceh_depth_pos cceh_depth_le) zero).checked
      (tidy hasher)).run state actions = some next) :
    (machine (plain_config hasher layout cceh_depth cceh_depth_pos cceh_depth_le) zero).Reach
      (Tidy hasher) next := by
  have ended := reached.run_checked_where (tidy_invariant reached)
    (fun action _ state invariant passed => .of_tidy invariant.agrees.index passed)
    (fun state action next invariant _ tidy stepped => tidy.invariant invariant stepped) ran
  exact ended.1

/-- Every call answers as a map would, and returns if a block can be had. -/
theorem plain_viper_is_map (zero : BitVec 64 × V) (state : State (BitVec 64) V)
    (reached : (machine (plain_config hasher layout cceh_depth cceh_depth_pos cceh_depth_le) zero).Reach
      (Tidy hasher) state) :
    Truthful state.log ∧ ∀ id position, state.clients id = some position →
      (∀ key, (eight_bytes hasher).Valid key →
        (state.client position).get
          (plain_config hasher layout cceh_depth cceh_depth_pos cceh_depth_le) key =
            some (map_of state.log key)) ∧
      ∀ call, Tidy hasher state (.call id call) → Mapped state.pool →
        ∃ after, (machine (plain_config hasher layout cceh_depth cceh_depth_pos cceh_depth_le)
          zero).step state (.call id call) = some after := by
  have invariant := tidy_invariant reached
  refine ⟨invariant.truthful, fun id position here => ⟨fun key valid => ?_, fun call tidy mapped => ?_⟩⟩
  · have alone := invariant.alone here
    exact get_spec alone.unlocked alone.agrees valid
  · obtain ⟨result, called⟩ :=
      call_some (invariant.alone here) (tidy.steady invariant.agrees.index) mapped
    simp only [machine, here, Option.bind_eq_bind, Option.bind_some, called]
    exact ⟨_, rfl⟩

theorem wide_pages_pos : 0 < 6 := by
  decide

theorem wide_pages_le : 6 ≤ 6 := by
  decide

theorem wide_slots_pos : 0 < 19 := by
  decide

theorem wide_slots_le : 19 ≤ 2 ^ 16 := by
  decide

def wide_layout : Layout :=
  ⟨6, 19, wide_pages_pos, wide_pages_le, wide_slots_pos, wide_slots_le⟩

theorem crowded_depth_pos : 1 ≤ 17 := by
  decide

theorem crowded_depth_le : 17 ≤ 64 := by
  decide

def same_window : Hasher := ⟨fun _ => 0, fun _ _ => by decide⟩

abbrev crowded_config : Config (BitVec 64) :=
  plain_config same_window wide_layout 17 crowded_depth_pos crowded_depth_le

/-- Both keys share a window: the second put of key 1 and the removal of key 2
find their own entries. -/
def window_calls : List (Action (BitVec 64) Nat) :=
  [.connect 0 0, .call 0 (.put 1#64 10 0), .call 0 (.put 2#64 20 0), .call 0 (.put 1#64 11 0),
    .call 0 (.get 2#64), .call 0 (.update 1#64 Nat.succ), .call 0 (.remove 2#64)]

theorem plain_viper_is_map_window :
    ∃ state : State (BitVec 64) Nat,
      (machine crowded_config (0#64, 0)).run (.created crowded_config (0#64, 0) 1) window_calls =
        some state ∧
      Truthful state.log ∧
      ∀ position, state.clients 0 = some position →
        (state.client position).get crowded_config 1#64 = some (some 12) ∧
        (state.client position).get crowded_config 2#64 = some none := by
  have possible : (((machine crowded_config (0#64, 0)).checked (tidy same_window)).run
      (.created crowded_config (0#64, 0) 1) window_calls).map
        (fun state => (map_of state.log 1#64, map_of state.log 2#64)) = some (some 12, none) := by
    decide +kernel
  obtain ⟨state, ran, ended⟩ := Option.map_eq_some_iff.mp possible
  obtain ⟨first, second⟩ := Prod.mk.inj ended
  have created : (machine crowded_config (0#64, 0)).Reach (Tidy same_window)
      (.created crowded_config (0#64, 0) 1) := .start ⟨1, by decide, rfl⟩
  have spec := plain_viper_is_map (0#64, 0) state
    (tidy_run created ran)
  refine ⟨state, Machine.run_of_checked ran, spec.1, ?_⟩
  intro position here
  have gets := (spec.2 0 position here).1
  constructor
  · rw [gets 1#64 (by decide), first]
  · rw [gets 2#64 (by decide), second]

/-- An insertion takes the slot that a removed key has left before the key's
own: the second put of key 2 answers that the key is new. -/
theorem plain_viper_not_map :
    ∃ state : State (BitVec 64) Nat,
      (machine crowded_config (0#64, 0)).run (.created crowded_config (0#64, 0) 1)
        [.connect 0 0, .call 0 (.put 1#64 10 0), .call 0 (.put 2#64 20 0), .call 0 (.remove 1#64),
          .call 0 (.put 2#64 30 0)] = some state ∧
      state.log.map Prod.snd = [.flag true, .flag true, .flag true, .flag true] ∧
      ¬Truthful state.log := by
  have possible : ((machine crowded_config (0#64, 0)).run (.created crowded_config (0#64, 0) 1)
      [.connect 0 0, .call 0 (.put 1#64 10 0), .call 0 (.put 2#64 20 0), .call 0 (.remove 1#64),
        .call 0 (.put 2#64 30 0)]).map
      (fun state : State (BitVec 64) Nat => decide (
        state.log.map Prod.snd = [.flag true, .flag true, .flag true, .flag true] ∧
        ¬Truthful state.log)) = some true := by
    decide +kernel
  obtain ⟨state, ran, ended⟩ := Option.map_eq_some_iff.mp possible
  exact ⟨state, ran, of_decide_eq_true ended⟩

end

end Hiom.Viper.Records.Plain
