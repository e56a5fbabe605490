import Hiom.Cceh.Fresh
import Hiom.Recovery.Ranges
import Hiom.Viper.Reclaim

/-!
Viper opens a pool again: the threads of `recover_database` insert the records
of their blocks into a new index, in whichever order they come to them.
-/

namespace Hiom.Viper.Records

/-! ### The pages that are found -/

section Pages

variable {K V : Type}

def Pool.scan_block (layout : Layout) (pool : Pool K V) (bn : Nat) : List ((K × V) × KVOffset) :=
  (List.range layout.num_pages_per_block).flatMap fun pn =>
    visit_page layout (pool.v_blocks bn pn) bn pn

/-- What a process finds that opens the pool. `num_used_blocks` is the number of
the block that would have come next. -/
def Pool.reopened (pool : Pool K V) : Pool K V :=
  { pool with
    current_block_page := .of_parts pool.current_block_page.block_number 0 0
    free_blocks := [] }

variable {layout : Layout} {pool : Pool K V} {record : K × V} {off : KVOffset} {bn pn : Nat}

theorem mem_page_lives (small : bn < 2 ^ 45) (inside : pn < layout.num_pages_per_block) :
    (record, off) ∈ visit_page layout (pool.v_blocks bn pn) bn pn ↔
      Lives layout pool.v_blocks record.1 off record.2 ∧ off.block_number = bn ∧
        off.page_number = pn := by
  rw [mem_visit_page small inside]
  constructor
  · rintro ⟨word, rfl, rfl, slot_lt, used, taken, here⟩
    exact ⟨⟨word, inside, slot_lt, ⟨used, taken⟩, here⟩, rfl, rfl⟩
  · rintro ⟨lives, rfl, rfl⟩
    exact ⟨lives.word, rfl, rfl, lives.slot_lt, lives.live.1, lives.live.2, lives.data⟩

theorem mem_scan_block (small : bn < 2 ^ 45) :
    (record, off) ∈ pool.scan_block layout bn ↔
      Lives layout pool.v_blocks record.1 off record.2 ∧ off.block_number = bn := by
  constructor
  · intro on_block
    obtain ⟨pn, inside, on_page⟩ := List.mem_flatMap.mp on_block
    obtain ⟨lives, block, -⟩ := (mem_page_lives small (List.mem_range.mp inside)).mp on_page
    exact ⟨lives, block⟩
  · rintro ⟨lives, block⟩
    apply List.mem_flatMap.mpr
    refine ⟨off.page_number, List.mem_range.mpr lives.page_lt, ?_⟩
    exact (mem_page_lives small lives.page_lt).mpr ⟨lives, block, rfl⟩

/-- A scan comes to no offset twice. -/
theorem scan_block_once (small : bn < 2 ^ 45) :
    (pool.scan_block layout bn).Pairwise (fun a b => a.2 ≠ b.2) := by
  have few := layout.pages_le
  have slots_le := layout.slots_le
  unfold Pool.scan_block
  rw [List.pairwise_flatMap]
  constructor
  · intro pn inside
    have page_lt : pn < layout.num_pages_per_block := List.mem_range.mp inside
    unfold visit_page
    split
    · rw [List.pairwise_filterMap]
      apply List.Pairwise.imp_of_mem _ (@List.nodup_range layout.num_slots_per_page)
      intro a b a_in b_in different first first_found second second_found same
      have a_lt : a < layout.num_slots_per_page := List.mem_range.mp a_in
      have b_lt : b < layout.num_slots_per_page := List.mem_range.mp b_in
      split at first_found
      · cases first_found
      · split at second_found
        · cases second_found
        · cases first_found
          cases second_found
          have slot := congrArg KVOffset.data_offset same
          rw [KVOffset.data_offset_of_parts (by omega), KVOffset.data_offset_of_parts (by omega)] at slot
          exact different slot
    · exact List.Pairwise.nil
  · apply List.Pairwise.imp_of_mem _ (@List.nodup_range layout.num_pages_per_block)
    intro a b a_in b_in different first first_in second second_in same
    have first_page := ((mem_page_lives small (List.mem_range.mp a_in)).mp first_in).2.2
    have second_page := ((mem_page_lives small (List.mem_range.mp b_in)).mp second_in).2.2
    rw [same] at first_page
    exact different (first_page.symm.trans second_page)

theorem Pool.Sound.reopened (sound : pool.Sound layout) :
    pool.reopened.Sound layout ∧
      pool.reopened.current_block_page.block_number = pool.current_block_page.block_number := by
  have next_le := sound.next_le
  have blocks_lt := sound.blocks_lt
  have block : (KVOffset.of_parts pool.current_block_page.block_number 0 0).block_number =
      pool.current_block_page.block_number := KVOffset.block_number_of_parts (by omega)
  refine ⟨?_, block⟩
  constructor
  · show (KVOffset.of_parts pool.current_block_page.block_number 0 0).page_number < _
    rw [KVOffset.page_number_of_parts (Nat.pos_of_ne_zero (by decide))]
    exact layout.pages_pos
  · show (KVOffset.of_parts pool.current_block_page.block_number 0 0).block_number ≤ _
    rw [block]
    exact next_le
  · exact blocks_lt
  · intro bn inside
    cases inside
  · exact List.nodup_nil

end Pages

namespace Plain

variable {K V : Type}

/-- What holds when the clients are gone. -/
theorem Shape.reopened {layout : Layout} {state : State K V} (shape : Shape layout none state)
    (map_ : Cceh.Index) :
    Shape layout none
      { state with pool := state.pool.reopened, map_ := map_, clients := fun _ => none } := by
  obtain ⟨sound, next_same⟩ := shape.pool.reopened
  constructor
  · exact sound
  · intro id position here
    cases here
  · intro id position here
    cases here
  · intro id position other other_position here
    cases here
  · rintro key off value lives (above | inside)
    · apply shape.claimed key off value lives
      left
      rw [← next_same]
      exact above
    · cases inside
  · intro id position here
    cases here
  · exact shape.unlocked
  · intro bn pn holds
    cases holds

/-! ### The threads -/

open Cceh (Hasher Index INVALID)
open Hiom.Recovery.Ranges (BlockRange Partition)

structure Recovery (K V : Type) where
  todo : Nat → List ((K × V) × KVOffset)
  map_ : Index

section

variable [DecidableEq K] (config : Config K) (pool : Pool K V)

omit [DecidableEq K] in
def Recovery.start (ranges : List BlockRange) : Recovery K V where
  todo := fun t =>
    match ranges[t]? with
    | some range => range.blocks.flatMap (pool.scan_block config.layout)
    | none => []
  map_ := .create config.cceh_depth

def Recovery.step (recovery : Recovery K V) (t : Nat) : Option (Recovery K V) :=
  match recovery.todo t with
  | [] => none
  | (record, offset) :: rest => do
      let (_, map_) ← recovery.map_.Insert config.keys.hasher (config.keys.key_checker record.1)
        offset (key_check_fn config pool record.1) insert_rounds
      some ⟨Function.update recovery.todo t rest, map_⟩

def recover (ranges : List BlockRange) : Machine (Recovery K V) Nat where
  initial := fun recovery => recovery = .start config pool ranges
  step := Recovery.step config pool

def Recovery.joined (ranges : List BlockRange) (recovery : Recovery K V) : Bool :=
  (List.range ranges.length).all fun t => (recovery.todo t).isEmpty

/-- Viper is closed or killed between two calls, and its pool opened again.
`schedule` says which thread of `recover_database` comes to its next record. -/
def State.reopen (num_recovery_threads : Nat) (schedule : List Nat) (state : State K V) :
    Option (State K V) := do
  let ranges ← Hiom.Recovery.Ranges.recover_database state.pool.current_block_page.block_number
    num_recovery_threads
  let recovery ← (recover config state.pool ranges).run (.start config state.pool ranges) schedule
  if recovery.joined ranges then
    some { state with pool := state.pool.reopened, map_ := recovery.map_, clients := fun _ => none }
  else none

def Spacious : List Nat → Recovery K V → Prop
  | [], _ => True
  | t :: rest, recovery =>
      (∀ record offset todo, recovery.todo t = (record, offset) :: todo →
        recovery.map_.Spacious config.keys.hasher (config.keys.key_checker record.1) offset
          (key_check_fn config pool record.1) insert_rounds) ∧
      ∀ next, recovery.step config pool t = some next → Spacious rest next

end

/-! ### The new index -/

section Recovering

variable {config : Config K} {pool : Pool K V} {recovery next : Recovery K V} {t : Nat}

structure Distinct (config : Config K) (pool : Pool K V) : Prop where
  valid : ∀ key off value, Lives config.layout pool.v_blocks key off value → config.keys.Valid key
  single : ∀ key off value other other_off other_value,
    Lives config.layout pool.v_blocks key off value →
    Lives config.layout pool.v_blocks other other_off other_value →
    config.keys.key_checker other = config.keys.key_checker key → other_off = off

structure Recovering (config : Config K) (pool : Pool K V) (recovery : Recovery K V) : Prop where
  index : recovery.map_.Intact config.keys.hasher
  found : ∀ t record off, (record, off) ∈ recovery.todo t →
    Lives config.layout pool.v_blocks record.1 off record.2
  once : ∀ t, (recovery.todo t).Pairwise (fun a b => a.2 ≠ b.2)
  apart : ∀ t other, t ≠ other → ∀ a ∈ recovery.todo t, ∀ b ∈ recovery.todo other, a.2 ≠ b.2
  entered : ∀ key off, config.keys.Valid key →
    recovery.map_.Has config.keys.hasher (config.keys.key_checker key) off →
    (∃ other value, Lives config.layout pool.v_blocks other off value ∧
      config.keys.key_checker other = config.keys.key_checker key) ∧
    ∀ t, ∀ a ∈ recovery.todo t, a.2 ≠ off
  whole : ∀ key off value, Lives config.layout pool.v_blocks key off value →
    recovery.map_.Has config.keys.hasher (config.keys.key_checker key) off ∨
      ∃ t, ((key, value), off) ∈ recovery.todo t

theorem Recovering.start {ranges : List BlockRange}
    (sound : pool.Sound config.layout)
    (claimed : ∀ key off value, Lives config.layout pool.v_blocks key off value →
      off.block_number < pool.current_block_page.block_number)
    (partition : Partition ranges 0 pool.current_block_page.block_number) :
    Recovering config pool (.start config pool ranges) := by
  have next_le := sound.next_le
  have blocks_lt := sound.blocks_lt
  have small : ∀ range ∈ ranges, ∀ bn ∈ range.blocks, bn < 2 ^ 45 := by
    intro range member bn inside
    have below := (partition.inside range member bn inside).2
    omega
  have mem_todo : ∀ t record off, (record, off) ∈ (Recovery.start config pool ranges).todo t ↔
      ∃ range, ranges[t]? = some range ∧ off.block_number ∈ range.blocks ∧
        Lives config.layout pool.v_blocks record.1 off record.2 := by
    intro t record off
    unfold Recovery.start
    dsimp only
    constructor
    · intro waits
      split at waits
      · rename_i range here
        obtain ⟨bn, inside, on_block⟩ := List.mem_flatMap.mp waits
        have low := small range (List.mem_of_getElem? here) bn inside
        obtain ⟨lives, rfl⟩ := (mem_scan_block low).mp on_block
        exact ⟨range, here, inside, lives⟩
      · cases waits
    · rintro ⟨range, here, inside, lives⟩
      rw [here]
      apply List.mem_flatMap.mpr
      refine ⟨off.block_number, inside, ?_⟩
      exact (mem_scan_block (small range (List.mem_of_getElem? here) _ inside)).mpr ⟨lives, rfl⟩
  constructor
  · exact Index.create_intact config.cceh_depth_le
  · intro t record off waits
    obtain ⟨-, -, -, lives⟩ := (mem_todo t record off).mp waits
    exact lives
  · intro t
    unfold Recovery.start
    dsimp only
    split
    · rename_i range here
      have member := List.mem_of_getElem? here
      rw [List.pairwise_flatMap]
      constructor
      · exact fun bn inside => scan_block_once (small range member bn inside)
      · have blocks : range.blocks.Nodup := List.nodup_range'
        apply List.Pairwise.imp_of_mem _ blocks
        intro a b a_in b_in different first first_in second second_in same
        have first_block := ((mem_scan_block (small range member a a_in)).mp first_in).2
        have second_block := ((mem_scan_block (small range member b b_in)).mp second_in).2
        rw [same] at first_block
        exact different (first_block.symm.trans second_block)
    · exact List.Pairwise.nil
  · rintro t other different ⟨record, off⟩ first ⟨other_record, other_off⟩ second same
    dsimp only at same
    subst same
    obtain ⟨range, here, inside, -⟩ := (mem_todo t record off).mp first
    obtain ⟨other_range, there, also, -⟩ := (mem_todo other other_record off).mp second
    obtain ⟨t_lt, t_range⟩ := List.getElem?_eq_some_iff.mp here
    obtain ⟨other_lt, other_range_eq⟩ := List.getElem?_eq_some_iff.mp there
    have disjoint := List.pairwise_iff_getElem.mp partition.disjoint
    rcases Nat.lt_or_gt_of_ne different with before | after
    · have apart := disjoint t other t_lt other_lt before
      rw [t_range, other_range_eq] at apart
      exact apart _ inside also
    · have apart := disjoint other t other_lt t_lt after
      rw [t_range, other_range_eq] at apart
      exact apart _ also inside
  · intro key off valid has
    exact absurd has (Index.create_has valid.1)
  · intro key off value lives
    obtain ⟨range, member, inside⟩ :=
      partition.covers off.block_number (Nat.zero_le _) (claimed key off value lives)
    obtain ⟨t, here⟩ := List.getElem?_of_mem member
    exact .inr ⟨t, (mem_todo t (key, value) off).mpr ⟨range, here, inside, lives⟩⟩

/-- The word of the next record is not in the index. -/
theorem Recovering.absent {record : K × V} {off : KVOffset} {rest : List ((K × V) × KVOffset)}
    (recovering : Recovering config pool recovery) (distinct : Distinct config pool)
    (here : recovery.todo t = (record, off) :: rest) :
    ∀ other, ¬recovery.map_.Has config.keys.hasher (config.keys.key_checker record.1) other := by
  intro other has
  have member : (record, off) ∈ recovery.todo t := by
    rw [here]
    exact List.mem_cons_self
  have lives := recovering.found t record off member
  obtain ⟨⟨key, value, alive, word⟩, waits⟩ :=
    recovering.entered record.1 other (distinct.valid _ _ _ lives) has
  have same := distinct.single _ _ _ _ _ _ lives alive word
  exact waits t (record, off) member same.symm

variable [DecidableEq K]

theorem Recovering.inserted {record : K × V} {off : KVOffset} {rest : List ((K × V) × KVOffset)}
    (recovering : Recovering config pool recovery) (distinct : Distinct config pool)
    (here : recovery.todo t = (record, off) :: rest)
    (spacious : recovery.map_.Spacious config.keys.hasher (config.keys.key_checker record.1) off
      (key_check_fn config pool record.1) insert_rounds) :
    ∃ next, recovery.step config pool t = some next ∧
      next.todo = Function.update recovery.todo t rest ∧ Recovering config pool next := by
  have absent := recovering.absent distinct here
  have waits : ∀ a, a = (record, off) ∨ a ∈ rest → a ∈ recovery.todo t := by
    intro a member
    rw [here]
    exact List.mem_cons.mpr member
  have lives := recovering.found t record off (waits _ (.inl rfl))
  have valid := distinct.valid _ _ _ lives
  have small := config.keys.key_checker_lt record.1
  have settles : recovery.map_.Settles config.keys.hasher (config.keys.key_checker record.1) off
      (key_check_fn config pool record.1) (fun _ => True) insert_rounds :=
    spacious.settles small valid.1 recovering.index absent
  obtain ⟨old_entry, after, inserts, spec⟩ := Index.Insert_spec small valid.1 insert_rounds
    recovering.index (fun _ => absent off) settles
  have less : ∀ t' a, a ∈ Function.update recovery.todo t rest t' → a ∈ recovery.todo t' := by
    intro t' a member
    rw [Function.update_apply] at member
    split at member
    · rename_i same
      rw [same]
      exact waits a (.inr member)
    · exact member
  have once := recovering.once t
  rw [here] at once
  have has : ∀ key other, config.keys.Valid key →
      (after.Has config.keys.hasher (config.keys.key_checker key) other ↔
        config.keys.key_checker key = config.keys.key_checker record.1 ∧ other = off ∨
          recovery.map_.Has config.keys.hasher (config.keys.key_checker key) other) := by
    intro key other key_valid
    rw [spec.has _ other (config.keys.key_checker_lt key) key_valid.1]
    constructor
    · rintro (⟨word, same, -⟩ | ⟨before, -⟩)
      · exact .inl ⟨word, same⟩
      · exact .inr before
    · rintro (⟨word, same⟩ | before)
      · exact .inl ⟨word, same, lives.ne_tombstone⟩
      · refine .inr ⟨before, ?_⟩
        rintro ⟨word, -⟩
        rw [word] at before
        exact absent other before
  refine ⟨⟨Function.update recovery.todo t rest, after⟩, ?_, rfl, ?_⟩
  · unfold Recovery.step
    rw [here]
    dsimp only
    rw [inserts]
    rfl
  · constructor
    · exact spec.intact
    · exact fun t' found_record found_off member =>
        recovering.found t' found_record found_off (less t' _ member)
    · intro t'
      dsimp only
      rw [Function.update_apply]
      split
      · exact (List.pairwise_cons.mp once).2
      · exact recovering.once t'
    · exact fun first second different a a_in b b_in =>
        recovering.apart first second different a (less first a a_in) b (less second b b_in)
    · intro key other key_valid now
      rcases (has key other key_valid).mp now with ⟨word, rfl⟩ | before
      · refine ⟨⟨record.1, record.2, lives, word.symm⟩, ?_⟩
        intro t' a member
        dsimp only at member
        by_cases same : t' = t
        · subst same
          rw [Function.update_self] at member
          exact ((List.pairwise_cons.mp once).1 a member).symm
        · exact recovering.apart t' t same a (less t' a member) _ (waits _ (.inl rfl))
      · obtain ⟨alive, away⟩ := recovering.entered key other key_valid before
        exact ⟨alive, fun t' a member => away t' a (less t' a member)⟩
    · intro key other value alive
      have key_valid := distinct.valid _ _ _ alive
      rcases recovering.whole key other value alive with before | ⟨t', member⟩
      · exact .inl ((has key other key_valid).mpr (.inr before))
      · by_cases same : t' = t
        · subst same
          rw [here] at member
          rcases List.mem_cons.mp member with first | later
          · cases first
            exact .inl ((has key off key_valid).mpr (.inl ⟨rfl, rfl⟩))
          · right
            refine ⟨t', ?_⟩
            dsimp only
            rw [Function.update_self]
            exact later
        · right
          refine ⟨t', ?_⟩
          dsimp only
          rw [Function.update_of_ne same]
          exact member

/-- Whichever way the threads come to their records. -/
theorem Recovering.run {ranges : List BlockRange} {schedule : List Nat} {last : Recovery K V}
    (recovering : Recovering config pool recovery) (distinct : Distinct config pool)
    (spacious : Spacious config pool schedule recovery)
    (ran : (recover config pool ranges).run recovery schedule = some last) :
    Recovering config pool last ∧ ∀ t, recovery.todo t = [] → last.todo t = [] := by
  induction schedule generalizing recovery with
  | nil =>
      cases ran
      exact ⟨recovering, fun t nothing => nothing⟩
  | cons t schedule ih =>
      obtain ⟨room, rest_spacious⟩ := spacious
      simp only [Machine.run, recover] at ran
      split at ran
      · rename_i middle stepped
        cases here : recovery.todo t with
        | nil =>
            unfold Recovery.step at stepped
            rw [here] at stepped
            cases stepped
        | cons entry rest =>
            obtain ⟨record, off⟩ := entry
            obtain ⟨next, inserted, todo, after⟩ :=
              recovering.inserted distinct here (room record off rest here)
            rw [stepped] at inserted
            cases inserted
            obtain ⟨done, nothing⟩ := ih after (rest_spacious _ stepped) ran
            refine ⟨done, fun other idle => nothing other ?_⟩
            rw [todo, Function.update_of_ne]
            · exact idle
            · rintro rfl
              rw [here] at idle
              cases idle
      · cases ran

/-- No thread gets stuck. -/
theorem Recovering.completes {ranges : List BlockRange} {schedule : List Nat}
    (recovering : Recovering config pool recovery) (distinct : Distinct config pool)
    (spacious : Spacious config pool schedule recovery)
    (whole : ∀ t, schedule.count t = (recovery.todo t).length) :
    ∃ last, (recover config pool ranges).run recovery schedule = some last ∧
      ∀ t, last.todo t = [] := by
  induction schedule generalizing recovery with
  | nil =>
      refine ⟨recovery, rfl, fun t => ?_⟩
      have nothing := whole t
      rw [List.count_nil] at nothing
      exact List.eq_nil_of_length_eq_zero nothing.symm
  | cons t schedule ih =>
      obtain ⟨room, rest_spacious⟩ := spacious
      have own := whole t
      rw [List.count_cons_self] at own
      cases here : recovery.todo t with
      | nil =>
          rw [here] at own
          cases own
      | cons entry rest =>
          obtain ⟨record, off⟩ := entry
          obtain ⟨next, inserted, todo, after⟩ :=
            recovering.inserted distinct here (room record off rest here)
          rw [here, List.length_cons] at own
          obtain ⟨last, ran, ended⟩ := ih after (rest_spacious next inserted) (by
            intro other
            rw [todo, Function.update_apply]
            split
            · rename_i same
              rw [same]
              exact Nat.succ.inj own
            · rename_i different
              rw [← whole other, List.count_cons_of_ne (Ne.symm different)])
          refine ⟨last, ?_, ended⟩
          simp only [Machine.run, recover]
          rw [inserted]
          exact ran

/-- The new index is that of the map. -/
theorem Recovering.agrees {map_ : Index} {map : K → Option V}
    (recovering : Recovering config pool recovery) (before : Agrees config pool map_ map)
    (done : ∀ t, recovery.todo t = []) :
    Agrees config pool.reopened recovery.map_ map := by
  have nowhere : ∀ t a, a ∉ recovery.todo t := by
    intro t a member
    rw [done t] at member
    cases member
  constructor
  · exact recovering.index
  · intro key off value lives
    obtain ⟨valid, -, here⟩ := before.indexed key off value lives
    rcases recovering.whole key off value lives with has | ⟨t, waits⟩
    · exact ⟨valid, has, here⟩
    · exact absurd waits (nowhere t _)
  · intro key off valid has passes
    obtain ⟨other, value, lives, word⟩ := (recovering.entered key off valid has).1
    cases (key_check_iff lives word).mp passes
    exact ⟨value, lives⟩
  · exact before.mapped
  · exact before.single
  · intro key off valid has
    obtain ⟨other, value, lives, -⟩ := (recovering.entered key off valid has).1
    exact lives.word

end Recovering

/-! ### Lifetimes of a pool -/

section Lifetime

variable [DecidableEq K]

inductive Session (K V : Type) where
  | step (action : Action K V)
  | reopen (num_recovery_threads : Nat) (schedule : List Nat)

def lifetime (config : Config K) (zero : K × V) : Machine (State K V) (Session K V) where
  initial := (machine config zero).initial
  step := fun state session =>
    match session with
    | .step action => (machine config zero).step state action
    | .reopen num_recovery_threads schedule => state.reopen config num_recovery_threads schedule

/-- No two keys on the pages have one hash when the index knows keys by their
hashes, and the splits of the new index have room. -/
structure Restores (config : Config K) (state : State K V) (num_recovery_threads : Nat)
    (schedule : List Nat) : Prop where
  hashes : config.keys.using_fp = true → ∀ key off value other other_off other_value,
    Lives config.layout state.pool.v_blocks key off value →
    Lives config.layout state.pool.v_blocks other other_off other_value →
    config.keys.key_checker other = config.keys.key_checker key → other = key
  spacious : ∀ ranges, Hiom.Recovery.Ranges.recover_database
      state.pool.current_block_page.block_number num_recovery_threads = some ranges →
    Spacious config state.pool schedule (.start config state.pool ranges)

def Prudent (config : Config K) (state : State K V) : Session K V → Prop
  | .step action => Careful config state action
  | .reopen num_recovery_threads schedule => Restores config state num_recovery_threads schedule

variable {config : Config K} {state next : State K V} {num_recovery_threads : Nat}
  {schedule : List Nat}

theorem Restores.distinct (restores : Restores config state num_recovery_threads schedule)
    (invariant : Invariant config none state) : Distinct config state.pool := by
  constructor
  · exact fun key off value lives => (invariant.agrees.indexed key off value lives).1
  · intro key off value other other_off other_value first second word
    have same : other = key := by
      cases fingerprint : config.keys.using_fp with
      | false => exact config.keys.told_apart fingerprint word
      | true => exact restores.hashes fingerprint _ _ _ _ _ _ first second word
    subst same
    exact invariant.agrees.single _ _ _ _ _ first second

/-- `recover_database` divides by the number of its threads. -/
theorem recover_database_some {num_used_blocks : Nat} {ranges : List BlockRange}
    (small : num_used_blocks ≤ 2 ^ 45)
    (split : Hiom.Recovery.Ranges.recover_database num_used_blocks num_recovery_threads = some ranges) :
    Partition ranges 0 num_used_blocks := by
  by_cases workers : min num_used_blocks num_recovery_threads = 0
  · unfold Hiom.Recovery.Ranges.recover_database Hiom.Recovery.Ranges.div64 at split
    dsimp only at split
    rw [if_pos workers] at split
    cases split
  · obtain ⟨ranges', computed, partition⟩ :=
      @Hiom.Recovery.Ranges.recover_database_partition num_used_blocks num_recovery_threads small
        (by omega) (by omega)
    rw [split] at computed
    cases computed
    exact partition

theorem Invariant.recovering (invariant : Invariant config none state) {ranges : List BlockRange}
    (split : Hiom.Recovery.Ranges.recover_database state.pool.current_block_page.block_number
      num_recovery_threads = some ranges) :
    Recovering config state.pool (.start config state.pool ranges) := by
  have sound := invariant.shape.pool
  apply Recovering.start sound
  · intro key off value lives
    by_contra above
    exact invariant.shape.claimed key off value lives (.inl (Nat.le_of_not_lt above))
  · exact recover_database_some
      (Nat.le_of_lt (Nat.lt_of_le_of_lt sound.next_le sound.blocks_lt)) split

theorem Invariant.reopen (invariant : Invariant config none state)
    (restores : Restores config state num_recovery_threads schedule)
    (done : state.reopen config num_recovery_threads schedule = some next) :
    Invariant config none next := by
  unfold State.reopen at done
  simp only [Option.bind_eq_bind, Option.bind_eq_some_iff] at done
  obtain ⟨ranges, split, recovery, ran, done⟩ := done
  split at done
  · rename_i joined
    cases done
    have start := invariant.recovering split
    obtain ⟨recovering, idle⟩ :=
      start.run (restores.distinct invariant) (restores.spacious ranges split) ran
    have ended : ∀ t, recovery.todo t = [] := by
      intro t
      by_cases below : t < ranges.length
      · unfold Recovery.joined at joined
        exact List.isEmpty_iff.mp (List.all_eq_true.mp joined t (List.mem_range.mpr below))
      · apply idle
        unfold Recovery.start
        dsimp only
        rw [List.getElem?_eq_none (Nat.le_of_not_lt below)]
    exact ⟨invariant.shape.reopened recovery.map_, recovering.agrees invariant.agrees ended,
      invariant.truthful⟩
  · cases done

theorem Prudent.invariant {zero : K × V} {session : Session K V}
    (invariant : Invariant config none state) (prudent : Prudent config state session)
    (stepped : (lifetime config zero).step state session = some next) : Invariant config none next := by
  cases session with
  | step action =>
      have careful : Careful config state action := prudent
      have stepped : (machine config zero).step state action = some next := stepped
      exact careful.invariant invariant stepped
  | reopen num_recovery_threads schedule => exact invariant.reopen prudent stepped

theorem lifetime_invariant {zero : K × V}
    (reached : (lifetime config zero).Reach (Prudent config) state) : Invariant config none state := by
  apply reached.invariant
  · rintro state ⟨num_v_blocks, small, rfl⟩
    exact Invariant.created zero small
  · exact fun state session next invariant prudent stepped => prudent.invariant invariant stepped

/-! ### Concrete runs -/

section Checks

variable (config)

def spacious (pool : Pool K V) : List Nat → Recovery K V → Bool
  | [], _ => true
  | t :: rest, recovery =>
      (match recovery.todo t with
      | [] => true
      | (record, _) :: _ =>
          let word := config.keys.key_checker record.1
          let seg := recovery.map_.segments (recovery.map_.target (config.keys.hasher.hash word))
          (seg.stop config.keys.hasher word (key_check_fn config pool record.1)).isSome) &&
      (recovery.step config pool t).all (fun next => spacious pool rest next)

def prudent (n : Nat) (state : State K V) : Session K V → Bool
  | .step action => careful config n state action
  | .reopen num_recovery_threads schedule => !config.keys.using_fp &&
      (Hiom.Recovery.Ranges.recover_database state.pool.current_block_page.block_number
        num_recovery_threads).all fun ranges =>
          spacious config state.pool schedule (.start config state.pool ranges)

variable {config} {n : Nat}

theorem Spacious.of_spacious {pool : Pool K V} {recovery : Recovery K V}
    (passed : spacious config pool schedule recovery = true) :
    Spacious config pool schedule recovery := by
  induction schedule generalizing recovery with
  | nil => trivial
  | cons t rest ih =>
      rw [spacious, Bool.and_eq_true] at passed
      obtain ⟨here, later⟩ := passed
      constructor
      · intro record offset todo found full
        rw [found] at here
        dsimp only at here
        rw [full] at here
        cases here
      · intro next stepped
        rw [stepped, Option.all_some] at later
        exact ih later

theorem Prudent.of_prudent {session : Session K V} (invariant : Invariant config none state)
    (within : state.Within n) (passed : prudent config n state session = true) :
    Prudent config state session := by
  cases session with
  | step action => exact Careful.of_careful invariant within passed
  | reopen num_recovery_threads schedule =>
      obtain ⟨words, splits⟩ := Bool.and_eq_true_iff.mp passed
      constructor
      · intro fingerprint
        rw [fingerprint] at words
        cases words
      · intro ranges found
        rw [found, Option.all_some] at splits
        exact .of_spacious splits

theorem State.Within.session {zero : K × V} {session : Session K V}
    (invariant : Invariant config none state) (within : state.Within n)
    (passed : prudent config n state session = true)
    (stepped : (lifetime config zero).step state session = some next) : next.Within n := by
  cases session with
  | step action =>
      have stepped : (machine config zero).step state action = some next := stepped
      exact within.step invariant passed stepped
  | reopen num_recovery_threads schedule =>
      have reopened : state.reopen config num_recovery_threads schedule = some next := stepped
      unfold State.reopen at reopened
      simp only [Option.bind_eq_bind, Option.bind_eq_some_iff] at reopened
      obtain ⟨ranges, -, recovery, -, done⟩ := reopened
      split at done
      · cases done
        exact fun _ _ => rfl
      · cases done

theorem prudent_run {zero : K × V} {sessions : List (Session K V)}
    (reached : (lifetime config zero).Reach (Prudent config) state) (within : state.Within n)
    (ran : ((lifetime config zero).checked (prudent config n)).run state sessions = some next) :
    (lifetime config zero).Reach (Prudent config) next := by
  have ended := reached.run_checked_where
    (motive := fun after => Invariant config none after ∧ after.Within n)
    ⟨lifetime_invariant reached, within⟩
    (fun _ _ _ holds passed => .of_prudent holds.1 holds.2 passed)
    (fun _ _ _ holds passed prudent stepped =>
      ⟨prudent.invariant holds.1 stepped, holds.2.session holds.1 passed stepped⟩) ran
  exact ended.1

end Checks

/-- A pool that is closed or killed between calls and opened again is the map
that it was, in whichever order the threads have inserted the records, and they
always come to an end. -/
theorem restarts_keep_map (config : Config K) (zero : K × V) (state : State K V)
    (reached : (lifetime config zero).Reach (Prudent config) state) :
    Truthful state.log ∧
    (∀ id position, state.clients id = some position → ∀ key, config.keys.Valid key →
      (state.client position).get config key = some (map_of state.log key)) ∧
    ∀ num_recovery_threads schedule ranges,
      Prudent config state (.reopen num_recovery_threads schedule) →
      Hiom.Recovery.Ranges.recover_database state.pool.current_block_page.block_number
        num_recovery_threads = some ranges →
      (∀ t, schedule.count t = ((Recovery.start config state.pool ranges).todo t).length) →
      ∃ next, (lifetime config zero).step state (.reopen num_recovery_threads schedule) = some next ∧
        next.log = state.log := by
  have invariant := lifetime_invariant reached
  refine ⟨invariant.truthful, ?_, ?_⟩
  · intro id position here key valid
    have alone := invariant.alone here
    exact get_spec alone.unlocked alone.agrees valid
  · intro num_recovery_threads schedule ranges restores split whole
    obtain ⟨recovery, ran, ended⟩ := (invariant.recovering split).completes
      (restores.distinct invariant) (restores.spacious ranges split) whole
    have joined : recovery.joined ranges = true := by
      unfold Recovery.joined
      apply List.all_eq_true.mpr
      intro t _
      rw [ended t]
      rfl
    refine ⟨{ state with
      pool := state.pool.reopened
      map_ := recovery.map_
      clients := fun _ => none }, ?_, rfl⟩
    show state.reopen config num_recovery_threads schedule = _
    unfold State.reopen
    simp only [split, Option.bind_eq_bind, Option.bind_some]
    rw [ran, Option.bind_some, if_pos joined]

/-- Three clients put keys into three blocks. One thread recovers the first two
blocks and another one the third, which comes first. -/
def two_lifetimes : List (Session (BitVec 64) Nat) :=
  [.step (.connect 0 0), .step (.call 0 (.put 1#64 10 0)), .step (.connect 1 0),
    .step (.call 1 (.put 2#64 20 0)), .step (.connect 2 0), .step (.call 2 (.put 1#64 11 0)),
    .step (.call 0 (.put 3#64 30 0)), .reopen 2 [1, 0, 0], .step (.connect 0 0),
    .step (.call 0 (.put 2#64 21 0))]

theorem restarts_keep_map_two :
    ∃ state : State (BitVec 64) Nat,
      (lifetime crowded_config (0#64, 0)).run (.created crowded_config (0#64, 0) 4) two_lifetimes =
        some state ∧
      Truthful state.log ∧
      ∀ position, state.clients 0 = some position →
        (state.client position).get crowded_config 1#64 = some (some 11) ∧
        (state.client position).get crowded_config 2#64 = some (some 21) ∧
        (state.client position).get crowded_config 3#64 = some (some 30) := by
  have possible : (((lifetime crowded_config (0#64, 0)).checked (prudent crowded_config 3)).run
      (.created crowded_config (0#64, 0) 4) two_lifetimes).map
        (fun state => (map_of state.log 1#64, map_of state.log 2#64, map_of state.log 3#64)) =
          some (some 11, some 21, some 30) := by
    decide +kernel
  obtain ⟨state, ran, ended⟩ := Option.map_eq_some_iff.mp possible
  obtain ⟨first, ended⟩ := Prod.mk.inj ended
  obtain ⟨second, third⟩ := Prod.mk.inj ended
  have created : (lifetime crowded_config (0#64, 0)).Reach (Prudent crowded_config)
      (.created crowded_config (0#64, 0) 4) := .start ⟨4, by decide, rfl⟩
  have spec := restarts_keep_map crowded_config (0#64, 0) state
    (prudent_run created (fun _ _ => rfl) ran)
  refine ⟨state, Machine.run_of_checked ran, spec.1, ?_⟩
  intro position here
  have gets := spec.2.1 0 position here
  constructor
  · rw [gets 1#64 (by decide), first]
  · constructor
    · rw [gets 2#64 (by decide), second]
    · rw [gets 3#64 (by decide), third]

end Lifetime

end Plain

end Hiom.Viper.Records
