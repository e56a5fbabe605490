import Hiom.Checkpoint.Slots

/-!
What survives a crash inside `write`: the pointer always selects a slot that
holds one whole record, and the slot being filled is never the one that any
surviving value of the pointer selects.
-/

namespace Hiom.Checkpoint

def Stage.record : Stage → Option CheckpointRecord
  | .closed | .idle => none
  | .copy record _ _ | .fence_slot record _ | .flip record _ | .flush_pointer record _
  | .fence_pointer record _ => some record

/-- The pointer and the slot it selects are durable, and `target` is the other
one. -/
structure Spare (pmem : Pmem Nat) (shown : Option CheckpointRecord) (record : CheckpointRecord)
    (target : Nat) : Prop where
  clean : pmem.Clean valid_pointer
  selects : Selects pmem (pmem.now valid_pointer) shown
  slot : Slot target
  other : pmem.now valid_pointer ≠ target
  filled : Filled record

/-- The pointer has been turned; until it is durable a crash may turn it back. -/
structure Turned (pmem : Pmem Nat) (shown : Option CheckpointRecord) (record : CheckpointRecord)
    (target : Nat) : Prop where
  now : pmem.now valid_pointer = target
  selects : Selects pmem target (some record)
  back : ∀ p ∈ pmem.survivors valid_pointer, p = target ∨ Selects pmem p shown

/-- The file at each stage of a write; `shown` is what a crash before the stage
`flip` leaves to be read. -/
def Layout (pmem : Pmem Nat) (shown : Option CheckpointRecord) : Stage → Prop
  | .closed | .idle =>
      pmem.Clean valid_pointer ∧ Selects pmem (pmem.now valid_pointer) shown
  | .copy record target i =>
      Spare pmem shown record target ∧
        ∀ j, j < i → j < 8 → pmem.now (slot_ptr target + j) = record.word j
  | .fence_slot record target =>
      Spare pmem shown record target ∧ ∀ j, j < 8 →
        pmem.now (slot_ptr target + j) = record.word j ∧ pmem.fresh (slot_ptr target + j) = []
  | .flip record target =>
      Spare pmem shown record target ∧ Selects pmem target (some record)
  | .flush_pointer record target => Turned pmem shown record target
  | .fence_pointer record target =>
      Turned pmem shown record target ∧ pmem.fresh valid_pointer = []

variable {pmem : Pmem Nat} {target i : Nat} {record : CheckpointRecord}
  {shown base : Option CheckpointRecord} {state next : State}

theorem Spare.store (spare : Spare pmem shown record target) (low : i < 8) (value : Nat) :
    Spare (pmem.store (slot_ptr target + i) value) shown record target := by
  have kept : (pmem.store (slot_ptr target + i) value).now valid_pointer =
      pmem.now valid_pointer := if_neg (slot_ptr_pos target i).symm
  refine ⟨spare.clean.store value (slot_ptr_pos target i).symm, ?_, spare.slot, ?_, spare.filled⟩
  · rw [kept]
    exact spare.selects.store
      (fun slot j low_j => slot_ptr_apart slot spare.slot spare.other low_j low)
  · rw [kept]
    exact spare.other

theorem Spare.flush (spare : Spare pmem shown record target) (words : List Nat) :
    Spare (pmem.flush line words) shown record target where
  clean := spare.clean.flush words
  selects := spare.selects.flush words
  slot := spare.slot
  other := spare.other
  filled := spare.filled

theorem Spare.fence (spare : Spare pmem shown record target) :
    Spare pmem.fence shown record target where
  clean := spare.clean.fence
  selects := spare.selects.fence
  slot := spare.slot
  other := spare.other
  filled := spare.filled

/-- The store that turns the pointer. -/
theorem Spare.flip (spare : Spare pmem shown record target)
    (holds : Selects pmem target (some record)) :
    Turned (pmem.store valid_pointer target) shown record target where
  now := by simp
  selects := holds.store (fun _ j _ => slot_ptr_pos target j)
  back := by
    intro p survives
    rcases Pmem.survivors_store survives with ⟨-, turned⟩ | before
    · exact .inl turned
    · rw [spare.clean.survivors, List.mem_singleton] at before
      subst before
      exact .inr (spare.selects.store (fun _ j _ => slot_ptr_pos _ j))

theorem Turned.flush (turned : Turned pmem shown record target) (words : List Nat) :
    Turned (pmem.flush line words) shown record target where
  now := turned.now
  selects := turned.selects.flush words
  back := fun p survives =>
    (turned.back p (Pmem.survivors_flush survives)).imp_right (fun selects => selects.flush words)

theorem Layout.move (layout : Layout state.pmem shown state.stage)
    (stepped : state.move = some next) :
    Layout next.pmem (if next.stage matches .idle then state.stage.record else shown)
      next.stage := by
  unfold State.move at stepped
  split at stepped <;> rename_i stage <;> rw [stage] at layout
  · cases stepped
  · cases stepped
  · obtain ⟨spare, copied⟩ := layout
    split at stepped <;> cases stepped
    · rename_i record target i low
      refine ⟨spare.store low _, fun j below bound => ?_⟩
      by_cases here : j = i
      · subst here
        simp
      · have apart : slot_ptr target + j ≠ slot_ptr target + i :=
          fun same => here (Nat.add_left_cancel same)
        simp only [Pmem.store_now]
        rw [if_neg apart]
        exact copied j (by omega) bound
    · rename_i record target i done
      refine ⟨spare.flush _, fun j bound => ⟨copied j (by omega) bound, ?_⟩⟩
      exact Pmem.flush_fresh (List.mem_map.mpr ⟨j, List.mem_range.mpr bound, rfl⟩)
  · obtain ⟨spare, copied⟩ := layout
    cases stepped
    refine ⟨spare.fence, spare.slot, fun j bound => ?_, spare.filled⟩
    exact ⟨(copied j bound).1, Pmem.fence_clean (copied j bound).2⟩
  · cases stepped
    exact layout.1.flip layout.2
  · cases stepped
    exact ⟨layout.flush _, Pmem.flush_fresh List.mem_cons_self⟩
  · rename_i record target
    cases stepped
    rw [stage]
    refine ⟨Pmem.fence_clean layout.2, ?_⟩
    have now : state.pmem.fence.now valid_pointer = target := layout.1.now
    rw [now]
    exact layout.1.selects.fence

/-- A crash leaves a pointer that selects what was shown before, or all of the
record that was being written. -/
theorem Layout.crash {stage : Stage} (layout : Layout pmem shown stage) (choice : Nat → Nat) :
    ∃ after, Layout (.settled (pmem.image choice)) after .closed ∧
      (after = shown ∨ ∃ record, stage.record = some record ∧ after = some record) := by
  have settled : ∀ after, Selects pmem (pmem.image choice valid_pointer) after →
      Layout (.settled (pmem.image choice)) after .closed := fun after selects =>
    ⟨Pmem.settled_clean _ _, selects.image choice⟩
  have kept : ∀ {record target}, Spare pmem shown record target →
      Selects pmem (pmem.image choice valid_pointer) shown := by
    intro record target spare
    rw [spare.clean.image]
    exact spare.selects
  have turned : ∀ {record target}, Turned pmem shown record target →
      ∃ after, Selects pmem (pmem.image choice valid_pointer) after ∧
        (after = shown ∨ after = some record) := by
    intro record target turned
    rcases turned.back _ (pmem.image_mem choice valid_pointer) with new | old
    · rw [new]
      exact ⟨_, turned.selects, .inr rfl⟩
    · exact ⟨_, old, .inl rfl⟩
  cases stage with
  | closed =>
      refine ⟨shown, settled shown ?_, .inl rfl⟩
      rw [layout.1.image]
      exact layout.2
  | idle =>
      refine ⟨shown, settled shown ?_, .inl rfl⟩
      rw [layout.1.image]
      exact layout.2
  | copy => exact ⟨shown, settled shown (kept layout.1), .inl rfl⟩
  | fence_slot => exact ⟨shown, settled shown (kept layout.1), .inl rfl⟩
  | flip => exact ⟨shown, settled shown (kept layout.1), .inl rfl⟩
  | flush_pointer =>
      obtain ⟨after, selects, either⟩ := turned layout
      exact ⟨after, settled after selects, either.imp_right (fun new => ⟨_, rfl, new⟩)⟩
  | fence_pointer =>
      obtain ⟨after, selects, either⟩ := turned layout.1
      exact ⟨after, settled after selects, either.imp_right (fun new => ⟨_, rfl, new⟩)⟩

/-- What is read at each stage. -/
theorem Layout.read_valid {stage : Stage} (layout : Layout pmem shown stage) :
    Checkpoint.read_valid pmem.now = shown ∨
      ∃ record, stage.record = some record ∧ Checkpoint.read_valid pmem.now = some record := by
  have turned : ∀ {record target}, Turned pmem shown record target →
      Checkpoint.read_valid pmem.now = some record := by
    intro record target turned
    refine Selects.read_valid ?_
    rw [turned.now]
    exact turned.selects
  cases stage with
  | closed => exact .inl layout.2.read_valid
  | idle => exact .inl layout.2.read_valid
  | copy => exact .inl layout.1.selects.read_valid
  | fence_slot => exact .inl layout.1.selects.read_valid
  | flip => exact .inl layout.1.selects.read_valid
  | flush_pointer => exact .inr ⟨_, rfl, turned layout⟩
  | fence_pointer => exact .inr ⟨_, rfl, turned layout.1⟩

theorem Layout.begin {body : CheckpointRecord}
    (layout : Layout state.pmem shown .idle) :
    Layout (state.begin body).pmem shown (state.begin body).stage := by
  have slot : Slot (if state.pmem.now valid_pointer = kSlotA then kSlotB else kSlotA) := by
    split
    · exact .inr rfl
    · exact .inl rfl
  have other : state.pmem.now valid_pointer ≠
      if state.pmem.now valid_pointer = kSlotA then kSlotB else kSlotA := by
    split
    · rename_i a
      rw [a]
      decide
    · assumption
  exact ⟨⟨layout.1, layout.2, slot, other, filled_sealed body⟩,
    fun _ none => absurd none (Nat.not_lt_zero _)⟩

/-! ### Which record is read -/

/-- The last record of a completed write, or one whose write began since. -/
def State.Recent (state : State) (shown : Option CheckpointRecord) : Prop :=
  shown = state.completed ∨ ∃ record ∈ state.begun, shown = some record

structure Shows (state : State) (shown : Option CheckpointRecord) : Prop where
  layout : Layout state.pmem shown state.stage
  begun : ∀ record, state.stage.record = some record → record ∈ state.begun
  recent : state.Recent shown

theorem created_shows : Shows State.created none where
  layout := ⟨Pmem.settled_clean _ _, rfl⟩
  begun := fun _ none => nomatch none
  recent := .inl rfl

theorem Shows.begin {body : CheckpointRecord} (shows : Shows state shown)
    (idle : state.stage = .idle) : Shows (state.begin body) shown where
  layout := Layout.begin (idle ▸ shows.layout)
  begun := fun _ record => Option.some.inj record ▸ List.mem_cons_self
  recent := shows.recent.imp_right
    (fun ⟨record, member, same⟩ => ⟨record, List.mem_cons_of_mem _ member, same⟩)

theorem move_ghosts (stepped : state.move = some next) :
    next.seq = state.seq ∧
      (next.stage.record = state.stage.record ∧ next.completed = state.completed ∧
          next.begun = state.begun ∧ next.stage ≠ .idle ∧ next.stage ≠ .closed ∨
        next.stage = .idle ∧ next.completed = state.stage.record ∧ state.stage.record.isSome) := by
  unfold State.move at stepped
  split at stepped <;> rename_i stage <;> simp only [stage]
  · cases stepped
  · cases stepped
  · split at stepped <;> cases stepped
    · exact ⟨rfl, .inl ⟨rfl, rfl, rfl, Stage.noConfusion, Stage.noConfusion⟩⟩
    · exact ⟨rfl, .inl ⟨rfl, rfl, rfl, Stage.noConfusion, Stage.noConfusion⟩⟩
  · cases stepped
    exact ⟨rfl, .inl ⟨rfl, rfl, rfl, Stage.noConfusion, Stage.noConfusion⟩⟩
  · cases stepped
    exact ⟨rfl, .inl ⟨rfl, rfl, rfl, Stage.noConfusion, Stage.noConfusion⟩⟩
  · cases stepped
    exact ⟨rfl, .inl ⟨rfl, rfl, rfl, Stage.noConfusion, Stage.noConfusion⟩⟩
  · cases stepped
    exact ⟨rfl, .inr ⟨rfl, rfl, rfl⟩⟩

theorem Shows.step {action : Action} (shows : Shows state shown)
    (stepped : state.step action = some next) :
    ∃ after, Shows next after ∧
      (after = shown ∨ ∃ record, state.stage.record = some record ∧ after = some record) := by
  cases action with
  | write record =>
      simp only [State.step] at stepped
      split at stepped
      · rename_i idle
        cases stepped
        exact ⟨shown, shows.begin idle, .inl rfl⟩
      · cases stepped
  | try_write_checkpoint flushed_count vpage_frontier cold_size proto =>
      simp only [State.step] at stepped
      split at stepped
      · rename_i idle
        cases stepped
        have raised : Shows { state with seq := state.seq + 1 } shown :=
          ⟨shows.layout, shows.begun, shows.recent⟩
        exact ⟨shown, raised.begin idle, .inl rfl⟩
      · cases stepped
  | move =>
      have layout := shows.layout.move stepped
      obtain ⟨-, writing | ⟨idle, completed, writing⟩⟩ := move_ghosts stepped
      · obtain ⟨record, same_completed, same_begun, busy, -⟩ := writing
        refine ⟨shown, ⟨?_, ?_, ?_⟩, .inl rfl⟩
        · split at layout
          · rename_i idle
            exact absurd idle busy
          · exact layout
        · rw [record, same_begun]
          exact shows.begun
        · rw [State.Recent, same_completed, same_begun]
          exact shows.recent
      · rw [idle] at layout
        refine ⟨state.stage.record, ⟨?_, ?_, .inl completed.symm⟩, ?_⟩
        · rw [idle]
          exact layout
        · rw [idle]
          intro record present
          cases present
        · obtain ⟨record, writing⟩ := Option.isSome_iff_exists.mp writing
          exact .inr ⟨record, writing, writing⟩
  | crash choice =>
      cases stepped
      obtain ⟨after, layout, either⟩ := shows.layout.crash choice
      refine ⟨after, ⟨layout, (fun record present => by cases present), ?_⟩, either⟩
      rcases either with same | ⟨record, writing, new⟩
      · rw [same]
        exact shows.recent
      · exact .inr ⟨record, shows.begun record writing, new⟩
  | «open» =>
      simp only [State.step] at stepped
      split at stepped
      · rename_i closed
        cases stepped
        refine ⟨shown, ⟨?_, (fun record present => by cases present), shows.recent⟩, .inl rfl⟩
        have layout := shows.layout
        rw [closed] at layout
        exact layout
      · cases stepped

theorem Shows.read_valid (shows : Shows state shown) :
    Checkpoint.read_valid state.pmem.now = shown ∨ ∃ record,
      state.stage.record = some record ∧ Checkpoint.read_valid state.pmem.now = some record :=
  shows.layout.read_valid

theorem machine_shows (reached : machine.Reachable state) : ∃ shown, Shows state shown := by
  apply reached.invariant
  · rintro _ rfl
    exact ⟨none, created_shows⟩
  · rintro state action next ⟨shown, shows⟩ _ stepped
    obtain ⟨after, shows, _⟩ := shows.step stepped
    exact ⟨after, shows⟩

/-! ### Sequence numbers -/

def by_hiom (_ : State) : Action → Bool
  | .write _ => false
  | _ => true

def Precedes (base shown : Option CheckpointRecord) : Prop :=
  ∀ record, base = some record → ∃ later, shown = some later ∧ record.seq ≤ later.seq

theorem Precedes.refl (base : Option CheckpointRecord) : Precedes base base :=
  fun record present => ⟨record, present, Nat.le_refl _⟩

structure Ordered (base : Option CheckpointRecord) (state : State)
    (shown : Option CheckpointRecord) : Prop where
  kept : Precedes base shown
  primed : state.stage ≠ .closed → ∀ record, shown = some record → record.seq ≤ state.seq
  writing : ∀ record, state.stage.record = some record → record.seq = state.seq

theorem Ordered.replace {after : Option CheckpointRecord} (ordered : Ordered base state shown)
    (either : after = shown ∨ ∃ record, state.stage.record = some record ∧ after = some record) :
    Precedes base after := by
  rcases either with rfl | ⟨record, writing, rfl⟩
  · exact ordered.kept
  · intro first present
    obtain ⟨later, same, order⟩ := ordered.kept first present
    have busy : state.stage ≠ .closed := by
      intro closed
      rw [closed] at writing
      cases writing
    have raised := ordered.primed busy later same
    have current := ordered.writing record writing
    exact ⟨record, rfl, by omega⟩

/-- A record that is shown after a step of a running process is not ahead of
`seq_`. -/
theorem Ordered.behind {after : Option CheckpointRecord} {record : CheckpointRecord}
    (ordered : Ordered base state shown) (running : state.stage ≠ .closed)
    (either : after = shown ∨ ∃ record, state.stage.record = some record ∧ after = some record)
    (present : after = some record) : record.seq ≤ state.seq := by
  rcases either with rfl | ⟨written, writing, rfl⟩
  · exact ordered.primed running record present
  · rw [← Option.some.inj present]
    exact Nat.le_of_eq (ordered.writing written writing)

theorem Ordered.step {action : Action} (shows : Shows state shown)
    (ordered : Ordered base state shown) (hiom : by_hiom state action = true)
    (stepped : state.step action = some next) :
    ∃ after, Shows next after ∧ Ordered base next after := by
  obtain ⟨after, shows_next, either⟩ := shows.step stepped
  have kept := ordered.replace either
  cases action with
  | write record => cases hiom
  | try_write_checkpoint flushed_count vpage_frontier cold_size proto =>
      simp only [State.step] at stepped
      split at stepped
      · rename_i idle
        cases stepped
        have running : state.stage ≠ .closed := by
          rw [idle]
          exact Stage.noConfusion
        refine ⟨after, shows_next, kept, fun _ record present => ?_, fun record writing => ?_⟩
        · exact Nat.le_succ_of_le (ordered.behind running either present)
        · cases writing
          rfl
      · cases stepped
  | move =>
      have running : state.stage ≠ .closed := by
        intro closed
        simp only [State.step, State.move, closed] at stepped
        cases stepped
      obtain ⟨seq, stage⟩ := move_ghosts stepped
      refine ⟨after, shows_next, kept, fun _ record present => ?_, fun record writing => ?_⟩
      · rw [seq]
        exact ordered.behind running either present
      · rw [seq]
        rcases stage with ⟨same, -⟩ | ⟨idle, -⟩
        · exact ordered.writing record (same.symm.trans writing)
        · rw [idle] at writing
          cases writing
  | crash choice =>
      cases stepped
      exact ⟨after, shows_next, kept, fun running => absurd rfl running,
        fun _ none => nomatch none⟩
  | «open» =>
      simp only [State.step] at stepped
      split at stepped
      · cases stepped
        refine ⟨after, shows_next, kept, fun _ record present => ?_, fun _ none => nomatch none⟩
        rcases shows_next.read_valid with read | ⟨_, none, _⟩
        · dsimp only at read ⊢
          rw [read, present]
          exact Nat.le_refl _
        · cases none
      · cases stepped

def State.AtRest (state : State) : Prop := state.stage.record = none

theorem Shows.at_rest (shows : Shows state shown) (rest : state.AtRest) :
    Checkpoint.read_valid state.pmem.now = shown := by
  refine shows.read_valid.resolve_right ?_
  rintro ⟨record, writing, -⟩
  cases rest.symm.trans writing

theorem Ordered.run {actions : List Action} (shows : Shows state shown)
    (ordered : Ordered base state shown)
    (ran : (machine.checked by_hiom).run state actions = some next) :
    ∃ after, Shows next after ∧ Ordered base next after := by
  induction actions generalizing state shown with
  | nil =>
      cases ran
      exact ⟨shown, shows, ordered⟩
  | cons action rest ih =>
      simp only [Machine.run, Machine.checked] at ran
      split at ran
      · rename_i middle stepped
        split at stepped
        · rename_i hiom
          obtain ⟨after, shows, ordered⟩ := ordered.step shows hiom stepped
          exact ih shows ordered ran
        · cases stepped
      · cases ran

theorem created_ordered : Ordered none State.created none where
  kept := Precedes.refl none
  primed := fun _ _ none => nomatch none
  writing := fun _ none => nomatch none

/-- A reader gets the record of the last completed write or all of one whose
write began since. -/
def Atomic (state : State) : Prop := state.Recent (read_valid state.pmem.now)

theorem Shows.atomic (shows : Shows state shown) : Atomic state := by
  rcases shows.read_valid with read | ⟨record, writing, read⟩
  · rw [Atomic, read]
    exact shows.recent
  · exact .inr ⟨record, shows.begun record writing, read⟩

/-- The second part is about two moments of a run with no write under way, and
any steps of HiOM, crashes and reopenings between them. -/
theorem checkpoint_atomic :
    (∀ state, machine.Reachable state → Atomic state) ∧
    ∀ before between first second,
      (machine.checked by_hiom).run State.created before = some first → first.AtRest →
      (machine.checked by_hiom).run first between = some second → second.AtRest →
      Precedes (read_valid first.pmem.now) (read_valid second.pmem.now) := by
  constructor
  · intro state reached
    obtain ⟨shown, shows⟩ := machine_shows reached
    exact shows.atomic
  · intro before between first second ran_before rest_first ran_between rest_second
    obtain ⟨shown, shows, ordered⟩ := created_ordered.run created_shows ran_before
    have restarted : Ordered shown first shown :=
      ⟨Precedes.refl shown, ordered.primed, ordered.writing⟩
    obtain ⟨after, shows_second, ordered⟩ := restarted.run shows ran_between
    rw [shows.at_rest rest_first, shows_second.at_rest rest_second]
    exact ordered.kept

/-- One write that completes, and one that is cut off once the pointer has been
turned and before it is durable. -/
def one_write : List Action := .try_write_checkpoint 10 1 5 2 :: List.replicate 13 .move

def cut_write : List Action :=
  .try_write_checkpoint 20 2 6 2 :: List.replicate 11 .move ++ [.crash (fun _ => 1), .open]

theorem checkpoint_atomic_cut :
    ∃ first second, (machine.checked by_hiom).run State.created one_write = some first ∧
      (machine.checked by_hiom).run first cut_write = some second ∧ Atomic second ∧
      Precedes (read_valid first.pmem.now) (read_valid second.pmem.now) := by
  obtain ⟨first, second, ran_first, rest_first, ran_second, rest_second⟩ : ∃ first second,
      (machine.checked by_hiom).run State.created one_write = some first ∧ first.AtRest ∧
        (machine.checked by_hiom).run first cut_write = some second ∧ second.AtRest :=
    ⟨_, _, rfl, rfl, rfl, rfl⟩
  have reached : machine.Reachable second :=
    .run (.run (.start rfl) (Machine.run_of_checked ran_first)) (Machine.run_of_checked ran_second)
  exact ⟨first, second, ran_first, ran_second, checkpoint_atomic.1 second reached,
    checkpoint_atomic.2 _ _ first second ran_first rest_first ran_second rest_second⟩

end Hiom.Checkpoint
