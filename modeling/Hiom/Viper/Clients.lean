import Hiom.Viper.Calls

/-!
The clients of Viper that act one after another: their blocks are apart, and no
operation of one disturbs another.
-/

namespace Hiom.Viper.Records.Plain

variable {K V : Type}

def State.writer (state : State K V) (position : Position) : Writer K V := ⟨state.pool, position⟩

/-- What holds between two operations. A reclamation holds the lock of one page
while it puts the records of that page elsewhere. -/
structure Shape (layout : Layout) (held : Option (Nat × Nat)) (state : State K V) : Prop where
  pool : state.pool.Sound layout
  placed : ∀ id position, state.clients id = some position → (state.writer position).Placed layout
  used : ∀ id position, state.clients id = some position →
    (state.writer position).v_page.version_lock.is_used = true
  apart : ∀ id position other other_position, state.clients id = some position →
    state.clients other = some other_position → other ≠ id →
    other_position.v_block_number ≠ position.v_block_number
  claimed : ∀ key off value, Lives layout state.pool.v_blocks key off value →
    ¬state.pool.Unclaimed off.block_number
  blank : ∀ id position, state.clients id = some position → ∀ key off value,
    Lives layout state.pool.v_blocks key off value →
    ¬(state.writer position).Later layout off.block_number off.page_number
  unlocked : ∀ bn pn, held ≠ some (bn, pn) →
    (state.pool.v_blocks bn pn).version_lock.is_locked = false
  locked : ∀ bn pn, held = some (bn, pn) → pn < layout.num_pages_per_block ∧
    (state.pool.v_blocks bn pn).version_lock.is_locked = true ∧ ¬state.pool.Unclaimed bn ∧
    ∀ id position, state.clients id = some position → position.v_block_number ≠ bn

section Shape

variable {layout : Layout} {held : Option (Nat × Nat)} {state : State K V} {id : Nat}
  {position : Position} {before : Writer K V} {after : Client K V}

theorem Shape.ready (shape : Shape layout held state) (here : state.clients id = some position) :
    Ready layout (state.writer position) := by
  constructor
  · exact shape.placed id position here
  · apply shape.unlocked
    intro same
    exact (shape.locked _ _ same).2.2.2 id position here rfl
  · exact shape.used id position here
  · rintro key off value alive (unclaimed | later)
    · exact shape.claimed key off value alive unclaimed
    · exact shape.blank id position here key off value alive later

/-- An operation leaves the other clients alone. It begins where its client is,
or on a page of a block that no one has. -/
theorem Shape.returned (shape : Shape layout held state) (pool : before.toPool = state.pool)
    (effect : before.Effect layout false after.writer)
    (blank : ∀ key off value, Lives layout before.v_blocks key off value →
      ¬before.Ahead layout off.block_number off.page_number)
    (others : ∀ other other_position, state.clients other = some other_position → other ≠ id →
      other_position.v_block_number ≠ before.v_block_number ∧
        other_position.v_block_number ≠ after.writer.v_block_number)
    (off_held : ∀ bn pn, held = some (bn, pn) →
      bn ≠ before.v_block_number ∧ bn ≠ after.writer.v_block_number) :
    Shape layout held (state.returned id after) := by
  have unclaimed : ∀ bn, after.writer.Unclaimed bn → state.pool.Unclaimed bn := by
    intro bn now
    rw [← pool]
    exact effect.unclaimed bn now
  have clients : ∀ {other other_position},
      (state.returned id after).clients other = some other_position →
      other = id ∧ other_position = after.writer.toPosition ∨
        other ≠ id ∧ state.clients other = some other_position := by
    intro other other_position here
    unfold State.returned at here
    dsimp only at here
    rw [Function.update_apply] at here
    split at here
    · rename_i same
      exact .inl ⟨same, (Option.some.inj here).symm⟩
    · rename_i different
      exact .inr ⟨different, here⟩
  have came : ∀ key off value, Lives layout after.writer.v_blocks key off value →
      ¬after.writer.Ahead layout off.block_number off.page_number ∧
        ∀ other other_position, state.clients other = some other_position → other ≠ id →
          ¬(state.writer other_position).Later layout off.block_number off.page_number := by
    intro key off value alive
    rcases effect.came key off value alive with ⟨old_key, old_value, was⟩ | ⟨block, page⟩
    · constructor
      · intro ahead
        exact blank _ _ _ was (effect.ahead _ _ alive.page_lt ahead)
      · intro other other_position there _
        have lives : Lives layout state.pool.v_blocks old_key off old_value := by
          rw [← pool]
          exact was
        exact shape.blank other other_position there _ _ _ lives
    · rw [block, page]
      constructor
      · exact effect.placed.not_ahead
      · intro other other_position there different later
        exact (others other other_position there different).2 later.1.symm
  constructor
  · exact effect.placed.pool
  · intro other other_position here
    rcases clients here with ⟨-, rfl⟩ | ⟨-, there⟩
    · exact effect.placed
    · have placed := shape.placed other other_position there
      exact ⟨effect.placed.pool, placed.page_lt, placed.processed_lt,
        fun now => placed.claimed (unclaimed _ now)⟩
  · intro other other_position here
    rcases clients here with ⟨-, rfl⟩ | ⟨different, there⟩
    · exact effect.used
    · have placed := shape.placed other other_position there
      have away := others other other_position there different
      have same := (effect.frame other_position.v_block_number other_position.v_page_number
        (fun own => away.2 own.1) placed.page_lt (by
          rintro (free | later)
          · rw [pool] at free
            exact placed.claimed free
          · exact away.1 later.1)).2
      unfold Writer.page at same
      rw [pool] at same
      exact same.trans (shape.used other other_position there)
  · intro other other_position third third_position here there different
    rcases clients here with ⟨first, rfl⟩ | ⟨elsewhere, first⟩
    · rcases clients there with ⟨second, -⟩ | ⟨third_elsewhere, second⟩
      · exact absurd (second.trans first.symm) different
      · exact (others third third_position second third_elsewhere).2
    · rcases clients there with ⟨-, rfl⟩ | ⟨-, second⟩
      · exact (others other other_position first elsewhere).2.symm
      · exact shape.apart other other_position third third_position first second different
  · intro key off value alive now
    exact (came key off value alive).1 (.inl now)
  · intro other other_position here key off value alive later
    rcases clients here with ⟨-, rfl⟩ | ⟨different, there⟩
    · exact (came key off value alive).1 (.inr later)
    · exact (came key off value alive).2 other other_position there different later
  · intro bn pn free
    by_cases own : bn = after.writer.v_block_number ∧ pn = after.writer.v_page_number
    · rw [own.1, own.2]
      exact effect.locked
    · apply effect.unlocked bn pn own
      unfold Writer.page
      rw [pool]
      exact shape.unlocked bn pn free
  · intro bn pn holds
    obtain ⟨inside, locked, claimed, away⟩ := shape.locked bn pn holds
    have off := off_held bn pn holds
    refine ⟨inside, ?_, fun now => claimed (unclaimed bn now), ?_⟩
    · have same := (effect.frame bn pn (fun own => off.2 own.1) inside (by
        rintro (free | later)
        · rw [pool] at free
          exact claimed free
        · exact off.1 later.1)).1
      unfold Writer.page at same
      rw [pool] at same
      exact same.trans locked
    · intro other other_position here
      rcases clients here with ⟨-, rfl⟩ | ⟨-, there⟩
      · exact off.2.symm
      · exact away other other_position there

/-- The operation of a client of the state. -/
theorem Shape.client_returned (shape : Shape layout held state)
    (here : state.clients id = some position)
    (effect : (state.writer position).Effect layout false after.writer) :
    Shape layout held (state.returned id after) := by
  apply shape.returned rfl effect (shape.ready here).blank
  · intro other other_position there different
    have before := shape.apart id position other other_position here there different
    refine ⟨before, ?_⟩
    rcases effect.claims with same | free
    · rw [same]
      exact before
    · intro same
      apply (shape.placed other other_position there).claimed
      show state.pool.Unclaimed other_position.v_block_number
      rw [same]
      exact free
  · intro bn pn holds
    obtain ⟨-, -, claimed, away⟩ := shape.locked bn pn holds
    refine ⟨(away id position here).symm, ?_⟩
    rcases effect.claims with same | free
    · rw [same]
      exact (away id position here).symm
    · rintro rfl
      exact claimed free

/-- A new client. -/
theorem Shape.client_connected {writer : Writer K V} (shape : Shape layout none state)
    (pool : writer.toPool = state.pool)
    (entered : writer.Entered layout after.writer) :
    Shape layout none (state.returned id after) := by
  have was : state.pool.Unclaimed after.writer.v_block_number := by
    rw [← pool]
    exact entered.was
  apply shape.returned (show Writer.toPool ⟨writer.toPool, after.writer.toPosition⟩ = _ from pool)
    entered.effect
  · rintro key off value alive ahead
    have lives : Lives layout state.pool.v_blocks key off value := by
      rw [← pool]
      exact alive
    apply shape.claimed key off value lives
    rcases ahead with free | later
    · rw [← pool]
      exact free
    · rw [later.1]
      exact was
  · intro other other_position there different
    have away : other_position.v_block_number ≠ after.writer.v_block_number := by
      intro same
      apply (shape.placed other other_position there).claimed
      show state.pool.Unclaimed other_position.v_block_number
      rw [same]
      exact was
    exact ⟨away, away⟩
  · intro bn pn holds
    cases holds

/-- Marks on blocks, more blocks and fewer clients do not matter. -/
theorem Shape.like {next : State K V} (shape : Shape layout held state)
    (sound : next.pool.Sound layout)
    (next_same : next.pool.current_block_page = state.pool.current_block_page)
    (free_same : next.pool.free_blocks = state.pool.free_blocks)
    (like : ∀ bn pn, (next.pool.v_blocks bn pn).Like (state.pool.v_blocks bn pn))
    (fewer : ∀ id position, next.clients id = some position → state.clients id = some position) :
    Shape layout held next := by
  have unclaimed : ∀ bn, next.pool.Unclaimed bn ↔ state.pool.Unclaimed bn := by
    intro bn
    unfold Pool.Unclaimed
    rw [next_same, free_same]
  have lives : ∀ key off value, Lives layout next.pool.v_blocks key off value ↔
      Lives layout state.pool.v_blocks key off value :=
    fun key off value => Lives.congr ((like _ _).live _) (congrFun (like _ _).data _)
  constructor
  · exact sound
  · intro id position here
    have placed := shape.placed id position (fewer id position here)
    exact ⟨sound, placed.page_lt, placed.processed_lt,
      fun now => placed.claimed ((unclaimed _).mp now)⟩
  · intro id position here
    exact (like _ _).used.trans (shape.used id position (fewer id position here))
  · intro id position other other_position here there
    exact shape.apart id position other other_position (fewer _ _ here) (fewer _ _ there)
  · intro key off value alive now
    exact shape.claimed key off value ((lives _ _ _).mp alive) ((unclaimed _).mp now)
  · intro id position here key off value alive
    exact shape.blank id position (fewer id position here) key off value ((lives _ _ _).mp alive)
  · intro bn pn free
    exact (like bn pn).locked.trans (shape.unlocked bn pn free)
  · intro bn pn holds
    obtain ⟨inside, locked, claimed, away⟩ := shape.locked bn pn holds
    exact ⟨inside, (like bn pn).locked.trans locked, fun now => claimed ((unclaimed bn).mp now),
      fun id position here => away id position (fewer id position here)⟩

end Shape

/-! ### Contents under the operations -/

section Contents

variable [DecidableEq K] {config : Config K} {state next : State K V} {id rand : Nat}
  {position : Position} {map : K → Option V}

/-- Pages that are alike hold the same. -/
theorem Contents.like {pool after : Pool K V} {map_ : Cceh.Index} (agrees : Agrees config pool map_ map)
    (like : ∀ bn pn, (after.v_blocks bn pn).Like (pool.v_blocks bn pn)) :
    Agrees config after map_ map := by
  apply agrees.congr
  · exact fun key off value => Lives.congr ((like _ _).live _) (congrFun (like _ _).data _)
  · intro key off passes
    apply key_check_less _ passes
    intro taken
    rw [(like _ _).free_slots] at taken
    rw [(like _ _).data]
    exact ⟨taken, rfl⟩

omit [DecidableEq K] in
/-- A new client begins on an empty page. -/
theorem entered_lives {layout : Layout} {writer after : Writer K V}
    (entered : writer.Entered layout after)
    (claimed : ∀ key off value, Lives layout writer.v_blocks key off value →
      ¬writer.Unclaimed off.block_number) (key : K) (off : KVOffset) (value : V) :
    Lives layout after.v_blocks key off value ↔ Lives layout writer.v_blocks key off value := by
  have was := entered.was
  by_cases own : off.block_number = after.v_block_number ∧ off.page_number = after.v_page_number
  · constructor
    · intro alive
      have live := alive.live
      rw [own.1, own.2] at live
      exact absurd live (entered.fresh.not_live _)
    · intro alive
      rw [← own.1] at was
      exact absurd was (claimed key off value alive)
  · have like := entered.like _ _ own
    exact Lives.congr (like.live _) (congrFun like.data _)

/-- What a new client leaves: it has a block of its own. -/
theorem Contents.entered {writer after : Writer K V} {map_ : Cceh.Index}
    (agrees : Agrees config writer.toPool map_ map) (entered : writer.Entered config.layout after)
    (claimed : ∀ key off value, Lives config.layout writer.v_blocks key off value →
      ¬writer.Unclaimed off.block_number) :
    Agrees config after.toPool map_ map := by
  apply agrees.congr (entered_lives entered claimed)
  intro key off passes
  apply key_check_less _ passes
  intro taken
  by_cases own : off.block_number = after.v_block_number ∧ off.page_number = after.v_page_number
  · have free := entered.fresh.free_slots off.data_offset
    unfold Writer.v_page Writer.page at free
    rw [← own.1, ← own.2] at free
    rw [free] at taken
    cases taken
  · have like := entered.like _ _ own
    have free_slots := congrFun like.free_slots off.data_offset
    have data := congrFun like.data off.data_offset
    unfold Writer.page at free_slots data
    rw [free_slots] at taken
    rw [data]
    exact ⟨taken, rfl⟩

/-- What holds between two operations, of which none is under way but perhaps a
reclamation. -/
structure Invariant (config : Config K) (held : Option (Nat × Nat)) (state : State K V) : Prop where
  shape : Shape config.layout held state
  agrees : Agrees config state.pool state.map_ (map_of state.log)
  truthful : Truthful state.log

theorem Invariant.alone (invariant : Invariant config none state)
    (here : state.clients id = some position) :
    Alone config (state.client position) (map_of state.log) :=
  ⟨invariant.shape.ready here, fun _ _ _ _ => invariant.shape.unlocked _ _ (by simp), invariant.agrees⟩

theorem Invariant.created (zero : K × V) {num_v_blocks : Nat} (small : num_v_blocks < 2 ^ 45) :
    Invariant config none (State.created config zero num_v_blocks) := by
  have nothing : ∀ key off value,
      ¬Lives config.layout (State.created config zero num_v_blocks).pool.v_blocks key off value := by
    intro key off value alive
    have used := alive.live.1
    revert used
    show ¬version_lock_t.is_used 0#8 = true
    decide
  constructor
  · constructor
    · constructor
      · show (KVOffset.of_parts 0 0 0).page_number < _
        rw [KVOffset.page_number_of_parts (by decide)]
        exact config.layout.pages_pos
      · show (KVOffset.of_parts 0 0 0).block_number ≤ _
        rw [KVOffset.block_number_of_parts (by decide)]
        exact Nat.zero_le _
      · exact small
      · intro bn inside
        cases inside
      · exact List.nodup_nil
    · intro id position here
      cases here
    · intro id position here
      cases here
    · intro id position other other_position here
      cases here
    · exact fun key off value alive => absurd alive (nothing key off value)
    · intro id position here
      cases here
    · intro bn pn _
      show version_lock_t.is_locked 0#8 = false
      decide
    · intro bn pn holds
      cases holds
  · constructor
    · exact Cceh.Index.create_intact config.cceh_depth_le
    · exact fun key off value alive => absurd alive (nothing key off value)
    · exact fun key off valid has => absurd has (Cceh.Index.create_has valid.1)
    · intro key value here
      cases here
    · exact fun key off value _ _ alive => absurd alive (nothing key off value)
    · exact fun key off valid has => absurd has (Cceh.Index.create_has valid.1)
  · trivial

theorem Invariant.connect (invariant : Invariant config none state)
    (connected : state.connect config id rand = some next) :
    Invariant config none next ∧ next.log = state.log := by
  unfold State.connect at connected
  split at connected
  · cases connected
  · rw [Option.bind_eq_bind, Option.bind_eq_some_iff] at connected
    obtain ⟨writer, taken, same⟩ := connected
    cases same
    have entered := Writer.get_block_based_access_entered invariant.shape.pool taken
    exact ⟨⟨invariant.shape.client_connected rfl entered,
      Contents.entered invariant.agrees entered invariant.shape.claimed, invariant.truthful⟩, rfl⟩

theorem Invariant.disconnect (invariant : Invariant config none state)
    (disconnected : state.disconnect id = some next) :
    Invariant config none next ∧ next.log = state.log := by
  unfold State.disconnect at disconnected
  rw [Option.bind_eq_bind, Option.bind_eq_some_iff] at disconnected
  obtain ⟨position, here, same⟩ := disconnected
  cases same
  obtain ⟨next_same, blocks, free, like⟩ := @Writer.leave_block_like K V ⟨state.pool, position⟩
    (some position.v_block_number)
  have sound := invariant.shape.pool
  have agrees := Contents.like invariant.agrees like
  refine ⟨⟨invariant.shape.like ?_ next_same free like ?_, agrees, invariant.truthful⟩, rfl⟩
  · constructor
    · exact sound.next_page_lt
    · exact sound.next_le
    · exact sound.blocks_lt
    · exact sound.free_lt
    · exact sound.free_nodup
  · intro other other_position there
    dsimp only at there
    rw [Function.update_apply] at there
    split at there
    · cases there
    · exact there

theorem Invariant.grow (invariant : Invariant config none state) {n : Nat}
    (small : state.pool.num_v_blocks + n < 2 ^ 45) :
    Invariant config none
      { state with pool := { state.pool with num_v_blocks := state.pool.num_v_blocks + n } } := by
  have sound := invariant.shape.pool
  have like : ∀ bn pn, (state.pool.v_blocks bn pn).Like (state.pool.v_blocks bn pn) :=
    fun _ _ => .refl _
  refine ⟨invariant.shape.like ?_ rfl rfl like (fun _ _ here => here),
    Contents.like invariant.agrees like, invariant.truthful⟩
  constructor
  · exact sound.next_page_lt
  · exact Nat.le_trans sound.next_le (Nat.le_add_right _ _)
  · exact small
  · exact sound.free_lt
  · exact sound.free_nodup

theorem Invariant.call (invariant : Invariant config none state) {call : Call K V} {answer : Answer V}
    {after : Client K V} (here : state.clients id = some position)
    (steady : Steady config (state.client position) call)
    (called : State.call config call (state.client position) = some (answer, after)) :
    Invariant config none { state.returned id after with log := (call, answer) :: state.log } := by
  have served := call_spec (invariant.alone here) steady called
  have shape := invariant.shape.client_returned here served.effect
  exact ⟨⟨shape.pool, shape.placed, shape.used, shape.apart, shape.claimed, shape.blank,
    shape.unlocked, shape.locked⟩, served.agrees, served.answers, invariant.truthful⟩

/-- A step of the machine, if each reclamation keeps the invariant. -/
theorem Invariant.step {zero : K × V} {action : Action K V} (invariant : Invariant config none state)
    (steady : ∀ id call position, action = .call id call → state.clients id = some position →
      Steady config (state.client position) call)
    (reclaims : ∀ id first_rand rand, action = .reclaim id first_rand rand →
      state.reclaim config id first_rand rand = some next → Invariant config none next)
    (stepped : (machine config zero).step state action = some next) : Invariant config none next := by
  cases action with
  | connect id rand => exact (invariant.connect stepped).1
  | call id call =>
      simp only [machine, Option.bind_eq_bind, Option.bind_eq_some_iff] at stepped
      obtain ⟨position, here, ⟨answer, after⟩, called, same⟩ := stepped
      cases same
      exact invariant.call here (steady id call position rfl here) called
  | disconnect id => exact (invariant.disconnect stepped).1
  | grow n =>
      simp only [machine] at stepped
      split at stepped
      · rename_i small
        cases stepped
        exact invariant.grow small
      · cases stepped
  | reclaim id first_rand rand => exact reclaims id first_rand rand rfl stepped

end Contents

end Hiom.Viper.Records.Plain
