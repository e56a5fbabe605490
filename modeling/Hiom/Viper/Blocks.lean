import Hiom.Lib.Held
import Hiom.Lib.Machine
import Mathlib

/-!
How clients claim VPage blocks, and the mark of used blocks that a reopened
database starts from. Every atomic operation of a claim is a step; a crash may
come after any of them. Block reclamation is off, so that no block comes from
`free_blocks_`.
-/

namespace Hiom.Viper

structure KVOffset where
  block_number : Nat
  page_number : Nat
  data_offset : Nat
  deriving DecidableEq

/-- Where a client is between two records. The stages up to `fence` are
`get_new_block` and what follows it in `get_block_based_access`. -/
inductive Access where
  | load
  | exchange (raw_block_page : KVOffset)
  | init (client_block client_page : Nat)
  | load_used (client_block : Nat)
  | raise (client_block prev : Nat)
  | flush (client_block : Nat)
  | fence (client_block start : Nat)
  | ready (client_block : Nat)
  | persist (client_block : Nat)
  deriving DecidableEq

/-- `given` lists the blocks handed out since the open and who got them, the
latest first. `stored` and `durable` list the blocks that hold a record which
has been stored, and one which has been written back. -/
structure Pool where
  current_block_page : KVOffset
  num_v_blocks : Nat
  num_used_blocks : Held
  created : Nat
  clients : Nat → Option Access
  given : List (Nat × Nat)
  stored : List Nat
  durable : List Nat

/-- `spurious` tells whether a weak compare-and-swap fails for no reason. -/
inductive Action where
  | get_client
  | access (id : Nat) (new_page : Nat) (spurious : Bool)
  | put (id : Nat)
  | update_access_information (id : Nat)
  | add_v_page_blocks (more : Nat)
  | crash (num_used_blocks num_v_blocks : Nat) (kept : List Nat)

def Pool.at (pool : Pool) (id : Nat) (access : Access) : Pool :=
  { pool with clients := Function.update pool.clients id (some access) }

/-- The next step of a client. The block that it gets is the one that
`current_block_page_` named before its successful exchange. -/
def Pool.access_step (pool : Pool) (id new_page : Nat) (spurious : Bool) : Option Pool :=
  match pool.clients id with
  | none | some (.ready _) => none
  | some .load => some (pool.at id (.exchange pool.current_block_page))
  | some (.exchange raw_block_page) =>
      -- spins until the block is mapped
      if raw_block_page.block_number < pool.num_v_blocks then
        if pool.current_block_page = raw_block_page ∧ spurious = false then
          some { pool.at id (.init raw_block_page.block_number raw_block_page.page_number) with
            current_block_page := ⟨raw_block_page.block_number + 1, new_page, 0⟩
            given := (id, raw_block_page.block_number) :: pool.given }
        else some (pool.at id (.exchange pool.current_block_page))
      else none
  | some (.init client_block _) => some (pool.at id (.load_used client_block))
  | some (.load_used client_block) =>
      some (pool.at id (.raise client_block pool.num_used_blocks.now))
  | some (.raise client_block prev) =>
      if prev < client_block + 1 then
        if pool.num_used_blocks.now = prev ∧ spurious = false then
          some { pool.at id (.flush client_block) with
            num_used_blocks := pool.num_used_blocks.store (client_block + 1) }
        else some (pool.at id (.raise client_block pool.num_used_blocks.now))
      else some (pool.at id (.flush client_block))
  | some (.flush client_block) =>
      some (pool.at id (.fence client_block pool.num_used_blocks.begin))
  | some (.fence client_block start) =>
      some { pool.at id (.ready client_block) with
        num_used_blocks := pool.num_used_blocks.finish start }
  | some (.persist client_block) =>
      some { pool.at id (.ready client_block) with durable := client_block :: pool.durable }

def Pool.opened (num_used_blocks num_v_blocks : Nat) (records : List Nat) : Pool where
  current_block_page := ⟨num_used_blocks, 0, 0⟩
  num_v_blocks := num_v_blocks
  num_used_blocks := .settled num_used_blocks
  created := 0
  clients := fun _ => none
  given := []
  stored := records
  durable := records

def Pool.step (pool : Pool) : Action → Option Pool
  | .get_client => some { pool.at pool.created .load with created := pool.created + 1 }
  | .access id new_page spurious => pool.access_step id new_page spurious
  | .put id =>
      match pool.clients id with
      | some (.ready client_block) =>
          some { pool.at id (.persist client_block) with stored := client_block :: pool.stored }
      | _ => none
  | .update_access_information id =>
      match pool.clients id with
      | some (.ready _) => some (pool.at id .load)
      | _ => none
  | .add_v_page_blocks more => some { pool with num_v_blocks := pool.num_v_blocks + more }
  | .crash num_used_blocks num_v_blocks kept =>
      -- a record that was written back survives, one that was only stored may
      if num_used_blocks ∈ pool.num_used_blocks.survivors ∧ pool.durable ⊆ kept ∧
          kept ⊆ pool.stored then
        some (Pool.opened num_used_blocks num_v_blocks kept)
      else none

def pool_machine : Machine Pool Action where
  initial := fun pool => ∃ num_v_blocks, pool = Pool.opened 0 num_v_blocks []
  step := Pool.step

/-! ### What the stages rely on -/

def Access.block : Access → Option Nat
  | .load | .exchange _ => none
  | .init client_block _ | .load_used client_block | .raise client_block _ | .flush client_block
  | .fence client_block _ | .ready client_block | .persist client_block => some client_block

def Access.Covered (mark : Held) (stored : List Nat) : Access → Prop
  | .raise _ prev => prev ≤ mark.now
  | .flush client_block => client_block < mark.now
  | .fence client_block start => mark.Above start client_block
  | .ready client_block => mark.Above mark.ruled_out client_block
  | .persist client_block => mark.Above mark.ruled_out client_block ∧ client_block ∈ stored
  | _ => True

structure Allocated (pool : Pool) : Prop where
  covered : ∀ id access, pool.clients id = some access → access.Covered pool.num_used_blocks pool.stored
  claimed : ∀ id access, pool.clients id = some access → ∀ block, access.block = some block →
    block < pool.current_block_page.block_number
  stored : ∀ block ∈ pool.stored, block < pool.current_block_page.block_number ∧
    pool.num_used_blocks.Above pool.num_used_blocks.ruled_out block
  durable : pool.durable ⊆ pool.stored
  given : (pool.given.map Prod.snd).Pairwise (· > ·)
  below : ∀ handed ∈ pool.given, handed.2 < pool.current_block_page.block_number

variable {pool next : Pool} {id : Nat} {access : Access}

theorem opened_allocated {mark num_v_blocks : Nat} {records : List Nat}
    (below : ∀ block ∈ records, block < mark) :
    Allocated (Pool.opened mark num_v_blocks records) where
  covered := fun _ _ absent => nomatch absent
  claimed := fun _ _ absent => nomatch absent
  stored := fun block member => ⟨below block member, Held.above_settled (below block member)⟩
  durable := List.Subset.refl _
  given := List.Pairwise.nil
  below := fun _ absent => nomatch absent

/-- A step that only moves one client on. -/
theorem Allocated.at (allocated : Allocated pool)
    (covered : access.Covered pool.num_used_blocks pool.stored)
    (claimed : ∀ block, access.block = some block →
      block < pool.current_block_page.block_number) : Allocated (pool.at id access) where
  covered := by
    intro other found present
    simp only [Pool.at, Function.update_apply] at present
    split at present
    · cases present
      exact covered
    · exact allocated.covered other found present
  claimed := by
    intro other found present
    simp only [Pool.at, Function.update_apply] at present
    split at present
    · cases present
      exact claimed
    · exact allocated.claimed other found present
  stored := allocated.stored
  durable := allocated.durable
  given := allocated.given
  below := allocated.below

/-- A step of a client that keeps its block. -/
theorem Allocated.move {before : Access} (allocated : Allocated pool)
    (stage : pool.clients id = some before) (same : access.block = before.block)
    (covered : access.Covered pool.num_used_blocks pool.stored) : Allocated (pool.at id access) :=
  allocated.at covered
    (fun block owned => allocated.claimed id before stage block (same.symm.trans owned))

/-- A step that raises the mark. -/
theorem Allocated.store {mark : Nat} (allocated : Allocated pool)
    (raised : pool.num_used_blocks.now < mark) :
    Allocated { pool with num_used_blocks := pool.num_used_blocks.store mark } where
  covered := by
    intro other found present
    have covered := allocated.covered other found present
    cases found with
    | raise => exact Nat.le_trans covered (Nat.le_of_lt raised)
    | flush => exact Nat.lt_trans covered raised
    | fence | ready => exact covered.store raised
    | persist => exact ⟨covered.1.store raised, covered.2⟩
    | _ => trivial
  claimed := allocated.claimed
  stored := fun block member =>
    ⟨(allocated.stored block member).1, (allocated.stored block member).2.store raised⟩
  durable := allocated.durable
  given := allocated.given
  below := allocated.below

/-- A step that completes a write-back of the mark. -/
theorem Allocated.finish (allocated : Allocated pool) (start : Nat) :
    Allocated { pool with num_used_blocks := pool.num_used_blocks.finish start } where
  covered := by
    intro other found present
    have covered := allocated.covered other found present
    cases found with
    | raise | flush | fence => exact covered
    | ready => exact covered.mono (Nat.le_max_left _ _)
    | persist => exact ⟨covered.1.mono (Nat.le_max_left _ _), covered.2⟩
    | _ => trivial
  claimed := allocated.claimed
  stored := fun block member =>
    ⟨(allocated.stored block member).1,
      (allocated.stored block member).2.mono (Nat.le_max_left _ _)⟩
  durable := allocated.durable
  given := allocated.given
  below := allocated.below

/-- A step that hands out the next block. -/
theorem Allocated.give (allocated : Allocated pool) (new_page : Nat) :
    Allocated { pool with
      current_block_page := ⟨pool.current_block_page.block_number + 1, new_page, 0⟩
      given := (id, pool.current_block_page.block_number) :: pool.given } where
  covered := allocated.covered
  claimed := fun other found present block owned =>
    Nat.lt_succ_of_lt (allocated.claimed other found present block owned)
  stored := fun block member =>
    ⟨Nat.lt_succ_of_lt (allocated.stored block member).1, (allocated.stored block member).2⟩
  durable := allocated.durable
  given := by
    rw [List.map_cons, List.pairwise_cons]
    refine ⟨fun block member => ?_, allocated.given⟩
    obtain ⟨handed, present, rfl⟩ := List.mem_map.mp member
    exact allocated.below handed present
  below := by
    intro handed member
    rcases List.mem_cons.mp member with rfl | member
    · exact Nat.lt_succ_self _
    · exact Nat.lt_succ_of_lt (allocated.below handed member)

/-- A step that stores a record. -/
theorem Allocated.record {client_block : Nat} (allocated : Allocated pool)
    (below : client_block < pool.current_block_page.block_number)
    (covered : pool.num_used_blocks.Above pool.num_used_blocks.ruled_out client_block) :
    Allocated { pool with stored := client_block :: pool.stored } where
  covered := by
    intro other found present
    have covered := allocated.covered other found present
    cases found with
    | persist => exact ⟨covered.1, List.mem_cons_of_mem _ covered.2⟩
    | _ => exact covered
  claimed := allocated.claimed
  stored := by
    intro block member
    rcases List.mem_cons.mp member with rfl | member
    · exact ⟨below, covered⟩
    · exact allocated.stored block member
  durable := fun _ member => List.mem_cons_of_mem _ (allocated.durable member)
  given := allocated.given
  below := allocated.below

theorem Allocated.access_step {new_page : Nat} {spurious : Bool} (allocated : Allocated pool)
    (stepped : pool.access_step id new_page spurious = some next) : Allocated next := by
  simp only [Pool.access_step] at stepped
  split at stepped
  · cases stepped
  · cases stepped
  · -- load
    cases stepped
    exact allocated.at trivial (fun _ owned => nomatch owned)
  · -- exchange
    rename_i raw_block_page stage
    split at stepped
    · split at stepped
      · rename_i exchanged
        cases stepped
        rw [← exchanged.1]
        exact (allocated.give new_page).at trivial
          (fun block owned => Option.some.inj owned ▸ Nat.lt_succ_self _)
      · cases stepped
        exact allocated.at trivial (fun _ owned => nomatch owned)
    · cases stepped
  · -- init
    rename_i stage
    cases stepped
    exact allocated.move stage rfl trivial
  · -- load_used
    rename_i stage
    cases stepped
    exact allocated.move stage rfl (Nat.le_refl _)
  · -- raise
    rename_i client_block prev stage
    split at stepped
    · rename_i lower
      split at stepped
      · rename_i exchanged
        cases stepped
        have raised := allocated.store (exchanged.1.trans_lt lower)
        exact raised.move stage rfl (Nat.lt_succ_self client_block)
      · cases stepped
        exact allocated.move stage rfl (Nat.le_refl _)
    · rename_i high
      cases stepped
      have loaded : prev ≤ pool.num_used_blocks.now := allocated.covered id _ stage
      exact allocated.move stage rfl (Nat.le_trans (Nat.not_lt.mp high) loaded)
  · -- flush
    rename_i stage
    cases stepped
    exact allocated.move stage rfl (Held.above_begin (allocated.covered id _ stage))
  · -- fence
    rename_i client_block start stage
    cases stepped
    have written : pool.num_used_blocks.Above start client_block := allocated.covered id _ stage
    exact (allocated.finish start).move stage rfl (written.mono (Nat.le_max_right _ _))
  · -- persist
    rename_i client_block stage
    cases stepped
    have covered : (Access.persist client_block).Covered _ _ := allocated.covered id _ stage
    have moved : Allocated (pool.at id (.ready client_block)) :=
      allocated.move stage rfl covered.1
    exact { moved with durable := List.cons_subset.mpr ⟨covered.2, allocated.durable⟩ }

theorem Allocated.step {action : Action} (allocated : Allocated pool)
    (stepped : pool.step action = some next) : Allocated next := by
  cases action with
  | get_client =>
      cases stepped
      have created : Allocated (pool.at pool.created .load) :=
        allocated.at trivial (fun _ owned => nomatch owned)
      exact { created with }
  | access id new_page spurious => exact allocated.access_step stepped
  | put id =>
      simp only [Pool.step] at stepped
      split at stepped
      · rename_i client_block stage
        cases stepped
        have covered : pool.num_used_blocks.Above _ client_block := allocated.covered id _ stage
        exact (allocated.record (allocated.claimed id _ stage _ rfl) covered).move stage rfl
          ⟨covered, List.mem_cons_self⟩
      · cases stepped
  | update_access_information id =>
      simp only [Pool.step] at stepped
      split at stepped
      · cases stepped
        exact allocated.at trivial (fun _ owned => nomatch owned)
      · cases stepped
  | add_v_page_blocks more =>
      cases stepped
      exact { allocated with }
  | crash mark num_v_blocks kept =>
      simp only [Pool.step] at stepped
      split at stepped
      · rename_i survived
        cases stepped
        exact opened_allocated (fun block member =>
          (allocated.stored block (survived.2.2 member)).2.2 mark survived.1)
      · cases stepped

theorem pool_allocated (reached : pool_machine.Reachable pool) : Allocated pool := by
  refine reached.invariant ?_ ?_
  · rintro pool ⟨num_v_blocks, rfl⟩
    exact opened_allocated (fun _ absent => nomatch absent)
  · intro pool action next allocated _ stepped
    exact allocated.step stepped

/-! ### The blocks handed out -/

structure BlocksSound (pool : Pool) : Prop where
  distinct : (pool.given.map Prod.snd).Nodup
  increasing : ∀ id, ((pool.given.filter (fun handed => handed.1 == id)).map Prod.snd).Pairwise
    (· > ·)
  covered : ∀ block ∈ pool.durable, ∀ mark ∈ pool.num_used_blocks.survivors, block < mark

/-- What a step keeps: the mark never goes down before a crash, and a block that
is handed out holds no record. -/
structure StepSound (pool next : Pool) (action : Action) : Prop where
  mark : (∀ num_used_blocks num_v_blocks kept,
      action ≠ .crash num_used_blocks num_v_blocks kept) →
    pool.num_used_blocks.now ≤ next.num_used_blocks.now
  unrecorded : ∀ id block, next.given = (id, block) :: pool.given →
    block ∉ pool.stored ∧ block ∉ pool.durable

theorem Allocated.sound (allocated : Allocated pool) : BlocksSound pool where
  distinct := allocated.given.imp Nat.ne_of_gt
  increasing := fun _ => allocated.given.sublist (List.Sublist.map _ List.filter_sublist)
  covered := fun block member =>
    (allocated.stored block (allocated.durable member)).2.2

structure Grows (pool next : Pool) : Prop where
  mark : pool.num_used_blocks.now ≤ next.num_used_blocks.now
  given : next.given = pool.given ∨
    ∃ id, next.given = (id, pool.current_block_page.block_number) :: pool.given

theorem access_step_grows {new_page : Nat} {spurious : Bool}
    (stepped : pool.access_step id new_page spurious = some next) : Grows pool next := by
  simp only [Pool.access_step] at stepped
  split at stepped
  case h_4 raw_block_page _ =>
    split at stepped
    · split at stepped
      · rename_i exchanged
        cases stepped
        exact ⟨Nat.le_refl _, .inr ⟨id, congrArg (fun page => (id, page.block_number) :: pool.given)
          exchanged.1.symm⟩⟩
      · cases stepped
        exact ⟨Nat.le_refl _, .inl rfl⟩
    · cases stepped
  case h_7 client_block prev _ =>
    split at stepped
    · rename_i lower
      split at stepped
      · rename_i exchanged
        cases stepped
        exact ⟨Nat.le_of_lt (exchanged.1.trans_lt lower), .inl rfl⟩
      · cases stepped
        exact ⟨Nat.le_refl _, .inl rfl⟩
    · cases stepped
      exact ⟨Nat.le_refl _, .inl rfl⟩
  all_goals cases stepped
  all_goals exact ⟨Nat.le_refl _, .inl rfl⟩

/-- A crash is the only step that may lower the mark. -/
theorem step_grows {action : Action} (stepped : pool.step action = some next) :
    Grows pool next ∨ ∃ num_used_blocks num_v_blocks kept,
      action = .crash num_used_blocks num_v_blocks kept ∧ next.given = [] := by
  cases action with
  | get_client =>
      cases stepped
      exact .inl ⟨Nat.le_refl _, .inl rfl⟩
  | access client new_page spurious => exact .inl (access_step_grows stepped)
  | put client =>
      simp only [Pool.step] at stepped
      split at stepped
      · cases stepped
        exact .inl ⟨Nat.le_refl _, .inl rfl⟩
      · cases stepped
  | update_access_information client =>
      simp only [Pool.step] at stepped
      split at stepped
      · cases stepped
        exact .inl ⟨Nat.le_refl _, .inl rfl⟩
      · cases stepped
  | add_v_page_blocks more =>
      cases stepped
      exact .inl ⟨Nat.le_refl _, .inl rfl⟩
  | crash mark num_v_blocks records =>
      simp only [Pool.step] at stepped
      split at stepped
      · cases stepped
        exact .inr ⟨_, _, _, rfl, rfl⟩
      · cases stepped

theorem Allocated.unrecorded {action : Action} {block : Nat} (allocated : Allocated pool)
    (stepped : pool.step action = some next)
    (handed : next.given = (id, block) :: pool.given) :
    block ∉ pool.stored ∧ block ∉ pool.durable := by
  have current : block = pool.current_block_page.block_number := by
    rcases step_grows stepped with grows | ⟨_, _, _, _, cleared⟩
    · rcases grows.given with kept | ⟨client, given⟩
      · exact absurd (kept.symm.trans handed).symm (List.cons_ne_self _ _)
      · exact (Prod.mk.inj (List.cons.inj (handed.symm.trans given)).1).2
    · cases cleared.symm.trans handed
  have unstored : block ∉ pool.stored :=
    fun member => absurd (allocated.stored block member).1 (current ▸ Nat.lt_irrefl _)
  exact ⟨unstored, fun member => unstored (allocated.durable member)⟩

theorem block_allocation (reached : pool_machine.Reachable pool) :
    BlocksSound pool ∧ ∀ action next, pool_machine.step pool action = some next →
      StepSound pool next action := by
  have allocated := pool_allocated reached
  refine ⟨allocated.sound, fun action next stepped => ⟨fun running => ?_, ?_⟩⟩
  · rcases step_grows stepped with grows | ⟨mark, num_v_blocks, kept, crashed, _⟩
    · exact grows.mark
    · exact absurd crashed (running mark num_v_blocks kept)
  · intro id block handed
    exact allocated.unrecorded stepped handed

/-- Two clients claim blocks 0 and 1; the second is the first to raise the mark
and puts a record, and the first one's claim is cut off by a crash. -/
def overtaken : List Action :=
  [.add_v_page_blocks 4, .get_client, .get_client, .access 0 0 false, .access 1 0 false,
    .access 0 3 false, .access 1 0 false, .access 1 5 false] ++
    List.replicate 5 (.access 1 0 false) ++
    [.put 1, .access 1 0 false, .access 0 0 false, .access 0 0 false, .access 0 0 false,
      .crash 2 4 [1], .get_client, .access 0 0 false, .access 0 0 false]

theorem block_allocation_overtaken :
    ∃ pool, pool.given = [(0, 2)] ∧ pool.durable = [1] ∧ BlocksSound pool := by
  obtain ⟨pool, ran, given, durable⟩ : ∃ pool,
      pool_machine.run (Pool.opened 0 0 []) overtaken = some pool ∧
        pool.given = [(0, 2)] ∧ pool.durable = [1] := ⟨_, rfl, rfl, rfl⟩
  exact ⟨pool, given, durable,
    (block_allocation (Machine.Reachable.run (.start ⟨0, rfl⟩) ran)).1⟩

end Hiom.Viper
